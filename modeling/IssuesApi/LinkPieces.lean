import IssuesApi.RelParams

/-!
# Where a header is cut

`_split_segments` knows angle brackets and commas, and nothing else.  Here its cuts are stated
for a text in the middle of a header: what stands before the first cut (`headPiece`), what stands
after each (`laterPieces`), and how many brackets are open at the end.  A header is put together
from such texts.

At the end, a long URL: what says a URL that is longer than all the rest of a header must be the
piece that begins with it.
-/

namespace IssuesApi

/-- The open brackets after a text. -/
def depthAfter (depth : ℕ) (t : Text) : ℕ := t.foldl nextDepth depth

/-- A text up to its first cut. -/
def headPiece : ℕ → Text → Text
  | _, [] => []
  | depth, char :: t =>
    if Cuts depth char then [] else char :: headPiece (nextDepth depth char) t

/-- What stands after each cut, up to the next. -/
def laterPieces : ℕ → Text → List Text
  | _, [] => []
  | depth, char :: t =>
    if Cuts depth char then
      headPiece (nextDepth depth char) t :: laterPieces (nextDepth depth char) t
    else laterPieces (nextDepth depth char) t

/-- All pieces of a text. -/
def pieces (depth : ℕ) (t : Text) : List Text := headPiece depth t :: laterPieces depth t

/-! ## The pieces are the segments -/

/-- The loop returns the pieces, but for an empty one at the end. -/
lemma splitSegmentsAux_pieces (t : Text) : ∀ (depth : ℕ) (current : Text), ∃ rest,
    (current ++ headPiece depth t) :: laterPieces depth t =
      splitSegmentsAux t depth current ++ rest ∧ (rest = [] ∨ rest = [[]]) := by
  induction t with
  | nil =>
    intro depth current
    by_cases hempty : current = []
    · exact ⟨[[]], by simp [hempty, splitSegmentsAux, headPiece, laterPieces], Or.inr rfl⟩
    · exact ⟨[], by simp [hempty, splitSegmentsAux, headPiece, laterPieces], Or.inl rfl⟩
  | cons char t ih =>
    intro depth current
    rw [splitSegmentsAux_cons, headPiece, laterPieces]
    by_cases hcut : Cuts depth char
    · obtain ⟨rest, hrest, hor⟩ := ih (nextDepth depth char) []
      rw [List.nil_append] at hrest
      refine ⟨rest, ?_, hor⟩
      rw [if_pos hcut, if_pos hcut, if_pos hcut, List.append_nil, hrest, List.cons_append]
    · obtain ⟨rest, hrest, hor⟩ := ih (nextDepth depth char) (current ++ [char])
      refine ⟨rest, ?_, hor⟩
      rw [if_neg hcut, if_neg hcut, if_neg hcut, ← hrest, List.append_assoc, List.singleton_append]

lemma exists_pieces_eq (value : Text) :
    ∃ rest, pieces 0 value = splitSegments value ++ rest ∧ (rest = [] ∨ rest = [[]]) :=
  splitSegmentsAux_pieces value 0 []

lemma segmentMatch_nil : segmentMatch [] = none := rfl

/-- An empty piece says nothing, so parsing reads the pieces. -/
lemma parseLinkHeader_ok_iff_pieces {value : Text} {links : Links} :
    parseLinkHeader (some value) = .ok links ↔ (∀ piece ∈ pieces 0 value, ¬ NamesNothing piece) ∧
      links = winners Prod.fst [] ((pieces 0 value).filterMap segmentEntry) := by
  obtain ⟨rest, hpieces, hrest⟩ := exists_pieces_eq value
  have hsilent : ∀ piece ∈ rest, segmentMatch piece = none := by
    rcases hrest with rfl | rfl
    · simp
    · simpa using segmentMatch_nil
  have hentries : (pieces 0 value).filterMap segmentEntry = linkEntries value := by
    have hnone : rest.filterMap segmentEntry = [] := by
      refine List.filterMap_eq_nil_iff.mpr fun piece hpiece => ?_
      rw [segmentEntry, hsilent piece hpiece]
      rfl
    rw [hpieces, List.filterMap_append, hnone, List.append_nil, linkEntries]
  have hnamed : (∀ piece ∈ pieces 0 value, ¬ NamesNothing piece) ↔
      ∀ segment ∈ splitSegments value, ¬ NamesNothing segment := by
    rw [hpieces, List.forall_mem_append]
    refine and_iff_left fun piece hpiece hnothing => ?_
    obtain ⟨url, m, hmatch, -⟩ := hnothing
    rw [hsilent piece hpiece] at hmatch
    cases hmatch
  rw [parseLinkHeader_ok_iff, hentries, hnamed, keptLinks]

/-! ## Texts one after the other -/

lemma depthAfter_append (depth : ℕ) (s t : Text) :
    depthAfter depth (s ++ t) = depthAfter (depthAfter depth s) t := List.foldl_append

/-- A comma between two texts cuts when the first has closed its brackets. -/
lemma pieces_append_comma {t : Text} {depth : ℕ} (h : depthAfter depth t = 0) (rest : Text) :
    pieces depth (t ++ ',' :: rest) = pieces depth t ++ pieces 0 rest := by
  induction t generalizing depth with
  | nil =>
    obtain rfl : depth = 0 := h
    have hcut : Cuts 0 ',' := by decide
    rw [List.nil_append, pieces, headPiece, laterPieces, if_pos hcut, if_pos hcut]
    rfl
  | cons char t ih =>
    have ih : pieces (nextDepth depth char) (t ++ ',' :: rest) =
        pieces (nextDepth depth char) t ++ pieces 0 rest := ih h
    rw [pieces, pieces, List.cons_append, List.cons.injEq] at ih
    rw [List.cons_append, pieces, pieces, headPiece, headPiece, laterPieces, laterPieces]
    split
    · rw [ih.1, ih.2]
      rfl
    · rw [ih.1, ih.2]
      rfl

/-- A text that is not cut belongs to the piece it stands in. -/
lemma pieces_append {t : Text} {depth : ℕ} (h : laterPieces depth t = []) (rest : Text) :
    headPiece depth (t ++ rest) = t ++ headPiece (depthAfter depth t) rest ∧
      laterPieces depth (t ++ rest) = laterPieces (depthAfter depth t) rest := by
  induction t generalizing depth with
  | nil => exact ⟨rfl, rfl⟩
  | cons char t ih =>
    rw [laterPieces] at h
    split at h
    · cases h
    · next hcut =>
      obtain ⟨hhead, hlater⟩ := ih h
      rw [List.cons_append, headPiece, laterPieces, if_neg hcut, if_neg hcut, hhead, hlater]
      exact ⟨rfl, rfl⟩

/-- Without commas there are no cuts. -/
lemma laterPieces_of_plain {t : Text} (h : ',' ∉ t) (depth : ℕ) : laterPieces depth t = [] := by
  induction t generalizing depth with
  | nil => rfl
  | cons char t ih =>
    rw [List.mem_cons, not_or] at h
    rw [laterPieces, if_neg fun hcut => h.1 hcut.1.symm, ih h.2]

/-- The last piece of a text goes on in what follows. -/
lemma exists_last_piece (depth : ℕ) (t : Text) : ∃ others last, pieces depth t = others ++ [last] ∧
    ∀ rest, pieces depth (t ++ rest) = others ++ (last ++ headPiece (depthAfter depth t) rest) ::
      laterPieces (depthAfter depth t) rest := by
  induction t generalizing depth with
  | nil => exact ⟨[], [], rfl, fun _ => rfl⟩
  | cons char t ih =>
    obtain ⟨others, last, hpieces, happend⟩ := ih (nextDepth depth char)
    have hdepth : depthAfter depth (char :: t) = depthAfter (nextDepth depth char) t := rfl
    rw [hdepth]
    by_cases hcut : Cuts depth char
    · refine ⟨[] :: others, last, ?_, fun rest => ?_⟩
      · rw [List.cons_append, ← hpieces, pieces, headPiece, laterPieces, if_pos hcut, if_pos hcut]
        rfl
      · rw [List.cons_append, List.cons_append, ← happend, pieces, headPiece, laterPieces,
          if_pos hcut, if_pos hcut]
        rfl
    · have hcons : ∀ u, pieces depth (char :: u) =
          (char :: headPiece (nextDepth depth char) u) :: laterPieces (nextDepth depth char) u :=
        fun u => by rw [pieces, headPiece, laterPieces, if_neg hcut, if_neg hcut]
      simp only [pieces] at hpieces happend
      cases others with
      | nil =>
        obtain ⟨hhead, hlater⟩ := List.cons.inj hpieces
        refine ⟨[], char :: last, by rw [hcons, hhead, hlater]; rfl, fun rest => ?_⟩
        obtain ⟨hhead, hlater⟩ := List.cons.inj (happend rest)
        rw [List.cons_append, hcons, hhead, hlater]
        rfl
      | cons piece others =>
        obtain ⟨hhead, hlater⟩ := List.cons.inj hpieces
        refine ⟨(char :: piece) :: others, last, by rw [hcons, hhead, hlater]; rfl,
          fun rest => ?_⟩
        obtain ⟨hhead, hlater⟩ := List.cons.inj (happend rest)
        rw [List.cons_append, hcons, hhead, hlater]
        rfl

/-- A text with a comma outside brackets ends its first piece itself. -/
lemma headPiece_append_of_cut {t : Text} {depth : ℕ} (h : laterPieces depth t ≠ []) (rest : Text) :
    headPiece depth (t ++ rest) = headPiece depth t := by
  induction t generalizing depth with
  | nil => exact absurd rfl h
  | cons char t ih =>
    rw [laterPieces] at h
    rw [List.cons_append, headPiece, headPiece]
    split_ifs with hcut
    · rfl
    · rw [if_neg hcut] at h
      rw [ih h]

/-- A text is not cut when all its commas stand in brackets. -/
lemma laterPieces_eq_nil_iff {t : Text} {depth : ℕ} :
    laterPieces depth t = [] ↔ ∀ u v, t = u ++ ',' :: v → depthAfter depth u ≠ 0 := by
  induction t generalizing depth with
  | nil => simp [laterPieces]
  | cons char t ih =>
    rw [laterPieces]
    split_ifs with hcut
    · refine iff_of_false (by simp) fun h => ?_
      obtain ⟨rfl, hzero⟩ := hcut
      exact h [] t rfl hzero
    · rw [ih]
      constructor
      · intro h u v heq
        cases u with
        | nil =>
          obtain ⟨rfl, rfl⟩ := List.cons.inj heq
          exact fun hzero => hcut ⟨rfl, hzero⟩
        | cons c u =>
          obtain ⟨rfl, rfl⟩ := List.cons.inj heq
          exact h u v rfl
      · intro h u v heq
        exact h (char :: u) v (by rw [heq]; rfl)

/-- No piece is longer than the text. -/
lemma length_le_of_mem_pieces {t : Text} {depth : ℕ} : ∀ piece ∈ pieces depth t,
    piece.length ≤ t.length := by
  induction t generalizing depth with
  | nil => simp [pieces, headPiece, laterPieces]
  | cons char t ih =>
    have ih := @ih (nextDepth depth char)
    rw [pieces, List.forall_mem_cons] at ih
    rw [pieces, headPiece, laterPieces, List.length_cons]
    split_ifs with hcut
    · simp only [List.forall_mem_cons]
      exact ⟨Nat.zero_le _, by omega, fun piece hpiece => (ih.2 piece hpiece).trans (by omega)⟩
    · simp only [List.forall_mem_cons, List.length_cons]
      exact ⟨by omega, fun piece hpiece => (ih.2 piece hpiece).trans (by omega)⟩

lemma depthAfter_mono {depth depth' : ℕ} (h : depth ≤ depth') (t : Text) :
    depthAfter depth t ≤ depthAfter depth' t := by
  induction t generalizing depth depth' with
  | nil => exact h
  | cons c t ih =>
    refine ih ?_
    unfold nextDepth
    split
    · omega
    · split <;> omega

/-! ## Reading a piece -/

/-- A piece that begins with a link, blanks before it or not. -/
lemma segmentMatch_link {blank url : Text} (hblank : ∀ c ∈ blank, isSpace c = true)
    (hurl : '>' ∉ url) (t : Text) :
    segmentMatch (blank ++ '<' :: (url ++ '>' :: ';' :: ' ' :: t)) =
      (searchRel (strip t)).map fun m => (url, m) := by
  have hstrip : strip (blank ++ '<' :: (url ++ '>' :: ';' :: ' ' :: t)) =
      '<' :: (url ++ '>' :: ';' :: rstrip (' ' :: t)) := by
    have hleft : lstrip (blank ++ '<' :: (url ++ '>' :: ';' :: ' ' :: t)) =
        '<' :: (url ++ '>' :: ';' :: ' ' :: t) := by
      rw [lstrip, List.dropWhile_append_of_pos hblank, List.dropWhile_cons_of_neg (by decide)]
    rw [strip, hleft]
    have hright := rstrip_append_cons (c := ';') (by decide) ('<' :: (url ++ ['>'])) (' ' :: t)
    simpa using hright
  have hchars : ∀ c ∈ url, (c != '>') = true := by
    intro c hc
    simpa using fun h : c = '>' => hurl (h ▸ hc)
  have hmatch : matchLinkSegment ('<' :: (url ++ '>' :: ';' :: rstrip (' ' :: t))) =
      some (url, lstrip (rstrip (' ' :: t))) := by
    rw [matchLinkSegment, dropWhile_append_cons _ hchars (by decide),
      takeWhile_append_cons _ hchars (by decide)]
    rfl
  rw [segmentMatch, hstrip, hmatch, lstrip_rstrip, strip_cons_of_isSpace (by decide)]
  cases hrel : searchRel (strip t) with
  | none => simp [hrel]
  | some m => simp [hrel]

/-! ## URLs and where they stand -/

/-- The URL of an entry stands in its segment. -/
lemma length_le_of_segmentEntry {segment rel url : Text}
    (h : segmentEntry segment = some (rel, url)) : url.length ≤ segment.length := by
  obtain ⟨⟨target, m⟩, hmatch, hif⟩ := Option.bind_eq_some_iff.mp h
  obtain ⟨gap, params, hstrip, -⟩ := segmentMatch_iff.mp hmatch
  dsimp only at hif
  split at hif
  · obtain ⟨-, rfl⟩ := Prod.mk.inj (Option.some.inj hif)
    have hle := length_strip_le segment
    rw [hstrip, List.length_cons, List.length_append] at hle
    exact (length_strip_le target).trans (by omega)
  · cases hif

/-- When something stands before an opening bracket, the URL ends before it or goes beyond it. -/
lemma url_of_text_before {before : Text} (hbefore : lstrip before ≠ []) {rest rel url : Text}
    (h : segmentEntry (before ++ '<' :: rest) = some (rel, url)) :
    url.length ≤ before.length ∨ '<' ∈ url := by
  obtain ⟨⟨target, m⟩, hmatch, hif⟩ := Option.bind_eq_some_iff.mp h
  obtain ⟨gap, params, hstrip, -⟩ := segmentMatch_iff.mp hmatch
  dsimp only at hif
  split at hif
  · obtain ⟨-, rfl⟩ := Prod.mk.inj (Option.some.inj hif)
    obtain ⟨c, text, htext⟩ := List.exists_cons_of_ne_nil hbefore
    have hlength : text.length ≤ before.length := by
      have hle := (List.dropWhile_sublist isSpace (l := before)).length_le
      rw [← lstrip, htext, List.length_cons] at hle
      omega
    rw [strip_append_cons (by decide), htext, List.cons_append, List.cons.injEq] at hstrip
    rcases List.append_eq_append_iff.mp hstrip.2 with ⟨more, htarget, hrest⟩ | ⟨more, htarget, -⟩
    · cases more with
      | nil => cases hrest
      | cons c more =>
        obtain ⟨rfl, -⟩ := List.cons.inj hrest
        right
        rw [htarget, strip_append_cons (by decide)]
        simp
    · left
      rw [htarget, List.length_append] at hlength
      exact (length_strip_le target).trans (by omega)
  · cases hif

end IssuesApi
