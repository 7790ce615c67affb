import IssuesApi.LinkPieces

/-!
# Links as they are written

A link stands in a header as its URL in angle brackets and the text of its parameters, and a
comma and a blank stand between two links.  Such a header is read back here, whatever the
parameters are: as long as every link closes the brackets it opens and what a comma cuts off
does not read as a link, the result is what the first `rel=` of each link says.

To a link whose URL is longer than all the rest of the header the converse applies
(`entry_of_long`): when the URL is found at all, it is found where the link begins.
-/

namespace IssuesApi

/-- A link as it is written. -/
structure WrittenLink where
  url : Text
  params : Text
  url_plain : ∀ c ∈ url, c ∉ ['<', '>']

namespace WrittenLink

/-- What stands before the parameters. -/
def opening (l : WrittenLink) : Text := '<' :: (l.url ++ ['>', ';', ' '])

/-- The whole link. -/
def text (l : WrittenLink) : Text := l.opening ++ l.params

/-- The match `_REL_PARAM.search` finds in the part of the parameters it is given. -/
def reading (l : WrittenLink) : Option RelMatch := searchRel (strip (headPiece 0 l.params))

/-- The entry of the piece that begins with the link. -/
def entry (l : WrittenLink) : Option (Text × Text) := do
  let m ← l.reading
  if m.text ≠ [] ∧ strip l.url ≠ [] then some (m.text, strip l.url) else none

/-- The first `rel` parameter is `rel=""`. -/
def Unnamed (l : WrittenLink) : Prop := ∃ m, l.reading = some m ∧ m.quoted = some []

/-- What a comma in the parameters cuts off does not read as a link. -/
def CutsSilent (l : WrittenLink) : Prop :=
  ∀ piece ∈ laterPieces 0 l.params, ¬ SaysLink piece

end WrittenLink

/-- The header of a list of links. -/
def writtenHeader (links : List WrittenLink) : Text :=
  joinSep ", ".toList (links.map WrittenLink.text)

/-- Every link but the last closes the brackets its parameters open. -/
def WrittenClosed (links : List WrittenLink) : Prop :=
  ∀ l ∈ links.dropLast, depthAfter 0 l.params = 0

@[simp] lemma writtenHeader_singleton (l : WrittenLink) : writtenHeader [l] = l.text :=
  joinSep_singleton _ _

lemma writtenHeader_cons_cons (l l' : WrittenLink) (links : List WrittenLink) :
    writtenHeader (l :: l' :: links) = l.text ++ ',' :: ' ' :: writtenHeader (l' :: links) := by
  simp [writtenHeader, joinSep_cons_cons]

lemma writtenClosed_cons_cons {l l' : WrittenLink} {links : List WrittenLink} :
    WrittenClosed (l :: l' :: links) ↔
      depthAfter 0 l.params = 0 ∧ WrittenClosed (l' :: links) := by
  rw [WrittenClosed, List.dropLast_cons_of_ne_nil (List.cons_ne_nil _ _), List.forall_mem_cons]
  rfl

/-! ## One link -/

/-- Inside brackets nothing is cut. -/
lemma laterPieces_inside {t : Text} (h : ∀ c ∈ t, c ∉ ['<', '>']) (depth : ℕ) :
    laterPieces (depth + 1) t = [] ∧ depthAfter (depth + 1) t = depth + 1 := by
  induction t with
  | nil => exact ⟨rfl, rfl⟩
  | cons c t ih =>
    have hc : c ≠ '<' ∧ c ≠ '>' := by simpa using h c (by simp)
    have hnext : nextDepth (depth + 1) c = depth + 1 := by rw [nextDepth, if_neg hc.1, if_neg hc.2]
    have hcut : ¬ Cuts (depth + 1) c := by
      rintro ⟨-, hzero⟩
      rw [hnext] at hzero
      cases hzero
    obtain ⟨hlater, hdepth⟩ := ih fun x hx => h x (List.mem_cons_of_mem _ hx)
    refine ⟨?_, ?_⟩
    · rw [laterPieces, if_neg hcut, hnext, hlater]
    · rw [depthAfter, List.foldl_cons, hnext]
      exact hdepth

namespace WrittenLink

lemma opening_spec (l : WrittenLink) (depth : ℕ) :
    laterPieces depth l.opening = [] ∧ depthAfter depth l.opening = depth := by
  obtain ⟨hlater, hdepth⟩ := laterPieces_inside l.url_plain depth
  have hnext : nextDepth depth '<' = depth + 1 := rfl
  have hcut : ¬ Cuts depth '<' := fun h => absurd h.1 (by decide)
  have hurl := pieces_append hlater ['>', ';', ' ']
  rw [hdepth] at hurl
  refine ⟨?_, ?_⟩
  · rw [opening, laterPieces, if_neg hcut, hnext, hurl.2]
    exact laterPieces_of_plain (by decide) _
  · have happend := depthAfter_append (depth + 1) l.url ['>', ';', ' ']
    rw [hdepth] at happend
    exact happend

lemma depthAfter_text (l : WrittenLink) (depth : ℕ) :
    depthAfter depth l.text = depthAfter depth l.params := by
  rw [text, depthAfter_append, (l.opening_spec depth).2]

/-- A link is cut where its parameters are. -/
lemma pieces_text (l : WrittenLink) : headPiece 0 l.text = l.opening ++ headPiece 0 l.params ∧
    laterPieces 0 l.text = laterPieces 0 l.params := by
  have hpieces := pieces_append (l.opening_spec 0).1 l.params
  rwa [(l.opening_spec 0).2] at hpieces

variable {l : WrittenLink} {blank : Text}

lemma segmentMatch_opening (hblank : ∀ c ∈ blank, isSpace c = true) (t : Text) :
    segmentMatch (blank ++ (l.opening ++ t)) = (searchRel (strip t)).map fun m => (l.url, m) := by
  have hurl : '>' ∉ l.url := fun h => l.url_plain _ h (by decide)
  rw [opening, List.cons_append, List.append_assoc]
  exact segmentMatch_link hblank hurl t

lemma segmentMatch_head (hblank : ∀ c ∈ blank, isSpace c = true) :
    segmentMatch (blank ++ (l.opening ++ headPiece 0 l.params)) =
      l.reading.map fun m => (l.url, m) :=
  segmentMatch_opening hblank _

lemma segmentEntry_head (hblank : ∀ c ∈ blank, isSpace c = true) :
    segmentEntry (blank ++ (l.opening ++ headPiece 0 l.params)) = l.entry := by
  rw [segmentEntry, segmentMatch_head hblank, entry]
  cases l.reading with
  | none => rfl
  | some m => rfl

lemma namesNothing_head_iff (hblank : ∀ c ∈ blank, isSpace c = true) :
    NamesNothing (blank ++ (l.opening ++ headPiece 0 l.params)) ↔ l.Unnamed := by
  rw [NamesNothing, segmentMatch_head hblank]
  constructor
  · rintro ⟨url, m, hmatch, hempty⟩
    obtain ⟨m', hm', heq⟩ := Option.map_eq_some_iff.mp hmatch
    obtain ⟨-, rfl⟩ := Prod.mk.inj heq
    exact ⟨m', hm', hempty⟩
  · rintro ⟨m, hm, hempty⟩
    exact ⟨l.url, m, by rw [hm]; rfl, hempty⟩

end WrittenLink

/-! ## A list of links -/

/-- The pieces of one link, with the blank that stands before it. -/
def linkPieces (blank : Text) (l : WrittenLink) : List Text :=
  (blank ++ (l.opening ++ headPiece 0 l.params)) :: laterPieces 0 l.params

/-- What stands before a link: nothing at the start of the header, else a blank. -/
def IsGap (blank : Text) : Prop := blank = [] ∨ blank = [' ']

lemma IsGap.isSpace {blank : Text} (h : IsGap blank) : ∀ c ∈ blank, isSpace c = true := by
  rcases h with rfl | rfl
  · decide
  · decide

lemma IsGap.pieces_text {blank : Text} (h : IsGap blank) (l : WrittenLink) :
    pieces 0 (blank ++ l.text) = linkPieces blank l ∧
      depthAfter 0 (blank ++ l.text) = depthAfter 0 l.params := by
  have hplain : laterPieces 0 blank = [] ∧ depthAfter 0 blank = 0 := by
    rcases h with rfl | rfl
    · decide
    · decide
  obtain ⟨hhead, hlater⟩ := pieces_append hplain.1 l.text
  rw [hplain.2] at hhead hlater
  refine ⟨?_, ?_⟩
  · rw [pieces, hhead, hlater, l.pieces_text.1, l.pieces_text.2, linkPieces]
  · rw [depthAfter_append, hplain.2, l.depthAfter_text]

/-- With their brackets closed, the links are cut at the commas between them. -/
lemma pieces_writtenHeader {links : List WrittenLink} : ∀ {l : WrittenLink} {blank : Text},
    IsGap blank → WrittenClosed (l :: links) →
      pieces 0 (blank ++ writtenHeader (l :: links)) =
        linkPieces blank l ++ links.flatMap (linkPieces [' ']) := by
  induction links with
  | nil =>
    intro l blank hgap _
    rw [writtenHeader_singleton, (hgap.pieces_text l).1, List.flatMap_nil, List.append_nil]
  | cons l' links ih =>
    intro l blank hgap h
    obtain ⟨hfirst, hrest⟩ := writtenClosed_cons_cons.mp h
    have hclosed : depthAfter 0 (blank ++ l.text) = 0 := by rw [(hgap.pieces_text l).2, hfirst]
    have hnext : pieces 0 (' ' :: writtenHeader (l' :: links)) =
        linkPieces [' '] l' ++ links.flatMap (linkPieces [' ']) := ih (Or.inr rfl) hrest
    rw [writtenHeader_cons_cons, ← List.append_assoc, pieces_append_comma hclosed, hnext,
      (hgap.pieces_text l).1]
    rfl

/-- What the pieces of a link say, when what a comma cuts off is silent. -/
lemma entries_linkPieces {l : WrittenLink} (h : l.CutsSilent) {blank : Text} (hgap : IsGap blank) :
    (linkPieces blank l).filterMap segmentEntry = l.entry.toList := by
  have hnone : (laterPieces 0 l.params).filterMap segmentEntry = [] := by
    exact List.filterMap_eq_nil_iff.mpr fun piece hpiece =>
      segmentEntry_of_not_saysLink (h piece hpiece)
  rw [linkPieces, List.filterMap_cons, WrittenLink.segmentEntry_head hgap.isSpace, hnone]
  cases l.entry with
  | none => rfl
  | some link => rfl

lemma namesNothing_linkPieces {l : WrittenLink} (h : l.CutsSilent) {blank : Text}
    (hgap : IsGap blank) : (∀ piece ∈ linkPieces blank l, ¬ NamesNothing piece) ↔
      ¬ l.Unnamed := by
  rw [linkPieces, List.forall_mem_cons, WrittenLink.namesNothing_head_iff hgap.isSpace]
  exact and_iff_left fun piece hpiece => not_namesNothing_of_not_saysLink (h piece hpiece)

/-- **What a header of links is read as**, brackets closed and cuts silent: what the first
`rel=` of each link says. -/
theorem parseLinkHeader_writtenHeader {links : List WrittenLink} (hne : links ≠ [])
    (hclosed : WrittenClosed links) (hsilent : ∀ l ∈ links, l.CutsSilent) {found : Links} :
    parseLinkHeader (some (writtenHeader links)) = .ok found ↔
      (∀ l ∈ links, ¬ l.Unnamed) ∧
        found = winners Prod.fst [] (links.filterMap WrittenLink.entry) := by
  obtain ⟨l, links, rfl⟩ := List.exists_cons_of_ne_nil hne
  have hpieces : pieces 0 (writtenHeader (l :: links)) =
      linkPieces [] l ++ links.flatMap (linkPieces [' ']) :=
    pieces_writtenHeader (Or.inl rfl) hclosed
  have hentries : (pieces 0 (writtenHeader (l :: links))).filterMap segmentEntry =
      (l :: links).filterMap WrittenLink.entry := by
    have hrest : (links.flatMap (linkPieces [' '])).filterMap segmentEntry =
        links.filterMap WrittenLink.entry := by
      rw [List.filterMap_flatMap, List.filterMap_eq_flatMap_toList]
      exact List.flatMap_congr fun x hx =>
        entries_linkPieces (hsilent x (List.mem_cons_of_mem _ hx)) (Or.inr rfl)
    rw [hpieces, List.filterMap_append, entries_linkPieces (hsilent l (by simp)) (Or.inl rfl),
      hrest]
    cases hhead : l.entry with
    | none => simp [hhead]
    | some link => simp [hhead]
  have hnamed : (∀ piece ∈ pieces 0 (writtenHeader (l :: links)), ¬ NamesNothing piece) ↔
      ∀ x ∈ l :: links, ¬ x.Unnamed := by
    rw [hpieces, List.forall_mem_append, List.forall_mem_cons,
      namesNothing_linkPieces (hsilent l (by simp)) (Or.inl rfl)]
    refine and_congr_right fun _ => ?_
    rw [List.forall_mem_flatMap]
    exact forall₂_congr fun x hx =>
      namesNothing_linkPieces (hsilent x (List.mem_cons_of_mem _ hx)) (Or.inr rfl)
  rw [parseLinkHeader_ok_iff_pieces, hentries, hnamed]

/-! ## Plain parameters -/

/-- A quoted relation is found where it starts. -/
lemma searchRel_quoted {rel : Text} (h : '"' ∉ rel) (rest : Text) :
    searchRel ("rel=\"".toList ++ rel ++ '"' :: rest) = some ⟨some rel, none⟩ := by
  have hrel : ∀ c ∈ rel, (c != '"') = true := by
    intro c hc
    simpa using fun heq : c = '"' => h (heq ▸ hc)
  have hvalue : matchRelValue ('"' :: (rel ++ '"' :: rest)) = some ⟨some rel, none⟩ := by
    rw [matchRelValue, if_pos (by simp), takeWhile_append_cons rest hrel (by decide)]
  have hmatch : matchRel ('r' :: 'e' :: 'l' :: '=' :: '"' :: (rel ++ '"' :: rest)) =
      some ⟨some rel, none⟩ := by
    rw [← hvalue]
    rfl
  have hparams : "rel=\"".toList ++ rel ++ '"' :: rest =
      'r' :: 'e' :: 'l' :: '=' :: '"' :: (rel ++ '"' :: rest) := by
    simp
  rw [hparams, searchRel, hmatch]

lemma depthAfter_of_plain {t : Text} (h : ∀ c ∈ t, c ∉ ['<', '>']) (depth : ℕ) :
    depthAfter depth t = depth := by
  induction t with
  | nil => rfl
  | cons c t ih =>
    have hc : c ≠ '<' ∧ c ≠ '>' := by simpa using h c (by simp)
    have hnext : nextDepth depth c = depth := by rw [nextDepth, if_neg hc.1, if_neg hc.2]
    rw [depthAfter, List.foldl_cons, hnext]
    exact ih fun x hx => h x (List.mem_cons_of_mem _ hx)

namespace WrittenLink

/-- The parameters neither cut nor do they open brackets, and their first relation is this one. -/
structure Plain (l : WrittenLink) (rel : Text) : Prop where
  chars : ∀ c ∈ l.params, c ∉ [',', '<', '>']
  trimmed : Trimmed l.params
  first : searchRel l.params = some ⟨some rel, none⟩

variable {l : WrittenLink} {rel : Text}

lemma Plain.laterPieces_params (h : l.Plain rel) : laterPieces 0 l.params = [] :=
  laterPieces_of_plain (fun hmem => h.chars _ hmem (by decide)) 0

lemma Plain.cutsSilent (h : l.Plain rel) : l.CutsSilent := by
  intro piece hpiece
  rw [h.laterPieces_params] at hpiece
  cases hpiece

lemma Plain.depthAfter_params (h : l.Plain rel) : depthAfter 0 l.params = 0 :=
  depthAfter_of_plain (fun c hc hbad => h.chars c hc (List.mem_cons_of_mem _ hbad)) 0

lemma Plain.reading_eq (h : l.Plain rel) : l.reading = some ⟨some rel, none⟩ := by
  have hhead : headPiece 0 l.params = l.params := by
    have hpieces := (pieces_append h.laterPieces_params []).1
    rw [List.append_nil] at hpieces
    rw [hpieces, headPiece, List.append_nil]
  rw [reading, hhead, strip_of_trimmed h.trimmed, h.first]

end WrittenLink

/-! ## A long URL -/

/-- What says a URL that is longer than all that stands around it is the piece that begins with
it, and what it says is what the parameters do. -/
lemma WrittenLink.entry_of_long (l : WrittenLink) {before after rel : Text}
    (hlong : before.length + (l.params ++ after).length < (strip l.url).length)
    (hsaid : ∃ piece ∈ pieces 0 (before ++ (l.text ++ after)),
      segmentEntry piece = some (rel, strip l.url)) :
    (∃ others last, pieces 0 before = others ++ [last] ∧ ∀ c ∈ last, isSpace c = true) ∧
      ∃ m, searchRel (strip (headPiece (depthAfter 0 before) (l.params ++ after))) = some m ∧
        m.text = rel := by
  obtain ⟨others, last, hpieces, happend⟩ := exists_last_piece 0 before
  have htext : l.text ++ after = l.opening ++ (l.params ++ after) := List.append_assoc ..
  obtain ⟨hopening, hdepth⟩ := l.opening_spec (depthAfter 0 before)
  obtain ⟨hhead, hlater⟩ := pieces_append hopening (l.params ++ after)
  rw [hdepth] at hhead hlater
  rw [htext, happend, hhead, hlater] at hsaid
  obtain ⟨piece, hpiece, hentry⟩ := hsaid
  have hlength := length_le_of_segmentEntry hentry
  have hbefore : ∀ piece ∈ others ++ [last], piece.length ≤ before.length :=
    hpieces ▸ length_le_of_mem_pieces
  rcases List.mem_append.mp hpiece with hothers | hpiece
  · have hle := hbefore piece (List.mem_append_left _ hothers)
    omega
  · rcases List.mem_cons.mp hpiece with rfl | hpiece
    · by_cases hblank : lstrip last = []
      · have hspace : ∀ c ∈ last, isSpace c = true := List.dropWhile_eq_nil_iff.mp hblank
        refine ⟨⟨others, last, hpieces, hspace⟩, ?_⟩
        obtain ⟨⟨url, m⟩, hmatch, hif⟩ := Option.bind_eq_some_iff.mp hentry
        rw [segmentMatch_opening hspace] at hmatch
        obtain ⟨m', hsearch, heq⟩ := Option.map_eq_some_iff.mp hmatch
        obtain ⟨-, rfl⟩ := Prod.mk.inj heq
        dsimp only at hif
        split at hif
        · exact ⟨m', hsearch, (Prod.mk.inj (Option.some.inj hif)).1⟩
        · cases hif
      · have hle := hbefore last (by simp)
        rcases url_of_text_before hblank hentry with hshort | hbracket
        · omega
        · exact absurd (List.mem_cons_self ..)
            (l.url_plain _ ((strip_sublist l.url).subset hbracket))
    · have hle : piece.length ≤ (l.params ++ after).length :=
        length_le_of_mem_pieces piece (List.mem_cons_of_mem _ hpiece)
      omega

end IssuesApi
