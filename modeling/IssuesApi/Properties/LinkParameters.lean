import IssuesApi.ParamLinks

/-!
# Other link parameters

Extra parameters of a link are meant not to change what it says.  The parser knows neither
quoted strings nor parameter names, so that holds only as far as the parameters do not look like
something else: a comma in a quoted string ends the link, a bracket in one keeps the next link
from being seen, and `rel=` is read wherever it stands first, be it in a quoted string or at the
end of a longer name.

`parseLinkHeader_params_iff` says for which parameters links are read as they are meant, whatever
their URLs and relations are.  That nothing else will do is seen with relations and URLs that
occur nowhere else in the header, because they are too long.
-/

namespace IssuesApi

/-! ## Harmless parameters -/

/-- Links with harmless parameters are read as they are meant. -/
lemma parseLinkHeader_of_harmless {links : List ParamLink}
    (hrels : (links.map ParamLink.rel).Nodup) (hclosed : BracketsClosed links)
    (hharmless : ∀ l ∈ links, l.Harmless) :
    parseLinkHeader (some (paramHeader links)) = .ok (links.map ParamLink.entry) := by
  by_cases hne : links = []
  · subst hne
    rfl
  have hentries : (links.map ParamLink.written).filterMap WrittenLink.entry =
      links.map ParamLink.entry := by
    rw [List.filterMap_map, List.filterMap_eq_map_iff_forall_eq_some]
    exact fun l hl => (hharmless l hl).entry_eq
  have hall : ([] ++ (links.map ParamLink.entry).map Prod.fst).Nodup := by
    rw [List.nil_append, List.map_map]
    exact hrels
  rw [← writtenHeader_params, parseLinkHeader_writtenHeader (by simpa using hne)
    (writtenClosed_params.mpr hclosed) (List.forall_mem_map.mpr fun l hl =>
      (hharmless l hl).cutsSilent), hentries, winners_of_nodup hall]
  exact ⟨List.forall_mem_map.mpr fun l hl => (hharmless l hl).not_unnamed, rfl⟩

/-! ## A link with a long URL -/

/-- The links before one in a header, with their separators. -/
def headerBefore (links : List ParamLink) : Text :=
  (links.map ParamLink.text).flatMap (· ++ ", ".toList)

/-- And those behind it. -/
def headerAfter (links : List ParamLink) : Text :=
  (links.map ParamLink.text).flatMap (", ".toList ++ ·)

lemma paramHeader_append_cons (before after : List ParamLink) (l : ParamLink) :
    paramHeader (before ++ l :: after) = headerBefore before ++ (l.text ++ headerAfter after) := by
  rw [paramHeader, List.map_append, List.map_cons, joinSep_append_cons]
  rfl

/-- The separator before a link cuts only when no bracket is open. -/
lemma depthAfter_of_blank {t last : Text} {others : List Text}
    (hpieces : pieces 0 (t ++ ", ".toList) = others ++ [last])
    (hblank : ∀ c ∈ last, isSpace c = true) : depthAfter 0 t = 0 := by
  by_contra hopen
  obtain ⟨others', last', -, happend⟩ := exists_last_piece 0 t
  have hnocut : ∀ c ∈ ", ".toList, ¬ Cuts (depthAfter 0 t) c := by
    rintro c - ⟨rfl, hzero⟩
    exact hopen hzero
  have hnext : nextDepth (depthAfter 0 t) ',' = depthAfter 0 t := rfl
  have hhead : headPiece (depthAfter 0 t) ", ".toList = ", ".toList := by
    show headPiece (depthAfter 0 t) [',', ' '] = [',', ' ']
    rw [headPiece, if_neg (hnocut ',' (by decide)), hnext, headPiece,
      if_neg (hnocut ' ' (by decide))]
    rfl
  have hlater : laterPieces (depthAfter 0 t) ", ".toList = [] := by
    show laterPieces (depthAfter 0 t) [',', ' '] = []
    rw [laterPieces, if_neg (hnocut ',' (by decide)), hnext, laterPieces,
      if_neg (hnocut ' ' (by decide))]
    rfl
  rw [happend, hhead, hlater] at hpieces
  obtain ⟨-, hlast⟩ := List.append_singleton_inj.mp hpieces
  exact absurd (hblank ',' (by rw [← hlast]; simp)) (by decide)

/-- Some piece of the header says the link, when it is parsed to what is meant. -/
lemma exists_piece_of_parse {before after : List ParamLink} {l : ParamLink}
    (hparse : parseLinkHeader (some (paramHeader (before ++ l :: after))) =
      .ok ((before ++ l :: after).map ParamLink.entry)) :
    ∃ piece ∈ pieces 0 (headerBefore before ++ (l.written.text ++ headerAfter after)),
      segmentEntry piece = some l.entry := by
  obtain ⟨-, hentries⟩ := parseLinkHeader_ok_iff_pieces.mp hparse
  have hmem : l.entry ∈ winners Prod.fst []
      ((pieces 0 (paramHeader (before ++ l :: after))).filterMap segmentEntry) := by
    rw [← hentries]
    simp
  have hfound := (winners_sublist _ _ _).subset hmem
  rwa [paramHeader_append_cons, List.mem_filterMap] at hfound

/-- When the separator before a link cuts, the link before has closed its brackets. -/
lemma closed_of_blank {before : List ParamLink} {last : Text} {others : List Text}
    (hpieces : pieces 0 (headerBefore before) = others ++ [last])
    (hblank : ∀ c ∈ last, isSpace c = true) :
    depthAfter 0 (headerBefore before) = 0 ∧
      ∀ k ∈ before.getLast?, depthAfter 0 k.params = 0 := by
  rcases List.eq_nil_or_concat' before with rfl | ⟨first, k, rfl⟩
  · exact ⟨rfl, by simp⟩
  · have hbefore : headerBefore (first ++ [k]) =
        (headerBefore first ++ k.written.text) ++ ", ".toList := by
      simp only [headerBefore, List.map_append, List.flatMap_append, List.map_singleton,
        List.flatMap_singleton, List.append_assoc]
      rfl
    rw [hbefore] at hpieces ⊢
    have hzero := depthAfter_of_blank hpieces hblank
    refine ⟨by rw [depthAfter_append, hzero]; rfl, ?_⟩
    rw [depthAfter_append, k.written.depthAfter_text] at hzero
    have hmono := depthAfter_mono (Nat.zero_le (depthAfter 0 (headerBefore first))) k.params
    intro k' hk'
    obtain rfl : k = k' := by simpa using hk'
    exact Nat.le_zero.mp (hmono.trans_eq hzero)

/-- What follows a link with closed brackets is cut off it. -/
lemma headPiece_append_headerAfter {params : Text} {after : List ParamLink}
    (hend : after = [] ∨ depthAfter 0 params = 0) :
    headPiece 0 (params ++ headerAfter after) = headPiece 0 params := by
  rcases after with _ | ⟨k, after⟩
  · exact congrArg (headPiece 0) (List.append_nil _)
  · have hzero : depthAfter 0 params = 0 := hend.resolve_left (by simp)
    have hcut := pieces_append_comma hzero (' ' :: (k.text ++ headerAfter after))
    have hafter : headerAfter (k :: after) = ',' :: ' ' :: (k.text ++ headerAfter after) := rfl
    rw [hafter]
    exact (List.cons.inj hcut).1

/-- When the link with a long URL is found, the link before it has closed its brackets; and when
its own brackets are closed, or nothing follows, its relation is the one found in it. -/
lemma found_of_long {before after : List ParamLink} {l : ParamLink}
    (hlong : (headerBefore before).length + (l.params ++ headerAfter after).length < l.url.length)
    (hparse : parseLinkHeader (some (paramHeader (before ++ l :: after))) =
      .ok ((before ++ l :: after).map ParamLink.entry)) :
    (∀ k ∈ before.getLast?, depthAfter 0 k.params = 0) ∧
      (after = [] ∨ depthAfter 0 l.params = 0 →
        ∃ m, l.written.reading = some m ∧ m.text = l.rel) := by
  have hurl : strip l.written.url = l.url := strip_of_trimmed l.url_trimmed
  have hentry : l.entry = (l.rel, strip l.written.url) := by rw [hurl]; rfl
  have hsaid := exists_piece_of_parse hparse
  rw [hentry] at hsaid
  obtain ⟨⟨others, last, hpieces, hblank⟩, m, hsearch, hname⟩ :=
    l.written.entry_of_long (by rwa [hurl]) hsaid
  obtain ⟨hdepth, hclosed⟩ := closed_of_blank hpieces hblank
  refine ⟨hclosed, fun hend => ⟨m, ?_, hname⟩⟩
  have hhead : headPiece 0 (l.written.params ++ headerAfter after) =
      headPiece 0 l.written.params := headPiece_append_headerAfter hend
  rw [hdepth, hhead] at hsearch
  exact hsearch

/-! ## Other relations and URLs -/

/-- A text of `n + 1` letters. -/
def letters (n : ℕ) : Text := List.replicate (n + 1) 'a'

lemma letters_injective : Function.Injective letters := fun n m h => by
  simpa [letters] using congrArg List.length h

/-- The link with another relation and another URL, of the given lengths. -/
def ParamLink.renamed (l : ParamLink) (relLength urlLength : ℕ) : ParamLink where
  url := letters urlLength
  rel := letters relLength
  before := l.before
  after := l.after
  url_ne := List.cons_ne_nil _ _
  url_trimmed := trimmed_of_forall fun c hc => by
    obtain rfl := List.eq_of_mem_replicate hc
    decide
  url_plain := fun c hc => by
    obtain rfl := List.eq_of_mem_replicate hc
    decide
  rel_ne := List.cons_ne_nil _ _
  rel_token := fun c hc => by
    obtain rfl := List.eq_of_mem_replicate hc
    decide

lemma ParamLink.sameParams_renamed (l : ParamLink) (n m : ℕ) : SameParams l (l.renamed n m) :=
  ⟨rfl, rfl⟩

/-- The links with relations of the lengths from `n` on. -/
def renamedFrom : ℕ → List ParamLink → List ParamLink
  | _, [] => []
  | n, l :: links => l.renamed n 0 :: renamedFrom (n + 1) links

lemma sameParams_renamedFrom (links : List ParamLink) : ∀ n,
    List.Forall₂ ParamLink.SameParams links (renamedFrom n links) := by
  induction links with
  | nil => exact fun _ => .nil
  | cons l links ih => exact fun n => .cons (l.sameParams_renamed n 0) (ih (n + 1))

lemma rels_renamedFrom (links : List ParamLink) : ∀ n,
    (renamedFrom n links).map ParamLink.rel = (List.range' n links.length).map letters := by
  induction links with
  | nil => exact fun _ => rfl
  | cons l links ih => exact fun n => congrArg (letters n :: ·) (ih (n + 1))

lemma renamedFrom_append (before after : List ParamLink) : ∀ n,
    renamedFrom n (before ++ after) =
      renamedFrom n before ++ renamedFrom (n + before.length) after := by
  induction before with
  | nil => exact fun _ => rfl
  | cons l before ih =>
    intro n
    rw [List.cons_append, renamedFrom, ih, List.length_cons, Nat.add_assoc, Nat.add_comm 1]
    rfl

/-! ## When parameters do not matter -/

/-- With these parameters links are read as they are meant, whatever their relations and URLs. -/
def ParamsDoNotMatter (links : List ParamLink) : Prop :=
  ∀ links', List.Forall₂ ParamLink.SameParams links links' →
    (links'.map ParamLink.rel).Nodup →
    parseLinkHeader (some (paramHeader links')) = .ok (links'.map ParamLink.entry)

namespace ParamsDoNotMatter

variable {before after links : List ParamLink} {l : ParamLink}

/-- What `found_of_long` says, for a relation of any length. -/
lemma found (h : ParamsDoNotMatter (before ++ l :: after)) (n : ℕ) :
    (∀ k ∈ before.getLast?, depthAfter 0 k.params = 0) ∧
      (after = [] ∨ depthAfter 0 l.params = 0 →
        ∃ m, (l.renamed n 0).written.reading = some m ∧ m.text = letters n) := by
  set others := renamedFrom (n + 1) before
  set rest := renamedFrom (n + 1 + before.length) after
  set size := (headerBefore others).length + ((l.renamed n 0).params ++ headerAfter rest).length
  have hsame : List.Forall₂ ParamLink.SameParams (before ++ l :: after)
      (others ++ l.renamed n size :: rest) :=
    List.rel_append (sameParams_renamedFrom before _)
      (.cons (l.sameParams_renamed n size) (sameParams_renamedFrom after _))
  have hrels : ((others ++ l.renamed n size :: rest).map ParamLink.rel).Nodup := by
    have hsplit : others.map ParamLink.rel ++ rest.map ParamLink.rel =
        (List.range' (n + 1) (before.length + after.length)).map letters := by
      rw [rels_renamedFrom, rels_renamedFrom, ← List.map_append, List.range'_append_1]
    have hall : letters n :: (List.range' (n + 1) (before.length + after.length)).map letters =
        (List.range' n (before.length + after.length + 1)).map letters := rfl
    rw [List.map_append, List.map_cons, List.nodup_middle, hsplit]
    exact hall ▸ List.Nodup.map letters_injective List.nodup_range'
  have hlong : (headerBefore others).length +
      ((l.renamed n size).params ++ headerAfter rest).length < (l.renamed n size).url.length := by
    have hurl : (l.renamed n size).url.length = size + 1 := List.length_replicate ..
    rw [hurl]
    exact Nat.lt_succ_self _
  obtain ⟨hbefore, hfound⟩ := found_of_long hlong (h _ hsame hrels)
  refine ⟨fun k hk => ?_, fun hend => ?_⟩
  · obtain ⟨first, rfl⟩ : ∃ first, before = first ++ [k] := List.getLast?_eq_some_iff.mp hk
    have hlast : k.renamed (n + 1 + first.length) 0 ∈ others.getLast? := by
      have hothers : others = renamedFrom (n + 1) first ++
          [k.renamed (n + 1 + first.length) 0] := renamedFrom_append first [k] (n + 1)
      simp [hothers]
    rw [(k.sameParams_renamed _ 0).depthAfter_params]
    exact hbefore _ hlast
  · refine hfound (hend.imp (fun hnil => ?_) fun hzero => ?_)
    · simp only [rest, hnil]
      rfl
    · rwa [← (l.sameParams_renamed n size).depthAfter_params]

lemma bracketsClosed (h : ParamsDoNotMatter links) : BracketsClosed links := by
  intro l hl
  obtain ⟨before, after, hsplit⟩ := List.append_of_mem hl
  obtain ⟨k, hlinks⟩ : ∃ k, links = links.dropLast ++ [k] := by
    have hne : links ≠ [] := by
      rintro rfl
      cases hl
    exact ⟨_, (List.dropLast_append_getLast hne).symm⟩
  obtain ⟨next, rest, hrest⟩ := List.exists_cons_of_ne_nil (l := after ++ [k]) (by simp)
  have hwhole : links = (before ++ [l]) ++ next :: rest := by
    rw [hlinks, hsplit, ← hrest]
    simp
  rw [hwhole] at h
  exact (h.found 0).1 l (by simp)

/-- Before the relation stands nothing that cuts the link or names another relation. -/
lemma leading_harmless (h : ParamsDoNotMatter links) (hl : l ∈ links) :
    laterPieces 0 l.leading = [] ∧ ∀ u, u <:+ l.leading → ¬ StartsRel u := by
  obtain ⟨before, after, rfl⟩ := List.append_of_mem hl
  have hend : after = [] ∨ depthAfter 0 l.params = 0 := by
    rcases List.eq_nil_or_concat' after with hnil | ⟨first, k, rfl⟩
    · exact Or.inl hnil
    · refine Or.inr (h.bracketsClosed l ?_)
      have hwhole : before ++ l :: (first ++ [k]) = (before ++ l :: first) ++ [k] := by simp
      rw [hwhole, List.dropLast_concat]
      simp
  -- else what is found is the same for two relations
  by_contra hharm
  obtain ⟨m, hm, hname⟩ := (h.found 0).2 hend
  obtain ⟨m', hm', hname'⟩ := (h.found 1).2 hend
  rw [← (l.sameParams_renamed 0 0).reading hharm, (l.sameParams_renamed 1 0).reading hharm,
    hm', Option.some.injEq] at hm
  rw [← hm, hname'] at hname
  exact absurd (letters_injective hname) (by decide)

lemma congr {links' : List ParamLink} (h : ParamsDoNotMatter links)
    (hsame : List.Forall₂ ParamLink.SameParams links links') : ParamsDoNotMatter links' := by
  intro others hothers
  refine h others ?_
  clear h
  induction hsame generalizing others with
  | nil => exact hothers
  | cons hhead _ ih =>
    cases hothers with
    | cons hhead' htail' => exact .cons (hhead.trans hhead') (ih _ htail')

/-- Behind the relation nothing is cut off that reads as a link. -/
lemma trailing_silent (h : ParamsDoNotMatter links) (hl : l ∈ links) :
    ∀ piece ∈ laterPieces (depthAfter 0 l.leading) l.trailing, ¬ SaysLink piece := by
  intro piece hpiece hsays
  -- under other relations it is still cut off, and still says the same
  have hread : ∀ n, ¬ NamesNothing piece ∧ ∀ entry, segmentEntry piece = some entry →
      ∃ m, n ≤ m ∧ entry.1 = letters m := by
    intro n
    have hsame := sameParams_renamedFrom links n
    have hother := h.congr hsame
    have hrels := rels_renamedFrom links n
    obtain ⟨l', hl', hparams⟩ : ∃ l' ∈ renamedFrom n links, ParamLink.SameParams l l' := by
      obtain ⟨before, after, rfl⟩ := List.append_of_mem hl
      exact ⟨l.renamed (n + before.length) 0, by simp [renamedFrom_append, renamedFrom],
        l.sameParams_renamed _ 0⟩
    have hcut : piece ∈ laterPieces 0 l'.params := by
      rw [(ParamLink.pieces_params (hother.leading_harmless hl').1).2, ← hparams.leading,
        ← hparams.trailing]
      exact hpiece
    have hmem := mem_pieces_paramHeader hother.bracketsClosed hl' hcut
    have hnodup : ((renamedFrom n links).map ParamLink.rel).Nodup := by
      rw [hrels]
      exact List.Nodup.map letters_injective List.nodup_range'
    obtain ⟨hnothing, hfound⟩ := parseLinkHeader_ok_iff_pieces.mp (h _ hsame hnodup)
    refine ⟨hnothing piece hmem, fun entry hentry => ?_⟩
    have hkey : entry.1 ∈ ((renamedFrom n links).map ParamLink.entry).map Prod.fst := by
      rw [hfound, mem_map_winners]
      exact ⟨by simp, List.mem_map_of_mem (List.mem_filterMap.mpr ⟨piece, hmem, hentry⟩)⟩
    have hfst : ((renamedFrom n links).map ParamLink.entry).map Prod.fst =
        (List.range' n links.length).map letters := by
      rw [← hrels, List.map_map]
      rfl
    rw [hfst] at hkey
    obtain ⟨m, hm, hname⟩ := List.mem_map.mp hkey
    exact ⟨m, (List.mem_range'_1.mp hm).1, hname.symm⟩
  rcases saysLink_iff.mp hsays with hentry | hnothing
  · obtain ⟨entry, hentry⟩ := Option.ne_none_iff_exists'.mp hentry
    obtain ⟨m, hm, hname⟩ := (hread entry.1.length).2 entry hentry
    have hlength : entry.1.length = m + 1 := by
      rw [hname]
      exact List.length_replicate ..
    omega
  · exact (hread 0).1 hnothing

end ParamsDoNotMatter

/-- **When other parameters do not matter.**  A header is read as it is meant whatever the
relations and the URLs are, exactly when every link but the last closes the brackets its
parameters open, and the parameters of every link are harmless. -/
theorem parseLinkHeader_params_iff (links : List ParamLink) :
    ParamsDoNotMatter links ↔ BracketsClosed links ∧ ∀ l ∈ links, l.Harmless := by
  constructor
  · intro h
    refine ⟨h.bracketsClosed, fun l hl => ?_⟩
    obtain ⟨huncut, hunnamed⟩ := h.leading_harmless hl
    exact ⟨laterPieces_eq_nil_iff.mp huncut, hunnamed, h.trailing_silent hl⟩
  · rintro ⟨hclosed, hharmless⟩ links' hsame hrels
    refine parseLinkHeader_of_harmless hrels (hclosed.congr hsame) ?_
    exact forall_mem_of_forall₂ (fun hl => hl.harmless) hsame hharmless

def typeParam : LinkParam where
  name := "type".toList
  value := .quoted "application/json".toList (by decide)
  name_ne := by decide
  name_token := by decide
  name_other := by decide

/-- A title with a comma and brackets. -/
def titleParam : LinkParam where
  name := "title".toList
  value := .quoted "open, <first> page".toList (by decide)
  name_ne := by decide
  name_token := by decide
  name_other := by decide

def typedLink : ParamLink where
  url := "https://example.test/x?page=3".toList
  rel := "next".toList
  before := [typeParam]
  after := []
  url_ne := by decide
  url_trimmed := by decide
  url_plain := by decide
  rel_ne := by decide
  rel_token := by decide

def titledLink : ParamLink where
  url := "https://example.test/x?page=1".toList
  rel := "first".toList
  before := []
  after := [titleParam]
  url_ne := by decide
  url_trimmed := by decide
  url_plain := by decide
  rel_ne := by decide
  rel_token := by decide

example : parseLinkHeader (some (paramHeader [typedLink, titledLink])) =
    .ok ([typedLink, titledLink].map ParamLink.entry) := by
  decide +kernel

/-- A title in which `rel=` stands. -/
def misleadingParam : LinkParam where
  name := "title".toList
  value := .quoted "rel=up".toList (by decide)
  name_ne := by decide
  name_token := by decide
  name_other := by decide

def misleadingLink : ParamLink := { typedLink with before := [misleadingParam] }

/-- The relation is read from the title, with the quotation mark that closes it. -/
theorem misleadingLink_misread :
    parseLinkHeader (some (paramHeader [misleadingLink])) =
        .ok [("up\"".toList, misleadingLink.url)] ∧
      parseLinkHeader (some (paramHeader [misleadingLink])) ≠
        .ok ([misleadingLink].map ParamLink.entry) := by
  decide +kernel

end IssuesApi
