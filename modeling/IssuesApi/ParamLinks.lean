import IssuesApi.WrittenLinks

/-!
# Links with parameters

A link value may carry parameters besides `rel`, with tokens or quoted strings as values.  This
is the writer's side: the links, how they are written, and what `parse_link_header` makes of the
pieces of such a header.

What the parameters may look like is said of their text: whether the angle brackets in them are
closed again (`BracketsClosed`), whether a comma or another `rel=` stands before the relation, and
whether what a comma cuts off behind it reads as a link (`ParamLink.Harmless`).
-/

namespace IssuesApi

/-! ## Links with parameters -/

/-- A character of a token. -/
def isTokenChar (c : Char) : Bool := c.isAlphanum || "!#$%&'*+-.^_`|~".toList.contains c

/-- The value of a parameter. -/
inductive ParamValue where
  | token (text : Text) (valid : text ≠ [] ∧ ∀ c ∈ text, isTokenChar c = true)
  | quoted (text : Text) (valid : ∀ c ∈ text, c ∉ ['"', '\\'])

def ParamValue.render : ParamValue → Text
  | .token text _ => text
  | .quoted text _ => '"' :: text ++ ['"']

/-- A parameter other than `rel`. -/
structure LinkParam where
  name : Text
  value : ParamValue
  name_ne : name ≠ []
  name_token : ∀ c ∈ name, isTokenChar c = true
  name_other : name.map Char.toLower ≠ "rel".toList

/-- `name=value`. -/
def LinkParam.render (p : LinkParam) : Text := p.name ++ '=' :: p.value.render

/-- A link with parameters before and after its relation. -/
structure ParamLink where
  url : Text
  rel : Text
  before : List LinkParam
  after : List LinkParam
  url_ne : url ≠ []
  url_trimmed : Trimmed url
  url_plain : ∀ c ∈ url, c ∉ ['<', '>']
  rel_ne : rel ≠ []
  rel_token : ∀ c ∈ rel, c.isAlphanum = true ∨ c = '.' ∨ c = '-'

namespace ParamLink

/-- The link as it is meant. -/
def entry (l : ParamLink) : Text × Text := (l.rel, l.url)

/-- The parameters as they are written. -/
def params (l : ParamLink) : Text :=
  joinSep "; ".toList (l.before.map LinkParam.render ++
    ("rel=\"".toList ++ l.rel ++ ['"']) :: l.after.map LinkParam.render)

/-- What stands before the parameters. -/
def opening (l : ParamLink) : Text := '<' :: (l.url ++ ['>', ';', ' '])

/-- The link as it is written. -/
def text (l : ParamLink) : Text := l.opening ++ l.params

/-- What stands before the relation. -/
def leading (l : ParamLink) : Text := (l.before.map LinkParam.render).flatMap (· ++ "; ".toList)

/-- What stands behind it. -/
def trailing (l : ParamLink) : Text := (l.after.map LinkParam.render).flatMap ("; ".toList ++ ·)

/-- Parameters that look like nothing else. -/
structure Harmless (l : ParamLink) : Prop where
  /-- Before the relation there is no comma outside of angle brackets. -/
  uncut : ∀ u v, l.leading = u ++ ',' :: v → depthAfter 0 u ≠ 0
  /-- Nor is there another `rel=` with a value. -/
  unnamed : ∀ u, u <:+ l.leading → ¬ StartsRel u
  /-- What a comma outside of angle brackets cuts off behind it does not read as a link. -/
  silent : ∀ piece ∈ laterPieces (depthAfter 0 l.leading) l.trailing, ¬ SaysLink piece

/-- The links have the same parameters besides `rel`. -/
structure SameParams (l l' : ParamLink) : Prop where
  before : l.before = l'.before
  after : l.after = l'.after

end ParamLink

/-- The header of a list of links. -/
def paramHeader (links : List ParamLink) : Text := joinSep ", ".toList (links.map ParamLink.text)

/-- Every link but the last closes the brackets its parameters open. -/
def BracketsClosed (links : List ParamLink) : Prop :=
  ∀ l ∈ links.dropLast, depthAfter 0 l.params = 0

/-! ## As written links -/

lemma isVisible_of_isTokenChar {c : Char} (h : isTokenChar c = true) : isVisible c = true := by
  have hrange : ∀ {low high : ℕ}, 0x21 ≤ low → high ≤ 0x7E → low ≤ c.toNat ∧ c.toNat ≤ high →
      isVisible c = true := by
    intro low high hlow hhigh hc
    simp only [isVisible, Bool.and_eq_true, decide_eq_true_eq]
    omega
  rw [isTokenChar, Bool.or_eq_true, List.contains_iff_mem] at h
  rcases h with halnum | hmark
  · have hkind : (c.isUpper || c.isLower || c.isDigit) = true := halnum
    rw [Bool.or_eq_true, Bool.or_eq_true] at hkind
    rcases hkind with (hupper | hlower) | hdigit
    · have hbounds : 'A'.val ≤ c.val ∧ c.val ≤ 'Z'.val := of_decide_eq_true hupper
      rw [UInt32.le_iff_toNat_le, UInt32.le_iff_toNat_le] at hbounds
      exact hrange (by decide) (by decide) hbounds
    · have hbounds := Bool.and_eq_true_iff.mp hlower
      rw [decide_eq_true_iff, decide_eq_true_iff, ge_iff_le, UInt32.le_iff_toNat_le,
        UInt32.le_iff_toNat_le] at hbounds
      exact hrange (by decide) (by decide) hbounds
    · exact hrange (by decide) (by decide) (isDigit_bounds hdigit)
  · have hmarks : ∀ x ∈ "!#$%&'*+-.^_`|~".toList, isVisible x = true := by decide
    exact hmarks c hmark

namespace ParamLink

/-- The link with its parameters as a text. -/
def written (l : ParamLink) : WrittenLink := ⟨l.url, l.params, l.url_plain⟩

variable {l l' : ParamLink}

lemma params_eq (l : ParamLink) :
    l.params = l.leading ++ ("rel=\"".toList ++ l.rel ++ ['"'] ++ l.trailing) :=
  joinSep_append_cons ..

lemma isTokenChar_of_mem_rel {c : Char} (h : c ∈ l.rel) : isTokenChar c = true := by
  rcases l.rel_token c h with h | rfl | rfl
  · rw [isTokenChar, h]
    rfl
  · decide
  · decide

lemma not_mem_rel {c : Char} (h : isTokenChar c = false) : c ∉ l.rel := fun hmem => by
  rw [isTokenChar_of_mem_rel hmem] at h
  cases h

lemma trimmed_rel (l : ParamLink) : Trimmed l.rel :=
  trimmed_of_forall fun _ hc =>
    isSpace_of_isVisible (isVisible_of_isTokenChar (isTokenChar_of_mem_rel hc))

/-- The relation itself is not cut and opens no bracket. -/
lemma rel_plain (l : ParamLink) (depth : ℕ) :
    laterPieces depth ("rel=\"".toList ++ l.rel ++ ['"']) = [] ∧
      depthAfter depth ("rel=\"".toList ++ l.rel ++ ['"']) = depth := by
  have hsign : ∀ c ∈ [',', '<', '>'], c ∉ "rel=\"".toList ∧ c ≠ '"' ∧
      isTokenChar c = false := by decide
  have hplain : ∀ c ∈ "rel=\"".toList ++ l.rel ++ ['"'], c ∉ [',', '<', '>'] := by
    intro c hc hbad
    obtain ⟨hname, hquote, htoken⟩ := hsign c hbad
    rw [List.mem_append, List.mem_append, List.mem_singleton] at hc
    rcases hc with (hc | hc) | hc
    · exact hname hc
    · exact not_mem_rel htoken hc
    · exact hquote hc
  exact ⟨laterPieces_of_plain (fun hmem => hplain _ hmem (by decide)) depth,
    depthAfter_of_plain (fun c hc hbad => hplain c hc (List.mem_cons_of_mem _ hbad)) depth⟩

/-- The brackets of the parameters. -/
lemma depthAfter_params (l : ParamLink) :
    depthAfter 0 l.params = depthAfter (depthAfter 0 l.leading) l.trailing := by
  rw [params_eq, depthAfter_append, depthAfter_append, (l.rel_plain _).2]

/-- How parameters are cut when the first cut is behind the relation. -/
lemma pieces_params (h : laterPieces 0 l.leading = []) :
    headPiece 0 l.params = l.leading ++ ("rel=\"".toList ++ l.rel ++ ['"'] ++
        headPiece (depthAfter 0 l.leading) l.trailing) ∧
      laterPieces 0 l.params = laterPieces (depthAfter 0 l.leading) l.trailing := by
  obtain ⟨hplain, hdepth⟩ := l.rel_plain (depthAfter 0 l.leading)
  obtain ⟨hhead, hlater⟩ := pieces_append h ("rel=\"".toList ++ l.rel ++ ['"'] ++ l.trailing)
  obtain ⟨hhead', hlater'⟩ := pieces_append hplain l.trailing
  rw [hdepth] at hhead' hlater'
  rw [params_eq, hhead, hlater, hhead', hlater']
  exact ⟨rfl, rfl⟩

lemma SameParams.trans {l'' : ParamLink} (h : SameParams l l') (h' : SameParams l' l'') :
    SameParams l l'' :=
  ⟨h.before.trans h'.before, h.after.trans h'.after⟩

lemma SameParams.leading (h : SameParams l l') : l.leading = l'.leading := by
  rw [ParamLink.leading, ParamLink.leading, h.before]

lemma SameParams.trailing (h : SameParams l l') : l.trailing = l'.trailing := by
  rw [ParamLink.trailing, ParamLink.trailing, h.after]

/-- There are no parameters before the relation, or a separator ends them. -/
lemma leading_cases (l : ParamLink) : l.leading = [] ∨ ∃ s, l.leading = s ++ "; ".toList := by
  rcases List.eq_nil_or_concat' l.before with hbefore | ⟨before, p, hbefore⟩
  · left
    rw [leading, hbefore]
    rfl
  · right
    refine ⟨(before.map LinkParam.render).flatMap (· ++ "; ".toList) ++ p.render, ?_⟩
    rw [leading, hbefore, List.map_append, List.flatMap_append, List.append_assoc]
    simp

/-- The match that is found, when the first cut is behind the relation. -/
lemma reading_eq (h : laterPieces 0 l.leading = []) : ∃ rest,
    l.written.reading = searchRel (l.leading ++ ("rel=\"".toList ++ l.rel ++ '"' :: rest)) := by
  refine ⟨rstrip (headPiece (depthAfter 0 l.leading) l.trailing), ?_⟩
  have hhead : headPiece 0 l.written.params = l.leading ++ ("rel=\"".toList ++ l.rel) ++
      '"' :: headPiece (depthAfter 0 l.leading) l.trailing := by
    have hparams : l.written.params = l.params := rfl
    rw [hparams, (pieces_params h).1]
    simp
  rw [WrittenLink.reading, ← lstrip_rstrip, searchRel_lstrip, hhead,
    rstrip_append_cons (by decide), List.append_assoc]

lemma Harmless.laterPieces_leading (h : l.Harmless) : laterPieces 0 l.leading = [] :=
  laterPieces_eq_nil_iff.mpr h.uncut

/-- The link's own relation is found. -/
lemma Harmless.reading_eq (h : l.Harmless) : l.written.reading = some ⟨some l.rel, none⟩ := by
  obtain ⟨rest, hreading⟩ := ParamLink.reading_eq h.laterPieces_leading
  have hquote : '"' ∉ l.rel := not_mem_rel (by decide)
  rw [hreading, ← searchRel_quoted hquote rest]
  rcases l.leading_cases with hnil | ⟨s, hs⟩
  · rw [hnil, List.nil_append]
  · have hquiet := h.unnamed
    rw [hs] at hquiet ⊢
    rw [List.append_assoc]
    exact searchRel_before_of_quiet hquiet _

lemma Harmless.not_unnamed (h : l.Harmless) : ¬ l.written.Unnamed := by
  rintro ⟨m, hm, hempty⟩
  obtain rfl := Option.some.inj (h.reading_eq.symm.trans hm)
  exact l.rel_ne (Option.some.inj hempty)

lemma Harmless.entry_eq (h : l.Harmless) : l.written.entry = some l.entry := by
  have hrel : (⟨some l.rel, none⟩ : RelMatch).text = l.rel := by
    rw [RelMatch.text, nonempty_some l.rel_ne]
    exact strip_of_trimmed l.trimmed_rel
  have hurl : strip l.written.url = l.url := strip_of_trimmed l.url_trimmed
  simp [WrittenLink.entry, h.reading_eq, hrel, hurl, l.rel_ne, l.url_ne, entry]

lemma Harmless.cutsSilent (h : l.Harmless) : l.written.CutsSilent := by
  intro piece hpiece
  have hlater : laterPieces 0 l.written.params =
      laterPieces (depthAfter 0 l.leading) l.trailing := (pieces_params h.laterPieces_leading).2
  exact h.silent piece (hlater ▸ hpiece)

/-- Unless the parameters before it are harmless, the relation has no say in what is found. -/
lemma SameParams.reading (h : SameParams l l')
    (hharm : ¬ (laterPieces 0 l.leading = [] ∧ ∀ u, u <:+ l.leading → ¬ StartsRel u)) :
    l.written.reading = l'.written.reading := by
  by_cases huncut : laterPieces 0 l.leading = []
  · have hnamed : ∃ u, u <:+ l.leading ∧ StartsRel u := by
      by_contra hnone
      exact hharm ⟨huncut, fun u hu hs => hnone ⟨u, hu, hs⟩⟩
    obtain ⟨rest, hreading⟩ := reading_eq huncut
    obtain ⟨rest', hreading'⟩ := reading_eq (h.leading ▸ huncut)
    rw [hreading, hreading', ← h.leading]
    rcases l.leading_cases with hnil | ⟨s, hs⟩
    · obtain ⟨u, hu, hstarts⟩ := hnamed
      rw [hnil, List.suffix_nil] at hu
      exact absurd hstarts (hu ▸ not_startsRel_separator (List.nil_suffix))
    · have happend : ∀ rel t : Text, (s ++ "; ".toList) ++ ("rel=\"".toList ++ rel ++ t) =
          s ++ ';' :: (" rel=".toList ++ '"' :: (rel ++ t)) := by simp
      rw [hs] at hnamed ⊢
      rw [happend, happend]
      exact searchRel_before_quoted hnamed _ _
  · have hhead : ∀ {k : ParamLink}, laterPieces 0 k.leading ≠ [] →
        headPiece 0 k.written.params = headPiece 0 k.leading := by
      intro k hk
      have hparams : k.written.params = k.params := rfl
      rw [hparams, params_eq, headPiece_append_of_cut hk]
    rw [WrittenLink.reading, WrittenLink.reading, hhead huncut, hhead (h.leading ▸ huncut),
      h.leading]

lemma SameParams.depthAfter_params (h : SameParams l l') :
    depthAfter 0 l.params = depthAfter 0 l'.params := by
  rw [l.depthAfter_params, l'.depthAfter_params, h.leading, h.trailing]

lemma SameParams.harmless (h : SameParams l l') (hl : l.Harmless) : l'.Harmless := by
  obtain ⟨huncut, hunnamed, hsilent⟩ := hl
  rw [h.leading] at huncut hunnamed hsilent
  rw [h.trailing] at hsilent
  exact ⟨huncut, hunnamed, hsilent⟩

end ParamLink

/-- What passes from a link to one with the same parameters passes from list to list. -/
lemma forall_mem_of_forall₂ {P : ParamLink → Prop}
    (hP : ∀ {l l' : ParamLink}, ParamLink.SameParams l l' → P l → P l')
    {links links' : List ParamLink} (hsame : List.Forall₂ ParamLink.SameParams links links')
    (h : ∀ l ∈ links, P l) : ∀ l ∈ links', P l := by
  induction hsame with
  | nil => exact h
  | cons hhead _ ih =>
    rw [List.forall_mem_cons] at h ⊢
    exact ⟨hP hhead h.1, ih h.2⟩

lemma BracketsClosed.congr {links links' : List ParamLink} (h : BracketsClosed links)
    (hsame : List.Forall₂ ParamLink.SameParams links links') : BracketsClosed links' := by
  have hlast : List.Forall₂ ParamLink.SameParams links.dropLast links'.dropLast := by
    rw [List.dropLast_eq_take, List.dropLast_eq_take, hsame.length_eq]
    exact List.forall₂_take _ hsame
  refine forall_mem_of_forall₂ (fun hl hzero => ?_) hlast h
  rwa [← hl.depthAfter_params]

lemma writtenHeader_params (links : List ParamLink) :
    writtenHeader (links.map ParamLink.written) = paramHeader links := by
  rw [writtenHeader, paramHeader, List.map_map]
  rfl

lemma writtenClosed_params {links : List ParamLink} :
    WrittenClosed (links.map ParamLink.written) ↔ BracketsClosed links := by
  rw [WrittenClosed, ← List.map_dropLast, List.forall_mem_map]
  rfl

/-- What a comma cuts off in one of the links is a piece of the header. -/
lemma mem_pieces_paramHeader {links : List ParamLink} (hclosed : BracketsClosed links)
    {l : ParamLink} (hl : l ∈ links) {piece : Text} (hpiece : piece ∈ laterPieces 0 l.params) :
    piece ∈ pieces 0 (paramHeader links) := by
  obtain ⟨first, rest, hlinks⟩ := List.exists_cons_of_ne_nil (List.ne_nil_of_mem hl)
  rw [hlinks] at hclosed hl
  have hpieces : pieces 0 (writtenHeader ((first :: rest).map ParamLink.written)) =
      linkPieces [] first.written ++ (rest.map ParamLink.written).flatMap (linkPieces [' ']) :=
    pieces_writtenHeader (Or.inl rfl) (writtenClosed_params.mpr hclosed)
  have hmem : ∀ blank, piece ∈ linkPieces blank l.written := fun blank =>
    List.mem_cons_of_mem _ hpiece
  rw [hlinks, ← writtenHeader_params, hpieces, List.mem_append]
  rcases List.mem_cons.mp hl with rfl | hl
  · exact Or.inl (hmem [])
  · exact Or.inr (List.mem_flatMap.mpr ⟨l.written, List.mem_map_of_mem hl, hmem [' ']⟩)

end IssuesApi
