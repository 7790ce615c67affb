import IssuesApi.Lib.FirstWins
import IssuesApi.Pagination

/-!
# What a `Link` header says

`parse_link_header` on an arbitrary text, without its loop.  Every segment says at most one
thing, its entry, and the result is the entries of which the first of each relation wins.  The
one way to fail is a segment whose relation is the empty quoted string: the quoted group is then
false, the other one did not take part in the match, and `None` cannot be stripped.
-/

namespace IssuesApi

/-! ## Adding links -/

/-- `if rel not in links: links[rel] = url`. -/
def Links.addNew (links : Links) (link : Text × Text) : Links :=
  if links.has link.1 then links else links ++ [link]

lemma Links.has_iff {links : Links} {rel : Text} :
    links.has rel = true ↔ rel ∈ links.map (·.1) := by
  simp [Links.has]

/-- Adding one link after the other keeps the first of each relation. -/
lemma Links.foldl_addNew_eq (links : List (Text × Text)) (seen : Links) :
    links.foldl Links.addNew seen = seen ++ winners Prod.fst (seen.map Prod.fst) links := by
  induction links generalizing seen with
  | nil => simp [winners]
  | cons link links ih =>
    rw [List.foldl_cons, ih, winners, Links.addNew]
    by_cases hhas : seen.has link.1 = true
    · rw [if_pos hhas, if_pos (Links.has_iff.mp hhas)]
    · rw [if_neg hhas, if_neg (fun hmem => hhas (Links.has_iff.mpr hmem)), List.map_append,
        List.append_assoc]
      rfl

/-! ## Segments -/

/-- The number of open angle brackets after a character. -/
def nextDepth (depth : ℕ) (char : Char) : ℕ :=
  if char = '<' then depth + 1 else if char = '>' then depth - 1 else depth

/-- The character is taken for a separator. -/
def Cuts (depth : ℕ) (char : Char) : Prop := char = ',' ∧ nextDepth depth char = 0

instance (depth : ℕ) (char : Char) : Decidable (Cuts depth char) := by
  unfold Cuts
  infer_instance

/-- One iteration of the loop of `_split_segments`. -/
lemma splitSegmentsAux_cons (char : Char) (rest : Text) (depth : ℕ) (current : Text) :
    splitSegmentsAux (char :: rest) depth current =
      if Cuts depth char then current :: splitSegmentsAux rest (nextDepth depth char) []
      else splitSegmentsAux rest (nextDepth depth char) (current ++ [char]) := rfl

/-- The URL of a segment and its first `rel` parameter. -/
def segmentMatch (segment : Text) : Option (Text × RelMatch) := do
  let (url, params) ← matchLinkSegment (strip segment)
  let m ← searchRel params
  return (url, m)

/-- The first `rel` parameter of the segment is `rel=""`. -/
def NamesNothing (segment : Text) : Prop :=
  ∃ url m, segmentMatch segment = some (url, m) ∧ m.quoted = some []

/-- The relation of a match. -/
def RelMatch.text (m : RelMatch) : Text := strip ((nonempty m.quoted).getD (m.bare.getD []))

/-- What a segment says: a relation and a URL. -/
def segmentEntry (segment : Text) : Option (Text × Text) := do
  let (url, m) ← segmentMatch segment
  if m.text ≠ [] ∧ strip url ≠ [] then some (m.text, strip url) else none

/-- One of the two groups took part in the match; the bare one is not empty. -/
def RelMatch.Valid (m : RelMatch) : Prop :=
  (∃ quoted, m = ⟨some quoted, none⟩) ∨ ∃ bare, bare ≠ [] ∧ m = ⟨none, some bare⟩

lemma valid_of_matchRelValue {t : Text} {m : RelMatch} (h : matchRelValue t = some m) :
    m.Valid := by
  have hbare : ∀ bare : Text, (if bare = [] then none else some (⟨none, some bare⟩ : RelMatch)) =
      some m → m.Valid := by
    intro bare h
    split at h
    · cases h
    · next hne =>
      obtain rfl := Option.some.inj h
      exact Or.inr ⟨bare, hne, rfl⟩
  unfold matchRelValue at h
  dsimp only at h
  split at h
  · split at h
    · obtain rfl := Option.some.inj h
      exact Or.inl ⟨_, rfl⟩
    · exact hbare _ h
  · exact hbare _ h

lemma valid_of_matchRel {t : Text} {m : RelMatch} (h : matchRel t = some m) : m.Valid := by
  unfold matchRel at h
  split at h
  · split at h
    · split at h
      · exact valid_of_matchRelValue h
      · cases h
    · cases h
  · cases h

lemma valid_of_searchRel {t : Text} {m : RelMatch} (h : searchRel t = some m) : m.Valid := by
  induction t with
  | nil => cases h
  | cons c t ih =>
    rw [searchRel] at h
    split at h
    · next hmatch =>
      obtain rfl := Option.some.inj h
      exact valid_of_matchRel hmatch
    · exact ih h

lemma RelMatch.Valid.rel_eq {m : RelMatch} (h : m.Valid) (hne : m.quoted ≠ some []) :
    m.rel = .ok m.text := by
  rcases h with ⟨quoted, rfl⟩ | ⟨bare, -, rfl⟩
  · cases quoted with
    | nil => exact absurd rfl hne
    | cons c quoted => rfl
  · rfl

lemma RelMatch.Valid.rel_eq_error {m : RelMatch} (h : m.Valid) (hempty : m.quoted = some []) :
    m.rel = raiseBuiltin .attributeError := by
  rcases h with ⟨quoted, rfl⟩ | ⟨bare, -, rfl⟩
  · obtain rfl := Option.some.inj hempty
    rfl
  · cases hempty

lemma segmentMatch_eq_some {segment url : Text} {m : RelMatch} :
    segmentMatch segment = some (url, m) ↔
      ∃ params, matchLinkSegment (strip segment) = some (url, params) ∧
        searchRel params = some m := by
  unfold segmentMatch
  cases matchLinkSegment (strip segment) with
  | none => simp
  | some p =>
    obtain ⟨u, params⟩ := p
    cases hrel : searchRel params with
    | none => simp [hrel]
    | some m' => simp [hrel]

lemma segmentMatch_eq_none {segment : Text} (h : segmentMatch segment = none) (links : Links) :
    addSegment links segment = .ok links := by
  unfold segmentMatch at h
  unfold addSegment
  cases hmatch : matchLinkSegment (strip segment) with
  | none => rfl
  | some p =>
    obtain ⟨url, params⟩ := p
    rw [hmatch] at h
    cases hrel : searchRel params with
    | none =>
      dsimp only
      rw [hrel]
    | some m => simp [hrel] at h

/-- One iteration of the loop: the segment's entry is added unless its relation is there. -/
lemma addSegment_eq {segment : Text} (h : ¬ NamesNothing segment) (links : Links) :
    addSegment links segment = .ok ((segmentEntry segment).toList.foldl Links.addNew links) := by
  cases hsegment : segmentMatch segment with
  | none =>
    rw [segmentMatch_eq_none hsegment, segmentEntry, hsegment]
    rfl
  | some p =>
    obtain ⟨url, m⟩ := p
    obtain ⟨params, hmatch, hrel⟩ := segmentMatch_eq_some.mp hsegment
    have hne : m.quoted ≠ some [] := fun hempty => h ⟨url, m, hsegment, hempty⟩
    rw [addSegment, hmatch]
    dsimp only
    rw [hrel]
    dsimp only
    rw [(valid_of_searchRel hrel).rel_eq hne, ok_bind, segmentEntry, hsegment]
    by_cases hboth : m.text ≠ [] ∧ strip url ≠ []
    · by_cases hhas : links.has m.text = true
      · simp [hboth, hhas, Links.addNew, pure, Except.pure]
      · simp [hboth, hhas, Links.addNew, pure, Except.pure]
    · have hnot : ¬ (m.text ≠ [] ∧ strip url ≠ [] ∧ (!links.has m.text) = true) :=
        fun hall => hboth ⟨hall.1, hall.2.1⟩
      rw [if_neg hnot]
      simp [hboth, pure, Except.pure]

lemma addSegment_of_namesNothing {segment : Text} (h : NamesNothing segment) (links : Links) :
    addSegment links segment = raiseBuiltin .attributeError := by
  obtain ⟨url, m, hsegment, hempty⟩ := h
  obtain ⟨params, hmatch, hrel⟩ := segmentMatch_eq_some.mp hsegment
  rw [addSegment, hmatch]
  dsimp only
  rw [hrel]
  dsimp only
  rw [(valid_of_searchRel hrel).rel_eq_error hempty]
  rfl

/-! ## All segments -/

/-- The loop over segments of which none names nothing adds their entries. -/
lemma foldlM_addSegment {segments : List Text} (h : ∀ segment ∈ segments, ¬ NamesNothing segment)
    (links : Links) : segments.foldlM addSegment links =
      .ok ((segments.filterMap segmentEntry).foldl Links.addNew links) := by
  induction segments generalizing links with
  | nil => rfl
  | cons segment segments ih =>
    have ih := ih fun s hs => h s (List.mem_cons_of_mem _ hs)
    rw [List.foldlM_cons, addSegment_eq (h segment (by simp)), ok_bind, ih, List.filterMap_cons]
    cases segmentEntry segment with
    | none => rfl
    | some link => rfl

/-- A segment that names nothing ends the loop, whatever was read before it. -/
lemma foldlM_addSegment_of_namesNothing {segments : List Text}
    (h : ∃ segment ∈ segments, NamesNothing segment) (links : Links) :
    segments.foldlM addSegment links = raiseBuiltin .attributeError := by
  induction segments generalizing links with
  | nil => simp at h
  | cons segment segments ih =>
    rw [List.foldlM_cons]
    by_cases hhead : NamesNothing segment
    · rw [addSegment_of_namesNothing hhead]
      rfl
    · obtain ⟨s, hs, hnothing⟩ := h
      have htail : s ∈ segments := by
        refine (List.mem_cons.mp hs).resolve_left ?_
        rintro rfl
        exact hhead hnothing
      rw [addSegment_eq hhead, ok_bind, ih ⟨s, htail, hnothing⟩]

/-- Everything a header says, in order. -/
def linkEntries (value : Text) : List (Text × Text) :=
  (splitSegments value).filterMap segmentEntry

/-- What a header says, the first of each relation. -/
def keptLinks (value : Text) : Links := winners Prod.fst [] (linkEntries value)

lemma mem_of_mem_keptLinks {value : Text} {link : Text × Text} (h : link ∈ keptLinks value) :
    link ∈ linkEntries value := by
  obtain ⟨-, before, after, heq, -⟩ := mem_winners.mp h
  rw [heq]
  simp

lemma mem_splitSegmentsAux {c : Char} {segment : Text} (hc : c ∈ segment) :
    ∀ {t current : Text} {depth : ℕ}, segment ∈ splitSegmentsAux t depth current →
      c ∈ current ∨ c ∈ t
  | [], current, depth, h => by
      rw [splitSegmentsAux] at h
      split at h
      · cases h
      · obtain rfl := List.mem_singleton.mp h
        exact Or.inl hc
  | char :: rest, current, depth, h => by
      rw [splitSegmentsAux_cons] at h
      split at h
      · rcases List.mem_cons.mp h with rfl | h
        · exact Or.inl hc
        · rcases mem_splitSegmentsAux hc h with hnil | hrest
          · cases hnil
          · exact Or.inr (List.mem_cons_of_mem _ hrest)
      · rcases mem_splitSegmentsAux hc h with hcurrent | hrest
        · rcases List.mem_append.mp hcurrent with hcurrent | hchar
          · exact Or.inl hcurrent
          · rw [List.mem_singleton.mp hchar]
            exact Or.inr (List.mem_cons_self ..)
        · exact Or.inr (List.mem_cons_of_mem _ hrest)

/-- The characters of a segment stand in the header. -/
lemma mem_of_mem_splitSegments {c : Char} {segment value : Text}
    (hsegment : segment ∈ splitSegments value) (hc : c ∈ segment) : c ∈ value :=
  (mem_splitSegmentsAux hc hsegment).resolve_left (by simp)

/-- The early return for a blank header changes nothing: none of its segments matches. -/
lemma segmentMatch_of_blank {value segment : Text} (hblank : strip value = [])
    (hsegment : segment ∈ splitSegments value) : segmentMatch segment = none := by
  have hstrip : strip segment = [] := strip_eq_nil_iff.mpr fun c hc =>
    strip_eq_nil_iff.mp hblank c (mem_of_mem_splitSegments hsegment hc)
  rw [segmentMatch, hstrip]
  rfl

/-- **What parsing returns.**  The first entry of each relation, in the order of the header. -/
theorem parseLinkHeader_eq {value : Text}
    (h : ∀ segment ∈ splitSegments value, ¬ NamesNothing segment) :
    parseLinkHeader (some value) = .ok (keptLinks value) := by
  rw [parseLinkHeader]
  split
  · next hblank =>
    have hnone : linkEntries value = [] := by
      refine List.filterMap_eq_nil_iff.mpr fun segment hsegment => ?_
      rw [segmentEntry, segmentMatch_of_blank hblank hsegment]
      rfl
    rw [keptLinks, hnone]
    rfl
  · rw [foldlM_addSegment h, Links.foldl_addNew_eq]
    rfl

/-- **When parsing raises.**  One segment that names nothing is enough. -/
theorem parseLinkHeader_of_namesNothing {value : Text}
    (h : ∃ segment ∈ splitSegments value, NamesNothing segment) :
    parseLinkHeader (some value) = raiseBuiltin .attributeError := by
  rw [parseLinkHeader, if_neg, foldlM_addSegment_of_namesNothing h]
  intro hblank
  obtain ⟨segment, hsegment, url, m, hmatch, -⟩ := h
  rw [segmentMatch_of_blank hblank hsegment] at hmatch
  cases hmatch

/-- Parsing returns exactly when no segment names nothing. -/
lemma parseLinkHeader_ok_iff {value : Text} {links : Links} :
    parseLinkHeader (some value) = .ok links ↔
      (∀ segment ∈ splitSegments value, ¬ NamesNothing segment) ∧ links = keptLinks value := by
  constructor
  · intro hok
    have hnone : ∀ segment ∈ splitSegments value, ¬ NamesNothing segment := by
      intro segment hsegment hnothing
      rw [parseLinkHeader_of_namesNothing ⟨segment, hsegment, hnothing⟩] at hok
      cases hok
    rw [parseLinkHeader_eq hnone] at hok
    exact ⟨hnone, (Except.ok.inj hok).symm⟩
  · rintro ⟨hnone, rfl⟩
    exact parseLinkHeader_eq hnone

/-! ## What the entries are -/

lemma segmentEntry_eq_some {segment rel url : Text} (h : segmentEntry segment = some (rel, url)) :
    rel ≠ [] ∧ url ≠ [] ∧ Trimmed rel ∧ Trimmed url := by
  rw [segmentEntry] at h
  cases hsegment : segmentMatch segment with
  | none => simp [hsegment] at h
  | some p =>
    obtain ⟨target, m⟩ := p
    rw [hsegment] at h
    change (if m.text ≠ [] ∧ strip target ≠ [] then some (m.text, strip target) else none) = _ at h
    split at h
    · next hboth =>
      obtain ⟨rfl, rfl⟩ := Prod.mk.inj (Option.some.inj h)
      exact ⟨hboth.1, hboth.2, trimmed_strip _, trimmed_strip _⟩
    · cases h

end IssuesApi
