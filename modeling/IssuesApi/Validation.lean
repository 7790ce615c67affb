import IssuesApi.Schemas

/-!
# Validation of request bodies (`app/schemas.py`)

Pydantic on a JSON value: a field first checks the type and the length, its after-validator then
sees the parsed value, and the model's own validator runs last.  `none` is a validation error.
The validators return what they vouch for, so a model is built from what its fields return.
-/

namespace IssuesApi

/-! ## Fields -/

/-- A `str` field with `min_length` and `max_length`.  To measure a string Pydantic takes its
text, which it refuses to do for a lone surrogate. -/
def boundedStr (minLength maxLength : ℕ) (value : Json) :
    Option { t : Text // minLength ≤ t.length ∧ t.length ≤ maxLength } := do
  let t ← strField value >>= PyStr.toText?
  if h : minLength ≤ t.length ∧ t.length ≤ maxLength then some ⟨t, h⟩ else none

/-- A `list[str]` field with `max_length`.  Its items are not measured. -/
def boundedList (maxLength : ℕ) : Json → Option { ls : List PyStr // ls.length ≤ maxLength }
  | .arr items => do
    let ls ← items.mapM strField
    if h : ls.length ≤ maxLength then some ⟨ls, h⟩ else none
  | _ => none

/-- An `IssueState` field. -/
def stateField : Json → Option IssueState
  | .str s => [IssueState.OPEN, .CLOSED].find? fun state => s = py state.value
  | _ => none

/-- `extra="forbid"`: an object with no keys but the names of the fields. -/
def modelFields (names : List String) : Json → Option (List (PyStr × Json))
  | .obj fields =>
    if fields.all fun f => names.any fun name => f.1 = py name then some fields else none
  | _ => none

/-- A field `X | None = None`. -/
def optionalMember {α : Type} (fields : List (PyStr × Json)) (name : String)
    (field : Json → Option α) : Option (Option α) :=
  match dictGet fields name with
  | some value => optionalField field value
  | none => some none

/-! ## Validators -/

/-- Stripped text of bounded length. -/
abbrev StrippedText (maxLength : ℕ) := { t : Text // Stripped t ∧ t.length ≤ maxLength }

/-- The check of the title and of the comment: it returns `value.strip()`. -/
def notOnlyWhitespace {maxLength : ℕ} (name : String) (value : Text)
    (hlength : value.length ≤ maxLength) : Except String (StrippedText maxLength) :=
  if h : strip value = [] then
    .error (name ++ " must contain at least one non-whitespace character")
  else .ok ⟨strip value, ⟨strip_strip value, h⟩, (length_strip_le value).trans hlength⟩

/-- `IssueCreate._title_is_not_only_whitespace`. -/
def IssueCreate.titleIsNotOnlyWhitespace (value : Text) (h : value.length ≤ 256) :
    Except String (StrippedText 256) := notOnlyWhitespace "title" value h

/-- `IssuePatch._title_is_not_only_whitespace`, on a value that is not `None`. -/
def IssuePatch.titleIsNotOnlyWhitespace (value : Text) (h : value.length ≤ 256) :
    Except String (StrippedText 256) := notOnlyWhitespace "title" value h

/-- `CommentCreate._body_is_not_only_whitespace`. -/
def CommentCreate.bodyIsNotOnlyWhitespace (value : Text) (h : value.length ≤ 65536) :
    Except String (StrippedText 65536) := notOnlyWhitespace "body" value h

/-- What is left of the labels after stripping them and dropping the empty ones. -/
def cleanedLabels (value : List PyStr) : List PyStr := (value.map PyStr.strip).filter (· ≠ [])

lemma stripped_of_mem_cleanedLabels {value : List PyStr} {l : PyStr}
    (h : l ∈ cleanedLabels value) : StrippedLabel l := by
  obtain ⟨hmem, hne⟩ := List.mem_filter.mp h
  obtain ⟨l', -, rfl⟩ := List.mem_map.mp hmem
  exact ⟨trimBy_trimBy isSpaceCode l', by simpa using hne⟩

/-- `IssueCreate._labels_are_clean`, on a value that is not `None`. -/
def IssueCreate.labelsAreClean (value : List PyStr) (h : value.length ≤ 100) :
    Except String { ls : List PyStr // ls.length ≤ 100 ∧ ∀ l ∈ ls, StrippedLabel l } :=
  if hlength : (cleanedLabels value).length = value.length then
    .ok ⟨cleanedLabels value, hlength ▸ h, fun _ => stripped_of_mem_cleanedLabels⟩
  else .error "labels must not contain empty or whitespace-only entries"

/-- `IssuePatch._at_least_one_field`. -/
def IssuePatch.atLeastOneField (title body : Option Text) (state : Option IssueState) :
    Except String (PLift (title ≠ none ∨ body ≠ none ∨ state ≠ none)) :=
  if h : title ≠ none ∨ body ≠ none ∨ state ≠ none then .ok ⟨h⟩
  else .error "provide at least one of: title, body, state"

/-! ## Models -/

/-- The title of an `IssueCreate`. -/
def IssueCreate.titleField (value : Json) : Option (StrippedText 256) := do
  let t ← boundedStr 1 256 value
  (IssueCreate.titleIsNotOnlyWhitespace t.1 t.2.2).toOption

/-- The title of an `IssuePatch` that is not null. -/
def IssuePatch.titleField (value : Json) : Option (StrippedText 256) := do
  let t ← boundedStr 1 256 value
  (IssuePatch.titleIsNotOnlyWhitespace t.1 t.2.2).toOption

/-- The body of a `CommentCreate`. -/
def CommentCreate.bodyField (value : Json) : Option (StrippedText 65536) := do
  let t ← boundedStr 1 65536 value
  (CommentCreate.bodyIsNotOnlyWhitespace t.1 t.2.2).toOption

/-- The labels of an `IssueCreate` that are not null. -/
def IssueCreate.labelsField (value : Json) :
    Option { ls : List PyStr // ls.length ≤ 100 ∧ ∀ l ∈ ls, StrippedLabel l } := do
  let ls ← boundedList 100 value
  (IssueCreate.labelsAreClean ls.1 ls.2).toOption

lemma forall_mem_map_val {α : Type} {p : α → Prop} {value : Option { a : α // p a }} :
    ∀ a ∈ value.map Subtype.val, p a := by
  intro a ha
  obtain ⟨b, -, rfl⟩ := Option.mem_map.mp ha
  exact b.2

/-- `IssueCreate.model_validate`. -/
def IssueCreate.validate (value : Json) : Option IssueCreate := do
  let fields ← modelFields ["title", "body", "labels"] value
  let title ← dictGet fields "title" >>= IssueCreate.titleField
  let body ← optionalMember fields "body" (boundedStr 0 65536)
  let labels ← optionalMember fields "labels" IssueCreate.labelsField
  return { title := title.1, body := body.map Subtype.val, labels := labels.map Subtype.val,
           title_valid := title.2, body_valid := fun b hb => (forall_mem_map_val b hb).2,
           labels_valid := forall_mem_map_val }

/-- `IssuePatch.model_validate`; `_at_least_one_field` comes last. -/
def IssuePatch.validate (value : Json) : Option IssuePatch := do
  let fields ← modelFields ["title", "body", "state"] value
  let title ← optionalMember fields "title" IssuePatch.titleField
  let body ← optionalMember fields "body" (boundedStr 0 65536)
  let state ← optionalMember fields "state" stateField
  let named ←
    (IssuePatch.atLeastOneField (title.map Subtype.val) (body.map Subtype.val) state).toOption
  return { title := title.map Subtype.val, body := body.map Subtype.val, state,
           title_valid := forall_mem_map_val,
           body_valid := fun b hb => (forall_mem_map_val b hb).2, at_least_one := named.down }

/-- `CommentCreate.model_validate`. -/
def CommentCreate.validate (value : Json) : Option CommentCreate := do
  let fields ← modelFields ["body"] value
  let body ← dictGet fields "body" >>= CommentCreate.bodyField
  return { body := body.1, body_valid := body.2 }

/-! ## What the fields accept -/

lemma strField_eq_some {value : Json} {s : PyStr} : strField value = some s ↔ value = .str s := by
  cases value <;> simp [strField]

/-- A string without lone surrogates is a text. -/
lemma strField_text_eq_some {value : Json} {t : Text} :
    (strField value >>= PyStr.toText?) = some t ↔ value = .text t := by
  rw [Option.bind_eq_bind, Option.bind_eq_some_iff]
  simp only [strField_eq_some, PyStr.toText?_eq_some, exists_eq_right, Json.text]

lemma boundedStr_eq_some {low high : ℕ} {value : Json}
    {t : { t : Text // low ≤ t.length ∧ t.length ≤ high }} :
    boundedStr low high value = some t ↔ value = .text t.1 := by
  rw [boundedStr, Option.bind_eq_bind, Option.bind_eq_some_iff]
  constructor
  · rintro ⟨u, hu, h⟩
    rw [strField_text_eq_some] at hu
    split at h
    · obtain rfl := Option.some.inj h
      exact hu
    · cases h
  · intro h
    exact ⟨t.1, strField_text_eq_some.mpr h, dif_pos t.2⟩

/-- A bounded string field accepts the strings without lone surrogates between its bounds. -/
lemma isSome_boundedStr_iff {low high : ℕ} {value : Json} :
    (boundedStr low high value).isSome = true ↔
      ∃ t, value = .text t ∧ low ≤ t.length ∧ t.length ≤ high := by
  rw [Option.isSome_iff_exists]
  constructor
  · rintro ⟨t, ht⟩
    exact ⟨t.1, boundedStr_eq_some.mp ht, t.2⟩
  · rintro ⟨t, ht, hbounds⟩
    exact ⟨⟨t, hbounds⟩, boundedStr_eq_some.mpr ht⟩

/-- The whitespace check passes on what is left after stripping. -/
lemma notOnlyWhitespace_eq_ok {most : ℕ} {name : String} {value : Text}
    {hlength : value.length ≤ most} {t : StrippedText most} :
    (notOnlyWhitespace name value hlength).toOption = some t ↔ t.1 = strip value := by
  unfold notOnlyWhitespace
  split
  · next hblank =>
    refine iff_of_false (by simp [Except.toOption]) fun ht => ?_
    exact t.2.1.2 (ht.trans hblank)
  · exact ⟨fun h => (congrArg Subtype.val (Option.some.inj h)).symm, fun h =>
      congrArg some (Subtype.ext h.symm)⟩

/-- A checked string field returns the text it accepts, stripped. -/
lemma stripped_eq_some {low high : ℕ} {name : String} {value : Json} {t : StrippedText high} :
    (boundedStr low high value >>= fun t =>
      (notOnlyWhitespace name t.1 t.2.2).toOption) = some t ↔
      ∃ u, value = .text u ∧ (low ≤ u.length ∧ u.length ≤ high) ∧ t.1 = strip u := by
  rw [Option.bind_eq_bind, Option.bind_eq_some_iff]
  simp only [notOnlyWhitespace_eq_ok, boundedStr_eq_some]
  constructor
  · rintro ⟨u, hu, ht⟩
    exact ⟨u.1, hu, u.2, ht⟩
  · rintro ⟨u, hu, hbounds, ht⟩
    exact ⟨⟨u, hbounds⟩, hu, ht⟩

/-- It rejects those that are stripped to nothing. -/
lemma isSome_stripped_iff {low high : ℕ} {name : String} {value : Json} :
    (boundedStr low high value >>= fun t =>
      (notOnlyWhitespace name t.1 t.2.2).toOption).isSome = true ↔
      ∃ t, value = .text t ∧ low ≤ t.length ∧ t.length ≤ high ∧ strip t ≠ [] := by
  simp only [Option.isSome_iff_exists, stripped_eq_some]
  constructor
  · rintro ⟨t, u, hu, hbounds, ht⟩
    exact ⟨u, hu, hbounds.1, hbounds.2, ht ▸ t.2.1.2⟩
  · rintro ⟨u, hu, hlow, hhigh, hne⟩
    exact ⟨⟨strip u, ⟨strip_strip u, hne⟩, (length_strip_le u).trans hhigh⟩, u, hu,
      ⟨hlow, hhigh⟩, rfl⟩

lemma mapM_strField_eq_some : ∀ {items : List Json} {ls : List PyStr},
    items.mapM strField = some ls ↔ items = ls.map Json.str
  | [], ls => by simp [List.mapM_nil, eq_comm]
  | item :: items, ls => by
      rw [List.mapM_cons, Option.bind_eq_bind, Option.bind_eq_some_iff]
      constructor
      · rintro ⟨l, hl, h⟩
        rw [Option.bind_eq_bind, Option.bind_eq_some_iff] at h
        obtain ⟨rest, hrest, h⟩ := h
        obtain rfl := Option.some.inj h
        rw [strField_eq_some.mp hl, mapM_strField_eq_some.mp hrest, List.map_cons]
      · intro h
        obtain ⟨l, rest, rfl⟩ : ∃ l rest, ls = l :: rest := by
          cases ls with
          | nil => cases h
          | cons l rest => exact ⟨l, rest, rfl⟩
        rw [List.map_cons, List.cons.injEq] at h
        refine ⟨l, strField_eq_some.mpr h.1, ?_⟩
        rw [mapM_strField_eq_some.mpr h.2]
        rfl

lemma boundedList_eq_some {most : ℕ} {value : Json}
    {ls : { ls : List PyStr // ls.length ≤ most }} :
    boundedList most value = some ls ↔ value = .arr (ls.1.map Json.str) := by
  cases value with
  | arr items =>
    rw [boundedList, Option.bind_eq_bind, Option.bind_eq_some_iff]
    constructor
    · rintro ⟨us, hus, h⟩
      split at h
      · obtain rfl := Option.some.inj h
        exact congrArg Json.arr (mapM_strField_eq_some.mp hus)
      · cases h
    · intro h
      exact ⟨ls.1, mapM_strField_eq_some.mpr (Json.arr.inj h), dif_pos ls.2⟩
  | _ => simp [boundedList]

/-- Labels are clean when none of them is stripped to nothing. -/
lemma length_cleanedLabels_iff {value : List PyStr} :
    (cleanedLabels value).length = value.length ↔ ∀ l ∈ value, PyStr.strip l ≠ [] := by
  have hlength : value.length = (value.map PyStr.strip).length := by simp
  rw [cleanedLabels, hlength, List.length_filter_eq_length_iff]
  simp

/-- Then none is dropped. -/
lemma cleanedLabels_eq {value : List PyStr} (h : ∀ l ∈ value, PyStr.strip l ≠ []) :
    cleanedLabels value = value.map PyStr.strip := by
  rw [cleanedLabels, List.filter_eq_self]
  simpa using h

/-- The labels field returns the labels it accepts, each of them stripped. -/
lemma labelsField_eq_some {value : Json}
    {ls : { ls : List PyStr // ls.length ≤ 100 ∧ ∀ l ∈ ls, StrippedLabel l }} :
    IssueCreate.labelsField value = some ls ↔
      ∃ us : List PyStr, value = .arr (us.map Json.str) ∧ us.length ≤ 100 ∧
        (∀ l ∈ us, PyStr.strip l ≠ []) ∧ ls.1 = us.map PyStr.strip := by
  have hcheck (us : { us : List PyStr // us.length ≤ 100 }) :
      (IssueCreate.labelsAreClean us.1 us.2).toOption = some ls ↔
        (∀ l ∈ us.1, PyStr.strip l ≠ []) ∧ ls.1 = us.1.map PyStr.strip := by
    rw [← length_cleanedLabels_iff, IssueCreate.labelsAreClean]
    split
    · next hclean =>
      rw [and_iff_right hclean, ← cleanedLabels_eq (length_cleanedLabels_iff.mp hclean)]
      exact ⟨fun h => (congrArg Subtype.val (Option.some.inj h)).symm, fun h =>
        congrArg some (Subtype.ext h.symm)⟩
    · next hclean => exact iff_of_false (by simp [Except.toOption]) fun h => hclean h.1
  rw [IssueCreate.labelsField, Option.bind_eq_bind, Option.bind_eq_some_iff]
  simp only [hcheck, boundedList_eq_some]
  constructor
  · rintro ⟨us, hus, hne, hls⟩
    exact ⟨us.1, hus, us.2, hne, hls⟩
  · rintro ⟨us, hus, hmost, hne, hls⟩
    exact ⟨⟨us, hmost⟩, hus, hne, hls⟩

/-- The labels accepted. -/
lemma isSome_labelsField_iff {value : Json} :
    (IssueCreate.labelsField value).isSome = true ↔
      ∃ ls : List PyStr, value = .arr (ls.map Json.str) ∧ ls.length ≤ 100 ∧
        ∀ l ∈ ls, PyStr.strip l ≠ [] := by
  simp only [Option.isSome_iff_exists, labelsField_eq_some]
  constructor
  · rintro ⟨ls, us, hus, hmost, hne, -⟩
    exact ⟨us, hus, hmost, hne⟩
  · rintro ⟨us, hus, hmost, hne⟩
    refine ⟨⟨us.map PyStr.strip, by simpa using hmost, fun l hl => ?_⟩, us, hus, hmost, hne, rfl⟩
    obtain ⟨u, hu, rfl⟩ := List.mem_map.mp hl
    exact ⟨trimBy_trimBy isSpaceCode u, hne u hu⟩

/-- The state accepted. -/
lemma stateField_eq_some {value : Json} {state : IssueState} :
    stateField value = some state ↔ value = .lit state.value := by
  cases value with
  | str s =>
    have hdistinct : py "open" ≠ py "closed" := by decide
    rw [stateField]
    by_cases hopen : s = py "open"
    · subst hopen
      cases state <;> simp [IssueState.value, Json.lit, hdistinct]
    · by_cases hclosed : s = py "closed"
      · subst hclosed
        cases state <;> simp [IssueState.value, Json.lit, hdistinct.symm]
      · cases state <;> simp [IssueState.value, Json.lit, hopen, hclosed]
  | _ => simp [stateField, Json.lit]

lemma isSome_stateField_iff {value : Json} :
    (stateField value).isSome = true ↔ value = .lit "open" ∨ value = .lit "closed" := by
  simp only [Option.isSome_iff_exists, stateField_eq_some]
  constructor
  · rintro ⟨_ | _, h⟩
    · exact Or.inl h
    · exact Or.inr h
  · rintro (h | h)
    · exact ⟨.OPEN, h⟩
    · exact ⟨.CLOSED, h⟩

/-! ## What the models accept -/

/-- An object all of whose keys are names of fields. -/
lemma modelFields_eq_some {names : List String} {value : Json} {fields : List (PyStr × Json)} :
    modelFields names value = some fields ↔
      value = .obj fields ∧ ∀ f ∈ fields, ∃ name ∈ names, f.1 = py name := by
  cases value with
  | obj members =>
    simp only [modelFields, Option.ite_none_right_eq_some, Option.some.injEq, Json.obj.injEq,
      List.all_eq_true, List.any_eq_true, decide_eq_true_eq]
    constructor
    · rintro ⟨h, rfl⟩
      exact ⟨rfl, h⟩
    · rintro ⟨rfl, h⟩
      exact ⟨h, rfl⟩
  | _ => simp [modelFields]

/-- An optional field accepts its absence, null, and what the field accepts. -/
lemma isSome_optionalMember_iff {α : Type} {fields : List (PyStr × Json)} {name : String}
    {field : Json → Option α} :
    (optionalMember fields name field).isSome = true ↔
      ∀ value ∈ dictGet fields name, value = .null ∨ (field value).isSome = true := by
  unfold optionalMember
  cases dictGet fields name with
  | none => simp
  | some value => cases value <;> simp [optionalField]

lemma isSome_bind_iff {α β : Type} {x : Option α} {f : α → Option β} :
    (x >>= f).isSome = true ↔ ∃ a, x = some a ∧ (f a).isSome = true := by
  cases x <;> simp

/-- A field has a value when its member is there and not null. -/
lemma optionalMember_ne_none {α : Type} {fields : List (PyStr × Json)} {name : String}
    {field : Json → Option α} {r : Option α} (h : optionalMember fields name field = some r) :
    r ≠ none ↔ ∃ member ∈ dictGet fields name, member ≠ .null := by
  unfold optionalMember at h
  cases hget : dictGet fields name with
  | none =>
    rw [hget] at h
    obtain rfl := Option.some.inj h
    simp
  | some member =>
    rw [hget] at h
    by_cases hnull : member = .null
    · subst hnull
      obtain rfl := Option.some.inj h
      simp
    · have hvalue : (field member).map some = some r := optionalField_of_ne_null hnull ▸ h
      obtain ⟨value, -, rfl⟩ := Option.map_eq_some_iff.mp hvalue
      simpa using hnull

lemma IssueCreate.isSome_validate_iff {value : Json} :
    (IssueCreate.validate value).isSome = true ↔
      ∃ fields, value = .obj fields ∧
        (∀ f ∈ fields, ∃ name ∈ ["title", "body", "labels"], f.1 = py name) ∧
        (∃ member, dictGet fields "title" = some member ∧
          (IssueCreate.titleField member).isSome = true) ∧
        (optionalMember fields "body" (boundedStr 0 65536)).isSome = true ∧
        (optionalMember fields "labels" IssueCreate.labelsField).isSome = true := by
  unfold IssueCreate.validate
  rw [isSome_bind_iff]
  simp only [modelFields_eq_some, and_assoc]
  refine exists_congr fun fields => and_congr_right fun _ => and_congr_right fun _ => ?_
  rw [← isSome_bind_iff, isSome_bind_iff]
  constructor
  · rintro ⟨title, htitle, h⟩
    obtain ⟨body, hbody, h⟩ := isSome_bind_iff.mp h
    obtain ⟨labels, hlabels, -⟩ := isSome_bind_iff.mp h
    exact ⟨Option.isSome_of_eq_some htitle, Option.isSome_of_eq_some hbody,
      Option.isSome_of_eq_some hlabels⟩
  · rintro ⟨htitle, hbody, hlabels⟩
    obtain ⟨title, htitle⟩ := Option.isSome_iff_exists.mp htitle
    obtain ⟨body, hbody⟩ := Option.isSome_iff_exists.mp hbody
    obtain ⟨labels, hlabels⟩ := Option.isSome_iff_exists.mp hlabels
    refine ⟨title, htitle, isSome_bind_iff.mpr ⟨body, hbody, ?_⟩⟩
    exact isSome_bind_iff.mpr ⟨labels, hlabels, rfl⟩

lemma IssuePatch.isSome_validate_iff {value : Json} :
    (IssuePatch.validate value).isSome = true ↔
      ∃ fields, value = .obj fields ∧
        (∀ f ∈ fields, ∃ name ∈ ["title", "body", "state"], f.1 = py name) ∧
        (optionalMember fields "title" IssuePatch.titleField).isSome = true ∧
        (optionalMember fields "body" (boundedStr 0 65536)).isSome = true ∧
        (optionalMember fields "state" stateField).isSome = true ∧
        ∃ name ∈ ["title", "body", "state"], ∃ member ∈ dictGet fields name, member ≠ .null := by
  have hnamed : ∀ title body state, (IssuePatch.atLeastOneField title body state).toOption.isSome =
      true ↔ title ≠ none ∨ body ≠ none ∨ state ≠ none := by
    intro title body state
    by_cases h : title ≠ none ∨ body ≠ none ∨ state ≠ none
    · rw [IssuePatch.atLeastOneField, dif_pos h]
      exact iff_of_true rfl h
    · rw [IssuePatch.atLeastOneField, dif_neg h]
      exact iff_of_false Bool.false_ne_true h
  unfold IssuePatch.validate
  rw [isSome_bind_iff]
  simp only [modelFields_eq_some, and_assoc]
  refine exists_congr fun fields => and_congr_right fun _ => and_congr_right fun _ => ?_
  rw [isSome_bind_iff]
  constructor
  · rintro ⟨title, htitle, h⟩
    obtain ⟨body, hbody, h⟩ := isSome_bind_iff.mp h
    obtain ⟨state, hstate, h⟩ := isSome_bind_iff.mp h
    obtain ⟨named, hsome, -⟩ := isSome_bind_iff.mp h
    refine ⟨Option.isSome_of_eq_some htitle, Option.isSome_of_eq_some hbody,
      Option.isSome_of_eq_some hstate, ?_⟩
    have hone := (hnamed ..).mp (Option.isSome_of_eq_some hsome)
    simp only [ne_eq, Option.map_eq_none_iff] at hone
    simp only [List.mem_cons, List.not_mem_nil, or_false, exists_eq_or_imp, exists_eq_left]
    rw [← optionalMember_ne_none htitle, ← optionalMember_ne_none hbody,
      ← optionalMember_ne_none hstate]
    exact hone
  · rintro ⟨htitle, hbody, hstate, hmember⟩
    obtain ⟨title, htitle⟩ := Option.isSome_iff_exists.mp htitle
    obtain ⟨body, hbody⟩ := Option.isSome_iff_exists.mp hbody
    obtain ⟨state, hstate⟩ := Option.isSome_iff_exists.mp hstate
    simp only [List.mem_cons, List.not_mem_nil, or_false, exists_eq_or_imp, exists_eq_left]
      at hmember
    rw [← optionalMember_ne_none htitle, ← optionalMember_ne_none hbody,
      ← optionalMember_ne_none hstate] at hmember
    have hone : (IssuePatch.atLeastOneField (title.map Subtype.val) (body.map Subtype.val)
        state).toOption.isSome = true := by
      rw [hnamed]
      simpa only [ne_eq, Option.map_eq_none_iff] using hmember
    obtain ⟨named, hsome⟩ := Option.isSome_iff_exists.mp hone
    refine ⟨title, htitle, isSome_bind_iff.mpr ⟨body, hbody, ?_⟩⟩
    exact isSome_bind_iff.mpr ⟨state, hstate, isSome_bind_iff.mpr ⟨named, hsome, rfl⟩⟩

lemma CommentCreate.isSome_validate_iff {value : Json} :
    (CommentCreate.validate value).isSome = true ↔
      ∃ fields, value = .obj fields ∧ (∀ f ∈ fields, ∃ name ∈ ["body"], f.1 = py name) ∧
        ∃ member, dictGet fields "body" = some member ∧
          (CommentCreate.bodyField member).isSome = true := by
  unfold CommentCreate.validate
  rw [isSome_bind_iff]
  simp only [modelFields_eq_some, and_assoc]
  refine exists_congr fun fields => and_congr_right fun _ => and_congr_right fun _ => ?_
  rw [← isSome_bind_iff, isSome_bind_iff, Option.isSome_iff_exists]
  exact exists_congr fun body => and_iff_left rfl

end IssuesApi
