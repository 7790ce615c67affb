import IssuesApi.Contract
import IssuesApi.Validation

/-!
# The request models and the published contract

For each request model, which JSON values it accepts, in the terms of the schema of the same
name in `openapi.yaml`; from this, exactly where model and contract agree.

They differ in two ways.  `IssuePatch` accepts a null member, which its schema does not, as long
as another member has a value.  And a `str` field of bounded length rejects a string with a lone
surrogate, which a schema cannot say.  Labels are not bounded, so they may hold one.
-/

namespace IssuesApi

/-! ## Blank strings and lone surrogates -/

/-- A string of nothing but whitespace. -/
def Json.isBlank : Json → Bool
  | .str s => s.all isSpaceCode
  | _ => false

/-- A string with a lone surrogate. -/
def Json.hasSurrogate : Json → Bool
  | .str s => s.toText?.isNone
  | _ => false

/-- A blank string, or an array with one. -/
def Json.blankIn : Json → Bool
  | .arr items => items.any Json.isBlank
  | value => value.isBlank

/-- Some of the named members has a property. -/
def anyMember (names : List String) (p : Json → Bool) : Json → Bool
  | .obj fields => names.any fun name => (dictGet fields name).any p
  | _ => false

lemma isBlank_str (s : PyStr) : (Json.str s).isBlank = true ↔ PyStr.strip s = [] := by
  rw [PyStr.strip, trimBy_eq_nil_iff, Json.isBlank, List.all_eq_true]

lemma isBlank_text (t : Text) : (Json.text t).isBlank = true ↔ strip t = [] := by
  rw [Json.text, isBlank_str, PyStr.strip_toPyStr, Text.toPyStr, List.map_eq_nil_iff]

@[simp] lemma hasSurrogate_text (t : Text) : (Json.text t).hasSurrogate = false := by
  simp [Json.hasSurrogate, Json.text]

/-- A string without lone surrogates is a text. -/
lemma exists_text_iff {value : Json} {p : ℕ → Prop} :
    (∃ t : Text, value = .text t ∧ p t.length) ↔
      (∃ s, value = .str s ∧ p s.length) ∧ value.hasSurrogate = false := by
  constructor
  · rintro ⟨t, rfl, hp⟩
    exact ⟨⟨t.toPyStr, rfl, by simpa [Text.toPyStr] using hp⟩, hasSurrogate_text t⟩
  · rintro ⟨⟨s, rfl, hp⟩, hsurrogate⟩
    obtain ⟨t, ht⟩ : ∃ t, s.toText? = some t := by
      cases h : s.toText? with
      | none => simp [Json.hasSurrogate, h] at hsurrogate
      | some t => exact ⟨t, rfl⟩
    obtain rfl := PyStr.toText?_eq_some.mp ht
    exact ⟨t, rfl, by simpa [Text.toPyStr] using hp⟩

/-- The same with the whitespace check. -/
lemma exists_stripped_iff {value : Json} {p : ℕ → Prop} :
    (∃ t : Text, value = .text t ∧ p t.length ∧ strip t ≠ []) ↔
      (∃ s, value = .str s ∧ p s.length) ∧ value.isBlank = false ∧
        value.hasSurrogate = false := by
  constructor
  · rintro ⟨t, rfl, hp, hstrip⟩
    obtain ⟨hstr, hsurrogate⟩ := exists_text_iff.mp ⟨t, rfl, hp⟩
    refine ⟨hstr, ?_, hsurrogate⟩
    rw [← Bool.not_eq_true, isBlank_text]
    exact hstrip
  · rintro ⟨hstr, hblank, hsurrogate⟩
    obtain ⟨t, rfl, hp⟩ := exists_text_iff.mpr ⟨hstr, hsurrogate⟩
    rw [← Bool.not_eq_true, isBlank_text] at hblank
    exact ⟨t, rfl, hp, hblank⟩

/-! ## Members -/

/-- A stripped field and the schema of the same bounds. -/
lemma stripped_field_iff {low high : ℕ} {name : String} {value : Json} :
    (boundedStr low high value >>= fun t =>
      (notOnlyWhitespace name t.1 t.2.2).toOption).isSome = true ↔
      Schema.allOf [Schema.type [.string], Schema.minLength low, Schema.maxLength high] value =
          true ∧ value.blankIn = false ∧ value.hasSurrogate = false := by
  have hstripped := @exists_stripped_iff value fun n => low ≤ n ∧ n ≤ high
  simp only [and_assoc] at hstripped
  rw [isSome_stripped_iff, hstripped, Schema.string_iff]
  cases value <;> simp [Json.blankIn, Json.hasSurrogate]

/-- A bounded field and the schema of the same bound. -/
lemma bounded_field_iff {high : ℕ} {value : Json} :
    (boundedStr 0 high value).isSome = true ↔
      Schema.allOf [Schema.type [.string], Schema.maxLength high] value = true ∧
        value.hasSurrogate = false := by
  rw [isSome_boundedStr_iff, Schema.shortString_iff,
    @exists_text_iff value fun n => 0 ≤ n ∧ n ≤ high]
  cases value <;> simp [Json.hasSurrogate]

/-- The labels and their schema. -/
lemma labels_field_iff {value : Json} :
    (value = .null ∨ (IssueCreate.labelsField value).isSome = true) ↔
      Schema.allOf [Schema.type [.array, .null], Schema.maxItems 100,
        Schema.items (Schema.allOf [Schema.type [.string], Schema.minLength 1])] value = true ∧
        value.blankIn = false := by
  rw [isSome_labelsField_iff, Schema.nullableStrings_iff]
  cases value with
  | null => simp [Json.blankIn, Json.isBlank]
  | arr items =>
    have hitem : ∀ item : Json, (∃ l, item = .str l ∧ PyStr.strip l ≠ []) ↔
        (∃ s, item = .str s ∧ 1 ≤ s.length) ∧ item.isBlank = false := by
      intro item
      constructor
      · rintro ⟨l, rfl, hl⟩
        have hne : l ≠ [] := by
          rintro rfl
          exact hl rfl
        rw [← Bool.not_eq_true, isBlank_str]
        exact ⟨⟨l, rfl, List.length_pos_iff.mpr hne⟩, hl⟩
      · rintro ⟨⟨l, rfl, -⟩, hblank⟩
        rw [← Bool.not_eq_true, isBlank_str] at hblank
        exact ⟨l, rfl, hblank⟩
    simp only [reduceCtorEq, false_or, Schema.exists_arr_iff, hitem, Json.blankIn,
      List.any_eq_false, Bool.not_eq_true]
    constructor
    · rintro ⟨hlen, h⟩
      exact ⟨⟨hlen, fun a ha => (h a ha).1⟩, fun a ha => (h a ha).2⟩
    · rintro ⟨⟨hlen, hstr⟩, hblank⟩
      exact ⟨hlen, fun a ha => ⟨hstr a ha, hblank a ha⟩⟩
  | _ => simp

/-- A nullable bounded field and the schema of the same bound. -/
lemma nullable_field_iff {high : ℕ} {value : Json} :
    (value = .null ∨ (boundedStr 0 high value).isSome = true) ↔
      Schema.allOf [Schema.type [.string, .null], Schema.maxLength high] value = true ∧
        value.hasSurrogate = false := by
  rw [bounded_field_iff, Schema.shortString_iff, Schema.nullableString_iff]
  cases value <;> simp [Json.hasSurrogate]

/-- The state and its schema. -/
lemma state_field_iff {value : Json} :
    (stateField value).isSome = true ↔ Contract.issueState value = true := by
  rw [isSome_stateField_iff]
  cases value with
  | str s =>
    simp only [Contract.issueState, Schema.allOf, Schema.type, Schema.TypeName.admits, Schema.enum,
      List.all_cons, List.all_nil, List.any_cons, List.any_nil, Bool.or_false, Bool.and_true,
      Bool.true_and, Bool.or_eq_true, decide_eq_true_eq]
    exact or_congr eq_comm eq_comm
  | _ => simp [Contract.issueState, Schema.allOf, Schema.type, Schema.TypeName.admits, Json.lit]

lemma anyMember_eq_false {names : List String} {p : Json → Bool}
    {fields : List (PyStr × Json)} :
    anyMember names p (.obj fields) = false ↔
      ∀ name ∈ names, ∀ member ∈ dictGet fields name, p member = false := by
  rw [anyMember, List.any_eq_false]
  refine forall₂_congr fun name _ => ?_
  cases dictGet fields name <;> simp

/-! ## Models -/

/-- A required field is there, and is accepted. -/
lemma exists_eq_some_iff {α : Type} {o : Option α} {p : α → Prop} :
    (∃ a, o = some a ∧ p a) ↔ o.isSome = true ∧ ∀ a ∈ o, p a := by
  cases o <;> simp

/-- What `IssueCreate` accepts. -/
lemma accepts_issueCreate_iff {value : Json} :
    (IssueCreate.validate value).isSome = true ↔
      Contract.issueCreate value = true ∧ anyMember ["title", "labels"] Json.blankIn value = false ∧
        anyMember ["title", "body"] Json.hasSurrogate value = false := by
  have htitle : ∀ m, (IssueCreate.titleField m).isSome = true ↔
      Contract.title m = true ∧ m.blankIn = false ∧ m.hasSurrogate = false :=
    fun m => stripped_field_iff
  rw [IssueCreate.isSome_validate_iff, Contract.issueCreate, Schema.closedObject_iff]
  cases value with
  | obj fields =>
    simp only [Json.obj.injEq, exists_eq_left', anyMember_eq_false, exists_eq_some_iff, htitle,
      isSome_optionalMember_iff, nullable_field_iff, labels_field_iff, forall₂_and,
      Contract.issueCreateProperties, Schema.allOf, Schema.required, List.mem_cons,
      List.not_mem_nil, or_false, exists_eq_or_imp, exists_eq_left, forall_eq_or_imp, forall_eq,
      List.all_cons, List.all_nil, Bool.and_true]
    constructor
    · rintro ⟨hkeys, ⟨hhas, htitle, hblank, hsurrogate⟩, ⟨hbody, hsurrogate'⟩, hlabels, hblank'⟩
      exact ⟨⟨⟨htitle, hbody, hlabels⟩, hkeys, hhas⟩, ⟨hblank, hblank'⟩, hsurrogate, hsurrogate'⟩
    · rintro ⟨⟨⟨htitle, hbody, hlabels⟩, hkeys, hhas⟩, ⟨hblank, hblank'⟩, hsurrogate, hsurrogate'⟩
      exact ⟨hkeys, ⟨hhas, htitle, hblank, hsurrogate⟩, ⟨hbody, hsurrogate'⟩, hlabels, hblank'⟩
  | _ => simp

/-- What `CommentCreate` accepts. -/
lemma accepts_commentCreate_iff {value : Json} :
    (CommentCreate.validate value).isSome = true ↔
      Contract.commentCreate value = true ∧ anyMember ["body"] Json.blankIn value = false ∧
        anyMember ["body"] Json.hasSurrogate value = false := by
  have hbody : ∀ m, (CommentCreate.bodyField m).isSome = true ↔
      Schema.allOf [Schema.type [.string], Schema.minLength 1, Schema.maxLength 65536] m = true ∧
        m.blankIn = false ∧ m.hasSurrogate = false := fun m => stripped_field_iff
  rw [CommentCreate.isSome_validate_iff, Contract.commentCreate, Schema.closedObject_iff]
  cases value with
  | obj fields =>
    simp only [Json.obj.injEq, exists_eq_left', anyMember_eq_false, exists_eq_some_iff, hbody,
      forall₂_and, Contract.commentCreateProperties, Schema.allOf, Schema.required, List.mem_cons,
      List.not_mem_nil, or_false, exists_eq_left, forall_eq, List.all_cons, List.all_nil,
      Bool.and_true]
    constructor
    · rintro ⟨hkeys, hhas, hbody, hplain⟩
      exact ⟨⟨hbody, hkeys, hhas⟩, hplain⟩
    · rintro ⟨⟨hbody, hkeys, hhas⟩, hplain⟩
      exact ⟨hkeys, hhas, hbody, hplain⟩
  | _ => simp

/-! `IssuePatch`, whose members may be null. -/

/-- The value is null. -/
def Json.isNull : Json → Bool
  | .null => true
  | _ => false

/-- The contract of `IssuePatch` with null members left aside: every other member is valid, and
there is one. -/
def patchBesideNulls : Schema
  | .obj fields =>
    Schema.additionalPropertiesFalse Contract.issuePatchProperties (.obj fields) &&
      (Contract.issuePatchProperties.all fun p =>
        (dictGet fields p.1).all fun member => member.isNull || p.2 member) &&
      anyMember ["title", "body", "state"] (fun member => !member.isNull) (.obj fields)
  | _ => false

lemma isNull_iff {value : Json} : value.isNull = true ↔ value = .null := by
  cases value <;> simp [Json.isNull]

lemma patchBesideNulls_iff {fields : List (PyStr × Json)} :
    patchBesideNulls (.obj fields) = true ↔
      (∀ f ∈ fields, ∃ name ∈ ["title", "body", "state"], f.1 = py name) ∧
      ((∀ m ∈ dictGet fields "title", m = .null ∨ Contract.title m = true) ∧
        (∀ m ∈ dictGet fields "body", m = .null ∨
          Schema.allOf [Schema.type [.string], Schema.maxLength 65536] m = true) ∧
        (∀ m ∈ dictGet fields "state", m = .null ∨ Contract.issueState m = true)) ∧
      ∃ name ∈ ["title", "body", "state"], ∃ m ∈ dictGet fields name, m ≠ .null := by
  have hall : ∀ (o : Option Json) (schema : Schema),
      (o.all fun m => m.isNull || schema m) = true ↔ ∀ m ∈ o, m = .null ∨ schema m = true := by
    intro o schema
    cases o <;> simp [isNull_iff]
  have hany : ∀ o : Option Json, (o.any fun m => !m.isNull) = true ↔ ∃ m ∈ o, m ≠ .null := by
    intro o
    cases o with
    | none => simp
    | some m => simp [← isNull_iff]
  simp only [patchBesideNulls, Bool.and_eq_true, Schema.additionalPropertiesFalse,
    Contract.issuePatchProperties, List.all_cons, List.all_nil, Bool.and_true, List.any_cons,
    List.any_nil, Bool.or_false, anyMember, Bool.or_eq_true, hall, hany, List.mem_cons,
    List.not_mem_nil, or_false, exists_eq_or_imp, exists_eq_left, List.all_eq_true,
    decide_eq_true_eq]
  exact and_assoc

/-- What `IssuePatch` accepts. -/
lemma accepts_issuePatch_iff {value : Json} :
    (IssuePatch.validate value).isSome = true ↔
      patchBesideNulls value = true ∧ anyMember ["title"] Json.blankIn value = false ∧
        anyMember ["title", "body"] Json.hasSurrogate value = false := by
  have htitle : ∀ m, (m = .null ∨ (IssuePatch.titleField m).isSome = true) ↔
      (m = .null ∨ Contract.title m = true) ∧ m.blankIn = false ∧ m.hasSurrogate = false := by
    intro m
    have hfield : (IssuePatch.titleField m).isSome = true ↔
        Contract.title m = true ∧ m.blankIn = false ∧ m.hasSurrogate = false := stripped_field_iff
    rw [hfield]
    cases m <;> simp [Json.blankIn, Json.isBlank, Json.hasSurrogate]
  have hbody : ∀ m, (m = .null ∨ (boundedStr 0 65536 m).isSome = true) ↔
      (m = .null ∨ Schema.allOf [Schema.type [.string], Schema.maxLength 65536] m = true) ∧
        m.hasSurrogate = false := by
    intro m
    rw [bounded_field_iff]
    cases m <;> simp [Json.hasSurrogate]
  rw [IssuePatch.isSome_validate_iff]
  cases value with
  | obj fields =>
    simp only [Json.obj.injEq, exists_eq_left', anyMember_eq_false, isSome_optionalMember_iff,
      htitle, hbody, state_field_iff, forall₂_and, patchBesideNulls_iff, List.forall_mem_cons,
      List.not_mem_nil, false_imp_iff, implies_true, and_true]
    constructor
    · rintro ⟨hkeys, ⟨htitle, hblank, hsurrogate⟩, ⟨hbody, hsurrogate'⟩, hstate, hsome⟩
      exact ⟨⟨hkeys, ⟨htitle, hbody, hstate⟩, hsome⟩, hblank, hsurrogate, hsurrogate'⟩
    · rintro ⟨⟨hkeys, ⟨htitle, hbody, hstate⟩, hsome⟩, hblank, hsurrogate, hsurrogate'⟩
      exact ⟨hkeys, ⟨htitle, hblank, hsurrogate⟩, ⟨hbody, hsurrogate'⟩, hstate, hsome⟩
  | _ => simp [patchBesideNulls]

/-- A key of an object has a member. -/
lemma exists_mem_dictGet {fields : List (PyStr × Json)} {f : PyStr × Json} {name : String}
    (hf : f ∈ fields) (hname : f.1 = py name) : ∃ m, m ∈ dictGet fields name := by
  have hsome : (fields.find? fun f => f.1 = py name).isSome = true := by
    rw [List.find?_isSome]
    exact ⟨f, hf, by simpa using hname⟩
  obtain ⟨g, hg⟩ := Option.isSome_iff_exists.mp hsome
  exact ⟨g.2, by rw [dictGet, hg]; rfl⟩

/-- A schema that rejects null, as that schema beside null. -/
lemma strict_member_iff {schema : Schema} (hnull : schema .null = false) (o : Option Json) :
    (∀ m ∈ o, schema m = true) ↔
      (∀ m ∈ o, m = .null ∨ schema m = true) ∧ ∀ m ∈ o, m.isNull = false := by
  cases o with
  | none => simp
  | some m => cases m <;> simp [Json.isNull, hnull]

/-- Without null members, an object has a member when one of its keys has a value. -/
lemma one_le_length_iff {fields : List (PyStr × Json)} {names : List String}
    (hkeys : ∀ f ∈ fields, ∃ name ∈ names, f.1 = py name)
    (hnotNull : ∀ name ∈ names, ∀ m ∈ dictGet fields name, m.isNull = false) :
    1 ≤ fields.length ↔ ∃ name ∈ names, ∃ m ∈ dictGet fields name, m ≠ .null := by
  constructor
  · intro hlen
    obtain ⟨f, hf⟩ := List.exists_mem_of_length_pos hlen
    obtain ⟨name, hname, hkey⟩ := hkeys f hf
    obtain ⟨m, hm⟩ := exists_mem_dictGet hf hkey
    refine ⟨name, hname, m, hm, fun hnull => ?_⟩
    have := hnotNull name hname m hm
    rw [isNull_iff.mpr hnull] at this
    cases this
  · rintro ⟨name, -, m, hm, -⟩
    cases fields with
    | nil => cases hm
    | cons f fields => simp

/-- The contract of `IssuePatch` is that without null members. -/
lemma issuePatch_iff {value : Json} :
    Contract.issuePatch value = true ↔
      patchBesideNulls value = true ∧
        anyMember ["title", "body", "state"] Json.isNull value = false := by
  rw [Contract.issuePatch, Schema.closedObject_iff]
  cases value with
  | obj fields =>
    have hnonempty := @one_le_length_iff fields ["title", "body", "state"]
    have hkeysIff : (∀ f ∈ fields, ∃ p ∈ Contract.issuePatchProperties, f.1 = py p.1) ↔
        ∀ f ∈ fields, ∃ name ∈ ["title", "body", "state"], f.1 = py name := by
      simp [Contract.issuePatchProperties]
    have hmin : Schema.allOf [Schema.minProperties 1] (.obj fields) = true ↔
        1 ≤ fields.length := by
      simp [Schema.allOf, Schema.minProperties]
    have htitle := @strict_member_iff Contract.title rfl (dictGet fields "title")
    have hbody := @strict_member_iff (Schema.allOf [Schema.type [.string], Schema.maxLength 65536])
      rfl (dictGet fields "body")
    have hstate := @strict_member_iff Contract.issueState rfl (dictGet fields "state")
    rw [patchBesideNulls_iff, anyMember_eq_false]
    simp only [Json.obj.injEq, exists_eq_left', hkeysIff, hmin]
    simp only [Contract.issuePatchProperties, List.forall_mem_cons, List.not_mem_nil,
      false_imp_iff, implies_true, and_true, htitle, hbody, hstate] at hnonempty ⊢
    constructor
    · rintro ⟨⟨⟨htitle, hnt⟩, ⟨hbody, hnb⟩, hstate, hns⟩, hkeys, hlen⟩
      exact ⟨⟨hkeys, ⟨htitle, hbody, hstate⟩, (hnonempty hkeys ⟨hnt, hnb, hns⟩).mp hlen⟩,
        hnt, hnb, hns⟩
    · rintro ⟨⟨hkeys, ⟨htitle, hbody, hstate⟩, hsome⟩, hnt, hnb, hns⟩
      exact ⟨⟨⟨htitle, hnt⟩, ⟨hbody, hnb⟩, hstate, hns⟩, hkeys,
        (hnonempty hkeys ⟨hnt, hnb, hns⟩).mpr hsome⟩
  | _ => simp [patchBesideNulls]

/-! ## Agreement -/

/-- The model accepts the value exactly when the schema does and none of the strings to be
stripped is blank. -/
def AgreesOn {α : Type} (validate : Json → Option α) (contract : Schema) (stripped : List String)
    (value : Json) : Prop :=
  (validate value).isSome = true ↔
    contract value = true ∧ anyMember stripped Json.blankIn value = false

/-- Where a model that rejects lone surrogates and nothing else agrees with its contract. -/
lemma agreesOn_iff {α : Type} {validate : Json → Option α} {contract : Schema}
    {stripped names : List String} {value : Json}
    (h : (validate value).isSome = true ↔
      contract value = true ∧ anyMember stripped Json.blankIn value = false ∧
        anyMember names Json.hasSurrogate value = false) :
    AgreesOn validate contract stripped value ↔
      ¬ (contract value = true ∧ anyMember stripped Json.blankIn value = false ∧
        anyMember names Json.hasSurrogate value = true) := by
  rw [AgreesOn, h]
  cases anyMember names Json.hasSurrogate value <;> simp

/-- **Where the request models accept exactly the published contract.**  `IssueCreate` and
`CommentCreate` do on every value but the valid ones with a lone surrogate in a title or a body.
`IssuePatch` does unless the value is valid beside its null members and has either a null member
or a lone surrogate in its title or body, but not both. -/
theorem request_contract_iff (value : Json) :
    (AgreesOn IssueCreate.validate Contract.issueCreate ["title", "labels"] value ↔
      ¬ (Contract.issueCreate value = true ∧
        anyMember ["title", "labels"] Json.blankIn value = false ∧
        anyMember ["title", "body"] Json.hasSurrogate value = true)) ∧
    (AgreesOn IssuePatch.validate Contract.issuePatch ["title"] value ↔
      ¬ (patchBesideNulls value = true ∧ anyMember ["title"] Json.blankIn value = false) ∨
      anyMember ["title", "body", "state"] Json.isNull value =
        anyMember ["title", "body"] Json.hasSurrogate value) ∧
    (AgreesOn CommentCreate.validate Contract.commentCreate ["body"] value ↔
      ¬ (Contract.commentCreate value = true ∧ anyMember ["body"] Json.blankIn value = false ∧
        anyMember ["body"] Json.hasSurrogate value = true)) := by
  refine ⟨agreesOn_iff accepts_issueCreate_iff, ?_, agreesOn_iff accepts_commentCreate_iff⟩
  rw [AgreesOn, accepts_issuePatch_iff, issuePatch_iff]
  cases anyMember ["title", "body", "state"] Json.isNull value <;>
    cases anyMember ["title", "body"] Json.hasSurrogate value <;> simp

/-- A patch with a null title and a new body. -/
def nullTitlePatch : Json := .obj [(py "title", .null), (py "body", .lit "x")]

/-- The model accepts it, its schema does not. -/
theorem nullTitlePatch_disagrees :
    (IssuePatch.validate nullTitlePatch).isSome = true ∧
      Contract.issuePatch nullTitlePatch = false ∧
      ¬ AgreesOn IssuePatch.validate Contract.issuePatch ["title"] nullTitlePatch := by
  have haccepts : (IssuePatch.validate nullTitlePatch).isSome = true := by decide
  have hinvalid : Contract.issuePatch nullTitlePatch = false := by decide
  refine ⟨haccepts, hinvalid, fun hagrees => ?_⟩
  have hvalid := (hagrees.mp haccepts).1
  rw [hinvalid] at hvalid
  cases hvalid

end IssuesApi
