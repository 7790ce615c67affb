import IssuesApi.Lib.Json

/-!
# JSON Schema

A schema is the predicate it asserts of an instance, and a keyword is a schema: each says
something about instances of one type and accepts all others.  A schema object is the
conjunction `allOf` of its keywords.  Lengths of strings are in code points.

The lemmas take the predicate apart again: what an object must look like member by member.
-/

namespace IssuesApi

/-- A schema. -/
abbrev Schema := Json → Bool

namespace Schema

/-- The types a schema can name. -/
inductive TypeName where
  | null
  | object
  | array
  | string
  deriving DecidableEq

/-- Whether a value has a type. -/
def TypeName.admits : TypeName → Schema
  | .null, .null => true
  | .object, .obj _ => true
  | .array, .arr _ => true
  | .string, .str _ => true
  | _, _ => false

/-! ## Keywords -/

/-- The keywords of one schema object. -/
def allOf (keywords : List Schema) : Schema := fun value =>
  keywords.all fun keyword => keyword value

/-- `type`. -/
def type (names : List TypeName) : Schema := fun value => names.any fun name => name.admits value

/-- `enum`. -/
def enum (values : List Json) : Schema := fun value => values.any fun v => v = value

/-- `const`. -/
def const (v : Json) : Schema := fun value => value = v

/-- `minLength`. -/
def minLength (n : ℕ) : Schema
  | .str s => n ≤ s.length
  | _ => true

/-- `maxLength`. -/
def maxLength (n : ℕ) : Schema
  | .str s => s.length ≤ n
  | _ => true

/-- `maxItems`. -/
def maxItems (n : ℕ) : Schema
  | .arr items => items.length ≤ n
  | _ => true

/-- `items`. -/
def items (schema : Schema) : Schema
  | .arr items => items.all fun item => schema item
  | _ => true

/-- `properties`: what is said of each member by name. -/
def properties (schemas : List (String × Schema)) : Schema
  | .obj fields => schemas.all fun p => (dictGet fields p.1).all p.2
  | _ => true

/-- `additionalProperties: false`, beside `properties`. -/
def additionalPropertiesFalse (schemas : List (String × Schema)) : Schema
  | .obj fields => fields.all fun f => schemas.any fun p => f.1 = py p.1
  | _ => true

/-- `required`. -/
def required (names : List String) : Schema
  | .obj fields => names.all fun name => (dictGet fields name).isSome
  | _ => true

/-- `minProperties`. -/
def minProperties (n : ℕ) : Schema
  | .obj fields => n ≤ fields.length
  | _ => true

/-- `type: integer`: a number with a zero fractional part. -/
def integer : Schema
  | .int _ => true
  | .float x => x.value?.any fun q => q.den = 1
  | _ => false

/-- `minimum`. -/
def minimum (low : ℤ) : Schema
  | .int n => low ≤ n
  | .float x => x.value?.all fun q => (low : ℚ) ≤ q
  | _ => true

/-- `anyOf`. -/
def anyOf (schemas : List Schema) : Schema := fun value => schemas.any fun schema => schema value

/-! ## Reading schemas -/

/-- A string between two lengths. -/
lemma string_iff {low high : ℕ} {value : Json} :
    allOf [type [.string], minLength low, maxLength high] value = true ↔
      ∃ s, value = .str s ∧ low ≤ s.length ∧ s.length ≤ high := by
  cases value <;> simp [allOf, type, TypeName.admits, minLength, maxLength]

/-- A string up to a length. -/
lemma shortString_iff {high : ℕ} {value : Json} :
    allOf [type [.string], maxLength high] value = true ↔
      ∃ s, value = .str s ∧ s.length ≤ high := by
  cases value <;> simp [allOf, type, TypeName.admits, maxLength]

/-- The same, or null. -/
lemma nullableString_iff {high : ℕ} {value : Json} :
    allOf [type [.string, .null], maxLength high] value = true ↔
      value = .null ∨ ∃ s, value = .str s ∧ s.length ≤ high := by
  cases value <;> simp [allOf, type, TypeName.admits, maxLength]

/-- A list all of whose elements are values of a function is the image of a list. -/
lemma forall_mem_image_iff {α β : Type} {f : β → α} {p : β → Prop} {l : List α} :
    (∀ a ∈ l, ∃ b, a = f b ∧ p b) ↔ ∃ bs : List β, l = bs.map f ∧ ∀ b ∈ bs, p b := by
  constructor
  · intro h
    induction l with
    | nil => exact ⟨[], rfl, by simp⟩
    | cons a l ih =>
      obtain ⟨b, rfl, hb⟩ := h a (by simp)
      obtain ⟨bs, rfl, hbs⟩ := ih fun a' ha' => h a' (by simp [ha'])
      exact ⟨b :: bs, rfl, by simpa [hb] using hbs⟩
  · rintro ⟨bs, rfl, hbs⟩ a ha
    obtain ⟨b, hb, rfl⟩ := List.mem_map.mp ha
    exact ⟨b, rfl, hbs b hb⟩

/-- The same of an array of bounded length. -/
lemma exists_arr_iff {β : Type} {f : β → Json} {p : β → Prop} {most : ℕ} {elements : List Json} :
    (∃ bs : List β, Json.arr elements = .arr (bs.map f) ∧ bs.length ≤ most ∧ ∀ b ∈ bs, p b) ↔
      elements.length ≤ most ∧ ∀ a ∈ elements, ∃ b, a = f b ∧ p b := by
  rw [forall_mem_image_iff]
  constructor
  · rintro ⟨bs, hbs, hlen, hp⟩
    obtain rfl := Json.arr.inj hbs
    exact ⟨by simpa using hlen, bs, rfl, hp⟩
  · rintro ⟨hlen, bs, rfl, hp⟩
    exact ⟨bs, rfl, by simpa using hlen, hp⟩

/-- An array of strings, or null. -/
lemma nullableStrings_iff {most low : ℕ} {value : Json} :
    allOf [type [.array, .null], maxItems most, items (allOf [type [.string], minLength low])]
        value = true ↔
      value = .null ∨ ∃ ss : List PyStr, value = .arr (ss.map .str) ∧ ss.length ≤ most ∧
        ∀ s ∈ ss, low ≤ s.length := by
  have hitem : ∀ item, allOf [type [.string], minLength low] item = true ↔
      ∃ s, item = .str s ∧ low ≤ s.length := by
    intro item
    cases item <;> simp [allOf, type, TypeName.admits, minLength]
  cases value with
  | arr elements =>
    have hall : allOf [type [.array, .null], maxItems most,
        items (allOf [type [.string], minLength low])] (.arr elements) = true ↔
        elements.length ≤ most ∧ ∀ item ∈ elements, ∃ s, item = .str s ∧ low ≤ s.length := by
      simp [allOf, type, TypeName.admits, maxItems, items, ← hitem]
    rw [hall, ← exists_arr_iff]
    simp
  | _ => simp [allOf, type, TypeName.admits, maxItems, items]

/-- What a closed object schema says, member by member. -/
lemma closedObject_iff {schemas : List (String × Schema)} {rest : List Schema} {value : Json} :
    allOf (type [.object] :: properties schemas :: additionalPropertiesFalse schemas :: rest)
        value = true ↔
      ∃ fields, value = .obj fields ∧
        (∀ p ∈ schemas, ∀ member ∈ dictGet fields p.1, p.2 member = true) ∧
        (∀ f ∈ fields, ∃ p ∈ schemas, f.1 = py p.1) ∧
        allOf rest value = true := by
  cases value <;>
    simp [allOf, type, TypeName.admits, properties, additionalPropertiesFalse, Option.all_eq_true]

/-! ## Objects given by their members -/

/-- The object with the given members. -/
def object (members : List (String × Json)) : Json := .obj (members.map fun m => (py m.1, m.2))

lemma dictGet_map_py (members : List (String × Json)) (name : String) :
    dictGet (members.map fun m => (py m.1, m.2)) name = members.lookup name := by
  induction members with
  | nil => rfl
  | cons m members ih =>
    rw [List.map_cons, List.lookup_cons]
    by_cases hname : name = m.1
    · rw [hname, beq_self_eq_true, dictGet, List.find?_cons_of_pos (by simp)]
      rfl
    · have hne : py m.1 ≠ py name := fun h => hname (py_injective h).symm
      rw [beq_false_of_ne hname, ← ih, dictGet, List.find?_cons_of_neg (by simpa using hne),
        dictGet]

@[simp] lemma type_object (members : List (String × Json)) :
    type [.object] (object members) = true := rfl

/-- `properties` looks each member up. -/
@[simp] lemma properties_object (schemas : List (String × Schema))
    (members : List (String × Json)) :
    properties schemas (object members) =
      schemas.all fun p => (members.lookup p.1).all p.2 := by
  simp only [properties, object, dictGet_map_py]

/-- So does `required`. -/
@[simp] lemma required_object (names : List String) (members : List (String × Json)) :
    required names (object members) = names.all fun name => (members.lookup name).isSome := by
  simp only [required, object, dictGet_map_py]

end Schema

end IssuesApi
