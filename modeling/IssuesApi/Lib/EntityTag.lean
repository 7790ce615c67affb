import IssuesApi.Lib.Text

/-!
# Entity tags

HTTP's validators.  An entity tag is an opaque string in double quotes, marked `W/` when it is
weak.  A conditional request carries a field value that is `*` or a list of entity tags
separated by commas; it matches a tag when it is `*` or when one of the listed tags has the same
opaque string, weak or not (weak comparison).

`readTags` reads a list and `fieldMatches` evaluates a field value; a value of neither form
matches nothing.  A tag that is written is read as itself (`readTags_render`).
-/

namespace IssuesApi

/-! ## Tags -/

/-- A character of an opaque string: visible ASCII other than the quote, or latin-1 beyond
ASCII. -/
def isTagChar (c : Char) : Bool :=
  let n := c.toNat
  n == 0x21 || (0x23 ≤ n && n ≤ 0x7E) || (0x80 ≤ n && n ≤ 0xFF)

/-- An entity tag. -/
structure EntityTag where
  weak : Bool
  value : Text
  value_valid : ∀ c ∈ value, isTagChar c = true
  deriving DecidableEq

namespace EntityTag

/-- The tag as it is written in a header. -/
def render (tag : EntityTag) : Text :=
  (if tag.weak then ['W', '/'] else []) ++ '"' :: (tag.value ++ ['"'])

/-- Weak comparison. -/
def weakMatch (s t : EntityTag) : Bool := s.value = t.value

/-- The tag of the empty string. -/
def blank (weak : Bool) : EntityTag := ⟨weak, [], by simp⟩

/-- The tag with one more character. -/
def push (tag : EntityTag) (c : Char) (h : isTagChar c = true) : EntityTag :=
  ⟨tag.weak, tag.value ++ [c], by
    intro d hd
    rcases List.mem_append.mp hd with hd | hd
    · exact tag.value_valid d hd
    · exact List.mem_singleton.mp hd ▸ h⟩

@[simp] lemma push_weak (tag : EntityTag) (c : Char) (h : isTagChar c = true) :
    (tag.push c h).weak = tag.weak := rfl

@[simp] lemma push_value (tag : EntityTag) (c : Char) (h : isTagChar c = true) :
    (tag.push c h).value = tag.value ++ [c] := rfl

lemma ext_iff {s t : EntityTag} : s = t ↔ s.weak = t.weak ∧ s.value = t.value := by
  cases s
  cases t
  simp

end EntityTag

/-! ## Lists of tags -/

/-- How far the reader of a list has come. -/
inductive TagReader where
  /-- Before a tag. -/
  | between
  /-- After `W`. -/
  | marked
  /-- After `W/`. -/
  | slashed
  /-- Inside the quotes. -/
  | inside (tag : EntityTag)
  /-- After a tag. -/
  | closed

/-- The tags of a list.  Blanks may surround the commas, and elements may be empty. -/
def readTags : TagReader → Text → Option (List EntityTag)
  | .between, [] => some []
  | .closed, [] => some []
  | _, [] => none
  | .between, c :: rest =>
    if c = ',' ∨ c = ' ' ∨ c = '\t' then readTags .between rest
    else if c = '"' then readTags (.inside (.blank false)) rest
    else if c = 'W' then readTags .marked rest
    else none
  | .marked, c :: rest => if c = '/' then readTags .slashed rest else none
  | .slashed, c :: rest => if c = '"' then readTags (.inside (.blank true)) rest else none
  | .inside tag, c :: rest =>
    if c = '"' then (readTags .closed rest).map (tag :: ·)
    else if h : isTagChar c = true then readTags (.inside (tag.push c h)) rest
    else none
  | .closed, c :: rest =>
    if c = ',' then readTags .between rest
    else if c = ' ' ∨ c = '\t' then readTags .closed rest
    else none

/-- Whether a field value matches the current tag. -/
def fieldMatches (value : Text) (tag : EntityTag) : Bool :=
  value = ['*'] || (readTags .between value).any fun tags => tags.any (·.weakMatch tag)

/-! ## One tag -/

lemma ne_quote_of_isTagChar {c : Char} (h : isTagChar c = true) : c ≠ '"' := by
  rintro rfl
  exact absurd h (by decide)

/-- What is left of an opaque string is read up to its quote. -/
lemma readTags_inside (rest : Text) : ∀ (u : Text) (tag whole : EntityTag),
    whole.weak = tag.weak → whole.value = tag.value ++ u →
      readTags (.inside tag) (u ++ '"' :: rest) = (readTags .closed rest).map (whole :: ·)
  | [], tag, whole, hweak, hvalue => by
      have hwhole : whole = tag := EntityTag.ext_iff.mpr ⟨hweak, by simpa using hvalue⟩
      rw [hwhole]
      rfl
  | c :: u, tag, whole, hweak, hvalue => by
      have hc : isTagChar c = true := whole.value_valid c (by simp [hvalue])
      rw [List.cons_append, readTags, if_neg (ne_quote_of_isTagChar hc), dif_pos hc]
      exact readTags_inside rest u (tag.push c hc) whole hweak (by simpa using hvalue)

/-- A tag is read as itself. -/
lemma readTags_render (tag : EntityTag) (rest : Text) :
    readTags .between (tag.render ++ rest) = (readTags .closed rest).map (tag :: ·) := by
  have hinside := readTags_inside rest tag.value (.blank tag.weak) tag rfl rfl
  have hquoted : '"' :: (tag.value ++ ['"']) ++ rest = '"' :: (tag.value ++ '"' :: rest) := by simp
  rw [EntityTag.render, List.append_assoc, hquoted, ← hinside]
  cases tag.weak <;> rfl

/-- A list of one tag. -/
lemma readTags_single (tag : EntityTag) : readTags .between tag.render = some [tag] := by
  have hread := readTags_render tag []
  rw [List.append_nil] at hread
  rw [hread]
  rfl

end IssuesApi
