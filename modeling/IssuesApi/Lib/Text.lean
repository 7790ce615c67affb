import Mathlib.Data.List.DropRight

/-!
# Python text

Python's `str`, in the two forms this development needs.  `Text` is a string of Unicode
scalar values, the type of everything that has passed a codec (header values, URLs, database
text).  `PyStr` is a string of arbitrary code points: `json.loads` can produce lone
surrogates, and whether a string holds one decides whether it can be encoded at all, so the
conversion `PyStr.toText?` is partial.

The string methods below follow the Python documentation: `isSpace` is `str.isspace` on one
character (which is also the class `\s` of `re` on `str` patterns), `strip` is `str.strip`,
`splitOn` is `str.split` at a one-character separator, `joinSep` is `sep.join`.
-/

namespace IssuesApi

/-- A string of Unicode scalar values. -/
abbrev Text := List Char

/-- A string of code points, lone surrogates included. -/
abbrev PyStr := List ℕ

/-- Raw bytes. -/
abbrev Bytes := List UInt8

/-- The code points of a Lean literal. -/
def py (s : String) : PyStr := s.toList.map Char.toNat

/-- Every text is a Python string. -/
def Text.toPyStr (t : Text) : PyStr := t.map Char.toNat

/-- A code point as a character, when it is not a surrogate. -/
def charOfCodePoint (n : ℕ) : Option Char :=
  if n.isValidChar then some (Char.ofNat n) else none

/-- The text of a Python string: `none` exactly when it holds a lone surrogate, which is when
`str.encode("utf-8")` raises `UnicodeEncodeError`. -/
def PyStr.toText? (s : PyStr) : Option Text := s.mapM charOfCodePoint

@[simp] lemma charOfCodePoint_toNat (c : Char) : charOfCodePoint c.toNat = some c := by
  have hv : c.toNat.isValidChar := c.valid
  simp [charOfCodePoint, hv]

@[simp] lemma PyStr.toText?_toPyStr (t : Text) : PyStr.toText? t.toPyStr = some t := by
  induction t with
  | nil => rfl
  | cons c t ih =>
    simp only [PyStr.toText?, Text.toPyStr] at ih
    simp [PyStr.toText?, Text.toPyStr, List.mapM_cons, ih]

lemma toNat_of_charOfCodePoint {n : ℕ} {c : Char} (h : charOfCodePoint n = some c) :
    c.toNat = n := by
  unfold charOfCodePoint at h
  split at h
  · next hv =>
    obtain rfl := Option.some.inj h
    rw [Char.ofNat, dif_pos hv]
    rfl
  · cases h

/-- A string has a text when it is one. -/
lemma PyStr.toText?_eq_some {s : PyStr} {t : Text} : s.toText? = some t ↔ s = t.toPyStr := by
  constructor
  · intro h
    induction s generalizing t with
    | nil =>
      obtain rfl : [] = t := Option.some.inj h
      rfl
    | cons n s ih =>
      rw [PyStr.toText?, List.mapM_cons, Option.bind_eq_bind, Option.bind_eq_some_iff] at h
      obtain ⟨c, hc, h⟩ := h
      rw [Option.bind_eq_bind, Option.bind_eq_some_iff] at h
      obtain ⟨u, hu, h⟩ := h
      obtain rfl : c :: u = t := Option.some.inj h
      rw [ih hu, Text.toPyStr, Text.toPyStr, List.map_cons, toNat_of_charOfCodePoint hc]
  · rintro rfl
    exact PyStr.toText?_toPyStr t

lemma Text.toPyStr_injective : Function.Injective Text.toPyStr := by
  intro s t h
  have hread := congrArg PyStr.toText? h
  rw [PyStr.toText?_toPyStr, PyStr.toText?_toPyStr] at hread
  exact Option.some.inj hread

lemma py_injective : Function.Injective py := fun _ _ h =>
  String.toList_injective (Text.toPyStr_injective h)

lemma PyStr.toText?_py (s : String) : PyStr.toText? (py s) = some s.toList :=
  PyStr.toText?_toPyStr s.toList

@[simp] lemma PyStr.isSome_toText?_py (s : String) : (PyStr.toText? (py s)).isSome = true := by
  rw [PyStr.toText?_py]
  rfl

/-- A statement about the characters of a text is decided by looking at them, not by going
through all characters there are. -/
instance (priority := 2000) decidableForallText (p : Char → Prop) [DecidablePred p] (t : Text) :
    Decidable (∀ c ∈ t, p c) := List.decidableBAll p t

instance (priority := 2000) decidableForallOption (p : Char → Prop) [DecidablePred p]
    (c? : Option Char) : Decidable (∀ c ∈ c?, p c) := Option.decidableForallMem c?

/-- A string that counts as true: what is left of a `str | None` under Python's `if`. -/
def nonempty : Option Text → Option Text
  | some (c :: t) => some (c :: t)
  | _ => none

lemma nonempty_some {t : Text} (h : t ≠ []) : nonempty (some t) = some t := by
  obtain ⟨c, t, rfl⟩ := List.exists_cons_of_ne_nil h
  rfl

lemma mem_of_mem_nonempty {s : Option Text} {t : Text} (h : t ∈ nonempty s) : t ∈ s := by
  match s with
  | none => exact h
  | some [] => cases h
  | some (c :: u) => exact h

lemma ne_nil_of_nonempty {s : Option Text} {t : Text} (h : nonempty s = some t) : t ≠ [] := by
  match s with
  | none => cases h
  | some [] => cases h
  | some (c :: u) =>
    obtain rfl := Option.some.inj h
    exact List.cons_ne_nil c u

/-! ## Trimming -/

section Trim

variable {α β : Type} {p : α → Bool} {l : List α}

/-- A list without the elements at either end that satisfy `p`. -/
def trimBy (p : α → Bool) (l : List α) : List α := (l.dropWhile p).rdropWhile p

/-- What starts and ends with other elements is left alone. -/
lemma trimBy_of_ends (hhead : ∀ a ∈ l.head?, p a = false)
    (hlast : ∀ a ∈ l.getLast?, p a = false) : trimBy p l = l := by
  have hleft : l.dropWhile p = l := by
    cases l with
    | nil => rfl
    | cons a l => exact List.dropWhile_cons_of_neg (by simp [hhead a rfl])
  rw [trimBy, hleft, List.rdropWhile_eq_self_iff]
  intro hne
  simp [hlast _ (List.getLast?_eq_some_getLast hne)]

/-- What is left starts with another element. -/
lemma head_trimBy : ∀ a ∈ (trimBy p l).head?, p a = false := by
  intro a ha
  have hprefix : trimBy p l <+: l.dropWhile p := List.rdropWhile_prefix p (l.dropWhile p)
  obtain ⟨rest, hrest⟩ := hprefix
  have hhead : (l.dropWhile p).head? = some a := by
    rw [← hrest, List.head?_append, ha]
    rfl
  have hnot := List.head?_dropWhile_not p l
  rw [hhead] at hnot
  simpa using hnot

/-- And it ends with one. -/
lemma getLast_trimBy : ∀ a ∈ (trimBy p l).getLast?, p a = false := by
  intro a ha
  obtain ⟨hne, rfl⟩ := List.mem_getLast?_eq_getLast ha
  have hlast : ¬ p ((trimBy p l).getLast hne) = true :=
    List.rdropWhile_last_not p (l.dropWhile p) hne
  simpa using hlast

lemma trimBy_trimBy (p : α → Bool) (l : List α) : trimBy p (trimBy p l) = trimBy p l :=
  trimBy_of_ends head_trimBy getLast_trimBy

/-- Nothing is left of a list exactly when it has no other elements. -/
lemma trimBy_eq_nil_iff : trimBy p l = [] ↔ ∀ a ∈ l, p a = true := by
  rw [trimBy, List.rdropWhile_eq_nil_iff]
  constructor
  · intro h a ha
    rw [← List.takeWhile_append_dropWhile (p := p) (l := l), List.mem_append] at ha
    rcases ha with hdropped | hkept
    · exact List.mem_takeWhile_imp hdropped
    · exact h a hkept
  · exact fun h a ha => h a ((List.dropWhile_suffix p).subset ha)

lemma length_trimBy_le (p : α → Bool) (l : List α) : (trimBy p l).length ≤ l.length := by
  have hright : (trimBy p l).length ≤ (l.dropWhile p).length :=
    (List.rdropWhile_prefix p (l.dropWhile p)).length_le
  exact hright.trans (List.dropWhile_suffix p).length_le

lemma trimBy_map (p : β → Bool) (f : α → β) (l : List α) :
    trimBy p (l.map f) = (trimBy (p ∘ f) l).map f := by
  simp only [trimBy, List.rdropWhile, List.dropWhile_map, ← List.map_reverse]

end Trim

/-! ## Whitespace -/

/-- `str.isspace` on a single code point. -/
def isSpaceCode (n : ℕ) : Bool :=
  (9 ≤ n && n ≤ 13) || (28 ≤ n && n ≤ 32) || n == 0x85 || n == 0xA0 || n == 0x1680 ||
    (0x2000 ≤ n && n ≤ 0x200A) || n == 0x2028 || n == 0x2029 || n == 0x202F || n == 0x205F ||
    n == 0x3000

/-- `str.isspace` on a single character. -/
def isSpace (c : Char) : Bool := isSpaceCode c.toNat

/-- `str.lstrip`. -/
def lstrip (t : Text) : Text := t.dropWhile isSpace

/-- `str.rstrip`. -/
def rstrip (t : Text) : Text := t.rdropWhile isSpace

/-- `str.strip`. -/
def strip (t : Text) : Text := rstrip (lstrip t)

/-- `str.strip` on a string that may hold lone surrogates, which are no whitespace. -/
def PyStr.strip (s : PyStr) : PyStr := trimBy isSpaceCode s

lemma PyStr.strip_toPyStr (t : Text) : PyStr.strip t.toPyStr = (IssuesApi.strip t).toPyStr :=
  trimBy_map isSpaceCode Char.toNat t

/-- Every character of the text is ASCII: `str.isascii`. -/
def isAscii (t : Text) : Bool := t.all (fun c => c.toNat < 128)

/-- A text that `str.strip` leaves alone: it neither starts nor ends with whitespace. -/
def Trimmed (t : Text) : Prop :=
  (∀ c ∈ t.head?, isSpace c = false) ∧ (∀ c ∈ t.getLast?, isSpace c = false)

instance (t : Text) : Decidable (Trimmed t) := by unfold Trimmed; infer_instance

/-- Trimmed text is a fixed point of `strip`. -/
lemma strip_of_trimmed {t : Text} (h : Trimmed t) : strip t = t := trimBy_of_ends h.1 h.2

/-- A leading blank is invisible to `strip`. -/
lemma strip_cons_of_isSpace {c : Char} (hc : isSpace c = true) (t : Text) :
    strip (c :: t) = strip t := by
  simp [strip, lstrip, hc]

/-- Stripping on the right stops at a character that is no whitespace. -/
lemma rstrip_append_cons {c : Char} (hc : isSpace c = false) (s t : Text) :
    rstrip (s ++ c :: t) = s ++ c :: rstrip t := by
  rw [rstrip, List.rdropWhile, List.reverse_append, List.reverse_cons, List.append_assoc,
    List.dropWhile_append, rstrip, List.rdropWhile]
  split
  · next hnone =>
    rw [List.isEmpty_iff.mp hnone, List.singleton_append,
      List.dropWhile_cons_of_neg (by simp [hc])]
    simp
  · simp

lemma lstrip_append_cons {c : Char} (hc : isSpace c = false) (s t : Text) :
    lstrip (s ++ c :: t) = lstrip s ++ c :: t := by
  rw [lstrip, List.dropWhile_append, lstrip]
  split
  · next hnone =>
    rw [List.isEmpty_iff.mp hnone, List.nil_append, List.dropWhile_cons_of_neg (by simp [hc])]
  · rfl

/-- A character that is no whitespace separates the two ends. -/
lemma strip_append_cons {c : Char} (hc : isSpace c = false) (s t : Text) :
    strip (s ++ c :: t) = lstrip s ++ c :: rstrip t := by
  rw [strip, lstrip_append_cons hc, rstrip_append_cons hc]

/-- The two ends of a text are stripped independently. -/
lemma lstrip_rstrip (t : Text) : lstrip (rstrip t) = strip t := by
  have hspace : ∀ c ∈ t.takeWhile isSpace, isSpace c = true := fun c => List.mem_takeWhile_imp
  have hsplit : t.takeWhile isSpace ++ lstrip t = t := List.takeWhile_append_dropWhile
  rw [strip]
  conv_lhs => rw [← hsplit]
  cases hkept : lstrip t with
  | nil =>
    have hnil : rstrip (t.takeWhile isSpace) = [] := List.rdropWhile_eq_nil_iff.mpr hspace
    rw [List.append_nil, hnil]
    rfl
  | cons c u =>
    have hc : isSpace c = false := by
      have hnot := List.head?_dropWhile_not isSpace t
      rw [← lstrip, hkept] at hnot
      simpa using hnot
    rw [rstrip_append_cons hc, lstrip, List.dropWhile_append_of_pos hspace,
      List.dropWhile_cons_of_neg (by simp [hc])]
    exact (rstrip_append_cons hc [] u).symm

/-- What `strip` returns is trimmed. -/
lemma trimmed_strip (t : Text) : Trimmed (strip t) := ⟨head_trimBy, getLast_trimBy⟩

lemma strip_strip (t : Text) : strip (strip t) = strip t := strip_of_trimmed (trimmed_strip t)

/-- A text without anything but whitespace is stripped to nothing. -/
lemma strip_eq_nil_iff {t : Text} : strip t = [] ↔ ∀ c ∈ t, isSpace c = true := trimBy_eq_nil_iff

lemma strip_sublist (t : Text) : (strip t).Sublist t :=
  (List.rdropWhile_prefix isSpace (lstrip t)).sublist.trans (List.dropWhile_sublist isSpace)

lemma length_strip_le (t : Text) : (strip t).length ≤ t.length := length_trimBy_le isSpace t

lemma trimmed_of_forall {t : Text} (h : ∀ c ∈ t, isSpace c = false) : Trimmed t :=
  ⟨fun c hc => h c (List.mem_of_mem_head? hc), fun c hc => h c (List.mem_of_getLast? hc)⟩

/-! ## Lines -/

/-- The characters `str.splitlines` breaks at. -/
def isLineBreak (c : Char) : Bool :=
  let n := c.toNat
  (10 ≤ n && n ≤ 13) || (28 ≤ n && n ≤ 30) || n == 0x85 || n == 0x2028 || n == 0x2029

/-- `str.splitlines`, with the beginning of the first line already read. -/
def splitlinesFrom (line : Text) : Text → List Text
  | [] => if line = [] then [] else [line]
  | '\r' :: '\n' :: t => line :: splitlinesFrom [] t
  | c :: t =>
    if isLineBreak c then line :: splitlinesFrom [] t else splitlinesFrom (line ++ [c]) t

/-- `str.splitlines`. -/
def splitlines (t : Text) : List Text := splitlinesFrom [] t

/-- `str.strip(chars)`. -/
def stripChars (chars t : Text) : Text :=
  (t.dropWhile (· ∈ chars)).rdropWhile (· ∈ chars)

/-! ## Splitting and joining -/

/-- `sep.join(parts)`. -/
def joinSep (sep : Text) (parts : List Text) : Text := sep.intercalate parts

@[simp] lemma joinSep_nil (sep : Text) : joinSep sep [] = [] := rfl

@[simp] lemma joinSep_singleton (sep t : Text) : joinSep sep [t] = t := by
  simp [joinSep]

lemma joinSep_cons_cons (sep s t : Text) (ts : List Text) :
    joinSep sep (s :: t :: ts) = s ++ sep ++ joinSep sep (t :: ts) := by
  simp [joinSep, List.append_assoc]

/-- A part of a joined text, with what stands before and behind it. -/
lemma joinSep_append_cons (sep t : Text) (before after : List Text) :
    joinSep sep (before ++ t :: after) =
      before.flatMap (· ++ sep) ++ (t ++ after.flatMap (sep ++ ·)) := by
  have htail : ∀ t : Text, joinSep sep (t :: after) = t ++ after.flatMap (sep ++ ·) := by
    induction after with
    | nil => simp
    | cons s after ih => intro t; simp [joinSep_cons_cons, ih]
  induction before with
  | nil => exact htail t
  | cons s before ih =>
    obtain ⟨u, us, hus⟩ := List.exists_cons_of_ne_nil (l := before ++ t :: after) (by simp)
    rw [List.cons_append, hus, joinSep_cons_cons, ← hus, ih, List.flatMap_cons]
    simp

/-- Characters of a joined text come from the separator or from a part. -/
lemma mem_joinSep {c : Char} {sep : Text} : ∀ {parts : List Text}, c ∈ joinSep sep parts →
    c ∈ sep ∨ ∃ t ∈ parts, c ∈ t
  | [], h => by simp at h
  | [t], h => Or.inr ⟨t, by simp, by simpa using h⟩
  | s :: t :: ts, h => by
      rw [joinSep_cons_cons, List.mem_append, List.mem_append] at h
      rcases h with (h | h) | h
      · exact Or.inr ⟨s, by simp, h⟩
      · exact Or.inl h
      · rcases mem_joinSep h with h | ⟨u, hu, hc⟩
        · exact Or.inl h
        · exact Or.inr ⟨u, List.mem_cons_of_mem _ hu, hc⟩

lemma joinSep_ne_nil {sep t : Text} {ts : List Text} (h : t ≠ []) : joinSep sep (t :: ts) ≠ [] := by
  cases ts with
  | nil => simpa using h
  | cons s ts => simp [joinSep_cons_cons, h]

/-- Joining keeps both ends: the first and the last part have them. -/
lemma trimmed_joinSep (sep : Text) : ∀ {parts : List Text},
    (∀ t ∈ parts, t ≠ [] ∧ Trimmed t) → Trimmed (joinSep sep parts)
  | [], _ => ⟨fun c hc => by simp at hc, fun c hc => by simp at hc⟩
  | [t], h => by
      rw [joinSep_singleton]
      exact (h t (by simp)).2
  | s :: t :: ts, h => by
      obtain ⟨hne, hfirst, -⟩ := h s (by simp)
      have hrest : Trimmed (joinSep sep (t :: ts)) :=
        trimmed_joinSep sep fun u hu => h u (List.mem_cons_of_mem _ hu)
      have hrest_ne : joinSep sep (t :: ts) ≠ [] := joinSep_ne_nil (h t (by simp)).1
      rw [joinSep_cons_cons]
      refine ⟨fun c hc => hfirst c ?_, fun c hc => hrest.2 c ?_⟩
      · rwa [List.append_assoc, List.head?_append_of_ne_nil _ hne] at hc
      · rwa [List.getLast?_append_of_ne_nil _ hrest_ne] at hc

/-- Splitting a join at a separator no part contains gives the parts back. -/
lemma splitOn_joinSep (sep : Char) {parts : List Text} (hne : parts ≠ [])
    (h : ∀ t ∈ parts, sep ∉ t) : (joinSep [sep] parts).splitOn sep = parts :=
  List.splitOn_intercalate sep h hne

/-- `str.split(sep, 1)` as a pair: the text before the first separator and, when there is
one, the text after it. -/
def splitFirst (sep : Char) (t : Text) : Text × Option Text :=
  match t.dropWhile (· != sep) with
  | [] => (t, none)
  | _ :: after => (t.takeWhile (· != sep), some after)

/-- A run of characters satisfying `p`, cut off by one that does not. -/
lemma dropWhile_append_cons {p : Char → Bool} {s : Text} {c : Char} (t : Text)
    (hs : ∀ x ∈ s, p x = true) (hc : p c = false) : (s ++ c :: t).dropWhile p = c :: t := by
  rw [List.dropWhile_append_of_pos hs, List.dropWhile_cons_of_neg (by simp [hc])]

lemma takeWhile_append_cons {p : Char → Bool} {s : Text} {c : Char} (t : Text)
    (hs : ∀ x ∈ s, p x = true) (hc : p c = false) : (s ++ c :: t).takeWhile p = s := by
  rw [List.takeWhile_append_of_pos hs, List.takeWhile_cons_of_neg (by simp [hc]),
    List.append_nil]

/-- What stands behind a character that fails `p` does not matter. -/
lemma takeWhile_append_of_neg {p : Char → Bool} {c : Char} (hc : p c = false) (s t : Text) :
    (s ++ c :: t).takeWhile p = s.takeWhile p := by
  induction s with
  | nil => exact List.takeWhile_cons_of_neg (by simp [hc])
  | cons x s ih => rw [List.cons_append, List.takeWhile_cons, List.takeWhile_cons, ih]

lemma splitFirst_append_cons {sep : Char} {s : Text} (t : Text) (hs : sep ∉ s) :
    splitFirst sep (s ++ sep :: t) = (s, some t) := by
  have hall : ∀ x ∈ s, (x != sep) = true := fun x hx => by
    simpa using fun h : x = sep => hs (h ▸ hx)
  rw [splitFirst, dropWhile_append_cons t hall (by simp),
    takeWhile_append_cons t hall (by simp)]

lemma splitFirst_of_not_mem {sep : Char} {s : Text} (hs : sep ∉ s) :
    splitFirst sep s = (s, none) := by
  have hall : ∀ x ∈ s, (x != sep) = true := fun x hx => by
    simpa using fun h : x = sep => hs (h ▸ hx)
  rw [splitFirst, List.dropWhile_eq_nil_iff.mpr hall]

/-! ## Decimal numerals -/

/-- `str(n)` of a natural number. -/
def decimal (n : ℕ) : Text := Nat.toDigits 10 n

/-- `str(n)` of an integer. -/
def decimalInt : ℤ → Text
  | .ofNat n => decimal n
  | .negSucc n => '-' :: decimal (n + 1)

lemma decimal_ne_nil (n : ℕ) : decimal n ≠ [] := Nat.toDigits_ne_nil

/-- A smaller number has no more digits. -/
lemma length_decimal_mono {m n : ℕ} (h : m ≤ n) : (decimal m).length ≤ (decimal n).length := by
  have hpos : 0 < (decimal n).length := List.length_pos_iff.mpr (decimal_ne_nil n)
  have hlength : ∀ k, (decimal k).length ≤ (decimal n).length ↔ k < 10 ^ (decimal n).length :=
    fun _ => Nat.length_toDigits_le_iff (by decide) hpos
  exact (hlength m).mpr (h.trans_lt ((hlength n).mp le_rfl))

lemma isDigit_of_mem_decimal {n : ℕ} {c : Char} (h : c ∈ decimal n) : c.isDigit = true :=
  Nat.isDigit_of_mem_toDigits (by omega) (by omega) h

/-- The code points of the digits. -/
lemma isDigit_bounds {c : Char} (h : c.isDigit = true) : 48 ≤ c.toNat ∧ c.toNat ≤ 57 := by
  simpa [Char.isDigit, UInt32.le_iff_toNat_le] using h

/-- A character outside the digits does not occur in a numeral. -/
lemma not_mem_decimal {c : Char} (n : ℕ) (h : c.toNat < 48 ∨ 57 < c.toNat) : c ∉ decimal n := by
  intro hc
  have := isDigit_bounds (isDigit_of_mem_decimal hc)
  omega

end IssuesApi
