import IssuesApi.Lib.Json

/-!
# JSON literals, written and read back

What the scanner of `json.loads` makes of the numbers and the strings that `json.dumps`
writes, whatever follows them.  A number is followed by something that cannot continue it
(`NumberEnd`).  A string comes back with its surrogates paired up: the encoder writes the two
halves of a pair as two escapes, and the decoder joins two such escapes, so a high surrogate
that stood directly before a low one becomes one code point.
-/

namespace IssuesApi

/-! ## Runs of digits -/

/-- A run of ASCII digits. -/
def IsDigits (s : PyStr) : Prop := ∀ c ∈ s, isAsciiDigit c = true

lemma isAsciiDigit_iff {c : ℕ} : isAsciiDigit c = true ↔ 0x30 ≤ c ∧ c ≤ 0x39 := by
  simp [isAsciiDigit]

lemma isDigits_decimal (n : ℕ) : IsDigits (decimal n).toPyStr := by
  intro c hc
  obtain ⟨d, hd, rfl⟩ := List.mem_map.mp hc
  exact isAsciiDigit_iff.mpr (isDigit_bounds (isDigit_of_mem_decimal hd))

lemma natOfDigits_toPyStr (t : Text) : natOfDigits t.toPyStr = Nat.ofDigitChars 10 t 0 := by
  rw [natOfDigits, Text.toPyStr, List.foldl_map, Nat.ofDigitChars_eq_foldl]
  congr 1
  funext n c
  rw [Nat.mul_comm]
  rfl

/-- A numeral stands for its number. -/
lemma natOfDigits_decimal (n : ℕ) : natOfDigits (decimal n).toPyStr = n := by
  rw [natOfDigits_toPyStr]
  exact Nat.ofDigitChars_ten_toDigits

/-- Only the numeral of zero begins with a zero. -/
lemma head?_decimal {n : ℕ} (h : n ≠ 0) : (decimal n).head? ≠ some '0' := by
  induction n using Nat.strongRecOn with
  | ind n ih =>
    by_cases hlt : n < 10
    · have hdigits : ∀ d < 10, d ≠ 0 → [Nat.digitChar d].head? ≠ some '0' := by decide
      rw [decimal, Nat.toDigits_of_lt_base hlt]
      exact hdigits n hlt h
    · have hrec := Nat.toDigits_of_base_le (b := 10) (by omega) (not_lt.mp hlt)
      rw [decimal, hrec, List.head?_append_of_ne_nil _ Nat.toDigits_ne_nil]
      exact ih (n / 10) (by omega) (by omega)

/-! ## Numbers -/

/-- A character that may continue a number. -/
def continuesNumber (c : ℕ) : Bool := isAsciiDigit c || c == 0x2E || c == 0x65 || c == 0x45

/-- What may stand after a number. -/
def NumberEnd (rest : PyStr) : Prop := ∀ c ∈ rest.head?, continuesNumber c = false

lemma NumberEnd.isAsciiDigit {rest : PyStr} (h : NumberEnd rest) {c : ℕ} (hc : c ∈ rest.head?) :
    isAsciiDigit c = false := by
  have := h c hc
  simp only [continuesNumber, Bool.or_eq_false_iff] at this
  exact this.1.1.1

/-- A run of digits ends where no digit follows. -/
lemma takeWhile_digits {s rest : PyStr} (hs : IsDigits s)
    (h : ∀ c ∈ rest.head?, isAsciiDigit c = false) :
    (s ++ rest).takeWhile isAsciiDigit = s ∧ (s ++ rest).dropWhile isAsciiDigit = rest := by
  rw [List.takeWhile_append_of_pos hs, List.dropWhile_append_of_pos hs]
  cases rest with
  | nil => simp
  | cons c rest =>
    have hc := h c rfl
    simp [hc]

/-- A number has no fraction where no point follows. -/
lemma scanFraction_of_end {rest : PyStr} (h : ∀ c ∈ rest.head?, c ≠ 0x2E) :
    scanFraction rest = ([], rest) := by
  cases rest with
  | nil => rfl
  | cons c rest =>
    unfold scanFraction
    split
    · next heq =>
      obtain ⟨rfl, -⟩ := List.cons.inj heq
      exact absurd rfl (h 0x2E rfl)
    · rfl

/-- A number has no exponent where no `e` follows. -/
lemma scanExponent_of_end {rest : PyStr} (h : ∀ c ∈ rest.head?, c ≠ 0x65 ∧ c ≠ 0x45) :
    scanExponent rest = (none, rest) := by
  cases rest with
  | nil => rfl
  | cons c rest =>
    have hc := h c rfl
    simp [scanExponent, hc]

lemma NumberEnd.ne {rest : PyStr} (h : NumberEnd rest) {c : ℕ} (hc : c ∈ rest.head?) :
    c ≠ 0x2E ∧ c ≠ 0x65 ∧ c ≠ 0x45 := by
  have := h c hc
  simp only [continuesNumber, Bool.or_eq_false_iff, beq_eq_false_iff_ne] at this
  exact ⟨this.1.1.2, this.1.2, this.2⟩

/-- The whole part of a number: a zero stands alone. -/
def wholePart (s : PyStr) : PyStr × PyStr :=
  match s with
  | 0x30 :: r => ([0x30], r)
  | s => (s.takeWhile isAsciiDigit, s.dropWhile isAsciiDigit)

/-- A number is its whole part, its fraction and its exponent. -/
lemma scanUnsigned_eq (negative : Bool) (s : PyStr) :
    scanUnsigned negative s =
      if (wholePart s).1.isEmpty then .error .jsonDecodeError
      else if (scanFraction (wholePart s).2).1.isEmpty &&
          (scanExponent (scanFraction (wholePart s).2).2).1.isNone then
        if ((wholePart s).1.drop maxStrDigits).isEmpty then
          .ok (.int (if negative then -(natOfDigits (wholePart s).1 : ℤ)
            else natOfDigits (wholePart s).1),
            (scanExponent (scanFraction (wholePart s).2).2).2)
        else .error .intTooLong
      else
        .ok (.float (PyFloat.ofDecimal negative
          (natOfDigits ((wholePart s).1 ++ (scanFraction (wholePart s).2).1))
          ((scanExponent (scanFraction (wholePart s).2).2).1.getD 0 -
            (scanFraction (wholePart s).2).1.length)),
          (scanExponent (scanFraction (wholePart s).2).2).2) := rfl

/-- The whole part of a numeral is the numeral. -/
lemma wholePart_decimal (n : ℕ) {rest : PyStr} (h : ∀ c ∈ rest.head?, isAsciiDigit c = false) :
    wholePart ((decimal n).toPyStr ++ rest) = ((decimal n).toPyStr, rest) := by
  by_cases hn : n = 0
  · subst hn
    rfl
  · obtain ⟨c, t, ht⟩ := List.exists_cons_of_ne_nil (decimal_ne_nil n)
    have hne : c.toNat ≠ 0x30 := by
      intro hc
      apply head?_decimal hn
      rw [ht, List.head?_cons]
      exact congrArg some (Char.toNat_inj.mp hc)
    have hcut := takeWhile_digits (isDigits_decimal n) h
    unfold wholePart
    split
    · next r heq =>
      rw [ht, Text.toPyStr, List.map_cons, List.cons_append] at heq
      exact absurd (List.cons.inj heq).1 hne
    · exact Prod.ext hcut.1 hcut.2

/-- **A written integer is read back**, unless it has too many digits. -/
lemma scanUnsigned_decimal (negative : Bool) {n : ℕ} (hn : (decimal n).length ≤ maxStrDigits)
    {rest : PyStr} (h : NumberEnd rest) :
    scanUnsigned negative ((decimal n).toPyStr ++ rest) =
      .ok (.int (if negative then -(n : ℤ) else n), rest) := by
  have hlen : ((decimal n).toPyStr.drop maxStrDigits).isEmpty = true := by
    rw [List.isEmpty_iff, List.drop_eq_nil_iff, Text.toPyStr, List.length_map]
    exact hn
  have hne : (decimal n).toPyStr.isEmpty = false := by
    have := decimal_ne_nil n
    cases hd : decimal n with
    | nil => exact absurd hd this
    | cons c t => rfl
  rw [scanUnsigned_eq, wholePart_decimal n fun c hc => h.isAsciiDigit hc]
  dsimp only
  rw [scanFraction_of_end fun c hc => (h.ne hc).1]
  dsimp only
  rw [scanExponent_of_end fun c hc => (h.ne hc).2, hne, hlen, natOfDigits_decimal]
  rfl

/-! ### Floats -/

/-- The exponent of a written float. -/
structure ExponentPart where
  /-- `some true` for a minus, `some false` for a plus. -/
  sign : Option Bool
  digits : PyStr
  digits_ne_nil : digits ≠ []
  isDigits : IsDigits digits

/-- `e`, the sign, and the digits. -/
def ExponentPart.text (e : ExponentPart) : PyStr :=
  match e.sign with
  | none => 0x65 :: e.digits
  | some false => 0x65 :: 0x2B :: e.digits
  | some true => 0x65 :: 0x2D :: e.digits

def ExponentPart.value (e : ExponentPart) : ℤ :=
  if e.sign = some true then -(natOfDigits e.digits : ℤ) else natOfDigits e.digits

/-- A written float: a number with a fraction or an exponent.  An empty fraction is none. -/
structure FloatLiteral where
  negative : Bool
  whole : ℕ
  fraction : PyStr
  exponent : Option ExponentPart
  fraction_digits : IsDigits fraction
  notInteger : fraction ≠ [] ∨ exponent ≠ none

namespace FloatLiteral

/-- The point and the fraction. -/
def fractionText (l : FloatLiteral) : PyStr :=
  if l.fraction = [] then [] else 0x2E :: l.fraction

def exponentText (l : FloatLiteral) : PyStr := (l.exponent.map ExponentPart.text).getD []

/-- The literal without its sign. -/
def unsigned (l : FloatLiteral) : PyStr :=
  (decimal l.whole).toPyStr ++ (l.fractionText ++ l.exponentText)

def text (l : FloatLiteral) : PyStr := if l.negative then 0x2D :: l.unsigned else l.unsigned

/-- What the literal stands for. -/
def value (l : FloatLiteral) : PyFloat :=
  PyFloat.ofDecimal l.negative (natOfDigits ((decimal l.whole).toPyStr ++ l.fraction))
    ((l.exponent.map ExponentPart.value).getD 0 - l.fraction.length)

end FloatLiteral

/-- Digits that are there begin with a digit. -/
lemma IsDigits.exists_cons {s : PyStr} (h : IsDigits s) (hne : s ≠ []) :
    ∃ c t, s = c :: t ∧ isAsciiDigit c = true := by
  obtain ⟨c, t, rfl⟩ := List.exists_cons_of_ne_nil hne
  exact ⟨c, t, rfl, h c (by simp)⟩

lemma scanExponent_text (e : ExponentPart) {rest : PyStr}
    (h : ∀ c ∈ rest.head?, isAsciiDigit c = false) :
    scanExponent (e.text ++ rest) = (some e.value, rest) := by
  obtain ⟨sign, digits, hne, hdigits⟩ := e
  obtain ⟨htake, hdrop⟩ := takeWhile_digits hdigits h
  have hempty : digits.isEmpty = false := by simpa using hne
  cases sign with
  | none =>
    -- the first digit is not taken for a sign
    obtain ⟨c, t, rfl, hc⟩ := hdigits.exists_cons hne
    have hsign : c ≠ 0x2B ∧ c ≠ 0x2D := by
      rw [isAsciiDigit_iff] at hc
      omega
    rw [List.cons_append] at htake hdrop
    simp [ExponentPart.text, ExponentPart.value, scanExponent, hsign, htake, hdrop]
  | some negative =>
    cases negative with
    | false => simp [ExponentPart.text, ExponentPart.value, scanExponent, htake, hdrop, hne]
    | true => simp [ExponentPart.text, ExponentPart.value, scanExponent, htake, hdrop, hne]

/-- What follows the fraction does not continue it. -/
lemma FloatLiteral.exponentText_head (l : FloatLiteral) {rest : PyStr} (h : NumberEnd rest) :
    ∀ c ∈ (l.exponentText ++ rest).head?, isAsciiDigit c = false ∧ c ≠ 0x2E := by
  intro c hc
  unfold FloatLiteral.exponentText at hc
  cases he : l.exponent with
  | none =>
    rw [he] at hc
    exact ⟨h.isAsciiDigit hc, (h.ne hc).1⟩
  | some e =>
    rw [he] at hc
    obtain rfl : 0x65 = c := by
      unfold ExponentPart.text at hc
      cases hs : e.sign with
      | none => simpa [hs] using hc
      | some negative => cases negative <;> simpa [hs] using hc
    exact ⟨by decide, by decide⟩

lemma FloatLiteral.scanFraction_text (l : FloatLiteral) {rest : PyStr} (h : NumberEnd rest) :
    scanFraction (l.fractionText ++ (l.exponentText ++ rest)) =
      (l.fraction, l.exponentText ++ rest) := by
  have hhead := l.exponentText_head h
  unfold FloatLiteral.fractionText
  split
  · next hnil =>
    rw [hnil]
    exact scanFraction_of_end fun c hc => (hhead c hc).2
  · next hne =>
    obtain ⟨htake, hdrop⟩ := takeWhile_digits l.fraction_digits fun c hc => (hhead c hc).1
    rw [List.cons_append, scanFraction, htake, hdrop, if_neg (by simpa using hne)]

lemma FloatLiteral.scanExponent_text (l : FloatLiteral) {rest : PyStr} (h : NumberEnd rest) :
    scanExponent (l.exponentText ++ rest) = (l.exponent.map ExponentPart.value, rest) := by
  unfold FloatLiteral.exponentText
  cases l.exponent with
  | none => exact scanExponent_of_end fun c hc => (h.ne hc).2
  | some e => exact IssuesApi.scanExponent_text e fun c hc => h.isAsciiDigit hc

/-- **A written float is read back.** -/
lemma FloatLiteral.scanUnsigned_text (l : FloatLiteral) {rest : PyStr} (h : NumberEnd rest) :
    scanUnsigned l.negative (l.unsigned ++ rest) = .ok (.float l.value, rest) := by
  have hhead : ∀ c ∈ (l.fractionText ++ (l.exponentText ++ rest)).head?,
      isAsciiDigit c = false := by
    intro c hc
    unfold FloatLiteral.fractionText at hc
    split at hc
    · exact (l.exponentText_head h c hc).1
    · obtain rfl : 0x2E = c := by simpa using hc
      decide
  have hne : (decimal l.whole).toPyStr.isEmpty = false := by
    simpa [Text.toPyStr] using decimal_ne_nil l.whole
  have hfloat : (l.fraction.isEmpty && (l.exponent.map ExponentPart.value).isNone) = false := by
    rcases l.notInteger with hfraction | hexponent
    · simp [hfraction]
    · simp [Option.isSome_iff_ne_none.mpr hexponent]
  have htext : l.unsigned ++ rest =
      (decimal l.whole).toPyStr ++ (l.fractionText ++ (l.exponentText ++ rest)) := by
    simp [FloatLiteral.unsigned]
  rw [htext, scanUnsigned_eq, wholePart_decimal _ hhead]
  dsimp only
  rw [l.scanFraction_text h]
  dsimp only
  rw [l.scanExponent_text h, hne, hfloat]
  rfl

/-! ## Strings -/

/-- A string of code points, surrogates included. -/
def CodePoints (s : PyStr) : Prop := ∀ c ∈ s, c < 0x110000

lemma hexDigitValue_hexDigit {k : ℕ} (h : k < 16) :
    hexDigitValue (hexDigit k).toNat = some k := by
  have hall : ∀ d < 16, hexDigitValue (hexDigit d).toNat = some d := by decide
  exact hall k h

/-- The four digits of an escape. -/
def unitDigits (u : ℕ) : PyStr :=
  [(hexDigit (u / 4096 % 16)).toNat, (hexDigit (u / 256 % 16)).toNat,
    (hexDigit (u / 16 % 16)).toNat, (hexDigit (u % 16)).toNat]

lemma toPyStr_unitEscape (u : ℕ) : (unitEscape u).toPyStr = 0x5C :: 0x75 :: unitDigits u := rfl

/-- The digits of an escape are read back. -/
lemma hex4_unitDigits {u : ℕ} (h : u < 0x10000) (rest : PyStr) :
    hex4 (unitDigits u ++ rest) = some (u, rest) := by
  have hvalue : u / 4096 % 16 * 4096 + u / 256 % 16 * 256 + u / 16 % 16 * 16 + u % 16 = u := by
    omega
  simp only [unitDigits, List.cons_append, List.nil_append, hex4,
    hexDigitValue_hexDigit (Nat.mod_lt _ (by decide : 0 < 16)), Option.bind_eq_bind,
    Option.bind_some, hvalue]
  rfl

/-- One code point as `dumps` writes it. -/
def escaped (c : ℕ) : PyStr := (escapeCodePoint c).toPyStr

/-- The escape that a string begins with is not one of a low surrogate. -/
def NoLowEscape (rest : PyStr) : Prop :=
  ∀ r v r', rest = 0x5C :: 0x75 :: r → hex4 r = some (v, r') → isLowSurrogate v = false

lemma escapedUnit_of_not_high {u : ℕ} (h : isHighSurrogate u = false) (rest : PyStr) :
    escapedUnit u rest = (u, rest) := by
  simp [escapedUnit, h]

lemma escapedUnit_of_noLowEscape {u : ℕ} {rest : PyStr} (h : NoLowEscape rest) :
    escapedUnit u rest = (u, rest) := by
  unfold escapedUnit
  split
  · split
    · next rest' =>
      split
      · next v rest'' hhex => rw [if_neg (by simp [h rest' v rest'' rfl hhex])]
      · rfl
    · rfl
  · rfl

lemma escapedUnit_low {u v : ℕ} (hu : isHighSurrogate u = true) (hv : isLowSurrogate v = true)
    (rest : PyStr) : escapedUnit u (0x5C :: 0x75 :: (unitDigits v ++ rest)) =
      (joinPair u v, rest) := by
  have hlt : v < 0x10000 := by
    simp only [isLowSurrogate, Bool.and_eq_true, decide_eq_true_eq] at hv
    omega
  simp only [escapedUnit, hu, if_true, hex4_unitDigits hlt, hv]

/-- Reading an escape of one unit. -/
lemma scanStringAux_unit {u : ℕ} (hu : u < 0x10000) (n : ℕ) (rest : PyStr) :
    scanStringAux (n + 1) ((unitEscape u).toPyStr ++ rest) =
      (scanStringAux n (escapedUnit u rest).2).map
        fun r => ((escapedUnit u rest).1 :: r.1, r.2) := by
  rw [toPyStr_unitEscape, List.cons_append, List.cons_append, scanStringAux,
    if_neg (by decide), if_pos rfl, if_pos rfl, hex4_unitDigits hu]
  rfl

/-- Reading an escape of one letter. -/
lemma scanStringAux_simple {e c : ℕ} (h : simpleEscape e = some c) (hu : e ≠ 0x75) (n : ℕ)
    (rest : PyStr) :
    scanStringAux (n + 1) (0x5C :: e :: rest) =
      (scanStringAux n rest).map fun r => (c :: r.1, r.2) := by
  rw [scanStringAux, if_neg (by decide), if_pos rfl, if_neg hu, h]
  rfl

/-- The two halves of a code point beyond the basic plane. -/
lemma joinPair_halves {c : ℕ} (h : 0x10000 ≤ c) :
    joinPair (0xD800 + (c - 0x10000) / 1024) (0xDC00 + (c - 0x10000) % 1024) = c := by
  unfold joinPair
  omega

lemma halves_surrogate {c : ℕ} (hlow : 0x10000 ≤ c) (hhigh : c < 0x110000) :
    isHighSurrogate (0xD800 + (c - 0x10000) / 1024) = true ∧
      isLowSurrogate (0xDC00 + (c - 0x10000) % 1024) = true := by
  simp only [isHighSurrogate, isLowSurrogate, Bool.and_eq_true, decide_eq_true_eq]
  omega

/-- How a code point is written: by a letter, as itself, by one unit or by two. -/
lemma escaped_cases {c : ℕ} (hc : c < 0x110000) :
    (∃ e, e ≠ 0x75 ∧ simpleEscape e = some c ∧ escaped c = [0x5C, e]) ∨
    (0x20 ≤ c ∧ c ≤ 0x7E ∧ c ≠ 0x22 ∧ c ≠ 0x5C ∧ escaped c = [c]) ∨
    (c < 0x10000 ∧ escaped c = (unitEscape c).toPyStr) ∨
    (0x10000 ≤ c ∧ escaped c = (unitEscape (0xD800 + (c - 0x10000) / 1024)).toPyStr ++
      (unitEscape (0xDC00 + (c - 0x10000) % 1024)).toPyStr) := by
  unfold escaped escapeCodePoint
  split_ifs with h1 h2 h3 h4 h5 h6 h7 h8 h9
  · exact Or.inl ⟨0x22, by decide, by subst h1; rfl, rfl⟩
  · exact Or.inl ⟨0x5C, by decide, by subst h2; rfl, rfl⟩
  · exact Or.inl ⟨0x6E, by decide, by subst h3; rfl, rfl⟩
  · exact Or.inl ⟨0x72, by decide, by subst h4; rfl, rfl⟩
  · exact Or.inl ⟨0x74, by decide, by subst h5; rfl, rfl⟩
  · exact Or.inl ⟨0x66, by decide, by subst h6; rfl, rfl⟩
  · exact Or.inl ⟨0x62, by decide, by subst h7; rfl, rfl⟩
  · refine Or.inr (Or.inl ⟨h8.1, h8.2, h1, h2, ?_⟩)
    have hvalid : c.isValidChar := Or.inl (by omega)
    rw [Text.toPyStr, List.map_singleton, toNat_of_charOfCodePoint (if_pos hvalid)]
  · exact Or.inr (Or.inr (Or.inl ⟨by omega, rfl⟩))
  · refine Or.inr (Or.inr (Or.inr ⟨by omega, ?_⟩))
    rw [Text.toPyStr, List.map_append]
    rfl

/-- Reading a code point that cannot be the first half of a pair. -/
lemma scanStringAux_escaped {c : ℕ} (hc : c < 0x110000) (n : ℕ) {rest : PyStr}
    (h : isHighSurrogate c = false ∨ NoLowEscape rest) :
    scanStringAux (n + 1) (escaped c ++ rest) =
      (scanStringAux n rest).map fun r => (c :: r.1, r.2) := by
  rcases escaped_cases hc with ⟨e, he, hsimple, htext⟩ | ⟨hlow, hhigh, hquote, hslash, htext⟩ |
    ⟨hunit, htext⟩ | ⟨hlarge, htext⟩
  · rw [htext]
    exact scanStringAux_simple hsimple he n rest
  · rw [htext, List.singleton_append, scanStringAux.eq_def]
    dsimp only
    rw [if_neg hquote, if_neg hslash, if_neg (by omega)]
  · have hread : escapedUnit c rest = (c, rest) := by
      rcases h with h | h
      · exact escapedUnit_of_not_high h rest
      · exact escapedUnit_of_noLowEscape h
    rw [htext, scanStringAux_unit hunit, hread]
  · obtain ⟨hfirst, hsecond⟩ := halves_surrogate hlarge hc
    rw [htext, List.append_assoc, scanStringAux_unit (by omega),
      toPyStr_unitEscape (0xDC00 + _), List.cons_append, List.cons_append,
      escapedUnit_low hfirst hsecond, joinPair_halves hlarge]

/-- Reading a pair of surrogates, which were written one by one. -/
lemma scanStringAux_pair {c d : ℕ} (hc : isHighSurrogate c = true) (hd : isLowSurrogate d = true)
    (n : ℕ) (rest : PyStr) :
    scanStringAux (n + 1) (escaped c ++ (escaped d ++ rest)) =
      (scanStringAux n rest).map fun r => (joinPair c d :: r.1, r.2) := by
  have hbounds := hc
  have hbounds' := hd
  simp only [isHighSurrogate, isLowSurrogate, Bool.and_eq_true, decide_eq_true_eq]
    at hbounds hbounds'
  have hunit : ∀ u, 0xD800 ≤ u → u ≤ 0xDFFF → escaped u = (unitEscape u).toPyStr := by
    intro u hlow hhigh
    rw [escaped, escapeCodePoint, if_neg (by omega), if_neg (by omega), if_neg (by omega),
      if_neg (by omega), if_neg (by omega), if_neg (by omega), if_neg (by omega),
      if_neg (by omega), if_pos (by omega)]
  rw [hunit c (by omega) (by omega), hunit d (by omega) (by omega),
    scanStringAux_unit (by omega), toPyStr_unitEscape d, List.cons_append, List.cons_append,
    escapedUnit_low hc hd]

/-- What is written for anything but a low surrogate does not begin with the escape of one. -/
lemma noLowEscape_escaped {d : ℕ} (hd : d < 0x110000) (h : isLowSurrogate d = false)
    (rest : PyStr) : NoLowEscape (escaped d ++ rest) := by
  intro r v r' heq hhex
  rcases escaped_cases hd with ⟨e, he, -, htext⟩ | ⟨-, -, -, hslash, htext⟩ | ⟨hunit, htext⟩ |
    ⟨hlarge, htext⟩
  · rw [htext, List.cons_append, List.cons_append] at heq
    exact absurd (List.cons.inj (List.cons.inj heq).2).1 he
  · rw [htext, List.singleton_append] at heq
    exact absurd (List.cons.inj heq).1 hslash
  · rw [htext, toPyStr_unitEscape, List.cons_append, List.cons_append] at heq
    rw [← (List.cons.inj (List.cons.inj heq).2).2, hex4_unitDigits hunit] at hhex
    obtain ⟨rfl, -⟩ := Prod.mk.inj (Option.some.inj hhex)
    exact h
  · rw [htext, toPyStr_unitEscape, List.cons_append, List.cons_append, List.cons_append,
      List.cons_append, List.append_assoc] at heq
    rw [← (List.cons.inj (List.cons.inj heq).2).2, hex4_unitDigits (by omega)] at hhex
    obtain ⟨rfl, -⟩ := Prod.mk.inj (Option.some.inj hhex)
    simp only [isLowSurrogate, Bool.and_eq_false_iff, decide_eq_false_iff_not]
    omega

lemma noLowEscape_quote (rest : PyStr) : NoLowEscape (0x22 :: rest) := by
  intro r v r' heq
  cases heq

lemma scanStringAux_quote (n : ℕ) (rest : PyStr) :
    scanStringAux (n + 1) (0x22 :: rest) = some ([], rest) := by
  simp [scanStringAux]

/-- The inside of a string literal, with the surrogates paired up. -/
lemma scanStringAux_flatMap_escaped {s : PyStr} (hs : CodePoints s) {fuel : ℕ}
    (hfuel : s.length < fuel) (rest : PyStr) :
    scanStringAux fuel (s.flatMap escaped ++ 0x22 :: rest) = some (pairUp s, rest) := by
  induction s using pairUp.induct generalizing fuel with
  | case1 =>
    obtain ⟨n, rfl⟩ := Nat.exists_eq_add_of_lt hfuel
    rw [List.length_nil, Nat.zero_add]
    exact scanStringAux_quote n rest
  | case2 u =>
    obtain ⟨n, rfl⟩ := Nat.exists_eq_add_of_lt hfuel
    rw [List.flatMap_cons, List.flatMap_nil, List.append_nil, List.length_singleton,
      scanStringAux_escaped (hs u (by simp)) _ (Or.inr (noLowEscape_quote rest)),
      Nat.add_comm 1 n, scanStringAux_quote]
    rfl
  | case3 u v t hpair ih =>
    obtain ⟨n, rfl⟩ : ∃ n, fuel = n + 1 := ⟨fuel - 1, by rw [List.length_cons] at hfuel; omega⟩
    have hsplit := hpair
    rw [Bool.and_eq_true] at hsplit
    simp only [List.length_cons] at hfuel
    rw [List.flatMap_cons, List.flatMap_cons, List.append_assoc, List.append_assoc,
      scanStringAux_pair hsplit.1 hsplit.2, ih (fun c hc => hs c (by simp [hc])) (by omega),
      pairUp, if_pos hpair]
    rfl
  | case4 u v t hpair ih =>
    obtain ⟨n, rfl⟩ : ∃ n, fuel = n + 1 := ⟨fuel - 1, by rw [List.length_cons] at hfuel; omega⟩
    simp only [List.length_cons] at hfuel
    have hnext : isHighSurrogate u = false ∨
        NoLowEscape ((v :: t).flatMap escaped ++ 0x22 :: rest) := by
      by_cases hu : isHighSurrogate u = true
      · have hv : isLowSurrogate v = false := by simpa [hu] using hpair
        rw [List.flatMap_cons, List.append_assoc]
        exact Or.inr (noLowEscape_escaped (hs v (by simp)) hv _)
      · exact Or.inl (by simpa using hu)
    rw [List.flatMap_cons, List.append_assoc, scanStringAux_escaped (hs u (by simp)) n hnext,
      ih (fun c hc => hs c (List.mem_cons_of_mem _ hc)) (by simpa using hfuel), pairUp,
      if_neg hpair]
    rfl

lemma escaped_ne_nil (c : ℕ) : escaped c ≠ [] := by
  unfold escaped escapeCodePoint
  split_ifs <;> simp [Text.toPyStr, unitEscape]

lemma length_flatMap_escaped (s : PyStr) : s.length ≤ (s.flatMap escaped).length := by
  induction s with
  | nil => simp
  | cons c s ih =>
    have hpos := List.length_pos_iff.mpr (escaped_ne_nil c)
    rw [List.flatMap_cons, List.length_append, List.length_cons]
    omega

lemma toPyStr_dumpsStr (s : PyStr) :
    (dumpsStr s).toPyStr = 0x22 :: (s.flatMap escaped ++ [0x22]) := by
  rw [dumpsStr, Text.toPyStr, List.map_cons, List.map_append, List.map_flatMap]
  rfl

/-- **A written string is read back**, its surrogates paired up. -/
theorem scanString_flatMap_escaped {s : PyStr} (hs : CodePoints s) (rest : PyStr) :
    scanString (s.flatMap escaped ++ 0x22 :: rest) = .ok (pairUp s, rest) := by
  have hlen := length_flatMap_escaped s
  rw [scanString, scanStringAux_flatMap_escaped hs]
  rw [List.length_append]
  omega

/-- Nothing is paired up in a string without a high surrogate directly before a low one. -/
lemma pairUp_eq_self_iff {s : PyStr} :
    pairUp s = s ↔ s.IsChain fun u v => (isHighSurrogate u && isLowSurrogate v) = false := by
  have hlen : ∀ s : PyStr, (pairUp s).length ≤ s.length := by
    intro s
    induction s using pairUp.induct with
    | case1 => simp [pairUp]
    | case2 u => simp [pairUp]
    | case3 u v t hpair ih =>
      rw [pairUp, if_pos hpair]
      simp only [List.length_cons]
      omega
    | case4 u v t hpair ih =>
      rw [pairUp, if_neg hpair]
      simpa using ih
  induction s using pairUp.induct with
  | case1 => simp [pairUp]
  | case2 u => simp [pairUp]
  | case3 u v t hpair ih =>
    refine iff_of_false (fun h => ?_) (fun h => ?_)
    · have := congrArg List.length h
      rw [pairUp, if_pos hpair] at this
      simp only [List.length_cons] at this
      have := hlen t
      omega
    · rw [List.isChain_cons_cons, hpair] at h
      exact absurd h.1 (by simp)
  | case4 u v t hpair ih =>
    have hfalse : (isHighSurrogate u && isLowSurrogate v) = false := by simpa using hpair
    rw [pairUp, if_neg hpair, List.isChain_cons_cons, List.cons_inj_right]
    exact ⟨fun h => ⟨hfalse, ih.mp h⟩, fun h => ih.mpr h.2⟩

end IssuesApi
