import IssuesApi.Lib.Double
import IssuesApi.Lib.Text

/-!
# Python numbers

`PyFloat` is Python's `float` and `floatOfText` the conversion `float(text)`.  A finite value
is the rational it stands for; `PyFloat.rounded` makes a float of a rational, rounding it to
the nearest double and, beyond the range, to an infinity.  Zero has two signs, of which the
negative one is a constructor of its own.  `PyFloat.toInt` is the conversion `int(x)`, which
raises on an infinity and on NaN, with a different exception for each.
-/

namespace IssuesApi

/-- A Python `float`. -/
inductive PyFloat where
  | finite (value : ℚ)
  | negZero
  | inf (negative : Bool)
  | nan
  deriving DecidableEq, Repr

/-- The number a finite float stands for. -/
def PyFloat.value? : PyFloat → Option ℚ
  | .finite q => some q
  | .negZero => some 0
  | .inf _ => none
  | .nan => none

/-- The float nearest to `± magnitude`. -/
def PyFloat.rounded (negative : Bool) (magnitude : ℚ) : PyFloat :=
  let d := roundDouble magnitude
  if (2 : ℚ) ^ 1024 ≤ d then .inf negative
  else if negative then (if d = 0 then .negZero else .finite (-d))
  else .finite d

/-- The float nearest to `± mantissa · 10 ^ exponent`.  The first tests keep powers far outside
the range from being computed. -/
def PyFloat.ofDecimal (negative : Bool) (mantissa : ℕ) (exponent : ℤ) : PyFloat :=
  if mantissa = 0 then .rounded negative 0
  else if 400 < exponent then .inf negative
  else if exponent + (decimal mantissa).length < -400 then .rounded negative 0
  else .rounded negative (mantissa * (10 : ℚ) ^ exponent)

/-! The two powers of ten at which nothing is computed. -/

lemma two_pow_le_ten_pow : (2 : ℚ) ^ 1200 ≤ (10 : ℚ) ^ 400 := by
  calc (2 : ℚ) ^ 1200 = (2 ^ 3) ^ 400 := pow_mul 2 3 400
    _ ≤ (10 : ℚ) ^ 400 := pow_le_pow_left₀ (by norm_num) (by norm_num) 400

/-- A positive number times a large power of ten is out of range. -/
lemma le_roundDouble_of_large {m : ℕ} {e : ℤ} (hm : m ≠ 0) (he : 400 < e) :
    (2 : ℚ) ^ 1024 ≤ roundDouble (m * (10 : ℚ) ^ e) := by
  have hbound : (2 : ℚ) ^ 1024 ≤ m * (10 : ℚ) ^ e := by
    calc (2 : ℚ) ^ 1024 ≤ (2 : ℚ) ^ 1200 := pow_le_pow_right₀ (by norm_num) (by norm_num)
      _ ≤ (10 : ℚ) ^ (400 : ℤ) := by exact_mod_cast two_pow_le_ten_pow
      _ ≤ (10 : ℚ) ^ e := zpow_le_zpow_right₀ (by norm_num) he.le
      _ = 1 * (10 : ℚ) ^ e := (one_mul _).symm
      _ ≤ m * (10 : ℚ) ^ e := by
        refine mul_le_mul_of_nonneg_right ?_ (zpow_nonneg (by norm_num) e)
        exact_mod_cast Nat.one_le_iff_ne_zero.mpr hm
  have hdouble : IsDouble ((2 : ℚ) ^ 1024) :=
    ⟨1, 1024, by norm_num, by norm_num, by norm_num⟩
  exact le_roundDouble hdouble (lt_of_lt_of_le (by positivity) hbound) hbound

/-- A number far below the smallest double. -/
lemma roundDouble_of_small {m : ℕ} {e : ℤ} (h : e + (decimal m).length < -400) :
    roundDouble (m * (10 : ℚ) ^ e) = 0 := by
  have hnonneg : (0 : ℚ) ≤ m * (10 : ℚ) ^ e :=
    mul_nonneg (Nat.cast_nonneg m) (zpow_nonneg (by norm_num) e)
  have hdigits : m < 10 ^ (decimal m).length :=
    (Nat.length_toDigits_le_iff (by decide)
      (List.length_pos_iff.mpr (decimal_ne_nil m))).mp le_rfl
  apply roundDouble_eq_zero
  rw [abs_of_nonneg hnonneg]
  calc (m : ℚ) * (10 : ℚ) ^ e ≤ (10 : ℚ) ^ ((decimal m).length : ℤ) * (10 : ℚ) ^ e := by
        refine mul_le_mul_of_nonneg_right ?_ (zpow_nonneg (by norm_num) e)
        rw [zpow_natCast]
        exact_mod_cast hdigits.le
    _ = (10 : ℚ) ^ (e + (decimal m).length) := by rw [← zpow_add₀ (by norm_num), add_comm]
    _ ≤ (10 : ℚ) ^ (-400 : ℤ) := zpow_le_zpow_right₀ (by norm_num) h.le
    _ ≤ (2 : ℚ) ^ (-1200 : ℤ) := by
      rw [zpow_neg, zpow_neg]
      exact inv_anti₀ (by positivity) (by exact_mod_cast two_pow_le_ten_pow)
    _ < (2 : ℚ) ^ (-1075 : ℤ) := zpow_lt_zpow_right₀ (by norm_num) (by norm_num)

/-- **A decimal number is read as the float nearest to it.** -/
theorem PyFloat.ofDecimal_eq (negative : Bool) (mantissa : ℕ) (exponent : ℤ) :
    PyFloat.ofDecimal negative mantissa exponent =
      .rounded negative (mantissa * (10 : ℚ) ^ exponent) := by
  unfold PyFloat.ofDecimal
  split_ifs with hzero hlarge hsmall
  · rw [hzero, Nat.cast_zero, zero_mul]
  · exact (if_pos (le_roundDouble_of_large hzero hlarge)).symm
  · rw [rounded, rounded, roundDouble_of_small hsmall, roundDouble_zero]
  · rfl

/-! ## `float(text)` -/

/-- The code points of the zeros of the decimal digit blocks (general category `Nd`). -/
def decimalZeros : List ℕ :=
  [0x30, 0x660, 0x6F0, 0x7C0, 0x966, 0x9E6, 0xA66, 0xAE6, 0xB66, 0xBE6, 0xC66, 0xCE6, 0xD66,
    0xDE6, 0xE50, 0xED0, 0xF20, 0x1040, 0x1090, 0x17E0, 0x1810, 0x1946, 0x19D0, 0x1A80, 0x1A90,
    0x1B50, 0x1BB0, 0x1C40, 0x1C50, 0xA620, 0xA8D0, 0xA900, 0xA9D0, 0xA9F0, 0xAA50, 0xABF0,
    0xFF10, 0x104A0, 0x10D30, 0x11066, 0x110F0, 0x11136, 0x111D0, 0x112F0, 0x11450, 0x114D0,
    0x11650, 0x116C0, 0x11730, 0x118E0, 0x11950, 0x11C50, 0x11D50, 0x11DA0, 0x11F50, 0x16A60,
    0x16AC0, 0x16B50, 0x1D7CE, 0x1D7D8, 0x1D7E2, 0x1D7EC, 0x1D7F6, 0x1E140, 0x1E2F0, 0x1E4F0,
    0x1E950, 0x1FBF0]

/-- A decimal digit of any script, as the ASCII digit of the same value. -/
def asciiDigit (c : Char) : Char :=
  match decimalZeros.find? (fun z => z ≤ c.toNat && c.toNat ≤ z + 9) with
  | some z => Nat.digitChar (c.toNat - z)
  | none => c

/-- Drop the underscores of a number; each must stand between two digits. -/
def dropUnderscores : Char → Text → Option Text
  | prev, [] => if prev = '_' then none else some []
  | prev, c :: rest =>
    if c = '_' then (if prev.isDigit then dropUnderscores '_' rest else none)
    else if prev = '_' ∧ !c.isDigit then none
    else (dropUnderscores c rest).map (c :: ·)

/-- The exponent part of a number, which must be all that is left. -/
def parseExponent : Text → Option ℤ
  | [] => some 0
  | c :: rest =>
    if c = 'e' ∨ c = 'E' then
      let (negative, digits) : Bool × Text :=
        match rest with
        | '+' :: r => (false, r)
        | '-' :: r => (true, r)
        | r => (false, r)
      if digits ≠ [] ∧ digits.all Char.isDigit then
        let n : ℤ := Nat.ofDigitChars 10 digits 0
        some (if negative then -n else n)
      else none
    else none

/-- An unsigned decimal number. -/
def parseDecimal (negative : Bool) (t : Text) : Option PyFloat :=
  let whole := t.takeWhile Char.isDigit
  let (fraction, rest) : Text × Text :=
    match t.dropWhile Char.isDigit with
    | '.' :: r => (r.takeWhile Char.isDigit, r.dropWhile Char.isDigit)
    | r => ([], r)
  if whole = [] ∧ fraction = [] then none
  else
    (parseExponent rest).map fun exponent =>
      PyFloat.ofDecimal negative (Nat.ofDigitChars 10 (whole ++ fraction) 0)
        (exponent - fraction.length)

/-- An unsigned number or the name of one. -/
def parseUnsigned (negative : Bool) (t : Text) : Option PyFloat :=
  let name := t.map Char.toLower
  if name = "inf".toList ∨ name = "infinity".toList then some (.inf negative)
  else if name = "nan".toList then some .nan
  else (dropUnderscores ' ' t).bind (parseDecimal negative)

/-- The blanks around a number: those of `isSpace`, without the four separators of ASCII. -/
def isFloatSpace (c : Char) : Bool := isSpace c && !(28 ≤ c.toNat && c.toNat ≤ 31)

/-- `float(text)`; `none` is a `ValueError`. -/
def floatOfText (t : Text) : Option PyFloat :=
  match ((t.map asciiDigit).dropWhile isFloatSpace).rdropWhile isFloatSpace with
  | '+' :: rest => parseUnsigned false rest
  | '-' :: rest => parseUnsigned true rest
  | rest => parseUnsigned false rest

example : floatOfText "\x1c1.5".toList = none := by decide +kernel

example : (floatOfText " 1.99999999999999999999".toList).bind PyFloat.value? = some 2 := by
  decide +kernel

/-! ## `int(x)` -/

/-- The exceptions of `int` on a float. -/
inductive IntError where
  /-- `OverflowError`: the float is infinite. -/
  | overflowError
  /-- `ValueError`: the float is not a number. -/
  | valueError
  deriving DecidableEq, Repr

/-- Truncation towards zero. -/
def truncate (q : ℚ) : ℤ := if 0 ≤ q then ⌊q⌋ else ⌈q⌉

lemma truncate_of_nonneg {q : ℚ} (h : 0 ≤ q) : truncate q = ⌊q⌋ := if_pos h

lemma truncate_nonpos {q : ℚ} (h : q ≤ 0) : truncate q ≤ 0 := by
  rcases h.eq_or_lt with rfl | hneg
  · simp [truncate]
  · rw [truncate, if_neg (not_le.mpr hneg), Int.ceil_le]
    exact_mod_cast h

/-- A number is rounded and truncated to the whole number at or above it exactly when it is
rounded to that number: of doubles, only whole ones are so large that they could pass it. -/
lemma floor_roundDouble_eq_ceil_iff {q : ℚ} (h : 0 ≤ q) :
    ⌊roundDouble q⌋ = ⌈q⌉ ↔ roundDouble q = ⌈q⌉ := by
  refine ⟨fun heq => ?_, fun heq => heq ▸ Int.floor_intCast _⟩
  have hceil : 0 ≤ ⌈q⌉ := Int.ceil_nonneg h
  have hfloor : (⌈q⌉ : ℚ) ≤ roundDouble q := heq ▸ Int.floor_le _
  rcases le_or_gt ⌈q⌉ (2 ^ 53) with hsmall | hlarge
  · refine le_antisymm (roundDouble_le (isDouble_intCast ?_) ?_ (Int.le_ceil q)) hfloor
    · rwa [abs_of_nonneg hceil]
    · exact_mod_cast hceil
  · have hbound : (2 : ℚ) ^ 53 ≤ |roundDouble q| := by
      refine le_trans ?_ (hfloor.trans (le_abs_self _))
      exact_mod_cast hlarge.le
    obtain ⟨n, hn⟩ := (isDouble_roundDouble q).exists_intCast hbound
    rw [hn, Int.floor_intCast] at heq
    rw [hn, heq]

/-- What is told of a wait, its rounding truncated but at least one, is not less than the wait
and not more by one, unless it is one: this is so of short waits and of those that are rounded
to the whole number at or above them. -/
lemma wait_bounds_iff (q : ℚ) :
    (q ≤ (max 1 (truncate (roundDouble q)) : ℤ) ∧
        (max 1 (truncate (roundDouble q)) = 1 ∨
          ((max 1 (truncate (roundDouble q)) : ℤ) : ℚ) - q < 1)) ↔
      q ≤ 1 ∨ roundDouble q = ⌈q⌉ := by
  rcases le_or_gt q 1 with hq | hq
  · have hround : roundDouble q ≤ 1 := by
      have hone : IsDouble 1 := by exact_mod_cast isDouble_intCast (n := 1) (by norm_num)
      exact roundDouble_le hone zero_le_one hq
    have htruncate : truncate (roundDouble q) ≤ 1 := by
      rcases le_or_gt 0 (roundDouble q) with hnonneg | hneg
      · rw [truncate_of_nonneg hnonneg]
        exact_mod_cast (Int.floor_le _).trans hround
      · exact (truncate_nonpos hneg.le).trans zero_le_one
    rw [max_eq_left htruncate]
    exact iff_of_true ⟨by exact_mod_cast hq, Or.inl rfl⟩ (Or.inl hq)
  · have hnonneg : 0 ≤ q := zero_le_one.trans hq.le
    rw [truncate_of_nonneg (roundDouble_nonneg hnonneg), or_iff_right (not_le.mpr hq),
      ← floor_roundDouble_eq_ceil_iff hnonneg]
    have hone : 1 < ⌈q⌉ := Int.lt_ceil.mpr (by exact_mod_cast hq)
    constructor
    · rintro ⟨hle, htight⟩
      have hceil : ⌈q⌉ ≤ max 1 ⌊roundDouble q⌋ := Int.ceil_le.mpr hle
      have hlt : max 1 ⌊roundDouble q⌋ < ⌈q⌉ + 1 := by
        rcases htight with hmax | htight
        · omega
        · have hcast : ((max 1 ⌊roundDouble q⌋ : ℤ) : ℚ) < ((⌈q⌉ + 1 : ℤ) : ℚ) := by
            push_cast at htight ⊢
            linarith [Int.le_ceil q]
          exact_mod_cast hcast
      omega
    · intro heq
      rw [heq, max_eq_right hone.le]
      exact ⟨Int.le_ceil q, Or.inr (by linarith [Int.ceil_lt_add_one q])⟩

/-- `int(x)`. -/
def PyFloat.toInt : PyFloat → Except IntError ℤ
  | .finite q => .ok (truncate q)
  | .negZero => .ok 0
  | .inf _ => .error .overflowError
  | .nan => .error .valueError

/-- `x - y` for a finite `y`. -/
def PyFloat.subFinite : PyFloat → ℚ → PyFloat
  | .finite q, y => .rounded (q < y) |q - y|
  | .negZero, y => .rounded (0 ≤ y) |y|
  | .inf negative, _ => .inf negative
  | .nan, _ => .nan

namespace PyFloat

/-- A finite float that was rounded is the rounded number, with its sign. -/
lemma rounded_value? {negative : Bool} {q : ℚ} (h : roundDouble q < (2 : ℚ) ^ 1024) :
    (rounded negative q).value? = some (if negative then -roundDouble q else roundDouble q) := by
  unfold rounded
  dsimp only
  rw [if_neg (not_le.mpr h)]
  cases negative with
  | false => rfl
  | true =>
    rw [if_pos rfl, if_pos rfl]
    split
    · next hzero => rw [hzero, neg_zero, value?]
    · rfl

lemma rounded_of_le {negative : Bool} {q : ℚ} (h : (2 : ℚ) ^ 1024 ≤ roundDouble q) :
    rounded negative q = .inf negative := if_pos h

/-- Truncation looks at the number only. -/
lemma toInt_of_value? {x : PyFloat} {q : ℚ} (h : x.value? = some q) :
    x.toInt = .ok (truncate q) := by
  cases x with
  | finite p => rw [← Option.some.inj h, toInt]
  | negZero => rw [← Option.some.inj h, toInt, truncate_of_nonneg le_rfl, Int.floor_zero]
  | inf negative => cases h
  | nan => cases h

/-- A float with a number is no infinity and not NaN, so it is one of the two. -/
lemma value?_cases (x : PyFloat) :
    (∃ q, x.value? = some q) ∨ (∃ negative, x = .inf negative) ∨ x = .nan := by
  cases x with
  | finite q => exact Or.inl ⟨q, rfl⟩
  | negZero => exact Or.inl ⟨0, rfl⟩
  | inf negative => exact Or.inr (Or.inl ⟨negative, rfl⟩)
  | nan => exact Or.inr (Or.inr rfl)

/-- A finite float that was rounded is a double within the range. -/
lemma isDouble_of_rounded {negative : Bool} {q d : ℚ} (hq : 0 ≤ q)
    (h : (rounded negative q).value? = some d) : IsDouble d ∧ |d| < (2 : ℚ) ^ 1024 := by
  rcases lt_or_ge (roundDouble q) ((2 : ℚ) ^ 1024) with hlt | hle
  · have hdouble := isDouble_roundDouble q
    have hnonneg := roundDouble_nonneg hq
    rw [rounded_value? hlt] at h
    obtain rfl := Option.some.inj h
    cases negative with
    | false =>
      rw [if_neg Bool.false_ne_true, abs_of_nonneg hnonneg]
      exact ⟨hdouble, hlt⟩
    | true =>
      rw [if_pos rfl, abs_neg, abs_of_nonneg hnonneg]
      exact ⟨hdouble.neg, hlt⟩
  · rw [rounded_of_le hle] at h
    cases h

/-- A decimal number that is read is a double within the range. -/
lemma isDouble_of_ofDecimal {negative : Bool} {mantissa : ℕ} {exponent : ℤ} {d : ℚ}
    (h : (ofDecimal negative mantissa exponent).value? = some d) :
    IsDouble d ∧ |d| < (2 : ℚ) ^ 1024 := by
  rw [ofDecimal_eq] at h
  exact isDouble_of_rounded
    (mul_nonneg (Nat.cast_nonneg mantissa) (zpow_nonneg (by norm_num) exponent)) h

/-- A difference is rounded, or too large. -/
lemma subFinite_cases {x : PyFloat} {q : ℚ} (h : x.value? = some q) (y : ℚ) :
    (x.subFinite y).value? = some (roundDouble (q - y)) ∨
      ∃ negative, x.subFinite y = .inf negative := by
  obtain ⟨negative, hsub, hsign⟩ : ∃ negative, x.subFinite y = rounded negative |q - y| ∧
      (if negative then -|q - y| else |q - y|) = q - y := by
    cases x with
    | finite p =>
      obtain rfl := Option.some.inj h
      refine ⟨decide (p < y), rfl, ?_⟩
      by_cases hlt : p < y
      · rw [decide_eq_true hlt, if_pos rfl, abs_of_neg (sub_neg.mpr hlt), neg_neg]
      · rw [decide_eq_false hlt, if_neg Bool.false_ne_true,
          abs_of_nonneg (sub_nonneg.mpr (not_lt.mp hlt))]
    | negZero =>
      obtain rfl := Option.some.inj h
      rw [zero_sub, abs_neg]
      refine ⟨decide (0 ≤ y), rfl, ?_⟩
      by_cases hle : 0 ≤ y
      · rw [decide_eq_true hle, if_pos rfl, abs_of_nonneg hle]
      · rw [decide_eq_false hle, if_neg Bool.false_ne_true, abs_of_neg (not_le.mp hle)]
    | inf negative => cases h
    | nan => cases h
  rcases lt_or_ge (roundDouble |q - y|) ((2 : ℚ) ^ 1024) with hlt | hle
  · left
    rw [hsub, rounded_value? hlt, ← roundDouble_neg, ← apply_ite roundDouble, hsign]
  · exact Or.inr ⟨negative, hsub.trans (rounded_of_le hle)⟩

end PyFloat

/-- **What `float` reads is a double.** -/
lemma isDouble_of_floatOfText {t : Text} {x : PyFloat} {d : ℚ} (h : floatOfText t = some x)
    (hd : x.value? = some d) : IsDouble d := by
  have hunsigned : ∀ negative t, parseUnsigned negative t = some x → IsDouble d := by
    intro negative t ht
    unfold parseUnsigned at ht
    dsimp only at ht
    split_ifs at ht
    · obtain rfl := Option.some.inj ht
      cases hd
    · obtain rfl := Option.some.inj ht
      cases hd
    · obtain ⟨digits, -, hdecimal⟩ := Option.bind_eq_some_iff.mp ht
      unfold parseDecimal at hdecimal
      dsimp only at hdecimal
      split_ifs at hdecimal
      obtain ⟨exponent, -, rfl⟩ := Option.map_eq_some_iff.mp hdecimal
      exact (PyFloat.isDouble_of_ofDecimal hd).1
  unfold floatOfText at h
  split at h
  · exact hunsigned _ _ h
  · exact hunsigned _ _ h
  · exact hunsigned _ _ h

end IssuesApi
