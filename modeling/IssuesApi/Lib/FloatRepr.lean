import IssuesApi.Lib.JsonRoundTrip
import Mathlib.Data.Nat.Cast.Field
import Mathlib.Data.Nat.Log
import Mathlib.Data.Rat.Lemmas
import Mathlib.Tactic.FieldSimp
import Mathlib.Tactic.NormNum

/-!
# An exact representation of floats

A finite float is a double, so it has a finite decimal expansion.  `exactRepr` writes it, in
the form `whole e-scale`, and `reprReadsBack_exactRepr` says that it is read back.  It stands
in for `float.__repr__` where one concrete representation is needed.
-/

namespace IssuesApi

/-- The number of decimal places of a double. -/
def exactScale (q : ℚ) : ℕ := Nat.log 2 q.den

/-- The float without its sign, times `10 ^ exactScale q`. -/
def exactWhole (q : ℚ) : ℕ := q.num.natAbs * (10 ^ exactScale q / q.den)

/-- The float in decimal digits. -/
def exactRepr (q : ℚ) : Text :=
  (if q < 0 then ['-'] else []) ++ decimal (exactWhole q) ++ 'e' :: '-' :: decimal (exactScale q)

/-- What is written, as a literal. -/
def exactLiteral (q : ℚ) : FloatLiteral where
  negative := q < 0
  whole := exactWhole q
  fraction := []
  exponent := some
    { sign := some true
      digits := (decimal (exactScale q)).toPyStr
      digits_ne_nil := by simpa [Text.toPyStr] using decimal_ne_nil _
      isDigits := isDigits_decimal _ }
  fraction_digits := List.forall_mem_nil _
  notInteger := Or.inr (by simp)

lemma toPyStr_exactRepr (q : ℚ) : (exactRepr q).toPyStr = (exactLiteral q).text := by
  unfold exactRepr FloatLiteral.text FloatLiteral.unsigned FloatLiteral.fractionText
    FloatLiteral.exponentText exactLiteral ExponentPart.text
  by_cases hq : q < 0
  · simp [hq, Text.toPyStr]
  · simp [hq, Text.toPyStr]

/-- A float that was read is a double within the range. -/
lemma ReadableFloat.isDouble {q : ℚ} (h : ReadableFloat q) :
    IsDouble q ∧ |q| < (2 : ℚ) ^ 1024 := by
  obtain ⟨negative, m, e, h⟩ := h
  exact PyFloat.isDouble_of_ofDecimal (congrArg PyFloat.value? h)

/-- So many decimal places are enough. -/
lemma IsDouble.den_dvd {q : ℚ} (h : IsDouble q) : q.den ∣ 10 ^ exactScale q := by
  obtain ⟨i, hi⟩ := h.exists_den_eq
  rw [exactScale, hi, Nat.log_pow (by decide)]
  exact pow_dvd_pow_of_dvd (by decide) i

/-- What is written is the float. -/
lemma exactWhole_eq {q : ℚ} (h : q.den ∣ 10 ^ exactScale q) :
    (exactWhole q : ℚ) * (10 : ℚ) ^ (-(exactScale q : ℤ)) = |q| := by
  have hden : (q.den : ℚ) ≠ 0 := by exact_mod_cast q.den_ne_zero
  have habs : |q| = (q.num.natAbs : ℚ) / q.den := by
    rw [← Rat.num_div_den |q|, Rat.num_abs_eq_abs_num, Rat.den_abs_eq_den]
    norm_num
  rw [habs, exactWhole, zpow_neg, zpow_natCast, Nat.cast_mul, Nat.cast_div h hden, Nat.cast_pow,
    Nat.cast_ofNat]
  field_simp

/-- **The exact representation is read back.** -/
theorem reprReadsBack_exactRepr : ReprReadsBack exactRepr := by
  intro q hq
  obtain ⟨hdouble, hrange⟩ := hq.isDouble
  refine ⟨exactLiteral q, toPyStr_exactRepr q, ?_⟩
  have hvalue : (exactLiteral q).value =
      PyFloat.ofDecimal (decide (q < 0)) (exactWhole q) (-(exactScale q : ℤ)) := by
    simp [FloatLiteral.value, exactLiteral, ExponentPart.value, natOfDigits_decimal]
  rw [hvalue, PyFloat.ofDecimal_eq, exactWhole_eq hdouble.den_dvd, PyFloat.rounded,
    roundDouble_eq_self hdouble.abs, if_neg (not_le.mpr hrange)]
  by_cases hneg : q < 0
  · rw [decide_eq_true hneg, if_pos rfl, if_neg (abs_ne_zero.mpr hneg.ne), abs_of_neg hneg,
      neg_neg]
  · rw [decide_eq_false hneg, if_neg Bool.false_ne_true, abs_of_nonneg (not_lt.mp hneg)]

end IssuesApi
