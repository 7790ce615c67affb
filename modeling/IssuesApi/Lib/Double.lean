import Mathlib.Algebra.Order.Field.Power
import Mathlib.Algebra.Ring.Int.Parity
import Mathlib.Data.Int.Log
import Mathlib.Data.Nat.Prime.Basic
import Mathlib.Data.Rat.Floor
import Mathlib.Data.Rat.Lemmas
import Mathlib.Tactic.Linarith
import Mathlib.Tactic.NormNum
import Mathlib.Tactic.Positivity
import Mathlib.Tactic.Ring

/-!
# Rounding to a double

`roundDouble q` is the binary floating-point number of precision 53 that is nearest to the
rational `q`, the one with the even significand of two that are equally near.  Small numbers
are rounded to a multiple of `2 ^ (-1074)`, which is gradual underflow; there is no largest
number here, and overflow is left to the user.

`roundDouble_eq_self` says that doubles are not changed, `isDouble_roundDouble` that there is
nothing else among the results, and `roundDouble_le` that a number is not rounded past a double
above it.  All three rest on `IsDouble.exists_mul_lastPlace`: a double that is not nearer to
zero than `q` is a multiple of the last place of `q`.
-/

namespace IssuesApi

/-! ## Whole numbers -/

/-- The whole number nearest to `x`, the even one of two. -/
def roundEven (x : ℚ) : ℤ :=
  let below := ⌊x⌋
  if x - below < 1 / 2 then below
  else if 1 / 2 < x - below then below + 1
  else if Even below then below
  else below + 1

@[simp] lemma roundEven_intCast (n : ℤ) : roundEven n = n := by
  simp [roundEven]

@[simp] lemma roundEven_zero : roundEven 0 = 0 := by
  simpa using roundEven_intCast 0

lemma floor_le_roundEven (x : ℚ) : ⌊x⌋ ≤ roundEven x := by
  unfold roundEven
  dsimp only
  split_ifs <;> omega

lemma roundEven_le_floor_add_one (x : ℚ) : roundEven x ≤ ⌊x⌋ + 1 := by
  unfold roundEven
  dsimp only
  split_ifs <;> omega

/-- Rounding does not go past a whole number. -/
lemma roundEven_le {x : ℚ} {n : ℤ} (h : x ≤ n) : roundEven x ≤ n := by
  rcases h.eq_or_lt with rfl | hlt
  · exact (roundEven_intCast n).le
  · have hfloor : ⌊x⌋ < n := Int.floor_lt.mpr hlt
    have hround := roundEven_le_floor_add_one x
    omega

lemma le_roundEven {x : ℚ} {n : ℤ} (h : (n : ℚ) ≤ x) : n ≤ roundEven x :=
  (Int.le_floor.mpr h).trans (floor_le_roundEven x)

/-- Rounding does not depend on the sign. -/
lemma roundEven_neg (x : ℚ) : roundEven (-x) = -roundEven x := by
  by_cases hx : x = ⌊x⌋
  · rw [hx, ← Int.cast_neg, roundEven_intCast, roundEven_intCast]
  · have hlt : (⌊x⌋ : ℚ) < x := lt_of_le_of_ne (Int.floor_le x) (Ne.symm hx)
    have hfloor : ⌊-x⌋ = -⌊x⌋ - 1 := by
      rw [Int.floor_eq_iff]
      push_cast
      constructor <;> linarith [Int.lt_floor_add_one x]
    have heven : Even (-⌊x⌋ - 1) ↔ ¬ Even ⌊x⌋ := by simp
    unfold roundEven
    dsimp only
    rw [hfloor]
    push_cast
    -- the fractional parts add up to one
    split_ifs
    all_goals first | omega | (exfalso; linarith) | (exfalso; tauto)

/-- What is nearer to zero than to one, on either side. -/
lemma roundEven_eq_zero {x : ℚ} (h : |x| < 1 / 2) : roundEven x = 0 := by
  obtain ⟨hlow, hhigh⟩ := abs_lt.mp h
  rcases le_or_gt 0 x with hx | hx
  · have hfloor : ⌊x⌋ = 0 := Int.floor_eq_zero_iff.mpr ⟨hx, by linarith⟩
    rw [roundEven, hfloor, if_pos (by simpa using hhigh)]
  · have hfloor : ⌊x⌋ = -1 := by
      rw [Int.floor_eq_iff]
      push_cast
      constructor <;> linarith
    rw [roundEven, hfloor, if_neg (by push_cast; linarith), if_pos (by push_cast; linarith),
      neg_add_cancel]

/-! ## Doubles -/

/-- The numbers of precision 53 whose last place is not below `2 ^ (-1074)`. -/
def IsDouble (q : ℚ) : Prop :=
  ∃ m k : ℤ, |m| ≤ 2 ^ 53 ∧ -1074 ≤ k ∧ q = m * (2 : ℚ) ^ k

/-- The exponent of the last place of a double of the size of `q`. -/
def lastPlace (q : ℚ) : ℤ := max (-1074) (Int.log 2 |q| - 52)

/-- The double nearest to `q`. -/
def roundDouble (q : ℚ) : ℚ :=
  roundEven (q / (2 : ℚ) ^ lastPlace q) * (2 : ℚ) ^ lastPlace q

lemma two_zpow_pos (k : ℤ) : (0 : ℚ) < (2 : ℚ) ^ k := zpow_pos (by norm_num) k

@[simp] lemma roundDouble_zero : roundDouble 0 = 0 := by simp [roundDouble]

lemma roundDouble_neg (q : ℚ) : roundDouble (-q) = -roundDouble q := by
  rw [roundDouble, roundDouble, lastPlace, lastPlace, abs_neg, neg_div, roundEven_neg]
  push_cast
  ring

lemma isDouble_intCast {n : ℤ} (h : |n| ≤ 2 ^ 53) : IsDouble n :=
  ⟨n, 0, h, by norm_num, by simp⟩

lemma IsDouble.neg {d : ℚ} (hd : IsDouble d) : IsDouble (-d) := by
  obtain ⟨m, k, hm, hk, rfl⟩ := hd
  exact ⟨-m, k, by rwa [abs_neg], hk, by push_cast; ring⟩

lemma IsDouble.abs {d : ℚ} (hd : IsDouble d) : IsDouble |d| := by
  rcases abs_choice d with h | h
  · rwa [h]
  · rw [h]
    exact hd.neg

/-- The denominator of a double is a power of two. -/
lemma IsDouble.exists_den_eq {d : ℚ} (hd : IsDouble d) : ∃ i : ℕ, d.den = 2 ^ i := by
  obtain ⟨m, k, -, -, rfl⟩ := hd
  obtain ⟨j, hj⟩ : ∃ j : ℕ, ((m : ℚ) * (2 : ℚ) ^ k).den ∣ 2 ^ j := by
    cases k with
    | ofNat j =>
      have hint : (m : ℚ) * (2 : ℚ) ^ (Int.ofNat j) = ((m * 2 ^ j : ℤ) : ℚ) := by
        rw [Int.ofNat_eq_natCast, zpow_natCast]
        push_cast
        rfl
      exact ⟨0, by rw [hint, Rat.den_intCast, pow_zero]⟩
    | negSucc j =>
      have hdiv : (m : ℚ) * (2 : ℚ) ^ (Int.negSucc j) =
          Rat.divInt m ((2 ^ (j + 1) : ℕ) : ℤ) := by
        rw [zpow_negSucc, Rat.divInt_eq_div]
        push_cast
        rw [div_eq_mul_inv]
      refine ⟨j + 1, ?_⟩
      rw [hdiv]
      exact_mod_cast Rat.den_dvd m ((2 ^ (j + 1) : ℕ) : ℤ)
  obtain ⟨i, -, hi⟩ := (Nat.dvd_prime_pow Nat.prime_two).mp hj
  exact ⟨i, hi⟩

lemma abs_intCast_le {m : ℤ} (h : |m| ≤ 2 ^ 53) : |(m : ℚ)| ≤ (2 : ℚ) ^ (53 : ℤ) := by
  calc |(m : ℚ)| = ((|m| : ℤ) : ℚ) := (Int.cast_abs).symm
    _ ≤ ((2 ^ 53 : ℤ) : ℚ) := by exact_mod_cast h
    _ = (2 : ℚ) ^ (53 : ℤ) := by norm_num

/-- Above the smallest, the last place is fifty-two binary places below the first. -/
lemma two_zpow_le_abs {q : ℚ} (hq : q ≠ 0) (h : -1074 < lastPlace q) :
    (2 : ℚ) ^ (lastPlace q + 52) ≤ |q| := by
  have hplace : lastPlace q + 52 = Int.log 2 |q| := by
    rw [lastPlace] at h ⊢
    omega
  rw [hplace]
  exact_mod_cast Int.zpow_log_le_self (by norm_num : 1 < 2) (abs_pos.mpr hq)

lemma abs_lt_two_zpow (q : ℚ) : |q| < (2 : ℚ) ^ (lastPlace q + 53) := by
  have hlog : |q| < (2 : ℚ) ^ (Int.log 2 |q| + 1) := by
    exact_mod_cast Int.lt_zpow_succ_log_self (by norm_num : 1 < 2) |q|
  refine hlog.trans_le (zpow_le_zpow_right₀ (by norm_num) ?_)
  rw [lastPlace]
  omega

/-- A multiple of a higher place. -/
lemma mul_two_zpow_of_le {m k place : ℤ} (h : place ≤ k) :
    (m : ℚ) * (2 : ℚ) ^ k = ((m * 2 ^ (k - place).toNat : ℤ) : ℚ) * (2 : ℚ) ^ place := by
  have hexp : ((k - place).toNat : ℤ) = k - place := Int.toNat_of_nonneg (by omega)
  push_cast
  rw [mul_assoc, ← zpow_natCast, hexp, ← zpow_add₀ (by norm_num), sub_add_cancel]

/-- A double with a lower last place is at most the first number of the higher one. -/
lemma abs_le_of_lt_lastPlace {m k place : ℤ} (hm : |m| ≤ 2 ^ 53) (h : k < place) :
    |(m : ℚ) * (2 : ℚ) ^ k| ≤ ((2 ^ 52 : ℤ) : ℚ) * (2 : ℚ) ^ place := by
  rw [abs_mul, abs_of_pos (two_zpow_pos k)]
  calc |(m : ℚ)| * (2 : ℚ) ^ k ≤ (2 : ℚ) ^ (53 : ℤ) * (2 : ℚ) ^ k :=
        mul_le_mul_of_nonneg_right (abs_intCast_le hm) (two_zpow_pos k).le
    _ = (2 : ℚ) ^ (53 + k) := (zpow_add₀ (by norm_num) 53 k).symm
    _ ≤ (2 : ℚ) ^ (52 + place) := zpow_le_zpow_right₀ (by norm_num) (by omega)
    _ = ((2 ^ 52 : ℤ) : ℚ) * (2 : ℚ) ^ place := by
      rw [zpow_add₀ (by norm_num)]
      norm_num

/-- A double that is at least as far from zero has no digits below the last place. -/
lemma IsDouble.exists_mul_lastPlace {q d : ℚ} (hd : IsDouble d) (hq : q ≠ 0) (h : |q| ≤ |d|) :
    ∃ n : ℤ, d = n * (2 : ℚ) ^ lastPlace q := by
  obtain ⟨m, k, hm, hk, rfl⟩ := hd
  rcases le_or_gt (lastPlace q) k with hle | hlt
  · exact ⟨_, mul_two_zpow_of_le hle⟩
  · -- the double is a power of two, the first number of the size of `q`
    have hlow := two_zpow_le_abs hq (by omega)
    rw [add_comm, zpow_add₀ (by norm_num)] at hlow
    have habs : |(m : ℚ) * (2 : ℚ) ^ k| = ((2 ^ 52 : ℤ) : ℚ) * (2 : ℚ) ^ lastPlace q :=
      le_antisymm (abs_le_of_lt_lastPlace hm hlt) ((by exact_mod_cast hlow : _ ≤ |q|).trans h)
    rcases abs_choice ((m : ℚ) * (2 : ℚ) ^ k) with hpos | hneg
    · exact ⟨2 ^ 52, hpos ▸ habs⟩
    · refine ⟨-2 ^ 52, ?_⟩
      rw [hneg] at habs
      push_cast at habs ⊢
      linarith

lemma roundDouble_of_mul {q : ℚ} {n : ℤ} (h : q = n * (2 : ℚ) ^ lastPlace q) :
    roundDouble q = q := by
  have hdiv : q / (2 : ℚ) ^ lastPlace q = n := (div_eq_iff (two_zpow_pos _).ne').mpr h
  rw [roundDouble, hdiv, roundEven_intCast]
  exact h.symm

/-- **A double is its own nearest double.** -/
theorem roundDouble_eq_self {d : ℚ} (hd : IsDouble d) : roundDouble d = d := by
  by_cases hzero : d = 0
  · rw [hzero, roundDouble_zero]
  · obtain ⟨n, hn⟩ := hd.exists_mul_lastPlace hzero le_rfl
    exact roundDouble_of_mul hn

/-- **Rounding makes doubles.** -/
theorem isDouble_roundDouble (q : ℚ) : IsDouble (roundDouble q) := by
  refine ⟨_, lastPlace q, ?_, le_max_left _ _, rfl⟩
  have hbound : |q / (2 : ℚ) ^ lastPlace q| ≤ ((2 ^ 53 : ℤ) : ℚ) := by
    rw [abs_div, abs_of_pos (two_zpow_pos _), div_le_iff₀ (two_zpow_pos _)]
    calc |q| ≤ (2 : ℚ) ^ (lastPlace q + 53) := (abs_lt_two_zpow q).le
      _ = ((2 ^ 53 : ℤ) : ℚ) * (2 : ℚ) ^ lastPlace q := by
        rw [add_comm, zpow_add₀ (by norm_num)]
        norm_num
  obtain ⟨hlow, hhigh⟩ := abs_le.mp hbound
  exact abs_le.mpr ⟨le_roundEven (by exact_mod_cast hlow), roundEven_le hhigh⟩

/-- **Rounding does not go past a double.** -/
theorem roundDouble_le {q d : ℚ} (hd : IsDouble d) (hnonneg : 0 ≤ d) (h : q ≤ d) :
    roundDouble q ≤ d := by
  rcases le_or_gt q 0 with hq | hq
  · refine le_trans ?_ hnonneg
    refine mul_nonpos_of_nonpos_of_nonneg ?_ (two_zpow_pos _).le
    have hround : roundEven (q / (2 : ℚ) ^ lastPlace q) ≤ 0 :=
      roundEven_le (by
        rw [Int.cast_zero]
        exact div_nonpos_of_nonpos_of_nonneg hq (two_zpow_pos _).le)
    exact_mod_cast hround
  · obtain ⟨n, hn⟩ := hd.exists_mul_lastPlace hq.ne' (by
      rwa [abs_of_pos hq, abs_of_nonneg hnonneg])
    rw [roundDouble]
    calc (roundEven (q / (2 : ℚ) ^ lastPlace q) : ℚ) * (2 : ℚ) ^ lastPlace q
        ≤ n * (2 : ℚ) ^ lastPlace q := by
          refine mul_le_mul_of_nonneg_right ?_ (two_zpow_pos _).le
          have hround : roundEven (q / (2 : ℚ) ^ lastPlace q) ≤ n :=
            roundEven_le ((div_le_iff₀ (two_zpow_pos _)).mpr (hn ▸ h))
          exact_mod_cast hround
      _ = d := hn.symm

/-- **Rounding does not go below a double.** -/
theorem le_roundDouble {q d : ℚ} (hd : IsDouble d) (hq : 0 < q) (h : d ≤ q) :
    d ≤ roundDouble q := by
  have hbetween : ∃ n : ℤ, d ≤ n * (2 : ℚ) ^ lastPlace q ∧ n * (2 : ℚ) ^ lastPlace q ≤ q := by
    rcases le_or_gt |q| |d| with hle | hlt
    · obtain ⟨n, hn⟩ := hd.exists_mul_lastPlace hq.ne' hle
      exact ⟨n, hn.le, hn ▸ h⟩
    · obtain ⟨m, k, hm, hk, rfl⟩ := hd
      rcases le_or_gt (lastPlace q) k with hle | hlt'
      · refine ⟨m * 2 ^ (k - lastPlace q).toNat, ?_⟩
        rw [mul_two_zpow_of_le hle] at h ⊢
        exact ⟨le_rfl, h⟩
      · have hlow := two_zpow_le_abs hq.ne' (by omega)
        rw [abs_of_pos hq, add_comm, zpow_add₀ (by norm_num)] at hlow
        refine ⟨2 ^ 52, (le_abs_self _).trans ?_, by exact_mod_cast hlow⟩
        exact_mod_cast abs_le_of_lt_lastPlace hm hlt'
  obtain ⟨n, hle, hn⟩ := hbetween
  refine hle.trans (mul_le_mul_of_nonneg_right ?_ (two_zpow_pos _).le)
  have hround : n ≤ roundEven (q / (2 : ℚ) ^ lastPlace q) :=
    le_roundEven ((le_div_iff₀ (two_zpow_pos _)).mpr hn)
  exact_mod_cast hround

/-- Less than half of the smallest double is rounded to zero. -/
lemma roundDouble_eq_zero {q : ℚ} (h : |q| < (2 : ℚ) ^ (-1075 : ℤ)) : roundDouble q = 0 := by
  by_cases hzero : q = 0
  · rw [hzero, roundDouble_zero]
  have hlog : Int.log 2 |q| < -1075 :=
    (Int.lt_zpow_iff_log_lt (by norm_num) (abs_pos.mpr hzero)).mp (by exact_mod_cast h)
  have hplace : lastPlace q = -1074 := by
    rw [lastPlace]
    omega
  have hhalf : |q / (2 : ℚ) ^ (-1074 : ℤ)| < 1 / 2 := by
    rw [abs_div, abs_of_pos (two_zpow_pos _), div_lt_iff₀ (two_zpow_pos _)]
    calc |q| < (2 : ℚ) ^ (-1 + -1074 : ℤ) := h
      _ = 1 / 2 * (2 : ℚ) ^ (-1074 : ℤ) := by rw [zpow_add₀ (by norm_num)]; norm_num
  rw [roundDouble, hplace, roundEven_eq_zero hhalf, Int.cast_zero, zero_mul]

lemma roundDouble_nonneg {q : ℚ} (h : 0 ≤ q) : 0 ≤ roundDouble q := by
  refine mul_nonneg ?_ (two_zpow_pos _).le
  have hround : 0 ≤ roundEven (q / (2 : ℚ) ^ lastPlace q) :=
    le_roundEven (by
      rw [Int.cast_zero]
      exact div_nonneg h (two_zpow_pos _).le)
  exact_mod_cast hround

/-- Large doubles are whole. -/
lemma IsDouble.exists_intCast {d : ℚ} (hd : IsDouble d) (h : (2 : ℚ) ^ 53 ≤ |d|) :
    ∃ n : ℤ, d = n := by
  obtain ⟨m, k, hm, hk, rfl⟩ := hd
  rcases le_or_gt 0 k with hnonneg | hneg
  · refine ⟨m * 2 ^ k.toNat, ?_⟩
    push_cast
    rw [← zpow_natCast, Int.toNat_of_nonneg hnonneg]
  · exfalso
    rw [abs_mul, abs_of_pos (two_zpow_pos k)] at h
    have hlt : |(m : ℚ)| * (2 : ℚ) ^ k < (2 : ℚ) ^ (53 : ℤ) := by
      calc |(m : ℚ)| * (2 : ℚ) ^ k ≤ (2 : ℚ) ^ (53 : ℤ) * (2 : ℚ) ^ k :=
            mul_le_mul_of_nonneg_right (abs_intCast_le hm) (two_zpow_pos k).le
        _ = (2 : ℚ) ^ (53 + k) := (zpow_add₀ (by norm_num) 53 k).symm
        _ < (2 : ℚ) ^ (53 : ℤ) := zpow_lt_zpow_right₀ (by norm_num) (by omega)
    exact absurd (h.trans_lt (by exact_mod_cast hlt)) (lt_irrefl _)

end IssuesApi
