import IssuesApi.Lib.DateTime
import Mathlib.Algebra.BigOperators.Intervals
import Mathlib.Algebra.Order.BigOperators.Group.Finset
import Mathlib.Data.List.Lex

/-!
# Instants

The number of microseconds between the start of the calendar and a `Civil`, read as UTC.
`Civil.instant_lt_iff` says that instants are ordered like the seven fields of a `Civil`,
the most significant first: a carry can only come from a field that has reached its bound, and
the fields are below theirs.
-/

namespace IssuesApi

/-! ## Days -/

/-- The number of days of a year. -/
def daysInYear (year : ℕ) : ℕ := if isLeap year then 366 else 365

/-- The days before the first of January. -/
def daysBeforeYear (year : ℕ) : ℕ :=
  (year - 1) * 365 + (year - 1) / 4 - (year - 1) / 100 + (year - 1) / 400

/-- The days of a year before the first of a month. -/
def daysBeforeMonth (year month : ℕ) : ℕ := ∑ m ∈ Finset.Ico 1 month, daysInMonth year m

lemma isLeap_iff {year : ℕ} :
    isLeap year = true ↔ year % 4 = 0 ∧ (year % 100 ≠ 0 ∨ year % 400 = 0) := by
  simp [isLeap]

lemma daysBeforeYear_succ {year : ℕ} (h : 1 ≤ year) :
    daysBeforeYear (year + 1) = daysBeforeYear year + daysInYear year := by
  obtain ⟨y, rfl⟩ : ∃ y, year = y + 1 := ⟨year - 1, by omega⟩
  simp only [daysBeforeYear, daysInYear, isLeap_iff, Nat.add_sub_cancel, Nat.succ_div,
    Nat.dvd_iff_mod_eq_zero]
  -- the century terms never exceed the leap-day term
  have hcentury : y / 100 ≤ y / 4 := Nat.div_le_div_left (by omega) (by omega)
  split_ifs <;> omega

lemma daysBeforeYear_le {year year' : ℕ} (h : 1 ≤ year) (hlt : year < year') :
    daysBeforeYear year + daysInYear year ≤ daysBeforeYear year' := by
  induction year', hlt using Nat.le_induction with
  | base => exact (daysBeforeYear_succ h).ge
  | succ k hk ih =>
    rw [daysBeforeYear_succ (by omega)]
    omega

lemma daysBeforeMonth_le {year month month' : ℕ} (h : 1 ≤ month) (hlt : month < month') :
    daysBeforeMonth year month + daysInMonth year month ≤ daysBeforeMonth year month' := by
  rw [daysBeforeMonth, ← Finset.sum_Ico_succ_top h]
  exact Finset.sum_le_sum_of_subset (Finset.Ico_subset_Ico_right hlt)

/-- The months fill the year. -/
lemma daysBeforeMonth_thirteen (year : ℕ) : daysBeforeMonth year 13 = daysInYear year := by
  have hterms : daysBeforeMonth year 13 =
      31 + (if isLeap year then 29 else 28) + 31 + 30 + 31 + 30 + 31 + 31 + 30 + 31 + 30 + 31 := by
    simp [daysBeforeMonth, Finset.sum_Ico_succ_top, daysInMonth]
  rw [hterms, daysInYear]
  split <;> rfl

/-! ## Instants -/

namespace Civil

/-- The microseconds since midnight. -/
def timeOfDay (c : Civil) : ℕ :=
  ((c.hour * 60 + c.minute) * 60 + c.second) * 1000000 + c.microsecond

/-- The days since the first of January of the year 1. -/
def dayNumber (c : Civil) : ℕ :=
  daysBeforeYear c.year + daysBeforeMonth c.year c.month + (c.day - 1)

/-- The microseconds since the start of the year 1. -/
def instant (c : Civil) : ℕ := c.dayNumber * 86400000000 + c.timeOfDay

/-- The fields, the most significant first. -/
def fields (c : Civil) : List ℕ :=
  [c.year, c.month, c.day, c.hour, c.minute, c.second, c.microsecond]

lemma timeOfDay_lt (c : Civil) : c.timeOfDay < 86400000000 := by
  have := c.hour_valid
  have := c.minute_valid
  have := c.second_valid
  have := c.microsecond_valid
  unfold timeOfDay
  omega

lemma day_lt (c : Civil) : c.day < 100 := by
  have hday := c.day_valid.2
  have hmonth : daysInMonth c.year c.month ≤ 31 := by
    unfold daysInMonth
    split_ifs <;> omega
  omega

/-- A date is in its month. -/
lemma dayOfMonth_lt (c : Civil) :
    daysBeforeMonth c.year c.month + (c.day - 1) <
      daysBeforeMonth c.year c.month + daysInMonth c.year c.month := by
  have := c.day_valid
  omega

/-- A date is in its year. -/
lemma dayOfYear_lt (c : Civil) :
    daysBeforeMonth c.year c.month + (c.day - 1) < daysInYear c.year := by
  rw [← daysBeforeMonth_thirteen]
  have hmonth := c.month_valid
  exact c.dayOfMonth_lt.trans_le (daysBeforeMonth_le hmonth.1 (by omega))

/-- Earlier dates have smaller day numbers. -/
lemma dayNumber_lt_of_fields {c d : Civil}
    (h : c.year < d.year ∨ c.year = d.year ∧
      (c.month < d.month ∨ c.month = d.month ∧ c.day < d.day)) :
    c.dayNumber < d.dayNumber := by
  unfold dayNumber
  rcases h with hyear | ⟨hyear, hmonth | ⟨hmonth, hday⟩⟩
  · have hc := c.dayOfYear_lt
    have := daysBeforeYear_le c.year_valid.1 hyear
    omega
  · have hc := c.dayOfMonth_lt
    have hbefore : daysBeforeMonth c.year c.month + daysInMonth c.year c.month ≤
        daysBeforeMonth c.year d.month := daysBeforeMonth_le c.month_valid.1 hmonth
    rw [← hyear]
    omega
  · have := c.day_valid
    rw [hyear, hmonth]
    omega

/-- The fields determine the date and the time. -/
lemma fields_injective {c d : Civil} (h : c.fields = d.fields) : c = d := by
  cases c
  cases d
  simp only [fields, List.cons.injEq] at h
  obtain ⟨rfl, rfl, rfl, rfl, rfl, rfl, rfl, -⟩ := h
  rfl

lemma fields_lt_iff {c d : Civil} :
    c.fields < d.fields ↔
      (c.year < d.year ∨ c.year = d.year ∧
        (c.month < d.month ∨ c.month = d.month ∧ c.day < d.day)) ∨
      (c.year = d.year ∧ c.month = d.month ∧ c.day = d.day ∧ c.timeOfDay < d.timeOfDay) := by
  have := c.minute_valid
  have := c.second_valid
  have := c.microsecond_valid
  have := d.minute_valid
  have := d.second_valid
  have := d.microsecond_valid
  have htime : c.timeOfDay < d.timeOfDay ↔
      c.hour < d.hour ∨ c.hour = d.hour ∧ (c.minute < d.minute ∨ c.minute = d.minute ∧
        (c.second < d.second ∨ c.second = d.second ∧ c.microsecond < d.microsecond)) := by
    unfold timeOfDay
    omega
  have hnil : ¬ ([] : List ℕ) < [] := List.not_lt_nil _
  have hlex : c.fields < d.fields ↔
      c.year < d.year ∨ c.year = d.year ∧ (c.month < d.month ∨ c.month = d.month ∧
        (c.day < d.day ∨ c.day = d.day ∧ c.timeOfDay < d.timeOfDay)) := by
    rw [htime]
    simp only [fields, List.cons_lt_cons_iff, hnil, and_false, or_false]
  rw [hlex]
  simp only [and_or_left, or_assoc]

lemma instant_lt_of_fields {c d : Civil} (h : c.fields < d.fields) : c.instant < d.instant := by
  unfold instant
  rcases fields_lt_iff.mp h with hday | ⟨hyear, hmonth, hday, htime⟩
  · have := dayNumber_lt_of_fields hday
    have := c.timeOfDay_lt
    omega
  · have hsame : c.dayNumber = d.dayNumber := by
      unfold dayNumber
      rw [hyear, hmonth, hday]
    omega

/-- **The order of instants** is that of the fields. -/
theorem instant_lt_iff {c d : Civil} : c.instant < d.instant ↔ c.fields < d.fields := by
  constructor
  · intro h
    rcases lt_trichotomy c.fields d.fields with hlt | heq | hgt
    · exact hlt
    · exact absurd h (fields_injective heq ▸ lt_irrefl _)
    · exact absurd (instant_lt_of_fields hgt) h.not_gt
  · exact instant_lt_of_fields

end Civil

end IssuesApi
