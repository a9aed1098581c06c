import Mathlib.Data.Int.Notation
import Mathlib.Data.Nat.Find
import Mathlib.Tactic.Common
import Mathlib.Tactic.IntervalCases

/-!
# The proleptic Gregorian calendar

Dates of any year, before and after the introduction of the calendar, with a year 0. A date has the number of
its day, counted from the first of January 1970, and every day is that of exactly one date.
-/

namespace SensorLink.Lib.Gregorian

def isLeap (year : ℤ) : Bool := year % 4 = 0 ∧ (year % 100 ≠ 0 ∨ year % 400 = 0)

/-- The number of days of a month, from 1 to 12 -/
def monthLength (year : ℤ) : ℕ → ℕ
  | 2 => if isLeap year then 29 else 28
  | 4 | 6 | 9 | 11 => 30
  | 1 | 3 | 5 | 7 | 8 | 10 | 12 => 31
  | _ => 0

/-- The number of the first of January -/
def yearStart (year : ℤ) : ℤ :=
  365 * year + (year + 3) / 4 - (year + 99) / 100 + (year + 399) / 400 - 719528

/-- The days of a year before a month -/
def daysBefore (year : ℤ) : ℕ → ℕ
  | 0 => 0
  | month + 1 => daysBefore year month + monthLength year month

/-- A month, and a day that it has -/
structure Date where
  year : ℤ
  month : ℕ
  day : ℕ
  month_pos : 1 ≤ month
  month_le : month ≤ 12
  day_pos : 1 ≤ day
  day_le : day ≤ monthLength year month
deriving DecidableEq

/-- The first day of a month -/
def monthStart (year : ℤ) (month : ℕ) : ℤ := yearStart year + daysBefore year month

/-- The number of a date -/
def Date.dayNumber (date : Date) : ℤ := monthStart date.year date.month + (date.day - 1 : ℕ)

/-! ### Years and months -/

section Months

variable {year year' : ℤ} {month month' : ℕ}

lemma yearStart_add_one (year : ℤ) : yearStart (year + 1) = yearStart year + daysBefore year 13 := by
  have hlength : daysBefore year 13 = if isLeap year then 366 else 365 := by
    cases h : isLeap year <;> simp [daysBefore, monthLength, h]
  rw [hlength]
  unfold yearStart isLeap
  split <;> rename_i h <;> simp only [decide_eq_true_eq] at h <;> omega

lemma yearStart_lt (h : year < year') : yearStart year < yearStart year' := by
  unfold yearStart
  omega

lemma daysBefore_mono (year : ℤ) (h : month ≤ month') : daysBefore year month ≤ daysBefore year month' := by
  induction month', h using Nat.le_induction with
  | base => exact le_rfl
  | succ month' _ ih => exact ih.trans (Nat.le_add_right _ _)

lemma le_monthLength (year : ℤ) (hpos : 1 ≤ month) (hle : month ≤ 12) : 28 ≤ monthLength year month := by
  interval_cases month <;> simp only [monthLength] <;> first | omega | split <;> omega

/-- The first of January follows the thirty-first of December. -/
lemma monthStart_thirteen (year : ℤ) : monthStart year 13 = monthStart (year + 1) 1 := by
  unfold monthStart
  rw [yearStart_add_one]
  simp [daysBefore, monthLength]

lemma monthStart_succ (year : ℤ) (month : ℕ) :
    monthStart year (month + 1) = monthStart year month + monthLength year month := by
  unfold monthStart
  rw [daysBefore]
  push_cast
  omega

/-- Every month begins on the day after the last one of another month. -/
lemma exists_monthStart_eq (year : ℤ) (hpos : 1 ≤ month) (hle : month ≤ 12) :
    ∃ year' month', 1 ≤ month' ∧ month' ≤ 12 ∧
      monthStart year month = monthStart year' month' + monthLength year' month' := by
  rcases Nat.lt_or_ge 1 month with hlt | hge
  · refine ⟨year, month - 1, by omega, by omega, ?_⟩
    rw [← monthStart_succ, Nat.sub_add_cancel hpos]
  · obtain rfl : month = 1 := by omega
    refine ⟨year - 1, 12, by omega, by omega, ?_⟩
    rw [← monthStart_succ, monthStart_thirteen, Int.sub_add_cancel]

end Months

/-! ### Dates -/

namespace Date

variable (date : Date)

lemma monthStart_le : monthStart date.year date.month ≤ date.dayNumber := by
  unfold dayNumber
  omega

lemma dayNumber_lt : date.dayNumber < monthStart date.year (date.month + 1) := by
  have hpos := date.day_pos
  have hle := date.day_le
  rw [monthStart_succ]
  unfold dayNumber
  omega

lemma yearStart_le : yearStart date.year ≤ date.dayNumber := by
  have hle := date.monthStart_le
  unfold monthStart at hle
  omega

lemma dayNumber_lt_yearStart : date.dayNumber < yearStart (date.year + 1) := by
  have hlt := date.dayNumber_lt
  have hmono : daysBefore date.year (date.month + 1) ≤ daysBefore date.year 13 :=
    daysBefore_mono date.year (Nat.add_le_add_right date.month_le 1)
  rw [yearStart_add_one]
  unfold monthStart at hlt
  omega

/-- A month of a day from the epoch on begins from the epoch on. -/
lemma monthStart_nonneg (h : 0 ≤ date.dayNumber) : 0 ≤ monthStart date.year date.month := by
  have hlt := date.dayNumber_lt_yearStart
  have hyear : 1970 ≤ date.year := by
    by_contra hbefore
    rcases (Int.add_one_le_iff.mpr (Int.not_le.mp hbefore)).lt_or_eq with hyear | hyear
    · have hstart : yearStart (date.year + 1) < yearStart 1970 := yearStart_lt hyear
      have hepoch : yearStart 1970 = 0 := by decide
      omega
    · rw [hyear] at hlt
      exact absurd h (Int.not_le.mpr hlt)
  unfold monthStart yearStart
  omega

variable {date} {other : Date}

lemma year_le_of_dayNumber_eq (h : date.dayNumber = other.dayNumber) : date.year ≤ other.year := by
  by_contra hlt
  have hstart := date.yearStart_le
  have hend := other.dayNumber_lt_yearStart
  rcases (Int.add_one_le_iff.mpr (Int.not_le.mp hlt)).lt_or_eq with hyear | hyear
  · have := yearStart_lt hyear
    omega
  · rw [hyear] at hend
    omega

lemma month_le_of_dayNumber_eq (hyear : date.year = other.year) (h : date.dayNumber = other.dayNumber) :
    date.month ≤ other.month := by
  by_contra hlt
  have hstart := date.monthStart_le
  have hend := other.dayNumber_lt
  have hmono := daysBefore_mono other.year (Nat.add_one_le_iff.mpr (Nat.not_le.mp hlt))
  unfold monthStart at hstart hend
  rw [hyear] at hstart
  omega

/-- **A day has one date.** -/
theorem dayNumber_inj (h : date.dayNumber = other.dayNumber) : date = other := by
  have hyear : date.year = other.year :=
    le_antisymm (year_le_of_dayNumber_eq h) (year_le_of_dayNumber_eq h.symm)
  have hmonth : date.month = other.month :=
    le_antisymm (month_le_of_dayNumber_eq hyear h) (month_le_of_dayNumber_eq hyear.symm h.symm)
  have hday : date.day = other.day := by
    have hpos := date.day_pos
    have hpos' := other.day_pos
    unfold dayNumber at h
    rw [hyear, hmonth] at h
    omega
  cases date
  cases other
  simp_all

end Date

lemma firstDay_pos : 1 ≤ 1 := le_rfl

/-- The first day of a month -/
def firstOf (year : ℤ) (month : ℕ) (hpos : 1 ≤ month) (hle : month ≤ 12) : Date where
  year := year
  month := month
  day := 1
  month_pos := hpos
  month_le := hle
  day_pos := firstDay_pos
  day_le := le_trans (by decide) (le_monthLength year hpos hle)

@[simp] lemma dayNumber_firstOf (year : ℤ) (month : ℕ) (hpos : 1 ≤ month) (hle : month ≤ 12) :
    (firstOf year month hpos hle).dayNumber = monthStart year month := by
  simp [Date.dayNumber, firstOf]

section First

variable {date : Date} {year : ℤ} {month : ℕ}

/-- The day before a month is one of the last of its month. -/
lemma Date.le_day_of_dayNumber (hpos : 1 ≤ month) (hle : month ≤ 12)
    (h : date.dayNumber = monthStart year month - 1) : 28 ≤ date.day := by
  obtain ⟨year', month', hpos', hle', hstart⟩ := exists_monthStart_eq year hpos hle
  have hlength := le_monthLength year' hpos' hle'
  have hlast : date = ⟨year', month', monthLength year' month', hpos', hle', by omega, le_rfl⟩ := by
    refine dayNumber_inj ?_
    rw [h, hstart]
    unfold dayNumber
    dsimp only
    omega
  rw [hlast]
  exact hlength

end First

/-! ### The date of a day -/

section OfDayNumber

/-- The year of a day: the quotient is that year or one next to it. -/
def yearOf (n : ℤ) : ℤ :=
  let year := (400 * (n + 719528)) / 146097
  if n < yearStart year then year - 1 else if yearStart (year + 1) ≤ n then year + 1 else year

lemma yearOf_spec (n : ℤ) : yearStart (yearOf n) ≤ n ∧ n < yearStart (yearOf n + 1) := by
  unfold yearOf
  dsimp only
  set year := (400 * (n + 719528)) / 146097 with hyear
  by_cases hbefore : n < yearStart year
  · rw [if_pos hbefore, Int.sub_add_cancel]
    refine ⟨?_, hbefore⟩
    unfold yearStart
    omega
  · rw [if_neg hbefore]
    by_cases hafter : yearStart (year + 1) ≤ n
    · rw [if_pos hafter]
      refine ⟨hafter, ?_⟩
      unfold yearStart
      omega
    · rw [if_neg hafter]
      exact ⟨Int.not_lt.mp hbefore, Int.not_le.mp hafter⟩

/-- The month of a day of a year -/
def monthOf (year : ℤ) (r : ℕ) : ℕ := Nat.findGreatest (fun month => daysBefore year month ≤ r) 12

lemma monthOf_spec (year : ℤ) {r : ℕ} (h : r < daysBefore year 13) :
    1 ≤ monthOf year r ∧ monthOf year r ≤ 12 ∧ daysBefore year (monthOf year r) ≤ r ∧
      r < daysBefore year (monthOf year r + 1) := by
  have hle : monthOf year r ≤ 12 := Nat.findGreatest_le 12
  have hone : daysBefore year 1 ≤ r := Nat.zero_le r
  refine ⟨Nat.le_findGreatest (by decide) hone, hle,
    Nat.findGreatest_spec (P := fun month => daysBefore year month ≤ r) (by decide) hone, ?_⟩
  rcases hle.lt_or_eq with hlt | heq
  · refine Nat.not_le.mp ?_
    exact Nat.findGreatest_is_greatest (P := fun month => daysBefore year month ≤ r) (Nat.lt_succ_self _) hlt
  · rw [heq]
    exact h

/-- The date of a day -/
def ofDayNumber (n : ℤ) : Date :=
  let year := yearOf n
  let r := (n - yearStart year).toNat
  have hr : r < daysBefore year 13 := by
    obtain ⟨hle, hlt⟩ := yearOf_spec n
    rw [yearStart_add_one] at hlt
    exact (Int.toNat_lt (Int.sub_nonneg.mpr hle)).mpr (Int.sub_left_lt_of_lt_add hlt)
  { year := year
    month := monthOf year r
    day := r - daysBefore year (monthOf year r) + 1
    month_pos := (monthOf_spec year hr).1
    month_le := (monthOf_spec year hr).2.1
    day_pos := Nat.le_add_left _ _
    day_le := by
      obtain ⟨-, -, hle, hlt⟩ := monthOf_spec year hr
      rw [daysBefore] at hlt
      omega }

/-- **Every day has a date.** -/
theorem dayNumber_ofDayNumber (n : ℤ) : (ofDayNumber n).dayNumber = n := by
  obtain ⟨hle, hlt⟩ := yearOf_spec n
  rw [yearStart_add_one] at hlt
  obtain ⟨-, -, hle', -⟩ := monthOf_spec (yearOf n) (r := (n - yearStart (yearOf n)).toNat) (by omega)
  unfold Date.dayNumber ofDayNumber monthStart
  dsimp only
  omega

/-- The twenty-ninth of February 2000 -/
example : ((ofDayNumber 11016).year, (ofDayNumber 11016).month, (ofDayNumber 11016).day) = (2000, 2, 29) := by
  decide

end OfDayNumber

end SensorLink.Lib.Gregorian
