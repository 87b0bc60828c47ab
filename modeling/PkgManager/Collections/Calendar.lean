import Mathlib.Data.Nat.Find
import Mathlib.Tactic.Common

/-!
# The calendar

Dates of the proleptic Gregorian calendar, numbered from the first of January of the year 0.
Every number is the number of a date, and the days in front of a year have a closed form.
-/

namespace Calendar

/-!
# Years and months
-/

def IsLeap (year : Nat) : Prop :=
  year % 4 = 0 ∧ (year % 100 ≠ 0 ∨ year % 400 = 0)

instance (year : Nat) : Decidable (IsLeap year) :=
  inferInstanceAs (Decidable (_ ∧ _))

def yearLength (year : Nat) : Nat :=
  if IsLeap year then 366 else 365

def monthLength (year month : Nat) : Nat :=
  if month = 2 then (if IsLeap year then 29 else 28)
  else if month = 4 ∨ month = 6 ∨ month = 9 ∨ month = 11 then 30
  else 31

def daysBeforeYear : Nat -> Nat
  | 0 => 0
  | year + 1 => daysBeforeYear year + yearLength year

/-- The days of a year in front of the month behind a number of months. -/
def daysBeforeMonth (year : Nat) : Nat -> Nat
  | 0 => 0
  | months + 1 => daysBeforeMonth year months + monthLength year (months + 1)

theorem daysBeforeYear_eq (year : Nat) : daysBeforeYear year + (year + 99) / 100 =
    365 * year + (year + 3) / 4 + (year + 399) / 400 := by
  induction year with
  | zero => rfl
  | succ year ih =>
      rw [daysBeforeYear, yearLength]
      split
      · rename_i hleap
        unfold IsLeap at hleap
        omega
      · rename_i hleap
        unfold IsLeap at hleap
        omega

theorem daysBeforeMonth_twelve (year : Nat) : daysBeforeMonth year 12 = yearLength year := by
  by_cases hleap : IsLeap year
  · simp [daysBeforeMonth, monthLength, yearLength, hleap]
  · simp [daysBeforeMonth, monthLength, yearLength, hleap]

theorem monthLength_le (year month : Nat) : monthLength year month ≤ 31 := by
  unfold monthLength
  split_ifs <;> decide

theorem yearLength_pos (year : Nat) : 0 < yearLength year := by
  unfold yearLength
  split <;> decide

theorem daysBeforeYear_mono {a b : Nat} (h : a ≤ b) : daysBeforeYear a ≤ daysBeforeYear b := by
  induction h with
  | refl => exact Nat.le_refl _
  | step _ ih => exact Nat.le_trans ih (Nat.le_add_right _ _)

theorem daysBeforeMonth_mono {a b : Nat} (year : Nat) (h : a ≤ b) :
    daysBeforeMonth year a ≤ daysBeforeMonth year b := by
  induction h with
  | refl => exact Nat.le_refl _
  | step _ ih => exact Nat.le_trans ih (Nat.le_add_right _ _)

theorem le_daysBeforeYear (year : Nat) : year ≤ daysBeforeYear year := by
  induction year with
  | zero => exact Nat.le_refl 0
  | succ year ih => exact Nat.add_le_add ih (yearLength_pos year)

/-!
# Dates
-/

structure Date where
  year : Nat
  month : Nat
  day : Nat
  month_pos : 1 ≤ month
  month_le : month ≤ 12
  day_pos : 1 ≤ day
  day_le : day ≤ monthLength year month

/-- The days in front of the first of a month. -/
def firstOfMonth (year month : Nat) : Nat :=
  daysBeforeYear year + daysBeforeMonth year (month - 1)

def Date.number (x : Date) : Nat :=
  firstOfMonth x.year x.month + (x.day - 1)

/-- A date lies in its year. -/
theorem Date.number_lt (x : Date) : x.number < daysBeforeYear (x.year + 1) := by
  have hpos := x.month_pos
  have hday := x.day_le
  have hdaypos := x.day_pos
  have hnext : daysBeforeMonth x.year (x.month - 1) + monthLength x.year x.month =
      daysBeforeMonth x.year x.month := by
    obtain ⟨k, hk⟩ : exists k, x.month = k + 1 := ⟨x.month - 1, by omega⟩
    rw [hk]
    rfl
  have hyear := daysBeforeMonth_mono x.year x.month_le
  rw [daysBeforeMonth_twelve] at hyear
  rw [Date.number, firstOfMonth, daysBeforeYear]
  omega

/-- Where the days run out. -/
theorem findGreatest_between {before : Nat -> Nat} {n limit : Nat} (hzero : before 0 = 0)
    (hlimit : n < before (limit + 1)) :
    before (Nat.findGreatest (fun k => before k ≤ n) limit) ≤ n ∧
      n < before (Nat.findGreatest (fun k => before k ≤ n) limit + 1) := by
  constructor
  · exact Nat.findGreatest_spec (P := fun k => before k ≤ n) (Nat.zero_le limit)
      (Nat.le_trans (Nat.le_of_eq hzero) (Nat.zero_le n))
  · by_contra hmore
    have hle := Nat.findGreatest_le (P := fun k => before k ≤ n) limit
    rcases Nat.lt_or_ge (Nat.findGreatest (fun k => before k ≤ n) limit) limit with hlt | hge
    · exact Nat.findGreatest_is_greatest (Nat.lt_succ_self _) hlt (Nat.not_lt.mp hmore)
    · rw [Nat.le_antisymm hle hge] at hmore
      exact hmore hlimit

def yearOf (n : Nat) : Nat :=
  Nat.findGreatest (fun year => daysBeforeYear year ≤ n) n

/-- The months in front of a day of a year. -/
def monthsOf (year rest : Nat) : Nat :=
  Nat.findGreatest (fun months => daysBeforeMonth year months ≤ rest) 11

theorem yearOf_between (n : Nat) :
    daysBeforeYear (yearOf n) ≤ n ∧ n < daysBeforeYear (yearOf n) + yearLength (yearOf n) :=
  @findGreatest_between daysBeforeYear n n rfl
    (Nat.lt_of_lt_of_le (Nat.lt_succ_self n) (le_daysBeforeYear (n + 1)))

theorem monthsOf_between {year rest : Nat} (h : rest < yearLength year) :
    daysBeforeMonth year (monthsOf year rest) ≤ rest ∧
      rest < daysBeforeMonth year (monthsOf year rest) +
        monthLength year (monthsOf year rest + 1) :=
  @findGreatest_between (daysBeforeMonth year) rest 11 rfl (daysBeforeMonth_twelve year ▸ h)

/-- The day of the year that a number stands for. -/
def dayOfYear (n : Nat) : Nat :=
  n - daysBeforeYear (yearOf n)

theorem dayOfYear_lt (n : Nat) : dayOfYear n < yearLength (yearOf n) := by
  have h := yearOf_between n
  unfold dayOfYear
  omega

/-- The date with a number. -/
def ofNumber (n : Nat) : Date where
  year := yearOf n
  month := monthsOf (yearOf n) (dayOfYear n) + 1
  day := dayOfYear n - daysBeforeMonth (yearOf n) (monthsOf (yearOf n) (dayOfYear n)) + 1
  month_pos := Nat.le_add_left 1 _
  month_le := Nat.succ_le_succ (Nat.findGreatest_le 11)
  day_pos := Nat.le_add_left 1 _
  day_le := by
    have h := monthsOf_between (dayOfYear_lt n)
    omega

theorem number_ofNumber (n : Nat) : (ofNumber n).number = n := by
  have hyear := yearOf_between n
  have hmonth := monthsOf_between (dayOfYear_lt n)
  have hday : dayOfYear n = n - daysBeforeYear (yearOf n) := rfl
  change daysBeforeYear (yearOf n) + daysBeforeMonth (yearOf n)
    (monthsOf (yearOf n) (dayOfYear n) + 1 - 1) + (dayOfYear n -
      daysBeforeMonth (yearOf n) (monthsOf (yearOf n) (dayOfYear n)) + 1 - 1) = n
  rw [Nat.add_sub_cancel, Nat.add_sub_cancel]
  omega

/-!
# Instants
-/

/-- The number of the first of January 1970. -/
def epoch : Nat := 719528

theorem epoch_eq : daysBeforeYear 1970 = epoch := by
  have h := daysBeforeYear_eq 1970
  unfold epoch
  omega

structure Moment where
  date : Date
  hour : Nat
  minute : Nat
  second : Nat
  hour_lt : hour < 24
  minute_lt : minute < 60
  second_lt : second < 60

/-- The seconds from the beginning of 1970. -/
def Moment.instant (x : Moment) : Int :=
  86400 * ((x.date.number : Int) - epoch) + 3600 * x.hour + 60 * x.minute + x.second

/-- The moment with a number of seconds behind the beginning of 1970. -/
def ofInstant (t : Nat) : Moment where
  date := ofNumber (t / 86400 + epoch)
  hour := t % 86400 / 3600
  minute := t % 3600 / 60
  second := t % 60
  hour_lt := by omega
  minute_lt := by omega
  second_lt := Nat.mod_lt t (by decide)

theorem instant_ofInstant (t : Nat) : (ofInstant t).instant = t := by
  change 86400 * (((ofNumber (t / 86400 + epoch)).number : Int) - epoch) +
    3600 * ((t % 86400 / 3600 : Nat) : Int) + 60 * ((t % 3600 / 60 : Nat) : Int) +
      ((t % 60 : Nat) : Int) = t
  rw [number_ofNumber]
  omega

/-- The day of the week, from Sunday on. -/
def Date.weekday (x : Date) : Nat :=
  (x.number + 6) % 7

/-!
# Years from March on
-/

theorem firstOfMonth_spring {year month : Nat} (hpos : 3 ≤ month) (hle : month ≤ 12) :
    firstOfMonth year month + 306 =
      daysBeforeYear (year + 1) + (153 * (month - 3) + 2) / 5 := by
  have hmonths : daysBeforeMonth year (month - 1) + 306 =
      yearLength year + (153 * (month - 3) + 2) / 5 := by
    have hmonth : month = 3 ∨ month = 4 ∨ month = 5 ∨ month = 6 ∨ month = 7 ∨ month = 8 ∨
        month = 9 ∨ month = 10 ∨ month = 11 ∨ month = 12 := by omega
    by_cases hleap : IsLeap year
    · rcases hmonth with rfl | rfl | rfl | rfl | rfl | rfl | rfl | rfl | rfl | rfl <;>
        simp [daysBeforeMonth, monthLength, yearLength, hleap]
    · rcases hmonth with rfl | rfl | rfl | rfl | rfl | rfl | rfl | rfl | rfl | rfl <;>
        simp [daysBeforeMonth, monthLength, yearLength, hleap]
  rw [firstOfMonth, daysBeforeYear]
  omega

theorem firstOfMonth_winter {year month : Nat} (hpos : 1 ≤ month) (hle : month ≤ 2) :
    firstOfMonth year month + 306 = daysBeforeYear year + (153 * (month + 9) + 2) / 5 := by
  have hmonth : month = 1 ∨ month = 2 := by omega
  rcases hmonth with rfl | rfl
  · rfl
  · rfl

/-- Years in front of a March are counted in eras of 400. -/
theorem daysBeforeYear_eras (year : Nat) : daysBeforeYear (year + 1) =
    146097 * (year / 400) + (365 * (year % 400) + year % 400 / 4 - year % 400 / 100) + 366 := by
  have h := daysBeforeYear_eq (year + 1)
  omega

end Calendar
