import Mathlib.Data.List.Basic
import Mathlib.Order.Basic

/-!
# Dates of the calendar

* `DateTime` : a date with a time of day, in a month that has the day; a minute may have a leap second;
* `DateTime.minutes` : the minutes since the start of the year 0, counted through the calendar;
* `DateTime.Before` : the chronological order, by the minute and then by the second in it;
* **`before_iff`** : it is the order of the fields, the year first;
* `DateTime.seconds` : the seconds since 1970, every day with as many; `seconds_le`, `seconds_lt` :
  how they compare in different years; `seconds_bounds` : how many there are.
-/

namespace Calendar

def IsLeap (year : Nat) : Prop := year % 4 = 0 ∧ year % 100 ≠ 0 ∨ year % 400 = 0

instance (year : Nat) : Decidable (IsLeap year) := inferInstanceAs (Decidable (_ ∨ _))

def daysInMonth (year month : Nat) : Nat :=
  if month = 2 then if IsLeap year then 29 else 28
  else if month = 4 ∨ month = 6 ∨ month = 9 ∨ month = 11 then 30 else 31

/-- The days of the year before the first of the month, where January is 1. -/
def daysBeforeMonth (year : Nat) : Nat → Nat
  | 0 => 0
  | 1 => 0
  | month + 2 => daysBeforeMonth year (month + 1) + daysInMonth year (month + 1)

/-- The days before the first of January, from the year 0 on. -/
def daysBeforeYear : Nat → Nat
  | 0 => 0
  | year + 1 => daysBeforeYear year + daysBeforeMonth year 13

/-- A date of the calendar and a time of that day. -/
structure DateTime where
  year : Nat
  month : Nat
  day : Nat
  hour : Nat
  minute : Nat
  second : Nat
  month_pos : 1 ≤ month
  month_le : month ≤ 12
  day_pos : 1 ≤ day
  day_le : day ≤ daysInMonth year month
  hour_lt : hour < 24
  minute_lt : minute < 60
  second_le : second ≤ 60
  deriving DecidableEq

namespace DateTime

/-- The whole days before the date. -/
def days (d : DateTime) : Nat := daysBeforeYear d.year + daysBeforeMonth d.year d.month + (d.day - 1)

def minutes (d : DateTime) : Nat := d.days * 1440 + d.hour * 60 + d.minute

/-- The chronological order. A leap second is the last one of its minute. -/
def Before (d e : DateTime) : Prop := d.minutes < e.minutes ∨ d.minutes = e.minutes ∧ d.second < e.second

instance (d e : DateTime) : Decidable (d.Before e) := inferInstanceAs (Decidable (_ ∨ _))

def fields (d : DateTime) : List Nat := [d.year, d.month, d.day, d.hour, d.minute, d.second]

/-- The seconds since the start of 1970, every day with as many; a leap second is the first one behind it. -/
@[irreducible] def seconds (d : DateTime) : Int := d.minutes * 60 + d.second - daysBeforeYear 1970 * 86400

end DateTime

/-! ## The days of a year -/

theorem daysBeforeMonth_succ {year month : Nat} (h : 1 ≤ month) :
    daysBeforeMonth year (month + 1) = daysBeforeMonth year month + daysInMonth year month := by
  cases month with
  | zero => exact absurd h (by decide)
  | succ month => rfl

theorem daysBeforeMonth_mono {year month month' : Nat} (h : month ≤ month') :
    daysBeforeMonth year month ≤ daysBeforeMonth year month' := by
  induction h with
  | refl => exact Nat.le_refl _
  | @step m h ih =>
    apply Nat.le_trans ih
    cases m with
    | zero => exact Nat.zero_le _
    | succ m =>
      rw [daysBeforeMonth_succ (Nat.succ_pos m)]
      exact Nat.le_add_right _ _

theorem daysBeforeYear_mono {year year' : Nat} (h : year ≤ year') :
    daysBeforeYear year ≤ daysBeforeYear year' := by
  induction h with
  | refl => exact Nat.le_refl _
  | step h ih => exact Nat.le_trans ih (Nat.le_add_right _ _)

theorem daysInMonth_le (year month : Nat) : daysInMonth year month ≤ 31 := by
  unfold daysInMonth
  split
  · split <;> decide
  · split <;> decide

namespace DateTime
variable {d e : DateTime}

theorem day_le_31 (d : DateTime) : d.day ≤ 31 := Nat.le_trans d.day_le (daysInMonth_le d.year d.month)

/-- The date lies before the first of a later month. -/
theorem days_lt_of_month_lt (h : d.month < e.month) (hyear : d.year = e.year) : d.days < e.days := by
  have hday := d.day_le
  have hpos := d.day_pos
  have hmonth : daysBeforeMonth d.year (d.month + 1) ≤ daysBeforeMonth d.year e.month := daysBeforeMonth_mono h
  rw [daysBeforeMonth_succ d.month_pos] at hmonth
  unfold days
  rw [← hyear]
  omega

theorem days_lt_of_year_lt (h : d.year < e.year) : d.days < e.days := by
  have hday := d.day_le
  have hpos := d.day_pos
  have hmonth : daysBeforeMonth d.year (d.month + 1) ≤ daysBeforeMonth d.year 13 :=
    daysBeforeMonth_mono (Nat.succ_le_succ d.month_le)
  have hyear : daysBeforeYear d.year + daysBeforeMonth d.year 13 ≤ daysBeforeYear e.year := daysBeforeYear_mono h
  rw [daysBeforeMonth_succ d.month_pos] at hmonth
  unfold days
  omega

theorem minutes_lt_of_days_lt (h : d.days < e.days) : d.minutes < e.minutes := by
  have hhour := d.hour_lt
  have hminute := d.minute_lt
  unfold minutes
  omega

theorem fields_lt_iff : d.fields < e.fields ↔
    d.year < e.year ∨ d.year = e.year ∧ (d.month < e.month ∨ d.month = e.month ∧
      (d.day < e.day ∨ d.day = e.day ∧ (d.hour < e.hour ∨ d.hour = e.hour ∧
        (d.minute < e.minute ∨ d.minute = e.minute ∧ d.second < e.second)))) := by
  simp [fields, List.cons_lt_cons_iff]

theorem before_of_fields_lt (h : d.fields < e.fields) : d.Before e := by
  have hhour := d.hour_lt
  have hminute := d.minute_lt
  have hpos := d.day_pos
  rcases fields_lt_iff.mp h with hyear | ⟨hyear, hmonth | ⟨hmonth, h⟩⟩
  · exact Or.inl (minutes_lt_of_days_lt (days_lt_of_year_lt hyear))
  · exact Or.inl (minutes_lt_of_days_lt (days_lt_of_month_lt hmonth hyear))
  · unfold Before minutes days
    rw [hyear, hmonth]
    omega

theorem fields_trichotomy (d e : DateTime) : d.fields < e.fields ∨ d.fields = e.fields ∨ e.fields < d.fields := by
  rw [fields_lt_iff, fields_lt_iff]
  simp only [fields, List.cons.injEq, and_true]
  omega

theorem fields_inj (h : d.fields = e.fields) : d = e := by
  cases d
  cases e
  simpa [fields] using h

theorem Before.asymm (h : d.Before e) : ¬ e.Before d := by
  unfold Before at *
  omega

/-- **The chronological order is the order of the fields.** -/
theorem before_iff : d.Before e ↔ d.fields < e.fields := by
  refine ⟨fun h => ?_, before_of_fields_lt⟩
  rcases fields_trichotomy d e with hlt | heq | hgt
  · exact hlt
  · obtain rfl := fields_inj heq
    exact absurd h h.asymm
  · exact absurd h (before_of_fields_lt hgt).asymm

/-- The start of the year. -/
def newYear (year : Nat) : DateTime :=
  ⟨year, 1, 1, 0, 0, 0, by decide, by decide, by decide, Nat.succ_le_succ (Nat.zero_le 30), by decide, by decide,
    by decide⟩

theorem seconds_le (h : d.year < e.year) : d.seconds ≤ e.seconds := by
  have hminutes := minutes_lt_of_days_lt (days_lt_of_year_lt h)
  have hsecond := d.second_le
  unfold seconds
  omega

/-- The start of a year between them keeps even a leap second apart from the later date. -/
theorem seconds_lt (h : d.year + 1 < e.year) : d.seconds < e.seconds := by
  have hfirst : d.seconds ≤ (newYear (d.year + 1)).seconds := seconds_le (Nat.lt_succ_self d.year)
  have hlast : (newYear (d.year + 1)).minutes < e.minutes := minutes_lt_of_days_lt (days_lt_of_year_lt h)
  have hsecond : (newYear (d.year + 1)).second = 0 := rfl
  unfold seconds at hfirst ⊢
  omega

theorem daysBeforeMonth_thirteen (year : Nat) :
    365 ≤ daysBeforeMonth year 13 ∧ daysBeforeMonth year 13 ≤ 366 := by
  have hmonths : daysBeforeMonth year 13 =
      0 + 31 + daysInMonth year 2 + 31 + 30 + 31 + 30 + 31 + 31 + 30 + 31 + 30 + 31 := rfl
  have hfebruary : 28 ≤ daysInMonth year 2 ∧ daysInMonth year 2 ≤ 29 := by
    unfold daysInMonth
    split <;> split <;> omega
  omega

theorem daysBeforeYear_bounds (year : Nat) : 365 * year ≤ daysBeforeYear year ∧ daysBeforeYear year ≤ 366 * year := by
  induction year with
  | zero => exact ⟨Nat.le_refl _, Nat.le_refl _⟩
  | succ year ih =>
    have hyear := daysBeforeMonth_thirteen year
    rw [daysBeforeYear]
    omega

theorem seconds_bounds (d : DateTime) :
    (365 * d.year - 366 * 1970) * 86400 ≤ d.seconds ∧ d.seconds ≤ (366 * (d.year + 1) - 365 * 1970) * 86400 := by
  have hdays : d.days < (newYear (d.year + 1)).days := days_lt_of_year_lt (Nat.lt_succ_self d.year)
  have hnext : (newYear (d.year + 1)).days = daysBeforeYear (d.year + 1) := rfl
  have hyear := (daysBeforeYear_bounds d.year).1
  have hnextYear := (daysBeforeYear_bounds (d.year + 1)).2
  have hepoch := daysBeforeYear_bounds 1970
  have hfirst : daysBeforeYear d.year ≤ d.days := by
    unfold days
    omega
  have hhour := d.hour_lt
  have hminute := d.minute_lt
  have hsecond := d.second_le
  unfold seconds minutes
  omega

end DateTime

end Calendar
