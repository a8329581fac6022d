import Wintermute.Foundation.Blocks

/-!
# The Gregorian calendar

Years are blocks of days, and months are blocks of the days of a year, so that a date is a
place in the calendar and dates compare field by field.

Main results:

- Theorem {lit}`blockStart_monthLength`: the twelve months make up the year.
- Theorem {lit}`Date.Valid.daysSince_lt_iff`: dates compare as year, month and day.
- Theorem {lit}`DateTime.Valid.secondsSince_lt_iff`: times compare as their fields, the
  year first.
-/

namespace Foundation

open Finset

/-! ## Years, months and days -/

/-- Every fourth year, but of the centuries only every fourth. -/
def LeapYear (y : ℕ) : Prop :=
  4 ∣ y ∧ (100 ∣ y → 400 ∣ y)

instance : DecidablePred LeapYear :=
  fun y => inferInstanceAs (Decidable (4 ∣ y ∧ (100 ∣ y → 400 ∣ y)))

/-- The days of a year. -/
def yearLength (y : ℕ) : ℕ :=
  if LeapYear y then 366 else 365

/-- The days of a month, January being month one. -/
def monthLength (y m : ℕ) : ℕ :=
  if m = 2 then (if LeapYear y then 29 else 28)
  else if m = 4 ∨ m = 6 ∨ m = 9 ∨ m = 11 then 30
  else 31

theorem monthLength_le (y m : ℕ) : monthLength y m ≤ 31 := by
  unfold monthLength
  split_ifs <;> omega

/-- The months make up the year. -/
theorem blockStart_monthLength (y : ℕ) : blockStart (monthLength y) 1 13 = yearLength y := by
  unfold blockStart yearLength
  split_ifs with h <;> simp [sum_Ico_eq_sum_range, sum_range_succ, monthLength, h]

/-- A date of the calendar. -/
@[ext]
structure Date where
  year : ℕ
  month : ℕ
  day : ℕ
deriving DecidableEq, Repr

/-- The date exists. -/
structure Date.Valid (date : Date) : Prop where
  month_pos : 1 ≤ date.month
  month_le : date.month ≤ 12
  day_pos : 1 ≤ date.day
  day_le : date.day ≤ monthLength date.year date.month

/-- The days of the year before a date. -/
def Date.dayOfYear (date : Date) : ℕ :=
  blockStart (monthLength date.year) 1 date.month + (date.day - 1)

/-- The days from the first of January of the epoch to a date. -/
def Date.daysSince (epoch : ℕ) (date : Date) : ℕ :=
  blockStart yearLength epoch date.year + date.dayOfYear

namespace Date.Valid

variable {date date' : Date} {epoch : ℕ}

/-- A day of the month is a place in the year. -/
theorem located_month (h : date.Valid) :
    Located (monthLength date.year) 1 date.dayOfYear date.month (date.day - 1) where
  first_le := h.month_pos
  start_add := rfl
  lt_len := by
    have hday := h.day_le
    have hpos := h.day_pos
    omega

/-- A day of the year is a place in the calendar. -/
theorem located_year (h : date.Valid) (hepoch : epoch ≤ date.year) :
    Located yearLength epoch (date.daysSince epoch) date.year date.dayOfYear where
  first_le := hepoch
  start_add := rfl
  lt_len := by
    have hend := blockStart_add_le (monthLength date.year) h.month_pos
      (Nat.lt_succ_of_le h.month_le)
    have hmonth := h.located_month.lt_len
    rw [blockStart_monthLength] at hend
    rw [dayOfYear]
    omega

/-- Dates compare as year, month and day. -/
theorem daysSince_lt_iff (h : date.Valid) (h' : date'.Valid) (hepoch : epoch ≤ date.year)
    (hepoch' : epoch ≤ date'.year) :
    date.daysSince epoch < date'.daysSince epoch ↔
      date.year < date'.year ∨ date.year = date'.year ∧
        (date.month < date'.month ∨ date.month = date'.month ∧ date.day < date'.day) := by
  have hpos := h.day_pos
  have hpos' := h'.day_pos
  have hmonth : date.year = date'.year →
      (date.dayOfYear < date'.dayOfYear ↔
        date.month < date'.month ∨ date.month = date'.month ∧ date.day - 1 < date'.day - 1) := by
    intro hyear
    have hplace := h'.located_month
    rw [← hyear] at hplace
    exact h.located_month.lt_iff hplace
  rw [(h.located_year hepoch).lt_iff (h'.located_year hepoch')]
  apply or_congr_right
  apply and_congr_right
  intro hyear
  rw [hmonth hyear]
  omega

end Date.Valid

/-! ## Dates with a time of day -/

/-- A date and a time of day. -/
@[ext]
structure DateTime extends Date where
  hour : ℕ
  minute : ℕ
  second : ℕ
deriving DecidableEq, Repr

namespace DateTime

/-- The date exists, and the time of day does. -/
structure Valid (t : DateTime) : Prop where
  date : t.toDate.Valid
  hour_lt : t.hour < 24
  minute_lt : t.minute < 60
  second_lt : t.second < 60

/-- The seconds from the start of the epoch. -/
def secondsSince (epoch : ℕ) (t : DateTime) : ℕ :=
  t.toDate.daysSince epoch * 86400 + t.hour * 3600 + t.minute * 60 + t.second

/-- The fields, the year first. -/
def fields (t : DateTime) : List ℕ :=
  [t.year, t.month, t.day, t.hour, t.minute, t.second]

theorem fields_injective : Function.Injective fields := by
  intro t t' h
  simp only [fields, List.cons.injEq, and_true] at h
  ext <;> simp only [h]

/-- Times compare as their fields. -/
theorem Valid.secondsSince_lt_iff {t t' : DateTime} {epoch : ℕ} (h : t.Valid) (h' : t'.Valid)
    (hepoch : epoch ≤ t.year) (hepoch' : epoch ≤ t'.year) :
    t.secondsSince epoch < t'.secondsSince epoch ↔ t.fields < t'.fields := by
  have hdate := h.date.daysSince_lt_iff h'.date hepoch hepoch'
  have hdate' := h'.date.daysSince_lt_iff h.date hepoch' hepoch
  have hhour := h.hour_lt
  have hhour' := h'.hour_lt
  have hminute := h.minute_lt
  have hminute' := h'.minute_lt
  have hsecond := h.second_lt
  have hsecond' := h'.second_lt
  simp only [fields, List.cons_lt_cons_iff, List.not_lt_nil, and_false, or_false, secondsSince]
  omega

end DateTime

end Foundation
