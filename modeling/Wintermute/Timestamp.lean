import Wintermute.Clock
import Wintermute.Foundation.Calendar
import Wintermute.Foundation.Columns
import Wintermute.Text

/-!
# Timestamps

The readiness report carries the time in UTC.  The date comes from the days since the
epoch by two loops, one that takes off whole years and one that takes off whole months.
The year is at most 1970 and the number of days, so that naturals stand for the numbers of
64 bits.

Main results:

- Theorems {lit}`yearLoop_located` and {lit}`monthLoop_located`: where the two loops end.
- Theorem {lit}`timestampFields_spec`: the fields are a valid time, and it is the given
  number of seconds after the epoch.
- Theorem {lit}`utcTimestamp_names_instant`: distinct instants have distinct timestamps,
  and up to the year 9999 timestamps sort as the instants.
-/

namespace Wintermute

open Foundation

/-! ## The code -/

/-- {lit}`is_leap`. -/
def isLeap (y : ℕ) : Bool :=
  (y % 4 == 0 && y % 100 != 0) || y % 400 == 0

/-- The days of a year, as the loop counts them. -/
def ydays (y : ℕ) : ℕ :=
  if isLeap y then 366 else 365

theorem ydays_pos (y : ℕ) : 0 < ydays y := by
  unfold ydays
  split_ifs <;> omega

/-- The first loop of {lit}`days_to_ymd`: the days left and the year. -/
def yearLoop (days y : ℕ) : ℕ × ℕ :=
  if days < ydays y then (days, y) else yearLoop (days - ydays y) (y + 1)
termination_by days
decreasing_by
  have hpos := ydays_pos y
  omega

/-- The second loop of {lit}`days_to_ymd`: the days left and the month. -/
def monthLoop (days mo : ℕ) : List ℕ → ℕ × ℕ
  | [] => (days, mo)
  | md :: monthDays =>
      if days < md then (days, mo) else monthLoop (days - md) (mo + 1) monthDays

/-- The lengths of the months. -/
def monthDays (leap : Bool) : List ℕ :=
  if leap then [31, 29, 31, 30, 31, 30, 31, 31, 30, 31, 30, 31]
  else [31, 28, 31, 30, 31, 30, 31, 31, 30, 31, 30, 31]

/-- {lit}`days_to_ymd`. -/
def daysToYmd (days : ℕ) : ℕ × ℕ × ℕ :=
  let (days, y) := yearLoop days 1970
  let (days, mo) := monthLoop days 1 (monthDays (isLeap y))
  (y, mo, days + 1)

/-- The fields of a timestamp. -/
def timestampFields (secs : ℕ) : DateTime :=
  let (days, rem) := (secs / 86400, secs % 86400)
  let (h, rem2) := (rem / 3600, rem % 3600)
  let (m, s) := (rem2 / 60, rem2 % 60)
  let (year, month, day) := daysToYmd days
  { year := year, month := month, day := day, hour := h, minute := m, second := s }

/-- {lit}`utc_timestamp` at a time since the epoch; there is none when the clock is set to
a time before it. -/
def utcTimestamp (sinceEpoch : Option Duration) : Str :=
  let t := timestampFields (sinceEpoch.elim 0 Duration.asSecs)
  padded 4 t.year ++ "-".toList ++ padded 2 t.month ++ "-".toList ++ padded 2 t.day ++
    "T".toList ++ padded 2 t.hour ++ ":".toList ++ padded 2 t.minute ++ ":".toList ++
    padded 2 t.second ++ "Z".toList

/-! ## The date -/

theorem isLeap_iff (y : ℕ) : isLeap y = true ↔ LeapYear y := by
  simp only [isLeap, Bool.or_eq_true, Bool.and_eq_true, beq_iff_eq, bne_iff_ne, LeapYear]
  omega

theorem ydays_eq (y : ℕ) : ydays y = yearLength y := by
  simp only [ydays, isLeap_iff, yearLength]

/-- The table has the months of the year in order. -/
theorem monthDays_eq (y : ℕ) :
    monthDays (isLeap y) = (List.range' 1 12).map (monthLength y) := by
  unfold monthDays
  by_cases hleap : LeapYear y
  · rw [if_pos ((isLeap_iff y).mpr hleap)]
    simp [List.range', monthLength, hleap]
  · rw [if_neg (mt (isLeap_iff y).mp hleap)]
    simp [List.range', monthLength, hleap]

/-- The year loop ends in the year of the day, with the days of that year left. -/
theorem yearLoop_located (days y : ℕ) :
    Located yearLength y days (yearLoop days y).2 (yearLoop days y).1 := by
  fun_induction yearLoop days y with
  | case1 days y hlt =>
      rw [ydays_eq] at hlt
      exact Located.here hlt
  | case2 days y hge ih =>
      rw [ydays_eq, not_lt] at hge
      rw [ydays_eq] at ih ⊢
      exact Located.later hge ih

/-- The month loop ends in the month of the day, with the days of that month left. -/
theorem monthLoop_located {len : ℕ → ℕ} {days mo count : ℕ}
    (hdays : days < blockStart len mo (mo + count)) :
    Located len mo days (monthLoop days mo ((List.range' mo count).map len)).2
        (monthLoop days mo ((List.range' mo count).map len)).1 ∧
      (monthLoop days mo ((List.range' mo count).map len)).2 < mo + count := by
  induction count generalizing days mo with
  | zero => simp at hdays
  | succ count ih =>
      rw [List.range'_succ, List.map_cons, monthLoop]
      split_ifs with hlt
      · exact ⟨Located.here hlt, by omega⟩
      · have hge : len mo ≤ days := not_lt.mp hlt
        have hrest : days - len mo < blockStart len (mo + 1) (mo + 1 + count) := by
          have hsucc : mo + (count + 1) = mo + 1 + count := by omega
          rw [hsucc, blockStart_first (by omega)] at hdays
          omega
        obtain ⟨hplace, hend⟩ := ih hrest
        exact ⟨Located.later hge hplace, by omega⟩

/-- A day since the epoch, as its year, its month and its day of the month. -/
theorem daysToYmd_spec (days : ℕ) :
    ∃ date : Date, daysToYmd days = (date.year, date.month, date.day) ∧ date.Valid ∧
      1970 ≤ date.year ∧ date.daysSince 1970 = days := by
  have hyear := yearLoop_located days 1970
  generalize hloop : yearLoop days 1970 = loop at hyear
  obtain ⟨left, y⟩ := loop
  have hleft : left < blockStart (monthLength y) 1 (1 + 12) := by
    rw [blockStart_monthLength]
    exact hyear.lt_len
  have hmonth := monthLoop_located hleft
  rw [← monthDays_eq] at hmonth
  generalize hrest : monthLoop left 1 (monthDays (isLeap y)) = rest at hmonth
  obtain ⟨day, mo⟩ := rest
  obtain ⟨hplace, hend⟩ := hmonth
  refine ⟨{ year := y, month := mo, day := day + 1 }, ?_, ?_, hyear.first_le, ?_⟩
  · simp only [daysToYmd, hloop, hrest]
  · exact
      { month_pos := hplace.first_le
        month_le := Nat.le_of_lt_succ hend
        day_pos := Nat.succ_pos day
        day_le := hplace.lt_len }
  · rw [Date.daysSince, Date.dayOfYear, Nat.add_sub_cancel, hplace.start_add, hyear.start_add]

/-! ## The instant -/

/-- The fields are a valid time since 1970, which is the given number of seconds after the
start of 1970. -/
theorem timestampFields_spec (secs : ℕ) :
    (timestampFields secs).Valid ∧ 1970 ≤ (timestampFields secs).year ∧
      (timestampFields secs).secondsSince 1970 = secs := by
  obtain ⟨date, hymd, hvalid, hepoch, hdays⟩ := daysToYmd_spec (secs / 86400)
  have hfields : timestampFields secs =
      { date with
        hour := secs % 86400 / 3600
        minute := secs % 86400 % 3600 / 60
        second := secs % 86400 % 3600 % 60 } := by
    simp only [timestampFields, hymd]
  rw [hfields]
  refine ⟨⟨hvalid, ?_, ?_, ?_⟩, hepoch, ?_⟩
  · dsimp only
    omega
  · dsimp only
    omega
  · dsimp only
    omega
  · rw [DateTime.secondsSince, hdays]
    dsimp only
    omega

/-! ## The text -/

/-- The columns of a timestamp. -/
def timestampColumns : List Column :=
  [{ width := 4, mark := '-', width_pos := by omega, mark_not_digit := rfl },
   { width := 2, mark := '-', width_pos := by omega, mark_not_digit := rfl },
   { width := 2, mark := 'T', width_pos := by omega, mark_not_digit := rfl },
   { width := 2, mark := ':', width_pos := by omega, mark_not_digit := rfl },
   { width := 2, mark := ':', width_pos := by omega, mark_not_digit := rfl },
   { width := 2, mark := 'Z', width_pos := by omega, mark_not_digit := rfl }]

/-- The format string writes the fields in columns. -/
theorem utcTimestamp_eq_render (d : Duration) :
    utcTimestamp (some d) = render timestampColumns (timestampFields d.asSecs).fields := by
  simp [utcTimestamp, render, timestampColumns, DateTime.fields]

/-- Up to the year 9999 every field fits its column. -/
theorem fits_of_year_le {t : DateTime} (h : t.Valid) (hyear : t.year ≤ 9999) :
    Fits timestampColumns t.fields := by
  have hmonth := h.date.month_le
  have hday := h.date.day_le.trans (monthLength_le t.year t.month)
  have hhour := h.hour_lt
  have hminute := h.minute_lt
  have hsecond := h.second_lt
  simp only [Fits, timestampColumns, DateTime.fields, List.forall₂_cons, List.forall₂_nil_left_iff,
    and_true]
  omega

/-- Distinct instants have distinct timestamps, whatever the year. -/
theorem utcTimestamp_ne {d e : Duration} (h : d.asSecs ≠ e.asSecs) :
    utcTimestamp (some d) ≠ utcTimestamp (some e) := by
  intro heq
  rw [utcTimestamp_eq_render, utcTimestamp_eq_render] at heq
  have hfields : (timestampFields d.asSecs).fields = (timestampFields e.asSecs).fields :=
    render_injective rfl rfl heq
  apply h
  rw [← (timestampFields_spec d.asSecs).2.2, ← (timestampFields_spec e.asSecs).2.2,
    DateTime.fields_injective hfields]

/-- Up to the year 9999 timestamps sort as the instants. -/
theorem utcTimestamp_lt_iff {d e : Duration} (hd : (timestampFields d.asSecs).year ≤ 9999)
    (he : (timestampFields e.asSecs).year ≤ 9999) :
    utcTimestamp (some d) < utcTimestamp (some e) ↔ d.asSecs < e.asSecs := by
  obtain ⟨hvalid, hepoch, hsecs⟩ := timestampFields_spec d.asSecs
  obtain ⟨hvalid', hepoch', hsecs'⟩ := timestampFields_spec e.asSecs
  rw [utcTimestamp_eq_render, utcTimestamp_eq_render,
    render_lt_iff (fits_of_year_le hvalid hd) (fits_of_year_le hvalid' he),
    ← hvalid.secondsSince_lt_iff hvalid' hepoch hepoch', hsecs, hsecs']

/-- Timestamps name the right instant: their fields are a valid time that lies the given
number of seconds after the start of 1970.  Distinct instants have distinct timestamps, and
up to the year 9999 these have length 20 and sort in the order of time. -/
theorem utcTimestamp_names_instant :
    (∀ secs, (timestampFields secs).Valid ∧ 1970 ≤ (timestampFields secs).year ∧
        (timestampFields secs).secondsSince 1970 = secs) ∧
      (∀ d e : Duration, d.asSecs ≠ e.asSecs → utcTimestamp (some d) ≠ utcTimestamp (some e)) ∧
      (∀ d : Duration, (timestampFields d.asSecs).year ≤ 9999 →
        (utcTimestamp (some d)).length = 20) ∧
      (∀ d e : Duration, (timestampFields d.asSecs).year ≤ 9999 →
        (timestampFields e.asSecs).year ≤ 9999 →
        (utcTimestamp (some d) < utcTimestamp (some e) ↔ d.asSecs < e.asSecs)) := by
  refine ⟨timestampFields_spec, fun d e => utcTimestamp_ne, ?_,
    fun d e hd he => utcTimestamp_lt_iff hd he⟩
  intro d hyear
  rw [utcTimestamp_eq_render,
    length_render (fits_of_year_le (timestampFields_spec d.asSecs).1 hyear)]
  rfl

end Wintermute
