import Mathlib.Data.Nat.Notation
import Mathlib.Tactic

/-!
# Instants and durations

The program reads a monotonic clock ({lit}`std::time::Instant`) and compares
readings with durations given in whole seconds.  Both are natural numbers of
nanoseconds here; an instant counts from the earliest instant the platform can
represent, so that subtracting past it is the case in which
{lit}`Instant::checked_sub` answers {lit}`None`.  The far end of the clock, where
adding a duration would panic, is not modelled.
-/

namespace Wintermute

/-- A reading of the monotonic clock, in nanoseconds after the earliest
representable instant. -/
abbrev Instant := ℕ

/-- A span of time in nanoseconds. -/
abbrev Duration := ℕ

/-- {lit}`Duration::from_secs`. -/
def Duration.fromSecs (secs : ℕ) : Duration :=
  secs * 1000000000

/-- {lit}`Duration::as_secs`: whole seconds, rounded down. -/
def Duration.asSecs (d : Duration) : ℕ :=
  d / 1000000000

/-- {lit}`Duration::MAX`: 2^64 - 1 seconds and 999 999 999 nanoseconds. -/
def Duration.maximum : Duration :=
  (2 ^ 64 - 1) * 1000000000 + 999999999

/-- {lit}`Duration::saturating_mul`. -/
def Duration.saturatingMul (d : Duration) (factor : ℕ) : Duration :=
  min (d * factor) Duration.maximum

/-- {lit}`Instant::checked_sub`: no answer when the result would precede the
earliest representable instant. -/
def Instant.checkedSub (now : Instant) (d : Duration) : Option Instant :=
  if d ≤ now then some (now - d) else none

end Wintermute
