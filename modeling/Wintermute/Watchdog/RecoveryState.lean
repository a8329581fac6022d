import Wintermute.Clock

/-!
# Recovery state of a unit

The watchdog keeps one record per unit: how many recoveries in a row have failed,
the interval to wait after the next failure, the instant before which nothing is
attempted, and whether the unit has been given up.

Main results:

- Theorem {lit}`mayAttempt_iff`: when a recovery is allowed.
- Theorems {lit}`recordFailure_giveUp` and {lit}`recordFailure_retry`: the two
  outcomes of recording a failure.
-/

namespace Wintermute
namespace Watchdog

/-- Minimum backoff before the first retry, in seconds. -/
def initialBackoffSecs : ℕ := 2

/-- Ceiling for per-unit backoff, in seconds. -/
def maxBackoffSecs : ℕ := 300

/-- After this many consecutive failed recoveries the watchdog gives up. -/
def giveUpAfter : UInt32 := 8

/-- Per-unit recovery state. -/
structure RecoveryState where
  consecutiveFailures : UInt32
  currentBackoff : Duration
  retryAfter : Option Instant
  gaveUp : Bool
deriving DecidableEq, Repr

instance : Inhabited RecoveryState where
  default :=
    { consecutiveFailures := 0
      currentBackoff := Duration.fromSecs initialBackoffSecs
      retryAfter := none
      gaveUp := false }

namespace RecoveryState

/-- We may attempt a recovery at {lit}`now`. -/
def mayAttempt (s : RecoveryState) (now : Instant) : Bool :=
  if s.gaveUp then false else s.retryAfter.all (fun t => decide (t ≤ now))

/-- Record a successful recovery: clear the failure count and the backoff. -/
def recordSuccess (s : RecoveryState) : RecoveryState :=
  { s with
    consecutiveFailures := 0
    currentBackoff := Duration.fromSecs initialBackoffSecs
    retryAfter := none }

/-- Record a failed recovery at {lit}`now`; answers whether the unit is now given
up.  The gate is set from the present interval, and then the interval doubles. -/
def recordFailure (now : Instant) (s : RecoveryState) : Bool × RecoveryState :=
  let s := { s with consecutiveFailures := s.consecutiveFailures + 1 }
  if s.consecutiveFailures ≥ giveUpAfter then
    (true, { s with gaveUp := true })
  else
    let s := { s with retryAfter := some (now + s.currentBackoff) }
    let next := min (s.currentBackoff.saturatingMul 2) (Duration.fromSecs maxBackoffSecs)
    (false, { s with currentBackoff := next })

variable {s : RecoveryState}

/-- A recovery is allowed when the unit has not been given up and the retry instant
has come. -/
theorem mayAttempt_iff {now : Instant} :
    s.mayAttempt now = true ↔ s.gaveUp = false ∧ ∀ t, s.retryAfter = some t → t ≤ now := by
  unfold mayAttempt
  cases s.gaveUp <;> cases s.retryAfter <;> simp

@[simp]
theorem gaveUp_default : (default : RecoveryState).gaveUp = false :=
  rfl

@[simp]
theorem recordSuccess_gaveUp : s.recordSuccess.gaveUp = s.gaveUp :=
  rfl

/-- Reaching the threshold gives the unit up and leaves the schedule as it is. -/
theorem recordFailure_giveUp (now : Instant) (h : giveUpAfter ≤ s.consecutiveFailures + 1) :
    s.recordFailure now =
      (true, { s with consecutiveFailures := s.consecutiveFailures + 1, gaveUp := true }) :=
  if_pos h

/-- Below the threshold the unit waits for the present interval, and the next one is
twice as long up to the ceiling. -/
theorem recordFailure_retry (now : Instant) (h : ¬giveUpAfter ≤ s.consecutiveFailures + 1) :
    s.recordFailure now =
      (false,
        { consecutiveFailures := s.consecutiveFailures + 1
          currentBackoff :=
            min (s.currentBackoff.saturatingMul 2) (Duration.fromSecs maxBackoffSecs)
          retryAfter := some (now + s.currentBackoff)
          gaveUp := s.gaveUp }) :=
  if_neg h

end RecoveryState

end Watchdog
end Wintermute
