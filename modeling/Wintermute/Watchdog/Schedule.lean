import Wintermute.Foundation.RetryPolicy
import Wintermute.Watchdog.RecoveryState

/-!
# The recovery schedule

What the recovery state is for: a retry policy that gives up after eight failed
recoveries in a row and, after the {lit}`k`-th before that, waits for
{lit}`2 ^ k` seconds, but never more than five minutes.  The three fields of the
state stay in step with the attempts made so far.

Main results:

- Definition {lit}`recoveryPolicy`: the policy.
- Theorem {lit}`Represents.mayAttempt_iff`: the state allows exactly what the policy
  allows.
- Theorems {lit}`Represents.success` and {lit}`Represents.failure`: recording an
  outcome keeps state and attempts in step.
-/

namespace Wintermute
namespace Watchdog

open Foundation

/-! ## The policy -/

/-- How long the unit is left alone after its {lit}`k`-th failed recovery in a row. -/
def backoffAfter (k : ℕ) : Duration :=
  Duration.fromSecs (min (2 ^ k) maxBackoffSecs)

/-- The policy of the watchdog. -/
def recoveryPolicy : RetryPolicy Instant where
  limit := giveUpAfter.toNat
  wait := backoffAfter

@[simp]
theorem recoveryPolicy_limit : recoveryPolicy.limit = 8 :=
  rfl

/-- Doubling under the ceiling goes to the next backoff. -/
theorem backoffAfter_succ (k : ℕ) :
    min ((backoffAfter k).saturatingMul 2) (Duration.fromSecs maxBackoffSecs) =
      backoffAfter (k + 1) := by
  unfold backoffAfter Duration.saturatingMul Duration.maximum Duration.fromSecs maxBackoffSecs
  rw [Nat.pow_succ]
  change @Eq ℕ _ _
  omega

/-! ## The state represents the attempts -/

/-- The state that recording these attempts, newest first, leaves. -/
structure Represents (s : RecoveryState) (attempts : List (Attempt Instant)) : Prop where
  failures : s.consecutiveFailures = UInt32.ofNat (failuresInARow attempts)
  failures_le : failuresInARow attempts ≤ recoveryPolicy.limit
  gaveUp_iff : s.gaveUp = true ↔ failuresInARow attempts = recoveryPolicy.limit
  backoff : failuresInARow attempts < recoveryPolicy.limit →
    s.currentBackoff = backoffAfter (failuresInARow attempts + 1)
  retry : failuresInARow attempts < recoveryPolicy.limit →
    s.retryAfter = recoveryPolicy.retryAt attempts

/-- A unit that has never been attempted. -/
theorem represents_default : Represents default [] where
  failures := rfl
  failures_le := by simp
  gaveUp_iff := by simp
  backoff _ := rfl
  retry _ := rfl

namespace Represents

variable {s : RecoveryState} {attempts : List (Attempt Instant)} {now : Instant}

/-- The state allows a recovery exactly when the policy does. -/
theorem mayAttempt_iff (h : Represents s attempts) :
    s.mayAttempt now = true ↔ recoveryPolicy.MayFollow now attempts := by
  rw [RecoveryState.mayAttempt_iff]
  by_cases hlt : failuresInARow attempts < recoveryPolicy.limit
  · have hnot : s.gaveUp = false := by
      rw [← Bool.not_eq_true, h.gaveUp_iff]
      exact hlt.ne
    rw [h.retry hlt]
    exact ⟨fun hmay => ⟨hlt, hmay.2⟩, fun hmay => ⟨hnot, hmay.2⟩⟩
  · have hgaveUp : s.gaveUp = true :=
      h.gaveUp_iff.mpr (le_antisymm h.failures_le (not_lt.mp hlt))
    constructor
    · rintro ⟨hnot, -⟩
      rw [hgaveUp] at hnot
      cases hnot
    · rintro ⟨hmay, -⟩
      exact absurd hmay hlt

/-- The counter as a number. -/
theorem toNat_failures (h : Represents s attempts) :
    s.consecutiveFailures.toNat = failuresInARow attempts := by
  have hsize : recoveryPolicy.limit < UInt32.size := by decide
  rw [h.failures]
  exact UInt32.toNat_ofNat_of_lt' (h.failures_le.trans_lt hsize)

/-- A successful recovery. -/
theorem success (h : Represents s attempts) (hmay : recoveryPolicy.MayFollow now attempts) :
    Represents s.recordSuccess (⟨now, true⟩ :: attempts) where
  failures := rfl
  failures_le := by simp
  gaveUp_iff := by
    rw [RecoveryState.recordSuccess_gaveUp, h.gaveUp_iff]
    simpa using hmay.1.ne
  backoff _ := rfl
  retry _ := rfl

/-- The next failure gives the unit up exactly when it is the last one allowed. -/
theorem giveUp_iff (h : Represents s attempts) (hlt : failuresInARow attempts < 8) :
    giveUpAfter ≤ s.consecutiveFailures + 1 ↔ failuresInARow attempts + 1 = 8 := by
  have hsucc : (s.consecutiveFailures + 1).toNat = failuresInARow attempts + 1 := by
    rw [UInt32.toNat_add, h.toNat_failures]
    exact Nat.mod_eq_of_lt (by simp; omega)
  rw [UInt32.le_iff_toNat_le, hsucc]
  change 8 ≤ _ ↔ _
  omega

/-- A failed recovery; the answer says whether it was the last one allowed. -/
theorem failure (h : Represents s attempts) (hmay : recoveryPolicy.MayFollow now attempts) :
    Represents (s.recordFailure now).2 (⟨now, false⟩ :: attempts) ∧
      ((s.recordFailure now).1 = true ↔ failuresInARow attempts + 1 = recoveryPolicy.limit) := by
  have hlt : failuresInARow attempts < 8 := hmay.1
  have hfailures : s.consecutiveFailures + 1 =
      UInt32.ofNat (failuresInARow (⟨now, false⟩ :: attempts)) := by
    rw [h.failures]
    simp
  by_cases hgive : giveUpAfter ≤ s.consecutiveFailures + 1
  · have hlast := (h.giveUp_iff hlt).mp hgive
    rw [RecoveryState.recordFailure_giveUp now hgive]
    refine ⟨⟨hfailures, ?_, ?_, ?_, ?_⟩, ?_⟩ <;> simp [hlast]
  · have hmore : failuresInARow attempts + 1 ≠ 8 := fun heq => hgive ((h.giveUp_iff hlt).mpr heq)
    have hnot : ¬s.gaveUp = true := fun hgaveUp => hlt.ne (h.gaveUp_iff.mp hgaveUp)
    rw [RecoveryState.recordFailure_retry now hgive]
    refine ⟨⟨hfailures, ?_, ?_, ?_, ?_⟩, ?_⟩
    · simp
      omega
    · simp [hnot, hmore]
    · intro _
      rw [h.backoff hlt]
      exact backoffAfter_succ _
    · intro _
      rw [h.backoff hlt]
      rfl
    · simp [hmore]

end Represents

end Watchdog
end Wintermute
