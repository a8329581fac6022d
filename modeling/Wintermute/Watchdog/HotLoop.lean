import Wintermute.Watchdog.Tracking

/-!
# Hot loops

Whether an attempt failed is decided by asking the unit right after it was started.  A
unit that is up at that moment and failed again when the next tick lists it counts as
recovered every time: nothing is ever waited for and nothing is given up.

Main results:

- Theorem {lit}`run_attempts_le`: every answer that the unit is up pays for at most
  eight attempts.
- Theorem {lit}`attempts_le_giveUpAfter`: without such an answer there are at most
  eight.
- Theorem {lit}`hotLoop`: a unit that is failed at every tick and attempted at every
  tick.
-/

namespace Wintermute
namespace Watchdog

open Foundation

/-- A successful attempt is one whose query answered that the unit is not failed. -/
theorem attempt_succeeded {u : String} {c : Call} {a : Attempt Instant}
    (ha : c.attempt u = some a) (hsucceeded : a.succeeded = true) :
    c.call = .unitIsFailed u (.ok false) := by
  unfold Call.attempt at ha
  split at ha
  · rename_i hconcerns
    have habout : c.call.about = some u := of_decide_eq_true hconcerns
    obtain ⟨recovered, hconcludes, rfl⟩ := Option.map_eq_some_iff.mp ha
    change recovered = true at hsucceeded
    subst hsucceeded
    obtain ⟨now, call⟩ := c
    cases call with
    | listFailedUnits answer => cases habout
    | resetFailed unit answer => cases answer <;> cases hconcludes
    | startUnit unit answer => cases answer <;> cases hconcludes
    | unitIsFailed unit answer =>
        cases habout
        cases answer with
        | error e => cases hconcludes
        | ok stillFailed =>
            cases stillFailed with
            | false => rfl
            | true => cases hconcludes
  · cases ha

/-- Along every run each successful attempt pays for at most eight attempts, and eight
more may follow the last one. -/
theorem run_attempts_le (backend : SystemctlBackend) (polls : List Poll) (u : String) :
    (attempts u (run backend polls).engine.log).length ≤
      giveUpAfter.toNat *
        ((attempts u (run backend polls).engine.log).countP Attempt.succeeded + 1) := by
  have hobeys := (run_tracks backend polls u).obeys
  have hlength := hobeys.attempts.length_le
  have hfailures := hobeys.attempts.failures_le
  rw [Nat.mul_add, Nat.mul_one]
  exact hlength.trans (Nat.add_le_add_left hfailures _)

/-- In every run in which no query answers that the unit is not failed there are at most
eight attempts on it. -/
theorem attempts_le_giveUpAfter (backend : SystemctlBackend) (polls : List Poll) (u : String)
    (hdown : ∀ c ∈ (run backend polls).engine.log, c.call ≠ .unitIsFailed u (.ok false)) :
    (attempts u (run backend polls).engine.log).length ≤ giveUpAfter.toNat := by
  have hbound := run_attempts_le backend polls u
  have hnone : (attempts u (run backend polls).engine.log).countP Attempt.succeeded = 0 := by
    rw [List.countP_eq_zero]
    intro a ha hsucceeded
    obtain ⟨c, hc, hattempt⟩ := List.mem_filterMap.mp ha
    exact hdown c hc (attempt_succeeded hattempt hsucceeded)
  rw [hnone] at hbound
  exact hbound

/-! ## Two broken units -/

/-- Every command works and the unit is up right after its start; it fails before the
next tick. -/
def flapping : SystemctlBackend where
  resetFailed _ _ := .ok ()
  startUnit _ _ := .ok ()
  unitIsFailed _ _ := .ok false

/-- A start command that always fails. -/
def unstartable : SystemctlBackend where
  resetFailed _ _ := .ok ()
  startUnit _ unit := .error (.systemctlFailed "--user" unit "exit code Some(1)")
  unitIsFailed _ _ := .ok true

/-- A unit that cannot be started is attempted at most eight times in the first fifty
ticks. -/
theorem attempts_le_giveUpAfter_unstartable :
    (attempts "wm-audio.service"
        (run unstartable (pollsEvery 5 "wm-audio.service" 50)).engine.log).length ≤
      giveUpAfter.toNat :=
  attempts_le_giveUpAfter unstartable (pollsEvery 5 "wm-audio.service" 50) _
    (by decide +kernel)

/-- A unit that is failed at every tick is attempted nine times in nine ticks. -/
theorem hotLoop :
    ¬∀ (backend : SystemctlBackend) (polls : List Poll) (u : String),
      isWintermuteUnit u = true → (polls.map Poll.now).Pairwise (· ≤ ·) →
        (∀ p ∈ polls, p.Lists u) →
          (attempts u (run backend polls).engine.log).length ≤ giveUpAfter.toNat := by
  intro h
  have hlists : ∀ p ∈ pollsEvery 5 "wm-audio.service" 9, p.Lists "wm-audio.service" := by
    intro p hp
    obtain ⟨i, -, rfl⟩ := List.mem_map.mp hp
    exact ⟨_, rfl, List.mem_singleton_self _⟩
  have hbound := h flapping (pollsEvery 5 "wm-audio.service" 9) "wm-audio.service"
    (by decide +kernel) (by decide +kernel) hlists
  exact absurd hbound (by decide +kernel)

end Watchdog
end Wintermute
