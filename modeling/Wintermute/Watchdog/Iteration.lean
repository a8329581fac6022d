import Wintermute.Foundation.RetryPolicy
import Wintermute.Watchdog.Engine

/-!
# What one iteration does

The calls about a unit fall into recovery attempts: each attempt makes one to three
calls and is concluded by the one that decides its outcome.  This module reads the
attempts off the log and says once what an iteration of the loop can do; everything
later is derived from that.

Main results:

- Definition {lit}`reading`: the attempts on a unit, as the log shows them.
- Theorem {lit}`attempts_append_calls`: the calls of an attempt conclude that attempt.
- Theorem {lit}`recoverUnit_iteration`: the three things an iteration can do.
-/

namespace Wintermute
namespace Watchdog

open Foundation

/-! ## Reading the log -/

/-- The unit a call is about. -/
def SystemctlCall.about : SystemctlCall → Option String
  | .listFailedUnits _ => none
  | .resetFailed unit _ => some unit
  | .startUnit unit _ => some unit
  | .unitIsFailed unit _ => some unit

/-- The unit has come up: the query answers that it is not failed. -/
def cameUp (answer : Except WatchdogError Bool) : Bool :=
  !answer.toOption.getD true

/-- Outcome of the recovery attempt that a call concludes; an attempt fails when the
reset or the start fails, or when the query fails or answers that the unit is
failed. -/
def SystemctlCall.concludes : SystemctlCall → Option Bool
  | .resetFailed _ (.error _) => some false
  | .startUnit _ (.error _) => some false
  | .unitIsFailed _ answer => some (cameUp answer)
  | _ => none

/-- The call is about the unit. -/
def Call.concerns (u : String) (c : Call) : Bool :=
  decide (c.call.about = some u)

/-- The attempt on the unit that a call concludes. -/
def Call.attempt (u : String) (c : Call) : Option (Attempt Instant) :=
  if c.concerns u then c.call.concludes.map (Attempt.mk c.now) else none

/-- The attempts on a unit, as the log shows them. -/
def reading (u : String) : Reading Call Instant where
  concerns := Call.concerns u
  time := Call.now
  attempt := Call.attempt u
  attempt_spec c a h := by
    unfold Call.attempt at h
    split at h
    · rename_i hconcerns
      obtain ⟨_, _, rfl⟩ := Option.map_eq_some_iff.mp h
      exact ⟨hconcerns, rfl⟩
    · cases h

/-- The concluded attempts on a unit, newest first. -/
abbrev attempts (u : String) (log : List Call) : List (Attempt Instant) :=
  (reading u).attempts log

/-- The health events for a unit. -/
def healthEvents (u : String) (events : List HealthEvent) : List HealthEvent :=
  events.filter (fun e => decide (e.unit = u))

@[simp]
theorem healthEvents_append (u : String) (before after : List HealthEvent) :
    healthEvents u (before ++ after) = healthEvents u before ++ healthEvents u after :=
  List.filter_append ..

theorem mem_healthEvents {u : String} {events : List HealthEvent} {e : HealthEvent} :
    e ∈ healthEvents u events ↔ e ∈ events ∧ e.unit = u := by
  simp [healthEvents]

theorem healthEvents_ne_nil {u : String} {events : List HealthEvent} :
    healthEvents u events ≠ [] ↔ ∃ e ∈ events, e.unit = u := by
  simp [healthEvents, List.filter_eq_nil_iff]

/-! ## One attempt -/

/-- The calls of one recovery attempt, newest first, with its outcome. -/
inductive AttemptCalls (now : Instant) (unit : String) : Bool → List Call → Prop
  | resetFails (e : WatchdogError) :
      AttemptCalls now unit false [⟨now, .resetFailed unit (.error e)⟩]
  | startFails (e : WatchdogError) :
      AttemptCalls now unit false
        [⟨now, .startUnit unit (.error e)⟩, ⟨now, .resetFailed unit (.ok ())⟩]
  | queried (answer : Except WatchdogError Bool) :
      AttemptCalls now unit (cameUp answer)
        [⟨now, .unitIsFailed unit answer⟩, ⟨now, .startUnit unit (.ok ())⟩,
          ⟨now, .resetFailed unit (.ok ())⟩]

section Calls

variable {now : Instant} {unit u : String} {recovered : Bool} {calls older : List Call}

theorem AttemptCalls.mem (h : AttemptCalls now unit recovered calls) {c : Call}
    (hc : c ∈ calls) : c.now = now ∧ c.call.about = some unit := by
  cases h <;> simp at hc <;> rcases hc with rfl | rfl | rfl <;> exact ⟨rfl, rfl⟩

theorem AttemptCalls.concerns (h : AttemptCalls now unit recovered calls) {c : Call}
    (hc : c ∈ calls) : (reading u).concerns c = decide (unit = u) := by
  change decide (c.call.about = some u) = _
  simp [(h.mem hc).2]

/-- Only the newest call of an attempt concludes it. -/
theorem attempts_append_calls (h : AttemptCalls now unit recovered calls) :
    attempts unit (calls ++ older) = ⟨now, recovered⟩ :: attempts unit older := by
  cases h <;> simp [attempts, Reading.attempts, reading, Call.attempt, Call.concerns,
    SystemctlCall.about, SystemctlCall.concludes]

/-- While an attempt is under way no other one is concluded. -/
theorem AttemptCalls.under_way (h : AttemptCalls now unit recovered calls) :
    EachAfter (fun c between => c.now = now ∧
      attempts unit (between ++ older) = attempts unit older) calls := by
  cases h <;> simp [EachAfter, attempts, Reading.attempts, reading, Call.attempt,
    Call.concerns, SystemctlCall.about, SystemctlCall.concludes]

/-- The calls of another unit's attempt conclude nothing. -/
theorem attempts_append_other (h : AttemptCalls now unit recovered calls) (hne : unit ≠ u) :
    attempts u (calls ++ older) = attempts u older := by
  apply Reading.attempts_of_quiet
  intro c hc
  rw [h.concerns hc]
  simpa using hne

end Calls

/-! ## One iteration -/

/-- The state an attempt leaves. -/
def RecoveryState.record (now : Instant) (recovered : Bool) (s : RecoveryState) :
    RecoveryState :=
  if recovered then s.recordSuccess else (s.recordFailure now).2

/-- The health event of an attempt, if it is the last one allowed. -/
def RecoveryState.giveUpEvent (now : Instant) (unit : String) (recovered : Bool)
    (s : RecoveryState) : List HealthEvent :=
  if recovered = false ∧ (s.recordFailure now).1 = true then
    [⟨unit, (s.recordFailure now).2.consecutiveFailures⟩]
  else []

/-- What an iteration of the loop can do: skip a foreign unit, leave a unit alone
because its state does not allow an attempt, or make one. -/
inductive Iteration (now : Instant) (unit : String)
    (acc : List HealthEvent × WatchdogEngine) : List HealthEvent × WatchdogEngine → Prop
  | foreign (hforeign : isWintermuteUnit unit = false) : Iteration now unit acc acc
  | waiting (hown : isWintermuteUnit unit = true)
      (hmay : (acc.2.entry unit).mayAttempt now = false) :
      Iteration now unit acc (acc.1, acc.2.setEntry unit (acc.2.entry unit))
  | attempted (recovered : Bool) (calls : List Call) (hown : isWintermuteUnit unit = true)
      (hmay : (acc.2.entry unit).mayAttempt now = true)
      (hcalls : AttemptCalls now unit recovered calls) :
      Iteration now unit acc
        (acc.1 ++ (acc.2.entry unit).giveUpEvent now unit recovered,
          { table := Function.update acc.2.table unit
              (some ((acc.2.entry unit).record now recovered))
            log := calls ++ acc.2.log })

/-- The last step of a failed attempt. -/
theorem failRecovery_eq (now : Instant) (unit : String) (events : List HealthEvent)
    (engine : WatchdogEngine) :
    failRecovery now unit (events, engine) =
      (events ++ (engine.entry unit).giveUpEvent now unit false,
        engine.setEntry unit ((engine.entry unit).record now false)) := by
  unfold failRecovery RecoveryState.giveUpEvent RecoveryState.record
  cases hgave : ((engine.entry unit).recordFailure now).1 <;> simp [hgave]

/-- Reset and start, with the calls they leave. -/
theorem resetAndStart_cases (backend : SystemctlBackend) (now : Instant) (unit : String)
    (engine : WatchdogEngine) :
    (∃ calls, AttemptCalls now unit false calls ∧
        engine.resetAndStart backend now unit =
          (false, { engine with log := calls ++ engine.log })) ∨
      engine.resetAndStart backend now unit =
        (true, { engine with log := ⟨now, .startUnit unit (.ok ())⟩ ::
          ⟨now, .resetFailed unit (.ok ())⟩ :: engine.log }) := by
  unfold WatchdogEngine.resetAndStart WatchdogEngine.resetFailed WatchdogEngine.startUnit
  cases hreset : backend.resetFailed engine.log unit with
  | error e => exact Or.inl ⟨_, .resetFails e, rfl⟩
  | ok done =>
      cases done
      cases hstart : backend.startUnit
          (⟨now, .resetFailed unit (.ok ())⟩ :: engine.log) unit with
      | error e =>
          refine Or.inl ⟨_, .startFails e, ?_⟩
          simp [hstart, WatchdogEngine.note]
      | ok done =>
          cases done
          exact Or.inr (by simp [hstart, WatchdogEngine.note])

/-- An attempt makes its calls, records its outcome and emits an event if it is the
last one allowed. -/
theorem attemptRecovery_eq (backend : SystemctlBackend) (now : Instant) (unit : String)
    (events : List HealthEvent) (engine : WatchdogEngine) :
    ∃ recovered calls, AttemptCalls now unit recovered calls ∧
      attemptRecovery backend now unit (events, engine) =
        (events ++ (engine.entry unit).giveUpEvent now unit recovered,
          { table := Function.update engine.table unit
              (some ((engine.entry unit).record now recovered))
            log := calls ++ engine.log }) := by
  rcases resetAndStart_cases backend now unit engine with ⟨calls, hcalls, heq⟩ | heq
  · refine ⟨false, calls, hcalls, ?_⟩
    unfold attemptRecovery
    simp only [heq, Bool.false_eq_true, if_false]
    exact failRecovery_eq now unit events _
  · unfold attemptRecovery WatchdogEngine.unitIsFailed
    simp only [heq, if_true]
    generalize backend.unitIsFailed _ unit = answer
    refine ⟨cameUp answer, _, .queried answer, ?_⟩
    cases hfailed : answer.toOption.getD true with
    | true =>
        have hdown : cameUp answer = false := by simp [cameUp, hfailed]
        rw [hdown]
        exact failRecovery_eq now unit events _
    | false =>
        have hup : cameUp answer = true := by simp [cameUp, hfailed]
        simp [hup, RecoveryState.giveUpEvent, RecoveryState.record, WatchdogEngine.setEntry,
          WatchdogEngine.entry, WatchdogEngine.note]

/-- One iteration of the loop. -/
theorem recoverUnit_iteration (backend : SystemctlBackend) (now : Instant)
    (acc : List HealthEvent × WatchdogEngine) (unit : String) :
    Iteration now unit acc (recoverUnit backend now acc unit) := by
  obtain ⟨events, engine⟩ := acc
  unfold recoverUnit
  cases hown : isWintermuteUnit unit with
  | false => exact .foreign hown
  | true =>
      simp only [if_true]
      cases hmay : (engine.entry unit).mayAttempt now with
      | false => exact .waiting hown hmay
      | true =>
          obtain ⟨recovered, calls, hcalls, heq⟩ := attemptRecovery_eq backend now unit events
            (engine.setEntry unit (engine.entry unit))
          have hiter : Iteration now unit (events, engine) _ :=
            .attempted recovered calls hown hmay hcalls
          simp only [if_true, heq]
          simpa [WatchdogEngine.setEntry, WatchdogEngine.entry] using hiter

end Watchdog
end Wintermute
