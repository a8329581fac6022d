import Wintermute.Watchdog.Iteration
import Wintermute.Watchdog.Schedule

/-!
# Keeping track of one unit

Along every run the table entry of a unit represents the attempts that the log shows
for it, every call about the unit was allowed by the policy when it was made, and a
health event has been returned exactly if the unit has used up its failures.

Main results:

- Theorem {lit}`Iteration.tracks`: an iteration for any unit keeps track of every unit.
- Theorem {lit}`run_tracks`: so does every run.
- Theorem {lit}`run_sorted`: the log of a run with ordered ticks is ordered.
-/

namespace Wintermute
namespace Watchdog

open Foundation

/-! ## Recording an attempt -/

namespace Represents

variable {s : RecoveryState} {attempts : List (Attempt Instant)} {now : Instant}

/-- Recording the outcome of an allowed attempt. -/
theorem record (h : Represents s attempts) (hmay : recoveryPolicy.MayFollow now attempts)
    (recovered : Bool) : Represents (s.record now recovered) (⟨now, recovered⟩ :: attempts) := by
  cases recovered with
  | true => exact h.success hmay
  | false => exact (h.failure hmay).1

/-- An attempt emits its event exactly when it is the last failure allowed. -/
theorem giveUpEvent_eq (h : Represents s attempts)
    (hmay : recoveryPolicy.MayFollow now attempts) (unit : String) (recovered : Bool) :
    s.giveUpEvent now unit recovered =
      if failuresInARow (⟨now, recovered⟩ :: attempts) = recoveryPolicy.limit then
        [⟨unit, giveUpAfter⟩] else [] := by
  unfold RecoveryState.giveUpEvent
  cases recovered with
  | true => simp
  | false =>
      obtain ⟨hrecorded, hlast⟩ := h.failure hmay
      by_cases hgive : failuresInARow attempts + 1 = recoveryPolicy.limit
      · have hcount : (s.recordFailure now).2.consecutiveFailures = giveUpAfter := by
          rw [hrecorded.failures, failuresInARow_cons, if_neg (by simp), hgive]
          rfl
        simp [hlast.mpr hgive, hgive, hcount]
      · have hmore : ¬(s.recordFailure now).1 = true := fun htrue => hgive (hlast.mp htrue)
        rw [if_neg (by simp [hmore]), if_neg (by simpa using hgive)]

end Represents

/-! ## The invariant -/

/-- Table, log and events agree about a unit. -/
structure Tracks (u : String) (events : List HealthEvent) (engine : WatchdogEngine) :
    Prop where
  obeys : recoveryPolicy.Obeys (reading u) engine.log
  represents : Represents (engine.entry u) (attempts u engine.log)
  events_eq : healthEvents u events =
    if failuresInARow (attempts u engine.log) = recoveryPolicy.limit then
      [⟨u, giveUpAfter⟩] else []

theorem tracks_new (u : String) : Tracks u [] WatchdogEngine.new where
  obeys := trivial
  represents := represents_default
  events_eq := by simp [healthEvents, WatchdogEngine.new, Reading.attempts]

variable {u unit : String} {now : Instant} {past : List HealthEvent}
  {acc acc' : List HealthEvent × WatchdogEngine}

theorem healthEvents_giveUpEvent (s : RecoveryState) (recovered : Bool) :
    healthEvents u (s.giveUpEvent now unit recovered) =
      if unit = u then s.giveUpEvent now unit recovered else [] := by
  unfold RecoveryState.giveUpEvent healthEvents
  split <;> by_cases h : unit = u <;> simp [h]

/-- An attempt keeps track of its own unit. -/
theorem Tracks.attempt {engine : WatchdogEngine} {recovered : Bool} {calls : List Call}
    (h : Tracks u past engine) (hmay : (engine.entry u).mayAttempt now = true)
    (hcalls : AttemptCalls now u recovered calls) :
    Tracks u (past ++ (engine.entry u).giveUpEvent now u recovered)
      { table := Function.update engine.table u (some ((engine.entry u).record now recovered))
        log := calls ++ engine.log } := by
  have hallowed := h.represents.mayAttempt_iff.mp hmay
  refine ⟨?_, ?_, ?_⟩
  · apply h.obeys.append
    apply hcalls.under_way.imp
    rintro c between ⟨hnow, hsame⟩ -
    change recoveryPolicy.MayFollow c.now (attempts u (between ++ engine.log))
    rw [hnow, hsame]
    exact hallowed
  · rw [attempts_append_calls hcalls]
    simpa [WatchdogEngine.entry] using h.represents.record hallowed recovered
  · have hbefore : failuresInARow (attempts u engine.log) ≠ recoveryPolicy.limit :=
      hallowed.1.ne
    rw [attempts_append_calls hcalls, healthEvents_append, h.events_eq, if_neg hbefore,
      healthEvents_giveUpEvent, if_pos rfl, List.nil_append]
    exact h.represents.giveUpEvent_eq hallowed u recovered

/-- An attempt keeps track of the other units. -/
theorem Tracks.frame {engine : WatchdogEngine} {recovered : Bool} {calls : List Call}
    (h : Tracks u past engine) (hne : unit ≠ u)
    (hcalls : AttemptCalls now unit recovered calls) (s s' : RecoveryState) :
    Tracks u (past ++ s.giveUpEvent now unit recovered)
      { table := Function.update engine.table unit (some s'), log := calls ++ engine.log } := by
  have hquiet : ∀ c ∈ calls, (reading u).concerns c = false := by
    intro c hc
    rw [hcalls.concerns hc]
    simpa using hne
  have hentry : WatchdogEngine.entry u
      { table := Function.update engine.table unit (some s'), log := calls ++ engine.log } =
        engine.entry u := by
    simp [WatchdogEngine.entry, Function.update_of_ne hne.symm]
  refine ⟨?_, ?_, ?_⟩
  · exact h.obeys.append_quiet hquiet
  · rw [hentry, attempts_append_other hcalls hne]
    exact h.represents
  · rw [attempts_append_other hcalls hne, healthEvents_append, healthEvents_giveUpEvent,
      if_neg hne, List.append_nil]
    exact h.events_eq

/-- An iteration for any unit keeps track of every unit. -/
theorem Iteration.tracks (h : Iteration now unit acc acc')
    (ht : Tracks u (past ++ acc.1) acc.2) : Tracks u (past ++ acc'.1) acc'.2 := by
  cases h with
  | foreign _ => exact ht
  | waiting _ _ =>
      refine ⟨ht.obeys, ?_, ht.events_eq⟩
      have hentry : (acc.2.setEntry unit (acc.2.entry unit)).entry u = acc.2.entry u := by
        by_cases hunit : unit = u
        · subst hunit
          simp
        · simp [WatchdogEngine.entry, WatchdogEngine.setEntry,
            Function.update_of_ne (Ne.symm hunit)]
      rw [hentry]
      exact ht.represents
  | attempted recovered calls _ hmay hcalls =>
      rw [← List.append_assoc]
      by_cases hunit : unit = u
      · subst hunit
        exact ht.attempt hmay hcalls
      · exact ht.frame hunit hcalls _ _

/-! ## Ticks and runs -/

/-- The events that a tick returned. -/
def eventsOf : Except WatchdogError (List HealthEvent) → List HealthEvent
  | .ok events => events
  | .error _ => []

/-- All events returned so far, oldest first. -/
def published (w : Watch) : List HealthEvent :=
  w.returned.flatMap eventsOf

variable {backend : SystemctlBackend}

/-- Listing the failed units says nothing about any of them. -/
theorem Tracks.listed {engine : WatchdogEngine} (h : Tracks u past engine) (now : Instant)
    (answer : Except WatchdogError (List String)) :
    Tracks u past (engine.note now (.listFailedUnits answer)) where
  obeys := by
    refine ⟨fun hconcerns => ?_, h.obeys⟩
    cases hconcerns
  represents := h.represents
  events_eq := h.events_eq

theorem recoverUnits_tracks (backend : SystemctlBackend) (now : Instant) (failed : List String)
    (acc : List HealthEvent × WatchdogEngine) (h : Tracks u (past ++ acc.1) acc.2) :
    Tracks u (past ++ (failed.foldl (recoverUnit backend now) acc).1)
      (failed.foldl (recoverUnit backend now) acc).2 :=
  List.foldlRecOn (motive := fun acc => Tracks u (past ++ acc.1) acc.2) failed _ h
    fun acc hacc unit _ => (recoverUnit_iteration backend now acc unit).tracks hacc

theorem tick_tracks {engine : WatchdogEngine} (h : Tracks u past engine)
    (backend : SystemctlBackend) (now : Instant)
    (answer : Except WatchdogError (List String)) :
    Tracks u (past ++ eventsOf (tick backend now answer engine).1)
      (tick backend now answer engine).2 := by
  cases answer with
  | error e =>
      change Tracks u (past ++ []) _
      rw [List.append_nil]
      exact h.listed now _
  | ok failed =>
      apply recoverUnits_tracks backend now failed ([], _)
      rw [List.append_nil]
      exact h.listed now _

@[simp]
theorem published_step (backend : SystemctlBackend) (w : Watch) (p : Poll) :
    published (w.step backend p) =
      published w ++ eventsOf (tick backend p.now p.listed w.engine).1 := by
  simp [published, Watch.step]

/-- Every run keeps track of every unit. -/
theorem run_tracks (backend : SystemctlBackend) (polls : List Poll) (u : String) :
    Tracks u (published (run backend polls)) (run backend polls).engine := by
  induction polls using List.reverseRecOn with
  | nil => exact tracks_new u
  | append_singleton polls p ih =>
      rw [run_snoc, published_step]
      exact tick_tracks ih backend p.now p.listed

/-! ## The log of a run -/

/-- The failed list of the tick contains the unit. -/
def Poll.Lists (u : String) (p : Poll) : Prop :=
  ∃ failed, p.listed = .ok failed ∧ u ∈ failed

/-- An iteration only adds calls about its own unit, made now. -/
theorem Iteration.log_eq (h : Iteration now unit acc acc') :
    ∃ calls, acc'.2.log = calls ++ acc.2.log ∧
      ∀ c ∈ calls, c.now = now ∧ c.call.about = some unit := by
  cases h with
  | foreign _ => exact ⟨[], rfl, by simp⟩
  | waiting _ _ => exact ⟨[], rfl, by simp⟩
  | attempted recovered calls _ _ hcalls => exact ⟨calls, rfl, fun c hc => hcalls.mem hc⟩

/-- The loop only adds calls about the units it visits, made now. -/
theorem recoverUnits_log (backend : SystemctlBackend) (now : Instant) (failed : List String)
    (acc : List HealthEvent × WatchdogEngine) :
    ∃ calls, (failed.foldl (recoverUnit backend now) acc).2.log = calls ++ acc.2.log ∧
      ∀ c ∈ calls, c.now = now ∧ ∃ unit ∈ failed, c.call.about = some unit := by
  induction failed generalizing acc with
  | nil => exact ⟨[], rfl, by simp⟩
  | cons unit failed ih =>
      obtain ⟨first, hfirst, hown⟩ := (recoverUnit_iteration backend now acc unit).log_eq
      obtain ⟨rest, hrest, hlater⟩ := ih (recoverUnit backend now acc unit)
      refine ⟨rest ++ first, ?_, ?_⟩
      · rw [List.foldl_cons, hrest, hfirst, List.append_assoc]
      · intro c hc
        rcases List.mem_append.mp hc with hc | hc
        · obtain ⟨hnow, unit', hmem, habout⟩ := hlater c hc
          exact ⟨hnow, unit', List.mem_cons_of_mem unit hmem, habout⟩
        · exact ⟨(hown c hc).1, unit, List.mem_cons_self, (hown c hc).2⟩

/-- A tick only adds calls made at its time, about units on its list. -/
theorem step_log (backend : SystemctlBackend) (w : Watch) (p : Poll) :
    ∃ calls, (w.step backend p).engine.log = calls ++ w.engine.log ∧
      ∀ c ∈ calls, c.now = p.now ∧ ∀ u, c.call.about = some u → p.Lists u := by
  obtain ⟨now, listed⟩ := p
  cases listed with
  | error e => exact ⟨[⟨now, .listFailedUnits (.error e)⟩], rfl, by simp [SystemctlCall.about]⟩
  | ok failed =>
      obtain ⟨calls, hlog, hcalls⟩ := recoverUnits_log backend now failed
        ([], w.engine.note now (.listFailedUnits (.ok failed)))
      refine ⟨calls ++ [⟨now, .listFailedUnits (.ok failed)⟩], ?_, ?_⟩
      · rw [List.append_assoc]
        exact hlog
      · intro c hc
        rcases List.mem_append.mp hc with hc | hc
        · obtain ⟨hnow, unit, hmem, habout⟩ := hcalls c hc
          refine ⟨hnow, fun u hu => ⟨failed, rfl, ?_⟩⟩
          rw [habout] at hu
          cases hu
          exact hmem
        · rw [List.mem_singleton.mp hc]
          simp [SystemctlCall.about]

/-- Further ticks only add calls made at their times, about units on their lists. -/
theorem run_append_log (backend : SystemctlBackend) (pre more : List Poll) :
    ∃ calls, (run backend (pre ++ more)).engine.log = calls ++ (run backend pre).engine.log ∧
      ∀ c ∈ calls, ∃ p ∈ more, c.now = p.now ∧ ∀ u, c.call.about = some u → p.Lists u := by
  induction more using List.reverseRecOn with
  | nil => exact ⟨[], by simp, by simp⟩
  | append_singleton more p ih =>
      obtain ⟨earlier, hearlier, hmade⟩ := ih
      obtain ⟨calls, hcalls, hnow⟩ := step_log backend (run backend (pre ++ more)) p
      refine ⟨calls ++ earlier, ?_, ?_⟩
      · rw [← List.append_assoc, run_snoc, hcalls, hearlier, List.append_assoc]
      · intro c hc
        rcases List.mem_append.mp hc with hc | hc
        · exact ⟨p, by simp, hnow c hc⟩
        · obtain ⟨p', hp', hspec⟩ := hmade c hc
          exact ⟨p', List.mem_append_left [p] hp', hspec⟩

/-- The log of a run with ordered ticks is ordered. -/
theorem run_sorted (backend : SystemctlBackend) (polls : List Poll)
    (htimes : (polls.map Poll.now).Pairwise (· ≤ ·)) :
    ((run backend polls).engine.log.map Call.now).Pairwise fun late early => early ≤ late := by
  induction polls using List.reverseRecOn with
  | nil => exact List.Pairwise.nil
  | append_singleton polls p ih =>
      rw [List.map_append, List.pairwise_append] at htimes
      obtain ⟨hbefore, -, hlast⟩ := htimes
      obtain ⟨calls, hcalls, hnow⟩ := step_log backend (run backend polls) p
      obtain ⟨all, hall, hmade⟩ := run_append_log backend [] polls
      rw [run_snoc, hcalls, List.map_append, List.pairwise_append]
      refine ⟨?_, ih hbefore, ?_⟩
      · apply List.pairwise_of_forall_mem_list
        intro a ha b hb
        obtain ⟨c, hc, rfl⟩ := List.mem_map.mp ha
        obtain ⟨d, hd, rfl⟩ := List.mem_map.mp hb
        rw [(hnow c hc).1, (hnow d hd).1]
      · intro a ha b hb
        obtain ⟨c, hc, rfl⟩ := List.mem_map.mp ha
        obtain ⟨d, hd, rfl⟩ := List.mem_map.mp hb
        rw [List.nil_append] at hall
        rw [hall] at hd
        obtain ⟨p', hp', hd', -⟩ := hmade d (by simpa [WatchdogEngine.new, Watch.new] using hd)
        rw [(hnow c hc).1, hd']
        exact hlast _ (List.mem_map_of_mem hp') _ (by simp)

end Watchdog
end Wintermute
