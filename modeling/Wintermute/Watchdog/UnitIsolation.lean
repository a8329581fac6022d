import Wintermute.Foundation.Loops
import Wintermute.Watchdog.Tracking

/-!
# Units do not disturb each other

If systemd answers about a unit only from what was done to that unit, the watchdog
treats each unit as if it were alone: the table entry, the calls and the events of a
unit are those of the run in which no other unit is ever listed.

Main results:

- Theorems {lit}`recoverUnit_other` and {lit}`recoverUnit_own`: one iteration in both
  runs.
- Theorem {lit}`unitIsolation`: the two runs agree tick by tick.
-/

namespace Wintermute
namespace Watchdog

open Foundation

/-! ## The two runs -/

/-- The calls about a unit, newest first. -/
def callsAbout (u : String) (log : List Call) : List Call :=
  log.filter (Call.concerns u)

/-- The answers about a unit depend only on the calls made about that unit. -/
structure SystemctlBackend.Local (backend : SystemctlBackend) : Prop where
  resetFailed : ∀ u log log', callsAbout u log = callsAbout u log' →
    backend.resetFailed log u = backend.resetFailed log' u
  startUnit : ∀ u log log', callsAbout u log = callsAbout u log' →
    backend.startUnit log u = backend.startUnit log' u
  unitIsFailed : ∀ u log log', callsAbout u log = callsAbout u log' →
    backend.unitIsFailed log u = backend.unitIsFailed log' u

/-- The same tick with its failed list filtered down to the occurrences of a unit. -/
def Poll.restrict (u : String) (p : Poll) : Poll where
  now := p.now
  listed := p.listed.map (List.filter fun unit => decide (unit = u))

/-- Two engines agree on a unit. -/
structure AgreeOn (u : String) (engine engine' : WatchdogEngine) : Prop where
  table : engine.table u = engine'.table u
  calls : callsAbout u engine.log = callsAbout u engine'.log

/-- Two loops agree on a unit. -/
structure SameView (u : String) (acc acc' : List HealthEvent × WatchdogEngine) : Prop where
  events : healthEvents u acc.1 = healthEvents u acc'.1
  engines : AgreeOn u acc.2 acc'.2

variable {u : String} {now : Instant} {engine engine' : WatchdogEngine}

namespace AgreeOn

theorem entry (h : AgreeOn u engine engine') : engine.entry u = engine'.entry u := by
  rw [WatchdogEngine.entry, WatchdogEngine.entry, h.table]

theorem setEntry (h : AgreeOn u engine engine') (s : RecoveryState) :
    AgreeOn u (engine.setEntry u s) (engine'.setEntry u s) where
  table := by simp
  calls := h.calls

theorem note (h : AgreeOn u engine engine') (now : Instant) (call : SystemctlCall) :
    AgreeOn u (engine.note now call) (engine'.note now call) where
  table := h.table
  calls := by
    have hcalls := h.calls
    unfold callsAbout at hcalls ⊢
    simp [List.filter_cons, hcalls]

/-- Listings are not about any unit, so they may differ. -/
theorem listed (h : AgreeOn u engine engine') (now : Instant)
    (answer answer' : Except WatchdogError (List String)) :
    AgreeOn u (engine.note now (.listFailedUnits answer))
      (engine'.note now (.listFailedUnits answer')) :=
  ⟨h.table, h.calls⟩

end AgreeOn

/-! ## One iteration in both runs -/

section Iterations

variable {backend : SystemctlBackend} {acc acc' : List HealthEvent × WatchdogEngine}

/-- An iteration for another unit leaves the view of a unit alone. -/
theorem recoverUnit_other {unit : String} (hne : unit ≠ u) (h : SameView u acc acc') :
    SameView u (recoverUnit backend now acc unit) acc' := by
  have hiter := recoverUnit_iteration backend now acc unit
  generalize recoverUnit backend now acc unit = after at hiter
  cases hiter with
  | foreign _ => exact h
  | waiting _ _ =>
      refine ⟨h.events, ⟨?_, h.engines.calls⟩⟩
      rw [WatchdogEngine.setEntry_table_ne _ _ _ hne.symm]
      exact h.engines.table
  | attempted recovered calls _ _ hcalls =>
      refine ⟨?_, ⟨?_, ?_⟩⟩
      · rw [healthEvents_append, healthEvents_giveUpEvent, if_neg hne, List.append_nil]
        exact h.events
      · rw [← h.engines.table]
        exact Function.update_of_ne hne.symm _ _
      · have hnone : callsAbout u calls = [] := by
          apply List.filter_eq_nil_iff.mpr
          intro c hc
          have hconcerns : c.concerns u = decide (unit = u) := hcalls.concerns hc
          simpa [hconcerns] using hne
        rw [← h.engines.calls]
        change callsAbout u (calls ++ acc.2.log) = _
        rw [callsAbout, List.filter_append]
        exact congrArg (· ++ _) hnone

/-- Both runs get the same answer to a call, and still agree after it. -/
def SameAnswer {α : Type} (u : String) (r r' : α × WatchdogEngine) : Prop :=
  r.1 = r'.1 ∧ AgreeOn u r.2 r'.2

theorem resetFailed_agree (hlocal : backend.Local) (now : Instant)
    (h : AgreeOn u engine engine') :
    SameAnswer u (engine.resetFailed backend now u) (engine'.resetFailed backend now u) := by
  have hanswer := hlocal.resetFailed u _ _ h.calls
  unfold WatchdogEngine.resetFailed
  rw [← hanswer]
  exact ⟨rfl, h.note now _⟩

theorem startUnit_agree (hlocal : backend.Local) (now : Instant)
    (h : AgreeOn u engine engine') :
    SameAnswer u (engine.startUnit backend now u) (engine'.startUnit backend now u) := by
  have hanswer := hlocal.startUnit u _ _ h.calls
  unfold WatchdogEngine.startUnit
  rw [← hanswer]
  exact ⟨rfl, h.note now _⟩

theorem unitIsFailed_agree (hlocal : backend.Local) (now : Instant)
    (h : AgreeOn u engine engine') :
    SameAnswer u (engine.unitIsFailed backend now u) (engine'.unitIsFailed backend now u) := by
  have hanswer := hlocal.unitIsFailed u _ _ h.calls
  unfold WatchdogEngine.unitIsFailed
  rw [← hanswer]
  exact ⟨rfl, h.note now _⟩

theorem resetAndStart_agree (hlocal : backend.Local) (now : Instant)
    (h : AgreeOn u engine engine') :
    SameAnswer u (engine.resetAndStart backend now u)
      (engine'.resetAndStart backend now u) := by
  unfold WatchdogEngine.resetAndStart
  have hreset := resetFailed_agree hlocal now h
  generalize engine.resetFailed backend now u = r at hreset ⊢
  generalize engine'.resetFailed backend now u = r' at hreset ⊢
  obtain ⟨answer, engine⟩ := r
  obtain ⟨answer', engine'⟩ := r'
  obtain ⟨rfl, hagree⟩ : answer = answer' ∧ AgreeOn u engine engine' := hreset
  cases answer with
  | error e => exact ⟨rfl, hagree⟩
  | ok done =>
      cases done
      have hstart := startUnit_agree hlocal now hagree
      dsimp only
      generalize engine.startUnit backend now u = r at hstart ⊢
      generalize engine'.startUnit backend now u = r' at hstart ⊢
      obtain ⟨answer, engine⟩ := r
      obtain ⟨answer', engine'⟩ := r'
      obtain ⟨rfl, hagree⟩ : answer = answer' ∧ AgreeOn u engine engine' := hstart
      cases answer with
      | error e => exact ⟨rfl, hagree⟩
      | ok done =>
          cases done
          exact ⟨rfl, hagree⟩

/-- A failed attempt is recorded alike in both runs. -/
theorem failRecovery_agree (h : SameView u acc acc') :
    SameView u (failRecovery now u acc) (failRecovery now u acc') := by
  obtain ⟨events, engine⟩ := acc
  obtain ⟨events', engine'⟩ := acc'
  have hentry : engine.entry u = engine'.entry u := h.engines.entry
  rw [failRecovery_eq, failRecovery_eq, hentry]
  refine ⟨?_, h.engines.setEntry _⟩
  rw [healthEvents_append, healthEvents_append]
  exact congrArg (· ++ _) h.events

/-- A recovery is attempted alike in both runs. -/
theorem attemptRecovery_agree (hlocal : backend.Local) (h : SameView u acc acc') :
    SameView u (attemptRecovery backend now u acc) (attemptRecovery backend now u acc') := by
  obtain ⟨events, engine⟩ := acc
  obtain ⟨events', engine'⟩ := acc'
  unfold attemptRecovery
  have hstart := resetAndStart_agree hlocal now h.engines
  dsimp only at hstart ⊢
  generalize engine.resetAndStart backend now u = r at hstart ⊢
  generalize engine'.resetAndStart backend now u = r' at hstart ⊢
  obtain ⟨startOk, engine⟩ := r
  obtain ⟨startOk', engine'⟩ := r'
  obtain ⟨rfl, hagree⟩ : startOk = startOk' ∧ AgreeOn u engine engine' := hstart
  cases startOk with
  | false =>
      have hview : SameView u (events, engine) (events', engine') := ⟨h.events, hagree⟩
      simp only [Bool.false_eq_true, if_false]
      exact failRecovery_agree hview
  | true =>
      have hquery := unitIsFailed_agree hlocal now hagree
      dsimp only
      generalize engine.unitIsFailed backend now u = r at hquery ⊢
      generalize engine'.unitIsFailed backend now u = r' at hquery ⊢
      obtain ⟨answer, engine⟩ := r
      obtain ⟨answer', engine'⟩ := r'
      obtain ⟨rfl, hagree⟩ : answer = answer' ∧ AgreeOn u engine engine' := hquery
      have hview : SameView u (events, engine) (events', engine') := ⟨h.events, hagree⟩
      simp only [if_true]
      split
      · exact failRecovery_agree hview
      · refine ⟨h.events, ?_⟩
        dsimp only
        rw [hagree.entry]
        exact hagree.setEntry _

/-- An iteration for the unit does the same in both runs. -/
theorem recoverUnit_own (hlocal : backend.Local) (h : SameView u acc acc') :
    SameView u (recoverUnit backend now acc u) (recoverUnit backend now acc' u) := by
  obtain ⟨events, engine⟩ := acc
  obtain ⟨events', engine'⟩ := acc'
  have hentry : engine.entry u = engine'.entry u := h.engines.entry
  unfold recoverUnit
  dsimp only
  rw [hentry]
  have hwritten : SameView u (events, engine.setEntry u (engine'.entry u))
      (events', engine'.setEntry u (engine'.entry u)) :=
    ⟨h.events, h.engines.setEntry _⟩
  split
  · split
    · exact attemptRecovery_agree hlocal hwritten
    · exact hwritten
  · exact h

end Iterations

/-! ## Ticks and runs -/

variable {backend : SystemctlBackend}

/-- The loops of both ticks agree on the unit. -/
theorem recoverUnits_agree (hlocal : backend.Local) (now : Instant) (failed : List String)
    {acc acc' : List HealthEvent × WatchdogEngine} (h : SameView u acc acc') :
    SameView u (failed.foldl (recoverUnit backend now) acc)
      ((failed.filter fun unit => decide (unit = u)).foldl (recoverUnit backend now) acc') := by
  apply foldl_filter_related (SameView u) _ _ _ ?_ ?_ h
  · intro unit hne s t hst
    exact recoverUnit_other (by simpa using hne) hst
  · intro unit heq s t hst
    rw [of_decide_eq_true heq]
    exact recoverUnit_own hlocal hst

/-- A tick returns the same about the unit when only its occurrences are listed. -/
theorem tick_agree (hlocal : backend.Local) (p : Poll) (h : AgreeOn u engine engine') :
    (tick backend p.now p.listed engine).1.map (healthEvents u) =
        (tick backend (p.restrict u).now (p.restrict u).listed engine').1.map (healthEvents u) ∧
      AgreeOn u (tick backend p.now p.listed engine).2
        (tick backend (p.restrict u).now (p.restrict u).listed engine').2 := by
  obtain ⟨now, listed⟩ := p
  cases listed with
  | error e => exact ⟨rfl, h.listed now _ _⟩
  | ok failed =>
      let occurrences := failed.filter fun unit => decide (unit = u)
      have hstart : SameView u ([], engine.note now (.listFailedUnits (.ok failed)))
          ([], engine'.note now (.listFailedUnits (.ok occurrences))) :=
        ⟨rfl, h.listed now _ _⟩
      have hloops := recoverUnits_agree hlocal now failed hstart
      exact ⟨congrArg Except.ok hloops.events, hloops.engines⟩

/-- A unit sees the same along a run and along the run that lists nothing else. -/
structure Isolated (backend : SystemctlBackend) (polls : List Poll) (u : String) : Prop where
  /-- The table entry is the same after every tick. -/
  table : ∀ pre, pre <+: polls → (run backend pre).engine.table u =
    (run backend (pre.map (Poll.restrict u))).engine.table u
  /-- The calls about the unit are the same after every tick. -/
  calls : ∀ pre, pre <+: polls → callsAbout u (run backend pre).engine.log =
    callsAbout u (run backend (pre.map (Poll.restrict u))).engine.log
  /-- Every tick returns the same events for the unit, or the same error. -/
  events : (run backend polls).returned.map (Except.map (healthEvents u)) =
    (run backend (polls.map (Poll.restrict u))).returned.map (Except.map (healthEvents u))

/-- The two runs agree on the unit. -/
theorem run_agree (hlocal : backend.Local) (polls : List Poll) (u : String) :
    AgreeOn u (run backend polls).engine (run backend (polls.map (Poll.restrict u))).engine ∧
      (run backend polls).returned.map (Except.map (healthEvents u)) =
        (run backend (polls.map (Poll.restrict u))).returned.map
          (Except.map (healthEvents u)) := by
  induction polls using List.reverseRecOn with
  | nil => exact ⟨⟨rfl, rfl⟩, rfl⟩
  | append_singleton polls p ih =>
      obtain ⟨hagree, hreturned⟩ := ih
      obtain ⟨hresult, hengine⟩ := tick_agree hlocal p hagree
      rw [List.map_append, List.map_singleton, run_snoc, run_snoc]
      refine ⟨hengine, ?_⟩
      simp [Watch.step, hreturned, hresult]

/-- If the backend answers about a unit only from the calls made about it, every unit is
recovered as if no other unit were ever listed. -/
theorem unitIsolation (backend : SystemctlBackend) (hlocal : backend.Local)
    (polls : List Poll) (u : String) : Isolated backend polls u where
  table pre _ := (run_agree hlocal pre u).1.table
  calls pre _ := (run_agree hlocal pre u).1.calls
  events := (run_agree hlocal polls u).2

/-! ## A systemd that counts its calls -/

/-- The first reset of a unit fails, and the unit comes up after six calls. -/
def counting : SystemctlBackend where
  resetFailed log unit :=
    if callsAbout unit log = [] then .error (.systemctlFailed "--user" unit "exit code Some(1)")
    else .ok ()
  startUnit _ _ := .ok ()
  unitIsFailed log unit := .ok (decide ((callsAbout unit log).length < 6))

theorem counting_local : counting.Local where
  resetFailed u log log' h := by simp [counting, h]
  startUnit _ _ _ _ := rfl
  unitIsFailed u log log' h := by simp [counting, h]

/-- Ticks with several failed units, duplicates and a failing list call. -/
def busyPolls : List Poll :=
  [⟨Duration.fromSecs 0, .ok ["wm-audio.service", "sshd.service", "wm-tts.service"]⟩,
    ⟨Duration.fromSecs 3, .error (.io "connection refused")⟩,
    ⟨Duration.fromSecs 5, .ok ["wm-tts.service", "wm-audio.service", "wm-audio.service"]⟩,
    ⟨Duration.fromSecs 20, .ok ["wm-audio.service", "wm-tts.service"]⟩]

theorem unitIsolation_counting : Isolated counting busyPolls "wm-audio.service" :=
  unitIsolation counting counting_local busyPolls "wm-audio.service"

end Watchdog
end Wintermute
