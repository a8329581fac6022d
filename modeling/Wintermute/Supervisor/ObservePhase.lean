import Wintermute.Supervisor.Projection

/-!
# The observation phase through one child

An iteration of the observation loop that probes another child does not move the
projection of a child, and the iteration on the child itself is the machine's
probe.  The aborting loop over the snapshot then does one of three things to the
child: nothing because it does not run, nothing because an earlier probe failed,
or exactly its probe.

Main results:

- Theorem {lit}`mem_runningChildren_iff`: the snapshot holds the children
  believed to run.
- Theorem {lit}`observePhase_probes`: what the phase does to a running child.
- Theorem {lit}`observePhase_life`: the phase through the projection.
- Theorem {lit}`observePhase_continues`: what the phase keeps of the world.
-/

namespace Wintermute
namespace Supervisor

open Foundation

variable {env : Environment} {c : String}

variable {acc : List String × World}

/-! ## One iteration -/

theorem probeChild_continues (acc : List String × World) (child : String × UInt32) :
    Continues acc.2 (probeChild env acc child).2.2 := by
  obtain ⟨name, pid⟩ := child
  unfold probeChild
  dsimp only
  have hnote := Continues.note acc.2
    (.stillRunning name pid (env.spawner.stillRunning acc.2.log pid))
  split
  · exact hnote
  · exact hnote
  · split
    · exact hnote.trans (continues_update (ChildState.markExited_name pid) _)
    · exact hnote.trans (continues_update (ChildState.markExited_name pid) _)

/-- Probing another child is invisible. -/
theorem probeChild_frame {child : String × UInt32} (hne : child.1 ≠ c) :
    lifeOf c (probeChild env acc child).2.2 = lifeOf c acc.2 := by
  obtain ⟨name, pid⟩ := child
  have hnote : lifeOf c (acc.2.note
      (.stillRunning name pid (env.spawner.stillRunning acc.2.log pid))) = lifeOf c acc.2 :=
    lifeOf_note_none (by simp [eventAbout, hne])
  have hflip : ∀ w, lifeOf c (w.lock env (SupervisorView.update
      (fun slot => slot.name == name && decide (slot.status = .running))
      (ChildState.markExited pid))).2 = lifeOf c w := by
    intro w
    apply lifeOf_lock_frame
    intro view _
    apply slot_update_ne (ChildState.markExited_name pid)
    intro slot hslot
    exact name_test_ne hne slot (Bool.and_eq_true_iff.mp hslot).1
  unfold probeChild
  dsimp only
  split
  · exact hnote
  · exact hnote
  · split
    · exact (hflip _).trans hnote
    · exact (hflip _).trans hnote

/-- Probing the child is the machine's probe. -/
theorem probeChild_own (acc : List String × World) (pid : UInt32) :
    lifeOf c (probeChild env acc (c, pid)).2.2 =
      (lifeOf c acc.2).probed pid (env.spawner.stillRunning acc.2.log pid) := by
  have hnote : lifeOf c (acc.2.note
      (.stillRunning c pid (env.spawner.stillRunning acc.2.log pid))) =
        (lifeOf c acc.2).note (.probe pid (env.spawner.stillRunning acc.2.log pid)) :=
    lifeOf_note_some (by simp [eventAbout])
  have hflip : ∀ w : World, lifeOf c (w.lock env (SupervisorView.update
      (fun slot => slot.name == c && decide (slot.status = .running))
      (ChildState.markExited pid))).2 = (lifeOf c w).edit (Life.lose pid) := by
    intro w
    apply lifeOf_lock
    intro view _
    have hfind := find_updateFirst_and ChildState.name c
      (fun slot => decide (slot.status = .running)) (ChildState.markExited_name pid) view.children
    simp only [decide_eq_true_eq] at hfind
    exact hfind
  unfold probeChild Life.probed
  dsimp only
  cases hanswer : env.spawner.stillRunning acc.2.log pid with
  | error e =>
      rw [hanswer] at hnote
      exact hnote
  | ok alive =>
      rw [hanswer] at hnote
      cases alive with
      | true => exact hnote
      | false =>
          dsimp only
          rw [← hnote]
          split
          · exact hflip _
          · exact hflip _

/-- An iteration succeeds exactly when the probe answers. -/
theorem probeChild_ok_iff (child : String × UInt32) :
    (probeChild env acc child).1 = .ok () ↔
      ∃ alive, env.spawner.stillRunning acc.2.log child.2 = .ok alive := by
  obtain ⟨name, pid⟩ := child
  unfold probeChild
  dsimp only
  split
  · rename_i hanswer
    simp [hanswer]
  · rename_i hanswer
    simp [hanswer]
  · rename_i hanswer
    split <;> simp [hanswer]

/-! ## The snapshot -/

/-- The snapshot holds the PID of every child believed to run, in the order of the
children. -/
theorem runningChildren_eq {view : SupervisorView} (hnodup : view.names.Nodup) :
    runningChildren view = snapshot view.runningPid view.names := by
  have hread := filterMap_eq_snapshot ChildState.name hnodup
    (fun slot => if slot.status = .running then slot.childPid else none)
  refine Eq.trans ?_ hread
  unfold runningChildren
  rw [List.filterMap_filter]
  apply List.filterMap_congr
  intro slot _
  by_cases hrunning : slot.status = .running
  · simp [hrunning]
  · simp [hrunning]

/-- The snapshot lists each running child once. -/
theorem runningChildren_nodup {view : SupervisorView} (hnodup : view.names.Nodup) :
    ((runningChildren view).map Prod.fst).Nodup := by
  rw [runningChildren_eq hnodup]
  exact hnodup.sublist (snapshot_keys_sublist _ _)

/-- The snapshot lists a child exactly when it is believed to run. -/
theorem mem_runningChildren_iff {view : SupervisorView} (hnodup : view.names.Nodup)
    {name : String} {pid : UInt32} :
    (name, pid) ∈ runningChildren view ↔ view.runningPid name = some pid := by
  rw [runningChildren_eq hnodup, mem_snapshot]
  constructor
  · exact fun h => h.2
  · intro hpid
    obtain ⟨slot, hslot, -⟩ := Option.bind_eq_some_iff.mp hpid
    exact ⟨mem_names_of_slot hslot, hpid⟩

/-! ## The phase -/

/-- No probe of the observation phase fails. -/
def ObserveCompletes (env : Environment) (w : World) : Prop :=
  ∃ transitions, (observeExits env w).1 = .ok transitions

/-- The world in which the observation loop starts. -/
def observeStart (env : Environment) (w : World) : World :=
  (w.lock env fun view => (runningChildren view, view)).2

theorem observeStart_continues (env : Environment) (w : World) :
    Continues w (observeStart env w) :=
  Continues.lock (fun _ => rfl)

theorem observePhase_eq (env : Environment) (w : World) :
    observePhase env w =
        (tryEach (probeChild env) (runningChildren w.view) ([], observeStart env w)).2.2 ∧
      (ObserveCompletes env w ↔
        (tryEach (probeChild env) (runningChildren w.view) ([], observeStart env w)).1 =
          .ok ()) := by
  have hsnap : (w.lock env fun view => (runningChildren view, view)).1 =
      runningChildren w.view := by
    simp [World.lock, runningChildren, dispatchAll_children]
  unfold observePhase ObserveCompletes observeExits observeStart
  dsimp only
  rw [hsnap]
  exact ⟨collect_snd _, collect_ok_iff _⟩

/-- The phase either stops before a running child, or probes it once in a world that
keeps what every probe keeps. -/
theorem observePhase_probes {w : World} {pid : UInt32} (hnodup : w.view.names.Nodup)
    (hpid : w.view.runningPid c = some pid) {J : World → Prop} (hstart : J (observeStart env w))
    (hprobe : ∀ acc child, J acc.2 → J (probeChild env acc child).2.2) :
    ¬ObserveCompletes env w ∧ lifeOf c (observePhase env w) = lifeOf c w ∨
      ∃ w', J w' ∧ lifeOf c (observePhase env w) =
          (lifeOf c w).probed pid (env.spawner.stillRunning w'.log pid) ∧
        (ObserveCompletes env w → ∃ alive, env.spawner.stillRunning w'.log pid = .ok alive) := by
  obtain ⟨hphase, hcompletes⟩ := observePhase_eq env w
  have hsame : lifeOf c (observeStart env w) = lifeOf c w :=
    lifeOf_lock_frame (fun _ _ => rfl)
  have hmem : (c, pid) ∈ runningChildren w.view := (mem_runningChildren_iff hnodup).mpr hpid
  rw [hphase, ← hsame]
  have hproject := tryEach_project (probeChild env) (fun acc : List String × World => J acc.2)
    (fun acc : List String × World => lifeOf c acc.2) Prod.fst
    (runningChildren_nodup hnodup) hmem
    (fun child _ acc hacc => hprobe acc child hacc)
    (fun child _ hne acc => probeChild_frame hne)
    ([], observeStart env w) hstart
  rcases hproject with ⟨e, herror, hlife⟩ | ⟨acc, hacc, hlife, hlife', hstop⟩
  · left
    rw [hcompletes, herror]
    exact ⟨by simp, hlife⟩
  · right
    refine ⟨acc.2, hacc, ?_, fun hdone => ?_⟩
    · rw [hlife', probeChild_own, hlife]
    · rw [hcompletes] at hdone
      apply (probeChild_ok_iff (c, pid)).mp
      rcases outcome_cases (probeChild env acc (c, pid)).1 with hok | ⟨e, herror⟩
      · exact hok
      · rw [hstop e herror, herror] at hdone
        cases hdone

/-- The observation phase through the projection of a child. -/
theorem observePhase_life {w : World} (hnodup : w.view.names.Nodup) (c : String) :
    Life.Observes (ProbeAnswer env w) (ObserveCompletes env w) (lifeOf c w)
      (lifeOf c (observePhase env w)) := by
  cases hpid : (lifeOf c w).runningPid with
  | none =>
      have hstart : lifeOf c (observeStart env w) = lifeOf c w :=
        lifeOf_lock_frame (fun _ _ => rfl)
      have hframe : ∀ child ∈ runningChildren w.view, ∀ acc : List String × World,
          lifeOf c (probeChild env acc child).2.2 = lifeOf c acc.2 := by
        intro child hchild acc
        apply probeChild_frame
        rintro rfl
        have hboth : none = some child.2 :=
          hpid.symm.trans ((mem_runningChildren_iff hnodup).mp hchild)
        cases hboth
      rw [(observePhase_eq env w).1,
        tryEach_frame (fun acc : List String × World => lifeOf c acc.2) _ hframe, hstart]
      exact .idle hpid
  | some pid =>
      rcases observePhase_probes hnodup hpid (observeStart_continues env w)
          (fun acc child hacc => hacc.trans (probeChild_continues acc child)) with
        ⟨hstop, hlife⟩ | ⟨w', hw', hlife, hok⟩
      · rw [hlife]
        exact .unvisited pid hpid hstop
      · rw [hlife]
        exact .visited pid _ hpid ⟨w'.log, hw'.log_suffix, rfl⟩ hok

/-- When every probe answers, the phase completes. -/
theorem observeCompletes_of_probe {w : World}
    (hprobe : ∀ log pid, w.log <:+ log → ∃ alive, env.spawner.stillRunning log pid = .ok alive) :
    ObserveCompletes env w := by
  rw [(observePhase_eq env w).2]
  apply tryEach_completes (fun acc : List String × World => Continues w acc.2)
  · intro child _ acc hacc
    exact ⟨hacc.trans (probeChild_continues acc child),
      (probeChild_ok_iff child).mpr (hprobe _ _ hacc.log_suffix)⟩
  · exact observeStart_continues env w

theorem observePhase_continues (env : Environment) (w : World) :
    Continues w (observePhase env w) := by
  rw [(observePhase_eq env w).1]
  exact tryEach_invariant (fun acc : List String × World => Continues w acc.2) _
    (fun child _ acc hacc => hacc.trans (probeChild_continues acc child)) _
    (observeStart_continues env w)

end Supervisor
end Wintermute
