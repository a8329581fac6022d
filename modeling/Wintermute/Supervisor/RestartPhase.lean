import Wintermute.Supervisor.Projection

/-!
# The restart phase through one child

An iteration of the restart loop on another child does not move the projection
of a child; the iteration on the child itself records the restart and then
launches the child or puts it into backoff.  The wake-up time is scheduled later,
from the outcomes of the whole loop, so it is lost when the loop leaves with an
error.

Main results:

- Theorems {lit}`restartChild_launched` and {lit}`restartChild_backedOff`: the
  iteration on the child itself.
- Theorem {lit}`restartPhase_life`: the phase through the projection.
- Theorem {lit}`restartPhase_continues`: what the phase keeps of the world.
-/

namespace Wintermute
namespace Supervisor

open Foundation

variable {env : Environment} {c : String} {now : Instant}
variable {acc : List RestartOutcome × World}

/-! ## Outcomes -/

/-- The outcome puts the child into backoff. -/
def RestartOutcome.isBackoffOf (c : String) : RestartOutcome → Bool
  | .restarted _ _ _ => false
  | .enteredBackoff name _ => decide (name = c)

/-- Scheduling the wake-ups of a list of outcomes sets the due time of exactly the
children that entered backoff. -/
theorem foldl_schedule (now : Instant) (outcomes : List RestartOutcome)
    (due : String → Option Instant) (c : String) :
    outcomes.foldl (schedule now) due c =
      if outcomes.any (RestartOutcome.isBackoffOf c) then
        some (now + Duration.fromSecs backoffSecs)
      else due c := by
  induction outcomes generalizing due with
  | nil => rfl
  | cons outcome outcomes ih =>
      rw [List.foldl_cons, ih, List.any_cons]
      cases outcome with
      | restarted name pid count => rfl
      | enteredBackoff name n =>
          by_cases hname : name = c
          · simp [schedule, RestartOutcome.isBackoffOf, hname]
          · have hne : c ≠ name := Ne.symm hname
            simp [schedule, RestartOutcome.isBackoffOf, hname, hne]

/-! ## Recording a restart -/

theorem recordRestart_continues (now : Instant) (name : String) (w : World) :
    Continues w (recordRestart now name w) :=
  ⟨rfl, rfl, List.suffix_rfl⟩

theorem lifeOf_recordRestart_self (now : Instant) (w : World) (c : String) :
    lifeOf c (recordRestart now c w) = (lifeOf c w).recorded now := by
  simp [lifeOf, recordRestart, Life.recorded]

theorem lifeOf_recordRestart_ne {name : String} (hne : name ≠ c) (now : Instant) (w : World) :
    lifeOf c (recordRestart now name w) = lifeOf c w := by
  simp [lifeOf, recordRestart, Function.update_of_ne hne.symm]

/-! ## Relaunch -/

/-- The launch request of the restart loop. -/
def relaunchSpec (name execName : String) : ChildSpec where
  name := name
  exec := execName
  args := []

theorem relaunchChild_continues (name execName : String) (w : World) :
    Continues w (relaunchChild env name execName w).2 := by
  have hnote := Continues.note w (.start (relaunchSpec name execName)
    (env.spawner.start w.log (relaunchSpec name execName)))
  unfold relaunchChild
  dsimp only
  split
  · exact hnote
  · exact hnote.trans (continues_update (ChildState.markRestarted_name _) _)

theorem relaunchChild_frame {name : String} (hne : name ≠ c) (execName : String) (w : World) :
    lifeOf c (relaunchChild env name execName w).2 = lifeOf c w := by
  have hnote : lifeOf c (w.note (.start (relaunchSpec name execName)
      (env.spawner.start w.log (relaunchSpec name execName)))) = lifeOf c w :=
    lifeOf_note_none (by simp [eventAbout, relaunchSpec, hne])
  unfold relaunchChild
  dsimp only
  split
  · exact hnote
  · rw [lifeOf_lock_update (ChildState.markRestarted_name _), if_neg hne]
    exact hnote

/-- Relaunching the child: what the answer of the launcher makes of it. -/
theorem relaunchChild_own (execName : String) (w : World) :
    lifeOf c (relaunchChild env c execName w).2 =
      match env.spawner.start w.log (relaunchSpec c execName) with
      | .ok started => ((lifeOf c w).note (.start (relaunchSpec c execName) (.ok started))).edit
          (ChildState.markRestarted started.childPid)
      | .error e => (lifeOf c w).note (.start (relaunchSpec c execName) (.error e)) := by
  have hnote : ∀ answer, lifeOf c (w.note (.start (relaunchSpec c execName) answer)) =
      (lifeOf c w).note (.start (relaunchSpec c execName) answer) :=
    fun answer => lifeOf_note_some (by simp [eventAbout, relaunchSpec])
  unfold relaunchChild
  dsimp only
  cases hanswer : env.spawner.start w.log (relaunchSpec c execName) with
  | error e =>
      rw [relaunchSpec] at hanswer
      rw [hanswer]
      exact hnote _
  | ok started =>
      rw [relaunchSpec] at hanswer
      rw [hanswer]
      dsimp only
      rw [lifeOf_lock_update (ChildState.markRestarted_name _), if_pos rfl]
      exact congrArg _ (hnote _)

/-- A relaunch succeeds exactly when the launcher does, and then answers a restart
of that child. -/
theorem relaunchChild_fst (env : Environment) (name execName : String) (w : World) :
    (∃ started count, env.spawner.start w.log (relaunchSpec name execName) = .ok started ∧
      (relaunchChild env name execName w).1 = .ok (.restarted name started.childPid count)) ∨
    ∃ e e', env.spawner.start w.log (relaunchSpec name execName) = .error e ∧
      (relaunchChild env name execName w).1 = .error e' := by
  unfold relaunchChild
  dsimp only
  cases hanswer : env.spawner.start w.log (relaunchSpec name execName) with
  | error e =>
      right
      rw [relaunchSpec] at hanswer
      rw [hanswer]
      exact ⟨e, _, rfl, rfl⟩
  | ok started =>
      left
      rw [relaunchSpec] at hanswer
      rw [hanswer]
      exact ⟨started, _, rfl, rfl⟩

/-! ## One iteration -/

/-- Below the storm threshold the iteration ends like the relaunch. -/
theorem restartChild_below (env : Environment) (child : String × String)
    (hdelay : (((acc.2.trackers child.1).getD default).record now).1 = 0) :
    (restartChild env now acc child).2.2 =
        (relaunchChild env child.1 child.2 (recordRestart now child.1 acc.2)).2 ∧
      ((∃ pid count, (restartChild env now acc child).1 = .ok () ∧
          (restartChild env now acc child).2.1 = acc.1 ++ [.restarted child.1 pid count] ∧
          ∃ started, env.spawner.start acc.2.log (relaunchSpec child.1 child.2) = .ok started) ∨
        ∃ e e', (restartChild env now acc child).1 = .error e' ∧
          (restartChild env now acc child).2.1 = acc.1 ∧
          env.spawner.start acc.2.log (relaunchSpec child.1 child.2) = .error e) := by
  unfold restartChild
  dsimp only
  rw [if_pos hdelay]
  generalize hr : relaunchChild env child.1 child.2 (recordRestart now child.1 acc.2) = r
  have hfst := relaunchChild_fst env child.1 child.2 (recordRestart now child.1 acc.2)
  rw [hr] at hfst
  obtain ⟨result, w⟩ := r
  rcases hfst with ⟨started, count, hstart, rfl⟩ | ⟨e, e', hstart, rfl⟩
  · exact ⟨rfl, Or.inl ⟨_, _, rfl, rfl, started, hstart⟩⟩
  · exact ⟨rfl, Or.inr ⟨e, e', rfl, rfl, hstart⟩⟩

/-- At or above the storm threshold the iteration enters backoff. -/
theorem restartChild_above (env : Environment) (child : String × String)
    (hdelay : (((acc.2.trackers child.1).getD default).record now).1 ≠ 0) :
    restartChild env now acc child =
      let n := (((acc.2.trackers child.1).getD default).record now).2.restartsInWindow
      (.ok (), (acc.1 ++ [.enteredBackoff child.1 n],
        ((recordRestart now child.1 acc.2).lock env (SupervisorView.update
          (fun slot => slot.name == child.1) (ChildState.markBackoff n))).2)) := by
  unfold restartChild enterBackoff
  dsimp only
  rw [if_neg hdelay]

/-- An iteration fails exactly when the tracker asks for a launch and the launch
fails. -/
theorem restartChild_error_iff {child : String × String} :
    (∃ e, (restartChild env now acc child).1 = .error e) ↔
      (((acc.2.trackers child.1).getD default).record now).1 = 0 ∧
        ∃ e, env.spawner.start acc.2.log (relaunchSpec child.1 child.2) = .error e := by
  by_cases hdelay : (((acc.2.trackers child.1).getD default).record now).1 = 0
  · rcases (restartChild_below env child hdelay).2 with
      ⟨pid, count, hok, -, started, hstart⟩ | ⟨e, e', herror, -, hstart⟩
    · simp [hok, hstart]
    · simp [herror, hstart, hdelay]
  · rw [restartChild_above env child hdelay]
    simp [hdelay]

theorem restartChild_ok_iff {child : String × String} :
    (restartChild env now acc child).1 = .ok () ↔
      (((acc.2.trackers child.1).getD default).record now).1 ≠ 0 ∨
        ∃ started, env.spawner.start acc.2.log (relaunchSpec child.1 child.2) = .ok started := by
  have hresult : (restartChild env now acc child).1 = .ok () ↔
      ¬∃ e, (restartChild env now acc child).1 = .error e := by
    rcases outcome_cases (restartChild env now acc child).1 with hok | ⟨e, herror⟩
    · simp [hok]
    · simp [herror]
  rw [hresult, restartChild_error_iff, not_and_or]
  cases env.spawner.start acc.2.log (relaunchSpec child.1 child.2) <;> simp

theorem restartChild_continues (now : Instant) (acc : List RestartOutcome × World)
    (child : String × String) : Continues acc.2 (restartChild env now acc child).2.2 := by
  have hrecorded := recordRestart_continues now child.1 acc.2
  by_cases hdelay : (((acc.2.trackers child.1).getD default).record now).1 = 0
  · rw [(restartChild_below env child hdelay).1]
    exact hrecorded.trans (relaunchChild_continues _ _ _)
  · rw [restartChild_above env child hdelay]
    exact hrecorded.trans (continues_update (ChildState.markBackoff_name _) _)

/-- What the restart loop holds about a child: its life, and whether an outcome
puts it into backoff. -/
def restartView (c : String) (acc : List RestartOutcome × World) : Life × Bool :=
  (lifeOf c acc.2, acc.1.any (RestartOutcome.isBackoffOf c))

/-- Below the storm threshold an iteration reports no backoff. -/
theorem restartChild_below_reports (env : Environment) {child : String × String}
    {acc : List RestartOutcome × World}
    (hdelay : (((acc.2.trackers child.1).getD default).record now).1 = 0) :
    (restartChild env now acc child).2.1.any (RestartOutcome.isBackoffOf c) =
      acc.1.any (RestartOutcome.isBackoffOf c) := by
  rcases (restartChild_below env child hdelay).2 with
    ⟨pid, count, -, hout, -⟩ | ⟨e, e', -, hout, -⟩
  · rw [hout]
    simp [List.any_append, RestartOutcome.isBackoffOf]
  · rw [hout]

/-- Restarting another child is invisible. -/
theorem restartChild_frame (env : Environment) (now : Instant)
    (acc : List RestartOutcome × World) {child : String × String} (hne : child.1 ≠ c) :
    restartView c (restartChild env now acc child).2 = restartView c acc := by
  have hrecorded := lifeOf_recordRestart_ne hne now acc.2
  unfold restartView
  by_cases hdelay : (((acc.2.trackers child.1).getD default).record now).1 = 0
  · have hworld := (restartChild_below env child hdelay).1
    rw [hworld, relaunchChild_frame hne, hrecorded, restartChild_below_reports env hdelay]
  · rw [restartChild_above env child hdelay]
    dsimp only
    rw [lifeOf_lock_update (ChildState.markBackoff_name _), if_neg hne, hrecorded]
    simp [List.any_append, RestartOutcome.isBackoffOf, hne]

/-- Below the storm threshold the iteration on the child is the machine's
relaunch. -/
theorem restartChild_launched (env : Environment) (acc : List RestartOutcome × World)
    (execName : String) (hdelay : ((lifeOf c acc.2).tracker.record now).1 = 0) :
    restartView c (restartChild env now acc (c, execName)).2 =
      ((lifeOf c acc.2).launched now (relaunchSpec c execName)
        (env.spawner.start acc.2.log (relaunchSpec c execName)),
        acc.1.any (RestartOutcome.isBackoffOf c)) := by
  have hworld := (restartChild_below env (c, execName) hdelay).1
  have hlife : lifeOf c (restartChild env now acc (c, execName)).2.2 =
      (lifeOf c acc.2).launched now (relaunchSpec c execName)
        (env.spawner.start acc.2.log (relaunchSpec c execName)) := by
    rw [hworld, relaunchChild_own, lifeOf_recordRestart_self]
    change (match env.spawner.start acc.2.log (relaunchSpec c execName) with
      | .ok started => _
      | .error e => _ : Life) = _
    unfold Life.launched
    cases env.spawner.start acc.2.log (relaunchSpec c execName) <;> rfl
  exact Prod.ext hlife (restartChild_below_reports env hdelay)

/-- At or above the storm threshold the iteration on the child trips the machine's
storm gate and reports it. -/
theorem restartChild_backedOff (env : Environment) (acc : List RestartOutcome × World)
    (execName : String) (hdelay : ((lifeOf c acc.2).tracker.record now).1 ≠ 0) :
    restartView c (restartChild env now acc (c, execName)).2 =
      ((lifeOf c acc.2).backedOff now, true) := by
  unfold restartView
  rw [restartChild_above env (c, execName) hdelay]
  dsimp only
  rw [lifeOf_lock_update (ChildState.markBackoff_name _), if_pos rfl, lifeOf_recordRestart_self]
  simp [List.any_append, RestartOutcome.isBackoffOf, Life.backedOff, lifeOf, Life.recorded]

/-! ## The snapshot -/

/-- The executable under which an exited child is relaunched: its own name. -/
def exitedName (view : SupervisorView) (c : String) : Option String :=
  if view.status c = some .exited then some c else none

/-- The snapshot holds every exited child, in the order of the children. -/
theorem exitedChildren_eq {view : SupervisorView} (hnodup : view.names.Nodup) :
    exitedChildren view = snapshot (exitedName view) view.names := by
  have hread := filterMap_eq_snapshot ChildState.name hnodup
    (fun slot => if slot.status = .exited then some slot.name else none)
  have hentries : exitedChildren view = view.children.filterMap
      (fun slot => (if slot.status = .exited then some slot.name else none).map
        (Prod.mk slot.name)) := by
    unfold exitedChildren
    rw [← List.filterMap_eq_map, List.filterMap_filter]
    apply List.filterMap_congr
    intro slot _
    by_cases hexited : slot.status = .exited
    · simp [hexited]
    · simp [hexited]
  rw [hentries, hread]
  apply snapshot_congr
  intro c _
  change (view.slot c).bind _ = _
  unfold exitedName SupervisorView.status
  cases hslot : view.slot c with
  | none => rfl
  | some slot =>
      have hname : slot.name = c := by simpa using List.find?_some hslot
      simp [hname]

/-- The snapshot lists each exited child once. -/
theorem exitedChildren_nodup {view : SupervisorView} (hnodup : view.names.Nodup) :
    ((exitedChildren view).map Prod.fst).Nodup := by
  rw [exitedChildren_eq hnodup]
  exact hnodup.sublist (snapshot_keys_sublist _ _)

/-- The snapshot lists a child exactly when it is exited, under its own name. -/
theorem mem_exitedChildren_iff {view : SupervisorView} (hnodup : view.names.Nodup)
    {child : String × String} :
    child ∈ exitedChildren view ↔
      view.status child.1 = some .exited ∧ child = (child.1, child.1) := by
  obtain ⟨name, execName⟩ := child
  rw [exitedChildren_eq hnodup, mem_snapshot, exitedName]
  constructor
  · rintro ⟨-, hname⟩
    obtain ⟨hexited, hsame⟩ := Option.ite_none_right_eq_some.mp hname
    exact ⟨hexited, by rw [← Option.some.inj hsame]⟩
  · rintro ⟨hexited, hsame⟩
    obtain ⟨slot, hslot, -⟩ := Option.map_eq_some_iff.mp hexited
    have hexec : execName = name := congrArg Prod.snd hsame
    rw [hexec]
    exact ⟨mem_names_of_slot hslot, if_pos hexited⟩

/-! ## The phase -/

/-- No launch of the restart phase fails. -/
def RestartCompletes (env : Environment) (now : Instant) (w : World) : Prop :=
  ∃ outcomes, (restartExited env now w).1 = .ok outcomes

/-- The answers the restart phase can get for one child: it launches the child
under its own name, without arguments. -/
def RelaunchAnswer (env : Environment) (c : String) (w : World) (spec : ChildSpec)
    (answer : Result StartedChild) : Prop :=
  spec = relaunchSpec c c ∧ StartAnswer env w spec answer

/-- The world in which the restart loop starts. -/
def restartStart (env : Environment) (w : World) : World :=
  (w.lock env fun view => (exitedChildren view, view)).2

theorem restartStart_continues (env : Environment) (w : World) :
    Continues w (restartStart env w) :=
  Continues.lock (fun _ => rfl)

/-- The restart loop of a world. -/
def restartLoop (env : Environment) (now : Instant) (w : World) :
    Result Unit × (List RestartOutcome × World) :=
  tryEach (restartChild env now) (exitedChildren w.view) ([], restartStart env w)

theorem restartExited_eq (env : Environment) (now : Instant) (w : World) :
    restartExited env now w = collect (restartLoop env now w) := by
  have hsnap : (w.lock env fun view => (exitedChildren view, view)).1 =
      exitedChildren w.view := by
    simp [World.lock, exitedChildren, dispatchAll_children]
  unfold restartExited restartLoop restartStart
  dsimp only
  rw [hsnap]

theorem restartCompletes_iff (env : Environment) (now : Instant) (w : World) :
    RestartCompletes env now w ↔ (restartLoop env now w).1 = .ok () := by
  unfold RestartCompletes
  rw [restartExited_eq]
  exact collect_ok_iff _

/-- A launcher that answers from now on completes the phase. -/
theorem restartCompletes_of_start {w : World}
    (hstart : ∀ log spec, w.log <:+ log → ∃ child, env.spawner.start log spec = .ok child)
    (now : Instant) : RestartCompletes env now w := by
  rw [restartCompletes_iff]
  apply tryEach_completes (fun acc : List RestartOutcome × World => Continues w acc.2)
  · intro child _ acc hacc
    refine ⟨hacc.trans (restartChild_continues now acc child), ?_⟩
    rcases outcome_cases (restartChild env now acc child).1 with hok | herror
    · exact hok
    · obtain ⟨-, e, hfail⟩ := restartChild_error_iff.mp herror
      obtain ⟨started, hok⟩ := hstart acc.2.log (relaunchSpec child.1 child.2) hacc.log_suffix
      rw [hok] at hfail
      cases hfail
  · exact restartStart_continues env w

/-- The view of a child when the loop starts. -/
theorem restartView_start (env : Environment) (w : World) (c : String) :
    restartView c ([], restartStart env w) = (lifeOf c w, false) :=
  Prod.ext (lifeOf_lock_frame (fun _ _ => rfl)) rfl

/-- What a completed phase makes of the view of a child: it schedules the wake-up
that an outcome asks for. -/
def scheduled (now : Instant) (seen : Life × Bool) : Life :=
  { seen.1 with
    due := if seen.2 then some (now + Duration.fromSecs backoffSecs) else seen.1.due }

/-- A completed phase schedules the wake-ups of its outcomes. -/
theorem restartPhase_done {w : World} (h : RestartCompletes env now w) :
    restartPhase env now w =
      { (restartLoop env now w).2.2 with
        backoffUntil := (restartLoop env now w).2.1.foldl (schedule now)
          (restartLoop env now w).2.2.backoffUntil } := by
  rw [restartCompletes_iff] at h
  rw [restartPhase, restartExited_eq, collect_ok h]

/-- An aborted phase only keeps the world its loop reached. -/
theorem restartPhase_stopped {w : World} (h : ¬RestartCompletes env now w) :
    restartPhase env now w = (restartLoop env now w).2.2 := by
  rw [restartCompletes_iff] at h
  rw [restartPhase, restartExited_eq]
  rcases outcome_cases (restartLoop env now w).1 with hok | ⟨e, herror⟩
  · exact absurd hok h
  · rw [collect_error herror]

/-- What the phase makes of one child. -/
theorem lifeOf_restartPhase (env : Environment) (now : Instant) (w : World) (c : String) :
    (RestartCompletes env now w →
        lifeOf c (restartPhase env now w) =
          scheduled now (restartView c (restartLoop env now w).2)) ∧
      (¬RestartCompletes env now w →
        lifeOf c (restartPhase env now w) = (restartView c (restartLoop env now w).2).1) := by
  refine ⟨fun h => ?_, fun h => by rw [restartPhase_stopped h]; rfl⟩
  rw [restartPhase_done h]
  exact congrArg
    (fun due => ({ lifeOf c (restartLoop env now w).2.2 with due := due } : Life))
    (foldl_schedule now _ _ c)

/-- The phase leaves a child to what the loop holds about it, and to whether it
completed. -/
theorem restartPhase_congr {env' : Environment} {w w' : World}
    (hview : restartView c (restartLoop env now w).2 = restartView c (restartLoop env' now w').2)
    (hiff : RestartCompletes env now w ↔ RestartCompletes env' now w') :
    lifeOf c (restartPhase env now w) = lifeOf c (restartPhase env' now w') := by
  obtain ⟨hdone, hstopped⟩ := lifeOf_restartPhase env now w c
  obtain ⟨hdone', hstopped'⟩ := lifeOf_restartPhase env' now w' c
  by_cases hcompletes : RestartCompletes env now w
  · rw [hdone hcompletes, hdone' (hiff.mp hcompletes), hview]
  · rw [hstopped hcompletes, hstopped' (fun h => hcompletes (hiff.mpr h)), hview]

/-- A child for which the loop scheduled nothing ends as the loop left it. -/
theorem lifeOf_restartPhase_of_view {w : World} {l : Life}
    (hview : restartView c (restartLoop env now w).2 = (l, false)) :
    lifeOf c (restartPhase env now w) = l := by
  obtain ⟨hdone, hstopped⟩ := lifeOf_restartPhase env now w c
  by_cases hcompletes : RestartCompletes env now w
  · rw [hdone hcompletes, hview]
    rfl
  · rw [hstopped hcompletes, hview]

/-- The loop does not touch a child that is not exited. -/
theorem restartLoop_idle {w : World} (hnodup : w.view.names.Nodup)
    (hstatus : (lifeOf c w).status ≠ some .exited) :
    restartView c (restartLoop env now w).2 = (lifeOf c w, false) := by
  rw [← restartView_start env w c]
  apply tryEach_frame (restartView c)
  intro child hchild acc
  apply restartChild_frame
  rintro rfl
  exact hstatus ((mem_exitedChildren_iff hnodup).mp hchild).1

/-- The loop stops in front of an exited child, or runs its iteration once and
completes only if that iteration does. -/
theorem restartLoop_exited {w : World} (hnodup : w.view.names.Nodup)
    (hstatus : (lifeOf c w).status = some .exited) :
    (¬RestartCompletes env now w ∧
        restartView c (restartLoop env now w).2 = (lifeOf c w, false)) ∨
      ∃ acc : List RestartOutcome × World, Continues w acc.2 ∧
        restartView c acc = (lifeOf c w, false) ∧
        restartView c (restartLoop env now w).2 =
          restartView c (restartChild env now acc (c, c)).2 ∧
        (RestartCompletes env now w → (restartChild env now acc (c, c)).1 = .ok ()) := by
  have hmem : (c, c) ∈ exitedChildren w.view :=
    (mem_exitedChildren_iff hnodup).mpr ⟨hstatus, rfl⟩
  have hstart : restartView c ([], restartStart env w) = (lifeOf c w, false) :=
    restartView_start env w c
  rw [restartCompletes_iff]
  rcases tryEach_project (restartChild env now)
      (fun acc : List RestartOutcome × World => Continues w acc.2) (restartView c) Prod.fst
      (exitedChildren_nodup hnodup) hmem
      (fun child _ acc hacc => hacc.trans (restartChild_continues now acc child))
      (fun child _ hne acc => restartChild_frame env now acc hne)
      ([], restartStart env w) (restartStart_continues env w) with
    ⟨e, herror, hview⟩ | ⟨acc, hacc, hview, hview', hstop⟩
  · refine Or.inl ⟨?_, hview.trans hstart⟩
    rw [restartLoop, herror]
    simp
  · refine Or.inr ⟨acc, hacc, hview.trans hstart, hview', ?_⟩
    intro hcompletes
    rcases outcome_cases (restartChild env now acc (c, c)).1 with hok | ⟨e, herror⟩
    · exact hok
    · rw [restartLoop, hstop e herror, herror] at hcompletes
      cases hcompletes

/-- The restart phase through the projection of a child. -/
theorem restartPhase_life {w : World} (hnodup : w.view.names.Nodup) (now : Instant)
    (c : String) :
    Life.Restarts (RelaunchAnswer env c w) (RestartCompletes env now w) now (lifeOf c w)
      (lifeOf c (restartPhase env now w)) := by
  by_cases hstatus : (lifeOf c w).status = some .exited
  · rcases restartLoop_exited hnodup hstatus with ⟨hnot, hview⟩ | ⟨acc, hacc, hview, hview', hok⟩
    · rw [lifeOf_restartPhase_of_view hview]
      exact .unvisited hstatus hnot
    · have hsame : lifeOf c acc.2 = lifeOf c w := congrArg Prod.fst hview
      have hnone : acc.1.any (RestartOutcome.isBackoffOf c) = false := congrArg Prod.snd hview
      by_cases hdelay : ((lifeOf c w).tracker.record now).1 = 0
      · rw [restartChild_launched env acc c (by rw [hsame]; exact hdelay), hsame, hnone] at hview'
        rw [lifeOf_restartPhase_of_view hview']
        refine .visited _ _ hstatus hdelay ⟨rfl, acc.2.log, hacc.log_suffix, rfl⟩ ?_
        intro hcompletes
        rcases restartChild_ok_iff.mp (hok hcompletes) with hbackoff | hstarted
        · exact absurd (hsame ▸ hdelay : ((lifeOf c acc.2).tracker.record now).1 = 0) hbackoff
        · exact hstarted
      · obtain ⟨hdone, hstopped⟩ := lifeOf_restartPhase env now w c
        rw [restartChild_backedOff env acc c (by rw [hsame]; exact hdelay), hsame] at hview'
        by_cases hcompletes : RestartCompletes env now w
        · rw [hdone hcompletes, hview']
          exact .scheduled hstatus hdelay hcompletes
        · rw [hstopped hcompletes, hview']
          exact .forgotten hstatus hdelay hcompletes
  · rw [lifeOf_restartPhase_of_view (restartLoop_idle hnodup hstatus)]
    exact .idle hstatus

theorem restartPhase_continues (env : Environment) (now : Instant) (w : World) :
    Continues w (restartPhase env now w) := by
  have hloop : Continues w (restartLoop env now w).2.2 :=
    tryEach_invariant (fun acc : List RestartOutcome × World => Continues w acc.2) _
      (fun child _ acc hacc => hacc.trans (restartChild_continues now acc child)) _
      (restartStart_continues env w)
  by_cases hcompletes : RestartCompletes env now w
  · rw [restartPhase_done hcompletes]
    exact ⟨hloop.names_eq, hloop.pass_eq, hloop.log_suffix⟩
  · rw [restartPhase_stopped hcompletes]
    exact hloop

end Supervisor
end Wintermute
