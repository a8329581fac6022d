import Mathlib.Logic.Relation
import Wintermute.Supervisor.Refinement

/-!
# The supervisor as a transition system

One step is one critical section on the state mutex together with the call whose
answer it writes down, or an update of the observer's own maps.  Each step names
what the code knows when it takes it: the status its child has at that time, and
whether the supervisor is still starting up.  Invariants of the world are proved
step by step, on every exit path of the loops at once.

Main results:

- Relation {lit}`Step`: what the supervisor can do next.
- Theorem {lit}`runSpecs_steps`: every run is a sequence of steps.
- Theorem {lit}`runSpecs_invariant`: an invariant of the steps holds after every
  run.
-/

namespace Wintermute
namespace Supervisor

open Foundation

/-! ## Steps -/

/-- The specs of supervised children, in order. -/
def supervisedSpecs (specs : List ChildSpec) : List ChildSpec :=
  specs.filter fun spec => spec.name ∈ childStartupOrder

/-- The world after a launch of {lit}`spec` has answered {lit}`child` and the slot
has been changed by {lit}`mark`. -/
def launchedAs (env : Environment) (mark : UInt32 → ChildState → ChildState) (w : World)
    (spec : ChildSpec) (child : StartedChild) : World :=
  ((w.note (.start spec (.ok child))).lock env (SupervisorView.update
    (fun slot => slot.name == spec.name) (mark child.childPid))).2

/-- One step of a supervisor that is started with {lit}`specs`. -/
inductive Step (env : Environment) (specs : List ChildSpec) : World → World → Prop where
  | enter (w : World) (now : Instant) : Step env specs w { w with pass := some now }
  | look {α : Type} (w : World) (read : SupervisorView → α) :
      Step env specs w (w.lock env fun view => (read view, view)).2
  | starting (w : World) (spec : ChildSpec) (hpass : w.pass = none)
      (hstatus : ∀ status, w.view.status spec.name = some status → status = .pending) :
      Step env specs w (starting env w spec.name)
  | startFailed (w : World) (spec : ChildSpec) (e : Error) (hspec : spec ∈ specs)
      (hpass : w.pass = none) : Step env specs w (w.note (.start spec (.error e)))
  | started (w : World) (spec : ChildSpec) (child : StartedChild) (hspec : spec ∈ specs)
      (hpass : w.pass = none)
      (hstatus : ∀ status, w.view.status spec.name = some status → status = .starting) :
      Step env specs w (launchedAs env ChildState.markRunning w spec child)
  | probed (w : World) (name : String) (pid : UInt32) (answer : Result Bool) :
      Step env specs w (w.note (.stillRunning name pid answer))
  | lost (w : World) (name : String) (pid : UInt32) :
      Step env specs w (w.lock env (SupervisorView.update
        (fun c => c.name == name && decide (c.status = .running)) (ChildState.markExited pid))).2
  | recorded (w : World) (now : Instant) (name : String) :
      Step env specs w (recordRestart now name w)
  | restartFailed (w : World) (c : String) (e : Error) (hpass : w.pass ≠ none)
      (hstatus : w.view.status c = some .exited) :
      Step env specs w (w.note (.start (relaunchSpec c c) (.error e)))
  | restarted (w : World) (c : String) (child : StartedChild) (hpass : w.pass ≠ none)
      (hstatus : w.view.status c = some .exited) :
      Step env specs w (launchedAs env ChildState.markRestarted w (relaunchSpec c c) child)
  | backedOff (w : World) (c : String) (n : ℕ) (hstatus : w.view.status c = some .exited) :
      Step env specs w (w.lock env (SupervisorView.update (fun slot => slot.name == c)
        (ChildState.markBackoff n))).2
  | retried (w : World) (due : String → Option Instant) (now : Instant) :
      Step env specs w (clearExpiredBackoffs env due now w).2
  | scheduled (w : World) (due : String → Option Instant) :
      Step env specs w { w with backoffUntil := due }

/-- Any number of steps. -/
abbrev Steps (env : Environment) (specs : List ChildSpec) : World → World → Prop :=
  Relation.ReflTransGen (Step env specs)

variable {env : Environment} {specs : List ChildSpec}

/-! ## Start-up -/

/-- Children whose specs are still to be started: pending, or not supervised, and
no supervised one listed twice. -/
structure Unstarted (rest : List ChildSpec) (w : World) : Prop where
  names_eq : w.view.names = childStartupOrder
  pass_eq : w.pass = none
  nodup : ((supervisedSpecs rest).map ChildSpec.name).Nodup
  pending : ∀ spec ∈ rest, ∀ status, w.view.status spec.name = some status → status = .pending

theorem mem_names_of_status {view : SupervisorView} {c : String} {status : ChildStatus}
    (h : view.status c = some status) : c ∈ view.names := by
  obtain ⟨slot, hslot, -⟩ := Option.map_eq_some_iff.mp h
  exact mem_names_of_slot hslot

/-- The launcher is called for a child that has just been marked. -/
theorem starting_status {w : World} {c : String} {status : ChildStatus}
    (h : (starting env w c).view.status c = some status) : status = .starting := by
  have hlife : lifeOf c (starting env w c) = (lifeOf c w).edit ChildState.markStarting := by
    rw [starting, lifeOf_lock_update ChildState.markStarting_name, if_pos rfl]
  rw [← lifeOf_status, hlife, Life.status, Life.edit_slot, Option.map_map,
    Option.map_eq_some_iff] at h
  obtain ⟨slot, -, rfl⟩ := h
  rfl

/-- Starting a child leaves the others to be started. -/
theorem Unstarted.next {spec : ChildSpec} {rest : List ChildSpec} {w : World}
    (h : Unstarted (spec :: rest) w) : Unstarted rest (startSpec env w spec).2 := by
  have hcont : Continues w (startSpec env w spec).2 := startSpec_continues w spec
  have hnames := hcont.names_eq.trans h.names_eq
  refine ⟨hnames, hcont.pass_eq.trans h.pass_eq, ?_, ?_⟩
  · exact h.nodup.sublist (((List.sublist_cons_self spec rest).filter _).map _)
  · intro other hother status hstatus
    by_cases hne : spec.name = other.name
    · -- A second spec of this name could only be one that is not supervised.
      have hmem : other.name ∈ childStartupOrder := by
        rw [← hnames]
        exact mem_names_of_status hstatus
      have hnodup := h.nodup
      unfold supervisedSpecs at hnodup
      rw [List.filter_cons_of_pos (by simpa [hne] using hmem), List.map_cons,
        List.nodup_cons] at hnodup
      refine absurd ?_ hnodup.1
      rw [hne]
      exact List.mem_map_of_mem (List.mem_filter.mpr ⟨hother, by simpa using hmem⟩)
    · rw [← lifeOf_status, startSpec_frame hne] at hstatus
      exact h.pending other (List.mem_cons_of_mem spec hother) status hstatus

/-- One iteration of start-up is a sequence of steps. -/
theorem startSpec_steps {spec : ChildSpec} {rest : List ChildSpec} {w : World}
    (hspec : spec ∈ specs) (h : Unstarted (spec :: rest) w) :
    Steps env specs w (startSpec env w spec).2 := by
  have hmark : Step env specs w (starting env w spec.name) :=
    .starting w spec h.pass_eq (h.pending spec List.mem_cons_self)
  have hpass : (starting env w spec.name).pass = none :=
    (starting_continues env w spec.name).pass_eq.trans h.pass_eq
  rcases startSpec_cases env w spec with ⟨e, -, heq⟩ | ⟨child, -, heq⟩
  · rw [heq]
    exact .tail (.single hmark) (.startFailed _ spec e hspec hpass)
  · rw [heq]
    exact .tail (.single hmark)
      (.started _ spec child hspec hpass fun _ hstatus => starting_status hstatus)

theorem startLoop_steps {rest : List ChildSpec} (hrest : ∀ spec ∈ rest, spec ∈ specs)
    {w : World} (h : Unstarted rest w) :
    Steps env specs w (tryEach (startSpec env) rest w).2 := by
  induction rest generalizing w with
  | nil => exact .refl
  | cons spec rest ih =>
      have hhead : Steps env specs w (startSpec env w spec).2 :=
        startSpec_steps (hrest spec List.mem_cons_self) h
      rcases outcome_cases (startSpec env w spec).1 with hok | ⟨e, herror⟩
      · rw [tryEach_cons_ok hok]
        exact hhead.trans (ih (fun s hs => hrest s (List.mem_cons_of_mem spec hs)) h.next)
      · rw [tryEach_cons_error herror]
        exact hhead

/-- Start-up of a new supervisor is a sequence of steps. -/
theorem startSpecs_steps (env : Environment)
    (hnodup : ((supervisedSpecs specs).map ChildSpec.name).Nodup) :
    Steps env specs World.new (startSpecs env specs World.new).2 := by
  apply startLoop_steps (fun _ h => h)
  refine ⟨pendingFor_canonical_names, rfl, hnodup, ?_⟩
  intro spec _ status hstatus
  obtain ⟨slot, hslot, rfl⟩ := Option.map_eq_some_iff.mp hstatus
  exact (lifeOf_new_fresh spec.name).slot_pending slot hslot

/-! ## The phases of a pass -/

theorem clearPhase_steps (now : Instant) (w : World) :
    Steps env specs w (clearPhase env now w) :=
  .tail (.single (.retried w w.backoffUntil now)) (.scheduled _ _)

theorem probeChild_steps (acc : List String × World) (child : String × UInt32) :
    Steps env specs acc.2 (probeChild env acc child).2.2 := by
  obtain ⟨name, pid⟩ := child
  have hprobe : ∀ answer, Steps env specs acc.2 (acc.2.note (.stillRunning name pid answer)) :=
    fun answer => .single (.probed acc.2 name pid answer)
  unfold probeChild
  dsimp only
  split
  · exact hprobe _
  · exact hprobe _
  · split
    · exact .tail (hprobe _) (.lost _ name pid)
    · exact .tail (hprobe _) (.lost _ name pid)

theorem observePhase_steps (w : World) : Steps env specs w (observePhase env w) := by
  rw [(observePhase_eq env w).1]
  exact tryEach_invariant (fun acc : List String × World => Steps env specs w acc.2) _
    (fun child _ acc hacc => hacc.trans (probeChild_steps acc child)) _
    (.single (.look w runningChildren))

/-- A relaunch of an exited child is a step, whether it succeeds or not. -/
theorem relaunchChild_step {w : World} {c : String} (hpass : w.pass ≠ none)
    (hstatus : w.view.status c = some .exited) :
    Step env specs w (relaunchChild env c c w).2 := by
  unfold relaunchChild
  dsimp only
  cases hanswer : env.spawner.start w.log (relaunchSpec c c) with
  | error e =>
      rw [relaunchSpec] at hanswer
      rw [hanswer]
      exact .restartFailed w c e hpass hstatus
  | ok child =>
      rw [relaunchSpec] at hanswer
      rw [hanswer]
      exact .restarted w c child hpass hstatus

/-- One iteration of the restart loop on an exited child is a sequence of steps. -/
theorem restartChild_steps {now : Instant} {acc : List RestartOutcome × World} {c : String}
    (hpass : acc.2.pass ≠ none) (hstatus : acc.2.view.status c = some .exited) :
    Steps env specs acc.2 (restartChild env now acc (c, c)).2.2 := by
  have hrecord : Steps env specs acc.2 (recordRestart now c acc.2) :=
    .single (.recorded acc.2 now c)
  by_cases hdelay : (((acc.2.trackers c).getD default).record now).1 = 0
  · rw [(restartChild_below env (c, c) hdelay).1]
    exact hrecord.tail (relaunchChild_step hpass hstatus)
  · rw [restartChild_above env (c, c) hdelay]
    exact hrecord.tail (.backedOff _ c _ hstatus)

/-- The restart loop over children that are still exited. -/
theorem restartLoop_steps {now : Instant} {exited : List (String × String)}
    (acc : List RestartOutcome × World) (hpass : acc.2.pass ≠ none)
    (hnodup : (exited.map Prod.fst).Nodup)
    (hexited : ∀ child ∈ exited,
      acc.2.view.status child.1 = some .exited ∧ child = (child.1, child.1)) :
    Steps env specs acc.2 (tryEach (restartChild env now) exited acc).2.2 := by
  induction exited generalizing acc with
  | nil => exact .refl
  | cons child exited ih =>
      obtain ⟨hstatus, hsame⟩ := hexited child List.mem_cons_self
      have hhead : Steps env specs acc.2 (restartChild env now acc child).2.2 := by
        rw [hsame]
        exact restartChild_steps hpass hstatus
      rw [List.map_cons, List.nodup_cons] at hnodup
      rcases outcome_cases (restartChild env now acc child).1 with hok | ⟨e, herror⟩
      · rw [tryEach_cons_ok hok]
        refine hhead.trans (ih _ ?_ hnodup.2 ?_)
        · rw [(restartChild_continues now acc child).pass_eq]
          exact hpass
        · intro other hother
          obtain ⟨hother_status, hother_same⟩ :=
            hexited other (List.mem_cons_of_mem child hother)
          have hne : child.1 ≠ other.1 := by
            intro heq
            exact hnodup.1 (heq ▸ List.mem_map_of_mem hother)
          have hframe : lifeOf other.1 (restartChild env now acc child).2.2 =
              lifeOf other.1 acc.2 :=
            congrArg Prod.fst (restartChild_frame env now acc hne)
          rw [← lifeOf_status, hframe, lifeOf_status]
          exact ⟨hother_status, hother_same⟩
      · rw [tryEach_cons_error herror]
        exact hhead

theorem restartPhase_steps {now : Instant} {w : World} (hpass : w.pass ≠ none)
    (hnodup : w.view.names.Nodup) : Steps env specs w (restartPhase env now w) := by
  have hstart : ∀ c, lifeOf c (restartStart env w) = lifeOf c w :=
    fun _ => lifeOf_lock_frame (fun _ _ => rfl)
  have hlook : Steps env specs w (restartStart env w) := .single (.look w exitedChildren)
  have hloop : Steps env specs w (restartLoop env now w).2.2 := by
    refine hlook.trans (restartLoop_steps ([], restartStart env w) ?_
      (exitedChildren_nodup hnodup) ?_)
    · exact (restartStart_continues env w).pass_eq ▸ hpass
    · intro child hchild
      rw [← lifeOf_status, hstart, lifeOf_status]
      exact (mem_exitedChildren_iff hnodup).mp hchild
  by_cases hcompletes : RestartCompletes env now w
  · rw [restartPhase_done hcompletes]
    exact .tail hloop (.scheduled _ _)
  · rw [restartPhase_stopped hcompletes]
    exact hloop

/-! ## Runs -/

/-- A pass is a sequence of steps. -/
theorem observerPass_steps {now : Instant} {w : World} (hnodup : w.view.names.Nodup) :
    Steps env specs w (observerPass env now w) := by
  have hcont := observed_continues env now w
  have henter : Steps env specs w { w with pass := some now } := .single (.enter w now)
  have hobserved : Steps env specs w (observed env now w) :=
    (henter.trans (clearPhase_steps now _)).trans (observePhase_steps _)
  rw [observerPass_eq]
  refine hobserved.trans (restartPhase_steps ?_ ?_)
  · rw [hcont.pass_eq]
    simp
  · exact hcont.nodup hnodup

/-- Every run is a sequence of steps. -/
theorem runSpecs_steps (env : Environment)
    (hnodup : ((supervisedSpecs specs).map ChildSpec.name).Nodup) (times : List Instant) :
    Steps env specs World.new (runSpecs env specs times) := by
  induction times using List.reverseRecOn with
  | nil => exact startSpecs_steps env hnodup
  | append_singleton times now ih =>
      rw [runSpecs_snoc]
      exact ih.trans (observerPass_steps (runSpecs_nodup env specs times))

/-- An invariant of the steps holds after every run. -/
theorem runSpecs_invariant (J : World → Prop) (hnew : J World.new)
    (hstep : ∀ w w', J w → Step env specs w w' → J w')
    (hnodup : ((supervisedSpecs specs).map ChildSpec.name).Nodup) (times : List Instant) :
    J (runSpecs env specs times) := by
  have hsteps : Steps env specs World.new (runSpecs env specs times) :=
    runSpecs_steps env hnodup times
  generalize runSpecs env specs times = w at hsteps ⊢
  induction hsteps with
  | refl => exact hnew
  | tail _ hlast ih => exact hstep _ _ ih hlast

theorem supervisedSpecs_canonical_nodup :
    ((supervisedSpecs canonicalChildren).map ChildSpec.name).Nodup := by
  decide

/-- An invariant of the steps holds after every run that starts every child. -/
theorem run_invariant (J : World → Prop) (hnew : J World.new)
    (hstep : ∀ w w', J w → Step env canonicalChildren w w' → J w') (times : List Instant) :
    J (run env times) :=
  runSpecs_invariant J hnew hstep supervisedSpecs_canonical_nodup times

end Supervisor
end Wintermute
