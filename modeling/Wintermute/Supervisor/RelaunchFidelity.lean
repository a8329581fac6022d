import Wintermute.Supervisor.StormControl
import Wintermute.Supervisor.Steps

/-!
# What a relaunch launches

Start-up launches the specs it is given.  The restart phase has no specs any more: it
builds one from the name in the slot, takes that for the executable too and passes no
arguments.  The two agree exactly on the specs of the canonical form.

Main results:

- Theorem {lit}`launches_step`: what the launcher is called with.
- Theorem {lit}`crashLoop_relaunches`: every supervised child that start-up launches
  can be relaunched.
- Theorem {lit}`relaunch_faithful_iff`: relaunches are faithful in all runs exactly
  when the supervised specs are canonical.
- Theorem {lit}`relaunch_unfaithful`: a spec that is not relaunched as it was
  launched.
-/

namespace Wintermute
namespace Supervisor

open Foundation

/-! ## Launches -/

/-- Start-up called the launcher with the spec. -/
def LaunchedWith (log : List Event) (spec : ChildSpec) : Prop :=
  ∃ e ∈ log, e.pass = none ∧ ∃ answer, e.action = .start spec answer

/-- The restart phase called the launcher with the spec. -/
def RelaunchedWith (log : List Event) (spec : ChildSpec) : Prop :=
  ∃ e ∈ log, e.pass ≠ none ∧ ∃ answer, e.action = .start spec answer

/-- A child is relaunched with the name, the executable and the arguments with which
it was launched. -/
def RelaunchFaithful (log : List Event) : Prop :=
  ∀ first again, LaunchedWith log first → RelaunchedWith log again →
    again.name = first.name → again = first

/-- The executable is the name of the child, and there are no arguments. -/
def Canonical (spec : ChildSpec) : Prop :=
  spec.exec = spec.name ∧ spec.args = []

theorem canonical_iff (spec : ChildSpec) :
    Canonical spec ↔ relaunchSpec spec.name spec.name = spec := by
  obtain ⟨name, exec, args⟩ := spec
  unfold Canonical relaunchSpec
  rw [ChildSpec.mk.injEq]
  simp only [true_and]
  exact and_congr eq_comm eq_comm

section Steps

variable {env : Environment} {specs : List ChildSpec} {w w' : World}

/-- Start-up launches the given specs, the restart phase canonical specs of
supervised children. -/
structure Launches (specs : List ChildSpec) (w : World) : Prop where
  names_eq : w.view.names = childStartupOrder
  first : ∀ spec, LaunchedWith w.log spec → spec ∈ specs
  again : ∀ spec, RelaunchedWith w.log spec →
    spec.name ∈ childStartupOrder ∧ spec = relaunchSpec spec.name spec.name

/-- An action that launches nothing. -/
theorem Launches.quiet (h : Launches specs w) (hnames : w'.view.names = w.view.names)
    (newer : List Event) (hlog : w'.log = newer ++ w.log)
    (hnewer : ∀ e ∈ newer, ∀ spec answer, e.action ≠ .start spec answer) :
    Launches specs w' := by
  have hold : ∀ e ∈ w'.log, ∀ spec answer, e.action = .start spec answer → e ∈ w.log := by
    intro e he spec answer haction
    rw [hlog] at he
    rcases List.mem_append.mp he with he | he
    · exact absurd haction (hnewer e he spec answer)
    · exact he
  refine ⟨hnames.trans h.names_eq, ?_, ?_⟩
  · rintro spec ⟨e, he, hpass, answer, haction⟩
    exact h.first spec ⟨e, hold e he spec answer haction, hpass, answer, haction⟩
  · rintro spec ⟨e, he, hpass, answer, haction⟩
    exact h.again spec ⟨e, hold e he spec answer haction, hpass, answer, haction⟩

theorem Launches.lock {α : Type} {f : SupervisorView → α × SupervisorView}
    (h : Launches specs w) (hf : ∀ view, (f view).2.names = view.names) :
    Launches specs (w.lock env f).2 := by
  obtain ⟨served, hlog, hserved⟩ := lock_log env f w
  refine h.quiet (Continues.lock hf).names_eq _ (hlog.trans (List.cons_append ..).symm) ?_
  intro e he spec answer haction
  rcases List.mem_cons.mp he with rfl | he
  · cases haction
  · obtain ⟨req, resp, hreq⟩ := hserved e he
    rw [hreq] at haction
    cases haction

/-- A launch by start-up. -/
theorem Launches.first_start (h : Launches specs w) {spec : ChildSpec} (hspec : spec ∈ specs)
    (hpass : w.pass = none) (answer : Result StartedChild) :
    Launches specs (w.note (.start spec answer)) := by
  refine ⟨h.names_eq, ?_, ?_⟩
  · rintro spec' ⟨e, he, hnone, answer', haction⟩
    rcases List.mem_cons.mp he with rfl | he
    · cases haction
      exact hspec
    · exact h.first spec' ⟨e, he, hnone, answer', haction⟩
  · rintro spec' ⟨e, he, hsome, answer', haction⟩
    rcases List.mem_cons.mp he with rfl | he
    · exact absurd hpass hsome
    · exact h.again spec' ⟨e, he, hsome, answer', haction⟩

/-- A launch by the restart phase. -/
theorem Launches.start_again (h : Launches specs w) {c : String} (hpass : w.pass ≠ none)
    (hstatus : w.view.status c = some .exited) (answer : Result StartedChild) :
    Launches specs (w.note (.start (relaunchSpec c c) answer)) := by
  refine ⟨h.names_eq, ?_, ?_⟩
  · rintro spec ⟨e, he, hnone, answer', haction⟩
    rcases List.mem_cons.mp he with rfl | he
    · exact absurd hnone hpass
    · exact h.first spec ⟨e, he, hnone, answer', haction⟩
  · rintro spec ⟨e, he, hsome, answer', haction⟩
    rcases List.mem_cons.mp he with rfl | he
    · cases haction
      have hmem : c ∈ childStartupOrder := by
        rw [← h.names_eq]
        exact mem_names_of_status hstatus
      exact ⟨hmem, rfl⟩
    · exact h.again spec ⟨e, he, hsome, answer', haction⟩

/-- Every step keeps what the launcher is called with. -/
theorem launches_step (h : Launches specs w) (hstep : Step env specs w w') :
    Launches specs w' := by
  cases hstep with
  | enter _ now => exact ⟨h.names_eq, h.first, h.again⟩
  | look _ read => exact h.lock fun _ => rfl
  | starting _ spec => exact h.lock (names_update ChildState.markStarting_name _)
  | startFailed _ spec e hspec hpass => exact h.first_start hspec hpass _
  | started _ spec child hspec hpass =>
      exact (h.first_start hspec hpass _).lock (names_update (ChildState.markRunning_name _) _)
  | probed _ name pid answer =>
      refine h.quiet rfl [_] rfl ?_
      intro e he spec answer haction
      rw [List.mem_singleton.mp he] at haction
      cases haction
  | lost _ name pid => exact h.lock (names_update (ChildState.markExited_name pid) _)
  | recorded _ now name => exact ⟨h.names_eq, h.first, h.again⟩
  | restartFailed _ c e hpass hstatus => exact h.start_again hpass hstatus _
  | restarted _ c child hpass hstatus =>
      exact (h.start_again hpass hstatus _).lock (names_update (ChildState.markRestarted_name _) _)
  | backedOff _ c n => exact h.lock (names_update (ChildState.markBackoff_name n) _)
  | retried _ due now => exact h.lock fun view => names_retried view due now
  | scheduled _ due => exact ⟨h.names_eq, h.first, h.again⟩

theorem launches_run (env : Environment)
    (hnodup : ((supervisedSpecs specs).map ChildSpec.name).Nodup) (times : List Instant) :
    Launches specs (runSpecs env specs times) := by
  apply runSpecs_invariant (Launches specs) _ (fun _ _ => launches_step) hnodup
  refine ⟨pendingFor_canonical_names, ?_, ?_⟩
  · rintro spec ⟨e, he, -⟩
    cases he
  · rintro spec ⟨e, he, -⟩
    cases he

end Steps

/-! ## Every supervised child can be relaunched -/

section CrashLoop

variable {specs : List ChildSpec} {w : World}

/-- A first launch that answers leaves a supervised child running under its PID. -/
theorem started_ok_runningPid {l : Life} {slot : ChildState} (hslot : l.slot = some slot)
    (spec : ChildSpec) (child : StartedChild) :
    (l.started spec (.ok child)).runningPid = some child.childPid := by
  have hstarted : (l.started spec (.ok child)).slot =
      some ((slot.markStarting).markRunning child.childPid) := by
    change (((l.edit ChildState.markStarting).note (.start spec (.ok child))).edit
      (ChildState.markRunning child.childPid)).slot = _
    rw [Life.edit_slot, Life.note_slot, Life.edit_slot, hslot]
    rfl
  rw [Life.runningPid, hstarted]
  rfl

/-- Starting a spec in the crash loop launches it, and its child runs. -/
theorem crashLoop_startSpec (w : World) (spec : ChildSpec) :
    (startSpec crashLoop w spec).1 = .ok () ∧
      (∃ answer, ⟨w.pass, .start spec answer⟩ ∈ (startSpec crashLoop w spec).2.log) ∧
      (spec.name ∈ w.view.names →
        (startSpec crashLoop w spec).2.view.runningPid spec.name = some 1) := by
  have hpass := (starting_continues crashLoop w spec.name).pass_eq
  rcases startSpec_cases crashLoop w spec with ⟨e, hanswer, -⟩ | ⟨child, -, heq⟩
  · cases hanswer
  refine ⟨by rw [heq], ⟨.ok child, ?_⟩, ?_⟩
  · obtain ⟨served, hlog, -⟩ := lock_log crashLoop
      (SupervisorView.update (fun slot => slot.name == spec.name)
        (ChildState.markRunning child.childPid))
      ((starting crashLoop w spec.name).note (.start spec (.ok child)))
    rw [heq, hlog, note_log, hpass]
    simp
  · intro hname
    obtain ⟨slot, hslot, hslot_name⟩ := List.mem_map.mp hname
    have hsome : (w.view.slot spec.name).isSome = true :=
      List.find?_isSome.mpr ⟨slot, hslot, by simp [hslot_name]⟩
    obtain ⟨found, hfound⟩ := Option.isSome_iff_exists.mp hsome
    change (lifeOf spec.name (startSpec crashLoop w spec).2).runningPid = some 1
    rw [(startSpec_own crashLoop rfl w).1]
    exact started_ok_runningPid hfound spec ⟨spec.name, 1, 1⟩

/-- In the crash loop start-up launches every spec, and the listed children run. -/
theorem crashLoop_startSpecs (specs : List ChildSpec) (w : World) (hpass : w.pass = none) :
    ∀ spec ∈ specs, LaunchedWith (startSpecs crashLoop specs w).2.log spec ∧
      (spec.name ∈ w.view.names →
        (startSpecs crashLoop specs w).2.view.runningPid spec.name = some 1) := by
  have hkeeps : ∀ (rest : List ChildSpec) (w : World) (c : String), c ∈ w.view.names →
      w.view.runningPid c = some 1 →
      (startSpecs crashLoop rest w).2.view.runningPid c = some 1 := by
    intro rest w c hc hrunning
    refine (tryEach_invariant (fun w : World => c ∈ w.view.names ∧ w.view.runningPid c = some 1)
      rest ?_ w ⟨hc, hrunning⟩).2
    rintro spec _ w' ⟨hmem, hw'⟩
    refine ⟨by rw [(startSpec_continues w' spec).names_eq]; exact hmem, ?_⟩
    by_cases hname : spec.name = c
    · subst hname
      exact (crashLoop_startSpec w' spec).2.2 hmem
    · change (lifeOf c (startSpec crashLoop w' spec).2).runningPid = some 1
      rw [startSpec_frame hname]
      exact hw'
  induction specs generalizing w with
  | nil => simp
  | cons spec rest ih =>
      obtain ⟨hok, ⟨answer, hmem⟩, hrunning⟩ := crashLoop_startSpec w spec
      have hcont : Continues w (startSpec crashLoop w spec).2 := startSpec_continues w spec
      have hloop : (startSpecs crashLoop (spec :: rest) w).2 =
          (startSpecs crashLoop rest (startSpec crashLoop w spec).2).2 :=
        congrArg Prod.snd (tryEach_cons_ok hok)
      rw [hloop]
      intro other hother
      rcases List.mem_cons.mp hother with rfl | hother
      · have hsuffix := startSpecs_continues crashLoop rest (startSpec crashLoop w other).2
        refine ⟨⟨_, hsuffix.log_suffix.subset hmem, hpass, answer, rfl⟩, fun hname => ?_⟩
        exact hkeeps rest _ other.name (by rw [hcont.names_eq]; exact hname) (hrunning hname)
      · rw [← hcont.names_eq]
        exact ih _ (hcont.pass_eq.trans hpass) other hother

theorem startSpecs_trackers (env : Environment) (specs : List ChildSpec) (w : World) :
    (startSpecs env specs w).2.trackers = w.trackers := by
  refine tryEach_invariant (fun w' : World => w'.trackers = w.trackers) specs ?_ w rfl
  intro spec _ w' hw'
  have hstarting : (starting env w' spec.name).trackers = w'.trackers := lock_trackers
  rcases startSpec_cases env w' spec with ⟨e, -, heq⟩ | ⟨child, -, heq⟩
  · rw [heq]
    exact hstarting.trans hw'
  · rw [heq]
    exact lock_trackers.trans (hstarting.trans hw')

/-- No probe of the crash loop fails. -/
theorem crashLoop_observeCompletes (w : World) : ObserveCompletes crashLoop w := by
  rw [(observePhase_eq crashLoop w).2]
  apply tryEach_completes (fun _ => True) _ _ _ trivial
  intro child _ acc _
  exact ⟨trivial, (probeChild_ok_iff child).mpr ⟨false, rfl⟩⟩

/-- One pass of the crash loop relaunches every running child whose tracker is
fresh. -/
theorem crashLoop_pass (hnodup : w.view.names.Nodup) {c : String} {pid : UInt32}
    (hpid : w.view.runningPid c = some pid) (htracker : w.trackers c = none) (now : Instant) :
    now ∈ attempts c (observerPass crashLoop now w) := by
  obtain ⟨hobserves, hrestarts⟩ := observerPass_life hnodup crashLoop now c
  have hrunning : (lifeOf c w).status = some .running := Life.status_of_runningPid hpid
  have hawake : ¬((lifeOf c w).enter now).Expired now := Life.awake_of_running hrunning
  rw [Life.clear_of_not_expired hawake] at hobserves
  have hseen : (lifeOf c (observed crashLoop now w)).status = some .exited ∧
      (lifeOf c (observed crashLoop now w)).tracker = default ∧
      (lifeOf c (observed crashLoop now w)).pass = some now := by
    have hfresh : (lifeOf c w).tracker = default := by
      unfold lifeOf
      rw [htracker]
      rfl
    generalize lifeOf c (observed crashLoop now w) = seen at hobserves
    cases hobserves with
    | idle hnone =>
        have hboth : some pid = none := hpid.symm.trans hnone
        cases hboth
    | unvisited _ _ hstop => exact absurd (crashLoop_observeCompletes _) hstop
    | visited pid' answer hpid' hanswer _ =>
        obtain ⟨log, -, rfl⟩ := hanswer
        refine ⟨(Life.probed_dead hpid').1, ?_, Life.probed_pass _ _ _⟩
        rw [Life.probed_tracker]
        exact hfresh
  obtain ⟨hexited, hdefault, hpass⟩ := hseen
  have hcompletes : RestartCompletes crashLoop now (observed crashLoop now w) :=
    restartCompletes_of_start (fun _ _ _ => ⟨_, rfl⟩) now
  have hdelay : ((lifeOf c (observed crashLoop now w)).tracker.record now).1 = 0 := by
    have hempty : prune (default : RestartTracker).window now (default : RestartTracker).history =
        [] := rfl
    rw [hdefault, RestartTracker.record_isZero_iff RestartTracker.standard_default,
      RestartTracker.record_history, hempty]
    exact (by decide : 1 < restartStormThreshold.toNat)
  rw [← lifeOf_attempts]
  generalize lifeOf c (observerPass crashLoop now w) = after at hrestarts ⊢
  cases hrestarts with
  | idle hstatus => exact absurd hexited hstatus
  | unvisited _ hstop => exact absurd hcompletes hstop
  | scheduled _ hnot _ => exact absurd hdelay hnot
  | forgotten _ hnot _ => exact absurd hdelay hnot
  | visited spec answer hstatus _ _ _ =>
      rw [Life.launched_attempts hpass hstatus]
      exact List.mem_cons_self

/-- An attempt is a launch of the child in a pass. -/
theorem start_of_attempt {c : String} {e : Event} {t : Instant} (h : e.attempt c = some t) :
    ∃ spec answer, e.action = .start spec answer ∧ spec.name = c ∧ e.pass = some t := by
  unfold Event.attempt at h
  split at h
  · rename_i spec answer haction
    obtain ⟨hname, hpass⟩ := Option.ite_none_right_eq_some.mp h
    exact ⟨spec, answer, haction, hname, hpass⟩
  · cases h

/-- In the crash loop every supervised child that start-up launches is relaunched
under its own name. -/
theorem crashLoop_relaunches (specs : List ChildSpec)
    (hnodup : ((supervisedSpecs specs).map ChildSpec.name).Nodup) {spec : ChildSpec}
    (hspec : spec ∈ specs) (hname : spec.name ∈ childStartupOrder) :
    LaunchedWith (runSpecs crashLoop specs [0]).log spec ∧
      RelaunchedWith (runSpecs crashLoop specs [0]).log (relaunchSpec spec.name spec.name) := by
  have hrun : runSpecs crashLoop specs [0] =
      observerPass crashLoop 0 (startSpecs crashLoop specs World.new).2 :=
    runSpecs_snoc crashLoop specs [] 0
  have hlaunches := launches_run crashLoop hnodup [0]
  have hnodup' := runSpecs_nodup crashLoop specs []
  have hnames : World.new.view.names = childStartupOrder := pendingFor_canonical_names
  obtain ⟨⟨e, he, hfirst⟩, hrunning⟩ := crashLoop_startSpecs specs World.new rfl spec hspec
  have hpid := hrunning (by rw [hnames]; exact hname)
  have htracker := congrFun (startSpecs_trackers crashLoop specs World.new) spec.name
  rw [hrun] at hlaunches ⊢
  rw [runSpecs_nil] at hnodup'
  generalize (startSpecs crashLoop specs World.new).2 = booted at *
  refine ⟨⟨e, (observerPass_continues crashLoop 0 booted).log_suffix.subset he, hfirst⟩, ?_⟩
  obtain ⟨e, he, hattempt⟩ := List.mem_filterMap.mp (crashLoop_pass hnodup' hpid htracker 0)
  obtain ⟨again, answer, haction, hsame, hpass⟩ := start_of_attempt hattempt
  have hagain : RelaunchedWith (observerPass crashLoop 0 booted).log again :=
    ⟨e, he, by simp [hpass], answer, haction⟩
  have hshape := (hlaunches.again again hagain).2
  rw [hsame] at hshape
  rw [← hshape]
  exact hagain

end CrashLoop

/-! ## Main theorems -/

/-- A relaunch is faithful to the launch it repeats exactly when the spec is
canonical. -/
theorem relaunch_eq_iff (env : Environment) {specs : List ChildSpec}
    (hnodup : ((supervisedSpecs specs).map ChildSpec.name).Nodup) (times : List Instant)
    {first again : ChildSpec} (hagain : RelaunchedWith (runSpecs env specs times).log again)
    (hname : again.name = first.name) : again = first ↔ Canonical first := by
  obtain ⟨-, hshape⟩ := (launches_run env hnodup times).again again hagain
  rw [hshape, hname, canonical_iff]

/-- The relaunches of every run repeat the launches of start-up exactly when every
spec of a supervised child is canonical. -/
theorem relaunch_faithful_iff (specs : List ChildSpec)
    (hnodup : ((supervisedSpecs specs).map ChildSpec.name).Nodup) :
    (∀ env times, RelaunchFaithful (runSpecs env specs times).log) ↔
      ∀ spec ∈ specs, spec.name ∈ childStartupOrder → Canonical spec := by
  constructor
  · intro h spec hspec hname
    obtain ⟨hfirst, hagain⟩ := crashLoop_relaunches specs hnodup hspec hname
    exact (canonical_iff spec).mpr (h crashLoop [0] spec _ hfirst hagain rfl)
  · intro h env times first again hfirst hagain hname
    have hlaunches := launches_run env hnodup times
    have hsupervised := (hlaunches.again again hagain).1
    rw [hname] at hsupervised
    exact (relaunch_eq_iff env hnodup times hagain hname).mpr
      (h first (hlaunches.first first hfirst) hsupervised)

/-- The five canonical specs are relaunched as they were launched. -/
theorem relaunch_faithful_canonical :
    (∀ env times, RelaunchFaithful (runSpecs env canonicalChildren times).log) ↔
      ∀ spec ∈ canonicalChildren, spec.name ∈ childStartupOrder → Canonical spec :=
  relaunch_faithful_iff canonicalChildren supervisedSpecs_canonical_nodup

/-- A child with another executable or with arguments is relaunched without them. -/
theorem relaunch_unfaithful :
    ¬∀ (specs : List ChildSpec) (env : Environment) (times : List Instant),
      ((supervisedSpecs specs).map ChildSpec.name).Nodup →
        RelaunchFaithful (runSpecs env specs times).log := by
  intro h
  let odd : ChildSpec := { name := "wm-audio", exec := "/opt/wm/audio", args := ["--rate=48000"] }
  have hnodup : ((supervisedSpecs [odd]).map ChildSpec.name).Nodup := by decide
  obtain ⟨hfirst, hagain⟩ := crashLoop_relaunches [odd] hnodup List.mem_cons_self (by decide)
  exact absurd (h [odd] crashLoop [0] hnodup odd _ hfirst hagain rfl) (by decide)

end Supervisor
end Wintermute
