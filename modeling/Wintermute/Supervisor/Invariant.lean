import Wintermute.Supervisor.Lifecycle

/-!
# Steps and invariants of one child

What each step of the abstract machine does to the status, the wake-up time, the
tracker and the history of a child, and the induction that lifts a property kept
by the steps to every run.

Main results:

- Theorems {lit}`Life.clear_spec`, {lit}`Life.probed_dead`,
  {lit}`Life.launched_ok` and {lit}`Life.backedOff_spec`: the steps that change
  the status.
- Theorem {lit}`Life.Invariant.run`: an invariant holds along every run.
- Theorem {lit}`Life.unscheduled_invariant`: only children in backoff ever have a
  wake-up time.
-/

namespace Wintermute
namespace Supervisor

namespace Life

variable {l : Life} {now : Instant}

/-! ## Clearing -/

/-- A running child has no backoff that could expire. -/
theorem awake_of_running (hrunning : l.status = some .running) : ¬l.Expired now := by
  rintro ⟨hbackoff, -⟩
  have hboth : some ChildStatus.running = some ChildStatus.backoff := hrunning.symm.trans hbackoff
  cases hboth

theorem clear_of_not_expired (h : ¬l.Expired now) : l.clear now = l :=
  if_neg h

/-- An expired child becomes exited and loses its wake-up time. -/
theorem clear_spec (h : l.Expired now) :
    (l.clear now).status = some .exited ∧ (l.clear now).due = none ∧
      (l.clear now).log = ⟨l.pass, .flip (some .backoff) (some .exited)⟩ :: l.log := by
  have hclear : l.clear now = { l.edit ChildState.markRetrying with due := none } := if_pos h
  rw [hclear]
  exact ⟨edit_status h.1 ChildState.markRetrying_status, rfl,
    edit_log h.1 ChildState.markRetrying_status (by decide)⟩

@[simp]
theorem clear_tracker (l : Life) (now : Instant) : (l.clear now).tracker = l.tracker := by
  unfold clear
  split
  · exact edit_tracker _ _
  · rfl

@[simp]
theorem clear_pass (l : Life) (now : Instant) : (l.clear now).pass = l.pass := by
  unfold clear
  split
  · exact edit_pass _ _
  · rfl

/-- Clearing keeps the PID. -/
theorem clear_childPid (l : Life) (now : Instant) :
    (l.clear now).slot.bind ChildState.childPid = l.slot.bind ChildState.childPid := by
  unfold clear
  split
  · change (l.edit ChildState.markRetrying).slot.bind ChildState.childPid = _
    rw [edit_slot]
    cases l.slot <;> rfl
  · rfl

/-! ## Start-up -/

/-- A fresh child is neither exited nor in backoff. -/
theorem Fresh.status (hfresh : l.Fresh) :
    l.status ≠ some .exited ∧ l.status ≠ some .backoff := by
  cases hslot : l.slot with
  | none => simp [Life.status, hslot]
  | some slot => simp [Life.status, hslot, hfresh.slot_pending slot hslot]

theorem markStarting_edit_status (hfresh : l.Fresh) :
    (l.edit ChildState.markStarting).status ≠ some .exited ∧
      (l.edit ChildState.markStarting).status ≠ some .backoff := by
  rcases edit_status_cases (l := l) ChildState.markStarting_status with h | h
  · rw [h]
    exact hfresh.status
  · rw [h]
    exact ⟨by decide, by decide⟩

/-- A started child is neither exited nor in backoff. -/
theorem started_status (hfresh : l.Fresh) (spec : ChildSpec) (answer : Result StartedChild) :
    (l.started spec answer).status ≠ some .exited ∧
      (l.started spec answer).status ≠ some .backoff := by
  cases answer with
  | error e => exact markStarting_edit_status hfresh
  | ok child =>
      unfold started
      dsimp only
      rcases edit_status_cases
        (l := (l.edit ChildState.markStarting).note (.start spec (.ok child)))
        (ChildState.markRunning_status child.childPid) with h | h
      · rw [h]
        exact markStarting_edit_status hfresh
      · rw [h]
        exact ⟨by decide, by decide⟩

/-- A supervised child whose first launch answered is running. -/
theorem started_ok {old : ChildStatus} (hstatus : l.status = some old) (spec : ChildSpec)
    (child : StartedChild) : (l.started spec (.ok child)).status = some .running := by
  have hstarting : ((l.edit ChildState.markStarting).note (.start spec (.ok child))).status =
      some .starting := edit_status hstatus ChildState.markStarting_status
  exact edit_status hstarting (ChildState.markRunning_status child.childPid)

/-- A supervised child whose first launch failed stays in the starting state. -/
theorem started_error {old : ChildStatus} (hstatus : l.status = some old) (spec : ChildSpec)
    (e : Error) : (l.started spec (.error e)).status = some .starting :=
  edit_status hstatus ChildState.markStarting_status

/-- Start-up launches a child once. -/
theorem started_start {spec spec' : ChildSpec} {answer answer' : Result StartedChild}
    {pass : Option Instant} (hfresh : l.Fresh)
    (h : ⟨pass, .start spec' answer'⟩ ∈ (l.started spec answer).log) : answer' = answer := by
  have hnoted : ⟨pass, .start spec' answer'⟩ ∈
      ((l.edit ChildState.markStarting).note (.start spec answer)).log → answer' = answer := by
    intro h
    rcases List.mem_cons.mp h with h | h
    · cases h
      rfl
    · rcases mem_edit_log h with h | h
      · rw [hfresh.log_eq] at h
        cases h
      · cases h
  cases answer with
  | error _ => exact hnoted h
  | ok child =>
      rcases mem_edit_log h with h | h
      · exact hnoted h
      · cases h

/-- The history of a started child is that of start-up: it belongs to no pass and
holds no entry into backoff. -/
theorem started_log (hfresh : l.Fresh) (spec : ChildSpec) (answer : Result StartedChild)
    {e : ChildEvent} (he : e ∈ (l.started spec answer).log) :
    e.pass = none ∧ ∀ before, e.action ≠ .flip before (some .backoff) := by
  have hnoted : ∀ e ∈ ((l.edit ChildState.markStarting).note (.start spec answer)).log,
      e.pass = none ∧ ∀ before, e.action ≠ .flip before (some .backoff) := by
    intro e he
    rcases List.mem_cons.mp he with rfl | he
    · exact ⟨(edit_pass _ _).trans hfresh.pass_eq, fun _ h => by cases h⟩
    · rcases mem_edit_log he with he | rfl
      · rw [hfresh.log_eq] at he
        cases he
      · refine ⟨hfresh.pass_eq, fun before h => ?_⟩
        injection h with _ hafter
        exact (markStarting_edit_status hfresh).2 hafter
  cases answer with
  | error _ => exact hnoted e he
  | ok child =>
      rcases mem_edit_log he with he | rfl
      · exact hnoted e he
      · refine ⟨(edit_pass _ _).trans hfresh.pass_eq, fun before h => ?_⟩
        injection h with _ hafter
        exact (started_status hfresh spec (.ok child)).2 hafter

/-- After start-up no child is exited or in backoff. -/
theorem starts_status {answers : ChildSpec → Result StartedChild → Prop} {completed : Prop}
    {l' : Life} (hfresh : l.Fresh) (h : Starts answers completed l l') :
    l'.status ≠ some .exited ∧ l'.status ≠ some .backoff := by
  cases h with
  | unvisited => exact hfresh.status
  | visited spec answer _ _ => exact started_status hfresh spec answer

@[simp]
theorem started_tracker (l : Life) (spec : ChildSpec) (answer : Result StartedChild) :
    (l.started spec answer).tracker = l.tracker := by
  unfold started
  cases answer <;> simp

@[simp]
theorem started_due (l : Life) (spec : ChildSpec) (answer : Result StartedChild) :
    (l.started spec answer).due = l.due := by
  unfold started
  cases answer <;> simp

@[simp]
theorem started_pass (l : Life) (spec : ChildSpec) (answer : Result StartedChild) :
    (l.started spec answer).pass = l.pass := by
  unfold started
  cases answer <;> simp

/-- A started child runs under the PID its launch answered. -/
theorem started_runningPid {spec : ChildSpec} {answer : Result StartedChild} {pid : UInt32}
    (hpid : (l.started spec answer).runningPid = some pid) :
    ∃ child, answer = .ok child ∧ child.childPid = pid := by
  unfold started at hpid
  cases answer with
  | error e =>
      obtain ⟨slot, hslot, hif⟩ := Option.bind_eq_some_iff.mp hpid
      obtain ⟨fresh, -, rfl⟩ := Option.map_eq_some_iff.mp ((edit_slot _ _).symm.trans hslot)
      rw [if_neg (by simp)] at hif
      cases hif
  | ok child =>
      obtain ⟨slot, hslot, hif⟩ := Option.bind_eq_some_iff.mp hpid
      obtain ⟨fresh, -, rfl⟩ := Option.map_eq_some_iff.mp ((edit_slot _ _).symm.trans hslot)
      rw [if_pos (by simp)] at hif
      exact ⟨child, rfl, Option.some.inj hif⟩

/-! ## Probes -/

/-- A probe that does not report the process gone is only recorded. -/
theorem probed_alive {answer : Result Bool} (h : answer ≠ .ok false) (l : Life) (pid : UInt32) :
    l.probed pid answer = l.note (.probe pid answer) := by
  unfold probed
  cases answer with
  | error e => rfl
  | ok alive =>
      cases alive with
      | true => rfl
      | false => exact absurd rfl h

theorem status_of_runningPid {pid : UInt32} (hpid : l.runningPid = some pid) :
    l.status = some .running := by
  obtain ⟨slot, hslot, hif⟩ := Option.bind_eq_some_iff.mp hpid
  by_cases hrunning : slot.status = .running
  · rw [status, hslot, Option.map_some, hrunning]
  · rw [if_neg hrunning] at hif
    cases hif

/-- The observation phase does not touch a child that is not running. -/
theorem Observes.eq_self {answers : UInt32 → Result Bool → Prop} {completed : Prop} {l' : Life}
    (h : Observes answers completed l l') (hstatus : l.status ≠ some .running) : l' = l := by
  cases h with
  | idle _ => rfl
  | unvisited pid hpid _ => exact absurd (status_of_runningPid hpid) hstatus
  | visited pid _ hpid _ _ => exact absurd (status_of_runningPid hpid) hstatus

/-- A running child whose process is gone becomes exited. -/
theorem probed_dead {pid : UInt32} (hpid : l.runningPid = some pid) :
    (l.probed pid (.ok false)).status = some .exited ∧
      (l.probed pid (.ok false)).log =
        ⟨l.pass, .flip (some .running) (some .exited)⟩ ::
          ⟨l.pass, .probe pid (.ok false)⟩ :: l.log := by
  have hrunning : (l.note (.probe pid (.ok false))).status = some .running :=
    status_of_runningPid hpid
  have hslots : (l.note (.probe pid (.ok false))).slot.map (lose pid) =
      (l.note (.probe pid (.ok false))).slot.map (ChildState.markExited pid) := by
    obtain ⟨slot, hslot, hstatus⟩ := Option.map_eq_some_iff.mp hrunning
    have hlost : lose pid slot = slot.markExited pid := if_pos hstatus
    rw [hslot, Option.map_some, Option.map_some, hlost]
  have hprobed : l.probed pid (.ok false) =
      (l.note (.probe pid (.ok false))).edit (ChildState.markExited pid) := edit_congr hslots
  rw [hprobed]
  exact ⟨edit_status hrunning (ChildState.markExited_status pid),
    edit_log hrunning (ChildState.markExited_status pid) (by decide)⟩

@[simp]
theorem probed_tracker (l : Life) (pid : UInt32) (answer : Result Bool) :
    (l.probed pid answer).tracker = l.tracker := by
  unfold probed
  dsimp only
  split <;> simp

@[simp]
theorem probed_due (l : Life) (pid : UInt32) (answer : Result Bool) :
    (l.probed pid answer).due = l.due := by
  unfold probed
  dsimp only
  split <;> simp

@[simp]
theorem probed_pass (l : Life) (pid : UInt32) (answer : Result Bool) :
    (l.probed pid answer).pass = l.pass := by
  unfold probed
  dsimp only
  split <;> simp

/-! ## Relaunches -/

/-- A failed relaunch is recorded and leaves the child exited. -/
theorem launched_error (l : Life) (now : Instant) (spec : ChildSpec) (e : Error) :
    l.launched now spec (.error e) = (l.recorded now).note (.start spec (.error e)) :=
  rfl

/-- A relaunched child runs under its new PID. -/
theorem launched_ok (hstatus : l.status = some .exited) (now : Instant) (spec : ChildSpec)
    (child : StartedChild) :
    (l.launched now spec (.ok child)).runningPid = some child.childPid ∧
      (l.launched now spec (.ok child)).log =
        ⟨l.pass, .flip (some .exited) (some .running)⟩ ::
          ⟨l.pass, .start spec (.ok child)⟩ :: l.log := by
  have hexited : ((l.recorded now).note (.start spec (.ok child))).status = some .exited :=
    hstatus
  refine ⟨?_, edit_log hexited (ChildState.markRestarted_status _) (by decide)⟩
  obtain ⟨slot, hslot, -⟩ := Option.map_eq_some_iff.mp hexited
  change (((l.recorded now).note (.start spec (.ok child))).edit
    (ChildState.markRestarted child.childPid)).runningPid = _
  rw [runningPid, edit_slot, hslot]
  rfl

/-- The restart phase does not touch a child that is not exited. -/
theorem Restarts.eq_self {answers : ChildSpec → Result StartedChild → Prop} {completed : Prop}
    {l' : Life} (h : Restarts answers completed now l l') (hstatus : l.status ≠ some .exited) :
    l' = l := by
  cases h with
  | idle _ => rfl
  | unvisited hexited _ => exact absurd hexited hstatus
  | visited _ _ hexited _ _ _ => exact absurd hexited hstatus
  | scheduled hexited _ _ => exact absurd hexited hstatus
  | forgotten hexited _ _ => exact absurd hexited hstatus

@[simp]
theorem launched_tracker (l : Life) (now : Instant) (spec : ChildSpec)
    (answer : Result StartedChild) :
    (l.launched now spec answer).tracker = (l.tracker.record now).2 := by
  unfold launched
  cases answer <;> simp [recorded]

@[simp]
theorem launched_due (l : Life) (now : Instant) (spec : ChildSpec)
    (answer : Result StartedChild) : (l.launched now spec answer).due = l.due := by
  unfold launched
  cases answer <;> simp [recorded]

@[simp]
theorem launched_pass (l : Life) (now : Instant) (spec : ChildSpec)
    (answer : Result StartedChild) : (l.launched now spec answer).pass = l.pass := by
  unfold launched
  cases answer <;> simp [recorded]

/-! ## Entering backoff -/

/-- An exited child that trips the storm gate is in backoff. -/
theorem backedOff_spec (hstatus : l.status = some .exited) (now : Instant) :
    (l.backedOff now).status = some .backoff ∧
      (l.backedOff now).log = ⟨l.pass, .flip (some .exited) (some .backoff)⟩ :: l.log := by
  have hexited : (l.recorded now).status = some .exited := hstatus
  exact ⟨edit_status hexited (ChildState.markBackoff_status _),
    edit_log hexited (ChildState.markBackoff_status _) (by decide)⟩

@[simp]
theorem backedOff_tracker (l : Life) (now : Instant) :
    (l.backedOff now).tracker = (l.tracker.record now).2 := by
  simp [backedOff, recorded]

@[simp]
theorem backedOff_due (l : Life) (now : Instant) : (l.backedOff now).due = l.due := by
  simp [backedOff, recorded]

@[simp]
theorem backedOff_pass (l : Life) (now : Instant) : (l.backedOff now).pass = l.pass := by
  simp [backedOff, recorded]

/-! ## Invariants -/

/-- A property that a fresh child has and that every step keeps; consecutive
passes are related by {lit}`R`. -/
structure Invariant (R : Instant → Instant → Prop) (J : Life → Prop) : Prop where
  fresh : ∀ l, l.Fresh → J l
  started : ∀ (l : Life) spec answer, l.Fresh → J (l.started spec answer)
  enter : ∀ l now, J l → (∀ last, l.pass = some last → R last now) → J (l.enter now)
  clear : ∀ l now, J l → l.pass = some now → l.Expired now → J (l.clear now)
  probed : ∀ l pid answer, J l → l.runningPid = some pid → J (l.probed pid answer)
  launched : ∀ l now spec answer, J l → l.pass = some now → l.status = some .exited →
    (l.tracker.record now).1 = 0 → J (l.launched now spec answer)
  backedOff : ∀ l now due, J l → l.pass = some now → l.status = some .exited →
    (l.tracker.record now).1 ≠ 0 →
    due = l.due ∨ due = some (now + Duration.fromSecs backoffSecs) →
    J { l.backedOff now with due := due }

namespace Invariant

variable {R : Instant → Instant → Prop} {J : Life → Prop}

/-- An observation phase keeps an invariant. -/
theorem observes (hJ : Invariant R J) {answers : UInt32 → Result Bool → Prop}
    {completed : Prop} {l l' : Life} (h : Observes answers completed l l') (hl : J l) :
    J l' ∧ l'.pass = l.pass := by
  cases h with
  | idle _ => exact ⟨hl, rfl⟩
  | unvisited _ _ _ => exact ⟨hl, rfl⟩
  | visited pid answer hpid _ _ => exact ⟨hJ.probed l pid answer hl hpid, probed_pass _ _ _⟩

/-- A restart phase keeps an invariant. -/
theorem restarts (hJ : Invariant R J) {answers : ChildSpec → Result StartedChild → Prop}
    {completed : Prop} {l l' : Life} (h : Restarts answers completed now l l')
    (hpass : l.pass = some now) (hl : J l) : J l' ∧ l'.pass = l.pass := by
  cases h with
  | idle _ => exact ⟨hl, rfl⟩
  | unvisited _ _ => exact ⟨hl, rfl⟩
  | visited spec answer hstatus hdelay _ _ =>
      exact ⟨hJ.launched l now spec answer hl hpass hstatus hdelay, launched_pass _ _ _ _⟩
  | scheduled hstatus hdelay _ =>
      exact ⟨hJ.backedOff l now _ hl hpass hstatus hdelay (Or.inr rfl), backedOff_pass l now⟩
  | forgotten hstatus hdelay _ =>
      have hsame := hJ.backedOff l now _ hl hpass hstatus hdelay (Or.inl rfl)
      have heta : ({ l.backedOff now with due := l.due } : Life) = l.backedOff now := by
        rw [← backedOff_due l now]
      rw [heta] at hsame
      exact ⟨hsame, backedOff_pass l now⟩

/-- A pass keeps an invariant. -/
theorem pass (hJ : Invariant R J) {l l' : Life} (h : Pass now l l')
    (hR : ∀ last, l.pass = some last → R last now) (hl : J l) :
    J l' ∧ l'.pass = some now := by
  obtain ⟨seen, done₁, done₂, hobserves, hrestarts⟩ := h
  have hentered : J (l.enter now) := hJ.enter l now hl hR
  have hcleared : J ((l.enter now).clear now) := by
    by_cases hexpired : (l.enter now).Expired now
    · exact hJ.clear _ now hentered rfl hexpired
    · rw [clear_of_not_expired hexpired]
      exact hentered
  obtain ⟨hseen, hseenPass⟩ := hJ.observes hobserves hcleared
  rw [clear_pass] at hseenPass
  obtain ⟨hl', hpass⟩ := hJ.restarts hrestarts hseenPass hseen
  exact ⟨hl', hpass.trans hseenPass⟩

/-- An invariant holds along every run, and the pass under way is the last one. -/
theorem run (hJ : Invariant R J) {times : List Instant} (h : Run times l)
    (htimes : times.Pairwise R) : J l ∧ l.pass = times.getLast? := by
  induction h with
  | boot l l' completed hfresh hstarts =>
      cases hstarts with
      | unvisited => exact ⟨hJ.fresh l hfresh, hfresh.pass_eq⟩
      | visited spec answer _ _ =>
          exact ⟨hJ.started l spec answer hfresh, (started_pass _ _ _).trans hfresh.pass_eq⟩
  | pass times now l l' hrun hpass ih =>
      obtain ⟨hpre, -, hcross⟩ := List.pairwise_append.mp htimes
      obtain ⟨hl, hlast⟩ := ih hpre
      have hR : ∀ last, l.pass = some last → R last now := by
        intro last hlastPass
        rw [hlast] at hlastPass
        exact hcross last (List.mem_of_getLast? hlastPass) now List.mem_cons_self
      rw [List.getLast?_concat]
      exact hJ.pass hpass hR hl

end Invariant

/-! ## The first invariant -/

/-- A child outside backoff has no wake-up time. -/
def Unscheduled (l : Life) : Prop :=
  l.status ≠ some .backoff → l.due = none

/-- Only children in backoff ever have a wake-up time. -/
theorem unscheduled_invariant (R : Instant → Instant → Prop) : Invariant R Unscheduled where
  fresh l hfresh _ := hfresh.due_eq
  started l spec answer hfresh _ := by
    rw [started_due]
    exact hfresh.due_eq
  enter l now hl _ hstatus := hl hstatus
  clear l now _ _ hexpired _ := (clear_spec hexpired).2.1
  probed l pid answer hl hpid _ := by
    rw [probed_due]
    apply hl
    rw [status_of_runningPid hpid]
    decide
  launched l now spec answer hl _ hstatus _ _ := by
    rw [launched_due]
    apply hl
    rw [hstatus]
    decide
  backedOff l now due _ _ hstatus _ _ hnot :=
    absurd (backedOff_spec hstatus now).1 hnot

theorem unscheduled_of_run {times : List Instant} (h : Run times l) : l.Unscheduled :=
  ((unscheduled_invariant fun _ _ => True).run h (List.pairwise_of_forall fun _ _ => trivial)).1

end Life

end Supervisor
end Wintermute
