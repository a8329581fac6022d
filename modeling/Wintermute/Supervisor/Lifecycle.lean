import Wintermute.Supervisor.Operations

/-!
# The life of one child

An abstract machine for a single supervised child: its slot, its restart
tracker, its wake-up time and its own history.  A pass moves it through three
phases.  The machine does not know the other children; what they can do to it is
reduced to one bit per phase: a phase may be left early, and then the child may
not have been visited, or may have entered backoff without a wake-up time being
scheduled.

Main results:

- Relations {lit}`Life.Observes` and {lit}`Life.Restarts`: what a phase can do to
  one child.
- Relation {lit}`Life.Pass` and predicate {lit}`Life.Run`: one pass and whole
  runs of the machine.
- Theorem {lit}`Life.edit_log_eq`: an edit of the slot records exactly a change of
  status.
-/

namespace Wintermute
namespace Supervisor

/-! ## State -/

/-- What concerns one child in one action. -/
inductive ChildAction where
  | flip (before after : Option ChildStatus)
  | start (spec : ChildSpec) (answer : Result StartedChild)
  | probe (childPid : UInt32) (answer : Result Bool)

/-- An action about a child and the time of its pass. -/
structure ChildEvent where
  pass : Option Instant
  action : ChildAction

/-- One child: its slot, tracker, wake-up time and history, newest event
first, with the time of the pass under way. -/
structure Life where
  slot : Option ChildState
  tracker : RestartTracker
  due : Option Instant
  pass : Option Instant
  log : List ChildEvent

namespace Life

/-- Lifecycle phase; {lit}`none` for a name that is not supervised. -/
def status (l : Life) : Option ChildStatus :=
  l.slot.map ChildState.status

/-- The PID of a child believed to be running. -/
def runningPid (l : Life) : Option UInt32 :=
  l.slot.bind fun slot => if slot.status = .running then slot.childPid else none

/-- A child before start-up: pending, or not supervised at all. -/
structure Fresh (l : Life) : Prop where
  slot_pending : ∀ slot, l.slot = some slot → slot.status = .pending
  tracker_eq : l.tracker = default
  due_eq : l.due = none
  pass_eq : l.pass = none
  log_eq : l.log = []

/-! ## Steps -/

/-- Append an action to the history. -/
def note (l : Life) (action : ChildAction) : Life :=
  { l with log := ⟨l.pass, action⟩ :: l.log }

/-- Change the slot; a change of status is recorded. -/
def edit (f : ChildState → ChildState) (l : Life) : Life :=
  let edited := { l with slot := l.slot.map f }
  if edited.status = l.status then edited else edited.note (.flip l.status edited.status)

/-- Enter the pass at {lit}`now`. -/
def enter (now : Instant) (l : Life) : Life :=
  { l with pass := some now }

/-- The child is in backoff and its wake-up time has come. -/
def Expired (now : Instant) (l : Life) : Prop :=
  l.status = some .backoff ∧ ∃ till, l.due = some till ∧ till ≤ now

instance (now : Instant) (l : Life) : Decidable (l.Expired now) :=
  decidable_of_iff (l.status = some .backoff ∧ l.due.any (fun till => decide (till ≤ now)) = true)
    (by simp [Expired, Option.any_eq_true])

/-- The clearing phase. -/
def clear (now : Instant) (l : Life) : Life :=
  if l.Expired now then { l.edit ChildState.markRetrying with due := none } else l

/-- The first launch of the child. -/
def started (spec : ChildSpec) (answer : Result StartedChild) (l : Life) : Life :=
  let l := (l.edit ChildState.markStarting).note (.start spec answer)
  match answer with
  | .ok child => l.edit (ChildState.markRunning child.childPid)
  | .error _ => l

/-- What the loss of a process makes of a slot: it is flipped if it still runs. -/
def lose (pid : UInt32) (slot : ChildState) : ChildState :=
  if slot.status = .running then slot.markExited pid else slot

/-- A probe of the child. -/
def probed (pid : UInt32) (answer : Result Bool) (l : Life) : Life :=
  let l := l.note (.probe pid answer)
  match answer with
  | .ok false => l.edit (lose pid)
  | _ => l

/-- The restart is recorded. -/
def recorded (now : Instant) (l : Life) : Life :=
  { l with tracker := (l.tracker.record now).2 }

/-- A relaunch of the child. -/
def launched (now : Instant) (spec : ChildSpec) (answer : Result StartedChild) (l : Life) : Life :=
  let l := (l.recorded now).note (.start spec answer)
  match answer with
  | .ok child => l.edit (ChildState.markRestarted child.childPid)
  | .error _ => l

/-- The storm gate trips. -/
def backedOff (now : Instant) (l : Life) : Life :=
  (l.recorded now).edit (ChildState.markBackoff (l.tracker.record now).2.restartsInWindow)

/-! ## Phases -/

/-- What start-up can do to one child.  {lit}`answers` bounds the answers of the
launcher; {lit}`completed` says that no launch failed. -/
inductive Starts (answers : ChildSpec → Result StartedChild → Prop) (completed : Prop)
    (l : Life) : Life → Prop where
  | unvisited : Starts answers completed l l
  | visited (spec : ChildSpec) (answer : Result StartedChild) (hanswer : answers spec answer)
      (hok : completed → ∃ child, answer = .ok child) :
      Starts answers completed l (l.started spec answer)

/-- What the observation phase can do to one child. -/
inductive Observes (answers : UInt32 → Result Bool → Prop) (completed : Prop)
    (l : Life) : Life → Prop where
  | idle (hpid : l.runningPid = none) : Observes answers completed l l
  | unvisited (pid : UInt32) (hpid : l.runningPid = some pid) (hstop : ¬completed) :
      Observes answers completed l l
  | visited (pid : UInt32) (answer : Result Bool) (hpid : l.runningPid = some pid)
      (hanswer : answers pid answer) (hok : completed → ∃ alive, answer = .ok alive) :
      Observes answers completed l (l.probed pid answer)

/-- What the restart phase can do to one child. -/
inductive Restarts (answers : ChildSpec → Result StartedChild → Prop) (completed : Prop)
    (now : Instant) (l : Life) : Life → Prop where
  | idle (hstatus : l.status ≠ some .exited) : Restarts answers completed now l l
  | unvisited (hstatus : l.status = some .exited) (hstop : ¬completed) :
      Restarts answers completed now l l
  | visited (spec : ChildSpec) (answer : Result StartedChild)
      (hstatus : l.status = some .exited) (hdelay : (l.tracker.record now).1 = 0)
      (hanswer : answers spec answer) (hok : completed → ∃ child, answer = .ok child) :
      Restarts answers completed now l (l.launched now spec answer)
  | scheduled (hstatus : l.status = some .exited) (hdelay : (l.tracker.record now).1 ≠ 0)
      (hdone : completed) :
      Restarts answers completed now l
        { l.backedOff now with due := some (now + Duration.fromSecs backoffSecs) }
  | forgotten (hstatus : l.status = some .exited) (hdelay : (l.tracker.record now).1 ≠ 0)
      (hstop : ¬completed) :
      Restarts answers completed now l (l.backedOff now)

/-- One pass, with any answers and any early exits. -/
def Pass (now : Instant) (l l' : Life) : Prop :=
  ∃ seen done₁ done₂, Observes (fun _ _ => True) done₁ ((l.enter now).clear now) seen ∧
    Restarts (fun _ _ => True) done₂ now seen l'

/-- The machine's runs: start-up and passes at the given times. -/
inductive Run : List Instant → Life → Prop where
  | boot (l l' : Life) (completed : Prop) (hfresh : l.Fresh)
      (hstarts : Starts (fun _ _ => True) completed l l') : Run [] l'
  | pass (times : List Instant) (now : Instant) (l l' : Life) (hrun : Run times l)
      (hpass : Pass now l l') : Run (times ++ [now]) l'

/-! ## What the steps leave -/

@[simp]
theorem note_slot (l : Life) (a : ChildAction) : (l.note a).slot = l.slot :=
  rfl

@[simp]
theorem note_status (l : Life) (a : ChildAction) : (l.note a).status = l.status :=
  rfl

@[simp]
theorem note_tracker (l : Life) (a : ChildAction) : (l.note a).tracker = l.tracker :=
  rfl

@[simp]
theorem note_due (l : Life) (a : ChildAction) : (l.note a).due = l.due :=
  rfl

@[simp]
theorem note_pass (l : Life) (a : ChildAction) : (l.note a).pass = l.pass :=
  rfl

@[simp]
theorem note_log (l : Life) (a : ChildAction) : (l.note a).log = ⟨l.pass, a⟩ :: l.log :=
  rfl

variable (f : ChildState → ChildState) (l : Life)

@[simp]
theorem edit_slot : (l.edit f).slot = l.slot.map f := by
  unfold edit
  dsimp only
  split <;> rfl

@[simp]
theorem edit_tracker : (l.edit f).tracker = l.tracker := by
  unfold edit
  dsimp only
  split <;> rfl

@[simp]
theorem edit_due : (l.edit f).due = l.due := by
  unfold edit
  dsimp only
  split <;> rfl

@[simp]
theorem edit_pass : (l.edit f).pass = l.pass := by
  unfold edit
  dsimp only
  split <;> rfl

/-- An edit records a change of status and nothing else. -/
theorem edit_log_eq :
    (l.edit f).log =
      if (l.edit f).status = l.status then l.log
      else ⟨l.pass, .flip l.status (l.edit f).status⟩ :: l.log := by
  have hstatus : (l.edit f).status = ({ l with slot := l.slot.map f } : Life).status := by
    rw [status, edit_slot]
    rfl
  rw [hstatus]
  unfold edit
  dsimp only
  split <;> rfl

variable {f l}

theorem edit_eq_self (h : l.slot.map f = l.slot) : l.edit f = l := by
  have hl : ({ l with slot := l.slot.map f } : Life) = l := by
    rw [h]
  unfold edit
  simp only [hl, if_pos]

theorem edit_congr {g : ChildState → ChildState} (h : l.slot.map f = l.slot.map g) :
    l.edit f = l.edit g := by
  unfold edit
  rw [h]

theorem mem_edit_log {e : ChildEvent} (he : e ∈ (l.edit f).log) :
    e ∈ l.log ∨ e = ⟨l.pass, .flip l.status (l.edit f).status⟩ := by
  rw [edit_log_eq] at he
  split at he
  · exact Or.inl he
  · exact (List.mem_cons.mp he).symm

/-- An edit that sets the status. -/
theorem edit_status {old new : ChildStatus} (hold : l.status = some old)
    (hf : ∀ slot, (f slot).status = new) : (l.edit f).status = some new := by
  obtain ⟨slot, hslot, -⟩ := Option.map_eq_some_iff.mp hold
  rw [status, edit_slot, hslot]
  simp [hf]

/-- An edit that changes the status is recorded. -/
theorem edit_log {old new : ChildStatus} (hold : l.status = some old)
    (hf : ∀ slot, (f slot).status = new) (hne : old ≠ new) :
    (l.edit f).log = ⟨l.pass, .flip (some old) (some new)⟩ :: l.log := by
  rw [edit_log_eq, edit_status hold hf, hold, if_neg (by simpa using hne.symm)]

/-- An edit leaves the status of an unsupervised name alone. -/
theorem edit_status_cases {new : ChildStatus} (hf : ∀ slot, (f slot).status = new) :
    (l.edit f).status = l.status ∨ (l.edit f).status = some new := by
  cases hstatus : l.status with
  | none =>
      left
      rw [status, edit_slot, Option.map_eq_none_iff.mp hstatus]
      rfl
  | some old => exact Or.inr (edit_status hstatus hf)

end Life

end Supervisor
end Wintermute
