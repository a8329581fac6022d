import Wintermute.Foundation.Loops
import Wintermute.Supervisor.World

/-!
# The supervisor's operations

Start-up, exit observation, restart and backoff expiry, and the observer pass
that ties them together.  Each loop of the source is an aborting loop over its
snapshot; the vector it fills is the first component of the loop's state and is
dropped when the loop leaves with an error.
-/

namespace Wintermute

/-- Result of one restart decision for a child. -/
inductive RestartOutcome where
  | restarted (name : String) (childPid : UInt32) (restartCount : UInt32)
  | enteredBackoff (name : String) (restartsInWindow : ℕ)
deriving DecidableEq, Repr

/-- {lit}`u32::saturating_add(1)`. -/
def saturatingSucc (n : UInt32) : UInt32 :=
  if n.toNat + 1 < UInt32.size then n + 1 else n

/-! ## Slot changes -/

namespace ChildState

/-- A start command is about to be issued. -/
def markStarting (slot : ChildState) : ChildState :=
  { slot with
    status := .starting
    lastEvent := some "starting" }

/-- The first launch answered. -/
def markRunning (childPid : UInt32) (slot : ChildState) : ChildState :=
  { slot with
    status := .running
    childPid := some childPid
    lastEvent := some s!"running pid={childPid}" }

/-- The probe lost the process. -/
def markExited (pid : UInt32) (slot : ChildState) : ChildState :=
  { slot with
    status := .exited
    lastEvent := some s!"exited (lost pid {pid})" }

/-- A relaunch answered. -/
def markRestarted (childPid : UInt32) (slot : ChildState) : ChildState :=
  { slot with
    status := .running
    childPid := some childPid
    restartCount := saturatingSucc slot.restartCount
    lastEvent := some s!"restarted pid={childPid} (#{saturatingSucc slot.restartCount})" }

/-- The storm threshold tripped. -/
def markBackoff (restartsInWindow : ℕ) (slot : ChildState) : ChildState :=
  { slot with
    status := .backoff
    lastEvent := some s!"backoff ({restartsInWindow} restarts in window)" }

/-- The backoff has elapsed. -/
def markRetrying (slot : ChildState) : ChildState :=
  { slot with
    status := .exited
    lastEvent := some "backoff expired; retrying" }

@[simp]
theorem markStarting_name (slot : ChildState) :
    (slot.markStarting).name = slot.name :=
  rfl

@[simp]
theorem markStarting_status (slot : ChildState) :
    (slot.markStarting).status = .starting :=
  rfl

@[simp]
theorem markRunning_name (childPid : UInt32) (slot : ChildState) :
    (slot.markRunning childPid).name = slot.name :=
  rfl

@[simp]
theorem markRunning_status (childPid : UInt32) (slot : ChildState) :
    (slot.markRunning childPid).status = .running :=
  rfl

@[simp]
theorem markExited_name (pid : UInt32) (slot : ChildState) :
    (slot.markExited pid).name = slot.name :=
  rfl

@[simp]
theorem markExited_status (pid : UInt32) (slot : ChildState) :
    (slot.markExited pid).status = .exited :=
  rfl

@[simp]
theorem markRestarted_name (childPid : UInt32) (slot : ChildState) :
    (slot.markRestarted childPid).name = slot.name :=
  rfl

@[simp]
theorem markRestarted_status (childPid : UInt32) (slot : ChildState) :
    (slot.markRestarted childPid).status = .running :=
  rfl

@[simp]
theorem markBackoff_name (restartsInWindow : ℕ) (slot : ChildState) :
    (slot.markBackoff restartsInWindow).name = slot.name :=
  rfl

@[simp]
theorem markBackoff_status (restartsInWindow : ℕ) (slot : ChildState) :
    (slot.markBackoff restartsInWindow).status = .backoff :=
  rfl

@[simp]
theorem markRetrying_name (slot : ChildState) :
    (slot.markRetrying).name = slot.name :=
  rfl

@[simp]
theorem markRetrying_status (slot : ChildState) :
    (slot.markRetrying).status = .exited :=
  rfl

end ChildState

namespace Supervisor

open Foundation

variable (env : Environment)

/-! ## Start-up -/

/-- One iteration of {lit}`start_specs`. -/
def startSpec (w : World) (spec : ChildSpec) : Result Unit × World :=
  let w := (w.lock env (SupervisorView.update (fun c => c.name == spec.name)
    ChildState.markStarting)).2
  let answer := env.spawner.start w.log spec
  let w := w.note (.start spec answer)
  match answer with
  | .error e => (.error (e.withContext s!"start child {spec.name}"), w)
  | .ok started =>
      (.ok (), (w.lock env (SupervisorView.update (fun c => c.name == spec.name)
        (ChildState.markRunning started.childPid))).2)

/-- Start the given specs in order; the first failed launch is returned. -/
def startSpecs (specs : List ChildSpec) (w : World) : Result Unit × World :=
  tryEach (startSpec env) specs w

/-- Start every child in canonical order. -/
def startAll (w : World) : Result Unit × World :=
  startSpecs env canonicalChildren w

/-! ## Exit observation -/

/-- Name and PID of every running child that has one. -/
def runningChildren (view : SupervisorView) : List (String × UInt32) :=
  (view.children.filter (fun c => c.status = .running)).filterMap
    fun c => c.childPid.map fun p => (c.name, p)

/-- One iteration of {lit}`observe_exits`: probe a child and flip its slot when the
process is gone. -/
def probeChild (acc : List String × World) (child : String × UInt32) :
    Result Unit × (List String × World) :=
  let (name, pid) := child
  let answer := env.spawner.stillRunning acc.2.log pid
  let w := acc.2.note (.stillRunning name pid answer)
  match answer with
  | .error e =>
      (.error (e.withContext s!"probe still_running for {name} pid={pid}"), (acc.1, w))
  | .ok true => (.ok (), (acc.1, w))
  | .ok false =>
      let flipped := w.lock env (SupervisorView.update
        (fun c => c.name == name && decide (c.status = .running)) (ChildState.markExited pid))
      match flipped.1 with
      | some _ => (.ok (), (acc.1 ++ [name], flipped.2))
      | none => (.ok (), (acc.1, flipped.2))

/-- Visit every running child with a known PID; answer the names that just
exited, or the first probe error. -/
def observeExits (w : World) : Result (List String) × World :=
  let snapshot := w.lock env fun view => (runningChildren view, view)
  collect (tryEach (probeChild env) snapshot.1 ([], snapshot.2))

/-! ## Restart -/

/-- Name and executable of every exited child. -/
def exitedChildren (view : SupervisorView) : List (String × String) :=
  (view.children.filter (fun c => c.status = .exited)).map fun c => (c.name, c.name)

/-- Record a restart on the child's tracker, creating the tracker if need be. -/
def recordRestart (now : Instant) (name : String) (w : World) : World :=
  let recorded := (((w.trackers name).getD default).record now).2
  { w with trackers := Function.update w.trackers name (some recorded) }

/-- The branch of {lit}`restart_exited` below the storm threshold: relaunch. -/
def relaunchChild (name execName : String) (w : World) : Result RestartOutcome × World :=
  let spec : ChildSpec := { name := name, exec := execName, args := [] }
  let answer := env.spawner.start w.log spec
  let w := w.note (.start spec answer)
  match answer with
  | .error e => (.error (e.withContext s!"restart child {name}"), w)
  | .ok started =>
      let updated := w.lock env (SupervisorView.update (fun c => c.name == name)
        (ChildState.markRestarted started.childPid))
      let updatedCount := updated.1.elim 0 ChildState.restartCount
      (.ok (.restarted name started.childPid updatedCount), updated.2)

/-- The branch of {lit}`restart_exited` at or above the storm threshold. -/
def enterBackoff (name : String) (restartsInWindow : ℕ) (w : World) : RestartOutcome × World :=
  let flipped := w.lock env (SupervisorView.update (fun c => c.name == name)
    (ChildState.markBackoff restartsInWindow))
  (.enteredBackoff name restartsInWindow, flipped.2)

/-- One iteration of {lit}`restart_exited`: record the restart, then relaunch the
child or put it into backoff. -/
def restartChild (now : Instant) (acc : List RestartOutcome × World)
    (child : String × String) : Result Unit × (List RestartOutcome × World) :=
  let recorded := ((acc.2.trackers child.1).getD default).record now
  let w := recordRestart now child.1 acc.2
  if recorded.1 = 0 then
    match relaunchChild env child.1 child.2 w with
    | (.error e, w) => (.error e, (acc.1, w))
    | (.ok outcome, w) => (.ok (), (acc.1 ++ [outcome], w))
  else
    let flipped := enterBackoff env child.1 recorded.2.restartsInWindow w
    (.ok (), (acc.1 ++ [flipped.1], flipped.2))

/-- Restart the exited children under the guidance of the trackers; answer one
outcome per exited child, or the first launch error. -/
def restartExited (now : Instant) (w : World) : Result (List RestartOutcome) × World :=
  let exited := w.lock env fun view => (exitedChildren view, view)
  collect (tryEach (restartChild env now) exited.1 ([], exited.2))

/-! ## Backoff expiry -/

/-- The slot is in backoff and its wake-up time has come. -/
def backoffExpired (due : String → Option Instant) (now : Instant) (slot : ChildState) : Bool :=
  decide (slot.status = .backoff) && (due slot.name).any fun till => decide (till ≤ now)

/-- Flip expired backoff slots back to exited; answer their names. -/
def clearExpiredBackoffs (due : String → Option Instant) (now : Instant) (w : World) :
    List String × World :=
  w.lock env fun view =>
    (((view.children.filter (backoffExpired due now)).map ChildState.name),
      { view with children := view.children.map fun slot =>
          if backoffExpired due now slot then slot.markRetrying else slot })

/-! ## The observer pass -/

/-- Clear expired backoffs and drop their wake-up times. -/
def clearPhase (now : Instant) (w : World) : World :=
  let (cleared, w) := clearExpiredBackoffs env w.backoffUntil now w
  let remove := fun (due : String → Option Instant) name => Function.update due name none
  { w with backoffUntil := cleared.foldl remove w.backoffUntil }

/-- Observe exits; an error is only logged. -/
def observePhase (w : World) : World :=
  (observeExits env w).2

/-- Schedule the wake-up of a child that entered backoff. -/
def schedule (now : Instant) (due : String → Option Instant) :
    RestartOutcome → String → Option Instant
  | .restarted _ _ _ => due
  | .enteredBackoff name _ =>
      Function.update due name (some (now + Duration.fromSecs backoffSecs))

/-- Restart exited children and schedule the wake-up of those that entered
backoff; an error is only logged, and its outcomes are lost. -/
def restartPhase (now : Instant) (w : World) : World :=
  match restartExited env now w with
  | (.ok outcomes, w) => { w with backoffUntil := outcomes.foldl (schedule now) w.backoffUntil }
  | (.error _, w) => w

/-- One iteration of the supervisor loop. -/
def observerPass (now : Instant) (w : World) : World :=
  restartPhase env now (observePhase env (clearPhase env now { w with pass := some now }))

/-! ## Runs -/

/-- Observer passes at the given times. -/
def passes (times : List Instant) (w : World) : World :=
  times.foldl (fun w now => observerPass env now w) w

/-- A new supervisor, one {lit}`start_specs`, whose failure is only logged, and
observer passes at the given times. -/
def runSpecs (specs : List ChildSpec) (times : List Instant) : World :=
  passes env times (startSpecs env specs World.new).2

/-- The run of {lit}`wmd-init --spawn`, which starts every child. -/
def run (times : List Instant) : World :=
  passes env times (startAll env World.new).2

@[simp]
theorem runSpecs_nil (specs : List ChildSpec) :
    runSpecs env specs [] = (startSpecs env specs World.new).2 :=
  rfl

@[simp]
theorem runSpecs_snoc (specs : List ChildSpec) (times : List Instant) (now : Instant) :
    runSpecs env specs (times ++ [now]) = observerPass env now (runSpecs env specs times) := by
  simp [runSpecs, passes]

@[simp]
theorem run_snoc (times : List Instant) (now : Instant) :
    run env (times ++ [now]) = observerPass env now (run env times) :=
  runSpecs_snoc env canonicalChildren times now

end Supervisor

end Wintermute
