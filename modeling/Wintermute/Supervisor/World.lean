import Mathlib.Logic.Function.Basic
import Wintermute.Foundation.FirstMatch
import Wintermute.Protocol
import Wintermute.RestartTracker

/-!
# The supervisor's world

The supervisor shares its view with the control plane behind a mutex, launches
and probes children through a spawner, and keeps two maps in its observer loop.
This module fixes that state, the environment that answers its calls, and the
critical section as the atomic step on the view.

The environment answers from the whole history, so it can be any spawner on any
machine: it may fail, hand out any PIDs and let processes die between any two
calls.  The control plane is part of it: before each critical section it
dispatches an arbitrary list of client requests.

Main results:

- Theorem {lit}`dispatchAll_frame`: requests that are served between two
  critical sections leave the children, the trackers and the schedule alone.
- Theorem {lit}`lock_log`: what one critical section leaves in the history.
-/

namespace Wintermute

/-! ## Results and calls -/

/-- An {lit}`anyhow` error: its context messages, outermost first. -/
structure Error where
  chain : List String
deriving DecidableEq, Repr

/-- {lit}`with_context`. -/
def Error.withContext (message : String) (e : Error) : Error where
  chain := message :: e.chain

/-- Fallible result of the supervisor and of the spawner. -/
abbrev Result (α : Type) := Except Error α

/-- Result of a successful {lit}`start` call. -/
structure StartedChild where
  id : String
  childPid : UInt32
  supervisorPid : UInt32
deriving DecidableEq, Repr

/-! ## History -/

/-- One observable action.  A probe names the child it is made for. -/
inductive Action where
  | critical (before after : SupervisorView)
  | start (spec : ChildSpec) (answer : Result StartedChild)
  | stillRunning (name : String) (childPid : UInt32) (answer : Result Bool)
  | request (req : Request) (resp : Response)

/-- An action and the time of the observer pass it belongs to; {lit}`none` before
the first pass. -/
structure Event where
  pass : Option Instant
  action : Action

/-! ## Environment -/

/-- The launcher and liveness probe, answering from the history so far. -/
structure Spawner where
  start : List Event → ChildSpec → Result StartedChild
  stillRunning : List Event → UInt32 → Result Bool

/-- The clients of the control socket and the log files they can read. -/
structure Clients where
  requests : List Event → List Request
  tailChildLog : List Event → String → UInt64 → Except String (List String)

/-- Everything outside the supervisor. -/
structure Environment where
  spawner : Spawner
  clients : Clients

/-- A control plane that nobody uses. -/
def Clients.quiet : Clients where
  requests _ := []
  tailChildLog _ _ _ := .ok []

/-! ## State -/

/-- The shared view, the two maps owned by the observer loop, and the history,
newest event first, with the time of the pass under way. -/
structure World where
  view : SupervisorView
  trackers : String → Option RestartTracker
  backoffUntil : String → Option Instant
  pass : Option Instant
  log : List Event

/-- {lit}`Supervisor::new` with the empty maps of a new observer loop. -/
def World.new : World where
  view := SupervisorView.pendingFor canonicalChildren
  trackers := fun _ => none
  backoffUntil := fun _ => none
  pass := none
  log := []

/-- Append an action to the history. -/
def World.note (w : World) (action : Action) : World :=
  { w with log := ⟨w.pass, action⟩ :: w.log }

/-! ## Critical sections -/

/-- Dispatch one client request. -/
def World.serve (env : Environment) (w : World) (req : Request) : World :=
  let served := dispatch (env.clients.tailChildLog w.log) req w.view
  { w with view := served.2 }.note (.request req served.1)

/-- Dispatch what the clients have sent since the last critical section. -/
def World.dispatchAll (env : Environment) (w : World) : World :=
  (env.clients.requests w.log).foldl (World.serve env) w

/-- One critical section of the supervisor on the state mutex: {lit}`f` reads the
view and leaves the new one. -/
def World.lock {α : Type} (env : Environment) (f : SupervisorView → α × SupervisorView)
    (w : World) : α × World :=
  let ready := w.dispatchAll env
  let result := f ready.view
  (result.1, { ready with view := result.2 }.note (.critical ready.view result.2))

/-- The critical section that finds the first child satisfying {lit}`p` and changes
it in place; answers the changed child, if there is one. -/
def SupervisorView.update (p : ChildState → Bool) (f : ChildState → ChildState)
    (view : SupervisorView) : Option ChildState × SupervisorView :=
  ((view.children.find? p).map f,
    { view with children := Foundation.updateFirst p f view.children })

/-- The child of a given name. -/
def SupervisorView.slot (view : SupervisorView) (c : String) : Option ChildState :=
  view.children.find? (fun child => child.name == c)

/-- The status of the child of a given name. -/
def SupervisorView.status (view : SupervisorView) (c : String) : Option ChildStatus :=
  (view.slot c).map ChildState.status

/-- The PID of the child of a given name, if it is believed to run. -/
def SupervisorView.runningPid (view : SupervisorView) (c : String) : Option UInt32 :=
  (view.slot c).bind fun slot => if slot.status = .running then slot.childPid else none

/-! ## What the primitives leave -/

@[simp]
theorem note_view (w : World) (a : Action) : (w.note a).view = w.view :=
  rfl

@[simp]
theorem note_trackers (w : World) (a : Action) : (w.note a).trackers = w.trackers :=
  rfl

@[simp]
theorem note_backoffUntil (w : World) (a : Action) :
    (w.note a).backoffUntil = w.backoffUntil :=
  rfl

@[simp]
theorem note_pass (w : World) (a : Action) : (w.note a).pass = w.pass :=
  rfl

@[simp]
theorem note_log (w : World) (a : Action) : (w.note a).log = ⟨w.pass, a⟩ :: w.log :=
  rfl

/-- Requests served between two critical sections leave the children and the
observer's own state alone and are recorded as requests. -/
theorem dispatchAll_frame (env : Environment) (w : World) :
    (w.dispatchAll env).view.children = w.view.children ∧
      (w.dispatchAll env).trackers = w.trackers ∧
      (w.dispatchAll env).backoffUntil = w.backoffUntil ∧
      (w.dispatchAll env).pass = w.pass ∧
      ∃ served, (w.dispatchAll env).log = served ++ w.log ∧
        ∀ e ∈ served, ∃ req resp, e.action = .request req resp := by
  unfold World.dispatchAll
  generalize env.clients.requests w.log = reqs
  induction reqs generalizing w with
  | nil => exact ⟨rfl, rfl, rfl, rfl, [], rfl, by simp⟩
  | cons req reqs ih =>
      obtain ⟨hchildren, htrackers, hdue, hpass, served, hlog, hserved⟩ := ih (w.serve env req)
      rw [List.foldl_cons]
      refine ⟨?_, htrackers, hdue, hpass, ?_⟩
      · rw [hchildren]
        exact dispatch_children _ _ _
      · refine ⟨served ++ [⟨w.pass, .request req
          (dispatch (env.clients.tailChildLog w.log) req w.view).1⟩], ?_, ?_⟩
        · rw [hlog]
          simp [World.serve]
        · intro e he
          rcases List.mem_append.mp he with he | he
          · exact hserved e he
          · rw [List.mem_singleton.mp he]
            exact ⟨_, _, rfl⟩

/-- A property of the history that every request keeps is kept by the requests served
between two critical sections. -/
theorem dispatchAll_log_invariant {P : List Event → Prop} (env : Environment) {w : World}
    (h : P w.log)
    (hrequest : ∀ pass req resp log, P log → P (⟨pass, .request req resp⟩ :: log)) :
    P (w.dispatchAll env).log := by
  obtain ⟨-, -, -, -, served, hlog, hserved⟩ := dispatchAll_frame env w
  rw [hlog]
  clear hlog
  induction served with
  | nil => exact h
  | cons e served ih =>
      obtain ⟨pass, action⟩ := e
      obtain ⟨req, resp, haction⟩ := hserved _ List.mem_cons_self
      cases haction
      exact hrequest _ _ _ _ (ih fun e he => hserved e (List.mem_cons_of_mem _ he))

theorem dispatchAll_children (env : Environment) (w : World) :
    (w.dispatchAll env).view.children = w.view.children :=
  (dispatchAll_frame env w).1

variable {α : Type} {env : Environment} {f : SupervisorView → α × SupervisorView} {w : World}

@[simp]
theorem lock_trackers : (w.lock env f).2.trackers = w.trackers :=
  (dispatchAll_frame env w).2.1

@[simp]
theorem lock_backoffUntil : (w.lock env f).2.backoffUntil = w.backoffUntil :=
  (dispatchAll_frame env w).2.2.1

@[simp]
theorem lock_pass : (w.lock env f).2.pass = w.pass :=
  (dispatchAll_frame env w).2.2.2.1

/-- A critical section is recorded as the newest event, above the requests that
got the mutex first. -/
theorem lock_log (env : Environment) (f : SupervisorView → α × SupervisorView) (w : World) :
    ∃ served, (w.lock env f).2.log =
        ⟨w.pass, .critical (w.dispatchAll env).view (f (w.dispatchAll env).view).2⟩ ::
          (served ++ w.log) ∧
      ∀ e ∈ served, ∃ req resp, e.action = .request req resp := by
  obtain ⟨-, -, -, hpass, served, hlog, hserved⟩ := dispatchAll_frame env w
  refine ⟨served, ?_, hserved⟩
  simp [World.lock, hpass, hlog]

end Wintermute
