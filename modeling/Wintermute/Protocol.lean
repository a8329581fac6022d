import Mathlib.Data.List.Basic

/-!
# Children, requests and the supervisor view

The data the supervisor keeps and serves: the specification of a child, the
per-child lifecycle state, the view of all children, and the requests and
responses of the control plane.  Machine integers keep the widths of the
source; {lit}`usize` is the 64-bit one.

Main results:

- Theorem {lit}`childStartupOrder_nodup`: the five canonical names are distinct.
- Theorem {lit}`pendingFor_canonical_names`: a fresh view lists them in startup
  order.
-/

namespace Wintermute

/-! ## Child specifications -/

/-- One supervised child: binary name and invocation. -/
structure ChildSpec where
  name : String
  exec : String
  args : List String
deriving DecidableEq, Repr

/-- Canonical startup order for the children. -/
def childStartupOrder : List String :=
  ["wm-audio", "wm-tts", "wm-stt", "wm-dialog", "wmd"]

/-- The canonical five-child spec list in startup order. -/
def canonicalChildren : List ChildSpec :=
  childStartupOrder.map fun n => { name := n, exec := n, args := [] }

theorem childStartupOrder_nodup : childStartupOrder.Nodup := by
  decide

/-! ## Lifecycle state -/

/-- Lifecycle phase of a child. -/
inductive ChildStatus where
  | pending
  | starting
  | running
  | exited
  | backoff
  | halted
deriving DecidableEq, Repr

/-- Per-child lifecycle state. -/
structure ChildState where
  name : String
  status : ChildStatus
  uptimeSecs : UInt64
  restartCount : UInt32
  lastEvent : Option String
  childPid : Option UInt32
deriving DecidableEq, Repr

/-- A fresh pending entry from a spec. -/
def ChildState.pendingFrom (spec : ChildSpec) : ChildState where
  name := spec.name
  status := .pending
  uptimeSecs := 0
  restartCount := 0
  lastEvent := none
  childPid := none

/-- Wire version, bumped when an incompatible field is added. -/
def protocolVersion : UInt32 := 1

/-- Snapshot of every supervised child. -/
structure SupervisorView where
  protocolVersion : UInt32
  children : List ChildState
  muted : Bool
deriving DecidableEq, Repr

/-- The initial view: every child pending. -/
def SupervisorView.pendingFor (specs : List ChildSpec) : SupervisorView where
  protocolVersion := Wintermute.protocolVersion
  children := specs.map ChildState.pendingFrom
  muted := false

/-- Names of the children of a view, in order. -/
def SupervisorView.names (view : SupervisorView) : List String :=
  view.children.map ChildState.name

theorem pendingFor_canonical_names :
    (SupervisorView.pendingFor canonicalChildren).names = childStartupOrder := by
  decide

/-! ## Requests and responses -/

/-- One client-to-supervisor command. -/
inductive Request where
  | status
  | mute
  | unmute
  | restart (child : Option String)
  | logs (child : String) (tail : UInt64)
  | say (text : String)
deriving DecidableEq, Repr

/-- One supervisor-to-client response. -/
inductive Response where
  | status (view : SupervisorView)
  | ack
  | logs (child : String) (lines : List String)
  | notImplemented (op : String)
  | error (message : String)
deriving DecidableEq, Repr

/-- Serve one request on the view.  {lit}`tailChildLog` reads the log file of a
child and answers its last lines, or the text of the I/O error. -/
def dispatch (tailChildLog : String → UInt64 → Except String (List String))
    (req : Request) (view : SupervisorView) : Response × SupervisorView :=
  match req with
  | .status => (.status view, view)
  | .mute => (.ack, { view with muted := true })
  | .unmute => (.ack, { view with muted := false })
  | .restart _ => (.notImplemented "restart", view)
  | .logs child tail =>
      match tailChildLog child tail with
      | .ok lines => (.logs child lines, view)
      | .error e => (.error s!"tail {child}: {e}", view)
  | .say _ => (.notImplemented "say", view)

/-- No request touches the children. -/
@[simp]
theorem dispatch_children (tailChildLog : String → UInt64 → Except String (List String))
    (req : Request) (view : SupervisorView) :
    (dispatch tailChildLog req view).2.children = view.children := by
  cases req with
  | logs child tail =>
      simp only [dispatch]
      split <;> rfl
  | _ => rfl

end Wintermute
