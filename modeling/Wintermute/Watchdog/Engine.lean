import Mathlib.Logic.Function.Basic
import Wintermute.Watchdog.RecoveryState

/-!
# The watchdog engine

The engine owns the table of recovery states and reaches systemd through a
backend.  Each tick lists the failed units and tries to recover those whose state
allows it.

The backend answers the calls about a unit from the whole history of calls, so it
can be any systemd: it may fail, and units may change between any two calls.
{lit}`list_failed_units` is called once, at the start of a tick; its answers are the
lists that a run is given.

Main results:

- Definition {lit}`tick`: one tick of the engine.
- Definition {lit}`run`: the ticks of a new engine and what each of them returned.
-/

namespace Wintermute
namespace Watchdog

/-! ## Unit filter -/

/-- The watchdog's own unit name. -/
def watchdogUnitName : String := "wintermute-watchdog.service"

/-- The unit name without its {lit}`.service` suffix, if it has one. -/
def stripService (unit : String) : List Char :=
  let suffix := ".service".toList
  if suffix.isSuffixOf unit.toList
    then unit.toList.take (unit.toList.length - suffix.length) else unit.toList

/-- The unit belongs to the wintermute fleet and is not the watchdog itself. -/
def isWintermuteUnit (unit : String) : Bool :=
  if unit = watchdogUnitName then false
  else
    let u := stripService unit
    "wm-".toList.isPrefixOf u
      || "wm.".toList.isPrefixOf u
      || decide (u = "wmd".toList)
      || "wmd-".toList.isPrefixOf u
      || "wintermute-".toList.isPrefixOf u
      || "wintermute.".toList.isPrefixOf u

/-! ## Backend -/

/-- Errors of the engine and of the backend. -/
inductive WatchdogError where
  | systemctlFailed (op unit detail : String)
  | io (detail : String)
deriving DecidableEq, Repr

/-- One call to the backend, with its answer. -/
inductive SystemctlCall where
  | listFailedUnits (answer : Except WatchdogError (List String))
  | resetFailed (unit : String) (answer : Except WatchdogError Unit)
  | startUnit (unit : String) (answer : Except WatchdogError Unit)
  | unitIsFailed (unit : String) (answer : Except WatchdogError Bool)
deriving DecidableEq

/-- A call and the time of the tick that made it. -/
structure Call where
  now : Instant
  call : SystemctlCall

/-- The answers of systemd, from the history so far, newest call first. -/
structure SystemctlBackend where
  resetFailed : List Call → String → Except WatchdogError Unit
  startUnit : List Call → String → Except WatchdogError Unit
  unitIsFailed : List Call → String → Except WatchdogError Bool

/-! ## Engine -/

/-- Emitted when the watchdog gives up on a unit. -/
structure HealthEvent where
  unit : String
  attempts : UInt32
deriving DecidableEq, Repr

/-- The backoff table, and the calls made so far, newest first. -/
structure WatchdogEngine where
  table : String → Option RecoveryState
  log : List Call

namespace WatchdogEngine

/-- A new engine. -/
def new : WatchdogEngine where
  table := fun _ => none
  log := []

/-- Append a call to the history. -/
def note (now : Instant) (call : SystemctlCall) (engine : WatchdogEngine) : WatchdogEngine :=
  { engine with log := ⟨now, call⟩ :: engine.log }

/-- {lit}`table.entry(unit).or_default()`. -/
def entry (unit : String) (engine : WatchdogEngine) : RecoveryState :=
  (engine.table unit).getD default

/-- Write the entry of a unit. -/
def setEntry (unit : String) (s : RecoveryState) (engine : WatchdogEngine) : WatchdogEngine :=
  { engine with table := Function.update engine.table unit (some s) }

variable (backend : SystemctlBackend) (now : Instant) (unit : String)

/-- Call {lit}`reset_failed`. -/
def resetFailed (engine : WatchdogEngine) : Except WatchdogError Unit × WatchdogEngine :=
  let answer := backend.resetFailed engine.log unit
  (answer, engine.note now (.resetFailed unit answer))

/-- Call {lit}`start_unit`. -/
def startUnit (engine : WatchdogEngine) : Except WatchdogError Unit × WatchdogEngine :=
  let answer := backend.startUnit engine.log unit
  (answer, engine.note now (.startUnit unit answer))

/-- Call {lit}`unit_is_failed`. -/
def unitIsFailed (engine : WatchdogEngine) : Except WatchdogError Bool × WatchdogEngine :=
  let answer := backend.unitIsFailed engine.log unit
  (answer, engine.note now (.unitIsFailed unit answer))

/-- Reset the unit and, if that worked, start it; answers whether both did. -/
def resetAndStart (engine : WatchdogEngine) : Bool × WatchdogEngine :=
  match engine.resetFailed backend now unit with
  | (.error _, engine) => (false, engine)
  | (.ok (), engine) =>
      match engine.startUnit backend now unit with
      | (.error _, engine) => (false, engine)
      | (.ok (), engine) => (true, engine)

end WatchdogEngine

/-! ## One tick -/

/-- Record a failed recovery, with a health event if the unit is now given up. -/
def failRecovery (now : Instant) (unit : String)
    (acc : List HealthEvent × WatchdogEngine) : List HealthEvent × WatchdogEngine :=
  let (events, engine) := acc
  let (gaveUp, state) := (engine.entry unit).recordFailure now
  let engine := engine.setEntry unit state
  if gaveUp then
    let attempts := (engine.table unit).elim giveUpAfter RecoveryState.consecutiveFailures
    (events ++ [⟨unit, attempts⟩], engine)
  else (events, engine)

/-- Attempt a recovery: reset and start the unit, and ask again whether it is
failed; a query without answer counts as failed. -/
def attemptRecovery (backend : SystemctlBackend) (now : Instant) (unit : String)
    (acc : List HealthEvent × WatchdogEngine) : List HealthEvent × WatchdogEngine :=
  let (events, engine) := acc
  let (startOk, engine) := engine.resetAndStart backend now unit
  if startOk then
    let (answer, engine) := engine.unitIsFailed backend now unit
    let stillFailed := answer.toOption.getD true
    if stillFailed then failRecovery now unit (events, engine)
    else (events, engine.setEntry unit (engine.entry unit).recordSuccess)
  else failRecovery now unit (events, engine)

/-- One iteration of the loop over the failed units. -/
def recoverUnit (backend : SystemctlBackend) (now : Instant)
    (acc : List HealthEvent × WatchdogEngine) (unit : String) :
    List HealthEvent × WatchdogEngine :=
  if isWintermuteUnit unit then
    let (events, engine) := acc
    let state := engine.entry unit
    let engine := engine.setEntry unit state
    if state.mayAttempt now then attemptRecovery backend now unit (events, engine)
    else (events, engine)
  else acc

/-- One tick of the engine at {lit}`now`, where {lit}`listed` is what
{lit}`list_failed_units` answers. -/
def tick (backend : SystemctlBackend) (now : Instant)
    (listed : Except WatchdogError (List String)) (engine : WatchdogEngine) :
    Except WatchdogError (List HealthEvent) × WatchdogEngine :=
  let engine := engine.note now (.listFailedUnits listed)
  match listed with
  | .error e => (.error e, engine)
  | .ok failed =>
      let (events, engine) := failed.foldl (recoverUnit backend now) ([], engine)
      (.ok events, engine)

/-! ## Runs -/

/-- The time of a tick, and what {lit}`list_failed_units` answers on it. -/
structure Poll where
  now : Instant
  listed : Except WatchdogError (List String)

/-- Ticks at a fixed interval that find one unit failed. -/
def pollsEvery (secs : ℕ) (unit : String) (n : ℕ) : List Poll :=
  (List.range n).map fun i => ⟨Duration.fromSecs (secs * i), .ok [unit]⟩

/-- An engine and what its ticks have returned, oldest first. -/
structure Watch where
  engine : WatchdogEngine
  returned : List (Except WatchdogError (List HealthEvent))

/-- A new engine that has not ticked. -/
def Watch.new : Watch where
  engine := WatchdogEngine.new
  returned := []

/-- One more tick. -/
def Watch.step (backend : SystemctlBackend) (w : Watch) (p : Poll) : Watch :=
  let (result, engine) := tick backend p.now p.listed w.engine
  { engine := engine, returned := w.returned ++ [result] }

/-- The ticks of a new engine. -/
def run (backend : SystemctlBackend) (polls : List Poll) : Watch :=
  polls.foldl (Watch.step backend) Watch.new

@[simp]
theorem run_nil (backend : SystemctlBackend) : run backend [] = Watch.new :=
  rfl

@[simp]
theorem run_snoc (backend : SystemctlBackend) (polls : List Poll) (p : Poll) :
    run backend (polls ++ [p]) = (run backend polls).step backend p := by
  simp [run]

/-! ## What the primitives leave -/

namespace WatchdogEngine

variable (now : Instant) (unit : String) (call : SystemctlCall) (s : RecoveryState)
  (engine : WatchdogEngine)

@[simp]
theorem note_table : (engine.note now call).table = engine.table :=
  rfl

@[simp]
theorem note_log : (engine.note now call).log = ⟨now, call⟩ :: engine.log :=
  rfl

@[simp]
theorem note_entry : (engine.note now call).entry unit = engine.entry unit :=
  rfl

@[simp]
theorem setEntry_log : (engine.setEntry unit s).log = engine.log :=
  rfl

@[simp]
theorem setEntry_entry : (engine.setEntry unit s).entry unit = s := by
  simp [setEntry, entry]

@[simp]
theorem setEntry_table_self : (engine.setEntry unit s).table unit = some s := by
  simp [setEntry]

@[simp]
theorem setEntry_table_ne {u : String} (h : u ≠ unit) :
    (engine.setEntry unit s).table u = engine.table u :=
  Function.update_of_ne h _ _

end WatchdogEngine

end Watchdog
end Wintermute
