import Wintermute.BootstrapEnv
import Wintermute.Control.Server
import Wintermute.Supervisor.Projection

/-!
# The daemon

{lit}`wmd-init` reads its arguments and its bootstrap file, and then serves the control
plane.  Only when it is asked to spawn, the supervisor's critical sections come in between
those of the connections.

Main results:

- Theorem {lit}`parseCli_ok_iff`: the arguments that the daemon takes.
- Theorem {lit}`wmdInit_serving_iff`: when the daemon comes to serve.
- Theorem {lit}`daemon_status`: what a status answer of a daemon shows.
-/

namespace Wintermute

open Foundation

/-! ## Starting the process -/

/-- {lit}`CliArgs` of the daemon. -/
structure CliArgs where
  spawn : Bool
deriving DecidableEq, Repr

def wmdInitUsage : Str :=
  ("usage: wmd-init [--spawn]\n  --spawn   " ++
    "start the canonical children and run the exit-observer").toList

/-- One round of the loop over the arguments. -/
def parseArg (cli : CliArgs) (a : Str) : Except Str CliArgs :=
  if a = "--spawn".toList then .ok { cli with spawn := true }
  else if a = "-h".toList ∨ a = "--help".toList then .error wmdInitUsage
  else .error ("unknown argument: ".toList ++ a)

/-- {lit}`parse_cli`. -/
def parseCli (args : List Str) : Except Str CliArgs :=
  (args.drop 1).foldlM parseArg { spawn := false }

/-- How the process goes on when its set-up is done: it exits with a failure, it halts
with success, or it serves. -/
inductive Boot where
  | failure (message : Str)
  | halted (message : Str)
  | serving (spawn : Bool)
deriving DecidableEq, Repr

def noBootstrapMessage : Str :=
  "no bootstrap config; halting".toList

/-- {lit}`main` and {lit}`run` up to the first task; {lit}`override` is the value of the
override variable. -/
def wmdInit (args : List Str) (read : FileReader) (override : Option (List UInt8)) : Boot :=
  match parseCli args with
  | .error e => .failure e
  | .ok cli =>
      match EnvConfig.loadOptional read (resolveBootstrapEnvPath override) with
      | .error e => .failure e.toList
      | .ok none => .halted noBootstrapMessage
      | .ok (some _) => .serving cli.spawn

theorem parseArg_ok_iff {cli cli' : CliArgs} {a : Str} :
    parseArg cli a = .ok cli' ↔ a = "--spawn".toList ∧ cli'.spawn = true := by
  unfold parseArg
  split_ifs with hspawn
  · refine ⟨fun h => ?_, fun h => ?_⟩
    · cases h
      exact ⟨hspawn, rfl⟩
    · cases cli'
      exact congrArg (Except.ok ∘ CliArgs.mk) h.2.symm
  · exact iff_of_false nofun fun h => hspawn h.1
  · exact iff_of_false nofun fun h => hspawn h.1

/-- The loop ends well exactly when every argument is the flag. -/
theorem foldlM_parseArg_ok_iff {args : List Str} {cli cli' : CliArgs} :
    args.foldlM parseArg cli = .ok cli' ↔
      (∀ a ∈ args, a = "--spawn".toList) ∧ (cli'.spawn = true ↔ cli.spawn = true ∨ args ≠ []) := by
  induction args generalizing cli with
  | nil =>
      rw [List.foldlM_nil]
      cases cli with
      | mk spawn =>
          cases cli' with
          | mk spawn' => cases spawn <;> cases spawn' <;> simp [pure, Except.pure]
  | cons a args ih =>
      rw [List.foldlM_cons, List.forall_mem_cons]
      cases ha : parseArg cli a with
      | error e =>
          refine iff_of_false nofun fun h => ?_
          have hok : parseArg cli a = .ok ⟨true⟩ := parseArg_ok_iff.mpr ⟨h.1.1, rfl⟩
          rw [ha] at hok
          cases hok
      | ok next =>
          obtain ⟨hflag, hspawn⟩ := parseArg_ok_iff.mp ha
          change args.foldlM parseArg next = .ok cli' ↔ _
          rw [ih, hspawn]
          simp [hflag]

/-- The daemon takes no arguments, or its one flag any number of times. -/
theorem parseCli_ok_iff {args : List Str} {cli : CliArgs} :
    parseCli args = .ok cli ↔
      (∀ a ∈ args.drop 1, a = "--spawn".toList) ∧ (cli.spawn = true ↔ args.drop 1 ≠ []) := by
  rw [parseCli, foldlM_parseArg_ok_iff]
  simp

/-- The daemon serves exactly when it takes its arguments and finds its bootstrap file. -/
theorem wmdInit_serving_iff {args : List Str} {read : FileReader}
    {override : Option (List UInt8)} {spawn : Bool} :
    wmdInit args read override = .serving spawn ↔
      (∀ a ∈ args.drop 1, a = "--spawn".toList) ∧ (spawn = true ↔ args.drop 1 ≠ []) ∧
        ∃ text, read (resolveBootstrapEnvPath override) = .ok text := by
  unfold wmdInit EnvConfig.loadOptional
  cases hcli : parseCli args with
  | error e =>
      refine iff_of_false nofun ?_
      rintro ⟨hflags, hspawn, -⟩
      have hok : parseCli args = .ok ⟨spawn⟩ := parseCli_ok_iff.mpr ⟨hflags, hspawn⟩
      rw [hcli] at hok
      cases hok
  | ok cli =>
      obtain ⟨hflags, hspawn⟩ := parseCli_ok_iff.mp hcli
      cases hread : read (resolveBootstrapEnvPath override) with
      | error e =>
          refine iff_of_false ?_ ?_
          · cases e <;> exact nofun
          · rintro ⟨-, -, text, htext⟩
            cases htext
      | ok text =>
          dsimp only
          rw [Boot.serving.injEq]
          constructor
          · rintro rfl
            exact ⟨hflags, hspawn, text, rfl⟩
          · rintro ⟨-, hspawn', -⟩
            exact Bool.eq_iff_iff.mpr (hspawn.trans hspawn'.symm)

/-! ## What the daemon shows -/

/-- The view of a new supervisor. -/
def freshView : SupervisorView :=
  SupervisorView.pendingFor canonicalChildren

/-- The critical sections of start-up and of the observer passes, by what they do to the
view. -/
inductive SupervisorSection : (SupervisorView → SupervisorView) → Prop where
  | look : SupervisorSection id
  | starting (name : String) : SupervisorSection fun view =>
      (view.update (fun slot => slot.name == name) ChildState.markStarting).2
  | running (name : String) (childPid : UInt32) : SupervisorSection fun view =>
      (view.update (fun slot => slot.name == name) (ChildState.markRunning childPid)).2
  | exited (name : String) (pid : UInt32) : SupervisorSection fun view =>
      (view.update (fun slot => slot.name == name && decide (slot.status = .running))
        (ChildState.markExited pid)).2
  | restarted (name : String) (childPid : UInt32) : SupervisorSection fun view =>
      (view.update (fun slot => slot.name == name) (ChildState.markRestarted childPid)).2
  | backoff (name : String) (restartsInWindow : ℕ) : SupervisorSection fun view =>
      (view.update (fun slot => slot.name == name)
        (ChildState.markBackoff restartsInWindow)).2
  | clear (due : String → Option Instant) (now : Instant) : SupervisorSection fun view =>
      { view with children := view.children.map fun slot =>
          if Supervisor.backoffExpired due now slot then slot.markRetrying else slot }

/-- Sections of the supervisor keep everything but what happens to the children. -/
theorem SupervisorSection.keeps {f : SupervisorView → SupervisorView}
    (h : SupervisorSection f) (view : SupervisorView) :
    (f view).muted = view.muted ∧ (f view).names = view.names ∧
      (f view).protocolVersion = view.protocolVersion := by
  have hupdate : ∀ (p : ChildState → Bool) (mark : ChildState → ChildState),
      (∀ slot, (mark slot).name = slot.name) →
      (view.update p mark).2.muted = view.muted ∧ (view.update p mark).2.names = view.names ∧
        (view.update p mark).2.protocolVersion = view.protocolVersion :=
    fun p mark hmark => ⟨rfl, Supervisor.names_update hmark p view, rfl⟩
  cases h with
  | look => exact ⟨rfl, rfl, rfl⟩
  | starting name => exact hupdate _ _ ChildState.markStarting_name
  | running name childPid => exact hupdate _ _ (ChildState.markRunning_name childPid)
  | exited name pid => exact hupdate _ _ (ChildState.markExited_name pid)
  | restarted name childPid => exact hupdate _ _ (ChildState.markRestarted_name childPid)
  | backoff name restarts => exact hupdate _ _ (ChildState.markBackoff_name restarts)
  | clear due now =>
      refine ⟨rfl, ?_, rfl⟩
      unfold SupervisorView.names
      rw [List.map_map]
      refine List.map_congr_left fun slot _ => ?_
      dsimp only [Function.comp]
      split <;> rfl

/-- A critical section of a daemon: the supervisor has some only when it was asked to
spawn. -/
def Section.OfDaemon (spawn : Bool) : Section → Prop
  | .request _ _ _ => True
  | .supervise f => spawn = true ∧ SupervisorSection f

/-- The states that a serving daemon can reach. -/
def DaemonReachable (ep : Endpoint) (spawn : Bool) (s : Server) : Prop :=
  Reachable ep freshView s ∧ ∀ entry ∈ s.history, entry.1.OfDaemon spawn

/-- What a critical section sets the muted flag to, if it sets it. -/
def Section.mutes (ep : Endpoint) : Section → Option Bool
  | .request _ line _ =>
      match ep.fromStr line with
      | .ok .mute => some true
      | .ok .unmute => some false
      | _ => none
  | .supervise _ => none

section Sections

variable {ep : Endpoint} {spawn : Bool}

theorem run_muted {sec : Section} (hsec : sec.OfDaemon spawn) (view : SupervisorView) :
    (sec.run ep view).2.muted = (sec.mutes ep).getD view.muted := by
  cases sec with
  | supervise f =>
      exact (hsec.2.keeps view).1
  | request id line tailChildLog =>
      unfold Section.run Section.mutes respond
      dsimp only
      cases ep.fromStr line with
      | error e => rfl
      | ok req =>
          cases req with
          | logs child tail =>
              simp only [dispatch]
              split <;> rfl
          | _ => rfl

/-- Children may change by the supervisor's sections only. -/
theorem run_children {sec : Section} (hsec : sec.OfDaemon spawn) (view : SupervisorView) :
    (spawn = true ∨ (sec.run ep view).2.children = view.children) ∧
      (sec.run ep view).2.names = view.names ∧
        (sec.run ep view).2.protocolVersion = view.protocolVersion := by
  cases sec with
  | supervise f =>
      exact ⟨Or.inl hsec.1, (hsec.2.keeps view).2⟩
  | request id line tailChildLog =>
      have hchildren : (Section.run ep (.request id line tailChildLog) view).2.children =
          view.children := by
        unfold Section.run respond
        dsimp only
        split
        · exact dispatch_children _ _ _
        · rfl
      refine ⟨Or.inr hchildren, congrArg (List.map ChildState.name) hchildren, ?_⟩
      unfold Section.run respond
      dsimp only
      cases ep.fromStr line with
      | error e => rfl
      | ok req =>
          cases req with
          | logs child tail =>
              simp only [dispatch]
              split <;> rfl
          | _ => rfl

/-- The view after the sections of a daemon. -/
structure Shows (ep : Endpoint) (spawn : Bool) (secs : List Section) (view : SupervisorView) :
    Prop where
  protocolVersion : view.protocolVersion = Wintermute.protocolVersion
  names : view.names = childStartupOrder
  muted : view.muted = (secs.filterMap (Section.mutes ep)).getLast?.getD false
  children : spawn = true ∨ view.children = freshView.children

theorem shows_fresh : Shows ep spawn [] freshView :=
  ⟨rfl, pendingFor_canonical_names, rfl, Or.inr rfl⟩

/-- One more section. -/
theorem Shows.snoc {secs : List Section} {view : SupervisorView}
    (h : Shows ep spawn secs view) {sec : Section} (hsec : sec.OfDaemon spawn) :
    Shows ep spawn (secs ++ [sec]) (sec.run ep view).2 := by
  obtain ⟨hchildren, hnames, hversion⟩ := run_children hsec view
  refine ⟨hversion.trans h.protocolVersion, hnames.trans h.names, ?_, ?_⟩
  · rw [run_muted hsec, h.muted, List.filterMap_append]
    cases hmutes : sec.mutes ep with
    | none => simp [hmutes]
    | some muted => simp [hmutes]
  · rcases h.children with hspawn | hpending
    · exact Or.inl hspawn
    · exact hchildren.imp_right fun hsame => hsame.trans hpending

/-- The sections of a daemon, run one after the other. -/
theorem shows_sequential {secs : List Section} (hsecs : ∀ sec ∈ secs, sec.OfDaemon spawn) :
    Shows ep spawn secs (sequential (Section.run ep) secs freshView).2 := by
  induction secs using List.reverseRecOn with
  | nil => exact shows_fresh
  | append_singleton secs sec ih =>
      rw [List.forall_mem_append, List.forall_mem_singleton] at hsecs
      rw [sequential_append]
      exact (ih hsecs.1).snoc hsecs.2

/-- **What a daemon shows.**  In every run of a daemon that has come to serve, each status
request is answered with a view of the children in startup order, muted as the last mute or
unmute request served before it on any connection has it.  Without the spawn flag the
children are pending for ever. -/
theorem daemon_status {args : List Str} {read : FileReader} {override : Option (List UInt8)}
    (hboot : wmdInit args read override = .serving spawn) {s : Server}
    (hreach : DaemonReachable ep spawn s) {before after : List (Section × Option Response)}
    {id : ℕ} {line : List Char} {tailChildLog : String → UInt64 → Except String (List String)}
    {answer : Option Response}
    (hhistory : s.history = before ++ (.request id line tailChildLog, answer) :: after)
    (hline : ep.fromStr line = .ok .status) :
    ∃ view, answer = some (.status view) ∧
      view.protocolVersion = Wintermute.protocolVersion ∧ view.names = childStartupOrder ∧
      view.muted =
        ((before.map Prod.fst).filterMap (Section.mutes ep)).getLast?.getD false ∧
      ("--spawn".toList ∉ args → view.children = freshView.children) := by
  obtain ⟨hserver, hsections⟩ := hreach
  have hlinear : Linear (Section.run ep) freshView s.history s.view :=
    (accounts_of_reachable hserver).linear
  rw [hhistory] at hlinear hsections
  have hsecs : ∀ sec ∈ before.map Prod.fst, sec.OfDaemon spawn := by
    intro sec hsec
    obtain ⟨entry, hentry, rfl⟩ := List.mem_map.mp hsec
    exact hsections entry (List.mem_append_left _ hentry)
  have hshows := @shows_sequential ep spawn _ hsecs
  have hanswer := hlinear.answer_eq
  unfold Section.run respond at hanswer
  simp only [hline, dispatch] at hanswer
  refine ⟨_, hanswer, hshows.protocolVersion, hshows.names, hshows.muted, fun hflag => ?_⟩
  obtain ⟨hflags, hspawn, -⟩ := wmdInit_serving_iff.mp hboot
  rcases hshows.children with htrue | hpending
  · obtain ⟨a, ha⟩ := List.exists_mem_of_ne_nil _ (hspawn.mp htrue)
    exact absurd (hflags a ha ▸ List.mem_of_mem_drop ha) hflag
  · exact hpending

end Sections

/-! ## A daemon without children -/

/-- A new daemon that two clients ask to mute and for its status. -/
def daemonAsked : Server :=
  ((Server.listening freshView).setConn 0 (submitted (frame Request.mute.toJson))).setConn 1
    (submitted (frame Request.status.toJson))

/-- The daemon when it has answered both. -/
def daemonAnswered : Server :=
  (daemonAsked.answered quietEndpoint 0 Request.mute.toJson).answered quietEndpoint 1
    Request.status.toJson

theorem quietEndpoint_fromStr (req : Request) :
    quietEndpoint.fromStr req.toJson.print = .ok req :=
  wireEndpoint_fromStr _ req

theorem daemonAnswered_history :
    ∃ first second, daemonAnswered.history =
      [(.request 0 Request.mute.toJson.print quietEndpoint.tailChildLog, first)] ++
        [(.request 1 Request.status.toJson.print quietEndpoint.tailChildLog, second)] :=
  ⟨_, _, rfl⟩

theorem daemonReachable_answered : DaemonReachable quietEndpoint false daemonAnswered := by
  have hasked : Reachable quietEndpoint freshView daemonAsked :=
    reachable_submitted (reachable_submitted .listening rfl _) rfl _
  have hmute : daemonAsked.conns 0 = some (submitted (frame Request.mute.toJson)) := rfl
  have hstatus : (daemonAsked.answered quietEndpoint 0 Request.mute.toJson).conns 1 =
      some (submitted (frame Request.status.toJson)) := rfl
  have hfirst : Reachable quietEndpoint freshView
      (daemonAsked.answered quietEndpoint 0 Request.mute.toJson) :=
    reachable_of_steps hasked (steps_answered quietEndpoint hmute)
  refine ⟨reachable_of_steps hfirst (steps_answered quietEndpoint hstatus), ?_⟩
  obtain ⟨first, second, hhistory⟩ := daemonAnswered_history
  rw [hhistory, List.forall_mem_append, List.forall_mem_singleton, List.forall_mem_singleton]
  exact ⟨trivial, trivial⟩

/-- The answer to the second client shows the children pending and the mute request. -/
theorem daemon_status_answered :
    ∃ view, daemonAnswered.history.getLast?.bind Prod.snd = some (.status view) ∧
      view.muted = true ∧ view.children = freshView.children := by
  have hboot : wmdInit ["wmd-init".toList] (fun _ => .ok []) none = .serving false := by decide
  have hmutes : [Section.request 0 Request.mute.toJson.print quietEndpoint.tailChildLog].filterMap
      (Section.mutes quietEndpoint) = [true] := by
    have hparse : quietEndpoint.fromStr Request.mute.toJson.print = .ok .mute :=
      quietEndpoint_fromStr .mute
    simp only [Section.mutes, hparse, List.filterMap_cons, List.filterMap_nil]
  have hstatus : quietEndpoint.fromStr Request.status.toJson.print = .ok .status :=
    quietEndpoint_fromStr .status
  obtain ⟨first, second, hhistory⟩ := daemonAnswered_history
  obtain ⟨view, hanswer, -, -, hmuted, hchildren⟩ := daemon_status hboot daemonReachable_answered
    hhistory hstatus
  rw [hhistory]
  exact ⟨view, hanswer, hmuted.trans (congrArg (·.getLast?.getD false) hmutes),
    hchildren (by decide)⟩

end Wintermute
