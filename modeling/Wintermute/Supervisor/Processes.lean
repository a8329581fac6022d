import Wintermute.Supervisor.Launcher
import Wintermute.Supervisor.NoDuplicate

/-!
# One process for each child

Under the launcher lies the machine, with a history of its own: which processes of the
children are alive, what a finished command leaves, and what {lit}`/proc` shows.
Processes may die at any time, and a PID may be used again.

Main results:

- Theorem {lit}`answered_run`: the history of a run holds the answers of the spawner.
- Theorem {lit}`one_process`: at every point of every run at most one process of a child is
  alive, and none when the child is launched.
-/

namespace Wintermute

namespace Supervisor

open Foundation

/-! ## The history holds the answers -/

/-- A launch or a probe has the answer that the spawner gives at its place. -/
def FromSpawner (env : Environment) (e : Event) (older : List Event) : Prop :=
  match e.action with
  | .start spec answer => answer = env.spawner.start older spec
  | .stillRunning _ pid answer => answer = env.spawner.stillRunning older pid
  | _ => True

section Answers

variable {env : Environment} {w : World}

/-- All answers of the history come from the spawner. -/
def Answered (env : Environment) (w : World) : Prop :=
  EachAfter (FromSpawner env) w.log

theorem Answered.lock {α : Type} (h : Answered env w) (f : SupervisorView → α × SupervisorView) :
    Answered env (w.lock env f).2 :=
  ⟨trivial, dispatchAll_log_invariant (P := EachAfter (FromSpawner env)) env h
    fun _ _ _ _ hlog => ⟨trivial, hlog⟩⟩

theorem Answered.startSpec (h : Answered env w) (spec : ChildSpec) :
    Answered env (startSpec env w spec).2 := by
  have hmarked := h.lock (SupervisorView.update (fun c => c.name == spec.name)
    ChildState.markStarting)
  unfold Supervisor.startSpec
  dsimp only
  generalize (w.lock env (SupervisorView.update (fun c => c.name == spec.name)
    ChildState.markStarting)).2 = w at hmarked ⊢
  have hnoted : Answered env (w.note (.start spec (env.spawner.start w.log spec))) :=
    ⟨rfl, hmarked⟩
  split
  · exact hnoted
  · exact hnoted.lock _

theorem Answered.probeChild {names : List String} (h : Answered env w)
    (child : String × UInt32) : Answered env (probeChild env (names, w) child).2.2 := by
  have hnoted : Answered env
      (w.note (.stillRunning child.1 child.2 (env.spawner.stillRunning w.log child.2))) :=
    ⟨rfl, h⟩
  unfold Supervisor.probeChild
  dsimp only
  split
  · exact hnoted
  · exact hnoted
  · split <;> exact hnoted.lock _

theorem Answered.relaunchChild (h : Answered env w) (name execName : String) :
    Answered env (relaunchChild env name execName w).2 := by
  have hnoted : Answered env (w.note (.start { name := name, exec := execName, args := [] }
      (env.spawner.start w.log { name := name, exec := execName, args := [] }))) := ⟨rfl, h⟩
  unfold Supervisor.relaunchChild
  dsimp only
  split
  · exact hnoted
  · exact hnoted.lock _

theorem Answered.restartChild {outcomes : List RestartOutcome} (h : Answered env w)
    (now : Instant) (child : String × String) :
    Answered env (restartChild env now (outcomes, w) child).2.2 := by
  have hrecorded : Answered env (recordRestart now child.1 w) := h
  have hrelaunched := hrecorded.relaunchChild child.1 child.2
  unfold Supervisor.restartChild
  dsimp only
  split
  · split <;> rename_i heq <;> rw [heq] at hrelaunched <;> exact hrelaunched
  · exact hrecorded.lock _

theorem Answered.observerPass (h : Answered env w) (now : Instant) :
    Answered env (observerPass env now w) := by
  have hentered : Answered env { w with pass := some now } := h
  have hcleared : Answered env (clearPhase env now { w with pass := some now }) := by
    have hlocked : Answered env
        (clearExpiredBackoffs env w.backoffUntil now { w with pass := some now }).2 :=
      hentered.lock _
    exact hlocked
  have hobserved : Answered env
      (observePhase env (clearPhase env now { w with pass := some now })) := by
    rw [observePhase, observeExits]
    rw [collect_snd]
    exact tryEach_invariant (fun acc : List String × World => Answered env acc.2) _
      (fun child _ acc hacc => hacc.probeChild child) _ (hcleared.lock _)
  have hrestarted : Answered env (restartExited env now
      (observePhase env (clearPhase env now { w with pass := some now }))).2 := by
    rw [restartExited]
    rw [collect_snd]
    exact tryEach_invariant (fun acc : List RestartOutcome × World => Answered env acc.2) _
      (fun child _ acc hacc => hacc.restartChild now child) _ (hobserved.lock _)
  rw [Supervisor.observerPass, restartPhase]
  split <;> rename_i heq <;> rw [heq] at hrestarted <;> exact hrestarted

/-- The history of a run holds the answers of the spawner. -/
theorem answered_run (env : Environment) (times : List Instant) : Answered env (run env times) := by
  have hstarted : Answered env (startAll env World.new).2 :=
    tryEach_invariant (Answered env) _ (fun spec _ _ hw => hw.startSpec spec) _ trivial
  unfold run passes
  generalize (startAll env World.new).2 = w at hstarted
  induction times generalizing w with
  | nil => exact hstarted
  | cons now times ih => exact ih _ (hstarted.observerPass now)

end Answers

/-! ## The slot holds the process -/

/-- A launch of the child follows the report that its last process is gone, or no launch has
answered before. -/
def ChildLaunchAllowed (e : ChildEvent) (older : List ChildEvent) : Prop :=
  ∀ spec answer, e.action = .start spec answer →
    older.findSome? ChildEvent.launched = none ∨ ChildGone older

namespace Life

/-- The last started process is the one in the slot, unless it has been reported gone. -/
structure Settled (l : Life) : Prop where
  accounted : l.Accounted
  held : l.slot.isSome = true → ∀ pid, l.log.findSome? ChildEvent.launched = some pid →
    l.runningPid = some pid ∨ ChildGone l.log
  launches : EachAfter ChildLaunchAllowed l.log

variable {l : Life}

/-- An event that is not a launch is allowed. -/
theorem launches_quiet {log : List ChildEvent} (h : EachAfter ChildLaunchAllowed log)
    {e : ChildEvent} (he : ∀ spec answer, e.action ≠ .start spec answer) :
    EachAfter ChildLaunchAllowed (e :: log) :=
  ⟨fun spec answer haction => absurd haction (he spec answer), h⟩

theorem edit_launches (h : EachAfter ChildLaunchAllowed l.log) (f : ChildState → ChildState) :
    EachAfter ChildLaunchAllowed (l.edit f).log := by
  rw [edit_log_eq]
  split
  · exact h
  · exact launches_quiet h (by simp)

/-- A child outside the running state is settled when its last process is gone. -/
theorem settled_of_gone (haccounted : l.Accounted)
    (hstatus : l.status = some .exited ∨ l.status = some .backoff)
    (hlaunches : EachAfter ChildLaunchAllowed l.log) : l.Settled :=
  ⟨haccounted, fun _ _ _ => Or.inr (haccounted.gone hstatus), hlaunches⟩

/-- A supervised child whose first launch answered runs under the PID of the answer. -/
theorem started_held (spec : ChildSpec) (child : StartedChild)
    (hslot : (l.started spec (.ok child)).slot.isSome = true) :
    (l.started spec (.ok child)).runningPid = some child.childPid := by
  change ((((l.edit ChildState.markStarting).note (.start spec (.ok child))).edit
    (ChildState.markRunning child.childPid)).slot).isSome = true at hslot
  change (((l.edit ChildState.markStarting).note (.start spec (.ok child))).edit
    (ChildState.markRunning child.childPid)).runningPid = _
  rw [edit_slot, note_slot, edit_slot, Option.isSome_map, Option.isSome_map] at hslot
  obtain ⟨slot, hslot⟩ := Option.isSome_iff_exists.mp hslot
  rw [runningPid, edit_slot, note_slot, edit_slot, hslot]
  rfl

/-- Before the first launch nothing was launched. -/
theorem edit_fresh_launched (hfresh : l.Fresh) (f : ChildState → ChildState) :
    (l.edit f).log.findSome? ChildEvent.launched = none := by
  rw [edit_log_eq, hfresh.log_eq]
  split <;> rfl

/-- Start-up launches a child for the first time. -/
theorem started_launches (hfresh : l.Fresh) (spec : ChildSpec) (answer : Result StartedChild) :
    EachAfter ChildLaunchAllowed (l.started spec answer).log := by
  have hfirst : EachAfter ChildLaunchAllowed l.log := by
    rw [hfresh.log_eq]
    trivial
  have hnoted : EachAfter ChildLaunchAllowed
      ((l.edit ChildState.markStarting).note (.start spec answer)).log :=
    ⟨fun _ _ _ => Or.inl (edit_fresh_launched hfresh _), edit_launches hfirst _⟩
  cases answer with
  | error e => exact hnoted
  | ok child => exact edit_launches hnoted (ChildState.markRunning child.childPid)

/-- Children stay settled along every run. -/
theorem settled_invariant (R : Instant → Instant → Prop) : Invariant R Settled where
  fresh l hfresh := by
    refine ⟨(accounted_invariant R).fresh l hfresh, ?_, ?_⟩
    · intro _ pid hpid
      rw [hfresh.log_eq] at hpid
      cases hpid
    · rw [hfresh.log_eq]
      trivial
  started l spec answer hfresh := by
    refine ⟨(accounted_invariant R).started l spec answer hfresh, ?_,
      started_launches hfresh spec answer⟩
    intro hslot pid hpid
    left
    cases answer with
    | error e =>
        have hnone := edit_fresh_launched hfresh ChildState.markStarting
        change ((l.edit ChildState.markStarting).log).findSome? ChildEvent.launched = _ at hpid
        rw [hnone] at hpid
        cases hpid
    | ok child =>
        rw [started_launched] at hpid
        rw [started_held spec child hslot, hpid]
  enter l now hl hR := ⟨(accounted_invariant R).enter l now hl.accounted hR, hl.held, hl.launches⟩
  clear l now hl hpass hexpired := by
    obtain ⟨hstatus, -, hlog⟩ := clear_spec hexpired
    refine settled_of_gone ((accounted_invariant R).clear l now hl.accounted hpass hexpired)
      (Or.inl hstatus) ?_
    rw [hlog]
    exact launches_quiet hl.launches (by simp)
  probed l pid answer hl hpid := by
    have haccounted := (accounted_invariant R).probed l pid answer hl.accounted hpid
    by_cases hdead : answer = .ok false
    · subst hdead
      obtain ⟨hstatus, hlog⟩ := probed_dead hpid
      refine settled_of_gone haccounted (Or.inl hstatus) ?_
      rw [hlog]
      exact launches_quiet (launches_quiet hl.launches (by simp)) (by simp)
    · rw [probed_alive hdead] at haccounted ⊢
      refine ⟨haccounted, ?_, launches_quiet hl.launches (by simp)⟩
      intro hslot pid' hpid'
      rcases hl.held hslot pid' hpid' with hheld | hgone
      · exact Or.inl hheld
      · exact Or.inr (hgone.cons rfl)
  launched l now spec answer hl hpass hstatus hdelay := by
    have haccounted :=
      (accounted_invariant R).launched l now spec answer hl.accounted hpass hstatus hdelay
    have hgone := hl.accounted.gone (Or.inl hstatus)
    have hlaunches : EachAfter ChildLaunchAllowed (⟨l.pass, .start spec answer⟩ :: l.log) :=
      ⟨fun _ _ _ => Or.inr hgone, hl.launches⟩
    cases answer with
    | error e => exact settled_of_gone haccounted (Or.inl hstatus) hlaunches
    | ok child =>
        obtain ⟨hpid, hlog⟩ := launched_ok hstatus now spec child
        refine ⟨haccounted, ?_, ?_⟩
        · intro _ pid hpid'
          rw [hlog] at hpid'
          cases hpid'
          exact Or.inl hpid
        · rw [hlog]
          exact launches_quiet hlaunches (by simp)
  backedOff l now due hl hpass hstatus hdelay hdue := by
    obtain ⟨hbackoff, hlog⟩ := backedOff_spec hstatus now
    refine settled_of_gone ((accounted_invariant R).backedOff l now due hl.accounted hpass hstatus
      hdelay hdue) (Or.inr hbackoff) ?_
    change EachAfter _ (l.backedOff now).log
    rw [hlog]
    exact launches_quiet hl.launches (by simp)

end Life

/-- The children of a run are settled. -/
theorem settled_run (env : Environment) (times : List Instant) (c : String) :
    (lifeOf c (run env times)).Settled :=
  ((Life.settled_invariant fun _ _ => True).run (run_refines env times c)
    (List.pairwise_of_forall fun _ _ => trivial)).1

/-- A launch of a child follows the report that its last process is gone, or no launch of it
has answered before. -/
def LaunchAllowed (e : Event) (older : List Event) : Prop :=
  ∀ spec answer, e.action = .start spec answer →
    older.findSome? (Event.launched spec.name) = none ∨ LastGone spec.name older

/-- The newest successful launch through the projection. -/
theorem findSome_launched_about (c : String) (log : List Event) :
    (log.filterMap (eventAbout c)).findSome? ChildEvent.launched =
      log.findSome? (Event.launched c) := by
  rw [← List.head?_filterMap, ← List.head?_filterMap, List.filterMap_filterMap]
  simp only [launched_eventAbout]

/-- A process reported gone through the projection. -/
theorem lastGone_of_childGone {c : String} {log : List Event}
    (h : ChildGone (log.filterMap (eventAbout c))) : LastGone c log := by
  have hclosed := closed_filterMap h
  simp only [launched_eventAbout, gone_eventAbout] at hclosed
  exact hclosed

/-- Every launch of a run is allowed. -/
theorem launchAllowed_run (env : Environment) (times : List Instant) :
    EachAfter LaunchAllowed (run env times).log := by
  rw [eachAfter_iff]
  intro newer e older hlog spec answer haction
  have hafter := eachAfter_iff.mp (eachAfter_filterMap
    (settled_run env times spec.name).launches) newer e older hlog
  have habout : eventAbout spec.name e = some ⟨e.pass, .start spec answer⟩ := by
    simp [eventAbout, haction]
  rcases hafter _ habout spec answer rfl with hnone | hgone
  · exact Or.inl ((findSome_launched_about _ _).symm.trans hnone)
  · exact Or.inr (lastGone_of_childGone hgone)

/-! ## The machine -/

/-- The machine under the launcher, answering from the history so far: what a command
leaves, what {lit}`/proc` shows, and the child that a live process was launched for. -/
structure Kernel where
  invoke : List Event → String → List String → Except String CommandOutput
  procDir : List Event → UInt32 → Except ReadError Unit
  alive : List Event → UInt32 → Option String

/-- The spawner that the launcher is on a machine. -/
def Kernel.spawner (k : Kernel) (p : PeventSpawner) : Spawner where
  start log spec := p.start spec (k.invoke log p.bin (peventArgs spec))
  stillRunning log pid := peventStillRunning pid (k.procDir log pid)

/-- No child runs before the supervisor starts; processes come up only by {lit}`pevent run`,
which succeeds and replies; and a process that {lit}`/proc` does not show is not alive. -/
structure Kernel.Sound (k : Kernel) (p : PeventSpawner) : Prop where
  boot : ∀ pid, k.alive [] pid = none
  launch : ∀ e older pid c, k.alive (e :: older) pid = some c → k.alive older pid = some c ∨
    ∃ spec answer output supervisorPid, e.action = .start spec answer ∧ c = spec.name ∧
      k.invoke older p.bin (peventArgs spec) = .ok output ∧
      Replies output { id := spec.name, childPid := pid, supervisorPid := supervisorPid }
  gone : ∀ e older name pid answer, e.action = .stillRunning name pid answer →
    k.procDir older pid = .error .notFound → k.alive (e :: older) pid = none

/-! ## Live processes -/

section Machine

variable {k : Kernel} {p : PeventSpawner} {clients : Clients}

/-- Only the answer that the process is gone stands for a missing directory. -/
theorem peventStillRunning_eq_gone {pid : UInt32} {found : Except ReadError Unit}
    (h : peventStillRunning pid found = .ok false) : found = .error .notFound := by
  rcases found with (_ | _) | _
  · rfl
  · cases h
  · cases h

/-- A live process of a child is the one its last successful launch answered, and it has not
been reported gone. -/
theorem alive_launched (hk : k.Sound p) {log : List Event}
    (hanswers : EachAfter (FromSpawner ⟨k.spawner p, clients⟩) log)
    (hallowed : EachAfter LaunchAllowed log) {pid : UInt32} {c : String}
    (halive : k.alive log pid = some c) :
    log.findSome? (Event.launched c) = some pid ∧ ¬ LastGone c log := by
  induction log generalizing pid c with
  | nil =>
      rw [hk.boot] at halive
      cases halive
  | cons e older ih =>
      rcases hk.launch e older pid c halive with hbefore |
        ⟨spec, answer, output, supervisorPid, haction, rfl, hinvoke, hreplies⟩
      · -- the process was there before: the event is about neither its launch nor its end
        obtain ⟨hlast, hopen⟩ := ih hanswers.2 hallowed.2 hbefore
        have hquiet : Event.launched c e = none := by
          by_contra hlaunched
          obtain ⟨spec, answer, haction, rfl⟩ : ∃ spec answer, e.action = .start spec answer ∧
              spec.name = c := by
            unfold Event.launched at hlaunched
            split at hlaunched
            · rename_i spec child haction
              exact ⟨spec, _, haction, by_contra fun hne => hlaunched (if_neg hne)⟩
            · exact absurd rfl hlaunched
          rcases hallowed.1 spec answer haction with hnone | hgone
          · rw [hnone] at hlast
            cases hlast
          · exact hopen hgone
        refine ⟨by rw [List.findSome?_cons, hquiet]; exact hlast, fun hclosed => ?_⟩
        rcases hclosed.of_cons with hgone | ⟨key, hkey, hreported⟩
        · exact hopen hgone
        · rw [hlast] at hkey
          cases hkey
          obtain ⟨name, haction⟩ : ∃ name, e.action = .stillRunning name pid (.ok false) := by
            unfold Event.gone at hreported
            split at hreported
            · rename_i name pid' haction
              by_cases hname : name = c
              · rw [if_pos hname] at hreported
                cases hreported
                exact ⟨name, haction⟩
              · rw [if_neg hname] at hreported
                cases hreported
            · cases hreported
          have hanswer : FromSpawner ⟨k.spawner p, clients⟩ e older := hanswers.1
          rw [FromSpawner, haction] at hanswer
          have hmissing := peventStillRunning_eq_gone hanswer.symm
          rw [hk.gone e older name pid _ haction hmissing] at halive
          cases halive
      · -- the process has just been launched
        have hanswer : FromSpawner ⟨k.spawner p, clients⟩ e older := hanswers.1
        rw [FromSpawner, haction] at hanswer
        have hstart : (k.spawner p).start older spec = .ok ⟨spec.name, pid, supervisorPid⟩ := by
          change p.start spec (k.invoke older p.bin (peventArgs spec)) = _
          rw [hinvoke]
          exact peventStart_reply p hreplies rfl
        have hlaunched : Event.launched spec.name e = some pid := by
          rw [Event.launched, haction, hanswer, hstart]
          exact if_pos rfl
        exact ⟨by rw [List.findSome?_cons, hlaunched], not_closed_opening hlaunched⟩

/-- A child that may be launched has no live process. -/
theorem not_alive_of_launch (hk : k.Sound p) {e : Event} {older : List Event}
    (hanswers : EachAfter (FromSpawner ⟨k.spawner p, clients⟩) older)
    (hallowed : EachAfter LaunchAllowed (e :: older)) {spec : ChildSpec}
    {answer : Result StartedChild} (haction : e.action = .start spec answer) (pid : UInt32) :
    k.alive older pid ≠ some spec.name := by
  intro halive
  obtain ⟨hlast, hopen⟩ := alive_launched hk hanswers hallowed.2 halive
  rcases hallowed.1 spec answer haction with hnone | hgone
  · rw [hnone] at hlast
    cases hlast
  · exact hopen hgone

/-- Over any machine on which processes come up only by a {lit}`pevent run` that replies, at
every point of a run at most one process of a child is alive, none is alive when the child
is launched, and after each pass a live process is the one that its slot shows running. -/
theorem one_process (k : Kernel) (p : PeventSpawner) (clients : Clients) (hk : k.Sound p)
    (times : List Instant) :
    let w := run ⟨k.spawner p, clients⟩ times
    (∀ newer older, w.log = newer ++ older → ∀ c pid pid', k.alive older pid = some c →
      k.alive older pid' = some c → pid = pid') ∧
    (∀ newer e older spec answer, w.log = newer ++ e :: older → e.action = .start spec answer →
      ∀ pid, k.alive older pid ≠ some spec.name) ∧
    ∀ c ∈ childStartupOrder, ∀ pid, k.alive w.log pid = some c →
      w.view.runningPid c = some pid := by
  intro w
  have hanswers : EachAfter (FromSpawner ⟨k.spawner p, clients⟩) w.log := answered_run _ times
  have hallowed : EachAfter LaunchAllowed w.log := launchAllowed_run _ times
  refine ⟨?_, ?_, ?_⟩
  · intro newer older hlog c pid pid' halive halive'
    rw [hlog] at hanswers hallowed
    have hlast := (alive_launched hk hanswers.earlier hallowed.earlier halive).1
    have hlast' := (alive_launched hk hanswers.earlier hallowed.earlier halive').1
    exact Option.some.inj (hlast.symm.trans hlast')
  · intro newer e older spec answer hlog haction
    rw [hlog] at hanswers hallowed
    exact not_alive_of_launch hk hanswers.earlier.2 hallowed.earlier haction
  · intro c hc pid halive
    obtain ⟨hlast, hopen⟩ := alive_launched hk hanswers hallowed halive
    have hslot : (lifeOf c w).slot.isSome = true := by
      rw [← runSpecs_names ⟨k.spawner p, clients⟩ canonicalChildren times] at hc
      obtain ⟨slot, hslot, hname⟩ := List.mem_map.mp hc
      exact List.find?_isSome.mpr ⟨slot, hslot, by simp [hname]⟩
    have hheld := (settled_run ⟨k.spawner p, clients⟩ times c).held hslot pid
      ((findSome_launched_about c w.log).trans hlast)
    exact hheld.resolve_right fun hgone => hopen (lastGone_of_childGone hgone)

end Machine

/-! ## A machine -/

/-- Processes get the PIDs in order, and a process lives until the next launch. -/
def untilNextLaunch : List Event → UInt32 → Option String
  | [], _ => none
  | e :: older, pid =>
      match e.action with
      | .start spec _ =>
          if pid = UInt32.ofNat (100 + older.length) then some spec.name else none
      | _ => untilNextLaunch older pid

/-- A machine on which every launch replies. -/
def replyingKernel : Kernel where
  invoke log _ args :=
    match args with
    | _ :: _ :: name :: _ => .ok {
        success := true
        status := "exit status: 0"
        stdout := utf8Bytes (Json.pretty (PeventRunReply.toJson
          ⟨name, UInt32.ofNat (100 + log.length), 1⟩) ++ ['\n'])
        stderr := [] }
    | _ => .error "usage"
  procDir log pid := if (untilNextLaunch log pid).isSome then .ok () else .error .notFound
  alive := untilNextLaunch

/-- The launcher with plain messages. -/
def plainSpawner : PeventSpawner where
  binary := none
  lossy _ := ""
  utf8Error _ := ""
  debug text := text
  jsonError text := text

theorem replyingKernel_sound : replyingKernel.Sound plainSpawner where
  boot _ := rfl
  launch e older pid c halive := by
    change untilNextLaunch (e :: older) pid = some c at halive
    obtain ⟨pass, action⟩ := e
    cases action with
    | start spec answer =>
        right
        rw [untilNextLaunch] at halive
        obtain ⟨hpid, hname⟩ := (Option.ite_none_right_eq_some).mp halive
        refine ⟨spec, answer, _, 1, rfl, (Option.some.inj hname).symm, rfl, rfl, [], _, ['\n'],
          Json.blank_nil, Json.spells_prettyAt 0 _, ?_, ?_⟩
        · simp [Json.Blank, Json.isBlank]
        · rw [hpid]
          rfl
    | critical before after => exact Or.inl halive
    | stillRunning name childPid answer => exact Or.inl halive
    | request req resp => exact Or.inl halive
  gone e older name pid answer haction hmissing := by
    obtain ⟨pass, action⟩ := e
    cases haction
    change (if (untilNextLaunch older pid).isSome then Except.ok ()
      else .error ReadError.notFound) = _ at hmissing
    change untilNextLaunch older pid = none
    split at hmissing
    · cases hmissing
    · rename_i hnone
      simpa using hnone

/-- On this machine, at every point of two passes at most one process of a child is alive. -/
theorem one_process_replying :
    ∃ w, w = run ⟨replyingKernel.spawner plainSpawner, Clients.quiet⟩ [0, 1000] ∧
      ∀ newer older, w.log = newer ++ older → ∀ c pid pid',
        replyingKernel.alive older pid = some c → replyingKernel.alive older pid' = some c →
        pid = pid' :=
  ⟨_, rfl, (one_process replyingKernel plainSpawner Clients.quiet replyingKernel_sound
    [0, 1000]).1⟩

end Supervisor

end Wintermute
