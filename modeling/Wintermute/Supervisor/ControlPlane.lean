import Wintermute.Foundation.History
import Wintermute.Supervisor.Steps

/-!
# Control plane and supervision do not interfere

The clients share the view with the supervisor, so their requests fall between any
two critical sections.  They cannot change the children, and no operation of the
supervisor reads or writes the mute flag.  The view is therefore at every point the
children that the last critical section left, with the flag that the last mute or
unmute request set.

Two runs of one launcher, with clients and without, do the same.  The launcher is
asked about specs and PIDs only and never hears of a request, so it answers from
what the supervisor has done so far.

Main results:

- Theorem {lit}`synced_step`: the view is the one that the history tells.
- Theorem {lit}`observerPass_same`: a pass keeps two worlds the same.
- Theorem {lit}`controlPlane_noninterference`: clients are invisible to the
  supervision, and see it and their own mute flag as they are.
-/

namespace Wintermute

/-! ## Deeds -/

/-- One action of the supervisor, as it concerns the children. -/
inductive Deed where
  | update (before after : List ChildState)
  | start (spec : ChildSpec) (answer : Result StartedChild)
  | stillRunning (name : String) (childPid : UInt32) (answer : Result Bool)

/-- The action of the supervisor behind an event, with the time of its pass; a
client request is none. -/
def Event.deed (e : Event) : Option (Option Instant × Deed) :=
  match e.action with
  | .critical before after => some (e.pass, .update before.children after.children)
  | .start spec answer => some (e.pass, .start spec answer)
  | .stillRunning name pid answer => some (e.pass, .stillRunning name pid answer)
  | .request _ _ => none

namespace Supervisor

open Foundation

/-! ## The view at a point of the history -/

/-- The children that the last critical section left. -/
def childrenAt : List Event → List ChildState
  | [] => (SupervisorView.pendingFor canonicalChildren).children
  | e :: older =>
      match e.action with
      | .critical _ after => after.children
      | _ => childrenAt older

/-- The effect of the last mute or unmute request; {lit}`false` if there is none. -/
def mutedAt : List Event → Bool
  | [] => false
  | e :: older =>
      match e.action with
      | .request .mute _ => true
      | .request .unmute _ => false
      | _ => mutedAt older

/-- The view as of a point of the history. -/
def viewAt (log : List Event) : SupervisorView where
  protocolVersion := Wintermute.protocolVersion
  children := childrenAt log
  muted := mutedAt log

/-- What an event shows of the view: a critical section finds it and keeps the mute
flag, and a request is answered from it. -/
def ShowsView (env : Environment) (e : Event) (older : List Event) : Prop :=
  match e.action with
  | .critical before after => before = viewAt older ∧ after.muted = mutedAt older
  | .request req resp =>
      resp = (dispatch (env.clients.tailChildLog older) req (viewAt older)).1
  | _ => True

/-- The world's view is the one its history tells, now and at every event. -/
structure Synced (env : Environment) (w : World) : Prop where
  view_eq : w.view = viewAt w.log
  shows : EachAfter (ShowsView env) w.log

section Sync

variable {env : Environment} {specs : List ChildSpec} {w : World}

/-- A request changes the view as its entry in the history says. -/
theorem dispatch_viewAt (tail : String → UInt64 → Except String (List String)) (req : Request)
    (resp : Response) (pass : Option Instant) (log : List Event) :
    (dispatch tail req (viewAt log)).2 = viewAt (⟨pass, .request req resp⟩ :: log) := by
  cases req with
  | logs child n =>
      simp only [dispatch]
      split <;> rfl
  | _ => rfl

theorem synced_serve (h : Synced env w) (req : Request) : Synced env (w.serve env req) := by
  refine ⟨?_, ?_, h.shows⟩
  · change (dispatch _ req w.view).2 = _
    rw [h.view_eq]
    exact dispatch_viewAt _ req _ w.pass w.log
  · change (dispatch _ req w.view).1 = _
    rw [h.view_eq]

theorem synced_dispatchAll (h : Synced env w) : Synced env (w.dispatchAll env) := by
  unfold World.dispatchAll
  generalize env.clients.requests w.log = reqs
  induction reqs generalizing w with
  | nil => exact h
  | cons req reqs ih => exact ih (synced_serve h req)

/-- A critical section that leaves the version and the mute flag alone. -/
theorem synced_lock {α : Type} {f : SupervisorView → α × SupervisorView} (h : Synced env w)
    (hversion : ∀ view, (f view).2.protocolVersion = view.protocolVersion)
    (hmuted : ∀ view, (f view).2.muted = view.muted) : Synced env (w.lock env f).2 := by
  have hready := synced_dispatchAll h
  have hflag : (f (w.dispatchAll env).view).2.muted = mutedAt (w.dispatchAll env).log := by
    rw [hmuted, hready.view_eq]
    rfl
  refine ⟨?_, ⟨hready.view_eq, hflag⟩, hready.shows⟩
  have hnew : (f (w.dispatchAll env).view).2.protocolVersion = Wintermute.protocolVersion := by
    rw [hversion, hready.view_eq]
    rfl
  change (f (w.dispatchAll env).view).2 = SupervisorView.mk _ _ _
  rw [← hnew]
  exact congrArg (SupervisorView.mk _ _) hflag

theorem synced_update (h : Synced env w) (p : ChildState → Bool)
    (f : ChildState → ChildState) : Synced env (w.lock env (SupervisorView.update p f)).2 :=
  synced_lock h (fun _ => rfl) (fun _ => rfl)

theorem synced_start (h : Synced env w) (spec : ChildSpec) (answer : Result StartedChild) :
    Synced env (w.note (.start spec answer)) :=
  ⟨h.view_eq, trivial, h.shows⟩

/-- Every step keeps the view in step with the history. -/
theorem synced_step {w w' : World} (h : Synced env w) (hstep : Step env specs w w') :
    Synced env w' := by
  cases hstep with
  | enter _ now => exact ⟨h.view_eq, h.shows⟩
  | look _ read => exact synced_lock h (fun _ => rfl) (fun _ => rfl)
  | starting _ spec => exact synced_update h _ _
  | startFailed _ spec e => exact synced_start h spec _
  | started _ spec child => exact synced_update (synced_start h spec _) _ _
  | probed _ name pid answer => exact ⟨h.view_eq, trivial, h.shows⟩
  | lost _ name pid => exact synced_update h _ _
  | recorded _ now name => exact ⟨h.view_eq, h.shows⟩
  | restartFailed _ c e => exact synced_start h _ _
  | restarted _ c child => exact synced_update (synced_start h _ _) _ _
  | backedOff _ c n => exact synced_update h _ _
  | retried _ due now => exact synced_lock h (fun _ => rfl) (fun _ => rfl)
  | scheduled _ due => exact ⟨h.view_eq, h.shows⟩

theorem synced_new (env : Environment) : Synced env World.new :=
  ⟨rfl, trivial⟩

/-- The view of a run is the one that its history tells. -/
theorem synced_run (env : Environment) (times : List Instant) : Synced env (run env times) :=
  run_invariant (Synced env) (synced_new env) (fun _ _ => synced_step) times

end Sync

/-! ## What the supervisor does -/

/-- What the supervisor has done, newest first. -/
def deeds (log : List Event) : List (Option Instant × Deed) :=
  log.filterMap Event.deed

/-- A spawner that does not overhear the clients: it answers from what the
supervisor has done. -/
structure Launcher where
  start : List (Option Instant × Deed) → ChildSpec → Result StartedChild
  stillRunning : List (Option Instant × Deed) → UInt32 → Result Bool

/-- A launcher at work. -/
def Launcher.spawner (launcher : Launcher) : Spawner where
  start log := launcher.start (deeds log)
  stillRunning log := launcher.stillRunning (deeds log)

/-- The environment of a launcher and of the clients of the control plane. -/
def Launcher.env (launcher : Launcher) (clients : Clients) : Environment where
  spawner := launcher.spawner
  clients := clients

/-! ## Two runs side by side -/

/-- The supervision is the same in both worlds. -/
structure SameSupervision (w₁ w₂ : World) : Prop where
  children_eq : w₁.view.children = w₂.view.children
  trackers_eq : w₁.trackers = w₂.trackers
  backoffUntil_eq : w₁.backoffUntil = w₂.backoffUntil
  pass_eq : w₁.pass = w₂.pass
  deeds_eq : deeds w₁.log = deeds w₂.log

/-- The loops reach the same accumulator and the same supervision. -/
def SameProgress {β : Type} (acc₁ acc₂ : β × World) : Prop :=
  acc₁.1 = acc₂.1 ∧ SameSupervision acc₁.2 acc₂.2

section TwoRuns

variable {launcher : Launcher} {clients₁ clients₂ : Clients} {w₁ w₂ : World}

/-- Requests change nothing about the supervision. -/
theorem same_dispatchAll_left (env : Environment) (w : World) :
    SameSupervision (w.dispatchAll env) w := by
  obtain ⟨hchildren, htrackers, hdue, hpass, served, hlog, hserved⟩ := dispatchAll_frame env w
  refine ⟨hchildren, htrackers, hdue, hpass, ?_⟩
  have hnone : deeds served = [] := by
    unfold deeds
    rw [List.filterMap_eq_nil_iff]
    intro e he
    obtain ⟨req, resp, haction⟩ := hserved e he
    simp [Event.deed, haction]
  rw [hlog]
  unfold deeds at hnone ⊢
  rw [List.filterMap_append, hnone, List.nil_append]

theorem SameSupervision.symm (h : SameSupervision w₁ w₂) : SameSupervision w₂ w₁ :=
  ⟨h.children_eq.symm, h.trackers_eq.symm, h.backoffUntil_eq.symm, h.pass_eq.symm,
    h.deeds_eq.symm⟩

theorem SameSupervision.trans {w₃ : World} (h : SameSupervision w₁ w₂)
    (h' : SameSupervision w₂ w₃) : SameSupervision w₁ w₃ :=
  ⟨h.children_eq.trans h'.children_eq, h.trackers_eq.trans h'.trackers_eq,
    h.backoffUntil_eq.trans h'.backoffUntil_eq, h.pass_eq.trans h'.pass_eq,
    h.deeds_eq.trans h'.deeds_eq⟩

/-- A critical section that reads and writes the children only. -/
theorem same_lock (env₁ env₂ : Environment) {α : Type}
    {f : SupervisorView → α × SupervisorView} (h : SameSupervision w₁ w₂)
    (hf : ∀ v₁ v₂ : SupervisorView, v₁.children = v₂.children →
      (f v₁).1 = (f v₂).1 ∧ (f v₁).2.children = (f v₂).2.children) :
    SameProgress (w₁.lock env₁ f) (w₂.lock env₂ f) := by
  have hready : SameSupervision (w₁.dispatchAll env₁) (w₂.dispatchAll env₂) :=
    ((same_dispatchAll_left env₁ w₁).trans h).trans (same_dispatchAll_left env₂ w₂).symm
  obtain ⟨hresult, hchildren⟩ := hf _ _ hready.children_eq
  refine ⟨hresult, hchildren, hready.trackers_eq, hready.backoffUntil_eq, hready.pass_eq, ?_⟩
  change (_, Deed.update _ _) :: deeds _ = (_, Deed.update _ _) :: deeds _
  rw [hready.pass_eq, hready.children_eq, hchildren, hready.deeds_eq]

theorem same_update (env₁ env₂ : Environment) (h : SameSupervision w₁ w₂)
    (p : ChildState → Bool) (f : ChildState → ChildState) :
    SameProgress (w₁.lock env₁ (SupervisorView.update p f))
      (w₂.lock env₂ (SupervisorView.update p f)) := by
  apply same_lock _ _ h
  intro v₁ v₂ hchildren
  unfold SupervisorView.update
  rw [hchildren]
  exact ⟨rfl, rfl⟩

/-- The same action noted in both worlds. -/
theorem same_note (h : SameSupervision w₁ w₂) (a : Action) :
    SameSupervision (w₁.note a) (w₂.note a) := by
  refine ⟨h.children_eq, h.trackers_eq, h.backoffUntil_eq, h.pass_eq, ?_⟩
  have hdeeds := h.deeds_eq
  unfold deeds at hdeeds ⊢
  rw [note_log, note_log, List.filterMap_cons, List.filterMap_cons, h.pass_eq, hdeeds]

/-! ## The operations twice -/

theorem startSpec_same (spec : ChildSpec) (h : SameSupervision w₁ w₂) :
    SameOutcome SameSupervision (startSpec (launcher.env clients₁) w₁ spec)
      (startSpec (launcher.env clients₂) w₂ spec) := by
  have hstarting : SameSupervision (starting (launcher.env clients₁) w₁ spec.name)
      (starting (launcher.env clients₂) w₂ spec.name) := (same_update _ _ h _ _).2
  have hanswer : (launcher.env clients₁).spawner.start
        (starting (launcher.env clients₁) w₁ spec.name).log spec =
      (launcher.env clients₂).spawner.start
        (starting (launcher.env clients₂) w₂ spec.name).log spec :=
    congrArg (fun log => launcher.start log spec) hstarting.deeds_eq
  rcases startSpec_cases (launcher.env clients₁) w₁ spec with
    ⟨e₁, h₁, heq₁⟩ | ⟨child₁, h₁, heq₁⟩ <;>
  rcases startSpec_cases (launcher.env clients₂) w₂ spec with
    ⟨e₂, h₂, heq₂⟩ | ⟨child₂, h₂, heq₂⟩ <;>
  rw [h₁, h₂] at hanswer <;> cases hanswer <;> rw [heq₁, heq₂]
  · exact ⟨same_note hstarting _, Iff.rfl⟩
  · exact ⟨(same_update _ _ (same_note hstarting _) _ _).2, Iff.rfl⟩

theorem startAll_same (h : SameSupervision w₁ w₂) :
    SameSupervision (startAll (launcher.env clients₁) w₁).2
      (startAll (launcher.env clients₂) w₂).2 :=
  (tryEach_related SameSupervision canonicalChildren
    (fun spec _ _ _ h => startSpec_same spec h) h).1

/-- The clearing phase makes the same of both worlds. -/
theorem clearPhase_same (now : Instant) (h : SameSupervision w₁ w₂) :
    SameSupervision (clearPhase (launcher.env clients₁) now w₁)
      (clearPhase (launcher.env clients₂) now w₂) := by
  have hlock : SameProgress
      (clearExpiredBackoffs (launcher.env clients₁) w₁.backoffUntil now w₁)
      (clearExpiredBackoffs (launcher.env clients₂) w₂.backoffUntil now w₂) := by
    rw [h.backoffUntil_eq]
    apply same_lock _ _ h
    intro v₁ v₂ hchildren
    dsimp only
    rw [hchildren]
    exact ⟨rfl, rfl⟩
  obtain ⟨hcleared, hsame⟩ := hlock
  refine ⟨hsame.children_eq, hsame.trackers_eq, ?_, hsame.pass_eq, hsame.deeds_eq⟩
  unfold clearPhase
  dsimp only
  rw [hcleared, hsame.backoffUntil_eq]

theorem probeChild_same (child : String × UInt32) (acc₁ acc₂ : List String × World)
    (h : SameProgress acc₁ acc₂) :
    SameOutcome SameProgress (probeChild (launcher.env clients₁) acc₁ child)
      (probeChild (launcher.env clients₂) acc₂ child) := by
  obtain ⟨name, pid⟩ := child
  obtain ⟨hout, hsame⟩ := h
  have hanswer : (launcher.env clients₁).spawner.stillRunning acc₁.2.log pid =
      (launcher.env clients₂).spawner.stillRunning acc₂.2.log pid :=
    congrArg (fun log => launcher.stillRunning log pid) hsame.deeds_eq
  unfold probeChild
  dsimp only
  rw [hanswer]
  generalize (launcher.env clients₂).spawner.stillRunning acc₂.2.log pid = answer
  have hnote : SameSupervision (acc₁.2.note (.stillRunning name pid answer))
      (acc₂.2.note (.stillRunning name pid answer)) := same_note hsame _
  rcases answer with e | (_ | _)
  · exact ⟨⟨hout, hnote⟩, by simp⟩
  · obtain ⟨hflag, hflipped⟩ := same_update (launcher.env clients₁)
      (launcher.env clients₂) hnote (fun c => c.name == name && decide (c.status = .running))
      (ChildState.markExited pid)
    dsimp only
    rw [hflag]
    split
    · exact ⟨⟨by rw [hout], hflipped⟩, Iff.rfl⟩
    · exact ⟨⟨hout, hflipped⟩, Iff.rfl⟩
  · exact ⟨⟨hout, hnote⟩, Iff.rfl⟩

/-- The observation phase makes the same of both worlds. -/
theorem observePhase_same (h : SameSupervision w₁ w₂) :
    SameSupervision (observePhase (launcher.env clients₁) w₁)
      (observePhase (launcher.env clients₂) w₂) := by
  have hsnapshot : runningChildren w₁.view = runningChildren w₂.view := by
    unfold runningChildren
    rw [h.children_eq]
  have hstart : SameProgress (([] : List String), observeStart (launcher.env clients₁) w₁)
      ([], observeStart (launcher.env clients₂) w₂) := by
    refine ⟨rfl, (same_lock _ _ h fun v₁ v₂ hchildren => ?_).2⟩
    unfold runningChildren
    dsimp only
    rw [hchildren]
    exact ⟨rfl, rfl⟩
  rw [(observePhase_eq _ w₁).1, (observePhase_eq _ w₂).1, hsnapshot]
  exact (tryEach_related SameProgress _
    (fun child _ acc₁ acc₂ => probeChild_same child acc₁ acc₂) hstart).1.2

theorem recordRestart_same (now : Instant) (name : String) (h : SameSupervision w₁ w₂) :
    SameSupervision (recordRestart now name w₁) (recordRestart now name w₂) := by
  refine ⟨h.children_eq, ?_, h.backoffUntil_eq, h.pass_eq, h.deeds_eq⟩
  unfold recordRestart
  rw [h.trackers_eq]

/-- A relaunch has the same result and leaves the same supervision. -/
theorem relaunchChild_same (launcher : Launcher) (clients₁ clients₂ : Clients)
    (name execName : String) (h : SameSupervision w₁ w₂) :
    (relaunchChild (launcher.env clients₁) name execName w₁).1 =
        (relaunchChild (launcher.env clients₂) name execName w₂).1 ∧
      SameSupervision (relaunchChild (launcher.env clients₁) name execName w₁).2
        (relaunchChild (launcher.env clients₂) name execName w₂).2 := by
  have hanswer : (launcher.env clients₁).spawner.start w₁.log
        { name := name, exec := execName, args := [] } =
      (launcher.env clients₂).spawner.start w₂.log
        { name := name, exec := execName, args := [] } :=
    congrArg (fun log => launcher.start log _) h.deeds_eq
  unfold relaunchChild
  dsimp only
  rw [hanswer]
  generalize (launcher.env clients₂).spawner.start w₂.log
    { name := name, exec := execName, args := [] } = answer
  have hnote := same_note h (.start { name := name, exec := execName, args := [] } answer)
  cases answer with
  | error e => exact ⟨rfl, hnote⟩
  | ok started =>
      obtain ⟨hslot, hflipped⟩ := same_update (launcher.env clients₁)
        (launcher.env clients₂) hnote (fun c => c.name == name)
        (ChildState.markRestarted started.childPid)
      dsimp only
      rw [hslot]
      exact ⟨rfl, hflipped⟩

theorem restartChild_same (now : Instant) (child : String × String)
    (acc₁ acc₂ : List RestartOutcome × World) (h : SameProgress acc₁ acc₂) :
    SameOutcome SameProgress (restartChild (launcher.env clients₁) now acc₁ child)
      (restartChild (launcher.env clients₂) now acc₂ child) := by
  obtain ⟨hout, hsame⟩ := h
  have hrecord := recordRestart_same now child.1 hsame
  by_cases hdelay : (((acc₂.2.trackers child.1).getD default).record now).1 = 0
  · obtain ⟨hresult, hworld⟩ := relaunchChild_same launcher clients₁ clients₂ child.1 child.2
      hrecord
    unfold restartChild
    dsimp only
    rw [hsame.trackers_eq, if_pos hdelay, if_pos hdelay]
    generalize relaunchChild (launcher.env clients₁) child.1 child.2
      (recordRestart now child.1 acc₁.2) = r₁ at hresult hworld ⊢
    generalize relaunchChild (launcher.env clients₂) child.1 child.2
      (recordRestart now child.1 acc₂.2) = r₂ at hresult hworld ⊢
    obtain ⟨result, w₁⟩ := r₁
    obtain ⟨_, w₂⟩ := r₂
    cases hresult
    cases result with
    | error e => exact ⟨⟨hout, hworld⟩, by simp⟩
    | ok outcome => exact ⟨⟨by rw [hout], hworld⟩, Iff.rfl⟩
  · have hdelay₁ : (((acc₁.2.trackers child.1).getD default).record now).1 ≠ 0 := by
      rw [hsame.trackers_eq]
      exact hdelay
    rw [restartChild_above _ child hdelay₁, restartChild_above _ child hdelay,
      hsame.trackers_eq, hout]
    exact ⟨⟨rfl, (same_update _ _ hrecord _ _).2⟩, Iff.rfl⟩

/-- The restart phase makes the same of both worlds. -/
theorem restartPhase_same (now : Instant) (h : SameSupervision w₁ w₂) :
    SameSupervision (restartPhase (launcher.env clients₁) now w₁)
      (restartPhase (launcher.env clients₂) now w₂) := by
  have hsnapshot : exitedChildren w₁.view = exitedChildren w₂.view := by
    unfold exitedChildren
    rw [h.children_eq]
  have hstart : SameProgress (([] : List RestartOutcome),
        restartStart (launcher.env clients₁) w₁)
      ([], restartStart (launcher.env clients₂) w₂) := by
    refine ⟨rfl, (same_lock _ _ h fun v₁ v₂ hchildren => ?_).2⟩
    unfold exitedChildren
    dsimp only
    rw [hchildren]
    exact ⟨rfl, rfl⟩
  have hloop : SameOutcome SameProgress (restartLoop (launcher.env clients₁) now w₁)
      (restartLoop (launcher.env clients₂) now w₂) := by
    unfold restartLoop
    rw [hsnapshot]
    exact tryEach_related SameProgress _
      (fun child _ acc₁ acc₂ => restartChild_same now child acc₁ acc₂) hstart
  obtain ⟨⟨hout, hsame⟩, hiff⟩ := hloop
  rw [← restartCompletes_iff, ← restartCompletes_iff] at hiff
  by_cases hcompletes : RestartCompletes (launcher.env clients₁) now w₁
  · rw [restartPhase_done hcompletes, restartPhase_done (hiff.mp hcompletes)]
    refine ⟨hsame.children_eq, hsame.trackers_eq, ?_, hsame.pass_eq, hsame.deeds_eq⟩
    dsimp only
    rw [hout, hsame.backoffUntil_eq]
  · rw [restartPhase_stopped hcompletes, restartPhase_stopped (mt hiff.mpr hcompletes)]
    exact hsame

/-- A pass makes the same of both worlds. -/
theorem observerPass_same (now : Instant) (h : SameSupervision w₁ w₂) :
    SameSupervision (observerPass (launcher.env clients₁) now w₁)
      (observerPass (launcher.env clients₂) now w₂) :=
  have henter : SameSupervision { w₁ with pass := some now } { w₂ with pass := some now } :=
    ⟨h.children_eq, h.trackers_eq, h.backoffUntil_eq, rfl, h.deeds_eq⟩
  restartPhase_same now (observePhase_same (clearPhase_same now henter))

/-- Two runs of one launcher with different clients. -/
theorem run_same (launcher : Launcher) (clients₁ clients₂ : Clients) (times : List Instant) :
    SameSupervision (run (launcher.env clients₁) times) (run (launcher.env clients₂) times) := by
  induction times using List.reverseRecOn with
  | nil => exact startAll_same ⟨rfl, rfl, rfl, rfl, rfl⟩
  | append_singleton times now ih =>
      rw [run_snoc, run_snoc]
      exact observerPass_same now ih

end TwoRuns

/-! ## Main theorem -/

/-- The clients see the supervision and the mute flag as they are: every critical
section starts from the view that the history tells and keeps the flag, and every
status request is answered with that view. -/
structure Transparent (w : World) : Prop where
  view_eq : w.view = viewAt w.log
  critical : ∀ newer e older before after, w.log = newer ++ e :: older →
    e.action = .critical before after → before = viewAt older ∧ after.muted = mutedAt older
  status : ∀ newer e older resp, w.log = newer ++ e :: older →
    e.action = .request .status resp → resp = .status (viewAt older)

theorem Synced.transparent {env : Environment} {w : World} (h : Synced env w) : Transparent w := by
  refine ⟨h.view_eq, ?_, ?_⟩
  · intro newer e older before after hlog haction
    have hshows := eachAfter_iff.mp h.shows newer e older hlog
    unfold ShowsView at hshows
    rw [haction] at hshows
    exact hshows
  · intro newer e older resp hlog haction
    have hshows := eachAfter_iff.mp h.shows newer e older hlog
    unfold ShowsView at hshows
    rw [haction] at hshows
    exact hshows

/-- After start-up and any passes, with any requests before each critical section
and after the last one: the supervision is the one of the run without requests, and
the clients see it, with their own mute flag, as it is at that point. -/
theorem controlPlane_noninterference (launcher : Launcher) (clients : Clients)
    (times : List Instant) :
    SameSupervision ((run (launcher.env clients) times).dispatchAll (launcher.env clients))
        (run (launcher.env Clients.quiet) times) ∧
      Transparent ((run (launcher.env clients) times).dispatchAll (launcher.env clients)) :=
  ⟨(same_dispatchAll_left _ _).trans (run_same launcher clients Clients.quiet times),
    (synced_dispatchAll (synced_run (launcher.env clients) times)).transparent⟩

end Supervisor
end Wintermute
