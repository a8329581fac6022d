import Wintermute.Supervisor.Bookkeeping

/-!
# Reported uptime

No operation of the supervisor writes the uptime of a slot, so every status request
is answered with the zero of the pending slots.  That is the uptime of a running
child only within the first second after its start.

The history says in which order things happened; a timeline adds when.

Main results:

- Theorem {lit}`slots_at_every_point`: what every change of a slot keeps holds of all
  slots at every point of a run.
- Theorem {lit}`uptime_right_iff`: the reported uptimes of a run are right exactly
  when every running child is less than a second old at every status request.
- Theorem {lit}`uptime_stale`: a run that reports a wrong uptime.
-/

namespace Wintermute
namespace Supervisor

open Foundation

/-! ## What the changes of a slot keep -/

/-- A property of slots that a pending one has and that every change keeps. -/
structure KeptByMarks (Q : ChildState → Prop) : Prop where
  pending : ∀ spec, Q (ChildState.pendingFrom spec)
  starting : ∀ slot, Q slot → Q slot.markStarting
  running : ∀ pid slot, Q slot → Q (slot.markRunning pid)
  exited : ∀ pid slot, Q slot → Q (slot.markExited pid)
  restarted : ∀ pid slot, Q slot → Q (slot.markRestarted pid)
  backoff : ∀ n slot, Q slot → Q (slot.markBackoff n)
  retrying : ∀ slot, Q slot → Q slot.markRetrying

/-- Every slot has the property at every point of the world's history. -/
structure AllSlots (env : Environment) (Q : ChildState → Prop) (w : World) : Prop where
  synced : Synced env w
  points : ∀ point, point <:+ w.log → ∀ slot ∈ childrenAt point, Q slot

section Slots

variable {env : Environment} {specs : List ChildSpec} {Q : ChildState → Prop} {w w' : World}

/-- An action outside the critical sections shows no new slots. -/
theorem AllSlots.note {a : Action} (h : AllSlots env Q w) (hsynced : Synced env (w.note a))
    (hchildren : childrenAt (w.note a).log = childrenAt w.log) : AllSlots env Q (w.note a) := by
  refine ⟨hsynced, fun point hpoint => ?_⟩
  rcases List.suffix_cons_iff.mp hpoint with rfl | hpoint
  · rw [← note_log, hchildren]
    exact h.points w.log List.suffix_rfl
  · exact h.points point hpoint

theorem AllSlots.dispatchAll (h : AllSlots env Q w) : AllSlots env Q (w.dispatchAll env) := by
  refine ⟨synced_dispatchAll h.synced, ?_⟩
  apply dispatchAll_log_invariant
    (P := fun log => ∀ point, point <:+ log → ∀ slot ∈ childrenAt point, Q slot) env h.points
  intro pass req resp log hpoints point hpoint
  rcases List.suffix_cons_iff.mp hpoint with rfl | hpoint
  · exact hpoints log List.suffix_rfl
  · exact hpoints point hpoint

/-- A critical section that leaves only slots with the property. -/
theorem AllSlots.lock {α : Type} {f : SupervisorView → α × SupervisorView}
    (h : AllSlots env Q w)
    (hversion : ∀ view, (f view).2.protocolVersion = view.protocolVersion)
    (hmuted : ∀ view, (f view).2.muted = view.muted)
    (hf : ∀ view : SupervisorView, (∀ slot ∈ view.children, Q slot) →
      ∀ slot ∈ (f view).2.children, Q slot) : AllSlots env Q (w.lock env f).2 := by
  have hready := h.dispatchAll
  refine ⟨synced_lock h.synced hversion hmuted, fun point hpoint => ?_⟩
  rcases List.suffix_cons_iff.mp hpoint with rfl | hpoint
  · apply hf
    rw [hready.synced.view_eq]
    exact hready.points _ List.suffix_rfl
  · exact hready.points point hpoint

theorem AllSlots.update (h : AllSlots env Q w) (p : ChildState → Bool)
    {f : ChildState → ChildState} (hf : ∀ slot, Q slot → Q (f slot)) :
    AllSlots env Q (w.lock env (SupervisorView.update p f)).2 :=
  h.lock (fun _ => rfl) (fun _ => rfl) (fun _ hview => forall_mem_updateFirst hf hview)

/-- Every step changes slots in one of the six ways. -/
theorem AllSlots.step (hQ : KeptByMarks Q) (h : AllSlots env Q w)
    (hstep : Step env specs w w') : AllSlots env Q w' := by
  have hsync : Synced env w' := synced_step h.synced hstep
  cases hstep with
  | enter _ now => exact ⟨hsync, h.points⟩
  | look _ read => exact h.lock (fun _ => rfl) (fun _ => rfl) (fun _ hview => hview)
  | starting _ spec => exact h.update _ hQ.starting
  | startFailed _ spec e => exact h.note hsync rfl
  | started _ spec child =>
      exact (h.note (synced_start h.synced spec (.ok child)) rfl).update _ (hQ.running _)
  | probed _ name pid answer => exact h.note hsync rfl
  | lost _ name pid => exact h.update _ (hQ.exited pid)
  | recorded _ now name => exact ⟨hsync, h.points⟩
  | restartFailed _ c e => exact h.note hsync rfl
  | restarted _ c child =>
      exact (h.note (synced_start h.synced (relaunchSpec c c) (.ok child)) rfl).update _
        (hQ.restarted _)
  | backedOff _ c n => exact h.update _ (hQ.backoff n)
  | retried _ due now =>
      apply h.lock (fun _ => rfl) (fun _ => rfl)
      intro view hview slot hslot
      obtain ⟨old, hold, rfl⟩ := List.mem_map.mp hslot
      split
      · exact hQ.retrying old (hview old hold)
      · exact hview old hold
  | scheduled _ due => exact ⟨hsync, h.points⟩

/-- What every change of a slot keeps holds of all slots at every point of a run. -/
theorem slots_at_every_point (hQ : KeptByMarks Q) (env : Environment) (times : List Instant) :
    AllSlots env Q (run env times) := by
  refine run_invariant (AllSlots env Q) ⟨synced_new env, ?_⟩ (fun _ _ => AllSlots.step hQ) times
  intro point hpoint slot hslot
  rw [List.suffix_nil.mp hpoint] at hslot
  obtain ⟨spec, -, rfl⟩ := List.mem_map.mp hslot
  exact hQ.pending spec

end Slots

/-- No change of a slot writes its uptime. -/
theorem uptime_keptByMarks : KeptByMarks fun slot => slot.uptimeSecs = 0 where
  pending _ := rfl
  starting _ h := h
  running _ _ h := h
  exited _ _ h := h
  restarted _ _ h := h
  backoff _ _ h := h
  retrying _ h := h

/-! ## Time -/

/-- When things happened: the time of the newest event of a history.  Time does not
run backwards. -/
structure Timeline where
  time : List Event → Instant
  mono : ∀ e older, time older ≤ time (e :: older)

/-- When the child was last started successfully. -/
def lastStart (timeline : Timeline) (c : String) : List Event → Option Instant
  | [] => none
  | e :: older =>
      if (e.launched c).isSome then some (timeline.time (e :: older))
      else lastStart timeline c older

/-- A launched child has been started at some time. -/
theorem lastStart_isSome (timeline : Timeline) {c : String} {log : List Event} {pid : UInt32}
    (h : lastLaunched c log = some pid) : ∃ start, lastStart timeline c log = some start := by
  induction log with
  | nil => cases h
  | cons e log ih =>
      unfold lastStart
      split
      · exact ⟨_, rfl⟩
      · rename_i hnone
        apply ih
        unfold lastLaunched at h ⊢
        rw [List.findSome?_cons, Option.not_isSome_iff_eq_none.mp hnone] at h
        exact h

/-- The slot reports the uptime of its child at time {lit}`now`: whole seconds since
its most recent successful start while it runs, zero while it is pending or
halted. -/
structure UptimeRight (timeline : Timeline) (older : List Event) (now : Instant)
    (slot : ChildState) : Prop where
  running : slot.status = .running → ∃ start, lastStart timeline slot.name older = some start ∧
    slot.uptimeSecs.toNat = Duration.asSecs (now - start)
  idle : slot.status = .pending ∨ slot.status = .halted → slot.uptimeSecs = 0

/-- A status request, its answer, what happened before it and when it came. -/
def StatusAnswered (timeline : Timeline) (log older : List Event) (now : Instant)
    (view : SupervisorView) : Prop :=
  ∃ newer e, log = newer ++ e :: older ∧ e.action = .request .status (.status view) ∧
    timeline.time (e :: older) = now

/-- Every status request of the history was answered with the right uptimes. -/
def UptimesRight (timeline : Timeline) (log : List Event) : Prop :=
  ∀ older now view, StatusAnswered timeline log older now view →
    ∀ slot ∈ view.children, UptimeRight timeline older now slot

/-- At every status request each running child was started less than a second ago. -/
def JustStarted (timeline : Timeline) (log : List Event) : Prop :=
  ∀ older now view, StatusAnswered timeline log older now view →
    ∀ slot ∈ childrenAt older, slot.status = .running →
      ∀ start, lastStart timeline slot.name older = some start →
        now < start + Duration.fromSecs 1

/-- The uptime in whole seconds is zero during the first second. -/
theorem asSecs_eq_zero_iff (now start : Instant) :
    Duration.asSecs (now - start) = 0 ↔ now < start + Duration.fromSecs 1 := by
  have hnat : ∀ a b : ℕ, (a - b) / 1000000000 = 0 ↔ a < b + 1 * 1000000000 := by
    intro a b
    omega
  exact hnat now start

/-! ## Runs -/

/-- The world after a run, with the requests that came after its last critical
section. -/
def served (env : Environment) (times : List Instant) : World :=
  (run env times).dispatchAll env

/-- A run answers every status request with the right uptimes exactly when each
running child was started less than a second before. -/
theorem uptime_right_iff (env : Environment) (times : List Instant) (timeline : Timeline) :
    UptimesRight timeline (served env times).log ↔
      JustStarted timeline (served env times).log := by
  have hslots : AllSlots env (fun slot => slot.uptimeSecs = 0) (served env times) :=
    (slots_at_every_point uptime_keptByMarks env times).dispatchAll
  have hbooked : Bookkeeping (served env times).log :=
    bookkeeping_dispatchAll env _ (slot_bookkeeping env times).2
  have hanswer : ∀ older now view, StatusAnswered timeline (served env times).log older now view →
      older <:+ (served env times).log ∧ view = viewAt older := by
    rintro older now view ⟨newer, e, hlog, haction, -⟩
    refine ⟨⟨newer ++ [e], by simp [hlog]⟩, ?_⟩
    have hshown := hslots.synced.transparent.status newer e older (.status view) hlog haction
    cases hshown
    rfl
  constructor
  · intro hright older now view hstatus slot hslot hrunning start hstart
    obtain ⟨hpoint, rfl⟩ := hanswer older now view hstatus
    obtain ⟨start', hstart', huptime⟩ :=
      (hright older now _ hstatus slot hslot).running hrunning
    rw [hstart] at hstart'
    cases hstart'
    rw [hslots.points older hpoint slot hslot] at huptime
    exact (asSecs_eq_zero_iff now start).mp huptime.symm
  · intro hjust older now view hstatus slot hslot
    obtain ⟨hpoint, rfl⟩ := hanswer older now view hstatus
    have hzero : slot.uptimeSecs = 0 := hslots.points older hpoint slot hslot
    refine ⟨fun hrunning => ?_, fun _ => hzero⟩
    have hnodup : (viewAt older).names.Nodup := by
      rw [(hbooked.points older hpoint).names_eq]
      exact childStartupOrder_nodup
    have hfound : (viewAt older).slot slot.name = some slot :=
      find_eq_some_of_mem ChildState.name hnodup hslot
    obtain ⟨pid, -, hlaunched⟩ :=
      ((hbooked.points older hpoint).slots slot.name slot hfound).running hrunning
    obtain ⟨start, hstart⟩ := lastStart_isSome timeline hlaunched
    refine ⟨start, hstart, ?_⟩
    rw [hzero]
    exact ((asSecs_eq_zero_iff now start).mpr
      (hjust older now _ hstatus slot hslot hrunning start hstart)).symm

/-! ## A wrong uptime -/

/-- Events happen at the time of their pass, and start-up at time zero. -/
def passTimeline : Timeline where
  time log := log.foldr (fun e t => max (e.pass.getD 0) t) 0
  mono _ _ := le_max_right _ _

/-- A spawner whose children run forever, and a client that asks for the status
again and again. -/
def watched : Environment where
  spawner :=
    { start := fun _ spec => .ok { id := spec.name, childPid := 7, supervisorPid := 1 }
      stillRunning := fun _ _ => .ok true }
  clients := { Clients.quiet with requests := fun _ => [.status] }

/-- Five seconds after start-up the running children are reported with uptime
zero. -/
theorem uptime_stale :
    ¬∀ (env : Environment) (times : List Instant) (timeline : Timeline),
      UptimesRight timeline (served env times).log := by
  intro h
  have hjust := (uptime_right_iff watched [Duration.fromSecs 5] passTimeline).mp (h _ _ _)
  let before : World := run watched [Duration.fromSecs 5]
  have hstatus : StatusAnswered passTimeline (served watched [Duration.fromSecs 5]).log
      before.log (Duration.fromSecs 5) before.view :=
    ⟨[], ⟨before.pass, .request .status (.status before.view)⟩, rfl, rfl, by decide +kernel⟩
  obtain ⟨slot, hslot, hrunning, hstart⟩ : ∃ slot ∈ childrenAt before.log,
      slot.status = .running ∧ lastStart passTimeline slot.name before.log = some 0 := by
    decide +kernel
  exact absurd (hjust _ _ _ hstatus slot hslot hrunning 0 hstart) (by decide)

end Supervisor
end Wintermute
