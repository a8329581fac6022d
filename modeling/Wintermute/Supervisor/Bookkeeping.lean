import Wintermute.Supervisor.ControlPlane
import Wintermute.Supervisor.StormControl

/-!
# Slot bookkeeping

The slots against the history of the spawner calls.  A slot is written after the
call it records, in a critical section of its own, so its restart counter counts the
relaunches up to the last critical section, while its PID is right at any point: a
child whose launch has been answered but not yet written down is not running.

Main results:

- Relation {lit}`StatusStep`: the six changes of status.
- Structure {lit}`BookedAt`: a view agrees with a history.
- Theorem {lit}`booked_step`: every step keeps the agreement, at every point inside
  it.
- Theorem {lit}`slot_bookkeeping`: the agreement at every point of every run.
- Theorem {lit}`bookkeeping_behind_launch`: a point at which the counter is one behind.
-/

namespace Wintermute

/-! ## Readings of the history -/

/-- The event is a successful launch of the child by the restart phase. -/
def Event.isRelaunch (c : String) (e : Event) : Bool :=
  e.pass.isSome && (e.launched c).isSome

/-- The event launches no child. -/
def Event.Quiet (e : Event) : Prop :=
  ∀ c, e.launched c = none

namespace Supervisor

open Foundation

/-- The changes of status that the supervisor makes. -/
inductive StatusStep : ChildStatus → ChildStatus → Prop where
  | start : StatusStep .pending .starting
  | launch : StatusStep .starting .running
  | exit : StatusStep .running .exited
  | relaunch : StatusStep .exited .running
  | backOff : StatusStep .exited .backoff
  | retry : StatusStep .backoff .exited

/-- Number of successful relaunches of a child. -/
def relaunches (c : String) (log : List Event) : ℕ :=
  log.countP (Event.isRelaunch c)

/-- The history up to its last critical section. -/
def settled : List Event → List Event
  | [] => []
  | e :: older =>
      match e.action with
      | .critical _ _ => e :: older
      | _ => settled older

/-- PID of the most recent successful launch of a child. -/
def lastLaunched (c : String) (log : List Event) : Option UInt32 :=
  log.findSome? (Event.launched c)

/-- A slot of child {lit}`c` agrees with the history: a running one holds the PID of
the last successful launch, and the counter is the number of relaunches in
{lit}`counted`, as far as 32 bits go. -/
structure SlotBooked (c : String) (log counted : List Event) (slot : ChildState) : Prop where
  running : slot.status = .running →
    ∃ pid, slot.childPid = some pid ∧ lastLaunched c log = some pid
  count_eq : slot.restartCount.toNat = min (relaunches c counted) (UInt32.size - 1)

/-- A view agrees with a history: it lists the canonical children in their order, and
every slot is booked. -/
structure BookedAt (view : SupervisorView) (log counted : List Event) : Prop where
  names_eq : view.names = childStartupOrder
  slots : ∀ c slot, view.slot c = some slot → SlotBooked c log counted slot

/-- The bookkeeping of a whole history: at each point the view agrees with what
happened before, and each critical section changes a status by one of the six
changes or not at all. -/
structure Bookkeeping (log : List Event) : Prop where
  points : ∀ point, point <:+ log → BookedAt (viewAt point) point (settled point)
  changes : ∀ newer e older before after, log = newer ++ e :: older →
    e.action = .critical before after → before = viewAt older ∧
      ∀ c old new, before.status c = some old → after.status c = some new →
        old ≠ new → StatusStep old new

variable {c : String} {e : Event} {log counted : List Event}

/-! ## Events that launch nothing -/

/-- An event that is not a successful launch of the child is not counted for it. -/
theorem relaunches_cons_of_none (h : e.launched c = none) (log : List Event) :
    relaunches c (e :: log) = relaunches c log := by
  unfold relaunches
  rw [List.countP_cons_of_neg]
  simp [Event.isRelaunch, h]

theorem lastLaunched_cons_of_none (h : e.launched c = none) (log : List Event) :
    lastLaunched c (e :: log) = lastLaunched c log := by
  unfold lastLaunched
  rw [List.findSome?_cons, h]

theorem SlotBooked.cons {slot : ChildState} (h : SlotBooked c log counted slot)
    (he : e.launched c = none) : SlotBooked c (e :: log) counted slot := by
  refine ⟨fun hrunning => ?_, h.count_eq⟩
  rw [lastLaunched_cons_of_none he]
  exact h.running hrunning

theorem SlotBooked.count_cons {slot : ChildState} (h : SlotBooked c log counted slot)
    (he : e.launched c = none) : SlotBooked c log (e :: counted) slot := by
  refine ⟨h.running, ?_⟩
  rw [relaunches_cons_of_none he]
  exact h.count_eq

theorem quiet_request {pass : Option Instant} {req : Request} {resp : Response} :
    Event.Quiet ⟨pass, .request req resp⟩ :=
  fun _ => rfl

theorem quiet_probe {pass : Option Instant} {name : String} {pid : UInt32}
    {answer : Result Bool} : Event.Quiet ⟨pass, .stillRunning name pid answer⟩ :=
  fun _ => rfl

theorem quiet_failed {pass : Option Instant} {spec : ChildSpec} {e : Error} :
    Event.Quiet ⟨pass, .start spec (.error e)⟩ :=
  fun _ => rfl

theorem quiet_critical {pass : Option Instant} {before after : SupervisorView} :
    Event.Quiet ⟨pass, .critical before after⟩ :=
  fun _ => rfl

theorem launched_start (pass : Option Instant) (spec : ChildSpec) (child : StartedChild)
    (c : String) : Event.launched c ⟨pass, .start spec (.ok child)⟩ =
      if spec.name = c then some child.childPid else none :=
  rfl

theorem BookedAt.cons {view : SupervisorView} (h : BookedAt view log counted)
    (he : e.Quiet) : BookedAt view (e :: log) counted :=
  ⟨h.names_eq, fun c slot hslot => (h.slots c slot hslot).cons (he c)⟩

theorem BookedAt.count_cons {view : SupervisorView} (h : BookedAt view log counted)
    (he : e.Quiet) : BookedAt view log (e :: counted) :=
  ⟨h.names_eq, fun c slot hslot => (h.slots c slot hslot).count_cons (he c)⟩

/-! ## Worlds between two steps -/

/-- The bookkeeping of a world between two steps, where everything launched has been
written down. -/
structure Booked (env : Environment) (w : World) : Prop where
  synced : Synced env w
  kept : Bookkeeping w.log
  now : BookedAt w.view w.log w.log

section Steps

variable {env : Environment} {specs : List ChildSpec} {w w' : World}

/-- An event that is not a critical section, and after which the last view still
agrees with the history. -/
theorem Bookkeeping.cons (h : Bookkeeping log)
    (haction : ∀ before after, e.action ≠ .critical before after)
    (hnow : BookedAt (viewAt (e :: log)) (e :: log) (settled (e :: log))) :
    Bookkeeping (e :: log) := by
  refine ⟨?_, ?_⟩
  · intro point hpoint
    rcases List.suffix_cons_iff.mp hpoint with rfl | hpoint
    · exact hnow
    · exact h.points point hpoint
  · intro newer e' older before after hsplit haction'
    cases newer with
    | nil =>
        cases hsplit
        exact absurd haction' (haction before after)
    | cons _ newer =>
        cases hsplit
        exact h.changes newer e' older before after rfl haction'

/-- A quiet event outside the critical sections keeps the bookkeeping. -/
theorem Bookkeeping.quiet {pass : Option Instant} {a : Action} (h : Bookkeeping log)
    (haction : ∀ before after, a ≠ .critical before after)
    (hquiet : Event.Quiet ⟨pass, a⟩) : Bookkeeping (⟨pass, a⟩ :: log) := by
  apply h.cons haction
  have hlast := h.points log List.suffix_rfl
  obtain ⟨hview, hnames, hsettled⟩ :
      (∀ c, (viewAt (⟨pass, a⟩ :: log)).slot c = (viewAt log).slot c) ∧
        (viewAt (⟨pass, a⟩ :: log)).names = (viewAt log).names ∧
        settled (⟨pass, a⟩ :: log) = settled log := by
    cases a with
    | critical before after => exact absurd rfl (haction before after)
    | _ => exact ⟨fun _ => rfl, rfl, rfl⟩
  rw [hsettled]
  refine ⟨hnames.trans hlast.names_eq, fun c slot hslot => ?_⟩
  rw [hview] at hslot
  exact (hlast.slots c slot hslot).cons (hquiet c)

theorem bookkeeping_dispatchAll (env : Environment) (w : World) (h : Bookkeeping w.log) :
    Bookkeeping (w.dispatchAll env).log := by
  apply dispatchAll_log_invariant env h
  intro pass req resp log hrest
  exact hrest.quiet (fun _ _ => by simp) quiet_request

/-- Requests keep the agreement of a view with the history. -/
theorem bookedAt_dispatchAll (env : Environment) {w : World} {view : SupervisorView}
    (h : BookedAt view w.log w.log) :
    BookedAt view (w.dispatchAll env).log (w.dispatchAll env).log := by
  apply dispatchAll_log_invariant (P := fun log => BookedAt view log log) env h
  intro pass req resp log hrest
  exact (hrest.cons quiet_request).count_cons quiet_request

/-- A critical section that makes each slot agree with the history and changes its
status by one of the six changes. -/
theorem booked_lock {α : Type} {f : SupervisorView → α × SupervisorView}
    (g : String → ChildState → ChildState) (hsynced : Synced env w)
    (hkept : Bookkeeping w.log) (hnames : w.view.names = childStartupOrder)
    (hversion : ∀ view, (f view).2.protocolVersion = view.protocolVersion)
    (hmuted : ∀ view, (f view).2.muted = view.muted)
    (hf_names : ∀ view, (f view).2.names = view.names)
    (hf : ∀ view c, view.children = w.view.children → (f view).2.slot c = (view.slot c).map (g c))
    (hslots : ∀ c slot, w.view.slot c = some slot → SlotBooked c w.log w.log (g c slot) ∧
      (slot.status ≠ (g c slot).status → StatusStep slot.status (g c slot).status)) :
    Booked env (w.lock env f).2 := by
  have hchildren := dispatchAll_children env w
  have hslot : ∀ c, (w.dispatchAll env).view.slot c = w.view.slot c :=
    slot_of_children hchildren
  have hready : Synced env (w.dispatchAll env) := synced_dispatchAll hsynced
  have hafter : BookedAt (f (w.dispatchAll env).view).2 w.log w.log := by
    refine ⟨?_, fun c slot' hslot' => ?_⟩
    · rw [hf_names]
      unfold SupervisorView.names at hnames ⊢
      rw [hchildren]
      exact hnames
    · rw [hf _ c hchildren, hslot, Option.map_eq_some_iff] at hslot'
      obtain ⟨slot, hold, rfl⟩ := hslot'
      exact (hslots c slot hold).1
  have hnow : BookedAt (f (w.dispatchAll env).view).2 (w.lock env f).2.log
      (w.lock env f).2.log :=
    ((bookedAt_dispatchAll env hafter).cons quiet_critical).count_cons quiet_critical
  have hsync : Synced env (w.lock env f).2 := synced_lock hsynced hversion hmuted
  refine ⟨hsync, ⟨?_, ?_⟩, hnow⟩
  · intro point hpoint
    rcases List.suffix_cons_iff.mp hpoint with rfl | hpoint
    · have hview : (w.lock env f).2.view = viewAt (w.lock env f).2.log := hsync.view_eq
      change BookedAt (viewAt (w.lock env f).2.log) _ _
      rw [← hview]
      exact hnow
    · exact (bookkeeping_dispatchAll env w hkept).points point hpoint
  · intro newer e older before after hsplit haction
    cases newer with
    | nil =>
        cases hsplit
        cases haction
        refine ⟨hready.view_eq, fun c old new hold hnew hne => ?_⟩
        obtain ⟨slot, hslot_old, rfl⟩ := Option.map_eq_some_iff.mp hold
        rw [SupervisorView.status, hf _ c hchildren, hslot_old] at hnew
        obtain rfl : (g c slot).status = new := by simpa using hnew
        rw [hslot] at hslot_old
        exact (hslots c slot hslot_old).2 hne
    | cons _ newer =>
        have hrest : (w.dispatchAll env).log = newer ++ e :: older := (List.cons.inj hsplit).2
        exact (bookkeeping_dispatchAll env w hkept).changes newer e older before after hrest
          haction

/-- A critical section that changes the slot of one child. -/
theorem booked_update {name : String} {f : ChildState → ChildState}
    (hf : ∀ slot, (f slot).name = slot.name) (hsynced : Synced env w)
    (hkept : Bookkeeping w.log) (hnames : w.view.names = childStartupOrder)
    (hothers : ∀ c slot, c ≠ name → w.view.slot c = some slot → SlotBooked c w.log w.log slot)
    (hself : ∀ slot, w.view.slot name = some slot → SlotBooked name w.log w.log (f slot) ∧
      (slot.status ≠ (f slot).status → StatusStep slot.status (f slot).status)) :
    Booked env (w.lock env (SupervisorView.update (fun slot => slot.name == name) f)).2 := by
  apply booked_lock (fun c slot => if c = name then f slot else slot) hsynced hkept hnames
    (fun _ => rfl) (fun _ => rfl) (names_update hf _)
  · intro view c _
    by_cases hc : c = name
    · subst hc
      rw [slot_update_self hf]
      simp
    · rw [slot_update_ne hf (name_test_ne (Ne.symm hc))]
      simp [hc]
  · intro c slot hslot
    by_cases hc : c = name
    · subst hc
      simpa using hself slot hslot
    · simpa [hc] using hothers c slot hc hslot

/-- A change of slots that keeps PIDs and counters and makes nothing run. -/
theorem SlotBooked.change {slot slot' : ChildState} (h : SlotBooked c log counted slot)
    (hcount : slot'.restartCount = slot.restartCount)
    (hstatus : slot'.status = .running → slot'.childPid = slot.childPid ∧
      slot.status = .running) : SlotBooked c log counted slot' := by
  refine ⟨fun hrunning => ?_, by rw [hcount]; exact h.count_eq⟩
  obtain ⟨hpid, hold⟩ := hstatus hrunning
  rw [hpid]
  exact h.running hold

/-- Counting one more, as far as 32 bits go. -/
theorem saturatingSucc_toNat {n : UInt32} {k : ℕ} (h : n.toNat = min k (UInt32.size - 1)) :
    (saturatingSucc n).toNat = min (k + 1) (UInt32.size - 1) := by
  have hsize : UInt32.size = 4294967296 := rfl
  unfold saturatingSucc
  split
  · rename_i hlt
    have hone : (1 : UInt32).toNat = 1 := rfl
    rw [UInt32.toNat_add, hone]
    omega
  · omega

/-- What a successful launch says about the launched child. -/
theorem launched_self {pass : Option Instant} {spec : ChildSpec} {child : StartedChild} :
    lastLaunched spec.name (⟨pass, .start spec (.ok child)⟩ :: log) = some child.childPid := by
  simp [lastLaunched, launched_start]

theorem relaunches_self {pass : Option Instant} {spec : ChildSpec} {child : StartedChild} :
    relaunches spec.name (⟨pass, .start spec (.ok child)⟩ :: log) =
      relaunches spec.name log + if pass.isSome then 1 else 0 := by
  unfold relaunches
  rw [List.countP_cons]
  simp [Event.isRelaunch, launched_start]

/-- A successful launch of a child that is not running, followed by the critical
section that writes it down. -/
theorem booked_launchedAs {mark : UInt32 → ChildState → ChildState} {spec : ChildSpec}
    {child : StartedChild} (h : Booked env w)
    (hname : ∀ pid slot, (mark pid slot).name = slot.name)
    (hpid : ∀ pid slot, (mark pid slot).childPid = some pid)
    (hstatus : ∀ slot, w.view.slot spec.name = some slot →
      slot.status ≠ .running ∧ StatusStep slot.status (mark child.childPid slot).status)
    (hcount : ∀ slot, w.view.slot spec.name = some slot →
      (mark child.childPid slot).restartCount.toNat =
        min (relaunches spec.name w.log + if w.pass.isSome then 1 else 0) (UInt32.size - 1)) :
    Booked env (launchedAs env mark w spec child) := by
  have hother : ∀ c, c ≠ spec.name →
      Event.launched c ⟨w.pass, .start spec (.ok child)⟩ = none := by
    intro c hc
    rw [launched_start, if_neg (Ne.symm hc)]
  have hview : viewAt w.log = w.view := h.synced.view_eq.symm
  have hkept : Bookkeeping (w.note (.start spec (.ok child))).log := by
    apply h.kept.cons (fun _ _ => by simp)
    change BookedAt (viewAt w.log) _ (settled w.log)
    have hlast := h.kept.points w.log List.suffix_rfl
    refine ⟨hlast.names_eq, fun c slot hslot => ?_⟩
    by_cases hc : c = spec.name
    · subst hc
      have hold := hlast.slots spec.name slot hslot
      rw [hview] at hslot
      exact ⟨fun hrunning => absurd hrunning (hstatus slot hslot).1, hold.count_eq⟩
    · exact (hlast.slots c slot hslot).cons (hother c hc)
  apply booked_update (hname child.childPid) (synced_start h.synced spec _) hkept
    h.now.names_eq
  · intro c slot hc hslot
    exact ((h.now.slots c slot hslot).cons (hother c hc)).count_cons (hother c hc)
  · intro slot hslot
    refine ⟨⟨fun _ => ⟨child.childPid, hpid _ _, launched_self⟩, ?_⟩, fun _ =>
      (hstatus slot hslot).2⟩
    rw [note_log, relaunches_self]
    exact hcount slot hslot

/-- A critical section that changes the slot of one child, keeping its PID and
counter, to a status in which it does not run. -/
theorem booked_mark {name : String} {f : ChildState → ChildState} (h : Booked env w)
    (hname : ∀ slot, (f slot).name = slot.name)
    (hcount : ∀ slot, (f slot).restartCount = slot.restartCount)
    (hstatus : ∀ slot, w.view.slot name = some slot →
      (f slot).status ≠ .running ∧ StatusStep slot.status (f slot).status) :
    Booked env (w.lock env (SupervisorView.update (fun slot => slot.name == name) f)).2 := by
  apply booked_update hname h.synced h.kept h.now.names_eq
  · intro c slot _ hslot
    exact h.now.slots c slot hslot
  · intro slot hslot
    obtain ⟨hnot, hchange⟩ := hstatus slot hslot
    exact ⟨(h.now.slots name slot hslot).change (hcount slot) (fun hrunning =>
      absurd hrunning hnot), fun _ => hchange⟩

/-- A quiet event outside the critical sections. -/
theorem booked_note {a : Action} (h : Booked env w)
    (hsynced : Synced env (w.note a)) (haction : ∀ before after, a ≠ .critical before after)
    (hquiet : Event.Quiet ⟨w.pass, a⟩) : Booked env (w.note a) :=
  ⟨hsynced, h.kept.quiet haction hquiet, (h.now.cons hquiet).count_cons hquiet⟩

/-- The status that the code has found in a slot. -/
theorem slot_status {view : SupervisorView} {slot : ChildState} {status : ChildStatus}
    (hslot : view.slot c = some slot) (h : view.status c = some status) :
    slot.status = status := by
  rw [SupervisorView.status, hslot] at h
  simpa using h

/-- The clearing phase keeps the bookkeeping. -/
theorem booked_retried (h : Booked env w) (due : String → Option Instant) (now : Instant) :
    Booked env (clearExpiredBackoffs env due now w).2 := by
  let retry := fun slot : ChildState =>
    if backoffExpired due now slot then slot.markRetrying else slot
  have hretry : ∀ slot, (retry slot).name = slot.name := by
    intro slot
    dsimp only [retry]
    split <;> rfl
  apply booked_lock (fun _ => retry) h.synced h.kept h.now.names_eq (fun _ => rfl)
    (fun _ => rfl)
  · intro view
    unfold SupervisorView.names
    rw [List.map_map]
    exact List.map_congr_left fun slot _ => hretry slot
  · exact fun view c _ => find_map_of_key ChildState.name c hretry view.children
  · intro c slot hslot
    have hbooked := h.now.slots c slot hslot
    dsimp only [retry]
    split
    · rename_i hexpired
      have hbackoff : slot.status = .backoff := by
        simpa using (Bool.and_eq_true_iff.mp hexpired).1
      refine ⟨hbooked.change rfl (fun hrunning => by simp at hrunning), fun _ => ?_⟩
      rw [hbackoff]
      exact .retry
    · exact ⟨hbooked, fun hne => absurd rfl hne⟩

/-- A loss keeps the bookkeeping: only a running slot is flipped. -/
theorem booked_lost (h : Booked env w) (name : String) (pid : UInt32) :
    Booked env (w.lock env (SupervisorView.update
      (fun slot => slot.name == name && decide (slot.status = .running))
      (ChildState.markExited pid))).2 := by
  let f := fun slot : ChildState =>
    if decide (slot.status = .running) then slot.markExited pid else slot
  have hname : ∀ slot, (ChildState.markExited pid slot).name = slot.name :=
    ChildState.markExited_name pid
  apply booked_lock (fun c slot => if c = name then f slot else slot) h.synced h.kept
    h.now.names_eq (fun _ => rfl) (fun _ => rfl) (names_update hname _)
  · intro view c _
    by_cases hc : c = name
    · subst hc
      simp only [if_true]
      exact find_updateFirst_and ChildState.name c
        (fun slot => decide (slot.status = .running)) hname view.children
    · rw [slot_update_ne hname]
      · simp [hc]
      · intro slot hslot
        exact name_test_ne (Ne.symm hc) slot (Bool.and_eq_true_iff.mp hslot).1
  · intro c slot hslot
    have hbooked := h.now.slots c slot hslot
    by_cases hflip : c = name ∧ slot.status = .running
    · have hf : f slot = slot.markExited pid := if_pos (by simp [hflip.2])
      rw [if_pos hflip.1, hf]
      refine ⟨hbooked.change rfl (fun hrunning => by simp at hrunning), fun _ => ?_⟩
      rw [hflip.2]
      exact .exit
    · have hsame : (if c = name then f slot else slot) = slot := by
        by_cases hc : c = name
        · have hnot : slot.status ≠ .running := fun hrunning => hflip ⟨hc, hrunning⟩
          simp [f, hc, hnot]
        · exact if_neg hc
      rw [hsame]
      exact ⟨hbooked, fun hne => absurd rfl hne⟩

/-- Every step keeps the bookkeeping. -/
theorem booked_step (h : Booked env w) (hstep : Step env specs w w') : Booked env w' := by
  have hsync : Synced env w' := synced_step h.synced hstep
  cases hstep with
  | enter _ now => exact ⟨hsync, h.kept, h.now⟩
  | look _ read =>
      exact booked_lock (fun _ slot => slot) h.synced h.kept h.now.names_eq (fun _ => rfl)
        (fun _ => rfl) (fun _ => rfl) (fun _ _ _ => by simp)
        (fun c slot hslot => ⟨h.now.slots c slot hslot, fun hne => absurd rfl hne⟩)
  | starting _ spec hpass hstatus =>
      apply booked_mark h ChildState.markStarting_name (fun _ => rfl)
      intro slot hslot
      have hpending : slot.status = .pending :=
        hstatus slot.status (by rw [SupervisorView.status, hslot]; rfl)
      rw [hpending]
      exact ⟨by simp, .start⟩
  | startFailed _ spec e => exact booked_note h hsync (fun _ _ => by simp) quiet_failed
  | started _ spec child hspec hpass hstatus =>
      apply booked_launchedAs h ChildState.markRunning_name (fun _ _ => rfl)
      · intro slot hslot
        have hstarting : slot.status = .starting :=
          hstatus slot.status (by rw [SupervisorView.status, hslot]; rfl)
        rw [hstarting]
        exact ⟨by simp, .launch⟩
      · intro slot hslot
        rw [hpass]
        exact (h.now.slots spec.name slot hslot).count_eq
  | probed _ name pid answer => exact booked_note h hsync (fun _ _ => by simp) quiet_probe
  | lost _ name pid => exact booked_lost h name pid
  | recorded _ now name => exact ⟨hsync, h.kept, h.now⟩
  | restartFailed _ c e => exact booked_note h hsync (fun _ _ => by simp) quiet_failed
  | restarted _ c child hpass hstatus =>
      apply booked_launchedAs h ChildState.markRestarted_name (fun _ _ => rfl)
      · intro slot hslot
        rw [slot_status hslot hstatus]
        exact ⟨by simp, .relaunch⟩
      · intro slot hslot
        rw [if_pos (Option.isSome_iff_ne_none.mpr hpass)]
        exact saturatingSucc_toNat (h.now.slots c slot hslot).count_eq
  | backedOff _ c n hstatus =>
      apply booked_mark h (ChildState.markBackoff_name n) (fun _ => rfl)
      intro slot hslot
      rw [slot_status hslot hstatus]
      exact ⟨by simp, .backOff⟩
  | retried _ due now => exact booked_retried h due now
  | scheduled _ due => exact ⟨hsync, h.kept, h.now⟩

end Steps

/-! ## Runs -/

/-- A new supervisor has launched nothing. -/
theorem booked_new (env : Environment) : Booked env World.new := by
  have hnow : BookedAt World.new.view [] [] := by
    refine ⟨pendingFor_canonical_names, fun c slot hslot => ?_⟩
    obtain ⟨spec, -, rfl⟩ := List.mem_map.mp (List.mem_of_find?_eq_some hslot)
    exact ⟨fun hrunning => (by cases hrunning), rfl⟩
  refine ⟨synced_new env, ⟨?_, ?_⟩, hnow⟩
  · intro point hpoint
    rw [List.suffix_nil.mp hpoint]
    exact hnow
  · intro newer e older before after hsplit
    simp [World.new] at hsplit

/-- Every run is booked between two passes. -/
theorem booked_run (env : Environment) (times : List Instant) : Booked env (run env times) :=
  run_invariant (Booked env) (booked_new env) (fun _ _ => booked_step) times

/-- At every point of the history of every run: the children are the canonical ones
in their order, a running slot holds the PID of the child's last successful launch,
the counter is the number of relaunches written down, and a status changes in one of
the six ways only. -/
theorem slot_bookkeeping (env : Environment) (times : List Instant) :
    (run env times).view = viewAt (run env times).log ∧ Bookkeeping (run env times).log :=
  ⟨(booked_run env times).synced.view_eq, (booked_run env times).kept⟩

/-- The counter does not count the relaunches made: in the crash loop the launcher has
answered for {lit}`wm-audio`, and its slot is not written yet. -/
theorem bookkeeping_behind_launch :
    ¬∀ (env : Environment) (times : List Instant) (point : List Event),
      times.Pairwise (· ≤ ·) → point <:+ (run env times).log →
        BookedAt (viewAt point) point point := by
  intro h
  have hbooked := h crashLoop [0] ((run crashLoop [0]).log.drop 9) (by decide)
    (List.drop_suffix _ _)
  have hrelaunched : relaunches "wm-audio" ((run crashLoop [0]).log.drop 9) = 1 := by
    decide +kernel
  have hwritten : ((viewAt ((run crashLoop [0]).log.drop 9)).slot "wm-audio").map
      (fun slot => slot.restartCount.toNat) = some 0 := by
    decide +kernel
  obtain ⟨slot, hslot, hzero⟩ := Option.map_eq_some_iff.mp hwritten
  have hcount := (hbooked.slots "wm-audio" slot hslot).count_eq
  rw [hrelaunched, hzero] at hcount
  exact absurd hcount (by decide)

end Supervisor
end Wintermute
