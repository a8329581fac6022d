import Wintermute.Supervisor.Bookkeeping
import Wintermute.Supervisor.StartupFaults
import Wintermute.Supervisor.TrackerBound

/-!
# Recovery

From a point on, no call of the spawner fails and no process dies any more; those that
have died stay dead.  A child whose process lives keeps running, and one whose process has
gone unnoticed is found exited by the next pass.  A child that is exited, or in backoff
with a wake-up time, is tried again, and each try that the storm gate refuses puts it to
sleep for a pause.  Two pauses last as long as the rolling window, so the third try finds
at most the two before it in the window and is let through.

The other children are lost.  The observer visits neither a child that start-up left
pending or starting nor one that is in backoff without a wake-up time, whatever the
spawner does later.

Main results:

- Theorem {lit}`observerPass_lost`: a pass leaves a lost child as it is.
- Theorem {lit}`Steady.probe_cases`: from a steady world on a process lives for good, or
  is gone at every probe of the next observation phase.
- Theorem {lit}`observerPass_recovering`: a pass tries a child that is due, and counts
  the tries that the storm gate refused.
- Theorem {lit}`recovers_iff`: after three pauses a child runs exactly when it was not
  lost.
- Theorem {lit}`run_not_lost`: as long as no launch fails, no child is ever lost.
-/

namespace Wintermute
namespace Supervisor

open Foundation

/-! ## Lost children -/

/-- The observer will not visit the child again: it is neither running nor exited, and
if it is in backoff, it has no wake-up time. -/
def Lost (c : String) (w : World) : Prop :=
  w.view.status c ≠ some .running ∧ w.view.status c ≠ some .exited ∧
    (w.view.status c = some .backoff → w.backoffUntil c = none)

/-- How many pauses the passes leave room for: one ends in the first pass that is not
before {lit}`due`, the next begins there. -/
def pauses (due : Instant) : List Instant → ℕ
  | [] => 0
  | now :: times => if due ≤ now then pauses (now + stormPause) times + 1 else pauses due times

variable {env : Environment} {c : String} {now : Instant}

/-- A pass leaves a lost child as it is. -/
theorem observerPass_lost {w : World} (hnodup : w.view.names.Nodup) (h : Lost c w)
    (env : Environment) (now : Instant) :
    (observerPass env now w).view.status c = w.view.status c ∧
      (observerPass env now w).backoffUntil c = w.backoffUntil c := by
  obtain ⟨hrunning, hexited, hforgotten⟩ := h
  obtain ⟨hobserves, hrestarts⟩ := observerPass_life hnodup env now c
  have hasleep : ¬((lifeOf c w).enter now).Expired now := by
    rintro ⟨hbackoff, till, hdue, -⟩
    have hnone : (lifeOf c w).due = none := hforgotten hbackoff
    cases hnone.symm.trans hdue
  rw [Life.clear_of_not_expired hasleep] at hobserves
  have hobserved := hobserves.eq_self hrunning
  have hpassed := hrestarts.eq_self (by rw [hobserved]; exact hexited)
  have hlife : lifeOf c (observerPass env now w) = (lifeOf c w).enter now :=
    hpassed.trans hobserved
  exact ⟨congrArg Life.status hlife, congrArg Life.due hlife⟩

theorem lost_of_same {w w' : World} (h : Lost c w)
    (hstatus : w'.view.status c = w.view.status c)
    (hdue : w'.backoffUntil c = w.backoffUntil c) : Lost c w' := by
  unfold Lost
  rw [hstatus, hdue]
  exact h

/-- A lost child is lost for ever, whatever the spawner does. -/
theorem run_lost (env : Environment) (pre post : List Instant) (h : Lost c (run env pre)) :
    Lost c (run env (pre ++ post)) := by
  induction post using List.reverseRecOn with
  | nil =>
      rw [List.append_nil]
      exact h
  | append_singleton post now ih =>
      rw [← List.append_assoc, run_snoc]
      obtain ⟨hstatus, hdue⟩ := observerPass_lost (run_nodup env _) ih env now
      exact lost_of_same ih hstatus hdue

/-! ## A machine that has calmed down -/

/-- From this world on no call fails, no process dies, and none that is gone comes back: a
process launched since is alive, and one launched before is as it was, as long as its PID
is not handed out again. -/
structure Steady (env : Environment) (w : World) : Prop where
  start : ∀ log spec, w.log <:+ log → ∃ child, env.spawner.start log spec = .ok child
  probe : ∀ log pid, w.log <:+ log → ∃ alive, env.spawner.stillRunning log pid = .ok alive
  launched : ∀ newer c pid, (∃ e ∈ newer, Event.launched c e = some pid) →
    env.spawner.stillRunning (newer ++ w.log) pid = .ok true
  kept : ∀ newer c pid, (∃ e ∈ w.log, Event.launched c e = some pid) →
    (∀ e ∈ newer, ∀ c', Event.launched c' e ≠ some pid) →
      env.spawner.stillRunning (newer ++ w.log) pid = env.spawner.stillRunning w.log pid

/-- The child runs, and its process is found alive from now on. -/
def Settled (env : Environment) (c : String) (w : World) : Prop :=
  ∃ pid, w.view.runningPid c = some pid ∧
    ∀ log, w.log <:+ log → env.spawner.stillRunning log pid = .ok true

/-- What has happened since launches nothing. -/
def QuietSince (w w' : World) : Prop :=
  ∃ newer, w'.log = newer ++ w.log ∧ ∀ e ∈ newer, e.Quiet

/-- From a steady world on a launched process lives for good, or is gone as long as nothing
is launched. -/
theorem Steady.probe_cases {w₀ : World} (h : Steady env w₀) {log : List Event} {pid : UInt32}
    (hsuffix : w₀.log <:+ log) (hlaunched : ∃ e ∈ log, Event.launched c e = some pid) :
    (∀ log', log <:+ log' → env.spawner.stillRunning log' pid = .ok true) ∨
      ∀ newer, (∀ e ∈ newer, Event.Quiet e) →
        env.spawner.stillRunning (newer ++ log) pid = .ok false := by
  obtain ⟨since, rfl⟩ := hsuffix
  by_cases hsince : ∃ e ∈ since, ∃ c', Event.launched c' e = some pid
  · left
    rintro log' ⟨newer, rfl⟩
    obtain ⟨e, he, c', hpid⟩ := hsince
    rw [← List.append_assoc]
    exact h.launched _ c' pid ⟨e, List.mem_append_right _ he, hpid⟩
  · push Not at hsince
    obtain ⟨alive, halive⟩ := h.probe w₀.log pid List.suffix_rfl
    have hbefore : ∃ e ∈ w₀.log, Event.launched c e = some pid := by
      obtain ⟨e, he, hpid⟩ := hlaunched
      rcases List.mem_append.mp he with he | he
      · exact absurd hpid (hsince e he c)
      · exact ⟨e, he, hpid⟩
    have hkept : ∀ newer, (∀ e ∈ newer, ∀ c', Event.launched c' e ≠ some pid) →
        env.spawner.stillRunning (newer ++ (since ++ w₀.log)) pid = .ok alive := by
      intro newer hnewer
      rw [← List.append_assoc, h.kept _ c pid hbefore, halive]
      exact List.forall_mem_append.mpr ⟨hnewer, hsince⟩
    cases alive with
    | true =>
        left
        rintro log' ⟨newer, rfl⟩
        by_cases hnewer : ∃ e ∈ newer, ∃ c', Event.launched c' e = some pid
        · obtain ⟨e, he, c', hpid⟩ := hnewer
          rw [← List.append_assoc]
          exact h.launched _ c' pid ⟨e, List.mem_append_left _ he, hpid⟩
        · push Not at hnewer
          exact hkept newer hnewer
    | false =>
        right
        intro newer hquiet
        refine hkept newer fun e he c' => ?_
        rw [hquiet e he c']
        simp

/-! ## Phases that launch nothing -/

theorem QuietSince.trans {w w' w'' : World} (h : QuietSince w w') (h' : QuietSince w' w'') :
    QuietSince w w'' := by
  obtain ⟨newer, hlog, hnewer⟩ := h
  obtain ⟨newer', hlog', hnewer'⟩ := h'
  refine ⟨newer' ++ newer, ?_, List.forall_mem_append.mpr ⟨hnewer', hnewer⟩⟩
  rw [hlog', hlog, List.append_assoc]

theorem quietSince_note {w : World} {a : Action} (hquiet : Event.Quiet ⟨w.pass, a⟩) :
    QuietSince w (w.note a) :=
  ⟨[⟨w.pass, a⟩], rfl, List.forall_mem_singleton.mpr hquiet⟩

/-- A critical section and the requests before it launch nothing. -/
theorem quietSince_lock {α : Type} (f : SupervisorView → α × SupervisorView) (w : World) :
    QuietSince w (w.lock env f).2 := by
  obtain ⟨served, hlog, hserved⟩ := lock_log env f w
  refine ⟨_ :: served, hlog, List.forall_mem_cons.mpr ⟨quiet_critical, fun e he => ?_⟩⟩
  obtain ⟨pass, action⟩ := e
  obtain ⟨req, resp, haction⟩ := hserved _ he
  cases haction
  exact quiet_request

theorem quietSince_cleared (env : Environment) (now : Instant) (w : World) :
    QuietSince w (cleared env now w) := by
  have hlock : QuietSince { w with pass := some now }
      (clearExpiredBackoffs env w.backoffUntil now { w with pass := some now }).2 :=
    quietSince_lock _ _
  obtain ⟨newer, hlog, hquiet⟩ := hlock
  exact ⟨newer, hlog, hquiet⟩

/-- A probe and the loss that it reports launch nothing. -/
theorem quietSince_probeChild (acc : List String × World) (child : String × UInt32) :
    QuietSince acc.2 (probeChild env acc child).2.2 := by
  obtain ⟨name, pid⟩ := child
  unfold probeChild
  dsimp only
  have hnote : QuietSince acc.2
      (acc.2.note (.stillRunning name pid (env.spawner.stillRunning acc.2.log pid))) :=
    quietSince_note quiet_probe
  split
  · exact hnote
  · exact hnote
  · split
    · exact hnote.trans (quietSince_lock _ _)
    · exact hnote.trans (quietSince_lock _ _)

/-- The observation phase of a steady machine leaves a child running whose process lives,
and finds one exited whose process is gone. -/
theorem observed_running {w w₀ : World} (hnodup : w.view.names.Nodup) (now : Instant)
    (hsteady : Steady env w₀) (hsuffix : w₀.log <:+ w.log) {pid : UInt32}
    (hpid : w.view.runningPid c = some pid)
    (hlaunched : ∃ e ∈ w.log, Event.launched c e = some pid) :
    Settled env c w ∨ (lifeOf c (observed env now w)).status = some .exited ∧
      (lifeOf c (observed env now w)).tracker = (lifeOf c w).tracker := by
  rcases hsteady.probe_cases hsuffix hlaunched with halive | hgone
  · exact Or.inl ⟨pid, hpid, halive⟩
  · right
    have hrunning : (lifeOf c w).status = some .running := Life.status_of_runningPid hpid
    have hlife : lifeOf c (cleared env now w) = (lifeOf c w).enter now := by
      rw [lifeOf_cleared hnodup]
      exact Life.clear_of_not_expired (Life.awake_of_running hrunning)
    have hpid' : (lifeOf c (cleared env now w)).runningPid = some pid := by
      rw [hlife]
      exact hpid
    have hcompletes : ObserveCompletes env (cleared env now w) :=
      observeCompletes_of_probe fun log pid hlog => hsteady.probe log pid
        (hsuffix.trans ((cleared_continues env now w).log_suffix.trans hlog))
    have hstart : QuietSince w (observeStart env (cleared env now w)) :=
      (quietSince_cleared env now w).trans (quietSince_lock _ _)
    rcases observePhase_probes ((cleared_continues env now w).nodup hnodup) hpid' hstart
        (fun acc child hacc => hacc.trans (quietSince_probeChild acc child)) with
      ⟨hstop, -⟩ | ⟨w', ⟨newer, hlog, hquiet⟩, hprobed, -⟩
    · exact absurd hcompletes hstop
    · rw [hlog, hgone newer hquiet] at hprobed
      have hobserved : lifeOf c (observed env now w) =
          (lifeOf c (cleared env now w)).probed pid (.ok false) := hprobed
      rw [hobserved]
      refine ⟨(Life.probed_dead hpid').1, ?_⟩
      rw [Life.probed_tracker, hlife]
      rfl

/-- A pass leaves a settled child settled. -/
theorem observerPass_settled {w : World} (hnodup : w.view.names.Nodup) (now : Instant)
    (h : Settled env c w) : Settled env c (observerPass env now w) := by
  obtain ⟨pid, hpid, halive⟩ := h
  obtain ⟨hobserves, hrestarts⟩ := observerPass_life hnodup env now c
  have hrunning : (lifeOf c w).status = some .running := Life.status_of_runningPid hpid
  have hcleared : ((lifeOf c w).enter now).clear now = (lifeOf c w).enter now :=
    Life.clear_of_not_expired (Life.awake_of_running hrunning)
  rw [hcleared] at hobserves
  have hslot : (lifeOf c (observed env now w)).slot = (lifeOf c w).slot := by
    generalize lifeOf c (observed env now w) = seen at hobserves ⊢
    cases hobserves with
    | idle _ => rfl
    | unvisited _ _ _ => rfl
    | visited pid' answer hpid' hanswer _ =>
        cases hpid.symm.trans hpid'
        obtain ⟨log, hlog, rfl⟩ := hanswer
        rw [halive log ((cleared_continues env now w).log_suffix.trans hlog),
          Life.probed_alive (by simp)]
        rfl
  have hstatus : (lifeOf c (observed env now w)).status = some .running := by
    rw [Life.status, hslot]
    exact hrunning
  have hsame := hrestarts.eq_self (by rw [hstatus]; decide)
  refine ⟨pid, ?_, fun log hlog => halive log ?_⟩
  · change (lifeOf c (observerPass env now w)).runningPid = some pid
    rw [hsame, Life.runningPid, hslot]
    exact hpid
  · exact (observerPass_continues env now w).log_suffix.trans hlog

/-! ## Refused tries -/

namespace Life

variable {l l' : Life} {k : ℕ}

/-- Two pauses last exactly as long as the window. -/
theorem window_le_pauses (x : Instant) :
    x + Duration.fromSecs restartWindowSecs ≤ x + stormPause + stormPause := by
  rw [Nat.add_assoc x stormPause stormPause]
  exact Nat.add_le_add_left (by decide) x

/-- The storm gate does not refuse a third try. -/
theorem record_third (hstandard : l.tracker.Standard)
    (hsorted : l.tracker.history.Pairwise (· < ·))
    (htail : SpacedTail stormPause 2 now l.tracker.history) : (l.tracker.record now).1 = 0 := by
  have hshort := htail.prune_length_le_two hsorted window_le_pauses
  rw [RestartTracker.record_isZero_iff hstandard, RestartTracker.record_history,
    hstandard.window_eq, List.length_append, List.length_singleton]
  exact (Nat.succ_le_succ hshort).trans_lt (by decide)

/-- A try that is refused has been preceded by others in the window. -/
theorem record_refused (hstandard : l.tracker.Standard) (hrefused : (l.tracker.record now).1 ≠ 0) :
    4 ≤ (prune (Duration.fromSecs restartWindowSecs) now l.tracker.history).length := by
  rw [ne_eq, RestartTracker.record_isZero_iff hstandard, RestartTracker.record_history,
    hstandard.window_eq, List.length_append, List.length_singleton, not_lt] at hrefused
  exact Nat.le_of_succ_le_succ hrefused

/-- A restart phase in which no launch fails launches an exited child, or refuses it for
fewer than three tries in a row. -/
theorem Restarts.attempt {answers : ChildSpec → Result StartedChild → Prop} {completed : Prop}
    (h : Restarts answers completed now l l') (hcompleted : completed)
    (hstatus : l.status = some .exited) (hstandard : l.tracker.Standard)
    (hsorted : l.tracker.history.Pairwise (· < ·)) (hnew : ∀ t ∈ l.tracker.history, t < now)
    (hk : k ≤ 2) (htail : SpacedTail stormPause k now l.tracker.history) :
    (∃ spec child, l' = l.launched now spec (.ok child)) ∨
      l'.status = some .backoff ∧ l'.due = some (now + stormPause) ∧ k + 1 ≤ 2 ∧
        SpacedTail stormPause (k + 1) (now + stormPause) l'.tracker.history := by
  cases h with
  | idle hnot => exact absurd hstatus hnot
  | unvisited _ hstop => exact absurd hcompleted hstop
  | forgotten _ _ hstop => exact absurd hcompleted hstop
  | visited spec answer _ _ _ hok =>
      obtain ⟨child, rfl⟩ := hok hcompleted
      exact Or.inl ⟨spec, child, rfl⟩
  | scheduled _ hrefused _ =>
      have hfull := record_refused hstandard hrefused
      have hroom : k + 1 ≤ 2 := by
        by_contra hthird
        obtain rfl : k = 2 := by omega
        exact hrefused (record_third hstandard hsorted htail)
      have hhistory : (l.backedOff now).tracker.history =
          prune (Duration.fromSecs restartWindowSecs) now l.tracker.history ++ [now] := by
        rw [backedOff_tracker, RestartTracker.record_history, hstandard.window_eq]
      refine Or.inr ⟨(backedOff_spec hstatus now).1, rfl, hroom, ?_⟩
      change SpacedTail stormPause (k + 1) (now + stormPause) (l.backedOff now).tracker.history
      rw [hhistory]
      exact htail.push hnew (by omega)

end Life

/-- The child is settled, or at least {lit}`k` tries since the start have been refused and
the next one is due at {lit}`deadline`.  A running or exited child has not been tried. -/
inductive Recovering (env : Environment) (c : String) (k : ℕ) (deadline : Instant) (w : World) :
    Prop
  | settled (h : Settled env c w)
  | untried (hstatus : w.view.status c = some .running ∨ w.view.status c = some .exited)
      (hk : k = 0)
  | backoff (till : Instant) (hstatus : w.view.status c = some .backoff)
      (hdue : w.backoffUntil c = some till) (htill : till ≤ deadline) (hk : k ≤ 2)
      (htail : SpacedTail stormPause k till (lifeOf c w).tracker.history)

section Recovering

variable {w : World} {k : ℕ} {deadline : Instant}

/-- Three refusals in a row do not happen. -/
theorem Recovering.status_running (h : Recovering env c k deadline w) (hk : 3 ≤ k) :
    w.view.status c = some .running := by
  cases h with
  | settled hsettled =>
      obtain ⟨pid, hpid, -⟩ := hsettled
      exact @Life.status_of_runningPid (lifeOf c w) pid hpid
  | untried _ hzero => omega
  | backoff _ _ _ _ htwo _ => omega

theorem Recovering.later {deadline' : Instant} (h : Recovering env c k deadline w)
    (hle : deadline ≤ deadline') : Recovering env c k deadline' w := by
  cases h with
  | settled hsettled => exact .settled hsettled
  | untried hstatus hk => exact .untried hstatus hk
  | backoff till hstatus hdue htill hk htail =>
      exact .backoff till hstatus hdue (htill.trans hle) hk htail

theorem Recovering.fewer (h : Recovering env c (k + 1) deadline w) :
    Recovering env c k deadline w := by
  cases h with
  | settled hsettled => exact .settled hsettled
  | untried _ hk => omega
  | backoff till hstatus hdue htill hk htail =>
      exact .backoff till hstatus hdue htill (by omega) htail.fewer

end Recovering

/-! ## One pass -/

/-- A child that a restart phase has launched was launched since. -/
theorem exists_launched {w w' : World} {newer : List Event} {flip : ChildEvent}
    {pass : Option Instant} {spec : ChildSpec} {child : StartedChild}
    (hlog : w'.log = newer ++ w.log)
    (hlife : (lifeOf c w').log = flip :: ⟨pass, .start spec (.ok child)⟩ :: (lifeOf c w).log) :
    ∃ e ∈ newer, Event.launched c e = some child.childPid := by
  have hsplit : newer.filterMap (eventAbout c) = [flip, ⟨pass, .start spec (.ok child)⟩] := by
    refine (List.append_left_inj (lifeOf c w).log).mp ?_
    change _ ++ w.log.filterMap (eventAbout c) = _
    rw [← List.filterMap_append, ← hlog]
    exact hlife
  have hmem : ⟨pass, .start spec (.ok child)⟩ ∈ newer.filterMap (eventAbout c) := by
    rw [hsplit]
    exact List.mem_cons_of_mem _ List.mem_cons_self
  obtain ⟨e, he, habout⟩ := List.mem_filterMap.mp hmem
  refine ⟨e, he, ?_⟩
  rw [← launched_eventAbout, habout]
  rfl

/-- A restart phase of a steady machine tries a child that it finds exited. -/
theorem observerPass_tries {w w₀ : World} {k : ℕ} (hnodup : w.view.names.Nodup)
    (hsteady : Steady env w₀) (hsuffix : w₀.log <:+ w.log) (hbounded : (lifeOf c w).Bounded)
    (hlast : ∀ last, w.pass = some last → last < now)
    (hexited : (lifeOf c (observed env now w)).status = some .exited)
    (htracker : (lifeOf c (observed env now w)).tracker = (lifeOf c w).tracker) (hk : k ≤ 2)
    (htail : SpacedTail stormPause k now (lifeOf c w).tracker.history) :
    Recovering env c (k + 1) (now + stormPause) (observerPass env now w) := by
  obtain ⟨-, hrestarts⟩ := observerPass_life hnodup env now c
  have hobserved : w₀.log <:+ (observed env now w).log :=
    hsuffix.trans (observed_continues env now w).log_suffix
  have hcompletes : RestartCompletes env now (observed env now w) :=
    restartCompletes_of_start (fun log spec hlog => hsteady.start log spec
      (hobserved.trans hlog)) now
  have hnew : ∀ t ∈ (lifeOf c w).tracker.history, t < now := by
    intro t ht
    obtain ⟨last, hpass, hle⟩ := hbounded.past t ht
    exact lt_of_le_of_lt hle (hlast last hpass)
  rcases hrestarts.attempt hcompletes hexited (htracker ▸ hbounded.standard)
      (htracker ▸ hbounded.paused.sorted) (htracker ▸ hnew) hk (htracker ▸ htail) with
    ⟨spec, child, hlaunched⟩ | ⟨hstatus, hdue, hroom, htail'⟩
  · obtain ⟨hpid, hlog⟩ := Life.launched_ok hexited now spec child
    rw [← hlaunched] at hpid hlog
    refine .settled ⟨child.childPid, hpid, ?_⟩
    rintro log ⟨later, rfl⟩
    obtain ⟨newer, hnewer⟩ := (restartPhase_continues env now (observed env now w)).log_suffix
    obtain ⟨since, hsince⟩ := hobserved
    obtain ⟨e, he, hpid'⟩ := exists_launched hnewer.symm hlog
    have hall : later ++ (observerPass env now w).log = (later ++ newer ++ since) ++ w₀.log := by
      rw [observerPass_eq, ← hnewer, ← hsince]
      simp only [List.append_assoc]
    rw [hall]
    exact hsteady.launched _ c _
      ⟨e, List.mem_append_left _ (List.mem_append_right _ he), hpid'⟩
  · exact .backoff (now + stormPause) hstatus hdue le_rfl hroom htail'

/-- A pass of a steady machine tries a child that is due, and leaves one that is not
alone. -/
theorem observerPass_recovering {w w₀ : World} {k : ℕ} {deadline : Instant}
    (hbooked : Booked env w) (hsteady : Steady env w₀) (hsuffix : w₀.log <:+ w.log)
    (hbounded : (lifeOf c w).Bounded) (hlast : ∀ last, w.pass = some last → last < now)
    (h : Recovering env c k deadline w) :
    Recovering env c (k + 1) (now + stormPause) (observerPass env now w) ∨
      now < deadline ∧ Recovering env c k deadline (observerPass env now w) := by
  have hnodup : w.view.names.Nodup := by
    rw [hbooked.now.names_eq]
    decide
  obtain ⟨hobserves, hrestarts⟩ := observerPass_life hnodup env now c
  cases h with
  | settled hsettled => exact Or.inl (.settled (observerPass_settled hnodup now hsettled))
  | untried hstatus hk =>
      subst hk
      rcases hstatus with hrunning | hexited
      · obtain ⟨slot, hslot, hrunning⟩ := Option.map_eq_some_iff.mp hrunning
        obtain ⟨pid, hchild, hlaunched⟩ := (hbooked.now.slots c slot hslot).running hrunning
        have hpid : w.view.runningPid c = some pid := by
          rw [SupervisorView.runningPid, hslot, Option.bind_some, if_pos hrunning, hchild]
        rcases observed_running hnodup now hsteady hsuffix hpid
            (List.exists_of_findSome?_eq_some hlaunched) with hsettled | ⟨hgone, htracker⟩
        · exact Or.inl (.settled (observerPass_settled hnodup now hsettled))
        · exact Or.inl (observerPass_tries hnodup hsteady hsuffix hbounded hlast hgone htracker
            (Nat.zero_le 2) (spacedTail_zero _ _ _))
      · have hawake : ¬((lifeOf c w).enter now).Expired now := by
          rintro ⟨hbackoff, -⟩
          exact absurd (hexited.symm.trans hbackoff) (by decide)
        rw [Life.clear_of_not_expired hawake] at hobserves
        have hseen := hobserves.eq_self (by
          change (lifeOf c w).status ≠ _
          rw [lifeOf_status, hexited]
          decide)
        exact Or.inl (observerPass_tries hnodup hsteady hsuffix hbounded hlast
          (by rw [hseen]; exact hexited) (by rw [hseen]; rfl) (Nat.zero_le 2)
          (spacedTail_zero _ _ _))
  | backoff till hstatus hdue htill hk htail =>
      rcases Nat.lt_or_ge now till with hearly | hdone
      · refine Or.inr ⟨hearly.trans_le htill, ?_⟩
        have hasleep : ¬((lifeOf c w).enter now).Expired now := by
          rintro ⟨-, till', hdue', hdone⟩
          cases hdue.symm.trans hdue'
          exact absurd hdone (not_le.mpr hearly)
        rw [Life.clear_of_not_expired hasleep] at hobserves
        have hseen := hobserves.eq_self (by
          change (lifeOf c w).status ≠ _
          rw [lifeOf_status, hstatus]
          decide)
        have hpassed := hrestarts.eq_self (by
          rw [hseen]
          change (lifeOf c w).status ≠ _
          rw [lifeOf_status, hstatus]
          decide)
        have hlife : lifeOf c (observerPass env now w) = (lifeOf c w).enter now :=
          hpassed.trans hseen
        refine .backoff till ?_ ?_ htill hk ?_
        · exact (congrArg Life.status hlife).trans hstatus
        · exact (congrArg Life.due hlife).trans hdue
        · rw [hlife]
          exact htail
      · have hexpired : ((lifeOf c w).enter now).Expired now := ⟨hstatus, till, hdue, hdone⟩
        have hseen := hobserves.eq_self (by rw [(Life.clear_spec hexpired).1]; decide)
        refine Or.inl (observerPass_tries hnodup hsteady hsuffix hbounded hlast ?_ ?_ hk
          (htail.later hdone))
        · rw [hseen]
          exact (Life.clear_spec hexpired).1
        · rw [hseen, Life.clear_tracker]
          rfl

/-! ## Runs -/

/-- The child is recovering, or has been refused once more since the deadline was set. -/
def Waiting (env : Environment) (c : String) (k : ℕ) (deadline : Instant) (w : World) : Prop :=
  Recovering env c k deadline w ∨ Recovering env c (k + 1) (deadline + stormPause) w

/-- A pass keeps a waiting child waiting; one at or after the deadline has it tried. -/
theorem waiting_pass {w w' : World} {k : ℕ} {deadline : Instant} (h : Waiting env c k deadline w)
    (hpass : ∀ k deadline, Recovering env c k deadline w →
      Recovering env c (k + 1) (now + stormPause) w' ∨
        now < deadline ∧ Recovering env c k deadline w') :
    if deadline ≤ now then Waiting env c (k + 1) (now + stormPause) w'
    else Waiting env c k deadline w' := by
  split
  · rename_i hdue
    left
    rcases h with h | h
    · rcases hpass k deadline h with hnext | ⟨hearly, -⟩
      · exact hnext
      · exact absurd hdue (not_le.mpr hearly)
    · rcases hpass (k + 1) _ h with hnext | ⟨-, hsame⟩
      · exact hnext.fewer
      · exact hsame.later (Nat.add_le_add_right hdue stormPause)
  · rename_i hearly
    have hbefore : now + stormPause ≤ deadline + stormPause :=
      Nat.add_le_add_right (not_le.mp hearly).le stormPause
    rcases h with h | h
    · rcases hpass k deadline h with hnext | ⟨-, hsame⟩
      · exact Or.inr (hnext.later hbefore)
      · exact Or.inl hsame
    · rcases hpass (k + 1) _ h with hnext | ⟨-, hsame⟩
      · exact Or.inr (hnext.fewer.later hbefore)
      · exact Or.inr hsame

/-- A wake-up time is at most a pause after the last pass. -/
theorem Life.due_invariant : Life.Invariant (· ≤ ·) fun l =>
    ∀ till, l.due = some till → ∃ last, l.pass = some last ∧ till ≤ last + stormPause where
  fresh l hfresh till hdue := by
    rw [hfresh.due_eq] at hdue
    cases hdue
  started l spec answer hfresh till hdue := by
    rw [Life.started_due, hfresh.due_eq] at hdue
    cases hdue
  enter l now hl hlast till hdue := by
    obtain ⟨last, hpass, hle⟩ := hl till hdue
    exact ⟨now, rfl, hle.trans (Nat.add_le_add_right (hlast last hpass) stormPause)⟩
  clear l now hl _ hexpired till hdue := by
    rw [(Life.clear_spec hexpired).2.1] at hdue
    cases hdue
  probed l pid answer hl _ till hdue := by
    rw [Life.probed_due] at hdue
    rw [Life.probed_pass]
    exact hl till hdue
  launched l now spec answer hl _ _ _ till hdue := by
    rw [Life.launched_due] at hdue
    rw [Life.launched_pass]
    exact hl till hdue
  backedOff l now due hl hpass _ _ hdue till htill := by
    rw [Life.backedOff_pass]
    rcases hdue with hold | hnew
    · exact hl till (hold ▸ htill)
    · cases hnew.symm.trans htill
      exact ⟨now, hpass, le_rfl⟩

section Runs

variable {pre post : List Instant}

/-- A child that is not lost is recovering. -/
theorem run_recovering (env : Environment) (hpre : pre.Pairwise (· < ·)) {due : Instant}
    (hdue : ∀ t ∈ pre, t + stormPause ≤ due) (hkept : ¬Lost c (run env pre)) :
    Recovering env c 0 due (run env pre) := by
  by_cases hvisible : (run env pre).view.status c = some .running ∨
      (run env pre).view.status c = some .exited
  · exact .untried hvisible rfl
  · rw [not_or] at hvisible
    have hscheduled : (run env pre).view.status c = some .backoff ∧
        (run env pre).backoffUntil c ≠ none := by
      by_contra hnot
      exact hkept ⟨hvisible.1, hvisible.2, fun hbackoff => by
        by_contra hsome
        exact hnot ⟨hbackoff, hsome⟩⟩
    obtain ⟨till, htill⟩ := Option.ne_none_iff_exists'.mp hscheduled.2
    obtain ⟨hbound, hlast⟩ := Life.due_invariant.run (run_refines env pre c)
      (hpre.imp fun h => h.le)
    obtain ⟨last, hpass, hle⟩ := hbound till htill
    rw [hlast] at hpass
    exact .backoff till hscheduled.1 htill
      (hle.trans (hdue last (List.mem_of_getLast? hpass))) (Nat.zero_le 2)
      (spacedTail_zero _ _ _)

/-- The passes of a steady machine count the refused tries of a child. -/
theorem run_waiting {w₀ : World} (hsteady : Steady env w₀) {k : ℕ} {due : Instant}
    (hsuffix : w₀.log <:+ (run env pre).log) (htimes : (pre ++ post).Pairwise (· < ·))
    (h : Waiting env c k due (run env pre)) :
    ∃ due', Waiting env c (k + pauses due post) due' (run env (pre ++ post)) := by
  induction post generalizing pre k due with
  | nil =>
      refine ⟨due, ?_⟩
      rw [List.append_nil]
      exact h
  | cons now post ih =>
      have hpre : pre.Pairwise (· < ·) := (List.pairwise_append.mp htimes).1
      have hrefines := run_refines env pre c
      have hbounded := Life.bounded_of_run hrefines hpre
      have hlast : ∀ last, (run env pre).pass = some last → last < now := by
        intro last hpass
        have hgetLast := ((Life.unscheduled_invariant (· < ·)).run hrefines hpre).2
        exact (List.pairwise_append.mp htimes).2.2 last
          (List.mem_of_getLast? (hgetLast.symm.trans hpass)) now List.mem_cons_self
      have hpass := waiting_pass h fun k deadline hk =>
        observerPass_recovering (booked_run env pre) hsteady hsuffix hbounded hlast hk
      have hsnoc : pre ++ now :: post = pre ++ [now] ++ post := by
        rw [List.append_assoc, List.singleton_append]
      rw [← run_snoc] at hpass
      rw [hsnoc] at htimes ⊢
      have hcontinues := (observerPass_continues env now (run env pre)).log_suffix
      rw [← run_snoc] at hcontinues
      split at hpass
      · rename_i hdue
        obtain ⟨due', hwaiting⟩ := ih (hsuffix.trans hcontinues) htimes hpass
        refine ⟨due', ?_⟩
        rw [pauses, if_pos hdue, Nat.add_comm _ 1, ← Nat.add_assoc]
        exact hwaiting
      · rename_i hearly
        obtain ⟨due', hwaiting⟩ := ih (hsuffix.trans hcontinues) htimes hpass
        refine ⟨due', ?_⟩
        rw [pauses, if_neg hearly]
        exact hwaiting

/-- If from the end of {lit}`pre` on no call fails, no process dies and none that is gone
comes back, then after passes that leave room for three pauses a child runs exactly when it
was not lost. -/
theorem recovers_iff (env : Environment) (pre post : List Instant) (due : Instant) (c : String)
    (hsteady : Steady env (run env pre)) (htimes : (pre ++ post).Pairwise (· < ·))
    (hdue : ∀ t ∈ pre, t + stormPause ≤ due) (hpauses : 3 ≤ pauses due post) :
    (run env (pre ++ post)).view.status c = some .running ↔ ¬Lost c (run env pre) := by
  constructor
  · intro hrunning hlost
    exact (run_lost env pre post hlost).1 hrunning
  · intro hkept
    have hpre : pre.Pairwise (· < ·) := (List.pairwise_append.mp htimes).1
    obtain ⟨due', hwaiting⟩ := run_waiting hsteady List.suffix_rfl htimes
      (Or.inl (run_recovering env hpre hdue hkept))
    rcases hwaiting with h | h
    · exact h.status_running (by omega)
    · exact h.status_running (by omega)

end Runs

/-- The event launches a process of this PID. -/
def Event.launches (pid : UInt32) (e : Event) : Bool :=
  match e.action with
  | .start _ (.ok child) => child.childPid == pid
  | _ => false

theorem launches_iff {pid : UInt32} {e : Event} :
    Event.launches pid e = true ↔ ∃ c, Event.launched c e = some pid := by
  obtain ⟨pass, action⟩ := e
  cases action with
  | start spec answer =>
      cases answer with
      | error _ => simp [Event.launches, Event.launched]
      | ok child => simp [Event.launches, Event.launched]
  | _ => simp [Event.launches, Event.launched]

/-- Every launch has a PID of its own.  The processes of the first hundred events are dead
at once and for good; the later ones live. -/
def outage : Environment where
  spawner :=
    { start := fun log spec => .ok ⟨spec.name, UInt32.ofNat log.length, 1⟩
      stillRunning := fun log pid =>
        .ok ((log.take (log.length - 100)).any (Event.launches pid)) }
  clients := Clients.quiet

/-- Behind a hundred events the machine is steady. -/
theorem steady_outage {w : World} (hlong : 100 ≤ w.log.length) : Steady outage w := by
  have htake : ∀ newer, (newer ++ w.log).take ((newer ++ w.log).length - 100) =
      newer ++ w.log.take (w.log.length - 100) := by
    intro newer
    rw [List.length_append, Nat.add_sub_assoc hlong, List.take_length_add_append]
  have hprobe : ∀ newer pid, outage.spawner.stillRunning (newer ++ w.log) pid =
      .ok (newer.any (Event.launches pid) ||
        (w.log.take (w.log.length - 100)).any (Event.launches pid)) := by
    intro newer pid
    rw [← List.any_append, ← htake]
    rfl
  refine ⟨fun _ _ _ => ⟨_, rfl⟩, fun _ _ _ => ⟨_, rfl⟩, ?_, ?_⟩
  · rintro newer c pid ⟨e, he, hpid⟩
    have hany : newer.any (Event.launches pid) = true :=
      List.any_eq_true.mpr ⟨e, he, launches_iff.mpr ⟨c, hpid⟩⟩
    rw [hprobe, hany, Bool.true_or]
  · intro newer c pid _ hnewer
    have hnone : newer.any (Event.launches pid) = false := by
      rw [List.any_eq_false]
      intro e he hlaunches
      obtain ⟨c', hpid⟩ := launches_iff.mp hlaunches
      exact hnewer e he c' hpid
    rw [hprobe, hnone]
    exact (hprobe [] pid).symm

/-- When the outage is over, {lit}`wm-audio` comes back after three pauses. -/
theorem recovers_outage :
    (run outage ([0, 1, 2, 3, 4].map Duration.fromSecs ++
      [34, 64, 94].map Duration.fromSecs)).view.status "wm-audio" = some .running := by
  have hlong : 100 ≤ (run outage ([0, 1, 2, 3, 4].map Duration.fromSecs)).log.length := by
    decide +kernel
  have hstatus : (run outage ([0, 1, 2, 3, 4].map Duration.fromSecs)).view.status "wm-audio" =
      some .backoff := by
    decide +kernel
  have hdue : (run outage ([0, 1, 2, 3, 4].map Duration.fromSecs)).backoffUntil "wm-audio" ≠
      none := by
    decide +kernel
  refine (recovers_iff outage _ _ (Duration.fromSecs 34) "wm-audio" (steady_outage hlong)
    (by decide) (by decide) (by decide)).mpr ?_
  rintro ⟨-, -, hforgotten⟩
  exact hdue (hforgotten hstatus)

/-! ## A machine on which only processes die -/

/-- The observer will visit the child again. -/
def Life.Serviced (l : Life) : Prop :=
  l.status = some .running ∨ l.status = some .exited ∨
    l.status = some .backoff ∧ l.due ≠ none

theorem not_lost_of_serviced {w : World} (h : (lifeOf c w).Serviced) : ¬Lost c w := by
  rintro ⟨hrunning, hexited, hforgotten⟩
  rcases h with h | h | ⟨h, hdue⟩
  · exact hrunning h
  · exact hexited h
  · exact hdue (hforgotten h)

/-- A pass in which no launch fails keeps a child serviced. -/
theorem observerPass_serviced {w : World} (hnodup : w.view.names.Nodup) (now : Instant)
    (hstart : ∀ log spec, ∃ child, env.spawner.start log spec = .ok child)
    (h : (lifeOf c w).Serviced) : (lifeOf c (observerPass env now w)).Serviced := by
  obtain ⟨hobserves, hrestarts⟩ := observerPass_life hnodup env now c
  have hcompletes : RestartCompletes env now (observed env now w) :=
    restartCompletes_of_start (fun log spec _ => hstart log spec) now
  have hcleared : (((lifeOf c w).enter now).clear now).Serviced := by
    by_cases hexpired : ((lifeOf c w).enter now).Expired now
    · exact Or.inr (Or.inl (Life.clear_spec hexpired).1)
    · rw [Life.clear_of_not_expired hexpired]
      exact h
  have hobserved : (lifeOf c (observed env now w)).Serviced := by
    generalize lifeOf c (observed env now w) = seen at hobserves ⊢
    cases hobserves with
    | idle _ => exact hcleared
    | unvisited _ _ _ => exact hcleared
    | visited pid answer hpid _ _ =>
        by_cases hdead : answer = .ok false
        · rw [hdead]
          exact Or.inr (Or.inl (Life.probed_dead hpid).1)
        · rw [Life.probed_alive hdead]
          exact Or.inl (Life.status_of_runningPid hpid)
  generalize lifeOf c (observerPass env now w) = after at hrestarts ⊢
  cases hrestarts with
  | idle _ => exact hobserved
  | unvisited _ hstop => exact absurd hcompletes hstop
  | forgotten _ _ hstop => exact absurd hcompletes hstop
  | visited spec answer hstatus _ _ hok =>
      obtain ⟨child, rfl⟩ := hok hcompletes
      exact Or.inl (Life.status_of_runningPid (Life.launched_ok hstatus now spec child).1)
  | scheduled hstatus _ _ =>
      exact Or.inr (Or.inr ⟨(Life.backedOff_spec hstatus now).1, by simp⟩)

/-- If no launch ever fails, no child is ever lost: processes may die and probes may
fail. -/
theorem run_not_lost (env : Environment)
    (hstart : ∀ log spec, ∃ child, env.spawner.start log spec = .ok child)
    (times : List Instant) (hc : c ∈ childStartupOrder) : ¬Lost c (run env times) := by
  apply not_lost_of_serviced
  induction times using List.reverseRecOn with
  | nil =>
      have hok : (startSpecs env canonicalChildren World.new).1 = .ok () := by
        apply tryEach_completes (fun _ => True) _ _ _ trivial
        intro spec _ w _
        rcases startSpec_cases env w spec with ⟨e, hfail, -⟩ | ⟨child, -, heq⟩
        · obtain ⟨child, hok⟩ := hstart (starting env w spec.name).log spec
          cases hfail.symm.trans hok
        · exact ⟨trivial, congrArg Prod.fst heq⟩
      obtain ⟨spec, hspec, rfl⟩ : ∃ spec ∈ canonicalChildren, spec.name = c :=
        List.mem_map.mp (canonicalChildren_names ▸ hc)
      have hlisted : ∀ spec ∈ canonicalChildren, spec.name ∈ childStartupOrder := by
        intro spec hspec
        rw [← canonicalChildren_names]
        exact List.mem_map_of_mem hspec
      exact Or.inl (startSpecs_running canonicalChildren_nodup hlisted hok spec hspec)
  | append_singleton times now ih =>
      rw [run_snoc]
      exact observerPass_serviced (run_nodup env times) now hstart ih

/-- Not even the crash loop loses a child. -/
theorem run_not_lost_crashLoop : ¬Lost "wm-audio" (run crashLoop stormTimes) :=
  run_not_lost crashLoop (fun _ _ => ⟨_, rfl⟩) stormTimes (by decide)

end Supervisor
end Wintermute
