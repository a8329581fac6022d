import Wintermute.Supervisor.History
import Wintermute.Supervisor.Invariant
import Wintermute.Supervisor.Refinement

/-!
# The backoff schedule

A slot in backoff is woken by its entry in the map of wake-up times.  The entry
is written from the outcomes that the restart loop returns, after the loop has
already put the slot into backoff, so it is lost when a later launch of the same
loop fails.

Main results:

- Theorem {lit}`losesWakeUp_iff`: the passes that put a child into backoff and
  forget its wake-up time.
- Theorem {lit}`backoffScheduled_iff`: a run keeps the schedule exactly as long as
  none of its passes does so.
- Theorem {lit}`backoffSchedule_lost`: a run that loses a wake-up time.
-/

namespace Wintermute
namespace Supervisor

open Foundation

/-! ## The schedule -/

/-- Exactly the children in backoff have a wake-up time, one backoff after the
pass in which they entered it. -/
structure BackoffScheduled (w : World) : Prop where
  scheduled : ∀ c, w.view.status c = some .backoff →
    ∃ entered, enteredBackoff c w = some entered ∧
      w.backoffUntil c = some (entered + Duration.fromSecs backoffSecs)
  unscheduled : ∀ c, w.view.status c ≠ some .backoff → w.backoffUntil c = none

/-! ## The schedule of one child -/

namespace Life

/-- A child in backoff has its wake-up time. -/
def Scheduled (l : Life) : Prop :=
  l.status = some .backoff →
    ∃ entered, l.enteredBackoff = some entered ∧
      l.due = some (entered + Duration.fromSecs backoffSecs)

theorem clear_scheduled {l : Life} (hl : l.Scheduled) (now : Instant) :
    ((l.enter now).clear now).Scheduled := by
  by_cases hexpired : (l.enter now).Expired now
  · intro hstatus
    rw [(clear_spec hexpired).1] at hstatus
    cases hstatus
  · rw [clear_of_not_expired hexpired]
    exact hl

theorem observes_scheduled {answers : UInt32 → Result Bool → Prop} {completed : Prop}
    {l l' : Life} (h : Observes answers completed l l') (hl : l.Scheduled) :
    l'.Scheduled := by
  cases h with
  | idle _ => exact hl
  | unvisited _ _ _ => exact hl
  | visited pid answer hpid _ _ =>
      intro hstatus
      by_cases hdead : answer = .ok false
      · rw [hdead, (probed_dead hpid).1] at hstatus
        cases hstatus
      · rw [probed_alive hdead, note_status, status_of_runningPid hpid] at hstatus
        cases hstatus

/-- A restart phase keeps the wake-up time of a child, unless it forgets it. -/
theorem restarts_scheduled {answers : ChildSpec → Result StartedChild → Prop}
    {completed : Prop} {now : Instant} {l l' : Life}
    (h : Restarts answers completed now l l') (hpass : l.pass = some now)
    (hkept : l.status = some .exited → (l.tracker.record now).1 ≠ 0 →
      l' = l.backedOff now → completed)
    (hl : l.Scheduled) : l'.Scheduled := by
  cases h with
  | idle _ => exact hl
  | unvisited _ _ => exact hl
  | visited spec answer hstatus _ _ _ =>
      intro hbackoff
      cases answer with
      | error e =>
          rw [launched_error] at hbackoff
          exact absurd (hstatus.symm.trans hbackoff) (by decide)
      | ok child =>
          rw [status_of_runningPid (launched_ok hstatus now spec child).1] at hbackoff
          cases hbackoff
  | scheduled hstatus _ _ =>
      intro _
      have hlog := (backedOff_spec hstatus now).2
      refine ⟨now, ?_, rfl⟩
      unfold enteredBackoff
      rw [hlog]
      simp [ChildEvent.entersBackoff, hpass]
  | forgotten hstatus hdelay hstop => exact absurd (hkept hstatus hdelay rfl) hstop

end Life

/-- The schedule of the world is the schedule of each child. -/
theorem backoffScheduled_iff_life (w : World) :
    BackoffScheduled w ↔ ∀ c, (lifeOf c w).Scheduled ∧ (lifeOf c w).Unscheduled := by
  constructor
  · intro h c
    refine ⟨fun hstatus => ?_, h.unscheduled c⟩
    rw [lifeOf_enteredBackoff]
    exact h.scheduled c hstatus
  · intro h
    refine ⟨fun c hstatus => ?_, fun c => (h c).2⟩
    rw [← lifeOf_enteredBackoff]
    exact (h c).1 hstatus

/-! ## Passes that lose a wake-up time -/

section Loop

variable {env : Environment} {now : Instant}

/-- The restart loop after the children of a list. -/
def restarted (env : Environment) (now : Instant) (w : World) (before : List (String × String)) :
    Result Unit × (List RestartOutcome × World) :=
  tryEach (restartChild env now) before ([], restartStart env w)

/-- The delay that the tracker of a child would answer. -/
def delay (now : Instant) (w : World) (name : String) : Duration :=
  (((w.trackers name).getD default).record now).1

/-- Behind a child that must back off, the restart loop reaches one that may be
launched and whose launch fails. -/
def LosesWakeUp (env : Environment) (now : Instant) (w : World) : Prop :=
  ∃ before child after e, exitedChildren w.view = before ++ child :: after ∧
    (∃ storming ∈ before, delay now w storming.1 ≠ 0) ∧ delay now w child.1 = 0 ∧
    (restarted env now w before).1 = .ok () ∧
    env.spawner.start (restarted env now w before).2.2.log (relaunchSpec child.1 child.2) =
      .error e

/-- The children of a prefix of the snapshot have other names than the next one. -/
theorem exitedChildren_split {w : World} (hnodup : w.view.names.Nodup)
    {before after : List (String × String)} {child : String × String}
    (hsplit : exitedChildren w.view = before ++ child :: after) :
    (before.map Prod.fst).Nodup ∧ ∀ b ∈ before, b.1 ≠ child.1 := by
  have hkeys := exitedChildren_nodup hnodup
  rw [hsplit, List.map_append, List.map_cons] at hkeys
  refine ⟨(List.nodup_append.mp hkeys).1, ?_⟩
  intro b hb
  exact (List.nodup_append.mp hkeys).2.2 b.1 (List.mem_map_of_mem hb) child.1 List.mem_cons_self

/-- The loop does not touch a child that is not in the list. -/
theorem restarted_frame {before : List (String × String)} {c : String}
    (hc : ∀ b ∈ before, b.1 ≠ c) (w : World) :
    lifeOf c (restarted env now w before).2.2 = lifeOf c w := by
  have hloop : lifeOf c (restarted env now w before).2.2 = lifeOf c (restartStart env w) :=
    tryEach_frame (fun acc : List RestartOutcome × World => lifeOf c acc.2) before
      (fun b hb acc => congrArg Prod.fst (restartChild_frame env now acc (hc b hb))) _
  rw [hloop]
  exact lifeOf_lock_frame (fun _ _ => rfl)

/-- A completed loop has put every storming child of the list into backoff. -/
theorem restarted_storming {before : List (String × String)} {c : String} {w : World}
    (hnodup : (before.map Prod.fst).Nodup) (hc : (c, c) ∈ before)
    (hdone : (restarted env now w before).1 = .ok ())
    (hdelay : ((lifeOf c w).tracker.record now).1 ≠ 0) :
    lifeOf c (restarted env now w before).2.2 = (lifeOf c w).backedOff now := by
  have hstart : lifeOf c (restartStart env w) = lifeOf c w :=
    lifeOf_lock_frame (fun _ _ => rfl)
  have hproject := tryEach_project (restartChild env now) (fun _ => True)
    (fun acc : List RestartOutcome × World => lifeOf c acc.2) Prod.fst hnodup hc
    (fun _ _ _ _ => trivial)
    (fun b _ hne acc => congrArg Prod.fst (restartChild_frame env now acc hne))
    ([], restartStart env w) trivial
  rcases hproject with ⟨e, herror, -⟩ | ⟨acc, -, hlife, hlife', -⟩
  · rw [restarted, herror] at hdone
    cases hdone
  · have hsame : lifeOf c acc.2 = lifeOf c w := hlife.trans hstart
    have hown : lifeOf c (restartChild env now acc (c, c)).2.2 = (lifeOf c acc.2).backedOff now :=
      congrArg Prod.fst (restartChild_backedOff env acc c (by rw [hsame]; exact hdelay))
    rw [hsame] at hown
    exact hlife'.trans hown

/-- A loop that leaves with an error reached a child that may be launched and whose
launch fails. -/
theorem restartLoop_error_iff {w : World} (hnodup : w.view.names.Nodup)
    {before after : List (String × String)} {child : String × String}
    (hsplit : exitedChildren w.view = before ++ child :: after) :
    (∃ e, (restartChild env now (restarted env now w before).2 child).1 = .error e) ↔
      delay now w child.1 = 0 ∧
        ∃ e, env.spawner.start (restarted env now w before).2.2.log
          (relaunchSpec child.1 child.2) = .error e := by
  have hreached : lifeOf child.1 (restarted env now w before).2.2 = lifeOf child.1 w :=
    restarted_frame (exitedChildren_split hnodup hsplit).2 w
  have hdelay : ((((restarted env now w before).2.2.trackers child.1).getD default).record
      now).1 = delay now w child.1 :=
    congrArg (fun l => (l.tracker.record now).1) hreached
  rw [restartChild_error_iff, hdelay]

/-- A pass loses a wake-up time exactly when its restart phase puts some child
into backoff and leaves with an error. -/
theorem losesWakeUp_iff {w : World} (hnodup : w.view.names.Nodup) :
    LosesWakeUp env now w ↔
      ¬RestartCompletes env now w ∧
        ∃ c, (lifeOf c w).status = some .exited ∧ ((lifeOf c w).tracker.record now).1 ≠ 0 ∧
          lifeOf c (restartPhase env now w) = (lifeOf c w).backedOff now := by
  constructor
  · rintro ⟨before, child, after, e, hsplit, ⟨storming, hmem, hdelay⟩, hchild, hdone, hstart⟩
    obtain ⟨hkeys, hne⟩ := exitedChildren_split hnodup hsplit
    obtain ⟨e', herror⟩ := (restartLoop_error_iff hnodup hsplit).mpr ⟨hchild, e, hstart⟩
    have hloop : restartLoop env now w =
        (.error e', (restartChild env now (restarted env now w before).2 child).2) := by
      unfold restartLoop
      rw [hsplit, tryEach_append_ok hdone]
      exact tryEach_cons_error herror
    have hnot : ¬RestartCompletes env now w := by
      rw [restartCompletes_iff, hloop]
      simp
    obtain ⟨hstatus, hself⟩ := (mem_exitedChildren_iff hnodup).mp
      (show storming ∈ exitedChildren w.view by rw [hsplit]; exact List.mem_append_left _ hmem)
    have hpair : (storming.1, storming.1) ∈ before := hself ▸ hmem
    refine ⟨hnot, storming.1, hstatus, hdelay, ?_⟩
    rw [restartPhase_stopped hnot, hloop]
    exact (congrArg Prod.fst (restartChild_frame env now _ (hne storming hmem).symm)).trans
      (restarted_storming hkeys hpair hdone hdelay)
  · rintro ⟨hnot, c, hstatus, hdelay, hbackedOff⟩
    have herror : ∃ e, (restartLoop env now w).1 = .error e := by
      rcases outcome_cases (restartLoop env now w).1 with hok | herror
      · exact absurd ((restartCompletes_iff env now w).mpr hok) hnot
      · exact herror
    obtain ⟨e, herror⟩ := herror
    obtain ⟨before, child, after, hsplit, hdone, hstop⟩ := tryEach_stop herror
    obtain ⟨hchild, e', hstart⟩ :=
      (restartLoop_error_iff hnodup hsplit).mp ⟨e, congrArg Prod.fst hstop⟩
    by_cases hmem : (c, c) ∈ before
    · exact ⟨before, child, after, e', hsplit, ⟨(c, c), hmem, hdelay⟩, hchild, hdone, hstart⟩
    · -- A child behind the failed launch, or that child itself, has not been put into backoff.
      exfalso
      have hbefore : ∀ b ∈ before, b.1 ≠ c := by
        rintro b hb rfl
        have hself := ((mem_exitedChildren_iff hnodup).mp
          (show b ∈ exitedChildren w.view by rw [hsplit]; exact List.mem_append_left _ hb)).2
        exact hmem (hself ▸ hb)
      have hne : child.1 ≠ c := by
        rintro rfl
        exact hdelay hchild
      have hworld : restartPhase env now w =
          (restartChild env now (restarted env now w before).2 child).2.2 :=
        (restartPhase_stopped hnot).trans
          (congrArg (fun r => r.2.2) hstop).symm
      have hsame : lifeOf c (restartPhase env now w) = lifeOf c w := by
        rw [hworld]
        exact (congrArg Prod.fst (restartChild_frame env now _ hne)).trans
          (restarted_frame hbefore w)
      have hbackoff := (Life.backedOff_spec hstatus now).1
      rw [← hbackedOff, hsame, hstatus] at hbackoff
      cases hbackoff

end Loop

/-! ## Runs -/

variable {env : Environment}

/-- A pass that loses no wake-up time keeps the schedule of every child. -/
theorem observerPass_scheduled {w : World} (hnodup : w.view.names.Nodup) (now : Instant)
    (hkept : ¬LosesWakeUp env now (observed env now w)) (c : String)
    (hc : (lifeOf c w).Scheduled) : (lifeOf c (observerPass env now w)).Scheduled := by
  have hobserved : (observed env now w).view.names.Nodup :=
    (observed_continues env now w).nodup hnodup
  have hpass : (lifeOf c (observed env now w)).pass = some now :=
    (observed_continues env now w).pass_eq
  obtain ⟨hobserves, hrestarts⟩ := observerPass_life hnodup env now c
  apply Life.restarts_scheduled hrestarts hpass
  · intro hstatus hdelay hbackedOff
    by_contra hstop
    exact hkept ((losesWakeUp_iff hobserved).mpr ⟨hstop, c, hstatus, hdelay, hbackedOff⟩)
  · exact Life.observes_scheduled hobserves (Life.clear_scheduled hc now)

/-- A pass that loses a wake-up time breaks the schedule. -/
theorem observerPass_not_scheduled {w : World} (hnodup : w.view.names.Nodup) (now : Instant)
    (hloses : LosesWakeUp env now (observed env now w))
    (hunscheduled : ∀ c, (lifeOf c (observed env now w)).Unscheduled) :
    ¬BackoffScheduled (observerPass env now w) := by
  have hobserved : (observed env now w).view.names.Nodup :=
    (observed_continues env now w).nodup hnodup
  obtain ⟨-, c, hstatus, -, hbackedOff⟩ := (losesWakeUp_iff hobserved).mp hloses
  intro hscheduled
  obtain ⟨entered, -, hdue⟩ := ((backoffScheduled_iff_life _).mp hscheduled c).1 (by
    rw [observerPass_eq, hbackedOff]
    exact (Life.backedOff_spec hstatus now).1)
  rw [observerPass_eq, hbackedOff, Life.backedOff_due, hunscheduled c (by rw [hstatus]; decide)]
    at hdue
  cases hdue

/-- Only children in backoff ever have a wake-up time, between the phases too. -/
theorem observed_unscheduled (times : List Instant) (now : Instant) (c : String) :
    (lifeOf c (observed env now (run env times))).Unscheduled := by
  have hrun := Life.unscheduled_of_run (run_refines env times c)
  have hcleared : (((lifeOf c (run env times)).enter now).clear now).Unscheduled := by
    by_cases hexpired : ((lifeOf c (run env times)).enter now).Expired now
    · exact fun _ => (Life.clear_spec hexpired).2.1
    · rw [Life.clear_of_not_expired hexpired]
      exact hrun
  exact ((Life.unscheduled_invariant fun _ _ => True).observes
    (observerPass_life (run_nodup env times) env now c).1 hcleared).1

/-- A run keeps the backoff schedule exactly as long as none of its passes loses a
wake-up time. -/
theorem backoffScheduled_iff (env : Environment) (times : List Instant) :
    (∀ pre, pre <+: times → BackoffScheduled (run env pre)) ↔
      ∀ pre now, pre ++ [now] <+: times →
        ¬LosesWakeUp env now (observed env now (run env pre)) := by
  constructor
  · intro h pre now hpre hloses
    have hscheduled := h _ hpre
    rw [run_snoc] at hscheduled
    exact observerPass_not_scheduled (run_nodup env pre) now hloses
      (observed_unscheduled pre now) hscheduled
  · intro h pre hpre
    rw [backoffScheduled_iff_life]
    intro c
    refine ⟨?_, Life.unscheduled_of_run (run_refines env pre c)⟩
    induction pre using List.reverseRecOn with
    | nil =>
        obtain ⟨completed, hstarts⟩ := startSpecs_starts canonicalChildren_nodup env c
        exact fun hbackoff => absurd hbackoff
          (Life.starts_status (lifeOf_new_fresh c) hstarts).2
    | append_singleton pre now ih =>
        rw [run_snoc]
        exact observerPass_scheduled (run_nodup env pre) now (h pre now hpre) c
          (ih ((List.prefix_append pre [now]).trans hpre))

/-- {lit}`wm-audio` dies again and again; {lit}`wm-tts` starts once, dies later and
then fails to start. -/
def stormThenFailure : Environment where
  spawner :=
    { start := fun log spec =>
        if spec.name = "wm-audio" then .ok ⟨spec.name, 1, 1⟩
        else if spec.name = "wm-tts" then
          if log.length < 20 then .ok ⟨spec.name, 2, 1⟩ else .error ⟨["spawn failed"]⟩
        else .ok ⟨spec.name, 3, 1⟩
      stillRunning := fun log pid =>
        if pid = 1 then .ok false
        else if pid = 2 then .ok (decide (log.length < 40))
        else .ok true }
  clients := Clients.quiet

/-- The schedule is lost when a launch fails behind a child that entered backoff. -/
theorem backoffSchedule_lost :
    ¬∀ (env : Environment) (times : List Instant), times.Pairwise (· ≤ ·) →
      BackoffScheduled (run env times) := by
  intro h
  let times : List Instant := (List.range 5).map Duration.fromSecs
  have hstatus : (run stormThenFailure times).view.status "wm-audio" = some .backoff := by
    decide +kernel
  have hdue : (run stormThenFailure times).backoffUntil "wm-audio" = none := by
    decide +kernel
  obtain ⟨entered, -, hscheduled⟩ :=
    (h stormThenFailure times (by decide)).scheduled "wm-audio" hstatus
  rw [hdue] at hscheduled
  cases hscheduled

end Supervisor
end Wintermute
