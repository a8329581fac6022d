import Wintermute.Supervisor.StormControl

/-!
# Retries after a backoff

A backoff lasts half as long as the rolling window, so the records of the storm
can still fill the window when the backoff ends.  The pass that wakes the child
then records another restart, finds the threshold reached and puts the child back
into backoff without launching it.

Main results:

- Theorem {lit}`Life.ordered_invariant`: the tracker's history is sorted.
- Theorem {lit}`observerPass_retries_iff`: one pass that wakes a child.
- Theorem {lit}`expiryRetries_iff`: a run retries at every expiry exactly when the
  window then holds at most three records.
- Theorem {lit}`expiry_without_retry`: a run that does not.
-/

namespace Wintermute
namespace Supervisor

open Foundation

/-! ## Expiry and retry -/

/-- The pass at {lit}`now` flips the child from backoff to exited. -/
def WakesUp (env : Environment) (now : Instant) (c : String) (w : World) : Prop :=
  w.view.status c = some .backoff ∧ (cleared env now w).view.status c = some .exited

/-- The pass at {lit}`now` calls the launcher for the child and does not put it
into backoff. -/
def Retries (env : Environment) (now : Instant) (c : String) (w : World) : Prop :=
  (∃ calls, calls ≠ [] ∧ attempts c (observerPass env now w) = calls ++ attempts c w) ∧
    (observerPass env now w).view.status c ≠ some .backoff

/-- The rolling window ending now has room for the record of one more restart. -/
def HasRoom (now : Instant) (c : String) (w : World) : Prop :=
  ((w.trackers c).getD default).history.countP
      (fun t => now ≤ t + Duration.fromSecs restartWindowSecs) <
    restartStormThreshold.toNat - 1

/-- No call of the spawner fails. -/
structure NeverFails (spawner : Spawner) : Prop where
  start : ∀ log spec, ∃ child, spawner.start log spec = .ok child
  stillRunning : ∀ log pid, ∃ alive, spawner.stillRunning log pid = .ok alive

/-! ## The tracker's history is sorted -/

namespace Life

variable {l : Life} {now : Instant}

/-- The history is sorted and holds nothing later than the present pass. -/
structure Ordered (l : Life) : Prop where
  standard : l.tracker.Standard
  sorted : l.tracker.history.Pairwise (· ≤ ·)
  past : ∀ t ∈ l.tracker.history, ∃ last, l.pass = some last ∧ t ≤ last

/-- Only the tracker and the pass matter. -/
theorem Ordered.congr {l l' : Life} (h : l.Ordered) (htracker : l'.tracker = l.tracker)
    (hpass : l'.pass = l.pass) : l'.Ordered := by
  refine ⟨?_, ?_, ?_⟩
  · rw [htracker]
    exact h.standard
  · rw [htracker]
    exact h.sorted
  · rw [htracker, hpass]
    exact h.past

/-- Recording a restart in the present pass keeps the history sorted. -/
theorem Ordered.record {l l' : Life} (h : l.Ordered) (hpass : l.pass = some now)
    (htracker : l'.tracker = (l.tracker.record now).2) (hpass' : l'.pass = l.pass) :
    l'.Ordered := by
  have hold : ∀ t ∈ prune l.tracker.window now l.tracker.history, t ≤ now := by
    intro t ht
    obtain ⟨last, hlast, hle⟩ := h.past t (mem_of_mem_prune ht)
    rw [hpass] at hlast
    cases hlast
    exact hle
  refine ⟨?_, ?_, ?_⟩
  · rw [htracker]
    exact RestartTracker.record_standard h.standard now
  · rw [htracker, RestartTracker.record_history]
    exact List.pairwise_append.mpr ⟨prune_sorted h.sorted, List.pairwise_singleton _ _,
      fun t ht u hu => by rw [List.mem_singleton.mp hu]; exact hold t ht⟩
  · rw [htracker, RestartTracker.record_history, hpass', hpass]
    intro t ht
    refine ⟨now, rfl, ?_⟩
    rcases List.mem_append.mp ht with ht | ht
    · exact hold t ht
    · exact (List.mem_singleton.mp ht).le

/-- The history is sorted along every run with ordered passes. -/
theorem ordered_invariant : Invariant (· ≤ ·) Ordered where
  fresh l hfresh := by
    refine ⟨?_, ?_, ?_⟩
    · rw [hfresh.tracker_eq]
      exact RestartTracker.standard_default
    · rw [hfresh.tracker_eq]
      exact List.Pairwise.nil
    · rw [hfresh.tracker_eq]
      intro t ht
      cases ht
  started l spec answer hfresh := by
    refine ⟨?_, ?_, ?_⟩
    · rw [started_tracker, hfresh.tracker_eq]
      exact RestartTracker.standard_default
    · rw [started_tracker, hfresh.tracker_eq]
      exact List.Pairwise.nil
    · rw [started_tracker, hfresh.tracker_eq]
      intro t ht
      cases ht
  enter l now hl hlast := by
    refine ⟨hl.standard, hl.sorted, ?_⟩
    intro t ht
    obtain ⟨last, hpass, hle⟩ := hl.past t ht
    exact ⟨now, rfl, hle.trans (hlast last hpass)⟩
  clear l now hl _ _ := hl.congr (clear_tracker l now) (clear_pass l now)
  probed l pid answer hl _ := hl.congr (probed_tracker l pid answer) (probed_pass l pid answer)
  launched l now spec answer hl hpass _ _ :=
    hl.record hpass (launched_tracker l now spec answer) (launched_pass l now spec answer)
  backedOff l now due hl hpass _ _ _ :=
    hl.record hpass (backedOff_tracker l now) (backedOff_pass l now)

/-- A restart is launched exactly when the window has room for its record. -/
theorem Ordered.record_isZero_iff (h : l.Ordered) (now : Instant) :
    (l.tracker.record now).1 = 0 ↔
      l.tracker.history.countP (fun t => now ≤ t + Duration.fromSecs restartWindowSecs) <
        restartStormThreshold.toNat - 1 := by
  have hlength : (l.tracker.record now).2.history.length =
      l.tracker.history.countP (fun t => now ≤ t + Duration.fromSecs restartWindowSecs) + 1 := by
    rw [RestartTracker.record_history, h.standard.window_eq, prune_eq_filter h.sorted,
      List.length_append, ← List.countP_eq_length_filter]
    rfl
  rw [RestartTracker.record_isZero_iff h.standard, hlength]
  exact Nat.lt_sub_iff_add_lt.symm

end Life

/-! ## One pass -/

variable {env : Environment} {c : String} {now : Instant}

/-- In a pass that wakes the child, the restart phase finds it as the clearing
phase left it. -/
theorem observed_of_wakesUp {w : World} (hnodup : w.view.names.Nodup)
    (hwakes : WakesUp env now c w) :
    ((lifeOf c w).enter now).Expired now ∧
      lifeOf c (observed env now w) = ((lifeOf c w).enter now).clear now := by
  have hcleared := lifeOf_cleared hnodup env now c
  have hexited : (((lifeOf c w).enter now).clear now).status = some .exited := by
    rw [← hcleared]
    exact hwakes.2
  refine ⟨?_, ?_⟩
  · by_contra hnot
    rw [Life.clear_of_not_expired hnot] at hexited
    have hboth : some ChildStatus.backoff = some ChildStatus.exited :=
      hwakes.1.symm.trans hexited
    cases hboth
  · exact (observerPass_life hnodup env now c).1.eq_self (by rw [hexited]; decide)

/-- A pass of a spawner that never fails retries a child it wakes exactly when the
window has room. -/
theorem observerPass_retries_iff {w : World} (hnodup : w.view.names.Nodup)
    (hspawner : NeverFails env.spawner) (hordered : (lifeOf c w).Ordered)
    (hwakes : WakesUp env now c w) : Retries env now c w ↔ HasRoom now c w := by
  obtain ⟨hexpired, hobserved⟩ := observed_of_wakesUp hnodup hwakes
  have hcompletes : RestartCompletes env now (observed env now w) :=
    restartCompletes_of_start (fun log spec _ => hspawner.start log spec) now
  have hrestarts := (observerPass_life hnodup env now c).2
  have hattempts : (lifeOf c (observed env now w)).attempts = attempts c w := by
    rw [hobserved, Life.clear_attempts hexpired, ← lifeOf_attempts]
    rfl
  have hpass : (lifeOf c (observed env now w)).pass = some now := by
    rw [hobserved, Life.clear_pass]
    rfl
  have hexited : (lifeOf c (observed env now w)).status = some .exited := by
    rw [hobserved]
    exact (Life.clear_spec hexpired).1
  have htracker : (lifeOf c (observed env now w)).tracker = (lifeOf c w).tracker := by
    rw [hobserved, Life.clear_tracker]
    rfl
  have hroom : HasRoom now c w ↔
      ((lifeOf c (observed env now w)).tracker.record now).1 = 0 := by
    rw [htracker]
    exact (hordered.record_isZero_iff now).symm
  unfold Retries
  rw [hroom, ← lifeOf_attempts c (observerPass env now w), ← lifeOf_status, ← hattempts]
  generalize lifeOf c (observerPass env now w) = after at hrestarts ⊢
  cases hrestarts with
  | idle hstatus => exact absurd hexited hstatus
  | unvisited _ hstop => exact absurd hcompletes hstop
  | forgotten _ _ hstop => exact absurd hcompletes hstop
  | visited spec answer hstatus hdelay _ hok =>
      obtain ⟨child, rfl⟩ := hok hcompletes
      refine iff_of_true ⟨⟨[now], by simp, ?_⟩, ?_⟩ hdelay
      · exact Life.launched_attempts hpass hstatus spec _
      · rw [Life.status_of_runningPid (Life.launched_ok hstatus now spec child).1]
        decide
  | scheduled hstatus hdelay _ =>
      refine iff_of_false ?_ hdelay
      rintro ⟨-, hnot⟩
      exact hnot (Life.backedOff_spec hstatus now).1

/-! ## Runs -/

/-- A run with ordered passes of a spawner that never fails retries a child at
every expiry of its backoff exactly when, at every expiry, the rolling window of
its tracker has room for one more restart below the storm threshold. -/
theorem expiryRetries_iff (env : Environment) (hspawner : NeverFails env.spawner)
    (times : List Instant) (htimes : times.Pairwise (· ≤ ·)) (c : String) :
    (∀ pre now, pre ++ [now] <+: times → WakesUp env now c (run env pre) →
        Retries env now c (run env pre)) ↔
      ∀ pre now, pre ++ [now] <+: times → WakesUp env now c (run env pre) →
        HasRoom now c (run env pre) := by
  have hstep : ∀ pre now, pre ++ [now] <+: times → WakesUp env now c (run env pre) →
      (Retries env now c (run env pre) ↔ HasRoom now c (run env pre)) := by
    intro pre now hpre hwakes
    have hsorted : pre.Pairwise (· ≤ ·) :=
      htimes.sublist ((List.prefix_append pre [now]).trans hpre).sublist
    have hordered := (Life.ordered_invariant.run (run_refines env pre c) hsorted).1
    exact observerPass_retries_iff (run_nodup env pre) hspawner hordered hwakes
  constructor
  · intro h pre now hpre hwakes
    exact (hstep pre now hpre hwakes).mp (h pre now hpre hwakes)
  · intro h pre now hpre hwakes
    exact (hstep pre now hpre hwakes).mpr (h pre now hpre hwakes)

/-- In the crash loop the first expiry comes while the window is still full. -/
theorem expiry_without_retry :
    ¬∀ (env : Environment) (times : List Instant) (c : String), NeverFails env.spawner →
      times.Pairwise (· ≤ ·) → ∀ pre now, pre ++ [now] <+: times →
        WakesUp env now c (run env pre) → Retries env now c (run env pre) := by
  intro h
  have hspawner : NeverFails crashLoop.spawner := ⟨fun _ _ => ⟨_, rfl⟩, fun _ _ => ⟨_, rfl⟩⟩
  let pre : List Instant := [0, 1, 2, 3, 4].map Duration.fromSecs
  let now : Instant := Duration.fromSecs 34
  have hwakes : WakesUp crashLoop now "wm-audio" (run crashLoop pre) := by
    unfold WakesUp
    decide +kernel
  obtain ⟨⟨calls, hcalls, hattempts⟩, -⟩ :=
    h crashLoop (pre ++ [now]) "wm-audio" hspawner (by decide) pre now List.prefix_rfl hwakes
  have hsame : attempts "wm-audio" (observerPass crashLoop now (run crashLoop pre)) =
      attempts "wm-audio" (run crashLoop pre) := by
    decide +kernel
  rw [hsame] at hattempts
  exact hcalls (List.self_eq_append_left.mp hattempts)

/-- When the storm's records have left the window, the crash loop is retried. -/
theorem expiryRetries_crashLoop :
    (∀ pre now, pre ++ [now] <+: [0, 1, 2, 3, 4, 80].map Duration.fromSecs →
        WakesUp crashLoop now "wm-audio" (run crashLoop pre) →
        Retries crashLoop now "wm-audio" (run crashLoop pre)) ↔
      ∀ pre now, pre ++ [now] <+: [0, 1, 2, 3, 4, 80].map Duration.fromSecs →
        WakesUp crashLoop now "wm-audio" (run crashLoop pre) →
        HasRoom now "wm-audio" (run crashLoop pre) :=
  expiryRetries_iff crashLoop ⟨fun _ _ => ⟨_, rfl⟩, fun _ _ => ⟨_, rfl⟩⟩ _ (by decide) "wm-audio"

end Supervisor
end Wintermute
