import Wintermute.Supervisor.StormControl

/-!
# Bounded tracker memory

Recording a restart always appends, and prunes only what is more than a window old.
What bounds the history is the backoff: a full window puts the child to sleep for
half a window, so by the second record after that everything up to the storm has
left.

Main results:

- Theorem {lit}`Life.Bounded.pass`: a pass later than all before keeps the bound.
- Theorem {lit}`tracker_bounded`: a tracker never holds more than one entry above the
  storm threshold.
-/

namespace Wintermute
namespace Supervisor

open Foundation

/-- Length of a backoff. -/
def stormPause : Duration :=
  Duration.fromSecs backoffSecs

namespace Life

variable {l l' : Life} {now : Instant}

/-- A full window is followed by a pause: the child sleeps until a pause after the
last record, or that time has come. -/
def Held (l : Life) : Prop :=
  restartStormThreshold.toNat ≤ l.tracker.history.length →
    ∀ older t, l.tracker.history = older ++ [t] →
      (l.status = some .backoff → ∀ due, l.due = some due → t + stormPause ≤ due) ∧
        (l.status ≠ some .backoff → ∃ last, l.pass = some last ∧ t + stormPause ≤ last)

/-- The tracker's history is bounded, and holds nothing later than the present
pass. -/
structure Bounded (l : Life) : Prop where
  standard : l.tracker.Standard
  paused : Paused restartStormThreshold.toNat stormPause l.tracker.history
  past : ∀ t ∈ l.tracker.history, ∃ last, l.pass = some last ∧ t ≤ last
  held : l.Held

theorem bounded_of_default (htracker : l.tracker = default) : l.Bounded := by
  refine ⟨?_, ?_, ?_, ?_⟩
  · rw [htracker]
    exact RestartTracker.standard_default
  · rw [htracker]
    exact paused_nil _ _
  · rw [htracker]
    intro t ht
    cases ht
  · unfold Held
    rw [htracker]
    intro hfull
    exact absurd hfull (by decide)

/-- The clearing phase wakes a child only after its pause. -/
theorem Held.clear (h : l.Held) (hlast : ∀ last, l.pass = some last → last < now) :
    ((l.enter now).clear now).Held := by
  intro hfull older t hhistory
  rw [clear_tracker] at hfull hhistory
  obtain ⟨hasleep, hawake⟩ := h hfull older t hhistory
  have hpass : ((l.enter now).clear now).pass = some now := clear_pass _ _
  by_cases hexpired : (l.enter now).Expired now
  · obtain ⟨hbackoff, till, hdue, htill⟩ := hexpired
    obtain ⟨hstatus, -, -⟩ := clear_spec ⟨hbackoff, till, hdue, htill⟩
    refine ⟨fun hsleeps => ?_, fun _ => ⟨now, hpass, ?_⟩⟩
    · rw [hstatus] at hsleeps
      cases hsleeps
    · exact le_trans (hasleep hbackoff till hdue) htill
  · rw [clear_of_not_expired hexpired]
    refine ⟨hasleep, fun hstatus => ⟨now, rfl, ?_⟩⟩
    obtain ⟨last, hpass, hle⟩ := hawake hstatus
    exact le_trans hle (hlast last hpass).le

/-- The observation phase moves no child into or out of backoff. -/
theorem Held.observes {answers : UInt32 → Result Bool → Prop} {completed : Prop}
    (h : l.Held) (hobserves : Observes answers completed l l') : l'.Held := by
  cases hobserves with
  | idle _ => exact h
  | unvisited _ _ _ => exact h
  | visited pid answer hpid _ _ =>
      have hrunning : l.status = some .running := status_of_runningPid hpid
      have hstatus : (l.probed pid answer).status ≠ some .backoff := by
        by_cases hdead : answer = .ok false
        · rw [hdead, (probed_dead hpid).1]
          decide
        · rw [probed_alive hdead, note_status, hrunning]
          decide
      intro hfull older t hhistory
      rw [probed_tracker] at hfull hhistory
      rw [probed_pass]
      have hawake := (h hfull older t hhistory).2 (by rw [hrunning]; decide)
      exact ⟨fun hsleeps => absurd hsleeps hstatus, fun _ => hawake⟩

/-- The observation phase keeps the tracker. -/
theorem Observes.tracker_eq {answers : UInt32 → Result Bool → Prop} {completed : Prop}
    (h : Observes answers completed l l') : l'.tracker = l.tracker := by
  cases h with
  | idle _ => rfl
  | unvisited _ _ _ => rfl
  | visited pid answer _ _ _ => exact probed_tracker l pid answer

/-- Recording an exited child in a pass later than all its records keeps the history
paused. -/
theorem Bounded.record (hstandard : l.tracker.Standard)
    (hpaused : Paused restartStormThreshold.toNat stormPause l.tracker.history)
    (hnew : ∀ t ∈ l.tracker.history, t < now) (hheld : l.Held) (hpass : l.pass = some now)
    (hstatus : l.status = some .exited) :
    Paused restartStormThreshold.toNat stormPause (l.tracker.record now).2.history := by
  rw [RestartTracker.record_history, hstandard.window_eq]
  apply hpaused.push (by decide) _ hnew
  · intro hfull older t hhistory
    obtain ⟨last, hlast, hle⟩ := (hheld hfull older t hhistory).2 (by rw [hstatus]; decide)
    rw [hpass] at hlast
    cases hlast
    exact hle
  · intro x
    -- Two backoffs last exactly as long as the window.
    rw [Nat.add_assoc x stormPause stormPause]
    exact Nat.add_le_add_left (by decide) x

/-- The records of a pass are the old ones that are left, and its own. -/
theorem record_past (hpast : ∀ t ∈ l.tracker.history, t ≤ now) :
    ∀ t ∈ (l.tracker.record now).2.history, t ≤ now := by
  intro t ht
  rw [RestartTracker.record_history] at ht
  rcases List.mem_append.mp ht with ht | ht
  · exact hpast t (mem_of_mem_prune ht)
  · exact (List.mem_singleton.mp ht).le

/-- The newest record is the present pass. -/
theorem record_last {older : List Instant} {t : Instant}
    (h : (l.tracker.record now).2.history = older ++ [t]) : t = now := by
  rw [RestartTracker.record_history] at h
  have hlast := (List.append_inj' h rfl).2
  exact (List.cons.inj hlast).1.symm

/-- After a record in the present pass only the rest has to be shown. -/
theorem bounded_of_record (hstandard : l.tracker.Standard)
    (hpaused : Paused restartStormThreshold.toNat stormPause l.tracker.history)
    (hnew : ∀ t ∈ l.tracker.history, t < now) (hheld : l.Held) (hpass : l.pass = some now)
    (hstatus : l.status = some .exited) (htracker : l'.tracker = (l.tracker.record now).2)
    (hpass' : l'.pass = some now) (hheld' : l'.Held) : l'.Bounded := by
  refine ⟨?_, ?_, ?_, hheld'⟩
  · rw [htracker]
    exact RestartTracker.record_standard hstandard now
  · rw [htracker]
    exact Bounded.record hstandard hpaused hnew hheld hpass hstatus
  · rw [htracker, hpass']
    exact fun t ht => ⟨now, rfl, record_past (fun u hu => (hnew u hu).le) t ht⟩

/-- The restart phase keeps the bound: a record that fills the window puts the child
to sleep. -/
theorem Bounded.restarts {answers : ChildSpec → Result StartedChild → Prop}
    {completed : Prop} (hstandard : l.tracker.Standard)
    (hpaused : Paused restartStormThreshold.toNat stormPause l.tracker.history)
    (hnew : ∀ t ∈ l.tracker.history, t < now) (hheld : l.Held) (hpass : l.pass = some now)
    (hunscheduled : l.Unscheduled) (h : Restarts answers completed now l l') :
    l'.Bounded := by
  have hidle : l.Bounded :=
    ⟨hstandard, hpaused, fun t ht => ⟨now, hpass, (hnew t ht).le⟩, hheld⟩
  have hbackedOff : ∀ due, l.status = some .exited →
      (∀ till, due = some till → now + stormPause ≤ till) →
      ({ l.backedOff now with due := due } : Life).Bounded := by
    intro due hstatus hdue
    have hasleep : ({ l.backedOff now with due := due } : Life).status = some .backoff :=
      (backedOff_spec hstatus now).1
    have htracker : ({ l.backedOff now with due := due } : Life).tracker =
        (l.tracker.record now).2 := backedOff_tracker l now
    have hpass' : ({ l.backedOff now with due := due } : Life).pass = some now :=
      (backedOff_pass l now).trans hpass
    refine bounded_of_record hstandard hpaused hnew hheld hpass hstatus htracker hpass' ?_
    intro _ older t hhistory
    rw [htracker] at hhistory
    rw [record_last hhistory]
    exact ⟨fun _ till htill => hdue till htill, fun hawake => absurd hasleep hawake⟩
  cases h with
  | idle _ => exact hidle
  | unvisited _ _ => exact hidle
  | visited spec answer hstatus hdelay _ _ =>
      have htracker := launched_tracker l now spec answer
      have hpass' : (l.launched now spec answer).pass = some now :=
        (launched_pass l now spec answer).trans hpass
      refine bounded_of_record hstandard hpaused hnew hheld hpass hstatus htracker hpass' ?_
      -- A relaunch happens only while the window is not full.
      intro hfull
      rw [htracker] at hfull
      exact absurd ((RestartTracker.record_isZero_iff hstandard now).mp hdelay)
        (not_lt.mpr hfull)
  | scheduled hstatus _ _ =>
      apply hbackedOff _ hstatus
      rintro till htill
      cases htill
      exact le_rfl
  | forgotten hstatus _ _ =>
      have hnone : l.due = none := hunscheduled (by rw [hstatus]; decide)
      have hsame : ({ l.backedOff now with due := l.due } : Life) = l.backedOff now := by
        rw [← backedOff_due l now]
      rw [← hsame]
      apply hbackedOff _ hstatus
      intro till htill
      rw [hnone] at htill
      cases htill

/-- A pass later than all before keeps the bound. -/
theorem Bounded.pass (h : l.Bounded) (hunscheduled : l.Unscheduled)
    (hlast : ∀ last, l.pass = some last → last < now) (hpass : Pass now l l') :
    l'.Bounded := by
  obtain ⟨seen, done₁, done₂, hobserves, hrestarts⟩ := hpass
  have htracker : seen.tracker = l.tracker :=
    hobserves.tracker_eq.trans (clear_tracker _ _)
  have hcleared : ((l.enter now).clear now).Unscheduled := by
    by_cases hexpired : (l.enter now).Expired now
    · exact fun _ => (clear_spec hexpired).2.1
    · rw [clear_of_not_expired hexpired]
      exact hunscheduled
  obtain ⟨hseen, hseen_pass⟩ := (unscheduled_invariant (· < ·)).observes hobserves hcleared
  apply Bounded.restarts _ _ _ ((h.held.clear hlast).observes hobserves)
    (hseen_pass.trans (clear_pass _ _)) hseen hrestarts
  · rw [htracker]
    exact h.standard
  · rw [htracker]
    exact h.paused
  · rw [htracker]
    intro t ht
    obtain ⟨last, hlast_pass, hle⟩ := h.past t ht
    exact lt_of_le_of_lt hle (hlast last hlast_pass)

/-- The bound holds along every run with strictly increasing pass times. -/
theorem bounded_of_run {times : List Instant} (h : Run times l)
    (htimes : times.Pairwise (· < ·)) : l.Bounded := by
  induction h with
  | boot l l' completed hfresh hstarts =>
      cases hstarts with
      | unvisited => exact bounded_of_default hfresh.tracker_eq
      | visited spec answer _ _ =>
          exact bounded_of_default ((started_tracker _ _ _).trans hfresh.tracker_eq)
  | pass times now l l' hrun hpass ih =>
      obtain ⟨hpre, -, hcross⟩ := List.pairwise_append.mp htimes
      obtain ⟨hunscheduled, hlast⟩ := (unscheduled_invariant (· < ·)).run hrun hpre
      apply (ih hpre).pass hunscheduled _ hpass
      intro last hlast_pass
      rw [hlast] at hlast_pass
      exact hcross last (List.mem_of_getLast? hlast_pass) now List.mem_cons_self

end Life

/-! ## Runs -/

/-- After start-up and every pass of a run with strictly increasing pass times, the
history of each tracker holds at most one entry above the storm threshold. -/
theorem tracker_bounded (env : Environment) (times : List Instant)
    (htimes : times.Pairwise (· < ·)) (c : String) (tracker : RestartTracker)
    (htracker : (run env times).trackers c = some tracker) :
    tracker.history.length ≤ restartStormThreshold.toNat + 1 := by
  have hbounded := Life.bounded_of_run (run_refines env times c) htimes
  have hlife : (lifeOf c (run env times)).tracker = tracker := by
    unfold lifeOf
    rw [htracker]
    rfl
  rw [← hlife]
  exact hbounded.paused.length_le

/-- The crash loop keeps a bounded history of a child that it restarts. -/
theorem tracker_bounded_crashLoop :
    ∃ tracker, (run crashLoop stormTimes).trackers "wm-audio" = some tracker ∧
      tracker.history.length ≤ restartStormThreshold.toNat + 1 := by
  have hsome : ((run crashLoop stormTimes).trackers "wm-audio").isSome = true := by
    decide +kernel
  obtain ⟨tracker, htracker⟩ := Option.isSome_iff_exists.mp hsome
  exact ⟨tracker, htracker,
    tracker_bounded crashLoop stormTimes (by decide) "wm-audio" tracker htracker⟩

end Supervisor
end Wintermute
