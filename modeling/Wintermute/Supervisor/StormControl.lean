import Wintermute.Supervisor.History
import Wintermute.Supervisor.Invariant
import Wintermute.Supervisor.Refinement

/-!
# Storm control

A relaunch is attempted only while the pruned history of the tracker stays below
the storm threshold, and the history covers every attempt, so the attempts are
rate limited in every window.  A child that entered backoff is not launched
before its wake-up time.

Main results:

- Theorem {lit}`Life.limited_invariant`: the tracker covers the attempts, and the
  attempts are rate limited.
- Theorem {lit}`Life.rested_invariant`: no attempt follows an entry into backoff
  too early.
- Theorem {lit}`stormControl`: both, for every child along every run.
-/

namespace Wintermute
namespace Supervisor

open Foundation

/-- Length of the rolling window. -/
def stormWindow : Duration :=
  Duration.fromSecs restartWindowSecs

/-- Number of restarts that fit below the storm threshold. -/
def stormCap : ℕ :=
  restartStormThreshold.toNat - 1

namespace Life

variable {l : Life} {now : Instant}

/-! ## Attempts of the steps -/

theorem started_attempts (hfresh : l.Fresh) (spec : ChildSpec) (answer : Result StartedChild) :
    (l.started spec answer).attempts = [] := by
  unfold attempts
  rw [List.filterMap_eq_nil_iff]
  intro e he
  obtain ⟨hpass, -⟩ := started_log hfresh spec answer he
  unfold ChildEvent.attempt
  split
  · exact hpass
  · rfl

theorem clear_attempts (hexpired : l.Expired now) : (l.clear now).attempts = l.attempts := by
  unfold attempts
  rw [(clear_spec hexpired).2.2]
  rfl

theorem probed_attempts {pid : UInt32} (hpid : l.runningPid = some pid)
    (answer : Result Bool) : (l.probed pid answer).attempts = l.attempts := by
  unfold attempts
  by_cases hdead : answer = .ok false
  · rw [hdead, (probed_dead hpid).2]
    rfl
  · rw [probed_alive hdead]
    rfl

/-- A relaunch is an attempt at the time of the pass. -/
theorem launched_attempts (hpass : l.pass = some now) (hstatus : l.status = some .exited)
    (spec : ChildSpec) (answer : Result StartedChild) :
    (l.launched now spec answer).attempts = now :: l.attempts := by
  have hstart : ∀ answer, ChildEvent.attempt ⟨l.pass, .start spec answer⟩ = some now :=
    fun _ => hpass
  unfold attempts
  cases answer with
  | error e =>
      rw [launched_error, note_log]
      exact List.filterMap_cons_some (hstart _)
  | ok child =>
      rw [(launched_ok hstatus now spec child).2, List.filterMap_cons_none rfl]
      exact List.filterMap_cons_some (hstart _)

theorem backedOff_attempts (hstatus : l.status = some .exited) (now : Instant) :
    (l.backedOff now).attempts = l.attempts := by
  unfold attempts
  rw [(backedOff_spec hstatus now).2]
  rfl

/-! ## The tracker covers the attempts -/

/-- The history of the tracker covers the attempts, which are rate limited. -/
structure Limited (l : Life) : Prop where
  standard : l.tracker.Standard
  covers : ∀ now, (∀ last, l.pass = some last → last ≤ now) →
    Covers stormWindow now l.attempts l.tracker.history
  limited : RateLimited stormCap stormWindow l.attempts

/-- Recording a restart prunes by the storm window. -/
theorem Limited.record_history (h : l.Limited) (now : Instant) :
    (l.tracker.record now).2.history = prune stormWindow now l.tracker.history ++ [now] := by
  rw [RestartTracker.record_history, h.standard.window_eq]
  rfl

/-- An attempt is recorded before it is made, and made only below the cap. -/
theorem Limited.attempt (h : l.Limited) (hpass : l.pass = some now)
    (hdelay : (l.tracker.record now).1 = 0) :
    Covers stormWindow now (now :: l.attempts) (l.tracker.record now).2.history ∧
      RateLimited stormCap stormWindow (now :: l.attempts) := by
  have hold : Covers stormWindow now l.attempts l.tracker.history :=
    h.covers now (by simp [hpass])
  have hcovers : Covers stormWindow now (now :: l.attempts)
      (l.tracker.record now).2.history := by
    rw [h.record_history]
    exact hold.prune.push now
  have hroom : (l.tracker.record now).2.history.length < restartStormThreshold.toNat :=
    (RestartTracker.record_isZero_iff h.standard now).mp hdelay
  refine ⟨hcovers, ?_, h.limited⟩
  calc (now :: l.attempts).countP (fun t => now ≤ t + stormWindow)
      ≤ (l.tracker.record now).2.history.length := hcovers.countP_le_length
    _ ≤ stormCap := Nat.le_sub_one_of_lt hroom

/-- A child with an unused tracker and no attempts is covered. -/
theorem limited_of_unused (htracker : l.tracker = default) (hattempts : l.attempts = []) :
    l.Limited := by
  refine ⟨?_, ?_, ?_⟩
  · rw [htracker]
    exact RestartTracker.standard_default
  · intro now _ later _
    simp [hattempts]
  · rw [hattempts]
    trivial

/-- The tracker covers the attempts along every run with ordered passes. -/
theorem limited_invariant : Invariant (· ≤ ·) Limited where
  fresh l hfresh := by
    refine limited_of_unused hfresh.tracker_eq ?_
    unfold attempts
    rw [hfresh.log_eq]
    rfl
  started l spec answer hfresh := by
    refine limited_of_unused ?_ (started_attempts hfresh spec answer)
    rw [started_tracker, hfresh.tracker_eq]
  enter l now hl hlast := by
    refine ⟨hl.standard, ?_, hl.limited⟩
    intro later hlater
    have hle : now ≤ later := hlater now rfl
    exact hl.covers later (fun last hpass => (hlast last hpass).trans hle)
  clear l now hl hpass hexpired := by
    refine ⟨?_, ?_, ?_⟩
    · rw [clear_tracker]
      exact hl.standard
    · rw [clear_attempts hexpired, clear_tracker, clear_pass]
      exact hl.covers
    · rw [clear_attempts hexpired]
      exact hl.limited
  probed l pid answer hl hpid := by
    refine ⟨?_, ?_, ?_⟩
    · rw [probed_tracker]
      exact hl.standard
    · rw [probed_attempts hpid, probed_tracker, probed_pass]
      exact hl.covers
    · rw [probed_attempts hpid]
      exact hl.limited
  launched l now spec answer hl hpass hstatus hdelay := by
    obtain ⟨hcovers, hlimited⟩ := hl.attempt hpass hdelay
    refine ⟨?_, ?_, ?_⟩
    · rw [launched_tracker]
      exact RestartTracker.record_standard hl.standard now
    · rw [launched_attempts hpass hstatus, launched_tracker, launched_pass]
      intro later hlater
      exact hcovers.mono (hlater now hpass)
    · rw [launched_attempts hpass hstatus]
      exact hlimited
  backedOff l now due hl hpass hstatus _ _ := by
    refine ⟨?_, ?_, ?_⟩
    · change (l.backedOff now).tracker.Standard
      rw [backedOff_tracker]
      exact RestartTracker.record_standard hl.standard now
    · change ∀ later, (∀ last, (l.backedOff now).pass = some last → last ≤ later) →
        Covers stormWindow later (l.backedOff now).attempts (l.backedOff now).tracker.history
      rw [backedOff_attempts hstatus, backedOff_tracker, backedOff_pass, hl.record_history]
      intro later hlater
      have hold : Covers stormWindow now l.attempts l.tracker.history :=
        hl.covers now (by simp [hpass])
      exact (hold.prune.skip now).mono (hlater now hpass)
    · change RateLimited stormCap stormWindow (l.backedOff now).attempts
      rw [backedOff_attempts hstatus]
      exact hl.limited

/-! ## No attempt before the wake-up time -/

/-- No attempt of the history follows an entry into backoff by less than one
backoff. -/
def RestedLog (log : List ChildEvent) : Prop :=
  log.Pairwise fun later earlier => ∀ t b, later.attempt = some t →
    earlier.entersBackoff = true → earlier.pass = some b →
    b + Duration.fromSecs backoffSecs ≤ t

/-- The history puts the child into backoff in the pass at {lit}`b`. -/
def EnteredAt (b : Instant) (log : List ChildEvent) : Prop :=
  ∃ e ∈ log, e.entersBackoff = true ∧ e.pass = some b

/-- A child in backoff stays there for one backoff, and a child outside it has
waited that long. -/
structure Rested (l : Life) : Prop where
  unscheduled : l.Unscheduled
  log : RestedLog l.log
  asleep : l.status = some .backoff → ∀ b due, EnteredAt b l.log → l.due = some due →
    b + Duration.fromSecs backoffSecs ≤ due
  awake : l.status ≠ some .backoff → ∀ b, EnteredAt b l.log →
    ∃ last, l.pass = some last ∧ b + Duration.fromSecs backoffSecs ≤ last

theorem RestedLog.quiet {log : List ChildEvent} (h : RestedLog log) {e : ChildEvent}
    (he : e.attempt = none) : RestedLog (e :: log) := by
  refine List.pairwise_cons.mpr ⟨?_, h⟩
  intro earlier _ t b ht
  rw [he] at ht
  cases ht

theorem enteredAt_quiet {b : Instant} {log : List ChildEvent} {e : ChildEvent}
    (he : e.entersBackoff = false) : EnteredAt b (e :: log) ↔ EnteredAt b log := by
  unfold EnteredAt
  simp [he]

/-- Outside backoff the present pass is late enough for an attempt. -/
theorem Rested.attempt (h : l.Rested)
    (hstatus : l.status ≠ some .backoff) (spec : ChildSpec) (answer : Result StartedChild) :
    RestedLog (⟨l.pass, .start spec answer⟩ :: l.log) := by
  refine List.pairwise_cons.mpr ⟨?_, h.log⟩
  intro earlier hearlier t b ht henters hb
  obtain ⟨last, hlast, hle⟩ := h.awake hstatus b ⟨earlier, hearlier, henters, hb⟩
  have hte : some t = some last := ht.symm.trans hlast
  cases hte
  exact hle

/-- What a step must do for the child to stay awake: record no entry, in the same
pass. -/
theorem Rested.keep {l l' : Life} (h : l.Rested) (hunscheduled : l'.Unscheduled)
    (hlog : RestedLog l'.log)
    (hstatus : l.status ≠ some .backoff) (hstatus' : l'.status ≠ some .backoff)
    (hpass : l'.pass = l.pass) (hentered : ∀ b, EnteredAt b l'.log → EnteredAt b l.log) :
    l'.Rested := by
  refine ⟨hunscheduled, hlog, fun hbackoff => absurd hbackoff hstatus', ?_⟩
  intro _ b hb
  rw [hpass]
  exact h.awake hstatus b (hentered b hb)

/-- A child whose history has no pass yet has never entered backoff. -/
theorem rested_of_noPass (hunscheduled : l.Unscheduled) (hlog : ∀ e ∈ l.log, e.pass = none) :
    l.Rested := by
  have hnever : ∀ b, ¬EnteredAt b l.log := by
    rintro b ⟨e, he, -, hb⟩
    rw [hlog e he] at hb
    cases hb
  refine ⟨hunscheduled, ?_, fun _ b _ hb => absurd hb (hnever b),
    fun _ b hb => absurd hb (hnever b)⟩
  apply List.pairwise_of_forall_mem_list
  intro later _ earlier hearlier t b _ _ hb
  rw [hlog earlier hearlier] at hb
  cases hb

/-- The child rests along every run with ordered passes. -/
theorem rested_invariant : Invariant (· ≤ ·) Rested where
  fresh l hfresh := by
    refine rested_of_noPass ((unscheduled_invariant (· ≤ ·)).fresh l hfresh) ?_
    rw [hfresh.log_eq]
    exact fun e he => absurd he List.not_mem_nil
  started l spec answer hfresh :=
    rested_of_noPass ((unscheduled_invariant (· ≤ ·)).started l spec answer hfresh)
      fun e he => (started_log hfresh spec answer he).1
  enter l now hl hlast := by
    refine ⟨hl.unscheduled, hl.log, hl.asleep, ?_⟩
    intro hstatus b hb
    obtain ⟨last, hpass, hle⟩ := hl.awake hstatus b hb
    exact ⟨now, rfl, hle.trans (hlast last hpass)⟩
  clear l now hl hpass hexpired := by
    obtain ⟨hstatus, hdue, hlog⟩ := clear_spec hexpired
    obtain ⟨hbackoff, till, htill, hle⟩ := hexpired
    refine ⟨fun _ => hdue, ?_, ?_, ?_⟩
    · rw [hlog]
      exact hl.log.quiet rfl
    · rw [hstatus]
      intro h
      cases h
    · intro _ b hb
      rw [hlog, enteredAt_quiet rfl] at hb
      rw [clear_pass]
      exact ⟨now, hpass, (hl.asleep hbackoff b till hb htill).trans hle⟩
  probed l pid answer hl hpid := by
    have hrunning : l.status ≠ some .backoff := by
      rw [status_of_runningPid hpid]
      decide
    have hunscheduled := (unscheduled_invariant (· ≤ ·)).probed l pid answer hl.unscheduled hpid
    by_cases hdead : answer = .ok false
    · subst hdead
      obtain ⟨hstatus, hlog⟩ := probed_dead hpid
      refine hl.keep hunscheduled ?_ hrunning ?_ (probed_pass _ _ _) ?_
      · rw [hlog]
        exact (hl.log.quiet rfl).quiet rfl
      · rw [hstatus]
        decide
      · intro b hb
        rw [hlog, enteredAt_quiet rfl, enteredAt_quiet rfl] at hb
        exact hb
    · rw [probed_alive hdead] at hunscheduled ⊢
      exact hl.keep hunscheduled (hl.log.quiet rfl) hrunning hrunning rfl
        (fun b hb => (enteredAt_quiet rfl).mp hb)
  launched l now spec answer hl hpass hstatus hdelay := by
    have hexited : l.status ≠ some .backoff := by
      rw [hstatus]
      decide
    have hunscheduled := (unscheduled_invariant (· ≤ ·)).launched l now spec answer
      hl.unscheduled hpass hstatus hdelay
    have hlog := hl.attempt hexited spec
    cases answer with
    | error e =>
        rw [launched_error] at hunscheduled ⊢
        exact hl.keep hunscheduled (hlog _) hexited hexited rfl
          (fun b hb => (enteredAt_quiet rfl).mp hb)
    | ok child =>
        obtain ⟨hpid, hlaunched⟩ := launched_ok hstatus now spec child
        refine hl.keep hunscheduled ?_ hexited ?_ (launched_pass _ _ _ _) ?_
        · rw [hlaunched]
          exact (hlog _).quiet rfl
        · rw [status_of_runningPid hpid]
          decide
        · intro b hb
          rw [hlaunched, enteredAt_quiet rfl, enteredAt_quiet rfl] at hb
          exact hb
  backedOff l now due hl hpass hstatus _ hdue := by
    obtain ⟨hbackoff, hlog⟩ := backedOff_spec hstatus now
    have hexited : l.status ≠ some .backoff := by
      rw [hstatus]
      decide
    refine ⟨fun h => absurd hbackoff h, ?_, ?_, fun h => absurd hbackoff h⟩
    · change RestedLog (l.backedOff now).log
      rw [hlog]
      exact hl.log.quiet rfl
    · intro _ b till hb htill
      change due = some till at htill
      -- A forgotten wake-up time leaves none behind; a scheduled one is the newest.
      rcases hdue with hdue | hdue
      · rw [hdue, hl.unscheduled hexited] at htill
        cases htill
      · rw [hdue] at htill
        cases htill
        apply Nat.add_le_add_right
        change EnteredAt b (l.backedOff now).log at hb
        rw [hlog] at hb
        obtain ⟨e, he, henters, hpassb⟩ := hb
        rcases List.mem_cons.mp he with rfl | he
        · have hsame : some b = some now := hpassb.symm.trans hpass
          cases hsame
          exact le_rfl
        · obtain ⟨last, hlast, hle⟩ := hl.awake hexited b ⟨e, he, henters, hpassb⟩
          have hsame : some last = some now := hlast.symm.trans hpass
          cases hsame
          exact (Nat.le_add_right _ _).trans hle

end Life

/-! ## Runs -/

/-- Every launch succeeds and no process is ever found alive. -/
def crashLoop : Environment where
  spawner :=
    { start := fun _ spec => .ok ⟨spec.name, 1, 1⟩
      stillRunning := fun _ _ => .ok false }
  clients := Clients.quiet

/-- Five passes one second apart, and one more when the first backoff has
elapsed. -/
def stormTimes : List Instant :=
  [0, 1, 2, 3, 4, 34].map Duration.fromSecs

/-- Along every run with ordered passes, the restart phase attempts to launch a
child fewer times than the storm threshold in every closed window, and never
within one backoff after the child entered backoff. -/
theorem stormControl (env : Environment) (times : List Instant)
    (htimes : times.Pairwise (· ≤ ·)) (c : String) :
    (∀ start, (attempts c (run env times)).countP
        (fun t => start ≤ t ∧ t ≤ start + Duration.fromSecs restartWindowSecs) ≤
          restartStormThreshold.toNat - 1) ∧
      (run env times).log.Pairwise fun later earlier => ∀ t b,
        later.attempt c = some t → earlier.entersBackoff c = true → earlier.pass = some b →
          b + Duration.fromSecs backoffSecs ≤ t := by
  constructor
  · intro start
    have hlimited := (Life.limited_invariant.run (run_refines env times c) htimes).1.limited
    rw [lifeOf_attempts] at hlimited
    exact hlimited.countP_window_le start
  · exact pairwise_attempts (R := fun b t => b + Duration.fromSecs backoffSecs ≤ t)
      (Life.rested_invariant.run (run_refines env times c) htimes).1.log

/-- In the crash loop the bound is met: four attempts, then backoff. -/
theorem stormControl_crashLoop :
    attempts "wm-audio" (run crashLoop stormTimes) = [3, 2, 1, 0].map Duration.fromSecs ∧
      (∀ start, (attempts "wm-audio" (run crashLoop stormTimes)).countP
        (fun t => start ≤ t ∧ t ≤ start + Duration.fromSecs restartWindowSecs) ≤
          restartStormThreshold.toNat - 1) ∧
      (run crashLoop stormTimes).log.Pairwise fun later earlier => ∀ t b,
        later.attempt "wm-audio" = some t → earlier.entersBackoff "wm-audio" = true →
          earlier.pass = some b → b + Duration.fromSecs backoffSecs ≤ t :=
  ⟨by decide +kernel, stormControl crashLoop stormTimes (by decide) "wm-audio"⟩

end Supervisor
end Wintermute
