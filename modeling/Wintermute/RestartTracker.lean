import Wintermute.Clock
import Wintermute.Foundation.SlidingWindow

/-!
# The restart tracker

Restart events of one child in a rolling window, and the delay before its next
start.  A tracker is only ever built by its default constructor, so its window,
threshold and backoff are the constants of the crash policy.

Main results:

- Theorem {lit}`record_history`: recording prunes what has left the window and
  appends the new instant.
- Theorem {lit}`record_isZero_iff`: the delay is zero exactly while the window
  stays below the storm threshold.
- Theorem {lit}`record_standard`: recording keeps the policy constants.
- Theorem {lit}`record_exact_window`: over a nondecreasing run the tracker holds exactly
  the window of the whole log.
-/

namespace Wintermute

/-- Restart-storm rolling window length. -/
def restartWindowSecs : ℕ := 60

/-- Restarts within the window that flip the supervisor into backoff. -/
def restartStormThreshold : UInt32 := 5

/-- Backoff sleep between restarts once in storm. -/
def backoffSecs : ℕ := 30

/-- Restart events in a rolling window.  The history runs oldest first, as the
deque of the source does from front to back. -/
structure RestartTracker where
  window : Duration
  threshold : UInt32
  backoff : Duration
  history : List Instant
deriving DecidableEq, Repr

instance : Inhabited RestartTracker where
  default :=
    { window := Duration.fromSecs restartWindowSecs
      threshold := restartStormThreshold
      backoff := Duration.fromSecs backoffSecs
      history := [] }

namespace RestartTracker

/-- Record a restart at {lit}`now`; return the delay before attempting the next
start: zero below the storm threshold, the backoff at or above it. -/
def record (tracker : RestartTracker) (now : Instant) : Duration × RestartTracker :=
  let pruned :=
    match now.checkedSub tracker.window with
    | some cutoff => tracker.history.dropWhile (fun t => t < cutoff)
    | none => tracker.history
  let recorded := { tracker with history := pruned ++ [now] }
  let delay := if recorded.history.length ≥ recorded.threshold.toNat then recorded.backoff else 0
  (delay, recorded)

/-- The rolling window already holds threshold-many restarts. -/
def inStorm (tracker : RestartTracker) : Bool :=
  tracker.history.length ≥ tracker.threshold.toNat

/-- Number of restarts currently inside the rolling window. -/
def restartsInWindow (tracker : RestartTracker) : ℕ :=
  tracker.history.length

/-- The constants are those of the crash policy. -/
structure Standard (tracker : RestartTracker) : Prop where
  window_eq : tracker.window = Duration.fromSecs restartWindowSecs
  threshold_eq : tracker.threshold = restartStormThreshold
  backoff_eq : tracker.backoff = Duration.fromSecs backoffSecs

theorem standard_default : Standard default :=
  ⟨rfl, rfl, rfl⟩

@[simp]
theorem history_default : (default : RestartTracker).history = [] :=
  rfl

/-- Recording at {lit}`now` prunes the entries more than a window old and appends
{lit}`now`; an unrepresentable cutoff prunes nothing, and then nothing is that
old. -/
theorem record_history (tracker : RestartTracker) (now : Instant) :
    (tracker.record now).2.history =
      Foundation.prune tracker.window now tracker.history ++ [now] := by
  unfold record Instant.checkedSub Foundation.prune
  by_cases hrep : tracker.window ≤ now
  · have hcut : ∀ t : Instant, decide (t < now - tracker.window) =
        decide (t + tracker.window < now) := by
      intro t
      rw [decide_eq_decide]
      exact lt_tsub_iff_right
    simp only [if_pos hrep, hcut]
  · have hnone : tracker.history.dropWhile (fun t => t + tracker.window < now) =
        tracker.history := by
      cases hhist : tracker.history with
      | nil => rfl
      | cons t rest =>
          apply List.dropWhile_cons_of_neg
          simp only [decide_eq_true_eq, not_lt]
          exact (not_le.mp hrep).le.trans (Nat.le_add_left _ _)
    simp only [if_neg hrep, hnone]

theorem record_standard {tracker : RestartTracker} (h : Standard tracker) (now : Instant) :
    Standard (tracker.record now).2 :=
  ⟨h.window_eq, h.threshold_eq, h.backoff_eq⟩

/-- The delay by the length of the recorded window. -/
theorem record_delay {tracker : RestartTracker} (h : Standard tracker) (now : Instant) :
    (tracker.record now).1 =
      if (tracker.record now).2.history.length < restartStormThreshold.toNat then 0
      else Duration.fromSecs backoffSecs := by
  have hdelay : (tracker.record now).1 =
      if (tracker.record now).2.history.length ≥ (tracker.record now).2.threshold.toNat
        then tracker.backoff else 0 := rfl
  rw [hdelay, (record_standard h now).threshold_eq, h.backoff_eq]
  split_ifs <;> first | rfl | omega

/-- The delay is zero exactly while the recorded window is below the storm
threshold. -/
theorem record_isZero_iff {tracker : RestartTracker} (h : Standard tracker) (now : Instant) :
    (tracker.record now).1 = 0 ↔
      (tracker.record now).2.history.length < restartStormThreshold.toNat := by
  have hbackoff : Duration.fromSecs backoffSecs ≠ 0 := by decide
  rw [record_delay h now]
  split_ifs with hroom
  · exact ⟨fun _ => hroom, fun _ => rfl⟩
  · exact ⟨fun hzero => absurd hzero hbackoff, fun hlt => absurd hlt hroom⟩

/-! ## Whole runs -/

/-- The tracker after restarts at these instants, one after the other. -/
def recordAll (tracker : RestartTracker) (times : List Instant) : RestartTracker :=
  times.foldl (fun tracker now => (tracker.record now).2) tracker

/-- The closed interval from one window before {lit}`now` to {lit}`now`; from the
start, when that is not representable. -/
def inWindow (now t : Instant) : Bool :=
  match now.checkedSub (Duration.fromSecs restartWindowSecs) with
  | some cutoff => cutoff ≤ t && t ≤ now
  | none => t ≤ now

/-- The restarts of a log inside the window that ends at {lit}`now`. -/
def windowOf (now : Instant) (log : List Instant) : List Instant :=
  log.filter (inWindow now)

theorem recordAll_append (tracker : RestartTracker) (times : List Instant) (now : Instant) :
    tracker.recordAll (times ++ [now]) = ((tracker.recordAll times).record now).2 := by
  rw [recordAll, List.foldl_append]
  rfl

theorem recordAll_standard {tracker : RestartTracker} (h : Standard tracker)
    (times : List Instant) : Standard (tracker.recordAll times) := by
  induction times using List.reverseRecOn with
  | nil => exact h
  | append_singleton times now ih =>
      rw [recordAll_append]
      exact record_standard ih now

/-- The history is a queue that slides from restart to restart. -/
theorem recordAll_history {tracker : RestartTracker} (h : Standard tracker)
    (times : List Instant) :
    (tracker.recordAll times).history =
      times.foldl (Foundation.slide (Duration.fromSecs restartWindowSecs)) tracker.history := by
  induction times using List.reverseRecOn with
  | nil => rfl
  | append_singleton times now ih =>
      rw [recordAll_append, record_history, (recordAll_standard h times).window_eq, ih,
        List.foldl_append]
      rfl

/-- Up to {lit}`now`, the window is what is at most a window old. -/
theorem inWindow_of_le {now t : Instant} (hle : t ≤ now) :
    inWindow now t = decide (now ≤ t + Duration.fromSecs restartWindowSecs) := by
  unfold inWindow Instant.checkedSub
  rw [Bool.eq_iff_iff]
  split_ifs with hrep
  · simp only [Bool.and_eq_true, decide_eq_true_eq, tsub_le_iff_right]
    exact and_iff_left hle
  · have hin : now ≤ t + Duration.fromSecs restartWindowSecs :=
      (not_le.mp hrep).le.trans (Nat.le_add_left _ t)
    simp only [hle, hin]

/-- After a nondecreasing run the history is the window over all its restarts. -/
theorem recordAll_window {times : List Instant} {now : Instant}
    (hsorted : (times ++ [now]).Pairwise (· ≤ ·)) :
    ((default : RestartTracker).recordAll (times ++ [now])).history =
      windowOf now (times ++ [now]) := by
  have hpast : ∀ t ∈ times ++ [now], t ≤ now := by
    intro t ht
    rcases List.mem_append.mp ht with ht | ht
    · exact (List.pairwise_append.mp hsorted).2.2 t ht now (List.mem_singleton_self now)
    · exact (List.mem_singleton.mp ht).le
  rw [recordAll_history standard_default, history_default,
    Foundation.foldl_slide (fun t => Nat.le_add_right t _) hsorted]
  exact List.filter_congr fun t ht => (inWindow_of_le (hpast t ht)).symm

/-- After every call of a nondecreasing run, the last one at {lit}`now`, the tracker
holds the window over the whole log: its history, its count, its storm verdict and the
delay are those of the window. -/
theorem record_exact_window {times : List Instant} {now : Instant}
    (hsorted : (times ++ [now]).Pairwise (· ≤ ·)) :
    let window := windowOf now (times ++ [now])
    let answer := ((default : RestartTracker).recordAll times).record now
    answer.2.history = window ∧
      answer.2.restartsInWindow = window.length ∧
      answer.2.inStorm = decide (5 ≤ window.length) ∧
      (answer.1 = 0 ↔ window.length < 5) ∧
      (¬ window.length < 5 → answer.1 = Duration.fromSecs backoffSecs) := by
  intro window answer
  have hstandard : Standard ((default : RestartTracker).recordAll times) :=
    recordAll_standard standard_default times
  have hhistory : answer.2.history = window := by
    rw [← recordAll_append]
    exact recordAll_window hsorted
  have hdelay : answer.1 = 0 ↔ window.length < 5 := by
    rw [← hhistory]
    exact record_isZero_iff hstandard now
  refine ⟨hhistory, congrArg List.length hhistory, ?_, hdelay, ?_⟩
  · rw [inStorm, hhistory, (record_standard hstandard now).threshold_eq]
    rfl
  · intro hfull
    rw [record_delay hstandard now]
    exact if_neg (hhistory ▸ hfull)

/-- An entry exactly 60 seconds old is still in the window, an older one is not. -/
theorem record_exact_window_boundary :
    (((default : RestartTracker).recordAll [0, Duration.fromSecs 1]).record
        (Duration.fromSecs 61)).2.history =
      [Duration.fromSecs 1, Duration.fromSecs 61] := by
  have hsorted : ([0, Duration.fromSecs 1] ++ [Duration.fromSecs 61]).Pairwise (· ≤ ·) := by
    decide
  exact (record_exact_window hsorted).1.trans (by decide)

end RestartTracker

end Wintermute
