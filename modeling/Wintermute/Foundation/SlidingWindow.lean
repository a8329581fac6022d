import Mathlib.Algebra.Order.Monoid.Unbundled.Basic
import Mathlib.Data.List.Basic
import Mathlib.Tactic

/-!
# Sliding windows and rate limits

A sliding window of width {lit}`w` keeps the recorded instants that are at most
{lit}`w` old.  Implementations keep a queue, oldest entry first, and drop from
its front what has left the window.  A limiter that refuses to act while the
queue is full bounds how often it acts in *every* window of that width, not
only in the windows that end at one of its own steps.

Main results:

- Theorem {lit}`prune_eq_filter`: on a sorted queue, pruning the front is
  filtering.
- Theorem {lit}`foldl_slide`: a queue that is pruned and pushed to, entry by entry, is
  the window over the whole log.
- Theorem {lit}`Covers.prune`, {lit}`Covers.push` and {lit}`Covers.skip`: the
  queue keeps covering the log of actions.
- Theorem {lit}`RateLimited.countP_window_le`: a log limited at each of its own
  entries is limited in every closed window.
- Theorem {lit}`Paused.push`: a queue that pauses for half a window whenever it is
  full holds at most one entry too many.
- Theorem {lit}`SpacedTail.prune_length_le_two`: two entries a pause apart, and a pause
  later, at most they are left in the window.
-/

namespace Foundation

variable {T : Type*} [LinearOrder T] [Add T]

/-! ## The queue -/

/-- Drop from the front of the queue what is more than {lit}`w` older than
{lit}`now`. -/
def prune (w now : T) (queue : List T) : List T :=
  queue.dropWhile (fun t => t + w < now)

/-- On a queue sorted oldest first, pruning the front keeps exactly the entries
inside the window. -/
theorem prune_eq_filter [AddRightMono T] {w now : T} {queue : List T}
    (hsorted : queue.Pairwise (· ≤ ·)) :
    prune w now queue = queue.filter (fun t => now ≤ t + w) := by
  unfold prune
  induction queue with
  | nil => rfl
  | cons t queue ih =>
      rw [List.pairwise_cons] at hsorted
      by_cases ht : t + w < now
      · have hout : ¬now ≤ t + w := not_le.mpr ht
        simp [ht, hout, ih hsorted.2]
      · have hin : now ≤ t + w := not_lt.mp ht
        have hall : ∀ u ∈ queue, now ≤ u + w := by
          intro u hu
          exact hin.trans (add_le_add_left (hsorted.1 u hu) w)
        have hrest : queue.filter (fun u => now ≤ u + w) = queue :=
          List.filter_eq_self.mpr (fun u hu => by simpa using hall u hu)
        simp [ht, hin, hrest]

/-- Pruning keeps a queue sorted. -/
theorem prune_sorted {w now : T} {queue : List T} (hsorted : queue.Pairwise (· ≤ ·)) :
    (prune w now queue).Pairwise (· ≤ ·) :=
  hsorted.sublist (List.dropWhile_sublist _)

/-- Pruning invents no entry. -/
theorem mem_of_mem_prune {w now t : T} {queue : List T} (ht : t ∈ prune w now queue) :
    t ∈ queue :=
  (List.dropWhile_sublist _).subset ht

/-- Pruning at {lit}`now` drops nothing that a window ending at {lit}`now` or
later still holds. -/
theorem countP_prune {w now later : T} (hle : now ≤ later) (queue : List T) :
    (prune w now queue).countP (fun t => later ≤ t + w) =
      queue.countP (fun t => later ≤ t + w) := by
  unfold prune
  induction queue with
  | nil => rfl
  | cons t queue ih =>
      by_cases ht : t + w < now
      · have hout : ¬later ≤ t + w := not_le.mpr (ht.trans_le hle)
        rw [List.dropWhile_cons_of_pos (by simpa using ht), ih,
          List.countP_cons_of_neg (by simpa using hout)]
      · rw [List.dropWhile_cons_of_neg (by simpa using ht)]

/-! ## The queue over a log -/

/-- One step of the queue: prune, then push. -/
def slide (w : T) (queue : List T) (now : T) : List T :=
  prune w now queue ++ [now]

/-- What has left a window has left every later one. -/
theorem filter_window_filter {w before now : T} (hle : before ≤ now) (log : List T) :
    (log.filter (fun t => before ≤ t + w)).filter (fun t => now ≤ t + w) =
      log.filter (fun t => now ≤ t + w) := by
  rw [List.filter_filter]
  apply List.filter_congr
  intro t _
  rw [← Bool.decide_and, decide_eq_decide]
  exact and_iff_left_of_imp hle.trans

/-- Over a nondecreasing log the queue is the window that ends at the last entry. -/
theorem foldl_slide [AddRightMono T] {w now : T} {log : List T} (hw : ∀ t : T, t ≤ t + w)
    (hsorted : (log ++ [now]).Pairwise (· ≤ ·)) :
    (log ++ [now]).foldl (slide w) [] = (log ++ [now]).filter (fun t => now ≤ t + w) := by
  induction log using List.reverseRecOn generalizing now with
  | nil => simp [slide, prune, hw]
  | append_singleton log before ih =>
      have hparts := List.pairwise_append.mp hsorted
      have hlog : (log ++ [before]).Pairwise (· ≤ ·) := hparts.1
      have hle : before ≤ now := hparts.2.2 before (by simp) now (by simp)
      rw [List.foldl_append, ih hlog, List.foldl_cons, List.foldl_nil, slide,
        prune_eq_filter (hlog.filter _), filter_window_filter hle,
        List.filter_append (log ++ [before])]
      simp [hw]

/-! ## A queue that covers a log of actions -/

/-- From {lit}`since` on, every window holds at most as many actions of the log as
entries of the queue. -/
def Covers (w since : T) (actions queue : List T) : Prop :=
  ∀ later, since ≤ later →
    actions.countP (fun t => later ≤ t + w) ≤ queue.countP (fun t => later ≤ t + w)

theorem Covers.mono {w since now : T} {actions queue : List T}
    (h : Covers w since actions queue) (hle : since ≤ now) : Covers w now actions queue :=
  fun later hlater => h later (hle.trans hlater)

/-- Pruning the queue at {lit}`now` keeps it covering. -/
theorem Covers.prune {w now : T} {actions queue : List T}
    (h : Covers w now actions queue) : Covers w now actions (prune w now queue) := by
  intro later hlater
  rw [countP_prune hlater]
  exact h later hlater

/-- An action that is also recorded keeps the queue covering. -/
theorem Covers.push {w now : T} {actions queue : List T}
    (h : Covers w now actions queue) (t : T) :
    Covers w now (t :: actions) (queue ++ [t]) := by
  intro later hlater
  have hold := h later hlater
  by_cases ht : later ≤ t + w
  · simpa [List.countP_append, ht] using hold
  · simpa [List.countP_append, ht] using hold

/-- Recording without acting keeps the queue covering. -/
theorem Covers.skip {w now : T} {actions queue : List T}
    (h : Covers w now actions queue) (t : T) :
    Covers w now actions (queue ++ [t]) := by
  intro later hlater
  rw [List.countP_append]
  exact (h later hlater).trans (Nat.le_add_right _ _)

/-- The actions inside the window ending now are at most the entries of a
covering queue. -/
theorem Covers.countP_le_length {w now : T} {actions queue : List T}
    (h : Covers w now actions queue) :
    actions.countP (fun t => now ≤ t + w) ≤ queue.length :=
  (h now le_rfl).trans List.countP_le_length

/-! ## Rate limits -/

/-- Every entry of the log, newest first, closes a window that holds at most
{lit}`cap` entries. -/
def RateLimited (cap : ℕ) (w : T) : List T → Prop
  | [] => True
  | t :: older =>
      (t :: older).countP (fun u => t ≤ u + w) ≤ cap ∧ RateLimited cap w older

/-- A rate-limited log holds at most {lit}`cap` entries in every closed window
of width {lit}`w`, wherever the window starts. -/
theorem RateLimited.countP_window_le [AddRightMono T] {cap : ℕ} {w : T} {log : List T}
    (h : RateLimited cap w log) (start : T) :
    log.countP (fun t => start ≤ t ∧ t ≤ start + w) ≤ cap := by
  induction log with
  | nil => simp
  | cons t older ih =>
      by_cases ht : start ≤ t ∧ t ≤ start + w
      · -- The newest entry of the window closes a window that contains it all.
        have hsub : (t :: older).countP (fun u => start ≤ u ∧ u ≤ start + w) ≤
            (t :: older).countP (fun u => t ≤ u + w) := by
          apply List.countP_mono_left
          intro u _ hu
          have hstart : start ≤ u := (of_decide_eq_true hu).1
          exact decide_eq_true (ht.2.trans (add_le_add_left hstart w))
        exact hsub.trans h.1
      · rw [List.countP_cons_of_neg (by simpa using ht)]
        exact ih h.2

/-! ## A queue that pauses when it is full -/

/-- A queue with at most one entry above {lit}`cap`, and that one came a
{lit}`pause` after the entry before it. -/
structure Paused (cap : ℕ) (pause : T) (queue : List T) : Prop where
  sorted : queue.Pairwise (· < ·)
  length_le : queue.length ≤ cap + 1
  gap : ∀ older t u, queue = older ++ [t, u] → cap < queue.length → t + pause ≤ u

theorem paused_nil (cap : ℕ) (pause : T) : Paused cap pause [] :=
  ⟨List.Pairwise.nil, Nat.zero_le _, fun older t u h => by simp at h⟩

/-- Two pauses after the last entry, everything before the last two has left the
window. -/
theorem prune_length_le_two [AddRightStrictMono T] {w pause now t u : T} {older : List T}
    (hsorted : (older ++ [t, u]).Pairwise (· < ·)) (hw : ∀ x : T, x + w ≤ x + pause + pause)
    (htu : t + pause ≤ u) (hnow : u + pause ≤ now) :
    (prune w now (older ++ [t, u])).length ≤ 2 := by
  have hmono : AddRightMono T := addRightMono_of_addRightStrictMono T
  have hle : (older ++ [t, u]).Pairwise (· ≤ ·) := hsorted.imp fun h => h.le
  have hbefore : ∀ x ∈ older, x < t :=
    fun x hx => (List.pairwise_append.mp hsorted).2.2 x hx t List.mem_cons_self
  have hgone : older.filter (fun x => now ≤ x + w) = [] := by
    rw [List.filter_eq_nil_iff]
    intro x hx
    have hlate : x + w < now :=
      calc x + w < t + w := add_lt_add_left (hbefore x hx) w
        _ ≤ t + pause + pause := hw t
        _ ≤ u + pause := add_le_add_left htu pause
        _ ≤ now := hnow
    simpa using hlate
  rw [prune_eq_filter hle, List.filter_append, hgone, List.nil_append]
  exact List.length_filter_le _ _

/-- A push that waits for a pause when the queue is full keeps the bound; two pauses
last at least as long as the window. -/
theorem Paused.push [AddRightStrictMono T] {cap : ℕ} {w pause now : T} {queue : List T}
    (h : Paused cap pause queue) (hcap : 3 ≤ cap) (hw : ∀ x : T, x + w ≤ x + pause + pause)
    (hnew : ∀ t ∈ queue, t < now)
    (hpause : cap ≤ queue.length → ∀ older t, queue = older ++ [t] → t + pause ≤ now) :
    Paused cap pause (prune w now queue ++ [now]) := by
  have hshort : (prune w now queue).length ≤ queue.length :=
    (List.dropWhile_sublist _).length_le
  refine ⟨?_, ?_, ?_⟩
  · refine List.pairwise_append.mpr
      ⟨h.sorted.sublist (List.dropWhile_sublist _), List.pairwise_singleton _ _, ?_⟩
    intro t ht u hu
    rw [List.mem_singleton.mp hu]
    exact hnew t (mem_of_mem_prune ht)
  · rw [List.length_append, List.length_singleton]
    rcases Nat.lt_or_ge cap queue.length with hover | hroom
    · -- The queue is over-full, so its last two entries are a pause apart.
      obtain ⟨older, t, u, rfl⟩ : ∃ older t u, queue = older ++ [t, u] := by
        rcases List.eq_nil_or_concat queue with rfl | ⟨front, u, rfl⟩
        · simp at hover
        · rcases List.eq_nil_or_concat front with rfl | ⟨older, t, rfl⟩
          · simp at hover
            omega
          · exact ⟨older, t, u, by simp⟩
      have hlast : u + pause ≤ now := hpause hover.le (older ++ [t]) u (by simp)
      have htwo := prune_length_le_two h.sorted hw (h.gap older t u rfl hover) hlast
      omega
    · omega
  · intro older t u hsplit hover
    have hparts : older ++ [t] ++ [u] = prune w now queue ++ [now] := by
      rw [hsplit]
      simp
    obtain ⟨hprune, hu⟩ := List.append_inj' hparts rfl
    cases hu
    obtain ⟨dropped, hqueue⟩ := List.dropWhile_suffix (fun t => decide (t + w < now)) (l := queue)
    change dropped ++ prune w now queue = queue at hqueue
    rw [List.length_append, List.length_singleton] at hover
    apply hpause (by omega) (dropped ++ older) t
    rw [← hqueue, ← hprune]
    simp

/-! ## Entries a pause apart -/

/-- The last {lit}`k` entries of the queue are a {lit}`pause` apart, and {lit}`till` comes
a pause after the last of them. -/
def SpacedTail (pause : T) (k : ℕ) (till : T) (queue : List T) : Prop :=
  ∃ recent, recent <:+ queue ∧ recent.length = k ∧
    recent.Pairwise (fun t u => t + pause ≤ u) ∧ ∀ t ∈ recent, t + pause ≤ till

theorem spacedTail_zero (pause till : T) (queue : List T) : SpacedTail pause 0 till queue :=
  ⟨[], List.nil_suffix, rfl, List.Pairwise.nil, by simp⟩

/-- A later time is as good. -/
theorem SpacedTail.later {pause till till' : T} {k : ℕ} {queue : List T}
    (h : SpacedTail pause k till queue) (hle : till ≤ till') : SpacedTail pause k till' queue := by
  obtain ⟨recent, hsuffix, hlength, hspaced, htill⟩ := h
  exact ⟨recent, hsuffix, hlength, hspaced, fun t ht => (htill t ht).trans hle⟩

/-- The first of the entries may be left out. -/
theorem SpacedTail.fewer {pause till : T} {k : ℕ} {queue : List T}
    (h : SpacedTail pause (k + 1) till queue) : SpacedTail pause k till queue := by
  obtain ⟨recent, hsuffix, hlength, hspaced, htill⟩ := h
  cases recent with
  | nil => cases hlength
  | cons t recent =>
      rw [List.pairwise_cons] at hspaced
      exact ⟨recent, (List.suffix_cons t recent).trans hsuffix, Nat.succ.inj hlength, hspaced.2,
        fun u hu => htill u (List.mem_cons_of_mem t hu)⟩

/-- Pushing a pause after the last entry makes one more, if pruning leaves the others. -/
theorem SpacedTail.push [AddRightMono T] {w pause now : T} {k : ℕ} {queue : List T}
    (h : SpacedTail pause k now queue) (hnew : ∀ t ∈ queue, t < now)
    (hkept : k ≤ (Foundation.prune w now queue).length) :
    SpacedTail pause (k + 1) (now + pause) (Foundation.prune w now queue ++ [now]) := by
  obtain ⟨recent, hsuffix, hlength, hspaced, htill⟩ := h
  have hpruned : Foundation.prune w now queue <:+ queue := List.dropWhile_suffix _
  have hrecent : recent <:+ Foundation.prune w now queue :=
    List.suffix_of_suffix_length_le hsuffix hpruned (hlength ▸ hkept)
  refine ⟨recent ++ [now], ?_, ?_, ?_, ?_⟩
  · obtain ⟨front, hfront⟩ := hrecent
    exact ⟨front, by rw [← hfront, List.append_assoc]⟩
  · rw [List.length_append, hlength, List.length_singleton]
  · refine List.pairwise_append.mpr ⟨hspaced, List.pairwise_singleton _ _, ?_⟩
    intro t ht u hu
    rw [List.mem_singleton.mp hu]
    exact htill t ht
  · intro t ht
    rcases List.mem_append.mp ht with ht | ht
    · exact add_le_add_left (hnew t (hsuffix.subset ht)).le pause
    · rw [List.mem_singleton.mp ht]

/-- A pause after two entries a pause apart, only these two can be left in the window. -/
theorem SpacedTail.prune_length_le_two [AddRightStrictMono T] {w pause now : T}
    {queue : List T} (h : SpacedTail pause 2 now queue) (hsorted : queue.Pairwise (· < ·))
    (hw : ∀ x : T, x + w ≤ x + pause + pause) : (Foundation.prune w now queue).length ≤ 2 := by
  obtain ⟨recent, ⟨older, rfl⟩, hlength, hspaced, htill⟩ := h
  obtain ⟨t, u, rfl⟩ := List.length_eq_two.mp hlength
  have htu : t + pause ≤ u := List.rel_of_pairwise_cons hspaced List.mem_cons_self
  exact Foundation.prune_length_le_two hsorted hw htu (htill u (by simp))

end Foundation
