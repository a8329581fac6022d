import Mathlib.Algebra.Order.Ring.Nat
import Wintermute.Foundation.History

/-!
# Retry policies

A retry policy gives up after a number of failures in a row and, after each failure
before that, waits for a time that depends on how many there were.  The attempts
made so far decide when the next one may be made.

Main results:

- Theorem {lit}`Attempts.failures_le` and {lit}`Attempts.length_le`: how many
  attempts a policy allows.
- Definition {lit}`Obeys.attempts`: a log that obeys a policy holds allowed attempts.
- Theorem {lit}`Obeys.final`: nothing follows the last allowed failure.
- Theorem {lit}`Obeys.spaced`: what follows a failure comes after the wait.
-/

namespace Foundation

variable {α T : Type*}

/-! ## Attempts -/

/-- One attempt, with its outcome. -/
structure Attempt (T : Type*) where
  time : T
  succeeded : Bool
deriving DecidableEq, Repr

/-- Number of failures since the last success, newest attempt first. -/
def failuresInARow : List (Attempt T) → ℕ
  | [] => 0
  | a :: older => if a.succeeded then 0 else failuresInARow older + 1

@[simp]
theorem failuresInARow_nil : failuresInARow ([] : List (Attempt T)) = 0 :=
  rfl

@[simp]
theorem failuresInARow_cons (a : Attempt T) (older : List (Attempt T)) :
    failuresInARow (a :: older) = if a.succeeded then 0 else failuresInARow older + 1 :=
  rfl

/-- The newest attempts, as many as there are failures in a row, all failed. -/
theorem exists_failures (l : List (Attempt T)) :
    ∃ newest older, l = newest ++ older ∧ newest.length = failuresInARow l ∧
      ∀ a ∈ newest, a.succeeded = false := by
  induction l with
  | nil => exact ⟨[], [], rfl, rfl, by simp⟩
  | cons a l ih =>
      obtain ⟨newest, older, hl, hlength, hfailed⟩ := ih
      cases ha : a.succeeded with
      | true => exact ⟨[], a :: l, rfl, by simp [ha], by simp⟩
      | false =>
          refine ⟨a :: newest, older, by rw [hl, List.cons_append], ?_, ?_⟩
          · simp [ha, hlength]
          · exact List.forall_mem_cons.mpr ⟨ha, hfailed⟩

/-! ## Policies -/

/-- Give up after {lit}`limit` failures in a row, and wait {lit}`wait k` after the
{lit}`k`-th. -/
structure RetryPolicy (T : Type*) where
  limit : ℕ
  wait : ℕ → T

namespace RetryPolicy

variable (policy : RetryPolicy T)

/-- The instant before which the newest attempt keeps anything from being tried. -/
def retryAt [Add T] : List (Attempt T) → Option T
  | [] => none
  | a :: older =>
      if a.succeeded then none
      else some (a.time + policy.wait (failuresInARow older + 1))

/-- After these attempts the next one may be made at {lit}`now`. -/
def MayFollow [Add T] [LE T] (now : T) (attempts : List (Attempt T)) : Prop :=
  failuresInARow attempts < policy.limit ∧ ∀ t, policy.retryAt attempts = some t → t ≤ now

/-- After a success, or at the beginning, nothing has to be waited for. -/
theorem mayFollow_of_success [Add T] [LE T] (hlimit : 0 < policy.limit) (now : T)
    {attempts : List (Attempt T)} (h : ∀ a, attempts.head? = some a → a.succeeded = true) :
    policy.MayFollow now attempts := by
  cases attempts with
  | nil => exact ⟨hlimit, fun t ht => by cases ht⟩
  | cons a older =>
      have hok : a.succeeded = true := h a rfl
      refine ⟨by simpa [hok] using hlimit, fun t ht => ?_⟩
      simp [retryAt, hok] at ht

/-- Attempts, newest first, each of which was allowed after the older ones. -/
structure Attempts [Add T] [LE T] where
  list : List (Attempt T)
  allowed : EachAfter (fun a older => policy.MayFollow a.time older) list

namespace Attempts

variable {policy} [Add T] [LE T]

/-- The failures in a row never exceed the limit. -/
theorem failures_le (h : policy.Attempts) : failuresInARow h.list ≤ policy.limit := by
  obtain ⟨list, hallowed⟩ := h
  cases list with
  | nil => simp
  | cons a older =>
      have hlt := hallowed.1.1
      simp only [failuresInARow_cons]
      split <;> omega

/-- Every success pays for at most one round of failures. -/
theorem length_le (h : policy.Attempts) :
    h.list.length ≤
      policy.limit * h.list.countP Attempt.succeeded + failuresInARow h.list := by
  obtain ⟨list, hallowed⟩ := h
  induction list with
  | nil => simp
  | cons a older ih =>
      have hlt := hallowed.1.1
      have hlength := ih hallowed.2
      cases ha : a.succeeded with
      | true =>
          simp only [List.length_cons, List.countP_cons, failuresInARow_cons, ha, if_true,
            Nat.mul_add, Nat.mul_one] at hlength ⊢
          omega
      | false =>
          simp only [List.length_cons, List.countP_cons, failuresInARow_cons, ha] at hlength ⊢
          simp only [Bool.false_eq_true, if_false, Nat.add_zero]
          omega

end Attempts

end RetryPolicy

/-! ## Logs that obey a policy -/

/-- How the attempts are read off a log: some entries belong to an attempt, and some
of these conclude it. -/
structure Reading (α T : Type*) where
  concerns : α → Bool
  time : α → T
  attempt : α → Option (Attempt T)
  attempt_spec : ∀ e a, attempt e = some a → concerns e = true ∧ a.time = time e

/-- The concluded attempts of a log, newest first. -/
def Reading.attempts (r : Reading α T) (log : List α) : List (Attempt T) :=
  log.filterMap r.attempt

variable {r : Reading α T}

@[simp]
theorem Reading.attempts_append (newer older : List α) :
    r.attempts (newer ++ older) = r.attempts newer ++ r.attempts older :=
  List.filterMap_append

/-- Entries that concern no attempt conclude none. -/
theorem Reading.attempts_of_quiet {newer : List α} (h : ∀ e ∈ newer, r.concerns e = false)
    (older : List α) : r.attempts (newer ++ older) = r.attempts older := by
  have hnone : r.attempts newer = [] := by
    apply List.filterMap_eq_nil_iff.mpr
    intro e he
    cases ha : r.attempt e with
    | none => rfl
    | some a =>
        have hconcerns := (r.attempt_spec e a ha).1
        rw [h e he] at hconcerns
        cases hconcerns
  rw [Reading.attempts_append, hnone, List.nil_append]

/-- The failures in a row reach a count by an entry that concludes a failure. -/
theorem Reading.exists_failure {newer older : List α} {n : ℕ} (hn : 0 < n)
    (hbefore : failuresInARow (r.attempts older) ≠ n)
    (hafter : failuresInARow (r.attempts (newer ++ older)) = n) :
    ∃ late e early, newer = late ++ e :: early ∧
      (∃ a, r.attempt e = some a ∧ a.succeeded = false) ∧
      failuresInARow (r.attempts (e :: (early ++ older))) = n := by
  induction newer with
  | nil => exact absurd hafter hbefore
  | cons e newer ih =>
      by_cases hreached : failuresInARow (r.attempts (newer ++ older)) = n
      · obtain ⟨late, e', early, rfl, hfails, hcount⟩ := ih hreached
        exact ⟨e :: late, e', early, rfl, hfails, hcount⟩
      · refine ⟨[], e, newer, rfl, ?_, hafter⟩
        change failuresInARow ((e :: (newer ++ older)).filterMap r.attempt) = n at hafter
        cases ha : r.attempt e with
        | none =>
            rw [List.filterMap_cons_none ha] at hafter
            exact absurd hafter hreached
        | some a =>
            refine ⟨a, rfl, ?_⟩
            rw [List.filterMap_cons_some ha, failuresInARow_cons] at hafter
            by_contra hsucceeded
            rw [if_pos (by simpa using hsucceeded)] at hafter
            omega

namespace RetryPolicy

variable [Add T] [LE T] {policy : RetryPolicy T}

/-- Every entry of an attempt is made when the policy allows one after the attempts
concluded before. -/
def Obeys (policy : RetryPolicy T) (r : Reading α T) (log : List α) : Prop :=
  EachAfter (fun e older => r.concerns e = true → policy.MayFollow (r.time e) (r.attempts older))
    log

/-- The attempts of a log that obeys the policy. -/
def Obeys.attempts {log : List α} (h : policy.Obeys r log) : policy.Attempts where
  list := r.attempts log
  allowed := by
    induction log with
    | nil => trivial
    | cons e log ih =>
        unfold Reading.attempts
        cases ha : r.attempt e with
        | none =>
            rw [List.filterMap_cons_none ha]
            exact ih h.2
        | some a =>
            rw [List.filterMap_cons_some ha]
            obtain ⟨hconcerns, htime⟩ := r.attempt_spec e a ha
            have hallowed : policy.MayFollow a.time (r.attempts log) := by
              rw [htime]
              exact h.1 hconcerns
            exact ⟨hallowed, ih h.2⟩

/-- Entries added to a log that obeys the policy. -/
theorem Obeys.append {newer older : List α} (h : policy.Obeys r older)
    (hnewer : EachAfter (fun e between => r.concerns e = true →
      policy.MayFollow (r.time e) (r.attempts (between ++ older))) newer) :
    policy.Obeys r (newer ++ older) := by
  induction newer with
  | nil => exact h
  | cons e newer ih => exact ⟨hnewer.1, ih hnewer.2⟩

/-- Entries that concern no attempt may always be added. -/
theorem Obeys.append_quiet {newer older : List α} (h : policy.Obeys r older)
    (hquiet : ∀ e ∈ newer, r.concerns e = false) : policy.Obeys r (newer ++ older) := by
  induction newer with
  | nil => exact h
  | cons e newer ih =>
      refine ⟨fun hconcerns => ?_, ih fun d hd => hquiet d (List.mem_cons_of_mem e hd)⟩
      rw [hquiet e List.mem_cons_self] at hconcerns
      cases hconcerns

/-- Once the limit is reached nothing follows. -/
theorem Obeys.final {newer older : List α} (h : policy.Obeys r (newer ++ older))
    (hlimit : policy.limit ≤ failuresInARow (r.attempts older)) :
    ∀ e ∈ newer, r.concerns e = false := by
  induction newer with
  | nil => simp
  | cons e newer ih =>
      have hquiet := ih h.2
      have hhead : r.concerns e = false := by
        by_contra hconcerns
        have hallowed : policy.MayFollow (r.time e) (r.attempts (newer ++ older)) :=
          h.1 (by simpa using hconcerns)
        rw [Reading.attempts_of_quiet hquiet] at hallowed
        exact absurd hallowed.1 (not_lt.mpr hlimit)
      rintro e' he'
      rcases List.mem_cons.mp he' with rfl | he'
      · exact hhead
      · exact hquiet e' he'

end RetryPolicy

/-- In a log with ordered times, whatever follows a failure comes after the wait. -/
theorem RetryPolicy.Obeys.spaced [Add T] [Preorder T] {policy : RetryPolicy T}
    {newer older : List α} (h : policy.Obeys r (newer ++ older))
    (hsorted : (newer.map r.time).Pairwise (fun late early => early ≤ late)) {t : T}
    (ht : policy.retryAt (r.attempts older) = some t) :
    ∀ e ∈ newer, r.concerns e = true → t ≤ r.time e := by
  induction newer with
  | nil => simp
  | cons e newer ih =>
      have hrest := ih h.2 (List.pairwise_cons.mp hsorted).2
      intro e' he' hconcerns
      rcases List.mem_cons.mp he' with rfl | he'
      · -- Either something between the failure and this entry has waited already, or
        -- the failure is still the newest attempt.
        by_cases hbetween : ∃ d ∈ newer, r.concerns d = true
        · obtain ⟨d, hd, hd'⟩ := hbetween
          exact (hrest d hd hd').trans
            ((List.pairwise_cons.mp hsorted).1 _ (List.mem_map_of_mem hd))
        · have hquiet : ∀ d ∈ newer, r.concerns d = false := by
            intro d hd
            by_contra hd'
            exact hbetween ⟨d, hd, by simpa using hd'⟩
          have hallowed : policy.MayFollow (r.time e') (r.attempts (newer ++ older)) :=
            h.1 hconcerns
          rw [Reading.attempts_of_quiet hquiet] at hallowed
          exact hallowed.2 t ht
      · exact hrest e' he' hconcerns

end Foundation
