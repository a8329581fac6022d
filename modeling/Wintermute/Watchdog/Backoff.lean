import Wintermute.Watchdog.GiveUp

/-!
# Backoff between attempts

After the {lit}`k`-th failed attempt in a row the unit is left alone for
{lit}`2 ^ k` seconds, at most five minutes, and the first tick after that which finds
it failed tries again.  A success starts the schedule over.

Main results:

- Theorem {lit}`recoverUnit_attempts`: an iteration attempts whatever the policy
  allows.
- Theorem {lit}`backoffSpacing`: the schedule is kept along every run with ordered
  ticks.
-/

namespace Wintermute
namespace Watchdog

open Foundation

/-! ## Attempts that are made -/

/-- The calls made from {lit}`before` to {lit}`after` conclude an attempt on the unit,
made at {lit}`now`. -/
def AttemptsBetween (u : String) (now : Instant) (before after : WatchdogEngine) : Prop :=
  ∃ newer c older, after.log = newer ++ c :: older ∧ before.log <:+ older ∧
    c.now = now ∧ (c.attempt u).isSome = true

/-- The loop of a tick when it comes to the units listed after {lit}`before`. -/
def atOccurrence (backend : SystemctlBackend) (w : Watch) (p : Poll) (before : List String) :
    List HealthEvent × WatchdogEngine :=
  before.foldl (recoverUnit backend p.now) ([], w.engine.note p.now (.listFailedUnits p.listed))

variable {u : String} {now : Instant} {past : List HealthEvent} {backend : SystemctlBackend}

/-- The newest call of an attempt concludes it. -/
theorem AttemptCalls.concluding {recovered : Bool} {calls : List Call}
    (h : AttemptCalls now u recovered calls) :
    ∃ c early, calls = c :: early ∧ c.now = now ∧ (c.attempt u).isSome = true := by
  cases h <;> exact ⟨_, _, rfl, rfl, by
    simp [Call.attempt, Call.concerns, SystemctlCall.about, SystemctlCall.concludes]⟩

/-- An iteration for a wintermute unit attempts a recovery whenever the policy allows
one. -/
theorem recoverUnit_attempts {acc : List HealthEvent × WatchdogEngine}
    (h : Tracks u (past ++ acc.1) acc.2) (hown : isWintermuteUnit u = true)
    (hmay : recoveryPolicy.MayFollow now (attempts u acc.2.log)) :
    AttemptsBetween u now acc.2 (recoverUnit backend now acc u).2 := by
  have hiter := recoverUnit_iteration backend now acc u
  generalize recoverUnit backend now acc u = acc' at hiter
  cases hiter with
  | foreign hforeign =>
      rw [hown] at hforeign
      cases hforeign
  | waiting _ hwait =>
      rw [h.represents.mayAttempt_iff.mpr hmay] at hwait
      cases hwait
  | attempted recovered calls _ _ hcalls =>
      obtain ⟨c, early, rfl, hnow, hsome⟩ := hcalls.concluding
      exact ⟨[], c, early ++ acc.2.log, rfl, List.suffix_append _ _, hnow, hsome⟩

/-- What was attempted stays attempted. -/
theorem AttemptsBetween.extend {before after later : WatchdogEngine}
    (h : AttemptsBetween u now before after) (hsuffix : after.log <:+ later.log) :
    AttemptsBetween u now before later := by
  obtain ⟨newer, c, older, hlog, hbefore, hnow, hsome⟩ := h
  obtain ⟨calls, hcalls⟩ := hsuffix
  exact ⟨calls ++ newer, c, older, by rw [← hcalls, hlog, List.append_assoc], hbefore, hnow,
    hsome⟩

/-! ## Occurrences in a tick -/

variable {w : Watch} {p : Poll}

/-- The loop of a tick keeps track of every unit. -/
theorem atOccurrence_tracks (h : Tracks u past w.engine) (p : Poll) (before : List String) :
    Tracks u (past ++ (atOccurrence backend w p before).1)
      (atOccurrence backend w p before).2 := by
  apply recoverUnits_tracks backend p.now before ([], _)
  rw [List.append_nil]
  exact h.listed p.now _

/-- Up to its first occurrence a tick makes no call about the unit. -/
theorem atOccurrence_log (backend : SystemctlBackend) (w : Watch) (p : Poll)
    {before : List String} (hfirst : u ∉ before) :
    ∃ calls, (atOccurrence backend w p before).2.log = calls ++ w.engine.log ∧
      ∀ c ∈ calls, (reading u).concerns c = false := by
  obtain ⟨calls, hcalls, habout⟩ := recoverUnits_log backend p.now before
    ([], w.engine.note p.now (.listFailedUnits p.listed))
  refine ⟨calls ++ [⟨p.now, .listFailedUnits p.listed⟩], ?_, ?_⟩
  · rw [List.append_assoc]
    exact hcalls
  · intro c hc
    change decide (c.call.about = some u) = false
    rcases List.mem_append.mp hc with hc | hc
    · obtain ⟨-, unit, hunit, hc⟩ := habout c hc
      have hne : unit ≠ u := fun heq => hfirst (heq ▸ hunit)
      simp [hc, hne]
    · rw [List.mem_singleton.mp hc]
      simp [SystemctlCall.about]

/-- What a tick does at an occurrence stays in its log. -/
theorem occurrence_log_suffix (backend : SystemctlBackend) (w : Watch)
    {before after : List String} (hlisted : p.listed = .ok (before ++ u :: after)) :
    (recoverUnit backend p.now (atOccurrence backend w p before) u).2.log <:+
      (w.step backend p).engine.log := by
  obtain ⟨rest, hrest, -⟩ := recoverUnits_log backend p.now after
    (recoverUnit backend p.now (atOccurrence backend w p before) u)
  refine ⟨rest, ?_⟩
  rw [← hrest]
  simp [Watch.step, tick, atOccurrence, hlisted]

/-- A tick that lists a wintermute unit attempts a recovery if the policy allows one
when the tick begins. -/
theorem step_attempts (h : Tracks u past w.engine) (hown : isWintermuteUnit u = true)
    (hlists : p.Lists u) (hmay : recoveryPolicy.MayFollow p.now (attempts u w.engine.log)) :
    AttemptsBetween u p.now w.engine (w.step backend p).engine := by
  obtain ⟨failed, hlisted, hmem⟩ := hlists
  obtain ⟨before, after, rfl, hfirst⟩ := List.eq_append_cons_of_mem hmem
  obtain ⟨calls, hlog, hquiet⟩ := atOccurrence_log backend w p hfirst
  have hsame : attempts u (atOccurrence backend w p before).2.log =
      attempts u w.engine.log := by
    rw [hlog]
    exact Reading.attempts_of_quiet hquiet _
  rw [← hsame] at hmay
  obtain ⟨newer, c, older, hattempt, hbefore, hmade⟩ :=
    recoverUnit_attempts (atOccurrence_tracks h p before) hown hmay
  refine AttemptsBetween.extend ⟨newer, c, older, hattempt, ?_, hmade⟩
    (occurrence_log_suffix backend w hlisted)
  exact (hlog ▸ List.suffix_append calls w.engine.log).trans hbefore

/-! ## Runs -/

/-- The gate that a failed attempt sets. -/
theorem retryAt_of_failed {c : Call} {older : List Call} (h : FailedAttempt u c) :
    recoveryPolicy.retryAt (attempts u (c :: older)) =
      some (c.now + backoffAfter (failuresInARow (attempts u (c :: older)))) := by
  rw [h.attempts_cons]
  rfl

theorem backoffAfter_pos (k : ℕ) : 0 < backoffAfter k :=
  Nat.mul_pos (lt_min (Nat.two_pow_pos k) (by decide)) (by decide)

/-- A success leaves no failures in a row. -/
theorem failures_of_success {attempts : List (Attempt Instant)} {t : Instant}
    (h : attempts.head? = some ⟨t, true⟩) : failuresInARow attempts = 0 := by
  obtain ⟨older, rfl⟩ := List.head?_eq_some_iff.mp h
  simp

/-- A failed attempt adds one to the failures in a row. -/
theorem failures_of_failed {c : Call} {older : List Call} (h : FailedAttempt u c) :
    failuresInARow (attempts u (c :: older)) = failuresInARow (attempts u older) + 1 := by
  rw [h.attempts_cons]
  rfl

variable {polls : List Poll}

/-- No call about the unit comes before the wait after a failed attempt is over. -/
theorem run_spaced (htimes : (polls.map Poll.now).Pairwise (· ≤ ·))
    {newer older : List Call} {c : Call}
    (hlog : (run backend polls).engine.log = newer ++ c :: older) (hfailed : FailedAttempt u c) :
    ∀ d ∈ newer, d.call.about = some u →
      c.now + backoffAfter (failuresInARow (attempts u (c :: older))) ≤ d.now := by
  have hobeys := (run_tracks backend polls u).obeys
  have hsorted := run_sorted backend polls htimes
  rw [hlog] at hobeys hsorted
  rw [List.map_append] at hsorted
  have hspaced := hobeys.spaced (List.pairwise_append.mp hsorted).1 (retryAt_of_failed hfailed)
  intro d hd habout
  exact hspaced d hd (decide_eq_true habout)

/-- As long as the ticks that list the unit come too early, nothing happens to it. -/
theorem run_quiet (htimes : (polls.map Poll.now).Pairwise (· ≤ ·))
    {pre mid : List Poll} {p : Poll} (hpolls : pre ++ p :: mid = polls)
    {newer older : List Call} {c : Call}
    (hlog : (run backend (pre ++ [p])).engine.log = newer ++ c :: older)
    (hmade : (run backend pre).engine.log <:+ older) (hfailed : FailedAttempt u c)
    (hearly : ∀ m ∈ mid, m.Lists u →
      m.now < c.now + backoffAfter (failuresInARow (attempts u (c :: older)))) :
    attempts u (run backend polls).engine.log = attempts u (c :: older) := by
  obtain ⟨calls, hcalls, hmid⟩ := run_append_log backend (pre ++ [p]) mid
  rw [List.append_assoc, List.singleton_append, hpolls, hlog, ← List.append_assoc] at hcalls
  have hspaced := run_spaced htimes hcalls hfailed
  -- The calls of the tick itself are all made at the time of the failure.
  have hsame : ∀ d ∈ newer, d.now = c.now := by
    obtain ⟨early, rfl⟩ := hmade
    obtain ⟨own, hown, hnow⟩ := step_log backend (run backend pre) p
    rw [← run_snoc, hlog, ← List.cons_append, ← List.append_assoc] at hown
    have hsplit := List.append_cancel_right hown
    intro d hd
    rw [(hnow d (by rw [← hsplit]; simp [hd])).1, (hnow c (by rw [← hsplit]; simp)).1]
  have hquiet : ∀ d ∈ calls ++ newer, (reading u).concerns d = false := by
    intro d hd
    by_contra hconcerns
    have habout : d.call.about = some u := by
      simpa [reading, Call.concerns] using hconcerns
    have hlate := hspaced d hd habout
    rcases List.mem_append.mp hd with hd | hd
    · obtain ⟨m, hm, hnow, hlists⟩ := hmid d hd
      rw [hnow] at hlate
      exact absurd (hearly m hm (hlists u habout)) (not_lt.mpr hlate)
    · rw [hsame d hd] at hlate
      exact absurd hlate (not_le.mpr (Nat.lt_add_of_pos_right (backoffAfter_pos _)))
  rw [hcalls]
  exact Reading.attempts_of_quiet hquiet _

/-- The backoff schedule of a unit is kept along a run. -/
structure BackoffSpaced (backend : SystemctlBackend) (polls : List Poll) (u : String) :
    Prop where
  /-- After the failure that is number {lit}`k` in a row nothing happens to the unit for
  {lit}`min (2 ^ k) 300` seconds. -/
  spaced : ∀ newer c older, (run backend polls).engine.log = newer ++ c :: older →
    FailedAttempt u c → ∀ k, failuresInARow (attempts u (c :: older)) = k →
    k < giveUpAfter.toNat → ∀ d ∈ newer, d.call.about = some u →
      c.now + Duration.fromSecs (min (2 ^ k) maxBackoffSecs) ≤ d.now
  /-- The first later tick that is not too early and lists the unit makes an attempt. -/
  retried : ∀ pre p mid q, pre ++ p :: mid ++ [q] <+: polls →
    ∀ newer c older, (run backend (pre ++ [p])).engine.log = newer ++ c :: older →
    (run backend pre).engine.log <:+ older → FailedAttempt u c →
    ∀ k, failuresInARow (attempts u (c :: older)) = k → k < giveUpAfter.toNat →
    (∀ m ∈ mid, m.Lists u →
      m.now < c.now + Duration.fromSecs (min (2 ^ k) maxBackoffSecs)) →
    q.Lists u → c.now + Duration.fromSecs (min (2 ^ k) maxBackoffSecs) ≤ q.now →
      AttemptsBetween u q.now (run backend (pre ++ p :: mid)).engine
        (run backend (pre ++ p :: mid ++ [q])).engine
  /-- After a success the next listed occurrence of the unit is attempted at once. -/
  immediate : ∀ pre p before after, pre ++ [p] <+: polls →
    p.listed = .ok (before ++ u :: after) →
    (∃ t, (attempts u (atOccurrence backend (run backend pre) p before).2.log).head? =
      some ⟨t, true⟩) →
      AttemptsBetween u p.now (atOccurrence backend (run backend pre) p before).2
        (recoverUnit backend p.now (atOccurrence backend (run backend pre) p before) u).2
  /-- The first failure after a success is again followed by the initial backoff. -/
  restarted : ∀ newer c older, (run backend polls).engine.log = newer ++ c :: older →
    FailedAttempt u c → (∃ t, (attempts u older).head? = some ⟨t, true⟩) →
      failuresInARow (attempts u (c :: older)) = 1 ∧
        ∀ d ∈ newer, d.call.about = some u →
          c.now + Duration.fromSecs initialBackoffSecs ≤ d.now

/-- For every backend, all ticks of a new engine with ordered times and every
wintermute unit, the backoff schedule is kept. -/
theorem backoffSpacing (backend : SystemctlBackend) (polls : List Poll)
    (htimes : (polls.map Poll.now).Pairwise (· ≤ ·)) (u : String)
    (hown : isWintermuteUnit u = true) : BackoffSpaced backend polls u where
  spaced newer c older hlog hfailed k hk _ d hd habout := by
    subst hk
    exact run_spaced htimes hlog hfailed d hd habout
  retried pre p mid q hpre newer c older hlog hmade hfailed k hk hlt hearly hlists hdue := by
    subst hk
    have hsorted : ((pre ++ p :: mid).map Poll.now).Pairwise (· ≤ ·) :=
      htimes.sublist (((List.prefix_append _ [q]).trans hpre).sublist.map _)
    have hsame := run_quiet hsorted rfl hlog hmade hfailed hearly
    rw [run_snoc]
    apply step_attempts (run_tracks backend _ u) hown hlists
    rw [hsame]
    refine ⟨hlt, fun t ht => ?_⟩
    rw [retryAt_of_failed hfailed] at ht
    cases ht
    exact hdue
  immediate pre p before after _ _ hsuccess := by
    obtain ⟨t, ht⟩ := hsuccess
    apply recoverUnit_attempts (atOccurrence_tracks (run_tracks backend pre u) p before) hown
    apply recoveryPolicy.mayFollow_of_success (by decide)
    intro a ha
    rw [ht] at ha
    cases ha
    rfl
  restarted newer c older hlog hfailed hsuccess := by
    obtain ⟨t, ht⟩ := hsuccess
    have hone : failuresInARow (attempts u (c :: older)) = 1 := by
      rw [failures_of_failed hfailed, failures_of_success ht]
    refine ⟨hone, ?_⟩
    have hspaced := run_spaced htimes hlog hfailed
    rw [hone] at hspaced
    exact hspaced

/-! ## A unit that never comes up -/

/-- Every command works, and the unit stays failed. -/
def stuck : SystemctlBackend where
  resetFailed _ _ := .ok ()
  startUnit _ _ := .ok ()
  unitIsFailed _ _ := .ok true

/-- The attempts on a stuck unit are two, four and eight seconds apart. -/
theorem backoffSpacing_stuck :
    ((attempts "wm-audio.service"
        (run stuck (pollsEvery 2 "wm-audio.service" 10)).engine.log).map Attempt.time =
      [14, 6, 2, 0].map Duration.fromSecs) ∧
      BackoffSpaced stuck (pollsEvery 2 "wm-audio.service" 10) "wm-audio.service" :=
  ⟨by decide +kernel, backoffSpacing stuck _ (by decide +kernel) _ (by decide +kernel)⟩

end Watchdog
end Wintermute
