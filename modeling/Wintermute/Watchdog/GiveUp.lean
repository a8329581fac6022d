import Wintermute.Watchdog.Tracking

/-!
# Giving up

The eighth failed recovery in a row is final: the tick in which it happens returns
the one health event of the unit, and nothing is tried for the unit any more.

Main results:

- Theorem {lit}`step_events_iff`: a tick returns an event exactly when the unit uses up
  its failures in it.
- Theorem {lit}`giveUp_exact`: giving up is exact and final along every run.
-/

namespace Wintermute
namespace Watchdog

open Foundation

/-! ## The last failure -/

/-- The call concludes a failed recovery attempt on the unit. -/
def FailedAttempt (u : String) (c : Call) : Prop :=
  ∃ a, c.attempt u = some a ∧ a.succeeded = false

theorem FailedAttempt.about {u : String} {c : Call} (h : FailedAttempt u c) :
    c.call.about = some u := by
  obtain ⟨a, ha, -⟩ := h
  exact of_decide_eq_true ((reading u).attempt_spec c a ha).1

/-- A failed attempt is the newest one in the log that ends with it. -/
theorem FailedAttempt.attempts_cons {u : String} {c : Call} (h : FailedAttempt u c)
    (older : List Call) : attempts u (c :: older) = ⟨c.now, false⟩ :: attempts u older := by
  obtain ⟨⟨time, succeeded⟩, ha, rfl⟩ := h
  obtain rfl : time = c.now := ((reading u).attempt_spec c _ ha).2
  exact List.filterMap_cons_some ha

/-- The call concludes the eighth failed recovery attempt in a row on the unit. -/
def IsLastFailure (u : String) (c : Call) (older : List Call) : Prop :=
  FailedAttempt u c ∧ failuresInARow (attempts u (c :: older)) = giveUpAfter.toNat

/-- A tick that ends as {lit}`after` made the call that concluded the eighth failed
attempt in a row. -/
def GivesUpBetween (u : String) (before after : WatchdogEngine) : Prop :=
  ∃ newer c older, after.log = newer ++ c :: older ∧ before.log <:+ older ∧
    IsLastFailure u c older

/-- The result of a tick holds an event for the unit. -/
def Announces (u : String) (result : Except WatchdogError (List HealthEvent)) : Prop :=
  ∃ e ∈ eventsOf result, e.unit = u

variable {u : String} {past : List HealthEvent} {engine : WatchdogEngine}

namespace Tracks

/-- Once the failures are used up no call is made about the unit. -/
theorem final (h : Tracks u past engine) {newer older : List Call}
    (hlog : engine.log = newer ++ older)
    (hlimit : failuresInARow (attempts u older) = recoveryPolicy.limit) :
    ∀ c ∈ newer, c.call.about ≠ some u := by
  have hobeys : recoveryPolicy.Obeys (reading u) (newer ++ older) := by
    rw [← hlog]
    exact h.obeys
  intro c hc habout
  have hquiet : c.concerns u = false := hobeys.final hlimit.ge c hc
  simp [Call.concerns, habout] at hquiet

/-- Giving up shows in the table and in the events alike. -/
theorem gaveUp_iff (h : Tracks u past engine) :
    (∃ s, engine.table u = some s ∧ s.gaveUp = true) ↔ ∃ e ∈ past, e.unit = u := by
  have hentry : (∃ s, engine.table u = some s ∧ s.gaveUp = true) ↔
      (engine.entry u).gaveUp = true := by
    unfold WatchdogEngine.entry
    cases engine.table u <;> simp
  rw [hentry, ← healthEvents_ne_nil, h.represents.gaveUp_iff, h.events_eq]
  split <;> simp_all

/-- The counter stays within the limit. -/
theorem failures_le (h : Tracks u past engine) (s : RecoveryState)
    (hs : engine.table u = some s) : s.consecutiveFailures ≤ giveUpAfter := by
  have hentry : engine.entry u = s := by
    rw [WatchdogEngine.entry, hs]
    rfl
  rw [UInt32.le_iff_toNat_le, ← hentry, h.represents.toNat_failures]
  exact h.represents.failures_le

end Tracks

/-! ## Ticks -/

/-- The unit uses up its failures exactly in a tick that makes the last one. -/
theorem givesUpBetween_iff {past' : List HealthEvent} {engine' : WatchdogEngine}
    (h' : Tracks u past' engine') (hsuffix : engine.log <:+ engine'.log) :
    GivesUpBetween u engine engine' ↔
      failuresInARow (attempts u engine.log) ≠ recoveryPolicy.limit ∧
        failuresInARow (attempts u engine'.log) = recoveryPolicy.limit := by
  constructor
  · rintro ⟨newer, c, older, hlog, ⟨early, rfl⟩, hfailed, hlast⟩
    refine ⟨fun hbefore => ?_, ?_⟩
    · -- The concluding call itself would come after the last failure.
      have hsplit : engine'.log = (newer ++ c :: early) ++ engine.log := by simp [hlog]
      exact h'.final hsplit hbefore c (by simp) hfailed.about
    · have hquiet : ∀ d ∈ newer, (reading u).concerns d = false :=
        fun d hd => decide_eq_false (h'.final hlog hlast d hd)
      rw [hlog]
      change failuresInARow ((reading u).attempts (newer ++ _)) = _
      rw [Reading.attempts_of_quiet hquiet]
      exact hlast
  · rintro ⟨hbefore, hafter⟩
    obtain ⟨calls, hcalls⟩ := hsuffix
    rw [← hcalls] at hafter
    obtain ⟨newer, c, early, rfl, hfails, hcount⟩ :=
      Reading.exists_failure (by decide) hbefore hafter
    exact ⟨newer, c, early ++ engine.log, by simp [← hcalls], List.suffix_append _ _,
      hfails, hcount⟩

/-- A tick returns an event for the unit exactly when it makes the last failure. -/
theorem step_events_iff (h : Tracks u past engine) (backend : SystemctlBackend) (now : Instant)
    (answer : Except WatchdogError (List String))
    (hsuffix : engine.log <:+ (tick backend now answer engine).2.log) :
    Announces u (tick backend now answer engine).1 ↔
      GivesUpBetween u engine (tick backend now answer engine).2 := by
  have h' := tick_tracks h backend now answer
  have hevents := h'.events_eq
  rw [healthEvents_append, h.events_eq] at hevents
  rw [Announces, ← healthEvents_ne_nil, givesUpBetween_iff h' hsuffix]
  by_cases hbefore : failuresInARow (attempts u engine.log) = recoveryPolicy.limit
  · -- The one event is already there.
    rw [if_pos hbefore] at hevents
    refine iff_of_false ?_ fun hand => hand.1 hbefore
    intro hne
    split at hevents
    · simp at hevents
      exact hne hevents
    · simp at hevents
  · rw [if_neg hbefore, List.nil_append] at hevents
    rw [hevents]
    split <;> simp_all

/-! ## Runs -/

/-- Giving up on a unit is exact and final along a run. -/
structure GiveUpExact (backend : SystemctlBackend) (polls : List Poll) (u : String) :
    Prop where
  /-- At most one event is ever returned. -/
  once : (healthEvents u (published (run backend polls))).length ≤ 1
  /-- It is returned by exactly the tick in which the eighth attempt in a row fails. -/
  exact_tick : ∀ pre p, pre ++ [p] <+: polls →
    (Announces u (tick backend p.now p.listed (run backend pre).engine).1 ↔
      GivesUpBetween u (run backend pre).engine (run backend (pre ++ [p])).engine)
  /-- It carries the number of attempts. -/
  attempts_eq : ∀ e ∈ published (run backend polls), e.unit = u → e.attempts = giveUpAfter
  /-- After the last failure no call is made about the unit. -/
  final : ∀ newer c older, (run backend polls).engine.log = newer ++ c :: older →
    IsLastFailure u c older → ∀ d ∈ newer, d.call.about ≠ some u
  /-- After the event no call is made about the unit. -/
  silent : ∀ pre more, pre ++ more = polls → (∃ e ∈ published (run backend pre), e.unit = u) →
    ∃ calls, (run backend polls).engine.log = calls ++ (run backend pre).engine.log ∧
      ∀ c ∈ calls, c.call.about ≠ some u
  /-- The table says that the unit is given up if and only if the event has been
  returned. -/
  gaveUp_iff : (∃ s, (run backend polls).engine.table u = some s ∧ s.gaveUp = true) ↔
    ∃ e ∈ published (run backend polls), e.unit = u
  /-- The counter never exceeds the limit. -/
  failures_le : ∀ s, (run backend polls).engine.table u = some s →
    s.consecutiveFailures ≤ giveUpAfter

/-- For every backend, all ticks of a new engine and every unit, the health event is
returned once, by the tick of the eighth failure in a row, and nothing is done for the
unit after it. -/
theorem giveUp_exact (backend : SystemctlBackend) (polls : List Poll) (u : String) :
    GiveUpExact backend polls u where
  once := by
    rw [(run_tracks backend polls u).events_eq]
    split <;> simp
  exact_tick pre p _ := by
    obtain ⟨calls, hcalls, -⟩ := step_log backend (run backend pre) p
    rw [run_snoc]
    exact step_events_iff (run_tracks backend pre u) backend p.now p.listed ⟨calls, hcalls.symm⟩
  attempts_eq e he hunit := by
    have hmem : e ∈ healthEvents u (published (run backend polls)) :=
      mem_healthEvents.mpr ⟨he, hunit⟩
    rw [(run_tracks backend polls u).events_eq] at hmem
    split at hmem
    · rw [List.mem_singleton.mp hmem]
    · cases hmem
  final newer c older hlog hlast := (run_tracks backend polls u).final hlog hlast.2
  silent pre more hsplit hannounced := by
    obtain ⟨calls, hcalls, -⟩ := run_append_log backend pre more
    rw [hsplit] at hcalls
    have hpre := run_tracks backend pre u
    obtain ⟨s, hs, hgaveUp⟩ := hpre.gaveUp_iff.mpr hannounced
    have hlimit : failuresInARow (attempts u (run backend pre).engine.log) =
        recoveryPolicy.limit := by
      rw [← hpre.represents.gaveUp_iff, WatchdogEngine.entry, hs]
      exact hgaveUp
    exact ⟨calls, hcalls, (run_tracks backend polls u).final hcalls hlimit⟩
  gaveUp_iff := (run_tracks backend polls u).gaveUp_iff
  failures_le := (run_tracks backend polls u).failures_le

end Watchdog
end Wintermute
