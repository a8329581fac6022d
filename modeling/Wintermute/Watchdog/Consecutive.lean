import Wintermute.Watchdog.Backoff
import Wintermute.Watchdog.GiveUp

/-!
# What a health event has counted

The engine counts failed recovery attempts, and forgets them only when an attempt of
its own succeeds.  A unit that leaves the failed list between two attempts is not
looked at, so its failures from before still count.

Main results:

- Theorem {lit}`step_listed`: a tick that attempts a unit has found it failed.
- Theorem {lit}`event_countsFailures`: the attempts an event counts are the newest ones,
  all failed, each made by a tick that found the unit failed.
- Theorem {lit}`event_not_listedThroughout`: between those ticks the unit may have been up.
-/

namespace Wintermute
namespace Watchdog

open Foundation

variable (backend : SystemctlBackend)

/-! ## Attempts of a run -/

/-- How many attempts on the unit a run has made. -/
def attemptCount (u : String) (polls : List Poll) : ℕ :=
  (attempts u (run backend polls).engine.log).length

/-- A tick adds no attempt on a unit that is not on its list. -/
theorem step_not_listed (w : Watch) {p : Poll} {u : String} (hp : ¬ p.Lists u) :
    attempts u (w.step backend p).engine.log = attempts u w.engine.log := by
  obtain ⟨calls, hcalls, hmade⟩ := step_log backend w p
  rw [hcalls]
  apply Reading.attempts_of_quiet
  intro c hc
  exact decide_eq_false fun habout => hp ((hmade c hc).2 u habout)

/-- A tick that attempts a unit has found it failed. -/
theorem step_listed {u : String} {polls : List Poll} {p : Poll}
    (hmore : attemptCount backend u polls < attemptCount backend u (polls ++ [p])) :
    p.Lists u := by
  by_contra hnot
  rw [attemptCount, attemptCount, run_snoc, step_not_listed backend _ hnot] at hmore
  exact absurd hmore (lt_irrefl _)

/-! ## The counted attempts -/

/-- The tick {lit}`q` after {lit}`pre` comes no earlier than the first of the newest
{lit}`GIVE_UP_AFTER` attempts of the run. -/
def WithinCount (u : String) (polls pre : List Poll) (q : Poll) : Prop :=
  pre ++ [q] <+: polls ∧
    attemptCount backend u polls < attemptCount backend u (pre ++ [q]) + giveUpAfter.toNat

/-- The newest attempts, as many as an event counts, all failed; the last one was made by
the last tick, and each by a tick that found the unit failed. -/
structure CountsFailures (u : String) (pre : List Poll) (p : Poll) : Prop where
  failed : ∃ newest older,
    attempts u (run backend (pre ++ [p])).engine.log = newest ++ older ∧
      newest.length = giveUpAfter.toNat ∧ ∀ a ∈ newest, a.succeeded = false
  last : attemptCount backend u pre < attemptCount backend u (pre ++ [p])
  listed : ∀ before q, WithinCount backend u (pre ++ [p]) before q →
    attemptCount backend u before < attemptCount backend u (before ++ [q]) → q.Lists u

/-- A tick that returns an event for a unit has used up its failures. -/
theorem event_failures {pre : List Poll} {p : Poll} {u : String}
    (hevent : Announces u (tick backend p.now p.listed (run backend pre).engine).1) :
    failuresInARow (attempts u (run backend pre).engine.log) ≠ giveUpAfter.toNat ∧
      failuresInARow (attempts u (run backend (pre ++ [p])).engine.log) =
        giveUpAfter.toNat := by
  obtain ⟨calls, hcalls, -⟩ := step_log backend (run backend pre) p
  have hsuffix : (run backend pre).engine.log <:+
      (tick backend p.now p.listed (run backend pre).engine).2.log := ⟨calls, hcalls.symm⟩
  have hgives := (step_events_iff (run_tracks backend pre u) backend p.now p.listed hsuffix).mp
    hevent
  rw [run_snoc]
  exact (givesUpBetween_iff (tick_tracks (run_tracks backend pre u) backend p.now p.listed)
    hsuffix).mp hgives

/-- The attempts an event counts are the newest ones, all failed, each made by a tick
that found the unit failed. -/
theorem event_countsFailures (pre : List Poll) (p : Poll) (u : String)
    (hevent : Announces u (tick backend p.now p.listed (run backend pre).engine).1) :
    CountsFailures backend u pre p := by
  obtain ⟨hbefore, hafter⟩ := event_failures backend hevent
  refine ⟨?_, ?_, fun before q _ hmore => step_listed backend hmore⟩
  · obtain ⟨newest, older, hlog, hlength, hfailed⟩ :=
      exists_failures (attempts u (run backend (pre ++ [p])).engine.log)
    exact ⟨newest, older, hlog, hlength.trans hafter, hfailed⟩
  · obtain ⟨calls, hcalls, -⟩ := step_log backend (run backend pre) p
    have hlog : attempts u (run backend (pre ++ [p])).engine.log =
        attempts u calls ++ attempts u (run backend pre).engine.log := by
      rw [run_snoc, hcalls]
      exact Reading.attempts_append calls _
    rw [attemptCount, attemptCount, hlog, List.length_append]
    cases hnew : attempts u calls with
    | nil =>
        rw [hnew, List.nil_append] at hlog
        rw [hlog] at hafter
        exact absurd hafter hbefore
    | cons a as => simp

/-! ## A unit that comes up late -/

/-- A tick that finds the audio unit failed. -/
def audioFailed (secs : ℕ) : Poll :=
  ⟨Duration.fromSecs secs, .ok ["wm-audio.service"]⟩

/-- The first attempt fails, then the unit is up for a while, then it is stuck. -/
def upForAWhile : List Poll :=
  audioFailed 0 :: ⟨Duration.fromSecs 200, .ok []⟩ ::
    [400, 800, 1200, 1600, 2000, 2400].map audioFailed

theorem upForAWhile_event :
    Announces "wm-audio.service" (tick stuck (audioFailed 2800).now (audioFailed 2800).listed
      (run stuck upForAWhile).engine).1 :=
  ⟨⟨"wm-audio.service", giveUpAfter⟩, by decide +kernel, rfl⟩

theorem event_countsFailures_upForAWhile :
    CountsFailures stuck "wm-audio.service" upForAWhile (audioFailed 2800) :=
  event_countsFailures stuck upForAWhile (audioFailed 2800) _ upForAWhile_event

/-- Between the attempts that an event counts the unit may be missing from the list. -/
theorem event_not_listedThroughout :
    ¬∀ (backend : SystemctlBackend) (pre : List Poll) (p : Poll) (u : String),
      ((pre ++ [p]).map Poll.now).Pairwise (· ≤ ·) →
        Announces u (tick backend p.now p.listed (run backend pre).engine).1 →
          ∀ before q failed, WithinCount backend u (pre ++ [p]) before q →
            q.listed = .ok failed → u ∈ failed := by
  intro h
  have hwithin : WithinCount stuck "wm-audio.service" (upForAWhile ++ [audioFailed 2800])
      [audioFailed 0] ⟨Duration.fromSecs 200, .ok []⟩ :=
    ⟨List.prefix_append _ _, by decide +kernel⟩
  have hmem := h stuck upForAWhile (audioFailed 2800) "wm-audio.service" (by decide +kernel)
    upForAWhile_event [audioFailed 0] ⟨Duration.fromSecs 200, .ok []⟩ [] hwithin rfl
  cases hmem

end Watchdog
end Wintermute
