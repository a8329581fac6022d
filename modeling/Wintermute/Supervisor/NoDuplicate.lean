import Wintermute.Foundation.History
import Wintermute.Supervisor.StormControl

/-!
# No duplicate instance

A child is relaunched only from the exited state, and it becomes exited only when
a probe of its own PID reports the process gone.  The PID in the slot is the one
its last successful launch answered, so the process that was reported gone is the
child's last known one, whatever route led to the relaunch.

Main results:

- Theorem {lit}`Life.accounted_invariant`: the slot and the history agree on which
  process runs and which one is gone.
- Theorem {lit}`relaunch_after_gone`: every relaunch of every run follows a probe
  that reported the last started process gone.
-/

namespace Wintermute
namespace Supervisor

open Foundation

/-- The process that the child's last successful launch started has been reported
gone since. -/
def LastGone (c : String) (log : List Event) : Prop :=
  Closed (Event.launched c) (Event.gone c) log

/-! ## The invariant of one child -/

/-- The last started process has been reported gone. -/
def ChildGone (log : List ChildEvent) : Prop :=
  Closed ChildEvent.launched ChildEvent.gone log

namespace Life

variable {l : Life}

/-- A running slot holds the last started PID, an exited or backed-off child has
lost it, and every attempt so far was made after such a loss. -/
structure Accounted (l : Life) : Prop where
  running : ∀ pid, l.runningPid = some pid → l.log.findSome? ChildEvent.launched = some pid
  gone : l.status = some .exited ∨ l.status = some .backoff → ChildGone l.log
  attempts : EachAfter (fun e older => e.attempt.isSome = true → ChildGone older) l.log

/-- A child whose last process is gone is accounted for outside the running state. -/
theorem accounted_of_gone (hstatus : l.status ≠ some .running) (hgone : ChildGone l.log)
    (hattempts : EachAfter (fun e older => e.attempt.isSome = true → ChildGone older) l.log) :
    l.Accounted :=
  ⟨fun _ hpid => absurd (status_of_runningPid hpid) hstatus, fun _ => hgone, hattempts⟩

/-- The newest successful launch of a started child. -/
theorem started_launched (spec : ChildSpec) (child : StartedChild) :
    (l.started spec (.ok child)).log.findSome? ChildEvent.launched = some child.childPid := by
  change ((((l.edit ChildState.markStarting).note (.start spec (.ok child))).edit
    (ChildState.markRunning child.childPid)).log).findSome? ChildEvent.launched = _
  rw [edit_log_eq]
  split <;> rfl

/-- An event that is neither a launch nor an attempt keeps a history that is
accounted for. -/
theorem Accounted.quiet {log : List ChildEvent}
    (h : EachAfter (fun e older => e.attempt.isSome = true → ChildGone older) log)
    {e : ChildEvent} (he : e.attempt = none) :
    EachAfter (fun e older => e.attempt.isSome = true → ChildGone older) (e :: log) := by
  refine ⟨fun hsome => ?_, h⟩
  rw [he] at hsome
  cases hsome

/-- Slot and history agree along every run. -/
theorem accounted_invariant (R : Instant → Instant → Prop) : Invariant R Accounted where
  fresh l hfresh := by
    refine ⟨?_, ?_, ?_⟩
    · intro pid hpid
      obtain ⟨slot, hslot, -⟩ := Option.bind_eq_some_iff.mp hpid
      have hrunning := status_of_runningPid hpid
      simp [status, hslot, hfresh.slot_pending slot hslot] at hrunning
    · rintro (h | h)
      · exact absurd h hfresh.status.1
      · exact absurd h hfresh.status.2
    · rw [hfresh.log_eq]
      trivial
  started l spec answer hfresh := by
    refine ⟨?_, ?_, ?_⟩
    · intro pid hpid
      obtain ⟨child, rfl, rfl⟩ := started_runningPid hpid
      exact started_launched spec child
    · rintro (h | h)
      · exact absurd h (started_status hfresh spec answer).1
      · exact absurd h (started_status hfresh spec answer).2
    · rw [eachAfter_iff]
      intro newer e older hsplit hattempt
      have hpass := (started_log hfresh spec answer (e := e) (by rw [hsplit]; simp)).1
      unfold ChildEvent.attempt at hattempt
      split at hattempt
      · rw [hpass] at hattempt
        cases hattempt
      · cases hattempt
  enter l now hl _ := ⟨hl.running, hl.gone, hl.attempts⟩
  clear l now hl _ hexpired := by
    obtain ⟨hstatus, -, hlog⟩ := clear_spec hexpired
    refine accounted_of_gone ?_ ?_ ?_
    · rw [hstatus]
      decide
    · rw [hlog]
      exact (hl.gone (Or.inr hexpired.1)).cons rfl
    · rw [hlog]
      exact Accounted.quiet hl.attempts rfl
  probed l pid answer hl hpid := by
    by_cases hdead : answer = .ok false
    · subst hdead
      obtain ⟨hstatus, hlog⟩ := probed_dead hpid
      refine accounted_of_gone ?_ ?_ ?_
      · rw [hstatus]
        decide
      · rw [hlog]
        exact (Closed.of_open (hl.running pid hpid) rfl rfl).cons rfl
      · rw [hlog]
        exact Accounted.quiet (Accounted.quiet hl.attempts rfl) rfl
    · rw [probed_alive hdead]
      have hrunning := status_of_runningPid hpid
      refine ⟨hl.running, ?_, Accounted.quiet hl.attempts rfl⟩
      rw [note_status, hrunning]
      rintro (h | h) <;> cases h
  launched l now spec answer hl _ hstatus _ := by
    have hgone := hl.gone (Or.inl hstatus)
    have hattempts : EachAfter (fun e older => e.attempt.isSome = true → ChildGone older)
        (⟨l.pass, .start spec answer⟩ :: l.log) := ⟨fun _ => hgone, hl.attempts⟩
    cases answer with
    | error e =>
        rw [launched_error]
        refine accounted_of_gone ?_ (hgone.cons rfl) hattempts
        rw [note_status]
        exact hstatus ▸ by decide
    | ok child =>
        obtain ⟨hpid, hlog⟩ := launched_ok hstatus now spec child
        refine ⟨?_, ?_, ?_⟩
        · intro pid hpid'
          rw [hpid] at hpid'
          cases hpid'
          rw [hlog]
          rfl
        · rw [status_of_runningPid hpid]
          rintro (h | h) <;> cases h
        · rw [hlog]
          exact Accounted.quiet hattempts rfl
  backedOff l now due hl _ hstatus _ _ := by
    obtain ⟨hbackoff, hlog⟩ := backedOff_spec hstatus now
    refine accounted_of_gone ?_ ?_ ?_
    · change (l.backedOff now).status ≠ some .running
      rw [hbackoff]
      decide
    · change ChildGone (l.backedOff now).log
      rw [hlog]
      exact (hl.gone (Or.inl hstatus)).cons rfl
    · change EachAfter _ (l.backedOff now).log
      rw [hlog]
      exact Accounted.quiet hl.attempts rfl

end Life

/-! ## Runs -/

/-- Each launch by the restart phase follows a probe of the PID that the child's
most recent successful launch answered, and that probe reported the process
gone. -/
theorem relaunch_after_gone (env : Environment) (times : List Instant) (c : String)
    (newer : List Event) (e : Event) (older : List Event)
    (hlog : (run env times).log = newer ++ e :: older) (t : Instant)
    (hattempt : e.attempt c = some t) : LastGone c older := by
  have hlife := ((Life.accounted_invariant fun _ _ => True).run (run_refines env times c)
    (List.pairwise_of_forall fun _ _ => trivial)).1.attempts
  have hafter := eachAfter_iff.mp (eachAfter_filterMap hlife) newer e older hlog
  rw [← attempt_eventAbout] at hattempt
  obtain ⟨b, hb, hattempt⟩ := Option.bind_eq_some_iff.mp hattempt
  have hclosed := closed_filterMap (hafter b hb (by rw [hattempt]; rfl))
  simp only [launched_eventAbout, gone_eventAbout] at hclosed
  exact hclosed

/-- In the crash loop children are relaunched, each after its process was reported
gone. -/
theorem relaunch_after_gone_crashLoop :
    ∃ newer e older t, (run crashLoop stormTimes).log = newer ++ e :: older ∧
      e.attempt "wm-audio" = some t ∧ LastGone "wm-audio" older := by
  have hattempts : (attempts "wm-audio" (run crashLoop stormTimes)) ≠ [] := by
    decide +kernel
  obtain ⟨t, ht⟩ := List.exists_mem_of_ne_nil _ hattempts
  obtain ⟨e, he, hattempt⟩ := List.mem_filterMap.mp ht
  obtain ⟨newer, older, hlog⟩ := List.append_of_mem he
  exact ⟨newer, e, older, t, hlog, hattempt,
    relaunch_after_gone crashLoop stormTimes "wm-audio" newer e older hlog t hattempt⟩

end Supervisor
end Wintermute
