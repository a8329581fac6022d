import Wintermute.Supervisor.Projection

/-!
# Reading the history

What the properties of the supervisor say about its history: when a child entered
backoff, when the restart phase called the launcher for it, which launches
succeeded and which probes reported a process gone.  Each reading is defined on
the events of the program and on those of the abstract child, and the projection
keeps it.

Main results:

- Theorems {lit}`entersBackoff_eventAbout`, {lit}`attempt_eventAbout`,
  {lit}`launched_eventAbout` and {lit}`gone_eventAbout`: the readings agree.
- Theorems {lit}`lifeOf_enteredBackoff` and {lit}`lifeOf_attempts`: the same for
  whole histories.
-/

namespace Wintermute

/-! ## Events of the program -/

/-- The event puts the child into backoff. -/
def Event.entersBackoff (c : String) (e : Event) : Bool :=
  match e.action with
  | .critical before after =>
      decide (before.status c ≠ some .backoff) && decide (after.status c = some .backoff)
  | _ => false

/-- Time of a launch of the child by the restart phase; the launches of start-up
belong to no pass. -/
def Event.attempt (c : String) (e : Event) : Option Instant :=
  match e.action with
  | .start spec _ => if spec.name = c then e.pass else none
  | _ => none

/-- PID of a successful launch of the child. -/
def Event.launched (c : String) (e : Event) : Option UInt32 :=
  match e.action with
  | .start spec (.ok child) => if spec.name = c then some child.childPid else none
  | _ => none

/-- PID that a probe of the child reported gone. -/
def Event.gone (c : String) (e : Event) : Option UInt32 :=
  match e.action with
  | .stillRunning name pid (.ok false) => if name = c then some pid else none
  | _ => none

namespace Supervisor

/-- Time of the pass in which the child last entered backoff. -/
def enteredBackoff (c : String) (w : World) : Option Instant :=
  (w.log.find? (Event.entersBackoff c)).bind Event.pass

/-- Times at which the restart phase called the launcher for a child, newest
first. -/
def attempts (c : String) (w : World) : List Instant :=
  w.log.filterMap (Event.attempt c)

/-! ## Events of one child -/

/-- The event puts the child into backoff. -/
def ChildEvent.entersBackoff (e : ChildEvent) : Bool :=
  match e.action with
  | .flip _ after => decide (after = some .backoff)
  | _ => false

/-- Time of a launch by the restart phase. -/
def ChildEvent.attempt (e : ChildEvent) : Option Instant :=
  match e.action with
  | .start _ _ => e.pass
  | _ => none

/-- PID of a successful launch. -/
def ChildEvent.launched (e : ChildEvent) : Option UInt32 :=
  match e.action with
  | .start _ (.ok child) => some child.childPid
  | _ => none

/-- PID that a probe reported gone. -/
def ChildEvent.gone (e : ChildEvent) : Option UInt32 :=
  match e.action with
  | .probe pid (.ok false) => some pid
  | _ => none

/-- Time of the pass in which the child last entered backoff. -/
def Life.enteredBackoff (l : Life) : Option Instant :=
  (l.log.find? ChildEvent.entersBackoff).bind ChildEvent.pass

/-- Times at which the restart phase called the launcher, newest first. -/
def Life.attempts (l : Life) : List Instant :=
  l.log.filterMap ChildEvent.attempt

/-! ## The projection keeps the readings -/

variable {c : String} {e : Event}

/-- The projection keeps the pass of an event. -/
theorem pass_eventAbout {b : ChildEvent} (h : eventAbout c e = some b) : b.pass = e.pass := by
  obtain ⟨pass, action⟩ := e
  cases action <;> simp only [eventAbout, Option.ite_none_right_eq_some,
    Option.ite_none_left_eq_some, Option.some.injEq, reduceCtorEq] at h
  all_goals
    rw [← h.2]

theorem entersBackoff_eventAbout (c : String) (e : Event) :
    (eventAbout c e).any ChildEvent.entersBackoff = Event.entersBackoff c e := by
  obtain ⟨pass, action⟩ := e
  cases action with
  | critical before after =>
      by_cases hsame : after.status c = before.status c
      · simp [eventAbout, Event.entersBackoff, hsame]
      · by_cases hafter : after.status c = some .backoff
        · have hbefore : before.status c ≠ some .backoff := fun h => hsame (hafter.trans h.symm)
          simp [eventAbout, Event.entersBackoff, ChildEvent.entersBackoff, hafter, hbefore,
            hbefore.symm]
        · simp [eventAbout, Event.entersBackoff, ChildEvent.entersBackoff, hsame, hafter]
  | start spec answer =>
      by_cases hc : spec.name = c <;>
        simp [eventAbout, Event.entersBackoff, ChildEvent.entersBackoff, hc]
  | stillRunning name pid answer =>
      by_cases hc : name = c <;>
        simp [eventAbout, Event.entersBackoff, ChildEvent.entersBackoff, hc]
  | request req resp => simp [eventAbout, Event.entersBackoff]

theorem attempt_eventAbout (c : String) (e : Event) :
    (eventAbout c e).bind ChildEvent.attempt = Event.attempt c e := by
  obtain ⟨pass, action⟩ := e
  cases action with
  | critical before after =>
      by_cases hsame : after.status c = before.status c <;>
        simp [eventAbout, Event.attempt, ChildEvent.attempt, hsame]
  | start spec answer =>
      by_cases hc : spec.name = c <;> simp [eventAbout, Event.attempt, ChildEvent.attempt, hc]
  | stillRunning name pid answer =>
      by_cases hc : name = c <;> simp [eventAbout, Event.attempt, ChildEvent.attempt, hc]
  | request req resp => simp [eventAbout, Event.attempt]

theorem launched_eventAbout (c : String) (e : Event) :
    (eventAbout c e).bind ChildEvent.launched = Event.launched c e := by
  obtain ⟨pass, action⟩ := e
  cases action with
  | critical before after =>
      by_cases hsame : after.status c = before.status c <;>
        simp [eventAbout, Event.launched, ChildEvent.launched, hsame]
  | start spec answer =>
      by_cases hc : spec.name = c <;> cases answer <;>
        simp [eventAbout, Event.launched, ChildEvent.launched, hc]
  | stillRunning name pid answer =>
      by_cases hc : name = c <;> simp [eventAbout, Event.launched, ChildEvent.launched, hc]
  | request req resp => simp [eventAbout, Event.launched]

theorem gone_eventAbout (c : String) (e : Event) :
    (eventAbout c e).bind ChildEvent.gone = Event.gone c e := by
  obtain ⟨pass, action⟩ := e
  cases action with
  | critical before after =>
      by_cases hsame : after.status c = before.status c <;>
        simp [eventAbout, Event.gone, ChildEvent.gone, hsame]
  | start spec answer =>
      by_cases hc : spec.name = c <;> simp [eventAbout, Event.gone, ChildEvent.gone, hc]
  | stillRunning name pid answer =>
      by_cases hc : name = c <;> rcases answer with e | (_ | _) <;>
        simp [eventAbout, Event.gone, ChildEvent.gone, hc]
  | request req resp => simp [eventAbout, Event.gone]

/-- The projection keeps the time at which the child last entered backoff. -/
theorem lifeOf_enteredBackoff (c : String) (w : World) :
    (lifeOf c w).enteredBackoff = enteredBackoff c w := by
  unfold Life.enteredBackoff enteredBackoff lifeOf
  simp only [List.find?_filterMap, entersBackoff_eventAbout]
  cases hfind : w.log.find? (Event.entersBackoff c) with
  | none => rfl
  | some e =>
      have henters : (eventAbout c e).any ChildEvent.entersBackoff = true :=
        (entersBackoff_eventAbout c e).trans (List.find?_some hfind)
      cases habout : eventAbout c e with
      | none => simp [habout] at henters
      | some b => simpa [habout] using pass_eventAbout habout

/-- The projection keeps the attempts. -/
theorem lifeOf_attempts (c : String) (w : World) : (lifeOf c w).attempts = attempts c w := by
  unfold Life.attempts attempts lifeOf
  simp only [List.filterMap_filterMap, attempt_eventAbout]

/-- A relation between the attempts and the entries into backoff holds in the
history of the program as soon as it holds in the history of the child. -/
theorem pairwise_attempts {R : Instant → Instant → Prop} {w : World}
    (h : (lifeOf c w).log.Pairwise fun later earlier => ∀ t b, later.attempt = some t →
      earlier.entersBackoff = true → earlier.pass = some b → R b t) :
    w.log.Pairwise fun later earlier => ∀ t b, later.attempt c = some t →
      earlier.entersBackoff c = true → earlier.pass = some b → R b t := by
  refine (List.pairwise_filterMap.mp h).imp ?_
  intro later earlier hrel t b hattempt henters hpass
  rw [← attempt_eventAbout] at hattempt
  rw [← entersBackoff_eventAbout, Option.any_eq_true] at henters
  obtain ⟨later', hlater, ht⟩ := Option.bind_eq_some_iff.mp hattempt
  obtain ⟨earlier', hearlier, hb⟩ := henters
  exact hrel later' hlater earlier' hearlier t b ht hb ((pass_eventAbout hearlier).trans hpass)

end Supervisor
end Wintermute
