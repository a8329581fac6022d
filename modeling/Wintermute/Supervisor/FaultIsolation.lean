import Wintermute.Supervisor.Invariant
import Wintermute.Supervisor.Refinement

/-!
# How far a faulty child reaches

Both phases of a pass visit the children in order and leave at the first call that
fails.  A child that cannot be probed or launched therefore cannot touch the
children in front of it, but it cuts the phase off from the children behind it.

The results compare two passes from one world whose spawners give the same answers
for every child except one.

Main results:

- Theorems {lit}`observePhase_before` and {lit}`restartPhase_before`: the children
  in front of the odd one cannot tell the two passes apart.
- Theorems {lit}`observePhase_others` and {lit}`restartPhase_others`: if no call
  for the odd child fails, no other child can.
- Theorems {lit}`observePhase_behind` and {lit}`restartPhase_behind`: a failed call
  for the odd child leaves the children behind it as the phase found them.
- Theorem {lit}`faultIsolation`: the three facts for one pass of a reachable
  supervisor.
-/

namespace Wintermute
namespace Supervisor

open Foundation

/-! ## Stateless spawners -/

/-- Answers that depend only on the child or PID asked about. -/
structure Answers where
  start : ChildSpec → Result StartedChild
  stillRunning : UInt32 → Result Bool

/-- The environment that gives these answers. -/
def Answers.env (answers : Answers) (clients : Clients) : Environment where
  spawner :=
    { start := fun _ => answers.start
      stillRunning := fun _ => answers.stillRunning }
  clients := clients

/-- The answers are the same for every child of the world other than {lit}`odd`. -/
structure AgreeOff (odd : String) (w : World) (answers₁ answers₂ : Answers) : Prop where
  start : ∀ spec, spec.name ≠ odd → answers₁.start spec = answers₂.start spec
  stillRunning : ∀ c slot pid, c ≠ odd → w.view.slot c = some slot → slot.childPid = some pid →
    answers₁.stillRunning pid = answers₂.stillRunning pid

/-- The observation phase would probe the child and fail. -/
def ProbeFails (answers : Answers) (c : String) (w : World) : Prop :=
  ∃ pid e, w.view.runningPid c = some pid ∧ answers.stillRunning pid = .error e

/-- The restart phase would launch the child and fail. -/
def LaunchFails (answers : Answers) (now : Instant) (c : String) (w : World) : Prop :=
  w.view.status c = some .exited ∧ (((w.trackers c).getD default).record now).1 = 0 ∧
    ∃ e, answers.start (relaunchSpec c c) = .error e

/-- The child has the same slot and the same restart history in both worlds. -/
structure SameChild (c : String) (w₁ w₂ : World) : Prop where
  slot_eq : w₁.view.slot c = w₂.view.slot c
  tracker_eq : (w₁.trackers c).getD default = (w₂.trackers c).getD default

/-- The odd child, and the children in front of it and behind it. -/
structure Place (before : List String) (odd : String) (after : List String) (w : World) :
    Prop where
  nodup : w.view.names.Nodup
  names_eq : w.view.names = before ++ odd :: after

namespace Place

variable {before after : List String} {odd : String} {w : World}

/-- The children in front differ from the odd one and from those behind. -/
theorem before_ne (h : Place before odd after w) {c d : String} (hc : c ∈ before)
    (hd : d ∈ odd :: after) : c ≠ d := by
  have hnodup := h.nodup
  rw [h.names_eq] at hnodup
  exact (List.nodup_append.mp hnodup).2.2 c hc d hd

/-- The odd child is not behind itself. -/
theorem odd_not_after (h : Place before odd after w) : odd ∉ after := by
  have hnodup := h.nodup
  rw [h.names_eq] at hnodup
  exact (List.nodup_cons.mp (List.nodup_append.mp hnodup).2.1).1

theorem odd_not_before (h : Place before odd after w) : odd ∉ before :=
  fun hodd => h.before_ne hodd List.mem_cons_self rfl

/-- A loop that stops at the odd child visits no child behind it. -/
theorem visited_ne {β : Type} {f : String → Option β} {value : β}
    (h : Place before odd after w) {c : String} (hc : c ∈ after) {child : String × β}
    (hchild : child ∈ snapshot f before ++ [(odd, value)]) : child.1 ≠ c := by
  rcases List.mem_append.mp hchild with hfront | hodd
  · exact h.before_ne (key_mem_of_mem_snapshot hfront) (List.mem_cons_of_mem odd hc)
  · rw [List.mem_singleton.mp hodd]
    rintro rfl
    exact h.odd_not_after hc

end Place

/-- Nothing tells the two worlds apart that concerns a child satisfying
{lit}`P`. -/
def Agree (P : String → Prop) (w₁ w₂ : World) : Prop :=
  ∀ c, P c → lifeOf c w₁ = lifeOf c w₂

section TwoRuns

variable {env₁ env₂ : Environment} {w w₁ w₂ : World} {P : String → Prop}
variable {before after : List String} {odd : String} {now : Instant}
variable {answers : Answers} {clients : Clients}

/-! ## The observation phase twice -/

/-- An iteration that gets the same answer twice has the same outcome twice. -/
theorem probeChild_related {child : String × UInt32}
    (hanswer : ∀ log₁ log₂,
      env₁.spawner.stillRunning log₁ child.2 = env₂.spawner.stillRunning log₂ child.2)
    (acc₁ acc₂ : List String × World) (h : Agree P acc₁.2 acc₂.2) :
    SameOutcome (fun a b : List String × World => Agree P a.2 b.2)
      (probeChild env₁ acc₁ child) (probeChild env₂ acc₂ child) := by
  obtain ⟨name, pid⟩ := child
  refine ⟨fun c hc => ?_, ?_⟩
  · by_cases hname : name = c
    · subst hname
      rw [probeChild_own, probeChild_own, h name hc, hanswer acc₁.2.log acc₂.2.log]
    · rw [probeChild_frame hname, probeChild_frame hname]
      exact h c hc
  · rw [probeChild_ok_iff, probeChild_ok_iff, hanswer acc₁.2.log acc₂.2.log]

theorem observeStart_agree (h : Agree P w₁ w₂) :
    Agree P (observeStart env₁ w₁) (observeStart env₂ w₂) := by
  have hstart : ∀ env w c, lifeOf c (observeStart env w) = lifeOf c w :=
    fun _ _ _ => lifeOf_lock_frame (fun _ _ => rfl)
  intro c hc
  rw [hstart, hstart]
  exact h c hc

/-- The snapshot, split at the odd child. -/
theorem Place.runningChildren_eq (hplace : Place before odd after w) :
    runningChildren w.view = snapshot w.view.runningPid before ++
      (snapshot w.view.runningPid [odd] ++ snapshot w.view.runningPid after) := by
  rw [Supervisor.runningChildren_eq hplace.nodup, hplace.names_eq, ← snapshot_append,
    ← snapshot_append]
  rfl

/-- The loop over a shared part of the two snapshots has the same outcome. -/
theorem observeLoop_related (keys : List String) (hkeys : ∀ c ∈ keys, P c)
    (hagree : Agree P w₁ w₂)
    (hanswer : ∀ c ∈ keys, ∀ pid, w₁.view.runningPid c = some pid → ∀ log₁ log₂,
      env₁.spawner.stillRunning log₁ pid = env₂.spawner.stillRunning log₂ pid)
    (acc₁ acc₂ : List String × World) (h : Agree P acc₁.2 acc₂.2) :
    SameOutcome (fun a b : List String × World => Agree P a.2 b.2)
      (tryEach (probeChild env₁) (snapshot w₁.view.runningPid keys) acc₁)
      (tryEach (probeChild env₂) (snapshot w₂.view.runningPid keys) acc₂) := by
  have hsame : snapshot w₁.view.runningPid keys = snapshot w₂.view.runningPid keys :=
    snapshot_congr fun c hc => congrArg Life.runningPid (hagree c (hkeys c hc))
  rw [← hsame]
  apply tryEach_related (fun a b : List String × World => Agree P a.2 b.2) _ _ h
  rintro ⟨c, pid⟩ hmem acc₁ acc₂ hacc
  obtain ⟨hc, hpid⟩ := mem_snapshot.mp hmem
  exact probeChild_related (hanswer c hc pid hpid) acc₁ acc₂ hacc

/-- The children in front of the odd one cannot tell two observation phases
apart. -/
theorem observePhase_before (hplace₁ : Place before odd after w₁)
    (hplace₂ : Place before odd after w₂) (hagree : Agree (· ∈ before) w₁ w₂)
    (hanswer : ∀ c ∈ before, ∀ pid, w₁.view.runningPid c = some pid → ∀ log₁ log₂,
      env₁.spawner.stillRunning log₁ pid = env₂.spawner.stillRunning log₂ pid) :
    Agree (· ∈ before) (observePhase env₁ w₁) (observePhase env₂ w₂) := by
  have hloop := observeLoop_related before (fun _ hc => hc) hagree hanswer
    ([], observeStart env₁ w₁) ([], observeStart env₂ w₂) (observeStart_agree hagree)
  have hfront : ∀ (env : Environment) (w : World), Place before odd after w →
      ∀ c ∈ before, lifeOf c (observePhase env w) = lifeOf c (tryEach (probeChild env)
        (snapshot w.view.runningPid before) ([], observeStart env w)).2.2 := by
    intro env w hplace c hc
    rw [(observePhase_eq env w).1, hplace.runningChildren_eq, ← snapshot_append]
    apply tryEach_append_frame (fun acc : List String × World => lifeOf c acc.2)
    intro child hchild acc
    exact probeChild_frame (hplace.before_ne hc (key_mem_of_mem_snapshot hchild)).symm
  intro c hc
  rw [hfront env₁ w₁ hplace₁ c hc, hfront env₂ w₂ hplace₂ c hc]
  exact hloop.1 c hc

/-- A loop over the odd child alone completes unless its probe fails, and no other
child sees it. -/
theorem observeLoop_odd (clients : Clients) (hfails : ¬ProbeFails answers odd w)
    (acc : List String × World) :
    (tryEach (probeChild (answers.env clients)) (snapshot w.view.runningPid [odd]) acc).1 =
        .ok () ∧
      ∀ c, c ≠ odd → lifeOf c (tryEach (probeChild (answers.env clients))
        (snapshot w.view.runningPid [odd]) acc).2.2 = lifeOf c acc.2 := by
  constructor
  · apply tryEach_completes (fun _ => True) _ _ _ trivial
    rintro ⟨c, pid⟩ hmem acc _
    obtain ⟨hc, hpid⟩ := mem_snapshot.mp hmem
    refine ⟨trivial, (probeChild_ok_iff (c, pid)).mpr ?_⟩
    rw [List.mem_singleton.mp hc] at hpid
    cases hanswer : answers.stillRunning pid with
    | error e => exact absurd ⟨pid, e, hpid, hanswer⟩ hfails
    | ok alive => exact ⟨alive, hanswer⟩
  · intro c hc
    apply tryEach_frame (fun acc : List String × World => lifeOf c acc.2)
    intro child hchild acc
    apply probeChild_frame
    rw [List.mem_singleton.mp (key_mem_of_mem_snapshot hchild)]
    exact hc.symm

/-- If no probe of the odd child fails, no other child can tell two observation
phases apart. -/
theorem observePhase_others {answers₁ answers₂ : Answers}
    (hplace₁ : Place before odd after w₁) (hplace₂ : Place before odd after w₂)
    (hagree : Agree (· ≠ odd) w₁ w₂)
    (hanswer : ∀ c, c ≠ odd → ∀ pid, w₁.view.runningPid c = some pid →
      answers₁.stillRunning pid = answers₂.stillRunning pid)
    (hfails₁ : ¬ProbeFails answers₁ odd w₁) (hfails₂ : ¬ProbeFails answers₂ odd w₂) :
    Agree (· ≠ odd) (observePhase (answers₁.env clients) w₁)
      (observePhase (answers₂.env clients) w₂) := by
  let R := fun a b : List String × World => Agree (· ≠ odd) a.2 b.2
  have hshared : ∀ keys, odd ∉ keys → ∀ acc₁ acc₂, R acc₁ acc₂ →
      SameOutcome R
        (tryEach (probeChild (answers₁.env clients)) (snapshot w₁.view.runningPid keys) acc₁)
        (tryEach (probeChild (answers₂.env clients)) (snapshot w₂.view.runningPid keys) acc₂) := by
    intro keys hodd
    have hkeys : ∀ c ∈ keys, c ≠ odd := by
      rintro c hc rfl
      exact hodd hc
    exact observeLoop_related keys hkeys hagree
      (fun c hc pid hpid _ _ => hanswer c (hkeys c hc) pid hpid)
  have hodd : ∀ acc₁ acc₂, R acc₁ acc₂ →
      SameOutcome R
        (tryEach (probeChild (answers₁.env clients)) (snapshot w₁.view.runningPid [odd]) acc₁)
        (tryEach (probeChild (answers₂.env clients)) (snapshot w₂.view.runningPid [odd]) acc₂) := by
    intro acc₁ acc₂ hacc
    obtain ⟨hok₁, hframe₁⟩ := observeLoop_odd clients hfails₁ acc₁
    obtain ⟨hok₂, hframe₂⟩ := observeLoop_odd clients hfails₂ acc₂
    refine ⟨fun c hc => ?_, iff_of_true hok₁ hok₂⟩
    rw [hframe₁ c hc, hframe₂ c hc]
    exact hacc c hc
  have hloop := tryEach_append_related (fun _ _ h => h)
    (hshared before hplace₁.odd_not_before ([], observeStart (answers₁.env clients) w₁)
      ([], observeStart (answers₂.env clients) w₂) (observeStart_agree hagree))
    (fun t₁ t₂ ht => tryEach_append_related (fun _ _ h => h) (hodd t₁ t₂ ht)
      (hshared after hplace₁.odd_not_after))
  intro c hc
  rw [(observePhase_eq _ w₁).1, (observePhase_eq _ w₂).1, hplace₁.runningChildren_eq,
    hplace₂.runningChildren_eq]
  exact hloop.1 c hc

/-- A failing probe leaves the children behind the odd one as the phase found
them. -/
theorem observePhase_behind (hplace : Place before odd after w)
    (hfails : ProbeFails answers odd w) {c : String} (hc : c ∈ after) :
    lifeOf c (observePhase (answers.env clients) w) = lifeOf c w := by
  obtain ⟨pid, e, hpid, herror⟩ := hfails
  have hodd : snapshot w.view.runningPid [odd] = [(odd, pid)] := by
    simp [snapshot, hpid]
  have hprobe : ∀ acc, (probeChild (answers.env clients) acc (odd, pid)).1 ≠ .ok () := by
    intro acc hok
    obtain ⟨alive, halive⟩ := (probeChild_ok_iff (odd, pid)).mp hok
    have hboth := herror.symm.trans halive
    cases hboth
  obtain ⟨e', hstop⟩ := tryEach_append_singleton_error (snapshot w.view.runningPid before)
    (odd, pid) ([], observeStart (answers.env clients) w) (hprobe _)
  have hstart : lifeOf c (observeStart (answers.env clients) w) = lifeOf c w :=
    lifeOf_lock_frame (fun _ _ => rfl)
  rw [(observePhase_eq _ w).1, hplace.runningChildren_eq, hodd, ← List.append_assoc,
    tryEach_append_error hstop, ← hstart]
  apply tryEach_frame (fun acc : List String × World => lifeOf c acc.2)
  intro child hchild acc
  exact probeChild_frame (hplace.visited_ne hc hchild)

/-! ## The restart phase twice -/

/-- The restart loop holds the same about every child satisfying {lit}`P`. -/
def SameView (P : String → Prop) (acc₁ acc₂ : List RestartOutcome × World) : Prop :=
  ∀ c, P c → restartView c acc₁ = restartView c acc₂

/-- An iteration that gets the same answer twice has the same outcome twice. -/
theorem restartChild_related {child : String × String} (hchild : P child.1)
    (hanswer : ∀ log₁ log₂, env₁.spawner.start log₁ (relaunchSpec child.1 child.2) =
      env₂.spawner.start log₂ (relaunchSpec child.1 child.2))
    (acc₁ acc₂ : List RestartOutcome × World) (h : SameView P acc₁ acc₂) :
    SameOutcome (SameView P) (restartChild env₁ now acc₁ child)
      (restartChild env₂ now acc₂ child) := by
  obtain ⟨name, execName⟩ := child
  have hlife : lifeOf name acc₁.2 = lifeOf name acc₂.2 := congrArg Prod.fst (h name hchild)
  have hflag := congrArg Prod.snd (h name hchild)
  have hstart := hanswer acc₁.2.log acc₂.2.log
  constructor
  · intro c hc
    by_cases hname : name = c
    · subst hname
      by_cases hdelay : ((lifeOf name acc₁.2).tracker.record now).1 = 0
      · rw [restartChild_launched env₁ acc₁ execName hdelay,
          restartChild_launched env₂ acc₂ execName (by rw [← hlife]; exact hdelay), hlife, hstart]
        exact congrArg _ hflag
      · rw [restartChild_backedOff env₁ acc₁ execName hdelay,
          restartChild_backedOff env₂ acc₂ execName (by rw [← hlife]; exact hdelay), hlife]
    · rw [restartChild_frame env₁ now acc₁ hname, restartChild_frame env₂ now acc₂ hname]
      exact h c hc
  · have htracker : (acc₁.2.trackers name).getD default = (acc₂.2.trackers name).getD default :=
      congrArg Life.tracker hlife
    rw [restartChild_ok_iff, restartChild_ok_iff, hstart, htracker]

theorem restartStart_agree (h : Agree P w₁ w₂) :
    SameView P ([], restartStart env₁ w₁) ([], restartStart env₂ w₂) := by
  intro c hc
  rw [restartView_start, restartView_start, h c hc]

/-- The snapshot, split at the odd child. -/
theorem Place.exitedChildren_eq (hplace : Place before odd after w) :
    exitedChildren w.view = snapshot (exitedName w.view) before ++
      (snapshot (exitedName w.view) [odd] ++ snapshot (exitedName w.view) after) := by
  rw [Supervisor.exitedChildren_eq hplace.nodup, hplace.names_eq, ← snapshot_append,
    ← snapshot_append]
  rfl

/-- The loop over a shared part of the two snapshots has the same outcome. -/
theorem restartLoop_related (now : Instant) (keys : List String) (hkeys : ∀ c ∈ keys, P c)
    (hagree : Agree P w₁ w₂)
    (hanswer : ∀ c ∈ keys, ∀ log₁ log₂,
      env₁.spawner.start log₁ (relaunchSpec c c) = env₂.spawner.start log₂ (relaunchSpec c c))
    (acc₁ acc₂ : List RestartOutcome × World) (h : SameView P acc₁ acc₂) :
    SameOutcome (SameView P)
      (tryEach (restartChild env₁ now) (snapshot (exitedName w₁.view) keys) acc₁)
      (tryEach (restartChild env₂ now) (snapshot (exitedName w₂.view) keys) acc₂) := by
  have hsame : snapshot (exitedName w₁.view) keys = snapshot (exitedName w₂.view) keys := by
    apply snapshot_congr
    intro c hc
    have hstatus : w₁.view.status c = w₂.view.status c :=
      congrArg Life.status (hagree c (hkeys c hc))
    rw [exitedName, exitedName, hstatus]
  rw [← hsame]
  apply tryEach_related (SameView P) _ _ h
  rintro ⟨c, execName⟩ hmem acc₁ acc₂ hacc
  obtain ⟨hc, hexec⟩ := mem_snapshot.mp hmem
  obtain ⟨-, hself⟩ := Option.ite_none_right_eq_some.mp hexec
  cases hself
  exact restartChild_related (hkeys c hc) (hanswer c hc) acc₁ acc₂ hacc

/-- The children in front of the odd one cannot tell two restart loops apart. -/
theorem restartPhase_before (now : Instant) (hplace₁ : Place before odd after w₁)
    (hplace₂ : Place before odd after w₂) (hagree : Agree (· ∈ before) w₁ w₂)
    (hanswer : ∀ c ∈ before, ∀ log₁ log₂,
      env₁.spawner.start log₁ (relaunchSpec c c) = env₂.spawner.start log₂ (relaunchSpec c c)) :
    SameView (· ∈ before) (restartLoop env₁ now w₁).2 (restartLoop env₂ now w₂).2 := by
  have hloop := restartLoop_related now before (fun _ hc => hc) hagree hanswer
    ([], restartStart env₁ w₁) ([], restartStart env₂ w₂) (restartStart_agree hagree)
  have hfront : ∀ (env : Environment) (w : World), Place before odd after w →
      ∀ c ∈ before, restartView c (restartLoop env now w).2 = restartView c
        (tryEach (restartChild env now) (snapshot (exitedName w.view) before)
          ([], restartStart env w)).2 := by
    intro env w hplace c hc
    rw [restartLoop, hplace.exitedChildren_eq, ← snapshot_append]
    apply tryEach_append_frame (restartView c)
    intro child hchild acc
    exact restartChild_frame env now acc
      (hplace.before_ne hc (key_mem_of_mem_snapshot hchild)).symm
  intro c hc
  rw [hfront env₁ w₁ hplace₁ c hc, hfront env₂ w₂ hplace₂ c hc]
  exact hloop.1 c hc

/-- Until the loop reaches the odd child it leaves its life alone. -/
theorem restartLoop_quiet (env : Environment) (now : Instant)
    (hplace : Place before odd after w) :
    lifeOf odd (tryEach (restartChild env now) (snapshot (exitedName w.view) before)
      ([], restartStart env w)).2.2 = lifeOf odd w := by
  have hframe : restartView odd (tryEach (restartChild env now)
      (snapshot (exitedName w.view) before) ([], restartStart env w)).2 =
        restartView odd ([], restartStart env w) := by
    apply tryEach_frame (restartView odd)
    intro child hchild acc
    exact restartChild_frame env now acc
      (hplace.before_ne (key_mem_of_mem_snapshot hchild) List.mem_cons_self)
  exact congrArg Prod.fst (hframe.trans (restartView_start env w odd))

/-- A loop over the odd child alone completes unless its launch fails, and no other
child sees it. -/
theorem restartLoop_odd (clients : Clients) (hfails : ¬LaunchFails answers now odd w)
    {acc : List RestartOutcome × World} (hacc : lifeOf odd acc.2 = lifeOf odd w) :
    (tryEach (restartChild (answers.env clients) now) (snapshot (exitedName w.view) [odd])
        acc).1 = .ok () ∧
      ∀ c, c ≠ odd → restartView c (tryEach (restartChild (answers.env clients) now)
        (snapshot (exitedName w.view) [odd]) acc).2 = restartView c acc := by
  constructor
  · by_cases hexited : w.view.status odd = some .exited
    · have hodd : snapshot (exitedName w.view) [odd] = [(odd, odd)] := by
        simp [snapshot, exitedName, hexited]
      have hok : (restartChild (answers.env clients) now acc (odd, odd)).1 = .ok () := by
        apply restartChild_ok_iff.mpr
        by_cases hdelay : ((lifeOf odd w).tracker.record now).1 = 0
        · right
          cases hanswer : answers.start (relaunchSpec odd odd) with
          | error e => exact absurd ⟨hexited, hdelay, e, hanswer⟩ hfails
          | ok child => exact ⟨child, hanswer⟩
        · left
          rw [← hacc] at hdelay
          exact hdelay
      rw [hodd, tryEach_cons_ok hok]
      rfl
    · have hodd : snapshot (exitedName w.view) [odd] = [] := by
        simp [snapshot, exitedName, hexited]
      rw [hodd]
      rfl
  · intro c hc
    apply tryEach_frame (restartView c)
    intro child hchild acc
    apply restartChild_frame
    rw [List.mem_singleton.mp (key_mem_of_mem_snapshot hchild)]
    exact hc.symm

/-- If no launch of the odd child fails, no other child can tell two restart phases
apart. -/
theorem restartPhase_others {answers₁ answers₂ : Answers}
    (hplace₁ : Place before odd after w₁) (hplace₂ : Place before odd after w₂)
    (hagree : Agree (· ≠ odd) w₁ w₂)
    (hanswer : ∀ c, c ≠ odd →
      answers₁.start (relaunchSpec c c) = answers₂.start (relaunchSpec c c))
    (hfails₁ : ¬LaunchFails answers₁ now odd w₁)
    (hfails₂ : ¬LaunchFails answers₂ now odd w₂) :
    Agree (· ≠ odd) (restartPhase (answers₁.env clients) now w₁)
      (restartPhase (answers₂.env clients) now w₂) := by
  -- Until the loops reach the odd child they also leave its life alone.
  let Q := SameView (· ≠ odd)
  let R := fun a b : List RestartOutcome × World =>
    Q a b ∧ lifeOf odd a.2 = lifeOf odd w₁ ∧ lifeOf odd b.2 = lifeOf odd w₂
  have hshared : ∀ keys, odd ∉ keys → ∀ acc₁ acc₂, Q acc₁ acc₂ →
      SameOutcome Q
        (tryEach (restartChild (answers₁.env clients) now)
          (snapshot (exitedName w₁.view) keys) acc₁)
        (tryEach (restartChild (answers₂.env clients) now)
          (snapshot (exitedName w₂.view) keys) acc₂) := by
    intro keys hodd
    have hkeys : ∀ c ∈ keys, c ≠ odd := by
      rintro c hc rfl
      exact hodd hc
    exact restartLoop_related now keys hkeys hagree
      (fun c hc _ _ => hanswer c (hkeys c hc))
  have hbefore : SameOutcome R
      (tryEach (restartChild (answers₁.env clients) now) (snapshot (exitedName w₁.view) before)
        ([], restartStart (answers₁.env clients) w₁))
      (tryEach (restartChild (answers₂.env clients) now) (snapshot (exitedName w₂.view) before)
        ([], restartStart (answers₂.env clients) w₂)) := by
    obtain ⟨hview, hiff⟩ := hshared before hplace₁.odd_not_before _ _ (restartStart_agree hagree)
    exact ⟨⟨hview, restartLoop_quiet _ now hplace₁, restartLoop_quiet _ now hplace₂⟩, hiff⟩
  have hodd : ∀ acc₁ acc₂, R acc₁ acc₂ →
      SameOutcome Q
        (tryEach (restartChild (answers₁.env clients) now)
          (snapshot (exitedName w₁.view) [odd]) acc₁)
        (tryEach (restartChild (answers₂.env clients) now)
          (snapshot (exitedName w₂.view) [odd]) acc₂) := by
    rintro acc₁ acc₂ ⟨hview, hlife₁, hlife₂⟩
    obtain ⟨hok₁, hframe₁⟩ := restartLoop_odd clients hfails₁ hlife₁
    obtain ⟨hok₂, hframe₂⟩ := restartLoop_odd clients hfails₂ hlife₂
    refine ⟨fun c hc => ?_, iff_of_true hok₁ hok₂⟩
    rw [hframe₁ c hc, hframe₂ c hc]
    exact hview c hc
  have hloop : SameOutcome Q (restartLoop (answers₁.env clients) now w₁)
      (restartLoop (answers₂.env clients) now w₂) := by
    rw [restartLoop, restartLoop, hplace₁.exitedChildren_eq, hplace₂.exitedChildren_eq]
    exact tryEach_append_related (fun _ _ h => h.1) hbefore
      (fun t₁ t₂ ht => tryEach_append_related (fun _ _ h => h) (hodd t₁ t₂ ht)
        (hshared after hplace₁.odd_not_after))
  obtain ⟨hview, hiff⟩ := hloop
  rw [← restartCompletes_iff, ← restartCompletes_iff] at hiff
  intro c hc
  exact restartPhase_congr (hview c hc) hiff

/-- A failing launch leaves the children behind the odd one as the phase found
them. -/
theorem restartPhase_behind (hplace : Place before odd after w)
    (hfails : LaunchFails answers now odd w) {c : String} (hc : c ∈ after) :
    lifeOf c (restartPhase (answers.env clients) now w) = lifeOf c w := by
  obtain ⟨hexited, hdelay, e, herror⟩ := hfails
  have hodd : snapshot (exitedName w.view) [odd] = [(odd, odd)] := by
    simp [snapshot, exitedName, hexited]
  have hquiet := restartLoop_quiet (answers.env clients) now hplace
  have hlaunch : (restartChild (answers.env clients) now
      (tryEach (restartChild (answers.env clients) now) (snapshot (exitedName w.view) before)
        ([], restartStart (answers.env clients) w)).2 (odd, odd)).1 ≠ .ok () := by
    intro hok
    rcases restartChild_ok_iff.mp hok with hbackoff | ⟨child, hchild⟩
    · apply hbackoff
      exact (congrArg (fun l => (l.tracker.record now).1) hquiet).trans hdelay
    · have hboth := herror.symm.trans hchild
      cases hboth
  obtain ⟨e', hstop⟩ := tryEach_append_singleton_error (snapshot (exitedName w.view) before)
    (odd, odd) ([], restartStart (answers.env clients) w) hlaunch
  have hloop : restartLoop (answers.env clients) now w =
      tryEach (restartChild (answers.env clients) now)
        (snapshot (exitedName w.view) before ++ [(odd, odd)])
        ([], restartStart (answers.env clients) w) := by
    rw [restartLoop, hplace.exitedChildren_eq, hodd, ← List.append_assoc,
      tryEach_append_error hstop]
  have hframe : restartView c (restartLoop (answers.env clients) now w).2 =
      restartView c ([], restartStart (answers.env clients) w) := by
    rw [hloop]
    apply tryEach_frame (restartView c)
    intro child hchild acc
    exact restartChild_frame _ _ acc (hplace.visited_ne hc hchild)
  exact lifeOf_restartPhase_of_view (hframe.trans (restartView_start _ w c))

end TwoRuns

/-! ## One pass twice -/

/-- A child with the same life has the same slot, history and wake-up time. -/
theorem sameChild_of_lifeOf {c : String} {w₁ w₂ : World} (h : lifeOf c w₁ = lifeOf c w₂) :
    SameChild c w₁ w₂ ∧ w₁.backoffUntil c = w₂.backoffUntil c :=
  ⟨⟨congrArg Life.slot h, congrArg Life.tracker h⟩, congrArg Life.due h⟩

/-- A restart phase leaves the slot and the restart history that its loop holds. -/
theorem restartPhase_sameChild (env : Environment) (now : Instant) (w : World) (c : String) :
    SameChild c (restartPhase env now w) (restartLoop env now w).2.2 := by
  obtain ⟨hdone, hstopped⟩ := lifeOf_restartPhase env now w c
  by_cases hcompletes : RestartCompletes env now w
  · exact ⟨congrArg Life.slot (hdone hcompletes), congrArg Life.tracker (hdone hcompletes)⟩
  · exact ⟨congrArg Life.slot (hstopped hcompletes), congrArg Life.tracker (hstopped hcompletes)⟩

/-- A child that runs after the clearing phase has kept its PID. -/
theorem cleared_runningPid {env : Environment} {now : Instant} {w : World} {c : String}
    {pid : UInt32} (hnodup : w.view.names.Nodup)
    (hpid : (cleared env now w).view.runningPid c = some pid) :
    ∃ slot, w.view.slot c = some slot ∧ slot.childPid = some pid := by
  obtain ⟨slot, hslot, hif⟩ := Option.bind_eq_some_iff.mp hpid
  have hheld : (lifeOf c (cleared env now w)).slot.bind ChildState.childPid = some pid := by
    rw [show (lifeOf c (cleared env now w)).slot = some slot from hslot]
    split at hif
    · exact hif
    · cases hif
  rw [lifeOf_cleared hnodup, Life.clear_childPid] at hheld
  exact Option.bind_eq_some_iff.mp hheld

/-- Two observer passes at the same time, from the same reachable supervisor, whose
spawners give the same answers for every child except {lit}`odd`.  The children in
front of the odd one keep the same slot and restart history, and the same wake-up
time if the restart phases both complete or both fail.  If neither pass has a call
for the odd child fail, this holds for every other child.  A failing call for the
odd child leaves the children behind it as the phase found them. -/
theorem faultIsolation (env : Environment) (times : List Instant) (clients : Clients)
    (now : Instant) (before after : List String) (odd : String)
    (horder : childStartupOrder = before ++ odd :: after) (answers₁ answers₂ : Answers)
    (hagree : AgreeOff odd (run env times) answers₁ answers₂) :
    let w := run env times
    let env₁ := answers₁.env clients
    let env₂ := answers₂.env clients
    (∀ c ∈ before, SameChild c (observerPass env₁ now w) (observerPass env₂ now w) ∧
      ((RestartCompletes env₁ now (observed env₁ now w) ↔
          RestartCompletes env₂ now (observed env₂ now w)) →
        (observerPass env₁ now w).backoffUntil c = (observerPass env₂ now w).backoffUntil c)) ∧
    (¬ProbeFails answers₁ odd (cleared env₁ now w) →
      ¬ProbeFails answers₂ odd (cleared env₂ now w) →
      ¬LaunchFails answers₁ now odd (observed env₁ now w) →
      ¬LaunchFails answers₂ now odd (observed env₂ now w) →
      ∀ c, c ≠ odd → SameChild c (observerPass env₁ now w) (observerPass env₂ now w) ∧
        (observerPass env₁ now w).backoffUntil c = (observerPass env₂ now w).backoffUntil c) ∧
    ∀ c ∈ after, ∀ answers : Answers,
      (ProbeFails answers odd (cleared (answers.env clients) now w) →
        SameChild c (observed (answers.env clients) now w) (cleared (answers.env clients) now w) ∧
        (observed (answers.env clients) now w).backoffUntil c =
          (cleared (answers.env clients) now w).backoffUntil c) ∧
      (LaunchFails answers now odd (observed (answers.env clients) now w) →
        SameChild c (observerPass (answers.env clients) now w)
            (observed (answers.env clients) now w) ∧
        (observerPass (answers.env clients) now w).backoffUntil c =
          (observed (answers.env clients) now w).backoffUntil c) := by
  intro w env₁ env₂
  have hplace : ∀ w' : World, w'.view.names = w.view.names → Place before odd after w' := by
    intro w' hnames
    refine ⟨?_, ?_⟩
    · rw [hnames]
      exact run_nodup env times
    · rw [hnames, show w.view.names = childStartupOrder from
        runSpecs_names env canonicalChildren times]
      exact horder
  have hcleared : ∀ env', Place before odd after (cleared env' now w) :=
    fun env' => hplace _ (cleared_continues env' now w).names_eq
  have hobserved : ∀ env', Place before odd after (observed env' now w) :=
    fun env' => hplace _ (observed_continues env' now w).names_eq
  have hclear : ∀ env' c, lifeOf c (cleared env' now w) = ((lifeOf c w).enter now).clear now :=
    fun env' c => lifeOf_cleared (run_nodup env times) env' now c
  have hclearAgree : ∀ P : String → Prop, Agree P (cleared env₁ now w) (cleared env₂ now w) :=
    fun P c _ => (hclear env₁ c).trans (hclear env₂ c).symm
  have hprobe : ∀ c, c ≠ odd → ∀ pid, (cleared env₁ now w).view.runningPid c = some pid →
      answers₁.stillRunning pid = answers₂.stillRunning pid := by
    intro c hc pid hpid
    obtain ⟨slot, hslot, hheld⟩ := cleared_runningPid (run_nodup env times) hpid
    exact hagree.stillRunning c slot pid hc hslot hheld
  have hfront : ∀ c ∈ before, c ≠ odd :=
    fun c hc => (hplace w rfl).before_ne hc List.mem_cons_self
  refine ⟨?_, ?_, ?_⟩
  · have hseen : Agree (· ∈ before) (observed env₁ now w) (observed env₂ now w) :=
      observePhase_before (hcleared env₁) (hcleared env₂) (hclearAgree _)
        (fun c hc pid hpid _ _ => hprobe c (hfront c hc) pid hpid)
    have hviews : SameView (· ∈ before) (restartLoop env₁ now (observed env₁ now w)).2
        (restartLoop env₂ now (observed env₂ now w)).2 :=
      restartPhase_before now (hobserved env₁) (hobserved env₂) hseen
        (fun c hc _ _ => hagree.start (relaunchSpec c c) (hfront c hc))
    intro c hc
    have hloops := (sameChild_of_lifeOf (congrArg Prod.fst (hviews c hc))).1
    have hpassed₁ := restartPhase_sameChild env₁ now (observed env₁ now w) c
    have hpassed₂ := restartPhase_sameChild env₂ now (observed env₂ now w) c
    refine ⟨⟨?_, ?_⟩, fun hiff => ?_⟩
    · exact hpassed₁.slot_eq.trans (hloops.slot_eq.trans hpassed₂.slot_eq.symm)
    · exact hpassed₁.tracker_eq.trans (hloops.tracker_eq.trans hpassed₂.tracker_eq.symm)
    · exact (sameChild_of_lifeOf (restartPhase_congr (hviews c hc) hiff)).2
  · intro hprobe₁ hprobe₂ hlaunch₁ hlaunch₂ c hc
    have hseen : Agree (· ≠ odd) (observed env₁ now w) (observed env₂ now w) :=
      observePhase_others (hcleared env₁) (hcleared env₂) (hclearAgree _) hprobe hprobe₁ hprobe₂
    exact sameChild_of_lifeOf (restartPhase_others (hobserved env₁) (hobserved env₂) hseen
      (fun c hc => hagree.start (relaunchSpec c c) hc) hlaunch₁ hlaunch₂ c hc)
  · intro c hc answers
    exact ⟨fun hfails => sameChild_of_lifeOf (observePhase_behind (hcleared _) hfails hc),
      fun hfails => sameChild_of_lifeOf (restartPhase_behind (hobserved _) hfails hc)⟩

/-- Every child has died; every launch succeeds. -/
def allDead : Answers where
  start spec := .ok ⟨spec.name, 1, 1⟩
  stillRunning _ := .ok false

/-- Every child has died; {lit}`wm-audio` fails to start. -/
def audioBroken : Answers where
  start spec := if spec.name = "wm-audio" then .error ⟨["spawn failed"]⟩ else .ok ⟨spec.name, 1, 1⟩
  stillRunning _ := .ok false

/-- The two agree on every child except {lit}`wm-audio`. -/
theorem allDead_agreeOff (w : World) : AgreeOff "wm-audio" w allDead audioBroken where
  start _ hspec := (if_neg hspec).symm
  stillRunning _ _ _ _ _ _ := rfl

/-- The children behind {lit}`wm-audio` are not independent of its faults: they are
relaunched in one pass and left exited in the other. -/
theorem faultIsolation_fails :
    ¬∀ (env : Environment) (times : List Instant) (clients : Clients) (now : Instant)
      (odd : String) (answers₁ answers₂ : Answers), odd ∈ childStartupOrder →
      AgreeOff odd (run env times) answers₁ answers₂ →
      (∃ e, answers₂.start (relaunchSpec odd odd) = .error e) →
      (∀ spec, ∃ child, answers₁.start spec = .ok child) →
      (∀ pid, ∃ alive, answers₁.stillRunning pid = .ok alive) →
      ∀ c, c ≠ odd →
        (observerPass (answers₁.env clients) now (run env times)).view.status c =
          (observerPass (answers₂.env clients) now (run env times)).view.status c := by
  intro h
  have hsame := h (allDead.env Clients.quiet) [] Clients.quiet 0 "wm-audio" allDead audioBroken
    (by decide) (allDead_agreeOff _) ⟨_, rfl⟩ (fun _ => ⟨_, rfl⟩) (fun _ => ⟨_, rfl⟩) "wm-tts"
    (by decide)
  have hdiffer : (observerPass (allDead.env Clients.quiet) 0
      (run (allDead.env Clients.quiet) [])).view.status "wm-tts" ≠
        (observerPass (audioBroken.env Clients.quiet) 0
          (run (allDead.env Clients.quiet) [])).view.status "wm-tts" := by
    decide +kernel
  exact hdiffer hsame

/-- When {lit}`wm-audio` breaks, {lit}`wm-tts` stays as the restart phase found
it. -/
theorem faultIsolation_audioBroken :
    SameChild "wm-tts"
      (observerPass (audioBroken.env Clients.quiet) 0 (run (allDead.env Clients.quiet) []))
      (observed (audioBroken.env Clients.quiet) 0 (run (allDead.env Clients.quiet) [])) := by
  have hfails : LaunchFails audioBroken 0 "wm-audio" (observed (audioBroken.env Clients.quiet) 0
      (run (allDead.env Clients.quiet) [])) := by
    refine ⟨?_, ?_, _, rfl⟩
    · decide +kernel
    · decide +kernel
  exact (((faultIsolation (allDead.env Clients.quiet) [] Clients.quiet 0 []
    ["wm-tts", "wm-stt", "wm-dialog", "wmd"] "wm-audio" (by decide) allDead audioBroken
    (allDead_agreeOff _)).2.2 "wm-tts" (by decide) audioBroken).2 hfails).1

end Supervisor
end Wintermute
