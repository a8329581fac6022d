import Wintermute.Supervisor.NoDuplicate

/-!
# Faults at start-up

{lit}`start_specs` leaves at the first failed launch.  The child it was launching
stays in the starting state, the ones behind it stay pending, and the observer
skips both states, so none of them is ever tried again.

Main results:

- Theorem {lit}`observerPass_skips`: a pass skips a child that is neither running
  nor exited nor in backoff.
- Theorem {lit}`observerPass_running`: a pass keeps a running child whose process
  stays alive.
- Theorem {lit}`startupRecovers_iff`: on a healthy machine the listed children come
  to run exactly when no launch of start-up failed.
- Theorem {lit}`startup_not_recovered`: a run in which one child never does.
-/

namespace Wintermute
namespace Supervisor

open Foundation

/-! ## Recovery -/

/-- Every listed child is running. -/
def AllRunning (specs : List ChildSpec) (w : World) : Prop :=
  ∀ spec ∈ specs, w.view.status spec.name = some .running

/-- The first passes from {lit}`start` on, one second apart. -/
def everySecond (start : Instant) (n : ℕ) : List Instant :=
  (List.range n).map fun i => start + Duration.fromSecs i

/-- No launch so far has failed. -/
def LaunchesSucceed (w : World) : Prop :=
  ∀ e ∈ w.log, ∀ spec answer, e.action = .start spec answer → ∃ child, answer = .ok child

/-- From this world on the spawner never fails, and every process it has started or
starts later stays alive. -/
structure Healthy (env : Environment) (w : World) : Prop where
  start : ∀ log spec, w.log <:+ log → ∃ child, env.spawner.start log spec = .ok child
  stillRunning : ∀ log pid, w.log <:+ log → ∃ alive, env.spawner.stillRunning log pid = .ok alive
  alive : ∀ log c pid, w.log <:+ log → (∃ e ∈ log, e.launched c = some pid) →
    env.spawner.stillRunning log pid = .ok true

/-! ## Passes that leave a child alone -/

variable {env : Environment} {c : String}

/-- A pass skips a child that is neither running nor exited nor in backoff. -/
theorem observerPass_skips {w : World} (hnodup : w.view.names.Nodup) (now : Instant)
    (hrunning : w.view.status c ≠ some .running) (hexited : w.view.status c ≠ some .exited)
    (hbackoff : w.view.status c ≠ some .backoff) :
    (observerPass env now w).view.status c = w.view.status c := by
  obtain ⟨hobserves, hrestarts⟩ := observerPass_life hnodup env now c
  have hcleared : ((lifeOf c w).enter now).clear now = (lifeOf c w).enter now :=
    Life.clear_of_not_expired fun h => hbackoff h.1
  rw [hcleared] at hobserves
  have hobserved := hobserves.eq_self hrunning
  have hpassed := hrestarts.eq_self (by rw [hobserved]; exact hexited)
  rw [← lifeOf_status, hpassed, hobserved]
  rfl

/-- A pass keeps a running child whose process stays alive. -/
theorem observerPass_running {w w₀ : World} (hnodup : w.view.names.Nodup) (now : Instant)
    (hhealthy : Healthy env w₀) (hsuffix : w₀.log <:+ w.log)
    (haccounted : (lifeOf c w).Accounted) (hrunning : w.view.status c = some .running) :
    (observerPass env now w).view.status c = some .running := by
  obtain ⟨hobserves, hrestarts⟩ := observerPass_life hnodup env now c
  have hcleared : ((lifeOf c w).enter now).clear now = (lifeOf c w).enter now :=
    Life.clear_of_not_expired (Life.awake_of_running hrunning)
  rw [hcleared] at hobserves
  have hobserved : (lifeOf c (observed env now w)).status = some .running := by
    generalize lifeOf c (observed env now w) = seen at hobserves ⊢
    cases hobserves with
    | idle _ => exact hrunning
    | unvisited _ _ _ => exact hrunning
    | visited pid answer hpid hanswer _ =>
        obtain ⟨log, hlog, rfl⟩ := hanswer
        have hextends : w.log <:+ log :=
          (cleared_continues env now w).log_suffix.trans hlog
        obtain ⟨b, hb, hlaunched⟩ :=
          List.exists_of_findSome?_eq_some (haccounted.running pid hpid)
        obtain ⟨e, he, habout⟩ := List.mem_filterMap.mp hb
        have halive : env.spawner.stillRunning log pid = .ok true := by
          refine hhealthy.alive log c pid (hsuffix.trans hextends)
            ⟨e, hextends.subset he, ?_⟩
          rw [← launched_eventAbout, habout]
          exact hlaunched
        rw [halive, Life.probed_alive (by simp)]
        exact hrunning
  rw [← lifeOf_status, hrestarts.eq_self (by rw [hobserved]; decide)]
  exact hobserved

/-! ## Start-up -/

/-- A supervised child has a status. -/
theorem exists_status {view : SupervisorView} (hc : c ∈ view.names) :
    ∃ s, view.status c = some s := by
  obtain ⟨slot, hslot, rfl⟩ := List.mem_map.mp hc
  have hfind : (view.slot slot.name).isSome = true :=
    List.find?_isSome.mpr ⟨slot, hslot, by simp⟩
  obtain ⟨found, hfound⟩ := Option.isSome_iff_exists.mp hfind
  exact ⟨found.status, by rw [SupervisorView.status, hfound]; rfl⟩

variable {specs : List ChildSpec}

/-- Start-up completes exactly when none of its launches failed. -/
theorem launchesSucceed_iff (hnodup : (specs.map ChildSpec.name).Nodup) :
    LaunchesSucceed (startSpecs env specs World.new).2 ↔
      (startSpecs env specs World.new).1 = .ok () := by
  constructor
  · intro h
    by_contra hfailed
    obtain ⟨spec, -, w, e, -, -, hlog⟩ := startSpecs_stop hfailed
    obtain ⟨child, hok⟩ := h _ (by rw [hlog]; exact List.mem_cons_self) spec (.error e) rfl
    cases hok
  · intro hok e he spec answer haction
    have habout : eventAbout spec.name e = some ⟨e.pass, .start spec answer⟩ := by
      simp [eventAbout, haction]
    have hmem : ⟨e.pass, .start spec answer⟩ ∈
        (lifeOf spec.name (startSpecs env specs World.new).2).log :=
      List.mem_filterMap.mpr ⟨e, he, habout⟩
    have hfresh := lifeOf_new_fresh spec.name
    by_cases hlisted : spec.name ∈ specs.map ChildSpec.name
    · obtain ⟨spec', hspec', hname⟩ := List.mem_map.mp hlisted
      rcases startSpecs_life env hnodup hspec' World.new with
        ⟨hstop, -⟩ | ⟨answer', -, hanswer', hlife⟩
      · exact absurd hok hstop
      · rw [← hname, hlife] at hmem
        rw [Life.started_start (by rw [hname]; exact hfresh) hmem]
        exact hanswer' hok
    · rw [startSpecs_frame hlisted, hfresh.log_eq] at hmem
      cases hmem

/-- A completed start-up leaves every listed child running. -/
theorem startSpecs_running (hnodup : (specs.map ChildSpec.name).Nodup)
    (hlisted : ∀ spec ∈ specs, spec.name ∈ childStartupOrder)
    (hok : (startSpecs env specs World.new).1 = .ok ()) :
    AllRunning specs (startSpecs env specs World.new).2 := by
  intro spec hspec
  have hname : spec.name ∈ World.new.view.names := by
    rw [show World.new.view.names = childStartupOrder from pendingFor_canonical_names]
    exact hlisted spec hspec
  obtain ⟨old, hstatus⟩ := exists_status hname
  rcases startSpecs_life env hnodup hspec World.new with
    ⟨hstop, -⟩ | ⟨answer, -, hanswer, hlife⟩
  · exact absurd hok hstop
  · obtain ⟨child, rfl⟩ := hanswer hok
    rw [← lifeOf_status, hlife]
    exact Life.started_ok (l := lifeOf spec.name World.new) hstatus spec child

/-- An aborted start-up leaves a listed child in the starting state. -/
theorem startSpecs_starting (hlisted : ∀ spec ∈ specs, spec.name ∈ childStartupOrder)
    (hfailed : (startSpecs env specs World.new).1 ≠ .ok ()) :
    ∃ spec ∈ specs,
      (startSpecs env specs World.new).2.view.status spec.name = some .starting := by
  obtain ⟨spec, hspec, w, e, hcont, hlife, -⟩ := startSpecs_stop hfailed
  have hname : spec.name ∈ w.view.names := by
    rw [hcont.names_eq, show World.new.view.names = childStartupOrder from
      pendingFor_canonical_names]
    exact hlisted spec hspec
  obtain ⟨old, hstatus⟩ := exists_status hname
  refine ⟨spec, hspec, ?_⟩
  rw [← lifeOf_status, hlife]
  exact Life.started_error (l := lifeOf spec.name w) hstatus spec e

/-! ## Runs -/

/-- A child in the starting state stays there for ever. -/
theorem runSpecs_starting (times : List Instant)
    (h : (startSpecs env specs World.new).2.view.status c = some .starting) :
    (runSpecs env specs times).view.status c = some .starting := by
  induction times using List.reverseRecOn with
  | nil => exact h
  | append_singleton times now ih =>
      rw [runSpecs_snoc, observerPass_skips (runSpecs_nodup env specs times) now
        (by rw [ih]; decide) (by rw [ih]; decide) (by rw [ih]; decide)]
      exact ih

/-- The history of a run extends that of its start-up. -/
theorem runSpecs_suffix (env : Environment) (specs : List ChildSpec) (times : List Instant) :
    (startSpecs env specs World.new).2.log <:+ (runSpecs env specs times).log := by
  induction times using List.reverseRecOn with
  | nil => exact List.suffix_rfl
  | append_singleton times now ih =>
      rw [runSpecs_snoc]
      exact ih.trans (observerPass_continues env now _).log_suffix

/-- On a healthy machine a running child stays running. -/
theorem runSpecs_running (hnodup : (specs.map ChildSpec.name).Nodup)
    (hhealthy : Healthy env (startSpecs env specs World.new).2) (times : List Instant)
    (h : (startSpecs env specs World.new).2.view.status c = some .running) :
    (runSpecs env specs times).view.status c = some .running := by
  induction times using List.reverseRecOn with
  | nil => exact h
  | append_singleton times now ih =>
      rw [runSpecs_snoc]
      have haccounted := ((Life.accounted_invariant fun _ _ => True).run
        (runSpecs_refines env hnodup times c) (List.pairwise_of_forall fun _ _ => trivial)).1
      exact observerPass_running (runSpecs_nodup env specs times) now hhealthy
        (runSpecs_suffix env specs times) haccounted ih

/-- If the machine is healthy from the end of start-up on, the listed children come
to run, after any number of passes, exactly when no launch of start-up failed, and
then they run after every number of passes. -/
theorem startupRecovers_iff (env : Environment) (specs : List ChildSpec)
    (hnodup : (specs.map ChildSpec.name).Nodup)
    (hlisted : ∀ spec ∈ specs, spec.name ∈ childStartupOrder)
    (hhealthy : Healthy env (startSpecs env specs World.new).2) (start : Instant) :
    ((∃ n, AllRunning specs (runSpecs env specs (everySecond start n))) ↔
        LaunchesSucceed (startSpecs env specs World.new).2) ∧
      (LaunchesSucceed (startSpecs env specs World.new).2 →
        ∀ n, AllRunning specs (runSpecs env specs (everySecond start n))) := by
  have hkept : LaunchesSucceed (startSpecs env specs World.new).2 →
      ∀ n, AllRunning specs (runSpecs env specs (everySecond start n)) := by
    intro h n spec hspec
    have hok := (launchesSucceed_iff hnodup).mp h
    exact runSpecs_running hnodup hhealthy _ (startSpecs_running hnodup hlisted hok spec hspec)
  refine ⟨⟨?_, fun h => ⟨0, hkept h 0⟩⟩, hkept⟩
  rintro ⟨n, hrunning⟩
  rw [launchesSucceed_iff hnodup]
  by_contra hfailed
  obtain ⟨spec, hspec, hstarting⟩ := startSpecs_starting hlisted hfailed
  have hboth := (hrunning spec hspec).symm.trans (runSpecs_starting _ hstarting)
  cases hboth

/-- Every launch succeeds and every process stays alive. -/
def calm : Environment where
  spawner :=
    { start := fun _ spec => .ok ⟨spec.name, 1, 1⟩
      stillRunning := fun _ _ => .ok true }
  clients := Clients.quiet

/-- On a calm machine the five children run. -/
theorem startupRecovers_calm :
    ((∃ n, AllRunning canonicalChildren (runSpecs calm canonicalChildren (everySecond 0 n))) ↔
        LaunchesSucceed (startSpecs calm canonicalChildren World.new).2) ∧
      (LaunchesSucceed (startSpecs calm canonicalChildren World.new).2 →
        ∀ n, AllRunning canonicalChildren (runSpecs calm canonicalChildren (everySecond 0 n))) :=
  startupRecovers_iff calm canonicalChildren (by decide) (by decide)
    ⟨fun _ _ _ => ⟨_, rfl⟩, fun _ _ _ => ⟨_, rfl⟩, fun _ _ _ _ _ => rfl⟩ 0

/-- The first launch of {lit}`wm-tts` fails; everything else succeeds and stays
alive. -/
def flakyBoot : Environment where
  spawner :=
    { start := fun log spec =>
        if spec.name = "wm-tts" ∧ log.length < 5 then .error ⟨["spawn failed"]⟩
        else .ok ⟨spec.name, 1, 1⟩
      stillRunning := fun _ _ => .ok true }
  clients := Clients.quiet

/-- One failed launch at start-up is never made good. -/
theorem startup_not_recovered :
    ¬∀ (env : Environment) (specs : List ChildSpec), (specs.map ChildSpec.name).Nodup →
      (∀ spec ∈ specs, spec.name ∈ childStartupOrder) →
      Healthy env (startSpecs env specs World.new).2 → ∀ start,
        ∃ n, AllRunning specs (runSpecs env specs (everySecond start n)) := by
  intro h
  have hlength : (startSpecs flakyBoot canonicalChildren World.new).2.log.length = 5 := by
    decide +kernel
  have hstarting : (startSpecs flakyBoot canonicalChildren World.new).2.view.status "wm-tts" =
      some .starting := by
    decide +kernel
  have hhealthy : Healthy flakyBoot (startSpecs flakyBoot canonicalChildren World.new).2 := by
    refine ⟨?_, fun _ _ _ => ⟨_, rfl⟩, fun _ _ _ _ _ => rfl⟩
    intro log spec hsuffix
    have hlate : ¬(spec.name = "wm-tts" ∧ log.length < 5) := by
      have hle := hsuffix.length_le
      omega
    exact ⟨_, if_neg hlate⟩
  obtain ⟨n, hrunning⟩ := h flakyBoot canonicalChildren (by decide) (by decide) hhealthy 0
  have hboth := (hrunning ⟨"wm-tts", "wm-tts", []⟩ (by decide)).symm.trans
    (runSpecs_starting _ hstarting)
  cases hboth

end Supervisor
end Wintermute
