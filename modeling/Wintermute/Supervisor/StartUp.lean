import Wintermute.Supervisor.Projection

/-!
# Start-up through one child

{lit}`start_specs` marks a child as starting, calls the launcher and marks it as
running.  A failed launch leaves the loop: the child stays in the starting state,
and the specs behind it are never looked at.

Main results:

- Theorem {lit}`startSpecs_life`: start-up through the projection of a child.
- Theorem {lit}`startSpecs_stop`: the world an aborted start-up leaves.
- Theorem {lit}`startSpecs_starts`: start-up of a new supervisor is a start of the
  machine.
-/

namespace Wintermute
namespace Supervisor

open Foundation

variable {env : Environment} {c : String}

/-! ## One spec -/

/-- The world in which the launcher is called for a spec. -/
def starting (env : Environment) (w : World) (name : String) : World :=
  (w.lock env (SupervisorView.update (fun slot => slot.name == name)
    ChildState.markStarting)).2

theorem starting_continues (env : Environment) (w : World) (name : String) :
    Continues w (starting env w name) :=
  continues_update ChildState.markStarting_name _

/-- An iteration notes the launch; a successful one marks the child as running. -/
theorem startSpec_cases (env : Environment) (w : World) (spec : ChildSpec) :
    (∃ e, env.spawner.start (starting env w spec.name).log spec = .error e ∧
        startSpec env w spec = (.error (e.withContext s!"start child {spec.name}"),
          (starting env w spec.name).note (.start spec (.error e)))) ∨
      ∃ child, env.spawner.start (starting env w spec.name).log spec = .ok child ∧
        startSpec env w spec = (.ok (), (World.lock env
          (SupervisorView.update (fun slot => slot.name == spec.name)
            (ChildState.markRunning child.childPid))
          ((starting env w spec.name).note (.start spec (.ok child)))).2) := by
  cases hanswer : env.spawner.start (starting env w spec.name).log spec with
  | error e =>
      refine Or.inl ⟨e, rfl, ?_⟩
      rw [starting] at hanswer
      unfold startSpec
      dsimp only
      rw [hanswer]
      rfl
  | ok child =>
      refine Or.inr ⟨child, rfl, ?_⟩
      rw [starting] at hanswer
      unfold startSpec
      dsimp only
      rw [hanswer]
      rfl

theorem startSpec_continues (w : World) (spec : ChildSpec) :
    Continues w (startSpec env w spec).2 := by
  have hnote : ∀ answer,
      Continues w ((starting env w spec.name).note (.start spec answer)) :=
    fun answer => (starting_continues env w spec.name).trans (Continues.note _ _)
  rcases startSpec_cases env w spec with ⟨e, -, heq⟩ | ⟨child, -, heq⟩
  · rw [heq]
    exact hnote _
  · rw [heq]
    exact (hnote _).trans (continues_update (ChildState.markRunning_name _) _)

/-- Starting another child is invisible. -/
theorem startSpec_frame {spec : ChildSpec} (hne : spec.name ≠ c) (w : World) :
    lifeOf c (startSpec env w spec).2 = lifeOf c w := by
  have hstarting : lifeOf c (starting env w spec.name) = lifeOf c w := by
    rw [starting, lifeOf_lock_update ChildState.markStarting_name, if_neg hne]
  have hnote : ∀ answer,
      lifeOf c ((starting env w spec.name).note (.start spec answer)) = lifeOf c w :=
    fun answer => (lifeOf_note_none (by simp [eventAbout, hne])).trans hstarting
  rcases startSpec_cases env w spec with ⟨e, -, heq⟩ | ⟨child, -, heq⟩
  · rw [heq]
    exact hnote _
  · rw [heq, lifeOf_lock_update (ChildState.markRunning_name _), if_neg hne]
    exact hnote _

/-- Starting the child is the machine's first launch. -/
theorem startSpec_own (env : Environment) {spec : ChildSpec} (hname : spec.name = c)
    (w : World) :
    lifeOf c (startSpec env w spec).2 =
        (lifeOf c w).started spec (env.spawner.start (starting env w spec.name).log spec) ∧
      ((startSpec env w spec).1 = .ok () ↔
        ∃ child, env.spawner.start (starting env w spec.name).log spec = .ok child) := by
  have hstarting : lifeOf c (starting env w spec.name) =
      (lifeOf c w).edit ChildState.markStarting := by
    rw [starting, lifeOf_lock_update ChildState.markStarting_name, if_pos hname]
  have hnote : ∀ answer, lifeOf c ((starting env w spec.name).note (.start spec answer)) =
      ((lifeOf c w).edit ChildState.markStarting).note (.start spec answer) := by
    intro answer
    rw [← hstarting]
    exact lifeOf_note_some (by simp [eventAbout, hname])
  rcases startSpec_cases env w spec with ⟨e, hanswer, heq⟩ | ⟨child, hanswer, heq⟩
  · rw [heq, hanswer]
    exact ⟨hnote _, by simp⟩
  · rw [heq, hanswer]
    dsimp only
    rw [lifeOf_lock_update (ChildState.markRunning_name _), if_pos hname, hnote]
    exact ⟨rfl, by simp⟩

/-! ## The loop -/

theorem startSpecs_continues (env : Environment) (specs : List ChildSpec) (w : World) :
    Continues w (startSpecs env specs w).2 :=
  tryEach_invariant (Continues w) specs
    (fun spec _ w' hw' => hw'.trans (startSpec_continues w' spec)) w (Continues.refl w)

/-- Children that are not listed are not touched. -/
theorem startSpecs_frame {specs : List ChildSpec} (hc : c ∉ specs.map ChildSpec.name)
    (w : World) : lifeOf c (startSpecs env specs w).2 = lifeOf c w := by
  apply tryEach_frame (lifeOf c)
  intro spec hspec w'
  apply startSpec_frame
  rintro rfl
  exact hc (List.mem_map_of_mem hspec)

/-- A listed child was started, or an earlier launch failed and it was not
touched. -/
theorem startSpecs_life (env : Environment) {specs : List ChildSpec}
    (hnodup : (specs.map ChildSpec.name).Nodup)
    {spec : ChildSpec} (hspec : spec ∈ specs) (w : World) :
    ((startSpecs env specs w).1 ≠ .ok () ∧
        lifeOf spec.name (startSpecs env specs w).2 = lifeOf spec.name w) ∨
      ∃ answer, StartAnswer env w spec answer ∧
        ((startSpecs env specs w).1 = .ok () → ∃ child, answer = .ok child) ∧
        lifeOf spec.name (startSpecs env specs w).2 = (lifeOf spec.name w).started spec answer := by
  have hproject := tryEach_project (startSpec env) (Continues w) (lifeOf spec.name)
    ChildSpec.name hnodup hspec (fun b _ w' hw' => hw'.trans (startSpec_continues w' b))
    (fun b _ hne w' => startSpec_frame hne w') w (Continues.refl w)
  change (∃ e, (startSpecs env specs w).1 = .error e ∧
      lifeOf spec.name (startSpecs env specs w).2 = _) ∨
    ∃ w', Continues w w' ∧ _ ∧ lifeOf spec.name (startSpecs env specs w).2 = _ ∧
      ∀ e, _ → startSpecs env specs w = _ at hproject
  rcases hproject with ⟨e, herror, hlife⟩ | ⟨w', hw', hsame, hlife, hstop⟩
  · left
    exact ⟨by rw [herror]; simp, hlife⟩
  · right
    obtain ⟨hown, hok⟩ := startSpec_own env (rfl : spec.name = spec.name) w'
    refine ⟨env.spawner.start (starting env w' spec.name).log spec,
      ⟨_, (hw'.trans (starting_continues env w' spec.name)).log_suffix, rfl⟩, ?_, ?_⟩
    · intro hdone
      apply hok.mp
      rcases outcome_cases (startSpec env w' spec).1 with h | ⟨e, herror⟩
      · exact h
      · rw [hstop e herror, herror] at hdone
        cases hdone
    · rw [hlife, hown, hsame]

/-- An aborted start-up ends at a listed child whose launch failed. -/
theorem startSpecs_stop {specs : List ChildSpec} {w : World}
    (h : (startSpecs env specs w).1 ≠ .ok ()) :
    ∃ spec ∈ specs, ∃ w' e, Continues w w' ∧
      lifeOf spec.name (startSpecs env specs w).2 =
        (lifeOf spec.name w').started spec (.error e) ∧
      (startSpecs env specs w).2.log =
        ⟨w.pass, .start spec (.error e)⟩ :: (starting env w' spec.name).log := by
  rcases outcome_cases (startSpecs env specs w).1 with hok | ⟨e, herror⟩
  · exact absurd hok h
  · obtain ⟨done, spec, rest, hsplit, hdone, hstop⟩ := tryEach_stop herror
    have hcont := startSpecs_continues env done w
    have hworld : (startSpecs env specs w).2 = (startSpec env (startSpecs env done w).2 spec).2 :=
      (congrArg Prod.snd hstop).symm
    obtain ⟨hown, hok⟩ := startSpec_own env (rfl : spec.name = spec.name)
      (startSpecs env done w).2
    have hfail : (startSpec env (startSpecs env done w).2 spec).1 ≠ .ok () := by
      have := congrArg Prod.fst hstop
      change (startSpec env (startSpecs env done w).2 spec).1 = .error e at this
      rw [this]
      simp
    refine ⟨spec, by simp [hsplit], (startSpecs env done w).2, ?_⟩
    have hpass := (hcont.trans (starting_continues env _ spec.name)).pass_eq
    rw [hworld, hown]
    rcases startSpec_cases env (startSpecs env done w).2 spec with
      ⟨e', hanswer, heq⟩ | ⟨child, hanswer, -⟩
    · rw [hanswer, heq]
      exact ⟨e', hcont, rfl, by rw [note_log, hpass]⟩
    · exact absurd (hok.mpr ⟨child, hanswer⟩) hfail

/-! ## A new supervisor -/

theorem canonicalChildren_names : canonicalChildren.map ChildSpec.name = childStartupOrder := by
  decide

/-- The children of a new supervisor are fresh. -/
theorem lifeOf_new_fresh (c : String) : (lifeOf c World.new).Fresh where
  slot_pending := by
    intro slot hslot
    obtain ⟨spec, -, rfl⟩ := List.mem_map.mp (List.mem_of_find?_eq_some hslot)
    rfl
  tracker_eq := rfl
  due_eq := rfl
  pass_eq := rfl
  log_eq := rfl

/-- Start-up of a new supervisor is a start of the machine. -/
theorem startSpecs_starts {specs : List ChildSpec}
    (hnodup : (specs.map ChildSpec.name).Nodup) (env : Environment) (c : String) :
    ∃ completed, Life.Starts (fun _ _ => True) completed (lifeOf c World.new)
      (lifeOf c (startSpecs env specs World.new).2) := by
  by_cases hc : c ∈ specs.map ChildSpec.name
  · obtain ⟨spec, hspec, rfl⟩ := List.mem_map.mp hc
    rcases startSpecs_life env hnodup hspec World.new with
      ⟨hstop, hlife⟩ | ⟨answer, -, hok, hlife⟩
    · exact ⟨False, by rw [hlife]; exact .unvisited⟩
    · refine ⟨(startSpecs env specs World.new).1 = .ok (), ?_⟩
      rw [hlife]
      exact .visited spec answer trivial hok
  · exact ⟨True, by rw [startSpecs_frame hc]; exact .unvisited⟩

theorem canonicalChildren_nodup : (canonicalChildren.map ChildSpec.name).Nodup := by
  rw [canonicalChildren_names]
  exact childStartupOrder_nodup

end Supervisor
end Wintermute
