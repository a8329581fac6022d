import Wintermute.Supervisor.ObservePhase
import Wintermute.Supervisor.RestartPhase
import Wintermute.Supervisor.StartUp

/-!
# The supervisor refines the life of each child

The phases of an observer pass compose to a pass of the abstract machine, and a
run of the supervisor, seen through the projection of any child, is a run of the
machine.  Invariants of single children are therefore proved on the machine; what
depends on the answers of the environment uses the phase theorems directly.

Main results:

- Theorem {lit}`clearPhase_life`: the clearing phase through the projection.
- Theorem {lit}`observerPass_life`: a pass, phase by phase, with the answers the
  environment can give.
- Theorem {lit}`runSpecs_refines`: every run is, for each child, a run of the
  machine.
- Theorem {lit}`runSpecs_names`: the names and order of the children never change.
-/

namespace Wintermute
namespace Supervisor

open Foundation

variable {env : Environment} {c : String}

/-! ## The clearing phase -/

theorem foldl_remove (cleared : List String) (due : String → Option Instant) (c : String) :
    cleared.foldl (fun due name => Function.update due name none) due c =
      if c ∈ cleared then none else due c := by
  induction cleared generalizing due with
  | nil => simp
  | cons name cleared ih =>
      rw [List.foldl_cons, ih]
      by_cases hname : c = name
      · simp [hname]
      · simp [hname]

/-- A slot is expired in the program exactly when its child is in the machine. -/
theorem expired_iff {w : World} {now : Instant} {slot : ChildState}
    (hslot : w.view.slot c = some slot) :
    (lifeOf c w).Expired now ↔ backoffExpired w.backoffUntil now slot = true := by
  have hname : slot.name = c := by simpa using List.find?_some hslot
  unfold Life.Expired backoffExpired
  rw [Bool.and_eq_true_iff, Option.any_eq_true_iff_get, hname]
  simp only [Life.status, lifeOf, hslot, Option.map_some, Option.some.injEq, decide_eq_true_eq]
  constructor
  · rintro ⟨hstatus, till, hdue, htill⟩
    exact ⟨hstatus, by simp [hdue], by simpa [hdue] using htill⟩
  · rintro ⟨hstatus, hsome, htill⟩
    exact ⟨hstatus, (w.backoffUntil c).get hsome, by simp, htill⟩

/-- The phase clears the children whose backoff has expired. -/
theorem mem_clearExpiredBackoffs_iff {w : World} (hnodup : w.view.names.Nodup) (now : Instant)
    (c : String) :
    c ∈ (clearExpiredBackoffs env w.backoffUntil now w).1 ↔ (lifeOf c w).Expired now := by
  have hcleared : (clearExpiredBackoffs env w.backoffUntil now w).1 =
      (w.view.children.filter (backoffExpired w.backoffUntil now)).map ChildState.name := by
    simp [clearExpiredBackoffs, World.lock, dispatchAll_children]
  rw [hcleared, mem_map_filter_iff ChildState.name hnodup]
  constructor
  · rintro ⟨slot, hslot, hexpired⟩
    exact (expired_iff hslot).mpr hexpired
  · intro hexpired
    obtain ⟨slot, hslot, -⟩ := Option.map_eq_some_iff.mp hexpired.1
    exact ⟨slot, hslot, (expired_iff hslot).mp hexpired⟩

/-- They lose their wake-up times. -/
theorem clearPhase_backoffUntil {w : World} (hnodup : w.view.names.Nodup) (now : Instant)
    (c : String) :
    (clearPhase env now w).backoffUntil c =
      if (lifeOf c w).Expired now then none else w.backoffUntil c := by
  have hkept : (clearExpiredBackoffs env w.backoffUntil now w).2.backoffUntil =
      w.backoffUntil := lock_backoffUntil
  have hfold : (clearPhase env now w).backoffUntil =
      (clearExpiredBackoffs env w.backoffUntil now w).1.foldl
        (fun due name => Function.update due name none)
        (clearExpiredBackoffs env w.backoffUntil now w).2.backoffUntil := rfl
  rw [hfold, hkept, foldl_remove]
  exact if_congr (mem_clearExpiredBackoffs_iff hnodup now c) rfl rfl

/-- The clearing phase through the projection of a child. -/
theorem clearPhase_life {w : World} (hnodup : w.view.names.Nodup) (now : Instant)
    (c : String) : lifeOf c (clearPhase env now w) = (lifeOf c w).clear now := by
  let retry := fun slot : ChildState =>
    if backoffExpired w.backoffUntil now slot then slot.markRetrying else slot
  have hretry : ∀ slot, (retry slot).name = slot.name := by
    intro slot
    dsimp only [retry]
    split <;> rfl
  have hlock : lifeOf c (clearExpiredBackoffs env w.backoffUntil now w).2 =
      (lifeOf c w).edit retry :=
    lifeOf_lock retry (fun view _ => find_map_of_key ChildState.name c hretry view.children)
  have hphase : lifeOf c (clearPhase env now w) =
      { (lifeOf c w).edit retry with
        due := if (lifeOf c w).Expired now then none else (lifeOf c w).due } := by
    rw [← hlock]
    exact congrArg (fun due => ({ lifeOf c (clearExpiredBackoffs env w.backoffUntil now w).2 with
      due := due } : Life)) (clearPhase_backoffUntil hnodup now c)
  rw [hphase]
  unfold Life.clear
  split
  · rename_i hexpired
    have hslots : (lifeOf c w).slot.map retry =
        (lifeOf c w).slot.map ChildState.markRetrying := by
      obtain ⟨slot, hslot, -⟩ := Option.map_eq_some_iff.mp hexpired.1
      have hretried : retry slot = slot.markRetrying := if_pos ((expired_iff hslot).mp hexpired)
      rw [hslot, Option.map_some, Option.map_some, hretried]
    rw [Life.edit_congr hslots]
  · rename_i hexpired
    have hslots : (lifeOf c w).slot.map retry = (lifeOf c w).slot := by
      cases hslot : (lifeOf c w).slot with
      | none => rfl
      | some slot =>
          have hkept : retry slot = slot :=
            if_neg (fun h => hexpired ((expired_iff hslot).mpr h))
          rw [Option.map_some, hkept]
    rw [Life.edit_eq_self hslots]

/-- Clearing expired backoffs keeps the names. -/
theorem names_retried (view : SupervisorView) (due : String → Option Instant) (now : Instant) :
    SupervisorView.names
        { view with children := view.children.map fun slot =>
            if backoffExpired due now slot then slot.markRetrying else slot } =
      view.names := by
  unfold SupervisorView.names
  dsimp only
  rw [List.map_map]
  apply List.map_congr_left
  intro slot _
  simp only [Function.comp_apply]
  split <;> rfl

theorem clearPhase_continues (now : Instant) (w : World) :
    Continues w (clearPhase env now w) := by
  have hlock : Continues w (clearExpiredBackoffs env w.backoffUntil now w).2 :=
    Continues.lock fun view => names_retried view w.backoffUntil now
  exact ⟨hlock.names_eq, hlock.pass_eq, hlock.log_suffix⟩

/-! ## One pass -/

/-- The world at the start of the observation phase of a pass. -/
def cleared (env : Environment) (now : Instant) (w : World) : World :=
  clearPhase env now { w with pass := some now }

/-- The world at the start of the restart phase of a pass. -/
def observed (env : Environment) (now : Instant) (w : World) : World :=
  observePhase env (cleared env now w)

theorem observerPass_eq (env : Environment) (now : Instant) (w : World) :
    observerPass env now w = restartPhase env now (observed env now w) :=
  rfl

theorem cleared_continues (env : Environment) (now : Instant) (w : World) :
    Continues { w with pass := some now } (cleared env now w) :=
  clearPhase_continues now _

theorem observed_continues (env : Environment) (now : Instant) (w : World) :
    Continues { w with pass := some now } (observed env now w) :=
  (cleared_continues env now w).trans (observePhase_continues env _)

theorem observerPass_continues (env : Environment) (now : Instant) (w : World) :
    Continues { w with pass := some now } (observerPass env now w) :=
  (observed_continues env now w).trans (restartPhase_continues env now _)

theorem lifeOf_cleared {w : World} (hnodup : w.view.names.Nodup) (env : Environment)
    (now : Instant) (c : String) :
    lifeOf c (cleared env now w) = ((lifeOf c w).enter now).clear now :=
  clearPhase_life (w := { w with pass := some now }) hnodup now c

/-- A pass through the projection of a child, phase by phase. -/
theorem observerPass_life {w : World} (hnodup : w.view.names.Nodup) (env : Environment)
    (now : Instant) (c : String) :
    Life.Observes (ProbeAnswer env (cleared env now w)) (ObserveCompletes env (cleared env now w))
        (((lifeOf c w).enter now).clear now) (lifeOf c (observed env now w)) ∧
      Life.Restarts (RelaunchAnswer env c (observed env now w))
        (RestartCompletes env now (observed env now w)) now (lifeOf c (observed env now w))
        (lifeOf c (observerPass env now w)) := by
  have hcleared : (cleared env now w).view.names.Nodup :=
    (cleared_continues env now w).nodup hnodup
  have hobserved : (observed env now w).view.names.Nodup :=
    (observed_continues env now w).nodup hnodup
  refine ⟨?_, restartPhase_life hobserved now c⟩
  rw [← lifeOf_cleared hnodup env now c]
  exact observePhase_life hcleared c

/-! ## Runs -/

section Runs

variable (env : Environment) (specs : List ChildSpec)

/-- The names and order of the children are canonical along every run. -/
theorem runSpecs_names (times : List Instant) :
    (runSpecs env specs times).view.names = childStartupOrder := by
  induction times using List.reverseRecOn with
  | nil =>
      rw [runSpecs_nil, (startSpecs_continues env specs World.new).names_eq]
      exact pendingFor_canonical_names
  | append_singleton times now ih =>
      rw [runSpecs_snoc, (observerPass_continues env now _).names_eq]
      exact ih

theorem runSpecs_nodup (times : List Instant) :
    (runSpecs env specs times).view.names.Nodup := by
  rw [runSpecs_names]
  exact childStartupOrder_nodup

theorem run_nodup (times : List Instant) : (run env times).view.names.Nodup :=
  runSpecs_nodup env canonicalChildren times

end Runs

/-- Forget what the environment can answer. -/
theorem Life.Observes.forget {answers : UInt32 → Result Bool → Prop} {completed : Prop}
    {l l' : Life} (h : Life.Observes answers completed l l') :
    Life.Observes (fun _ _ => True) completed l l' := by
  cases h with
  | idle hpid => exact .idle hpid
  | unvisited pid hpid hstop => exact .unvisited pid hpid hstop
  | visited pid answer hpid _ hok => exact .visited pid answer hpid trivial hok

/-- Forget what the environment can answer. -/
theorem Life.Restarts.forget {answers : ChildSpec → Result StartedChild → Prop}
    {completed : Prop} {now : Instant} {l l' : Life}
    (h : Life.Restarts answers completed now l l') :
    Life.Restarts (fun _ _ => True) completed now l l' := by
  cases h with
  | idle hstatus => exact .idle hstatus
  | unvisited hstatus hstop => exact .unvisited hstatus hstop
  | visited spec answer hstatus hdelay _ hok =>
      exact .visited spec answer hstatus hdelay trivial hok
  | scheduled hstatus hdelay hdone => exact .scheduled hstatus hdelay hdone
  | forgotten hstatus hdelay hstop => exact .forgotten hstatus hdelay hstop

/-- Every run of the supervisor is, for each child, a run of the machine. -/
theorem runSpecs_refines (env : Environment) {specs : List ChildSpec}
    (hnodup : (specs.map ChildSpec.name).Nodup) (times : List Instant) (c : String) :
    Life.Run times (lifeOf c (runSpecs env specs times)) := by
  induction times using List.reverseRecOn with
  | nil =>
      obtain ⟨completed, hstarts⟩ := startSpecs_starts hnodup env c
      exact .boot _ _ completed (lifeOf_new_fresh c) hstarts
  | append_singleton times now ih =>
      rw [runSpecs_snoc]
      obtain ⟨hobserves, hrestarts⟩ :=
        observerPass_life (runSpecs_nodup env specs times) env now c
      exact .pass times now _ _ ih ⟨_, _, _, hobserves.forget, hrestarts.forget⟩

theorem run_refines (env : Environment) (times : List Instant) (c : String) :
    Life.Run times (lifeOf c (run env times)) :=
  runSpecs_refines env canonicalChildren_nodup times c

end Supervisor
end Wintermute
