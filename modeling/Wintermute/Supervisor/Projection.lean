import Wintermute.Supervisor.Lifecycle

/-!
# One child of the supervisor's world

The projection {lit}`lifeOf` keeps what concerns one child of the supervisor's
world: its slot, tracker and wake-up time, and the part of the history that is
about it.  This module says how the primitives look through the projection, and
what they keep of the whole world.

Main results:

- Theorem {lit}`lifeOf_lock`: a critical section that changes the child's slot is
  an edit of the abstract child.
- Theorems {lit}`lifeOf_lock_frame` and {lit}`lifeOf_dispatchAll`: work on other
  children and client requests are invisible.
- Structure {lit}`Continues`: names, order and history only ever continue.
-/

namespace Wintermute
namespace Supervisor

open Foundation

/-! ## The projection -/

/-- What an event says about a child. -/
def eventAbout (c : String) (e : Event) : Option ChildEvent :=
  match e.action with
  | .critical before after =>
      if after.status c = before.status c then none
      else some ⟨e.pass, .flip (before.status c) (after.status c)⟩
  | .start spec answer => if spec.name = c then some ⟨e.pass, .start spec answer⟩ else none
  | .stillRunning name pid answer => if name = c then some ⟨e.pass, .probe pid answer⟩ else none
  | .request _ _ => none

/-- What the world holds about a child. -/
def lifeOf (c : String) (w : World) : Life where
  slot := w.view.slot c
  tracker := (w.trackers c).getD default
  due := w.backoffUntil c
  pass := w.pass
  log := w.log.filterMap (eventAbout c)

theorem lifeOf_status (c : String) (w : World) : (lifeOf c w).status = w.view.status c :=
  rfl

/-! ## Primitives through the projection -/

section Primitives

variable {env : Environment} {c : String}

/-- An action about another child, or a request, is not recorded. -/
theorem lifeOf_note_none {w : World} {a : Action} (h : eventAbout c ⟨w.pass, a⟩ = none) :
    lifeOf c (w.note a) = lifeOf c w := by
  simp [lifeOf, h]

/-- An action about the child is recorded. -/
theorem lifeOf_note_some {w : World} {a : Action} {b : ChildAction}
    (h : eventAbout c ⟨w.pass, a⟩ = some ⟨w.pass, b⟩) :
    lifeOf c (w.note a) = (lifeOf c w).note b := by
  simp [lifeOf, Life.note, h]

theorem slot_of_children {v v' : SupervisorView} (h : v.children = v'.children) (c : String) :
    v.slot c = v'.slot c := by
  rw [SupervisorView.slot, SupervisorView.slot, h]

theorem mem_names_of_slot {view : SupervisorView} {slot : ChildState}
    (h : view.slot c = some slot) : c ∈ view.names := by
  have hname : slot.name = c := by simpa using List.find?_some h
  rw [← hname]
  exact List.mem_map_of_mem (List.mem_of_find?_eq_some h)

/-- The requests served before a critical section are invisible. -/
theorem lifeOf_dispatchAll (env : Environment) (c : String) (w : World) :
    lifeOf c (w.dispatchAll env) = lifeOf c w := by
  obtain ⟨hchildren, htrackers, hdue, hpass, served, hlog, hserved⟩ := dispatchAll_frame env w
  have hnone : served.filterMap (eventAbout c) = [] := by
    rw [List.filterMap_eq_nil_iff]
    intro e he
    obtain ⟨req, resp, haction⟩ := hserved e he
    simp [eventAbout, haction]
  unfold lifeOf
  rw [slot_of_children hchildren, htrackers, hdue, hpass, hlog, List.filterMap_append, hnone]
  rfl

/-- A critical section that changes the child's slot by {lit}`g` is an edit. -/
theorem lifeOf_lock {α : Type} {f : SupervisorView → α × SupervisorView} {w : World}
    (g : ChildState → ChildState)
    (hf : ∀ view, view.children = w.view.children → (f view).2.slot c = (view.slot c).map g) :
    lifeOf c (w.lock env f).2 = (lifeOf c w).edit g := by
  rw [← lifeOf_dispatchAll env c w]
  have hslot := hf (w.dispatchAll env).view (dispatchAll_children env w)
  have hstatus : (f (w.dispatchAll env).view).2.status c =
      ((lifeOf c (w.dispatchAll env)).slot.map g).map ChildState.status := by
    rw [SupervisorView.status, hslot]
    rfl
  unfold World.lock Life.edit
  dsimp only
  split
  · rename_i hsame
    have hnone : (f (w.dispatchAll env).view).2.status c =
        (w.dispatchAll env).view.status c := hstatus.trans hsame
    rw [lifeOf_note_none (by simp [eventAbout, hnone])]
    simp [lifeOf, hslot]
  · rename_i hchange
    have hsome : (f (w.dispatchAll env).view).2.status c ≠
        (w.dispatchAll env).view.status c := fun h => hchange (hstatus.symm.trans h)
    rw [lifeOf_note_some (b := .flip ((w.dispatchAll env).view.status c)
      ((f (w.dispatchAll env).view).2.status c)) (by simp [eventAbout, hsome])]
    simp [lifeOf, hslot, Life.note, Life.status, SupervisorView.status]

/-- A critical section that leaves the child's slot alone is invisible. -/
theorem lifeOf_lock_frame {α : Type} {f : SupervisorView → α × SupervisorView} {w : World}
    (hf : ∀ view, view.children = w.view.children → (f view).2.slot c = view.slot c) :
    lifeOf c (w.lock env f).2 = lifeOf c w := by
  rw [lifeOf_lock id (fun view hview => by rw [hf view hview, Option.map_id, id])]
  exact Life.edit_eq_self (by rw [Option.map_id, id])

/-- Changing the slot of a child found by name. -/
theorem slot_update_self {f : ChildState → ChildState} (hf : ∀ slot, (f slot).name = slot.name)
    (view : SupervisorView) (c : String) :
    (SupervisorView.update (fun slot => slot.name == c) f view).2.slot c =
      (view.slot c).map f :=
  find_updateFirst_self ChildState.name c hf view.children

/-- Changing a slot found by another name. -/
theorem slot_update_ne {f : ChildState → ChildState} (hf : ∀ slot, (f slot).name = slot.name)
    {p : ChildState → Bool} (hp : ∀ slot, p slot = true → slot.name ≠ c)
    (view : SupervisorView) :
    (SupervisorView.update p f view).2.slot c = view.slot c :=
  find_updateFirst_ne ChildState.name c hf hp view.children

/-- The name test of one child fails on the slot of another. -/
theorem name_test_ne {name : String} (hne : name ≠ c) (slot : ChildState)
    (h : (slot.name == name) = true) : slot.name ≠ c := by
  rw [beq_iff_eq.mp h]
  exact hne

/-- A slot change by name is an edit of that child and invisible to others. -/
theorem lifeOf_lock_update {f : ChildState → ChildState}
    (hf : ∀ slot, (f slot).name = slot.name) (name : String) (w : World) :
    lifeOf c (w.lock env (SupervisorView.update (fun slot => slot.name == name) f)).2 =
      if name = c then (lifeOf c w).edit f else lifeOf c w := by
  split
  · rename_i heq
    subst heq
    exact lifeOf_lock f (fun view _ => slot_update_self hf view name)
  · rename_i hne
    exact lifeOf_lock_frame (fun view _ => slot_update_ne hf (name_test_ne hne) view)

end Primitives

/-! ## What every operation keeps -/

/-- The later world has the same children in the same order, belongs to the same
pass, and its history extends the earlier one. -/
structure Continues (w w' : World) : Prop where
  names_eq : w'.view.names = w.view.names
  pass_eq : w'.pass = w.pass
  log_suffix : w.log <:+ w'.log

namespace Continues

variable {env : Environment} {w w' w'' : World}

theorem refl (w : World) : Continues w w :=
  ⟨rfl, rfl, List.suffix_rfl⟩

theorem trans (h : Continues w w') (h' : Continues w' w'') : Continues w w'' :=
  ⟨h'.names_eq.trans h.names_eq, h'.pass_eq.trans h.pass_eq, h.log_suffix.trans h'.log_suffix⟩

theorem nodup (h : Continues w w') (hnodup : w.view.names.Nodup) : w'.view.names.Nodup := by
  rw [h.names_eq]
  exact hnodup

theorem note (w : World) (a : Action) : Continues w (w.note a) :=
  ⟨rfl, rfl, List.suffix_cons _ _⟩

/-- A critical section that keeps the names continues the world. -/
theorem lock {α : Type} {f : SupervisorView → α × SupervisorView}
    (hf : ∀ view, (f view).2.names = view.names) : Continues w (w.lock env f).2 := by
  obtain ⟨served, hlog, -⟩ := lock_log env f w
  refine ⟨?_, lock_pass, ?_⟩
  · have hready : (w.dispatchAll env).view.names = w.view.names := by
      unfold SupervisorView.names
      rw [dispatchAll_children]
    exact (hf _).trans hready
  · rw [hlog]
    exact (List.suffix_append served w.log).trans (List.suffix_cons _ _)

end Continues

/-- An in-place change keeps the names. -/
theorem names_update {f : ChildState → ChildState} (hf : ∀ slot, (f slot).name = slot.name)
    (p : ChildState → Bool) (view : SupervisorView) :
    (SupervisorView.update p f view).2.names = view.names :=
  map_updateFirst ChildState.name hf view.children

/-- A critical section that changes one slot in place continues the world. -/
theorem continues_update {env : Environment} {w : World} {f : ChildState → ChildState}
    (hf : ∀ slot, (f slot).name = slot.name) (p : ChildState → Bool) :
    Continues w (w.lock env (SupervisorView.update p f)).2 :=
  Continues.lock (names_update hf p)

/-! ## Answers -/

/-- The answers the launcher can give to starts from this world on. -/
def StartAnswer (env : Environment) (w : World) (spec : ChildSpec)
    (answer : Result StartedChild) : Prop :=
  ∃ log, w.log <:+ log ∧ answer = env.spawner.start log spec

/-- The answers the spawner can give to probes from this world on. -/
def ProbeAnswer (env : Environment) (w : World) (pid : UInt32) (answer : Result Bool) : Prop :=
  ∃ log, w.log <:+ log ∧ answer = env.spawner.stillRunning log pid

end Supervisor
end Wintermute
