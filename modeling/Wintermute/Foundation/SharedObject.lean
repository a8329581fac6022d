import Mathlib.Data.List.Basic
import Mathlib.Tactic

/-!
# Objects shared by concurrent clients

An object answers one operation at a time and changes its state.  Concurrent clients
share it through a lock, so their operations fall into one order.  The history of a
run is linear when its answers are those that the object gives to the operations one
after the other, and what one client saw is its part of that history.

Main results:

- Theorem {lit}`sequential_append`: operations run one after the other compose.
- Theorem {lit}`Linear.snoc`: one more operation, answered from the present state, keeps a
  history linear.
- Theorem {lit}`Linear.answer_eq`: each answer is given from the state that the operations
  before it left.
-/

namespace Foundation

variable {σ ι ω : Type*}

/-- The answers to a sequence of operations and the state they leave. -/
def sequential (apply : ι → σ → ω × σ) : List ι → σ → List ω × σ
  | [], s => ([], s)
  | i :: is, s =>
      let first := apply i s
      let rest := sequential apply is first.2
      (first.1 :: rest.1, rest.2)

variable {apply : ι → σ → ω × σ}

@[simp]
theorem sequential_nil (s : σ) : sequential apply [] s = ([], s) :=
  rfl

@[simp]
theorem sequential_cons (i : ι) (is : List ι) (s : σ) :
    sequential apply (i :: is) s =
      ((apply i s).1 :: (sequential apply is (apply i s).2).1,
        (sequential apply is (apply i s).2).2) :=
  rfl

/-- Operations run one after the other. -/
theorem sequential_append (is js : List ι) (s : σ) :
    sequential apply (is ++ js) s =
      ((sequential apply is s).1 ++ (sequential apply js (sequential apply is s).2).1,
        (sequential apply js (sequential apply is s).2).2) := by
  induction is generalizing s with
  | nil => rfl
  | cons i is ih => simp [ih]

/-- A history of operations and their answers, oldest first, that leads the object from
one state to another. -/
def Linear (apply : ι → σ → ω × σ) (start : σ) (history : List (ι × ω)) (final : σ) : Prop :=
  sequential apply (history.map Prod.fst) start = (history.map Prod.snd, final)

theorem linear_nil (start : σ) : Linear apply start [] start :=
  rfl

/-- One more operation is answered from the present state. -/
theorem Linear.snoc {start final : σ} {history : List (ι × ω)}
    (h : Linear apply start history final) (i : ι) :
    Linear apply start (history ++ [(i, (apply i final).1)]) (apply i final).2 := by
  unfold Linear at h ⊢
  simp [sequential_append, h]

/-- The first operation of a history is answered from the start, and the others from the state
that it leaves. -/
theorem Linear.cons_inv {start final : σ} {history : List (ι × ω)} {i : ι} {answer : ω}
    (h : Linear apply start ((i, answer) :: history) final) :
    answer = (apply i start).1 ∧ Linear apply (apply i start).2 history final := by
  unfold Linear at h ⊢
  rw [List.map_cons, sequential_cons, List.map_cons, Prod.mk.injEq, List.cons.injEq] at h
  obtain ⟨⟨hanswer, hanswers⟩, hfinal⟩ := h
  exact ⟨hanswer.symm, Prod.ext hanswers hfinal⟩

/-- An answer is the one that the object gives after the operations before it. -/
theorem Linear.answer_eq {start final : σ} {before after : List (ι × ω)} {i : ι} {answer : ω}
    (h : Linear apply start (before ++ (i, answer) :: after) final) :
    answer = (apply i (sequential apply (before.map Prod.fst) start).2).1 := by
  unfold Linear at h
  rw [List.map_append, List.map_cons, sequential_append, sequential_cons, List.map_append,
    List.map_cons, Prod.mk.injEq] at h
  have hlength : (sequential apply (before.map Prod.fst) start).1.length =
      (before.map Prod.snd).length := by
    have hcount : ∀ (is : List ι) (s : σ), (sequential apply is s).1.length = is.length := by
      intro is
      induction is with
      | nil => exact fun _ => rfl
      | cons i is ih => exact fun s => congrArg Nat.succ (ih _)
    rw [hcount, List.length_map, List.length_map]
  exact (List.cons.inj (List.append_inj h.1 hlength).2).1.symm

end Foundation
