import Mathlib.Tactic

/-!
# Loops over arguments

A program reads its arguments in a loop whose body may take more than the argument at
hand, as an option takes its value, and may leave the loop with an error.  The body
never hands back more arguments than it found behind the one at hand, so the loop ends.

Main results:

- Theorems {lit}`ArgLoop.run_cons_ok` and {lit}`ArgLoop.run_cons_error`: one round of the
  loop.
- Theorem {lit}`ArgLoop.run_related`: two loops whose bodies go in step have related
  outcomes on every list of arguments.
-/

namespace Foundation

variable {α σ τ ρ υ ε δ : Type*}

/-! ## Related outcomes -/

/-- Two computations both succeed with related results or both fail with related
errors. -/
inductive Related (R : σ → τ → Prop) (E : ε → δ → Prop) : Except ε σ → Except δ τ → Prop
  | ok {s : σ} {t : τ} (h : R s t) : Related R E (.ok s) (.ok t)
  | error {e : ε} {d : δ} (h : E e d) : Related R E (.error e) (.error d)

variable {R : σ → τ → Prop} {E : ε → δ → Prop} {x : Except ε σ} {y : Except δ τ}

/-- Related computations stay related when related ones follow. -/
theorem Related.bind {Q : ρ → υ → Prop} {f : σ → Except ε ρ} {g : τ → Except δ υ}
    (h : Related R E x y) (hnext : ∀ s t, R s t → Related Q E (f s) (g t)) :
    Related Q E (x.bind f) (y.bind g) := by
  cases h with
  | ok hR => exact hnext _ _ hR
  | error hE => exact Related.error hE

/-- One fails exactly when the other does. -/
theorem Related.error_iff (h : Related R E x y) :
    (∃ e, x = .error e) ↔ ∃ d, y = .error d := by
  cases h with
  | ok hR => simp
  | error hE => simp

/-- When the results are related by an injective function, one succeeds exactly when the
other succeeds with the image. -/
theorem Related.ok_iff {f : σ → τ} (hf : Function.Injective f)
    (h : Related (fun s t => f s = t) E x y) (s : σ) : x = .ok s ↔ y = .ok (f s) := by
  cases h with
  | ok hR =>
      subst hR
      simp [hf.eq_iff]
  | error hE => simp

/-! ## The loop -/

/-- The body of a loop over arguments: from the state, the argument at hand and the
arguments behind it, the next state and the arguments still to be read. -/
structure ArgLoop (α σ ε : Type*) where
  body : σ → α → List α → Except ε (σ × List α)
  length_le : ∀ {s s' : σ} {a : α} {rest left : List α},
    body s a rest = .ok (s', left) → left.length ≤ rest.length

namespace ArgLoop

/-- Run the body until no argument is left or it fails. -/
def run (loop : ArgLoop α σ ε) (s : σ) : List α → Except ε σ
  | [] => .ok s
  | a :: rest =>
      match _hround : loop.body s a rest with
      | .ok (s', left) => loop.run s' left
      | .error e => .error e
termination_by args => args.length
decreasing_by
  have hle := loop.length_le _hround
  rw [List.length_cons]
  omega

variable {loop : ArgLoop α σ ε} {other : ArgLoop α τ δ}

@[simp]
theorem run_nil (s : σ) : loop.run s [] = .ok s := by
  rw [run]

theorem run_cons_ok {s s' : σ} {a : α} {rest left : List α}
    (h : loop.body s a rest = .ok (s', left)) :
    loop.run s (a :: rest) = loop.run s' left := by
  rw [run]
  split <;> simp_all

theorem run_cons_error {s : σ} {a : α} {rest : List α} {e : ε}
    (h : loop.body s a rest = .error e) :
    loop.run s (a :: rest) = .error e := by
  rw [run]
  split <;> simp_all

/-- Loops whose bodies go in step: from related states they fail with related errors, or
reach related states with the same arguments left. -/
def InStep (R : σ → τ → Prop) (E : ε → δ → Prop) (loop : ArgLoop α σ ε)
    (other : ArgLoop α τ δ) : Prop :=
  ∀ s t a rest, R s t →
    Related (fun p q => R p.1 q.1 ∧ p.2 = q.2) E (loop.body s a rest) (other.body t a rest)

/-- Loops in step have related outcomes. -/
theorem run_related (hstep : InStep R E loop other) (args : List α) {s : σ} {t : τ}
    (h : R s t) : Related R E (loop.run s args) (other.run t args) := by
  -- Induction on the number of arguments: a round may take more than one of them.
  induction hlen : args.length using Nat.strong_induction_on generalizing args s t with
  | _ n ih =>
      subst hlen
      cases args with
      | nil =>
          rw [run_nil, run_nil]
          exact Related.ok h
      | cons a rest =>
          have hround := hstep s t a rest h
          generalize hx : loop.body s a rest = x at hround
          generalize hy : other.body t a rest = y at hround
          cases hround with
          | @ok p q hR =>
              obtain ⟨s', left⟩ := p
              obtain ⟨t', left'⟩ := q
              obtain ⟨hR, rfl⟩ : R s' t' ∧ left = left' := hR
              have hshort : left.length < (a :: rest).length := by
                rw [List.length_cons]
                exact Nat.lt_succ_of_le (loop.length_le hx)
              rw [run_cons_ok hx, run_cons_ok hy]
              exact ih left.length hshort left hR rfl
          | error hE =>
              rw [run_cons_error hx, run_cons_error hy]
              exact Related.error hE

end ArgLoop

end Foundation
