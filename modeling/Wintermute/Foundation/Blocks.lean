import Mathlib.Algebra.BigOperators.Intervals
import Mathlib.Tactic

/-!
# Consecutive blocks

Blocks of given lengths follow one another and divide the natural numbers: every number
lies at an offset in a block.  Days lie so in months and months in years, and the digits of
a number are the offsets of a place in ever smaller blocks.

Main results:

- Theorems {lit}`Located.here` and {lit}`Located.later`: the search for a place, block by
  block.
- Theorem {lit}`Located.lt_iff`: places compare as their blocks and offsets.
-/

namespace Foundation

open Finset

/-- The number of places before block {lit}`b`, when the places of block {lit}`first` come
first. -/
def blockStart (len : ℕ → ℕ) (first b : ℕ) : ℕ :=
  ∑ i ∈ Ico first b, len i

@[simp]
theorem blockStart_self (len : ℕ → ℕ) (first : ℕ) : blockStart len first first = 0 := by
  simp [blockStart]

theorem blockStart_first {len : ℕ → ℕ} {first b : ℕ} (h : first < b) :
    blockStart len first b = len first + blockStart len (first + 1) b :=
  sum_eq_sum_Ico_succ_bot h len

/-- A block ends where a later one has begun. -/
theorem blockStart_add_le (len : ℕ → ℕ) {first b b' : ℕ} (hfirst : first ≤ b) (hlt : b < b') :
    blockStart len first b + len b ≤ blockStart len first b' := by
  have hend : blockStart len first b + len b = blockStart len first (b + 1) :=
    (sum_Ico_succ_top hfirst len).symm
  rw [hend]
  exact sum_le_sum_of_subset (Ico_subset_Ico_right hlt)

/-- Place {lit}`n` is at offset {lit}`r` of block {lit}`b`. -/
structure Located (len : ℕ → ℕ) (first n b r : ℕ) : Prop where
  first_le : first ≤ b
  start_add : blockStart len first b + r = n
  lt_len : r < len b

/-- A place in the first block. -/
theorem Located.here {len : ℕ → ℕ} {first n : ℕ} (h : n < len first) :
    Located len first n first n :=
  ⟨le_rfl, by simp, h⟩

/-- A place behind the first block. -/
theorem Located.later {len : ℕ → ℕ} {first n b r : ℕ} (hge : len first ≤ n)
    (h : Located len (first + 1) (n - len first) b r) : Located len first n b r := by
  have hstart := h.start_add
  refine ⟨(Nat.le_succ first).trans h.first_le, ?_, h.lt_len⟩
  rw [blockStart_first h.first_le]
  omega

/-- Places compare as their blocks and offsets. -/
theorem Located.lt_iff {len : ℕ → ℕ} {first n n' b b' r r' : ℕ}
    (h : Located len first n b r) (h' : Located len first n' b' r') :
    n < n' ↔ b < b' ∨ b = b' ∧ r < r' := by
  have hn := h.start_add
  have hn' := h'.start_add
  have hr := h.lt_len
  have hr' := h'.lt_len
  rcases lt_trichotomy b b' with hlt | rfl | hgt
  · have hle := blockStart_add_le len h.first_le hlt
    omega
  · omega
  · have hle := blockStart_add_le len h'.first_le hgt
    omega

/-- In blocks of one length a place is a quotient and a rest. -/
theorem located_mul_add {size b r : ℕ} (h : r < size) :
    Located (fun _ => size) 0 (size * b + r) b r where
  first_le := Nat.zero_le b
  start_add := by simp [blockStart, Nat.mul_comm]
  lt_len := h

end Foundation
