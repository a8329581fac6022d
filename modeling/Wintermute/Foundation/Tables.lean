import Mathlib.Data.List.Basic

/-!
# Rows of a table

A row has cells padded to the widths of their columns, each followed by a gap, and a
last text that is not padded.  Padding and gaps are blank, so the words of a row are
those of its cells in order, whatever the cells hold.

Main results:

- Theorem {lit}`wordsOf_cut`: a blank cuts the words of a text.
- Theorem {lit}`wordsOf_row`: the words of a row are the words of its cells.
-/

namespace Foundation

variable {α : Type*}

/-! ## Words -/

/-- The words of a text. -/
def wordsOf (blank : α → Bool) (l : List α) : List (List α) :=
  (l.splitOnP blank).filter fun word => !word.isEmpty

/-- A word is not empty and has no blank. -/
def IsWord (blank : α → Bool) (w : List α) : Prop :=
  w ≠ [] ∧ ∀ c ∈ w, blank c = false

section Words

variable {blank : α → Bool}

/-- A blank cuts the words of a text. -/
theorem wordsOf_cut {c : α} (hc : blank c = true) (front rest : List α) :
    wordsOf blank (front ++ c :: rest) = wordsOf blank front ++ wordsOf blank rest := by
  rw [wordsOf, List.splitOnP_append_cons front rest hc, List.filter_append, wordsOf, wordsOf]

/-- Blanks have no words. -/
theorem wordsOf_blanks {gap : List α} (hgap : ∀ c ∈ gap, blank c = true) :
    wordsOf blank gap = [] := by
  induction gap with
  | nil => rfl
  | cons c gap ih =>
      rw [List.forall_mem_cons] at hgap
      rw [← List.nil_append (c :: gap), wordsOf_cut hgap.1, ih hgap.2]
      rfl

/-- Blanks behind a text add no words. -/
theorem wordsOf_append_blanks (l : List α) {gap : List α} (hgap : ∀ c ∈ gap, blank c = true) :
    wordsOf blank (l ++ gap) = wordsOf blank l := by
  cases gap with
  | nil => rw [List.append_nil]
  | cons c gap =>
      rw [List.forall_mem_cons] at hgap
      rw [wordsOf_cut hgap.1, wordsOf_blanks hgap.2, List.append_nil]

/-- Blanks in front of a text add no words. -/
theorem wordsOf_blanks_append {gap : List α} (hgap : ∀ c ∈ gap, blank c = true) (l : List α) :
    wordsOf blank (gap ++ l) = wordsOf blank l := by
  induction gap with
  | nil => rfl
  | cons c gap ih =>
      rw [List.forall_mem_cons] at hgap
      rw [List.cons_append, ← List.nil_append (c :: (gap ++ l)), wordsOf_cut hgap.1, ih hgap.2]
      rfl

/-- A word has no other word. -/
theorem IsWord.wordsOf_eq {w : List α} (hw : IsWord blank w) : wordsOf blank w = [w] := by
  rw [wordsOf, List.splitOnP_eq_singleton hw.2]
  cases w with
  | nil => exact absurd rfl hw.1
  | cons c w => rfl

end Words

/-! ## Cells and rows -/

/-- On which side a cell is filled. -/
inductive Align where
  | left
  | right
deriving DecidableEq, Repr

/-- A cell of a column: its width, its alignment and its text. -/
structure Cell (α : Type*) where
  width : ℕ
  align : Align
  text : List α

/-- The text filled up to the width; a longer text is kept. -/
def Cell.render (fill : α) (cell : Cell α) : List α :=
  let padding := List.replicate (cell.width - cell.text.length) fill
  match cell.align with
  | .left => cell.text ++ padding
  | .right => padding ++ cell.text

/-- A row: its cells, each followed by two fillings, and a last text. -/
def row (fill : α) (cells : List (Cell α)) (last : List α) : List α :=
  cells.flatMap (fun cell => cell.render fill ++ [fill, fill]) ++ last

variable {blank : α → Bool} {fill : α}

/-- Filling up adds no words. -/
theorem Cell.wordsOf_render (hfill : blank fill = true) (cell : Cell α) :
    wordsOf blank (cell.render fill) = wordsOf blank cell.text := by
  have hpadding : ∀ n, ∀ c ∈ List.replicate n fill, blank c = true := by
    intro n c hc
    rw [List.eq_of_mem_replicate hc]
    exact hfill
  rw [Cell.render]
  cases cell.align with
  | left => exact wordsOf_append_blanks _ (hpadding _)
  | right => exact wordsOf_blanks_append (hpadding _) _

/-- The words of a row are the words of its cells, then those of its last text. -/
theorem wordsOf_row (hfill : blank fill = true) (cells : List (Cell α)) (last : List α) :
    wordsOf blank (row fill cells last) =
      cells.flatMap (fun cell => wordsOf blank cell.text) ++ wordsOf blank last := by
  induction cells with
  | nil => rfl
  | cons cell cells ih =>
      rw [row] at ih
      have hgap : ∀ l, wordsOf blank (fill :: l) = wordsOf blank l :=
        fun l => wordsOf_cut hfill [] l
      rw [row, List.flatMap_cons, List.flatMap_cons, List.append_assoc, List.append_assoc,
        List.cons_append, wordsOf_cut hfill, cell.wordsOf_render hfill, List.append_assoc]
      rw [List.cons_append, List.nil_append, hgap, ih]

/-- A row has no other elements than its cells, the filling and the last text. -/
theorem notMem_row {a : α} (hfill : a ≠ fill) {cells : List (Cell α)} {last : List α}
    (hcells : ∀ cell ∈ cells, a ∉ cell.text) (hlast : a ∉ last) : a ∉ row fill cells last := by
  have hrender : ∀ cell ∈ cells, a ∉ cell.render fill := by
    intro cell hcell hmem
    have htext := hcells cell hcell
    rw [Cell.render] at hmem
    cases halign : cell.align with
    | left => simp [halign, htext, hfill] at hmem
    | right => simp [halign, htext, hfill] at hmem
  rw [row, List.mem_append, List.mem_flatMap]
  rintro (⟨cell, hcell, hmem⟩ | hmem)
  · simp [hrender cell hcell, hfill] at hmem
  · exact hlast hmem

end Foundation
