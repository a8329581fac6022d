import Mathlib.Data.List.Basic

/-!
# Last writers

Cells are read after a history of operations, newest first.  An operation that sets a cell
decides what is read, as long as the operations since spare the cell.

Main results:

- Theorem {lit}`spared_append`: operations that spare a cell leave its value.
- Theorem {lit}`sets_append`: the newest operation that sets a cell decides its value.
-/

namespace Foundation

variable {α κ ν : Type*}

/-- The operation leaves this value in the cell, whatever came before. -/
def Sets (cells : List α → κ → ν) (op : α) (key : κ) (value : ν) : Prop :=
  ∀ older, cells (op :: older) key = value

/-- The operation leaves the cell alone. -/
def Spares (cells : List α → κ → ν) (op : α) (key : κ) : Prop :=
  ∀ older, cells (op :: older) key = cells older key

/-- The cells of a machine on which operations look at nothing but the cells. -/
def replay (effect : (κ → ν) → α → κ → ν) (before : κ → ν) : List α → κ → ν
  | [] => before
  | op :: older => effect (replay effect before older) op

variable {cells : List α → κ → ν} {key : κ}

/-- Operations that spare a cell leave its value. -/
theorem spared_append {newer : List α} (hnewer : ∀ op ∈ newer, Spares cells op key)
    (older : List α) : cells (newer ++ older) key = cells older key := by
  induction newer with
  | nil => rfl
  | cons op newer ih =>
      rw [List.forall_mem_cons] at hnewer
      rw [List.cons_append, hnewer.1, ih hnewer.2]

/-- The newest operation that sets a cell decides its value. -/
theorem sets_append (newer : List α) {op : α} {value : ν} (hop : Sets cells op key value)
    (hnewer : ∀ op ∈ newer, Spares cells op key) (older : List α) :
    cells (newer ++ op :: older) key = value := by
  rw [spared_append hnewer, hop]

end Foundation
