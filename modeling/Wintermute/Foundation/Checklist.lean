import Mathlib.Data.List.Basic
import Mathlib.Data.List.Forall2

/-!
# Checklists

A checklist reports on needs: each entry has the name of a need and says whether it is
met.  The failing entries then name the unmet needs in the order of the list, and a
search for the first failing name in an order of urgency finds the most urgent unmet
need.

Main results:

- Theorem {lit}`Reports.failing_names`: the failing entries name the unmet needs.
- Theorem {lit}`Reports.find_urgent`: the search by urgency finds the most urgent one.
- Theorem {lit}`find_eq_some_of_first`: what passes behind nothing else is found.
-/

namespace Foundation

variable {α ι κ : Type*} {key : α → κ} {ok : α → Bool} {name : ι → κ} {Met : ι → Prop}

/-- The entries report on the needs in order. -/
def Reports (key : α → κ) (ok : α → Bool) (name : ι → κ) (Met : ι → Prop) :
    List α → List ι → Prop :=
  List.Forall₂ fun a i => key a = name i ∧ (ok a = true ↔ Met i)

variable {entries : List α} {needs : List ι}

/-- All entries pass when all needs are met. -/
theorem Reports.all_iff (h : Reports key ok name Met entries needs) :
    entries.all ok = true ↔ ∀ i ∈ needs, Met i := by
  induction h with
  | nil => simp
  | cons hentry _ ih => simp [hentry.2, ← ih]

variable [DecidablePred Met]

/-- The failing entries name the unmet needs, in order. -/
theorem Reports.failing_names (h : Reports key ok name Met entries needs) :
    (entries.filter fun a => !ok a).map key =
      (needs.filter fun i => decide (¬ Met i)).map name := by
  induction h with
  | nil => rfl
  | @cons a i entries needs hentry _ ih =>
      obtain ⟨hkey, hok⟩ := hentry
      by_cases hmet : Met i
      · have hpass : ok a = true := hok.mpr hmet
        simpa [hmet, hpass] using ih
      · have hfail : ok a = false := by
          rw [← Bool.not_eq_true, hok]
          exact hmet
        simpa [hmet, hfail, hkey] using ih

variable [BEq κ] [LawfulBEq κ]

/-- With distinct names an entry fails under a name when that need is unmet. -/
theorem Reports.any_failing (h : Reports key ok name Met entries needs)
    (hname : Function.Injective name) {i : ι} (hi : i ∈ needs) :
    (entries.any fun a => key a == name i && !ok a) = decide (¬ Met i) := by
  have hfail : (entries.any fun a => key a == name i && !ok a) = true ↔
      name i ∈ (entries.filter fun a => !ok a).map key := by
    simp only [List.any_eq_true, Bool.and_eq_true, beq_iff_eq, List.mem_map, List.mem_filter]
    exact ⟨fun ⟨a, ha, hkey, hok⟩ => ⟨a, ⟨ha, hok⟩, hkey⟩,
      fun ⟨a, ⟨ha, hok⟩, hkey⟩ => ⟨a, ha, hkey, hok⟩⟩
  rw [Bool.eq_iff_iff, hfail, h.failing_names, List.mem_map_of_injective hname, List.mem_filter,
    and_iff_right hi]

/-- The search in an order of urgency finds the most urgent unmet need. -/
theorem Reports.find_urgent (h : Reports key ok name Met entries needs)
    (hname : Function.Injective name) {urgency : List ι} (hurgency : ∀ i ∈ urgency, i ∈ needs) :
    ((urgency.map name).find? fun n => entries.any fun a => key a == n && !ok a) =
      (urgency.find? fun i => decide (¬ Met i)).map name := by
  induction urgency with
  | nil => rfl
  | cons i urgency ih =>
      rw [List.forall_mem_cons] at hurgency
      rw [List.map_cons, List.find?_cons, List.find?_cons, h.any_failing hname hurgency.1,
        ih hurgency.2]
      by_cases hmet : Met i <;> simp [hmet]

/-- No element that passes the test stands in front of the first one found. -/
theorem idxOf_le_of_find_eq_some {order : List κ} {p : κ → Bool} {i j : κ}
    (hfind : order.find? p = some i) (hj : p j = true) : order.idxOf i ≤ order.idxOf j := by
  induction order with
  | nil => cases hfind
  | cons k order ih =>
      rw [List.find?_cons] at hfind
      rw [List.idxOf_cons, List.idxOf_cons]
      by_cases hk : p k = true
      · simp only [hk, Option.some.injEq] at hfind
        simp [hfind]
      · simp only [hk] at hfind
        have hne : (k == j) = false := by
          rw [beq_eq_false_iff_ne]
          rintro rfl
          exact hk hj
        have hle := ih hfind
        rw [hne, cond_false]
        cases k == i <;> simp [hle]

/-- The element found is the one that passes while everything in front of it fails. -/
theorem find_eq_some_of_first {order : List κ} {p : κ → Bool} {i : κ} (hi : i ∈ order)
    (hpass : p i = true) (hfirst : ∀ j, order.idxOf j < order.idxOf i → p j = false) :
    order.find? p = some i := by
  have hsome : (order.find? p).isSome = true := List.find?_isSome.mpr ⟨i, hi, hpass⟩
  obtain ⟨j, hj⟩ := Option.isSome_iff_exists.mp hsome
  have hle := idxOf_le_of_find_eq_some hj hpass
  have hge : ¬ order.idxOf j < order.idxOf i := by
    intro hlt
    have hfound := List.find?_some hj
    rw [hfirst j hlt] at hfound
    cases hfound
  have hsame : j = i := (List.idxOf_inj (List.mem_of_find?_eq_some hj)).mp (by omega)
  rw [hj, hsame]

end Foundation
