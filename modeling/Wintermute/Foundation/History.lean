import Mathlib.Data.List.Basic
import Mathlib.Tactic

/-!
# Histories

A history is the list of the events of a run, newest first.  Many safety
properties say that an event is allowed by what came before it, and many of those
only ask whether the newest opening event of some key has been closed since.

Main results:

- Theorem {lit}`eachAfter_iff`: every event is allowed by the events before it.
- Theorem {lit}`eachAfter_filterMap`: such a property seen through a projection of
  the history.
- Theorems {lit}`Closed.cons` and {lit}`Closed.of_open`: how a closed history
  grows, and how an open one is closed.
- Theorems {lit}`not_closed_opening` and {lit}`Closed.of_cons`: what the newest event of a
  closed history can be.
- Theorem {lit}`closed_filterMap`: closedness seen through a projection.
-/

namespace Foundation

variable {α β κ : Type*}

/-! ## Events allowed by their past -/

/-- Every event of the history is related to the events before it. -/
def EachAfter (P : α → List α → Prop) : List α → Prop
  | [] => True
  | a :: older => P a older ∧ EachAfter P older

@[simp]
theorem eachAfter_nil (P : α → List α → Prop) : EachAfter P [] :=
  trivial

theorem eachAfter_cons {P : α → List α → Prop} {a : α} {older : List α} :
    EachAfter P (a :: older) ↔ P a older ∧ EachAfter P older :=
  Iff.rfl

/-- Every event of the history, split off at any place. -/
theorem eachAfter_iff {P : α → List α → Prop} {log : List α} :
    EachAfter P log ↔ ∀ newer a older, log = newer ++ a :: older → P a older := by
  induction log with
  | nil =>
      refine iff_of_true trivial ?_
      intro newer a older h
      simp at h
  | cons b log ih =>
      rw [eachAfter_cons, ih]
      constructor
      · rintro ⟨hb, hlog⟩ newer a older h
        cases newer with
        | nil =>
            cases h
            exact hb
        | cons _ newer =>
            cases h
            exact hlog newer a older rfl
      · intro h
        refine ⟨h [] b log rfl, ?_⟩
        intro newer a older hsplit
        exact h (b :: newer) a older (by rw [hsplit]; rfl)

/-- A history whose projection has the property has it for every event that the
projection keeps. -/
theorem eachAfter_filterMap {P : β → List β → Prop} {f : α → Option β} {log : List α}
    (h : EachAfter P (log.filterMap f)) :
    EachAfter (fun a older => ∀ b, f a = some b → P b (older.filterMap f)) log := by
  induction log with
  | nil => trivial
  | cons a log ih =>
      cases ha : f a with
      | none =>
          rw [List.filterMap_cons_none ha] at h
          refine ⟨fun b hb => ?_, ih h⟩
          rw [ha] at hb
          cases hb
      | some b =>
          rw [List.filterMap_cons_some ha] at h
          refine ⟨fun b' hb => ?_, ih h.2⟩
          rw [ha] at hb
          cases hb
          exact h.1

/-- An earlier part of a history. -/
theorem EachAfter.earlier {P : α → List α → Prop} {newer older : List α}
    (h : EachAfter P (newer ++ older)) : EachAfter P older := by
  induction newer with
  | nil => exact h
  | cons a newer ih => exact ih h.2

theorem EachAfter.imp {P Q : α → List α → Prop} {log : List α} (h : EachAfter P log)
    (himp : ∀ a older, P a older → Q a older) : EachAfter Q log := by
  induction log with
  | nil => trivial
  | cons a log ih => exact ⟨himp a log h.1, ih h.2⟩

/-! ## Openings that have been closed -/

/-- The newest opening of the history has been closed since. -/
def Closed (opens closes : α → Option κ) (log : List α) : Prop :=
  ∃ since opening before key, log = since ++ opening :: before ∧ opens opening = some key ∧
    (∀ a ∈ since, opens a = none) ∧ ∃ a ∈ since, closes a = some key

variable {opens closes : α → Option κ} {log : List α}

/-- A closed history stays closed until the next opening. -/
theorem Closed.cons (h : Closed opens closes log) {a : α} (ha : opens a = none) :
    Closed opens closes (a :: log) := by
  obtain ⟨since, opening, before, key, hlog, hopening, hquiet, closing, hmem, hclosing⟩ := h
  refine ⟨a :: since, opening, before, key, by rw [hlog]; rfl, hopening, ?_, closing,
    List.mem_cons_of_mem a hmem, hclosing⟩
  intro b hb
  rcases List.mem_cons.mp hb with rfl | hb
  · exact ha
  · exact hquiet b hb

/-- Closing the key of the newest opening closes the history. -/
theorem Closed.of_open {key : κ} (h : log.findSome? opens = some key) {a : α}
    (ha : opens a = none) (hclosing : closes a = some key) :
    Closed opens closes (a :: log) := by
  obtain ⟨since, opening, before, hlog, hopening, hquiet⟩ := List.findSome?_eq_some_iff.mp h
  refine ⟨a :: since, opening, before, key, by rw [hlog]; rfl, hopening, ?_, a,
    List.mem_cons_self, hclosing⟩
  intro b hb
  rcases List.mem_cons.mp hb with rfl | hb
  · exact ha
  · exact hquiet b hb

/-- An opening leaves the history open. -/
theorem not_closed_opening {key : κ} {a : α} (ha : opens a = some key) :
    ¬ Closed opens closes (a :: log) := by
  rintro ⟨since, opening, before, key', hlog, -, hquiet, closing, hmem, -⟩
  cases since with
  | nil => cases hmem
  | cons b since =>
      obtain ⟨rfl, -⟩ := List.cons.inj hlog
      rw [hquiet a List.mem_cons_self] at ha
      cases ha

/-- What closes a history without opening it closes the key of the newest opening. -/
theorem Closed.of_cons {a : α} (h : Closed opens closes (a :: log)) :
    Closed opens closes log ∨ ∃ key, log.findSome? opens = some key ∧ closes a = some key := by
  obtain ⟨since, opening, before, key, hlog, hopening, hquiet, closing, hmem, hclosing⟩ := h
  cases since with
  | nil => cases hmem
  | cons b since =>
      obtain ⟨rfl, rfl⟩ := List.cons.inj hlog
      have hsince : ∀ b ∈ since, opens b = none :=
        fun b hb => hquiet b (List.mem_cons_of_mem a hb)
      rcases List.mem_cons.mp hmem with rfl | hmem
      · refine Or.inr ⟨key, List.findSome?_eq_some_iff.mpr ?_, hclosing⟩
        exact ⟨since, opening, before, rfl, hopening, hsince⟩
      · exact Or.inl ⟨since, opening, before, key, rfl, hopening, hsince, closing, hmem,
          hclosing⟩

/-- A history is closed as soon as its projection is. -/
theorem closed_filterMap {f : α → Option β} {opens closes : β → Option κ} {log : List α}
    (h : Closed opens closes (log.filterMap f)) :
    Closed (fun a => (f a).bind opens) (fun a => (f a).bind closes) log := by
  obtain ⟨since, opening, before, key, hlog, hopening, hquiet, closing, hmem, hclosing⟩ := h
  obtain ⟨since', rest, hsplit, hsince, hrest⟩ := List.filterMap_eq_append_iff.mp hlog
  obtain ⟨gap, opening', before', hrest', hgap, hopening', -⟩ :=
    List.filterMap_eq_cons_iff.mp hrest
  have hopens : ∀ a b, f a = some b → (f a).bind opens = opens b := by
    intro a b hab
    rw [hab]
    rfl
  refine ⟨since' ++ gap, opening', before', key, ?_, ?_, ?_, ?_⟩
  · rw [hsplit, hrest']
    simp
  · exact (hopens opening' opening hopening').trans hopening
  · intro a ha
    rcases List.mem_append.mp ha with ha | ha
    · cases hfa : f a with
      | none => simp [hfa]
      | some b =>
          have hb : b ∈ since := by
            rw [← hsince]
            exact List.mem_filterMap.mpr ⟨a, ha, hfa⟩
          exact (hopens a b hfa).trans (hquiet b hb)
    · simp [hgap a ha]
  · rw [← hsince] at hmem
    obtain ⟨a, ha, hfa⟩ := List.mem_filterMap.mp hmem
    exact ⟨a, List.mem_append_left gap ha, by simp [hfa, hclosing]⟩

end Foundation
