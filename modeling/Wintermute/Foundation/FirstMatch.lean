import Mathlib.Data.List.Basic
import Mathlib.Data.List.Nodup
import Mathlib.Tactic

/-!
# Updating the first match of a list

A vector searched with a predicate and changed in place at the first element
found.  The lemmas below say what such an update does to a later lookup by key
when the update itself keeps the key.

Main results:

- Theorem {lit}`map_updateFirst`: an observation that the update keeps is the
  same on the whole list.
- Theorems {lit}`find_updateFirst_self`, {lit}`find_updateFirst_and` and
  {lit}`find_updateFirst_ne`: the lookup of a key after an update of the first
  element with that key, or with another key.
- Theorem {lit}`mem_map_filter_iff`: with distinct keys, a filter seen through
  the lookup.
- Theorem {lit}`filterMap_eq_snapshot`: with distinct keys, reading a list entry by
  entry is a snapshot of its lookups.
- Theorem {lit}`foldl_update_apply`: a map filled entry by entry holds the last value of
  each key.
-/

namespace Foundation

variable {α β κ : Type*}

/-- Apply {lit}`f` to the first element satisfying {lit}`p`; a list without such
an element is returned as it is. -/
def updateFirst (p : α → Bool) (f : α → α) : List α → List α
  | [] => []
  | a :: as => if p a then f a :: as else a :: updateFirst p f as

/-- An observation kept by the update is kept on the whole list. -/
theorem map_updateFirst (g : α → β) {p : α → Bool} {f : α → α}
    (hf : ∀ a, g (f a) = g a) (l : List α) :
    (updateFirst p f l).map g = l.map g := by
  induction l with
  | nil => rfl
  | cons a l ih =>
      rw [updateFirst]
      split
      · rw [List.map_cons, List.map_cons, hf]
      · rw [List.map_cons, List.map_cons, ih]

/-- A property that the update keeps holds of all elements afterwards. -/
theorem forall_mem_updateFirst {Q : α → Prop} {p : α → Bool} {f : α → α}
    (hf : ∀ a, Q a → Q (f a)) {l : List α} (hl : ∀ a ∈ l, Q a) :
    ∀ a ∈ updateFirst p f l, Q a := by
  induction l with
  | nil => exact hl
  | cons a l ih =>
      obtain ⟨ha, hrest⟩ := List.forall_mem_cons.mp hl
      rw [updateFirst]
      split
      · exact List.forall_mem_cons.mpr ⟨hf a ha, hrest⟩
      · exact List.forall_mem_cons.mpr ⟨ha, ih hrest⟩

/-- Updating the first element with a key changes the lookup of that key by the
update. -/
theorem find_updateFirst_self [DecidableEq κ] (key : α → κ) (k : κ) {f : α → α}
    (hf : ∀ a, key (f a) = key a) (l : List α) :
    (updateFirst (fun a => key a == k) f l).find? (fun a => key a == k) =
      (l.find? (fun a => key a == k)).map f := by
  induction l with
  | nil => rfl
  | cons a l ih =>
      by_cases ha : key a = k
      · simp [updateFirst, hf, ha]
      · simp [updateFirst, ha, ih]

/-- An update of elements with other keys leaves the lookup of a key alone. -/
theorem find_updateFirst_ne [DecidableEq κ] (key : α → κ) (k : κ) {p : α → Bool}
    {f : α → α} (hf : ∀ a, key (f a) = key a) (hp : ∀ a, p a = true → key a ≠ k)
    (l : List α) :
    (updateFirst p f l).find? (fun a => key a == k) =
      l.find? (fun a => key a == k) := by
  induction l with
  | nil => rfl
  | cons a l ih =>
      by_cases ha : p a = true
      · have hne : key a ≠ k := hp a ha
        simp [updateFirst, ha, hf, hne]
      · by_cases hk : key a = k
        · simp [updateFirst, ha, hk]
        · simp [updateFirst, ha, hk, ih]

/-- Updating the first element with a key that also passes a test changes the
lookup of that key exactly when the element found passes it. -/
theorem find_updateFirst_and [DecidableEq κ] (key : α → κ) (k : κ) (q : α → Bool)
    {f : α → α} (hf : ∀ a, key (f a) = key a) (l : List α) :
    (updateFirst (fun a => key a == k && q a) f l).find? (fun a => key a == k) =
      (l.find? (fun a => key a == k)).map (fun a => if q a then f a else a) := by
  induction l with
  | nil => rfl
  | cons a l ih =>
      by_cases ha : key a = k
      · by_cases hq : q a = true
        · simp [updateFirst, hf, ha, hq]
        · simp [updateFirst, ha, hq]
      · simp [updateFirst, ha, ih]

/-- Mapping a key-keeping function over a list maps every lookup. -/
theorem find_map_of_key [DecidableEq κ] (key : α → κ) (k : κ) {f : α → α}
    (hf : ∀ a, key (f a) = key a) (l : List α) :
    (l.map f).find? (fun a => key a == k) =
      (l.find? (fun a => key a == k)).map f := by
  induction l with
  | nil => rfl
  | cons a l ih =>
      by_cases ha : key a = k
      · simp [hf, ha]
      · simp [hf, ha, ih]

/-- In a list with distinct keys, the lookup of a member's key finds the
member. -/
theorem find_eq_some_of_mem [DecidableEq κ] (key : α → κ) {l : List α}
    (hnodup : (l.map key).Nodup) {a : α} (ha : a ∈ l) :
    l.find? (fun b => key b == key a) = some a := by
  induction l with
  | nil => cases ha
  | cons b l ih =>
      rw [List.map_cons, List.nodup_cons] at hnodup
      rcases List.mem_cons.mp ha with rfl | ha
      · simp
      · have hne : key b ≠ key a := by
          intro heq
          exact hnodup.1 (heq ▸ List.mem_map_of_mem ha)
        simp [hne, ih hnodup.2 ha]

/-- In a list with distinct keys, whether an element with a given key passes a
filter is decided by the lookup of that key. -/
theorem mem_map_filter_iff [DecidableEq κ] (key : α → κ) {l : List α}
    (hnodup : (l.map key).Nodup) (q : α → Bool) (k : κ) :
    k ∈ (l.filter q).map key ↔ ∃ a, l.find? (fun b => key b == k) = some a ∧ q a = true := by
  constructor
  · intro hk
    obtain ⟨a, ha, rfl⟩ := List.mem_map.mp hk
    obtain ⟨hal, hq⟩ := List.mem_filter.mp ha
    exact ⟨a, find_eq_some_of_mem key hnodup hal, hq⟩
  · rintro ⟨a, hfind, hq⟩
    have hkey : key a = k := by
      simpa using List.find?_some hfind
    rw [← hkey]
    exact List.mem_map_of_mem (List.mem_filter.mpr ⟨List.mem_of_find?_eq_some hfind, hq⟩)

/-! ## Snapshots by key -/

variable {f g : κ → Option β} {keys : List κ}

/-- The keys at which {lit}`f` has a value, in order, with their values. -/
def snapshot (f : κ → Option β) (keys : List κ) : List (κ × β) :=
  keys.filterMap fun k => (f k).map (Prod.mk k)

theorem mem_snapshot {k : κ} {b : β} : (k, b) ∈ snapshot f keys ↔ k ∈ keys ∧ f k = some b := by
  unfold snapshot
  rw [List.mem_filterMap]
  constructor
  · rintro ⟨k', hk', hpair⟩
    obtain ⟨b', hb', heq⟩ := Option.map_eq_some_iff.mp hpair
    cases heq
    exact ⟨hk', hb'⟩
  · rintro ⟨hk, hb⟩
    exact ⟨k, hk, by rw [hb]; rfl⟩

theorem key_mem_of_mem_snapshot {entry : κ × β} (h : entry ∈ snapshot f keys) :
    entry.1 ∈ keys := by
  obtain ⟨k, b⟩ := entry
  exact (mem_snapshot.mp h).1

theorem snapshot_append (f : κ → Option β) (keys keys' : List κ) :
    snapshot f (keys ++ keys') = snapshot f keys ++ snapshot f keys' :=
  List.filterMap_append

theorem snapshot_congr (h : ∀ k ∈ keys, f k = g k) : snapshot f keys = snapshot g keys := by
  apply List.filterMap_congr
  intro k hk
  rw [h k hk]

/-- A snapshot keeps the order of the keys. -/
theorem snapshot_keys_sublist (f : κ → Option β) (keys : List κ) :
    ((snapshot f keys).map Prod.fst).Sublist keys := by
  induction keys with
  | nil => exact List.Sublist.refl _
  | cons k keys ih =>
      unfold snapshot at ih ⊢
      cases hk : f k with
      | none =>
          rw [List.filterMap_cons_none (by rw [hk]; rfl)]
          exact ih.cons k
      | some b =>
          rw [List.filterMap_cons_some (b := (k, b)) (by rw [hk]; rfl), List.map_cons]
          exact ih.cons_cons k

/-- With distinct keys, reading a list entry by entry is a snapshot of its
lookups. -/
theorem filterMap_eq_snapshot [DecidableEq κ] (key : α → κ) {l : List α}
    (hnodup : (l.map key).Nodup) (g : α → Option β) :
    l.filterMap (fun a => (g a).map (Prod.mk (key a))) =
      snapshot (fun k => (l.find? (fun a => key a == k)).bind g) (l.map key) := by
  unfold snapshot
  rw [List.filterMap_map]
  apply List.filterMap_congr
  intro a ha
  have hfind : (l.find? (fun b => key b == key a)).bind g = g a := by
    rw [find_eq_some_of_mem key hnodup ha]
    rfl
  simp only [Function.comp_apply, hfind]

/-! ## The last value of a key -/

variable [DecidableEq κ]

/-- The value of the last entry with the key. -/
def lastValue (k : κ) (entries : List (κ × β)) : Option β :=
  (entries.filter fun e => e.1 = k).getLast?.map Prod.snd

/-- Entering the entries into a map one after the other leaves the last value of each
key. -/
theorem foldl_update_apply (entries : List (κ × β)) (k : κ) :
    entries.foldl (fun (m : κ → Option β) e => Function.update m e.1 (some e.2))
        (fun _ => none) k =
      lastValue k entries := by
  induction entries using List.reverseRecOn with
  | nil => rfl
  | append_singleton entries e ih =>
      rw [List.foldl_concat, Function.update_apply, lastValue, List.filter_append]
      by_cases hk : k = e.1
      · simp [hk]
      · simp [hk, Ne.symm hk, ih, lastValue]

end Foundation
