import Wintermute.Foundation.Words

/-!
# Occurrences of a pattern

A scanner looks for the leftmost occurrence of a pattern, and after it goes on behind
that occurrence.  Collecting what follows each occurrence and replacing every
occurrence are two uses of the same walk.  A pattern of two different symbols does not
overlap itself, so its occurrences can be counted.

Main results:

- Theorems {lit}`occurrences_append` and {lit}`occurrences_cons`: the walk, one
  occurrence or one symbol at a time.
- Theorem {lit}`replaceAll_between`: in front of the first occurrence nothing changes.
- Theorem {lit}`count_replaceAll`: a value without the opening symbol takes one of them
  away per occurrence.
- Theorem {lit}`pairCount_le_replaceAll`: other pairs stay.
-/

namespace Foundation

variable {α : Type*} [DecidableEq α]

/-! ## The walk -/

/-- What follows each occurrence of the pattern, from left to right; {lit}`skip` symbols
still belong to the occurrence found last. -/
def occurrencesFrom (pat : List α) : ℕ → List α → List (List α)
  | _, [] => []
  | skip + 1, _ :: l => occurrencesFrom pat skip l
  | 0, a :: l =>
      match stripPrefix pat (a :: l) with
      | some rest => rest :: occurrencesFrom pat (pat.length - 1) l
      | none => occurrencesFrom pat 0 l

/-- What follows each occurrence of a nonempty pattern. -/
def occurrences (pat l : List α) : List (List α) :=
  occurrencesFrom pat 0 l

/-- Replace from the left; {lit}`skip` symbols still belong to the occurrence replaced
last. -/
def replaceFrom (pat value : List α) : ℕ → List α → List α
  | _, [] => []
  | skip + 1, _ :: l => replaceFrom pat value skip l
  | 0, a :: l =>
      if pat <+: a :: l then value ++ replaceFrom pat value (pat.length - 1) l
      else a :: replaceFrom pat value 0 l

/-- Replace every occurrence of a nonempty pattern. -/
def replaceAll (pat value l : List α) : List α :=
  replaceFrom pat value 0 l

section Walk

variable {pat value : List α}

theorem occurrencesFrom_eq (skip : ℕ) (l : List α) :
    occurrencesFrom pat skip l = occurrences pat (l.drop skip) := by
  induction skip generalizing l with
  | zero => rfl
  | succ skip ih =>
      cases l with
      | nil => rfl
      | cons a l => exact ih l

theorem replaceFrom_eq (skip : ℕ) (l : List α) :
    replaceFrom pat value skip l = replaceAll pat value (l.drop skip) := by
  induction skip generalizing l with
  | zero => rfl
  | succ skip ih =>
      cases l with
      | nil => rfl
      | cons a l => exact ih l

/-- At an occurrence the walk goes on behind it. -/
theorem occurrences_append (hpat : pat ≠ []) (rest : List α) :
    occurrences pat (pat ++ rest) = rest :: occurrences pat rest := by
  cases pat with
  | nil => exact absurd rfl hpat
  | cons a pat =>
      have hstrip : stripPrefix (a :: pat) (a :: (pat ++ rest)) = some rest :=
        stripPrefix_append (a :: pat) rest
      rw [List.cons_append, occurrences, occurrencesFrom, hstrip]
      simp [occurrencesFrom_eq]

/-- Elsewhere it goes on with the next symbol. -/
theorem occurrences_cons {a : α} {l : List α} (hne : ¬ pat <+: a :: l) :
    occurrences pat (a :: l) = occurrences pat l := by
  rw [occurrences, occurrencesFrom, stripPrefix_eq_none_iff.mpr hne]
  rfl

/-- A front without the first symbol of the pattern is walked over. -/
theorem occurrences_front {a : α} {front : List α} (hfront : a ∉ front) (l : List α) :
    occurrences (a :: pat) (front ++ l) = occurrences (a :: pat) l := by
  induction front with
  | nil => rfl
  | cons b front ih =>
      rw [List.mem_cons, not_or] at hfront
      have hne : ¬ (a :: pat) <+: b :: (front ++ l) :=
        fun h => hfront.1 (List.cons_prefix_cons.mp h).1
      rw [List.cons_append, occurrences_cons hne, ih hfront.2]

/-- An occurrence is replaced by the value. -/
theorem replaceAll_append (hpat : pat ≠ []) (rest : List α) :
    replaceAll pat value (pat ++ rest) = value ++ replaceAll pat value rest := by
  cases pat with
  | nil => exact absurd rfl hpat
  | cons a pat =>
      have hfront : (a :: pat) <+: a :: (pat ++ rest) := List.prefix_append (a :: pat) rest
      rw [List.cons_append, replaceAll, replaceFrom, if_pos hfront, replaceFrom_eq]
      simp

/-- Other symbols are kept. -/
theorem replaceAll_cons {a : α} {l : List α} (hne : ¬ pat <+: a :: l) :
    replaceAll pat value (a :: l) = a :: replaceAll pat value l := by
  rw [replaceAll, replaceFrom, if_neg hne]
  rfl

/-- A replacement has no other symbols than the text and the value. -/
theorem notMem_replaceAll {a : α} (hpat : pat ≠ []) (hvalue : a ∉ value) {l : List α}
    (hl : a ∉ l) : a ∉ replaceAll pat value l := by
  induction hlength : l.length using Nat.strong_induction_on generalizing l with
  | _ n ih =>
      subst hlength
      cases l with
      | nil => exact hl
      | cons b l =>
          by_cases hfront : pat <+: b :: l
          · obtain ⟨rest, hrest⟩ := hfront
            have hpos := List.length_pos_iff.mpr hpat
            rw [← hrest] at hl ih ⊢
            rw [List.mem_append, not_or] at hl
            rw [replaceAll_append hpat, List.mem_append, not_or]
            exact ⟨hvalue, ih rest.length (by rw [List.length_append]; omega) hl.2 rfl⟩
          · rw [List.mem_cons, not_or] at hl
            rw [replaceAll_cons hfront, List.mem_cons, not_or]
            exact ⟨hl.1, ih l.length (Nat.lt_succ_self _) hl.2 rfl⟩

end Walk

/-! ## Patterns of two symbols -/

/-- How often the symbol {lit}`a` stands right before {lit}`b`. -/
def pairCount (a b : α) : List α → ℕ
  | [] => 0
  | c :: l => (if c = a ∧ l.head? = some b then 1 else 0) + pairCount a b l

section Pair

variable {a b c : α}

omit [DecidableEq α] in
theorem pair_prefix_cons {l : List α} : [a, b] <+: c :: l ↔ c = a ∧ l.head? = some b := by
  cases l with
  | nil => simp [List.cons_prefix_cons]
  | cons d l => simp [List.cons_prefix_cons, eq_comm]

omit [DecidableEq α] in
/-- A pair in a sequence cut at its second symbol: at the cut, or behind it. -/
theorem pair_infix_cut (hab : a ≠ b) {p : List α} (hp : b ∉ p) (rest : List α) :
    [a, b] <:+: p ++ b :: rest ↔ p.getLast? = some a ∨ [a, b] <:+: rest := by
  induction p with
  | nil => simp [List.infix_cons_iff, hab]
  | cons c p ih =>
      rw [List.mem_cons, not_or] at hp
      rw [List.cons_append, List.infix_cons_iff, ih hp.2, pair_prefix_cons]
      cases p with
      | nil => simp [eq_comm]
      | cons d p =>
          have hd : d ≠ b := fun h => hp.2 (h ▸ List.mem_cons_self)
          simp [hd]

@[simp] theorem pairCount_nil (a b : α) : pairCount a b [] = 0 := rfl

/-- Without its first symbol a pair does not occur. -/
theorem pairCount_of_notMem {l : List α} (ha : a ∉ l) : pairCount a b l = 0 := by
  induction l with
  | nil => rfl
  | cons c l ih =>
      rw [List.mem_cons, not_or] at ha
      rw [pairCount, ih ha.2, if_neg fun h => ha.1 h.1.symm]

/-- At a pair one occurrence is counted. -/
theorem pairCount_cons_pair (l : List α) :
    pairCount a b (a :: b :: l) = 1 + pairCount a b (b :: l) := by
  rw [pairCount, if_pos ⟨rfl, rfl⟩]

/-- Elsewhere none is. -/
theorem pairCount_cons_other {l : List α} (hne : ¬ [a, b] <+: c :: l) :
    pairCount a b (c :: l) = pairCount a b l := by
  rw [pairCount, if_neg (fun h => hne (pair_prefix_cons.mpr h)), Nat.zero_add]

theorem pairCount_cons_of_ne (hc : c ≠ a) (l : List α) :
    pairCount a b (c :: l) = pairCount a b l :=
  pairCount_cons_other fun h => hc (pair_prefix_cons.mp h).1

theorem pairCount_le_cons (c : α) (l : List α) : pairCount a b l ≤ pairCount a b (c :: l) := by
  rw [pairCount]
  omega

/-- What stands in front only adds occurrences. -/
theorem pairCount_le_append (x l : List α) : pairCount a b l ≤ pairCount a b (x ++ l) := by
  induction x with
  | nil => exact le_rfl
  | cons c x ih => exact ih.trans (pairCount_le_cons c (x ++ l))

/-- Without the pair nothing is replaced. -/
theorem replaceAll_of_pairCount_eq_zero {l : List α} (value : List α)
    (hl : pairCount a b l = 0) : replaceAll [a, b] value l = l := by
  induction l with
  | nil => rfl
  | cons c l ih =>
      have hne : ¬ [a, b] <+: c :: l := by
        intro hpair
        rw [pairCount, if_pos (pair_prefix_cons.mp hpair)] at hl
        omega
      rw [pairCount_cons_other hne] at hl
      rw [replaceAll_cons hne, ih hl]

/-- A sequence is empty, or starts with the pair, or with another symbol. -/
theorem pair_induction {motive : List α → Prop} (a b : α) (nil : motive [])
    (pair : ∀ l, motive l → motive (a :: b :: l))
    (other : ∀ c l, ¬ [a, b] <+: c :: l → motive l → motive (c :: l)) : ∀ l, motive l
  | [] => nil
  | [c] => other c [] (by simp) nil
  | c :: d :: l => by
      by_cases hpair : [a, b] <+: c :: d :: l
      · obtain ⟨rfl, rfl, -⟩ : a = c ∧ b = d ∧ [] <+: l := by
          simpa [List.cons_prefix_cons] using hpair
        exact pair l (pair_induction a b nil pair other l)
      · exact other c (d :: l) hpair (pair_induction a b nil pair other (d :: l))

theorem replaceAll_pair (value l : List α) :
    replaceAll [a, b] value (a :: b :: l) = value ++ replaceAll [a, b] value l :=
  replaceAll_append (List.cons_ne_nil a [b]) l

/-- The second symbol of a pair does not start another one. -/
theorem pairCount_pair (hab : a ≠ b) (l : List α) :
    pairCount a b (a :: b :: l) = 1 + pairCount a b l := by
  rw [pairCount_cons_pair, pairCount_cons_of_ne hab.symm]

/-- A pair cuts a sequence into two parts whose occurrences are counted apart. -/
theorem pairCount_between (hab : a ≠ b) (x y : List α) :
    pairCount a b (x ++ a :: b :: y) = pairCount a b x + (1 + pairCount a b y) := by
  induction x with
  | nil => rw [List.nil_append, pairCount_pair hab, pairCount_nil, Nat.zero_add]
  | cons c x ih =>
      have hhead : (x ++ a :: b :: y).head? = some b ↔ x.head? = some b := by
        cases x with
        | nil => simp [hab]
        | cons d x => simp
      rw [List.cons_append, pairCount, pairCount, ih, Nat.add_assoc]
      simp only [hhead]

/-- In front of the first occurrence nothing changes. -/
theorem replaceAll_between (hab : a ≠ b) (value y : List α) {x : List α}
    (hx : pairCount a b x = 0) :
    replaceAll [a, b] value (x ++ a :: b :: y) = x ++ (value ++ replaceAll [a, b] value y) := by
  induction x with
  | nil => exact replaceAll_pair value y
  | cons c x ih =>
      have hne : ¬ (c = a ∧ (x ++ a :: b :: y).head? = some b) := by
        rintro ⟨rfl, hhead⟩
        cases x with
        | nil => exact hab (by simpa using hhead)
        | cons d x =>
            have hd : d = b := by simpa using hhead
            rw [hd, pairCount_cons_pair] at hx
            omega
      have hle := pairCount_le_cons (a := a) (b := b) c x
      rw [List.cons_append, replaceAll_cons (fun h => hne (pair_prefix_cons.mp h)),
        ih (by omega), List.cons_append]

/-- A value without the opening symbol takes one of them away per occurrence. -/
theorem count_replaceAll (hab : a ≠ b) {value : List α} (hvalue : a ∉ value) (l : List α) :
    (replaceAll [a, b] value l).count a + pairCount a b l = l.count a := by
  induction l using pair_induction a b with
  | nil => rfl
  | pair l ih =>
      have hzero : value.count a = 0 := List.count_eq_zero.mpr hvalue
      rw [replaceAll_pair, pairCount_pair hab, List.count_append, hzero, List.count_cons_self,
        List.count_cons_of_ne hab.symm]
      omega
  | other c l hne ih =>
      rw [replaceAll_cons hne, pairCount_cons_other hne, List.count_cons, List.count_cons]
      omega

/-- Replacing one pair takes no other pair with the same opening symbol away. -/
theorem pairCount_le_replaceAll (hbc : b ≠ c) (hab : a ≠ b) (hac : a ≠ c) (value l : List α) :
    pairCount a c l ≤ pairCount a c (replaceAll [a, b] value l) := by
  induction l using pair_induction a b with
  | nil => exact le_rfl
  | pair l ih =>
      have hne : ¬ [a, c] <+: a :: b :: l := by
        intro hpair
        exact hbc (by simpa using (pair_prefix_cons.mp hpair).2)
      rw [replaceAll_pair, pairCount_cons_other hne, pairCount_cons_of_ne hab.symm]
      exact ih.trans (pairCount_le_append value _)
  | other d l hne ih =>
      have hhead : l.head? = some c → (replaceAll [a, b] value l).head? = some c := by
        intro hl
        obtain ⟨rest, rfl⟩ := List.head?_eq_some_iff.mp hl
        rw [replaceAll_cons fun h => hac (pair_prefix_cons.mp h).1.symm]
        rfl
      rw [replaceAll_cons hne, pairCount, pairCount]
      refine Nat.add_le_add ?_ ih
      split_ifs with hpair hpair'
      · exact le_rfl
      · exact absurd ⟨hpair.1, hhead hpair.2⟩ hpair'
      · exact Nat.zero_le 1
      · exact le_rfl

end Pair

end Foundation
