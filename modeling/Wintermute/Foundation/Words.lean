import Mathlib.Data.List.DropRight
import Mathlib.Tactic

/-!
# Prefixes, cuts and words

The scanning operations a line-oriented reader is built from: strip a fixed front,
cut once at a separator, trim symbols off either end, and take the first word.

Main results:

- Theorem {lit}`stripPrefix_eq_some_iff`: a stripped front is the front of the
  sequence.
- Theorem {lit}`findSome_stripPrefix`: in a table of pairwise incomparable fronts at
  most one is stripped.
- Theorem {lit}`splitOnce_getD`: cutting once splits a sequence into the part before
  the first separator and the part after it.
- Theorem {lit}`firstWord_append_blank`: blanks at the end do not change the first
  word.
- Theorem {lit}`firstWord_append`: a blank-free front followed by a blank is the
  first word.
-/

namespace Foundation

variable {α : Type*}

section Equality

variable [DecidableEq α]

/-! ## Fixed fronts -/

/-- What follows the front {lit}`front`, if the sequence starts with it. -/
def stripPrefix (front l : List α) : Option (List α) :=
  l.dropPrefix? front

/-- A stripped front is the front of the sequence. -/
theorem stripPrefix_eq_some_iff {front l rest : List α} :
    stripPrefix front l = some rest ↔ l = front ++ rest := by
  simp [stripPrefix, List.dropPrefix?_eq_some_iff]

@[simp] theorem stripPrefix_append (front rest : List α) :
    stripPrefix front (front ++ rest) = some rest :=
  stripPrefix_eq_some_iff.mpr rfl

theorem stripPrefix_eq_none_iff {front l : List α} :
    stripPrefix front l = none ↔ ¬ front <+: l := by
  rw [Option.eq_none_iff_forall_ne_some]
  constructor
  · rintro hnone ⟨rest, hrest⟩
    exact hnone rest (stripPrefix_eq_some_iff.mpr hrest.symm)
  · intro hfront rest hrest
    exact hfront ⟨rest, (stripPrefix_eq_some_iff.mp hrest).symm⟩

/-- Either the sequence starts with the front or nothing is stripped. -/
theorem stripPrefix_cases (front l : List α) :
    (∃ rest, l = front ++ rest) ∨ stripPrefix front l = none := by
  cases h : stripPrefix front l with
  | none => exact Or.inr rfl
  | some rest => exact Or.inl ⟨rest, stripPrefix_eq_some_iff.mp h⟩

/-- Neither of two fronts starts with the other. -/
def Incomparable (p q : List α) : Prop :=
  ¬ p <+: q ∧ ¬ q <+: p

instance (p q : List α) : Decidable (Incomparable p q) :=
  inferInstanceAs (Decidable (_ ∧ _))

theorem stripPrefix_of_incomparable {p q : List α} (hpq : Incomparable p q) (rest : List α) :
    stripPrefix p (q ++ rest) = none := by
  rw [stripPrefix_eq_none_iff]
  intro hp
  rcases List.prefix_or_prefix_of_prefix hp (List.prefix_append q rest) with hle | hge
  · exact hpq.1 hle
  · exact hpq.2 hge

/-- No front of a table is stripped from a sequence that starts with an incomparable
one. -/
theorem findSome_stripPrefix_eq_none {fronts : List (List α)} {q : List α}
    (hq : ∀ p ∈ fronts, Incomparable p q) (keep : List α → Bool) (rest : List α) :
    (fronts.findSome? fun p => (stripPrefix p (q ++ rest)).filter keep) = none := by
  refine List.findSome?_eq_none_iff.mpr fun p hp => ?_
  rw [stripPrefix_of_incomparable (hq p hp)]
  rfl

/-- In a table of pairwise incomparable fronts at most one is stripped. -/
theorem findSome_stripPrefix {fronts : List (List α)} (hfronts : fronts.Pairwise Incomparable)
    {front : List α} (hfront : front ∈ fronts) (keep : List α → Bool) (rest : List α) :
    (fronts.findSome? fun p => (stripPrefix p (front ++ rest)).filter keep) =
      if keep rest then some rest else none := by
  induction fronts with
  | nil => cases hfront
  | cons p ps ih =>
      rw [List.pairwise_cons] at hfronts
      rcases List.mem_cons.mp hfront with rfl | htail
      · have hrest : (ps.findSome? fun p => (stripPrefix p (front ++ rest)).filter keep) = none :=
          findSome_stripPrefix_eq_none (fun p hp => And.symm (hfronts.1 p hp)) keep rest
        rw [List.findSome?_cons, stripPrefix_append, Option.filter_some, hrest]
        split_ifs <;> rfl
      · rw [List.findSome?_cons, stripPrefix_of_incomparable (hfronts.1 front htail)]
        exact ih hfronts.2 htail

/-- A suffix whose first symbol is not in the front lies behind the front. -/
theorem suffix_of_suffix_append {α : Type*} {front rest s : List α} {a : α} (ha : a ∉ front)
    (hsuffix : (a :: s) <:+ front ++ rest) : (a :: s) <:+ rest := by
  induction front with
  | nil => exact hsuffix
  | cons b front ih =>
      rw [List.mem_cons, not_or] at ha
      rw [List.cons_append, List.suffix_cons_iff] at hsuffix
      rcases hsuffix with heq | htail
      · exact absurd (List.head_eq_of_cons_eq heq) ha.1
      · exact ih ha.2 htail

/-! ## Cutting once at a separator -/

/-- The part before the first separator. -/
def beforeFirst (sep : α) (l : List α) : List α :=
  l.takeWhile (· != sep)

/-- The part after the first separator, empty when there is none. -/
def afterFirst (sep : α) (l : List α) : List α :=
  (l.dropWhile (· != sep)).drop 1

/-- Both parts of a sequence that has the separator. -/
def splitOnce (sep : α) (l : List α) : Option (List α × List α) :=
  if sep ∈ l then some (beforeFirst sep l, afterFirst sep l) else none

theorem forall_ne_of_notMem {sep : α} {l : List α} (hl : sep ∉ l) :
    ∀ a ∈ l, (a != sep) = true := by
  intro a ha
  rw [bne_iff_ne]
  exact fun heq => hl (heq ▸ ha)

theorem beforeFirst_of_notMem {sep : α} {l : List α} (hl : sep ∉ l) :
    beforeFirst sep l = l :=
  List.takeWhile_eq_self_iff.mpr (forall_ne_of_notMem hl)

theorem afterFirst_of_notMem {sep : α} {l : List α} (hl : sep ∉ l) :
    afterFirst sep l = [] := by
  rw [afterFirst, List.dropWhile_eq_nil_iff.mpr (forall_ne_of_notMem hl), List.drop_nil]

theorem beforeFirst_append {sep : α} {p : List α} (hp : sep ∉ p) (rest : List α) :
    beforeFirst sep (p ++ sep :: rest) = p := by
  rw [beforeFirst, List.takeWhile_append_of_pos (forall_ne_of_notMem hp),
    List.takeWhile_cons_of_neg (by simp), List.append_nil]

/-- What stands behind a separator does not matter. -/
theorem beforeFirst_append_sep {sep : α} (l rest : List α) :
    beforeFirst sep (l ++ sep :: rest) = beforeFirst sep l := by
  induction l with
  | nil => simp [beforeFirst]
  | cons a l ih =>
      rw [beforeFirst, beforeFirst] at ih ⊢
      rw [List.cons_append, List.takeWhile_cons, List.takeWhile_cons, ih]

theorem afterFirst_append {sep : α} {p : List α} (hp : sep ∉ p) (rest : List α) :
    afterFirst sep (p ++ sep :: rest) = rest := by
  rw [afterFirst, List.dropWhile_append_of_pos (forall_ne_of_notMem hp),
    List.dropWhile_cons_of_neg (by simp), List.drop_one, List.tail_cons]

/-- Two sequences cut at their first separators are equal when both parts are. -/
theorem append_sep_inj {sep : α} {p q : List α} (hp : sep ∉ p) (hq : sep ∉ q)
    {x y : List α} : p ++ sep :: x = q ++ sep :: y ↔ p = q ∧ x = y := by
  constructor
  · intro heq
    have hbefore := congrArg (beforeFirst sep) heq
    have hafter := congrArg (afterFirst sep) heq
    rw [beforeFirst_append hp, beforeFirst_append hq] at hbefore
    rw [afterFirst_append hp, afterFirst_append hq] at hafter
    exact ⟨hbefore, hafter⟩
  · rintro ⟨rfl, rfl⟩
    rfl

/-- A front without separator goes to the part before the first one. -/
theorem beforeFirst_front {sep : α} {front : List α} (hfront : sep ∉ front) (l : List α) :
    beforeFirst sep (front ++ l) = front ++ beforeFirst sep l := by
  rw [beforeFirst, List.takeWhile_append_of_pos (forall_ne_of_notMem hfront), beforeFirst]

@[simp] theorem beforeFirst_self (sep : α) (l : List α) : beforeFirst sep (sep :: l) = [] :=
  List.takeWhile_cons_of_neg (by simp)

theorem beforeFirst_cons {sep a : α} (ha : a ≠ sep) (l : List α) :
    beforeFirst sep (a :: l) = a :: beforeFirst sep l :=
  List.takeWhile_cons_of_pos (by simpa using ha)

theorem afterFirst_front {sep : α} {front : List α} (hfront : sep ∉ front) (l : List α) :
    afterFirst sep (front ++ l) = afterFirst sep l := by
  rw [afterFirst, List.dropWhile_append_of_pos (forall_ne_of_notMem hfront), afterFirst]

/-- The part before the first separator has none. -/
theorem notMem_beforeFirst (sep : α) (l : List α) : sep ∉ beforeFirst sep l := by
  intro hmem
  have hne := List.mem_takeWhile_imp hmem
  simp at hne

theorem mem_of_mem_beforeFirst {sep a : α} {l : List α} (ha : a ∈ beforeFirst sep l) : a ∈ l :=
  (List.takeWhile_prefix _).mem ha

theorem mem_of_mem_afterFirst {sep a : α} {l : List α} (ha : a ∈ afterFirst sep l) : a ∈ l :=
  (List.dropWhile_suffix _).mem (List.mem_of_mem_drop ha)

theorem beforeFirst_isPrefix (sep : α) (l : List α) : beforeFirst sep l <+: l :=
  List.takeWhile_prefix _

/-- Cutting once splits a sequence into the part before the first separator and the
part after it. -/
theorem splitOnce_getD (sep : α) (l : List α) :
    (splitOnce sep l).getD (l, []) = (beforeFirst sep l, afterFirst sep l) := by
  rw [splitOnce]
  split_ifs with hsep
  · rfl
  · rw [beforeFirst_of_notMem hsep, afterFirst_of_notMem hsep]
    rfl

/-- The first separator stands right after a front that has none. -/
theorem idxOf?_append {sep : α} {p : List α} (hp : sep ∉ p) (rest : List α) :
    (p ++ sep :: rest).idxOf? sep = some p.length := by
  induction p with
  | nil => simp [List.idxOf?_cons]
  | cons a as ih =>
      rw [List.mem_cons, not_or] at hp
      have ha : (a == sep) = false := beq_eq_false_iff_ne.mpr (Ne.symm hp.1)
      simp [List.idxOf?_cons, ha, ih hp.2]

end Equality

/-! ## Trimming and words -/

/-- Drop the symbols satisfying {lit}`p` from the front. -/
def trimStartMatches (p : α → Bool) (l : List α) : List α :=
  l.dropWhile p

/-- Drop the symbols satisfying {lit}`p` from the end. -/
def trimEndMatches (p : α → Bool) (l : List α) : List α :=
  l.rdropWhile p

/-- What trimming removes from the end satisfies {lit}`p`. -/
theorem exists_eq_trimEndMatches_append (p : α → Bool) (l : List α) :
    ∃ blank, l = trimEndMatches p l ++ blank ∧ ∀ a ∈ blank, p a = true := by
  refine ⟨l.rtakeWhile p, (List.rdropWhile_append_rtakeWhile ..).symm, ?_⟩
  exact fun a ha => List.mem_rtakeWhile_imp ha

/-- Symbols satisfying {lit}`p` at the end are trimmed with the rest. -/
theorem trimEndMatches_append {p : α → Bool} {l blank : List α}
    (hblank : ∀ a ∈ blank, p a = true) :
    trimEndMatches p (l ++ blank) = trimEndMatches p l := by
  induction blank using List.reverseRecOn with
  | nil => rw [List.append_nil]
  | append_singleton blank a ih =>
      have ha : p a = true := hblank a (by simp)
      rw [← List.append_assoc, trimEndMatches, List.rdropWhile_concat_pos _ _ _ ha]
      exact ih fun b hb => hblank b (List.mem_append_left _ hb)

/-- A front whose last symbol fails {lit}`p` is not trimmed from the end. -/
theorem trimEndMatches_front {p : α → Bool} {front : List α} {a : α} (ha : p a = false)
    (l : List α) : trimEndMatches p (front ++ [a] ++ l) = front ++ [a] ++ trimEndMatches p l := by
  have hneg : ¬ p a = true := by
    rw [ha]
    exact Bool.false_ne_true
  induction l using List.reverseRecOn with
  | nil =>
      rw [List.append_nil]
      exact (List.rdropWhile_concat_neg _ _ _ hneg).trans (List.append_nil _).symm
  | append_singleton l b ih =>
      by_cases hb : p b = true
      · have hblank : ∀ c ∈ [b], p c = true := List.forall_mem_singleton.mpr hb
        rw [← List.append_assoc, trimEndMatches_append hblank, trimEndMatches_append hblank, ih]
      · rw [trimEndMatches, trimEndMatches, List.rdropWhile_concat_neg _ _ _ hb,
          ← List.append_assoc, List.rdropWhile_concat_neg _ _ _ hb]

theorem mem_of_mem_trimStartMatches {p : α → Bool} {a : α} {l : List α}
    (ha : a ∈ trimStartMatches p l) : a ∈ l :=
  (List.dropWhile_suffix p).mem ha

theorem mem_of_mem_trimEndMatches {p : α → Bool} {a : α} {l : List α}
    (ha : a ∈ trimEndMatches p l) : a ∈ l :=
  (List.rdropWhile_prefix p l).mem ha

theorem trimStartMatches_congr {p q : α → Bool} {l : List α} (hl : ∀ a ∈ l, p a = q a) :
    trimStartMatches p l = trimStartMatches q l := by
  induction l with
  | nil => rfl
  | cons a l ih =>
      rw [List.forall_mem_cons] at hl
      rw [trimStartMatches, trimStartMatches] at ih ⊢
      rw [List.dropWhile_cons, List.dropWhile_cons, hl.1, ih hl.2]

theorem trimEndMatches_congr {p q : α → Bool} {l : List α} (hl : ∀ a ∈ l, p a = q a) :
    trimEndMatches p l = trimEndMatches q l := by
  have hreverse : ∀ a ∈ l.reverse, p a = q a := fun a ha => hl a (List.mem_reverse.mp ha)
  exact congrArg List.reverse (trimStartMatches_congr hreverse)

/-- The first maximal run of symbols that are not blank, if there is one. -/
def firstWord (blank : α → Bool) (l : List α) : Option (List α) :=
  let word := (l.dropWhile blank).takeWhile fun a => !blank a
  if word.isEmpty then none else some word

/-- A first word is nonempty and has no blank. -/
theorem firstWord_spec {blank : α → Bool} {l w : List α} (hw : firstWord blank l = some w) :
    w ≠ [] ∧ ∀ a ∈ w, blank a = false := by
  rw [firstWord] at hw
  split_ifs at hw with hempty
  cases hw
  refine ⟨fun hnil => hempty (List.isEmpty_iff.mpr hnil), fun a ha => ?_⟩
  simpa using List.mem_takeWhile_imp ha

/-- The first word extends a nonempty front without blanks. -/
theorem firstWord_front {blank : α → Bool} {front : List α} (hne : front ≠ [])
    (hfront : ∀ a ∈ front, blank a = false) (l : List α) :
    firstWord blank (front ++ l) = some (front ++ l.takeWhile fun a => !blank a) := by
  have hdrop : (front ++ l).dropWhile blank = front ++ l := by
    cases front with
    | nil => exact absurd rfl hne
    | cons a as =>
        have ha : ¬ blank a = true := by simp [hfront a List.mem_cons_self]
        rw [List.cons_append, List.dropWhile_cons_of_neg ha]
  have hall : ∀ a ∈ front, (!blank a) = true := fun a ha => by simp [hfront a ha]
  have htake : (front ++ l).takeWhile (fun a => !blank a) =
      front ++ l.takeWhile fun a => !blank a :=
    List.takeWhile_append_of_pos hall
  rw [firstWord, hdrop, htake, if_neg]
  rw [List.isEmpty_iff]
  exact List.append_ne_nil_of_left_ne_nil hne _

/-- A nonempty front without blanks, followed by nothing or by a blank, is the first
word. -/
theorem firstWord_append {blank : α → Bool} {w rest : List α} (hne : w ≠ [])
    (hw : ∀ a ∈ w, blank a = false) (hrest : ∀ a ∈ rest.head?, blank a = true) :
    firstWord blank (w ++ rest) = some w := by
  rw [firstWord_front hne hw]
  cases rest with
  | nil => rw [List.takeWhile_nil, List.append_nil]
  | cons b bs => simp [hrest b rfl]

/-- Blanks at the front do not change the first word. -/
theorem firstWord_blank_append {blank : α → Bool} {front : List α} (l : List α)
    (hfront : ∀ a ∈ front, blank a = true) :
    firstWord blank (front ++ l) = firstWord blank l := by
  rw [firstWord, firstWord, List.dropWhile_append_of_pos hfront]

/-- What follows the first word starts with a blank. -/
theorem head_blank_of_firstWord {blank : α → Bool} {w rest : List α}
    (hw : firstWord blank (w ++ rest) = some w) : ∀ a ∈ rest.head?, blank a = true := by
  obtain ⟨hne, hword⟩ := firstWord_spec hw
  rw [firstWord_front hne hword, Option.some.injEq, List.append_right_eq_self] at hw
  cases rest with
  | nil => exact fun a ha => absurd ha (by simp)
  | cons b bs =>
      intro a ha
      cases ha
      by_contra hblank
      simp [hblank] at hw

/-- A sequence of blanks has no word. -/
theorem firstWord_of_blank {blank : α → Bool} {l : List α} (hl : ∀ a ∈ l, blank a = true) :
    firstWord blank l = none := by
  rw [firstWord, List.dropWhile_eq_nil_iff.mpr hl]
  rfl

/-- A sequence is blank, or it is its first word with blanks before it and nothing or
a blank after it. -/
theorem firstWord_cases (blank : α → Bool) (l : List α) :
    (∀ a ∈ l, blank a = true) ∨ ∃ front w rest, firstWord blank l = some w ∧
      l = front ++ (w ++ rest) ∧ (∀ a ∈ front, blank a = true) ∧
      ∀ a ∈ rest.head?, blank a = true := by
  by_cases hl : ∀ a ∈ l, blank a = true
  · exact Or.inl hl
  · right
    have hne : l.dropWhile blank ≠ [] := fun h => hl (List.dropWhile_eq_nil_iff.mp h)
    have hhead := List.head_dropWhile_not blank hne
    refine ⟨l.takeWhile blank, (l.dropWhile blank).takeWhile fun a => !blank a,
      (l.dropWhile blank).dropWhile fun a => !blank a, ?_, ?_, ?_, ?_⟩
    · rw [firstWord, if_neg]
      cases hdrop : l.dropWhile blank with
      | nil => exact absurd hdrop hne
      | cons a as =>
          have ha : (!blank a) = true := by simpa [hdrop] using hhead
          simp [ha]
    · rw [List.takeWhile_append_dropWhile, List.takeWhile_append_dropWhile]
    · exact fun a ha => List.mem_takeWhile_imp ha
    · intro a ha
      have hnot := List.head?_dropWhile_not (fun a => !blank a) (l.dropWhile blank)
      rw [Option.mem_def.mp ha] at hnot
      simpa using hnot

/-- Blanks at the end do not change the first word. -/
theorem firstWord_append_blank {blank : α → Bool} {l tail : List α}
    (htail : ∀ a ∈ tail, blank a = true) :
    firstWord blank (l ++ tail) = firstWord blank l := by
  rcases firstWord_cases blank l with hl | ⟨front, w, rest, hw, rfl, hfront, hrest⟩
  · rw [firstWord_of_blank hl, firstWord_of_blank]
    exact List.forall_mem_append.mpr ⟨hl, htail⟩
  · obtain ⟨hne, hword⟩ := firstWord_spec hw
    rw [hw, List.append_assoc, List.append_assoc, firstWord_blank_append _ hfront]
    refine firstWord_append hne hword ?_
    cases rest with
    | nil => exact fun a ha => htail a (List.mem_of_head? ha)
    | cons b bs => exact hrest

/-- Blanks at the end do not change the first word behind a trimmed front. -/
theorem firstWord_trimStartMatches_append_blank {blank p : α → Bool} {l tail : List α}
    (htail : ∀ a ∈ tail, blank a = true) :
    firstWord blank (trimStartMatches p (l ++ tail)) = firstWord blank (trimStartMatches p l) := by
  rw [trimStartMatches, trimStartMatches, List.dropWhile_append]
  split_ifs with hempty
  · rw [List.isEmpty_iff.mp hempty, firstWord_of_blank, firstWord_of_blank]
    · exact fun a ha => absurd ha List.not_mem_nil
    · exact fun a ha => htail a ((List.dropWhile_suffix p).mem ha)
  · exact firstWord_append_blank htail

/-! ## Images of symbols -/

/-- Symbols with nonempty images have one-symbol images when there are as many symbols
afterwards as before. -/
theorem flatMap_eq_map_iff {α β : Type*} {f : α → List β} {g : α → β} (hf : ∀ a, f a ≠ [])
    {l : List α} : l.flatMap f = l.map g ↔ ∀ a ∈ l, f a = [g a] := by
  have hlength : ∀ l : List α, l.length ≤ (l.flatMap f).length := by
    intro l
    induction l with
    | nil => simp
    | cons a l ih =>
        have hpos := List.length_pos_iff.mpr (hf a)
        simp only [List.flatMap_cons, List.length_append, List.length_cons]
        omega
  induction l with
  | nil => simp
  | cons a l ih =>
      rw [List.flatMap_cons, List.map_cons, List.forall_mem_cons]
      constructor
      · intro heq
        obtain ⟨b, image, himage⟩ := List.exists_cons_of_ne_nil (hf a)
        rw [himage, List.cons_append, List.cons.injEq] at heq
        have hsame := congrArg List.length heq.2
        have hle := hlength l
        rw [List.length_append, List.length_map] at hsame
        have hnil : image = [] := List.length_eq_zero_iff.mp (by omega)
        rw [hnil, List.nil_append] at heq
        exact ⟨by rw [himage, hnil, heq.1], ih.mp heq.2⟩
      · rintro ⟨ha, hl⟩
        rw [ha, ih.mpr hl, List.singleton_append]

end Foundation
