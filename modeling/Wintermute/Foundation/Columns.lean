import Mathlib.Data.List.Lex
import Wintermute.Foundation.Blocks

/-!
# Decimal columns

A record of numbers is written as decimals of a least width, each with a mark behind it
that is no digit.  The marks make the text unambiguous for numbers of any size; as long as
the numbers fit their columns, the texts have one length and sort as the records do.

Main results:

- Theorem {lit}`padded_lt_iff`: decimals that fit their width compare as numbers.
- Theorem {lit}`render_injective`: the text determines the numbers.
- Theorems {lit}`length_render` and {lit}`render_lt_iff`: the length and the order of the
  texts of fitting records.
-/

namespace Foundation

/-! ## Decimals of a least width -/

/-- The decimal digits of a number, with zeros in front up to a width. -/
def padded (width n : ℕ) : List Char :=
  (Nat.toDigits 10 n).leftpad width '0'

@[simp]
theorem ofDigitChars_padded (width n : ℕ) : Nat.ofDigitChars 10 (padded width n) 0 = n := by
  rw [padded, List.leftpad, Nat.ofDigitChars_append, Nat.ofDigitChars_replicate_zero]
  simp

theorem padded_isDigit {width n : ℕ} : ∀ c ∈ padded width n, c.isDigit = true := by
  intro c hc
  rcases List.mem_append.mp hc with hzero | hdigit
  · rw [List.eq_of_mem_replicate hzero]
    rfl
  · exact Nat.isDigit_of_mem_toDigits (by omega) (by omega) hdigit

theorem length_padded {width n : ℕ} (hpos : 0 < width) (hfit : n < 10 ^ width) :
    (padded width n).length = width := by
  have hlength := (Nat.length_toDigits_le_iff (by omega) hpos).mpr hfit
  rw [padded, List.length_leftpad]
  exact max_eq_left hlength

theorem length_padded_eq {width m n : ℕ} (hpos : 0 < width) (hm : m < 10 ^ width)
    (hn : n < 10 ^ width) : (padded width m).length = (padded width n).length := by
  rw [length_padded hpos hm, length_padded hpos hn]

/-! ## The order of digits -/

theorem digit_value_lt {c : Char} (hc : c.isDigit = true) : c.toNat - '0'.toNat < 10 := by
  have hrange := Char.isDigit_iff_toNat.mp hc
  have hzero : '0'.toNat = 48 := rfl
  have hnine : '9'.toNat = 57 := rfl
  omega

theorem digit_lt_iff {c d : Char} (hc : c.isDigit = true) (hd : d.isDigit = true) :
    c < d ↔ c.toNat - '0'.toNat < d.toNat - '0'.toNat := by
  have hrange := (Char.isDigit_iff_toNat.mp hc).1
  have hrange' := (Char.isDigit_iff_toNat.mp hd).1
  have hval : c < d ↔ c.toNat < d.toNat := Iff.rfl
  rw [hval]
  omega

theorem digit_eq_iff {c d : Char} (hc : c.isDigit = true) (hd : d.isDigit = true) :
    c = d ↔ c.toNat - '0'.toNat = d.toNat - '0'.toNat := by
  have hrange := (Char.isDigit_iff_toNat.mp hc).1
  have hrange' := (Char.isDigit_iff_toNat.mp hd).1
  rw [← Char.toNat_inj]
  omega

/-- The first digit counts by the number of digits behind it. -/
theorem ofDigitChars_cons_zero (c : Char) (ds : List Char) :
    Nat.ofDigitChars 10 (c :: ds) 0 =
      10 ^ ds.length * (c.toNat - '0'.toNat) + Nat.ofDigitChars 10 ds 0 := by
  rw [Nat.ofDigitChars_cons, Nat.ofDigitChars_eq_ofDigitChars_zero, Nat.mul_zero, Nat.zero_add]

/-- The value of digits is below the next place. -/
theorem ofDigitChars_lt {ds : List Char} (hds : ∀ c ∈ ds, c.isDigit = true) :
    Nat.ofDigitChars 10 ds 0 < 10 ^ ds.length := by
  induction ds with
  | nil => simp
  | cons c ds ih =>
      rw [List.forall_mem_cons] at hds
      have hrest := ih hds.2
      have hvalue := digit_value_lt hds.1
      have hplace : 10 ^ ds.length * (c.toNat - '0'.toNat) + 10 ^ ds.length ≤
          10 ^ ds.length * 10 := by
        rw [← Nat.mul_succ]
        exact Nat.mul_le_mul_left _ hvalue
      rw [ofDigitChars_cons_zero, List.length_cons, Nat.pow_succ]
      omega

/-- Digits of one length compare as the numbers they stand for. -/
theorem digits_lt_iff {ds es : List Char} (hlen : ds.length = es.length)
    (hds : ∀ c ∈ ds, c.isDigit = true) (hes : ∀ c ∈ es, c.isDigit = true) :
    ds < es ↔ Nat.ofDigitChars 10 ds 0 < Nat.ofDigitChars 10 es 0 := by
  induction ds generalizing es with
  | nil =>
      rw [List.length_eq_zero_iff.mp hlen.symm]
      simp
  | cons c ds ih =>
      cases es with
      | nil => cases hlen
      | cons d es =>
          rw [List.forall_mem_cons] at hds hes
          have hlen' : ds.length = es.length := Nat.succ_inj.mp hlen
          have hrest := ofDigitChars_lt hds.2
          have hrest' := ofDigitChars_lt hes.2
          rw [← hlen'] at hrest'
          rw [List.cons_lt_cons_iff, ih hlen' hds.2 hes.2, digit_lt_iff hds.1 hes.1,
            digit_eq_iff hds.1 hes.1, ofDigitChars_cons_zero, ofDigitChars_cons_zero, ← hlen',
            (located_mul_add hrest).lt_iff (located_mul_add hrest')]

/-- Decimals that fit their width compare as numbers. -/
theorem padded_lt_iff {width m n : ℕ} (hpos : 0 < width) (hm : m < 10 ^ width)
    (hn : n < 10 ^ width) : padded width m < padded width n ↔ m < n := by
  rw [digits_lt_iff (length_padded_eq hpos hm hn) padded_isDigit padded_isDigit,
    ofDigitChars_padded, ofDigitChars_padded]

theorem padded_injective (width : ℕ) : Function.Injective (padded width) := by
  intro m n h
  rw [← ofDigitChars_padded width m, h, ofDigitChars_padded]

/-- Lists compare piece by piece when the first pieces have one length. -/
theorem append_lt_append_iff {α : Type*} [LT α] {a b x y : List α} (hlen : a.length = b.length) :
    a ++ x < b ++ y ↔ a < b ∨ a = b ∧ x < y := by
  induction a generalizing b with
  | nil =>
      rw [List.length_eq_zero_iff.mp hlen.symm]
      simp
  | cons c a ih =>
      cases b with
      | nil => cases hlen
      | cons d b =>
          rw [List.cons_append, List.cons_append, List.cons_lt_cons_iff, List.cons_lt_cons_iff,
            ih (Nat.succ_inj.mp hlen), List.cons.injEq]
          tauto

/-! ## Columns -/

/-- A column of decimals with a mark behind it. -/
structure Column where
  width : ℕ
  mark : Char
  width_pos : 0 < width
  mark_not_digit : mark.isDigit = false

/-- The text of a record, column by column. -/
def render : List Column → List ℕ → List Char
  | column :: columns, n :: values =>
      padded column.width n ++ column.mark :: render columns values
  | _, _ => []

/-- A number for each column, and not too big for it. -/
def Fits (columns : List Column) (values : List ℕ) : Prop :=
  List.Forall₂ (fun column n => n < 10 ^ column.width) columns values

theorem length_render {columns : List Column} {values : List ℕ} (h : Fits columns values) :
    (render columns values).length = (columns.map fun column => column.width + 1).sum := by
  induction h with
  | nil => rfl
  | cons hn hrest ih =>
      rename_i column n columns values
      rw [render, List.length_append, List.length_cons, length_padded column.width_pos hn, ih,
        List.map_cons, List.sum_cons]
      omega

/-- The texts of fitting records sort as the records. -/
theorem render_lt_iff {columns : List Column} {values values' : List ℕ}
    (h : Fits columns values) (h' : Fits columns values') :
    render columns values < render columns values' ↔ values < values' := by
  induction h generalizing values' with
  | nil =>
      cases h'
      simp [render]
  | cons hn hrest ih =>
      rename_i column n columns values
      cases h' with
      | cons hn' hrest' =>
          rename_i n' values'
          have hlen := length_padded_eq column.width_pos hn hn'
          rw [render, render, append_lt_append_iff hlen, padded_lt_iff column.width_pos hn hn',
            (padded_injective column.width).eq_iff, List.cons_lt_cons_self, ih hrest',
            List.cons_lt_cons_iff]

/-- Digits end at a mark. -/
theorem takeWhile_mark {mark : Char} (hmark : mark.isDigit = false) {ds : List Char}
    (hds : ∀ c ∈ ds, c.isDigit = true) (x : List Char) :
    (ds ++ mark :: x).takeWhile Char.isDigit = ds := by
  rw [List.takeWhile_append_of_pos hds, List.takeWhile_cons_of_neg (by simp [hmark]),
    List.append_nil]

theorem dropWhile_mark {mark : Char} (hmark : mark.isDigit = false) {ds : List Char}
    (hds : ∀ c ∈ ds, c.isDigit = true) (x : List Char) :
    (ds ++ mark :: x).dropWhile Char.isDigit = mark :: x := by
  rw [List.dropWhile_append_of_pos hds]
  exact List.dropWhile_cons_of_neg (by simp [hmark])

theorem append_mark_inj {mark : Char} (hmark : mark.isDigit = false) {ds es x y : List Char}
    (hds : ∀ c ∈ ds, c.isDigit = true) (hes : ∀ c ∈ es, c.isDigit = true)
    (h : ds ++ mark :: x = es ++ mark :: y) : ds = es ∧ x = y := by
  have hdigits : ds = es := by
    rw [← takeWhile_mark hmark hds x, h, takeWhile_mark hmark hes]
  subst hdigits
  exact ⟨rfl, List.tail_eq_of_cons_eq (List.append_cancel_left h)⟩

/-- The text determines the numbers, whether they fit or not. -/
theorem render_injective {columns : List Column} {values values' : List ℕ}
    (hlen : values.length = columns.length) (hlen' : values'.length = columns.length)
    (h : render columns values = render columns values') : values = values' := by
  induction columns generalizing values values' with
  | nil =>
      rw [List.length_eq_zero_iff.mp hlen, List.length_eq_zero_iff.mp hlen']
  | cons column columns ih =>
      cases values with
      | nil => cases hlen
      | cons n values =>
          cases values' with
          | nil => cases hlen'
          | cons n' values' =>
              have hparts := append_mark_inj column.mark_not_digit padded_isDigit padded_isDigit h
              rw [padded_injective column.width hparts.1,
                ih (Nat.succ_inj.mp hlen) (Nat.succ_inj.mp hlen') hparts.2]

end Foundation
