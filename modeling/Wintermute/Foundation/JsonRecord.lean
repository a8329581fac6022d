import Wintermute.Foundation.Json

/-!
# Records in JSON values

Readers for the parts of a record: natural numbers, strings, flags, optional values,
sequences, and the fields of an object.  A field may occur once at most, fields that
no reader asks for are ignored, and a missing field can have a default.  The last
section removes fields from a value.

Main results:

- Theorem {lit}`asNat_ofNat`: a natural number is read back from its literal.
- Theorem {lit}`asList_map`: a sequence is read back item by item.
- Theorems {lit}`required_eq` and {lit}`orDefault_none`: reading a field, and its absence.
-/

namespace Foundation.Json

variable {α β : Type}

/-! ## Natural numbers -/

/-- The digits of a positive number start with a digit other than zero. -/
theorem exists_toDigits_cons {n : ℕ} (hn : 0 < n) :
    ∃ c t, Nat.toDigits 10 n = c :: t ∧ c ≠ '0' := by
  induction n using Nat.strong_induction_on with
  | _ n ih =>
      have hdigit : ∀ m < 10, 0 < m → m.digitChar ≠ '0' := by decide
      by_cases hsmall : n < 10
      · exact ⟨n.digitChar, [], Nat.toDigits_of_lt_base hsmall, hdigit n hsmall hn⟩
      · obtain ⟨c, t, hdigits, hc⟩ := ih (n / 10) (by omega) (by omega)
        rw [Nat.toDigits_of_base_le (by omega) (by omega), hdigits]
        exact ⟨c, _, rfl, hc⟩

theorem toDigits_isDigit (n : ℕ) : ∀ c ∈ Nat.toDigits 10 n, c.isDigit = true :=
  fun _ hc => Nat.isDigit_of_mem_toDigits (by omega) (by omega) hc

/-- The digits of a natural number are a number literal. -/
theorem isNumber_toDigits (n : ℕ) : isNumber (Nat.toDigits 10 n) = true := by
  rcases Nat.eq_zero_or_pos n with rfl | hpos
  · decide
  · obtain ⟨c, t, hdigits, hzero⟩ := exists_toDigits_cons hpos
    have hall := toDigits_isDigit n
    rw [hdigits, List.forall_mem_cons] at hall
    have hminus : c ≠ '-' := by
      rintro rfl
      cases hall.1
    have hrest : t.dropWhile Char.isDigit = [] := List.dropWhile_eq_nil_iff.mpr hall.2
    rw [hdigits, isNumber]
    · rw [isUnsigned]
      · rw [hall.1, hrest]
        rfl
      · exact hzero
    · intro rest heq
      cases heq
      exact hminus rfl

/-- The literal of a natural number. -/
def ofNat (n : ℕ) : Json :=
  .num {
    text := Nat.toDigits 10 n
    chars := List.all_eq_true.mpr fun c hc => by
      rw [isNumberChar, toDigits_isDigit n c hc]
      rfl
    grammar := isNumber_toDigits n }

/-- The natural number a value is the literal of; signs, fractions and exponents are
refused. -/
def asNat : Json → Option ℕ
  | .num n => if n.text.all Char.isDigit then some (Nat.ofDigitChars 10 n.text 0) else none
  | _ => none

/-- A natural number is read back from its literal. -/
theorem asNat_ofNat (n : ℕ) : asNat (ofNat n) = some n := by
  rw [ofNat, asNat, if_pos (List.all_eq_true.mpr (toDigits_isDigit n)),
    Nat.ofDigitChars_ten_toDigits]

/-- A natural number below a bound. -/
def asNatBelow (bound : ℕ) (value : Json) : Option ℕ :=
  (asNat value).filter (· < bound)

theorem asNatBelow_ofNat {bound n : ℕ} (hn : n < bound) :
    asNatBelow bound (ofNat n) = some n := by
  rw [asNatBelow, asNat_ofNat, Option.filter_some_pos (by simpa using hn)]

/-! ## Strings, flags, options and sequences -/

def ofString (s : String) : Json :=
  .str s.toList

def asString : Json → Option String
  | .str s => some (String.ofList s)
  | _ => none

def asBool : Json → Option Bool
  | .bool b => some b
  | _ => none

/-- An optional value: null, or a value. -/
def ofOption (write : α → Json) : Option α → Json
  | none => .null
  | some a => write a

def asOption (read : Json → Option α) : Json → Option (Option α)
  | .null => some none
  | value => (read value).map some

/-- A sequence, read item by item. -/
def asList (read : Json → Option α) : Json → Option (List α)
  | .arr items => items.mapM read
  | _ => none

theorem asString_ofString (s : String) : asString (ofString s) = some s := by
  rw [ofString, asString, String.ofList_toList]

/-- An optional string is read back. -/
theorem asOption_ofString (s : Option String) :
    asOption asString (ofOption ofString s) = some s := by
  cases s with
  | none => rfl
  | some s =>
      change (asString (ofString s)).map some = some (some s)
      rw [asString_ofString, Option.map_some]

/-- An optional natural number is read back. -/
theorem asOption_ofNat {read : Json → Option α} {write : α → ℕ}
    (hread : ∀ a, read (ofNat (write a)) = some a) (a : α) :
    asOption read (ofNat (write a)) = some (some a) := by
  change (read (ofNat (write a))).map some = some (some a)
  rw [hread, Option.map_some]

/-- A sequence whose items were written and then changed by position is read item by
item. -/
theorem asList_mapIdx {read : Json → Option α} {write : β → Json} {g : ℕ → Json → Json}
    {f : ℕ → β → α} (hread : ∀ i b, read (g i (write b)) = some (f i b)) (l : List β) :
    asList read (.arr ((l.map write).mapIdx g)) = some (l.mapIdx f) := by
  rw [asList]
  induction l generalizing g f with
  | nil => rfl
  | cons b l ih =>
      rw [List.map_cons, List.mapIdx_cons, List.mapIdx_cons, List.mapM_cons, hread 0 b,
        ih fun i => hread (i + 1)]
      rfl

/-- A sequence that was written item by item is read back. -/
theorem asList_map {read : Json → Option α} {write : α → Json}
    (hread : ∀ a, read (write a) = some a) (l : List α) :
    asList read (.arr (l.map write)) = some l := by
  have hsame : ∀ {γ : Type} (items : List γ), items.mapIdx (fun _ item => item) = items :=
    fun items => List.ext_getElem (by simp) (by simp)
  have hmap := asList_mapIdx (g := fun _ item => item) (f := fun _ a => a) (fun _ => hread) l
  rwa [hsame, hsame] at hmap

/-! ## Fields -/

/-- The value of a field, if the object has it; a field that occurs twice is refused. -/
def field (key : List Char) (fields : List (List Char × Json)) : Option (Option Json) :=
  match fields.filter (·.1 == key) with
  | [] => some none
  | [entry] => some (some entry.2)
  | _ => none

/-- A field that must be there. -/
def required (read : Json → Option α) (key : List Char) (fields : List (List Char × Json)) :
    Option α := do
  let found ← field key fields
  let value ← found
  read value

/-- A field with a default for its absence. -/
def orDefault (read : Json → Option α) (default : α) (key : List Char)
    (fields : List (List Char × Json)) : Option α := do
  let found ← field key fields
  match found with
  | none => some default
  | some value => read value

/-- The last item of a sequence, with a default for its absence. -/
def lastOrDefault (read : Json → Option α) (default : α) : List Json → Option α
  | [] => some default
  | [value] => read value
  | _ => none

theorem required_eq {read : Json → Option α} {key : List Char}
    {fields : List (List Char × Json)} {value : Json}
    (hfield : field key fields = some (some value)) : required read key fields = read value := by
  rw [required, hfield]
  rfl

theorem orDefault_some {read : Json → Option α} {default : α} {key : List Char}
    {fields : List (List Char × Json)} {value : Json}
    (hfield : field key fields = some (some value)) :
    orDefault read default key fields = read value := by
  rw [orDefault, hfield]
  rfl

theorem orDefault_none {read : Json → Option α} {default : α} {key : List Char}
    {fields : List (List Char × Json)} (hfield : field key fields = some none) :
    orDefault read default key fields = some default := by
  rw [orDefault, hfield]
  rfl

/-! ## Removing fields -/

/-- The value without a field. -/
def without (key : List Char) : Json → Json
  | .obj fields => .obj (fields.filter (·.1 != key))
  | value => value

/-- The value with one of its fields changed. -/
def atField (key : List Char) (f : Json → Json) : Json → Json
  | .obj fields => .obj (fields.map fun entry =>
      if entry.1 = key then (entry.1, f entry.2) else entry)
  | value => value

/-- The value with its items changed by position. -/
def atItems (f : ℕ → Json → Json) : Json → Json
  | .arr items => .arr (items.mapIdx f)
  | value => value

end Foundation.Json
