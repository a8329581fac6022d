import Wintermute.Foundation.Json

/-!
# Layouts of JSON texts

The texts of one value differ in their white space.  A spelling of a value is a text of
it with any white space between its symbols; the reader reads every spelling.  The
indented text of a value has one item or field a line, two spaces a level, and a space
behind each colon.

Main results:

- Theorem {lit}`parse_of_spells`: reading a spelling of a value gives the value.
- Theorem {lit}`parse_pretty`: reading the indented text of a value gives the value back.
-/

namespace Foundation.Json

/-! ## Spellings -/

/-- White space only. -/
def Blank (s : List Char) : Prop :=
  ∀ c ∈ s, isBlank c = true

mutual

/-- The text spells the value, with no white space around it. -/
inductive Spells : Json → List Char → Prop
  | null : Spells .null "null".toList
  | yes : Spells (.bool true) "true".toList
  | no : Spells (.bool false) "false".toList
  | num (n : NumberLit) : Spells (.num n) n.text
  | str (s : List Char) : Spells (.str s) (printString s)
  | emptyArr {gap : List Char} : Blank gap → Spells (.arr []) ('[' :: (gap ++ [']']))
  | arr {gap text rest : List Char} {item : Json} {items : List Json} :
      Blank gap → Spells item text → SpellsItems items rest →
      Spells (.arr (item :: items)) ('[' :: (gap ++ (text ++ rest)))
  | emptyObj {gap : List Char} : Blank gap → Spells (.obj []) ('{' :: (gap ++ ['}']))
  | obj {gap text rest : List Char} {key : List Char} {value : Json}
      {fields : List (List Char × Json)} :
      Blank gap → SpellsField key value text → SpellsFields fields rest →
      Spells (.obj ((key, value) :: fields)) ('{' :: (gap ++ (text ++ rest)))

/-- The text spells the items behind the first, and the closing bracket. -/
inductive SpellsItems : List Json → List Char → Prop
  | close {gap : List Char} : Blank gap → SpellsItems [] (gap ++ [']'])
  | more {before gap text rest : List Char} {item : Json} {items : List Json} :
      Blank before → Blank gap → Spells item text → SpellsItems items rest →
      SpellsItems (item :: items) (before ++ ',' :: (gap ++ (text ++ rest)))

/-- The text spells a key, a colon and a value. -/
inductive SpellsField : List Char → Json → List Char → Prop
  | mk {before gap text : List Char} {key : List Char} {value : Json} :
      Blank before → Blank gap → Spells value text →
      SpellsField key value (printString key ++ (before ++ ':' :: (gap ++ text)))

/-- The text spells the fields behind the first, and the closing brace. -/
inductive SpellsFields : List (List Char × Json) → List Char → Prop
  | close {gap : List Char} : Blank gap → SpellsFields [] (gap ++ ['}'])
  | more {before gap text rest : List Char} {key : List Char} {value : Json}
      {fields : List (List Char × Json)} :
      Blank before → Blank gap → SpellsField key value text → SpellsFields fields rest →
      SpellsFields ((key, value) :: fields) (before ++ ',' :: (gap ++ (text ++ rest)))

end

/-! ## White space -/

theorem blank_nil : Blank [] := by
  simp [Blank]

theorem skipBlank_append {gap : List Char} (hgap : Blank gap) (s : List Char) :
    skipBlank (gap ++ s) = skipBlank s := by
  rw [skipBlank, List.dropWhile_append_of_pos hgap]
  rfl

/-- White space in front of a value is skipped. -/
theorem parseValue_blank {gap : List Char} (hgap : Blank gap) (fuel : ℕ) (s : List Char) :
    parseValue fuel (gap ++ s) = parseValue fuel s := by
  cases fuel with
  | zero => simp only [parseValue]
  | succ fuel => rw [parseValue, parseValue, skipBlank_append hgap]

/-- White space in front of a key is skipped. -/
theorem parseKey_blank {gap : List Char} (hgap : Blank gap) (s : List Char) :
    parseKey (gap ++ s) = parseKey s := by
  rw [parseKey, parseKey, skipBlank_append hgap]

/-- White space in front of an item is skipped. -/
theorem parseItems_blank {gap : List Char} (hgap : Blank gap) (fuel : ℕ) (s : List Char) :
    parseItems fuel (gap ++ s) = parseItems fuel s := by
  cases fuel with
  | zero => simp only [parseItems]
  | succ fuel => rw [parseItems, parseItems, parseValue_blank hgap]

/-- White space in front of a field is skipped. -/
theorem parseFields_blank {gap : List Char} (hgap : Blank gap) (fuel : ℕ) (s : List Char) :
    parseFields fuel (gap ++ s) = parseFields fuel s := by
  cases fuel with
  | zero => simp only [parseFields]
  | succ fuel => rw [parseFields, parseFields, parseKey_blank hgap]

theorem Blank.not_number {gap : List Char} (hgap : Blank gap) :
    ∀ c ∈ gap, isNumberChar c = false := by
  intro c hc
  by_contra hnumber
  have hblank := hgap c hc
  rw [Bool.not_eq_false] at hnumber
  rw [(numberChar_other hnumber).1] at hblank
  cases hblank

/-- A number literal stops at white space and at what closes or goes on behind it. -/
theorem stops_gap {gap : List Char} (hgap : Blank gap) {c : Char} (hc : isNumberChar c = false)
    (rest : List Char) : Stops (gap ++ c :: rest) := by
  intro d hd
  cases gap with
  | nil =>
      cases hd
      exact hc
  | cons b gap =>
      cases hd
      exact hgap.not_number _ List.mem_cons_self

/-! ## What a spelling starts with and what follows it -/

/-- A spelling starts with a symbol that is neither blank nor a bracket that closes. -/
theorem Spells.exists_cons {value : Json} {text : List Char} (htext : Spells value text) :
    ∃ c t, text = c :: t ∧ isBlank c = false ∧ c ≠ ']' := by
  cases htext with
  | null => exact ⟨_, _, rfl, by decide⟩
  | yes => exact ⟨_, _, rfl, by decide⟩
  | no => exact ⟨_, _, rfl, by decide⟩
  | num n =>
      obtain ⟨c, t, hn, hc⟩ := exists_number_cons n
      obtain ⟨hblank, hclose, -⟩ := numberChar_other hc
      exact ⟨c, t, hn, hblank, hclose⟩
  | str s => exact ⟨_, _, rfl, by decide⟩
  | emptyArr hgap => exact ⟨_, _, rfl, by decide⟩
  | arr hgap hitem hitems => exact ⟨_, _, rfl, by decide⟩
  | emptyObj hgap => exact ⟨_, _, rfl, by decide⟩
  | obj hgap hfield hfields => exact ⟨_, _, rfl, by decide⟩

theorem SpellsFields.exists_concat {fields : List (List Char × Json)} {text : List Char}
    (htext : SpellsFields fields text) : ∃ front, text = front ++ ['}'] := by
  cases htext with
  | @close gap _ => exact ⟨gap, rfl⟩
  | @more before gap text rest _ _ _ _ _ _ hfields =>
      obtain ⟨front, rfl⟩ := hfields.exists_concat
      exact ⟨before ++ ',' :: (gap ++ (text ++ front)), by simp⟩

/-- A spelling of an object starts with a brace and ends with one. -/
theorem Spells.exists_braces {fields : List (List Char × Json)} {text : List Char}
    (htext : Spells (.obj fields) text) : ∃ inner, text = '{' :: (inner ++ ['}']) := by
  cases htext with
  | @emptyObj gap _ => exact ⟨gap, rfl⟩
  | @obj gap text _ _ _ _ _ _ hfields =>
      obtain ⟨front, rfl⟩ := hfields.exists_concat
      exact ⟨gap ++ (text ++ front), by simp⟩

theorem Spells.length_pos {value : Json} {text : List Char} (htext : Spells value text) :
    0 < text.length := by
  obtain ⟨c, t, rfl, -⟩ := htext.exists_cons
  rw [List.length_cons]
  omega

theorem SpellsItems.stops {items : List Json} {text : List Char} (htext : SpellsItems items text)
    (rest : List Char) : Stops (text ++ rest) := by
  cases htext with
  | close hgap =>
      rw [List.append_assoc]
      exact stops_gap hgap (by decide) rest
  | more hbefore hgap hitem hitems =>
      rw [List.append_assoc, List.cons_append]
      exact stops_gap hbefore (by decide) _

theorem SpellsFields.stops {fields : List (List Char × Json)} {text : List Char}
    (htext : SpellsFields fields text) (rest : List Char) : Stops (text ++ rest) := by
  cases htext with
  | close hgap =>
      rw [List.append_assoc]
      exact stops_gap hgap (by decide) rest
  | more hbefore hgap hfield hfields =>
      rw [List.append_assoc, List.cons_append]
      exact stops_gap hbefore (by decide) _

/-! ## Reading spellings -/

/-- A bracket, white space and a spelling open an array of items. -/
theorem parseValue_openItems (fuel : ℕ) {gap text : List Char} {item : Json} (hgap : Blank gap)
    (htext : Spells item text) (rest : List Char) :
    parseValue (fuel + 1) ('[' :: (gap ++ (text ++ rest))) =
      (parseItems fuel (text ++ rest)).map fun p => (.arr p.1, p.2) := by
  obtain ⟨c, t, rfl, hblank, hclose⟩ := htext.exists_cons
  rw [parseValue_cons fuel (by decide), if_neg (by decide), if_pos rfl, skipBlank_append hgap,
    List.cons_append, skipBlank_cons hblank]
  split
  · rename_i heq
    cases heq
    exact absurd rfl hclose
  · rfl

/-- A brace, white space and a key open an object of fields. -/
theorem parseValue_openFields (fuel : ℕ) {gap : List Char} (hgap : Blank gap)
    (key rest : List Char) :
    parseValue (fuel + 1) ('{' :: (gap ++ (printString key ++ rest))) =
      (parseFields fuel (printString key ++ rest)).map fun p => (.obj p.1, p.2) := by
  rw [parseValue_cons fuel (by decide), if_neg (by decide), if_neg (by decide), if_pos rfl,
    skipBlank_append hgap, printString, List.cons_append, skipBlank_cons (by decide)]
  rfl

/-- A key is read up to its colon, over the white space in front of it. -/
theorem parseKey_spelled {before : List Char} (hbefore : Blank before) (key rest : List Char) :
    parseKey (printString key ++ (before ++ ':' :: rest)) = some (key, rest) := by
  rw [parseKey, printString, List.cons_append, skipBlank_cons (by decide), List.append_assoc,
    List.singleton_append]
  simp only [parseString_flatMap, skipBlank_append hbefore, skipBlank_cons (c := ':') (by decide)]

/-- With this fuel every spelling that is not longer is read. -/
structure ReadsSpelled (fuel : ℕ) : Prop where
  value : ∀ value text rest, Spells value text → text.length ≤ fuel → Stops rest →
    parseValue fuel (text ++ rest) = some (value, rest)
  items : ∀ item text items more rest, Spells item text → SpellsItems items more →
    text.length + more.length ≤ fuel →
    parseItems fuel (text ++ (more ++ rest)) = some (item :: items, rest)
  fields : ∀ key value text fields more rest, SpellsField key value text →
    SpellsFields fields more → text.length + more.length ≤ fuel →
    parseFields fuel (text ++ (more ++ rest)) = some ((key, value) :: fields, rest)

/-- One more unit of fuel reads one more level of nesting. -/
theorem ReadsSpelled.succ_value {fuel : ℕ} (hfuel : ReadsSpelled fuel) {value : Json}
    {text rest : List Char} (htext : Spells value text) (hlen : text.length ≤ fuel + 1)
    (hrest : Stops rest) : parseValue (fuel + 1) (text ++ rest) = some (value, rest) := by
  cases htext with
  | null => exact (parseValue_word fuel rest).1
  | yes => exact (parseValue_word fuel rest).2.1
  | no => exact (parseValue_word fuel rest).2.2
  | num n => exact parseValue_number fuel n hrest
  | str s => exact parseValue_string fuel s rest
  | emptyArr hgap =>
      rw [List.cons_append, List.append_assoc, parseValue_cons fuel (by decide),
        skipBlank_append hgap]
      rfl
  | arr hgap hitem hitems =>
      rw [List.length_cons, List.length_append, List.length_append] at hlen
      rw [List.cons_append, List.append_assoc, List.append_assoc,
        parseValue_openItems fuel hgap hitem,
        hfuel.items _ _ _ _ rest hitem hitems (by omega), Option.map_some]
  | emptyObj hgap =>
      rw [List.cons_append, List.append_assoc, parseValue_cons fuel (by decide),
        skipBlank_append hgap]
      rfl
  | obj hgap hfield hfields =>
      rw [List.length_cons, List.length_append, List.length_append] at hlen
      have hread := hfuel.fields _ _ _ _ _ rest hfield hfields (by omega)
      cases hfield with
      | mk hbefore hgap' hvalue =>
          rw [List.append_assoc] at hread
          rw [List.cons_append, List.append_assoc, List.append_assoc, List.append_assoc,
            parseValue_openFields fuel hgap, hread, Option.map_some]

/-- One more unit of fuel reads one more item. -/
theorem ReadsSpelled.succ_items {fuel : ℕ} (hfuel : ReadsSpelled fuel) {item : Json}
    {text more : List Char} {items : List Json} (rest : List Char) (htext : Spells item text)
    (hmore : SpellsItems items more) (hlen : text.length + more.length ≤ fuel + 1) :
    parseItems (fuel + 1) (text ++ (more ++ rest)) = some (item :: items, rest) := by
  have hpos : 0 < more.length := by cases hmore <;> simp
  have hitem := hfuel.value item text (more ++ rest) htext (by omega) (hmore.stops rest)
  rw [parseItems, hitem]
  cases hmore with
  | close hgap => simp [skipBlank_append hgap, skipBlank_cons (c := ']') (by decide)]
  | @more before gap next tail second items hbefore hgap hsecond htail =>
      have htextPos := htext.length_pos
      simp only [List.length_append, List.length_cons] at hlen
      have hnext := hfuel.items second next items tail rest hsecond htail (by omega)
      simp only [List.append_assoc, List.cons_append, skipBlank_append hbefore,
        skipBlank_cons (c := ',') (by decide), parseItems_blank hgap, hnext, Option.map_some]

/-- One more unit of fuel reads one more field. -/
theorem ReadsSpelled.succ_fields {fuel : ℕ} (hfuel : ReadsSpelled fuel) {key : List Char}
    {value : Json} {text more : List Char} {fields : List (List Char × Json)} (rest : List Char)
    (htext : SpellsField key value text) (hmore : SpellsFields fields more)
    (hlen : text.length + more.length ≤ fuel + 1) :
    parseFields (fuel + 1) (text ++ (more ++ rest)) = some ((key, value) :: fields, rest) := by
  have hpos : 0 < more.length := by cases hmore <;> simp
  cases htext with
  | @mk before gap text _ _ hbefore hgap htext =>
      simp only [List.length_append, List.length_cons] at hlen
      have hvalue := hfuel.value value text (more ++ rest) htext (by omega) (hmore.stops rest)
      rw [List.append_assoc, List.append_assoc, List.cons_append, List.append_assoc, parseFields,
        parseKey_spelled hbefore]
      simp only [parseValue_blank hgap, hvalue]
      cases hmore with
      | close hgap => simp [skipBlank_append hgap, skipBlank_cons (c := '}') (by decide)]
      | more hbefore hgap hsecond htail =>
          simp only [List.length_append, List.length_cons] at hlen
          have hnext := hfuel.fields _ _ _ _ _ rest hsecond htail (by omega)
          simp only [List.append_assoc, List.cons_append, skipBlank_append hbefore,
            skipBlank_cons (c := ',') (by decide), parseFields_blank hgap, hnext, Option.map_some]

/-- Fuel as long as the text is enough. -/
theorem readsSpelled (fuel : ℕ) : ReadsSpelled fuel := by
  induction fuel with
  | zero =>
      refine ⟨fun value text rest htext hlen _ => ?_,
        fun item text items more rest htext _ hlen => ?_,
        fun key value text fields more rest htext _ hlen => ?_⟩
      · have hpos := htext.length_pos
        omega
      · have hpos := htext.length_pos
        omega
      · cases htext with
        | mk _ _ hvalue =>
            simp only [List.length_append, List.length_cons] at hlen
            omega
  | succ fuel ih =>
      exact ⟨fun value text rest htext hlen => ih.succ_value htext hlen,
        fun item text items more rest htext hmore hlen => ih.succ_items rest htext hmore hlen,
        fun key value text fields more rest htext hmore hlen =>
          ih.succ_fields rest htext hmore hlen⟩

/-- Reading a spelling of a value, with white space around it, gives the value. -/
theorem parse_of_spells {value : Json} {before text after : List Char} (hbefore : Blank before)
    (htext : Spells value text) (hafter : Blank after) :
    parse (before ++ (text ++ after)) = some value := by
  have hstops : Stops after := fun c hc => hafter.not_number c (List.mem_of_mem_head? hc)
  have hread := (readsSpelled ((before ++ (text ++ after)).length + 1)).value value text after
    htext (by simp only [List.length_append]; omega) hstops
  have hdone : skipBlank after = [] := List.dropWhile_eq_nil_iff.mpr hafter
  rw [parse, parseValue_blank hbefore, hread]
  simp only [hdone, List.isEmpty_nil, if_true]

/-! ## The indented text -/

/-- A new line at a level of indentation. -/
def newline (depth : ℕ) : List Char :=
  '\n' :: List.replicate (2 * depth) ' '

mutual

/-- The indented text of a value at a level of indentation. -/
def prettyAt (depth : ℕ) : Json → List Char
  | .null => "null".toList
  | .bool true => "true".toList
  | .bool false => "false".toList
  | .num n => n.text
  | .str s => printString s
  | .arr [] => ['[', ']']
  | .arr (item :: items) =>
      '[' :: (newline (depth + 1) ++ (prettyAt (depth + 1) item ++ prettyItems depth items))
  | .obj [] => ['{', '}']
  | .obj ((key, value) :: fields) =>
      '{' :: (newline (depth + 1) ++
        ((printString key ++ ':' :: ' ' :: prettyAt (depth + 1) value) ++
          prettyFields depth fields))

/-- The items behind the first, each on a line, and the closing bracket on its own. -/
def prettyItems (depth : ℕ) : List Json → List Char
  | [] => newline depth ++ [']']
  | item :: items =>
      ',' :: (newline (depth + 1) ++ (prettyAt (depth + 1) item ++ prettyItems depth items))

/-- The fields behind the first, each on a line, and the closing brace on its own. -/
def prettyFields (depth : ℕ) : List (List Char × Json) → List Char
  | [] => newline depth ++ ['}']
  | (key, value) :: fields =>
      ',' :: (newline (depth + 1) ++
        ((printString key ++ ':' :: ' ' :: prettyAt (depth + 1) value) ++
          prettyFields depth fields))

end

/-- The indented text of a value. -/
def pretty (value : Json) : List Char :=
  prettyAt 0 value

theorem blank_newline (depth : ℕ) : Blank (newline depth) := by
  intro c hc
  rcases List.mem_cons.mp hc with rfl | hspace
  · rfl
  · rw [List.eq_of_mem_replicate hspace]
    rfl

theorem spellsField_pretty {value : Json} {text : List Char} (htext : Spells value text)
    (key : List Char) :
    SpellsField key value (printString key ++ ':' :: ' ' :: text) := by
  have hspace : Blank [' '] := by simp [Blank, isBlank]
  exact SpellsField.mk blank_nil hspace htext

mutual

/-- The indented text of a value is a spelling of it. -/
theorem spells_prettyAt (depth : ℕ) : ∀ value : Json, Spells value (prettyAt depth value)
  | .null => by rw [prettyAt]; exact .null
  | .bool true => by rw [prettyAt]; exact .yes
  | .bool false => by rw [prettyAt]; exact .no
  | .num n => by rw [prettyAt]; exact .num n
  | .str s => by rw [prettyAt]; exact .str s
  | .arr [] => by rw [prettyAt]; exact .emptyArr blank_nil
  | .arr (item :: items) => by
      rw [prettyAt]
      exact .arr (blank_newline _) (spells_prettyAt (depth + 1) item)
        (spellsItems_pretty depth items)
  | .obj [] => by rw [prettyAt]; exact .emptyObj blank_nil
  | .obj ((key, value) :: fields) => by
      rw [prettyAt]
      exact .obj (blank_newline _) (spellsField_pretty (spells_prettyAt (depth + 1) value) key)
        (spellsFields_pretty depth fields)

theorem spellsItems_pretty (depth : ℕ) :
    ∀ items : List Json, SpellsItems items (prettyItems depth items)
  | [] => by rw [prettyItems]; exact .close (blank_newline depth)
  | item :: items => by
      rw [prettyItems]
      exact .more blank_nil (blank_newline _) (spells_prettyAt (depth + 1) item)
        (spellsItems_pretty depth items)

theorem spellsFields_pretty (depth : ℕ) :
    ∀ fields : List (List Char × Json), SpellsFields fields (prettyFields depth fields)
  | [] => by rw [prettyFields]; exact .close (blank_newline depth)
  | (key, value) :: fields => by
      rw [prettyFields]
      exact .more blank_nil (blank_newline _)
        (spellsField_pretty (spells_prettyAt (depth + 1) value) key)
        (spellsFields_pretty depth fields)

end

/-- Reading the indented text of a value, with white space behind it, gives the value back. -/
theorem parse_pretty (value : Json) {after : List Char} (hafter : Blank after) :
    parse (pretty value ++ after) = some value :=
  parse_of_spells blank_nil (spells_prettyAt 0 value) hafter

end Foundation.Json
