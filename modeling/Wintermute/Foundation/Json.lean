import Wintermute.Foundation.Words

/-!
# JSON texts

JSON values, the compact text a serializer writes for them, and a reader for JSON
texts with white space, every escape and every number literal.  A number keeps its
literal; what it means is left to the reader of the value.

Main results:

- Theorem {lit}`parse_print`: reading the text of a value gives the value back.
- Theorem {lit}`print_noControl`: the text of a value has no control character, so no
  line feed.
-/

namespace Foundation

/-! ## Number literals -/

/-- Symbols that occur in number literals. -/
def isNumberChar (c : Char) : Bool :=
  c.isDigit || c == '-' || c == '+' || c == '.' || c == 'e' || c == 'E'

/-- An exponent, or nothing. -/
def isExponent : List Char → Bool
  | [] => true
  | c :: rest =>
      (c == 'e' || c == 'E') &&
        let digits := match rest with
          | '+' :: digits => digits
          | '-' :: digits => digits
          | digits => digits
        !digits.isEmpty && digits.all Char.isDigit

/-- A fraction and an exponent, each possibly absent. -/
def isFraction : List Char → Bool
  | '.' :: rest =>
      !(rest.takeWhile Char.isDigit).isEmpty && isExponent (rest.dropWhile Char.isDigit)
  | rest => isExponent rest

/-- The grammar of number literals without sign: no leading zeros. -/
def isUnsigned : List Char → Bool
  | '0' :: rest => isFraction rest
  | c :: rest => c.isDigit && isFraction (rest.dropWhile Char.isDigit)
  | [] => false

/-- The grammar of number literals. -/
def isNumber : List Char → Bool
  | '-' :: rest => isUnsigned rest
  | rest => isUnsigned rest

/-- A number literal. -/
structure NumberLit where
  text : List Char
  chars : text.all isNumberChar = true
  grammar : isNumber text = true
deriving DecidableEq

/-! ## Values and their text -/

/-- JSON values.  The fields of an object keep their order and may repeat. -/
inductive Json where
  | null
  | bool (b : Bool)
  | num (n : NumberLit)
  | str (s : List Char)
  | arr (items : List Json)
  | obj (fields : List (List Char × Json))

namespace Json

/-- A lower-case hexadecimal digit. -/
def hexDigit (n : ℕ) : Char :=
  if n < 10 then Char.ofNat (48 + n) else Char.ofNat (87 + n)

/-- One character inside a string literal. -/
def escapeChar (c : Char) : List Char :=
  if c = '"' then ['\\', '"']
  else if c = '\\' then ['\\', '\\']
  else if c = '\n' then ['\\', 'n']
  else if c = '\r' then ['\\', 'r']
  else if c = '\t' then ['\\', 't']
  else if c.toNat = 8 then ['\\', 'b']
  else if c.toNat = 12 then ['\\', 'f']
  else if c.toNat < 32 then
    ['\\', 'u', '0', '0', hexDigit (c.toNat / 16), hexDigit (c.toNat % 16)]
  else [c]

/-- A string literal. -/
def printString (s : List Char) : List Char :=
  '"' :: (s.flatMap escapeChar ++ ['"'])

mutual

/-- The compact text of a value. -/
def print : Json → List Char
  | .null => "null".toList
  | .bool true => "true".toList
  | .bool false => "false".toList
  | .num n => n.text
  | .str s => printString s
  | .arr [] => ['[', ']']
  | .arr (item :: items) => '[' :: (print item ++ printItems items)
  | .obj [] => ['{', '}']
  | .obj ((key, value) :: fields) =>
      '{' :: (printString key ++ ':' :: (print value ++ printFields fields))

/-- The items behind the first, and the closing bracket. -/
def printItems : List Json → List Char
  | [] => [']']
  | item :: items => ',' :: (print item ++ printItems items)

/-- The fields behind the first, and the closing brace. -/
def printFields : List (List Char × Json) → List Char
  | [] => ['}']
  | (key, value) :: fields =>
      ',' :: (printString key ++ ':' :: (print value ++ printFields fields))

end

/-! ## The reader -/

def isBlank (c : Char) : Bool :=
  c == ' ' || c == '\t' || c == '\n' || c == '\r'

def skipBlank (s : List Char) : List Char :=
  s.dropWhile isBlank

/-- The value of a hexadecimal digit. -/
def hexValue (c : Char) : Option ℕ :=
  if c.isDigit then some (c.toNat - 48)
  else if 97 ≤ c.toNat ∧ c.toNat ≤ 102 then some (c.toNat - 87)
  else if 65 ≤ c.toNat ∧ c.toNat ≤ 70 then some (c.toNat - 55)
  else none

/-- The code unit in four hexadecimal digits. -/
def codeUnit (a b c d : Char) : Option ℕ := do
  let a ← hexValue a
  let b ← hexValue b
  let c ← hexValue c
  let d ← hexValue d
  some (((a * 16 + b) * 16 + c) * 16 + d)

/-- The character that a one-letter escape stands for. -/
def unescape (c : Char) : Option Char :=
  if c = '"' then some '"'
  else if c = '\\' then some '\\'
  else if c = '/' then some '/'
  else if c = 'b' then some (Char.ofNat 8)
  else if c = 'f' then some (Char.ofNat 12)
  else if c = 'n' then some '\n'
  else if c = 'r' then some '\r'
  else if c = 't' then some '\t'
  else none

/-- Read a string literal behind its opening quote. -/
def parseString : List Char → Option (List Char × List Char)
  | [] => none
  | c :: rest =>
      if c = '"' then some ([], rest)
      else if c = '\\' then
        match rest with
        | 'u' :: a :: b :: c :: d :: rest =>
            match codeUnit a b c d with
            | none => none
            | some high =>
                if high < 0xD800 ∨ 0xDFFF < high then
                  (parseString rest).map fun p => (Char.ofNat high :: p.1, p.2)
                else
                  match rest with
                  | '\\' :: 'u' :: a :: b :: c :: d :: rest =>
                      match codeUnit a b c d with
                      | none => none
                      | some low =>
                          if high ≤ 0xDBFF ∧ 0xDC00 ≤ low ∧ low ≤ 0xDFFF then
                            (parseString rest).map fun p =>
                              (Char.ofNat
                                (0x10000 + (high - 0xD800) * 0x400 + (low - 0xDC00)) :: p.1, p.2)
                          else none
                  | _ => none
        | c :: rest =>
            match unescape c with
            | none => none
            | some c => (parseString rest).map fun p => (c :: p.1, p.2)
        | [] => none
      else if c.toNat < 32 then none
      else (parseString rest).map fun p => (c :: p.1, p.2)

/-- Read a number literal. -/
def parseNumber (s : List Char) : Option (Json × List Char) :=
  if h : (s.takeWhile isNumberChar).all isNumberChar = true ∧
      isNumber (s.takeWhile isNumberChar) = true then
    some (.num ⟨s.takeWhile isNumberChar, h.1, h.2⟩, s.dropWhile isNumberChar)
  else
    none

/-- Read a key and the colon behind it. -/
def parseKey (s : List Char) : Option (List Char × List Char) :=
  match skipBlank s with
  | '"' :: rest =>
      match parseString rest with
      | some (key, rest) =>
          match skipBlank rest with
          | ':' :: rest => some (key, rest)
          | _ => none
      | none => none
  | _ => none

mutual

/-- Read a value; the fuel bounds the nesting and the number of items. -/
def parseValue : ℕ → List Char → Option (Json × List Char)
  | 0, _ => none
  | fuel + 1, s =>
      match skipBlank s with
      | [] => none
      | c :: rest =>
          if c = '"' then (parseString rest).map fun p => (.str p.1, p.2)
          else if c = '[' then
            match skipBlank rest with
            | ']' :: rest => some (.arr [], rest)
            | rest => (parseItems fuel rest).map fun p => (.arr p.1, p.2)
          else if c = '{' then
            match skipBlank rest with
            | '}' :: rest => some (.obj [], rest)
            | rest => (parseFields fuel rest).map fun p => (.obj p.1, p.2)
          else if c = 'n' then (stripPrefix "ull".toList rest).map (Json.null, ·)
          else if c = 't' then (stripPrefix "rue".toList rest).map (Json.bool true, ·)
          else if c = 'f' then (stripPrefix "alse".toList rest).map (Json.bool false, ·)
          else parseNumber (c :: rest)

/-- Read items up to the closing bracket. -/
def parseItems : ℕ → List Char → Option (List Json × List Char)
  | 0, _ => none
  | fuel + 1, s =>
      match parseValue fuel s with
      | none => none
      | some (item, rest) =>
          match skipBlank rest with
          | ',' :: rest => (parseItems fuel rest).map fun p => (item :: p.1, p.2)
          | ']' :: rest => some ([item], rest)
          | _ => none

/-- Read fields up to the closing brace. -/
def parseFields : ℕ → List Char → Option (List (List Char × Json) × List Char)
  | 0, _ => none
  | fuel + 1, s =>
      match parseKey s with
      | none => none
      | some (key, rest) =>
          match parseValue fuel rest with
          | none => none
          | some (value, rest) =>
              match skipBlank rest with
              | ',' :: rest => (parseFields fuel rest).map fun p => ((key, value) :: p.1, p.2)
              | '}' :: rest => some ([(key, value)], rest)
              | _ => none

end

/-- Read a whole text: one value and white space. -/
def parse (s : List Char) : Option Json :=
  match parseValue (s.length + 1) s with
  | some (value, rest) => if (skipBlank rest).isEmpty then some value else none
  | none => none

/-! ## String literals -/

theorem hexValue_hexDigit : ∀ n < 16, hexValue (hexDigit n) = some n := by
  decide

/-- The four digits of an escaped control character. -/
theorem codeUnit_control {c : Char} (hc : c.toNat < 32) :
    codeUnit '0' '0' (hexDigit (c.toNat / 16)) (hexDigit (c.toNat % 16)) = some c.toNat := by
  have hhigh := hexValue_hexDigit (c.toNat / 16) (by omega)
  have hlow := hexValue_hexDigit (c.toNat % 16) (by omega)
  have hzero : hexValue '0' = some 0 := by decide
  simp only [codeUnit, hzero, hhigh, hlow, Option.bind_eq_bind, Option.bind_some]
  rw [Option.some.injEq]
  omega

/-- Reading an escaped character gives the character. -/
theorem parseString_escapeChar (c : Char) (rest : List Char) :
    parseString (escapeChar c ++ rest) = (parseString rest).map fun p => (c :: p.1, p.2) := by
  rw [escapeChar]
  split_ifs with h1 h2 h3 h4 h5 h6 h7 h8
  · rw [h1]
    rfl
  · rw [h2]
    rfl
  · rw [h3]
    rfl
  · rw [h4]
    rfl
  · rw [h5]
    rfl
  · have hc : c = Char.ofNat 8 := by rw [← h6, Char.ofNat_toNat]
    rw [hc]
    rfl
  · have hc : c = Char.ofNat 12 := by rw [← h7, Char.ofNat_toNat]
    rw [hc]
    rfl
  · have hlow : c.toNat < 0xD800 ∨ 0xDFFF < c.toNat := Or.inl (by omega)
    simp only [List.cons_append, List.nil_append]
    rw [parseString]
    simp [codeUnit_control h8, hlow]
  · rw [List.singleton_append, parseString.eq_def]
    simp only [h1, h2, h8, if_false]

/-- Reading a string literal gives the string. -/
theorem parseString_flatMap (s rest : List Char) :
    parseString (s.flatMap escapeChar ++ '"' :: rest) = some (s, rest) := by
  induction s with
  | nil =>
      rw [List.flatMap_nil, List.nil_append, parseString.eq_def]
      rfl
  | cons c s ih =>
      rw [List.flatMap_cons, List.append_assoc, parseString_escapeChar, ih, Option.map_some]

/-! ## Heads of printed texts -/

/-- No number literal goes on in the rest. -/
def Stops (rest : List Char) : Prop :=
  ∀ c ∈ rest.head?, isNumberChar c = false

/-- A number literal is not empty. -/
theorem exists_number_cons (n : NumberLit) :
    ∃ c t, n.text = c :: t ∧ isNumberChar c = true := by
  have hgrammar := n.grammar
  have hchars := n.chars
  cases htext : n.text with
  | nil =>
      rw [htext] at hgrammar
      cases hgrammar
  | cons c t =>
      rw [htext, List.all_cons, Bool.and_eq_true] at hchars
      exact ⟨c, t, rfl, hchars.1⟩

/-- Symbols of number literals are neither blank nor the start of another value. -/
theorem numberChar_other {c : Char} (hc : isNumberChar c = true) :
    isBlank c = false ∧ c ≠ ']' ∧ c ≠ '"' ∧ c ≠ '[' ∧ c ≠ '{' ∧ c ≠ 'n' ∧ c ≠ 't' ∧ c ≠ 'f' := by
  have hblank : isBlank c = false := by
    by_contra h
    rw [Bool.not_eq_false, isBlank] at h
    simp only [Bool.or_eq_true, beq_iff_eq] at h
    rcases h with ((rfl | rfl) | rfl) | rfl <;> cases hc
  refine ⟨hblank, ?_, ?_, ?_, ?_, ?_, ?_, ?_⟩ <;> rintro rfl <;> cases hc

/-- The text of a value starts with a symbol that is neither blank nor a bracket that
closes. -/
theorem exists_print_cons (value : Json) :
    ∃ c t, value.print = c :: t ∧ isBlank c = false ∧ c ≠ ']' := by
  cases value with
  | null => exact ⟨_, _, rfl, by decide⟩
  | bool b => cases b <;> exact ⟨_, _, rfl, by decide⟩
  | num n =>
      obtain ⟨c, t, htext, hc⟩ := exists_number_cons n
      obtain ⟨hblank, hclose, -⟩ := numberChar_other hc
      exact ⟨c, t, by rw [print, htext], hblank, hclose⟩
  | str s => exact ⟨_, _, by rw [print, printString], by decide⟩
  | arr items => cases items <;> exact ⟨_, _, by rw [print], by decide⟩
  | obj fields =>
      rcases fields with _ | ⟨⟨key, value⟩, fields⟩ <;> exact ⟨_, _, by rw [print], by decide⟩

/-- Nothing is skipped in front of a symbol that is not blank. -/
theorem skipBlank_cons {c : Char} (hc : isBlank c = false) (rest : List Char) :
    skipBlank (c :: rest) = c :: rest :=
  List.dropWhile_cons_of_neg (by rw [hc]; exact Bool.false_ne_true)

theorem stops_printItems (items : List Json) (rest : List Char) :
    Stops (printItems items ++ rest) := by
  cases items <;> rw [printItems] <;> intro c hc <;> cases hc <;> rfl

theorem stops_printFields (fields : List (List Char × Json)) (rest : List Char) :
    Stops (printFields fields ++ rest) := by
  rcases fields with _ | ⟨⟨key, value⟩, fields⟩ <;> rw [printFields] <;> intro c hc <;> cases hc <;>
    rfl

/-! ## Reading what was printed -/

/-- A number literal is read up to the first symbol that cannot go on with it. -/
theorem parseNumber_text (n : NumberLit) {rest : List Char} (hrest : Stops rest) :
    parseNumber (n.text ++ rest) = some (.num n, rest) := by
  have hall : ∀ c ∈ n.text, isNumberChar c = true := List.all_eq_true.mp n.chars
  have htake : (n.text ++ rest).takeWhile isNumberChar = n.text := by
    rw [List.takeWhile_append_of_pos hall]
    cases rest with
    | nil => simp
    | cons c t => simp [hrest c rfl]
  have hdrop : (n.text ++ rest).dropWhile isNumberChar = rest := by
    rw [List.dropWhile_append_of_pos hall]
    cases rest with
    | nil => rfl
    | cons c t => simp [hrest c rfl]
  rw [parseNumber, dif_pos ⟨htake.symm ▸ n.chars, htake.symm ▸ n.grammar⟩]
  simp [htake, hdrop]

/-- A printed key is read with its colon. -/
theorem parseKey_printString (key rest : List Char) :
    parseKey (printString key ++ ':' :: rest) = some (key, rest) := by
  have hcolon : skipBlank (':' :: rest) = ':' :: rest := skipBlank_cons (by decide) rest
  rw [parseKey, printString, List.cons_append, skipBlank_cons (by decide), List.append_assoc,
    List.singleton_append]
  simp only [parseString_flatMap, hcolon]

/-- The first symbol of a value selects what is read. -/
theorem parseValue_cons (fuel : ℕ) {c : Char} (hc : isBlank c = false) (rest : List Char) :
    parseValue (fuel + 1) (c :: rest) =
      if c = '"' then (parseString rest).map fun p => (.str p.1, p.2)
      else if c = '[' then
        match skipBlank rest with
        | ']' :: rest => some (.arr [], rest)
        | rest => (parseItems fuel rest).map fun p => (.arr p.1, p.2)
      else if c = '{' then
        match skipBlank rest with
        | '}' :: rest => some (.obj [], rest)
        | rest => (parseFields fuel rest).map fun p => (.obj p.1, p.2)
      else if c = 'n' then (stripPrefix "ull".toList rest).map (Json.null, ·)
      else if c = 't' then (stripPrefix "rue".toList rest).map (Json.bool true, ·)
      else if c = 'f' then (stripPrefix "alse".toList rest).map (Json.bool false, ·)
      else parseNumber (c :: rest) := by
  rw [parseValue, skipBlank_cons hc]

theorem parseValue_word (fuel : ℕ) (rest : List Char) :
    parseValue (fuel + 1) ("null".toList ++ rest) = some (.null, rest) ∧
    parseValue (fuel + 1) ("true".toList ++ rest) = some (.bool true, rest) ∧
    parseValue (fuel + 1) ("false".toList ++ rest) = some (.bool false, rest) := by
  refine ⟨?_, ?_, ?_⟩
  · change parseValue (fuel + 1) ('n' :: ("ull".toList ++ rest)) = _
    rw [parseValue_cons fuel (by decide), stripPrefix_append]
    rfl
  · change parseValue (fuel + 1) ('t' :: ("rue".toList ++ rest)) = _
    rw [parseValue_cons fuel (by decide), stripPrefix_append "rue".toList]
    rfl
  · change parseValue (fuel + 1) ('f' :: ("alse".toList ++ rest)) = _
    rw [parseValue_cons fuel (by decide), stripPrefix_append "alse".toList]
    rfl

theorem parseValue_number (fuel : ℕ) (n : NumberLit) {rest : List Char} (hrest : Stops rest) :
    parseValue (fuel + 1) (n.text ++ rest) = some (.num n, rest) := by
  obtain ⟨c, t, htext, hc⟩ := exists_number_cons n
  obtain ⟨hblank, -, h1, h2, h3, h4, h5, h6⟩ := numberChar_other hc
  rw [← parseNumber_text n hrest, htext, List.cons_append, parseValue_cons fuel hblank]
  simp only [h1, h2, h3, h4, h5, h6, if_false]

theorem parseValue_string (fuel : ℕ) (s rest : List Char) :
    parseValue (fuel + 1) (printString s ++ rest) = some (.str s, rest) := by
  rw [printString, List.cons_append, List.append_assoc, List.singleton_append,
    parseValue_cons fuel (by decide), if_pos rfl, parseString_flatMap]
  rfl

/-- A bracket that is not closed at once opens an array of items. -/
theorem parseValue_items (fuel : ℕ) (item : Json) (rest : List Char) :
    parseValue (fuel + 1) ('[' :: (print item ++ rest)) =
      (parseItems fuel (print item ++ rest)).map fun p => (.arr p.1, p.2) := by
  obtain ⟨c, t, hprint, hblank, hclose⟩ := exists_print_cons item
  rw [parseValue_cons fuel (by decide), if_neg (by decide), if_pos rfl, hprint, List.cons_append,
    skipBlank_cons hblank]
  split
  · rename_i heq
    cases heq
    exact absurd rfl hclose
  · rfl

/-- A brace in front of a key opens an object of fields. -/
theorem parseValue_fields (fuel : ℕ) (key rest : List Char) :
    parseValue (fuel + 1) ('{' :: (printString key ++ rest)) =
      (parseFields fuel (printString key ++ rest)).map fun p => (.obj p.1, p.2) := by
  rw [parseValue_cons fuel (by decide), if_neg (by decide), if_neg (by decide), if_pos rfl,
    printString, List.cons_append, skipBlank_cons (by decide)]
  rfl

theorem print_length_pos (value : Json) : 0 < (print value).length := by
  obtain ⟨c, t, hprint, -⟩ := exists_print_cons value
  rw [hprint, List.length_cons]
  exact Nat.succ_pos _

/-- With this fuel every text that is not longer is read as it was printed. -/
structure Reads (fuel : ℕ) : Prop where
  value : ∀ value rest, (print value).length ≤ fuel → Stops rest →
    parseValue fuel (print value ++ rest) = some (value, rest)
  items : ∀ item items rest, (print item ++ printItems items).length ≤ fuel →
    parseItems fuel (print item ++ printItems items ++ rest) = some (item :: items, rest)
  fields : ∀ key value fields rest,
    (printString key ++ ':' :: (print value ++ printFields fields)).length ≤ fuel →
    parseFields fuel (printString key ++ ':' :: (print value ++ printFields fields) ++ rest) =
      some ((key, value) :: fields, rest)

/-- One more unit of fuel reads one more level of nesting. -/
theorem Reads.succ_value {fuel : ℕ} (hfuel : Reads fuel) (value : Json) {rest : List Char}
    (hlen : (print value).length ≤ fuel + 1) (hrest : Stops rest) :
    parseValue (fuel + 1) (print value ++ rest) = some (value, rest) := by
  cases value with
  | null => exact (parseValue_word fuel rest).1
  | bool b =>
      cases b
      · exact (parseValue_word fuel rest).2.2
      · exact (parseValue_word fuel rest).2.1
  | num n => exact parseValue_number fuel n hrest
  | str s => exact parseValue_string fuel s rest
  | arr items =>
      cases items with
      | nil =>
          rw [print, List.cons_append, parseValue_cons fuel (by decide)]
          rfl
      | cons item items =>
          rw [print, List.length_cons, Nat.add_le_add_iff_right] at hlen
          rw [print, List.cons_append, List.append_assoc, parseValue_items, ← List.append_assoc,
            hfuel.items item items rest hlen, Option.map_some]
  | obj fields =>
      rcases fields with _ | ⟨⟨key, value⟩, fields⟩
      · rw [print, List.cons_append, parseValue_cons fuel (by decide)]
        rfl
      · rw [print, List.length_cons, Nat.add_le_add_iff_right] at hlen
        rw [print, List.cons_append, List.append_assoc, parseValue_fields, ← List.append_assoc,
            hfuel.fields key value fields rest hlen, Option.map_some]

/-- One more unit of fuel reads one more item. -/
theorem Reads.succ_items {fuel : ℕ} (hfuel : Reads fuel) (item : Json) (items : List Json)
    (rest : List Char) (hlen : (print item ++ printItems items).length ≤ fuel + 1) :
    parseItems (fuel + 1) (print item ++ printItems items ++ rest) =
      some (item :: items, rest) := by
  rw [List.length_append] at hlen
  have hitem : parseValue fuel (print item ++ (printItems items ++ rest)) =
      some (item, printItems items ++ rest) := by
    refine hfuel.value item _ ?_ (stops_printItems items rest)
    cases items <;> rw [printItems, List.length_cons] at hlen <;> omega
  rw [List.append_assoc, parseItems, hitem]
  cases items with
  | nil =>
      rw [printItems, List.singleton_append]
      simp [skipBlank_cons (c := ']') (by decide)]
  | cons next items =>
      have hpos := print_length_pos item
      rw [printItems, List.length_cons] at hlen
      have hnext := hfuel.items next items rest (by omega)
      rw [printItems, List.cons_append]
      simp only [skipBlank_cons (c := ',') (by decide), hnext, Option.map_some]

/-- One more unit of fuel reads one more field. -/
theorem Reads.succ_fields {fuel : ℕ} (hfuel : Reads fuel) (key : List Char) (value : Json)
    (fields : List (List Char × Json)) (rest : List Char)
    (hlen : (printString key ++ ':' :: (print value ++ printFields fields)).length ≤ fuel + 1) :
    parseFields (fuel + 1)
        (printString key ++ ':' :: (print value ++ printFields fields) ++ rest) =
      some ((key, value) :: fields, rest) := by
  rw [List.length_append, List.length_cons, List.length_append] at hlen
  have hvalue : parseValue fuel (print value ++ (printFields fields ++ rest)) =
      some (value, printFields fields ++ rest) :=
    hfuel.value value _ (by omega) (stops_printFields fields rest)
  rw [List.append_assoc, List.cons_append, List.append_assoc, parseFields, parseKey_printString]
  simp only [hvalue]
  rcases fields with _ | ⟨⟨next, inner⟩, fields⟩
  · rw [printFields, List.singleton_append]
    simp [skipBlank_cons (c := '}') (by decide)]
  · rw [printFields, List.length_cons] at hlen
    have hnext := hfuel.fields next inner fields rest (by omega)
    rw [printFields, List.cons_append]
    simp only [skipBlank_cons (c := ',') (by decide), hnext, Option.map_some]

/-- Fuel as long as the text is enough. -/
theorem reads (fuel : ℕ) : Reads fuel := by
  induction fuel with
  | zero =>
      refine ⟨fun value rest hlen _ => ?_, fun item items rest hlen => ?_,
        fun key value fields rest hlen => ?_⟩
      · have hpos := print_length_pos value
        omega
      · have hpos := print_length_pos item
        rw [List.length_append] at hlen
        omega
      · rw [List.length_append, List.length_cons] at hlen
        omega
  | succ fuel ih =>
      exact ⟨fun value _ => ih.succ_value value, ih.succ_items, ih.succ_fields⟩

/-- Reading the text of a value gives the value back. -/
theorem parse_print (value : Json) : parse (print value) = some value := by
  have hread := (reads ((print value).length + 1)).value value [] (by omega) (by simp [Stops])
  rw [List.append_nil] at hread
  rw [parse, hread]
  rfl

/-! ## Control characters -/

theorem hexDigit_visible : ∀ n < 16, 32 ≤ (hexDigit n).toNat := by
  decide

/-- A character is printed as it is, or as a backslash and more. -/
theorem escapeChar_cases (c : Char) :
    (escapeChar c = [c] ∧ c ≠ '"' ∧ c ≠ '\\') ∨ ∃ d rest, escapeChar c = '\\' :: d :: rest := by
  rw [escapeChar]
  split_ifs with h1 h2
  iterate 8 · simp
  · exact Or.inl ⟨rfl, h1, h2⟩

/-- Only an escaped quote has a quote. -/
theorem escapeChar_quoteFree {c : Char} (hc : c ≠ '"') : '"' ∉ escapeChar c := by
  have hdigit : ∀ n < 16, '"' ≠ hexDigit n := by decide
  rw [escapeChar, if_neg hc]
  split_ifs
  iterate 6 · simp
  · have hhigh := hdigit (c.toNat / 16) (by omega)
    have hlow := hdigit (c.toNat % 16) (by omega)
    simp [hhigh, hlow]
  · simpa using Ne.symm hc

theorem escape_quoteFree {s : List Char} (hs : '"' ∉ s) : '"' ∉ s.flatMap escapeChar := by
  simp only [List.mem_flatMap, not_exists, not_and]
  exact fun c hc => escapeChar_quoteFree fun h => hs (h ▸ hc)

/-- A word in front of the closing quote of a string literal is the whole content. -/
theorem eq_of_word_quote {w s t : List Char} (hquote : '"' ∉ w) (hw : '\\' ∉ w)
    (hfront : w ++ ['"'] <+: s.flatMap escapeChar ++ '"' :: t) :
    s = w ∧ s.flatMap escapeChar = w := by
  induction w generalizing s with
  | nil =>
      cases s with
      | nil => exact ⟨rfl, rfl⟩
      | cons c s =>
          rw [List.flatMap_cons] at hfront
          rcases escapeChar_cases c with ⟨hc, hne, -⟩ | ⟨d, rest, hc⟩
          · exact absurd (by simpa [hc] using hfront) hne.symm
          · simp [hc] at hfront
  | cons a w ih =>
      rw [List.mem_cons, not_or] at hquote hw
      cases s with
      | nil => exact absurd (List.cons_prefix_cons.mp hfront).1.symm hquote.1
      | cons c s =>
          rw [List.flatMap_cons] at hfront ⊢
          rcases escapeChar_cases c with ⟨hc, -, -⟩ | ⟨d, rest, hc⟩
          · rw [hc] at hfront ⊢
            obtain ⟨rfl, htail⟩ : a = c ∧ w ++ ['"'] <+: s.flatMap escapeChar ++ '"' :: t := by
              simpa using hfront
            obtain ⟨hs, hescaped⟩ := ih hquote.2 hw.2 htail
            exact ⟨by rw [hs], by rw [hescaped]; rfl⟩
          · have ha : a = '\\' := by
              rw [hc] at hfront
              exact (List.cons_prefix_cons.mp hfront).1
            exact absurd ha.symm hw.1

/-- Escaping leaves no control character. -/
theorem escapeChar_noControl (c : Char) : ∀ d ∈ escapeChar c, 32 ≤ d.toNat := by
  rw [escapeChar]
  split_ifs with h1 h2 h3 h4 h5 h6 h7 h8
  iterate 7 · simp
  · have hhigh := hexDigit_visible (c.toNat / 16) (by omega)
    have hlow := hexDigit_visible (c.toNat % 16) (by omega)
    simp [hhigh, hlow]
  · rw [List.forall_mem_singleton]
    omega

theorem printString_noControl (s : List Char) : ∀ d ∈ printString s, 32 ≤ d.toNat := by
  have hquote : 32 ≤ ('"' : Char).toNat := by decide
  simp only [printString, List.mem_cons, List.mem_append, List.mem_flatMap, List.not_mem_nil,
    or_false]
  rintro d (rfl | ⟨c, -, hd⟩ | rfl)
  · exact hquote
  · exact escapeChar_noControl c d hd
  · exact hquote

theorem numberChar_visible {c : Char} (hc : isNumberChar c = true) : 32 ≤ c.toNat := by
  simp only [isNumberChar, Bool.or_eq_true, beq_iff_eq] at hc
  rcases hc with ((((hdigit | rfl) | rfl) | rfl) | rfl) | rfl
  any_goals decide
  simp only [Char.isDigit, Bool.and_eq_true, decide_eq_true_eq, ge_iff_le,
    UInt32.le_iff_toNat_le] at hdigit
  exact le_trans (by decide) hdigit.1

theorem number_noControl (n : NumberLit) : ∀ d ∈ n.text, 32 ≤ d.toNat :=
  fun d hd => numberChar_visible (List.all_eq_true.mp n.chars d hd)

mutual

/-- The text of a value has no control character. -/
theorem print_noControl : ∀ value : Json, ∀ d ∈ print value, 32 ≤ d.toNat
  | .null => by rw [print]; simp
  | .bool true => by rw [print]; simp
  | .bool false => by rw [print]; simp
  | .num n => by rw [print]; exact number_noControl n
  | .str s => by rw [print]; exact printString_noControl s
  | .arr [] => by rw [print]; simp
  | .arr (item :: items) => by
      rw [print, List.forall_mem_cons, List.forall_mem_append]
      exact ⟨by decide, print_noControl item, printItems_noControl items⟩
  | .obj [] => by rw [print]; simp
  | .obj ((key, value) :: fields) => by
      rw [print, List.forall_mem_cons, List.forall_mem_append, List.forall_mem_cons,
        List.forall_mem_append]
      exact ⟨by decide, printString_noControl key, by decide, print_noControl value,
        printFields_noControl fields⟩

theorem printItems_noControl : ∀ items : List Json, ∀ d ∈ printItems items, 32 ≤ d.toNat
  | [] => by rw [printItems]; simp
  | item :: items => by
      rw [printItems, List.forall_mem_cons, List.forall_mem_append]
      exact ⟨by decide, print_noControl item, printItems_noControl items⟩

theorem printFields_noControl :
    ∀ fields : List (List Char × Json), ∀ d ∈ printFields fields, 32 ≤ d.toNat
  | [] => by rw [printFields]; simp
  | (key, value) :: fields => by
      rw [printFields, List.forall_mem_cons, List.forall_mem_append, List.forall_mem_cons,
        List.forall_mem_append]
      exact ⟨by decide, printString_noControl key, by decide, print_noControl value,
        printFields_noControl fields⟩

end

end Json

end Foundation
