import Wintermute.Foundation.Json
import Wintermute.Foundation.Occurrences
import Wintermute.Text
import Wintermute.Watchdog.Engine

/-!
# Reading the list of failed units

The backend asks the service manager for a JSON array with one object per failed unit
and scans the answer for the text of the key {lit}`unit`.  The scan does not know where
strings begin and end, and it never unescapes.

Main results:

- Theorem {lit}`unitNames_printString`: a string literal shows the scan a key when its
  content, behind a quote, ends like the key, and nothing else.
- Theorem {lit}`parseFailedJson_encode`: the answer is the list of the values that stand
  behind such keys, as they are written.
- Theorem {lit}`parseFailedJson_iff`: these are the names of the units when no name has a
  backslash and no other key ends like {lit}`unit` behind a quote.
-/

namespace Wintermute
namespace Watchdog

open Foundation Json

/-! ## The scan -/

/-- The text of the key. -/
def unitKey : Str := "\"unit\"".toList

/-- The name behind a key, up to the next quote. -/
def nameAt (rest : Str) : Option Str :=
  let rest2 := trimStartMatches [' ', '\t', ':'].contains rest
  match stripPrefix ['"'] rest2 with
  | none => none
  | some inner => (splitOnce '"' inner).map Prod.fst

/-- The names on one line. -/
def unitNames (line : Str) : List Str :=
  (occurrences unitKey line).filterMap nameAt

/-- The names of the failed units; a text without any is read in the other format, whose
answer is {lit}`fallback`. -/
def parseFailedJson (fallback : Except WatchdogError (List String)) (text : Str) :
    Except WatchdogError (List String) :=
  let units := (lines text).flatMap unitNames
  if units.isEmpty then fallback else .ok (units.map String.ofList)

/-! ## Scanning a line -/

@[simp] theorem unitNames_nil : unitNames [] = [] := rfl

theorem unitNames_skip {c : Char} {l : Str} (hne : ¬ unitKey <+: c :: l) :
    unitNames (c :: l) = unitNames l := by
  rw [unitNames, occurrences_cons hne, unitNames]

/-- Only a quote starts the key. -/
theorem unitNames_cons {c : Char} (hc : c ≠ '"') (l : Str) :
    unitNames (c :: l) = unitNames l :=
  unitNames_skip fun h => hc (List.cons_prefix_cons.mp h).1.symm

theorem unitNames_quoteFree {x : Str} (hx : '"' ∉ x) (l : Str) :
    unitNames (x ++ l) = unitNames l :=
  congrArg (List.filterMap nameAt) (occurrences_front hx l)

/-- A quote in front of another character than the key's first letter. -/
theorem unitNames_quote {l : Str} (hl : l.head? ≠ some 'u') :
    unitNames ('"' :: l) = unitNames l := by
  apply unitNames_skip
  intro hkey
  cases l with
  | nil => exact absurd hkey (by decide)
  | cons c l =>
      have hc : 'u' = c := (List.cons_prefix_cons.mp (List.cons_prefix_cons.mp hkey).2).1
      exact hl (congrArg some hc.symm)

/-- The key gives a name, if there is one behind it. -/
theorem unitNames_key (rest : Str) :
    unitNames (unitKey ++ rest) = (nameAt rest).toList ++ unitNames rest := by
  rw [unitNames, occurrences_append (by decide), unitNames]
  cases hname : nameAt rest with
  | none => rw [List.filterMap_cons_none hname, Option.toList_none, List.nil_append]
  | some name => rw [List.filterMap_cons_some hname, Option.toList_some, List.singleton_append]

/-! ## String literals -/

/-- The key without its closing quote. -/
def keyTail : Str := "\"unit".toList

/-- The literal of such a string, from a quote inside it or from its opening quote on,
reads like the key. -/
def EndsLikeKey (s : Str) : Prop :=
  keyTail <:+ '"' :: s

instance (s : Str) : Decidable (EndsLikeKey s) :=
  inferInstanceAs (Decidable (_ <:+ _))

/-- The scan from a quote on: either the rest of the literal is the word of the key, or
the scan goes on behind the quote. -/
theorem unitNames_opening (s : Str) {t : Str}
    (hcontent : unitNames (s.flatMap escapeChar ++ '"' :: t) =
      (if keyTail <:+ s then (nameAt t).toList else []) ++ unitNames t) :
    unitNames ('"' :: (s.flatMap escapeChar ++ '"' :: t)) =
      (if EndsLikeKey s then (nameAt t).toList else []) ++ unitNames t := by
  by_cases hkey : unitKey <+: '"' :: (s.flatMap escapeChar ++ '"' :: t)
  · have hword : "unit".toList ++ ['"'] <+: s.flatMap escapeChar ++ '"' :: t :=
      (List.cons_prefix_cons.mp hkey).2
    obtain ⟨hs, hescaped⟩ := eq_of_word_quote (by decide) (by decide) hword
    have htext : '"' :: (s.flatMap escapeChar ++ '"' :: t) = unitKey ++ t := by
      rw [hescaped]
      rfl
    have hends : EndsLikeKey s := by
      rw [hs]
      exact List.suffix_refl keyTail
    rw [htext, unitNames_key, if_pos hends]
  · have hends : EndsLikeKey s ↔ keyTail <:+ s := by
      rw [EndsLikeKey, List.suffix_cons_iff]
      refine or_iff_right fun hword => hkey ?_
      have hs : "unit".toList = s := List.tail_eq_of_cons_eq hword
      rw [← hs]
      exact List.prefix_append unitKey t
    rw [unitNames_skip hkey, hcontent, if_congr hends rfl rfl]

/-- The scan of a content.  A quote of the content is escaped, and the backslash is
skipped in front of it. -/
theorem unitNames_content (s : Str) {t : Str} (ht : t.head? ≠ some 'u') :
    unitNames (s.flatMap escapeChar ++ '"' :: t) =
      (if keyTail <:+ s then (nameAt t).toList else []) ++ unitNames t := by
  induction s with
  | nil =>
      rw [if_neg (by decide), List.nil_append]
      exact unitNames_quote ht
  | cons c s ih =>
      rw [List.flatMap_cons, List.append_assoc]
      by_cases hc : c = '"'
      · subst hc
        have hescape : escapeChar '"' = ['\\', '"'] := rfl
        rw [hescape, List.cons_append, unitNames_cons (by decide)]
        exact unitNames_opening s ih
      · have hends : keyTail <:+ c :: s ↔ keyTail <:+ s := by
          rw [List.suffix_cons_iff]
          exact or_iff_right fun hword => hc (List.head_eq_of_cons_eq hword).symm
        rw [unitNames_quoteFree (escapeChar_quoteFree hc), ih, if_congr hends rfl rfl]

/-- A string literal shows the scan a key when its content ends like one, and nothing
else. -/
theorem unitNames_printString (s : Str) {t : Str} (ht : t.head? ≠ some 'u') :
    unitNames (printString s ++ t) =
      (if EndsLikeKey s then (nameAt t).toList else []) ++ unitNames t := by
  have htext : printString s ++ t = '"' :: (s.flatMap escapeChar ++ '"' :: t) := by
    simp [printString]
  rw [htext]
  exact unitNames_opening s (unitNames_content s ht)

/-! ## Objects -/

/-- What follows a value in an object: a comma or the closing brace. -/
def Follows (t : Str) : Prop :=
  t.head? = some ',' ∨ t.head? = some '}'

/-- A value behind a key, as it is written and up to the first quote. -/
def scanned (value : Str) : Str :=
  beforeFirst '"' (value.flatMap escapeChar)

/-- The values behind the keys that the scan finds. -/
def scannedNames (fields : List (Str × Str)) : List Str :=
  (fields.filter fun f => EndsLikeKey f.1).map fun f => scanned f.2

/-- The fields of an object as JSON. -/
def jsonFields (fields : List (Str × Str)) : List (Str × Json) :=
  fields.map fun f => (f.1, .str f.2)

/-- Nothing that follows a value is a name. -/
theorem nameAt_follows {t : Str} (ht : Follows t) : nameAt t = none := by
  cases t with
  | nil => rcases ht with ht | ht <;> simp at ht
  | cons c rest =>
      have hc : c = ',' ∨ c = '}' := by simpa [Follows] using ht
      rcases hc with rfl | rfl <;> rfl

/-- Behind a key stands its value. -/
theorem nameAt_value (value t : Str) :
    nameAt (':' :: (printString value ++ t)) = some (scanned value) := by
  have hrest : trimStartMatches [' ', '\t', ':'].contains (':' :: (printString value ++ t)) =
      ['"'] ++ (value.flatMap escapeChar ++ '"' :: t) := by
    simp [printString, trimStartMatches, List.dropWhile]
  have hsplit : '"' ∈ value.flatMap escapeChar ++ '"' :: t := by simp
  rw [nameAt, hrest, stripPrefix_append]
  simp only [splitOnce, if_pos hsplit, Option.map_some, scanned, beforeFirst_append_sep]

theorem follows_printFields (fields : List (Str × Json)) (l : Str) :
    Follows (printFields fields ++ l) := by
  cases fields with
  | nil => exact Or.inr rfl
  | cons f fields => exact Or.inl rfl

theorem scannedNames_cons (f : Str × Str) (fields : List (Str × Str)) :
    scannedNames (f :: fields) =
      (if EndsLikeKey f.1 then [scanned f.2] else []) ++ scannedNames fields := by
  by_cases hf : EndsLikeKey f.1 <;> simp [scannedNames, hf]

theorem scannedNames_append (xs ys : List (Str × Str)) :
    scannedNames (xs ++ ys) = scannedNames xs ++ scannedNames ys := by
  simp [scannedNames]

/-- The scan of one field. -/
theorem unitNames_field (key value : Str) {t : Str} (ht : Follows t) :
    unitNames (printString key ++ ':' :: (printString value ++ t)) =
      (if EndsLikeKey key then [scanned value] else []) ++ unitNames t := by
  have hhead : t.head? ≠ some 'u' := by
    rcases ht with ht | ht <;> simp [ht]
  rw [unitNames_printString key (by simp), nameAt_value, Option.toList_some,
    unitNames_cons (by decide), unitNames_printString value hhead, nameAt_follows ht]
  simp

/-- The scan of the fields behind the first. -/
theorem unitNames_printFields (fields : List (Str × Str)) (l : Str) :
    unitNames (printFields (jsonFields fields) ++ l) = scannedNames fields ++ unitNames l := by
  induction fields with
  | nil => exact unitNames_cons (by decide) l
  | cons f fields ih =>
      have htext : printFields (jsonFields (f :: fields)) ++ l =
          ',' :: (printString f.1 ++ ':' :: (printString f.2 ++
            (printFields (jsonFields fields) ++ l))) := by
        simp [jsonFields, printFields, print]
      rw [htext, unitNames_cons (by decide), unitNames_field _ _ (follows_printFields _ l), ih,
        scannedNames_cons, List.append_assoc]

/-- The scan of an object. -/
theorem unitNames_object (fields : List (Str × Str)) (l : Str) :
    unitNames (print (.obj (jsonFields fields)) ++ l) = scannedNames fields ++ unitNames l := by
  cases fields with
  | nil => exact (unitNames_cons (by decide) _).trans (unitNames_cons (by decide) l)
  | cons f fields =>
      have htext : print (.obj (jsonFields (f :: fields))) ++ l =
          '{' :: (printString f.1 ++ ':' :: (printString f.2 ++
            (printFields (jsonFields fields) ++ l))) := by
        simp [jsonFields, print]
      rw [htext, unitNames_cons (by decide), unitNames_field _ _ (follows_printFields _ l),
        unitNames_printFields, scannedNames_cons, List.append_assoc]

/-! ## The answer of the service manager -/

/-- The characters of unit names. -/
def legalUnitChar (c : Char) : Bool :=
  c.isAlphanum || ":-_.\\@".toList.contains c

/-- A failed unit: its name, and the fields in front of and behind it. -/
structure FailedUnit where
  name : Str
  before : List (Str × Str)
  after : List (Str × Str)
  legal : ∀ c ∈ name, legalUnitChar c = true
  keys : ∀ f ∈ before ++ after, f.1 ≠ "unit".toList

/-- The fields of a unit's object. -/
def FailedUnit.fields (u : FailedUnit) : List (Str × Str) :=
  u.before ++ ("unit".toList, u.name) :: u.after

/-- The object of a unit. -/
def FailedUnit.text (u : FailedUnit) : Str :=
  print (.obj (jsonFields u.fields))

/-- What the array puts around and between the objects. -/
structure Layout where
  opening : Str
  separator : Str
  closing : Str
  plain : ∀ c ∈ opening ++ separator ++ closing, c ≠ '"' ∧ c ≠ '\r'

/-- The array on one line. -/
def Layout.compact : Layout where
  opening := ['[']
  separator := [',']
  closing := [']']
  plain := by simp

/-- The array with one object on each line. -/
def Layout.objectPerLine : Layout where
  opening := ['[']
  separator := [',', '\n']
  closing := [']', '\n']
  plain := by simp

/-- The text of the array. -/
def encode (layout : Layout) (units : List FailedUnit) : Str :=
  layout.opening ++ (layout.separator.intercalate (units.map FailedUnit.text) ++ layout.closing)

/-- The names in a text without carriage return. -/
def segmentNames (text : Str) : List Str :=
  (segments '\n' text).flatMap unitNames

/-- A piece within one line gives its names wherever it stands. -/
theorem segmentNames_front {piece : Str} {names : List Str} (hpiece : '\n' ∉ piece)
    (hnames : ∀ t, unitNames (piece ++ t) = names ++ unitNames t) (l : Str) :
    segmentNames (piece ++ l) = names ++ segmentNames l := by
  rw [segmentNames, segmentNames]
  induction l using segments_induction '\n' with
  | nil =>
      have hnil : unitNames piece = names := by simpa using hnames []
      by_cases hempty : piece = []
      · simp [hempty, ← hnil]
      · simp [segments_last hempty hpiece, hnil]
  | last p hne hp =>
      have hne' : piece ++ p ≠ [] := by simp [hne]
      have hp' : '\n' ∉ piece ++ p := by simp [hpiece, hp]
      simp [segments_last hne hp, segments_last hne' hp', hnames]
  | cons p rest hp _ =>
      have hp' : '\n' ∉ piece ++ p := by simp [hpiece, hp]
      rw [← List.append_assoc, segments_cons hp', segments_cons hp]
      simp [hnames]

/-- What the layout adds gives no names. -/
theorem segmentNames_plain {x : Str} (hx : '"' ∉ x) (l : Str) :
    segmentNames (x ++ l) = segmentNames l := by
  induction x with
  | nil => rfl
  | cons c x ih =>
      rw [List.mem_cons, not_or] at hx
      rw [← ih hx.2]
      by_cases hc : c = '\n'
      · have hline : segments '\n' ('\n' :: (x ++ l)) = [] :: segments '\n' (x ++ l) :=
          segments_cons List.not_mem_nil (x ++ l)
        rw [hc, List.cons_append, segmentNames, hline, segmentNames]
        rfl
      · have hchar : '\n' ∉ [c] := by simpa using Ne.symm hc
        have hnone : ∀ t, unitNames ([c] ++ t) = [] ++ unitNames t :=
          unitNames_cons (Ne.symm hx.1)
        exact segmentNames_front hchar hnone (x ++ l)

theorem FailedUnit.text_noControl (u : FailedUnit) : ∀ c ∈ u.text, 32 ≤ c.toNat :=
  print_noControl _

theorem FailedUnit.segmentNames_text (u : FailedUnit) (l : Str) :
    segmentNames (u.text ++ l) = scannedNames u.fields ++ segmentNames l := by
  refine segmentNames_front (fun h => ?_) (unitNames_object u.fields) l
  exact absurd (u.text_noControl '\n' h) (by decide)

theorem segmentNames_intercalate {separator : Str} (hseparator : '"' ∉ separator)
    (units : List FailedUnit) (l : Str) :
    segmentNames (separator.intercalate (units.map FailedUnit.text) ++ l) =
      (units.flatMap fun u => scannedNames u.fields) ++ segmentNames l := by
  induction units with
  | nil => rfl
  | cons u units ih =>
      cases units with
      | nil => simpa using u.segmentNames_text l
      | cons v units =>
          rw [List.map_cons, List.map_cons, List.intercalate_cons_cons, List.append_assoc,
            List.append_assoc, u.segmentNames_text, segmentNames_plain hseparator,
            ← List.map_cons, ih]
          simp only [List.flatMap_cons, List.append_assoc]

/-! ## What the backend answers -/

theorem encode_noCr (layout : Layout) (units : List FailedUnit) :
    '\r' ∉ encode layout units := by
  have hplain : '\r' ∉ layout.opening ++ layout.separator ++ layout.closing :=
    fun h => (layout.plain '\r' h).2 rfl
  have htext : ∀ p ∈ units.map FailedUnit.text, '\r' ∉ p := by
    simp only [List.mem_map]
    rintro p ⟨u, -, rfl⟩ h
    exact absurd (u.text_noControl '\r' h) (by decide)
  simp only [List.mem_append, not_or] at hplain
  have hobjects := notMem_intercalate hplain.1.2 htext
  simp [encode, hplain, hobjects]

/-- The names in the array are the values behind the keys of its objects. -/
theorem names_encode (layout : Layout) (units : List FailedUnit) :
    (lines (encode layout units)).flatMap unitNames =
      units.flatMap fun u => scannedNames u.fields := by
  have hplain : '"' ∉ layout.opening ++ layout.separator ++ layout.closing :=
    fun h => (layout.plain '"' h).1 rfl
  simp only [List.mem_append, not_or] at hplain
  have hclosing : segmentNames layout.closing = [] := by
    simpa [segmentNames] using segmentNames_plain hplain.2 []
  rw [lines_of_noCr (encode_noCr layout units), ← segmentNames, encode,
    segmentNames_plain hplain.1.1, segmentNames_intercalate hplain.1.2, hclosing,
    List.append_nil]

theorem endsLikeKey_unit : EndsLikeKey "unit".toList :=
  List.suffix_refl keyTail

/-- Another key ends like the key only behind a quote of its own. -/
theorem endsLikeKey_other {key : Str} (hkey : key ≠ "unit".toList) :
    EndsLikeKey key ↔ keyTail <:+ key := by
  rw [EndsLikeKey, List.suffix_cons_iff]
  exact or_iff_right fun hword => hkey (List.tail_eq_of_cons_eq hword).symm

theorem FailedUnit.scannedNames_fields (u : FailedUnit) :
    scannedNames u.fields =
      scannedNames u.before ++ scanned u.name :: scannedNames u.after := by
  rw [FailedUnit.fields, scannedNames_append, scannedNames_cons, if_pos endsLikeKey_unit]
  rfl

theorem FailedUnit.scannedNames_ne_nil (u : FailedUnit) : scannedNames u.fields ≠ [] := by
  simp [u.scannedNames_fields]

/-- For every nonempty list of units the answer is the list of the values behind the keys
that the scan finds. -/
theorem parseFailedJson_encode (fallback : Except WatchdogError (List String))
    (layout : Layout) (first : FailedUnit) (rest : List FailedUnit) :
    parseFailedJson fallback (encode layout (first :: rest)) =
      .ok (((first :: rest).flatMap fun u => scannedNames u.fields).map String.ofList) := by
  have hne : ((first :: rest).flatMap fun u => scannedNames u.fields).isEmpty = false := by
    simp [first.scannedNames_ne_nil]
  simp only [parseFailedJson, names_encode, hne, Bool.false_eq_true, if_false]

/-! ## When the answer is right -/

/-- The legal characters are visible ones behind the quote. -/
theorem legalUnitChar_toNat {c : Char} (hc : legalUnitChar c = true) : 45 ≤ c.toNat := by
  have hlow : ∀ n < 45, legalUnitChar (Char.ofNat n) = false := by decide
  by_contra hlt
  have hfalse := hlow c.toNat (by omega)
  rw [Char.ofNat_toNat, hc] at hfalse
  cases hfalse

/-- Of the legal characters only the backslash is escaped. -/
theorem escapeChar_legal {c : Char} (hlegal : legalUnitChar c = true) :
    escapeChar c = [c] ↔ c ≠ '\\' := by
  have hlow := legalUnitChar_toNat hlegal
  constructor
  · rintro hescape rfl
    cases hescape
  · intro hc
    have hother : ∀ d : Char, d.toNat < 45 → c ≠ d := by
      rintro d hd rfl
      omega
    rw [escapeChar, if_neg (hother '"' (by decide)), if_neg hc, if_neg (hother '\n' (by decide)),
      if_neg (hother '\r' (by decide)), if_neg (hother '\t' (by decide)), if_neg (by omega),
      if_neg (by omega), if_neg (by omega)]

/-- A name is read back unchanged when it has no backslash. -/
theorem FailedUnit.scanned_name_iff (u : FailedUnit) :
    scanned u.name = u.name ↔ '\\' ∉ u.name := by
  have hquote : '"' ∉ u.name := fun h => absurd (legalUnitChar_toNat (u.legal '"' h)) (by decide)
  have hne : ∀ c, escapeChar c ≠ [] := by
    intro c hnil
    rcases escapeChar_cases c with ⟨hc, -⟩ | ⟨d, rest, hc⟩ <;> simp [hc] at hnil
  have hall : u.name.flatMap escapeChar = u.name.map id ↔ ∀ c ∈ u.name, escapeChar c = [id c] :=
    flatMap_eq_map_iff hne
  rw [List.map_id] at hall
  rw [scanned, beforeFirst_of_notMem (escape_quoteFree hquote), hall]
  constructor
  · intro hself hmem
    exact absurd (hself _ hmem) (by decide)
  · intro hmem c hc
    exact (escapeChar_legal (u.legal c hc)).mpr fun heq => hmem (heq ▸ hc)

theorem scannedNames_eq_nil_iff {fields : List (Str × Str)}
    (hkeys : ∀ f ∈ fields, f.1 ≠ "unit".toList) :
    scannedNames fields = [] ↔ ∀ f ∈ fields, ¬ keyTail <:+ f.1 := by
  rw [scannedNames, List.map_eq_nil_iff, List.filter_eq_nil_iff]
  refine forall₂_congr fun f hf => ?_
  rw [decide_eq_true_iff, endsLikeKey_other (hkeys f hf)]

/-- An object gives exactly the name of its unit. -/
theorem FailedUnit.scannedNames_eq_iff (u : FailedUnit) :
    scannedNames u.fields = [u.name] ↔
      '\\' ∉ u.name ∧ ∀ f ∈ u.before ++ u.after, ¬ keyTail <:+ f.1 := by
  have hkeys := List.forall_mem_append.mp u.keys
  rw [u.scannedNames_fields, List.forall_mem_append, ← scannedNames_eq_nil_iff hkeys.1,
    ← scannedNames_eq_nil_iff hkeys.2, ← u.scanned_name_iff]
  constructor
  · intro heq
    have hparts : scannedNames u.before = [] ∧ scanned u.name = u.name ∧
        scannedNames u.after = [] := by
      simpa [List.append_eq_singleton_iff] using heq
    exact ⟨hparts.2.1, hparts.1, hparts.2.2⟩
  · rintro ⟨hname, hbefore, hafter⟩
    rw [hname, hbefore, hafter, List.nil_append]

/-- **The names of the failed units.**  The answer is the list of the names exactly when
no name has a backslash and no other key of an object ends like the key behind a quote. -/
theorem parseFailedJson_iff (fallback : Except WatchdogError (List String))
    (layout : Layout) (first : FailedUnit) (rest : List FailedUnit) :
    parseFailedJson fallback (encode layout (first :: rest)) =
        .ok ((first :: rest).map fun u => String.ofList u.name) ↔
      ∀ u ∈ first :: rest,
        '\\' ∉ u.name ∧ ∀ f ∈ u.before ++ u.after, ¬ keyTail <:+ f.1 := by
  have hmap : (first :: rest).map (fun u => String.ofList u.name) =
      ((first :: rest).map FailedUnit.name).map String.ofList := by
    rw [List.map_map]
    rfl
  have hofList : Function.Injective String.ofList := fun _ _ => String.ofList_injective
  rw [parseFailedJson_encode, hmap, Except.ok.injEq, hofList.list_map.eq_iff,
    flatMap_eq_map_iff FailedUnit.scannedNames_ne_nil]
  exact forall₂_congr fun u _ => u.scannedNames_eq_iff

/-- A unit whose name escapes a hyphen. -/
def hyphenUnit : FailedUnit where
  name := "wm-a\\x2db.service".toList
  before := []
  after := [("load".toList, "loaded".toList), ("active".toList, "failed".toList)]
  legal := List.all_eq_true.mp (by decide)
  keys := List.forall_mem_cons.mpr ⟨by decide, List.forall_mem_singleton.mpr (by decide)⟩

/-- The answer for that unit has its backslash twice, in both layouts. -/
theorem parseFailedJson_hyphenUnit :
    parseFailedJson (.ok []) (encode Layout.compact [hyphenUnit]) =
        .ok ["wm-a\\\\x2db.service"] ∧
      parseFailedJson (.ok []) (encode Layout.compact [hyphenUnit]) ≠
        .ok [String.ofList hyphenUnit.name] ∧
      parseFailedJson (.ok []) (encode Layout.objectPerLine [hyphenUnit]) ≠
        .ok [String.ofList hyphenUnit.name] := by
  have hcompact : parseFailedJson (.ok []) (encode Layout.compact [hyphenUnit]) =
      .ok ["wm-a\\\\x2db.service"] := by
    decide
  have hperLine : parseFailedJson (.ok []) (encode Layout.objectPerLine [hyphenUnit]) =
      .ok ["wm-a\\\\x2db.service"] := by
    decide
  have hname : ["wm-a\\\\x2db.service"] ≠ [String.ofList hyphenUnit.name] := by
    decide
  rw [hperLine, hcompact]
  exact ⟨rfl, fun heq => hname (Except.ok.inj heq), fun heq => hname (Except.ok.inj heq)⟩

end Watchdog
end Wintermute
