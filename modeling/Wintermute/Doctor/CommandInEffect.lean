import Wintermute.Doctor.ExecStart

/-!
# Which command the doctor checks

The service manager prints a unit file and its drop-ins one after another, and it reads
their {lit}`ExecStart=` lines as a list that an empty value empties.  The doctor takes the
first value with a word, wherever it stands.  It checks the command in effect as long as
no reset comes behind a command.

Main results:

- Theorem {lit}`parseExecStart_eq`: the doctor reads the first command of all values.
- Theorem {lit}`findSome_inEffect`: resets in front of every command change nothing.
- Theorem {lit}`parseExecStart_inEffect`: what the doctor reads, and when that is the
  command in effect.
-/

namespace Wintermute

open Foundation

/-! ## The values of a unit -/

/-- The value of a line that sets {lit}`ExecStart=`. -/
def execValue (line : Str) : Option Str :=
  stripPrefix execStart (trim line)

/-- The {lit}`ExecStart=` values of a unit file and its drop-ins, in order. -/
def execValues (text : Str) : List Str :=
  (lines text).filterMap execValue

/-- The values in effect: an empty one resets the list. -/
def inEffect (values : List Str) : List Str :=
  values.foldl (fun set value => if value = [] then [] else set ++ [value]) []

/-- The first word of a value behind its modifiers. -/
def commandWord (value : Str) : Option Str :=
  firstWord isWhitespace
    (trimStartMatches execModifiers.contains (trimStartMatches isWhitespace value))

/-- A value with white space in front of its modifiers. -/
def SpacedModifier (value : Str) : Prop :=
  ∃ blank c rest, blank ≠ [] ∧ (∀ b ∈ blank, isWhitespace b = true) ∧ c ∈ execModifiers ∧
    value = blank ++ c :: rest

/-- White space is no modifier. -/
theorem notMem_execModifiers {c : Char} (hc : isWhitespace c = true) : c ∉ execModifiers := by
  intro hmem
  simp only [execModifiers, List.mem_cons, List.not_mem_nil, or_false] at hmem
  rcases hmem with rfl | rfl | rfl | rfl <;> exact absurd hc (by decide)

/-- A value that starts with something else than white space. -/
theorem not_spacedModifier {value : Str} (hvalue : ∀ c ∈ value.head?, isWhitespace c = false) :
    ¬ SpacedModifier value := by
  rintro ⟨blank, c, rest, hne, hblank, -, rfl⟩
  cases blank with
  | nil => exact hne rfl
  | cons b blank =>
      have hb := hvalue b rfl
      rw [hblank b List.mem_cons_self] at hb
      cases hb

/-- Without white space in front of the modifiers the doctor's word is the value's. -/
theorem execToken_eq_commandWord {line value : Str}
    (hline : execValue line = some value) (hvalue : ¬ SpacedModifier value) :
    execToken line = commandWord value := by
  rw [execToken_of_value hline, commandWord]
  obtain ⟨blank, hsplit, hblank⟩ : ∃ blank, value = blank ++ trimStartMatches isWhitespace value ∧
      ∀ b ∈ blank, isWhitespace b = true :=
    ⟨value.takeWhile isWhitespace, List.takeWhile_append_dropWhile.symm,
      fun b hb => List.mem_takeWhile_imp hb⟩
  cases blank with
  | nil =>
      rw [List.nil_append] at hsplit
      rw [← hsplit]
  | cons b blank =>
      generalize trimStartMatches isWhitespace value = rest at hsplit
      subst hsplit
      have hb : ¬ execModifiers.contains b = true := by
        rw [List.contains_iff_mem]
        exact notMem_execModifiers (hblank b List.mem_cons_self)
      have hfront : trimStartMatches execModifiers.contains (b :: blank ++ rest) =
          b :: blank ++ rest :=
        List.dropWhile_cons_of_neg hb
      have hrest : trimStartMatches execModifiers.contains rest = rest := by
        cases rest with
        | nil => rfl
        | cons c rest =>
            refine List.dropWhile_cons_of_neg fun hc => hvalue ?_
            exact ⟨b :: blank, c, rest, List.cons_ne_nil b blank, hblank,
              List.contains_iff_mem.mp hc, rfl⟩
      rw [hfront, hrest, firstWord_blank_append rest hblank]

/-- The doctor reads the first command of all values. -/
theorem parseExecStart_eq {text : Str}
    (hvalues : ∀ value ∈ execValues text, ¬ SpacedModifier value) :
    parseExecStart text = (execValues text).findSome? commandWord := by
  rw [parseExecStart]
  rw [execValues] at hvalues ⊢
  generalize lines text = all at hvalues ⊢
  induction all with
  | nil => rfl
  | cons line rest ih =>
      cases hvalue : execValue line with
      | none =>
          rw [List.filterMap_cons_none hvalue] at hvalues ⊢
          have htoken : execToken line = none := by
            rw [execValue] at hvalue
            rw [execToken, hvalue]
          rw [List.findSome?_cons, htoken]
          exact ih hvalues
      | some value =>
          rw [List.filterMap_cons_some hvalue] at hvalues ⊢
          rw [List.forall_mem_cons] at hvalues
          rw [List.findSome?_cons, List.findSome?_cons,
            execToken_eq_commandWord hvalue hvalues.1, ih hvalues.2]

/-! ## Resets -/

/-- No empty value comes behind a command. -/
def NoResetBehindCommand (values : List Str) : Prop :=
  ∀ front back, values = front ++ [] :: back → ∀ value ∈ front, commandWord value = none

@[simp] theorem inEffect_snoc (values : List Str) (value : Str) :
    inEffect (values ++ [value]) = if value = [] then [] else inEffect values ++ [value] := by
  simp [inEffect]

/-- Resets in front of every command change nothing. -/
theorem findSome_inEffect {values : List Str} (h : NoResetBehindCommand values) :
    (inEffect values).findSome? commandWord = values.findSome? commandWord := by
  induction values using List.reverseRecOn with
  | nil => rfl
  | append_singleton values value ih =>
      have hvalues : NoResetBehindCommand values := by
        intro front back hsplit
        refine h front (back ++ [value]) ?_
        rw [hsplit, List.append_assoc, List.cons_append]
      rw [inEffect_snoc]
      split_ifs with hempty
      · subst hempty
        have hnone : ∀ v ∈ values ++ [[]], commandWord v = none := by
          rw [List.forall_mem_append]
          exact ⟨h values [] rfl, List.forall_mem_singleton.mpr rfl⟩
        rw [List.findSome?_eq_none_iff.mpr hnone]
        rfl
      · rw [List.findSome?_append, List.findSome?_append, ih hvalues]

/-- The doctor reads the first command of all values, in effect or not; it is the first
command in effect when no reset comes behind a command. -/
theorem parseExecStart_inEffect (text : Str)
    (hvalues : ∀ value ∈ execValues text, ¬ SpacedModifier value) :
    parseExecStart text = (execValues text).findSome? commandWord ∧
    (NoResetBehindCommand (execValues text) →
      parseExecStart text = (inEffect (execValues text)).findSome? commandWord) :=
  ⟨parseExecStart_eq hvalues, fun h => (parseExecStart_eq hvalues).trans (findSome_inEffect h).symm⟩

/-- A unit whose drop-in adds a second command. -/
def extendedUnit : Str :=
  "[Service]\nExecStart=\nExecStart=-/bin/wm-tts\n[Service]\nExecStart=/bin/true\n".toList

theorem parseExecStart_inEffect_extendedUnit :
    parseExecStart extendedUnit = (inEffect (execValues extendedUnit)).findSome? commandWord := by
  have hvalues : execValues extendedUnit = [[], "-/bin/wm-tts".toList, "/bin/true".toList] := by
    decide
  refine (parseExecStart_inEffect extendedUnit ?_).2 ?_
  · rw [hvalues]
    intro value hvalue
    apply not_spacedModifier
    simp only [List.mem_cons, List.not_mem_nil, or_false] at hvalue
    rcases hvalue with rfl | rfl | rfl <;> simp [isWhitespace]
  · rw [hvalues]
    intro front back hsplit
    -- the empty value is the first one
    cases front with
    | nil => exact fun value hvalue => absurd hvalue List.not_mem_nil
    | cons value front =>
        rw [List.cons_append, List.cons.injEq] at hsplit
        have hmem : [] ∈ ["-/bin/wm-tts".toList, "/bin/true".toList] := by
          rw [hsplit.2]
          exact List.mem_append_right front List.mem_cons_self
        exact absurd hmem (by decide)

/-- A unit whose drop-in replaces the command. -/
def replacedUnit : Str :=
  "[Service]\nExecStart=/usr/bin/wm-tts\n[Service]\nExecStart=\nExecStart=/opt/wm-tts\n".toList

/-- Behind a reset the doctor still reads the command of the unit file. -/
theorem parseExecStart_reset :
    parseExecStart replacedUnit = some "/usr/bin/wm-tts".toList ∧
    (inEffect (execValues replacedUnit)).head?.bind commandWord = some "/opt/wm-tts".toList := by
  decide

end Wintermute
