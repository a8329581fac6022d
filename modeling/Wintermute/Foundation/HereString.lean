import Wintermute.Foundation.Occurrences

/-!
# Here-strings

A shell script captures the output of a function and hands it to another shell in a
quoted here-string, {lit}`bash -c "command <<< \"$body\""`.  The second shell reads the
text once more: its double quotes end and begin the quoting.

Main results:

- Theorem {lit}`hereString_plain`: a plain text arrives unchanged when it ends with exactly
  one line feed.
- Theorem {lit}`quote_notMem_hereString`: no double quote of a text arrives.
- Theorem {lit}`hereString_cut`: a text with a double quote ends at the first blank behind
  it.
-/

namespace Foundation
namespace Shell

/-! ## What the shells do -/

/-- The output of a here-document with these lines. -/
def heredoc (lines : List (List Char)) : List Char :=
  lines.flatMap fun line => line ++ ['\n']

/-- A command substitution drops the line feeds at the end of the output. -/
def commandSubst (output : List Char) : List Char :=
  trimEndMatches (· == '\n') output

/-- Symbols that start a substitution or an escape, also inside double quotes. -/
def substitutes (c : Char) : Bool :=
  "$`\\".toList.contains c

/-- Symbols that end a word outside quotes. -/
def endsWord (c : Char) : Bool :=
  " \t\n;&|<>()".toList.contains c

/-- Symbols that stand for themselves in double quotes. -/
def literal (c : Char) : Bool :=
  c != '"' && !substitutes c

/-- A text of literal symbols. -/
def Plain (text : List Char) : Prop :=
  text.all literal = true

instance (text : List Char) : Decidable (Plain text) :=
  inferInstanceAs (Decidable (_ = true))

/-- Symbols that stand for themselves outside quotes too. -/
def bare (c : Char) : Bool :=
  literal c && !endsWord c && !"'".toList.contains c

/-- The word of a here-string from inside or outside double quotes on.  There is none when
a quote is missing, and none either when the word needs a substitution or has a single
quote outside double quotes. -/
def hereWord : Bool → List Char → Option (List Char)
  | quoted, [] => if quoted then none else some []
  | quoted, c :: rest =>
      if c = '"' then hereWord (!quoted) rest
      else if substitutes c then none
      else if quoted then (hereWord quoted rest).map (c :: ·)
      else if endsWord c then some []
      else if "'".toList.contains c then none
      else (hereWord quoted rest).map (c :: ·)

/-- The operator in front of a here-string. -/
def hereOperator : List Char := ['<', '<', '<']

/-- What a command gets from its here-string: the word and a line feed. -/
def hereString (command : List Char) : Option (List Char) := do
  let rest ← (occurrences hereOperator command).head?
  let word ← hereWord false (trimStartMatches [' ', '\t'].contains rest)
  some (word ++ ['\n'])

/-- A command with a body in a quoted here-string. -/
def quotedHereString (command body : List Char) : List Char :=
  command ++ hereOperator ++ [' ', '"'] ++ body ++ ['"']

/-! ## Scanning a quoted text -/

theorem plain_iff {text : List Char} : Plain text ↔ ∀ c ∈ text, literal c = true :=
  List.all_eq_true

theorem Plain.append {x y : List Char} (hx : Plain x) (hy : Plain y) : Plain (x ++ y) := by
  rw [Plain, List.all_append, hx, hy]
  rfl

/-- Inside quotes a plain text is taken as it is. -/
theorem hereWord_plain {text : List Char} (htext : Plain text) (l : List Char) :
    hereWord true (text ++ l) = (hereWord true l).map (text ++ ·) := by
  induction text with
  | nil => simp
  | cons c text ih =>
      rw [plain_iff, List.forall_mem_cons, ← plain_iff] at htext
      obtain ⟨hquote, hsubst⟩ : c ≠ '"' ∧ substitutes c = false := by
        simpa [literal] using htext.1
      rw [List.cons_append, hereWord, if_neg hquote, hsubst, if_neg Bool.false_ne_true,
        if_pos rfl, ih htext.2, Option.map_map]
      rfl

/-- Outside quotes bare symbols are. -/
theorem hereWord_bare {text : List Char} (htext : ∀ c ∈ text, bare c = true) (l : List Char) :
    hereWord false (text ++ l) = (hereWord false l).map (text ++ ·) := by
  induction text with
  | nil => simp
  | cons c text ih =>
      rw [List.forall_mem_cons] at htext
      obtain ⟨⟨⟨hquote, hsubst⟩, hend⟩, hsingle⟩ :
          ((c ≠ '"' ∧ substitutes c = false) ∧ endsWord c = false) ∧
            "'".toList.contains c = false := by
        simpa only [bare, literal, Bool.and_eq_true, bne_iff_ne, Bool.not_eq_true'] using htext.1
      rw [List.cons_append, hereWord, if_neg hquote, hsubst, hend, hsingle,
        if_neg Bool.false_ne_true, if_neg Bool.false_ne_true, if_neg Bool.false_ne_true,
        if_neg Bool.false_ne_true, ih htext.2, Option.map_map]
      rfl

/-- No double quote of the text arrives. -/
theorem quote_notMem_hereWord {quoted : Bool} {l word : List Char}
    (hword : hereWord quoted l = some word) : '"' ∉ word := by
  induction l generalizing quoted word with
  | nil =>
      rw [hereWord] at hword
      split_ifs at hword
      cases hword
      exact List.not_mem_nil
  | cons c l ih =>
      rw [hereWord] at hword
      split_ifs at hword with hquote hsubst hquoted hend hsingle
      · exact ih hword
      · obtain ⟨word', hword', rfl⟩ := Option.map_eq_some_iff.mp hword
        simpa [Ne.symm hquote] using ih hword'
      · cases hword
        exact List.not_mem_nil
      · obtain ⟨word', hword', rfl⟩ := Option.map_eq_some_iff.mp hword
        simpa [Ne.symm hquote] using ih hword'

/-! ## From one shell to the other -/

/-- The second shell scans the body and the closing quote. -/
theorem hereString_quoted {command : List Char} (hcommand : '<' ∉ command) (body : List Char) :
    hereString (quotedHereString command body) =
      (hereWord true (body ++ ['"'])).map (· ++ ['\n']) := by
  have htext : quotedHereString command body =
      command ++ (hereOperator ++ ' ' :: '"' :: (body ++ ['"'])) := by
    simp [quotedHereString]
  have hfront : occurrences hereOperator (quotedHereString command body) =
      occurrences hereOperator (hereOperator ++ ' ' :: '"' :: (body ++ ['"'])) := by
    rw [htext]
    exact occurrences_front hcommand _
  have hfirst : (occurrences hereOperator (quotedHereString command body)).head? =
      some (' ' :: '"' :: (body ++ ['"'])) := by
    rw [hfront, occurrences_append (by decide), List.head?_cons]
  rw [hereString, hfirst]
  cases hword : hereWord true (body ++ ['"']) <;>
    simp [trimStartMatches, List.dropWhile, hereWord, hword]

/-- A front that ends in another symbol than a line feed is kept. -/
theorem commandSubst_front {a : Char} (ha : a ≠ '\n') (front l : List Char) :
    commandSubst (front ++ [a] ++ l) = front ++ [a] ++ commandSubst l := by
  have hlast : (a == '\n') = false := by simpa using ha
  exact @trimEndMatches_front _ (· == '\n') front a hlast l

/-- A text ends with exactly one line feed. -/
def Terminated (text : List Char) : Prop :=
  ∃ front a, text = front ++ [a] ++ ['\n'] ∧ a ≠ '\n'

theorem Terminated.append {text : List Char} (htext : Terminated text) (front : List Char) :
    Terminated (front ++ text) := by
  obtain ⟨text, a, rfl, ha⟩ := htext
  exact ⟨front ++ text, a, by simp, ha⟩

theorem plain_flatten {lines : List (List Char)} (hlines : ∀ line ∈ lines, Plain line) :
    Plain lines.flatten := by
  rw [plain_iff]
  intro c hc
  obtain ⟨line, hline, hmem⟩ := List.mem_flatten.mp hc
  exact plain_iff.mp (hlines line hline) c hmem

theorem heredoc_plain {lines : List (List Char)} (hlines : ∀ line ∈ lines, Plain line) :
    Plain (heredoc lines) := by
  rw [heredoc, List.flatMap_def]
  refine plain_flatten (List.forall_mem_map.mpr fun line hline => ?_)
  exact (hlines line hline).append (by decide)

theorem heredoc_terminated (lines : List (List Char)) {line : List Char} (hne : line ≠ [])
    (hline : '\n' ∉ line) : Terminated (heredoc (lines ++ [line])) := by
  refine ⟨heredoc lines ++ line.dropLast, line.getLast hne, ?_, ?_⟩
  · have hlast : line.dropLast ++ [line.getLast hne] = line := List.dropLast_append_getLast hne
    simp [heredoc, hlast]
  · exact fun h => hline (h ▸ List.getLast_mem hne)

/-- A plain text arrives unchanged when it ends with exactly one line feed. -/
theorem hereString_plain {command text : List Char} (hcommand : '<' ∉ command)
    (hterminated : Terminated text) (htext : Plain text) :
    hereString (quotedHereString command (commandSubst text)) = some text := by
  obtain ⟨front, a, rfl, ha⟩ := hterminated
  have hbody : Plain (front ++ [a]) :=
    plain_iff.mpr fun c hc => plain_iff.mp htext c (List.mem_append_left _ hc)
  have hnewline : commandSubst ['\n'] = [] := by decide
  rw [hereString_quoted hcommand, commandSubst_front ha, hnewline, List.append_nil,
    hereWord_plain hbody]
  simp [hereWord]

/-- No double quote of a text arrives. -/
theorem quote_notMem_hereString {command body input : List Char} (hcommand : '<' ∉ command)
    (hinput : hereString (quotedHereString command body) = some input) : '"' ∉ input := by
  rw [hereString_quoted hcommand] at hinput
  obtain ⟨word, hword, rfl⟩ := Option.map_eq_some_iff.mp hinput
  simpa using quote_notMem_hereWord hword

/-- A text with a double quote ends at the first blank behind it. -/
theorem hereString_cut {command front word : List Char} (hcommand : '<' ∉ command)
    (hfront : Plain front) (hword : ∀ c ∈ word, bare c = true) (rest : List Char) :
    hereString (quotedHereString command
        (commandSubst (front ++ '"' :: (word ++ ' ' :: rest)))) =
      some (front ++ word ++ ['\n']) := by
  have htext : front ++ '"' :: (word ++ ' ' :: rest) =
      front ++ '"' :: word ++ [' '] ++ rest := by simp
  have hbody : commandSubst (front ++ '"' :: (word ++ ' ' :: rest)) ++ ['"'] =
      front ++ '"' :: (word ++ ' ' :: (commandSubst rest ++ ['"'])) := by
    rw [htext, commandSubst_front (by decide)]
    simp
  have hend : hereWord false (' ' :: (commandSubst rest ++ ['"'])) = some [] := by
    simp [hereWord, substitutes, endsWord]
  rw [hereString_quoted hcommand, hbody, hereWord_plain hfront, hereWord, if_pos rfl,
    Bool.not_true, hereWord_bare hword, hend]
  simp

end Shell
end Foundation
