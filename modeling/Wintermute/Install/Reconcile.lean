import Wintermute.Install.Convention

/-!
# The installer's stream edit

The installer reconciles a unit file with three anchored substitutions of a stream
editor instead of the library's rewriter.  A dot in the third expression is not
escaped, and the three know fewer directories than the rewriter and do not look at
the name that follows.

Main results:

- Theorem {lit}`sedScript_value`: the script puts the fleet directory in place of the
  first pattern a value starts with.
- Theorem {lit}`reconcileUnitFile_eq_rewrite_iff`: installer and library leave the same
  text exactly when every {lit}`ExecStart=` value is reconcilable.
- Theorem {lit}`reconcileUnitFile_ne_rewrite`: a stale absolute home path is rewritten by
  the library alone.
-/

namespace Wintermute

open Foundation

/-! ## Anchored substitutions -/

/-- Character set of the environment the editor runs in. -/
inductive Locale where
  | utf8
  | singleByte
deriving DecidableEq, Repr

/-- The characters a dot matches whole: in a single-byte locale the one-byte ones. -/
def Locale.dot : Locale → Char → Bool
  | .utf8, _ => true
  | .singleByte, c => c.toNat < 128

/-- One symbol of an expression. -/
inductive Atom where
  | char (c : Char)
  | dot
deriving DecidableEq, Repr

def Atom.matches (locale : Locale) : Atom → Char → Bool
  | .char c, d => c == d
  | .dot, d => locale.dot d

/-- Match the atoms at the start of a line and give what follows. -/
def matchAtoms (locale : Locale) : List Atom → Str → Option Str
  | [], rest => some rest
  | _ :: _, [] => none
  | a :: atoms, c :: cs => if a.matches locale c then matchAtoms locale atoms cs else none

/-- An expression that matches a text literally. -/
def literally (text : Str) : List Atom :=
  text.map Atom.char

/-- A command {lit}`s|^anchor\([^ ]*\)|replacement\1|`. -/
structure Substitution where
  anchor : List Atom
  replacement : Str

/-- Substitute once; the group runs up to the first space. -/
def Substitution.apply (locale : Locale) (s : Substitution) (line : Str) : Str :=
  match matchAtoms locale s.anchor line with
  | none => line
  | some rest => s.replacement ++ rest.takeWhile (· != ' ') ++ rest.dropWhile (· != ' ')

/-! ## The script -/

def fleetExecStart : Str := "ExecStart=%h/.local/bin/".toList

/-- The three commands, in order. -/
def sedCommands : List Substitution :=
  [{ anchor := literally "ExecStart=/usr/local/bin/".toList
     replacement := fleetExecStart },
   { anchor := literally "ExecStart=%h/.cargo/bin/".toList
     replacement := fleetExecStart },
   { anchor := literally "ExecStart=~/".toList ++ Atom.dot :: literally "cargo/bin/".toList
     replacement := fleetExecStart }]

/-- Every command works on the result of the one before. -/
def sedScript (locale : Locale) (line : Str) : Str :=
  sedCommands.foldl (fun line s => s.apply locale line) line

/-- The text left in a unit file: a missing file stays missing, a dry run changes
nothing, and otherwise the script runs on every line. -/
def reconcileUnitFile (locale : Locale) (dryRun : Bool) : Option Str → Option Str
  | none => none
  | some text => some (if dryRun then text else mapSegments '\n' (sedScript locale) text)

/-! ## The script on one line -/

/-- What a substitution leaves: the replacement and what follows the anchor. -/
theorem Substitution.apply_eq (locale : Locale) (s : Substitution) (line : Str) :
    s.apply locale line = (matchAtoms locale s.anchor line).elim line (s.replacement ++ ·) := by
  rw [Substitution.apply]
  cases matchAtoms locale s.anchor line with
  | none => rfl
  | some rest =>
      simp only [Option.elim_some, List.append_assoc, List.takeWhile_append_dropWhile]

/-- A literal front is stripped. -/
theorem matchAtoms_literally (locale : Locale) (text : Str) (atoms : List Atom) (line : Str) :
    matchAtoms locale (literally text ++ atoms) line =
      (stripPrefix text line).bind (matchAtoms locale atoms) := by
  induction text generalizing line with
  | nil =>
      rw [stripPrefix_eq_some_iff.mpr (List.nil_append line).symm]
      rfl
  | cons c text ih =>
      cases line with
      | nil => rfl
      | cons d line =>
          have hatom : (Atom.char c).matches locale d = (c == d) := rfl
          rw [literally, List.map_cons, List.cons_append, matchAtoms, hatom, ← literally, ih]
          by_cases hcd : c = d
          · simp [hcd, stripPrefix, List.dropPrefix?]
          · simp [hcd, Ne.symm hcd, stripPrefix, List.dropPrefix?]

/-- What the commands look for behind the key. -/
def installerPatterns : List (List Atom) :=
  [literally "/usr/local/bin/".toList, literally "%h/.cargo/bin/".toList,
    literally "~/".toList ++ Atom.dot :: literally "cargo/bin/".toList]

/-- The command for one pattern. -/
def moveToFleet (pattern : List Atom) : Substitution where
  anchor := literally execStart ++ pattern
  replacement := fleetExecStart

theorem sedCommands_eq : sedCommands = installerPatterns.map moveToFleet := rfl

/-- A command leaves lines with another key alone. -/
theorem moveToFleet_apply_of_other (locale : Locale) (pattern : List Atom) {line : Str}
    (hline : ¬ execStart <+: line) : (moveToFleet pattern).apply locale line = line := by
  rw [Substitution.apply_eq, moveToFleet, matchAtoms_literally,
    stripPrefix_eq_none_iff.mpr hline]
  rfl

/-- A command replaces its pattern by the fleet directory. -/
theorem moveToFleet_apply (locale : Locale) (pattern : List Atom) (value : Str) :
    (moveToFleet pattern).apply locale (execStart ++ value) =
      execStart ++ (matchAtoms locale pattern value).elim value (fleetDir ++ ·) := by
  rw [Substitution.apply_eq, moveToFleet, matchAtoms_literally, stripPrefix_append,
    Option.bind_some]
  cases matchAtoms locale pattern value with
  | none => rfl
  | some rest => rfl

/-- No command looks for the fleet directory. -/
theorem matchAtoms_fleetDir (locale : Locale) :
    ∀ pattern ∈ installerPatterns, ∀ rest, matchAtoms locale pattern (fleetDir ++ rest) = none := by
  intro pattern hpattern rest
  simp only [installerPatterns, List.mem_cons, List.not_mem_nil, or_false] at hpattern
  rcases hpattern with rfl | rfl | rfl <;> rfl

/-- Commands that do not look for the fleet directory act like the first one that
matches. -/
theorem foldl_moveToFleet (locale : Locale) (patterns : List (List Atom))
    (hfleet : ∀ pattern ∈ patterns, ∀ rest, matchAtoms locale pattern (fleetDir ++ rest) = none)
    (value : Str) :
    (patterns.map moveToFleet).foldl (fun line s => s.apply locale line) (execStart ++ value) =
      execStart ++ (patterns.findSome? (matchAtoms locale · value)).elim value (fleetDir ++ ·) := by
  induction patterns generalizing value with
  | nil => rfl
  | cons pattern patterns ih =>
      rw [List.forall_mem_cons] at hfleet
      rw [List.map_cons, List.foldl_cons, moveToFleet_apply, ih hfleet.2, List.findSome?_cons]
      cases matchAtoms locale pattern value with
      | none => rfl
      | some rest =>
          have hnone : patterns.findSome? (matchAtoms locale · (fleetDir ++ rest)) = none :=
            List.findSome?_eq_none_iff.mpr fun p hp => hfleet.2 p hp rest
          rw [Option.elim_some, hnone]
          rfl

/-- What follows the first pattern that a value starts with. -/
def installerRest (locale : Locale) (value : Str) : Option Str :=
  installerPatterns.findSome? (matchAtoms locale · value)

/-- The script puts the fleet directory in place of the first pattern that a value
starts with. -/
theorem sedScript_value (locale : Locale) (value : Str) :
    sedScript locale (execStart ++ value) =
      execStart ++ (installerRest locale value).elim value (fleetDir ++ ·) := by
  rw [sedScript, sedCommands_eq, foldl_moveToFleet locale _ (matchAtoms_fleetDir locale),
    installerRest]

/-- The script leaves lines with another key alone. -/
theorem sedScript_of_other (locale : Locale) {line : Str} (hline : ¬ execStart <+: line) :
    sedScript locale line = line := by
  rw [sedScript, sedCommands_eq]
  induction installerPatterns with
  | nil => rfl
  | cons pattern patterns ih =>
      rw [List.map_cons, List.foldl_cons, moveToFleet_apply_of_other locale pattern hline, ih]

/-! ## Agreement with the library -/

/-- The directories that the installer means to move. -/
def movedDirs : List Str :=
  ["/usr/local/bin/".toList, "%h/.cargo/bin/".toList, "~/.cargo/bin/".toList]

/-- A value that a command of the script matches; the third accepts any character in
place of the dot. -/
def StartsStale (locale : Locale) (value : Str) : Prop :=
  "/usr/local/bin/".toList <+: value ∨ "%h/.cargo/bin/".toList <+: value ∨
    ∃ c, locale.dot c = true ∧ "~/".toList ++ c :: "cargo/bin/".toList <+: value

/-- A value that installer and library rewrite alike: a binary name right under a
moved directory or the fleet directory, not followed by one space alone, or a value
that neither of them touches. -/
def Reconcilable (locale : Locale) (value : Str) : Prop :=
  (∃ dir ∈ fleetDir :: movedDirs, ∃ name, BinaryName name ∧
    beforeFirst ' ' value = dir ++ name ∧ value ≠ dir ++ name ++ [' ']) ∨
  (¬ StartsStale locale value ∧ ∀ name, ¬ Names value name)

theorem matchAtoms_literal (locale : Locale) (text line : Str) :
    matchAtoms locale (literally text) line = stripPrefix text line := by
  rw [← List.append_nil (literally text), matchAtoms_literally]
  cases stripPrefix text line with
  | none => rfl
  | some rest => rfl

theorem noSpace_of_mem_movedDirs {dir : Str} (hdir : dir ∈ movedDirs) : ' ' ∉ dir := by
  revert dir
  decide

/-- The script replaces the directories it means to move. -/
theorem installerRest_moved (locale : Locale) {dir : Str} (hdir : dir ∈ movedDirs) (rest : Str) :
    installerRest locale (dir ++ rest) = some rest := by
  simp only [movedDirs, List.mem_cons, List.not_mem_nil, or_false] at hdir
  rcases hdir with rfl | rfl | rfl
  · rfl
  · rfl
  · cases locale <;> rfl

/-- The third pattern matches any character in place of the dot. -/
theorem matchAtoms_dot_iff {locale : Locale} {front text value rest : Str} :
    matchAtoms locale (literally front ++ Atom.dot :: literally text) value = some rest ↔
      ∃ c, locale.dot c = true ∧ value = front ++ c :: text ++ rest := by
  rw [matchAtoms_literally, Option.bind_eq_some_iff]
  simp only [stripPrefix_eq_some_iff]
  constructor
  · rintro ⟨_ | ⟨c, tail⟩, rfl, hmatch⟩
    · cases hmatch
    · rw [matchAtoms, matchAtoms_literal] at hmatch
      split_ifs at hmatch with hdot
      refine ⟨c, hdot, ?_⟩
      rw [stripPrefix_eq_some_iff.mp hmatch, List.append_assoc, List.cons_append]
  · rintro ⟨c, hdot, rfl⟩
    refine ⟨c :: text ++ rest, List.append_assoc _ _ _, ?_⟩
    have hatom : Atom.dot.matches locale c = true := hdot
    rw [List.cons_append, matchAtoms, if_pos hatom, matchAtoms_literal, stripPrefix_append]

/-- A value starts with a pattern exactly when the script replaces something. -/
theorem startsStale_iff {locale : Locale} {value : Str} :
    StartsStale locale value ↔ ∃ rest, installerRest locale value = some rest := by
  constructor
  · rintro (⟨rest, rfl⟩ | ⟨rest, rfl⟩ | ⟨c, hdot, rest, rfl⟩)
    · exact ⟨rest, installerRest_moved locale (by decide) rest⟩
    · exact ⟨rest, installerRest_moved locale (by decide) rest⟩
    · have hmatch : matchAtoms locale
          (literally "~/".toList ++ Atom.dot :: literally "cargo/bin/".toList)
          ("~/".toList ++ c :: "cargo/bin/".toList ++ rest) = some rest :=
        matchAtoms_dot_iff.mpr ⟨c, hdot, rfl⟩
      refine ⟨rest, ?_⟩
      rw [installerRest, installerPatterns, List.findSome?_cons_of_isNone rfl,
        List.findSome?_cons_of_isNone rfl, List.findSome?_cons_of_isSome (by rw [hmatch]; rfl),
        hmatch]
  · rintro ⟨rest, hrest⟩
    obtain ⟨pattern, hpattern, hmatch⟩ := List.exists_of_findSome?_eq_some hrest
    simp only [installerPatterns, List.mem_cons, List.not_mem_nil, or_false] at hpattern
    rcases hpattern with rfl | rfl | rfl
    · rw [matchAtoms_literal, stripPrefix_eq_some_iff] at hmatch
      exact Or.inl ⟨rest, hmatch.symm⟩
    · rw [matchAtoms_literal, stripPrefix_eq_some_iff] at hmatch
      exact Or.inr (Or.inl ⟨rest, hmatch.symm⟩)
    · obtain ⟨c, hdot, hvalue⟩ := matchAtoms_dot_iff.mp hmatch
      exact Or.inr (Or.inr ⟨c, hdot, rest, hvalue.symm⟩)

theorem accepted_of_mem_targets {dir : Str} (hdir : dir ∈ fleetDir :: movedDirs) :
    AcceptedDir dir := by
  refine accepted_of_mem_knownPrefixes ?_
  revert dir
  decide

/-- A directory with another character in place of the dot has no binary name. -/
theorem extractBinaryName_tilde {c : Char} (hc : c ≠ '.') (rest : Str) :
    extractBinaryName (beforeFirst ' ' ("~/".toList ++ c :: rest)) = none := by
  rw [beforeFirst_front (by decide)]
  by_cases hspace : c = ' '
  · rw [hspace, beforeFirst_self]
    rfl
  · rw [beforeFirst_cons hspace]
    simp [extractBinaryName, knownPrefixes, stripPrefix, List.dropPrefix?, hc,
      extractFromHomePrefix]

/-- What the library makes of a value. -/
def libraryValue (value : Str) : Str :=
  (extractBinaryName (beforeFirst ' ' value)).elim value
    fun name => fleetDir ++ name ++ spacedArgs (afterFirst ' ' value)

theorem rewriteExecStart_value (value : Str) :
    rewriteExecStart (execStart ++ value) = execStart ++ libraryValue value := by
  rw [libraryValue]
  cases hname : extractBinaryName (beforeFirst ' ' value) with
  | none => exact rewriteExecStart_of_none hname
  | some name => exact rewriteExecStart_of_name hname

/-- Under a moved directory both agree when a binary name follows, and not just one
space after it. -/
theorem agree_moved {dir rest : Str} (hdir : dir ∈ movedDirs) :
    fleetDir ++ rest = libraryValue (dir ++ rest) ↔
      BinaryName (beforeFirst ' ' rest) ∧ rest ≠ beforeFirst ' ' rest ++ [' '] := by
  have hspace := noSpace_of_mem_movedDirs hdir
  have hne : fleetDir ≠ dir := by
    revert dir
    decide
  rw [libraryValue, beforeFirst_front hspace, afterFirst_front hspace,
    extractBinaryName_append (accepted_of_mem_targets (List.mem_cons_of_mem _ hdir)),
    ← eq_spacedArgs_iff]
  split_ifs with hname
  · rw [Option.elim_some, List.append_assoc, List.append_right_inj]
    exact ⟨fun h => ⟨hname, h⟩, And.right⟩
  · rw [Option.elim_none, List.append_left_inj]
    exact ⟨fun h => absurd h hne, fun h => absurd h.1 hname⟩

/-- Under a moved directory the same makes a value reconcilable. -/
theorem reconcilable_moved {locale : Locale} {dir rest : Str} (hdir : dir ∈ movedDirs) :
    Reconcilable locale (dir ++ rest) ↔
      BinaryName (beforeFirst ' ' rest) ∧ rest ≠ beforeFirst ' ' rest ++ [' '] := by
  have hspace := noSpace_of_mem_movedDirs hdir
  have htarget : dir ∈ fleetDir :: movedDirs := List.mem_cons_of_mem _ hdir
  have hword := beforeFirst_front hspace rest
  have hne : dir ++ rest ≠ beforeFirst ' ' (dir ++ rest) ++ [' '] ↔
      rest ≠ beforeFirst ' ' rest ++ [' '] := by
    rw [hword, List.append_assoc, ne_eq, List.append_right_inj]
  rw [← hne]
  constructor
  · rintro (⟨dir', hdir', name, hname, hpath, hargs⟩ | ⟨hstale, -⟩)
    · have hread := extractBinaryName_append (accepted_of_mem_targets hdir') name
      rw [if_pos hname, ← hpath, hword,
        extractBinaryName_append (accepted_of_mem_targets htarget)] at hread
      split_ifs at hread with hbin
      exact ⟨hbin, hpath ▸ hargs⟩
    · exact absurd (startsStale_iff.mpr ⟨rest, installerRest_moved locale hdir rest⟩) hstale
  · rintro ⟨hname, hargs⟩
    exact Or.inl ⟨dir, htarget, _, hname, hword, hword ▸ hargs⟩

/-- A value that the script replaces and that has no binary name is not reconcilable. -/
theorem not_reconcilable {locale : Locale} {value : Str} (hstale : StartsStale locale value)
    (hnone : extractBinaryName (beforeFirst ' ' value) = none) :
    ¬ Reconcilable locale value := by
  rintro (⟨dir, hdir, name, hname, hpath, -⟩ | ⟨hnot, -⟩)
  · rw [hpath, extractBinaryName_append (accepted_of_mem_targets hdir), if_pos hname] at hnone
    cases hnone
  · exact hnot hstale

/-- A value that the script leaves alone is left alone by the library, too, when its
binary is in the fleet directory or has no name. -/
theorem eq_libraryValue_iff {locale : Locale} {value : Str} (hstale : ¬ StartsStale locale value) :
    value = libraryValue value ↔ Reconcilable locale value := by
  rw [libraryValue]
  cases hread : extractBinaryName (beforeFirst ' ' value) with
  | none =>
      refine iff_of_true rfl (Or.inr ⟨hstale, fun name hnames => ?_⟩)
      rw [names_iff, hread] at hnames
      cases hnames
  | some name =>
      rw [Option.elim_some]
      constructor
      · intro hvalue
        have hword := (words_spacedArgs (noSpace_of_extract hread) (afterFirst ' ' value)).1
        rw [← hvalue] at hword
        obtain ⟨-, -, -, hname⟩ := extractBinaryName_eq_some_iff.mp hread
        have hargs := (eq_spacedArgs_iff value).mp (hword.symm ▸ hvalue)
        exact Or.inl ⟨fleetDir, List.mem_cons_self, name, hname, hword, hword ▸ hargs⟩
      · rintro (⟨dir, hdir, name', hname, hpath, hargs⟩ | ⟨-, hnot⟩)
        · rcases List.mem_cons.mp hdir with rfl | hmoved
          · rw [hpath, extractBinaryName_append fleetDir_accepted, if_pos hname,
              Option.some.injEq] at hread
            rw [← hread, ← hpath]
            exact (eq_spacedArgs_iff value).mpr (hpath ▸ hargs)
          · obtain ⟨rest, hrest⟩ := beforeFirst_isPrefix ' ' value
            rw [hpath, List.append_assoc] at hrest
            have hmatch := installerRest_moved locale hmoved (name' ++ rest)
            rw [hrest] at hmatch
            exact absurd (startsStale_iff.mpr ⟨_, hmatch⟩) hstale
        · exact absurd (names_iff.mpr hread) (hnot name)

/-- On one value installer and library agree exactly when it is reconcilable. -/
theorem sedScript_eq_rewrite_iff (locale : Locale) (value : Str) :
    sedScript locale (execStart ++ value) = rewriteExecStart (execStart ++ value) ↔
      Reconcilable locale value := by
  rw [sedScript_value, rewriteExecStart_value, List.append_right_inj]
  by_cases hstale : StartsStale locale value
  · have hmoved : ∀ dir ∈ movedDirs, ∀ rest, value = dir ++ rest →
        ((installerRest locale value).elim value (fleetDir ++ ·) = libraryValue value ↔
          Reconcilable locale value) := by
      rintro dir hdir rest rfl
      rw [installerRest_moved locale hdir, Option.elim_some, agree_moved hdir,
        reconcilable_moved hdir]
    obtain ⟨moved, hmatch⟩ := startsStale_iff.mp hstale
    have hall := hstale
    rcases hall with ⟨rest, rfl⟩ | ⟨rest, rfl⟩ | ⟨c, hdot, rest, rfl⟩
    · exact hmoved _ (by decide) rest rfl
    · exact hmoved _ (by decide) rest rfl
    · by_cases hc : c = '.'
      · exact hmoved "~/.cargo/bin/".toList (by decide) rest (by rw [hc]; rfl)
      · -- the unescaped dot: the script replaces what the library does not know
        have hnone := extractBinaryName_tilde hc ("cargo/bin/".toList ++ rest)
        rw [← List.cons_append, ← List.append_assoc] at hnone
        rw [hmatch, Option.elim_some, libraryValue, hnone]
        refine iff_of_false (fun heq => ?_) (not_reconcilable hstale hnone)
        have hhead : some '%' = some '~' := congrArg List.head? heq
        exact absurd hhead (by decide)
  · have hnone : installerRest locale value = none := by
      rw [startsStale_iff, not_exists] at hstale
      exact Option.eq_none_iff_forall_ne_some.mpr hstale
    rw [hnone, Option.elim_none]
    exact eq_libraryValue_iff hstale

/-! ## Agreement on a unit file -/

theorem matchAtoms_isSuffix {locale : Locale} {atoms : List Atom} {line rest : Str}
    (hmatch : matchAtoms locale atoms line = some rest) : rest <:+ line := by
  induction atoms generalizing line with
  | nil =>
      cases hmatch
      exact List.suffix_rfl
  | cons a atoms ih =>
      cases line with
      | nil => cases hmatch
      | cons c cs =>
          rw [matchAtoms] at hmatch
          split_ifs at hmatch
          exact (ih hmatch).trans (List.suffix_cons c cs)

/-- The script introduces no symbol that the key and the fleet directory lack. -/
theorem notMem_sedScript {locale : Locale} {c : Char} (hkey : c ∉ execStart ++ fleetDir)
    {line : Str} (hline : c ∉ line) : c ∉ sedScript locale line := by
  rcases stripPrefix_cases execStart line with ⟨value, rfl⟩ | hother
  · rw [List.mem_append, not_or] at hkey hline
    rw [sedScript_value, List.mem_append, not_or]
    refine ⟨hkey.1, ?_⟩
    cases hrest : installerRest locale value with
    | none => exact hline.2
    | some rest =>
        obtain ⟨pattern, -, hmatch⟩ := List.exists_of_findSome?_eq_some hrest
        rw [Option.elim_some, List.mem_append, not_or]
        exact ⟨hkey.2, fun hmem => hline.2 ((matchAtoms_isSuffix hmatch).mem hmem)⟩
  · rwa [sedScript_of_other locale (stripPrefix_eq_none_iff.mp hother)]

/-- Installer and library leave the same text in a unit file without carriage returns
exactly when every {lit}`ExecStart=` value in it is reconcilable. -/
theorem reconcileUnitFile_eq_rewrite_iff (locale : Locale) (text : Str) (hcr : '\r' ∉ text) :
    reconcileUnitFile locale false (some text) = some (rewriteUnitExecStarts text) ↔
      ∀ value, execStart ++ value ∈ lines text → Reconcilable locale value := by
  have hsed : ∀ line ∈ segments '\n' text, '\n' ∉ sedScript locale line :=
    fun _ hline => notMem_sedScript (by decide) (notMem_of_mem_segments hline)
  rw [reconcileUnitFile, if_neg Bool.false_ne_true, Option.some.injEq,
    rewriteUnitExecStarts_eq hcr, mapSegments_eq_iff hsed newline_notMem_rewriteExecStart,
    lines_of_noCr hcr]
  constructor
  · intro hagree value hvalue
    exact (sedScript_eq_rewrite_iff locale value).mp (hagree _ hvalue)
  · intro hvalues line hline
    rcases stripPrefix_cases execStart line with ⟨value, rfl⟩ | hother
    · exact (sedScript_eq_rewrite_iff locale value).mpr (hvalues value hline)
    · have hkey := stripPrefix_eq_none_iff.mp hother
      rw [sedScript_of_other locale hkey, rewriteExecStart_of_other hkey]

/-- A unit file of the audio service under the old convention. -/
def cargoUnit : Str :=
  "[Service]\nExecStart=%h/.cargo/bin/wm-audio start\n".toList

theorem reconcileUnitFile_eq_rewrite_iff_cargoUnit :
    reconcileUnitFile .singleByte false (some cargoUnit) =
        some (rewriteUnitExecStarts cargoUnit) ∧
      Reconcilable .singleByte "%h/.cargo/bin/wm-audio start".toList := by
  have hsame : reconcileUnitFile .singleByte false (some cargoUnit) =
      some (rewriteUnitExecStarts cargoUnit) := by
    decide
  refine ⟨hsame, ?_⟩
  exact (reconcileUnitFile_eq_rewrite_iff .singleByte cargoUnit (by decide)).mp hsame _ (by decide)

/-- A unit file with a stale absolute home path. -/
def staleHomeUnit : Str :=
  "[Service]\nExecStart=/home/jsy/.cargo/bin/wm-tts start\n".toList

/-- The installer leaves a stale absolute home path that the library rewrites. -/
theorem reconcileUnitFile_ne_rewrite :
    '\r' ∉ staleHomeUnit ∧ terminated '\n' staleHomeUnit = true ∧
    reconcileUnitFile .utf8 false (some staleHomeUnit) ≠
      some (rewriteUnitExecStarts staleHomeUnit) := by
  decide

end Wintermute
