import Wintermute.Text
import Wintermute.Watchdog.Engine
import Mathlib.Data.Char
import Mathlib.Data.List.Lex
import Mathlib.Data.List.Sort

/-!
# Which units the doctor looks at

The doctor asks the service manager twice for each of three name patterns and sorts the
names it finds.  The watchdog decides by the name alone which units it resets and
starts.  With a service manager that prints the known units of a pattern, the doctor
finds exactly those that match one of its patterns; it covers the watchdog's scope when
no unit of the fleet has another name.

Main results:

- Theorem {lit}`mem_discoverUnits_iff`: the doctor finds the known units that match a
  pattern.
- Theorem {lit}`discoverUnits_sorted`: its list is strictly sorted, whatever the commands
  print.
- Theorem {lit}`discoverUnits_covers_iff`: when the list covers the watchdog's scope.
-/

namespace Wintermute

open Foundation Watchdog

/-! ## Name patterns -/

/-- A name matches a pattern whose star stands for any characters. -/
def globMatches : Str → Str → Bool
  | [], name => name.isEmpty
  | c :: pattern, name =>
      if c = '*' then name.tails.any (globMatches pattern)
      else name.head? == some c && globMatches pattern name.tail

/-- A pattern without star matches itself. -/
theorem globMatches_literal {pattern : Str} (hpattern : '*' ∉ pattern) (name : Str) :
    globMatches pattern name = true ↔ name = pattern := by
  induction pattern generalizing name with
  | nil => simp [globMatches]
  | cons c pattern ih =>
      rw [List.mem_cons, not_or] at hpattern
      rw [globMatches, if_neg (Ne.symm hpattern.1)]
      cases name with
      | nil => simp
      | cons d rest =>
          simp [ih hpattern.2]

/-- A pattern with one star fixes the front and the back of a name. -/
theorem globMatches_star {front back : Str} (hfront : '*' ∉ front) (hback : '*' ∉ back)
    (name : Str) :
    globMatches (front ++ '*' :: back) name = true ↔
      ∃ middle, name = front ++ (middle ++ back) := by
  induction front generalizing name with
  | nil =>
      rw [List.nil_append, globMatches, if_pos rfl]
      simp only [List.any_eq_true, List.mem_tails, globMatches_literal hback, exists_eq_right,
        List.nil_append]
      exact ⟨fun ⟨middle, h⟩ => ⟨middle, h.symm⟩, fun ⟨middle, h⟩ => ⟨middle, h.symm⟩⟩
  | cons c front ih =>
      rw [List.mem_cons, not_or] at hfront
      rw [List.cons_append, globMatches, if_neg (Ne.symm hfront.1)]
      cases name with
      | nil => simp
      | cons d rest =>
          simp [ih hfront.2]

/-! ## Discovery -/

/-- Runs a command with its arguments; answers its output and whether it succeeded. -/
abbrev CmdRunner (σ : Type) := Str → List Str → σ → (Str × Bool) × σ

/-- The ending of a service's name. -/
def serviceSuffix : Str := ".service".toList

/-- Patterns the doctor cares about. -/
def patterns : List Str :=
  ["wm-*.service".toList, "wmd.service".toList, "wmd-init.service".toList]

/-- Add the service named on one line, unless it is there already. -/
def addUnit (units : List Str) (line : Str) : List Str :=
  let name := (firstWord isWhitespace line).getD []
  if !name.isEmpty && serviceSuffix.isSuffixOf name && !units.contains name then
    units ++ [name]
  else units

/-- Add the services of a listing. -/
def addListed (units : List Str) (out : Str) : List Str :=
  (lines out).foldl addUnit units

/-- The arguments that list the unit files of a pattern. -/
def listUnitFiles (scopeFlag pattern : Str) : List Str :=
  [scopeFlag, "list-unit-files".toList, "--plain".toList, "--no-legend".toList, pattern]

/-- The arguments that list the loaded units of a pattern. -/
def listUnits (scopeFlag pattern : Str) : List Str :=
  [scopeFlag, "list-units".toList, "--plain".toList, "--no-legend".toList, "--all".toList,
    pattern]

section Discovery

variable {σ : Type}

/-- Add the services of both listings of one pattern. -/
def discoverPattern (run : CmdRunner σ) (scopeFlag : Str) (acc : List Str × σ) (pattern : Str) :
    List Str × σ :=
  let (units, s) := acc
  let ((out, _), s) := run "systemctl".toList (listUnitFiles scopeFlag pattern) s
  let units := addListed units out
  let ((out2, _), s) := run "systemctl".toList (listUnits scopeFlag pattern) s
  (addListed units out2, s)

/-- The sorted names of the units the doctor looks at. -/
def discoverUnits (run : CmdRunner σ) (scopeFlag : Str) (s : σ) : List Str × σ :=
  let (units, s) := patterns.foldl (discoverPattern run scopeFlag) ([], s)
  (units.insertionSort (· ≤ ·), s)

/-! ## One listing -/

/-- A line names a service with its first word. -/
def NamesService (line name : Str) : Prop :=
  firstWord isWhitespace line = some name ∧ serviceSuffix <:+ name

/-- One line adds the service it names. -/
theorem mem_addUnit_iff {units : List Str} {line name : Str} :
    name ∈ addUnit units line ↔ name ∈ units ∨ NamesService line name := by
  rw [addUnit, NamesService]
  cases hword : firstWord isWhitespace line with
  | none => simp
  | some word =>
      have hne := (firstWord_spec hword).1
      simp only [Option.getD_some, Option.some.injEq, Bool.and_eq_true, Bool.not_eq_true',
        List.isEmpty_eq_false_iff, List.isSuffixOf_iff_suffix, List.contains_eq_mem,
        decide_eq_false_iff_not, ne_eq, hne, not_false_eq_true, true_and]
      split_ifs with hnew
      · rw [List.mem_append, List.mem_singleton]
        constructor
        · rintro (hmem | rfl)
          · exact Or.inl hmem
          · exact Or.inr ⟨rfl, hnew.1⟩
        · rintro (hmem | ⟨rfl, -⟩)
          · exact Or.inl hmem
          · exact Or.inr rfl
      · constructor
        · exact Or.inl
        · rintro (hmem | ⟨rfl, hsuffix⟩)
          · exact hmem
          · by_contra hmem
            exact hnew ⟨hsuffix, hmem⟩

/-- A listing adds the services its lines name. -/
theorem mem_addListed_iff {units : List Str} {out name : Str} :
    name ∈ addListed units out ↔ name ∈ units ∨ ∃ line ∈ lines out, NamesService line name := by
  rw [addListed]
  induction lines out generalizing units with
  | nil => simp
  | cons line rest ih =>
      simp only [List.foldl_cons, ih, mem_addUnit_iff, List.mem_cons, exists_eq_or_imp, or_assoc]

theorem nodup_addUnit {units : List Str} (hunits : units.Nodup) (line : Str) :
    (addUnit units line).Nodup := by
  rw [addUnit]
  split_ifs with hnew
  · simp only [Bool.and_eq_true, Bool.not_eq_true', List.contains_eq_mem,
      decide_eq_false_iff_not] at hnew
    rw [List.nodup_append]
    refine ⟨hunits, List.nodup_singleton _, fun a ha b hb heq => ?_⟩
    rw [List.mem_singleton] at hb
    exact hnew.2 (hb ▸ heq ▸ ha)
  · exact hunits

/-- A listing adds no name twice. -/
theorem nodup_addListed {units : List Str} (hunits : units.Nodup) (out : Str) :
    (addListed units out).Nodup := by
  rw [addListed]
  induction lines out generalizing units with
  | nil => exact hunits
  | cons line rest ih => exact ih (nodup_addUnit hunits line)

/-! ## The whole discovery -/

variable {run : CmdRunner σ} {scopeFlag : Str}

theorem nodup_discoverPatterns (ps : List Str) {units : List Str} (hunits : units.Nodup) (s : σ) :
    (ps.foldl (discoverPattern run scopeFlag) (units, s)).1.Nodup := by
  induction ps generalizing units s with
  | nil => exact hunits
  | cons pattern ps ih => exact ih (nodup_addListed (nodup_addListed hunits _) _) _

/-- The doctor's list is strictly sorted, whatever the commands print. -/
theorem discoverUnits_sorted (run : CmdRunner σ) (scopeFlag : Str) (s : σ) :
    (discoverUnits run scopeFlag s).1.Pairwise (· < ·) := by
  have hnodup : (discoverUnits run scopeFlag s).1.Nodup :=
    (List.perm_insertionSort (· ≤ ·) _).nodup_iff.mpr
      (nodup_discoverPatterns patterns List.nodup_nil s)
  have hsorted : (discoverUnits run scopeFlag s).1.Pairwise (· ≤ ·) :=
    List.pairwise_insertionSort (· ≤ ·) _
  exact (hsorted.and hnodup).imp fun h => lt_of_le_of_ne h.1 h.2

end Discovery

/-! ## What the service manager prints -/

/-- A unit's name: not empty and without white space. -/
structure UnitName where
  name : Str
  nonempty : name ≠ []
  noBlank : ∀ c ∈ name, isWhitespace c = false

/-- A line of a listing: the name of a unit, then its other columns. -/
structure Row where
  unit : UnitName
  columns : Str
  blank : ∀ c ∈ columns.head?, isWhitespace c = true
  oneLine : '\n' ∉ columns

/-- The line with its line feed. -/
def Row.text (row : Row) : Str :=
  row.unit.name ++ row.columns ++ ['\n']

/-- The output lists exactly the given units, name first on each line. -/
def Lists (out : Str) (units : Set UnitName) : Prop :=
  ∃ rows : List Row, out = rows.flatMap Row.text ∧ ∀ u, u ∈ units ↔ ∃ row ∈ rows, row.unit = u

/-- Both listings of a pattern print exactly the known units that match it. -/
structure KnowsUnits {σ : Type} (run : CmdRunner σ) (scopeFlag : Str) (known : Set UnitName) :
    Prop where
  unitFiles : ∀ pattern ∈ patterns, ∀ s,
    Lists (run "systemctl".toList (listUnitFiles scopeFlag pattern) s).1.1
      {u ∈ known | globMatches pattern u.name = true}
  loadedUnits : ∀ pattern ∈ patterns, ∀ s,
    Lists (run "systemctl".toList (listUnits scopeFlag pattern) s).1.1
      {u ∈ known | globMatches pattern u.name = true}

/-- The first word of a line with a carriage return at its end. -/
theorem firstWord_dropSeparator_cr (line : Str) :
    firstWord isWhitespace (dropSeparator '\r' line) = firstWord isWhitespace line := by
  rw [dropSeparator]
  split_ifs with hlast
  · obtain ⟨front, rfl⟩ := List.getLast?_eq_some_iff.mp hlast
    rw [List.dropLast_concat, firstWord_append_blank (List.forall_mem_singleton.mpr rfl)]
  · rfl

/-- The line of a row names its unit. -/
theorem firstWord_row (row : Row) :
    firstWord isWhitespace (row.unit.name ++ row.columns) = some row.unit.name :=
  firstWord_append row.unit.nonempty row.unit.noBlank row.blank

theorem newline_notMem_row (row : Row) : '\n' ∉ row.unit.name ++ row.columns := by
  rw [List.mem_append, not_or]
  refine ⟨fun hmem => ?_, row.oneLine⟩
  have hfalse := row.unit.noBlank '\n' hmem
  cases hfalse

/-- The lines of a listing name the services among its units. -/
theorem exists_line_iff {out name : Str} {units : Set UnitName} (hout : Lists out units) :
    (∃ line ∈ lines out, NamesService line name) ↔
      ∃ u ∈ units, u.name = name ∧ serviceSuffix <:+ name := by
  obtain ⟨rows, rfl, hrows⟩ := hout
  have hlines : (∃ line ∈ lines (rows.flatMap Row.text), NamesService line name) ↔
      ∃ row ∈ rows, row.unit.name = name ∧ serviceSuffix <:+ name := by
    clear hrows
    induction rows with
    | nil => simp [lines_eq_nil_iff.mpr rfl]
    | cons row rows ih =>
        have htext : (row :: rows).flatMap Row.text =
            (row.unit.name ++ row.columns) ++ '\n' :: rows.flatMap Row.text := by
          simp [Row.text]
        have hline : NamesService (dropSeparator '\r' (row.unit.name ++ row.columns)) name ↔
            row.unit.name = name ∧ serviceSuffix <:+ name := by
          rw [NamesService, firstWord_dropSeparator_cr, firstWord_row, Option.some.injEq]
        rw [htext, lines_cons (newline_notMem_row row)]
        simp only [List.mem_cons, exists_eq_or_imp, ih, hline]
  rw [hlines]
  simp only [hrows]
  constructor
  · rintro ⟨row, hrow, hname⟩
    exact ⟨row.unit, ⟨row, hrow, rfl⟩, hname⟩
  · rintro ⟨_, ⟨row, hrow, rfl⟩, hname⟩
    exact ⟨row, hrow, hname⟩

/-! ## The doctor's units -/

section Known

variable {σ : Type} {run : CmdRunner σ} {scopeFlag : Str} {known : Set UnitName}

/-- One pattern adds the known services that match it. -/
theorem mem_discoverPattern_iff (h : KnowsUnits run scopeFlag known) {pattern : Str}
    (hpattern : pattern ∈ patterns) (units : List Str) (s : σ) (name : Str) :
    name ∈ (discoverPattern run scopeFlag (units, s) pattern).1 ↔ name ∈ units ∨
      ∃ u ∈ known, globMatches pattern u.name = true ∧ u.name = name ∧ serviceSuffix <:+ name := by
  simp only [discoverPattern, mem_addListed_iff, exists_line_iff (h.unitFiles pattern hpattern _),
    exists_line_iff (h.loadedUnits pattern hpattern _), or_assoc, or_self, Set.mem_ofPred_eq,
    and_assoc]

theorem mem_discoverPatterns_iff (h : KnowsUnits run scopeFlag known) {ps : List Str}
    (hps : ∀ pattern ∈ ps, pattern ∈ patterns) (units : List Str) (s : σ) (name : Str) :
    name ∈ (ps.foldl (discoverPattern run scopeFlag) (units, s)).1 ↔ name ∈ units ∨
      ∃ pattern ∈ ps, ∃ u ∈ known,
        globMatches pattern u.name = true ∧ u.name = name ∧ serviceSuffix <:+ name := by
  induction ps generalizing units s with
  | nil => simp
  | cons pattern ps ih =>
      rw [List.forall_mem_cons] at hps
      rw [List.foldl_cons, ih hps.2, mem_discoverPattern_iff h hps.1]
      simp only [List.mem_cons, exists_eq_or_imp, or_assoc]

/-- The names that match a pattern of the doctor. -/
def MatchesPattern (name : Str) : Prop :=
  ("wm-".toList <+: name ∧ serviceSuffix <:+ name) ∨ name = "wmd.service".toList ∨
    name = "wmd-init.service".toList

/-- The front of the fleet's names and the service ending do not overlap. -/
theorem wm_middle_service_iff {name : Str} :
    (∃ middle, name = "wm-".toList ++ (middle ++ serviceSuffix)) ↔
      "wm-".toList <+: name ∧ serviceSuffix <:+ name := by
  constructor
  · rintro ⟨middle, rfl⟩
    exact ⟨List.prefix_append _ _, (List.suffix_append _ _).trans (List.suffix_append _ _)⟩
  · rintro ⟨⟨rest, rfl⟩, hsuffix⟩
    have hdot : '.' ∉ "wm-".toList := by decide
    obtain ⟨middle, hrest⟩ := suffix_of_suffix_append hdot hsuffix
    exact ⟨middle, congrArg ("wm-".toList ++ ·) hrest.symm⟩

theorem matchesPattern_iff {name : Str} :
    (∃ pattern ∈ patterns, globMatches pattern name = true) ↔ MatchesPattern name := by
  have hfleet : globMatches "wm-*.service".toList name = true ↔
      "wm-".toList <+: name ∧ serviceSuffix <:+ name := by
    have hstar : "wm-*.service".toList = "wm-".toList ++ '*' :: serviceSuffix := by decide
    have hfront : '*' ∉ "wm-".toList := by decide
    have hback : '*' ∉ serviceSuffix := by decide
    rw [← wm_middle_service_iff, hstar, globMatches_star hfront hback]
  have hbrain : globMatches "wmd.service".toList name = true ↔ name = "wmd.service".toList :=
    globMatches_literal (by decide) name
  have hinit : globMatches "wmd-init.service".toList name = true ↔
      name = "wmd-init.service".toList :=
    globMatches_literal (by decide) name
  simp only [patterns, List.exists_mem_cons_iff, List.not_mem_nil, false_and, exists_false,
    or_false, hfleet, hbrain, hinit, MatchesPattern]

theorem service_of_matchesPattern {name : Str} (h : MatchesPattern name) :
    serviceSuffix <:+ name := by
  rcases h with ⟨-, hsuffix⟩ | rfl | rfl
  · exact hsuffix
  · exact ⟨"wmd".toList, rfl⟩
  · exact ⟨"wmd-init".toList, rfl⟩

/-- The doctor finds the known units whose names match one of its patterns. -/
theorem mem_discoverUnits_iff (h : KnowsUnits run scopeFlag known) (s : σ) (name : Str) :
    name ∈ (discoverUnits run scopeFlag s).1 ↔
      MatchesPattern name ∧ ∃ u ∈ known, u.name = name := by
  have hall := mem_discoverPatterns_iff h (fun pattern hpattern => hpattern) [] s name
  simp only [List.not_mem_nil, false_or] at hall
  rw [discoverUnits, List.mem_insertionSort, hall, ← matchesPattern_iff]
  constructor
  · rintro ⟨pattern, hpattern, u, hu, hmatch, rfl, -⟩
    exact ⟨⟨pattern, hpattern, hmatch⟩, u, hu, rfl⟩
  · rintro ⟨⟨pattern, hpattern, hmatch⟩, u, hu, rfl⟩
    have hsuffix := service_of_matchesPattern (matchesPattern_iff.mp ⟨pattern, hpattern, hmatch⟩)
    exact ⟨pattern, hpattern, u, hu, hmatch, rfl, hsuffix⟩

/-! ## The watchdog's scope -/

/-- A service that the watchdog resets and starts. -/
def InWatchdogScope (u : UnitName) : Prop :=
  isWintermuteUnit (String.ofList u.name) = true ∧ serviceSuffix <:+ u.name

/-- The doctor's list covers the watchdog's scope, strictly sorted, exactly when every
known service of that scope has a name that starts with {lit}`wm-` or is the brain's or
its supervisor's. -/
theorem discoverUnits_covers_iff (h : KnowsUnits run scopeFlag known) (s : σ) :
    ((∀ u ∈ known, InWatchdogScope u → u.name ∈ (discoverUnits run scopeFlag s).1) ∧
      (discoverUnits run scopeFlag s).1.Pairwise (· < ·)) ↔
    ∀ u ∈ known, InWatchdogScope u →
      "wm-".toList <+: u.name ∨ u.name = "wmd.service".toList ∨
        u.name = "wmd-init.service".toList := by
  rw [and_iff_left (discoverUnits_sorted run scopeFlag s)]
  refine forall₃_congr fun u hu hscope => ?_
  rw [mem_discoverUnits_iff h, and_iff_left ⟨u, hu, rfl⟩, MatchesPattern, and_iff_left hscope.2]

end Known

/-! ## A manager that prints its units -/

/-- The row of a unit that is enabled. -/
def enabledRow (unit : UnitName) : Row where
  unit := unit
  columns := " enabled".toList
  blank := by simp [isWhitespace]
  oneLine := by decide

/-- A service manager that lists the given units. -/
def managerOf (units : List UnitName) : CmdRunner Unit := fun _ args s =>
  let pattern := args.getLast?.getD []
  let rows := (units.filter fun u => globMatches pattern u.name).map enabledRow
  ((rows.flatMap Row.text, true), s)

theorem managerOf_lists (units : List UnitName) (cmd : Str) {args : List Str} {pattern : Str}
    (hargs : args.getLast? = some pattern) (s : Unit) :
    Lists (managerOf units cmd args s).1.1
      {u | u ∈ units ∧ globMatches pattern u.name = true} := by
  refine ⟨(units.filter fun u => globMatches pattern u.name).map enabledRow, ?_, fun u => ?_⟩
  · rw [managerOf, hargs]
    rfl
  · constructor
    · intro hu
      exact ⟨enabledRow u, List.mem_map_of_mem (List.mem_filter.mpr hu), rfl⟩
    · rintro ⟨row, hrow, rfl⟩
      obtain ⟨u, hu, rfl⟩ := List.mem_map.mp hrow
      exact List.mem_filter.mp hu

theorem managerOf_knowsUnits (units : List UnitName) (scopeFlag : Str) :
    KnowsUnits (managerOf units) scopeFlag {u | u ∈ units} where
  unitFiles _ _ s := managerOf_lists units _ rfl s
  loadedUnits _ _ s := managerOf_lists units _ rfl s

/-- The unit of the audio child. -/
def audioName : UnitName where
  name := "wm-audio.service".toList
  nonempty := by decide
  noBlank := by simp [isWhitespace]

/-- The unit of the readiness check. -/
def readyName : UnitName where
  name := "wintermute-ready.service".toList
  nonempty := by decide
  noBlank := by simp [isWhitespace]

theorem discoverUnits_covers_iff_audio :
    InWatchdogScope audioName ∧
      audioName.name ∈ (discoverUnits (managerOf [audioName]) "--user".toList ()).1 := by
  have hscope : InWatchdogScope audioName := by
    rw [InWatchdogScope]
    decide
  have hcovers := (discoverUnits_covers_iff
    (managerOf_knowsUnits [audioName] "--user".toList) ()).mpr fun u hu _ => by
      obtain rfl : u = audioName := List.mem_singleton.mp hu
      exact Or.inl ⟨"audio.service".toList, by decide⟩
  exact ⟨hscope, hcovers.1 audioName (List.mem_singleton.mpr rfl) hscope⟩

/-- The readiness check is in the watchdog's scope, and the doctor does not find it. -/
theorem discoverUnits_not_covers :
    KnowsUnits (managerOf [readyName]) "--user".toList {u | u ∈ [readyName]} ∧
    InWatchdogScope readyName ∧
    readyName.name ∉ (discoverUnits (managerOf [readyName]) "--user".toList ()).1 := by
  have hscope : InWatchdogScope readyName := by
    rw [InWatchdogScope]
    decide
  refine ⟨managerOf_knowsUnits [readyName] _, hscope, ?_⟩
  have hnot : ¬ MatchesPattern readyName.name := by
    rw [MatchesPattern]
    decide
  exact fun hmem =>
    hnot ((mem_discoverUnits_iff (managerOf_knowsUnits [readyName] _) () _).mp hmem).1

end Wintermute
