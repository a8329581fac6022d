import Wintermute.Doctor.Report
import Wintermute.Foundation.JsonLayout
import Wintermute.Foundation.JsonRecord
import Wintermute.Foundation.Tables

/-!
# What the doctor prints

{lit}`wm doctor` prints its report as a table or in JSON, and exits with zero or two.
The table has a row for each unit; a quiet table has the failing rows alone.  A row is one
line when the states and the values of the specifiers are.

Main results:

- Theorem {lit}`runDoctorCmd_quiet`: the printed JSON is read back, and the rows of the
  quiet table name its failures.
- Theorem {lit}`runDoctorCmd_table`: every unit has a row with the state of its binary.
-/

namespace Wintermute

open Foundation Foundation.Json

/-! ## The table -/

/-- Whether the binary of a unit exists. -/
def UnitReport.existsLabel (r : UnitReport) : Str :=
  if r.binaryExists then "YES".toList else "MISSING".toList

/-- Whether the binary of a unit is executable, when it exists. -/
def UnitReport.execLabel (r : UnitReport) : Str :=
  if r.binaryExists then (if r.executable then "YES".toList else "NO-EXEC".toList)
  else "-".toList

/-- The columns of the table: five padded ones and the last. -/
def tableColumns (unit binaryExists exec enabled active resolved : Str) : Str :=
  row ' ' [⟨30, .left, unit⟩, ⟨8, .left, binaryExists⟩, ⟨8, .left, exec⟩, ⟨9, .left, enabled⟩,
    ⟨9, .left, active⟩] resolved

/-- A row of the table. -/
def tableRow (unit binaryExists exec enabled active resolved : Str) : Str :=
  tableColumns unit binaryExists exec enabled active resolved ++ ['\n']

/-- The row of one unit. -/
def UnitReport.row (r : UnitReport) : Str :=
  tableRow r.unit r.existsLabel r.execLabel r.enabled r.active r.resolved

/-- The row of one unit without its line feed. -/
def UnitReport.columns (r : UnitReport) : Str :=
  tableColumns r.unit r.existsLabel r.execLabel r.enabled r.active r.resolved

/-- The header of the table and the rule under it. -/
def tableHeader : Str :=
  tableRow "UNIT".toList "EXISTS".toList "EXEC".toList "ENABLED".toList "ACTIVE".toList
    "RESOLVED".toList ++ List.replicate 100 '-' ++ ['\n']

/-- The last line of the table. -/
def DoctorReport.summary (report : DoctorReport) : Str :=
  if report.allOk then
    "all ".toList ++ Nat.toDigits 10 report.units.length ++ " units OK\n".toList
  else
    Nat.toDigits 10 report.failures.length ++ " of ".toList ++
      Nat.toDigits 10 report.units.length ++
      " unit(s) have missing/non-executable binaries: ".toList ++
      ", ".toList.intercalate report.failures ++ ['\n']

/-- Render a report as a table. -/
def renderTable (report : DoctorReport) (quiet : Bool) : Str :=
  (if quiet then [] else tableHeader) ++
    (report.units.flatMap fun r => if quiet && !r.fails then [] else r.row) ++
    if quiet then [] else '\n' :: report.summary

/-! ## JSON -/

def UnitReport.toJson (r : UnitReport) : Json :=
  .obj [("unit".toList, .str r.unit), ("exec_start".toList, .str r.execStart),
    ("resolved".toList, .str r.resolved), ("exists".toList, .bool r.binaryExists),
    ("executable".toList, .bool r.executable), ("enabled".toList, .str r.enabled),
    ("active".toList, .str r.active), ("in_target".toList, .bool r.inTarget),
    ("scope".toList, .str r.scope)]

def DoctorReport.toJson (report : DoctorReport) : Json :=
  .obj [("units".toList, .arr (report.units.map UnitReport.toJson)),
    ("failures".toList, .arr (report.failures.map Json.str)),
    ("all_ok".toList, .bool report.allOk)]

/-- The text of a JSON string. -/
def asStr : Json → Option Str
  | .str s => some s
  | _ => none

def UnitReport.ofJson : Json → Option UnitReport
  | .obj fields => do
      let unit ← required asStr "unit".toList fields
      let execStart ← required asStr "exec_start".toList fields
      let resolved ← required asStr "resolved".toList fields
      let binaryExists ← required asBool "exists".toList fields
      let executable ← required asBool "executable".toList fields
      let enabled ← required asStr "enabled".toList fields
      let active ← required asStr "active".toList fields
      let inTarget ← required asBool "in_target".toList fields
      let scope ← required asStr "scope".toList fields
      some ⟨unit, execStart, resolved, binaryExists, executable, enabled, active, inTarget, scope⟩
  | _ => none

def DoctorReport.ofJson : Json → Option DoctorReport
  | .obj fields => do
      let units ← required (asList UnitReport.ofJson) "units".toList fields
      let failures ← required (asList asStr) "failures".toList fields
      let allOk ← required asBool "all_ok".toList fields
      some { units, failures, allOk }
  | _ => none

theorem UnitReport.ofJson_toJson (r : UnitReport) : UnitReport.ofJson r.toJson = some r := by
  rw [UnitReport.toJson, UnitReport.ofJson, required_eq rfl, required_eq rfl, required_eq rfl,
    required_eq rfl, required_eq rfl, required_eq rfl, required_eq rfl, required_eq rfl,
    required_eq rfl]
  rfl

/-- A report is read back. -/
theorem DoctorReport.ofJson_toJson (report : DoctorReport) :
    DoctorReport.ofJson report.toJson = some report := by
  have hstr : ∀ s, asStr (.str s) = some s := fun _ => rfl
  rw [DoctorReport.toJson, DoctorReport.ofJson, required_eq rfl, required_eq rfl,
    required_eq rfl, asList_map UnitReport.ofJson_toJson, asList_map hstr]
  rfl

/-! ## The command -/

/-- The output formats of {lit}`wm doctor`. -/
inductive DoctorFormat where
  | table
  | json
deriving DecidableEq, Repr

/-- The header note with the install path of the fleet. -/
def conventionNote : Str :=
  "fleet install-path convention: ~/.local/bin\n".toList

section Command

variable {σ : Type} (env : ProcessEnv) (fs : FileSystem) (run : CmdRunner σ)

/-- Run {lit}`wm doctor`; what is printed, and the exit code. -/
def runDoctorCmd (format : DoctorFormat) (scope : DoctorScope) (quiet : Bool) (s : σ) :
    (Str × UInt8) × σ :=
  let (report, s) := runDoctor env fs run none none none scope s
  let printed := match format with
    | .table => conventionNote ++ renderTable report quiet
    | .json => pretty report.toJson ++ ['\n']
  ((printed, report.exitCode), s)

/-! ## Names without white space -/

theorem addListed_names {units : List Str} (hunits : ∀ n ∈ units, IsWord isWhitespace n)
    (out : Str) : ∀ n ∈ addListed units out, IsWord isWhitespace n := by
  intro n hn
  rcases mem_addListed_iff.mp hn with hmem | ⟨line, -, hnames⟩
  · exact hunits n hmem
  · exact firstWord_spec hnames.1

theorem discoverPatterns_names (run : CmdRunner σ) (scopeFlag : Str) (ps : List Str)
    {units : List Str} (hunits : ∀ n ∈ units, IsWord isWhitespace n) (s : σ) :
    ∀ n ∈ (ps.foldl (discoverPattern run scopeFlag) (units, s)).1, IsWord isWhitespace n := by
  induction ps generalizing units s with
  | nil => exact hunits
  | cons pattern ps ih => exact ih (addListed_names (addListed_names hunits _) _) _

/-- The doctor finds names, whatever the commands print. -/
theorem discoverUnits_names (scopeFlag : Str) (s : σ) :
    ∀ n ∈ (discoverUnits run scopeFlag s).1, IsWord isWhitespace n := by
  intro n hn
  have hnone : ∀ n ∈ ([] : List Str), IsWord isWhitespace n :=
    fun n hn => absurd hn List.not_mem_nil
  have hperm := List.perm_insertionSort (· ≤ ·)
    (patterns.foldl (discoverPattern run scopeFlag) ([], s)).1
  exact discoverPatterns_names run scopeFlag patterns hnone s n (hperm.mem_iff.mp hn)

theorem foldl_inspectScope_names (flags : List Str) {acc : List UnitReport × σ}
    (hacc : ∀ r ∈ acc.1, IsWord isWhitespace r.unit) :
    ∀ r ∈ (flags.foldl (inspectScope env fs run none none none) acc).1,
      IsWord isWhitespace r.unit := by
  induction flags generalizing acc with
  | nil => exact hacc
  | cons flag flags ih =>
      obtain ⟨rows, s, hrows, hunits, -⟩ := inspectScope_units env fs run none none none acc flag
      refine ih ?_
      rw [hrows]
      refine List.forall_mem_append.mpr ⟨hacc, fun r hr => ?_⟩
      exact discoverUnits_names run flag s r.unit (hunits ▸ List.mem_map_of_mem hr)

/-- Every row of a report is about a name. -/
theorem runDoctor_names (scope : DoctorScope) (s : σ) :
    ∀ r ∈ (runDoctor env fs run none none none scope s).1.units, IsWord isWhitespace r.unit :=
  foldl_inspectScope_names env fs run scope.flags fun _ hr => absurd hr List.not_mem_nil

/-! ## The rows -/

/-- The words of a row are those of its cells. -/
theorem splitWhitespace_columns {r : UnitReport} (hunit : IsWord isWhitespace r.unit) :
    splitWhitespace r.columns = r.unit :: r.existsLabel :: r.execLabel ::
      (splitWhitespace r.enabled ++ (splitWhitespace r.active ++ splitWhitespace r.resolved)) := by
  have hexists : wordsOf isWhitespace r.existsLabel = [r.existsLabel] := by
    rw [UnitReport.existsLabel]
    split_ifs <;> rfl
  have hexec : wordsOf isWhitespace r.execLabel = [r.execLabel] := by
    rw [UnitReport.execLabel]
    split_ifs <;> rfl
  change wordsOf isWhitespace r.columns = _
  rw [UnitReport.columns, tableColumns, wordsOf_row (by decide)]
  simp only [List.flatMap_cons, List.flatMap_nil, hunit.wordsOf_eq, hexists, hexec,
    List.append_nil, List.append_assoc, List.cons_append]
  rfl

/-- What the rows take from outside has one line: the states, and the values that stand for
the home directory and the user. -/
structure OneLineAnswers (scope : DoctorScope) (s : σ) : Prop where
  enabled : ∀ a ∈ unitAnswers run scope s, '\n' ∉ trim a.enabled
  active : ∀ a ∈ unitAnswers run scope s, '\n' ∉ trim a.active
  home : '\n' ∉ homeValue env none
  user : '\n' ∉ userValue env none

theorem newline_notMem_of_word {w : Str} (hw : ∀ c ∈ w, isWhitespace c = false) : '\n' ∉ w := by
  intro hmem
  cases hw '\n' hmem

variable {env run} in
/-- The path of a unit has one line. -/
theorem newline_notMem_expandSpecifiers (hhome : '\n' ∉ homeValue env none)
    (huser : '\n' ∉ userValue env none) {raw : Str} (hraw : '\n' ∉ raw) :
    '\n' ∉ expandSpecifiers env raw none none none := by
  have huid : '\n' ∉ uidText (uidValue env none) := by
    intro hmem
    cases toDigits_isDigit _ _ hmem
  rw [expandSpecifiers]
  exact notMem_replaceAll (by decide) huid (notMem_replaceAll (by decide) huser
    (notMem_replaceAll (by decide) hhome hraw))

variable {env run} in
/-- A row of the table is one line. -/
theorem newline_notMem_columns {scope : DoctorScope} {s : σ}
    (h : OneLineAnswers env run scope s) :
    ∀ r ∈ (runDoctor env fs run none none none scope s).1.units, '\n' ∉ r.columns := by
  intro r hr
  obtain ⟨a, ha, hreads⟩ := exists_answers env fs run none none none hr
  have hunit := newline_notMem_of_word (runDoctor_names env fs run scope s r hr).2
  have hexists : '\n' ∉ r.existsLabel := by
    rw [UnitReport.existsLabel]
    split_ifs <;> decide
  have hexec : '\n' ∉ r.execLabel := by
    rw [UnitReport.execLabel]
    split_ifs <;> decide
  have hresolved : '\n' ∉ r.resolved := by
    by_cases hnil : r.execStart = []
    · rw [(runDoctor_sound env fs run none none none scope s r hr).resolved_nil hnil]
      exact List.not_mem_nil
    · rw [hreads.resolved hnil]
      apply newline_notMem_expandSpecifiers h.home h.user
      rw [hreads.execStart]
      cases hparse : parseExecStart a.cat with
      | none => exact List.not_mem_nil
      | some token => exact newline_notMem_of_word (parseExecStart_word hparse).2
  apply notMem_row (by decide) _ hresolved
  simp only [List.forall_mem_cons, List.not_mem_nil, false_implies, implies_true, and_true]
  rw [hreads.enabled, hreads.active]
  exact ⟨hunit, hexists, hexec, h.enabled a ha, h.active a ha⟩

/-- A quiet table shows the failing rows alone. -/
theorem shownRows_quiet (units : List UnitReport) :
    (units.flatMap fun r => if true && !r.fails then [] else r.row) =
      ((units.filter UnitReport.fails).map UnitReport.columns).flatMap (· ++ ['\n']) := by
  induction units with
  | nil => rfl
  | cons r units ih =>
      rw [List.flatMap_cons, ih]
      cases hfails : r.fails
      · simp [hfails]
      · simp [hfails, UnitReport.row, UnitReport.columns, tableRow]

/-- The label of an executable binary. -/
theorem execLabel_eq_yes_iff (r : UnitReport) : r.execLabel = "YES".toList ↔ r.binaryOk = true := by
  rw [UnitReport.execLabel, UnitReport.binaryOk]
  cases r.binaryExists <;> cases r.executable <;> decide

/-- The label of a binary that exists. -/
theorem existsLabel_eq_yes_iff {r : UnitReport} (h : r.Sound fs) :
    r.existsLabel = "YES".toList ↔ r.resolved ≠ [] ∧ fs.pathExists r.resolved = true := by
  have hlabel : r.existsLabel = "YES".toList ↔ r.binaryExists = true := by
    rw [UnitReport.existsLabel]
    cases r.binaryExists <;> decide
  have hbits : r.binaryExists = (binaryBits fs r.resolved).1 := congrArg Prod.fst h.bits
  rw [hlabel, hbits, binaryBits]
  by_cases hnil : r.resolved = []
  · simp [hnil]
  · rw [if_neg (by rwa [List.isEmpty_iff]), checkBinary, and_iff_right hnil]
    cases fs.pathExists r.resolved with
    | false => simp
    | true => cases fs.mode r.resolved <;> simp

/-- The exit code is zero when no row fails. -/
theorem runDoctorCmd_exit_iff (format : DoctorFormat) (scope : DoctorScope) (quiet : Bool) (s : σ) :
    (runDoctorCmd env fs run format scope quiet s).1.2 = 0 ↔
      (runDoctor env fs run none none none scope s).1.failures = [] := by
  have hexit : (runDoctorCmd env fs run format scope quiet s).1.2 =
      if (runDoctor env fs run none none none scope s).1.failures.isEmpty then 0 else 2 := rfl
  rw [hexit, ← List.isEmpty_iff]
  split_ifs with hempty <;> simp [hempty]

/-! ## A unit whose binary is missing -/

/-- A service manager with one unit; its binary stands in {lit}`/opt`. -/
def audioManager : CmdRunner Unit := fun _ args s =>
  if args = listUnitFiles userFlag "wm-*.service".toList then
    (("wm-audio.service enabled\n".toList, true), s)
  else if args = [userFlag, "cat".toList, "wm-audio.service".toList] then
    (("[Service]\nExecStart=/opt/wm-audio run\n".toList, true), s)
  else if args = [userFlag, "is-enabled".toList, "wm-audio.service".toList] then
    (("enabled\n".toList, true), s)
  else if args = [userFlag, "is-active".toList, "wm-audio.service".toList] then
    (("inactive\n".toList, false), s)
  else (([], false), s)

theorem audioManager_oneLine : OneLineAnswers bareProcess audioManager .user () where
  enabled := by decide
  active := by decide
  home := by decide
  user := by decide

/-! ## Both formats -/

/-- **Two outputs, one report.**  In one state the doctor prints JSON from which its report
is read back, and a quiet table with one line for each failure in that report, which begins
with its name.  Both runs exit with the same code, and it is zero exactly when the quiet
table has no row. -/
theorem runDoctorCmd_quiet (scope : DoctorScope) (s : σ) (hlines : OneLineAnswers env run scope s) :
    ∃ report rows,
      (parse (runDoctorCmd env fs run .json scope true s).1.1).bind DoctorReport.ofJson =
        some report ∧
      (runDoctorCmd env fs run .table scope true s).1.1 =
        conventionNote ++ rows.flatMap (· ++ ['\n']) ∧
      (∀ line ∈ rows, '\n' ∉ line) ∧
      rows.map (fun line => (splitWhitespace line).head?) = report.failures.map some ∧
      (runDoctorCmd env fs run .json scope true s).1.2 =
        (runDoctorCmd env fs run .table scope true s).1.2 ∧
      ((runDoctorCmd env fs run .table scope true s).1.2 = 0 ↔ rows = []) := by
  have hcolumns := newline_notMem_columns fs hlines
  have hnames := runDoctor_names env fs run scope s
  have hexit := runDoctorCmd_exit_iff env fs run .table scope true s
  set report := (runDoctor env fs run none none none scope s).1 with hreport
  have hblank : Blank ['\n'] := by simp [Blank, isBlank]
  have hjson : (runDoctorCmd env fs run .json scope true s).1.1 =
      pretty report.toJson ++ ['\n'] := rfl
  have htable : (runDoctorCmd env fs run .table scope true s).1.1 =
      conventionNote ++ renderTable report true := rfl
  have hfailures : report.failures = (report.units.filter UnitReport.fails).map UnitReport.unit :=
    rfl
  refine ⟨report, (report.units.filter UnitReport.fails).map UnitReport.columns, ?_, ?_, ?_, ?_,
    rfl, ?_⟩
  · rw [hjson, parse_pretty _ hblank, Option.bind_some, DoctorReport.ofJson_toJson]
  · rw [htable, renderTable, shownRows_quiet]
    simp
  · intro line hline
    obtain ⟨r, hr, rfl⟩ := List.mem_map.mp hline
    exact hcolumns r (List.mem_of_mem_filter hr)
  · rw [hfailures, List.map_map, List.map_map]
    refine List.map_congr_left fun r hr => ?_
    rw [Function.comp_apply, splitWhitespace_columns (hnames r (List.mem_of_mem_filter hr))]
    rfl
  · rw [hexit, hfailures, List.map_eq_nil_iff, List.map_eq_nil_iff]

/-- Without the binary the quiet table has a row. -/
theorem runDoctorCmd_quiet_audio :
    (runDoctorCmd bareProcess noFiles audioManager .table .user true ()).1.2 = 2 ∧
    ∃ report rows,
      (parse (runDoctorCmd bareProcess noFiles audioManager .json .user true ()).1.1).bind
        DoctorReport.ofJson = some report ∧
      (runDoctorCmd bareProcess noFiles audioManager .table .user true ()).1.1 =
        conventionNote ++ rows.flatMap (· ++ ['\n']) ∧
      (∀ line ∈ rows, '\n' ∉ line) ∧
      rows.map (fun line => (splitWhitespace line).head?) = report.failures.map some ∧
      rows ≠ [] := by
  have hexit : (runDoctorCmd bareProcess noFiles audioManager .table .user true ()).1.2 = 2 := by
    decide
  obtain ⟨report, rows, hjson, htable, hlines, hnames, -, hzero⟩ :=
    runDoctorCmd_quiet bareProcess noFiles audioManager .user () audioManager_oneLine
  refine ⟨hexit, report, rows, hjson, htable, hlines, hnames, ?_⟩
  rw [ne_eq, ← hzero, hexit]
  decide

/-- **The table.**  The full table has one line for every unit in order.  Its words are the
name of the unit, whether the resolved path exists and whether it is executable, then the
states and the path; the last line counts the units when the exit code is zero, and else
names the failures. -/
theorem runDoctorCmd_table (scope : DoctorScope) (s : σ) (hlines : OneLineAnswers env run scope s) :
    let report := (runDoctor env fs run none none none scope s).1
    let out := (runDoctorCmd env fs run .table scope false s).1
    ∃ rows,
      out.1 = conventionNote ++
        (tableHeader ++ (rows.flatMap (· ++ ['\n']) ++ '\n' :: report.summary)) ∧
      (∀ line ∈ rows, '\n' ∉ line) ∧
      List.Forall₂ (fun line r => ∃ binary exec,
        splitWhitespace line = r.unit :: binary :: exec ::
          (splitWhitespace r.enabled ++ (splitWhitespace r.active ++ splitWhitespace r.resolved)) ∧
        (binary = "YES".toList ↔ r.resolved ≠ [] ∧ fs.pathExists r.resolved = true) ∧
        (exec = "YES".toList ↔ r.resolved ≠ [] ∧ fs.IsExecutable r.resolved)) rows report.units ∧
      (out.2 = 0 → report.summary =
        "all ".toList ++ Nat.toDigits 10 rows.length ++ " units OK\n".toList) ∧
      (out.2 ≠ 0 → ", ".toList.intercalate report.failures ++ ['\n'] <:+ report.summary) := by
  intro report out
  have hallOk : report.allOk = true ↔ out.2 = 0 := by
    rw [runDoctorCmd_exit_iff, ← List.isEmpty_iff]
    rfl
  refine ⟨report.units.map UnitReport.columns, ?_, ?_, ?_, fun hexit => ?_, fun hexit => ?_⟩
  · have hout : out.1 = conventionNote ++ renderTable report false := rfl
    have hrow : ∀ r : UnitReport, r.row = r.columns ++ ['\n'] := fun _ => rfl
    rw [hout, renderTable, List.flatMap_map]
    simp [hrow]
  · intro line hline
    obtain ⟨r, hr, rfl⟩ := List.mem_map.mp hline
    exact newline_notMem_columns fs hlines r hr
  · rw [List.forall₂_map_left_iff, List.forall₂_same]
    intro r hr
    have hname := runDoctor_names env fs run scope s r hr
    have hsound := runDoctor_sound env fs run none none none scope s r hr
    refine ⟨_, _, splitWhitespace_columns hname, existsLabel_eq_yes_iff fs hsound, ?_⟩
    rw [execLabel_eq_yes_iff, hsound.binaryOk_iff]
  · rw [DoctorReport.summary, if_pos (hallOk.mpr hexit), List.length_map]
  · rw [DoctorReport.summary, if_neg (mt hallOk.mp hexit), List.append_assoc _ _ ['\n']]
    exact List.suffix_append _ _

/-- The full table has one row, which says that the binary is missing. -/
theorem runDoctorCmd_table_audio :
    ∃ line, (runDoctorCmd bareProcess noFiles audioManager .table .user false ()).1.1 =
        conventionNote ++ (tableHeader ++ (line ++ '\n' :: '\n' ::
          (runDoctor bareProcess noFiles audioManager none none none .user ()).1.summary)) ∧
      '\n' ∉ line ∧ (splitWhitespace line).head? = some "wm-audio.service".toList := by
  have hunits : (runDoctor bareProcess noFiles audioManager none none none .user ()).1.units.map
      UnitReport.unit = ["wm-audio.service".toList] := by
    decide
  obtain ⟨r, hunits, hname⟩ := List.map_eq_singleton_iff.mp hunits
  obtain ⟨rows, hout, hlines, hrows, -⟩ :=
    runDoctorCmd_table bareProcess noFiles audioManager .user () audioManager_oneLine
  rw [hunits] at hrows
  obtain ⟨line, rest, ⟨binary, exec, hwords, -⟩, hrest, rfl⟩ := List.forall₂_cons_right_iff.mp hrows
  obtain rfl := List.forall₂_nil_right_iff.mp hrest
  refine ⟨line, ?_, hlines line List.mem_cons_self, ?_⟩
  · rw [hout]
    simp
  · rw [hwords, hname]
    rfl

end Command

end Wintermute
