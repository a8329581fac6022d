import Wintermute.Doctor.Discovery
import Wintermute.Doctor.ExecStart
import Wintermute.Doctor.Specifiers
import Wintermute.Foundation.LexicalPath

/-!
# The doctor's verdict

For every unit it finds the doctor reads the binary, fills in the specifiers, looks the
file up and asks the service manager for the unit's state.  A unit fails the verdict
when it has a binary that is missing or not executable; a unit without binary is
reported, and left out of the verdict.  The verdict is therefore about every unit only
when the service manager has printed a binary for each.

Main results:

- Theorem {lit}`probeUnit_sound`: the row of a unit says what the file system holds at
  the resolved path.
- Theorem {lit}`inspectScope_units`: every discovered unit has a row, in order.
- Theorem {lit}`runDoctor_reads`: the rows hold what the service manager answers.
- Theorem {lit}`doctorVerdict`: the verdict over all rows, for any commands, files and
  scope.
- Theorem {lit}`doctorVerdict_iff`: when the verdict is about every unit.
-/

namespace Wintermute

open Foundation

/-! ## The file system -/

/-- Whether a path exists, and its mode when that can be read. -/
structure FileSystem where
  pathExists : Str → Bool
  mode : Str → Option UInt32

/-- Whether a path exists and has an execute bit. -/
def checkBinary (fs : FileSystem) (path : Str) : Bool × Bool :=
  if !fs.pathExists path then (false, false)
  else
    match fs.mode path with
    | none => (true, false)
    | some mode => (true, mode &&& 0o111 != 0)

/-- The path exists and has an execute bit. -/
def FileSystem.IsExecutable (fs : FileSystem) (path : Str) : Prop :=
  fs.pathExists path = true ∧ ∃ mode, fs.mode path = some mode ∧ mode &&& 0o111 ≠ 0

theorem checkBinary_eq_iff (fs : FileSystem) (path : Str) :
    checkBinary fs path = (true, true) ↔ fs.IsExecutable path := by
  rw [checkBinary, FileSystem.IsExecutable]
  cases hpath : fs.pathExists path with
  | false => simp
  | true => cases fs.mode path <;> simp

/-! ## Reports -/

/-- What the doctor found for one unit. -/
structure UnitReport where
  unit : Str
  execStart : Str
  resolved : Str
  binaryExists : Bool
  executable : Bool
  enabled : Str
  active : Str
  inTarget : Bool
  scope : Str
deriving DecidableEq

/-- The binary is present and executable. -/
def UnitReport.binaryOk (r : UnitReport) : Bool :=
  r.binaryExists && r.executable

/-- The whole report. -/
structure DoctorReport where
  units : List UnitReport
  failures : List Str
  allOk : Bool
deriving DecidableEq

/-! ## The target -/

/-- The unit stands in a {lit}`Wants=` or {lit}`Requires=` line of the target. -/
def unitInTargetFromCat (systemctlCatOutput unitName : Str) : Bool :=
  (lines systemctlCatOutput).any fun line =>
    match (stripPrefix "Wants=".toList (trim line)).or
        (stripPrefix "Requires=".toList (trim line)) with
    | none => false
    | some rest => (splitWhitespace rest).contains unitName

/-- The flag of the user's service manager. -/
def userFlag : Str := "--user".toList

/-- The flag of the system's service manager. -/
def systemFlag : Str := "--system".toList

/-- The directories that pull units into the target. -/
def wantsDirs (scopeFlag : Str) : List Str :=
  if scopeFlag = userFlag then
    ["/etc/systemd/user/wintermute.target.wants".toList,
      "/usr/lib/systemd/user/wintermute.target.wants".toList,
      "/usr/local/lib/systemd/user/wintermute.target.wants".toList]
  else
    ["/etc/systemd/system/wintermute.target.wants".toList,
      "/usr/lib/systemd/system/wintermute.target.wants".toList]

/-- The unit has an entry in one of these directories. -/
def inTargetWantsDir (env : ProcessEnv) (fs : FileSystem) (unit scopeFlag : Str) : Bool :=
  let home := (env.var "HOME".toList).getD []
  let userConfigDir := home ++ "/.config/systemd/user/wintermute.target.wants".toList
  (wantsDirs scopeFlag).any (fun dir => fs.pathExists (joinPath '/' dir unit)) ||
    (decide (scopeFlag = userFlag) && fs.pathExists (joinPath '/' userConfigDir unit))

/-! ## One unit -/

/-- What all probes of one scope share. -/
structure ProbeCtx (σ : Type) where
  scopeFlag : Str
  targetCat : Str
  run : CmdRunner σ
  homeOverride : Option Str
  userOverride : Option Str
  uidOverride : Option UInt32

/-- The path of a unit's binary with its specifiers filled in. -/
def resolvedPath {σ : Type} (env : ProcessEnv) (ctx : ProbeCtx σ) (execStart : Str) : Str :=
  if execStart.isEmpty then []
  else expandSpecifiers env execStart ctx.homeOverride ctx.userOverride ctx.uidOverride

/-- Whether the resolved path exists and is executable; an empty path is neither. -/
def binaryBits (fs : FileSystem) (resolved : Str) : Bool × Bool :=
  if resolved.isEmpty then (false, false) else checkBinary fs resolved

/-- Build the row of one unit. -/
def probeUnit {σ : Type} (env : ProcessEnv) (fs : FileSystem) (unit : Str) (ctx : ProbeCtx σ)
    (s : σ) : UnitReport × σ :=
  let scopeFlag := ctx.scopeFlag
  let scopeLabel := if scopeFlag = userFlag then "user".toList else "system".toList
  let ((catOut, _), s) := ctx.run "systemctl".toList [scopeFlag, "cat".toList, unit] s
  let execStart := (parseExecStart catOut).getD []
  let resolved := resolvedPath env ctx execStart
  let (binaryExists, executable) := binaryBits fs resolved
  let ((enabledOut, _), s) := ctx.run "systemctl".toList [scopeFlag, "is-enabled".toList, unit] s
  let ((activeOut, _), s) := ctx.run "systemctl".toList [scopeFlag, "is-active".toList, unit] s
  let inTarget := unitInTargetFromCat ctx.targetCat unit || inTargetWantsDir env fs unit scopeFlag
  ({ unit := unit
     execStart := execStart
     resolved := resolved
     binaryExists := binaryExists
     executable := executable
     enabled := trim enabledOut
     active := trim activeOut
     inTarget := inTarget
     scope := scopeLabel }, s)

/-- A row says what the file system holds at its resolved path. -/
structure UnitReport.Sound (fs : FileSystem) (r : UnitReport) : Prop where
  resolved_nil : r.execStart = [] → r.resolved = []
  bits : (r.binaryExists, r.executable) = binaryBits fs r.resolved

/-- A sound row whose binary is in order names an executable path. -/
theorem UnitReport.Sound.binaryOk_iff {fs : FileSystem} {r : UnitReport} (h : r.Sound fs) :
    r.binaryOk = true ↔ r.resolved ≠ [] ∧ fs.IsExecutable r.resolved := by
  have hbits : r.binaryOk = true ↔ binaryBits fs r.resolved = (true, true) := by
    rw [UnitReport.binaryOk, Bool.and_eq_true, ← h.bits, Prod.mk.injEq]
  rw [hbits, binaryBits]
  by_cases hnil : r.resolved = []
  · simp [hnil]
  · rw [if_neg (by rwa [List.isEmpty_iff]), checkBinary_eq_iff, and_iff_right hnil]

section Probe

variable {σ : Type} (env : ProcessEnv) (fs : FileSystem)

/-- The row of a unit says what the file system holds at the resolved path. -/
theorem probeUnit_sound (unit : Str) (ctx : ProbeCtx σ) (s : σ) :
    (probeUnit env fs unit ctx s).1.Sound fs where
  resolved_nil hexec := by
    have hresolved : (probeUnit env fs unit ctx s).1.resolved =
        resolvedPath env ctx (probeUnit env fs unit ctx s).1.execStart := rfl
    rw [hresolved, hexec, resolvedPath]
    rfl
  bits := rfl

theorem probeUnit_unit (unit : Str) (ctx : ProbeCtx σ) (s : σ) :
    (probeUnit env fs unit ctx s).1.unit = unit := rfl

end Probe

/-! ## The run -/

/-- Which service managers the doctor asks. -/
inductive DoctorScope where
  | user
  | system
  | both
deriving DecidableEq, Repr

/-- The flags of a scope. -/
def DoctorScope.flags : DoctorScope → List Str
  | .user => [userFlag]
  | .system => [systemFlag]
  | .both => [userFlag, systemFlag]

section Run

variable {σ : Type} (env : ProcessEnv) (fs : FileSystem) (run : CmdRunner σ)
  (homeOverride userOverride : Option Str) (uidOverride : Option UInt32)

/-- Append the row of one unit. -/
def probeInto (ctx : ProbeCtx σ) (acc : List UnitReport × σ) (unit : Str) :
    List UnitReport × σ :=
  let (report, s) := probeUnit env fs unit ctx acc.2
  (acc.1 ++ [report], s)

/-- Append the rows of one scope. -/
def inspectScope (acc : List UnitReport × σ) (scopeFlag : Str) : List UnitReport × σ :=
  let (allUnits, s) := acc
  let ((targetCatOut, _), s) :=
    run "systemctl".toList [scopeFlag, "cat".toList, "wintermute.target".toList] s
  let (unitNames, s) := discoverUnits run scopeFlag s
  let ctx : ProbeCtx σ :=
    { scopeFlag := scopeFlag
      targetCat := targetCatOut
      run := run
      homeOverride := homeOverride
      userOverride := userOverride
      uidOverride := uidOverride }
  unitNames.foldl (probeInto env fs ctx) (allUnits, s)

/-- The failing rows: those with a binary that is not in order. -/
def UnitReport.fails (r : UnitReport) : Bool :=
  !r.binaryOk && !r.execStart.isEmpty

/-- Run the doctor. -/
def runDoctor (scope : DoctorScope) (s : σ) : DoctorReport × σ :=
  let (allUnits, s) := scope.flags.foldl
    (inspectScope env fs run homeOverride userOverride uidOverride) ([], s)
  let failures := (allUnits.filter UnitReport.fails).map UnitReport.unit
  ({ units := allUnits, failures := failures, allOk := failures.isEmpty }, s)

/-- The exit code of {lit}`wm doctor`. -/
def DoctorReport.exitCode (report : DoctorReport) : UInt8 :=
  if report.allOk then 0 else 2

/-! ## The answers of the service manager -/

/-- What the service manager answers about one unit. -/
structure UnitAnswers where
  unit : Str
  cat : Str
  enabled : Str
  active : Str
deriving DecidableEq

/-- Ask about one unit. -/
def askUnit (scopeFlag : Str) (acc : List UnitAnswers × σ) (unit : Str) :
    List UnitAnswers × σ :=
  let ((catOut, _), s) := run "systemctl".toList [scopeFlag, "cat".toList, unit] acc.2
  let ((enabledOut, _), s) := run "systemctl".toList [scopeFlag, "is-enabled".toList, unit] s
  let ((activeOut, _), s) := run "systemctl".toList [scopeFlag, "is-active".toList, unit] s
  (acc.1 ++ [⟨unit, catOut, enabledOut, activeOut⟩], s)

/-- Ask about the units of one scope. -/
def askScope (acc : List UnitAnswers × σ) (scopeFlag : Str) : List UnitAnswers × σ :=
  let (_, s) := run "systemctl".toList [scopeFlag, "cat".toList, "wintermute.target".toList] acc.2
  let (unitNames, s) := discoverUnits run scopeFlag s
  unitNames.foldl (askUnit run scopeFlag) (acc.1, s)

/-- The answers about all discovered units, in the order of the rows. -/
def unitAnswers (scope : DoctorScope) (s : σ) : List UnitAnswers :=
  (scope.flags.foldl (askScope run) ([], s)).1

/-- The row holds these answers. -/
structure UnitReport.Reads (r : UnitReport) (a : UnitAnswers) : Prop where
  unit : r.unit = a.unit
  execStart : r.execStart = (parseExecStart a.cat).getD []
  resolved : r.execStart ≠ [] →
    r.resolved = expandSpecifiers env r.execStart homeOverride userOverride uidOverride
  enabled : r.enabled = trim a.enabled
  active : r.active = trim a.active

/-- Rows and answers after the same questions. -/
def ReadTogether (acc : List UnitReport × σ) (asked : List UnitAnswers × σ) : Prop :=
  List.Forall₂ (UnitReport.Reads env homeOverride userOverride uidOverride) acc.1 asked.1 ∧
    acc.2 = asked.2

variable {env fs run homeOverride userOverride uidOverride} in
/-- One unit adds a row and its answers. -/
theorem ReadTogether.probeInto {acc : List UnitReport × σ} {asked : List UnitAnswers × σ}
    (h : ReadTogether env homeOverride userOverride uidOverride acc asked)
    (scopeFlag targetCat unit : Str) :
    ReadTogether env homeOverride userOverride uidOverride
      (probeInto env fs ⟨scopeFlag, targetCat, run, homeOverride, userOverride, uidOverride⟩
        acc unit)
      (askUnit run scopeFlag asked unit) := by
  obtain ⟨hrows, hstate⟩ := h
  unfold Wintermute.probeInto askUnit probeUnit
  rw [hstate]
  refine ⟨List.rel_append hrows (.cons ⟨rfl, rfl, fun hexec => ?_, rfl, rfl⟩ .nil), rfl⟩
  exact if_neg (mt List.isEmpty_iff.mp hexec)

variable {env run homeOverride userOverride uidOverride} in
/-- One scope adds its rows and their answers. -/
theorem ReadTogether.inspectScope {acc : List UnitReport × σ} {asked : List UnitAnswers × σ}
    (h : ReadTogether env homeOverride userOverride uidOverride acc asked) (scopeFlag : Str) :
    ReadTogether env homeOverride userOverride uidOverride
      (inspectScope env fs run homeOverride userOverride uidOverride acc scopeFlag)
      (askScope run asked scopeFlag) := by
  obtain ⟨hrows, hstate⟩ := h
  unfold Wintermute.inspectScope askScope
  rw [← hstate]
  apply List.foldl_rel (r := ReadTogether env homeOverride userOverride uidOverride)
  · exact ⟨hrows, rfl⟩
  · intro unit _ acc asked hacc
    exact hacc.probeInto _ _ unit

/-- Every row holds what the service manager answers about its unit. -/
theorem runDoctor_reads (scope : DoctorScope) (s : σ) :
    List.Forall₂ (UnitReport.Reads env homeOverride userOverride uidOverride)
      (runDoctor env fs run homeOverride userOverride uidOverride scope s).1.units
      (unitAnswers run scope s) := by
  have hboth : ReadTogether env homeOverride userOverride uidOverride
      (scope.flags.foldl (inspectScope env fs run homeOverride userOverride uidOverride) ([], s))
      (scope.flags.foldl (askScope run) ([], s)) := by
    apply List.foldl_rel
    · exact ⟨.nil, rfl⟩
    · intro flag _ acc asked hacc
      exact hacc.inspectScope fs flag
  exact hboth.1

/-- A row of the report holds the answers about its unit. -/
theorem exists_answers {scope : DoctorScope} {s : σ} {r : UnitReport}
    (hr : r ∈ (runDoctor env fs run homeOverride userOverride uidOverride scope s).1.units) :
    ∃ a ∈ unitAnswers run scope s, r.Reads env homeOverride userOverride uidOverride a := by
  have hreads := runDoctor_reads env fs run homeOverride userOverride uidOverride scope s
  generalize unitAnswers run scope s = answers at hreads ⊢
  generalize (runDoctor env fs run homeOverride userOverride uidOverride scope s).1.units = rows
    at hreads hr
  induction hreads with
  | nil => cases hr
  | cons hread _ ih =>
      rcases List.mem_cons.mp hr with rfl | hr
      · exact ⟨_, List.mem_cons_self, hread⟩
      · obtain ⟨a, ha, hread'⟩ := ih hr
        exact ⟨a, List.mem_cons_of_mem _ ha, hread'⟩

/-! ## All rows -/

/-- Probing a list of units appends one row for each. -/
theorem foldl_probeInto (ctx : ProbeCtx σ) (names : List Str) (acc : List UnitReport × σ) :
    ∃ rows, (names.foldl (probeInto env fs ctx) acc).1 = acc.1 ++ rows ∧
      rows.map UnitReport.unit = names ∧ ∀ r ∈ rows, r.Sound fs := by
  induction names generalizing acc with
  | nil => exact ⟨[], by simp⟩
  | cons name names ih =>
      obtain ⟨rows, hrows, hunits, hsound⟩ := ih (probeInto env fs ctx acc name)
      refine ⟨(probeUnit env fs name ctx acc.2).1 :: rows, ?_, ?_, ?_⟩
      · rw [List.foldl_cons, hrows, probeInto, List.append_assoc, List.singleton_append]
      · rw [List.map_cons, probeUnit_unit, hunits]
      · exact List.forall_mem_cons.mpr ⟨probeUnit_sound env fs name ctx acc.2, hsound⟩

/-- Every unit discovered in a scope has a row, in order. -/
theorem inspectScope_units (acc : List UnitReport × σ) (scopeFlag : Str) :
    ∃ rows s, (inspectScope env fs run homeOverride userOverride uidOverride acc scopeFlag).1 =
        acc.1 ++ rows ∧
      rows.map UnitReport.unit = (discoverUnits run scopeFlag s).1 ∧ ∀ r ∈ rows, r.Sound fs := by
  obtain ⟨rows, hrows⟩ := foldl_probeInto env fs _ _ _
  exact ⟨rows, _, hrows⟩

theorem foldl_inspectScope_sound (flags : List Str) {acc : List UnitReport × σ}
    (hacc : ∀ r ∈ acc.1, r.Sound fs) :
    ∀ r ∈ (flags.foldl (inspectScope env fs run homeOverride userOverride uidOverride) acc).1,
      r.Sound fs := by
  induction flags generalizing acc with
  | nil => exact hacc
  | cons flag flags ih =>
      obtain ⟨rows, _, hrows, -, hsound⟩ :=
        inspectScope_units env fs run homeOverride userOverride uidOverride acc flag
      refine ih ?_
      rw [hrows]
      exact List.forall_mem_append.mpr ⟨hacc, hsound⟩

/-- Every row of a report says what the file system holds at its resolved path. -/
theorem runDoctor_sound (scope : DoctorScope) (s : σ) :
    ∀ r ∈ (runDoctor env fs run homeOverride userOverride uidOverride scope s).1.units,
      r.Sound fs :=
  foldl_inspectScope_sound env fs run homeOverride userOverride uidOverride scope.flags
    fun _ hr => absurd hr List.not_mem_nil

/-! ## The verdict -/

theorem fails_eq_true_iff (r : UnitReport) :
    r.fails = true ↔ r.execStart ≠ [] ∧ r.binaryOk = false := by
  rw [UnitReport.fails, Bool.and_eq_true, Bool.not_eq_true', Bool.not_eq_true',
    List.isEmpty_eq_false_iff, and_comm]

/-- The verdict is about every unit: it is positive exactly when all binaries are in
order, names the units whose binary is not, and exits with zero only when every resolved
path is executable. -/
structure DoctorReport.VerdictSound (report : DoctorReport) : Prop where
  allOk : report.allOk = true ↔ ∀ r ∈ report.units, r.binaryExists = true ∧ r.executable = true
  failures : report.failures = (report.units.filter fun r =>
    decide ¬(r.binaryExists = true ∧ r.executable = true)).map UnitReport.unit
  exit : report.exitCode = 0 → ∀ r ∈ report.units, fs.IsExecutable r.resolved

theorem UnitReport.binaryOk_eq_true_iff (r : UnitReport) :
    r.binaryOk = true ↔ r.binaryExists = true ∧ r.executable = true := by
  rw [UnitReport.binaryOk, Bool.and_eq_true]

theorem UnitReport.binaryOk_eq_false_iff (r : UnitReport) :
    r.binaryOk = false ↔ ¬(r.binaryExists = true ∧ r.executable = true) := by
  rw [← Bool.not_eq_true, binaryOk_eq_true_iff]

variable {fs} in
/-- A row without binary is not in order. -/
theorem UnitReport.Sound.bits_of_nil {r : UnitReport} (h : r.Sound fs) (hexec : r.execStart = []) :
    r.binaryExists = false ∧ r.executable = false := by
  have hbits := h.bits
  rw [h.resolved_nil hexec] at hbits
  exact Prod.mk.inj hbits

theorem DoctorReport.exitCode_eq_zero_iff (report : DoctorReport) :
    report.exitCode = 0 ↔ report.allOk = true := by
  rw [DoctorReport.exitCode]
  split_ifs with hok <;> simp [hok]

/-- The verdict counts the units that have a binary; it names those whose binary is not
in order, and exits with zero only when every such binary exists and is executable. -/
theorem doctorVerdict (scope : DoctorScope) (s : σ) :
    let report := (runDoctor env fs run homeOverride userOverride uidOverride scope s).1
    (report.allOk = true ↔ ∀ r ∈ report.units, r.execStart ≠ [] → r.binaryOk = true) ∧
    report.failures = (report.units.filter fun r =>
      decide (r.execStart ≠ [] ∧ r.binaryOk = false)).map UnitReport.unit ∧
    (report.exitCode = 0 → ∀ r ∈ report.units, r.execStart ≠ [] → fs.IsExecutable r.resolved) ∧
    (∀ r ∈ report.units, r.execStart = [] → r.binaryExists = false ∧ r.executable = false) := by
  intro report
  have hsound : ∀ r ∈ report.units, r.Sound fs :=
    runDoctor_sound env fs run homeOverride userOverride uidOverride scope s
  have hfailures : report.failures = (report.units.filter fun r =>
      decide (r.execStart ≠ [] ∧ r.binaryOk = false)).map UnitReport.unit := by
    have hfails : UnitReport.fails =
        fun r : UnitReport => decide (r.execStart ≠ [] ∧ r.binaryOk = false) := by
      funext r
      rw [Bool.eq_iff_iff, fails_eq_true_iff, decide_eq_true_iff]
    rw [← hfails]
    rfl
  have hall : report.allOk = true ↔
      ∀ r ∈ report.units, r.execStart ≠ [] → r.binaryOk = true := by
    have hempty : report.allOk = report.failures.isEmpty := rfl
    rw [hempty, hfailures, List.isEmpty_iff, List.map_eq_nil_iff, List.filter_eq_nil_iff]
    simp only [decide_eq_true_iff, not_and, Bool.not_eq_false]
  refine ⟨hall, hfailures, fun hexit r hr hexec => ?_, fun r hr hexec => ?_⟩
  · have hok := hall.mp (report.exitCode_eq_zero_iff.mp hexit) r hr hexec
    exact ((hsound r hr).binaryOk_iff.mp hok).2
  · exact (hsound r hr).bits_of_nil hexec

/-- The parser answers with a word. -/
theorem parseExecStart_word {out token : Str} (h : parseExecStart out = some token) :
    token ≠ [] ∧ ∀ c ∈ token, isWhitespace c = false := by
  obtain ⟨line, -, htoken⟩ := List.exists_of_findSome?_eq_some h
  cases hline : stripPrefix execStart (trim line) with
  | none => simp [execToken, hline] at htoken
  | some value =>
      rw [execToken_of_value hline] at htoken
      exact firstWord_spec htoken

theorem parseExecStart_getD_ne_nil_iff (out : Str) :
    (parseExecStart out).getD [] ≠ [] ↔ (parseExecStart out).isSome = true := by
  cases hparse : parseExecStart out with
  | none => simp
  | some token => simpa using (parseExecStart_word hparse).1

/-- Every row has a binary exactly when every answer has one. -/
theorem runDoctor_execStarts (scope : DoctorScope) (s : σ) :
    (∀ r ∈ (runDoctor env fs run homeOverride userOverride uidOverride scope s).1.units,
        r.execStart ≠ []) ↔
      ∀ a ∈ unitAnswers run scope s, (parseExecStart a.cat).isSome = true := by
  have hreads := runDoctor_reads env fs run homeOverride userOverride uidOverride scope s
  generalize unitAnswers run scope s = answers at hreads ⊢
  generalize (runDoctor env fs run homeOverride userOverride uidOverride scope s).1.units = rows
    at hreads ⊢
  induction hreads with
  | nil => simp
  | cons hread _ ih =>
      rw [List.forall_mem_cons, List.forall_mem_cons, hread.execStart,
        parseExecStart_getD_ne_nil_iff]
      exact and_congr_right' ih

/-- The verdict is about every unit exactly when the service manager prints a binary for
each unit that it lists. -/
theorem doctorVerdict_iff (scope : DoctorScope) (s : σ) :
    (runDoctor env fs run homeOverride userOverride uidOverride scope s).1.VerdictSound fs ↔
      ∀ a ∈ unitAnswers run scope s, (parseExecStart a.cat).isSome = true := by
  rw [← runDoctor_execStarts env fs run homeOverride userOverride uidOverride]
  obtain ⟨hall, hfailures, hexit, hnone⟩ :=
    doctorVerdict env fs run homeOverride userOverride uidOverride scope s
  set report := (runDoctor env fs run homeOverride userOverride uidOverride scope s).1
  constructor
  · intro h r hr hexec
    -- The two filters keep equally many rows, and one of them is stricter.
    have hstricter : (report.units.filter fun r => decide ¬(r.binaryExists = true ∧
        r.executable = true)).filter (fun r => decide (r.execStart ≠ [])) =
          report.units.filter fun r => decide (r.execStart ≠ [] ∧ r.binaryOk = false) := by
      rw [List.filter_filter]
      refine List.filter_congr fun r _ => ?_
      rw [← Bool.decide_and, decide_eq_decide, UnitReport.binaryOk_eq_false_iff]
    have hlength := congrArg List.length (h.failures.symm.trans hfailures)
    rw [List.length_map, List.length_map, ← hstricter] at hlength
    have hsame := List.filter_sublist.eq_of_length hlength.symm
    obtain ⟨hmissing, -⟩ := hnone r hr hexec
    have hmem : r ∈ report.units.filter fun r =>
        decide ¬(r.binaryExists = true ∧ r.executable = true) :=
      List.mem_filter.mpr ⟨hr, by simp [hmissing]⟩
    rw [← hsame, List.mem_filter] at hmem
    exact of_decide_eq_true hmem.2 hexec
  · intro hsome
    refine ⟨?_, ?_, fun hzero r hr => hexit hzero r hr (hsome r hr)⟩
    · rw [hall]
      refine forall₂_congr fun r hr => ?_
      rw [← UnitReport.binaryOk_eq_true_iff]
      exact ⟨fun h => h (hsome r hr), fun h _ => h⟩
    · rw [hfailures]
      refine congrArg _ (List.filter_congr fun r hr => ?_)
      rw [decide_eq_decide, UnitReport.binaryOk_eq_false_iff]
      exact and_iff_right (hsome r hr)

end Run

/-- A service manager that lists the audio unit and prints nothing for it. -/
def forgetfulManager : CmdRunner Unit := fun _ args s =>
  if args = listUnitFiles userFlag "wm-*.service".toList then
    (("wm-audio.service enabled\n".toList, true), s)
  else (([], false), s)

/-- An empty file system. -/
def noFiles : FileSystem where
  pathExists := fun _ => false
  mode := fun _ => none

/-- A unit without binary passes the verdict although nothing of it exists. -/
theorem doctorVerdict_without_binary :
    let report := (runDoctor bareProcess noFiles forgetfulManager none none none .user ()).1
    report.allOk = true ∧ report.failures = [] ∧ report.exitCode = 0 ∧
    ¬ ∀ r ∈ report.units, r.binaryExists = true ∧ r.executable = true := by
  decide

end Wintermute
