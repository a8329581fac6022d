import Wintermute.Foundation.ArgLoop
import Wintermute.Foundation.HereString
import Wintermute.Text

/-!
# The arguments of the installer

The library parses the arguments of the installer, so that the flags can be tested
without a shell, and the installer parses them itself.  The library reads an iterator and
passes over a first element that is no flag, as a program name is none; the installer
shifts its positional parameters.

Main results:

- Theorem {lit}`flagLoops_inStep`: one round of the two loops.
- Theorem {lit}`parseInstallArgs_related`: the two parsers succeed with the same values or
  fail, and the library's error is what the installer reports.
- Theorem {lit}`parseInstallArgs_agrees`: success with the same values on one side is
  success on the other, for every list of arguments, with or without the program name.
-/

namespace Wintermute
namespace Kiosk

open Foundation

/-! ## The library -/

/-- The kiosk user unless another one is given. -/
def defaultKioskUser : Str :=
  "wintermute".toList

/-- What the installer is asked to do. -/
structure InstallArgs where
  kiosk : Bool
  uninstallKiosk : Bool
  dryRun : Bool
  user : Str
deriving DecidableEq, Repr

instance : Inhabited InstallArgs where
  default :=
    { kiosk := false
      uninstallKiosk := false
      dryRun := false
      user := defaultKioskUser }

/-- The usage line. -/
def usage : Str :=
  "usage: install.sh [--kiosk|--uninstall-kiosk] [--dry-run] [--user NAME]".toList

/-- The match on one argument {lit}`a`; {lit}`it` is the iterator behind it. -/
def matchArg (out : InstallArgs) (a : Str) (it : List Str) :
    Except Str (InstallArgs × List Str) :=
  if a = "--kiosk".toList then .ok ({ out with kiosk := true }, it)
  else if a = "--uninstall-kiosk".toList then .ok ({ out with uninstallKiosk := true }, it)
  else if a = "--dry-run".toList then .ok ({ out with dryRun := true }, it)
  else if a = "--user".toList then
    match it with
    | [] => .error "--user requires a value".toList
    | v :: it => .ok ({ out with user := v }, it)
  else if a = "-h".toList ∨ a = "--help".toList then .error usage
  else .error ("unknown argument: ".toList ++ a)

/-- A round takes the argument at hand, and with it at most its value. -/
theorem matchArg_left {out out' : InstallArgs} {a : Str} {it left : List Str}
    (h : matchArg out a it = .ok (out', left)) : left = it ∨ ∃ v, it = v :: left := by
  unfold matchArg at h
  split_ifs at h
  · cases h
    exact Or.inl rfl
  · cases h
    exact Or.inl rfl
  · cases h
    exact Or.inl rfl
  · cases it with
    | nil => cases h
    | cons v it =>
        cases h
        exact Or.inr ⟨v, rfl⟩

/-- The loop over the iterator. -/
def matchLoop : ArgLoop Str InstallArgs Str where
  body := matchArg
  length_le := by
    intro out out' a it left h
    rcases matchArg_left h with rfl | ⟨v, rfl⟩
    · exact le_rfl
    · exact Nat.le_succ left.length

/-- What the loop reads: a first element that starts like a flag is one, any other one is
the name of the program. -/
def skipProgramName : List Str → List Str
  | [] => []
  | first :: it =>
      if "--".toList.isPrefixOf first || "-".toList.isPrefixOf first then first :: it else it

/-- {lit}`parse_install_args`. -/
def parseInstallArgs (args : List Str) : Except Str InstallArgs := do
  let out ← matchLoop.run default (skipProgramName args)
  if out.kiosk && out.uninstallKiosk then
    throw "--kiosk and --uninstall-kiosk are mutually exclusive".toList
  return out

/-! ## The installer -/

/-- The variables of the flag loop. -/
structure FlagVars where
  kiosk : ℕ
  uninstallKiosk : ℕ
  dryRun : ℕ
  userName : Str
deriving DecidableEq, Repr

/-- How the installer exits: the status and the two output streams. -/
structure ScriptExit where
  status : ℕ
  stdout : Str
  stderr : Str
deriving DecidableEq, Repr

/-- An exit with status 2 and a message of the installer. -/
def ScriptExit.usageError (message : Str) : ScriptExit where
  status := 2
  stdout := []
  stderr := "install.sh: ".toList ++ message ++ ['\n']

/-- The help text behind the usage line. -/
def helpLines : List Str :=
  ["".toList,
   "Install-path convention: ~/.local/bin/ (user-scope fleet, all modes).".toList,
   "  All fleet binaries are installed to ~/.local/bin/.".toList,
   "  All user-scope unit ExecStart= lines are rewritten to %h/.local/bin/<binary>.".toList,
   "  The install is gated on `wm doctor` exiting 0 (unless --dry-run).".toList,
   "".toList,
   "Modes:".toList,
   "  default              dev install: cargo install --path . --root ~/.local".toList,
   "                       + reconcile unit files to convention".toList,
   "                       + gate on `wm doctor` exit 0".toList,
   "  --kiosk              kiosk install: /usr/local/bin/ + greetd autologin +".toList,
   "                       boot-recovery service + tmpfiles.d + enable-linger".toList,
   "  --uninstall-kiosk    revert kiosk wiring; leave wm-* binaries intact".toList,
   "".toList,
   "Options:".toList,
   "  --dry-run            print what would change; do not write".toList,
   "  --user NAME          kiosk user (default: wintermute)".toList]

/-- The exit of the help flags. -/
def ScriptExit.help : ScriptExit where
  status := 0
  stdout := Shell.heredoc
    ("usage: install.sh [--kiosk|--uninstall-kiosk] [--dry-run] [--user NAME]".toList :: helpLines)
  stderr := []

/-- The case statement on {lit}`$1`; {lit}`rest` are the positional parameters behind it.
It leaves the variables and the positional parameters. -/
def caseFlag (vars : FlagVars) (flag : Str) (rest : List Str) :
    Except ScriptExit (FlagVars × List Str) :=
  if flag = "--kiosk".toList then .ok ({ vars with kiosk := 1 }, flag :: rest)
  else if flag = "--uninstall-kiosk".toList then
    .ok ({ vars with uninstallKiosk := 1 }, flag :: rest)
  else if flag = "--dry-run".toList then .ok ({ vars with dryRun := 1 }, flag :: rest)
  else if flag = "--user".toList then
    -- The first `shift`; the value becomes the first parameter.
    match rest with
    | [] => .error (.usageError "--user requires a value".toList)
    | name :: behind => .ok ({ vars with userName := name }, name :: behind)
  else if flag = "-h".toList ∨ flag = "--help".toList then .error .help
  else .error (.usageError ("unknown argument: ".toList ++ flag))

/-- The case statement leaves the flag or its value in front of the parameters. -/
theorem caseFlag_params {vars vars' : FlagVars} {flag : Str} {rest params : List Str}
    (h : caseFlag vars flag rest = .ok (vars', params)) :
    params = flag :: rest ∨ params = rest := by
  unfold caseFlag at h
  split_ifs at h
  · cases h
    exact Or.inl rfl
  · cases h
    exact Or.inl rfl
  · cases h
    exact Or.inl rfl
  · cases rest with
    | nil => cases h
    | cons name behind =>
        cases h
        exact Or.inr rfl

/-- The flag loop: the case statement and a {lit}`shift`. -/
def shiftLoop : ArgLoop Str FlagVars ScriptExit where
  body := fun vars flag rest =>
    match caseFlag vars flag rest with
    | .ok (vars, params) => .ok (vars, params.tail)
    | .error exit => .error exit
  length_le := by
    intro vars vars' flag rest left h
    split at h
    · rename_i params hcase
      cases h
      rcases caseFlag_params hcase with rfl | rfl
      · exact le_rfl
      · rw [List.length_tail]
        exact Nat.sub_le _ 1
    · cases h

/-- The variables before the loop. -/
def initialVars : FlagVars where
  kiosk := 0
  uninstallKiosk := 0
  dryRun := 0
  userName := "wintermute".toList

/-- The flag loop and the check behind it. -/
def scriptFlags (params : List Str) : Except ScriptExit FlagVars := do
  let vars ← shiftLoop.run initialVars params
  if vars.kiosk = 1 ∧ vars.uninstallKiosk = 1 then
    throw (.usageError "--kiosk and --uninstall-kiosk are mutually exclusive".toList)
  return vars

/-! ## The two in step -/

/-- The values of the library as the installer holds them. -/
def InstallArgs.vars (out : InstallArgs) : FlagVars where
  kiosk := out.kiosk.toNat
  uninstallKiosk := out.uninstallKiosk.toNat
  dryRun := out.dryRun.toNat
  userName := out.user

theorem InstallArgs.vars_injective : Function.Injective InstallArgs.vars := by
  rintro ⟨kiosk, uninstallKiosk, dryRun, user⟩ ⟨kiosk', uninstallKiosk', dryRun', user'⟩ h
  have hnat : Function.Injective Bool.toNat := by decide
  simpa only [vars, FlagVars.mk.injEq, hnat.eq_iff, InstallArgs.mk.injEq] using h

/-- The installer exits with the error of the library, and on a help flag with a text
that starts with the usage line. -/
def Reports (e : Str) (exit : ScriptExit) : Prop :=
  exit = .usageError e ∨ e = usage ∧ exit = .help

/-- One round: the same values and the same arguments left, or the same error. -/
theorem flagLoops_inStep :
    ArgLoop.InStep (fun out vars => InstallArgs.vars out = vars) Reports matchLoop shiftLoop := by
  intro out vars a rest hR
  subst hR
  change Related _ _ (matchArg out a rest)
    (match caseFlag out.vars a rest with
    | .ok (vars, params) => .ok (vars, params.tail)
    | .error exit => .error exit)
  unfold matchArg caseFlag
  split_ifs
  · exact Related.ok ⟨rfl, rfl⟩
  · exact Related.ok ⟨rfl, rfl⟩
  · exact Related.ok ⟨rfl, rfl⟩
  · cases rest with
    | nil => exact Related.error (Or.inl rfl)
    | cons v it => exact Related.ok ⟨rfl, rfl⟩
  · exact Related.error (Or.inr ⟨rfl, rfl⟩)
  · exact Related.error (Or.inl rfl)

/-- The check for both modes. -/
theorem bothModes_iff (out : InstallArgs) :
    (out.vars.kiosk = 1 ∧ out.vars.uninstallKiosk = 1) ↔
      (out.kiosk && out.uninstallKiosk) = true := by
  simp [InstallArgs.vars, Bool.toNat_eq_one]

/-- A name that is no flag is passed over. -/
theorem skipProgramName_cons {name : Str} (hname : name.head? ≠ some '-') (it : List Str) :
    skipProgramName (name :: it) = it := by
  cases name with
  | nil => rfl
  | cons c rest =>
      have hc : ¬ '-' = c := fun h => hname (by rw [List.head?_cons, h])
      simp [skipProgramName, List.isPrefixOf, hc]

/-- A first flag stays. -/
theorem skipProgramName_flag {args : List Str}
    (h : args = [] ∨ ∃ first ∈ args.head?, first.head? = some '-') :
    skipProgramName args = args := by
  rcases h with rfl | ⟨first, hfirst, hdash⟩
  · rfl
  · cases args with
    | nil => cases hfirst
    | cons arg it =>
        cases hfirst
        cases first with
        | nil => cases hdash
        | cons c rest =>
            cases hdash
            simp [skipProgramName, List.isPrefixOf]

/-- Behind the program's name the two parsers succeed with the same values, or the
library's error is what the installer reports. -/
theorem parseInstallArgs_related (args : List Str) :
    Related (fun out vars => InstallArgs.vars out = vars) Reports
      (parseInstallArgs ("install.sh".toList :: args)) (scriptFlags args) := by
  have hloops : Related (fun out vars => InstallArgs.vars out = vars) Reports
      (matchLoop.run default args) (shiftLoop.run initialVars args) :=
    ArgLoop.run_related flagLoops_inStep args rfl
  rw [parseInstallArgs, skipProgramName_cons (by decide), scriptFlags]
  apply hloops.bind
  rintro out vars rfl
  by_cases hboth : (out.kiosk && out.uninstallKiosk) = true
  · rw [if_pos hboth, if_pos ((bothModes_iff out).mpr hboth)]
    exact Related.error (Or.inl rfl)
  · rw [if_neg hboth, if_neg (mt (bothModes_iff out).mp hboth)]
    exact Related.ok rfl

/-- The parsers agree on every list of arguments: the library succeeds behind the program's
name exactly when the installer gets past its flags, with the same values, and fails exactly
when the installer exits.  Without the program's name the library does the same, when the
first argument starts with a dash or there is none. -/
theorem parseInstallArgs_agrees (args : List Str) :
    (∀ out, parseInstallArgs ("install.sh".toList :: args) = .ok out ↔
        scriptFlags args = .ok out.vars) ∧
      ((∃ e, parseInstallArgs ("install.sh".toList :: args) = .error e) ↔
        ∃ exit, scriptFlags args = .error exit) ∧
      ((args = [] ∨ ∃ first ∈ args.head?, first.head? = some '-') →
        parseInstallArgs args = parseInstallArgs ("install.sh".toList :: args)) := by
  have hrelated := parseInstallArgs_related args
  refine ⟨hrelated.ok_iff InstallArgs.vars_injective, hrelated.error_iff, ?_⟩
  intro hflag
  rw [parseInstallArgs, parseInstallArgs, skipProgramName_flag hflag,
    skipProgramName_cons (by decide)]

/-- A flag in the place of a value is the value. -/
theorem parseInstallArgs_agrees_user :
    parseInstallArgs ["--user".toList, "--kiosk".toList] =
      parseInstallArgs ["install.sh".toList, "--user".toList, "--kiosk".toList] :=
  (parseInstallArgs_agrees ["--user".toList, "--kiosk".toList]).2.2
    (Or.inr ⟨"--user".toList, rfl, by decide⟩)

end Kiosk
end Wintermute
