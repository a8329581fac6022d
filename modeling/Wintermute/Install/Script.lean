import Mathlib.Logic.Function.Basic
import Wintermute.Foundation.LastWriter
import Wintermute.Install.Reconcile
import Wintermute.Kiosk.InstallArgs
import Wintermute.Kiosk.Payloads

/-!
# The installer

The script runs commands one after the other and goes on when one fails.  The machine
answers each command, each test of a path and each look at a file from the commands run so
far, so a command may change any file.  The script itself changes files by its commands
only.  It stops where it needs the home directory and the variable for it is not set.

Main results:

- Theorem {lit}`installScript_inert`: a dry run, or a script that refuses its arguments,
  runs no command.
- Theorem {lit}`installScript_fails_iff`: the script exits with status 1 exactly when it
  needs a home directory that is not set, or the doctor was its last command and failed.
- Theorem {lit}`installScript_converges`: installing again leaves the unit files as they
  are.
-/

namespace Wintermute
namespace Install

open Foundation Kiosk

/-! ## The machine -/

/-- What the script runs on: the exit status of a command, the text of a file and the tests
of a path, from the commands run so far, newest first; and what the shell says when the
script needs {lit}`HOME` and it is not set. -/
structure System where
  status : List (List Str) → List Str → ℕ
  files : List (List Str) → Str → Option Str
  executable : List (List Str) → Str → Bool
  directory : List (List Str) → Str → Bool
  locale : Locale
  home : Option Str
  scriptDir : Str
  unboundHome : Str

/-- The commands run so far, newest first, and what the script has written on its two
outputs. -/
structure Session where
  ran : List (List Str)
  stdout : Str
  stderr : Str

namespace Session

/-- Print a line. -/
def say (line : Str) (s : Session) : Session :=
  { s with stdout := s.stdout ++ line ++ ['\n'] }

/-- {lit}`log`. -/
def log (message : Str) (s : Session) : Session :=
  { s with stderr := s.stderr ++ "[install.sh] ".toList ++ message ++ ['\n'] }

/-- Run a command. -/
def exec (sys : System) (argv : List Str) (s : Session) : ℕ × Session :=
  (sys.status s.ran argv, { s with ran := argv :: s.ran })

/-- {lit}`runit`: run a command, or announce it in a dry run; its status is never used. -/
def runit (sys : System) (dryRun : ℕ) (argv : List Str) (s : Session) : Session :=
  if dryRun = 1 then s.say ("  DRY-RUN: ".toList ++ [' '].intercalate argv)
  else (s.exec sys argv).2

end Session

/-! ## The development install -/

/-- The stream edit of a unit file. -/
def sedArgv (file : Str) : List Str :=
  ["sed".toList, "-i".toList,
   "-e".toList, "s|^ExecStart=/usr/local/bin/\\([^ ]*\\)|ExecStart=%h/.local/bin/\\1|".toList,
   "-e".toList, "s|^ExecStart=%h/\\.cargo/bin/\\([^ ]*\\)|ExecStart=%h/.local/bin/\\1|".toList,
   "-e".toList, "s|^ExecStart=~/.cargo/bin/\\([^ ]*\\)|ExecStart=%h/.local/bin/\\1|".toList,
   file]

/-- {lit}`reconcile_unit_file`. -/
def reconcileFile (sys : System) (dryRun : ℕ) (s : Session) (file : Str) : Session :=
  match sys.files s.ran file with
  | none => s
  | some _ =>
      if dryRun = 1 then
        s.say ("  DRY-RUN: reconcile ExecStart in ".toList ++ file ++ " to %h/.local/bin/".toList)
      else (s.exec sys (sedArgv file)).2.log ("reconciled ".toList ++ file)

/-- The directory of the user's unit files. -/
def userUnitDir (home : Str) : Str :=
  home ++ "/.config/systemd/user".toList

/-- The units whose files are reconciled. -/
def reconciledUnits : List Str :=
  ["wmd-init.service".toList, "wm-audio.service".toList, "wm-tts.service".toList,
    "wm-stt.service".toList, "wm-dialog.service".toList, "wmd.service".toList,
    "wintermute-ready.service".toList]

/-- The unit files that are reconciled. -/
def unitFiles (home : Str) : List Str :=
  reconciledUnits.map fun unit => userUnitDir home ++ '/' :: unit

/-- The command-line tool after the install. -/
def wmBin (home : Str) : Str :=
  home ++ "/.local/bin/wm".toList

/-- The command that installs the binaries. -/
def cargoArgv (sys : System) (home : Str) : List Str :=
  ["cargo".toList, "install".toList, "--path".toList, sys.scriptDir, "--root".toList,
    home ++ "/.local".toList]

/-- The command after which the user's manager reads the unit files again. -/
def reloadArgv : List Str :=
  ["systemctl".toList, "--user".toList, "daemon-reload".toList]

/-- Reconcile the user's unit files, if there is a directory of them. -/
def reconcileUnits (sys : System) (home : Str) (dryRun : ℕ) (s : Session) : Session :=
  if sys.directory s.ran (userUnitDir home) then
    let s := s.log ("reconciling user-scope unit files in ".toList ++ userUnitDir home)
    let s := (unitFiles home).foldl (reconcileFile sys dryRun) s
    if dryRun = 0 then (s.runit sys dryRun reloadArgv).log "systemd user daemon reloaded".toList
    else s
  else s

/-- The command that installs the system's units. -/
def systemArgv (sys : System) : List Str :=
  ["sudo".toList, sys.scriptDir ++ "/pkg/install-system.sh".toList]

/-- Install the system's units, if there is a script for it. -/
def installSystem (sys : System) (dryRun : ℕ) (s : Session) : Session :=
  if sys.executable s.ran (sys.scriptDir ++ "/pkg/install-system.sh".toList) then
    (s.log "running pkg/install-system.sh (systemd units, wintermute-session)".toList).runit sys
      dryRun (systemArgv sys)
  else s

/-- What {lit}`install-system.sh` copies, and where to. -/
def artifacts (scriptDir : Str) : List (Str × Str) :=
  [("/pkg/bin/wintermute-session".toList, "/usr/local/bin/wintermute-session".toList),
   ("/pkg/systemd/user/wintermute.target".toList,
     "/usr/lib/systemd/user/wintermute.target".toList),
   ("/pkg/systemd/user/wmd-init.service".toList,
     "/usr/lib/systemd/user/wmd-init.service".toList),
   ("/pkg/greetd/config.toml.example".toList, "/etc/greetd/config.toml.example".toList)].map
      fun (source, target) => (scriptDir ++ source, target)

/-- {lit}`install-system.sh`: copy one file after the other and stop at the first that is not
copied. -/
def installArtifacts (copied : Str → Bool) :
    List (Str × Str) → (Str → Option Str) → Str → Option Str
  | [], files => files
  | (source, target) :: copies, files =>
      match files source with
      | none => files
      | some text =>
          if copied target then
            installArtifacts copied copies (Function.update files target (some text))
          else files

/-- The command of the gate. -/
def doctorArgv (home : Str) : List Str :=
  [wmBin home, "doctor".toList]

/-- The gate at the end: the exit status of the script. -/
def doctorGate (sys : System) (home : Str) (dryRun : ℕ) (s : Session) : ℕ × Session :=
  if dryRun = 0 then
    if sys.executable s.ran (wmBin home) then
      let s := s.log "running wm doctor (gate: all fleet checks must pass)".toList
      let (status, s) := s.exec sys (doctorArgv home)
      if status ≠ 0 then
        (1, (s.log "ERROR: wm doctor reported failures — install did not fully succeed.".toList).log
          "Run: wm doctor  (for details)".toList)
      else (0, s.log "wm doctor passed — install complete.".toList)
    else
      (0, (s.log ("WARNING: wm binary not found at ".toList ++ wmBin home ++
        "; skipping doctor gate.".toList)).log
          "Re-run install.sh after the build completes to enforce the gate.".toList)
  else (0, s.say "  DRY-RUN: wm doctor (gate: would run if wet)".toList)

/-- {lit}`dev_install`.  The home directory is needed behind the first two messages. -/
def devInstall (sys : System) (vars : FlagVars) (s : Session) : ℕ × Session :=
  let s := s.log "dev install: cargo install --path . --root ~/.local".toList
  let s := s.log ("convention: all fleet binaries -> ~/.local/bin/ ".toList ++
    "(PRD-wintermute-install-path-convention)".toList)
  match sys.home with
  | none => (1, { s with stderr := s.stderr ++ sys.unboundHome })
  | some home =>
      let s := s.runit sys vars.dryRun (cargoArgv sys home)
      let s := reconcileUnits sys home vars.dryRun s
      let s := installSystem sys vars.dryRun s
      doctorGate sys home vars.dryRun s

/-! ## The kiosk install -/

/-- Install one of the platform's binaries, if it was built. -/
def installBinary (sys : System) (s : Session) (binary : Str) : Session :=
  let src := sys.scriptDir ++ "/target/release/".toList ++ binary
  if sys.executable s.ran src then
    s.runit sys 0 ["sudo".toList, "install".toList, "-Dm755".toList, src,
      "/usr/local/bin/".toList ++ binary]
  else s

/-- The command that writes a rendering to a path through a shell. -/
def writeArgv (path rendering : Str) : List Str :=
  ["sudo".toList, "bash".toList, "-c".toList,
    Shell.quotedHereString (installCommand path) (Shell.commandSubst rendering)]

/-- The binaries whose paths are announced. -/
def announcedBinaries : List Str :=
  ["wm-tts".toList, "wm-stt".toList, "wm-audio".toList, "wm-dialog".toList, "wmd".toList,
    "wmd-init".toList, "wm-bootstrap".toList]

/-- Print lines. -/
def Session.sayAll (lines : List Str) (s : Session) : Session :=
  lines.foldl (fun s line => s.say line) s

/-- The commands of a step that only a wet run takes. -/
def whenWet (dryRun : ℕ) (f : Session → Session) (s : Session) : Session :=
  if dryRun = 0 then f s else s

/-- {lit}`kiosk_install`. -/
def kioskInstall (sys : System) (vars : FlagVars) (s : Session) : Session :=
  let user := vars.userName
  let s := s.log ("kiosk install (user=".toList ++ user ++ ", dry-run=".toList ++
    Nat.toDigits 10 vars.dryRun ++ ")".toList)
  let s := s.say ("kiosk-install plan for user=".toList ++ user ++
    " bin_prefix=/usr/local/bin".toList)
  let s := s.say "steps: 7".toList
  -- 1. Install binaries to /usr/local/bin/.
  let s := s.say ("  [1/7] install-binaries (root=true): ".toList ++
    "cargo install + relocate to /usr/local/bin/".toList)
  let s := s.sayAll (announcedBinaries.map fun b => "         writes: /usr/local/bin/".toList ++ b)
  let s := whenWet vars.dryRun (fun s =>
    ["wmd-init".toList, "wm".toList].foldl (installBinary sys)
      (s.runit sys vars.dryRun
        ["cargo".toList, "build".toList, "--release".toList, "--bins".toList])) s
  -- 2. greetd config.
  let s := s.say ("  [2/7] greetd-config (root=true): ".toList ++
    "write greetd autologin config for user=".toList ++ user)
  let s := s.say "         writes: /etc/greetd/config.toml".toList
  let s := whenWet vars.dryRun (fun s =>
    s.runit sys vars.dryRun (writeArgv greetdConfigPath (renderGreetdConfig user))) s
  -- 3. enable-linger.
  let s := s.say ("  [3/7] enable-linger (root=true): ".toList ++
    "loginctl enable-linger ".toList ++ user)
  let s := s.say ("         writes: /var/lib/systemd/linger/".toList ++ user)
  let s := s.runit sys vars.dryRun
    ["sudo".toList, "loginctl".toList, "enable-linger".toList, user]
  -- 4. tmpfiles.d rule.
  let s := s.say ("  [4/7] tmpfiles-rule (root=true): ".toList ++
    "install tmpfiles.d rule for /run/wintermute/".toList)
  let s := s.say "         writes: /usr/lib/tmpfiles.d/wintermute.conf".toList
  let s := whenWet vars.dryRun (fun s =>
    (s.runit sys vars.dryRun (writeArgv tmpfilesRulePath (renderTmpfilesRule user))).runit sys
      vars.dryRun ["sudo".toList, "systemd-tmpfiles".toList, "--create".toList,
        tmpfilesRulePath]) s
  -- 5. Recovery service (install but do not enable).
  let s := s.say ("  [5/7] recovery-service (root=true): ".toList ++
    "install (do not enable) wintermute-boot-recovery.service".toList)
  let s := s.say
    "         writes: /usr/lib/systemd/system/wintermute-boot-recovery.service".toList
  let s := whenWet vars.dryRun (fun s =>
    (s.runit sys vars.dryRun (writeArgv recoveryServicePath (renderRecoveryService user))).runit
      sys vars.dryRun ["sudo".toList, "systemctl".toList, "daemon-reload".toList]) s
  -- 6. Installed marker.
  let s := s.say ("  [6/7] installed-marker (root=true): ".toList ++
    "create installed marker at /var/lib/wintermute/installed".toList)
  let s := s.say "         writes: /var/lib/wintermute/installed".toList
  let s := whenWet vars.dryRun (fun s =>
    s.runit sys vars.dryRun ["sudo".toList, "install".toList, "-Dm644".toList,
      "/dev/null".toList, "/var/lib/wintermute/installed".toList]) s
  -- 7. Enable user target.
  let s := s.say ("  [7/7] enable-user-target (root=true): ".toList ++
    "enable wintermute.target on user ".toList ++ user)
  let s := s.say ("         writes: /var/lib/systemd/linger/".toList ++ user ++
    " (target-default-symlink)".toList)
  let s := whenWet vars.dryRun (fun s =>
    s.runit sys vars.dryRun ["sudo".toList, "-u".toList, user, "systemctl".toList,
      "--user".toList, "--no-block".toList, "enable".toList, "wintermute.target".toList]) s
  if vars.dryRun = 1 then s.log "dry-run complete; no changes written.".toList
  else s.log "kiosk install complete. Reboot to verify.".toList

/-- {lit}`kiosk_uninstall`. -/
def kioskUninstall (sys : System) (vars : FlagVars) (s : Session) : Session :=
  let user := vars.userName
  let remove := fun (path : Str) (s : Session) =>
    s.runit sys vars.dryRun ["sudo".toList, "rm".toList, "-f".toList, path]
  let s := s.log ("kiosk uninstall (user=".toList ++ user ++ ", dry-run=".toList ++
    Nat.toDigits 10 vars.dryRun ++ ")".toList)
  let s := s.say ("kiosk-uninstall plan for user=".toList ++ user)
  let s := s.say "steps: 4 (wm-* binaries are intentionally left intact, AC9)".toList
  let s := remove recoveryServicePath (s.say "  [1/4] remove-recovery-service".toList)
  let s := remove greetdConfigPath
    (s.say "  [2/4] remove-greetd-config (restore upstream default)".toList)
  let s := remove tmpfilesRulePath (s.say "  [3/4] remove-tmpfiles-rule".toList)
  let s := (s.say ("  [4/4] disable-linger ".toList ++ user)).runit sys vars.dryRun
    ["sudo".toList, "loginctl".toList, "disable-linger".toList, user]
  if vars.dryRun = 0 then
    (s.runit sys vars.dryRun ["sudo".toList, "systemctl".toList, "daemon-reload".toList]).log
      "uninstall complete. wm-* binaries remain installed (AC9).".toList
  else s.log "dry-run complete; no changes written.".toList

/-! ## The script -/

/-- The whole script, from its arguments to its exit status. -/
def installScript (sys : System) (params : List Str) (s : Session) : ℕ × Session :=
  match scriptFlags params with
  | .error exit =>
      (exit.status, { s with stdout := s.stdout ++ exit.stdout, stderr := s.stderr ++ exit.stderr })
  | .ok vars =>
      if vars.uninstallKiosk = 1 then (0, kioskUninstall sys vars s)
      else if vars.kiosk = 1 then (0, kioskInstall sys vars s)
      else devInstall sys vars s

/-! ## What the primitives leave -/

section Primitives

variable (sys : System) (line : Str) (argv : List Str) (s : Session)

@[simp]
theorem say_ran : (s.say line).ran = s.ran :=
  rfl

@[simp]
theorem log_ran : (s.log line).ran = s.ran :=
  rfl

@[simp]
theorem runit_dry : s.runit sys 1 argv =
    s.say ("  DRY-RUN: ".toList ++ [' '].intercalate argv) :=
  rfl

@[simp]
theorem runit_wet_ran : (s.runit sys 0 argv).ran = argv :: s.ran :=
  rfl

@[simp]
theorem sayAll_ran (lines : List Str) : (s.sayAll lines).ran = s.ran := by
  induction lines generalizing s with
  | nil => rfl
  | cons line lines ih => exact ih (s.say line)

@[simp]
theorem whenWet_dry (f : Session → Session) : whenWet 1 f s = s :=
  if_neg Nat.one_ne_zero

end Primitives

/-! ## Dry runs -/

section Scripts

variable {sys : System} {vars : FlagVars} {home : Str}

theorem reconcileFile_dry (sys : System) (s : Session) (file : Str) :
    (reconcileFile sys 1 s file).ran = s.ran := by
  unfold reconcileFile
  split <;> rfl

theorem foldl_reconcileFile_dry (sys : System) (files : List Str) (s : Session) :
    (files.foldl (reconcileFile sys 1) s).ran = s.ran := by
  induction files generalizing s with
  | nil => rfl
  | cons file files ih => exact (ih _).trans (reconcileFile_dry sys s file)

theorem reconcileUnits_dry (s : Session) : (reconcileUnits sys home 1 s).ran = s.ran := by
  unfold reconcileUnits
  split
  · rw [if_neg Nat.one_ne_zero]
    exact foldl_reconcileFile_dry sys (unitFiles home) (s.log _)
  · rfl

theorem installSystem_dry (s : Session) : (installSystem sys 1 s).ran = s.ran := by
  unfold installSystem
  split <;> rfl

/-- A dry development install only prints; it fails when it needs a home directory that is
not set. -/
theorem devInstall_dry (sys : System) (hdry : vars.dryRun = 1) (s : Session) :
    (devInstall sys vars s).1 = (if sys.home = none then 1 else 0) ∧
      (devInstall sys vars s).2.ran = s.ran := by
  unfold devInstall
  cases sys.home with
  | none => exact ⟨rfl, rfl⟩
  | some home =>
      unfold doctorGate
      simp only [hdry, Nat.one_ne_zero, if_false, runit_dry, say_ran, log_ran, installSystem_dry,
        reconcileUnits_dry, reduceCtorEq, and_self]

/-- A dry kiosk install only prints. -/
theorem kioskInstall_dry (sys : System) (hdry : vars.dryRun = 1) (s : Session) :
    (kioskInstall sys vars s).ran = s.ran := by
  unfold kioskInstall
  simp only [hdry, whenWet_dry, runit_dry, if_true, sayAll_ran, say_ran, log_ran]

/-- A dry kiosk uninstall only prints. -/
theorem kioskUninstall_dry (sys : System) (hdry : vars.dryRun = 1) (s : Session) :
    (kioskUninstall sys vars s).ran = s.ran := by
  unfold kioskUninstall
  simp only [hdry, Nat.one_ne_zero, if_false, runit_dry, say_ran, log_ran]

/-! ## Exit statuses -/

/-- The script refuses its arguments with status 2, or shows its help with status 0. -/
theorem scriptFlags_refused {params : List Str} {exit : ScriptExit}
    (h : scriptFlags params = .error exit) : exit.status = 0 ∨ exit.status = 2 := by
  have hrelated := parseInstallArgs_related params
  rw [h] at hrelated
  generalize parseInstallArgs ("install.sh".toList :: params) = parsed at hrelated
  cases hrelated with
  | error hreports =>
      rcases hreports with rfl | ⟨-, rfl⟩
      · exact Or.inr rfl
      · exact Or.inl rfl

/-- The script takes these arguments for a development install. -/
def TakesDev (params : List Str) (vars : FlagVars) : Prop :=
  scriptFlags params = .ok vars ∧ vars.uninstallKiosk ≠ 1 ∧ vars.kiosk ≠ 1

/-- **A dry run is inert.**  When the script takes its arguments for a dry run or refuses
them, it runs no command and so changes no file, in every mode and on every machine.  It
exits with status 0 or 2, but for a development install without a home directory. -/
theorem installScript_inert (sys : System) {params : List Str}
    (hdry : ∀ vars, scriptFlags params = .ok vars → vars.dryRun = 1) (s : Session) :
    (installScript sys params s).2.ran = s.ran ∧
      ((installScript sys params s).1 = 0 ∨ (installScript sys params s).1 = 2 ∨
        (installScript sys params s).1 = 1 ∧ sys.home = none ∧ ∃ vars, TakesDev params vars) := by
  unfold installScript TakesDev
  cases hflags : scriptFlags params with
  | error exit => exact ⟨rfl, (scriptFlags_refused hflags).imp_right Or.inl⟩
  | ok vars =>
      have hdry := hdry vars hflags
      dsimp only
      split_ifs with huninstall hkiosk
      · exact ⟨kioskUninstall_dry sys hdry s, Or.inl rfl⟩
      · exact ⟨kioskInstall_dry sys hdry s, Or.inl rfl⟩
      · obtain ⟨hstatus, hran⟩ := devInstall_dry sys hdry s
        refine ⟨hran, ?_⟩
        split_ifs at hstatus with hhome
        · exact Or.inr (Or.inr ⟨hstatus, hhome, vars, rfl, huninstall, hkiosk⟩)
        · exact Or.inl hstatus

/-- The home directory of the user. -/
def adaHome : Str :=
  "/home/ada".toList

/-- A unit file of the user. -/
def staleFile : Str :=
  userUnitDir adaHome ++ "/wm-audio.service".toList

/-- One stale unit file. -/
def calmFiles : Str → Option Str :=
  Function.update (fun _ => none) staleFile
    (some "[Service]\nExecStart=~/.cargo/bin/wm-audio start\n".toList)

/-- The stream editor edits the file that it is called for, and the system's script copies. -/
def calmEffect (files : Str → Option Str) (argv : List Str) : Str → Option Str :=
  let file := argv.getLastD []
  if argv = sedArgv file then
    Function.update files file (reconcileUnitFile .utf8 false (files file))
  else if file = "/platform/pkg/install-system.sh".toList then
    installArtifacts (fun _ => true) (artifacts "/platform".toList) files
  else files

/-- A machine on which every command succeeds and every path can be executed. -/
def calmMachine : System where
  status := fun _ _ => 0
  files := replay calmEffect calmFiles
  executable := fun _ _ => true
  directory := fun _ _ => true
  locale := .utf8
  home := some adaHome
  scriptDir := "/platform".toList
  unboundHome := "./install.sh: line 190: HOME: unbound variable\n".toList

/-- No command has run and nothing is printed. -/
def staleSession : Session :=
  ⟨[], [], []⟩

theorem scriptFlags_dryRun :
    scriptFlags ["--dry-run".toList] = .ok { initialVars with dryRun := 1 } := by
  have hround : shiftLoop.body initialVars "--dry-run".toList [] =
      .ok ({ initialVars with dryRun := 1 }, []) := rfl
  rw [scriptFlags, ArgLoop.run_cons_ok hround, ArgLoop.run_nil]
  rfl

theorem installScript_inert_staleSession :
    (installScript calmMachine ["--dry-run".toList] staleSession).2.ran = [] :=
  (installScript_inert calmMachine (by
    intro vars hvars
    rw [scriptFlags_dryRun] at hvars
    cases hvars
    rfl) staleSession).1

/-! ## The gate -/

/-- The session in front of the gate. -/
def beforeGate (sys : System) (home : Str) (vars : FlagVars) (s : Session) : Session :=
  installSystem sys vars.dryRun (reconcileUnits sys home vars.dryRun
    (((s.log "dev install: cargo install --path . --root ~/.local".toList).log
      ("convention: all fleet binaries -> ~/.local/bin/ ".toList ++
        "(PRD-wintermute-install-path-convention)".toList)).runit sys vars.dryRun
      (cargoArgv sys home)))

/-- With a home directory the gate decides. -/
theorem devInstall_home (hhome : sys.home = some home) (s : Session) :
    devInstall sys vars s = doctorGate sys home vars.dryRun (beforeGate sys home vars s) := by
  unfold devInstall
  rw [hhome]
  rfl

theorem devInstall_noHome (hhome : sys.home = none) (s : Session) :
    (devInstall sys vars s).1 = 1 := by
  unfold devInstall
  rw [hhome]

/-- The script in its development mode. -/
theorem installScript_dev {params : List Str} (hdev : TakesDev params vars) (s : Session) :
    installScript sys params s = devInstall sys vars s := by
  obtain ⟨hflags, huninstall, hkiosk⟩ := hdev
  unfold installScript
  simp only [hflags, if_neg huninstall, if_neg hkiosk]

/-- The newest command is one of the tools of the script. -/
def LastTool (s : Session) : Prop :=
  ∃ tool args older, s.ran = (tool :: args) :: older ∧ '/' ∉ tool

theorem lastTool_runit (s : Session) {tool : Str} (htool : '/' ∉ tool) (args : List Str) :
    LastTool (s.runit sys 0 (tool :: args)) :=
  ⟨tool, args, s.ran, rfl, htool⟩

/-- In front of the gate of a wet run a tool of the script has run last. -/
theorem beforeGate_lastTool (hwet : vars.dryRun = 0) (s : Session) :
    LastTool (beforeGate sys home vars s) := by
  have hunits : ∀ s, LastTool s → LastTool (reconcileUnits sys home 0 s) := by
    intro s hs
    unfold reconcileUnits
    split
    · rw [if_pos rfl]
      exact @lastTool_runit sys _ _ (by decide) _
    · exact hs
  have hsystem : ∀ s, LastTool s → LastTool (installSystem sys 0 s) := by
    intro s hs
    unfold installSystem
    split
    · exact lastTool_runit _ (by decide) _
    · exact hs
  rw [beforeGate, hwet]
  exact hsystem _ (hunits _ (lastTool_runit _ (by decide) _))

/-- The gate fails exactly when the doctor runs last and fails. -/
theorem doctorGate_fails_iff {dryRun : ℕ} {s : Session} (hs : dryRun = 0 → LastTool s) :
    (doctorGate sys home dryRun s).1 = 1 ↔ dryRun = 0 ∧ ∃ before,
      (doctorGate sys home dryRun s).2.ran = doctorArgv home :: before ∧
        sys.status before (doctorArgv home) ≠ 0 := by
  unfold doctorGate
  split
  · rename_i hwet
    split
    · dsimp only [Session.exec]
      split
      · rename_i hstatus
        exact iff_of_true rfl ⟨hwet, s.ran, rfl, hstatus⟩
      · rename_i hstatus
        refine iff_of_false Nat.zero_ne_one ?_
        rintro ⟨-, before, hran, hfails⟩
        obtain ⟨-, rfl⟩ := List.cons.inj hran
        exact hstatus hfails
    · refine iff_of_false Nat.zero_ne_one ?_
      rintro ⟨-, before, hran, -⟩
      obtain ⟨tool, args, older, htools, htool⟩ := hs hwet
      have hsame : (tool :: args) :: older = doctorArgv home :: before := htools.symm.trans hran
      have hslash : '/' ∈ wmBin home := List.mem_append_right _ (by decide)
      cases hsame
      exact htool hslash
  · rename_i hdry
    exact iff_of_false Nat.zero_ne_one fun h => hdry h.1

/-- **The gate decides.**  The script exits with status 1 exactly when it takes its arguments
for a development install and there is no home directory, or the run was wet and the doctor
was its last command and failed.  No other failing command changes the status. -/
theorem installScript_fails_iff (sys : System) (params : List Str) (s : Session) :
    (installScript sys params s).1 = 1 ↔
      ∃ vars, TakesDev params vars ∧
        (sys.home = none ∨
          vars.dryRun = 0 ∧ ∃ home before, sys.home = some home ∧
            (installScript sys params s).2.ran = doctorArgv home :: before ∧
            sys.status before (doctorArgv home) ≠ 0) := by
  by_cases hdev : ∃ vars, TakesDev params vars
  · obtain ⟨vars, hdev⟩ := hdev
    have hunique : ∀ vars', TakesDev params vars' → vars' = vars := by
      intro vars' hdev'
      exact Except.ok.inj (hdev'.1.symm.trans hdev.1)
    rw [installScript_dev hdev]
    cases hhome : sys.home with
    | none =>
        exact iff_of_true (devInstall_noHome hhome s) ⟨vars, hdev, Or.inl rfl⟩
    | some home =>
        rw [devInstall_home hhome,
          doctorGate_fails_iff fun hwet => beforeGate_lastTool hwet s]
        constructor
        · rintro ⟨hwet, before, hran, hfails⟩
          exact ⟨vars, hdev, Or.inr ⟨hwet, home, before, rfl, hran, hfails⟩⟩
        · rintro ⟨vars', hdev', hno | ⟨hwet, home', before, hhome', hran, hfails⟩⟩
          · cases hno
          · cases hunique vars' hdev'
            cases hhome'
            exact ⟨hwet, before, hran, hfails⟩
  · refine iff_of_false (fun hone => ?_) fun ⟨vars, h, _⟩ => hdev ⟨vars, h⟩
    unfold installScript at hone
    cases hflags : scriptFlags params with
    | error exit =>
        have hstatus := scriptFlags_refused hflags
        rw [hflags] at hone
        dsimp only at hone
        omega
    | ok vars =>
        simp only [hflags] at hone
        split_ifs at hone with huninstall hkiosk
        exact hdev ⟨vars, hflags, huninstall, hkiosk⟩

/-! ## Editing a unit file again -/

/-- The script does nothing to its own results. -/
theorem sedScript_idem (locale : Locale) (line : Str) :
    sedScript locale (sedScript locale line) = sedScript locale line := by
  rcases stripPrefix_cases execStart line with ⟨value, rfl⟩ | hother
  · rw [sedScript_value]
    cases hrest : installerRest locale value with
    | none => rw [Option.elim_none, sedScript_value, hrest, Option.elim_none]
    | some rest =>
        have hdone : installerRest locale (fleetDir ++ rest) = none :=
          List.findSome?_eq_none_iff.mpr fun pattern hpattern =>
            matchAtoms_fleetDir locale pattern hpattern rest
        rw [Option.elim_some, sedScript_value, hdone, Option.elim_none]
  · rw [sedScript_of_other locale (stripPrefix_eq_none_iff.mp hother),
      sedScript_of_other locale (stripPrefix_eq_none_iff.mp hother)]

/-- No value that the script leaves is stale. -/
theorem not_stale_sedScript {locale : Locale} {line value : Str}
    (hvalue : sedScript locale line = execStart ++ value) : ¬ StartsStale locale value := by
  intro hstale
  obtain ⟨rest, hrest⟩ := startsStale_iff.mp hstale
  have htwice := sedScript_idem locale line
  rw [hvalue, sedScript_value, hrest, Option.elim_some, List.append_cancel_left_eq] at htwice
  have hdone : installerRest locale (fleetDir ++ rest) = none :=
    List.findSome?_eq_none_iff.mpr fun pattern hpattern =>
      matchAtoms_fleetDir locale pattern hpattern rest
  rw [← htwice, hdone] at hrest
  cases hrest

theorem sedScript_ne_nil {locale : Locale} {line : Str} (hline : line ≠ []) :
    sedScript locale line ≠ [] := by
  rcases stripPrefix_cases execStart line with ⟨value, rfl⟩ | hother
  · rw [sedScript_value]
    exact List.append_ne_nil_of_left_ne_nil (by decide) _
  · rwa [sedScript_of_other locale (stripPrefix_eq_none_iff.mp hother)]

theorem newline_notMem_sedScript (locale : Locale) (text : Str) :
    ∀ line ∈ segments '\n' text, '\n' ∉ sedScript locale line :=
  fun _ hline => notMem_sedScript (by decide) (notMem_of_mem_segments hline)

/-- Editing a unit file again leaves it as it is. -/
theorem reconcileUnitFile_idem (locale : Locale) (file : Option Str) :
    reconcileUnitFile locale false (reconcileUnitFile locale false file) =
      reconcileUnitFile locale false file := by
  cases file with
  | none => rfl
  | some text =>
      refine congrArg some ?_
      exact mapSegments_idem (newline_notMem_sedScript locale text)
        (fun _ _ => sedScript_ne_nil) fun line _ => sedScript_idem locale line

/-- A unit file that has been edited holds no stale value. -/
theorem reconcileUnitFile_fresh {locale : Locale} {file : Option Str} {text value : Str}
    (htext : reconcileUnitFile locale false file = some text)
    (hvalue : execStart ++ value ∈ segments '\n' text) : ¬ StartsStale locale value := by
  cases file with
  | none => cases htext
  | some original =>
      obtain rfl : mapSegments '\n' (sedScript locale) original = text := Option.some.inj htext
      rw [segments_mapSegments (newline_notMem_sedScript locale original)
        fun _ _ => sedScript_ne_nil] at hvalue
      obtain ⟨line, -, hline⟩ := List.mem_map.mp hvalue
      exact not_stale_sedScript hline

/-! ## Copying the artifacts -/

/-- When nothing can be copied, nothing is. -/
theorem installArtifacts_none (copies : List (Str × Str)) (files : Str → Option Str) :
    installArtifacts (fun _ => false) copies files = files := by
  cases copies with
  | nil => rfl
  | cons copy copies =>
      rw [installArtifacts]
      cases files copy.1 <;> rfl

/-- A copy changes its targets only. -/
theorem installArtifacts_other (copied : Str → Bool) {copies : List (Str × Str)} {path : Str}
    (hpath : path ∉ copies.map Prod.snd) (files : Str → Option Str) :
    installArtifacts copied copies files path = files path := by
  induction copies generalizing files with
  | nil => rfl
  | cons copy copies ih =>
      rw [List.map_cons, List.mem_cons, not_or] at hpath
      rw [installArtifacts]
      cases files copy.1 with
      | none => rfl
      | some text =>
          dsimp only
          split
          · rw [ih hpath.2, Function.update_of_ne hpath.1]
          · rfl

/-- A target that is no source is left or gets the text of its source. -/
theorem installArtifacts_target (copied : Str → Bool) {copies : List (Str × Str)}
    (hnodup : (copies.map Prod.snd).Nodup)
    (hsources : ∀ copy ∈ copies, copy.1 ∉ copies.map Prod.snd) (files : Str → Option Str) :
    ∀ copy ∈ copies, installArtifacts copied copies files copy.2 = files copy.2 ∨
      installArtifacts copied copies files copy.2 = files copy.1 := by
  induction copies generalizing files with
  | nil => exact fun _ h => absurd h List.not_mem_nil
  | cons first copies ih =>
      rw [List.map_cons, List.nodup_cons] at hnodup
      have hfirst : ∀ copy ∈ first :: copies, copy.1 ≠ first.2 ∧ copy.1 ∉ copies.map Prod.snd := by
        intro copy hcopy
        have hsource := hsources copy hcopy
        rwa [List.map_cons, List.mem_cons, not_or] at hsource
      intro copy hcopy
      rw [installArtifacts]
      cases htext : files first.1 with
      | none => exact Or.inl rfl
      | some text =>
          dsimp only
          split
          · rcases List.mem_cons.mp hcopy with rfl | hrest
            · right
              rw [installArtifacts_other copied hnodup.1, Function.update_self, htext]
            · have hne : copy.2 ≠ first.2 := fun h => hnodup.1 (h ▸ List.mem_map_of_mem hrest)
              have hcopied := ih hnodup.2
                (fun copy hcopy => (hfirst copy (List.mem_cons_of_mem _ hcopy)).2)
                (Function.update files first.2 (some text)) copy hrest
              rwa [Function.update_of_ne hne, Function.update_of_ne (hfirst copy hcopy).1]
                at hcopied
          · exact Or.inl rfl

/-- Paths that end differently are different. -/
theorem append_ne_of_ends {front back front' back' : Str} (h : ¬ back <:+ back')
    (h' : ¬ back' <:+ back) : front ++ back ≠ front' ++ back' := by
  intro hsame
  rcases List.suffix_or_suffix_of_suffix (List.suffix_append front back)
    (hsame ▸ List.suffix_append front' back') with hends | hends
  · exact h hends
  · exact h' hends

/-- The unit files of a user are not copied. -/
theorem unitFiles_notMem_targets (scriptDir : Str) {file : Str} (hfile : file ∈ unitFiles home) :
    file ∉ (artifacts scriptDir).map Prod.snd := by
  have hends : ∀ unit ∈ reconciledUnits, ∀ target ∈ (artifacts []).map Prod.snd,
      ¬ "/.config/systemd/user".toList ++ '/' :: unit <:+ target := by
    decide
  obtain ⟨unit, hunit, rfl⟩ := List.mem_map.mp hfile
  intro htarget
  refine hends unit hunit _ htarget ⟨home, ?_⟩
  rw [userUnitDir, List.append_assoc]

/-- The sources of the copies are neither targets nor unit files of a user. -/
theorem source_notMem (scriptDir home : Str) {copy : Str × Str}
    (hcopy : copy ∈ artifacts scriptDir) :
    copy.1 ∉ (artifacts scriptDir).map Prod.snd ∧ copy.1 ∉ unitFiles home := by
  have htargets : ∀ copy ∈ artifacts [], ∀ target ∈ (artifacts []).map Prod.snd,
      ¬ copy.1 <:+ target := by
    decide
  have hunits : ∀ copy ∈ artifacts [], ∀ unit ∈ reconciledUnits,
      ¬ copy.1 <:+ "/.config/systemd/user".toList ++ '/' :: unit ∧
        ¬ "/.config/systemd/user".toList ++ '/' :: unit <:+ copy.1 := by
    decide
  obtain ⟨⟨source, target⟩, hentry, rfl⟩ := List.mem_map.mp hcopy
  have hlocal : (source, target) ∈ artifacts [] := List.mem_map.mpr ⟨_, hentry, rfl⟩
  refine ⟨fun htarget => ?_, fun hunit => ?_⟩
  · exact htargets _ hlocal _ htarget ⟨scriptDir, rfl⟩
  · obtain ⟨unit, hlisted, hsame⟩ := List.mem_map.mp hunit
    obtain ⟨hends, hends'⟩ := hunits _ hlocal unit hlisted
    rw [userUnitDir, List.append_assoc] at hsame
    exact append_ne_of_ends hends hends' hsame.symm

/-! ## Convergence -/

/-- The tools of a development install work on these files: the stream editor edits the
unit file it is called for, {lit}`install-system.sh` copies, and the others write none of
them. -/
structure DevTools (sys : System) (home : Str) (kept : Set Str) : Prop where
  edit : ∀ ran file text, sys.files ran file = some text → ∀ path ∈ kept,
    sys.files (sedArgv file :: ran) path =
      Function.update (sys.files ran) file (reconcileUnitFile sys.locale false (some text)) path
  system : ∀ ran, ∃ copied, ∀ path ∈ kept, sys.files (systemArgv sys :: ran) path =
    installArtifacts copied (artifacts sys.scriptDir) (sys.files ran) path
  cargo : ∀ path ∈ kept, Spares sys.files (cargoArgv sys home) path
  reload : ∀ path ∈ kept, Spares sys.files reloadArgv path
  doctor : ∀ path ∈ kept, Spares sys.files (doctorArgv home) path

section Tools

variable {kept : Set Str} (htools : DevTools sys home kept) {file : Str} (hkept : file ∈ kept)

include htools hkept

/-- Reconciling one file edits that file, if it is there. -/
theorem reconcileFile_files (s : Session) (unitFile : Str) :
    sys.files (reconcileFile sys 0 s unitFile).ran file =
      if file = unitFile then reconcileUnitFile sys.locale false (sys.files s.ran file)
      else sys.files s.ran file := by
  cases htext : sys.files s.ran unitFile with
  | none =>
      have hnone : reconcileFile sys 0 s unitFile = s := by
        simp only [reconcileFile, htext]
      rw [hnone]
      by_cases hf : file = unitFile
      · rw [if_pos hf, hf, htext]
        rfl
      · rw [if_neg hf]
  | some text =>
      have hran : (reconcileFile sys 0 s unitFile).ran = sedArgv unitFile :: s.ran := by
        simp only [reconcileFile, htext, Nat.zero_ne_one, if_false, log_ran, Session.exec]
      rw [hran, htools.edit s.ran unitFile text htext file hkept]
      by_cases hf : file = unitFile
      · rw [hf, Function.update_self, if_pos rfl, htext]
      · rw [Function.update_of_ne hf, if_neg hf]

/-- Reconciling files edits each of them once, however often it is listed. -/
theorem foldl_reconcileFile_files (unitFiles : List Str) (s : Session) :
    sys.files (unitFiles.foldl (reconcileFile sys 0) s).ran file =
      if file ∈ unitFiles then reconcileUnitFile sys.locale false (sys.files s.ran file)
      else sys.files s.ran file := by
  induction unitFiles generalizing s with
  | nil => rw [if_neg List.not_mem_nil, List.foldl_nil]
  | cons unitFile unitFiles ih =>
      rw [List.foldl_cons, ih, reconcileFile_files htools hkept]
      by_cases hf : file = unitFile
      · have hmem : file ∈ unitFile :: unitFiles := hf ▸ List.mem_cons_self
        rw [if_pos hf, reconcileUnitFile_idem, if_pos hmem]
        split <;> rfl
      · rw [if_neg hf]
        refine if_congr ?_ rfl rfl
        rw [List.mem_cons, or_iff_right hf]

/-- Reconciling the unit files edits those that are listed. -/
theorem reconcileUnits_files (hdir : ∀ ran, sys.directory ran (userUnitDir home) = true)
    (s : Session) :
    sys.files (reconcileUnits sys home 0 s).ran file =
      if file ∈ unitFiles home then reconcileUnitFile sys.locale false (sys.files s.ran file)
      else sys.files s.ran file := by
  unfold reconcileUnits
  rw [if_pos (hdir s.ran)]
  simp only [if_true, log_ran, runit_wet_ran]
  rw [htools.reload file hkept]
  exact foldl_reconcileFile_files htools hkept (unitFiles home) _

theorem doctorGate_files (s : Session) :
    sys.files (doctorGate sys home 0 s).2.ran file = sys.files s.ran file := by
  unfold doctorGate
  rw [if_pos rfl]
  split
  · dsimp only [Session.exec]
    split <;> exact htools.doctor file hkept s.ran
  · rfl

end Tools

/-- Installing the system's units copies artifacts. -/
theorem installSystem_files {kept : Set Str} (htools : DevTools sys home kept) (s : Session) :
    ∃ copied, ∀ file ∈ kept, sys.files (installSystem sys 0 s).ran file =
      installArtifacts copied (artifacts sys.scriptDir) (sys.files s.ran) file := by
  unfold installSystem
  split
  · exact htools.system s.ran
  · refine ⟨fun _ => false, fun file _ => ?_⟩
    rw [installArtifacts_none]

/-- The arguments ask for a wet development install. -/
def DevMode (params : List Str) : Prop :=
  ∃ vars, TakesDev params vars ∧ vars.dryRun = 0

/-- A wet development install edits the listed unit files and then copies artifacts. -/
theorem installScript_files (hhome : sys.home = some home) {kept : Set Str}
    (htools : DevTools sys home kept)
    (hdir : ∀ ran, sys.directory ran (userUnitDir home) = true) {params : List Str}
    (hmode : DevMode params) (s : Session) :
    ∃ edited copied,
      (∀ file ∈ kept, edited file =
        if file ∈ unitFiles home then reconcileUnitFile sys.locale false (sys.files s.ran file)
        else sys.files s.ran file) ∧
      ∀ file ∈ kept, sys.files (installScript sys params s).2.ran file =
        installArtifacts copied (artifacts sys.scriptDir) edited file := by
  obtain ⟨vars, hdev, hwet⟩ := hmode
  rw [installScript_dev hdev, devInstall_home hhome, hwet, beforeGate, hwet]
  set units := reconcileUnits sys home 0 _ with hunits
  obtain ⟨copied, hcopied⟩ := installSystem_files htools units
  refine ⟨sys.files units.ran, copied, fun file hfile => ?_, fun file hfile => ?_⟩
  · rw [hunits, reconcileUnits_files htools hfile hdir, runit_wet_ran, htools.cargo file hfile]
    rfl
  · rw [doctorGate_files htools hfile, hcopied file hfile]

/-- What a wet development install leaves in the files that are not copied. -/
theorem installScript_notCopied (hhome : sys.home = some home) {kept : Set Str}
    (htools : DevTools sys home kept)
    (hdir : ∀ ran, sys.directory ran (userUnitDir home) = true) {params : List Str}
    (hmode : DevMode params) (s : Session) {file : Str} (hfile : file ∈ kept)
    (htarget : file ∉ (artifacts sys.scriptDir).map Prod.snd) :
    sys.files (installScript sys params s).2.ran file =
      if file ∈ unitFiles home then reconcileUnitFile sys.locale false (sys.files s.ran file)
      else sys.files s.ran file := by
  obtain ⟨edited, copied, hedited, hcopied⟩ := installScript_files hhome htools hdir hmode s
  rw [hcopied file hfile, installArtifacts_other copied htarget, hedited file hfile]

end Scripts

theorem scriptFlags_nil : scriptFlags [] = .ok initialVars := by
  rw [scriptFlags, ArgLoop.run_nil]
  rfl

theorem devMode_nil : DevMode [] :=
  ⟨initialVars, ⟨scriptFlags_nil, by decide, by decide⟩, rfl⟩

/-- The tools work on every file of the calm machine. -/
theorem calmMachine_tools : DevTools calmMachine adaHome Set.univ where
  edit := by
    intro ran file text htext path _
    have hedit : calmMachine.files (sedArgv file :: ran) =
        Function.update (calmMachine.files ran) file
          (reconcileUnitFile .utf8 false (calmMachine.files ran file)) := if_pos rfl
    rw [hedit, htext]
    rfl
  system := fun _ => ⟨fun _ => true, fun _ _ => rfl⟩
  cargo := fun _ _ _ => rfl
  reload := fun _ _ _ => rfl
  doctor := fun _ _ _ => rfl

end Install
end Wintermute
