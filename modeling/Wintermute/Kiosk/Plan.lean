import Wintermute.Foundation.JsonRecord
import Wintermute.Install.Script

/-!
# The plan of the kiosk install

The library holds the plan of a kiosk install as a list of steps and renders it as a
report of lines.  The installer prints the same lines itself, in a dry run as well as
before each wet step, with other descriptions and, in a dry run, with the commands it does
not run.  A reader of the numbers, names and paths in such a text finds one and the same
outline in both.

Main results:

- Theorem {lit}`outline_dryRunReport`: the outline of a plan is read back from its report.
- Theorem {lit}`installScript_plan`: what the installer prints has the outline of the
  library's report, wet or dry, for every user.
-/

namespace Wintermute
namespace Kiosk

open Foundation Install

/-! ## The library -/

/-- The install prefix of kiosk deployments. -/
def kioskBinPrefix : Str :=
  "/usr/local/bin".toList

/-- The binaries that a kiosk install puts in place. -/
def kioskBinaries : List Str :=
  ["wm-tts".toList, "wm-stt".toList, "wm-audio".toList, "wm-dialog".toList, "wmd".toList,
    "wmd-init".toList, "wm-bootstrap".toList]

/-- The marker of an installed device. -/
def installedMarkerPath : Str :=
  "/var/lib/wintermute/installed".toList

/-- A step of the install. -/
structure KioskStep where
  id : Str
  description : Str
  writes : List Str
  requiresRoot : Bool
deriving DecidableEq, Repr

/-- What the installer will do. -/
structure KioskPlan where
  user : Str
  binPrefix : Str
  steps : List KioskStep
deriving DecidableEq, Repr

/-- The plan for a user. -/
def KioskPlan.forUser (user : Str) : KioskPlan where
  user := user
  binPrefix := kioskBinPrefix
  steps :=
    [{ id := "install-binaries".toList
       description := "install wm-* binaries to ".toList ++ kioskBinPrefix ++
         "/ (kiosk-mode path convention)".toList
       writes := kioskBinaries.map fun b => kioskBinPrefix ++ '/' :: b
       requiresRoot := true },
     { id := "greetd-config".toList
       description := "write greetd autologin config for user=".toList ++ user
       writes := [greetdConfigPath]
       requiresRoot := true },
     { id := "enable-linger".toList
       description := "loginctl enable-linger ".toList ++ user
       writes := ["/var/lib/systemd/linger/".toList ++ user]
       requiresRoot := true },
     { id := "tmpfiles-rule".toList
       description := "install tmpfiles.d rule for /run/wintermute/".toList
       writes := [tmpfilesRulePath]
       requiresRoot := true },
     { id := "recovery-service".toList
       description := "install (do not enable) wintermute-boot-recovery.service".toList
       writes := [recoveryServicePath]
       requiresRoot := true },
     { id := "installed-marker".toList
       description := "create installed marker at ".toList ++ installedMarkerPath ++
         " (drives first-vs-recovered boot)".toList
       writes := [installedMarkerPath]
       requiresRoot := true },
     { id := "enable-user-target".toList
       description := "enable wintermute.target on user ".toList ++ user ++
         " via --machine= or PAM session".toList
       writes := ["/var/lib/systemd/linger/".toList ++ user ++ " (target-default-symlink)".toList]
       requiresRoot := true }]

/-- The line of a step in front of its description. -/
def stepFront (number total : ℕ) (id : Str) (requiresRoot : Bool) : Str :=
  "  [".toList ++ Nat.toDigits 10 number ++ '/' :: Nat.toDigits 10 total ++ "] ".toList ++ id ++
    " (root=".toList ++ (if requiresRoot then "true" else "false").toList ++ "): ".toList

/-- The line of a step. -/
def stepLine (number total : ℕ) (s : KioskStep) : Str :=
  stepFront number total s.id s.requiresRoot ++ s.description

/-- The line of a path that is written. -/
def writesLine (path : Str) : Str :=
  "         writes: ".toList ++ path

/-- The lines of the report. -/
def KioskPlan.reportLines (plan : KioskPlan) : List Str :=
  ("kiosk-install plan for user=".toList ++ plan.user ++ " bin_prefix=".toList ++
      plan.binPrefix) ::
    ("steps: ".toList ++ Nat.toDigits 10 plan.steps.length) ::
    plan.steps.zipIdx.flatMap fun (s, i) =>
      stepLine (i + 1) plan.steps.length s :: s.writes.map writesLine

/-- {lit}`dry_run_report`. -/
def KioskPlan.dryRunReport (plan : KioskPlan) : Str :=
  plan.reportLines.flatMap fun line => line ++ ['\n']

/-! ## The outline of a printed plan -/

/-- What a line of a printed plan says: which step comes, or what it writes. -/
inductive PlanLine where
  | step (number total : ℕ) (id : Str) (requiresRoot : Bool)
  | writes (path : Str)
deriving DecidableEq, Repr

/-- The value of a flag, behind the name of a step. -/
def readRoot (l : Str) : Option Bool :=
  if "(root=true): ".toList.isPrefixOf l then some true
  else if "(root=false): ".toList.isPrefixOf l then some false
  else none

/-- Read a line; the headlines and the announced commands say nothing. -/
def readPlanLine (line : Str) : Option PlanLine :=
  match stripPrefix "  [".toList line with
  | some rest => do
      let counted := afterFirst '/' rest
      let named ← stripPrefix [' '] (afterFirst ']' counted)
      let requiresRoot ← readRoot (afterFirst ' ' named)
      some (.step (Nat.ofDigitChars 10 (beforeFirst '/' rest) 0)
        (Nat.ofDigitChars 10 (beforeFirst ']' counted) 0) (beforeFirst ' ' named) requiresRoot)
  | none => (stripPrefix "         writes: ".toList line).map .writes

/-- The outline of a printed plan. -/
def outline (text : Str) : List PlanLine :=
  (segments '\n' text).filterMap readPlanLine

/-- The outline that a plan should have. -/
def KioskPlan.outline (plan : KioskPlan) : List PlanLine :=
  plan.steps.zipIdx.flatMap fun (s, i) =>
    .step (i + 1) plan.steps.length s.id s.requiresRoot :: s.writes.map .writes

/-- The texts of a step fit on a line, and its name is one word. -/
structure KioskStep.OneLine (s : KioskStep) : Prop where
  id : '\n' ∉ s.id
  word : ' ' ∉ s.id
  description : '\n' ∉ s.description
  writes : ∀ path ∈ s.writes, '\n' ∉ path

/-- The texts of a plan fit on a line. -/
structure KioskPlan.OneLine (plan : KioskPlan) : Prop where
  user : '\n' ∉ plan.user
  binPrefix : '\n' ∉ plan.binPrefix
  steps : ∀ s ∈ plan.steps, s.OneLine

/-! ## The round trip -/

theorem notMem_toDigits {c : Char} (hc : c.isDigit = false) (n : ℕ) : c ∉ Nat.toDigits 10 n := by
  intro hmem
  rw [Json.toDigits_isDigit n c hmem] at hc
  cases hc

/-- The flag of a step is read back. -/
theorem readRoot_flag (b : Bool) (l : Str) :
    readRoot ("(root=".toList ++ ((if b then "true" else "false").toList ++
      ("): ".toList ++ l))) = some b := by
  cases b <;> rfl

/-- The front of a line says which step comes, whatever the description. -/
theorem readPlanLine_front (number total : ℕ) {id : Str} (hword : ' ' ∉ id) (b : Bool)
    (description : Str) :
    readPlanLine (stepFront number total id b ++ description) =
      some (.step number total id b) := by
  have hslash : '/' ∉ Nat.toDigits 10 number := notMem_toDigits rfl number
  have hbracket : ']' ∉ Nat.toDigits 10 total := notMem_toDigits rfl total
  have hclose : "] ".toList = [']', ' '] := rfl
  have hopen : " (root=".toList = ' ' :: "(root=".toList := rfl
  have hline : stepFront number total id b ++ description = "  [".toList ++
      (Nat.toDigits 10 number ++ '/' :: (Nat.toDigits 10 total ++ ']' :: ([' '] ++
        (id ++ ' ' :: ("(root=".toList ++ ((if b then "true" else "false").toList ++
          ("): ".toList ++ description))))))) := by
    unfold stepFront
    simp only [hclose, hopen, List.append_assoc, List.cons_append, List.nil_append]
  unfold readPlanLine
  simp only [hline, stripPrefix_append, beforeFirst_append hslash, afterFirst_append hslash,
    beforeFirst_append hbracket, afterFirst_append hbracket, Option.bind_eq_bind,
    Option.bind_some, beforeFirst_append hword, afterFirst_append hword, readRoot_flag,
    Nat.ofDigitChars_ten_toDigits]

/-- A line that starts with neither front says nothing. -/
theorem readPlanLine_other {front : Str} (hstep : Incomparable "  [".toList front)
    (hwrites : Incomparable "         writes: ".toList front) (l : Str) :
    readPlanLine (front ++ l) = none := by
  unfold readPlanLine
  simp only [stripPrefix_of_incomparable hstep, stripPrefix_of_incomparable hwrites,
    Option.map_none]

/-- The line of a path says what is written. -/
theorem readPlanLine_writes (path : Str) :
    readPlanLine (writesLine path) = some (.writes path) := by
  have hdiffer : Incomparable "  [".toList "         writes: ".toList := by decide
  unfold readPlanLine writesLine
  simp only [stripPrefix_of_incomparable hdiffer, stripPrefix_append, Option.map_some]

/-- The outline of printed lines. -/
theorem outline_printed {printed : List Str} (hprinted : ∀ line ∈ printed, '\n' ∉ line) :
    outline (printed.flatMap fun line => line ++ ['\n']) = printed.filterMap readPlanLine := by
  rw [outline, segments_flatMap hprinted]

/-- The lines of a step and of what it writes are its part of the outline. -/
theorem filterMap_step (number total : ℕ) {s : KioskStep} (hs : s.OneLine) :
    (stepLine number total s :: s.writes.map writesLine).filterMap readPlanLine =
      .step number total s.id s.requiresRoot :: s.writes.map .writes := by
  have hread : readPlanLine (stepLine number total s) =
      some (.step number total s.id s.requiresRoot) :=
    readPlanLine_front number total hs.word s.requiresRoot s.description
  rw [List.filterMap_cons_some hread, List.filterMap_map]
  have hwrites : readPlanLine ∘ writesLine = some ∘ PlanLine.writes :=
    funext readPlanLine_writes
  rw [hwrites, ← List.filterMap_map, List.filterMap_some]

/-- The lines of a step fit on a line. -/
theorem newline_notMem_step (number total : ℕ) {s : KioskStep} (hs : s.OneLine) :
    ∀ line ∈ stepLine number total s :: s.writes.map writesLine, '\n' ∉ line := by
  rw [List.forall_mem_cons]
  constructor
  · have hnumber : '\n' ∉ Nat.toDigits 10 number := notMem_toDigits rfl number
    have htotal : '\n' ∉ Nat.toDigits 10 total := notMem_toDigits rfl total
    have hflag : '\n' ∉ (if s.requiresRoot then "true" else "false").toList := by
      cases s.requiresRoot <;> decide
    have hslash : '\n' ≠ '/' := by decide
    unfold stepLine stepFront
    simp only [List.mem_append, List.mem_cons, hnumber, htotal, hflag, hslash, hs.id,
      hs.description, or_false]
    decide
  · intro line hline
    obtain ⟨path, hpath, rfl⟩ := List.mem_map.mp hline
    exact List.not_mem_append (by decide) (hs.writes path hpath)

/-- **The report round-trips.**  From the report of a plan whose texts fit on a line, the
steps are read back: their numbers, names, rights and the paths they write, in order. -/
theorem outline_dryRunReport {plan : KioskPlan} (hplan : plan.OneLine) :
    Kiosk.outline plan.dryRunReport = plan.outline := by
  have hstep : ∀ p ∈ plan.steps.zipIdx, p.1.OneLine := fun p hp =>
    hplan.steps p.1 (List.fst_mem_of_mem_zipIdx hp)
  have hlines : ∀ line ∈ plan.reportLines, '\n' ∉ line := by
    have hcount : '\n' ∉ Nat.toDigits 10 plan.steps.length := notMem_toDigits rfl _
    rw [KioskPlan.reportLines, List.forall_mem_cons, List.forall_mem_cons]
    refine ⟨?_, List.not_mem_append (by decide) hcount, ?_⟩
    · exact List.not_mem_append (List.not_mem_append
        (List.not_mem_append (by decide) hplan.user) (by decide)) hplan.binPrefix
    · intro line hline
      obtain ⟨p, hp, hmem⟩ := List.mem_flatMap.mp hline
      exact newline_notMem_step (p.2 + 1) plan.steps.length (hstep p hp) line hmem
  rw [KioskPlan.dryRunReport, outline_printed hlines]
  have hhead : ∀ l, readPlanLine ("kiosk-install plan for user=".toList ++ l) = none :=
    readPlanLine_other (by decide) (by decide)
  have hcount : ∀ l, readPlanLine ("steps: ".toList ++ l) = none :=
    readPlanLine_other (by decide) (by decide)
  unfold KioskPlan.reportLines KioskPlan.outline
  simp only [List.append_assoc]
  rw [List.filterMap_cons_none (hhead _), List.filterMap_cons_none (hcount _),
    List.filterMap_flatMap]
  exact List.flatMap_congr fun p hp => filterMap_step (p.2 + 1) plan.steps.length (hstep p hp)

/-! ## What the installer prints -/

@[simp]
theorem say_stdout (line : Str) (s : Session) :
    (s.say line).stdout = s.stdout ++ (line ++ ['\n']) :=
  List.append_assoc s.stdout line ['\n']

@[simp]
theorem log_stdout (message : Str) (s : Session) : (s.log message).stdout = s.stdout :=
  rfl

/-- The lines that announce a command. -/
def announced (dryRun : ℕ) (argv : List Str) : List Str :=
  if dryRun = 1 then ["  DRY-RUN: ".toList ++ [' '].intercalate argv] else []

@[simp]
theorem runit_stdout (sys : System) (dryRun : ℕ) (argv : List Str) (s : Session) :
    (s.runit sys dryRun argv).stdout =
      s.stdout ++ (announced dryRun argv).flatMap fun line => line ++ ['\n'] := by
  unfold Session.runit announced
  split
  · rw [say_stdout, List.flatMap_singleton]
  · rw [List.flatMap_nil, List.append_nil]
    rfl

theorem sayAll_stdout (printed : List Str) (s : Session) :
    (s.sayAll printed).stdout = s.stdout ++ printed.flatMap fun line => line ++ ['\n'] := by
  induction printed generalizing s with
  | nil => exact (List.append_nil s.stdout).symm
  | cons line printed ih =>
      have hrest : (s.sayAll (line :: printed)).stdout = ((s.say line).sayAll printed).stdout := rfl
      rw [hrest, ih, say_stdout, List.flatMap_cons, List.append_assoc]

/-- The lines that the installer prints. -/
def printedLines (vars : FlagVars) : List Str :=
  ["kiosk-install plan for user=".toList ++ (vars.userName ++ " bin_prefix=/usr/local/bin".toList),
   "steps: 7".toList,
   "  [1/7] install-binaries (root=true): ".toList ++
     "cargo install + relocate to /usr/local/bin/".toList] ++
  announcedBinaries.map (fun b => "         writes: /usr/local/bin/".toList ++ b) ++
  ["  [2/7] greetd-config (root=true): ".toList ++
     ("write greetd autologin config for user=".toList ++ vars.userName),
   "         writes: /etc/greetd/config.toml".toList,
   "  [3/7] enable-linger (root=true): ".toList ++
     ("loginctl enable-linger ".toList ++ vars.userName),
   "         writes: /var/lib/systemd/linger/".toList ++ vars.userName] ++
  announced vars.dryRun ["sudo".toList, "loginctl".toList, "enable-linger".toList,
    vars.userName] ++
  ["  [4/7] tmpfiles-rule (root=true): ".toList ++
     "install tmpfiles.d rule for /run/wintermute/".toList,
   "         writes: /usr/lib/tmpfiles.d/wintermute.conf".toList,
   "  [5/7] recovery-service (root=true): ".toList ++
     "install (do not enable) wintermute-boot-recovery.service".toList,
   "         writes: /usr/lib/systemd/system/wintermute-boot-recovery.service".toList,
   "  [6/7] installed-marker (root=true): ".toList ++
     "create installed marker at /var/lib/wintermute/installed".toList,
   "         writes: /var/lib/wintermute/installed".toList,
   "  [7/7] enable-user-target (root=true): ".toList ++
     ("enable wintermute.target on user ".toList ++ vars.userName),
   "         writes: /var/lib/systemd/linger/".toList ++
     (vars.userName ++ " (target-default-symlink)".toList)]

theorem installBinary_stdout (sys : System) (s : Session) (binary : Str) :
    (installBinary sys s binary).stdout = s.stdout := by
  unfold installBinary
  dsimp only
  split
  · rw [runit_stdout]
    exact List.append_nil s.stdout
  · rfl

/-- Wet or dry, the installer prints its lines. -/
theorem kioskInstall_stdout (sys : System) {vars : FlagVars}
    (hdry : vars.dryRun = 0 ∨ vars.dryRun = 1) (s : Session) :
    (kioskInstall sys vars s).stdout =
      s.stdout ++ (printedLines vars).flatMap fun line => line ++ ['\n'] := by
  rcases hdry with hwet | hdry
  · have hsilent : ∀ argv, announced 0 argv = [] := fun _ => if_neg Nat.zero_ne_one
    have hnow : ∀ (f : Session → Session) s, whenWet 0 f s = f s := fun _ _ => if_pos rfl
    unfold kioskInstall printedLines
    simp only [hwet, hnow, hsilent, Nat.zero_ne_one, if_false, log_stdout, runit_stdout, say_stdout,
      sayAll_stdout, List.foldl_cons, List.foldl_nil, installBinary_stdout, List.flatMap_nil,
      List.flatMap_append, List.flatMap_cons, List.append_assoc, List.append_nil]
  · unfold kioskInstall printedLines
    simp only [hdry, whenWet_dry, if_true, log_stdout, runit_stdout, say_stdout, sayAll_stdout,
      List.flatMap_nil, List.flatMap_append, List.flatMap_cons, List.append_assoc, List.append_nil]

/-- The outline of the plan for a user. -/
theorem forUser_outline (user : Str) :
    (KioskPlan.forUser user).outline =
      PlanLine.step 1 7 "install-binaries".toList true ::
        ((kioskBinaries.map fun b => PlanLine.writes (kioskBinPrefix ++ '/' :: b)) ++
      [PlanLine.step 2 7 "greetd-config".toList true, PlanLine.writes greetdConfigPath,
       PlanLine.step 3 7 "enable-linger".toList true,
       PlanLine.writes ("/var/lib/systemd/linger/".toList ++ user),
       PlanLine.step 4 7 "tmpfiles-rule".toList true, PlanLine.writes tmpfilesRulePath,
       PlanLine.step 5 7 "recovery-service".toList true, PlanLine.writes recoveryServicePath,
       PlanLine.step 6 7 "installed-marker".toList true, PlanLine.writes installedMarkerPath,
       PlanLine.step 7 7 "enable-user-target".toList true,
       PlanLine.writes ("/var/lib/systemd/linger/".toList ++ user ++
         " (target-default-symlink)".toList)]) := by
  simp only [KioskPlan.outline, KioskPlan.forUser, List.zipIdx_cons, List.zipIdx_nil,
    List.flatMap_cons, List.flatMap_nil, List.length_cons, List.length_nil, List.map_map,
    List.map_cons, List.map_nil, List.cons_append, List.nil_append, List.append_assoc,
    Nat.reduceAdd, Function.comp_def]

/-- What the installer prints has the outline of the plan. -/
theorem filterMap_printedLines (vars : FlagVars) :
    (printedLines vars).filterMap readPlanLine = (KioskPlan.forUser vars.userName).outline := by
  have hhead : ∀ l, readPlanLine ("kiosk-install plan for user=".toList ++ l) = none :=
    readPlanLine_other (by decide) (by decide)
  have hcount : readPlanLine "steps: 7".toList = none := by decide
  have hannounced : ∀ argv, (announced vars.dryRun argv).filterMap readPlanLine = [] := by
    intro argv
    have hnone := @readPlanLine_other "  DRY-RUN: ".toList (by decide) (by decide)
      ([' '].intercalate argv)
    unfold announced
    split
    · rw [List.filterMap_cons_none hnone, List.filterMap_nil]
    · rfl
  have hstep : ∀ (number : ℕ) (id front : Str), ' ' ∉ id → front = stepFront number 7 id true →
      ∀ l, readPlanLine (front ++ l) = some (.step number 7 id true) := by
    rintro number id front hid rfl l
    exact readPlanLine_front number 7 hid true l
  have h₁ := hstep 1 "install-binaries".toList "  [1/7] install-binaries (root=true): ".toList
    (by decide) (by decide)
  have h₂ := hstep 2 "greetd-config".toList "  [2/7] greetd-config (root=true): ".toList
    (by decide) (by decide)
  have h₃ := hstep 3 "enable-linger".toList "  [3/7] enable-linger (root=true): ".toList
    (by decide) (by decide)
  have h₄ := hstep 4 "tmpfiles-rule".toList "  [4/7] tmpfiles-rule (root=true): ".toList
    (by decide) (by decide)
  have h₅ := hstep 5 "recovery-service".toList "  [5/7] recovery-service (root=true): ".toList
    (by decide) (by decide)
  have h₆ := hstep 6 "installed-marker".toList "  [6/7] installed-marker (root=true): ".toList
    (by decide) (by decide)
  have h₇ := hstep 7 "enable-user-target".toList "  [7/7] enable-user-target (root=true): ".toList
    (by decide) (by decide)
  have hbinaries : (announcedBinaries.map fun b =>
      "         writes: /usr/local/bin/".toList ++ b).filterMap readPlanLine =
        kioskBinaries.map fun b => .writes (kioskBinPrefix ++ '/' :: b) := by
    decide
  have hgreetd : readPlanLine "         writes: /etc/greetd/config.toml".toList =
      some (.writes greetdConfigPath) := by
    decide
  have htmpfiles : readPlanLine "         writes: /usr/lib/tmpfiles.d/wintermute.conf".toList =
      some (.writes tmpfilesRulePath) := by
    decide
  have hrecovery : readPlanLine
      "         writes: /usr/lib/systemd/system/wintermute-boot-recovery.service".toList =
        some (.writes recoveryServicePath) := by
    decide
  have hmarker : readPlanLine "         writes: /var/lib/wintermute/installed".toList =
      some (.writes installedMarkerPath) := by
    decide
  have hlinger : ∀ l, readPlanLine ("         writes: /var/lib/systemd/linger/".toList ++ l) =
      some (.writes ("/var/lib/systemd/linger/".toList ++ l)) := by
    intro l
    have hfront : "         writes: /var/lib/systemd/linger/".toList =
        "         writes: ".toList ++ "/var/lib/systemd/linger/".toList := by
      decide
    rw [hfront, List.append_assoc]
    exact readPlanLine_writes _
  rw [forUser_outline]
  simp only [printedLines, List.filterMap_append, List.filterMap_cons, List.filterMap_nil, hhead,
    hcount, hannounced, hbinaries, h₁, h₂, h₃, h₄, h₅, h₆, h₇, hgreetd, htmpfiles, hrecovery,
    hmarker, hlinger, List.append_assoc, List.cons_append, List.nil_append]

section OneLine

variable {user : Str} (huser : '\n' ∉ user)

include huser

theorem newline_notMem_front {front : Str} (hfront : '\n' ∉ front) : '\n' ∉ front ++ user :=
  List.not_mem_append hfront huser

theorem newline_notMem_around {front back : Str} (hfront : '\n' ∉ front) (hback : '\n' ∉ back) :
    '\n' ∉ front ++ user ++ back :=
  List.not_mem_append (newline_notMem_front huser hfront) hback

/-- The texts of the plan for a user fit on a line when the name does. -/
theorem forUser_oneLine : (KioskPlan.forUser user).OneLine := by
  have hstep : ∀ {id description : Str} {writes : List Str}, '\n' ∉ id → ' ' ∉ id →
      '\n' ∉ description → (∀ path ∈ writes, '\n' ∉ path) →
        KioskStep.OneLine ⟨id, description, writes, true⟩ :=
    fun hid hword hdescription hwrites => ⟨hid, hword, hdescription, hwrites⟩
  have hprefix : '\n' ∉ kioskBinPrefix := by decide
  refine ⟨huser, hprefix, ?_⟩
  simp only [KioskPlan.forUser, List.forall_mem_cons]
  refine ⟨hstep (by decide) (by decide) (by decide) (by decide),
    hstep (by decide) (by decide) (newline_notMem_front huser (by decide)) (by decide),
    hstep (by decide) (by decide) (newline_notMem_front huser (by decide)) ?_,
    hstep (by decide) (by decide) (by decide) (by decide),
    hstep (by decide) (by decide) (by decide) (by decide),
    hstep (by decide) (by decide) (by decide) (by decide),
    hstep (by decide) (by decide) (newline_notMem_around huser (by decide) (by decide)) ?_,
    fun _ hs => by cases hs⟩
  · exact List.forall_mem_singleton.mpr (newline_notMem_front huser (by decide))
  · exact List.forall_mem_singleton.mpr (newline_notMem_around huser (by decide) (by decide))

/-- The announcement of a command with the name fits on a line when the name does. -/
theorem newline_notMem_announced (dryRun : ℕ) :
    ∀ line ∈ announced dryRun ["sudo".toList, "loginctl".toList, "enable-linger".toList, user],
      '\n' ∉ line := by
  have hargs : ∀ arg ∈ ["sudo".toList, "loginctl".toList, "enable-linger".toList, user],
      '\n' ∉ arg := by
    simp only [List.forall_mem_cons]
    exact ⟨by decide, by decide, by decide, huser, fun _ h => by cases h⟩
  unfold announced
  split
  · refine List.forall_mem_singleton.mpr (List.not_mem_append (by decide) ?_)
    exact notMem_intercalate (by decide) hargs
  · exact fun _ h => by cases h

/-- The lines that the installer prints fit on a line when the name does. -/
theorem newline_notMem_printedLines {vars : FlagVars} (hvars : vars.userName = user) :
    ∀ line ∈ printedLines vars, '\n' ∉ line := by
  have hfront : ∀ {front : Str}, '\n' ∉ front → '\n' ∉ front ++ user :=
    fun hfront => newline_notMem_front huser hfront
  have hback : ∀ {back : Str}, '\n' ∉ back → '\n' ∉ user ++ back :=
    fun hback => List.not_mem_append huser hback
  have hnil : ∀ line ∈ ([] : List Str), '\n' ∉ line := fun _ h => by cases h
  have hbinaries : ∀ line ∈ announcedBinaries.map fun b =>
      "         writes: /usr/local/bin/".toList ++ b, '\n' ∉ line := by
    decide
  have hannounced := newline_notMem_announced huser vars.dryRun
  unfold printedLines
  rw [hvars]
  simp only [List.forall_mem_append, List.forall_mem_cons]
  refine ⟨⟨⟨⟨⟨?_, by decide, by decide, hnil⟩, hbinaries⟩, ?_, by decide, ?_, ?_, hnil⟩,
    hannounced⟩, by decide, by decide, by decide, by decide, by decide, by decide, ?_, ?_, hnil⟩
  · exact List.not_mem_append (by decide) (hback (by decide))
  · exact List.not_mem_append (by decide) (hfront (by decide))
  · exact List.not_mem_append (by decide) (hfront (by decide))
  · exact hfront (by decide)
  · exact List.not_mem_append (by decide) (hfront (by decide))
  · exact List.not_mem_append (by decide) (hback (by decide))

end OneLine

/-- The variables of the installer when the library takes the arguments for a kiosk
install. -/
theorem scriptFlags_kiosk {args : List Str} {out : InstallArgs}
    (hparse : parseInstallArgs ("install.sh".toList :: args) = .ok out)
    (hkiosk : out.kiosk = true) :
    scriptFlags args = .ok out.vars ∧ out.vars.kiosk = 1 ∧ out.vars.uninstallKiosk ≠ 1 := by
  have hflags : scriptFlags args = .ok out.vars :=
    ((parseInstallArgs_related args).ok_iff InstallArgs.vars_injective out).mp hparse
  have hone : out.vars.kiosk = 1 := by
    rw [InstallArgs.vars, hkiosk]
    rfl
  refine ⟨hflags, hone, fun huninstall => ?_⟩
  -- both modes are refused
  rw [scriptFlags] at hflags
  cases hloop : shiftLoop.run initialVars args with
  | error exit =>
      rw [hloop] at hflags
      cases hflags
  | ok vars =>
      rw [hloop] at hflags
      by_cases hboth : vars.kiosk = 1 ∧ vars.uninstallKiosk = 1
      · simp only [bind, Except.bind, if_pos hboth] at hflags
        cases hflags
      · simp only [bind, Except.bind, if_neg hboth] at hflags
        cases hflags
        exact hboth ⟨hone, huninstall⟩

/-- **One plan.**  When the library takes the arguments for a kiosk install, the installer
prints, wet or dry and on every machine, a text with the outline of the library's report for
the same user, and both have the outline of the plan: the same steps with the same numbers
and rights, writing the same paths in the same order. -/
theorem installScript_plan (sys : System) {args : List Str} {out : InstallArgs}
    (hparse : parseInstallArgs ("install.sh".toList :: args) = .ok out)
    (hkiosk : out.kiosk = true) (huser : '\n' ∉ out.user) {s : Session} (hs : s.stdout = []) :
    outline (installScript sys args s).2.stdout =
        outline (KioskPlan.forUser out.user).dryRunReport ∧
      outline (KioskPlan.forUser out.user).dryRunReport =
        (KioskPlan.forUser out.user).outline := by
  obtain ⟨hflags, hone, huninstall⟩ := scriptFlags_kiosk hparse hkiosk
  have hreport := outline_dryRunReport (forUser_oneLine huser)
  have hdry : out.vars.dryRun = 0 ∨ out.vars.dryRun = 1 := by
    rw [InstallArgs.vars]
    cases out.dryRun with
    | false => exact Or.inl rfl
    | true => exact Or.inr rfl
  have hscript : (installScript sys args s).2 = kioskInstall sys out.vars s := by
    unfold installScript
    simp only [hflags, if_neg huninstall, if_pos hone]
  refine ⟨?_, hreport⟩
  rw [hscript, kioskInstall_stdout sys hdry, hs, List.nil_append,
    outline_printed (newline_notMem_printedLines huser rfl), filterMap_printedLines, hreport]
  rfl

theorem parseInstallArgs_kiosk :
    parseInstallArgs ["install.sh".toList, "--kiosk".toList] =
      .ok { (default : InstallArgs) with kiosk := true } := by
  have hround : matchLoop.body default "--kiosk".toList [] =
      .ok ({ (default : InstallArgs) with kiosk := true }, []) := rfl
  rw [parseInstallArgs, skipProgramName_cons (by decide), ArgLoop.run_cons_ok hround,
    ArgLoop.run_nil]
  rfl

theorem installScript_plan_kiosk :
    outline (installScript calmMachine ["--kiosk".toList] staleSession).2.stdout =
      outline (KioskPlan.forUser defaultKioskUser).dryRunReport :=
  (installScript_plan calmMachine parseInstallArgs_kiosk rfl (by decide) rfl).1

end Kiosk
end Wintermute
