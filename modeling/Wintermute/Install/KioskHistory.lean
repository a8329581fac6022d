import Wintermute.Foundation.LastWriter
import Wintermute.Install.Script

/-!
# Kiosk installs and uninstalls

The installer is called again and again on one device: for development, for the kiosk, to
remove the kiosk, in dry runs and with arguments that it refuses.  The files of the kiosk
are those of the last wet call that was for the kiosk; only the marker of an installed
device stays.

Main results:

- Theorem {lit}`kioskInstall_files`: what a wet kiosk install leaves in the files.
- Theorem {lit}`kioskUninstall_files`: what a wet kiosk uninstall leaves in the files.
- Theorem {lit}`runScripts_files`: the files of the kiosk after any calls of the installer.
-/

namespace Wintermute
namespace Install

open Foundation Kiosk Shell

/-! ## The tools -/

/-- Files by path, in bytes. -/
abbrev RootFiles := Str → Option (List UInt8)

/-- The marker of an installed device. -/
def markerPath : Str :=
  "/var/lib/wintermute/installed".toList

/-- The files that only the kiosk modes write or remove. -/
def kioskPaths : List Str :=
  [recoveryServicePath, tmpfilesRulePath, greetdConfigPath, markerPath]

/-- The command that removes a file. -/
def removeArgv (path : Str) : List Str :=
  ["sudo".toList, "rm".toList, "-f".toList, path]

/-- The command that makes an empty file. -/
def touchArgv (path : Str) : List Str :=
  ["sudo".toList, "install".toList, "-Dm644".toList, "/dev/null".toList, path]

/-- The commands of the installer that are about other files. -/
inductive Bystander (sys : System) : List Str → Prop
  | cargoInstall {home : Str} (hhome : sys.home = some home) : Bystander sys (cargoArgv sys home)
  | edit {home file : Str} (hhome : sys.home = some home) (hfile : file ∈ unitFiles home) :
      Bystander sys (sedArgv file)
  | userReload : Bystander sys reloadArgv
  | reload : Bystander sys ["sudo".toList, "systemctl".toList, "daemon-reload".toList]
  | systemScript : Bystander sys (systemArgv sys)
  | doctor {home : Str} (hhome : sys.home = some home) : Bystander sys (doctorArgv home)
  | disableLinger (user : Str) : Bystander sys ["sudo".toList, "loginctl".toList,
      "disable-linger".toList, user]
  | createDirectories : Bystander sys ["sudo".toList, "systemd-tmpfiles".toList,
      "--create".toList, tmpfilesRulePath]
  | enableTarget (user : Str) : Bystander sys ["sudo".toList, "-u".toList, user,
      "systemctl".toList, "--user".toList, "--no-block".toList, "enable".toList,
      "wintermute.target".toList]

/-- What the commands do to the files of the kiosk when they succeed.  A rendering of literal
symbols is written as it comes through the here-string. -/
structure RootTools (sys : System) : Prop where
  spares : ∀ argv, Bystander sys argv → ∀ path ∈ kioskPaths, Spares sys.files argv path
  remove : ∀ ran path, sys.status ran (removeArgv path) = 0 → ∀ other ∈ kioskPaths,
    sys.files (removeArgv path :: ran) other = Function.update (sys.files ran) path none other
  touch : ∀ ran path, sys.status ran (touchArgv path) = 0 → ∀ other ∈ kioskPaths,
    sys.files (touchArgv path :: ran) other = Function.update (sys.files ran) path (some []) other
  write : ∀ ran, ∀ path ∈ kioskPaths, ∀ rendering, Plain rendering →
    sys.status ran (writeArgv path rendering) = 0 → ∀ text,
      hereString (quotedHereString (installCommand path) (commandSubst rendering)) = some text →
        ∀ other ∈ kioskPaths, sys.files (writeArgv path rendering :: ran) other =
          Function.update (sys.files ran) path (some text) other

/-- The commands for the files of the kiosk succeed. -/
structure RootWorks (sys : System) : Prop where
  remove : ∀ ran, ∀ path ∈ kioskPaths, sys.status ran (removeArgv path) = 0
  touch : ∀ ran, sys.status ran (touchArgv markerPath) = 0
  write : ∀ ran, ∀ path ∈ kioskPaths, ∀ rendering, Plain rendering →
    sys.status ran (writeArgv path rendering) = 0

/-- The files in bytes, from the commands run so far. -/
def fileBytes (sys : System) (ran : List (List Str)) : RootFiles :=
  fun path => (sys.files ran path).map utf8Bytes

/-! ## Calls that leave the kiosk alone -/

/-- Only commands about other files have been added. -/
def AddsBystanders (sys : System) (s s' : Session) : Prop :=
  ∃ newer, s'.ran = newer ++ s.ran ∧ ∀ argv ∈ newer, Bystander sys argv

section Bystanders

variable {sys : System} {home : Str}

theorem addsBystanders_of_eq {s s' : Session} (hran : s'.ran = s.ran) :
    AddsBystanders sys s s' :=
  ⟨[], hran, fun _ h => absurd h List.not_mem_nil⟩

theorem AddsBystanders.trans {s s' s'' : Session} (h : AddsBystanders sys s s')
    (h' : AddsBystanders sys s' s'') : AddsBystanders sys s s'' := by
  obtain ⟨newer, hran, hnewer⟩ := h
  obtain ⟨newest, hran', hnewest⟩ := h'
  refine ⟨newest ++ newer, ?_, List.forall_mem_append.mpr ⟨hnewest, hnewer⟩⟩
  rw [hran', hran, List.append_assoc]

/-- One more command about other files. -/
theorem addsBystanders_runit {argv : List Str} (hargv : Bystander sys argv) {s s' : Session}
    (hran : s'.ran = s.ran) : AddsBystanders sys s (s'.runit sys 0 argv) := by
  refine ⟨[argv], ?_, List.forall_mem_singleton.mpr hargv⟩
  rw [← hran]
  rfl

theorem reconcileFile_adds (hhome : sys.home = some home) (s : Session) {file : Str}
    (hfile : file ∈ unitFiles home) :
    AddsBystanders sys s (reconcileFile sys 0 s file) := by
  unfold reconcileFile
  split
  · exact addsBystanders_of_eq rfl
  · rw [if_neg Nat.zero_ne_one]
    exact ⟨[sedArgv file], rfl, List.forall_mem_singleton.mpr (.edit hhome hfile)⟩

theorem foldl_reconcileFile_adds (hhome : sys.home = some home) {files : List Str}
    (hfiles : ∀ file ∈ files, file ∈ unitFiles home) (s : Session) :
    AddsBystanders sys s (files.foldl (reconcileFile sys 0) s) := by
  induction files generalizing s with
  | nil => exact addsBystanders_of_eq rfl
  | cons file files ih =>
      rw [List.forall_mem_cons] at hfiles
      exact (reconcileFile_adds hhome s hfiles.1).trans (ih hfiles.2 _)

theorem reconcileUnits_adds (hhome : sys.home = some home) (s : Session) :
    AddsBystanders sys s (reconcileUnits sys home 0 s) := by
  unfold reconcileUnits
  split
  · rw [if_pos rfl]
    have hfiles := foldl_reconcileFile_adds hhome (fun _ h => h)
      (s.log ("reconciling user-scope unit files in ".toList ++ userUnitDir home))
    exact hfiles.trans (addsBystanders_runit .userReload rfl)
  · exact addsBystanders_of_eq rfl

theorem installSystem_adds (s : Session) : AddsBystanders sys s (installSystem sys 0 s) := by
  unfold installSystem
  split
  · exact addsBystanders_runit .systemScript rfl
  · exact addsBystanders_of_eq rfl

theorem doctorGate_adds (hhome : sys.home = some home) (s : Session) :
    AddsBystanders sys s (doctorGate sys home 0 s).2 := by
  unfold doctorGate
  rw [if_pos rfl]
  split
  · refine ⟨[doctorArgv home], ?_, List.forall_mem_singleton.mpr (.doctor hhome)⟩
    dsimp only [Session.exec]
    split <;> rfl
  · exact addsBystanders_of_eq rfl

/-- A wet development install is about other files. -/
theorem devInstall_adds {vars : FlagVars} (hwet : vars.dryRun = 0) (s : Session) :
    AddsBystanders sys s (devInstall sys vars s).2 := by
  cases hhome : sys.home with
  | none =>
      unfold devInstall
      rw [hhome]
      exact addsBystanders_of_eq rfl
  | some home =>
      rw [devInstall_home hhome, beforeGate, hwet]
      have hcargo : ∀ s' : Session, s'.ran = s.ran →
          AddsBystanders sys s (s'.runit sys 0 (cargoArgv sys home)) :=
        fun _ hran => addsBystanders_runit (.cargoInstall hhome) hran
      refine AddsBystanders.trans ?_ (doctorGate_adds hhome _)
      refine AddsBystanders.trans ?_ (installSystem_adds _)
      refine AddsBystanders.trans ?_ (reconcileUnits_adds hhome _)
      exact hcargo _ rfl

end Bystanders

/-! ## Calls for the kiosk -/

/-- What a call of the installer does to the kiosk: nothing, remove it, or set it up for a
user. -/
def kioskChange (params : List Str) : Option (Option Str) :=
  match scriptFlags params with
  | .error _ => none
  | .ok vars =>
      if vars.dryRun = 1 then none
      else if vars.uninstallKiosk = 1 then some none
      else if vars.kiosk = 1 then some (some vars.userName)
      else none

/-- The files of the kiosk after these changes.  What a kiosk install leaves of the greetd
config is left open. -/
structure KioskFiles (changes : List (Option Str)) (files : RootFiles) : Prop where
  recovery : files recoveryServicePath =
    changes.getLast?.join.map fun user => utf8Bytes (recoveryServiceUnit user)
  tmpfiles : files tmpfilesRulePath =
    changes.getLast?.join.map fun user => utf8Bytes (tmpfilesRule user)
  greetd : changes.getLast?.join = none → files greetdConfigPath = none
  marker : files markerPath = if ∃ change ∈ changes, change.isSome then some [] else none

/-- The last commands of a kiosk install, newest first. -/
def kioskArgvs (user : Str) : List (List Str) :=
  [["sudo".toList, "-u".toList, user, "systemctl".toList, "--user".toList,
      "--no-block".toList, "enable".toList, "wintermute.target".toList],
    touchArgv markerPath,
    ["sudo".toList, "systemctl".toList, "daemon-reload".toList],
    writeArgv recoveryServicePath (renderRecoveryService user),
    ["sudo".toList, "systemd-tmpfiles".toList, "--create".toList, tmpfilesRulePath],
    writeArgv tmpfilesRulePath (renderTmpfilesRule user)]

section Calls

variable {sys : System} {vars : FlagVars}

theorem scriptFlags_dryRun_cases {params : List Str} (h : scriptFlags params = .ok vars) :
    vars.dryRun = 0 ∨ vars.dryRun = 1 := by
  have hrelated := parseInstallArgs_related params
  rw [h] at hrelated
  generalize parseInstallArgs ("install.sh".toList :: params) = parsed at hrelated
  cases hrelated with
  | @ok out _ hvars =>
      subst hvars
      unfold InstallArgs.vars
      cases out.dryRun with
      | false => exact Or.inl rfl
      | true => exact Or.inr rfl

theorem kioskInstall_ran (hwet : vars.dryRun = 0) (s : Session) :
    ∃ older, (kioskInstall sys vars s).ran = kioskArgvs vars.userName ++ older := by
  have hnow : ∀ (f : Session → Session) s, whenWet 0 f s = f s := fun _ _ => if_pos rfl
  have hrun : ∀ argv (s : Session), (s.runit sys 0 argv).ran = argv :: s.ran := fun _ _ => rfl
  refine ⟨?older, ?commands⟩
  case commands =>
    unfold kioskInstall
    simp only [hwet, hnow, Nat.zero_ne_one, if_false, log_ran, say_ran, hrun]
    rfl

theorem kioskUninstall_ran (hwet : vars.dryRun = 0) (s : Session) :
    (kioskUninstall sys vars s).ran =
      [["sudo".toList, "systemctl".toList, "daemon-reload".toList],
        ["sudo".toList, "loginctl".toList, "disable-linger".toList, vars.userName],
        removeArgv tmpfilesRulePath, removeArgv greetdConfigPath,
        removeArgv recoveryServicePath] ++ s.ran := by
  unfold kioskUninstall
  simp only [hwet, if_true]
  rfl

variable (htools : RootTools sys) (hworks : RootWorks sys) {s : Session}

include htools

/-- A command about other files spares the files of the kiosk. -/
theorem RootTools.bystander_spares {argv : List Str} (hargv : Bystander sys argv) {path : Str}
    (hpath : path ∈ kioskPaths) : Spares (fileBytes sys) argv path :=
  fun older => congrArg (Option.map utf8Bytes) (htools.spares argv hargv path hpath older)

/-- Commands about other files leave the kiosk as it is. -/
theorem KioskFiles.adds {changes : List (Option Str)} {s' : Session}
    (h : KioskFiles changes (fileBytes sys s.ran)) (hadds : AddsBystanders sys s s') :
    KioskFiles changes (fileBytes sys s'.ran) := by
  obtain ⟨newer, hran, hnewer⟩ := hadds
  have hsame : ∀ path ∈ kioskPaths, fileBytes sys s'.ran path = fileBytes sys s.ran path := by
    intro path hpath
    rw [hran]
    exact spared_append (fun argv hargv => htools.bystander_spares (hnewer argv hargv) hpath) _
  refine ⟨?_, ?_, ?_, ?_⟩
  · rw [hsame _ (by decide), h.recovery]
  · rw [hsame _ (by decide), h.tmpfiles]
  · rw [hsame _ (by decide)]
    exact h.greetd
  · rw [hsame _ (by decide), h.marker]

include hworks

theorem RootTools.remove_sets {path : Str} (hpath : path ∈ kioskPaths) :
    Sets (fileBytes sys) (removeArgv path) path none := by
  intro older
  rw [fileBytes, htools.remove older path (hworks.remove older path hpath) path hpath,
    Function.update_self]
  rfl

theorem RootTools.remove_spares {path other : Str} (hpath : path ∈ kioskPaths)
    (hother : other ∈ kioskPaths) (hne : other ≠ path) :
    Spares (fileBytes sys) (removeArgv path) other := by
  intro older
  rw [fileBytes, htools.remove older path (hworks.remove older path hpath) other hother,
    Function.update_of_ne hne]
  rfl

theorem RootTools.touch_sets :
    Sets (fileBytes sys) (touchArgv markerPath) markerPath (some []) := by
  intro older
  rw [fileBytes, htools.touch older markerPath (hworks.touch older) markerPath (by decide),
    Function.update_self]
  rfl

theorem RootTools.touch_spares {other : Str} (hother : other ∈ kioskPaths)
    (hne : other ≠ markerPath) : Spares (fileBytes sys) (touchArgv markerPath) other := by
  intro older
  rw [fileBytes, htools.touch older markerPath (hworks.touch older) other hother,
    Function.update_of_ne hne]
  rfl

/-- A wet kiosk uninstall removes the files that configure the kiosk and leaves the
marker. -/
theorem kioskUninstall_files (hwet : vars.dryRun = 0) {changes : List (Option Str)}
    (h : KioskFiles changes (fileBytes sys s.ran)) :
    KioskFiles (changes ++ [none]) (fileBytes sys (kioskUninstall sys vars s).ran) := by
  have hreload := fun path => @RootTools.bystander_spares sys htools _ .reload path
  have hlinger := fun path =>
    @RootTools.bystander_spares sys htools _ (.disableLinger vars.userName) path
  have hremove := fun path other => @RootTools.remove_spares sys htools hworks path other
  have hlast : (changes ++ [none]).getLast?.join = none := by
    rw [List.getLast?_concat]
    rfl
  rw [kioskUninstall_ran hwet]
  refine ⟨?_, ?_, fun _ => ?_, ?_⟩
  · rw [hlast]
    refine sets_append [_, _, _, _] (htools.remove_sets hworks (by decide)) ?_ s.ran
    simp only [List.forall_mem_cons, List.not_mem_nil, false_imp_iff, forall_const, and_true]
    exact ⟨hreload _ (by decide), hlinger _ (by decide),
      hremove _ _ (by decide) (by decide) (by decide),
      hremove _ _ (by decide) (by decide) (by decide)⟩
  · rw [hlast]
    refine sets_append [_, _] (htools.remove_sets hworks (by decide)) ?_ (_ :: _ :: s.ran)
    simp only [List.forall_mem_cons, List.not_mem_nil, false_imp_iff, forall_const, and_true]
    exact ⟨hreload _ (by decide), hlinger _ (by decide)⟩
  · refine sets_append [_, _, _] (htools.remove_sets hworks (by decide)) ?_ (_ :: s.ran)
    simp only [List.forall_mem_cons, List.not_mem_nil, false_imp_iff, forall_const, and_true]
    exact ⟨hreload _ (by decide), hlinger _ (by decide),
      hremove _ _ (by decide) (by decide) (by decide)⟩
  · rw [@spared_append _ _ _ (fileBytes sys)]
    · rw [h.marker]
      simp
    · simp only [List.forall_mem_cons, List.not_mem_nil, false_imp_iff, forall_const, and_true]
      exact ⟨hreload _ (by decide), hlinger _ (by decide),
        hremove _ _ (by decide) (by decide) (by decide),
        hremove _ _ (by decide) (by decide) (by decide),
        hremove _ _ (by decide) (by decide) (by decide)⟩

/-- A rendering of literal symbols is written. -/
theorem RootTools.write_sets {path rendering : Str} (hpath : path ∈ kioskPaths)
    (hplain : Plain rendering) {input : List UInt8}
    (hinput : installInput path rendering = some input) :
    Sets (fileBytes sys) (writeArgv path rendering) path (some input) := by
  obtain ⟨text, htext, rfl⟩ := Option.map_eq_some_iff.mp hinput
  intro older
  rw [fileBytes, htools.write older path hpath rendering hplain
    (hworks.write older path hpath rendering hplain) text htext path hpath, Function.update_self]
  rfl

theorem RootTools.write_spares {path rendering other : Str} (hpath : path ∈ kioskPaths)
    (hplain : Plain rendering) {input : List UInt8}
    (hinput : installInput path rendering = some input) (hother : other ∈ kioskPaths)
    (hne : other ≠ path) : Spares (fileBytes sys) (writeArgv path rendering) other := by
  obtain ⟨text, htext, rfl⟩ := Option.map_eq_some_iff.mp hinput
  intro older
  rw [fileBytes, htools.write older path hpath rendering hplain
    (hworks.write older path hpath rendering hplain) text htext other hother,
    Function.update_of_ne hne]
  rfl

omit htools hworks in
theorem tmpfilesRule_plain (user : UserName) : Plain (tmpfilesRule user.text) := by
  have hfront : Plain "d /run/wintermute 0755 ".toList := by decide
  have hback : Plain " - -\n".toList := by decide
  have hblank : Plain [' '] := by decide
  exact (((hfront.append user.plain).append hblank).append user.plain).append hback

/-- A wet kiosk install writes the files of the kiosk. -/
theorem kioskInstall_files (hwet : vars.dryRun = 0) (user : UserName)
    (huser : vars.userName = user.text) (changes : List (Option Str)) :
    KioskFiles (changes ++ [some user.text]) (fileBytes sys (kioskInstall sys vars s).ran) := by
  have henable := fun path =>
    @RootTools.bystander_spares sys htools _ (.enableTarget user.text) path
  have hreload := fun path => @RootTools.bystander_spares sys htools _ .reload path
  have hcreate := fun path => @RootTools.bystander_spares sys htools _ .createDirectories path
  have hplain : Plain (renderRecoveryService user.text) :=
    heredoc_plain (recoveryLines_plain user)
  obtain ⟨older, hran⟩ := kioskInstall_ran hwet s
  have hlast : (changes ++ [some user.text]).getLast?.join = some user.text := by
    rw [List.getLast?_concat]
    rfl
  rw [hran, huser]
  refine ⟨?_, ?_, fun h => ?_, ?_⟩
  · rw [hlast]
    refine sets_append [_, _, _]
      (htools.write_sets hworks (by decide) hplain (recoveryInput_eq user)) ?_ (_ :: _ :: older)
    simp only [List.forall_mem_cons, List.not_mem_nil, false_imp_iff, forall_const, and_true]
    exact ⟨henable _ (by decide), htools.touch_spares hworks (by decide) (by decide),
      hreload _ (by decide)⟩
  · rw [hlast]
    refine sets_append [_, _, _, _, _]
      (htools.write_sets hworks (by decide) (tmpfilesRule_plain user) (tmpfilesInput_eq user)) ?_
      older
    simp only [List.forall_mem_cons, List.not_mem_nil, false_imp_iff, forall_const, and_true]
    exact ⟨henable _ (by decide), htools.touch_spares hworks (by decide) (by decide),
      hreload _ (by decide), htools.write_spares hworks (by decide) hplain (recoveryInput_eq user)
        (by decide) (by decide), hcreate _ (by decide)⟩
  · rw [hlast] at h
    cases h
  · have hmarked : ∃ change ∈ changes ++ [some user.text], change.isSome :=
      ⟨some user.text, List.mem_append_right _ (List.mem_singleton_self _), rfl⟩
    rw [if_pos hmarked]
    refine sets_append [_] (htools.touch_sets hworks) ?_ (_ :: _ :: _ :: _ :: older)
    exact List.forall_mem_singleton.mpr (henable _ (by decide))

/-! ## Any calls -/

/-- One call. -/
theorem installScript_kioskFiles {params : List Str} {changes : List (Option Str)}
    (hlegal : ∀ user, kioskChange params = some (some user) → ∀ c ∈ user, userChar c = true)
    (h : KioskFiles changes (fileBytes sys s.ran)) :
    KioskFiles (changes ++ (kioskChange params).toList)
      (fileBytes sys (installScript sys params s).2.ran) := by
  unfold installScript
  unfold kioskChange at hlegal ⊢
  cases hflags : scriptFlags params with
  | error exit =>
      simp only [Option.toList_none, List.append_nil]
      exact h
  | ok vars =>
      simp only [hflags] at hlegal
      rcases scriptFlags_dryRun_cases hflags with hwet | hdry
      · have hdry : vars.dryRun ≠ 1 := by omega
        simp only [if_neg hdry] at hlegal ⊢
        split_ifs with huninstall hkiosk
        · exact kioskUninstall_files htools hworks hwet h
        · rw [if_neg huninstall, if_pos hkiosk] at hlegal
          exact kioskInstall_files htools hworks hwet ⟨vars.userName, hlegal _ rfl⟩ rfl changes
        · rw [Option.toList_none, List.append_nil]
          exact h.adds htools (devInstall_adds hwet s)
      · simp only [if_pos hdry, Option.toList_none, List.append_nil]
        have hsame : ∀ s' : Session, s'.ran = s.ran → KioskFiles changes (fileBytes sys s'.ran) :=
          fun s' hran => h.adds htools (addsBystanders_of_eq hran)
        split_ifs
        · exact hsame _ (kioskUninstall_dry sys hdry s)
        · exact hsame _ (kioskInstall_dry sys hdry s)
        · exact hsame _ (devInstall_dry sys hdry s).2

/-- The installer, called again and again. -/
def runScripts (sys : System) (calls : List (List Str)) (s : Session) : Session :=
  calls.foldl (fun s params => (installScript sys params s).2) s

theorem runScripts_kioskFiles {calls : List (List Str)} {changes : List (Option Str)}
    (hlegal : ∀ params ∈ calls, ∀ user, kioskChange params = some (some user) →
      ∀ c ∈ user, userChar c = true)
    (h : KioskFiles changes (fileBytes sys s.ran)) :
    KioskFiles (changes ++ calls.filterMap kioskChange)
      (fileBytes sys (runScripts sys calls s).ran) := by
  induction calls generalizing s changes with
  | nil =>
      rw [List.filterMap_nil, List.append_nil]
      exact h
  | cons params calls ih =>
      rw [List.forall_mem_cons] at hlegal
      have hrest := ih hlegal.2 (installScript_kioskFiles htools hworks hlegal.1 h)
      have hsplit : changes ++ (params :: calls).filterMap kioskChange =
          changes ++ (kioskChange params).toList ++ calls.filterMap kioskChange := by
        cases hparams : kioskChange params <;> simp [hparams]
      rw [hsplit]
      exact hrest

/-- **The last call for the kiosk decides.**  On a device without a kiosk, on which the
commands of the root work, after any calls of the installer, the recovery service and the
tmpfiles rule are there as the library renders them for the user of the last wet kiosk call
if that was an install, and not there if it was an uninstall, when the greetd config is not
there either.  The marker is there from the first wet kiosk install on. -/
theorem runScripts_files {calls : List (List Str)}
    (hlegal : ∀ params ∈ calls, ∀ user, kioskChange params = some (some user) →
      ∀ c ∈ user, userChar c = true)
    (hclean : ∀ path ∈ kioskPaths, sys.files s.ran path = none) :
    KioskFiles (calls.filterMap kioskChange) (fileBytes sys (runScripts sys calls s).ran) := by
  have hnone : ∀ path ∈ kioskPaths, fileBytes sys s.ran path = none := by
    intro path hpath
    rw [fileBytes, hclean path hpath, Option.map_none]
  have hstart : KioskFiles [] (fileBytes sys s.ran) := by
    refine ⟨hnone _ (by decide), hnone _ (by decide), fun _ => hnone _ (by decide), ?_⟩
    rw [hnone _ (by decide)]
    exact (if_neg fun h => List.not_mem_nil h.choose_spec.1).symm
  exact runScripts_kioskFiles htools hworks hlegal hstart

end Calls

/-! ## Plain tools -/

/-- A shell command of the installer writes its here-string to a path.  Words behind the
here-string would be further arguments, which are refused. -/
def shellEffect (files : Str → Option Str) (command : Str) : Str → Option Str :=
  match stripPrefix "install -Dm644 /dev/stdin ".toList command, hereString command with
  | some rest, some input =>
      if command.count '"' = 2 then Function.update files (beforeFirst ' ' rest) (some input)
      else files
  | _, _ => files

/-- What a command of the root does to the files of the kiosk. -/
def rootEffect (files : Str → Option Str) : List Str → Str → Option Str
  | [prog, tool, flag, path] =>
      if prog = "sudo".toList ∧ tool = "rm".toList ∧ flag = "-f".toList then
        Function.update files path none
      else if prog = "sudo".toList ∧ tool = "bash".toList ∧ flag = "-c".toList then
        shellEffect files path
      else files
  | [prog, tool, flag, src, dst] =>
      if prog = "sudo".toList ∧ tool = "install".toList ∧ flag = "-Dm644".toList ∧
          src = "/dev/null".toList then
        Function.update files dst (some [])
      else files
  | _ => files

/-- Other commands of four words do nothing to the files. -/
theorem rootEffect_other (files : Str → Option Str) {prog tool flag arg : Str}
    (hrm : tool ≠ "rm".toList) (hbash : tool ≠ "bash".toList) :
    rootEffect files [prog, tool, flag, arg] = files := by
  rw [rootEffect, if_neg fun h => hrm h.2.1, if_neg fun h => hbash h.2.1]

/-- A rendering of literal symbols brings no further quote. -/
theorem count_quote_of_plain {text : Str} (htext : Plain text) : text.count '"' = 0 := by
  refine List.count_eq_zero.mpr fun hquote => ?_
  have hliteral := plain_iff.mp htext '"' hquote
  cases hliteral

theorem rootEffect_write (files : Str → Option Str) {path : Str} (hpath : path ∈ kioskPaths)
    {rendering text : Str} (hplain : Plain rendering)
    (htext : hereString (quotedHereString (installCommand path) (commandSubst rendering)) =
      some text) :
    rootEffect files (writeArgv path rendering) = Function.update files path (some text) := by
  have hword : ∀ path ∈ kioskPaths, ' ' ∉ path ∧ (installCommand path).count '"' = 0 := by decide
  obtain ⟨hblank, hcommand⟩ := hword path hpath
  obtain ⟨blank, hbody, -⟩ := exists_eq_trimEndMatches_append (· == '\n') rendering
  have hquotes : (commandSubst rendering).count '"' = 0 := by
    have htotal := count_quote_of_plain hplain
    rw [hbody, List.count_append] at htotal
    exact (Nat.add_eq_zero_iff.mp htotal).1
  have htwo : (quotedHereString (installCommand path) (commandSubst rendering)).count '"' = 2 := by
    have hopen : (hereOperator ++ [' ', '"']).count '"' = 1 := by decide
    have hclose : ['"'].count '"' = 1 := by decide
    rw [quotedHereString, List.append_assoc (installCommand path), List.count_append,
      List.count_append, List.count_append, hcommand, hopen, hquotes, hclose]
  have hfront : quotedHereString (installCommand path) (commandSubst rendering) =
      "install -Dm644 /dev/stdin ".toList ++
        (path ++ ' ' :: (hereOperator ++ [' ', '"'] ++ commandSubst rendering ++ ['"'])) := by
    unfold quotedHereString installCommand
    generalize "install -Dm644 /dev/stdin ".toList = front
    simp
  have hbash : rootEffect files (writeArgv path rendering) =
      shellEffect files (quotedHereString (installCommand path) (commandSubst rendering)) :=
    rfl
  rw [hbash]
  unfold shellEffect
  simp only [htext, htwo, if_true]
  simp only [hfront, stripPrefix_append, beforeFirst_append hblank]

/-- The calm machine without unit files, on which the root's commands work. -/
def kioskMachine : System :=
  { calmMachine with files := replay rootEffect fun _ => none }

theorem kioskMachine_tools : RootTools kioskMachine where
  spares := by
    intro argv hargv path hpath older
    have hother : ∀ tool flag arg : Str, tool ≠ "rm".toList → tool ≠ "bash".toList →
        kioskMachine.files (["sudo".toList, tool, flag, arg] :: older) path =
          kioskMachine.files older path :=
      fun _ _ _ hrm hbash => congrFun (rootEffect_other _ hrm hbash) path
    cases hargv with
    | disableLinger user => exact hother _ _ _ (by decide) (by decide)
    | createDirectories => exact hother _ _ _ (by decide) (by decide)
    | _ => rfl
  remove := fun _ _ _ _ _ => rfl
  touch := fun _ _ _ _ _ => rfl
  write := fun _ _ hpath _ hplain _ _ htext other _ =>
    congrFun (rootEffect_write _ hpath hplain htext) other

theorem kioskMachine_works : RootWorks kioskMachine where
  remove := fun _ _ _ => rfl
  touch := fun _ => rfl
  write := fun _ _ _ _ _ => rfl

theorem kioskChange_kiosk :
    kioskChange ["--kiosk".toList] = some (some "wintermute".toList) := by
  have hround : shiftLoop.body initialVars "--kiosk".toList [] =
      .ok ({ initialVars with kiosk := 1 }, []) := rfl
  rw [kioskChange, scriptFlags, ArgLoop.run_cons_ok hround, ArgLoop.run_nil]
  rfl

theorem kioskChange_uninstall : kioskChange ["--uninstall-kiosk".toList] = some none := by
  have hround : shiftLoop.body initialVars "--uninstall-kiosk".toList [] =
      .ok ({ initialVars with uninstallKiosk := 1 }, []) := rfl
  rw [kioskChange, scriptFlags, ArgLoop.run_cons_ok hround, ArgLoop.run_nil]
  rfl

/-- An uninstall after an install leaves the marker and no recovery service. -/
theorem runScripts_files_staleSession :
    let ran := (runScripts kioskMachine [["--kiosk".toList], ["--uninstall-kiosk".toList]]
      staleSession).ran
    fileBytes kioskMachine ran markerPath = some [] ∧
      fileBytes kioskMachine ran recoveryServicePath = none := by
  have hlegal : ∀ params ∈ [["--kiosk".toList], ["--uninstall-kiosk".toList]], ∀ user,
      kioskChange params = some (some user) → ∀ c ∈ user, userChar c = true := by
    simp only [List.forall_mem_cons, List.not_mem_nil, false_imp_iff, forall_const, and_true]
    refine ⟨fun user huser => ?_, fun user huser => ?_⟩
    · rw [kioskChange_kiosk] at huser
      cases huser
      exact defaultUser.legal
    · rw [kioskChange_uninstall] at huser
      cases huser
  have hclean : ∀ path ∈ kioskPaths, kioskMachine.files staleSession.ran path = none :=
    fun _ _ => rfl
  have hfiles := runScripts_files kioskMachine_tools kioskMachine_works hlegal hclean
  have hchanges : [["--kiosk".toList], ["--uninstall-kiosk".toList]].filterMap kioskChange =
      [some "wintermute".toList, none] := by
    rw [List.filterMap_cons_some kioskChange_kiosk, List.filterMap_cons_some kioskChange_uninstall]
    rfl
  rw [hchanges] at hfiles
  exact ⟨hfiles.marker.trans (if_pos ⟨_, List.mem_cons_self, rfl⟩), hfiles.recovery⟩

end Install
end Wintermute
