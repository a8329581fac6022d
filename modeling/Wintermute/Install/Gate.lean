import Wintermute.Doctor.Rendering
import Wintermute.Install.Script

/-!
# The gate of the installer

A development install edits the unit files and then runs the doctor, which asks the
user's service manager for the same files.  The manager prints a comment line and the
text of a file, and the doctor reads the binary from the text that the stream editor has
left.

Main results:

- Theorem {lit}`parseExecStart_reconciled`: the doctor reads the fleet directory where a
  stale directory stood.
- Theorem {lit}`installScript_gated`: when the installer succeeds and its doctor ran, the
  binary of every stale unit is executable in the fleet directory.
-/

namespace Wintermute
namespace Install

open Foundation Kiosk

/-! ## What the doctor reads -/

/-- The doctor reads a text segment by segment, carriage returns or not. -/
theorem parseExecStart_segments (text : Str) :
    parseExecStart text = (segments '\n' text).findSome? execToken := by
  induction text using segments_induction '\n' with
  | nil => rfl
  | last p hne hp => rw [parseExecStart_last hp, segments_last hne hp, List.findSome?_singleton]
  | cons p rest hp ih =>
      rw [parseExecStart_cons hp, segments_cons hp, List.findSome?_cons, ih]
      cases execToken p with
      | none => rfl
      | some token => rfl

/-- A comment line holds no binary. -/
theorem parseExecStart_comment {comment : Str} (hcomment : '\n' ∉ comment) (text : Str) :
    parseExecStart ('#' :: comment ++ '\n' :: text) = parseExecStart text := by
  have hline : '\n' ∉ '#' :: comment := by
    rw [List.mem_cons, not_or]
    exact ⟨by decide, hcomment⟩
  have htoken : execToken ('#' :: comment) = none := by
    have htrim : trim ('#' :: comment) = '#' :: trimEndMatches isWhitespace comment :=
      @trimEndMatches_front _ isWhitespace [] '#' rfl comment
    rw [execToken, htrim]
    rfl
  rw [parseExecStart_cons hline, htoken, Option.none_or]

/-- The script leaves a line without a binary alone. -/
theorem sedScript_of_noToken (locale : Locale) {line : Str} (hline : execToken line = none) :
    sedScript locale line = line := by
  rcases stripPrefix_cases execStart line with ⟨value, rfl⟩ | hother
  · have hfresh : installerRest locale value = none := by
      by_contra hsome
      have hstale := startsStale_iff.mpr (Option.ne_none_iff_exists'.mp hsome)
      have hhead : ∃ c rest, value = c :: rest ∧ isWhitespace c = false ∧
          execModifiers.contains c = false := by
        rcases hstale with ⟨rest, rfl⟩ | ⟨rest, rfl⟩ | ⟨c, -, rest, rfl⟩
        · exact ⟨_, _, rfl, rfl, by decide⟩
        · exact ⟨_, _, rfl, rfl, by decide⟩
        · exact ⟨_, _, rfl, rfl, by decide⟩
      obtain ⟨c, rest, rfl, hspace, hmod⟩ := hhead
      obtain ⟨token, -, -, htoken⟩ := exists_token_of_head hspace hmod rest
      rw [hline] at htoken
      cases htoken
    rw [sedScript_value, hfresh, Option.elim_none]
  · exact sedScript_of_other locale (stripPrefix_eq_none_iff.mp hother)

/-- Behind the key the script puts the fleet directory in place of a directory it moves. -/
theorem execToken_sedScript (locale : Locale) {dir name tail : Str} (hdir : dir ∈ movedDirs)
    (hname : ∀ c ∈ name, isWhitespace c = false)
    (htail : ∀ c ∈ tail.head?, isWhitespace c = true) :
    execToken (sedScript locale (execStart ++ (dir ++ (name ++ tail)))) =
      some (fleetDir ++ name) := by
  have hword : ∀ c ∈ fleetDir ++ name, isWhitespace c = false :=
    List.forall_mem_append.mpr ⟨noWhitespace_fleetDir, hname⟩
  have hmod : trimStartMatches execModifiers.contains (fleetDir ++ (name ++ tail)) =
      fleetDir ++ (name ++ tail) := rfl
  rw [sedScript_value, installerRest_moved locale hdir, Option.elim_some, execToken_execStart, hmod,
    ← List.append_assoc]
  exact firstWord_append (List.append_ne_nil_of_left_ne_nil (by decide) _) hword htail

/-- The first command of a unit is a binary under a directory that the installer moves, and
it stands right behind the key. -/
def StaleCommand (text name : Str) : Prop :=
  ∃ dir ∈ movedDirs, ∃ tail,
    (segments '\n' text).find? (fun line => (execToken line).isSome) =
      some (execStart ++ (dir ++ (name ++ tail))) ∧
    (∀ c ∈ name, isWhitespace c = false) ∧ ∀ c ∈ tail.head?, isWhitespace c = true

/-- **The doctor follows the editor.**  In a unit file that the script has edited, the doctor
reads the binary of a stale command from the fleet directory. -/
theorem parseExecStart_reconciled (locale : Locale) {text name : Str}
    (hstale : StaleCommand text name) :
    parseExecStart (mapSegments '\n' (sedScript locale) text) = some (fleetDir ++ name) := by
  obtain ⟨dir, hdir, tail, hfind, hname, htail⟩ := hstale
  obtain ⟨-, before, after, hsegments, hbefore⟩ := List.find?_eq_some_iff_append.mp hfind
  have hnone : before.findSome? (execToken ∘ sedScript locale) = none := by
    refine List.findSome?_eq_none_iff.mpr fun line hline => ?_
    have htoken : execToken line = none := by
      simpa using hbefore line hline
    rw [Function.comp_apply, sedScript_of_noToken locale htoken, htoken]
  have hfirst := execToken_sedScript locale hdir hname htail
  rw [parseExecStart_segments, segments_mapSegments (newline_notMem_sedScript locale text)
    fun _ _ => sedScript_ne_nil, List.findSome?_map, hsegments, List.findSome?_append, hnone,
    Option.none_or, List.findSome?_cons, Function.comp_apply, hfirst]

/-- A path in the fleet directory is expanded to the home directory. -/
theorem expandSpecifiers_fleet {env : ProcessEnv} {name : Str}
    (hhome : '%' ∉ homeValue env none) (hname : '%' ∉ name) :
    expandSpecifiers env (fleetDir ++ name) none none none =
      homeValue env none ++ "/.local/bin/".toList ++ name := by
  have hplain : ∀ {s value : Str} {c : Char}, '%' ∉ s → replaceAll ['%', c] value s = s := by
    intro s value c hs
    exact replaceAll_of_pairCount_eq_zero value (pairCount_of_notMem hs)
  have hfleet : fleetDir ++ name = '%' :: 'h' :: ("/.local/bin/".toList ++ name) := rfl
  have hrest : '%' ∉ "/.local/bin/".toList ++ name := by
    rw [List.mem_append, not_or]
    exact ⟨by decide, hname⟩
  have hall : '%' ∉ homeValue env none ++ ("/.local/bin/".toList ++ name) := by
    rw [List.mem_append, not_or]
    exact ⟨hhome, hrest⟩
  rw [expandSpecifiers, hfleet, replaceAll_pair, hplain hrest, hplain hall, hplain hall,
    List.append_assoc]

/-! ## The rows of the doctor -/

section Rows

variable {σ : Type} (env : ProcessEnv) (fs : FileSystem) (run : CmdRunner σ)

/-- Every name in the list is probed in some state. -/
theorem exists_probe_mem (ctx : ProbeCtx σ) {names : List Str} {name : Str}
    (hname : name ∈ names) (acc : List UnitReport × σ) :
    ∃ s, (probeUnit env fs name ctx s).1 ∈ (names.foldl (probeInto env fs ctx) acc).1 := by
  induction names generalizing acc with
  | nil => cases hname
  | cons first names ih =>
      rcases List.mem_cons.mp hname with rfl | hrest
      · refine ⟨acc.2, ?_⟩
        obtain ⟨rows, hrows, -⟩ := foldl_probeInto env fs ctx names (probeInto env fs ctx acc name)
        rw [List.foldl_cons, hrows]
        exact List.mem_append_left _ (List.mem_append_right _ (List.mem_singleton.mpr rfl))
      · exact ih hrest (probeInto env fs ctx acc first)

/-- The user's manager knows these units; a unit file is printed behind a comment line. -/
structure Serves (run : CmdRunner σ) (unitText : Str → Option Str) (known : Set UnitName) :
    Prop where
  knows : KnowsUnits run userFlag known
  prints : ∀ u ∈ known, ∀ text, unitText u.name = some text →
    ∃ comment, '\n' ∉ comment ∧ ∀ s,
      (run "systemctl".toList [userFlag, "cat".toList, u.name] s).1.1 =
        '#' :: comment ++ '\n' :: text

variable {run} {unitText : Str → Option Str} {known : Set UnitName}

/-- The row of a unit whose text the doctor can read. -/
theorem exists_row (hserves : Serves run unitText known) {u : UnitName} (hu : u ∈ known)
    (hpattern : MatchesPattern u.name) {text path : Str} (htext : unitText u.name = some text)
    (hpath : parseExecStart text = some path) (s : σ) :
    ∃ r ∈ (runDoctor env fs run none none none .user s).1.units, r.Sound fs ∧
      r.execStart = path ∧ (path ≠ [] → r.resolved = expandSpecifiers env path none none none) := by
  obtain ⟨comment, hcomment, hcat⟩ := hserves.prints u hu text htext
  set target := run "systemctl".toList [userFlag, "cat".toList, "wintermute.target".toList] s
    with htarget
  set ctx : ProbeCtx σ :=
    { scopeFlag := userFlag
      targetCat := target.1.1
      run := run
      homeOverride := none
      userOverride := none
      uidOverride := none } with hctx
  have hunits : (runDoctor env fs run none none none .user s).1.units =
      ((discoverUnits run userFlag target.2).1.foldl (probeInto env fs ctx)
        ([], (discoverUnits run userFlag target.2).2)).1 := rfl
  have hmem : u.name ∈ (discoverUnits run userFlag target.2).1 :=
    (mem_discoverUnits_iff hserves.knows target.2 u.name).mpr ⟨hpattern, u, hu, rfl⟩
  obtain ⟨s', hrow⟩ := exists_probe_mem env fs ctx hmem
    ([], (discoverUnits run userFlag target.2).2)
  have hexec : (probeUnit env fs u.name ctx s').1.execStart = path := by
    have hread : (probeUnit env fs u.name ctx s').1.execStart = (parseExecStart
        (run "systemctl".toList [userFlag, "cat".toList, u.name] s').1.1).getD [] := rfl
    rw [hread, hcat s', parseExecStart_comment hcomment, hpath, Option.getD_some]
  refine ⟨_, hunits ▸ hrow, probeUnit_sound env fs u.name ctx s', hexec, fun hne => ?_⟩
  have hresolved : (probeUnit env fs u.name ctx s').1.resolved =
      resolvedPath env ctx (probeUnit env fs u.name ctx s').1.execStart := rfl
  rw [hresolved, hexec, resolvedPath, if_neg (by rwa [List.isEmpty_iff])]

end Rows

/-! ## The gate -/

/-- In a wet run the doctor runs last, and its status decides. -/
theorem doctorGate_wet {sys : System} {home : Str}
    (hwm : ∀ ran, sys.executable ran (wmBin home) = true) (s : Session) :
    (doctorGate sys home 0 s).2.ran = doctorArgv home :: s.ran ∧
      ((doctorGate sys home 0 s).1 = 0 ↔ sys.status s.ran (doctorArgv home) = 0) := by
  unfold doctorGate
  rw [if_pos rfl, if_pos (hwm s.ran)]
  dsimp only [Session.exec]
  split_ifs with hfails
  · exact ⟨rfl, iff_of_false not_false hfails⟩
  · exact ⟨rfl, iff_of_true rfl (not_not.mp hfails)⟩

/-- A wet development install ends with the doctor, which finds the listed unit files
edited. -/
theorem installScript_doctor {sys : System} {home : Str} (hhome : sys.home = some home)
    {kept : Set Str} (htools : DevTools sys home kept)
    (hkept : ∀ file ∈ unitFiles home, file ∈ kept)
    (hdir : ∀ ran, sys.directory ran (userUnitDir home) = true)
    (hwm : ∀ ran, sys.executable ran (wmBin home) = true) {params : List Str}
    (hmode : DevMode params) (s : Session) :
    ∃ before, (installScript sys params s).2.ran = doctorArgv home :: before ∧
      ((installScript sys params s).1 = 0 ↔ sys.status before (doctorArgv home) = 0) ∧
      ∀ file ∈ unitFiles home,
        sys.files before file = reconcileUnitFile sys.locale false (sys.files s.ran file) := by
  have hfiles : ∀ file ∈ unitFiles home, sys.files (installScript sys params s).2.ran file =
      reconcileUnitFile sys.locale false (sys.files s.ran file) := by
    intro file hfile
    have htarget := unitFiles_notMem_targets sys.scriptDir hfile
    rw [installScript_notCopied hhome htools hdir hmode s (hkept file hfile) htarget, if_pos hfile]
  obtain ⟨vars, hdev, hwet⟩ := hmode
  have hscript : installScript sys params s =
      doctorGate sys home 0 (beforeGate sys home vars s) := by
    rw [installScript_dev hdev, devInstall_home hhome, hwet]
  obtain ⟨hran, hstatus⟩ := doctorGate_wet hwm (beforeGate sys home vars s)
  rw [← hscript] at hran hstatus
  refine ⟨_, hran, hstatus, fun file hfile => ?_⟩
  rw [← htools.doctor file (hkept file hfile), ← hran, hfiles file hfile]

section Gate

variable {σ : Type} {env : ProcessEnv} {fs : FileSystem} {run : CmdRunner σ}
  {known : Set UnitName}

/-- When the doctor has no failure, a stale unit's binary is in the fleet directory. -/
theorem isExecutable_of_stale (sys : System) (hhome : '%' ∉ homeValue env none)
    (before : Str → Option Str) {after : Str → Option Str} (hserves : Serves run after known)
    {s : σ} (hfailures : (runDoctor env fs run none none none .user s).1.failures = [])
    {u : UnitName} (hu : u ∈ known) (hpattern : MatchesPattern u.name)
    (hafter : after u.name = reconcileUnitFile sys.locale false (before u.name)) {text name : Str}
    (htext : before u.name = some text) (hstale : StaleCommand text name) (hname : '%' ∉ name) :
    fs.IsExecutable (homeValue env none ++ "/.local/bin/".toList ++ name) := by
  have hread := parseExecStart_reconciled sys.locale hstale
  rw [htext] at hafter
  obtain ⟨r, hr, hsound, hexec, hresolved⟩ := exists_row env fs hserves hu hpattern hafter hread s
  have hne : fleetDir ++ name ≠ [] := List.append_ne_nil_of_left_ne_nil (by decide) _
  have hok : r.binaryOk = true := by
    by_contra hbad
    have hfails : r.fails = true :=
      (fails_eq_true_iff r).mpr ⟨hexec ▸ hne, Bool.not_eq_true _ ▸ hbad⟩
    have hmem : r.unit ∈ (runDoctor env fs run none none none .user s).1.failures :=
      List.mem_map_of_mem (List.mem_filter.mpr ⟨hr, hfails⟩)
    rw [hfailures] at hmem
    cases hmem
  have hrun := (hsound.binaryOk_iff.mp hok).2
  rwa [hresolved hne, expandSpecifiers_fleet hhome hname] at hrun

/-- **The gate holds what it promises.**  On a machine with a directory of unit files, an
installed {lit}`wm` and tools that work, a wet development install succeeds exactly when the
doctor that it runs at its end finds no failure.  Then every unit that the doctor looks at,
whose file is one of those the installer edits and whose command stood in a stale directory
right behind the key, has an executable binary in the fleet directory. -/
theorem installScript_gated (sys : System) {home : Str} (hhome : sys.home = some home)
    {kept : Set Str} (htools : DevTools sys home kept)
    (hkept : ∀ file ∈ unitFiles home, file ∈ kept)
    (hdir : ∀ ran, sys.directory ran (userUnitDir home) = true)
    (hwm : ∀ ran, sys.executable ran (wmBin home) = true) {params : List Str}
    (hmode : DevMode params) (s : Session) (henv : env.var "HOME".toList = some home)
    (hspecifier : '%' ∉ home)
    (hserves : Serves run
      (fun unit => sys.files (installScript sys params s).2.ran.tail
        (userUnitDir home ++ '/' :: unit)) known)
    (t : σ)
    (hdoctor : ∀ before, (installScript sys params s).2.ran = doctorArgv home :: before →
      sys.status before (doctorArgv home) =
        (runDoctorCmd env fs run .table .user false t).1.2.toNat) :
    ((installScript sys params s).1 = 0 ↔
      (runDoctor env fs run none none none .user t).1.failures = []) ∧
    ((installScript sys params s).1 = 0 →
      ∀ u ∈ known, MatchesPattern u.name → u.name ∈ reconciledUnits →
        ∀ text name, sys.files s.ran (userUnitDir home ++ '/' :: u.name) = some text →
          StaleCommand text name → '%' ∉ name →
            fs.IsExecutable (home ++ "/.local/bin/".toList ++ name)) := by
  have hvalue : homeValue env none = home := by
    rw [homeValue, henv]
    rfl
  obtain ⟨before, hran, hstatus, hedited⟩ :=
    installScript_doctor hhome htools hkept hdir hwm hmode s
  rw [hran, List.tail_cons] at hserves
  have hexit : (installScript sys params s).1 = 0 ↔
      (runDoctor env fs run none none none .user t).1.failures = [] := by
    rw [← runDoctorCmd_exit_iff env fs run .table .user false t, hstatus, hdoctor before hran,
      ← UInt8.toNat_inj]
    rfl
  refine ⟨hexit, fun hsucceeds u hu hpattern hlisted text name htext hstale hname => ?_⟩
  have hfile : userUnitDir home ++ '/' :: u.name ∈ unitFiles home :=
    List.mem_map.mpr ⟨u.name, hlisted, rfl⟩
  have hrun := isExecutable_of_stale sys (hvalue ▸ hspecifier)
    (fun unit => sys.files s.ran (userUnitDir home ++ '/' :: unit)) hserves (hexit.mp hsucceeds) hu
    hpattern (hedited _ hfile) htext hstale hname
  rwa [hvalue] at hrun

end Gate

/-- The text of the stale unit file after the install. -/
def freshText : Str :=
  "[Service]\nExecStart=%h/.local/bin/wm-audio start\n".toList

/-- The manager of the audio unit after the install. -/
def audioManager : CmdRunner Unit := fun cmd args s =>
  if args = [userFlag, "cat".toList, audioName.name] then
    (("# wm-audio.service\n".toList ++ freshText, true), s)
  else managerOf [audioName] cmd args s

/-- A process of the user who installs. -/
def installerProcess : ProcessEnv where
  var := fun name => if name = "HOME".toList then some adaHome else none
  procStatus := none

/-- A file system on which every path can be executed. -/
def allExecutable : FileSystem where
  pathExists := fun _ => true
  mode := fun _ => some 0o755

theorem staleSession_installed :
    calmMachine.files (installScript calmMachine [] staleSession).2.ran.tail
      (userUnitDir adaHome ++ '/' :: audioName.name) = some freshText := by
  obtain ⟨before, hran, -, hedited⟩ := @installScript_doctor calmMachine adaHome rfl Set.univ
    calmMachine_tools (fun _ _ => Set.mem_univ _) (fun _ => rfl) (fun _ => rfl) [] devMode_nil
    staleSession
  rw [hran, List.tail_cons, hedited _ (by decide)]
  decide

theorem audioManager_serves :
    Serves audioManager (fun unit => calmMachine.files
      (installScript calmMachine [] staleSession).2.ran.tail (userUnitDir adaHome ++ '/' :: unit))
      {u | u ∈ [audioName]} where
  knows :=
    { unitFiles := fun _ _ s => managerOf_lists [audioName] "systemctl".toList rfl s
      loadedUnits := fun _ _ s => managerOf_lists [audioName] "systemctl".toList rfl s }
  prints := by
    intro u hu text htext
    obtain rfl : u = audioName := List.mem_singleton.mp hu
    obtain rfl : freshText = text := Option.some.inj (staleSession_installed.symm.trans htext)
    exact ⟨" wm-audio.service".toList, by decide, fun _ => rfl⟩

theorem installScript_gated_staleSession :
    (installScript calmMachine [] staleSession).1 = 0 ∧
      allExecutable.IsExecutable "/home/ada/.local/bin/wm-audio".toList := by
  have hdoctor : (runDoctorCmd installerProcess allExecutable audioManager .table .user false
      ()).1.2 = 0 := by
    decide
  have hgated := @installScript_gated Unit installerProcess allExecutable audioManager
    {u | u ∈ [audioName]} calmMachine adaHome rfl Set.univ calmMachine_tools
    (fun _ _ => Set.mem_univ _) (fun _ => rfl) (fun _ => rfl) [] devMode_nil staleSession rfl
    (by decide) audioManager_serves () fun _ _ => by
      rw [hdoctor]
      rfl
  have hsucceeds := hgated.1.mpr (by decide)
  have hstale : StaleCommand
      "[Service]\nExecStart=~/.cargo/bin/wm-audio start\n".toList "wm-audio".toList := by
    exact ⟨"~/.cargo/bin/".toList, by decide, " start".toList, by decide, by simp [isWhitespace],
      by simp [isWhitespace]⟩
  exact ⟨hsucceeds, hgated.2 hsucceeds audioName (List.mem_singleton.mpr rfl)
    (Or.inl (by decide)) (by decide) _ _ (by decide) hstale (by decide)⟩

end Install
end Wintermute
