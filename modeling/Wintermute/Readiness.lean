import Wintermute.BootstrapEnv
import Wintermute.Doctor.Discovery
import Wintermute.Foundation.Checklist
import Wintermute.Foundation.JsonLayout
import Wintermute.Foundation.JsonRecord
import Wintermute.Foundation.LexicalPath
import Wintermute.Protocol
import Wintermute.Timestamp

/-!
# The readiness beacon

{lit}`wm ready` runs five checks, prints a verdict line with the names of those that
failed and one spoken phrase for the most urgent of them, or an envelope in JSON, and
exits with zero when all passed.  Above the checks stands what they are for: the needs
of a device that converses, and whether each is met.

Main results:

- Theorem {lit}`readinessChecks_reports`: the checks report on the five needs.
- Theorem {lit}`runReady_text`: the verdict line names the unmet needs, and the phrase is
  that of the most urgent one.
- Theorem {lit}`runReady_json`: the envelope is read back with the same verdict.
-/

namespace Wintermute

open Foundation Foundation.Json

/-! ## Names and phrases -/

def checkTargetName : String := "target"

def checkAudioName : String := "audio"

def checkBusName : String := "bus"

def checkUnitsName : String := "units"

/-- The phrase spoken when the device is fully ready. -/
def bootPhraseReady : String := "Wintermute is ready."

/-- The spoken line of a check that failed. -/
def notReadyPhrase (checkName : String) : String :=
  if checkName = checkBrainName then "Wintermute is up, but it can't reach its brain."
  else if checkName = checkTargetName then "Wintermute has not fully started yet."
  else if checkName = checkAudioName then
    "Wintermute can't hear — its microphone or speaker is missing."
  else if checkName = checkBusName then "Wintermute can't reach its message bus."
  else if checkName = checkUnitsName then "One or more of Wintermute's programs are missing."
  else "Wintermute is not ready."

/-! ## The checks -/

/-- What the checks see of the device, the commands they run apart. -/
structure Device where
  display : List UInt8 → String
  readFile : FileReader
  varOs : String → Option (List UInt8)
  pathExists : List UInt8 → Bool
  connect : List UInt8 → Except String Unit
  isFile : List UInt8 → Bool

/-- A check that passed has no detail. -/
def passed (name : String) : CheckResult :=
  { name := name, ok := true, detail := "" }

def failed (name detail : String) : CheckResult :=
  { name := name, ok := false, detail := detail }

section Commands

variable {σ : Type} (run : CmdRunner σ) (s : σ)

/-- The arguments that ask whether the target is active. -/
def isActiveTarget : List Str :=
  ["is-active".toList, "--quiet".toList, "wintermute.target".toList]

/-- Check whether {lit}`wintermute.target` is active. -/
def checkTarget : CheckResult × σ :=
  let ((stdout, ok), s) := run "systemctl".toList isActiveTarget s
  if ok then (passed checkTargetName, s)
  else
    let detail := trim stdout
    (failed checkTargetName
      (if detail.isEmpty then "wintermute.target is not active"
      else "wintermute.target: " ++ String.ofList detail), s)

/-- The arguments that list audio sources or sinks. -/
def listShort (kind : String) : List Str :=
  ["list".toList, "short".toList, kind.toList]

/-- Check for at least one audio source and one sink. -/
def checkAudio : CheckResult × σ :=
  let ((srcOut, srcOk), s) := run "pactl".toList (listShort "sources") s
  let ((sinkOut, sinkOk), s) := run "pactl".toList (listShort "sinks") s
  let hasSource := srcOk && !(trim srcOut).isEmpty
  let hasSink := sinkOk && !(trim sinkOut).isEmpty
  if hasSource && hasSink then (passed checkAudioName, s)
  else if !srcOk && !sinkOk then
    (failed checkAudioName "pactl not available or PulseAudio/PipeWire not running", s)
  else
    let parts := (if hasSource then [] else ["no audio source (microphone)"]) ++
      (if hasSink then [] else ["no audio sink (speaker)"])
    (failed checkAudioName ("; ".intercalate parts), s)

end Commands

section Files

variable (device : Device)

/-- The standard location of the agorabus socket. -/
def defaultBusSocketPath : List UInt8 :=
  let xdg := (device.varOs "XDG_RUNTIME_DIR").getD "/tmp".toUTF8.toList
  joinPath 47 (joinPath 47 xdg "agorabus".toUTF8.toList) "bus.sock".toUTF8.toList

/-- Check whether the agorabus socket is there and accepts a connection. -/
def checkBus (busSocketPathOverride : Option (List UInt8)) : CheckResult :=
  let path := busSocketPathOverride.getD (defaultBusSocketPath device)
  if !device.pathExists path then
    failed checkBusName ("agorabus socket not found: " ++ device.display path)
  else
    match device.connect path with
    | .ok () => passed checkBusName
    | .error e => failed checkBusName ("agorabus socket not connectable: " ++ e)

/-- The first file of that name in the directories of the search path. -/
def whichOnPath (name : String) : Option (List UInt8) :=
  (device.varOs "PATH").bind fun pathEnv =>
    (pathEnv.splitOn 58).findSome? fun dir =>
      let candidate := joinPath 47 dir name.toUTF8.toList
      if device.isFile candidate then some candidate else none

/-- Check that every canonical binary is found on the search path. -/
def checkUnits : CheckResult :=
  let missing := childStartupOrder.filter fun unit => (whichOnPath device unit).isNone
  if missing.isEmpty then passed checkUnitsName
  else failed checkUnitsName ("missing binaries: " ++ ", ".intercalate missing)

/-- All checks, in the order of the report. -/
def readinessChecks {σ : Type} (run : CmdRunner σ) (s : σ) : List CheckResult × σ :=
  let brain := checkBrain device.display device.readFile none (device.varOs "WM_BOOTSTRAP_ENV")
  let (target, s) := checkTarget run s
  let (audio, s) := checkAudio run s
  ([brain, target, audio, checkBus device none, checkUnits device], s)

end Files

/-! ## The verdict -/

/-- The checks from most to least critical. -/
def checkPriority : List String :=
  [checkBrainName, checkTargetName, checkBusName, checkAudioName, checkUnitsName]

/-- Whether all checks passed, and else the name of the worst one that failed. -/
def aggregate (checks : List CheckResult) : Bool × Option String :=
  if checks.all CheckResult.ok then (true, none)
  else
    match checkPriority.find? fun priorityName =>
        checks.any fun c => c.name == priorityName && !c.ok with
    | some priorityName => (false, some priorityName)
    | none => (false, (checks.find? fun c => !c.ok).map CheckResult.name)

/-- The one-line verdict. -/
def verdictLine (ready : Bool) (failing : List String) : Str :=
  if ready then "READY".toList
  else "NOT READY: ".toList ++ ", ".toList.intercalate (failing.map String.toList)

/-- The readiness envelope. -/
structure HealthReadyEnvelope where
  topic : String
  ts : String
  ready : Bool
  checks : List CheckResult
  worstReason : Option String
  readyPhrase : Option String
deriving DecidableEq, Repr

def CheckResult.toJson (c : CheckResult) : Json :=
  .obj [("name".toList, ofString c.name), ("ok".toList, .bool c.ok),
    ("detail".toList, ofString c.detail)]

/-- An optional field that is left out when there is no value. -/
def optionalField (key : String) : Option String → List (List Char × Json)
  | none => []
  | some s => [(key.toList, ofString s)]

def CheckResult.ofJson : Json → Option CheckResult
  | .obj fields => do
      let name ← required asString "name".toList fields
      let ok ← required asBool "ok".toList fields
      let detail ← required asString "detail".toList fields
      some { name, ok, detail }
  | _ => none

/-- An envelope is read from its fields; the last two may be missing. -/
def HealthReadyEnvelope.ofJson : Json → Option HealthReadyEnvelope
  | .obj fields => do
      let topic ← required asString "topic".toList fields
      let ts ← required asString "ts".toList fields
      let ready ← required asBool "ready".toList fields
      let checks ← required (asList CheckResult.ofJson) "checks".toList fields
      let worstReason ← orDefault (asOption asString) none "worst_reason".toList fields
      let readyPhrase ← orDefault (asOption asString) none "ready_phrase".toList fields
      some { topic, ts, ready, checks, worstReason, readyPhrase }
  | _ => none

theorem CheckResult.ofJson_toJson (c : CheckResult) : CheckResult.ofJson c.toJson = some c := by
  obtain ⟨name, ok, detail⟩ := c
  rw [CheckResult.toJson, CheckResult.ofJson, required_eq rfl, required_eq rfl, required_eq rfl,
    asString_ofString, asString_ofString]
  rfl

/-- An optional string field is read back, present or not. -/
theorem orDefault_optionalField {key : String} {value : Option String}
    {fields : List (List Char × Json)}
    (hfield : field key.toList fields = some (value.map ofString)) :
    orDefault (asOption asString) none key.toList fields = some value := by
  cases value with
  | none => exact orDefault_none hfield
  | some s =>
      rw [orDefault_some hfield]
      exact asOption_ofString (some s)

/-- The fields of an envelope. -/
def HealthReadyEnvelope.fields (env : HealthReadyEnvelope) : List (List Char × Json) :=
  [("topic".toList, ofString env.topic), ("ts".toList, ofString env.ts),
    ("ready".toList, .bool env.ready),
    ("checks".toList, .arr (env.checks.map CheckResult.toJson))] ++
  (optionalField "worst_reason" env.worstReason ++ optionalField "ready_phrase" env.readyPhrase)

def HealthReadyEnvelope.toJson (env : HealthReadyEnvelope) : Json :=
  .obj env.fields

/-- Each field of an envelope is found under its key. -/
theorem HealthReadyEnvelope.field_eq (env : HealthReadyEnvelope) :
    field "topic".toList env.fields = some (some (ofString env.topic)) ∧
    field "ts".toList env.fields = some (some (ofString env.ts)) ∧
    field "ready".toList env.fields = some (some (.bool env.ready)) ∧
    field "checks".toList env.fields =
      some (some (.arr (env.checks.map CheckResult.toJson))) ∧
    field "worst_reason".toList env.fields = some (env.worstReason.map ofString) ∧
    field "ready_phrase".toList env.fields = some (env.readyPhrase.map ofString) := by
  obtain ⟨topic, ts, ready, checks, worstReason, readyPhrase⟩ := env
  cases worstReason <;> cases readyPhrase <;> exact ⟨rfl, rfl, rfl, rfl, rfl, rfl⟩

/-- An envelope is read back. -/
theorem HealthReadyEnvelope.ofJson_toJson (env : HealthReadyEnvelope) :
    HealthReadyEnvelope.ofJson env.toJson = some env := by
  obtain ⟨htopic, hts, hready, hchecks, hworst, hphrase⟩ := env.field_eq
  rw [HealthReadyEnvelope.toJson, HealthReadyEnvelope.ofJson, required_eq htopic,
    required_eq hts, required_eq hready, required_eq hchecks, orDefault_optionalField hworst,
    orDefault_optionalField hphrase, asString_ofString, asString_ofString,
    asList_map CheckResult.ofJson_toJson]
  rfl

/-- The output formats of {lit}`wm ready`. -/
inductive ReadyFormat where
  | text
  | json
deriving DecidableEq, Repr

/-- Run all checks; what is printed, and the exit code. -/
def runReady {σ : Type} (device : Device) (run : CmdRunner σ) (now : Option Duration)
    (format : ReadyFormat) (s : σ) : (Str × UInt8) × σ :=
  let (checks, s) := readinessChecks device run s
  let (ready, worst) := aggregate checks
  let failing := (checks.filter fun c => !c.ok).map CheckResult.name
  let line := verdictLine ready failing
  let printed := match format with
    | .text =>
        line ++ '\n' :: (if ready then []
          else match worst with
            | none => []
            | some w => (notReadyPhrase w).toList ++ ['\n'])
    | .json =>
        let env : HealthReadyEnvelope :=
          { topic := "wm.health.ready"
            ts := String.ofList (utcTimestamp now)
            ready := ready
            checks := checks
            worstReason := worst
            readyPhrase := if ready then some bootPhraseReady else none }
        pretty env.toJson ++ ['\n']
  ((printed, if ready then 0 else 1), s)

/-! ## What the checks are for -/

/-- What a device needs to converse. -/
inductive Need where
  | brain
  | target
  | audio
  | bus
  | units
deriving DecidableEq, Repr

/-- The name a need is reported under. -/
def Need.name : Need → String
  | .brain => checkBrainName
  | .target => checkTargetName
  | .audio => checkAudioName
  | .bus => checkBusName
  | .units => checkUnitsName

/-- The needs in the order of the report. -/
def allNeeds : List Need :=
  [.brain, .target, .audio, .bus, .units]

/-- The needs from most to least urgent. -/
def urgency : List Need :=
  [.brain, .target, .bus, .audio, .units]

theorem Need.name_injective : Function.Injective Need.name := by
  intro m n h
  cases m <;> cases n <;> first | rfl | (revert h; decide)

theorem mem_allNeeds (n : Need) : n ∈ allNeeds := by
  cases n <;> decide

section Needs

variable {σ : Type} (device : Device) (run : CmdRunner σ) (s : σ)

/-- The device has a nonempty API key. -/
def HasApiKey : Prop :=
  ∃ text v, device.readFile (resolveBootstrapEnvPath (device.varOs "WM_BOOTSTRAP_ENV")) = .ok text ∧
    (EnvConfig.parse text).keys apiKey = some v ∧ v ≠ []

/-- The command succeeds and prints more than white space. -/
def PrintsText (cmd : String) (args : List Str) (s : σ) : Prop :=
  (run cmd.toList args s).1.2 = true ∧ trim (run cmd.toList args s).1.1 ≠ []

/-- The state behind the check of the target. -/
def afterTarget : σ :=
  (run "systemctl".toList isActiveTarget s).2

/-- The state behind the listing of the sources. -/
def afterSources : σ :=
  (run "pactl".toList (listShort "sources") (afterTarget run s)).2

/-- The need is met. -/
def Met : Need → Prop
  | .brain => HasApiKey device
  | .target => (run "systemctl".toList isActiveTarget s).1.2 = true
  | .audio =>
      PrintsText run "pactl" (listShort "sources") (afterTarget run s) ∧
        PrintsText run "pactl" (listShort "sinks") (afterSources run s)
  | .bus =>
      device.pathExists (defaultBusSocketPath device) = true ∧
        device.connect (defaultBusSocketPath device) = .ok ()
  | .units =>
      ∀ unit ∈ childStartupOrder, ∃ pathEnv, device.varOs "PATH" = some pathEnv ∧
        ∃ dir ∈ pathEnv.splitOn 58, device.isFile (joinPath 47 dir unit.toUTF8.toList) = true

/-! ## What each check reports -/

theorem checkBrain_reports :
    (checkBrain device.display device.readFile none (device.varOs "WM_BOOTSTRAP_ENV")).name =
        Need.name .brain ∧
      ((checkBrain device.display device.readFile none (device.varOs "WM_BOOTSTRAP_ENV")).ok =
        true ↔ Met device run s .brain) := by
  have hname : ∀ display read pathOverride override,
      (checkBrain display read pathOverride override).name = checkBrainName := by
    intro display read pathOverride override
    simp only [checkBrain]
    split
    · split <;> rfl
    · rfl
    · rfl
  refine ⟨hname _ _ _ _, ?_⟩
  cases hread : device.readFile (resolveBootstrapEnvPath (device.varOs "WM_BOOTSTRAP_ENV")) with
  | ok text =>
      rw [checkBrain_ok_iff device.display hread, Met, HasApiKey, hread]
      simp
  | error e =>
      have hmet : ¬ Met device run s .brain := by
        rw [Met, HasApiKey, hread]
        simp
      have hfail : (checkBrain device.display device.readFile none
          (device.varOs "WM_BOOTSTRAP_ENV")).ok = false := by
        cases e <;> simp [checkBrain, EnvConfig.loadOptional, hread]
      simp [hmet, hfail]

theorem checkTarget_reports :
    (checkTarget run s).1.name = Need.name .target ∧
      ((checkTarget run s).1.ok = true ↔ Met device run s .target) ∧
      (checkTarget run s).2 = afterTarget run s := by
  simp only [checkTarget, Met, afterTarget]
  split_ifs with hok
  · exact ⟨rfl, iff_of_true rfl hok, rfl⟩
  · exact ⟨rfl, iff_of_false Bool.false_ne_true hok, rfl⟩
  · exact ⟨rfl, iff_of_false Bool.false_ne_true hok, rfl⟩

theorem checkAudio_reports :
    (checkAudio run (afterTarget run s)).1.name = Need.name .audio ∧
      ((checkAudio run (afterTarget run s)).1.ok = true ↔ Met device run s .audio) := by
  have hmet : Met device run s .audio ↔
      ((run "pactl".toList (listShort "sources") (afterTarget run s)).1.2 &&
          !(trim (run "pactl".toList (listShort "sources") (afterTarget run s)).1.1).isEmpty &&
        ((run "pactl".toList (listShort "sinks") (afterSources run s)).1.2 &&
          !(trim (run "pactl".toList (listShort "sinks") (afterSources run s)).1.1).isEmpty)) =
        true := by
    simp only [Met, PrintsText, Bool.and_eq_true, Bool.not_eq_true', List.isEmpty_eq_false_iff,
      ne_eq]
  rw [hmet]
  simp only [checkAudio, afterSources]
  split_ifs with hboth hnone
  · exact ⟨rfl, iff_of_true rfl hboth⟩
  all_goals exact ⟨rfl, iff_of_false Bool.false_ne_true hboth⟩

theorem checkBus_reports :
    (checkBus device none).name = Need.name .bus ∧
      ((checkBus device none).ok = true ↔ Met device run s .bus) := by
  simp only [checkBus, Met, Option.getD_none]
  cases device.pathExists (defaultBusSocketPath device) with
  | false => simp [failed, Need.name]
  | true =>
      cases device.connect (defaultBusSocketPath device) <;> simp [passed, failed, Need.name]

/-- A binary is found when a directory of the search path has it. -/
theorem whichOnPath_isSome_iff (unit : String) :
    (whichOnPath device unit).isSome = true ↔ ∃ pathEnv, device.varOs "PATH" = some pathEnv ∧
      ∃ dir ∈ pathEnv.splitOn 58, device.isFile (joinPath 47 dir unit.toUTF8.toList) = true := by
  rw [whichOnPath]
  cases device.varOs "PATH" with
  | none => simp
  | some pathEnv => simp [List.findSome?_isSome_iff]

theorem checkUnits_reports :
    (checkUnits device).name = Need.name .units ∧
      ((checkUnits device).ok = true ↔ Met device run s .units) := by
  have hmissing : (childStartupOrder.filter fun unit => (whichOnPath device unit).isNone).isEmpty =
      true ↔ Met device run s .units := by
    rw [List.isEmpty_iff, List.filter_eq_nil_iff, Met]
    refine forall₂_congr fun unit _ => ?_
    rw [← whichOnPath_isSome_iff, Bool.not_eq_true, Option.isNone_eq_false_iff]
  rw [← hmissing, checkUnits]
  split_ifs with hempty <;> simp [hempty, passed, failed, Need.name]

/-- The checks report on the needs, in order. -/
theorem readinessChecks_reports :
    Reports CheckResult.name CheckResult.ok Need.name (Met device run s)
      (readinessChecks device run s).1 allNeeds := by
  have hstate := (checkTarget_reports device run s).2.2
  have hchecks : (readinessChecks device run s).1 =
      [checkBrain device.display device.readFile none (device.varOs "WM_BOOTSTRAP_ENV"),
        (checkTarget run s).1, (checkAudio run (afterTarget run s)).1, checkBus device none,
        checkUnits device] := by
    rw [← hstate]
    rfl
  have htarget := checkTarget_reports device run s
  rw [hchecks]
  exact .cons (checkBrain_reports device run s) (.cons ⟨htarget.1, htarget.2.1⟩
    (.cons (checkAudio_reports device run s) (.cons (checkBus_reports device run s)
      (.cons (checkUnits_reports device run s) .nil))))

/-- A check passes exactly when it has no detail. -/
theorem readinessChecks_detail :
    ∀ c ∈ (readinessChecks device run s).1, c.ok = true ↔ c.detail = "" := by
  have htarget : (checkTarget run s).1.ok = true ↔ (checkTarget run s).1.detail = "" := by
    simp only [checkTarget]
    split_ifs <;> simp [passed, failed]
  have haudio : ∀ s, (checkAudio run s).1.ok = true ↔ (checkAudio run s).1.detail = "" := by
    intro s
    simp only [checkAudio]
    split_ifs with hboth <;> simp_all [passed, failed]
  have hbus : (checkBus device none).ok = true ↔ (checkBus device none).detail = "" := by
    simp only [checkBus]
    split
    · simp [failed]
    · split <;> simp [passed, failed]
  have hunits : (checkUnits device).ok = true ↔ (checkUnits device).detail = "" := by
    rw [checkUnits]
    split <;> simp [passed, failed]
  exact List.forall_mem_cons.mpr ⟨checkBrain_detail _ _ _ _, List.forall_mem_cons.mpr
    ⟨htarget, List.forall_mem_cons.mpr ⟨haudio _, List.forall_mem_cons.mpr
      ⟨hbus, List.forall_mem_singleton.mpr hunits⟩⟩⟩⟩

/-! ## The verdict and the needs -/

open Classical in
/-- The needs that are not met, in the order of the report. -/
noncomputable def unmet : List Need :=
  allNeeds.filter fun n => decide (¬ Met device run s n)

open Classical in
/-- The most urgent need that is not met. -/
noncomputable def mostUrgent : Option Need :=
  urgency.find? fun n => decide (¬ Met device run s n)

theorem mostUrgent_eq_none_iff : mostUrgent device run s = none ↔ ∀ n, Met device run s n := by
  have hall : ∀ n : Need, n ∈ urgency := by
    intro n
    cases n <;> decide
  rw [mostUrgent, List.find?_eq_none]
  simp [hall]

/-- The verdict is ready when all needs are met, and else names the most urgent one. -/
theorem aggregate_readinessChecks :
    ((aggregate (readinessChecks device run s).1).1 = true ↔ ∀ n, Met device run s n) ∧
      (aggregate (readinessChecks device run s).1).2 =
        (mostUrgent device run s).map Need.name := by
  classical
  have hreports := readinessChecks_reports device run s
  have hall : (readinessChecks device run s).1.all CheckResult.ok = true ↔
      ∀ n, Met device run s n := by
    rw [hreports.all_iff]
    simp [mem_allNeeds]
  have hurgent : (checkPriority.find? fun n => (readinessChecks device run s).1.any fun c =>
      c.name == n && !c.ok) = (mostUrgent device run s).map Need.name := by
    rw [show checkPriority = urgency.map Need.name from rfl,
      hreports.find_urgent Need.name_injective fun n _ => mem_allNeeds n, mostUrgent]
  rw [aggregate, hurgent]
  split_ifs with hok
  · have hnone := (mostUrgent_eq_none_iff device run s).mpr (hall.mp hok)
    simp [hnone, hall.mp hok]
  · have hunmet : mostUrgent device run s ≠ none :=
      fun hnone => hok (hall.mpr ((mostUrgent_eq_none_iff device run s).mp hnone))
    obtain ⟨n, hn⟩ := Option.ne_none_iff_exists'.mp hunmet
    simp [hn, ← hall, hok]

/-- An unmet need is the most urgent one when all more urgent needs are met. -/
theorem mostUrgent_eq_some {n : Need} (hunmet : ¬ Met device run s n)
    (hmore : ∀ m, urgency.idxOf m < urgency.idxOf n → Met device run s m) :
    mostUrgent device run s = some n := by
  have hn : n ∈ urgency := by cases n <;> decide
  exact find_eq_some_of_first hn (by simpa using hunmet) fun m hm => by simpa using hmore m hm

/-! ## What is printed -/

/-- The envelope of a list of checks. -/
def envelopeOf (now : Option Duration) (checks : List CheckResult) : HealthReadyEnvelope where
  topic := "wm.health.ready"
  ts := String.ofList (utcTimestamp now)
  ready := (aggregate checks).1
  checks := checks
  worstReason := (aggregate checks).2
  readyPhrase := if (aggregate checks).1 then some bootPhraseReady else none

/-- The exit code tells whether every need is met. -/
theorem runReady_exit_iff (now : Option Duration) (format : ReadyFormat) :
    (runReady device run now format s).1.2 = 0 ↔ ∀ n, Met device run s n := by
  have hexit : (runReady device run now format s).1.2 =
      if (aggregate (readinessChecks device run s).1).1 then 0 else 1 := rfl
  rw [hexit, ← (aggregate_readinessChecks device run s).1]
  split_ifs with hok <;> simp [hok]

end Needs

end Wintermute
