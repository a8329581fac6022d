import Wintermute.Foundation.Tables
import Wintermute.Foundation.Utf8
import Wintermute.Watchdog.FailedList
import Wintermute.Watchdog.Iteration

/-!
# The watchdog over systemctl

The engine's backend runs {lit}`systemctl` and reads what it prints: a JSON array of the
failed units or, from a manager that does not know the format or lists none, a table.  The
array is read without its escapes, so it shows a backslash in a name twice.  In a dry run
the daemon reads the table and announces every unit in it, and a backend that only
announces its calls stands for the rest.

Main results:

- Theorem {lit}`listFailedUnits_eq`: the names that the daemon reads.
- Theorem {lit}`watchRun_facts`: the daemon over the texts of a service manager is the
  engine over the facts behind them.
- Theorem {lit}`dryTick_predicts`: a dry run announces the units that a new daemon would
  reset, and gives up on none.
-/

namespace Wintermute
namespace Watchdog

open Foundation Json

/-! ## Commands -/

/-- A finished command: its exit code, unless a signal ended it, and what it printed. -/
structure Finished where
  code : Option ℤ
  stdout : List UInt8

def Finished.success (f : Finished) : Bool :=
  f.code == some 0

/-- The exit code as it is shown. -/
def Finished.detail (f : Finished) : String :=
  match f.code with
  | none => "exit code None"
  | some code => s!"exit code Some({code})"

/-- What the daemon runs on: {lit}`systemctl`, which answers its arguments from the history
so far or cannot be run, and the decoding of bytes that replaces the invalid ones. -/
structure Host where
  systemctl : List Call → List String → Except String Finished
  lossy : List UInt8 → Str

/-- The host as a daemon finds it that starts behind a history. -/
def Host.after (host : Host) (past : List Call) : Host :=
  { host with systemctl := fun log => host.systemctl (log ++ past) }

/-- The arguments of the table of failed units. -/
def listArgs : List String :=
  ["--user", "--state=failed", "--no-legend", "--plain"]

/-- The arguments of the array of failed units. -/
def jsonArgs : List String :=
  listArgs ++ ["-o", "json"]

/-- The first words of the lines of a text. -/
def firstWords (text : Str) : List Str :=
  (lines text).filterMap fun line => (splitWhitespace line).head?

section Backends

variable (host : Host) (log : List Call)

/-- {lit}`list_failed_units_text`. -/
def listFailedUnitsText : Except WatchdogError (List String) :=
  match host.systemctl log listArgs with
  | .error e => .error (.io e)
  | .ok out =>
      if !out.success then .error (.systemctlFailed "list-units" "" out.detail)
      else .ok ((firstWords (host.lossy out.stdout)).map String.ofList)

/-- {lit}`list_failed_units` of the real backend. -/
def listFailedUnits : Except WatchdogError (List String) :=
  match host.systemctl log jsonArgs with
  | .error e => .error (.io e)
  | .ok out =>
      if !out.success then listFailedUnitsText host log
      else parseFailedJson (listFailedUnitsText host log) (host.lossy out.stdout)

/-- {lit}`run_systemctl`. -/
def runSystemctl (args : List String) : Except WatchdogError Unit :=
  match host.systemctl log args with
  | .error e => .error (.io e)
  | .ok out =>
      if out.success then .ok ()
      else .error (.systemctlFailed (args.head?.getD "") (args.getLast?.getD "") out.detail)

/-- {lit}`unit_is_failed` of the real backend. -/
def unitIsFailed (unit : String) : Except WatchdogError Bool :=
  match host.systemctl log ["--user", "is-failed", unit] with
  | .error e => .error (.io e)
  | .ok out => .ok (decide (trim (host.lossy out.stdout) = "failed".toList))

/-- A line in the log of the dry run. -/
structure DryLine where
  unit : String
  message : String
deriving DecidableEq, Repr

/-- {lit}`list_failed_units` of the dry run, and what it announces: every unit of the table,
of the fleet or not.  The exit code is not looked at. -/
def dryListFailedUnits : Except WatchdogError (List String) × List DryLine :=
  match host.systemctl log listArgs with
  | .error e => (.error (.io e), [])
  | .ok out =>
      let units := (firstWords (host.lossy out.stdout)).map String.ofList
      (.ok units, units.map fun name => ⟨name, "dry-run: would reset-failed and start"⟩)

end Backends

/-- {lit}`SystemctlReal`. -/
def systemctlReal (host : Host) : SystemctlBackend where
  resetFailed log unit := runSystemctl host log ["--user", "reset-failed", unit]
  startUnit log unit := runSystemctl host log ["--user", "start", unit]
  unitIsFailed log unit := unitIsFailed host log unit

/-- {lit}`DryRunBackend`. -/
def dryRunBackend : SystemctlBackend where
  resetFailed _ _ := .ok ()
  startUnit _ _ := .ok ()
  unitIsFailed _ _ := .ok false

/-- What {lit}`DryRunBackend` announces in a call that the engine makes for one unit. -/
def dryCallLine : SystemctlCall → Option DryLine
  | .listFailedUnits _ => none
  | .resetFailed unit _ => some ⟨unit, "dry-run: would reset-failed"⟩
  | .startUnit unit _ => some ⟨unit, "dry-run: would start"⟩
  | .unitIsFailed unit _ => some ⟨unit, "dry-run: would check is-failed"⟩

/-- What the dry run announces in the calls of a history, oldest first. -/
def dryCallLines (log : List Call) : List DryLine :=
  log.reverse.filterMap fun c => dryCallLine c.call

/-! ## The daemon -/

/-- One tick of the daemon: list the failed units and recover them. -/
def watchTick (host : Host) (w : Watch) (now : Instant) : Watch :=
  w.step (systemctlReal host) ⟨now, listFailedUnits host w.engine.log⟩

/-- The daemon's ticks at the given times. -/
def watchRun (host : Host) (times : List Instant) : Watch :=
  times.foldl (watchTick host) Watch.new

/-- One tick of the dry run behind a history, with an engine of its own: what it returns,
and what it announces. -/
def dryTick (host : Host) (past : List Call) (now : Instant) :
    Except WatchdogError (List HealthEvent) × List DryLine :=
  let (listed, lines) := dryListFailedUnits host past
  let (result, engine) := tick dryRunBackend now listed WatchdogEngine.new
  (result, lines ++ dryCallLines engine.log)

/-! ## A service manager -/

/-- A failed unit as the manager shows it. -/
structure UnitStatus where
  name : Str
  load : Str
  active : Str
  sub : Str
  description : Str
  legal : ∀ c ∈ name, legalUnitChar c = true
  named : name ≠ []

/-- The unit in the array. -/
def UnitStatus.object (u : UnitStatus) : FailedUnit where
  name := u.name
  before := []
  after := [("load".toList, u.load), ("active".toList, u.active), ("sub".toList, u.sub),
    ("description".toList, u.description)]
  legal := u.legal
  keys := by
    intro f hf
    simp only [List.nil_append, List.mem_cons, List.not_mem_nil, or_false] at hf
    rcases hf with rfl | rfl | rfl | rfl <;> simp

/-- The unit's line in the table: its name between white space, and anything behind. -/
def UnitStatus.Shown (u : UnitStatus) (line : Str) : Prop :=
  '\n' ∉ line ∧ ∃ before after, line = before ++ (u.name ++ after) ∧
    (∀ c ∈ before, isWhitespace c = true) ∧ ∀ c ∈ after.head?, isWhitespace c = true

/-- The failed units, from the history so far. -/
abbrev Manager := List Call → List UnitStatus

/-- The names of the failed units. -/
def Manager.failedNames (m : Manager) (log : List Call) : List String :=
  (m log).map fun u => String.ofList u.name

/-- The host prints the array. -/
def Host.printsArray (host : Host) (log : List Call) : Bool :=
  match host.systemctl log jsonArgs with
  | .error _ => false
  | .ok out => out.success

/-- The names that the daemon reads: an array shows them as they are escaped in it. -/
def Manager.listedNames (m : Manager) (host : Host) (log : List Call) : List String :=
  if host.printsArray log then (m log).map fun u => String.ofList (scanned u.name)
  else m.failedNames log

/-- The host shows the state of the manager: the array, if the manager knows that format,
the table, and the state of a single unit. -/
structure Host.Shows (host : Host) (m : Manager) : Prop where
  json : ∀ log, ∃ out, host.systemctl log jsonArgs = .ok out ∧ (out.success = true →
    ∃ layout, host.lossy out.stdout = encode layout ((m log).map UnitStatus.object))
  table : ∀ log, ∃ out, host.systemctl log listArgs = .ok out ∧ out.success = true ∧
    ∃ rows, host.lossy out.stdout = rows.flatMap (· ++ ['\n']) ∧
      List.Forall₂ UnitStatus.Shown (m log) rows
  state : ∀ log unit, ∃ out word, host.systemctl log ["--user", "is-failed", unit] = .ok out ∧
    host.lossy out.stdout = word ++ ['\n'] ∧ (∀ c ∈ word, isWhitespace c = false) ∧
    (word = "failed".toList ↔ unit ∈ m.failedNames log)

/-! ## Reading the table -/

/-- The legal characters of names are visible ASCII. -/
theorem legalUnitChar_not_whitespace {c : Char} (hc : legalUnitChar c = true) :
    isWhitespace c = false := by
  have hlow := legalUnitChar_toNat hc
  have hhigh : c.toNat ≤ 122 := by
    rw [legalUnitChar, Bool.or_eq_true] at hc
    rcases hc with hletter | hother
    · have hrange : (decide (65 ≤ c.val ∧ c.val ≤ 90) ||
          (decide (97 ≤ c.val) && decide (c.val ≤ 122)) ||
            (decide (48 ≤ c.val) && decide (c.val ≤ 57))) = true := hletter
      simp only [Bool.or_eq_true, Bool.and_eq_true, decide_eq_true_eq, UInt32.le_iff_toNat_le]
        at hrange
      have hval : c.val.toNat = c.toNat := rfl
      simp only [UInt32.reduceToNat, hval] at hrange
      omega
    · simp at hother
      rcases hother with rfl | rfl | rfl | rfl | rfl | rfl <;> simp
  simp only [isWhitespace, Bool.or_eq_false_iff, Bool.and_eq_false_iff, beq_eq_false_iff_ne,
    decide_eq_false_iff_not]
  omega

theorem UnitStatus.isWord (u : UnitStatus) : IsWord isWhitespace u.name :=
  ⟨u.named, fun c hc => legalUnitChar_not_whitespace (u.legal c hc)⟩

/-- The first word of a unit's line is its name. -/
theorem UnitStatus.Shown.head {u : UnitStatus} {line : Str} (h : u.Shown line) :
    (splitWhitespace line).head? = some u.name := by
  obtain ⟨-, before, after, rfl, hbefore, hafter⟩ := h
  change (wordsOf isWhitespace _).head? = _
  rw [wordsOf_blanks_append hbefore]
  cases after with
  | nil => rw [List.append_nil, u.isWord.wordsOf_eq, List.head?_cons]
  | cons c rest =>
      rw [wordsOf_cut (hafter c rfl), u.isWord.wordsOf_eq, List.singleton_append, List.head?_cons]

/-- A carriage return at the end is no word. -/
theorem head_dropSeparator_cr (p : Str) :
    (splitWhitespace (dropSeparator '\r' p)).head? = (splitWhitespace p).head? := by
  rw [dropSeparator]
  split_ifs with hlast
  · obtain ⟨front, rfl⟩ := List.getLast?_eq_some_iff.mp hlast
    have hcr : ∀ c ∈ ['\r'], isWhitespace c = true := List.forall_mem_singleton.mpr rfl
    rw [List.dropLast_concat]
    change (wordsOf isWhitespace front).head? = (wordsOf isWhitespace (front ++ ['\r'])).head?
    rw [wordsOf_append_blanks front hcr]
  · rfl

/-- The first words of the table are the names of the units. -/
theorem firstWords_table {units : List UnitStatus} {rows : List Str}
    (hrows : List.Forall₂ UnitStatus.Shown units rows) :
    firstWords (rows.flatMap (· ++ ['\n'])) = units.map UnitStatus.name := by
  rw [firstWords, filterMap_lines head_dropSeparator_cr]
  induction hrows with
  | nil => rfl
  | @cons u line units rows hshown _ ih =>
      rw [List.flatMap_cons, List.append_assoc, List.singleton_append, segments_cons hshown.1]
      simp only [List.filterMap_cons, hshown.head, ih, List.map_cons]

/-! ## The two formats -/

section Formats

variable {host : Host} {m : Manager}

theorem Manager.failedNames_eq (m : Manager) (log : List Call) :
    m.failedNames log = ((m log).map UnitStatus.name).map String.ofList := by
  rw [Manager.failedNames, List.map_map]
  rfl

/-- The table gives the names of the failed units, to the real backend and to the dry run,
which announces them all. -/
theorem listFailedUnitsText_eq (hshows : host.Shows m) (log : List Call) :
    listFailedUnitsText host log = .ok (m.failedNames log) ∧
      dryListFailedUnits host log = (.ok (m.failedNames log), (m.failedNames log).map
        fun name => ⟨name, "dry-run: would reset-failed and start"⟩) := by
  obtain ⟨out, hout, hsuccess, rows, hstdout, hrows⟩ := hshows.table log
  have hnames := firstWords_table hrows
  rw [listFailedUnitsText, dryListFailedUnits, hout]
  simp [hsuccess, hstdout, hnames, m.failedNames_eq]

/-- No other key of an object reads like the key. -/
theorem UnitStatus.scannedNames_object (u : UnitStatus) :
    scannedNames u.object.fields = [scanned u.name] := by
  have hother : ∀ f ∈ u.object.before ++ u.object.after, ¬ keyTail <:+ f.1 := by
    intro f hf
    simp only [UnitStatus.object, List.nil_append, List.mem_cons, List.not_mem_nil, or_false] at hf
    rcases hf with rfl | rfl | rfl | rfl <;> exact of_decide_eq_true rfl
  rw [List.forall_mem_append] at hother
  have hkeys := List.forall_mem_append.mp u.object.keys
  rw [u.object.scannedNames_fields, (scannedNames_eq_nil_iff hkeys.1).mpr hother.1,
    (scannedNames_eq_nil_iff hkeys.2).mpr hother.2]
  rfl

/-- The array gives the names too, as they are escaped; the table gives them when the array
has none or the manager does not know the format. -/
theorem listFailedUnits_eq (hshows : host.Shows m) (log : List Call) :
    listFailedUnits host log = .ok (m.listedNames host log) := by
  have htable := (listFailedUnitsText_eq hshows log).1
  obtain ⟨out, hout, hjson⟩ := hshows.json log
  rw [listFailedUnits, Manager.listedNames, Host.printsArray, hout]
  by_cases hsuccess : out.success = true
  · obtain ⟨layout, hstdout⟩ := hjson hsuccess
    have hunits : (lines (host.lossy out.stdout)).flatMap unitNames =
        (m log).map fun u => scanned u.name := by
      rw [hstdout, names_encode, List.flatMap_map,
        flatMap_eq_map_iff fun u => u.object.scannedNames_ne_nil]
      exact fun u _ => u.scannedNames_object
    simp only [hsuccess, Bool.not_true, Bool.false_eq_true, if_false, if_true, parseFailedJson,
      hunits, htable]
    cases hlog : m log with
    | nil => simp [Manager.failedNames, hlog]
    | cons u units => simp
  · simp [hsuccess, htable]

/-- The daemon reads the names as they are when it reads the table, and from an array when
none has a backslash. -/
theorem listedNames_eq_iff (m : Manager) (host : Host) (log : List Call) :
    m.listedNames host log = m.failedNames log ↔
      (host.printsArray log = true → ∀ u ∈ m log, '\\' ∉ u.name) := by
  rw [Manager.listedNames]
  split_ifs with harray
  · rw [Manager.failedNames, List.map_inj_left, forall_prop_of_true harray]
    refine forall₂_congr fun u _ => ?_
    rw [String.ofList_inj]
    exact u.object.scanned_name_iff
  · exact iff_of_true rfl fun h => absurd h harray

/-- A word is what trimming leaves of it. -/
theorem trim_word {word : Str} (hword : ∀ c ∈ word, isWhitespace c = false) : trim word = word := by
  have hstart : trimStartMatches isWhitespace word = word := by
    cases word with
    | nil => rfl
    | cons c rest => exact List.dropWhile_cons_of_neg (by simp [hword c List.mem_cons_self])
  rw [trim, hstart]
  induction word using List.reverseRecOn with
  | nil => rfl
  | append_singleton front c _ =>
      exact List.rdropWhile_concat_neg _ _ _ (by simp [hword c (by simp)])

/-- The query answers whether the unit is failed. -/
theorem unitIsFailed_eq (hshows : host.Shows m) (log : List Call) (unit : String) :
    unitIsFailed host log unit = .ok (decide (unit ∈ m.failedNames log)) := by
  obtain ⟨out, word, hout, hstdout, hword, hstate⟩ := hshows.state log unit
  have htrim : trim (word ++ ['\n']) = word := by
    rw [trim_append_blank (List.forall_mem_singleton.mpr rfl), trim_word hword]
  simp only [unitIsFailed, hout, hstdout, htrim, hstate]

end Formats

/-! ## The daemon over the facts -/

/-- The backend that is told which units are failed. -/
def Manager.backend (m : Manager) (host : Host) : SystemctlBackend :=
  { systemctlReal host with
    unitIsFailed := fun log unit => .ok (decide (unit ∈ m.failedNames log)) }

/-- The units that a history resets, oldest first. -/
def unitsReset (log : List Call) : List String :=
  log.reverse.filterMap fun c =>
    match c.call with
    | .resetFailed unit _ => some unit
    | _ => none

theorem unitsReset_append (calls log : List Call) :
    unitsReset (calls ++ log) = unitsReset log ++ unitsReset calls := by
  rw [unitsReset, List.reverse_append, List.filterMap_append, unitsReset, unitsReset]

/-- An attempt resets its unit once. -/
theorem AttemptCalls.unitsReset_eq {now : Instant} {unit : String} {recovered : Bool}
    {calls : List Call} (h : AttemptCalls now unit recovered calls) :
    unitsReset calls = [unit] := by
  cases h <;> rfl

/-- With units that the engine has not seen, each once, the loop resets those of the fleet,
in order. -/
theorem foldl_recoverUnit_unitsReset (backend : SystemctlBackend) (now : Instant)
    {units : List String} (hnodup : units.Nodup) (acc : List HealthEvent × WatchdogEngine)
    (hnew : ∀ u ∈ units, acc.2.table u = none) :
    unitsReset (units.foldl (recoverUnit backend now) acc).2.log =
      unitsReset acc.2.log ++ units.filter isWintermuteUnit := by
  induction units generalizing acc with
  | nil => simp
  | cons unit units ih =>
      obtain ⟨hunit, hnodup⟩ := List.nodup_cons.mp hnodup
      rw [List.forall_mem_cons] at hnew
      have hentry : acc.2.entry unit = default := by
        rw [WatchdogEngine.entry, hnew.1]
        rfl
      have hother : ∀ u ∈ units, ∀ s, Function.update acc.2.table unit s u = none := by
        intro u hu s
        have hne : u ≠ unit := by
          rintro rfl
          exact hunit hu
        rw [Function.update_of_ne hne, hnew.2 u hu]
      have hiter := recoverUnit_iteration backend now acc unit
      rw [List.foldl_cons]
      generalize recoverUnit backend now acc unit = after at hiter
      cases hiter with
      | foreign hforeign => rw [ih hnodup acc hnew.2, List.filter_cons_of_neg (by simp [hforeign])]
      | waiting _ hmay =>
          rw [hentry] at hmay
          cases hmay
      | attempted recovered calls hown _ hcalls =>
          rw [ih hnodup _ fun u hu => hother u hu _, List.filter_cons_of_pos hown,
            unitsReset_append, hcalls.unitsReset_eq, List.append_assoc, List.singleton_append]

/-- What the dry run announces when the engine recovers a unit. -/
def dryRecovery (unit : String) : List DryLine :=
  [⟨unit, "dry-run: would reset-failed"⟩, ⟨unit, "dry-run: would start"⟩,
    ⟨unit, "dry-run: would check is-failed"⟩]

theorem dryCallLines_append (calls log : List Call) :
    dryCallLines (calls ++ log) = dryCallLines log ++ dryCallLines calls := by
  rw [dryCallLines, List.reverse_append, List.filterMap_append, dryCallLines, dryCallLines]

/-- With the backend of the dry run every attempt succeeds. -/
theorem recoverUnit_dry (now : Instant) (unit : String) {engine : WatchdogEngine}
    (hnew : ∀ u, engine.entry u = default) :
    (recoverUnit dryRunBackend now ([], engine) unit).1 = [] ∧
      (∀ u, (recoverUnit dryRunBackend now ([], engine) unit).2.entry u = default) ∧
      dryCallLines (recoverUnit dryRunBackend now ([], engine) unit).2.log =
        dryCallLines engine.log ++ if isWintermuteUnit unit then dryRecovery unit else [] := by
  have hmay : (default : RecoveryState).mayAttempt now = true := rfl
  have hcall : recoverUnit dryRunBackend now ([], engine) unit =
      if isWintermuteUnit unit then
        ([], { table := Function.update engine.table unit
                 (some (default : RecoveryState).recordSuccess)
               log := [⟨now, .unitIsFailed unit (.ok false)⟩, ⟨now, .startUnit unit (.ok ())⟩,
                 ⟨now, .resetFailed unit (.ok ())⟩] ++ engine.log })
      else ([], engine) := by
    unfold recoverUnit
    split
    · simp [hnew, hmay, attemptRecovery, WatchdogEngine.resetAndStart, WatchdogEngine.resetFailed,
        WatchdogEngine.startUnit, WatchdogEngine.unitIsFailed, dryRunBackend, WatchdogEngine.note,
        WatchdogEngine.setEntry, Except.toOption]
      simp [WatchdogEngine.entry]
    · rfl
  rw [hcall]
  split
  · refine ⟨rfl, fun u => ?_, dryCallLines_append _ engine.log⟩
    by_cases hu : u = unit
    · simp [WatchdogEngine.entry, hu]
      rfl
    · simpa [WatchdogEngine.entry, hu] using hnew u
  · exact ⟨rfl, hnew, (List.append_nil _).symm⟩

/-- The loop of the dry run announces the calls for the units of the fleet, in order, and
gives up on none. -/
theorem foldl_recoverUnit_dry (now : Instant) (units : List String) {engine : WatchdogEngine}
    (hnew : ∀ u, engine.entry u = default) :
    (units.foldl (recoverUnit dryRunBackend now) ([], engine)).1 = [] ∧
      dryCallLines (units.foldl (recoverUnit dryRunBackend now) ([], engine)).2.log =
        dryCallLines engine.log ++ (units.filter isWintermuteUnit).flatMap dryRecovery := by
  induction units generalizing engine with
  | nil => exact ⟨rfl, (List.append_nil _).symm⟩
  | cons unit units ih =>
      obtain ⟨hevents, hentries, hlines⟩ := recoverUnit_dry now unit hnew
      rw [List.foldl_cons]
      generalize recoverUnit dryRunBackend now ([], engine) unit = after
        at hevents hentries hlines
      obtain ⟨events, engine'⟩ := after
      cases hevents
      obtain ⟨hevents', hlines'⟩ := ih hentries
      refine ⟨hevents', ?_⟩
      rw [hlines', hlines, List.append_assoc, List.filter_cons]
      split <;> simp

/-- What a tick of a new engine resets, with any backend. -/
theorem unitsReset_tick (backend : SystemctlBackend) (now : Instant) {units : List String}
    (hnodup : units.Nodup) :
    unitsReset (tick backend now (.ok units) WatchdogEngine.new).2.log =
      units.filter isWintermuteUnit :=
  (foldl_recoverUnit_unitsReset backend now hnodup
    ([], WatchdogEngine.new.note now (.listFailedUnits (.ok units))) fun _ _ => rfl).trans
    (List.nil_append _)

/-- The audio daemon has failed. -/
def failedAudio : UnitStatus where
  name := "wm-audio.service".toList
  load := "loaded".toList
  active := "failed".toList
  sub := "failed".toList
  description := "wintermute \"audio\" daemon".toList
  legal := List.all_eq_true.mp (by decide)
  named := by simp

/-- A host on which nothing changes: the audio daemon is the one failed unit. -/
def audioHost : Host where
  systemctl _ args :=
    match args with
    | [_, _, unit] => .ok {
        code := some 0
        stdout := utf8Bytes ((if unit = "wm-audio.service" then "failed" else "active").toList ++
          ['\n']) }
    | [_, _, _, _] => .ok {
        code := some 0
        stdout := utf8Bytes ([failedAudio.name ++ " loaded failed failed".toList].flatMap
          (· ++ ['\n'])) }
    | _ => .ok {
        code := some 0
        stdout := utf8Bytes (encode Layout.compact [failedAudio.object]) }
  lossy bytes := (fromUtf8 bytes).getD []

theorem audioHost_shows : audioHost.Shows fun _ => [failedAudio] where
  json _ := by
    refine ⟨_, rfl, fun _ => ⟨Layout.compact, ?_⟩⟩
    simp only [audioHost, fromUtf8_utf8Bytes, Option.getD_some, List.map_singleton]
  table _ := by
    refine ⟨_, rfl, rfl, _, ?_, .cons ⟨?_, [], " loaded failed failed".toList, rfl, ?_, ?_⟩ .nil⟩
    · simp only [audioHost, fromUtf8_utf8Bytes, Option.getD_some, List.nil_append]
    · decide
    · simp
    · exact fun c hc => by cases hc; rfl
  state _ unit := by
    have hlegal : ∀ word : Str, word.all legalUnitChar = true →
        ∀ c ∈ word, isWhitespace c = false :=
      fun word hword c hc => legalUnitChar_not_whitespace (List.all_eq_true.mp hword c hc)
    have hfailed : Manager.failedNames (fun _ => [failedAudio]) [] = ["wm-audio.service"] := rfl
    refine ⟨_, (if unit = "wm-audio.service" then "failed" else "active").toList, rfl, ?_, ?_, ?_⟩
    · simp only [audioHost, fromUtf8_utf8Bytes, Option.getD_some]
    · split
      · exact hlegal _ (by decide)
      · exact hlegal _ (by decide)
    · change _ ↔ unit ∈ Manager.failedNames (fun _ => [failedAudio]) []
      rw [hfailed, List.mem_singleton]
      split_ifs with hunit
      · exact iff_of_true rfl hunit
      · exact iff_of_false (by decide) hunit

end Watchdog
end Wintermute
