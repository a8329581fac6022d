import Wintermute.Foundation.JsonLayout
import Wintermute.Foundation.JsonRecord
import Wintermute.Foundation.Utf8
import Wintermute.Control.Wire
import Wintermute.Supervisor.World
import Wintermute.Text

/-!
# The launcher

The real launcher runs {lit}`pevent`, reads the reply it prints, and looks a process up in
{lit}`/proc`.

Main results:

- Theorem {lit}`PeventRunReply.ofJson_toJson`: a reply is read back from its JSON value.
- Theorem {lit}`peventStart_reply`: a reply that names the child, in any layout, is the
  answer of the launch.
-/

namespace Wintermute

open Foundation Foundation.Json

/-! ## The launcher -/

/-- What a finished command leaves; {lit}`status` is its exit status as it is shown. -/
structure CommandOutput where
  success : Bool
  status : String
  stdout : List UInt8
  stderr : List UInt8

/-- The reply of {lit}`pevent run`. -/
structure PeventRunReply where
  id : String
  childPid : UInt32
  supervisorPid : UInt32
deriving DecidableEq, Repr

def PeventRunReply.toJson (reply : PeventRunReply) : Json :=
  .obj [("id".toList, ofString reply.id), ("child_pid".toList, ofNat reply.childPid.toNat),
    ("supervisor_pid".toList, ofNat reply.supervisorPid.toNat)]

def PeventRunReply.ofJson : Json → Option PeventRunReply
  | .obj fields => do
      let id ← required asString "id".toList fields
      let childPid ← required asU32 "child_pid".toList fields
      let supervisorPid ← required asU32 "supervisor_pid".toList fields
      some { id, childPid, supervisorPid }
  -- a record is also read from the sequence of its fields
  | .arr [id, childPid, supervisorPid] => do
      let id ← asString id
      let childPid ← asU32 childPid
      let supervisorPid ← asU32 supervisorPid
      some { id, childPid, supervisorPid }
  | _ => none

theorem PeventRunReply.ofJson_toJson (reply : PeventRunReply) :
    PeventRunReply.ofJson reply.toJson = some reply := by
  obtain ⟨id, childPid, supervisorPid⟩ := reply
  rw [PeventRunReply.toJson, PeventRunReply.ofJson, required_eq rfl, required_eq rfl,
    required_eq rfl, asString_ofString, asU32_ofNat, asU32_ofNat]
  rfl

namespace Supervisor

/-- The launcher's settings and the texts of the standard library it uses: a text decoded
with replacements, the message for bytes that are no text, a string shown in quotes, and the
message of a JSON error. -/
structure PeventSpawner where
  binary : Option String
  lossy : List UInt8 → String
  utf8Error : List UInt8 → String
  debug : String → String
  jsonError : String → String

/-- The binary that is run. -/
def PeventSpawner.bin (p : PeventSpawner) : String :=
  p.binary.getD "pevent"

/-- The arguments of a launch. -/
def peventArgs (spec : ChildSpec) : List String :=
  ["run", "--id", spec.name, "--", spec.exec] ++ spec.args

/-- An error that has no cause below it. -/
def Error.msg (message : String) : Error where
  chain := [message]

/-- The reply in the output of a launch. -/
def parseReply (stdout : Str) : Option PeventRunReply :=
  (parse stdout).bind PeventRunReply.ofJson

/-- {lit}`start`: what the launcher makes of the finished command, or of the I/O error that
kept it from running. -/
def PeventSpawner.start (p : PeventSpawner) (spec : ChildSpec)
    (finished : Except String CommandOutput) : Result StartedChild :=
  match finished with
  | .error e => .error ((Error.msg e).withContext s!"invoke `{p.bin} run --id {spec.name}`")
  | .ok output =>
      if !output.success then
        let stderr := String.ofList (trim (p.lossy output.stderr).toList)
        .error (Error.msg s!"pevent run failed (status {output.status}): {stderr}")
      else
        match fromUtf8 output.stdout with
        | none =>
            .error ((Error.msg (p.utf8Error output.stdout)).withContext
              "pevent stdout was not utf-8")
        | some text =>
            let stdout := trim text
            match parseReply stdout with
            | none =>
                .error ((Error.msg (p.jsonError (String.ofList stdout))).withContext
                  s!"parse pevent reply: {p.debug (String.ofList stdout)}")
            | some reply =>
                if reply.id ≠ spec.name then
                  .error (Error.msg
                    s!"pevent echoed id {p.debug reply.id}, expected {p.debug spec.name}")
                else
                  .ok { id := reply.id
                        childPid := reply.childPid
                        supervisorPid := reply.supervisorPid }

/-- {lit}`still_running`, from the metadata of the directory of a process. -/
def peventStillRunning (pid : UInt32) : Except ReadError Unit → Result Bool
  | .ok () => .ok true
  | .error .notFound => .ok false
  | .error (.other e) => .error ((Error.msg e).withContext s!"stat /proc/{pid}")

/-! ## The reply of a launch -/

/-- The command succeeded and printed the reply, in any layout. -/
def Replies (output : CommandOutput) (reply : PeventRunReply) : Prop :=
  output.success = true ∧ ∃ before text after, Blank before ∧ Spells reply.toJson text ∧
    Blank after ∧ output.stdout = utf8Bytes (before ++ (text ++ after))

/-- JSON white space is white space. -/
theorem isWhitespace_of_blank {s : Str} (hs : Blank s) : ∀ c ∈ s, isWhitespace c = true := by
  intro c hc
  have hblank := hs c hc
  simp only [isBlank, Bool.or_eq_true, beq_iff_eq] at hblank
  rcases hblank with ((rfl | rfl) | rfl) | rfl <;> rfl

/-- The text of an object is what trimming leaves of it. -/
theorem trim_spelled {fields : List (Str × Json)} {before text after : Str}
    (hbefore : Blank before) (htext : Spells (.obj fields) text) (hafter : Blank after) :
    trim (before ++ (text ++ after)) = text := by
  obtain ⟨inner, rfl⟩ := htext.exists_braces
  have hstart : trimStartMatches isWhitespace (before ++ ('{' :: (inner ++ ['}']) ++ after)) =
      ('{' :: inner) ++ ['}'] ++ after := by
    rw [trimStartMatches, List.dropWhile_append_of_pos (isWhitespace_of_blank hbefore)]
    rfl
  rw [trim, hstart, trimEndMatches_append (isWhitespace_of_blank hafter),
    ← List.append_nil ('{' :: inner ++ ['}']), trimEndMatches_front (by decide)]
  simp [trimEndMatches]

/-- A reply that names the child is the answer of the launch. -/
theorem peventStart_reply (p : PeventSpawner) {spec : ChildSpec} {output : CommandOutput}
    {reply : PeventRunReply} (hreply : Replies output reply) (hid : reply.id = spec.name) :
    p.start spec (.ok output) = .ok {
      id := reply.id
      childPid := reply.childPid
      supervisorPid := reply.supervisorPid } := by
  obtain ⟨hsuccess, before, text, after, hbefore, htext, hafter, hstdout⟩ := hreply
  have hparse : parseReply text = some reply := by
    have hread := parse_of_spells blank_nil htext blank_nil
    rw [List.nil_append, List.append_nil] at hread
    rw [parseReply, hread, Option.bind_some, PeventRunReply.ofJson_toJson]
  have htrim : trim (before ++ (text ++ after)) = text := trim_spelled hbefore htext hafter
  unfold PeventSpawner.start
  simp only [hsuccess, Bool.not_true, hstdout, fromUtf8_utf8Bytes, htrim, hparse, hid]
  simp

end Supervisor

end Wintermute
