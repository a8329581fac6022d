import Wintermute.Protocol
import Wintermute.Foundation.JsonRecord
import Wintermute.Foundation.Segments
import Wintermute.Foundation.Utf8

/-!
# The wire format of the control plane

Requests and responses as JSON values, after the attributes of their declarations:
enumerations carry their variant in a tag field, names are in snake case, a missing
{lit}`muted` is false, and {lit}`child_pid` is left out when there is none.  A reader also
takes a record from the sequence of its fields.  A frame is the compact text of such a value
and a line feed; the reader takes a line, trims the line end and decodes the rest.

Main results:

- Theorem {lit}`wireFormat_roundTrip`: every frame is one line, and reading it gives the
  value back; a status frame may lack {lit}`muted` and any {lit}`child_pid`.
-/

namespace Wintermute

open Foundation Foundation.Json

/-! ## Machine integers -/

def asU32 (value : Json) : Option UInt32 :=
  (asNatBelow (2 ^ 32) value).map UInt32.ofNat

def asU64 (value : Json) : Option UInt64 :=
  (asNatBelow (2 ^ 64) value).map UInt64.ofNat

theorem asU32_ofNat (n : UInt32) : asU32 (ofNat n.toNat) = some n := by
  rw [asU32, asNatBelow_ofNat n.toNat_lt, Option.map_some, UInt32.ofNat_toNat]

theorem asU64_ofNat (n : UInt64) : asU64 (ofNat n.toNat) = some n := by
  rw [asU64, asNatBelow_ofNat n.toNat_lt, Option.map_some, UInt64.ofNat_toNat]

/-! ## Children and the view -/

/-- The name of a lifecycle phase. -/
def ChildStatus.wireName : ChildStatus → List Char
  | .pending => "pending".toList
  | .starting => "starting".toList
  | .running => "running".toList
  | .exited => "exited".toList
  | .backoff => "backoff".toList
  | .halted => "halted".toList

def ChildStatus.toJson (status : ChildStatus) : Json :=
  .str status.wireName

/-- The lifecycle phase with a name. -/
def ChildStatus.ofName (name : List Char) : Option ChildStatus :=
  [ChildStatus.pending, .starting, .running, .exited, .backoff, .halted].find?
    (·.wireName == name)

def ChildStatus.ofJson : Json → Option ChildStatus
  | .str name => ChildStatus.ofName name
  -- a variant without content is also read from an object with one field
  | .obj [(name, .null)] => ChildStatus.ofName name
  | .obj [(name, .obj [])] => ChildStatus.ofName name
  | _ => none

/-- A child; {lit}`child_pid` is left out when there is none. -/
def ChildState.toJson (child : ChildState) : Json :=
  .obj ([("name".toList, ofString child.name),
    ("status".toList, child.status.toJson),
    ("uptime_secs".toList, ofNat child.uptimeSecs.toNat),
    ("restart_count".toList, ofNat child.restartCount.toNat),
    ("last_event".toList, ofOption ofString child.lastEvent)] ++
    match child.childPid with
    | none => []
    | some pid => [("child_pid".toList, ofNat pid.toNat)])

def ChildState.ofJson : Json → Option ChildState
  | .obj fields => do
      let name ← required asString "name".toList fields
      let status ← required ChildStatus.ofJson "status".toList fields
      let uptimeSecs ← required asU64 "uptime_secs".toList fields
      let restartCount ← required asU32 "restart_count".toList fields
      let lastEvent ← orDefault (asOption asString) none "last_event".toList fields
      let childPid ← orDefault (asOption asU32) none "child_pid".toList fields
      some { name, status, uptimeSecs, restartCount, lastEvent, childPid }
  -- a record is also read from the sequence of its fields; defaults may be left out at its end
  | .arr (name :: status :: uptimeSecs :: restartCount :: lastEvent :: rest) => do
      let name ← asString name
      let status ← ChildStatus.ofJson status
      let uptimeSecs ← asU64 uptimeSecs
      let restartCount ← asU32 restartCount
      let lastEvent ← asOption asString lastEvent
      let childPid ← lastOrDefault (asOption asU32) none rest
      some { name, status, uptimeSecs, restartCount, lastEvent, childPid }
  | _ => none

/-- A lifecycle phase is read back from its name. -/
theorem ChildStatus.ofJson_toJson (status : ChildStatus) :
    ChildStatus.ofJson status.toJson = some status := by
  cases status <;> rfl

/-- A child is read back. -/
theorem ChildState.ofJson_toJson (child : ChildState) :
    ChildState.ofJson child.toJson = some child := by
  obtain ⟨name, status, uptimeSecs, restartCount, lastEvent, childPid⟩ := child
  cases childPid with
  | none =>
      rw [ChildState.toJson, ChildState.ofJson, required_eq rfl, required_eq rfl, required_eq rfl,
        required_eq rfl, orDefault_some rfl, orDefault_none rfl, asString_ofString,
        ChildStatus.ofJson_toJson, asU64_ofNat, asU32_ofNat, asOption_ofString]
      rfl
  | some pid =>
      rw [ChildState.toJson, ChildState.ofJson, required_eq rfl, required_eq rfl, required_eq rfl,
        required_eq rfl, orDefault_some rfl, orDefault_some rfl, asString_ofString,
        ChildStatus.ofJson_toJson, asU64_ofNat, asU32_ofNat, asOption_ofString,
        asOption_ofNat asU32_ofNat]
      rfl

/-- A child whose PID is forgotten, or not. -/
def ChildState.forgetPid (child : ChildState) (drop : Bool) : ChildState :=
  if drop then { child with childPid := none } else child

/-- Without its {lit}`child_pid` field a child is read as the same child without a PID. -/
theorem ChildState.ofJson_without (child : ChildState) (drop : Bool) :
    ChildState.ofJson (if drop then without "child_pid".toList child.toJson else child.toJson) =
      some (child.forgetPid drop) := by
  have hwithout : without "child_pid".toList child.toJson =
      { child with childPid := none }.toJson := by
    obtain ⟨name, status, uptimeSecs, restartCount, lastEvent, childPid⟩ := child
    cases childPid with
    | none => rfl
    | some pid => rfl
  cases drop with
  | false => exact ChildState.ofJson_toJson child
  | true =>
      rw [if_pos rfl, hwithout]
      exact ChildState.ofJson_toJson _

/-- The supervisor view. -/
def SupervisorView.toJson (view : SupervisorView) : Json :=
  .obj [("protocol_version".toList, ofNat view.protocolVersion.toNat),
    ("children".toList, .arr (view.children.map ChildState.toJson)),
    ("muted".toList, .bool view.muted)]

def SupervisorView.ofJson : Json → Option SupervisorView
  | .obj fields => do
      let protocolVersion ← required asU32 "protocol_version".toList fields
      let children ← required (asList ChildState.ofJson) "children".toList fields
      let muted ← orDefault asBool false "muted".toList fields
      some { protocolVersion, children, muted }
  | .arr (protocolVersion :: children :: rest) => do
      let protocolVersion ← asU32 protocolVersion
      let children ← asList ChildState.ofJson children
      let muted ← lastOrDefault asBool false rest
      some { protocolVersion, children, muted }
  | _ => none

section View

variable {children : Json} {l : List ChildState}
  (hchildren : asList ChildState.ofJson children = some l)

include hchildren

/-- A view is read from its three fields. -/
theorem SupervisorView.ofJson_fields (version : UInt32) (muted : Bool) :
    SupervisorView.ofJson (.obj [("protocol_version".toList, ofNat version.toNat),
      ("children".toList, children), ("muted".toList, .bool muted)]) =
    some { protocolVersion := version, children := l, muted := muted } := by
  rw [SupervisorView.ofJson, required_eq rfl, required_eq rfl, orDefault_some rfl, asU32_ofNat,
    hchildren]
  rfl

/-- A view without the flag is not muted. -/
theorem SupervisorView.ofJson_unmuted (version : UInt32) :
    SupervisorView.ofJson (.obj [("protocol_version".toList, ofNat version.toNat),
      ("children".toList, children)]) =
    some { protocolVersion := version, children := l, muted := false } := by
  rw [SupervisorView.ofJson, required_eq rfl, required_eq rfl, orDefault_none rfl, asU32_ofNat,
    hchildren]
  rfl

end View

/-! ## Requests and responses -/

def Request.toJson : Request → Json
  | .status => .obj [("op".toList, .str "status".toList)]
  | .mute => .obj [("op".toList, .str "mute".toList)]
  | .unmute => .obj [("op".toList, .str "unmute".toList)]
  | .restart child =>
      .obj [("op".toList, .str "restart".toList), ("child".toList, ofOption ofString child)]
  | .logs child tail =>
      .obj [("op".toList, .str "logs".toList), ("child".toList, ofString child),
        ("tail".toList, ofNat tail.toNat)]
  | .say text => .obj [("op".toList, .str "say".toList), ("text".toList, ofString text)]

/-- The variant is in the tag field; fields of other variants are ignored. -/
def Request.ofJson : Json → Option Request
  | .obj fields => do
      let op ← required asString "op".toList fields
      match op with
      | "status" => some .status
      | "mute" => some .mute
      | "unmute" => some .unmute
      | "restart" =>
          let child ← orDefault (asOption asString) none "child".toList fields
          some (.restart child)
      | "logs" =>
          let child ← required asString "child".toList fields
          let tail ← required asU64 "tail".toList fields
          some (.logs child tail)
      | "say" =>
          let text ← required asString "text".toList fields
          some (.say text)
      | _ => none
  -- in a sequence the tag comes first
  | .arr (op :: items) => do
      let op ← asString op
      match op, items with
      | "status", [] => some .status
      | "mute", [] => some .mute
      | "unmute", [] => some .unmute
      | "restart", [child] => (asOption asString child).map .restart
      | "logs", [child, tail] => do
          let child ← asString child
          let tail ← asU64 tail
          some (.logs child tail)
      | "say", [text] => (asString text).map .say
      | _, _ => none
  | _ => none

def Response.toJson : Response → Json
  | .status view => .obj [("kind".toList, .str "status".toList), ("view".toList, view.toJson)]
  | .ack => .obj [("kind".toList, .str "ack".toList)]
  | .logs child lines =>
      .obj [("kind".toList, .str "logs".toList), ("child".toList, ofString child),
        ("lines".toList, .arr (lines.map ofString))]
  | .notImplemented op =>
      .obj [("kind".toList, .str "not_implemented".toList), ("op".toList, ofString op)]
  | .error message =>
      .obj [("kind".toList, .str "error".toList), ("message".toList, ofString message)]

def Response.ofJson : Json → Option Response
  | .obj fields => do
      let kind ← required asString "kind".toList fields
      match kind with
      | "status" =>
          let view ← required SupervisorView.ofJson "view".toList fields
          some (.status view)
      | "ack" => some .ack
      | "logs" =>
          let child ← required asString "child".toList fields
          let lines ← required (asList asString) "lines".toList fields
          some (.logs child lines)
      | "not_implemented" =>
          let op ← required asString "op".toList fields
          some (.notImplemented op)
      | "error" =>
          let message ← required asString "message".toList fields
          some (.error message)
      | _ => none
  | .arr (kind :: items) => do
      let kind ← asString kind
      match kind, items with
      | "status", [view] => (SupervisorView.ofJson view).map .status
      | "ack", [] => some .ack
      | "logs", [child, lines] => do
          let child ← asString child
          let lines ← asList asString lines
          some (.logs child lines)
      | "not_implemented", [op] => (asString op).map .notImplemented
      | "error", [message] => (asString message).map .error
      | _, _ => none
  | _ => none

/-- A tag, or another string field, is read back. -/
theorem required_string {key : List Char} {fields : List (List Char × Json)} {text : String}
    (hfield : field key fields = some (some (ofString text))) :
    required asString key fields = some text := by
  rw [required_eq hfield, asString_ofString]

/-- A request is read back. -/
theorem Request.ofJson_toJson (req : Request) : Request.ofJson req.toJson = some req := by
  cases req with
  | status =>
      rw [Request.toJson, Request.ofJson, required_string rfl]
      rfl
  | mute =>
      rw [Request.toJson, Request.ofJson, required_string rfl]
      rfl
  | unmute =>
      rw [Request.toJson, Request.ofJson, required_string rfl]
      rfl
  | restart child =>
      rw [Request.toJson, Request.ofJson, required_string rfl]
      simp only [Option.bind_eq_bind, Option.bind_some]
      rw [orDefault_some rfl, asOption_ofString]
      rfl
  | logs child tail =>
      rw [Request.toJson, Request.ofJson, required_string rfl]
      simp only [Option.bind_eq_bind, Option.bind_some]
      rw [required_string rfl, required_eq rfl, asU64_ofNat]
      rfl
  | say text =>
      rw [Request.toJson, Request.ofJson, required_string rfl]
      simp only [Option.bind_eq_bind, Option.bind_some]
      rw [required_string rfl]
      rfl

/-! ## Frames with fields removed -/

/-- A status response without the {lit}`muted` field and without the {lit}`child_pid`
fields of the selected children. -/
def statusWithout (dropMuted : Bool) (dropPid : ℕ → Bool) (view : SupervisorView) : Json :=
  atField "view".toList
    (fun view =>
      let view := atField "children".toList
        (atItems fun i child => if dropPid i then without "child_pid".toList child else child) view
      if dropMuted then without "muted".toList view else view)
    (Response.status view).toJson

/-- The view that is left: not muted, and no PID for the selected children. -/
def SupervisorView.forget (dropMuted : Bool) (dropPid : ℕ → Bool) (view : SupervisorView) :
    SupervisorView where
  protocolVersion := view.protocolVersion
  children := view.children.mapIdx fun i child => child.forgetPid (dropPid i)
  muted := if dropMuted then false else view.muted

/-- A status response is read from its view. -/
theorem Response.ofJson_status {value : Json} {view : SupervisorView}
    (hview : SupervisorView.ofJson value = some view) :
    Response.ofJson (.obj [("kind".toList, .str "status".toList), ("view".toList, value)]) =
      some (.status view) := by
  rw [Response.ofJson, required_string rfl]
  simp only [Option.bind_eq_bind, Option.bind_some]
  rw [required_eq rfl, hview]
  rfl

/-- A status response is read back without the fields that were removed. -/
theorem Response.ofJson_statusWithout (dropMuted : Bool) (dropPid : ℕ → Bool)
    (view : SupervisorView) :
    Response.ofJson (statusWithout dropMuted dropPid view) =
      some (.status (view.forget dropMuted dropPid)) := by
  have hchildren := asList_mapIdx
    (g := fun i child => if dropPid i then without "child_pid".toList child else child)
    (fun i child => ChildState.ofJson_without child (dropPid i)) view.children
  cases dropMuted with
  | false => exact Response.ofJson_status (SupervisorView.ofJson_fields hchildren _ _)
  | true => exact Response.ofJson_status (SupervisorView.ofJson_unmuted hchildren _)

/-- A response is read back. -/
theorem Response.ofJson_toJson (resp : Response) : Response.ofJson resp.toJson = some resp := by
  cases resp with
  | status view =>
      exact Response.ofJson_status
        (SupervisorView.ofJson_fields (asList_map ChildState.ofJson_toJson view.children) _ _)
  | ack =>
      rw [Response.toJson, Response.ofJson, required_string rfl]
      rfl
  | logs child lines =>
      rw [Response.toJson, Response.ofJson, required_string rfl]
      simp only [Option.bind_eq_bind, Option.bind_some]
      rw [required_string rfl, required_eq rfl, asList_map asString_ofString]
      rfl
  | notImplemented op =>
      rw [Response.toJson, Response.ofJson, required_string rfl]
      simp only [Option.bind_eq_bind, Option.bind_some]
      rw [required_string rfl]
      rfl
  | error message =>
      rw [Response.toJson, Response.ofJson, required_string rfl]
      simp only [Option.bind_eq_bind, Option.bind_some]
      rw [required_string rfl]
      rfl

/-! ## Frames -/

/-- What is sent for a value: its text and a line feed. -/
def frame (value : Json) : List UInt8 :=
  utf8Bytes value.print ++ [10]

/-- A line without the line feeds and carriage returns at its end. -/
def trimLineEnd (line : List Char) : List Char :=
  trimEndMatches ['\n', '\r'].contains line

/-- Decode one line of text. -/
def fromStr {α : Type} (ofJson : Json → Option α) (s : List Char) : Option α :=
  (Json.parse s).bind ofJson

/-- Read the first line of a stream and decode it. -/
def readFrame {α : Type} (ofJson : Json → Option α) (stream : List UInt8) : Option α := do
  let raw ← (splitInclusive 10 stream).head?
  let line ← fromUtf8 raw
  fromStr ofJson (trimLineEnd line)

/-- The text of a value has no line end. -/
theorem lineEnd_notMem_print (value : Json) :
    ∀ c ∈ value.print, ['\n', '\r'].contains c = false := by
  intro c hc
  have hvisible := print_noControl value c hc
  by_contra hend
  rw [Bool.not_eq_false, List.contains_iff_mem, List.mem_cons, List.mem_singleton] at hend
  rcases hend with rfl | rfl
  · exact absurd hvisible (by decide)
  · exact absurd hvisible (by decide)

/-- The bytes of a frame in front of its line feed have none. -/
theorem newline_notMem_frame (value : Json) : (10 : UInt8) ∉ utf8Bytes value.print := by
  intro hbyte
  have hend := lineEnd_notMem_print value '\n' (newline_mem_utf8Bytes hbyte)
  cases hend

/-- Trimming the line of a frame leaves the text of the value. -/
theorem trimLineEnd_print (value : Json) : trimLineEnd (value.print ++ ['\n']) = value.print := by
  rw [trimLineEnd, trimEndMatches_append (List.forall_mem_singleton.mpr rfl), trimEndMatches,
    List.rdropWhile_eq_self_iff]
  intro hne
  rw [lineEnd_notMem_print value _ (List.getLast_mem hne)]
  exact Bool.false_ne_true

/-- A frame is one line, the text of its value and a line feed. -/
theorem splitInclusive_frame (value : Json) (rest : List UInt8) :
    splitInclusive 10 (frame value ++ rest) = frame value :: splitInclusive 10 rest := by
  rw [frame, List.append_assoc, List.singleton_append,
    splitInclusive_cons (newline_notMem_frame value)]

theorem fromUtf8_frame (value : Json) : fromUtf8 (frame value) = some (value.print ++ ['\n']) := by
  rw [← fromUtf8_utf8Bytes (value.print ++ ['\n']), utf8Bytes_append]
  rfl

/-- Reading a frame at the head of a stream decodes its value. -/
theorem readFrame_frame {α : Type} (ofJson : Json → Option α) (value : Json)
    (rest : List UInt8) : readFrame ofJson (frame value ++ rest) = ofJson value := by
  rw [readFrame, splitInclusive_frame, List.head?_cons]
  simp only [Option.bind_eq_bind, Option.bind_some, fromUtf8_frame, trimLineEnd_print, fromStr,
    parse_print]

/-- The wire format round trip.  A frame has no line feed but its last byte, and reading
it gives back the request or the response, also when other frames follow; a status frame
from which {lit}`muted` and any of the {lit}`child_pid` fields are removed decodes to the
view with false and none there. -/
theorem wireFormat_roundTrip :
    (∀ (req : Request) (rest : List UInt8), (10 : UInt8) ∉ utf8Bytes req.toJson.print ∧
      readFrame Request.ofJson (frame req.toJson ++ rest) = some req) ∧
    (∀ (resp : Response) (rest : List UInt8), (10 : UInt8) ∉ utf8Bytes resp.toJson.print ∧
      readFrame Response.ofJson (frame resp.toJson ++ rest) = some resp) ∧
    ∀ (view : SupervisorView) (dropMuted : Bool) (dropPid : ℕ → Bool) (rest : List UInt8),
      readFrame Response.ofJson (frame (statusWithout dropMuted dropPid view) ++ rest) =
        some (.status (view.forget dropMuted dropPid)) := by
  refine ⟨fun req rest => ?_, fun resp rest => ?_, fun view dropMuted dropPid rest => ?_⟩
  · rw [readFrame_frame, Request.ofJson_toJson]
    exact ⟨newline_notMem_frame req.toJson, rfl⟩
  · rw [readFrame_frame, Response.ofJson_toJson]
    exact ⟨newline_notMem_frame resp.toJson, rfl⟩
  · rw [readFrame_frame, Response.ofJson_statusWithout]

/-- The text of a request with a quote and a line feed in it. -/
example : (Request.say "a\"b\nc").toJson.print =
    "\x7b\"op\":\"say\",\"text\":\"a\\\"b\\nc\"\x7d".toList := by
  decide +kernel

end Wintermute
