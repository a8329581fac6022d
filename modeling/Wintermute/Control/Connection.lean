import Wintermute.Control.Wire

/-!
# Serving one connection

The supervisor reads a client's bytes line by line, answers each line with one frame,
and stops at the end of the stream.  A line that is not valid UTF-8 makes the read
fail instead, and the connection ends there without an answer.  The JSON library is a
parameter: any parser, with its error texts, and any serializer.

Main results:

- Theorem {lit}`serveLines_of_decodes`: over lines that decode, every line is answered and
  the state is the fold of the valid requests.
- Theorem {lit}`handleConn_iff`: every line of a stream gets its answer exactly when every
  line is valid UTF-8.
- Theorem {lit}`clientRoundtrip_eq`: a client that sends one request reads the result of its
  dispatch.
-/

namespace Wintermute

open Foundation

/-! ## The connection loop -/

/-- What a connection uses besides the shared state: the JSON library and the log
files of the children. -/
structure Endpoint where
  fromStr : List Char → Except String Request
  toVec : Response → List UInt8
  tailChildLog : String → UInt64 → Except String (List String)

/-- How a connection ends: the client closed it, or reading a line failed. -/
inductive ConnEnd where
  | closed
  | readLineFailed
deriving DecidableEq, Repr

/-- The buffers written to the client, the shared state afterwards, and the end. -/
structure Served where
  written : List (List UInt8)
  view : SupervisorView
  ended : ConnEnd

/-- Answer one line of text. -/
def respond (ep : Endpoint) (trimmed : List Char) (view : SupervisorView) :
    Response × SupervisorView :=
  match ep.fromStr trimmed with
  | .ok req => dispatch ep.tailChildLog req view
  | .error e => (.error s!"bad request: {e}", view)

/-- Serve the lines that the reader returns one after the other. -/
def serveLines (ep : Endpoint) : List (List UInt8) → SupervisorView → Served
  | [], view => { written := [], view := view, ended := .closed }
  | raw :: raws, view =>
      match fromUtf8 raw with
      | none => { written := [], view := view, ended := .readLineFailed }
      | some line =>
          let resp := respond ep (trimLineEnd line) view
          let rest := serveLines ep raws resp.2
          { rest with written := (ep.toVec resp.1 ++ [10]) :: rest.written }

/-- Serve a client that sends these bytes and closes its end. -/
def handleConn (ep : Endpoint) (stream : List UInt8) (view : SupervisorView) : Served :=
  serveLines ep (splitInclusive 10 stream) view

/-! ## One response per line -/

/-- The request in a line, if it is one. -/
def lineRequest (ep : Endpoint) (raw : List UInt8) : Option Request := do
  let line ← fromUtf8 raw
  (ep.fromStr (trimLineEnd line)).toOption

/-- The lines are answered in order: a request by its dispatch, every other line by an
error that leaves the state alone. -/
inductive Answered (ep : Endpoint) :
    List (List UInt8) → SupervisorView → List Response → SupervisorView → Prop
  | done (view : SupervisorView) : Answered ep [] view [] view
  | request {raw raws view req resps final} (hraw : lineRequest ep raw = some req)
      (hrest : Answered ep raws (dispatch ep.tailChildLog req view).2 resps final) :
      Answered ep (raw :: raws) view ((dispatch ep.tailChildLog req view).1 :: resps) final
  | malformed {raw raws view message resps final} (hraw : lineRequest ep raw = none)
      (hrest : Answered ep raws view resps final) :
      Answered ep (raw :: raws) view (.error message :: resps) final

/-- The state after the valid requests among the lines. -/
def foldRequests (ep : Endpoint) (raws : List (List UInt8)) (view : SupervisorView) :
    SupervisorView :=
  (raws.filterMap (lineRequest ep)).foldl
    (fun view req => (dispatch ep.tailChildLog req view).2) view

/-- Every line got one newline-terminated response, and the state is the fold of the
valid requests. -/
def OneResponsePerLine (ep : Endpoint) (stream : List UInt8) (view : SupervisorView)
    (served : Served) : Prop :=
  (∃ resps, Answered ep (splitInclusive 10 stream) view resps served.view ∧
    served.written = resps.map fun resp => ep.toVec resp ++ [10]) ∧
  served.view = foldRequests ep (splitInclusive 10 stream) view

section Lines

variable {ep : Endpoint}

theorem Answered.length_eq {raws : List (List UInt8)} {view final : SupervisorView}
    {resps : List Response} (hanswered : Answered ep raws view resps final) :
    resps.length = raws.length := by
  induction hanswered with
  | done => rfl
  | request _ _ ih => rw [List.length_cons, List.length_cons, ih]
  | malformed _ _ ih => rw [List.length_cons, List.length_cons, ih]

/-- A line that decodes is answered. -/
theorem serveLines_cons {raw : List UInt8} {line : List Char} (hline : fromUtf8 raw = some line)
    (raws : List (List UInt8)) (view : SupervisorView) :
    serveLines ep (raw :: raws) view =
      { serveLines ep raws (respond ep (trimLineEnd line) view).2 with
        written := (ep.toVec (respond ep (trimLineEnd line) view).1 ++ [10]) ::
          (serveLines ep raws (respond ep (trimLineEnd line) view).2).written } := by
  rw [serveLines, hline]

/-- A line of text is answered by the dispatch of its request, or by an error that leaves
the state alone. -/
theorem respond_cases {raw : List UInt8} {line : List Char} (hline : fromUtf8 raw = some line)
    (view : SupervisorView) :
    (∃ req, lineRequest ep raw = some req ∧
      respond ep (trimLineEnd line) view = dispatch ep.tailChildLog req view) ∨
    (lineRequest ep raw = none ∧
      ∃ message, respond ep (trimLineEnd line) view = (.error message, view)) := by
  cases hparse : ep.fromStr (trimLineEnd line) with
  | ok req =>
      refine Or.inl ⟨req, ?_, ?_⟩
      · simp [lineRequest, hline, hparse, Except.toOption]
      · rw [respond, hparse]
  | error e =>
      refine Or.inr ⟨?_, s!"bad request: {e}", ?_⟩
      · simp [lineRequest, hline, hparse, Except.toOption]
      · rw [respond, hparse]

/-- Over lines that decode, every line is answered and the state is the fold of the
valid requests. -/
theorem serveLines_of_decodes {raws : List (List UInt8)}
    (hraws : ∀ raw ∈ raws, (fromUtf8 raw).isSome = true) (view : SupervisorView) :
    (∃ resps, Answered ep raws view resps (serveLines ep raws view).view ∧
      (serveLines ep raws view).written = resps.map fun resp => ep.toVec resp ++ [10]) ∧
    (serveLines ep raws view).view = foldRequests ep raws view := by
  induction raws generalizing view with
  | nil => exact ⟨⟨[], Answered.done view, rfl⟩, rfl⟩
  | cons raw raws ih =>
      rw [List.forall_mem_cons, Option.isSome_iff_exists] at hraws
      obtain ⟨⟨line, hline⟩, hrest⟩ := hraws
      obtain ⟨⟨resps, hanswered, hwritten⟩, hview⟩ :=
        ih hrest (respond ep (trimLineEnd line) view).2
      rw [serveLines_cons hline]
      rcases respond_cases hline view with ⟨req, hrequest, hrespond⟩ | ⟨hrequest, message, hrespond⟩
      · rw [hrespond] at hanswered hwritten hview ⊢
        refine ⟨⟨_ :: resps, Answered.request hrequest hanswered, ?_⟩, ?_⟩
        · rw [hwritten, List.map_cons]
        · rw [hview, foldRequests, foldRequests, List.filterMap_cons_some hrequest,
            List.foldl_cons]
      · rw [hrespond] at hanswered hwritten hview ⊢
        refine ⟨⟨.error message :: resps, Answered.malformed hrequest hanswered, ?_⟩, ?_⟩
        · rw [hwritten, List.map_cons]
        · rw [hview, foldRequests, foldRequests, List.filterMap_cons_none hrequest]

/-- As many buffers are written as there are lines in front of the first one that does
not decode. -/
theorem length_written (raws : List (List UInt8)) (view : SupervisorView) :
    (serveLines ep raws view).written.length =
      (raws.takeWhile fun raw => (fromUtf8 raw).isSome).length := by
  induction raws generalizing view with
  | nil => rfl
  | cons raw raws ih =>
      cases hline : fromUtf8 raw with
      | none => simp [serveLines, hline]
      | some line => rw [serveLines_cons hline, List.length_cons, ih,
          List.takeWhile_cons_of_pos (by rw [hline]; rfl), List.length_cons]

end Lines

/-- Every line of a stream gets its response, and the state is the fold of the valid
requests, exactly when every line is valid UTF-8. -/
theorem handleConn_iff (ep : Endpoint) (stream : List UInt8) (view : SupervisorView) :
    OneResponsePerLine ep stream view (handleConn ep stream view) ↔
      ∀ raw ∈ splitInclusive 10 stream, (fromUtf8 raw).isSome = true := by
  constructor
  · rintro ⟨⟨resps, hanswered, hwritten⟩, -⟩
    have hlength := congrArg List.length hwritten
    rw [handleConn, length_written, List.length_map, hanswered.length_eq] at hlength
    rw [← List.takeWhile_eq_self_iff]
    exact (List.takeWhile_prefix _).eq_of_length hlength
  · intro hraws
    exact serveLines_of_decodes hraws view

/-! ## A client on the wire -/

/-- The endpoint that speaks the wire format. -/
def wireEndpoint (tailChildLog : String → UInt64 → Except String (List String)) : Endpoint where
  fromStr s :=
    match Wintermute.fromStr Request.ofJson s with
    | some req => .ok req
    | none => .error "invalid request"
  toVec resp := utf8Bytes resp.toJson.print
  tailChildLog := tailChildLog

/-- What a client reads back after it sent one request and closed its end. -/
def clientRoundtrip (tailChildLog : String → UInt64 → Except String (List String))
    (req : Request) (view : SupervisorView) : Option Response :=
  readFrame Response.ofJson
    (handleConn (wireEndpoint tailChildLog) (frame req.toJson) view).written.flatten

/-- A client that sends one request reads the result of its dispatch. -/
theorem clientRoundtrip_eq (tailChildLog : String → UInt64 → Except String (List String))
    (req : Request) (view : SupervisorView) :
    clientRoundtrip tailChildLog req view = some (dispatch tailChildLog req view).1 := by
  have hlines : splitInclusive 10 (frame req.toJson) = [frame req.toJson] := by
    rw [← List.append_nil (frame req.toJson), splitInclusive_frame, List.append_nil,
      splitInclusive_nil]
  have hparse : (wireEndpoint tailChildLog).fromStr req.toJson.print = .ok req := by
    simp only [wireEndpoint, Wintermute.fromStr, Json.parse_print, Option.bind_some,
      Request.ofJson_toJson]
  have hrespond : respond (wireEndpoint tailChildLog) req.toJson.print view =
      dispatch tailChildLog req view := by
    rw [respond, hparse]
    rfl
  rw [clientRoundtrip, handleConn, hlines, serveLines_cons (fromUtf8_frame req.toJson),
    trimLineEnd_print, hrespond]
  exact (readFrame_frame _ _ []).trans (Response.ofJson_toJson _)

/-! ## Lines that are not UTF-8 -/

/-- A stray byte on a line of its own, and a request behind it. -/
def strayByteStream : List UInt8 :=
  [0xFF, 10] ++ frame Request.mute.toJson

/-- A view of no children. -/
def idleView : SupervisorView :=
  SupervisorView.pendingFor []

/-- The endpoint without log files. -/
def quietEndpoint : Endpoint :=
  wireEndpoint fun _ _ => .ok []

/-- Nothing is written, and the view stays as it is. -/
theorem handleConn_strayByteStream : handleConn quietEndpoint strayByteStream idleView =
    { written := [], view := idleView, ended := .readLineFailed } := by
  have hstray : fromUtf8 [0xFF, 10] = none := fromUtf8_of_large List.mem_cons_self (by decide)
  have hlines : splitInclusive 10 strayByteStream =
      [0xFF, 10] :: splitInclusive 10 (frame Request.mute.toJson) := rfl
  rw [handleConn, hlines, serveLines, hstray]

/-- A line that is not UTF-8 gets no answer, nor does the request behind it. -/
theorem not_oneResponsePerLine_strayByte :
    ¬ OneResponsePerLine quietEndpoint strayByteStream idleView
      (handleConn quietEndpoint strayByteStream idleView) := by
  rw [handleConn_strayByteStream]
  rintro ⟨⟨resps, hanswered, hwritten⟩, -⟩
  have hlength := hanswered.length_eq
  rw [List.map_eq_nil_iff.mp hwritten.symm] at hlength
  cases hlength

end Wintermute
