import Mathlib.Logic.Function.Basic
import Mathlib.Logic.Relation
import Wintermute.Control.Connection
import Wintermute.Foundation.SharedObject
import Wintermute.Supervisor.World

/-!
# Serving many connections

The supervisor accepts any number of clients and gives each connection a task of its
own.  A task reads a line, dispatches it under the state mutex and writes the answer,
and other tasks and the supervisor's critical sections may come in between.  A task
reads when its client has sent a whole line or has closed its end, it may find the
connection broken, and a write may stop in the middle.

The history of a run holds the critical sections in the order in which they got the
mutex, each with its answer.  It is bookkeeping: no step reads it.

Main results:

- Theorem {lit}`ConnStep.exchange`: what a task and its client do to a connection keeps the
  account of its lines and answers.
- Theorem {lit}`server_linearizable`: every run answers as if the critical sections had been
  run one after the other, and every client gets the answers to its lines in their order.
- Theorem {lit}`lock_of_steps`: what the connections get done between two critical sections
  of the supervisor is a list of requests to the supervisor's world.
-/

namespace Wintermute

open Foundation Relation

/-! ## Connections -/

/-- What the task of a connection does next.  A failed task leaves bytes of an answer
unwritten. -/
inductive Phase where
  | reading
  | dispatching (line : List Char)
  | writing (buffer : List UInt8)
  | closed
  | failed (unwritten : List UInt8)
deriving DecidableEq, Repr

/-- One connection: everything the client has sent and whether it has shut its end, the
lines its task has read, what is left to read, the phase of the task, and the bytes
written to the client. -/
structure Conn where
  sent : List UInt8
  shut : Bool
  read : List (List UInt8)
  incoming : List UInt8
  phase : Phase
  written : List UInt8
deriving DecidableEq, Repr

/-- A connection that has just been accepted. -/
def Conn.new : Conn where
  sent := []
  shut := false
  read := []
  incoming := []
  phase := .reading
  written := []

/-- {lit}`read_line`: the bytes up to the first line feed, or all that are left when the
client has shut its end; no answer while more may come or when nothing is left. -/
def Conn.nextLine (conn : Conn) : Option (List UInt8) :=
  match splitInclusive 10 conn.incoming with
  | [] => none
  | raw :: _ => if raw.getLast? = some 10 ∨ conn.shut = true then some raw else none

/-- The client sends more bytes. -/
def Conn.send (bytes : List UInt8) (conn : Conn) : Conn :=
  { conn with sent := conn.sent ++ bytes, incoming := conn.incoming ++ bytes }

/-- The task has read a line and trimmed its end. -/
def Conn.took (raw : List UInt8) (line : List Char) (conn : Conn) : Conn :=
  { conn with
    read := conn.read ++ [raw]
    incoming := conn.incoming.drop raw.length
    phase := .dispatching (trimLineEnd line) }

/-- What a client and the task of its connection do without the state mutex. -/
inductive ConnStep (conn : Conn) : Conn → Prop where
  | send (bytes : List UInt8) (hopen : conn.shut = false) :
      ConnStep conn (conn.send bytes)
  | shutdown : ConnStep conn { conn with shut := true }
  | readLine (raw : List UInt8) (line : List Char)
      (hphase : conn.phase = .reading) (hraw : conn.nextLine = some raw)
      (hline : fromUtf8 raw = some line) : ConnStep conn (conn.took raw line)
  | notUtf8 (raw : List UInt8) (hphase : conn.phase = .reading)
      (hraw : conn.nextLine = some raw) (hline : fromUtf8 raw = none) :
      ConnStep conn { conn with phase := .failed [] }
  | readFailed (hphase : conn.phase = .reading) :
      ConnStep conn { conn with phase := .failed [] }
  | endOfStream (hphase : conn.phase = .reading) (hdone : conn.incoming = [])
      (hshut : conn.shut = true) : ConnStep conn { conn with phase := .closed }
  | write (buffer : List UInt8) (hphase : conn.phase = .writing buffer) :
      ConnStep conn { conn with written := conn.written ++ buffer, phase := .reading }
  | writeFailed (done rest : List UInt8)
      (hphase : conn.phase = .writing (done ++ rest)) :
      ConnStep conn { conn with written := conn.written ++ done, phase := .failed rest }

/-! ## The server -/

/-- One critical section: the answer to a line of a connection, with what the log files
hold at that time, or a section of the supervisor. -/
inductive Section where
  | request (id : ℕ) (line : List Char)
      (tailChildLog : String → UInt64 → Except String (List String))
  | supervise (f : SupervisorView → SupervisorView)

/-- What a critical section answers, and the view it leaves. -/
def Section.run (ep : Endpoint) (sec : Section) (view : SupervisorView) :
    Option Response × SupervisorView :=
  match sec with
  | .request _ line tailChildLog =>
      let resp := respond { ep with tailChildLog := tailChildLog } line view
      (some resp.1, resp.2)
  | .supervise f => (none, f view)

/-- A line that is a request is dispatched. -/
theorem run_of_fromStr {ep : Endpoint} {line : List Char} {req : Request} (id : ℕ)
    (tailChildLog : String → UInt64 → Except String (List String))
    (hparse : ep.fromStr line = .ok req) (view : SupervisorView) :
    Section.run ep (.request id line tailChildLog) view =
      (some (dispatch tailChildLog req view).1, (dispatch tailChildLog req view).2) := by
  simp only [Section.run, respond, hparse]

/-- The shared view, the connections by the order in which they were accepted, and the
history of the critical sections, oldest first. -/
structure Server where
  view : SupervisorView
  conns : ℕ → Option Conn
  history : List (Section × Option Response)

/-- The listener is bound and nobody has connected. -/
def Server.listening (view : SupervisorView) : Server where
  view := view
  conns := fun _ => none
  history := []

def Server.setConn (s : Server) (id : ℕ) (conn : Conn) : Server :=
  { s with conns := Function.update s.conns id (some conn) }

/-- Run a critical section. -/
def Server.enter (ep : Endpoint) (sec : Section) (s : Server) : Option Response × Server :=
  let done := sec.run ep s.view
  (done.1, { s with view := done.2, history := s.history ++ [(sec, done.1)] })

/-- One step of the server, of a client or of the supervisor. -/
inductive ServerStep (ep : Endpoint) (s : Server) : Server → Prop where
  | accept (id : ℕ) (hfresh : s.conns id = none) :
      ServerStep ep s (s.setConn id Conn.new)
  | conn (id : ℕ) (before after : Conn) (hconn : s.conns id = some before)
      (hstep : ConnStep before after) : ServerStep ep s (s.setConn id after)
  | dispatch (id : ℕ) (conn : Conn) (line : List Char)
      (tailChildLog : String → UInt64 → Except String (List String)) (resp : Response)
      (hconn : s.conns id = some conn) (hphase : conn.phase = .dispatching line)
      (hresp : (s.enter ep (.request id line tailChildLog)).1 = some resp) :
      ServerStep ep s ((s.enter ep (.request id line tailChildLog)).2.setConn id
        { conn with phase := .writing (ep.toVec resp ++ [10]) })
  | supervise (f : SupervisorView → SupervisorView) :
      ServerStep ep s (s.enter ep (.supervise f)).2

/-- The states that a server can reach from a view with nobody connected. -/
inductive Reachable (ep : Endpoint) (view : SupervisorView) : Server → Prop where
  | listening : Reachable ep view (Server.listening view)
  | step (s s' : Server) (hreach : Reachable ep view s) (hstep : ServerStep ep s s') :
      Reachable ep view s'

theorem setConn_self (s : Server) (id : ℕ) (conn : Conn) :
    (s.setConn id conn).conns id = some conn :=
  Function.update_self id _ _

theorem setConn_other {s : Server} {id other : ℕ} (hne : other ≠ id) (conn : Conn) :
    (s.setConn id conn).conns other = s.conns other :=
  Function.update_of_ne hne _ _

/-! ## What a client has got -/

/-- The line and the answer, if a critical section answered a line of the connection. -/
def answerTo (id : ℕ) (entry : Section × Option Response) : Option (List Char × Response) :=
  match entry with
  | (.request owner line _, some resp) => if owner = id then some (line, resp) else none
  | _ => none

/-- The lines of a connection that have been answered, with their answers. -/
def answersTo (id : ℕ) (history : List (Section × Option Response)) :
    List (List Char × Response) :=
  history.filterMap (answerTo id)

/-- The line that has been read and not been dispatched. -/
def Phase.unanswered : Phase → List (List Char)
  | .dispatching line => [line]
  | _ => []

/-- The bytes of answers that have not been written. -/
def Phase.unwritten : Phase → List UInt8
  | .writing buffer => buffer
  | .failed rest => rest
  | _ => []

/-- The text of a line, without its end. -/
def lineText (raw : List UInt8) : Option (List Char) :=
  (fromUtf8 raw).map trimLineEnd

/-- The frames of a list of answers. -/
def frames (ep : Endpoint) (answers : List (List Char × Response)) : List UInt8 :=
  (answers.map fun answer => ep.toVec answer.2 ++ [10]).flatten

/-- The account of a connection: its task has read the first lines that the client sent,
the lines read are those answered and the one in hand, and the bytes written are those of
the answers, without what is still to be written. -/
structure Exchange (ep : Endpoint) (conn : Conn) (answers : List (List Char × Response)) :
    Prop where
  lines : splitInclusive 10 conn.sent = conn.read ++ splitInclusive 10 conn.incoming
  whole : conn.shut = false →
    (∀ raw ∈ conn.read, ∃ p, 10 ∉ p ∧ raw = p ++ [10]) ∧
      conn.sent = conn.read.flatten ++ conn.incoming
  read : conn.read.map lineText =
    (answers.map Prod.fst ++ conn.phase.unanswered).map some
  written : conn.written ++ conn.phase.unwritten = frames ep answers
  closed : conn.phase = .closed → conn.shut = true ∧ conn.incoming = []

section Connections

variable {ep : Endpoint} {conn : Conn} {answers : List (List Char × Response)}

theorem exchange_new (ep : Endpoint) : Exchange ep Conn.new [] :=
  ⟨rfl, fun _ => ⟨fun _ h => absurd h List.not_mem_nil, rfl⟩, rfl, rfl, fun h => by cases h⟩

/-- The next line is the first piece of what is left to read. -/
theorem nextLine_spec {raw : List UInt8} (h : conn.nextLine = some raw) :
    splitInclusive 10 conn.incoming =
        raw :: splitInclusive 10 (conn.incoming.drop raw.length) ∧
      (conn.shut = false → (∃ p, 10 ∉ p ∧ raw = p ++ [10]) ∧
        conn.incoming = raw ++ conn.incoming.drop raw.length) := by
  unfold Conn.nextLine at h
  cases hpieces : splitInclusive 10 conn.incoming with
  | nil =>
      rw [hpieces] at h
      cases h
  | cons piece pieces =>
      simp only [hpieces] at h
      split at h
      · rename_i hwhole
        cases h
        rcases splitInclusive_head hpieces with ⟨p, rest, hp, hpiece, hl, hrest⟩ | ⟨hlast, hl, hnil⟩
        · have hdrop : conn.incoming.drop raw.length = rest := by
            rw [hl, List.drop_left]
          rw [hdrop]
          exact ⟨by rw [hrest], fun _ => ⟨⟨p, hp, hpiece⟩, hl⟩⟩
        · have hdrop : conn.incoming.drop raw.length = [] := by
            rw [hl, List.drop_length]
          rw [hdrop]
          refine ⟨by rw [hnil, splitInclusive_nil], fun hopen => absurd hlast ?_⟩
          rw [hopen] at hwhole
          simp only [Bool.false_eq_true, or_false] at hwhole
          exact not_not_intro (List.mem_of_getLast? hwhole)
      · cases h

/-- A step that leaves the lines alone. -/
theorem Exchange.withPhase (h : Exchange ep conn answers) {phase : Phase}
    {written : List UInt8} (hread : phase.unanswered = conn.phase.unanswered)
    (hwritten : written ++ phase.unwritten = conn.written ++ conn.phase.unwritten)
    (hclosed : phase = .closed → conn.shut = true ∧ conn.incoming = []) :
    Exchange ep { conn with phase := phase, written := written } answers :=
  ⟨h.lines, h.whole, by rw [hread]; exact h.read, hwritten.trans h.written, hclosed⟩

/-- The client and the task of a connection keep its account. -/
theorem ConnStep.exchange {after : Conn} (hstep : ConnStep conn after)
    (h : Exchange ep conn answers) : Exchange ep after answers := by
  cases hstep with
  | send bytes hopen =>
      obtain ⟨hread, hsent⟩ := h.whole hopen
      have hmore : conn.sent ++ bytes = conn.read.flatten ++ (conn.incoming ++ bytes) := by
        rw [hsent, List.append_assoc]
      refine ⟨?_, fun _ => ⟨hread, hmore⟩, h.read, h.written, fun hclosed => ?_⟩
      · change splitInclusive 10 (conn.sent ++ bytes) = _
        rw [hmore]
        exact splitInclusive_flatten hread _
      · have hshut := (h.closed hclosed).1
        rw [hopen] at hshut
        cases hshut
  | shutdown =>
      refine ⟨h.lines, fun hopen => ?_, h.read, h.written,
        fun hclosed => ⟨rfl, (h.closed hclosed).2⟩⟩
      cases hopen
  | readLine raw line hphase hraw hline =>
      obtain ⟨hpieces, hwhole⟩ := nextLine_spec hraw
      refine ⟨?_, fun hopen => ?_, ?_, ?_, fun hclosed => by cases hclosed⟩
      · change splitInclusive 10 conn.sent = conn.read ++ [raw] ++ _
        rw [h.lines, hpieces, List.append_assoc, List.singleton_append]
        rfl
      · obtain ⟨hterminated, hsplit⟩ := hwhole hopen
        obtain ⟨hread, hsent⟩ := h.whole hopen
        refine ⟨?_, ?_⟩
        · intro piece hpiece
          rcases List.mem_append.mp hpiece with hpiece | hpiece
          · exact hread piece hpiece
          · rw [List.mem_singleton.mp hpiece]
            exact hterminated
        · change conn.sent = (conn.read ++ [raw]).flatten ++ conn.incoming.drop raw.length
          rw [List.flatten_append, List.flatten_singleton, List.append_assoc, ← hsplit]
          exact hsent
      · have hread := h.read
        rw [hphase] at hread
        change (conn.read ++ [raw]).map lineText =
          (answers.map Prod.fst ++ [trimLineEnd line]).map some
        rw [List.map_append, hread, List.map_singleton, lineText, hline]
        simp [Phase.unanswered]
      · have hwritten := h.written
        rw [hphase] at hwritten
        exact hwritten
  | notUtf8 raw hphase _ _ =>
      exact h.withPhase (by rw [hphase]; rfl) (by rw [hphase]; rfl)
        (fun hclosed => by cases hclosed)
  | readFailed hphase =>
      exact h.withPhase (by rw [hphase]; rfl) (by rw [hphase]; rfl)
        (fun hclosed => by cases hclosed)
  | endOfStream hphase hdone hshut =>
      exact h.withPhase (by rw [hphase]; rfl) (by rw [hphase]; rfl) (fun _ => ⟨hshut, hdone⟩)
  | write buffer hphase =>
      refine h.withPhase (by rw [hphase]; rfl) ?_ (fun hclosed => by cases hclosed)
      rw [hphase]
      exact List.append_nil _
  | writeFailed done rest hphase =>
      refine h.withPhase (by rw [hphase]; rfl) ?_ (fun hclosed => by cases hclosed)
      rw [hphase]
      exact List.append_assoc _ _ _

/-- The dispatch of a line adds its answer to the account. -/
theorem Exchange.dispatched (h : Exchange ep conn answers) {line : List Char}
    (hphase : conn.phase = .dispatching line) (resp : Response) :
    Exchange ep { conn with phase := .writing (ep.toVec resp ++ [10]) }
      (answers ++ [(line, resp)]) := by
  obtain ⟨hlines, hwhole, hread, hwritten, -⟩ := h
  rw [hphase] at hread hwritten
  refine ⟨hlines, hwhole, ?_, ?_, fun hclosed => by cases hclosed⟩
  · rw [hread]
    simp [Phase.unanswered]
  · change conn.written ++ (ep.toVec resp ++ [10]) = _
    have hold : conn.written = frames ep answers := by simpa [Phase.unwritten] using hwritten
    rw [hold]
    simp [frames]

end Connections

/-! ## Every interleaving -/

/-- The history is linear, and every connection has its account with it. -/
structure Accounts (ep : Endpoint) (view : SupervisorView) (s : Server) : Prop where
  linear : Linear (Section.run ep) view s.history s.view
  exchange : ∀ id conn, s.conns id = some conn → Exchange ep conn (answersTo id s.history)
  unknown : ∀ id, s.conns id = none → answersTo id s.history = []

section Runs

variable {ep : Endpoint} {view : SupervisorView} {s s' : Server}

theorem answersTo_snoc (id : ℕ) (history : List (Section × Option Response))
    (entry : Section × Option Response) :
    answersTo id (history ++ [entry]) = answersTo id history ++ (answerTo id entry).toList := by
  rw [answersTo, List.filterMap_append]
  cases hentry : answerTo id entry with
  | none => simp [answersTo, hentry]
  | some answer => simp [answersTo, hentry]

/-- Changing one connection. -/
theorem Accounts.setConn (h : Accounts ep view s) {id : ℕ} {conn : Conn}
    (hconn : Exchange ep conn (answersTo id s.history)) :
    Accounts ep view (s.setConn id conn) := by
  refine ⟨h.linear, ?_, ?_⟩
  · intro other conn' hother
    change Function.update s.conns id (some conn) other = some conn' at hother
    by_cases hid : other = id
    · subst hid
      rw [Function.update_self] at hother
      cases hother
      exact hconn
    · rw [Function.update_of_ne hid] at hother
      exact h.exchange other conn' hother
  · intro other hother
    change Function.update s.conns id (some conn) other = none at hother
    by_cases hid : other = id
    · rw [hid, Function.update_self] at hother
      cases hother
    · rw [Function.update_of_ne hid] at hother
      exact h.unknown other hother

/-- Every step keeps the accounts. -/
theorem ServerStep.accounts (hstep : ServerStep ep s s') (h : Accounts ep view s) :
    Accounts ep view s' := by
  cases hstep with
  | accept id hfresh =>
      apply h.setConn
      rw [h.unknown id hfresh]
      exact exchange_new ep
  | conn id before after hconn hstep =>
      exact h.setConn (hstep.exchange (h.exchange id before hconn))
  | dispatch id conn line tailChildLog resp hconn hphase hresp =>
      let sec := Section.request id line tailChildLog
      have hhistory : (s.enter ep sec).2.history = s.history ++ [(sec, some resp)] := by
        rw [← hresp]
        rfl
      have hown : answersTo id (s.enter ep sec).2.history =
          answersTo id s.history ++ [(line, resp)] := by
        rw [hhistory, answersTo_snoc]
        simp [answerTo, sec]
      have hother : ∀ other, other ≠ id →
          answersTo other (s.enter ep sec).2.history = answersTo other s.history := by
        intro other hne
        rw [hhistory, answersTo_snoc]
        simp [answerTo, sec, Ne.symm hne]
      refine ⟨h.linear.snoc sec, ?_, ?_⟩
      · intro other conn' hconn'
        change Function.update s.conns id _ other = some conn' at hconn'
        by_cases hid : other = id
        · subst hid
          rw [Function.update_self] at hconn'
          cases hconn'
          change Exchange ep _ (answersTo other (s.enter ep sec).2.history)
          rw [hown]
          exact (h.exchange other conn hconn).dispatched hphase resp
        · rw [Function.update_of_ne hid] at hconn'
          change Exchange ep _ (answersTo other (s.enter ep sec).2.history)
          rw [hother other hid]
          exact h.exchange other conn' hconn'
      · intro other hnone
        change Function.update s.conns id _ other = none at hnone
        by_cases hid : other = id
        · rw [hid, Function.update_self] at hnone
          cases hnone
        · rw [Function.update_of_ne hid] at hnone
          change answersTo other (s.enter ep sec).2.history = []
          rw [hother other hid]
          exact h.unknown other hnone
  | supervise f =>
      have hsame : ∀ id, answersTo id (s.enter ep (.supervise f)).2.history =
          answersTo id s.history := by
        intro id
        change answersTo id (s.history ++ [(Section.supervise f, none)]) = _
        rw [answersTo_snoc]
        exact List.append_nil _
      refine ⟨h.linear.snoc (.supervise f), ?_, ?_⟩
      · intro id conn hconn
        rw [hsame]
        exact h.exchange id conn hconn
      · intro id hnone
        rw [hsame]
        exact h.unknown id hnone

theorem accounts_of_reachable (h : Reachable ep view s) : Accounts ep view s := by
  induction h with
  | listening =>
      refine ⟨linear_nil view, fun id conn hconn => ?_, fun _ _ => rfl⟩
      cases hconn
  | step s s' _ hstep ih => exact hstep.accounts ih

/-- Every run answers as if its critical sections had been run one after the other, and
every client has got, in order, the answers to the lines it sent. -/
theorem server_linearizable (h : Reachable ep view s) :
    Linear (Section.run ep) view s.history s.view ∧
      ∀ id conn, s.conns id = some conn →
        conn.read <+: splitInclusive 10 conn.sent ∧
          conn.read.map lineText =
            ((answersTo id s.history).map Prod.fst ++ conn.phase.unanswered).map some ∧
          conn.written ++ conn.phase.unwritten = frames ep (answersTo id s.history) := by
  have haccounts := accounts_of_reachable h
  refine ⟨haccounts.linear, fun id conn hconn => ?_⟩
  have hexchange := haccounts.exchange id conn hconn
  refine ⟨?_, hexchange.read, hexchange.written⟩
  rw [hexchange.lines]
  exact List.prefix_append _ _

end Runs

/-! ## A new client -/

/-- The text of a request is read as that request. -/
theorem wireEndpoint_fromStr (log : String → UInt64 → Except String (List String))
    (req : Request) : (wireEndpoint log).fromStr req.toJson.print = .ok req := by
  simp only [wireEndpoint, Wintermute.fromStr, Json.parse_print, Option.bind_some,
    Request.ofJson_toJson]

/-- A line with the text of a request is dispatched as that request. -/
theorem run_request (log tailChildLog : String → UInt64 → Except String (List String)) (id : ℕ)
    (req : Request) (view : SupervisorView) :
    (Section.request id req.toJson.print tailChildLog).run (wireEndpoint log) view =
      (some (dispatch tailChildLog req view).1, (dispatch tailChildLog req view).2) :=
  run_of_fromStr id tailChildLog (wireEndpoint_fromStr log req) view

/-- A client that has sent its bytes and shut its end. -/
def submitted (bytes : List UInt8) : Conn :=
  { Conn.new with sent := bytes, shut := true, incoming := bytes }

/-- In every reachable state a new client may connect, send and shut its end. -/
theorem reachable_submitted {ep : Endpoint} {view : SupervisorView} {s : Server}
    (h : Reachable ep view s) {id : ℕ} (hfresh : s.conns id = none) (bytes : List UInt8) :
    Reachable ep view (s.setConn id (submitted bytes)) := by
  have hagain : ∀ before after : Conn,
      (s.setConn id before).setConn id after = s.setConn id after := by
    intro before after
    simp [Server.setConn]
  have hsent := Reachable.step _ _ (.step _ _ h (.accept id hfresh))
    (.conn id Conn.new _ (setConn_self s id _) (.send bytes rfl))
  rw [hagain] at hsent
  have hshut := Reachable.step _ _ hsent (.conn id _ _ (setConn_self s id _) .shutdown)
  rw [hagain] at hshut
  exact hshut

/-- The server when the task of a client that has submitted a value has answered it. -/
def Server.answered (ep : Endpoint) (id : ℕ) (value : Json) (s : Server) : Server :=
  (s.enter ep (.request id value.print ep.tailChildLog)).2.setConn id
    { submitted (frame value) with
      read := [frame value]
      incoming := []
      written := ep.toVec (respond ep value.print s.view).1 ++ [10] }

/-- The task of a client that has submitted a value can read, dispatch and answer it. -/
theorem steps_answered (ep : Endpoint) {s : Server} {id : ℕ} {value : Json}
    (hconn : s.conns id = some (submitted (frame value))) :
    ReflTransGen (ServerStep ep) s (s.answered ep id value) := by
  have hpieces : splitInclusive 10 (frame value) = [frame value] := by
    rw [← List.append_nil (frame value), splitInclusive_frame, List.append_nil,
      splitInclusive_nil]
  have hraw : (submitted (frame value)).nextLine = some (frame value) := by
    rw [Conn.nextLine]
    simp only [submitted, hpieces, or_true, if_true]
  set took := (submitted (frame value)).took (frame value) (value.print ++ ['\n']) with htook
  set mid := (s.setConn id took).enter ep (.request id value.print ep.tailChildLog) with hmid
  set buffer := ep.toVec (respond ep value.print s.view).1 ++ [10] with hbuffer
  have hread : ServerStep ep s (s.setConn id took) :=
    .conn id _ _ hconn (.readLine (frame value) _ rfl hraw (fromUtf8_frame value))
  have hdispatch : ServerStep ep (s.setConn id took)
      (mid.2.setConn id { took with phase := .writing buffer }) :=
    .dispatch id took value.print ep.tailChildLog _ (setConn_self s id took)
      (congrArg Phase.dispatching (trimLineEnd_print value)) rfl
  have hwrite : ServerStep ep (mid.2.setConn id { took with phase := .writing buffer }) _ :=
    .conn id _ _ (setConn_self mid.2 id _) (.write buffer rfl)
  have hserved : (mid.2.setConn id { took with phase := .writing buffer }).setConn id
      { took with phase := .reading, written := took.written ++ buffer } =
        s.answered ep id value := by
    simp [hmid, htook, hbuffer, Server.answered, Server.setConn, Server.enter, Conn.took, Conn.new,
      submitted]
  exact .tail (.tail (.single hread) hdispatch) (hserved ▸ hwrite)

theorem reachable_of_steps {ep : Endpoint} {view : SupervisorView} {s s' : Server}
    (h : Reachable ep view s) (hsteps : ReflTransGen (ServerStep ep) s s') :
    Reachable ep view s' := by
  induction hsteps with
  | refl => exact h
  | tail _ hstep ih => exact .step _ _ ih hstep

/-- The server after one client has submitted a mute request and another a status
request. -/
def muteAndStatus : Server :=
  ((Server.listening idleView).setConn 0 (submitted (frame Request.mute.toJson))).setConn 1
    (submitted (frame Request.status.toJson))

theorem reachable_muteAndStatus : Reachable quietEndpoint idleView muteAndStatus :=
  reachable_submitted (reachable_submitted .listening rfl _) rfl _

/-- The mute request is answered while the status request waits. -/
def muteAnswered : Server :=
  muteAndStatus.answered quietEndpoint 0 Request.mute.toJson

theorem steps_muteAnswered : ReflTransGen (ServerStep quietEndpoint) muteAndStatus muteAnswered :=
  steps_answered quietEndpoint rfl

/-- The first client has its answer, and the second one's line is unread. -/
theorem server_linearizable_muteAndStatus :
    muteAnswered.history.map Prod.snd = [some .ack] ∧ muteAnswered.view.muted = true ∧
      Linear (Section.run quietEndpoint) idleView muteAnswered.history muteAnswered.view ∧
      ∀ id conn, muteAnswered.conns id = some conn →
        conn.read <+: splitInclusive 10 conn.sent ∧
          conn.read.map lineText =
            ((answersTo id muteAnswered.history).map Prod.fst ++
              conn.phase.unanswered).map some ∧
          conn.written ++ conn.phase.unwritten =
            frames quietEndpoint (answersTo id muteAnswered.history) := by
  have hrun : Section.run quietEndpoint
      (.request 0 Request.mute.toJson.print quietEndpoint.tailChildLog) idleView =
        (some .ack, { idleView with muted := true }) :=
    run_request _ _ 0 .mute idleView
  have hreach := reachable_of_steps reachable_muteAndStatus steps_muteAnswered
  refine ⟨?_, congrArg (fun done => done.2.muted) hrun, server_linearizable hreach⟩
  exact congrArg (fun done => [done.1]) hrun

/-! ## The supervisor's world -/

/-- The request that a critical section dispatches, with the log files it reads. -/
def Section.dispatched (ep : Endpoint) (sec : Section) :
    Option (Request × (String → UInt64 → Except String (List String))) :=
  match sec with
  | .request _ line tailChildLog =>
      (ep.fromStr line).toOption.map fun req => (req, tailChildLog)
  | .supervise _ => none

/-- The request of an entry of the history, with its answer. -/
def exchanged (ep : Endpoint) (entry : Section × Option Response) :
    Option (Request × Response) := do
  let asked ← entry.1.dispatched ep
  let resp ← entry.2
  some (asked.1, resp)

/-- Clients that ask for the given requests at a point of the history, and whose log files
change from request to request. -/
def Clients.script (asked : List (Request × (String → UInt64 → Except String (List String))))
    (start : ℕ) : Clients where
  requests log := if log.length = start then asked.map Prod.fst else []
  tailChildLog log := (asked[log.length - start]?).elim (fun _ _ => .ok []) Prod.snd

/-- The requests of a history. -/
def askedIn (ep : Endpoint) (history : List (Section × Option Response)) :
    List (Request × (String → UInt64 → Except String (List String))) :=
  (history.map Prod.fst).filterMap (Section.dispatched ep)

/-- The events of a history in the world, newest first. -/
def servedIn (ep : Endpoint) (pass : Option Instant)
    (history : List (Section × Option Response)) : List Event :=
  ((history.filterMap (exchanged ep)).map fun served =>
    ⟨pass, .request served.1 served.2⟩).reverse

/-- No entry of the history is a section of the supervisor. -/
def OnlyRequests (history : List (Section × Option Response)) : Prop :=
  ∀ entry ∈ history, ∃ id line tailChildLog, entry.1 = .request id line tailChildLog

section World

variable {ep : Endpoint} (id : ℕ) {line : List Char}
  (tailChildLog : String → UInt64 → Except String (List String))

/-- A line that is no request is left out. -/
theorem served_malformed {message : String} (hparse : ep.fromStr line = .error message)
    (answer : Option Response) (history : List (Section × Option Response)) :
    askedIn ep ((.request id line tailChildLog, answer) :: history) = askedIn ep history ∧
      ∀ pass, servedIn ep pass ((.request id line tailChildLog, answer) :: history) =
        servedIn ep pass history := by
  have hnone : Section.dispatched ep (.request id line tailChildLog) = none := by
    rw [Section.dispatched, hparse]
    rfl
  have hexchanged : exchanged ep (.request id line tailChildLog, answer) = none := by
    rw [exchanged, hnone]
    rfl
  refine ⟨?_, fun pass => ?_⟩
  · rw [askedIn, List.map_cons, List.filterMap_cons_none hnone, askedIn]
  · rw [servedIn, List.filterMap_cons_none hexchanged, servedIn]

/-- A request comes last in the world's history, which is newest first. -/
theorem served_request {req : Request} (hparse : ep.fromStr line = .ok req) (resp : Response)
    (history : List (Section × Option Response)) :
    askedIn ep ((.request id line tailChildLog, some resp) :: history) =
        (req, tailChildLog) :: askedIn ep history ∧
      ∀ pass, servedIn ep pass ((.request id line tailChildLog, some resp) :: history) =
        servedIn ep pass history ++ [⟨pass, .request req resp⟩] := by
  have hsome : Section.dispatched ep (.request id line tailChildLog) =
      some (req, tailChildLog) := by
    rw [Section.dispatched, hparse]
    rfl
  have hexchanged : exchanged ep (.request id line tailChildLog, some resp) = some (req, resp) := by
    rw [exchanged, hsome]
    rfl
  refine ⟨?_, fun pass => ?_⟩
  · rw [askedIn, List.map_cons, List.filterMap_cons_some hsome, askedIn]
  · rw [servedIn, List.filterMap_cons_some hexchanged, List.map_cons, List.reverse_cons, servedIn]

/-- A world whose clients follow a script serves its next request with its log files. -/
theorem serve_script {env : Environment} {start : ℕ}
    {before rest : List (Request × (String → UInt64 → Except String (List String)))}
    {req : Request} {w : World}
    (hclients : env.clients = Clients.script (before ++ (req, tailChildLog) :: rest) start)
    (hlength : w.log.length = start + before.length) :
    w.serve env req =
      { w with view := (dispatch tailChildLog req w.view).2 }.note
        (.request req (dispatch tailChildLog req w.view).1) := by
  have htail : env.clients.tailChildLog w.log = tailChildLog := by
    have hindex : w.log.length - start = before.length := by omega
    rw [hclients, Clients.script]
    simp [hindex]
  rw [World.serve, htail]

/-- A world whose clients follow a script serves the requests of the history as the server
does. -/
theorem foldl_serve_script {env : Environment} {start : ℕ}
    (before : List (Request × (String → UInt64 → Except String (List String))))
    {history : List (Section × Option Response)} (hrequests : OnlyRequests history) {w : World}
    {view : SupervisorView} (hlinear : Linear (Section.run ep) w.view history view)
    (hclients : env.clients = Clients.script (before ++ askedIn ep history) start)
    (hlength : w.log.length = start + before.length) :
    let after := ((askedIn ep history).map Prod.fst).foldl (World.serve env) w
    after.view = view ∧ after.log = servedIn ep w.pass history ++ w.log := by
  induction history generalizing before w with
  | nil => exact ⟨congrArg Prod.snd hlinear, rfl⟩
  | cons entry history ih =>
      obtain ⟨sec, answer⟩ := entry
      obtain ⟨⟨id, line, tailChildLog, rfl⟩, hrest⟩ := List.forall_mem_cons.mp hrequests
      obtain ⟨hanswer, hlater⟩ := hlinear.cons_inv
      subst hanswer
      cases hparse : ep.fromStr line with
      | error message =>
          have hview : (Section.run ep (.request id line tailChildLog) w.view).2 = w.view := by
            simp only [Section.run, respond, hparse]
          obtain ⟨hasked, hserved⟩ := served_malformed id tailChildLog hparse
            (Section.run ep (.request id line tailChildLog) w.view).1 history
          rw [hview] at hlater
          rw [hasked] at hclients ⊢
          rw [hserved]
          exact ih before hrest hlater hclients hlength
      | ok req =>
          have hrun := run_of_fromStr id tailChildLog hparse w.view
          obtain ⟨hasked, hserved⟩ := served_request id tailChildLog hparse
            (dispatch tailChildLog req w.view).1 history
          rw [hrun] at hclients hlater ⊢
          rw [hasked] at hclients ⊢
          have hserve := serve_script tailChildLog hclients hlength
          have hstep := ih (before ++ [(req, tailChildLog)]) hrest (w := w.serve env req)
            (by rw [hserve]; exact hlater)
            (by rw [hclients, List.append_assoc, List.singleton_append])
            (by rw [List.length_append, List.length_singleton, ← Nat.add_assoc, ← hlength]; rfl)
          rw [List.map_cons, List.foldl_cons]
          refine ⟨hstep.1, hstep.2.trans ?_⟩
          rw [hserved, hserve, List.append_assoc]
          rfl

/-- Steps of the server add to its history, and keep it linear. -/
theorem linear_of_steps {s s' : Server} (hsteps : ReflTransGen (ServerStep ep) s s') :
    ∃ newer, s'.history = s.history ++ newer ∧ Linear (Section.run ep) s.view newer s'.view := by
  induction hsteps with
  | refl => exact ⟨[], (List.append_nil _).symm, linear_nil s.view⟩
  | @tail mid last _ hstep ih =>
      obtain ⟨newer, hhistory, hlinear⟩ := ih
      have henter : ∀ sec : Section, mid.history ++ [(sec, (sec.run ep mid.view).1)] =
          s.history ++ (newer ++ [(sec, (sec.run ep mid.view).1)]) := by
        intro sec
        rw [hhistory, List.append_assoc]
      cases hstep with
      | accept id hfresh => exact ⟨newer, hhistory, hlinear⟩
      | conn id before after hconn hstep => exact ⟨newer, hhistory, hlinear⟩
      | dispatch id conn line tailChildLog resp hconn hphase hresp =>
          exact ⟨_, henter (.request id line tailChildLog), hlinear.snoc _⟩
      | supervise f => exact ⟨_, henter (.supervise f), hlinear.snoc _⟩

/-- **The world abstracts the server.**  Whatever the connections do between two sections of
the supervisor, the world whose clients ask for the same requests, in the order in which they
got the mutex, serves them with the same answers and hands the supervisor's next section the
same view. -/
theorem lock_of_steps (spawner : Spawner) {w : World} {s s' : Server} (hview : s.view = w.view)
    (hsteps : ReflTransGen (ServerStep ep) s s')
    {newer : List (Section × Option Response)} (hnewer : s'.history = s.history ++ newer)
    (hrequests : OnlyRequests newer) (f : SupervisorView → SupervisorView) :
    let env : Environment := ⟨spawner, Clients.script (askedIn ep newer) w.log.length⟩
    (w.dispatchAll env).view = s'.view ∧
      (w.dispatchAll env).log = servedIn ep w.pass newer ++ w.log ∧
      (w.lock env fun view => ((), f view)).2.view = (s'.enter ep (.supervise f)).2.view := by
  intro env
  obtain ⟨added, hadded, hlinear⟩ := linear_of_steps hsteps
  obtain rfl : added = newer := List.append_cancel_left (hadded.symm.trans hnewer)
  rw [hview] at hlinear
  have hasked : env.clients.requests w.log = (askedIn ep added).map Prod.fst := if_pos rfl
  obtain ⟨hworld, hlog⟩ :=
    @foldl_serve_script ep env w.log.length [] added hrequests w s'.view hlinear rfl rfl
  rw [← hasked] at hworld hlog
  exact ⟨hworld, hlog, congrArg f hworld⟩

end World

/-- The world before any request, with the view of the server. -/
def idleWorld : World :=
  { World.new with view := idleView }

/-- The mute request of the server in the world. -/
theorem lock_of_steps_muteAnswered :
    ∃ env : Environment, (idleWorld.dispatchAll env).view = muteAnswered.view ∧
      (idleWorld.dispatchAll env).log = servedIn quietEndpoint none muteAnswered.history := by
  have hview : muteAndStatus.view = idleWorld.view := rfl
  have hrequests : OnlyRequests muteAnswered.history :=
    List.forall_mem_singleton.mpr ⟨0, _, _, rfl⟩
  obtain ⟨hworld, hlog, -⟩ := lock_of_steps ⟨fun _ _ => .error ⟨[]⟩, fun _ _ => .ok true⟩ hview
    steps_muteAnswered rfl hrequests id
  exact ⟨_, hworld, hlog.trans (List.append_nil _)⟩

end Wintermute
