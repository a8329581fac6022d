import Mathlib.Logic.Relation
import Wintermute.Control.Server

/-!
# Every client gets its own answers

A connection is served by its own task, and the mutex is free whenever no critical
section is under way, so a task needs nobody else to finish.  A client of the control
plane sends one request, shuts its end and reads one frame; among any number of clients
it reads the answer to its own request.

Main results:

- Theorem {lit}`task_completes`: a task can always serve the rest of its lines by itself.
- Theorem {lit}`connection_completes`: then its client has one answer to each line it sent.
- Theorem {lit}`concurrent_roundtrip`: a client that sent one request reads the result of its
  dispatch, at one point of the common order.
-/

namespace Wintermute

open Foundation Relation

/-! ## Completion -/

/-- A step of the task of a connection that does not fail. -/
inductive TaskStep (ep : Endpoint) (id : ℕ) (s : Server) : Server → Prop where
  | readLine (conn : Conn) (raw : List UInt8) (line : List Char) (hconn : s.conns id = some conn)
      (hphase : conn.phase = .reading) (hraw : conn.nextLine = some raw)
      (hline : fromUtf8 raw = some line) : TaskStep ep id s (s.setConn id (conn.took raw line))
  | dispatch (conn : Conn) (line : List Char) (resp : Response) (hconn : s.conns id = some conn)
      (hphase : conn.phase = .dispatching line)
      (hresp : (s.enter ep (.request id line ep.tailChildLog)).1 = some resp) :
      TaskStep ep id s ((s.enter ep (.request id line ep.tailChildLog)).2.setConn id
        { conn with phase := .writing (ep.toVec resp ++ [10]) })
  | write (conn : Conn) (buffer : List UInt8) (hconn : s.conns id = some conn)
      (hphase : conn.phase = .writing buffer) :
      TaskStep ep id s (s.setConn id
        { conn with written := conn.written ++ buffer, phase := .reading })
  | endOfStream (conn : Conn) (hconn : s.conns id = some conn) (hphase : conn.phase = .reading)
      (hdone : conn.incoming = []) (hshut : conn.shut = true) :
      TaskStep ep id s (s.setConn id { conn with phase := .closed })

section Tasks

variable {ep : Endpoint} {view : SupervisorView} {id : ℕ} {s s' : Server}

/-- A step of a task is a step of the server. -/
theorem TaskStep.serverStep (h : TaskStep ep id s s') : ServerStep ep s s' := by
  cases h with
  | readLine conn raw line hconn hphase hraw hline =>
      exact .conn id conn _ hconn (.readLine raw line hphase hraw hline)
  | dispatch conn line resp hconn hphase hresp =>
      exact .dispatch id conn line ep.tailChildLog resp hconn hphase hresp
  | write conn buffer hconn hphase => exact .conn id conn _ hconn (.write buffer hphase)
  | endOfStream conn hconn hphase hdone hshut =>
      exact .conn id conn _ hconn (.endOfStream hphase hdone hshut)

theorem reachable_of_tasks (h : Reachable ep view s) (hsteps : ReflTransGen (TaskStep ep id) s s') :
    Reachable ep view s' := by
  induction hsteps with
  | refl => exact h
  | tail _ hstep ih => exact .step _ _ ih hstep.serverStep

/-- A task is done with a connection: it is closed, the client's bytes are as they were,
and so are the other connections. -/
structure Completes (id : ℕ) (conn : Conn) (s s' : Server) : Prop where
  closed : ∃ conn', s'.conns id = some conn' ∧ conn'.phase = .closed ∧ conn'.sent = conn.sent
  others : ∀ other, other ≠ id → s'.conns other = s.conns other

/-- What follows a change of the connection completes it. -/
theorem Completes.after {conn before : Conn} {mid : Server} (h : Completes id before mid s')
    (hsent : before.sent = conn.sent)
    (hothers : ∀ other, other ≠ id → mid.conns other = s.conns other) : Completes id conn s s' := by
  obtain ⟨⟨conn', hconn', hclosed, hsame⟩, hkept⟩ := h
  exact ⟨⟨conn', hconn', hclosed, hsame.trans hsent⟩,
    fun other hne => (hkept other hne).trans (hothers other hne)⟩

/-- From writing on: the answer goes out and the task reads again. -/
theorem completes_writing {conn : Conn} {buffer : List UInt8} (hconn : s.conns id = some conn)
    (hphase : conn.phase = .writing buffer)
    (hrest : ∀ mid after, mid.conns id = some after → after.phase = .reading →
      after.sent = conn.sent → after.shut = conn.shut → after.incoming = conn.incoming →
      ∃ s', ReflTransGen (TaskStep ep id) mid s' ∧ Completes id after mid s') :
    ∃ s', ReflTransGen (TaskStep ep id) s s' ∧ Completes id conn s s' := by
  obtain ⟨s', hsteps, hcompletes⟩ := hrest
    (s.setConn id { conn with written := conn.written ++ buffer, phase := .reading }) _
    (setConn_self s id _) rfl rfl rfl rfl
  exact ⟨s', .head (.write conn buffer hconn hphase) hsteps,
    hcompletes.after rfl fun other hne => setConn_other hne _⟩

/-- From the dispatch on. -/
theorem completes_dispatching {conn : Conn} {line : List Char} (hconn : s.conns id = some conn)
    (hphase : conn.phase = .dispatching line)
    (hrest : ∀ mid after, mid.conns id = some after → after.phase = .reading →
      after.sent = conn.sent → after.shut = conn.shut → after.incoming = conn.incoming →
      ∃ s', ReflTransGen (TaskStep ep id) mid s' ∧ Completes id after mid s') :
    ∃ s', ReflTransGen (TaskStep ep id) s s' ∧ Completes id conn s s' := by
  let sec := Section.request id line ep.tailChildLog
  obtain ⟨s', hsteps, hcompletes⟩ := completes_writing (s := (s.enter ep sec).2.setConn id
      { conn with phase := .writing (ep.toVec (respond ep line s.view).1 ++ [10]) })
    (setConn_self _ id _) rfl hrest
  exact ⟨s', .head (.dispatch conn line _ hconn hphase rfl) hsteps,
    hcompletes.after rfl fun other hne => setConn_other hne _⟩

/-- The task of a client that has shut its end serves the rest of its lines by itself. -/
theorem task_completes (ep : Endpoint) {conn : Conn} (hconn : s.conns id = some conn)
    (hshut : conn.shut = true) (hrunning : ∀ rest, conn.phase ≠ .failed rest)
    (hvalid : ∀ raw ∈ splitInclusive 10 conn.incoming, (fromUtf8 raw).isSome = true) :
    ∃ s', ReflTransGen (TaskStep ep id) s s' ∧ Completes id conn s s' := by
  have hreading : ∀ pieces mid after, mid.conns id = some after → after.phase = .reading →
      after.shut = true → splitInclusive 10 after.incoming = pieces →
      (∀ raw ∈ pieces, (fromUtf8 raw).isSome = true) →
      ∃ s', ReflTransGen (TaskStep ep id) mid s' ∧ Completes id after mid s' := by
    -- One line after the other, by induction on the lines that are left.
    intro pieces
    induction pieces with
    | nil =>
        intro mid after hafter hphase hshut hpieces _
        have hdone : after.incoming = [] := by
          rw [← @segments_eq_nil_iff _ _ (10 : UInt8), segments, hpieces, List.map_nil]
        exact ⟨_, .single (.endOfStream after hafter hphase hdone hshut),
          ⟨_, setConn_self mid id _, rfl, rfl⟩, fun other hne => setConn_other hne _⟩
    | cons raw pieces ih =>
        intro mid after hafter hphase hshut hpieces hvalid
        rw [List.forall_mem_cons, Option.isSome_iff_exists] at hvalid
        obtain ⟨⟨line, hline⟩, hrest⟩ := hvalid
        have hraw : after.nextLine = some raw := by
          rw [Conn.nextLine, hpieces, hshut]
          exact if_pos (Or.inr rfl)
        have hleft := (nextLine_spec hraw).1
        rw [hpieces, List.cons.injEq] at hleft
        have hrestart : ∀ mid' after', mid'.conns id = some after' → after'.phase = .reading →
            after'.sent = (after.took raw line).sent → after'.shut = (after.took raw line).shut →
            after'.incoming = (after.took raw line).incoming →
            ∃ s', ReflTransGen (TaskStep ep id) mid' s' ∧ Completes id after' mid' s' := by
          intro mid' after' hafter' hphase' _ hshut' hincoming'
          refine ih mid' after' hafter' hphase' (hshut'.trans hshut) ?_ hrest
          rw [hincoming']
          exact hleft.2.symm
        obtain ⟨s', hsteps, hcompletes⟩ := completes_dispatching
          (setConn_self mid id (after.took raw line)) rfl hrestart
        exact ⟨s', .head (.readLine after raw line hafter hphase hraw hline) hsteps,
          hcompletes.after rfl fun other hne => setConn_other hne _⟩
  have hresume : ∀ mid after, mid.conns id = some after → after.phase = .reading →
      after.sent = conn.sent → after.shut = conn.shut → after.incoming = conn.incoming →
      ∃ s', ReflTransGen (TaskStep ep id) mid s' ∧ Completes id after mid s' := by
    intro mid after hafter hphase _ hsame hincoming
    exact hreading _ mid after hafter hphase (hsame.trans hshut) (by rw [hincoming]) hvalid
  cases hphase : conn.phase with
  | reading => exact hresume s conn hconn hphase rfl rfl rfl
  | dispatching line => exact completes_dispatching hconn hphase hresume
  | writing buffer => exact completes_writing hconn hphase hresume
  | closed => exact ⟨s, .refl, ⟨conn, hconn, hphase, rfl⟩, fun _ _ => rfl⟩
  | failed rest => exact absurd hphase (hrunning rest)

/-- A closed connection has had all its lines answered, and all answers written. -/
theorem Exchange.complete {conn : Conn} {answers : List (List Char × Response)}
    (h : Exchange ep conn answers) (hclosed : conn.phase = .closed) :
    (splitInclusive 10 conn.sent).map lineText = answers.map (fun answer => some answer.1) ∧
      conn.written = frames ep answers := by
  obtain ⟨hlines, -, hread, hwritten, hshut⟩ := h
  rw [hclosed] at hread hwritten
  refine ⟨?_, (List.append_nil _).symm.trans hwritten⟩
  rw [hlines, (hshut hclosed).2, splitInclusive_nil, List.append_nil, hread]
  simp [Phase.unanswered]

/-- In every reachable state, a connection whose client has shut its end, whose task has
not failed and whose lines to come are text can be finished by the steps of its own task;
the other connections stay as they are.  Then its client has one answer to each line it
sent, in order. -/
theorem connection_completes (h : Reachable ep view s) {conn : Conn}
    (hconn : s.conns id = some conn) (hshut : conn.shut = true)
    (hrunning : ∀ rest, conn.phase ≠ .failed rest)
    (hvalid : ∀ raw ∈ splitInclusive 10 conn.incoming, (fromUtf8 raw).isSome = true) :
    ∃ s' conn', ReflTransGen (TaskStep ep id) s s' ∧
      (∀ other, other ≠ id → s'.conns other = s.conns other) ∧
      s'.conns id = some conn' ∧ conn'.phase = .closed ∧
      (answersTo id s'.history).map (fun answer => some answer.1) =
        (splitInclusive 10 conn.sent).map lineText ∧
      conn'.written = frames ep (answersTo id s'.history) := by
  obtain ⟨s', hsteps, ⟨conn', hconn', hclosed, hsent⟩, hothers⟩ :=
    task_completes ep hconn hshut hrunning hvalid
  have hexchange :=
    (accounts_of_reachable (reachable_of_tasks h hsteps)).exchange id conn' hconn'
  obtain ⟨hlines, hwritten⟩ := hexchange.complete hclosed
  rw [hsent] at hlines
  exact ⟨s', conn', hsteps, hothers, hconn', hclosed, hlines.symm, hwritten⟩

end Tasks

/-! ## One request on the wire -/

/-- In every reachable state of a server on the wire, a closed connection whose client sent
one request has exactly one critical section, and its client reads the dispatch of the
request on the view at that point. -/
theorem concurrent_roundtrip (log : String → UInt64 → Except String (List String))
    {view : SupervisorView} {s : Server} (h : Reachable (wireEndpoint log) view s) {id : ℕ}
    {conn : Conn} (hconn : s.conns id = some conn) (hclosed : conn.phase = .closed)
    {req : Request} (hsent : conn.sent = frame req.toJson) :
    ∃ before tailChildLog resp after,
      s.history = before ++ (.request id req.toJson.print tailChildLog, some resp) :: after ∧
      (∀ entry ∈ before ++ after, answerTo id entry = none) ∧
      resp = (dispatch tailChildLog req
        (sequential (Section.run (wireEndpoint log)) (before.map Prod.fst) view).2).1 ∧
      readFrame Response.ofJson conn.written = some resp := by
  obtain ⟨hlinear, hexchange, -⟩ := accounts_of_reachable h
  obtain ⟨hlines, hwritten⟩ := (hexchange id conn hconn).complete hclosed
  have hsplit : splitInclusive 10 conn.sent = [frame req.toJson] := by
    rw [hsent, ← List.append_nil (frame req.toJson), splitInclusive_frame, List.append_nil,
      splitInclusive_nil]
  rw [hsplit, List.map_singleton, lineText, fromUtf8_frame, Option.map_some, trimLineEnd_print]
    at hlines
  obtain ⟨⟨line, resp⟩, hanswers, hline⟩ := List.map_eq_singleton_iff.mp hlines.symm
  cases hline
  obtain ⟨before, entry, after, hhistory, hbefore, hentry, hafter⟩ :=
    List.filterMap_eq_cons_iff.mp hanswers
  obtain ⟨tailChildLog, rfl⟩ :
      ∃ tailChildLog, entry = (.request id req.toJson.print tailChildLog, some resp) := by
    obtain ⟨sec, answer⟩ := entry
    cases sec with
    | supervise f => simp [answerTo] at hentry
    | request owner line tailChildLog =>
        cases answer with
        | none => simp [answerTo] at hentry
        | some answer =>
            simp only [answerTo, Option.ite_none_right_eq_some, Option.some.injEq,
              Prod.mk.injEq] at hentry
            obtain ⟨rfl, rfl, rfl⟩ := hentry
            exact ⟨tailChildLog, rfl⟩
  refine ⟨before, tailChildLog, resp, after, hhistory, ?_, ?_, ?_⟩
  · intro entry hmem
    rcases List.mem_append.mp hmem with hmem | hmem
    · exact hbefore entry hmem
    · exact List.filterMap_eq_nil_iff.mp hafter entry hmem
  · rw [hhistory] at hlinear
    have hanswer := hlinear.answer_eq
    rw [run_request] at hanswer
    exact Option.some.inj hanswer
  · have hframe : conn.written = frame resp.toJson ++ [] := by
      rw [hwritten, hanswers, List.append_nil]
      simp [frames, frame, wireEndpoint]
    rw [hframe, readFrame_frame, Response.ofJson_toJson]

/-! ## Two clients -/

/-- The lines of a client that submits a request are text. -/
theorem submitted_valid (req : Request) :
    ∀ raw ∈ splitInclusive 10 (submitted (frame req.toJson)).incoming,
      (fromUtf8 raw).isSome = true := by
  have hsplit : splitInclusive 10 (frame req.toJson ++ []) = [frame req.toJson] := by
    rw [splitInclusive_frame, splitInclusive_nil]
  rw [List.append_nil] at hsplit
  change ∀ raw ∈ splitInclusive 10 (frame req.toJson), _
  rw [hsplit, List.forall_mem_singleton, fromUtf8_frame]
  rfl

/-- The second client can be served while the first one waits. -/
theorem connection_completes_muteAndStatus :
    ∃ s' conn', ReflTransGen (TaskStep quietEndpoint 1) muteAndStatus s' ∧
      (∀ other, other ≠ 1 → s'.conns other = muteAndStatus.conns other) ∧
      s'.conns 1 = some conn' ∧ conn'.phase = .closed ∧
      (answersTo 1 s'.history).map (fun answer => some answer.1) =
        (splitInclusive 10 (frame Request.status.toJson)).map lineText ∧
      conn'.written = frames quietEndpoint (answersTo 1 s'.history) :=
  connection_completes reachable_muteAndStatus (setConn_self _ 1 _) rfl
    (fun _ h => by cases h) (submitted_valid .status)

/-- The client that asked for the status reads the answer to that. -/
theorem concurrent_roundtrip_status :
    ∃ (s : Server) (conn : Conn), s.conns 1 = some conn ∧
      ∃ before tailChildLog resp after,
        s.history = before ++
          (.request 1 Request.status.toJson.print tailChildLog, some resp) :: after ∧
        (∀ entry ∈ before ++ after, answerTo 1 entry = none) ∧
        resp = (dispatch tailChildLog .status
          (sequential (Section.run quietEndpoint) (before.map Prod.fst) idleView).2).1 ∧
        readFrame Response.ofJson conn.written = some resp := by
  obtain ⟨s, hsteps, ⟨conn, hconn, hclosed, hsent⟩, -⟩ :=
    task_completes quietEndpoint (setConn_self _ 1 _) rfl (fun _ h => by cases h)
      (submitted_valid .status)
  exact ⟨s, conn, hconn, concurrent_roundtrip (fun _ _ => .ok [])
    (reachable_of_tasks reachable_muteAndStatus hsteps) hconn hclosed hsent⟩

end Wintermute
