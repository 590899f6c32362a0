import FlightProxy.Framing.Split
import FlightProxy.Session.History
import FlightProxy.Session.Lane

/-! # Whose answer a session notifies

The server cuts what the session forwards into requests and answers them in order; the session only
remembers `current_query_`, and takes the next read from the server for its answer. That is right
when the leading read starts a request whose text it holds, after everything before it has been
answered, and the read that is notified ends within that answer.
-/

namespace FlightProxy

open Transition Framing

/-- The length of a message, type byte included, once its length field is there. -/
def frame_size : Bytes → Option ℕ
  | _ :: a :: b :: c :: d :: _ =>
    let length := ((a.toNat * 256 + b.toNat) * 256 + c.toNat) * 256 + d.toNat
    if 4 ≤ length then some (length + 1) else none
  | _ => none

theorem stable_frame_size : Stable frame_size := by
  intro stream rest n known
  match stream, known with
  | _ :: _ :: _ :: _ :: _ :: _, known => exact known

/-- A server connection: the untyped startup traffic, of a given length, is request 0, and every
message after it is a request. The `k`-th request is answered by `answer k`. -/
structure Server where
  startup : ℕ
  answer : ℕ → Bytes

namespace Server

variable (server : Server)

/-- The requests that the bytes received so far complete. -/
def requests (stream : Bytes) : List Bytes :=
  if server.startup ≤ stream.length then
    stream.take server.startup :: frames frame_size (stream.drop server.startup)
  else []

/-- The answers to the first `k` requests. -/
def output (k : ℕ) : Bytes := (List.range k).flatMap server.answer

theorem output_succ (k : ℕ) : server.output (k + 1) = server.output k ++ server.answer k := by
  rw [output, List.range_succ, List.flatMap_append, List.flatMap_singleton, ← output]

variable {server} {stream rest : Bytes}

theorem output_prefix {n k : ℕ} (le : n ≤ k) : server.output n <+: server.output k := by
  obtain ⟨more, rfl⟩ := Nat.exists_eq_add_of_le le
  induction more with
  | zero => exact List.prefix_refl _
  | succ more ih =>
    rw [← Nat.add_assoc, output_succ]
    exact (ih (Nat.le_add_right ..)).trans (List.prefix_append ..)

theorem requests_prefix : server.requests stream <+: server.requests (stream ++ rest) := by
  rw [requests]
  split_ifs with started
  · rw [requests, if_pos (by rw [List.length_append]; omega), List.take_append_of_le_length started,
      List.drop_append_of_le_length started]
    exact List.cons_prefix_cons.mpr ⟨rfl, frames_prefix stable_frame_size⟩
  · exact List.nil_prefix

theorem requests_get {k : ℕ} {frame : Bytes} (present : (server.requests stream)[k]? = some frame) :
    (server.requests (stream ++ rest))[k]? = some frame := by
  have grows : server.requests stream <+: server.requests (stream ++ rest) := requests_prefix
  obtain ⟨more, grown⟩ := grows
  rw [← grown, List.getElem?_append_left, present]
  exact (List.getElem?_eq_some_iff.mp present).1

end Server

/-- What the session has sent to the server since the stream was chosen. -/
def to_server (log : List Action) : Bytes :=
  log.flatMap fun
    | .startup data | .bridged data .forwarded => data
    | _ => []

/-- What the bridge has read from the server. -/
def from_server (log : List Action) : Bytes := (responses log).flatten

@[simp] theorem to_server_append (first second : List Action) :
    to_server (first ++ second) = to_server first ++ to_server second :=
  List.flatMap_append ..

@[simp] theorem from_server_append (first second : List Action) :
    from_server (first ++ second) = from_server first ++ from_server second := by
  rw [from_server, responses_append, List.flatten_append, ← from_server, ← from_server]

namespace Session

/-- The read that the session's handler forwards reaches the server. -/
def reaches_server (s : Session) : Bool :=
  !s.server_closed_ && (s.isServerSslEnabled || s.getServerSocket.isSome)

/-- The server answers in order: a read from it continues its answers to the requests it has
received, every Query of which it answers with something. -/
def Answers (server : Server) (s : Session) : SessionEvent → Prop
  | .complete .server_read (.ok data) =>
    from_server s.log ++ data <+: server.output (server.requests (to_server s.log)).length ∧
      ∀ k frame, (server.requests (to_server s.log))[k]? = some frame → intercept frame ≠ none →
        server.answer k ≠ []
  | _ => True

/-- A read that makes the session leader starts a request of the stream that goes to the server,
which is a Query of the text handed over, when everything before it is complete and answered; and a
read of the answer ends within the answer it begins in. -/
def Orderly (server : Server) (upstream : Bytes) (s : Session) : SessionEvent → Prop
  | .flight_result .IS_LEADER => ∀ sql_query data, s.client_handler = .calling sql_query data →
    sql_query ≠ [] → s.reaches_server = true →
      ∃ k frame, 0 < k ∧ (server.requests upstream)[k]? = some frame ∧
        ((server.requests upstream).take k).flatten = to_server s.log ∧
        (from_server s.log).length = (server.output k).length ∧
        intercept frame = some sql_query
  | .complete .server_read (.ok data) => s.current_query_ ≠ [] → ∀ k,
    (server.output k).length ≤ (from_server s.log).length →
      (from_server s.log).length < (server.output (k + 1)).length →
        (from_server s.log ++ data).length ≤ (server.output (k + 1)).length
  | _ => True

/-- Bytes that continue what was read before are part of the server's answer to a Query of that
text. -/
def Attributed (server : Server) (s : Session) (query result : Bytes) : Prop :=
  ∃ k frame start, (server.requests (to_server s.log))[k]? = some frame ∧ 0 < k ∧
    intercept frame = some query ∧
    (from_server s.log).length = (server.output k).length + start ∧
    result <+: (server.answer k).drop start

/-- The query that the session leads is the request whose answer comes next. -/
def Awaiting (server : Server) (upstream : Bytes) (s : Session) : Prop :=
  ∃ k frame, 0 < k ∧ (server.requests upstream)[k]? = some frame ∧
    (from_server s.log).length = (server.output k).length ∧
    intercept frame = some s.current_query_

/-- While a query is led and not notified, its answer comes next, unless no read from the server
will be handled any more. -/
def Ready (server : Server) (upstream : Bytes) (s : Session) : Prop :=
  s.server_handler = .idle → s.current_query_ ≠ [] →
    s.is_destroying_ = true ∨ s.load = 0 ∨ s.Awaiting server upstream

variable {server : Server} {upstream : Bytes} {s s' : Session} {e : SessionEvent}

/-- Steps that keep the query and read nothing from the server keep its place in the answers. -/
private theorem Ready.kept (ready : s.Ready server upstream) (taken : s.step? e = some s')
    {news : List Action} (history : s'.log = s.log ++ news) (unread : responses news = [])
    (handler : s'.server_handler = s.server_handler)
    (query : s'.current_query_ = s.current_query_) : s'.Ready server upstream := by
  intro idle leading
  rw [handler] at idle
  rw [query] at leading
  rcases ready idle leading with destroying | ended | ⟨k, frame, positive, present, place, named⟩
  · exact .inl (destroying_of_step destroying taken)
  · exact .inr (.inl (Nat.le_zero.mp (ended ▸ (eased_of_step taken).load)))
  · refine .inr (.inr ⟨k, frame, positive, present, ?_, ?_⟩)
    · rw [history, from_server_append, from_server, from_server, unread, List.flatten_nil,
        List.append_nil, ← place]
      rfl
    · rw [query, named]

/-- A read that is not forwarded leaves a session that hears no more of the server. -/
theorem forward_log (s : Session) (data : Bytes) :
    (s.reaches_server = true ∧ (s.forward data).log = s.log ++ [.bridged data .forwarded]) ∨
      ((s.server_closed_ = true ∨ (s.forward data).is_destroying_ = true) ∧
        ∃ fate, fate ≠ .forwarded ∧ (s.forward data).log = s.log ++ [.bridged data fate]) := by
  rw [forward, reaches_server]
  split_ifs with closed reachable
  · exact .inr ⟨.inl closed, .server_closed, by simp, rfl⟩
  · refine .inl ⟨?_, rfl⟩
    rw [Bool.eq_false_iff.mpr closed, reachable]
    rfl
  · refine .inr ⟨.inr destroying_close, .no_socket, by simp, ?_⟩
    exact congrArg Core.log (core_close _)

/-- A leading read that is forwarded makes its query the next request. -/
private theorem Ready.leads (serial : s.Serial) {sql_query data : Bytes}
    (calling : s.client_handler = .calling sql_query data)
    (orderly : s.Orderly server upstream (.flight_result .IS_LEADER))
    (taken : s.step? (.flight_result .IS_LEADER) = some s') : s'.Ready server upstream := by
  simp only [step?, calling] at taken
  obtain rfl := Option.some.inj taken
  have adds := adds_flight_result s sql_query data .IS_LEADER
  simp only [flight_result] at adds ⊢
  obtain ⟨fate, -, after⟩ := core_forward { s with
    client_handler := .idle, current_query_ := sql_query, leading := s.calls - 1 } data
  have query := congrArg Core.current_query_ after
  simp only [core, Core.record] at query
  intro _ leading
  rw [query] at leading
  rcases forward_log { s with
    client_handler := .idle, current_query_ := sql_query, leading := s.calls - 1 } data with
    ⟨reaches, history⟩ | ⟨ended | destroying, fate, unforwarded, history⟩
  · obtain ⟨k, frame, positive, present, -, place, named⟩ :=
      orderly sql_query data calling leading reaches
    refine .inr (.inr ⟨k, frame, positive, present, ?_, ?_⟩)
    · have unread : from_server [.bridged data .forwarded] = [] := rfl
      rw [history, from_server_append, unread, List.append_nil, place]
    · rw [query, named]
  · refine .inr (.inl (Nat.le_zero.mp ?_))
    have load := adds.load
    rw [serial.ended ended] at load
    exact load
  · exact .inl destroying

/-- Away from a leading read, a step that touches the core keeps the query or notifies it. -/
theorem Ready.step (serial : s.Serial) (ready : s.Ready server upstream)
    (orderly : s.Orderly server upstream e) (taken : s.step? e = some s') :
    s'.Ready server upstream := by
  have bridge := bridge_of_step taken
  generalize after : s'.core = core' at bridge
  have log := congrArg Core.log after
  have handler := congrArg Core.server_handler after
  have query := congrArg Core.current_query_ after
  cases bridge with
  | quiet e => exact ready.kept taken (log.trans (List.append_nil _).symm) rfl handler query
  | early e action early =>
    exact ready.kept taken log (Core.early_projections early).2.1 handler query
  | passes data fate => exact ready.kept taken log rfl handler query
  | asks data sql_query => exact ready.kept taken log rfl handler query
  | answered sql_query data result => exact ready.kept taken log rfl handler query
  | leads sql_query data fate calling => exact Ready.leads serial calling orderly taken
  | delivers call result => exact ready.kept taken log rfl handler query
  | responds data relayed idle none =>
    intro _ leading
    exact absurd (query.trans none) leading
  | notifies data idle leading =>
    intro idle'
    have busy := idle'.symm.trans handler
    contradiction
  | notified call' query' data relayed =>
    intro _ leading
    exact absurd query leading

/-- Only a read from the server, while a query is led, enters notifyFlightResult. -/
theorem notify_cases {call : ℕ} {query result : Bytes} (taken : s.step? e = some s')
    (idle : s.server_handler = .idle) (notifies : s'.server_handler = .notifying call query result) :
    e = .complete .server_read (.ok result) ∧ query = s.current_query_ ∧ s.current_query_ ≠ [] ∧
      .server_read ∈ s.pending ∧ s.is_destroying_ = false := by
  have bridge := bridge_of_step taken
  generalize after : s'.core = core' at bridge
  have handler := congrArg Core.server_handler after
  have moved : s.server_handler = s'.server_handler → False := by
    intro same
    rw [idle, notifies] at same
    contradiction
  cases bridge with
  | notifies data _ leading =>
    obtain ⟨rfl, rfl, rfl⟩ := ServerHandler.notifying.inj (notifies.symm.trans handler)
    have completed : s.complete .server_read (.ok result) = some s' := taken
    obtain ⟨present, -⟩ := complete_cases completed
    refine ⟨rfl, rfl, leading, present, Bool.eq_false_iff.mpr fun destroying => ?_⟩
    exact moved (congrArg Core.server_handler (core_of_closed destroying completed)).symm
  | notified call' query' data relayed notifying =>
    have busy := idle.symm.trans notifying
    contradiction
  | _ => exact (moved handler.symm).elim

/-- Bytes read from where an answer starts to where it ends at most are a beginning of it. -/
private theorem prefix_answer {before data : Bytes} {k n : ℕ}
    (continues : before ++ data <+: server.output n) (request : k < n)
    (place : before.length = (server.output k).length)
    (within : (before ++ data).length ≤ (server.output (k + 1)).length) :
    data <+: server.answer k := by
  have earlier : server.output (k + 1) <+: server.output n := server.output_prefix request
  have inside := List.prefix_of_prefix_length_le continues earlier within
  rw [Server.output_succ] at inside
  obtain ⟨more, same⟩ := inside
  rw [List.append_assoc] at same
  exact ⟨more, (List.append_inj same place).2⟩

/-- When the server answers in order and the client is orderly, every call of notifyFlightResult
passes bytes that the server sent in answer to that query. `upstream` is what the session sends to the
server in this run, and may go on after it. -/
theorem attributed_of_notify {es : List SessionEvent} {call : ℕ} {query result : Bytes}
    (run : Path step? (fun s e => s.Answers server e ∧ s.Orderly server upstream e) {} es s)
    (sends : to_server s.log <+: upstream) (answers : s.Answers server e)
    (orderly : s.Orderly server upstream e) (taken : s.step? e = some s')
    (idle : s.server_handler = .idle) (notifies : s'.server_handler = .notifying call query result) :
    s.Attributed server query result := by
  have invariants := run.preserves (I := fun s => s.Serial ∧ s.Ready server upstream)
    ⟨serial_init, fun _ leading => absurd rfl leading⟩ ?_
  · obtain ⟨serial, ready⟩ := invariants
    obtain ⟨rfl, rfl, leading, present, alive⟩ := notify_cases taken idle notifies
    have completed : s.complete .server_read (.ok result) = some s' := taken
    obtain ⟨-, -, delivered, -⟩ := complete_ok_cases completed
    simp only [delivers, Bool.and_eq_true, decide_eq_true_eq] at delivered
    obtain ⟨continues, replies⟩ := answers
    rcases ready idle leading with destroying | ended | ⟨k, frame, positive, request, place, named⟩
    · rw [alive] at destroying
      contradiction
    · have busy := load_pos_of_server_read present
      omega
    · -- the answer has begun, so the server has received the whole of the request
      have length := continues.length_le
      rw [List.length_append] at length
      have received : k < (server.requests (to_server s.log)).length := by
        by_contra short
        have earlier := (server.output_prefix (Nat.not_lt.mp short)).length_le
        omega
      have same : (server.requests (to_server s.log))[k]? = some frame := by
        obtain ⟨more, rfl⟩ := sends
        rw [List.getElem?_eq_getElem received, ← request]
        exact (Server.requests_get (List.getElem?_eq_getElem received)).symm
      have answered := List.length_pos_iff.mpr (replies k frame same (by rw [named]; simp))
      have next := congrArg List.length (server.output_succ k)
      rw [List.length_append] at next
      have within := orderly leading k (by omega) (by omega)
      refine ⟨k, frame, 0, same, positive, named, place, ?_⟩
      rw [List.drop_zero]
      exact prefix_answer continues received place within
  · rintro s e s' ⟨serial, ready⟩ ⟨-, orderly⟩ taken
    exact ⟨serial.step taken, ready.step serial orderly taken⟩

/-- A server that answers its `k`-th request with the byte `k`. -/
def numbered : Server := ⟨8, fun k => [UInt8.ofNat k]⟩

/-- The client sends a second query before the answer to the first has arrived, and leads both. -/
def overtaken : List SessionEvent :=
  connected ++ [.complete .server_read (.ok [0x00]), .complete (.client_write [0x00]) (.ok []),
    .complete .client_read (.ok [0x51, 0x00, 0x00, 0x00, 0x06, 0x71, 0x00]),
    .flight_result .IS_LEADER,
    .complete (.server_write [0x51, 0x00, 0x00, 0x00, 0x06, 0x71, 0x00]) (.ok []),
    .complete .client_read (.ok [0x51, 0x00, 0x00, 0x00, 0x06, 0x72, 0x00]),
    .flight_result .IS_LEADER]

/-- After `overtaken` the answer to the first query is notified for the second. -/
theorem not_attributed_of_notify :
    ¬ ∀ (server : Server) (es : List SessionEvent) (s s' : Session) (e : SessionEvent)
      (call : ℕ) (query result : Bytes), Path step? (Answers server) {} es s → s.Answers server e →
      s.step? e = some s' → s.server_handler = .idle →
      s'.server_handler = .notifying call query result → s.Attributed server query result := by
  intro attributed
  have answered : ∀ k : ℕ, numbered.answer k ≠ [] := fun _ => List.cons_ne_nil _ _
  have run : ∃ s s' : Session, Path step? (Answers numbered) {} overtaken s ∧
      s.Answers numbered (.complete .server_read (.ok [0x01])) ∧
      s.step? (.complete .server_read (.ok [0x01])) = some s' ∧ s.server_handler = .idle ∧
      s'.server_handler = .notifying 1 [0x72] [0x01] ∧
      numbered.requests (to_server s.log) = [plain_startup,
        [0x51, 0x00, 0x00, 0x00, 0x06, 0x71, 0x00], [0x51, 0x00, 0x00, 0x00, 0x06, 0x72, 0x00]] :=
    ⟨_, _, .cons trivial rfl (.cons trivial rfl (.cons trivial rfl (.cons trivial rfl
      (.cons trivial rfl (.cons ⟨⟨[], by decide +kernel⟩, fun k _ _ _ => answered k⟩ rfl
        (.cons trivial rfl (.cons trivial rfl (.cons trivial rfl (.cons trivial rfl
          (.cons trivial rfl (.cons trivial rfl (.nil _)))))))))))),
      ⟨⟨[0x02], by decide +kernel⟩, fun k _ _ _ => answered k⟩, rfl, rfl, rfl, by decide +kernel⟩
  obtain ⟨s, s', path, answers, taken, idle, notifies, requests⟩ := run
  obtain ⟨k, frame, start, present, positive, named, -, part⟩ :=
    attributed numbered _ s s' _ _ _ _ path answers taken idle notifies
  rw [requests] at present
  match k, positive, present with
  | 1, _, present =>
    cases present
    contradiction
  | 2, _, present =>
    have found := part.subset List.mem_cons_self
    have here := List.mem_of_mem_drop found
    exact absurd here (by decide)

/-- The read that leads ends with the text of its query, and the NUL follows in a read of its own. -/
theorem attributed_of_notify_run :
    ∃ s : Session, s.Attributed numbered [0x71] [0x01] := by
  let upstream : Bytes := plain_startup ++ [0x51, 0x00, 0x00, 0x00, 0x06, 0x71, 0x00]
  have answered : ∀ k : ℕ, numbered.answer k ≠ [] := fun _ => List.cons_ne_nil _ _
  have bytewise : ∀ (before : Bytes) (k : ℕ), before.length < (numbered.output (k + 1)).length →
      (before ++ [0x01]).length ≤ (numbered.output (k + 1)).length := by
    intro before k high
    rw [List.length_append]
    exact high
  have run : ∃ s s' : Session, Path step?
      (fun s e => s.Answers numbered e ∧ s.Orderly numbered upstream e) {}
      (connected ++ [.complete .server_read (.ok [0x00]), .complete (.client_write [0x00]) (.ok []),
        .complete .client_read (.ok [0x51, 0x00, 0x00, 0x00, 0x06, 0x71]),
        .flight_result .IS_LEADER,
        .complete (.server_write [0x51, 0x00, 0x00, 0x00, 0x06, 0x71]) (.ok []),
        .complete .client_read (.ok [0x00])]) s ∧
      to_server s.log = upstream ∧
      s.Answers numbered (.complete .server_read (.ok [0x01])) ∧
      s.Orderly numbered upstream (.complete .server_read (.ok [0x01])) ∧
      s.step? (.complete .server_read (.ok [0x01])) = some s' ∧ s.server_handler = .idle ∧
      s'.server_handler = .notifying 0 [0x71] [0x01] := by
    refine ⟨_, _, .cons ⟨trivial, trivial⟩ rfl (.cons ⟨trivial, trivial⟩ rfl
      (.cons ⟨trivial, trivial⟩ rfl (.cons ⟨trivial, trivial⟩ rfl (.cons ⟨trivial, trivial⟩ rfl
        (.cons ⟨⟨⟨[], by decide +kernel⟩, fun k _ _ _ => answered k⟩,
          fun leading => absurd rfl leading⟩ rfl
          (.cons ⟨trivial, trivial⟩ rfl (.cons ⟨trivial, trivial⟩ rfl
            (.cons ⟨trivial, ?_⟩ rfl (.cons ⟨trivial, trivial⟩ rfl
              (.cons ⟨trivial, trivial⟩ rfl (.nil _))))))))))),
      by decide +kernel, ⟨⟨[], by decide +kernel⟩, fun k _ _ _ => answered k⟩, ?_, rfl, rfl, rfl⟩
    · intro sql_query data calling _ _
      cases calling
      exact ⟨1, [0x51, 0x00, 0x00, 0x00, 0x06, 0x71, 0x00], Nat.one_pos, by decide +kernel,
        by decide +kernel, by decide +kernel, by decide +kernel⟩
    · exact fun _ k _ high => bytewise _ k high
  obtain ⟨s, s', path, sends, answers, orderly, taken, idle, notifies⟩ := run
  exact ⟨s, attributed_of_notify path (sends ▸ List.prefix_refl _) answers orderly taken idle notifies⟩

end Session

end FlightProxy
