import FlightProxy.Model.Session
import FlightProxy.Transition.Path

/-! # The bridge, away from the sockets

`Core` is the part of a session on which interception, leadership and notification depend, with the
history. The handlers of startup, and everything done about sockets and pending operations, leave it
alone up to entries of the history about startup; `Bridge` is what is left of the session's steps.
-/

namespace FlightProxy

/-- The fields of a session that the two loops share with QueryCache, and the history. -/
structure Core where
  client_handler : ClientHandler
  server_handler : ServerHandler
  current_query_ : Bytes
  calls : ℕ
  leading : ℕ
  log : List Action

/-- An entry about startup. -/
def Action.early : Action → Bool
  | .negotiate _ | .answer _ | .startup _ => true
  | _ => false

/-- The text that a client read hands to doSingleFlight, if it does. -/
def intercept (data : Bytes) : Option Bytes :=
  if data.head? = some query_type then some ((data.drop 5).takeWhile (· ≠ 0)) else none

namespace Core

def record (c : Core) (actions : List Action) : Core := { c with log := c.log ++ actions }

/-- What a step of a session does to its core. -/
inductive Bridge (c : Core) : SessionEvent → Core → Prop
  | quiet (e : SessionEvent) : Bridge c e c
  | early (e : SessionEvent) (action : Action) (early : action.early = true) :
      Bridge c e (c.record [action])
  /-- A read that is not classified as a query. -/
  | passes (data : Bytes) (fate : Fate) (idle : c.client_handler = .idle) (nonempty : data ≠ [])
      (other : intercept data = none) (unanswered : fate ≠ .answered) :
      Bridge c (.complete .client_read (.ok data)) (c.record [.read data none, .bridged data fate])
  /-- A read that is classified as a query. -/
  | asks (data sql_query : Bytes) (idle : c.client_handler = .idle) (nonempty : data ≠ [])
      (query : intercept data = some sql_query) :
      Bridge c (.complete .client_read (.ok data)) { c with
        client_handler := .calling sql_query data
        calls := c.calls + 1
        log := c.log ++ [.read data (some sql_query)] }
  | answered (sql_query data : Bytes) (result : QueryCache.FlightResult)
      (calling : c.client_handler = .calling sql_query data) (other : result ≠ .IS_LEADER) :
      Bridge c (.flight_result result) { c with
        client_handler := .idle
        log := c.log ++ [.bridged data .answered] }
  | leads (sql_query data : Bytes) (fate : Fate)
      (calling : c.client_handler = .calling sql_query data) (unanswered : fate ≠ .answered) :
      Bridge c (.flight_result .IS_LEADER) { c with
        client_handler := .idle
        current_query_ := sql_query
        leading := c.calls - 1
        log := c.log ++ [.bridged data fate] }
  | delivers (call : ℕ) (result : Bytes) (called : call < c.calls) :
      Bridge c (.on_result call result) (c.record [.on_result call result])
  /-- A server read while no query is led, which may be relayed. -/
  | responds (data : Bytes) (relayed : Bool) (idle : c.server_handler = .idle)
      (none : c.current_query_ = []) :
      Bridge c (.complete .server_read (.ok data))
        (c.record (.response data :: if relayed then [.relay data] else []))
  | notifies (data : Bytes) (idle : c.server_handler = .idle) (leading : c.current_query_ ≠ []) :
      Bridge c (.complete .server_read (.ok data)) { c with
        server_handler := .notifying c.leading c.current_query_ data
        log := c.log ++ [.response data, .notify c.current_query_ data] }
  | notified (call : ℕ) (query data : Bytes) (relayed : Bool)
      (notifying : c.server_handler = .notifying call query data) :
      Bridge c .notify_returned { c with
        server_handler := .idle
        current_query_ := []
        log := c.log ++ if relayed then [.relay data] else [] }

end Core

namespace Session

def core (s : Session) : Core :=
  ⟨s.client_handler, s.server_handler, s.current_query_, s.calls, s.leading, s.log⟩

variable (s : Session)

/-! ## Functions that leave the core alone -/

@[simp] theorem core_arm (op : Op) : (s.arm op).core = s.core := rfl

@[simp] theorem core_record (action : Action) :
    (s.record action).core = s.core.record [action] := rfl

@[simp] theorem core_close : s.close.core = s.core := by
  rw [close]
  split_ifs <;> rfl

@[simp] theorem core_failed (ec : ErrorCode) : (s.failed ec).core = s.core := by
  rw [failed]
  split_ifs
  · rfl
  · exact core_close s

@[simp] theorem core_connect_to_database (again : Bool) :
    (s.connect_to_database again).core = s.core := by
  rw [connect_to_database]
  split_ifs <;> rfl

@[simp] theorem core_start : s.start.core = s.core := by
  rw [start]
  split_ifs
  · rfl
  · rfl
  · exact core_connect_to_database s false

@[simp] theorem core_read_client_startup : s.read_client_startup.core = s.core := by
  rw [read_client_startup]
  split_ifs <;> rfl

@[simp] theorem core_read_client_startup_after_ssl :
    s.read_client_startup_after_ssl.core = s.core := by
  rw [read_client_startup_after_ssl]
  split_ifs <;> rfl

@[simp] theorem core_build_threw (building : Building) : (s.build_threw building).core = s.core := by
  cases building <;> rfl

@[simp] theorem core_bridge_client_to_server : s.bridge_client_to_server.core = s.core := by
  rw [bridge_client_to_server]
  split_ifs
  · rfl
  · rfl
  · rfl
  · exact core_close s

@[simp] theorem core_bridge_server_to_client : s.bridge_server_to_client.core = s.core := by
  rw [bridge_server_to_client]
  split_ifs
  · rfl
  · rfl
  · rfl
  · rfl
  · exact core_close s

theorem core_fail (ec : ErrorCode) (op : Op) : (s.fail ec op).core = s.core := by
  unfold fail
  split
  iterate 4 exact core_close s
  · rfl
  · split
    · simp only
      split_ifs
      · exact core_close { s with client_closed_ := true }
      · rfl
    · exact core_failed s ec
  · split
    · simp only
      split_ifs
      · exact core_close { s with server_closed_ := true }
      · rfl
    · exact core_failed s ec
  · exact core_failed s ec

/-! ## Functions that only record startup -/

/-- The core is as before, or has one more entry about startup. -/
def Early (s s' : Session) : Prop :=
  s'.core = s.core ∨ ∃ action, action.early = true ∧ s'.core = s.core.record [action]

theorem early_check_server_ssl_support : s.Early s.check_server_ssl_support := by
  rw [check_server_ssl_support]
  split_ifs
  · exact .inl rfl
  · split
    · exact .inl rfl
    · split_ifs
      · exact .inr ⟨_, rfl, rfl⟩
      · exact .inl (core_connect_to_database s true)

theorem early_handle_ssl_request : s.Early s.handle_ssl_request := by
  rw [handle_ssl_request]
  split_ifs
  · exact .inl rfl
  · exact .inl rfl
  · exact .inr ⟨_, rfl, rfl⟩

theorem early_perform_ssl_handshake : s.Early s.perform_ssl_handshake := by
  rw [perform_ssl_handshake]
  split_ifs
  · exact .inl rfl
  · exact .inl (core_close s)
  · exact .inr ⟨_, rfl, rfl⟩

theorem early_relay_to_server (length : ℕ) : s.Early (s.relay_to_server length) := by
  rw [relay_to_server]
  split_ifs
  · exact .inl rfl
  · exact .inl rfl
  · exact .inr ⟨_, rfl, rfl⟩

/-! ## The bridge -/

/-- Forwarding ends a read, whatever becomes of it. -/
theorem core_forward (data : Bytes) :
    ∃ fate, fate ≠ .answered ∧ (s.forward data).core = s.core.record [.bridged data fate] := by
  rw [forward]
  split_ifs
  · exact ⟨_, by simp, rfl⟩
  · exact ⟨_, by simp, rfl⟩
  · exact ⟨.no_socket, by simp, by rw [core_close, core_record]⟩

theorem core_relay (data : Bytes) :
    ∃ relayed : Bool, (s.relay data).core =
      s.core.record (if relayed then [.relay data] else []) := by
  have unrelayed : s.core = s.core.record [] := by
    simp [Core.record]
  rw [relay]
  split_ifs
  · exact ⟨false, unrelayed⟩
  · exact ⟨true, rfl⟩
  · exact ⟨true, rfl⟩
  · exact ⟨false, (core_close s).trans unrelayed⟩

theorem core_on_result (call : ℕ) (result : Bytes) :
    (s.on_result call result).core = s.core ∨
      (s.on_result call result).core = s.core.record [.on_result call result] := by
  rw [on_result]
  split_ifs
  · exact .inl rfl
  · simp only
    split_ifs
    · exact .inr rfl
    · exact .inr rfl
    · exact .inl rfl

/-- Only the bytes of the read matter to the interception, and not what the buffer held before. -/
theorem intercept_fill (buffer data : Bytes) (nonempty : 0 < data.length) :
    (if is_sql_query (fill buffer data) data.length then
      some (extract_sql_query (fill buffer data) data.length) else none) = intercept data := by
  have head : (fill buffer data).head? = data.head? := by
    cases data with
    | nil => contradiction
    | cons => rfl
  have extracted : extract_sql_query (fill buffer data) data.length =
      (data.drop 5).takeWhile (· ≠ 0) := by
    rw [extract_sql_query, fill, List.take_left]
    split_ifs with short
    · rw [List.drop_of_length_le (by omega)]
      rfl
    · rfl
  simp only [is_sql_query, head, extracted, nonempty, decide_true, Bool.true_and, beq_iff_eq, intercept]

theorem bridge_client_read {data : Bytes} (nonempty : 0 < data.length)
    (idle : s.client_handler = .idle) :
    Core.Bridge s.core (.complete .client_read (.ok data)) (s.client_read data).core := by
  have filled : data ≠ [] := List.length_pos_iff.mp nonempty
  have interception := intercept_fill s.client_buffer_ data nonempty
  rw [client_read]
  split_ifs with query
  · simp only at query
    rw [if_pos query] at interception
    exact .asks data _ idle filled interception.symm
  · simp only at query
    rw [if_neg query] at interception
    obtain ⟨fate, unanswered, after⟩ := core_forward
      (({ s with client_buffer_ := fill s.client_buffer_ data }).record (.read data none)) data
    rw [after, core_record]
    have passes := Core.Bridge.passes data fate (c := s.core) idle filled interception.symm unanswered
    simp only [Core.record, List.append_assoc] at passes ⊢
    exact passes

theorem bridge_server_read {data : Bytes} (idle : s.server_handler = .idle) :
    Core.Bridge s.core (.complete .server_read (.ok data)) (s.server_read data).core := by
  rw [server_read]
  simp only
  split_ifs with leading
  · have notifies := Core.Bridge.notifies data (c := s.core) idle leading
    simp only [core, record, List.append_assoc] at notifies ⊢
    exact notifies
  · obtain ⟨relayed, after⟩ := core_relay
      (({ s with server_buffer_ := fill s.server_buffer_ data }).record (.response data)) data
    rw [after, core_record]
    have responds := Core.Bridge.responds data relayed (c := s.core) idle (not_not.mp leading)
    simp only [Core.record, List.append_assoc] at responds ⊢
    exact responds

theorem bridge_flight_result {sql_query data : Bytes} (result : QueryCache.FlightResult)
    (calling : s.client_handler = .calling sql_query data) :
    Core.Bridge s.core (.flight_result result) (s.flight_result sql_query data result).core := by
  cases result with
  | CACHE_HIT => exact .answered sql_query data _ calling (by simp)
  | IS_WAITER => exact .answered sql_query data _ calling (by simp)
  | IS_LEADER =>
    rw [flight_result]
    obtain ⟨fate, unanswered, after⟩ := core_forward { s with
      client_handler := .idle, current_query_ := sql_query, leading := s.calls - 1 } data
    rw [after]
    exact .leads sql_query data fate calling unanswered

theorem bridge_notify_returned {call : ℕ} {query data : Bytes}
    (notifying : s.server_handler = .notifying call query data) :
    Core.Bridge s.core .notify_returned (s.notify_returned data).core := by
  rw [notify_returned]
  obtain ⟨relayed, after⟩ := core_relay
    { s with server_handler := .idle, current_query_ := [] } data
  rw [after]
  exact .notified call query data relayed notifying

variable {s} {s' : Session} {e : SessionEvent}

theorem Early.bridge (early : s.Early s') (e : SessionEvent) :
    Core.Bridge s.core e s'.core := by
  rcases early with same | ⟨action, early, recorded⟩
  · rw [same]
    exact .quiet e
  · rw [recorded]
    exact .early e action early

/-- The handlers of operations other than the two bridge reads keep to startup. -/
theorem early_succeed {data : Bytes} {op : Op} (client : op ≠ .client_read)
    (server : op ≠ .server_read) : s.Early (s.succeed data op) := by
  unfold succeed
  split
  · exact .inl rfl
  · simp only
    split_ifs
    · exact early_check_server_ssl_support { s with server_socket_ := some ⟨true⟩ }
    · exact .inl (core_read_client_startup { s with server_socket_ := some ⟨true⟩ })
  · simp only
    split_ifs
    · exact early_check_server_ssl_support { s with
        client_buffer_ := fill s.client_buffer_ data, startup_packet_ := data }
    · exact early_relay_to_server { s with client_buffer_ := fill s.client_buffer_ data } _
  · exact .inl rfl
  · split_ifs
    · exact early_perform_ssl_handshake s
    · exact early_handle_ssl_request s
  · exact early_relay_to_server s _
  · exact .inl rfl
  · split_ifs
    · exact .inl (core_close s)
    · exact .inl rfl
  · exact .inl (core_read_client_startup_after_ssl { s with ssl_enabled_ := true })
  · simp only
    split_ifs
    · exact .inl rfl
    · exact .inr ⟨_, rfl, rfl⟩
  · exact .inl (by rw [core_bridge_client_to_server, core_bridge_server_to_client])
  · exact .inl (by rw [core_bridge_server_to_client, core_bridge_client_to_server])
  · contradiction
  · exact .inl (core_bridge_client_to_server s)
  · exact .inl (core_bridge_client_to_server s)
  · contradiction
  · exact .inl (core_bridge_server_to_client s)

theorem complete_cases {op : Op} {completion : Completion}
    (taken : s.complete op completion = some s') :
    op ∈ s.pending ∧ s.free op = true ∧
      ((∃ data, completion = .ok data ∧ delivers op data = true ∧
          s' = (let s := { s with pending := s.pending.erase op }
            if s.is_destroying_ then s else s.succeed data op)) ∨
        ∃ ec, completion = .error ec ∧
          s' = (let s := { s with pending := s.pending.erase op }
            if s.is_destroying_ then s else s.fail ec op)) := by
  unfold complete at taken
  split_ifs at taken with ready
  refine ⟨ready.1, ready.2, ?_⟩
  cases completion with
  | ok data =>
    simp only at taken
    split_ifs at taken with delivered destroying
    · exact .inl ⟨data, rfl, delivered, by rw [if_pos destroying, Option.some.inj taken]⟩
    · exact .inl ⟨data, rfl, delivered, by rw [if_neg destroying, Option.some.inj taken]⟩
  | error ec => exact .inr ⟨ec, rfl, (Option.some.inj taken).symm⟩

/-- An operation that succeeded was pending, and its handler runs unless the session is closed. -/
theorem complete_ok_cases {op : Op} {data : Bytes} (taken : s.complete op (.ok data) = some s') :
    op ∈ s.pending ∧ s.free op = true ∧ delivers op data = true ∧
      s' = (let s := { s with pending := s.pending.erase op }
        if s.is_destroying_ then s else s.succeed data op) := by
  obtain ⟨present, free, ⟨data', same, delivered, after⟩ | ⟨ec, other, -⟩⟩ := complete_cases taken
  · obtain rfl := Completion.ok.inj same
    exact ⟨present, free, delivered, after⟩
  · contradiction

/-- In a closed session no handler does anything. -/
theorem core_of_closed {op : Op} {completion : Completion} (closed : s.is_destroying_ = true)
    (taken : s.complete op completion = some s') : s'.core = s.core := by
  obtain ⟨-, -, ⟨data, -, -, after⟩ | ⟨ec, -, after⟩⟩ := complete_cases taken
  · rw [after.trans (if_pos closed)]
    rfl
  · rw [after.trans (if_pos closed)]
    rfl

private theorem bridge_complete {op : Op} {completion : Completion}
    (taken : s.complete op completion = some s') :
    Core.Bridge s.core (.complete op completion) s'.core := by
  obtain ⟨-, free, ⟨data, rfl, delivered, rfl⟩ | ⟨ec, rfl, rfl⟩⟩ := complete_cases taken
  · simp only
    split_ifs
    · exact .quiet _
    · by_cases client : op = .client_read
      · subst client
        simp only [delivers, Bool.and_eq_true, decide_eq_true_eq] at delivered
        exact bridge_client_read { s with pending := s.pending.erase .client_read } delivered.1
          (of_decide_eq_true free)
      · by_cases server : op = .server_read
        · subst server
          exact bridge_server_read { s with pending := s.pending.erase .server_read }
            (of_decide_eq_true free)
        · exact (early_succeed (s := { s with pending := s.pending.erase op }) client server).bridge _
  · simp only
    split_ifs
    · exact .quiet _
    · rw [core_fail]
      exact .quiet _

/-- Every step of a session is a step of the bridge. -/
theorem bridge_of_step (taken : s.step? e = some s') : Core.Bridge s.core e s'.core := by
  cases e with
  | start =>
    simp only [step?] at taken
    split_ifs at taken
    obtain rfl := Option.some.inj taken
    rw [core_start]
    exact .quiet _
  | complete op completion => exact bridge_complete taken
  | threw building =>
    simp only [step?, threw] at taken
    split_ifs at taken
    all_goals
      obtain rfl := Option.some.inj taken
      first
      | exact .quiet _
      | (rw [core_close, core_build_threw]; exact .quiet _)
  | flight_result result =>
    simp only [step?] at taken
    split at taken
    · next sql_query data calling =>
      obtain rfl := Option.some.inj taken
      exact bridge_flight_result s result calling
    · contradiction
  | on_result call result =>
    simp only [step?] at taken
    split_ifs at taken with alive
    obtain rfl := Option.some.inj taken
    rcases core_on_result s call result with same | delivered
    · rw [same]
      exact .quiet _
    · rw [delivered]
      exact .delivers call result alive.2
  | notify_returned =>
    simp only [step?] at taken
    split at taken
    · next call query data notifying =>
      obtain rfl := Option.some.inj taken
      exact bridge_notify_returned s notifying
    · contradiction
  | destroy =>
    simp only [step?, destroy] at taken
    split_ifs at taken
    obtain rfl := Option.some.inj taken
    exact .quiet _

/-! ## A session being destroyed -/

theorem destroying_close : s.close.is_destroying_ = true := by
  rw [close]
  split_ifs with destroying
  · exact destroying
  · rfl

theorem destroying_forward (destroying : s.is_destroying_ = true) (data : Bytes) :
    (s.forward data).is_destroying_ = true := by
  rw [forward]
  split_ifs
  · exact destroying
  · exact destroying
  · exact destroying_close

theorem destroying_relay (destroying : s.is_destroying_ = true) (data : Bytes) :
    (s.relay data).is_destroying_ = true := by
  rw [relay]
  split_ifs
  · exact destroying
  · exact destroying
  · exact destroying
  · exact destroying_close

/-- A session that is being destroyed stays so. -/
theorem destroying_of_step (destroying : s.is_destroying_ = true) (taken : s.step? e = some s') :
    s'.is_destroying_ = true := by
  cases e with
  | start =>
    simp only [step?, start, destroying, ↓reduceIte] at taken
    split_ifs at taken
    obtain rfl := Option.some.inj taken
    rfl
  | complete op completion =>
    obtain ⟨-, -, ⟨data, -, -, rfl⟩ | ⟨ec, -, rfl⟩⟩ := complete_cases taken
    · simp only [destroying, ↓reduceIte]
    · simp only [destroying, ↓reduceIte]
  | threw building =>
    simp only [step?, threw, destroying, ↓reduceIte] at taken
    split_ifs at taken
    obtain rfl := Option.some.inj taken
    rfl
  | flight_result result =>
    simp only [step?] at taken
    split at taken
    · next sql_query data calling =>
      obtain rfl := Option.some.inj taken
      cases result with
      | CACHE_HIT => exact destroying
      | IS_WAITER => exact destroying
      | IS_LEADER => exact destroying_forward (by exact destroying) data
    · contradiction
  | on_result call result =>
    simp only [step?, on_result, destroying, ↓reduceIte] at taken
    split_ifs at taken
    obtain rfl := Option.some.inj taken
    exact destroying
  | notify_returned =>
    simp only [step?] at taken
    split at taken
    · next call query data notifying =>
      obtain rfl := Option.some.inj taken
      exact destroying_relay (by exact destroying) data
    · contradiction
  | destroy =>
    simp only [step?, destroy] at taken
    split_ifs at taken
    obtain rfl := Option.some.inj taken
    rfl

end Session

end FlightProxy
