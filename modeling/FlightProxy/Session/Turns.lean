import FlightProxy.Session.Stages

/-! # What a step arms

`Turn` is the bridge with the pending operations: besides the core it says which operation ends with
a step and which one the step arms, so that the tokens of the two loops can be followed.
-/

namespace FlightProxy

/-- What a step of a session does to its core and to its pending operations. -/
inductive Turn (c : Core) (ops : List Op) : SessionEvent → Core → List Op → Prop
  | quiet (e : SessionEvent) (own : ∀ op completion, e ≠ .complete op completion) : Turn c ops e c ops
  | starts : Turn c ops .start c (ops ++ [.resolve false])
  /-- An operation ends, and its handler arms nothing. -/
  | ends (op : Op) (completion : Completion) (present : op ∈ ops) :
      Turn c ops (.complete op completion) c (ops.erase op)
  | threw (building : Building) : Turn c ops (.threw building) c (ops.erase .write_S)
  /-- Startup goes on with its next operation. -/
  | hands_on (op : Op) (data : Bytes) (next : Op) (actions : List Action) (present : op ∈ ops)
      (startup : op.bridges = false) (startup' : next.stage ≠ .bridging)
      (early : ∀ action ∈ actions, action.early = true) :
      Turn c ops (.complete op (.ok data)) (c.record actions) (ops.erase op ++ [next])
  /-- Startup is over, and the loops start that can. -/
  | begins (op : Op) (data : Bytes) (loops : List Op) (present : op ∈ ops)
      (startup : op.stage ≠ .bridging) (last : op.bridges = true) (once : loops.Nodup)
      (loop : ∀ next ∈ loops, next = .client_read ∨ next = .server_read) :
      Turn c ops (.complete op (.ok data)) c (ops.erase op ++ loops)
  | reads_client (op : Op) (data : Bytes) (present : op ∈ ops)
      (written : (∃ bytes, op = .server_write bytes) ∨ ∃ bytes, op = .response_write bytes) :
      Turn c ops (.complete op (.ok data)) c (ops.erase op ++ [.client_read])
  | reads_server (bytes data : Bytes) (present : .client_write bytes ∈ ops) :
      Turn c ops (.complete (.client_write bytes) (.ok data)) c
        (ops.erase (.client_write bytes) ++ [.server_read])
  /-- A client read that is not classified as a query. -/
  | passes (data : Bytes) (fate : Fate) (present : .client_read ∈ ops)
      (idle : c.client_handler = .idle) (nonempty : data ≠ []) (other : intercept data = none)
      (unanswered : fate ≠ .answered) :
      Turn c ops (.complete .client_read (.ok data)) (c.record [.read data none, .bridged data fate])
        (ops.erase .client_read ++ if fate = .forwarded then [.server_write data] else [])
  /-- A client read that is classified as a query. -/
  | asks (data sql_query : Bytes) (present : .client_read ∈ ops) (idle : c.client_handler = .idle)
      (nonempty : data ≠ []) (query : intercept data = some sql_query) :
      Turn c ops (.complete .client_read (.ok data)) { c with
        client_handler := .calling sql_query data
        calls := c.calls + 1
        log := c.log ++ [.read data (some sql_query)] } (ops.erase .client_read)
  | answered (sql_query data : Bytes) (result : QueryCache.FlightResult)
      (calling : c.client_handler = .calling sql_query data) (other : result ≠ .IS_LEADER) :
      Turn c ops (.flight_result result) { c with
        client_handler := .idle
        log := c.log ++ [.bridged data .answered] } ops
  | leads (sql_query data : Bytes) (fate : Fate)
      (calling : c.client_handler = .calling sql_query data) (unanswered : fate ≠ .answered) :
      Turn c ops (.flight_result .IS_LEADER) { c with
        client_handler := .idle
        current_query_ := sql_query
        leading := c.calls - 1
        log := c.log ++ [.bridged data fate] }
        (ops ++ if fate = .forwarded then [.server_write data] else [])
  | delivers (call : ℕ) (result : Bytes) (called : call < c.calls) :
      Turn c ops (.on_result call result) (c.record [.on_result call result])
        (ops ++ [.response_write result])
  /-- A server read while no query is led, which may be relayed. -/
  | responds (data : Bytes) (relayed : Bool) (present : .server_read ∈ ops)
      (idle : c.server_handler = .idle) (none : c.current_query_ = []) :
      Turn c ops (.complete .server_read (.ok data))
        (c.record (.response data :: if relayed then [.relay data] else []))
        (ops.erase .server_read ++ if relayed then [.client_write data] else [])
  | notifies (data : Bytes) (present : .server_read ∈ ops) (idle : c.server_handler = .idle)
      (leading : c.current_query_ ≠ []) :
      Turn c ops (.complete .server_read (.ok data)) { c with
        server_handler := .notifying c.leading c.current_query_ data
        log := c.log ++ [.response data, .notify c.current_query_ data] } (ops.erase .server_read)
  | notified (call : ℕ) (query data : Bytes) (relayed : Bool)
      (notifying : c.server_handler = .notifying call query data) :
      Turn c ops .notify_returned { c with
        server_handler := .idle
        current_query_ := []
        log := c.log ++ if relayed then [.relay data] else [] }
        (ops ++ if relayed then [.client_write data] else [])

namespace Session

variable (s : Session)

@[simp] theorem pending_close : s.close.pending = s.pending := (close_kept s).1

/-- A function of startup does nothing, or arms one operation and may record something. -/
def HandsOn (s' : Session) : Prop :=
  (s'.core = s.core ∧ s'.pending = s.pending) ∨
    ∃ next actions, next.stage ≠ .bridging ∧ (∀ action ∈ actions, action.early = true) ∧
      s'.core = s.core.record actions ∧ s'.pending = s.pending ++ [next]

variable {s} {s' u : Session}

theorem HandsOn.silent (core : s'.core = s.core) {next : Op} (startup : next.stage ≠ .bridging)
    (pending : s'.pending = s.pending ++ [next]) : s.HandsOn s' := by
  refine .inr ⟨next, [], startup, fun _ member => absurd member List.not_mem_nil, ?_, pending⟩
  rw [core, Core.record, List.append_nil]

theorem HandsOn.recorded {action : Action} (early : action.early = true)
    (core : s'.core = s.core.record [action]) {next : Op} (startup : next.stage ≠ .bridging)
    (pending : s'.pending = s.pending ++ [next]) : s.HandsOn s' := by
  refine .inr ⟨next, [action], startup, fun other member => ?_, core, pending⟩
  rw [List.mem_singleton.mp member]
  exact early

/-- Other fields may change before. -/
theorem HandsOn.after (hands_on : u.HandsOn s') (core : u.core = s.core)
    (pending : u.pending = s.pending) : s.HandsOn s' := by
  rcases hands_on with ⟨same, same'⟩ | ⟨next, actions, startup, early, same, same'⟩
  · exact .inl ⟨same.trans core, same'.trans pending⟩
  · exact .inr ⟨next, actions, startup, early, by rw [same, core], by rw [same', pending]⟩

variable (s)

theorem hands_on_connect_to_database (again : Bool) : s.HandsOn (s.connect_to_database again) := by
  rw [connect_to_database]
  split_ifs
  · exact .inl ⟨rfl, rfl⟩
  · exact .silent rfl (by simp [Op.stage]) rfl

theorem hands_on_read_client_startup : s.HandsOn s.read_client_startup := by
  rw [read_client_startup]
  split_ifs
  · exact .inl ⟨rfl, rfl⟩
  · exact .inl ⟨rfl, rfl⟩
  · exact .silent rfl (by simp [Op.stage]) rfl

theorem hands_on_read_client_startup_after_ssl : s.HandsOn s.read_client_startup_after_ssl := by
  rw [read_client_startup_after_ssl]
  split_ifs
  · exact .inl ⟨rfl, rfl⟩
  · exact .inl ⟨rfl, rfl⟩
  · exact .silent rfl (by simp [Op.stage]) rfl

theorem hands_on_check_server_ssl_support : s.HandsOn s.check_server_ssl_support := by
  rw [check_server_ssl_support]
  split_ifs
  · exact .inl ⟨rfl, rfl⟩
  · split
    · exact .inl ⟨rfl, rfl⟩
    · split_ifs
      · exact .recorded rfl rfl (by simp [Op.stage]) rfl
      · exact hands_on_connect_to_database s true

theorem hands_on_handle_ssl_request : s.HandsOn s.handle_ssl_request := by
  rw [handle_ssl_request]
  split_ifs
  · exact .inl ⟨rfl, rfl⟩
  · exact .inl ⟨rfl, rfl⟩
  · exact .recorded rfl rfl (by simp [Op.stage]) rfl

theorem hands_on_perform_ssl_handshake : s.HandsOn s.perform_ssl_handshake := by
  rw [perform_ssl_handshake]
  split_ifs
  · exact .inl ⟨rfl, rfl⟩
  · exact .inl ⟨core_close s, pending_close s⟩
  · exact .recorded rfl rfl (by simp [Op.stage]) rfl

theorem hands_on_relay_to_server (length : ℕ) : s.HandsOn (s.relay_to_server length) := by
  rw [relay_to_server]
  split_ifs
  · exact .inl ⟨rfl, rfl⟩
  · exact .inl ⟨rfl, rfl⟩
  · exact .recorded rfl rfl (by simp [Op.stage]) rfl

/-- The handlers of startup, up to the last. -/
theorem hands_on_succeed (data : Bytes) {op : Op} (startup : op.bridges = false) :
    s.HandsOn (s.succeed data op) := by
  cases op with
  | resolve again => exact .silent rfl (by simp [Op.stage]) rfl
  | connect again =>
    simp only [succeed]
    split_ifs
    · exact (hands_on_check_server_ssl_support _).after rfl rfl
    · exact (hands_on_read_client_startup _).after rfl rfl
  | read_client_startup =>
    simp only [succeed]
    split_ifs
    · exact (hands_on_check_server_ssl_support _).after rfl rfl
    · exact (hands_on_relay_to_server _ _).after rfl rfl
  | write_ssl_request => exact .silent rfl (by simp [Op.stage]) rfl
  | read_ssl_answer =>
    simp only [succeed]
    split_ifs
    · exact hands_on_perform_ssl_handshake s
    · exact hands_on_handle_ssl_request s
  | write_N => exact hands_on_relay_to_server s _
  | write_S => exact .silent rfl (by simp [Op.stage]) rfl
  | handshake_client =>
    simp only [succeed]
    split_ifs
    · exact .inl ⟨core_close s, pending_close s⟩
    · exact .silent rfl (by simp [Op.stage]) rfl
  | handshake_server => exact (hands_on_read_client_startup_after_ssl _).after rfl rfl
  | read_client_startup_after_ssl =>
    simp only [succeed]
    split_ifs
    · exact .inl ⟨rfl, rfl⟩
    · exact .recorded rfl rfl (by simp [Op.stage]) rfl
  | _ => contradiction

/-! ## The bridge -/

theorem pending_bridge_client_to_server : s.bridge_client_to_server.pending = s.pending ∨
    s.bridge_client_to_server.pending = s.pending ++ [.client_read] := by
  rw [bridge_client_to_server]
  split_ifs
  · exact .inl rfl
  · exact .inr rfl
  · exact .inr rfl
  · exact .inl (pending_close s)

theorem pending_bridge_server_to_client : s.bridge_server_to_client.pending = s.pending ∨
    s.bridge_server_to_client.pending = s.pending ++ [.server_read] := by
  rw [bridge_server_to_client]
  split_ifs
  · exact .inl rfl
  · exact .inl rfl
  · exact .inr rfl
  · exact .inr rfl
  · exact .inl (pending_close s)

/-- A read is forwarded exactly when the write to the server is armed. -/
theorem turn_forward (data : Bytes) : ∃ fate, fate ≠ .answered ∧
    (s.forward data).core = s.core.record [.bridged data fate] ∧
    (s.forward data).pending =
      s.pending ++ if fate = .forwarded then [.server_write data] else [] := by
  rw [forward]
  split_ifs
  · exact ⟨.server_closed, by simp, rfl, by simp [record]⟩
  · exact ⟨.forwarded, by simp, rfl, by simp [record, arm]⟩
  · exact ⟨.no_socket, by simp, by rw [core_close, core_record], by simp [record]⟩

/-- A read is relayed exactly when the write to the client is armed. -/
theorem turn_relay (data : Bytes) : ∃ relayed : Bool,
    (s.relay data).core = s.core.record (if relayed then [.relay data] else []) ∧
    (s.relay data).pending = s.pending ++ if relayed then [.client_write data] else [] := by
  have unrelayed : s.core = s.core.record [] := by
    simp [Core.record]
  rw [relay]
  split_ifs
  · exact ⟨false, unrelayed, by simp⟩
  · exact ⟨true, rfl, rfl⟩
  · exact ⟨true, rfl, rfl⟩
  · exact ⟨false, (core_close s).trans unrelayed, by simp⟩

variable {s} {e : SessionEvent}

/-- A function of startup, run by the handler of an operation. -/
theorem HandsOn.turn {op : Op} {data : Bytes} (hands_on : s.HandsOn s') {ops : List Op}
    (present : op ∈ ops) (startup : op.bridges = false) (erased : s.pending = ops.erase op) :
    Turn s.core ops (.complete op (.ok data)) s'.core s'.pending := by
  rcases hands_on with ⟨same, same'⟩ | ⟨next, actions, startup', early, same, same'⟩
  · rw [same, same', erased]
    exact .ends op _ present
  · rw [same, same', erased]
    exact .hands_on op data next actions present startup startup' early

private theorem turn_begins {op : Op} (data : Bytes) (last : op.bridges = true)
    (startup : op.stage ≠ .bridging) {ops : List Op} (present : op ∈ ops)
    (erased : s.pending = ops.erase op) :
    Turn s.core ops (.complete op (.ok data)) (s.succeed data op).core (s.succeed data op).pending := by
  have quiet : ops.erase op = ops.erase op ++ [] := (List.append_nil _).symm
  cases op with
  | relay_to_server bytes =>
    rw [succeed, core_bridge_server_to_client, core_bridge_client_to_server]
    rcases pending_bridge_server_to_client s.bridge_client_to_server with server | server <;>
      rcases pending_bridge_client_to_server s with client | client <;>
      rw [server, client, erased]
    · rw [quiet]
      exact .begins _ data [] present startup last (by simp) (by simp)
    · exact .begins _ data [.client_read] present startup last (by simp) (by simp)
    · exact .begins _ data [.server_read] present startup last (by simp) (by simp)
    · rw [List.append_assoc]
      exact .begins _ data [.client_read, .server_read] present startup last (by simp) (by simp)
  | write_client_startup bytes =>
    rw [succeed, core_bridge_client_to_server, core_bridge_server_to_client]
    rcases pending_bridge_client_to_server s.bridge_server_to_client with client | client <;>
      rcases pending_bridge_server_to_client s with server | server <;>
      rw [client, server, erased]
    · rw [quiet]
      exact .begins _ data [] present startup last (by simp) (by simp)
    · exact .begins _ data [.server_read] present startup last (by simp) (by simp)
    · exact .begins _ data [.client_read] present startup last (by simp) (by simp)
    · rw [List.append_assoc]
      exact .begins _ data [.server_read, .client_read] present startup last (by simp) (by simp)
  | client_read | server_write | response_write | server_read | client_write =>
    exact absurd rfl startup
  | _ => contradiction

private theorem turn_client_read {data : Bytes} (nonempty : 0 < data.length) {ops : List Op}
    (present : .client_read ∈ ops) (idle : s.client_handler = .idle)
    (erased : s.pending = ops.erase .client_read) :
    Turn s.core ops (.complete .client_read (.ok data)) (s.client_read data).core
      (s.client_read data).pending := by
  have filled : data ≠ [] := List.length_pos_iff.mp nonempty
  have interception := intercept_fill s.client_buffer_ data nonempty
  rw [client_read]
  split_ifs with query
  · simp only at query
    rw [if_pos query] at interception
    have asks := Turn.asks data _ (c := s.core) present idle filled interception.symm
    rw [← erased] at asks
    exact asks
  · simp only at query
    rw [if_neg query] at interception
    obtain ⟨fate, unanswered, after, pending⟩ := turn_forward
      (({ s with client_buffer_ := fill s.client_buffer_ data }).record (.read data none)) data
    rw [after, pending, core_record]
    have passes := Turn.passes data fate (c := s.core) present idle filled interception.symm unanswered
    simp only [Core.record, List.append_assoc, record, erased] at passes ⊢
    exact passes

private theorem turn_server_read {data : Bytes} {ops : List Op} (present : .server_read ∈ ops)
    (idle : s.server_handler = .idle) (erased : s.pending = ops.erase .server_read) :
    Turn s.core ops (.complete .server_read (.ok data)) (s.server_read data).core
      (s.server_read data).pending := by
  rw [server_read]
  simp only
  split_ifs with leading
  · have notifies := Turn.notifies data (c := s.core) present idle leading
    simp only [core, record, List.append_assoc, erased] at notifies ⊢
    exact notifies
  · obtain ⟨relayed, after, pending⟩ := turn_relay
      (({ s with server_buffer_ := fill s.server_buffer_ data }).record (.response data)) data
    rw [after, pending, core_record]
    have responds := Turn.responds data relayed (c := s.core) present idle (not_not.mp leading)
    simp only [Core.record, List.append_assoc, record, erased] at responds ⊢
    exact responds

/-- The handler of an operation that succeeded. -/
private theorem turn_succeed {op : Op} {data : Bytes} (delivered : delivers op data = true)
    {ops : List Op} (present : op ∈ ops) (free : s.free op = true)
    (erased : s.pending = ops.erase op) :
    Turn s.core ops (.complete op (.ok data)) (s.succeed data op).core (s.succeed data op).pending := by
  cases startup : op.bridges with
  | false => exact (hands_on_succeed s data startup).turn present startup erased
  | true =>
    cases op with
    | client_read =>
      simp only [delivers, Bool.and_eq_true, decide_eq_true_eq] at delivered
      exact turn_client_read delivered.1 present (of_decide_eq_true free) erased
    | server_read => exact turn_server_read present (of_decide_eq_true free) erased
    | server_write bytes | response_write bytes =>
      rw [succeed, core_bridge_client_to_server]
      rcases pending_bridge_client_to_server s with pending | pending <;> rw [pending, erased]
      · exact .ends _ _ present
      · exact .reads_client _ data present (by simp)
    | client_write bytes =>
      rw [succeed, core_bridge_server_to_client]
      rcases pending_bridge_server_to_client s with pending | pending <;> rw [pending, erased]
      · exact .ends _ _ present
      · exact .reads_server bytes data present
    | relay_to_server bytes => exact turn_begins data startup (by simp [Op.stage]) present erased
    | write_client_startup bytes => exact turn_begins data startup (by simp [Op.stage]) present erased
    | _ => contradiction

private theorem turn_flight_result {sql_query data : Bytes} (result : QueryCache.FlightResult)
    (calling : s.client_handler = .calling sql_query data) :
    Turn s.core s.pending (.flight_result result) (s.flight_result sql_query data result).core
      (s.flight_result sql_query data result).pending := by
  cases result with
  | CACHE_HIT => exact .answered sql_query data _ calling (by simp)
  | IS_WAITER => exact .answered sql_query data _ calling (by simp)
  | IS_LEADER =>
    rw [flight_result]
    obtain ⟨fate, unanswered, after, pending⟩ := turn_forward { s with
      client_handler := .idle, current_query_ := sql_query, leading := s.calls - 1 } data
    rw [after, pending]
    exact .leads sql_query data fate calling unanswered

private theorem turn_on_result {call : ℕ} (result : Bytes) (called : call < s.calls) :
    Turn s.core s.pending (.on_result call result) (s.on_result call result).core
      (s.on_result call result).pending := by
  rw [on_result]
  split_ifs
  · exact .quiet _ (by simp)
  · simp only
    split_ifs
    · exact .delivers call result called
    · exact .delivers call result called
    · exact .quiet _ (by simp)

private theorem turn_notify_returned {call : ℕ} {query data : Bytes}
    (notifying : s.server_handler = .notifying call query data) :
    Turn s.core s.pending .notify_returned (s.notify_returned data).core
      (s.notify_returned data).pending := by
  rw [notify_returned]
  obtain ⟨relayed, after, pending⟩ := turn_relay
    { s with server_handler := .idle, current_query_ := [] } data
  rw [after, pending]
  exact .notified call query data relayed notifying

private theorem turn_start : Turn s.core s.pending .start s.start.core s.start.pending := by
  rw [start]
  split_ifs
  · exact .quiet _ (by simp)
  · exact .quiet _ (by simp)
  · simp only [connect_to_database]
    split_ifs
    exact .starts

/-- Every step of a session is a turn. -/
theorem turn_of_step (taken : s.step? e = some s') :
    Turn s.core s.pending e s'.core s'.pending := by
  cases e with
  | start =>
    simp only [step?] at taken
    split_ifs at taken
    obtain rfl := Option.some.inj taken
    exact turn_start (s := { s with started := true })
  | complete op completion =>
    have completed : s.complete op completion = some s' := taken
    obtain ⟨present, free, ⟨data, rfl, delivered, rfl⟩ | ⟨ec, rfl, rfl⟩⟩ := complete_cases completed
    · simp only
      split_ifs
      · exact .ends op _ present
      · exact turn_succeed (s := { s with pending := s.pending.erase op }) delivered present
          (by cases op <;> exact free) rfl
    · simp only
      split_ifs
      · exact .ends op _ present
      · rw [core_fail, (fail_kept _ ec op).1]
        exact .ends op _ present
  | threw building =>
    simp only [step?, threw] at taken
    split_ifs at taken
    · obtain rfl := Option.some.inj taken
      exact .threw building
    · obtain rfl := Option.some.inj taken
      rw [core_close, core_build_threw, pending_close]
      cases building <;> exact .threw _
  | flight_result result =>
    simp only [step?] at taken
    split at taken
    · next sql_query data calling =>
      obtain rfl := Option.some.inj taken
      exact turn_flight_result result calling
    · contradiction
  | on_result call result =>
    simp only [step?] at taken
    split_ifs at taken with alive
    obtain rfl := Option.some.inj taken
    exact turn_on_result result alive.2
  | notify_returned =>
    simp only [step?] at taken
    split at taken
    · next call query data notifying =>
      obtain rfl := Option.some.inj taken
      exact turn_notify_returned notifying
    · contradiction
  | destroy =>
    simp only [step?, destroy] at taken
    split_ifs at taken
    obtain rfl := Option.some.inj taken
    exact .quiet _ (by simp)

end Session

end FlightProxy
