import FlightProxy.Session.Tokens

/-! # Buffers have one user

The handlers of the client's side fill `client_buffer_`, that of a server read `server_buffer_`, and
a callback sets `cached_response_`. The operation that uses a buffer holds the token of its side, so
whoever changes the buffer has it alone.
-/

namespace FlightProxy

/-- Operations on `client_buffer_` and `cached_response_`. -/
def Op.client_side : Op → Bool
  | .read_client_startup | .read_client_startup_after_ssl | .write_client_startup _
  | .relay_to_server _ | .client_read | .server_write _ | .response_write _ => true
  | _ => false

/-- Operations on `server_buffer_`. -/
def Op.server_side : Op → Bool
  | .server_read | .client_write _ => true
  | _ => false

theorem Op.clientward_of_client_side (op : Op) (side : op.client_side = true) :
    op.clientward = true := by
  cases op <;> first | rfl | contradiction

theorem Op.serverward_of_server_side (op : Op) (side : op.server_side = true) :
    op.serverward = true := by
  cases op <;> first | rfl | contradiction

namespace Session

/-- Each side has one operation at most, where a call that waits for its result counts as one of the
client's side. -/
structure Exclusive (s : Session) : Prop where
  client : s.pending.countP Op.client_side + s.core.waiting.card ≤ 1
  server : s.pending.countP Op.server_side ≤ 1

/-- A buffer is changed only when no other operation of its side is outstanding. -/
structure Undisturbed (s : Session) (e : SessionEvent) (s' : Session) : Prop where
  client_buffer_ : s'.client_buffer_ = s.client_buffer_ ∨ ∃ op data, e = .complete op (.ok data) ∧
    (∀ other ∈ s.pending.erase op, other.client_side = false) ∧ s.core.waiting = ∅
  server_buffer_ : s'.server_buffer_ = s.server_buffer_ ∨ ∃ data,
    e = .complete .server_read (.ok data) ∧
      ∀ other ∈ s.pending.erase .server_read, other.server_side = false
  cached_response_ : s'.cached_response_ = s.cached_response_ ∨ ∃ call result,
    e = .on_result call result ∧ ∀ op ∈ s.pending, op.client_side = false

variable (s : Session)

/-! ## Who changes a buffer -/

def buffers : Bytes × Bytes × Bytes := (s.client_buffer_, s.server_buffer_, s.cached_response_)

theorem buffers_close : s.close.buffers = s.buffers := by
  rw [close]
  split_ifs <;> rfl

theorem buffers_failed (ec : ErrorCode) : (s.failed ec).buffers = s.buffers := by
  rw [failed]
  split_ifs
  · rfl
  · exact buffers_close s

theorem buffers_fail (ec : ErrorCode) (op : Op) : (s.fail ec op).buffers = s.buffers := by
  unfold fail
  split
  iterate 4 exact buffers_close s
  · rfl
  · split
    · simp only
      split_ifs
      · exact buffers_close { s with client_closed_ := true }
      · rfl
    · exact buffers_failed s ec
  · split
    · simp only
      split_ifs
      · exact buffers_close { s with server_closed_ := true }
      · rfl
    · exact buffers_failed s ec
  · exact buffers_failed s ec

theorem buffers_connect_to_database (again : Bool) :
    (s.connect_to_database again).buffers = s.buffers := by
  rw [connect_to_database]
  split_ifs <;> rfl

theorem buffers_start : s.start.buffers = s.buffers := by
  rw [start]
  split_ifs
  · rfl
  · rfl
  · exact buffers_connect_to_database s false

theorem buffers_check_server_ssl_support : s.check_server_ssl_support.buffers = s.buffers := by
  rw [check_server_ssl_support]
  split_ifs
  · rfl
  · split
    · rfl
    · split_ifs
      · rfl
      · exact buffers_connect_to_database s true

theorem buffers_handle_ssl_request : s.handle_ssl_request.buffers = s.buffers := by
  rw [handle_ssl_request]
  split_ifs <;> rfl

theorem buffers_perform_ssl_handshake : s.perform_ssl_handshake.buffers = s.buffers := by
  rw [perform_ssl_handshake]
  split_ifs
  · rfl
  · exact buffers_close s
  · rfl

theorem buffers_relay_to_server (length : ℕ) : (s.relay_to_server length).buffers = s.buffers := by
  rw [relay_to_server]
  split_ifs <;> rfl

theorem buffers_bridge_client_to_server : s.bridge_client_to_server.buffers = s.buffers := by
  rw [bridge_client_to_server]
  split_ifs
  · rfl
  · rfl
  · rfl
  · exact buffers_close s

theorem buffers_bridge_server_to_client : s.bridge_server_to_client.buffers = s.buffers := by
  rw [bridge_server_to_client]
  split_ifs
  · rfl
  · rfl
  · rfl
  · rfl
  · exact buffers_close s

theorem buffers_forward (data : Bytes) : (s.forward data).buffers = s.buffers := by
  rw [forward]
  split_ifs
  · rfl
  · rfl
  · exact buffers_close (s.record (.bridged data .no_socket))

theorem buffers_relay (data : Bytes) : (s.relay data).buffers = s.buffers := by
  rw [relay]
  split_ifs
  · rfl
  · rfl
  · rfl
  · exact buffers_close s

/-- The client's buffer may change while the other two stay. -/
def Fills (s s' : Session) : Prop :=
  s'.server_buffer_ = s.server_buffer_ ∧ s'.cached_response_ = s.cached_response_

variable {s} {s' u : Session} {e : SessionEvent}

theorem Fills.of_buffers (same : s'.buffers = s.buffers) : s.Fills s' :=
  Prod.mk.inj (Prod.mk.inj same).2

/-- The handlers of the client's side leave the other buffers alone. -/
theorem fills_succeed (data : Bytes) {op : Op} (clientward : op.clientward = true) :
    s.Fills (s.succeed data op) := by
  cases op with
  | resolve again => exact ⟨rfl, rfl⟩
  | connect again =>
    simp only [succeed]
    split_ifs
    · exact .of_buffers (buffers_check_server_ssl_support _)
    · rw [read_client_startup]
      split_ifs <;> exact ⟨rfl, rfl⟩
  | read_client_startup =>
    simp only [succeed]
    split_ifs
    · exact .of_buffers (s := { s with
        client_buffer_ := fill s.client_buffer_ data, startup_packet_ := data })
          (buffers_check_server_ssl_support _)
    · exact .of_buffers (s := { s with client_buffer_ := fill s.client_buffer_ data })
        (buffers_relay_to_server _ _)
  | write_ssl_request => exact ⟨rfl, rfl⟩
  | read_ssl_answer =>
    simp only [succeed]
    split_ifs
    · exact .of_buffers (buffers_perform_ssl_handshake s)
    · exact .of_buffers (buffers_handle_ssl_request s)
  | write_N => exact .of_buffers (buffers_relay_to_server s _)
  | write_S => exact ⟨rfl, rfl⟩
  | handshake_client =>
    simp only [succeed]
    split_ifs
    · exact .of_buffers (buffers_close s)
    · exact ⟨rfl, rfl⟩
  | handshake_server =>
    simp only [succeed, read_client_startup_after_ssl]
    split_ifs <;> exact ⟨rfl, rfl⟩
  | read_client_startup_after_ssl =>
    simp only [succeed]
    split_ifs <;> exact ⟨rfl, rfl⟩
  | write_client_startup bytes =>
    exact .of_buffers ((buffers_bridge_client_to_server _).trans (buffers_bridge_server_to_client s))
  | relay_to_server bytes =>
    exact .of_buffers ((buffers_bridge_server_to_client _).trans (buffers_bridge_client_to_server s))
  | client_read =>
    simp only [succeed, client_read]
    split_ifs
    · exact ⟨rfl, rfl⟩
    · exact .of_buffers (s := { s with client_buffer_ := fill s.client_buffer_ data })
        (buffers_forward _ data)
  | server_write bytes => exact .of_buffers (buffers_bridge_client_to_server s)
  | response_write bytes => exact .of_buffers (buffers_bridge_client_to_server s)
  | server_read | client_write => contradiction

/-- What may change a buffer. -/
inductive Touches (s : Session) (s' : Session) : SessionEvent → Prop
  | none (e : SessionEvent) (same : s'.buffers = s.buffers) : Touches s s' e
  | client (op : Op) (data : Bytes) (present : op ∈ s.pending) (clientward : op.clientward = true)
      (fills : s.Fills s') : Touches s s' (.complete op (.ok data))
  | server (data : Bytes) (present : .server_read ∈ s.pending)
      (client : s'.client_buffer_ = s.client_buffer_)
      (cached : s'.cached_response_ = s.cached_response_) :
      Touches s s' (.complete .server_read (.ok data))
  | cached (call : ℕ) (result : Bytes) (client : s'.client_buffer_ = s.client_buffer_)
      (server : s'.server_buffer_ = s.server_buffer_) : Touches s s' (.on_result call result)

private theorem touches_complete {op : Op} {completion : Completion}
    (taken : s.complete op completion = some s') : s.Touches s' (.complete op completion) := by
  obtain ⟨present, -, ⟨data, rfl, -, rfl⟩ | ⟨ec, rfl, rfl⟩⟩ := complete_cases taken
  · simp only
    split_ifs
    · exact .none _ rfl
    · cases clientward : op.clientward with
      | true =>
        refine .client op data present clientward ?_
        exact fills_succeed (s := { s with pending := s.pending.erase op }) data clientward
      | false =>
        cases op with
        | server_read =>
          simp only [succeed, server_read]
          split_ifs
          · exact .server data present rfl rfl
          · obtain ⟨client, -, cached⟩ := Prod.mk.inj (buffers_relay (record { s with
              pending := s.pending.erase .server_read
              server_buffer_ := fill s.server_buffer_ data } (.response data)) data) |>.imp_right
                Prod.mk.inj
            exact .server data present client cached
        | client_write bytes =>
          exact .none _ (buffers_bridge_server_to_client
            { s with pending := s.pending.erase (.client_write bytes) })
        | _ => contradiction
  · simp only
    split_ifs
    · exact .none _ rfl
    · exact .none _ (buffers_fail { s with pending := s.pending.erase op } ec op)

theorem touches_of_step (taken : s.step? e = some s') : s.Touches s' e := by
  cases e with
  | start =>
    simp only [step?] at taken
    split_ifs at taken
    obtain rfl := Option.some.inj taken
    exact .none _ (buffers_start { s with started := true })
  | complete op completion => exact touches_complete taken
  | threw building =>
    simp only [step?, threw] at taken
    split_ifs at taken
    · obtain rfl := Option.some.inj taken
      exact .none _ rfl
    · obtain rfl := Option.some.inj taken
      refine .none _ ((buffers_close _).trans ?_)
      cases building <;> rfl
  | flight_result result =>
    simp only [step?] at taken
    split at taken
    · next sql_query data calling =>
      obtain rfl := Option.some.inj taken
      cases result with
      | CACHE_HIT => exact .none _ rfl
      | IS_WAITER => exact .none _ rfl
      | IS_LEADER => exact .none _ (buffers_forward { s with
          client_handler := .idle, current_query_ := sql_query, leading := s.calls - 1 } data)
    · contradiction
  | on_result call result =>
    simp only [step?] at taken
    split_ifs at taken
    obtain rfl := Option.some.inj taken
    simp only [on_result]
    split_ifs
    · exact .none _ rfl
    · exact .cached call result rfl rfl
    · exact .cached call result rfl rfl
    · exact .cached call result rfl rfl
  | notify_returned =>
    simp only [step?] at taken
    split at taken
    · next call query data notifying =>
      obtain rfl := Option.some.inj taken
      exact .none _ (buffers_relay { s with server_handler := .idle, current_query_ := [] } data)
    · contradiction
  | destroy =>
    simp only [step?, destroy] at taken
    split_ifs at taken
    obtain rfl := Option.some.inj taken
    exact .none _ rfl

/-! ## Who uses a buffer -/

/-- The token of each side is that of its buffers. -/
theorem Exclusive.of_tokens (single : s.Single) (serial : s.Serial) : s.Exclusive := by
  constructor
  · have fewer := List.countP_mono_left (l := s.pending) fun op _ =>
      Op.clientward_of_client_side op
    have one := single.one
    rw [tokens, Core.held] at one
    omega
  · have fewer := List.countP_mono_left (l := s.pending) fun op _ =>
      Op.serverward_of_server_side op
    have one := serial.one
    rw [load] at one
    omega

/-- A buffer is changed by whoever has the token. -/
theorem Undisturbed.of_step (single : s.Single) (serial : s.Serial) (served : s.core.Served e)
    (taken : s.step? e = some s') : s.Undisturbed e s' := by
  have one := single.one
  rw [tokens, Core.held] at one
  have unused : ∀ {ops : List Op}, ops.countP Op.clientward = 0 →
      ∀ other ∈ ops, other.client_side = false := by
    intro ops none other member
    have outside := List.countP_eq_zero.mp none other member
    exact Bool.eq_false_iff.mpr fun side => outside (Op.clientward_of_client_side other side)
  cases touches_of_step taken with
  | none e same =>
    obtain ⟨client, rest⟩ := Prod.mk.inj same
    obtain ⟨server, cached⟩ := Prod.mk.inj rest
    exact ⟨.inl client, .inl server, .inl cached⟩
  | client op data present clientward fills =>
    have erased := Core.countP_erase_of_mem present clientward
    refine ⟨.inr ⟨op, data, rfl, unused (by omega), ?_⟩, .inl fills.1, .inl fills.2⟩
    exact Finset.card_eq_zero.mp (by omega)
  | server data present client cached =>
    refine ⟨.inl client, .inr ⟨data, rfl, ?_⟩, .inl cached⟩
    have erased := load_erase present
    have load := serial.one
    have token : Op.server_read.serverward.toNat = 1 := rfl
    have none : (s.pending.erase .server_read).countP Op.serverward = 0 := by
      simp only [Session.load] at erased load
      omega
    intro other member
    have outside := List.countP_eq_zero.mp none other member
    exact Bool.eq_false_iff.mpr fun side => outside (Op.serverward_of_server_side other side)
  | cached call result client server =>
    refine ⟨.inl client, .inl server, .inr ⟨call, result, rfl, unused ?_⟩⟩
    have waits : 0 < s.core.waiting.card := Finset.card_pos.mpr ⟨call, served⟩
    omega

end Session

end FlightProxy
