import FlightProxy.Session.Bridge

/-! # A destroyed session

A session is destroyed once no handler and no operation holds it, and takes no step after that. So a
session whose client read's handler is in doSingleFlight is there.
-/

namespace FlightProxy.Session

variable {s s' : Session} {e : SessionEvent}

section

variable (s : Session)

@[simp] theorem destroyed_close : s.close.destroyed = s.destroyed := by
  rw [close]
  split_ifs <;> rfl

@[simp] theorem destroyed_failed (ec : ErrorCode) : (s.failed ec).destroyed = s.destroyed := by
  rw [failed]
  split_ifs <;> simp

@[simp] theorem destroyed_connect_to_database (again : Bool) :
    (s.connect_to_database again).destroyed = s.destroyed := by
  rw [connect_to_database]
  split_ifs <;> rfl

@[simp] theorem destroyed_start : s.start.destroyed = s.destroyed := by
  rw [start]
  split_ifs <;> simp

@[simp] theorem destroyed_read_client_startup : s.read_client_startup.destroyed = s.destroyed := by
  rw [read_client_startup]
  split_ifs <;> rfl

@[simp] theorem destroyed_read_client_startup_after_ssl :
    s.read_client_startup_after_ssl.destroyed = s.destroyed := by
  rw [read_client_startup_after_ssl]
  split_ifs <;> rfl

@[simp] theorem destroyed_check_server_ssl_support :
    s.check_server_ssl_support.destroyed = s.destroyed := by
  rw [check_server_ssl_support]
  split_ifs
  · rfl
  · split
    · rfl
    · split_ifs <;> simp [arm, record]

@[simp] theorem destroyed_handle_ssl_request : s.handle_ssl_request.destroyed = s.destroyed := by
  rw [handle_ssl_request]
  split_ifs <;> rfl

@[simp] theorem destroyed_perform_ssl_handshake :
    s.perform_ssl_handshake.destroyed = s.destroyed := by
  rw [perform_ssl_handshake]
  split_ifs <;> simp [arm, record]

@[simp] theorem destroyed_relay_to_server (length : ℕ) :
    (s.relay_to_server length).destroyed = s.destroyed := by
  rw [relay_to_server]
  split_ifs <;> rfl

@[simp] theorem destroyed_bridge_client_to_server :
    s.bridge_client_to_server.destroyed = s.destroyed := by
  rw [bridge_client_to_server]
  split_ifs <;> simp [arm]

@[simp] theorem destroyed_bridge_server_to_client :
    s.bridge_server_to_client.destroyed = s.destroyed := by
  rw [bridge_server_to_client]
  split_ifs <;> simp [arm]

@[simp] theorem destroyed_forward (data : Bytes) : (s.forward data).destroyed = s.destroyed := by
  rw [forward]
  split_ifs <;> simp [arm, record]

@[simp] theorem destroyed_relay (data : Bytes) : (s.relay data).destroyed = s.destroyed := by
  rw [relay]
  split_ifs <;> simp [arm, record]

@[simp] theorem destroyed_on_result (call : ℕ) (result : Bytes) :
    (s.on_result call result).destroyed = s.destroyed := by
  simp only [on_result]
  split_ifs <;> rfl

theorem destroyed_succeed (data : Bytes) (op : Op) :
    (s.succeed data op).destroyed = s.destroyed := by
  cases op <;> simp only [succeed, client_read, server_read]
  all_goals first | (split_ifs <;> simp [arm, record]) | simp [arm, build_ssl_streams]

theorem destroyed_fail (ec : ErrorCode) (op : Op) : (s.fail ec op).destroyed = s.destroyed := by
  cases op <;> simp only [fail]
  all_goals first | (split_ifs <;> simp) | simp

end

/-- Only `destroy` destroys a session. -/
theorem destroyed_of_step (taken : s.step? e = some s') :
    (e = .destroy ∧ s'.pending = [] ∧ s'.client_handler = .idle ∧ s'.server_handler = .idle ∧
      s'.started = true) ∨ s'.destroyed = s.destroyed := by
  cases e with
  | start =>
    simp only [step?] at taken
    split_ifs at taken
    obtain rfl := Option.some.inj taken
    exact .inr (destroyed_start _)
  | complete op completion =>
    have completed : s.complete op completion = some s' := taken
    obtain ⟨-, -, ⟨data, -, -, rfl⟩ | ⟨ec, -, rfl⟩⟩ := complete_cases completed
    · right
      simp only
      split_ifs
      · rfl
      · exact destroyed_succeed _ data op
    · right
      simp only
      split_ifs
      · rfl
      · exact destroyed_fail _ ec op
  | threw building =>
    simp only [step?, threw] at taken
    split_ifs at taken
    · obtain rfl := Option.some.inj taken
      exact .inr rfl
    · obtain rfl := Option.some.inj taken
      right
      rw [destroyed_close]
      cases building <;> rfl
  | flight_result result =>
    simp only [step?] at taken
    split at taken
    · next sql_query data calling =>
      obtain rfl := Option.some.inj taken
      right
      cases result with
      | CACHE_HIT | IS_WAITER => rfl
      | IS_LEADER => exact destroyed_forward _ data
    · contradiction
  | on_result call result =>
    simp only [step?] at taken
    split_ifs at taken
    obtain rfl := Option.some.inj taken
    exact .inr (destroyed_on_result _ call result)
  | notify_returned =>
    simp only [step?] at taken
    split at taken
    · next call query data notifying =>
      obtain rfl := Option.some.inj taken
      exact .inr (destroyed_relay _ data)
    · contradiction
  | destroy =>
    simp only [step?, destroy] at taken
    split_ifs at taken with held
    obtain rfl := Option.some.inj taken
    exact .inl ⟨rfl, held.2.2.1, held.2.2.2.1, held.2.2.2.2, held.1⟩

/-- A session that has been destroyed is started and idle. -/
def Released (s : Session) : Prop := s.destroyed = true →
  s.pending = [] ∧ s.client_handler = .idle ∧ s.server_handler = .idle ∧ s.started = true

theorem released_init : Released {} := nofun

/-- Nothing happens to a session that has been destroyed. -/
theorem Released.step (released : s.Released) (taken : s.step? e = some s') : s'.Released := by
  rcases destroyed_of_step taken with ⟨-, idle⟩ | same
  · exact fun _ => idle
  · intro destroyed
    rw [same] at destroyed
    obtain ⟨pending, client, server, started⟩ := released destroyed
    cases e with
    | start => simp [step?, started] at taken
    | complete op completion => simp [step?, complete, pending] at taken
    | threw building => simp [step?, threw, pending] at taken
    | flight_result result => simp [step?, client] at taken
    | on_result call result => simp [step?, destroyed] at taken
    | notify_returned => simp [step?, server] at taken
    | destroy => simp [step?, destroy, destroyed] at taken

end FlightProxy.Session
