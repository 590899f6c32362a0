import FlightProxy.Session.Bridge
import Mathlib.Logic.Basic

/-! # The stages of a session and the streams it uses

Startup is one operation after another, and its stage decides which sockets are there: the plain
ones until the SSL streams are built from them, no usable pair during the handshakes, the SSL
streams once both are done. The bridge starts from the first stage or from the third, and keeps to
its sockets.
-/

namespace FlightProxy

inductive Stage
  | connecting
  /-- The SSL streams are built, and their handshakes go on. -/
  | securing
  /-- Both handshakes are done, and the startup packet goes through the SSL streams. -/
  | secured
  | bridging
deriving DecidableEq, Repr

def Op.stage : Op → Stage
  | .resolve _ | .connect _ | .read_client_startup | .write_ssl_request | .read_ssl_answer
  | .write_N | .write_S | .relay_to_server _ => .connecting
  | .handshake_client | .handshake_server => .securing
  | .read_client_startup_after_ssl | .write_client_startup _ => .secured
  | .client_read | .server_write _ | .response_write _ | .server_read | .client_write _ => .bridging

/-- Operations whose handlers run the bridge: those that end startup, and those of the last stage. -/
def Op.bridges : Op → Bool
  | .relay_to_server _ | .write_client_startup _ => true
  | op => op.stage = .bridging

/-- The steps that run bridge_client_to_server or bridge_server_to_client, or pick the stream of a
bridge write or of on_result. -/
def SessionEvent.bridges : SessionEvent → Bool
  | .complete op (.ok _) => op.bridges
  | .flight_result _ | .on_result _ _ | .notify_returned => true
  | _ => false

namespace Session

/-- Not SSL: both plain sockets are there, and no SSL socket. -/
structure Plain (s : Session) : Prop where
  ssl_enabled_ : s.ssl_enabled_ = false
  client_ssl_socket_ : s.client_ssl_socket_ = none
  server_ssl_socket_ : s.server_ssl_socket_ = none
  client_socket_ : s.client_socket_.isSome = true
  server_socket_ : s.server_socket_.isSome = true

/-- SSL: both SSL sockets are there, and no plain socket. -/
structure Tls (s : Session) : Prop where
  ssl_enabled_ : s.ssl_enabled_ = true
  client_ssl_socket_ : s.client_ssl_socket_.isSome = true
  server_ssl_socket_ : s.server_ssl_socket_.isSome = true
  client_socket_ : s.client_socket_ = none
  server_socket_ : s.server_socket_ = none

/-- Neither mode: the SSL sockets are there, but not enabled. -/
structure Handshaking (s : Session) : Prop where
  ssl_enabled_ : s.ssl_enabled_ = false
  client_ssl_socket_ : s.client_ssl_socket_.isSome = true
  server_ssl_socket_ : s.server_ssl_socket_.isSome = true
  client_socket_ : s.client_socket_ = none
  server_socket_ : s.server_socket_ = none

def sockets (s : Session) :
    Bool × Option Socket × Option Socket × Option Socket × Option Socket :=
  (s.ssl_enabled_, s.client_ssl_socket_, s.server_ssl_socket_, s.client_socket_, s.server_socket_)

section Congr

variable {s s' : Session}

theorem Plain.congr (plain : s.Plain) (same : s'.sockets = s.sockets) : s'.Plain := by
  simp only [sockets, Prod.mk.injEq] at same
  obtain ⟨enabled, client_ssl, server_ssl, client, server⟩ := same
  constructor
  · rw [enabled, plain.ssl_enabled_]
  · rw [client_ssl, plain.client_ssl_socket_]
  · rw [server_ssl, plain.server_ssl_socket_]
  · rw [client, plain.client_socket_]
  · rw [server, plain.server_socket_]

theorem Tls.congr (tls : s.Tls) (same : s'.sockets = s.sockets) : s'.Tls := by
  simp only [sockets, Prod.mk.injEq] at same
  obtain ⟨enabled, client_ssl, server_ssl, client, server⟩ := same
  constructor
  · rw [enabled, tls.ssl_enabled_]
  · rw [client_ssl, tls.client_ssl_socket_]
  · rw [server_ssl, tls.server_ssl_socket_]
  · rw [client, tls.client_socket_]
  · rw [server, tls.server_socket_]

theorem Handshaking.congr (handshaking : s.Handshaking) (same : s'.sockets = s.sockets) : s'.Handshaking := by
  simp only [sockets, Prod.mk.injEq] at same
  obtain ⟨enabled, client_ssl, server_ssl, client, server⟩ := same
  constructor
  · rw [enabled, handshaking.ssl_enabled_]
  · rw [client_ssl, handshaking.client_ssl_socket_]
  · rw [server_ssl, handshaking.server_ssl_socket_]
  · rw [client, handshaking.client_socket_]
  · rw [server, handshaking.server_socket_]

end Congr

/-- Nothing of the bridge has happened, and at most one operation is pending, of the given stage. -/
structure Fresh (s : Session) (stage : Stage) : Prop where
  client_handler : s.client_handler = .idle
  server_handler : s.server_handler = .idle
  calls : s.calls = 0
  few : s.pending.length ≤ 1
  ops : ∀ op ∈ s.pending, op.stage = stage

/-- The sockets of a session that is not being destroyed are those of its stage. -/
inductive Staged (s : Session) : Prop
  | connecting (plain : s.Plain) (fresh : s.Fresh .connecting)
      (unstarted : s.started = false → s.pending = [])
  | securing (handshaking : s.Handshaking) (fresh : s.Fresh .securing) (started : s.started = true)
  | secured (tls : s.Tls) (fresh : s.Fresh .secured) (started : s.started = true)
  | bridging (mode : s.Plain ∨ s.Tls) (ops : ∀ op ∈ s.pending, op.stage = .bridging)
      (started : s.started = true)

/-- The invariant: a session is being destroyed, or in some stage. -/
def Consistent (s : Session) : Prop := s.is_destroying_ = true ∨ s.Staged

theorem consistent_init : Consistent {} :=
  .inr (.connecting ⟨rfl, rfl, rfl, rfl, rfl⟩
    ⟨rfl, rfl, rfl, Nat.zero_le 1, fun _ member => absurd member List.not_mem_nil⟩ fun _ => rfl)

theorem consistent_close (s : Session) : s.close.Consistent := .inl destroying_close

theorem consistent_failed {s : Session} (consistent : s.Consistent) (ec : ErrorCode) :
    (s.failed ec).Consistent := by
  rw [failed]
  split_ifs
  · exact consistent
  · exact consistent_close s

variable {s s' : Session} {op : Op} {stage : Stage}

theorem Plain.not_tls (plain : s.Plain) : ¬ s.Tls := by
  intro tls
  have enabled := tls.ssl_enabled_
  rw [plain.ssl_enabled_] at enabled
  contradiction

/-! ## Functions that close, or leave the session as it is -/

theorem close_kept (s : Session) : s.close.pending = s.pending ∧
    s.close.started = s.started := by
  rw [close]
  split_ifs
  · exact ⟨rfl, rfl⟩
  · exact ⟨rfl, rfl⟩

/-- A failed operation leaves the session as it is, up to the EOF flags, or closes it. -/
theorem fail_kept (s : Session) (ec : ErrorCode) (op : Op) :
    (s.fail ec op).pending = s.pending ∧ (s.fail ec op).started = s.started ∧
      ((s.fail ec op).is_destroying_ = true ∨ (s.fail ec op).sockets = s.sockets) := by
  have closed : ∀ s : Session, s.close.pending = s.pending ∧ s.close.started = s.started ∧
      (s.close.is_destroying_ = true ∨ s.close.sockets = s.sockets) := fun s =>
    ⟨(close_kept s).1, (close_kept s).2, .inl destroying_close⟩
  have failed_kept : (s.failed ec).pending = s.pending ∧ (s.failed ec).started = s.started ∧
      ((s.failed ec).is_destroying_ = true ∨ (s.failed ec).sockets = s.sockets) := by
    rw [failed]
    split_ifs
    · exact ⟨rfl, rfl, .inr rfl⟩
    · exact closed s
  unfold Session.fail
  split
  iterate 4 exact closed s
  · exact ⟨rfl, rfl, .inr rfl⟩
  · split
    · simp only
      split_ifs
      · exact closed { s with client_closed_ := true }
      · exact ⟨rfl, rfl, .inr rfl⟩
    · exact failed_kept
  · split
    · simp only
      split_ifs
      · exact closed { s with server_closed_ := true }
      · exact ⟨rfl, rfl, .inr rfl⟩
    · exact failed_kept
  · exact failed_kept

/-! ## Startup -/

/-- Nothing is pending between two operations of startup. -/
structure Quiet (s : Session) : Prop where
  client_handler : s.client_handler = .idle
  server_handler : s.server_handler = .idle
  calls : s.calls = 0
  pending : s.pending = []
  started : s.started = true

theorem Quiet.fresh (quiet : s.Quiet) : s.Fresh stage := by
  refine ⟨quiet.client_handler, quiet.server_handler, quiet.calls, ?_, ?_⟩
  · rw [quiet.pending]
    exact Nat.zero_le 1
  · intro op member
    rw [quiet.pending] at member
    contradiction

theorem Quiet.arm (quiet : s.Quiet) (same : op.stage = stage) : (s.arm op).Fresh stage := by
  refine ⟨quiet.client_handler, quiet.server_handler, quiet.calls, ?_, ?_⟩
  · rw [Session.arm, quiet.pending]
    exact Nat.le_refl 1
  · intro op' member
    rw [Session.arm, quiet.pending] at member
    obtain rfl := List.mem_singleton.mp member
    exact same

/-- The only pending operation of startup completes. -/
theorem Fresh.quiet (fresh : s.Fresh stage) (present : op ∈ s.pending)
    (started : s.started = true) : Quiet { s with pending := s.pending.erase op } := by
  refine ⟨fresh.client_handler, fresh.server_handler, fresh.calls, ?_, started⟩
  apply List.eq_nil_of_length_eq_zero
  have few := fresh.few
  have erased := List.length_erase_of_mem present
  simp only
  omega

section Startup

variable (quiet : s.Quiet) (plain : s.Plain)
include quiet plain

theorem consistent_of_plain : s.Consistent :=
  .inr (.connecting plain quiet.fresh fun _ => quiet.pending)

theorem consistent_arm (connecting : op.stage = .connecting) : (s.arm op).Consistent := by
  refine .inr (.connecting (plain.congr rfl) (quiet.arm connecting) ?_)
  intro unstarted
  have started : (s.arm op).started = true := quiet.started
  rw [unstarted] at started
  contradiction

theorem consistent_record_arm (action : Action) (connecting : op.stage = .connecting) :
    ((s.record action).arm op).Consistent := by
  apply consistent_arm _ _ connecting
  · exact ⟨quiet.1, quiet.2, quiet.3, quiet.4, quiet.5⟩
  · exact plain.congr rfl

theorem consistent_connect_to_database (again : Bool) :
    (s.connect_to_database again).Consistent := by
  rw [connect_to_database]
  split_ifs
  · exact consistent_of_plain quiet plain
  · exact consistent_arm quiet plain rfl

theorem consistent_read_client_startup : s.read_client_startup.Consistent := by
  rw [read_client_startup]
  split_ifs
  · exact consistent_of_plain quiet plain
  · exact consistent_of_plain quiet plain
  · apply consistent_arm
    · exact ⟨quiet.1, quiet.2, quiet.3, quiet.4, quiet.5⟩
    · exact plain.congr rfl
    · rfl

theorem consistent_check_server_ssl_support : s.check_server_ssl_support.Consistent := by
  rw [check_server_ssl_support]
  split_ifs
  · exact consistent_of_plain quiet plain
  · split
    · exact consistent_of_plain quiet plain
    · split_ifs
      · exact consistent_record_arm quiet plain _ rfl
      · exact consistent_connect_to_database quiet plain true

theorem consistent_handle_ssl_request : s.handle_ssl_request.Consistent := by
  rw [handle_ssl_request]
  split_ifs
  · exact consistent_of_plain quiet plain
  · exact consistent_of_plain quiet plain
  · exact consistent_record_arm quiet plain _ rfl

theorem consistent_perform_ssl_handshake : s.perform_ssl_handshake.Consistent := by
  rw [perform_ssl_handshake]
  split_ifs
  · exact consistent_of_plain quiet plain
  · exact consistent_close s
  · exact consistent_record_arm quiet plain _ rfl

theorem consistent_relay_to_server (length : ℕ) : (s.relay_to_server length).Consistent := by
  rw [relay_to_server]
  split_ifs
  · exact consistent_of_plain quiet plain
  · exact consistent_of_plain quiet plain
  · exact consistent_record_arm quiet plain _ rfl

end Startup

/-! ## The bridge -/

/-- The session is being destroyed, or bridges with the sockets of another state of it. -/
def Bridges (before s : Session) : Prop :=
  s.is_destroying_ = true ∨ (s.sockets = before.sockets ∧ (∀ op ∈ s.pending, op.stage = .bridging) ∧
    s.started = true)

variable {before : Session}

theorem Bridges.consistent (bridges : before.Bridges s) (mode : before.Plain ∨ before.Tls) :
    s.Consistent := by
  rcases bridges with destroying | ⟨same, ops, started⟩
  · exact .inl destroying
  · exact .inr (.bridging (mode.imp (Plain.congr · same) (Tls.congr · same)) ops started)

theorem bridges_close (s : Session) : before.Bridges s.close := .inl destroying_close

/-- Fields that no stage depends on may change, and operations may go. -/
theorem Bridges.congr (bridges : before.Bridges s)
    (destroying : s'.is_destroying_ = s.is_destroying_) (same : s'.sockets = s.sockets)
    (fewer : s'.pending ⊆ s.pending) (started : s'.started = s.started) : before.Bridges s' := by
  rcases bridges with gone | ⟨kept, ops, began⟩
  · exact .inl (destroying.trans gone)
  · exact .inr ⟨same.trans kept, fun op member => ops op (fewer member), started.trans began⟩

theorem Bridges.arm (bridges : before.Bridges s) (same : op.stage = .bridging) :
    before.Bridges (s.arm op) := by
  rcases bridges with gone | ⟨kept, ops, began⟩
  · exact .inl gone
  · refine .inr ⟨kept, ?_, began⟩
    intro op' member
    rcases List.mem_append.mp member with earlier | here
    · exact ops op' earlier
    · obtain rfl := List.mem_singleton.mp here
      exact same

theorem Bridges.record (bridges : before.Bridges s) (action : Action) :
    before.Bridges (s.record action) :=
  bridges.congr rfl rfl (List.Subset.refl _) rfl

theorem bridges_bridge_client_to_server (bridges : before.Bridges s) :
    before.Bridges s.bridge_client_to_server := by
  rw [bridge_client_to_server]
  split_ifs
  · exact bridges
  · exact bridges.arm rfl
  · exact bridges.arm rfl
  · exact bridges_close s

theorem bridges_bridge_server_to_client (bridges : before.Bridges s) :
    before.Bridges s.bridge_server_to_client := by
  rw [bridge_server_to_client]
  split_ifs
  · exact bridges
  · exact bridges
  · exact bridges.arm rfl
  · exact bridges.arm rfl
  · exact bridges_close s

theorem bridges_forward (bridges : before.Bridges s) (data : Bytes) : before.Bridges (s.forward data) := by
  rw [forward]
  split_ifs
  · exact bridges.record _
  · exact (bridges.record _).arm rfl
  · exact bridges_close _

theorem bridges_relay (bridges : before.Bridges s) (data : Bytes) : before.Bridges (s.relay data) := by
  rw [relay]
  split_ifs
  · exact bridges
  · exact (bridges.record _).arm rfl
  · exact (bridges.record _).arm rfl
  · exact bridges_close s

theorem bridges_on_result (bridges : before.Bridges s) (call : ℕ) (result : Bytes) :
    before.Bridges (s.on_result call result) := by
  have assigned : before.Bridges { s with cached_response_ := result } :=
    bridges.congr rfl rfl (List.Subset.refl _) rfl
  rw [on_result]
  split_ifs
  · exact bridges
  · simp only
    split_ifs
    · exact (assigned.record _).arm rfl
    · exact (assigned.record _).arm rfl
    · exact assigned

theorem bridges_client_read (bridges : before.Bridges s) (data : Bytes) :
    before.Bridges (s.client_read data) := by
  have filled : before.Bridges { s with client_buffer_ := fill s.client_buffer_ data } :=
    bridges.congr rfl rfl (List.Subset.refl _) rfl
  rw [client_read]
  simp only
  split_ifs
  · exact filled.congr rfl rfl (List.Subset.refl _) rfl
  · exact bridges_forward (filled.record _) data

theorem bridges_flight_result (bridges : before.Bridges s) (sql_query data : Bytes)
    (result : QueryCache.FlightResult) : before.Bridges (s.flight_result sql_query data result) := by
  have returned : before.Bridges { s with client_handler := .idle } :=
    bridges.congr rfl rfl (List.Subset.refl _) rfl
  cases result with
  | CACHE_HIT => exact returned.record _
  | IS_WAITER => exact returned.record _
  | IS_LEADER =>
    have leads : before.Bridges { s with
        client_handler := .idle, current_query_ := sql_query, leading := s.calls - 1 } :=
      bridges.congr rfl rfl (List.Subset.refl _) rfl
    exact bridges_forward leads data

theorem bridges_server_read (bridges : before.Bridges s) (data : Bytes) :
    before.Bridges (s.server_read data) := by
  have filled : before.Bridges ({ s with server_buffer_ := fill s.server_buffer_ data }.record
      (.response data)) :=
    bridges.congr rfl rfl (List.Subset.refl _) rfl
  rw [server_read]
  simp only
  split_ifs
  · exact filled.congr rfl rfl (List.Subset.refl _) rfl
  · exact bridges_relay filled data

theorem bridges_notify_returned (bridges : before.Bridges s) (data : Bytes) :
    before.Bridges (s.notify_returned data) := by
  have returned : before.Bridges { s with server_handler := .idle, current_query_ := [] } :=
    bridges.congr rfl rfl (List.Subset.refl _) rfl
  exact bridges_relay returned data

/-! ## Every step -/

variable {e : SessionEvent}

/-- What is pending tells the stage. -/
theorem Staged.of_pending (staged : s.Staged) (present : op ∈ s.pending) :
    (op.stage = .connecting → s.Plain ∧ s.Fresh .connecting ∧ s.started = true) ∧
      (op.stage = .securing → s.Handshaking ∧ s.Fresh .securing ∧ s.started = true) ∧
      (op.stage = .secured → s.Tls ∧ s.Fresh .secured ∧ s.started = true) ∧
      (op.stage = .bridging → (s.Plain ∨ s.Tls) ∧ s.Bridges s) := by
  cases staged with
  | connecting plain fresh unstarted =>
    have here := fresh.ops op present
    have started : s.started = true := by
      by_contra not_started
      rw [unstarted (Bool.eq_false_iff.mpr not_started)] at present
      contradiction
    rw [here]
    exact ⟨fun _ => ⟨plain, fresh, started⟩, by simp, by simp, by simp⟩
  | securing handshaking fresh started =>
    have here := fresh.ops op present
    rw [here]
    exact ⟨by simp, fun _ => ⟨handshaking, fresh, started⟩, by simp, by simp⟩
  | secured tls fresh started =>
    have here := fresh.ops op present
    rw [here]
    exact ⟨by simp, by simp, fun _ => ⟨tls, fresh, started⟩, by simp⟩
  | bridging mode ops started =>
    have here := ops op present
    rw [here]
    exact ⟨by simp, by simp, by simp, fun _ => ⟨mode, .inr ⟨rfl, ops, started⟩⟩⟩

/-- A call into QueryCache has been made only in the last stage. -/
theorem Staged.bridging_of_busy (staged : s.Staged)
    (busy : s.client_handler ≠ .idle ∨ s.server_handler ≠ .idle ∨ s.calls ≠ 0) :
    (s.Plain ∨ s.Tls) ∧ s.Bridges s := by
  have quiet : ∀ stage, ¬ s.Fresh stage := by
    rintro stage fresh
    rcases busy with busy | busy | busy
    · exact busy fresh.client_handler
    · exact busy fresh.server_handler
    · exact busy fresh.calls
  cases staged with
  | connecting _ fresh => exact absurd fresh (quiet _)
  | securing _ fresh => exact absurd fresh (quiet _)
  | secured _ fresh => exact absurd fresh (quiet _)
  | bridging mode ops started => exact ⟨mode, .inr ⟨rfl, ops, started⟩⟩

/-- Fields that no stage depends on may change, and operations may go. -/
theorem Staged.congr (staged : s.Staged) (same : s'.sockets = s.sockets)
    (client_handler : s'.client_handler = s.client_handler)
    (server_handler : s'.server_handler = s.server_handler) (calls : s'.calls = s.calls)
    (fewer : s'.pending.Sublist s.pending) (began : s'.started = s.started) : s'.Staged := by
  have fresh' : ∀ {stage}, s.Fresh stage → s'.Fresh stage := by
    intro stage fresh
    refine ⟨client_handler.trans fresh.client_handler, server_handler.trans fresh.server_handler,
      calls.trans fresh.calls, Nat.le_trans fewer.length_le fresh.few, ?_⟩
    exact fun op member => fresh.ops op (fewer.subset member)
  cases staged with
  | connecting plain fresh unstarted =>
    refine .connecting (plain.congr same) (fresh' fresh) fun not_started => ?_
    rw [began] at not_started
    rw [unstarted not_started] at fewer
    exact List.sublist_nil.mp fewer
  | securing handshaking fresh started =>
    exact .securing (handshaking.congr same) (fresh' fresh) (began.trans started)
  | secured tls fresh started => exact .secured (tls.congr same) (fresh' fresh) (began.trans started)
  | bridging mode ops started =>
    exact .bridging (mode.imp (Plain.congr · same) (Tls.congr · same))
      (fun op member => ops op (fewer.subset member)) (began.trans started)

private theorem consistent_fail (staged : s.Staged) (ec : ErrorCode) (op : Op) :
    (s.fail ec op).Consistent := by
  have same : s.Consistent := .inr staged
  unfold Session.fail
  split
  iterate 4 exact consistent_close _
  · exact same
  · split
    · simp only
      split_ifs
      · exact consistent_close _
      · exact .inr (staged.congr rfl rfl rfl rfl (List.Sublist.refl _) rfl)
    · exact consistent_failed same ec
  · split
    · simp only
      split_ifs
      · exact consistent_close _
      · exact .inr (staged.congr rfl rfl rfl rfl (List.Sublist.refl _) rfl)
    · exact consistent_failed same ec
  · exact consistent_failed same ec

/-- After the last operation of startup, or one of the last stage, the session bridges. -/
private theorem bridges_succeed (staged : s.Staged) (present : op ∈ s.pending) (data : Bytes)
    (bridges : op.bridges = true) : (s.Plain ∨ s.Tls) ∧
      s.Bridges (Session.succeed { s with pending := s.pending.erase op } data op) := by
  obtain ⟨connecting, -, secured, bridging⟩ := staged.of_pending present
  have started : ∀ {stage}, s.Fresh stage → s.started = true →
      s.Bridges { s with pending := s.pending.erase op } := by
    intro stage fresh started
    refine .inr ⟨rfl, ?_, started⟩
    rw [(fresh.quiet present started).pending]
    exact fun _ member => absurd member List.not_mem_nil
  have rest : s.Bridges s → s.Bridges { s with pending := s.pending.erase op } := fun bridges =>
    bridges.congr rfl rfl List.erase_subset rfl
  cases op with
  | relay_to_server bytes =>
    obtain ⟨plain, fresh, began⟩ := connecting rfl
    refine ⟨.inl plain, ?_⟩
    apply bridges_bridge_server_to_client
    apply bridges_bridge_client_to_server
    exact started fresh began
  | write_client_startup bytes =>
    obtain ⟨tls, fresh, began⟩ := secured rfl
    refine ⟨.inr tls, ?_⟩
    apply bridges_bridge_client_to_server
    apply bridges_bridge_server_to_client
    exact started fresh began
  | client_read => exact ⟨(bridging rfl).1, bridges_client_read (rest (bridging rfl).2) data⟩
  | server_write bytes =>
    exact ⟨(bridging rfl).1, bridges_bridge_client_to_server (rest (bridging rfl).2)⟩
  | response_write bytes =>
    exact ⟨(bridging rfl).1, bridges_bridge_client_to_server (rest (bridging rfl).2)⟩
  | server_read => exact ⟨(bridging rfl).1, bridges_server_read (rest (bridging rfl).2) data⟩
  | client_write bytes =>
    exact ⟨(bridging rfl).1, bridges_bridge_server_to_client (rest (bridging rfl).2)⟩
  | _ => contradiction

/-- A step that runs the bridge finds one of the two modes, and keeps to its sockets. -/
theorem Staged.bridges (staged : s.Staged) (taken : s.step? e = some s')
    (bridges : e.bridges = true) : (s.Plain ∨ s.Tls) ∧ s.Bridges s' := by
  cases e with
  | complete op completion =>
    cases completion with
    | error ec => contradiction
    | ok data =>
      have completed : s.complete op (.ok data) = some s' := taken
      obtain ⟨present, -, -, rfl⟩ := complete_ok_cases completed
      have result := bridges_succeed staged present data bridges
      simp only
      split_ifs with gone
      · exact ⟨result.1, .inl gone⟩
      · exact result
  | flight_result result =>
    simp only [step?] at taken
    split at taken
    · next sql_query data calling =>
      obtain rfl := Option.some.inj taken
      obtain ⟨mode, same⟩ := staged.bridging_of_busy (.inl (by simp [calling]))
      exact ⟨mode, bridges_flight_result same sql_query data result⟩
    · contradiction
  | on_result call result =>
    simp only [step?] at taken
    split_ifs at taken with called
    obtain rfl := Option.some.inj taken
    obtain ⟨mode, same⟩ := staged.bridging_of_busy (.inr (.inr (by omega)))
    exact ⟨mode, bridges_on_result same call result⟩
  | notify_returned =>
    simp only [step?] at taken
    split at taken
    · next call query data notifying =>
      obtain rfl := Option.some.inj taken
      obtain ⟨mode, same⟩ := staged.bridging_of_busy (.inr (.inl (by simp [notifying])))
      exact ⟨mode, bridges_notify_returned same data⟩
    · contradiction
  | start | threw | destroy => contradiction

/-- After an operation of startup the session is in its stage or in the next. -/
private theorem consistent_succeed (staged : s.Staged) (present : op ∈ s.pending) (data : Bytes)
    (startup : op.bridges = false) :
    (Session.succeed { s with pending := s.pending.erase op } data op).Consistent := by
  obtain ⟨connecting, securing, secured, -⟩ := staged.of_pending present
  cases op with
  | resolve again =>
    obtain ⟨plain, fresh, started⟩ := connecting rfl
    exact consistent_arm (fresh.quiet present started) (plain.congr rfl) rfl
  | connect again =>
    obtain ⟨plain, fresh, started⟩ := connecting rfl
    have quiet := fresh.quiet present started
    simp only [Session.succeed]
    split_ifs
    · apply consistent_check_server_ssl_support
      · exact ⟨quiet.1, quiet.2, quiet.3, quiet.4, quiet.5⟩
      · exact ⟨plain.1, plain.2, plain.3, plain.4, rfl⟩
    · apply consistent_read_client_startup
      · exact ⟨quiet.1, quiet.2, quiet.3, quiet.4, quiet.5⟩
      · exact ⟨plain.1, plain.2, plain.3, plain.4, rfl⟩
  | read_client_startup =>
    obtain ⟨plain, fresh, started⟩ := connecting rfl
    have quiet := fresh.quiet present started
    simp only [Session.succeed]
    split_ifs
    · apply consistent_check_server_ssl_support
      · exact ⟨quiet.1, quiet.2, quiet.3, quiet.4, quiet.5⟩
      · exact plain.congr rfl
    · apply consistent_relay_to_server
      · exact ⟨quiet.1, quiet.2, quiet.3, quiet.4, quiet.5⟩
      · exact plain.congr rfl
  | write_ssl_request =>
    obtain ⟨plain, fresh, started⟩ := connecting rfl
    exact consistent_arm (fresh.quiet present started) (plain.congr rfl) rfl
  | read_ssl_answer =>
    obtain ⟨plain, fresh, started⟩ := connecting rfl
    have quiet := fresh.quiet present started
    simp only [Session.succeed]
    split_ifs
    · exact consistent_perform_ssl_handshake quiet (plain.congr rfl)
    · exact consistent_handle_ssl_request quiet (plain.congr rfl)
  | write_N =>
    obtain ⟨plain, fresh, started⟩ := connecting rfl
    exact consistent_relay_to_server (fresh.quiet present started) (plain.congr rfl) _
  | write_S =>
    obtain ⟨plain, fresh, started⟩ := connecting rfl
    have quiet := fresh.quiet present started
    refine .inr (.securing ⟨plain.1, plain.4, plain.5, rfl, rfl⟩ ?_ started)
    refine Quiet.arm ?_ rfl
    exact ⟨quiet.1, quiet.2, quiet.3, quiet.4, quiet.5⟩
  | handshake_client =>
    obtain ⟨mode, fresh, started⟩ := securing rfl
    have quiet := fresh.quiet present started
    simp only [Session.succeed]
    split_ifs
    · exact consistent_close _
    · exact .inr (.securing (mode.congr rfl) (quiet.arm rfl) started)
  | handshake_server =>
    obtain ⟨mode, fresh, started⟩ := securing rfl
    have quiet := fresh.quiet present started
    simp only [Session.succeed, read_client_startup_after_ssl]
    split_ifs with gone missing
    · exact .inl gone
    · have there := mode.client_ssl_socket_
      rw [Option.isNone_iff_eq_none.mp missing] at there
      contradiction
    · refine .inr (.secured ⟨rfl, mode.2, mode.3, mode.4, mode.5⟩ ?_ started)
      refine Quiet.arm ?_ rfl
      exact ⟨quiet.1, quiet.2, quiet.3, quiet.4, quiet.5⟩
  | read_client_startup_after_ssl =>
    obtain ⟨tls, fresh, started⟩ := secured rfl
    have quiet := fresh.quiet present started
    simp only [Session.succeed]
    split_ifs
    · refine .inr (.secured (tls.congr rfl) ?_ started)
      exact Quiet.fresh ⟨quiet.1, quiet.2, quiet.3, quiet.4, quiet.5⟩
    · refine .inr (.secured (tls.congr rfl) ?_ started)
      exact Quiet.arm ⟨quiet.1, quiet.2, quiet.3, quiet.4, quiet.5⟩ rfl
  | relay_to_server | write_client_startup | client_read | server_write | response_write | server_read
  | client_write => contradiction

theorem Consistent.step (consistent : s.Consistent) (taken : s.step? e = some s') :
    s'.Consistent := by
  rcases consistent with destroying | staged
  · exact .inl (destroying_of_step destroying taken)
  by_cases bridges : e.bridges = true
  · obtain ⟨mode, same⟩ := staged.bridges taken bridges
    exact same.consistent mode
  cases e with
  | start =>
    simp only [step?] at taken
    split_ifs at taken with unstarted
    obtain rfl := Option.some.inj taken
    have fresh_start : ∀ {stage}, s.Fresh stage → s.pending = [] →
        Quiet { s with started := true } :=
      fun fresh nothing =>
        ⟨fresh.client_handler, fresh.server_handler, fresh.calls, nothing, rfl⟩
    cases staged with
    | connecting plain fresh nothing =>
      have quiet := fresh_start fresh (nothing (Bool.eq_false_iff.mpr unstarted))
      have plain' : Plain { s with started := true } := plain.congr rfl
      rw [start]
      split_ifs
      · exact consistent_of_plain quiet plain'
      · exact consistent_of_plain quiet plain'
      · exact consistent_connect_to_database quiet plain' false
    | securing _ _ started | secured _ _ started | bridging _ _ started =>
      exact absurd started unstarted
  | complete op completion =>
    obtain ⟨present, -, ⟨data, rfl, -, rfl⟩ | ⟨ec, -, rfl⟩⟩ := complete_cases taken
    · simp only
      split_ifs with gone
      · exact .inl gone
      · exact consistent_succeed staged present data (Bool.eq_false_iff.mpr bridges)
    · simp only
      split_ifs with gone
      · exact .inl gone
      · have rest : Staged { s with pending := s.pending.erase op } :=
          staged.congr rfl rfl rfl rfl List.erase_sublist rfl
        exact consistent_fail rest ec op
  | threw building =>
    simp only [step?, threw] at taken
    split_ifs at taken with present gone
    · obtain rfl := Option.some.inj taken
      exact .inl gone
    · obtain rfl := Option.some.inj taken
      exact consistent_close _
  | flight_result | on_result | notify_returned => exact absurd rfl bridges
  | destroy =>
    simp only [step?, destroy] at taken
    split_ifs at taken
    obtain rfl := Option.some.inj taken
    exact .inl rfl

end Session

end FlightProxy
