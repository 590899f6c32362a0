import FlightProxy.Session.Bridge
import Mathlib.Data.List.Count

/-! # The loop on the server's side runs once

Startup is one chain of operations, which ends by starting the server loop: a read from the server,
perhaps a notification, and a write to the client. At most one of all these is in progress, and none
is once the server's EOF has ended the loop.
-/

namespace FlightProxy

/-- Operations of startup and of the server loop. -/
def Op.serverward : Op → Bool
  | .client_read | .server_write _ | .response_write _ => false
  | _ => true

namespace Session

/-- How many operations and handlers of startup and of the server loop are in progress. -/
def load (s : Session) : ℕ :=
  s.pending.countP Op.serverward + (if s.server_handler = .idle then 0 else 1) +
    if s.started then 0 else 1

/-- A function adds at most `n` operations to startup and the server loop. -/
structure Adds (n : ℕ) (s s' : Session) : Prop where
  pending : s'.pending.countP Op.serverward ≤ s.pending.countP Op.serverward + n
  handler : s'.server_handler = s.server_handler
  closed : s'.server_closed_ = s.server_closed_
  started : s'.started = s.started

variable {s s' : Session} {n : ℕ}

theorem Adds.same (pending : s'.pending = s.pending) (handler : s'.server_handler = s.server_handler)
    (closed : s'.server_closed_ = s.server_closed_) (started : s'.started = s.started) :
    Adds n s s' :=
  ⟨by rw [pending]; exact Nat.le_add_right _ _, handler, closed, started⟩

theorem Adds.trans {m : ℕ} {mid : Session} (first : Adds n s mid) (second : Adds m mid s') :
    Adds (n + m) s s' := by
  refine ⟨?_, second.handler.trans first.handler, second.closed.trans first.closed,
    second.started.trans first.started⟩
  have left := first.pending
  have right := second.pending
  omega

/-- A change of other fields before adding operations. -/
theorem Adds.after {mid : Session} (second : Adds n mid s') (pending : mid.pending = s.pending)
    (handler : mid.server_handler = s.server_handler)
    (closed : mid.server_closed_ = s.server_closed_) (started : mid.started = s.started) :
    Adds n s s' := by
  have first : Adds 0 s mid := .same pending handler closed started
  have both := first.trans second
  rwa [Nat.zero_add] at both

theorem Adds.mono {m : ℕ} (adds : Adds n s s') (le : n ≤ m) : Adds m s s' :=
  ⟨Nat.le_trans adds.pending (Nat.add_le_add_left le _), adds.handler, adds.closed, adds.started⟩

variable (s)

theorem adds_arm (op : Op) : Adds 1 s (s.arm op) := by
  refine ⟨?_, rfl, rfl, rfl⟩
  rw [arm, List.countP_append]
  exact Nat.add_le_add_left List.countP_le_length _

theorem adds_arm_client {op : Op} (client : op.serverward = false) : Adds 0 s (s.arm op) := by
  refine ⟨?_, rfl, rfl, rfl⟩
  rw [arm, List.countP_append, List.countP_singleton, client]
  exact Nat.le_refl _

theorem adds_close : Adds n s s.close := by
  rw [close]
  split_ifs
  · exact .same rfl rfl rfl rfl
  · exact .same rfl rfl rfl rfl

theorem adds_failed (ec : ErrorCode) : Adds n s (s.failed ec) := by
  rw [failed]
  split_ifs
  · exact .same rfl rfl rfl rfl
  · exact adds_close s

theorem adds_connect_to_database (again : Bool) : Adds 1 s (s.connect_to_database again) := by
  rw [connect_to_database]
  split_ifs
  · exact .same rfl rfl rfl rfl
  · exact adds_arm s _

theorem adds_start : Adds 1 s s.start := by
  rw [start]
  split_ifs
  · exact .same rfl rfl rfl rfl
  · exact .same rfl rfl rfl rfl
  · exact adds_connect_to_database s _

theorem adds_read_client_startup : Adds 1 s s.read_client_startup := by
  rw [read_client_startup]
  split_ifs
  · exact .same rfl rfl rfl rfl
  · exact .same rfl rfl rfl rfl
  · exact (adds_arm _ _).after rfl rfl rfl rfl

theorem adds_read_client_startup_after_ssl : Adds 1 s s.read_client_startup_after_ssl := by
  rw [read_client_startup_after_ssl]
  split_ifs
  · exact .same rfl rfl rfl rfl
  · exact .same rfl rfl rfl rfl
  · exact (adds_arm _ _).after rfl rfl rfl rfl

theorem adds_check_server_ssl_support : Adds 1 s s.check_server_ssl_support := by
  rw [check_server_ssl_support]
  split_ifs
  · exact .same rfl rfl rfl rfl
  · split
    · exact .same rfl rfl rfl rfl
    · split_ifs
      · exact (adds_arm _ _).after rfl rfl rfl rfl
      · exact adds_connect_to_database s _

theorem adds_handle_ssl_request : Adds 1 s s.handle_ssl_request := by
  rw [handle_ssl_request]
  split_ifs
  · exact .same rfl rfl rfl rfl
  · exact .same rfl rfl rfl rfl
  · exact (adds_arm _ _).after rfl rfl rfl rfl

theorem adds_perform_ssl_handshake : Adds 1 s s.perform_ssl_handshake := by
  rw [perform_ssl_handshake]
  split_ifs
  · exact .same rfl rfl rfl rfl
  · exact adds_close s
  · exact (adds_arm _ _).after rfl rfl rfl rfl

theorem adds_relay_to_server (length : ℕ) : Adds 1 s (s.relay_to_server length) := by
  rw [relay_to_server]
  split_ifs
  · exact .same rfl rfl rfl rfl
  · exact .same rfl rfl rfl rfl
  · exact (adds_arm _ _).after rfl rfl rfl rfl

theorem adds_bridge_client_to_server : Adds 0 s s.bridge_client_to_server := by
  rw [bridge_client_to_server]
  split_ifs
  · exact .same rfl rfl rfl rfl
  · exact adds_arm_client s rfl
  · exact adds_arm_client s rfl
  · exact adds_close s

theorem adds_bridge_server_to_client : Adds 1 s s.bridge_server_to_client := by
  rw [bridge_server_to_client]
  split_ifs
  · exact .same rfl rfl rfl rfl
  · exact .same rfl rfl rfl rfl
  · exact adds_arm s _
  · exact adds_arm s _
  · exact adds_close s

theorem adds_forward (data : Bytes) : Adds 0 s (s.forward data) := by
  rw [forward]
  split_ifs
  · exact .same rfl rfl rfl rfl
  · exact (adds_arm_client _ rfl).after rfl rfl rfl rfl
  · exact (adds_close _).after rfl rfl rfl rfl

theorem adds_on_result (call : ℕ) (result : Bytes) : Adds 0 s (s.on_result call result) := by
  rw [on_result]
  split_ifs
  · exact .same rfl rfl rfl rfl
  · simp only
    split_ifs
    · exact (adds_arm_client _ rfl).after rfl rfl rfl rfl
    · exact (adds_arm_client _ rfl).after rfl rfl rfl rfl
    · exact .same rfl rfl rfl rfl

theorem adds_relay (data : Bytes) : Adds 1 s (s.relay data) := by
  rw [relay]
  split_ifs
  · exact .same rfl rfl rfl rfl
  · exact (adds_arm _ _).after rfl rfl rfl rfl
  · exact (adds_arm _ _).after rfl rfl rfl rfl
  · exact adds_close s

theorem adds_client_read (data : Bytes) : Adds 0 s (s.client_read data) := by
  rw [client_read]
  split_ifs
  · exact .same rfl rfl rfl rfl
  · exact (adds_forward _ _).after rfl rfl rfl rfl

theorem adds_flight_result (sql_query data : Bytes) (result : QueryCache.FlightResult) :
    Adds 0 s (s.flight_result sql_query data result) := by
  cases result with
  | CACHE_HIT => exact .same rfl rfl rfl rfl
  | IS_WAITER => exact .same rfl rfl rfl rfl
  | IS_LEADER => exact (adds_forward _ _).after rfl rfl rfl rfl

/-- The handler of any operation but a server read hands the chain on at most once; the client's own
operations hand on nothing. -/
theorem adds_succeed (data : Bytes) {op : Op} (other : op ≠ .server_read) :
    Adds op.serverward.toNat s (s.succeed data op) := by
  cases op with
  | server_read => contradiction
  | resolve again => exact adds_arm s _
  | connect again =>
    simp only [succeed]
    split_ifs
    · exact (adds_check_server_ssl_support _).after rfl rfl rfl rfl
    · exact (adds_read_client_startup _).after rfl rfl rfl rfl
  | read_client_startup =>
    simp only [succeed]
    split_ifs
    · exact (adds_check_server_ssl_support _).after rfl rfl rfl rfl
    · exact (adds_relay_to_server _ _).after rfl rfl rfl rfl
  | write_ssl_request => exact adds_arm s _
  | read_ssl_answer =>
    simp only [succeed]
    split_ifs
    · exact adds_perform_ssl_handshake s
    · exact adds_handle_ssl_request s
  | write_N => exact adds_relay_to_server s _
  | write_S => exact (adds_arm _ _).after rfl rfl rfl rfl
  | handshake_client =>
    simp only [succeed]
    split_ifs
    · exact adds_close s
    · exact adds_arm s _
  | handshake_server => exact (adds_read_client_startup_after_ssl _).after rfl rfl rfl rfl
  | read_client_startup_after_ssl =>
    simp only [succeed]
    split_ifs
    · exact .same rfl rfl rfl rfl
    · exact (adds_arm _ _).after rfl rfl rfl rfl
  | write_client_startup packet =>
    exact (adds_bridge_server_to_client s).trans (adds_bridge_client_to_server _)
  | relay_to_server packet =>
    exact (adds_bridge_client_to_server s).trans (adds_bridge_server_to_client _)
  | client_read => exact adds_client_read s data
  | server_write bytes => exact adds_bridge_client_to_server s
  | response_write bytes => exact adds_bridge_client_to_server s
  | client_write bytes => exact adds_bridge_server_to_client s

variable {s} {e : SessionEvent}

/-- A step adds nothing to the load, and `server_closed_` is set only where an operation ends. -/
structure Eased (s s' : Session) : Prop where
  load : s'.load ≤ s.load
  closed : s'.server_closed_ = s.server_closed_ ∨ s'.load < s.load

theorem Adds.load (adds : Adds n s s') : s'.load ≤ s.load + n := by
  have pending := adds.pending
  rw [Session.load, Session.load, adds.handler, adds.started]
  omega

private theorem Adds.eased (adds : Adds 0 s s') : Eased s s' :=
  ⟨adds.load, .inl adds.closed⟩

/-- Completing an operation takes it out of the load. -/
theorem load_erase {op : Op} (present : op ∈ s.pending) :
    load { s with pending := s.pending.erase op } + op.serverward.toNat = s.load := by
  have count := List.countP_erase Op.serverward s.pending op
  simp only [present, true_and] at count
  have positive : op.serverward = true → 0 < s.pending.countP Op.serverward := fun serverward =>
    List.countP_pos_iff.mpr ⟨op, present, serverward⟩
  cases serverward : op.serverward with
  | false =>
    simp only [load, count, serverward, Bool.false_eq_true, ↓reduceIte, Nat.sub_zero,
      Bool.toNat_false, Nat.add_zero]
  | true =>
    have some := positive serverward
    simp only [load, count, serverward, ↓reduceIte, Bool.toNat_true]
    omega

/-- After a read from the server, the notification or the write to the client carries the chain on. -/
private theorem load_server_read (data : Bytes) (idle : s.server_handler = .idle) :
    (s.server_read data).load ≤ s.load + 1 ∧
      (s.server_read data).server_closed_ = s.server_closed_ := by
  rw [server_read]
  simp only
  split_ifs with leading
  · simp [load, record, idle]
    omega
  · have adds : Adds 1 s ((record { s with server_buffer_ := fill s.server_buffer_ data }
        (.response data)).relay data) := (adds_relay _ data).after rfl rfl rfl rfl
    exact ⟨adds.load, adds.closed⟩

private theorem eased_succeed {op : Op} (present : op ∈ s.pending) (free : s.free op = true)
    (data : Bytes) : Eased s (Session.succeed { s with pending := s.pending.erase op } data op) := by
  have erased := load_erase present
  by_cases server : op = .server_read
  · subst server
    obtain ⟨load, closed⟩ := load_server_read (s := { s with pending := s.pending.erase .server_read })
      data (of_decide_eq_true free)
    refine ⟨?_, .inl closed⟩
    have one : Op.server_read.serverward.toNat = 1 := rfl
    simp only [Session.succeed]
    omega
  · have adds := adds_succeed { s with pending := s.pending.erase op } data server
    refine ⟨?_, .inl adds.closed⟩
    have load := adds.load
    omega

private theorem eased_fail {op : Op} (present : op ∈ s.pending) (ec : ErrorCode) :
    Eased s (Session.fail { s with pending := s.pending.erase op } ec op) := by
  have erased := load_erase present
  have fewer : ∀ s', Adds 0 { s with pending := s.pending.erase op } s' → Eased s s' := by
    intro s' adds
    refine ⟨?_, .inl adds.closed⟩
    have load := adds.load
    omega
  unfold Session.fail
  split
  iterate 4 exact fewer _ (adds_close _)
  · exact fewer _ (.same rfl rfl rfl rfl)
  · split
    · simp only
      split_ifs
      · exact fewer _ ((adds_close _).after rfl rfl rfl rfl)
      · exact fewer _ (.same rfl rfl rfl rfl)
    · exact fewer _ (adds_failed _ ec)
  · split
    · -- the server's EOF ends the chain
      have ended : ∀ s', Adds 0 { s with
          pending := s.pending.erase .server_read, server_closed_ := true } s' → Eased s s' := by
        intro s' adds
        have load := adds.load
        have less : Session.load { s with
            pending := s.pending.erase .server_read, server_closed_ := true } + 1 = s.load := erased
        exact ⟨by omega, .inr (by omega)⟩
      simp only
      split_ifs
      · exact ended _ (adds_close _)
      · exact ended _ (.same rfl rfl rfl rfl)
    · exact fewer _ (adds_failed _ ec)
  · exact fewer _ (adds_failed _ ec)

private theorem eased_erase {op : Op} (present : op ∈ s.pending) :
    Eased s { s with pending := s.pending.erase op } := by
  have erased := load_erase present
  exact ⟨by omega, .inl rfl⟩

theorem eased_of_step (taken : s.step? e = some s') : Eased s s' := by
  cases e with
  | start =>
    simp only [step?] at taken
    split_ifs at taken with unstarted
    obtain rfl := Option.some.inj taken
    have adds := adds_start { s with started := true }
    refine ⟨?_, .inl adds.closed⟩
    have load := adds.load
    have started : Session.load { s with started := true } + 1 = s.load := by
      simp [Session.load, unstarted]
    omega
  | complete op completion =>
    obtain ⟨present, free, ⟨data, rfl, -, rfl⟩ | ⟨ec, rfl, rfl⟩⟩ := complete_cases taken
    · simp only
      split_ifs
      · exact eased_erase present
      · exact eased_succeed present free data
    · simp only
      split_ifs
      · exact eased_erase present
      · exact eased_fail present ec
  | threw building =>
    simp only [step?, threw] at taken
    split_ifs at taken with present destroying
    · obtain rfl := Option.some.inj taken
      exact eased_erase present
    · obtain rfl := Option.some.inj taken
      have adds : Adds 0 { s with pending := s.pending.erase .write_S }
          (build_threw { s with pending := s.pending.erase .write_S } building).close := by
        cases building <;> exact (adds_close _).after rfl rfl rfl rfl
      refine ⟨?_, .inl adds.closed⟩
      have load := adds.load
      have erased := load_erase present
      omega
  | flight_result result =>
    simp only [step?] at taken
    split at taken
    · next sql_query data calling =>
      obtain rfl := Option.some.inj taken
      exact (adds_flight_result s sql_query data result).eased
    · contradiction
  | on_result call result =>
    simp only [step?] at taken
    split_ifs at taken
    obtain rfl := Option.some.inj taken
    exact (adds_on_result s call result).eased
  | notify_returned =>
    simp only [step?] at taken
    split at taken
    · next call query data notifying =>
      obtain rfl := Option.some.inj taken
      have adds := adds_relay { s with server_handler := .idle, current_query_ := [] } data
      refine ⟨?_, .inl adds.closed⟩
      have load := adds.load
      have idle : Session.load { s with server_handler := .idle, current_query_ := [] } + 1 =
          s.load := by
        simp [Session.load, notifying]
        omega
      exact Nat.le_trans load (Nat.le_of_eq idle)
    · contradiction
  | destroy =>
    simp only [step?, destroy] at taken
    split_ifs at taken
    obtain rfl := Option.some.inj taken
    exact ⟨Nat.le_refl _, .inl rfl⟩

/-- One chain at most is in progress, and none after the server's EOF. -/
structure Serial (s : Session) : Prop where
  one : s.load ≤ 1
  ended : s.server_closed_ = true → s.load = 0

theorem serial_init : Serial {} :=
  ⟨Nat.le_refl _, fun closed => absurd closed Bool.false_ne_true⟩

theorem Serial.step (serial : s.Serial) (taken : s.step? e = some s') : s'.Serial := by
  obtain ⟨load, closed⟩ := eased_of_step taken
  refine ⟨Nat.le_trans load serial.one, fun ended => ?_⟩
  have one := serial.one
  rcases closed with same | less
  · rw [same] at ended
    have none := serial.ended ended
    omega
  · omega

/-- An operation of the chain is in progress while the chain has a load. -/
theorem load_pos_of_server_read (present : .server_read ∈ s.pending) : 0 < s.load := by
  have some : 0 < s.pending.countP Op.serverward := List.countP_pos_iff.mpr ⟨_, present, rfl⟩
  rw [load]
  omega

/-- While one operation of the server's side is pending, nothing else of it is in progress. -/
theorem alone_of_pending {op : Op} (serial : s.Serial) (present : op ∈ s.pending)
    (serverward : op.serverward = true) :
    (∀ other ∈ s.pending.erase op, other.serverward = false) ∧ s.server_handler = .idle ∧
      s.started = true := by
  have erased := load_erase present
  have one := serial.one
  rw [serverward, Bool.toNat_true, load] at erased
  refine ⟨?_, ?_, ?_⟩
  · have none : (s.pending.erase op).countP Op.serverward = 0 := by
      simp only at erased
      omega
    exact fun other member => Bool.eq_false_iff.mpr (List.countP_eq_zero.mp none other member)
  · by_contra busy
    rw [if_neg busy] at erased
    omega
  · by_contra unstarted
    rw [if_neg unstarted] at erased
    omega

/-- While the server read's handler is in a call, nothing else of the server's side is in progress. -/
theorem alone_of_notifying (serial : s.Serial) (busy : s.server_handler ≠ .idle) :
    (∀ other ∈ s.pending, other.serverward = false) ∧ s.started = true := by
  have one := serial.one
  rw [load, if_neg busy] at one
  constructor
  · have none : s.pending.countP Op.serverward = 0 := by omega
    exact fun other member => Bool.eq_false_iff.mpr (List.countP_eq_zero.mp none other member)
  · by_contra unstarted
    rw [if_neg unstarted] at one
    omega

end Session

end FlightProxy
