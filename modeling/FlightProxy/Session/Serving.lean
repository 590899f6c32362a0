import FlightProxy.Session.Holding
import FlightProxy.Session.Leading
import FlightProxy.Session.Modes

/-! # A session that leads goes on listening to the server

The query that a session leads is notified by the next read from the server. While the session is not
closed and the server can be reached, the loop on the server's side comes to that read.
-/

namespace FlightProxy

/-- The operations of the loop on the server's side. -/
def Op.listens : Op → Bool
  | .server_read | .client_write _ => true
  | _ => false

namespace Session

/-- The session is not being destroyed, can reach the server, and its loop on the server's side runs. -/
structure Listening (s : Session) : Prop where
  alive : s.is_destroying_ = false
  reaches : s.reaches_server = true
  loop : ∃ op ∈ s.pending, op.listens = true

/-- A session that leads a query does not lose an operation of the loop on the server's side, and no
other failure closes it; one that is told to lead listens to the server and leads nothing else. -/
def Heeds (s : Session) : SessionEvent → Prop
  | .complete op (.error ec) =>
    s.current_query_ ≠ [] → op.listens = false ∧ (s.fail ec op).is_destroying_ = false
  | .flight_result .IS_LEADER => s.Listening ∧ s.current_query_ = [] ∧ s.server_handler = .idle
  | _ => True

variable {s t : Session} {e : SessionEvent} {call : ℕ} {query : Bytes}

/-- Whether the server can be reached depends on the sockets, and on the server's EOF. -/
theorem reaches_congr (same : t.sockets = s.sockets) (closed : t.server_closed_ = s.server_closed_) :
    t.reaches_server = s.reaches_server := by
  simp only [sockets, Prod.mk.injEq] at same
  obtain ⟨enabled, -, server_ssl, -, server⟩ := same
  simp only [reaches_server, isServerSslEnabled, getServerSocket, closed, enabled, server_ssl, server]

theorem Listening.congr (listening : s.Listening) (alive : t.is_destroying_ = s.is_destroying_)
    (same : t.sockets = s.sockets) (closed : t.server_closed_ = s.server_closed_)
    (kept : ∀ op ∈ s.pending, op.listens = true → op ∈ t.pending) : t.Listening := by
  obtain ⟨op, member, listens⟩ := listening.loop
  exact ⟨alive.trans listening.alive, (reaches_congr same closed).trans listening.reaches,
    op, kept op member listens, listens⟩

private theorem Listening.arm (listening : s.Listening) (op : Op) : (s.arm op).Listening :=
  listening.congr rfl rfl rfl fun _ member _ => List.mem_append_left _ member

private theorem Listening.record (listening : s.Listening) (action : Action) :
    (s.record action).Listening :=
  listening.congr rfl rfl rfl fun _ member _ => member

private theorem Listening.forward (listening : s.Listening) (data : Bytes) :
    (s.forward data).Listening := by
  rw [forward_of_reaches listening.reaches]
  exact (listening.record _).arm _

private theorem Listening.bridge_client_to_server (listening : s.Listening) (moded : s.Moded) :
    s.bridge_client_to_server.Listening := by
  rw [Session.bridge_client_to_server, if_neg (Bool.eq_false_iff.mp listening.alive)]
  split_ifs with ssl socket
  · exact listening.arm _
  · exact listening.arm _
  · rcases moded with plain | tls
    · exact absurd plain.client_socket_ socket
    · exact absurd (by simp [client_ssl, tls.ssl_enabled_, tls.client_ssl_socket_]) ssl

/-- The loop goes on with a read. -/
private theorem listening_of_bridge (alive : s.is_destroying_ = false) (reaches : s.reaches_server = true) :
    s.bridge_server_to_client.Listening := by
  simp only [reaches_server, Bool.and_eq_true, Bool.not_eq_true', Bool.or_eq_true] at reaches
  have loop : ∃ op ∈ (s.arm .server_read).pending, op.listens = true :=
    ⟨.server_read, List.mem_append_right _ (List.mem_singleton_self _), rfl⟩
  have armed : (s.arm .server_read).Listening := by
    refine ⟨alive, ?_, loop⟩
    simp only [reaches_server, Bool.and_eq_true, Bool.not_eq_true', Bool.or_eq_true]
    exact reaches
  rw [bridge_server_to_client, if_neg (Bool.eq_false_iff.mp alive), if_neg (Bool.eq_false_iff.mp reaches.1)]
  split_ifs with ssl socket
  · exact armed
  · exact armed
  · exact absurd (reaches.2.resolve_left ssl) socket

private theorem close_server_closed (s : Session) : s.close.server_closed_ = s.server_closed_ := by
  rw [close]
  split_ifs <;> rfl

/-- Only the server's EOF is noted as such. -/
private theorem fail_server_closed {op : Op} (ec : ErrorCode) (other : op ≠ .server_read) :
    (s.fail ec op).server_closed_ = s.server_closed_ := by
  have failed : (s.failed ec).server_closed_ = s.server_closed_ := by
    rw [Session.failed]
    split_ifs
    · rfl
    · exact close_server_closed s
  unfold Session.fail
  split
  iterate 4 exact close_server_closed s
  · rfl
  · split_ifs
    · simp only
      split_ifs
      · exact close_server_closed _
      · rfl
    · exact failed
  · exact absurd rfl other
  · exact failed

/-- Whether a failure closes does not depend on what else is pending. -/
private theorem fail_pending (ops : List Op) (ec : ErrorCode) (op : Op) :
    (({ s with pending := ops } : Session).fail ec op).is_destroying_ = (s.fail ec op).is_destroying_ := by
  have close : ∀ u : Session, ({ u with pending := ops } : Session).close.is_destroying_ =
      u.close.is_destroying_ := fun u => destroying_close.trans destroying_close.symm
  have failed : (({ s with pending := ops } : Session).failed ec).is_destroying_ =
      (s.failed ec).is_destroying_ := by
    rw [Session.failed, Session.failed]
    split_ifs
    · rfl
    · exact close s
  unfold Session.fail
  cases op with
  | resolve | connect | handshake_client | write_client_startup => exact close s
  | response_write => rfl
  | client_read =>
    simp only
    split_ifs
    · exact close { s with client_closed_ := true }
    · rfl
    · exact failed
  | server_read =>
    simp only
    split_ifs
    · exact close { s with server_closed_ := true }
    · rfl
    · exact failed
  | _ => exact failed

/-- A failure outside of the server's loop leaves the loop alone, when it does not close. -/
private theorem listening_of_fail {op : Op} {ec : ErrorCode} {ops : List Op} (listening : s.Listening)
    (other : op.listens = false) (spared : (s.fail ec op).is_destroying_ = false)
    (kept : ∀ op ∈ s.pending, op.listens = true → op ∈ ops) :
    (({ s with pending := ops } : Session).fail ec op).Listening := by
  have alive := (fail_pending ops ec op).trans spared
  obtain ⟨pending, -, sockets⟩ := fail_kept { s with pending := ops } ec op
  have same := sockets.resolve_left (Bool.eq_false_iff.mp alive)
  have noted := @fail_server_closed { s with pending := ops } op ec
    (by rintro rfl; contradiction)
  refine listening.congr (alive.trans listening.alive.symm) same noted ?_
  rw [pending]
  exact kept

/-- While a session leads, each step that is not the read from the server leaves it listening. -/
theorem Listening.step (listening : s.Listening) (consistent : s.Consistent)
    (leads : s.current_query_ ≠ []) (idle : s.server_handler = .idle) (heeds : s.Heeds e)
    (unread : ∀ response, e ≠ .complete .server_read (.ok response)) (taken : s.step? e = some t) :
    t.Listening := by
  obtain ⟨listener, member, listens⟩ := listening.loop
  have staged := consistent.resolve_left (Bool.eq_false_iff.mp listening.alive)
  have stage : listener.stage = .bridging := by cases listener <;> first | rfl | contradiction
  obtain ⟨mode, bridges⟩ := (staged.of_pending member).2.2.2 stage
  obtain ⟨-, ops, started⟩ := bridges.resolve_left (Bool.eq_false_iff.mp listening.alive)
  cases e with
  | start =>
    simp only [step?, started, if_true] at taken
    contradiction
  | complete op completion =>
    have completed : s.complete op completion = some t := taken
    obtain ⟨present, -, ⟨data, rfl, -, rfl⟩ | ⟨ec, rfl, rfl⟩⟩ := complete_cases completed
    · simp only
      rw [if_neg (Bool.eq_false_iff.mp listening.alive)]
      have bridging := ops op present
      -- the loop's operation stays, unless it is the one that ends
      have rest : op.listens = false → Session.Listening { s with pending := s.pending.erase op } := by
        intro other
        refine listening.congr rfl rfl rfl fun kept member' listens' => ?_
        refine (List.mem_erase_of_ne ?_).mpr member'
        rintro rfl
        rw [other] at listens'
        contradiction
      cases op with
      | client_read =>
        have rest := rest rfl
        rw [succeed, client_read]
        simp only
        split_ifs
        · exact rest.congr rfl rfl rfl fun _ member _ => member
        · refine Listening.forward (Listening.record (s := { s with
            pending := s.pending.erase .client_read
            client_buffer_ := fill s.client_buffer_ data }) ?_ _) data
          exact rest.congr rfl rfl rfl fun _ member _ => member
      | server_write bytes => exact (rest rfl).bridge_client_to_server (Moded.congr mode rfl)
      | response_write bytes => exact (rest rfl).bridge_client_to_server (Moded.congr mode rfl)
      | server_read => exact absurd rfl (unread data)
      | client_write bytes => exact listening_of_bridge listening.alive listening.reaches
      | _ => contradiction
    · obtain ⟨other, spared⟩ := heeds leads
      simp only
      rw [if_neg (Bool.eq_false_iff.mp listening.alive)]
      refine listening_of_fail listening other spared fun kept member' listens' => ?_
      refine (List.mem_erase_of_ne ?_).mpr member'
      rintro rfl
      rw [other] at listens'
      contradiction
  | threw building =>
    simp only [step?, threw] at taken
    split_ifs at taken with present
    · exact absurd (ops _ present) (by simp [Op.stage])
    · exact absurd (ops _ present) (by simp [Op.stage])
  | flight_result result =>
    simp only [step?] at taken
    split at taken
    · next sql_query data calling =>
      obtain rfl := Option.some.inj taken
      cases result with
      | CACHE_HIT | IS_WAITER => exact listening.congr rfl rfl rfl fun _ member _ => member
      | IS_LEADER => exact absurd heeds.2.1 leads
    · contradiction
  | on_result call result =>
    simp only [step?] at taken
    split_ifs at taken
    obtain rfl := Option.some.inj taken
    rw [on_result]
    simp only
    split_ifs
    · exact listening
    · exact listening.congr rfl rfl rfl fun _ member _ => List.mem_append_left _ member
    · exact listening.congr rfl rfl rfl fun _ member _ => List.mem_append_left _ member
    · exact listening.congr rfl rfl rfl fun _ member _ => member
  | notify_returned =>
    simp only [step?, idle] at taken
    contradiction
  | destroy =>
    simp only [step?, destroy] at taken
    split_ifs at taken with resting
    rw [resting.2.2.1] at member
    exact absurd member List.not_mem_nil

/-! ## What the session is at with a call that leads -/

/-- The session is in the call, leads its query and listens to the server, or notifies for it. -/
inductive Serves (s : Session) (call : ℕ) (query : Bytes) : Prop
  | asking (data : Bytes) (calling : s.client_handler = .calling query data)
      (last : call + 1 = s.calls)
  | leading (led : s.Led call query) (past : s.Past call) (listening : s.Listening)
  | notifying (result : Bytes) (handler : s.server_handler = .notifying call query result)

/-- The handler stays in notifyFlightResult until that has returned. -/
private theorem notifying_stays {result : Bytes} (handler : s.server_handler = .notifying call query result)
    (taken : s.step? e = some t) :
    t.server_handler = .notifying call query result ∨ e = .notify_returned := by
  have step := bridge_of_step taken
  generalize core' : t.core = c' at step
  have kept : c'.server_handler = .notifying call query result ∨ e = .notify_returned := by
    cases step with
    | quiet | early | passes | asks | answered | leads | delivers => exact .inl handler
    | responds data relayed idle | notifies data idle => cases idle.symm.trans handler
    | notified => exact .inr rfl
  rw [← core'] at kept
  exact kept

/-- A session that is told that the call leads, and nothing else, goes on serving it. -/
theorem Serves.step (serves : s.Serves call query) (text : query ≠ []) (consistent : s.Consistent)
    (told : ∀ result, e = .flight_result result → call + 1 = s.calls → result = .IS_LEADER)
    (heeds : (∀ result, s.server_handler ≠ .notifying call query result) → s.Heeds e)
    (taken : s.step? e = some t) : t.Serves call query ∨
      (∃ result, s.server_handler = .notifying call query result) ∧ e = .notify_returned := by
  by_cases notifies : ∃ result, s.server_handler = .notifying call query result
  · obtain ⟨result, handler⟩ := notifies
    rcases notifying_stays handler taken with stays | returned
    · exact .inl (.notifying result stays)
    · exact .inr ⟨⟨result, handler⟩, returned⟩
  have heeds := heeds (not_exists.mp notifies)
  cases serves with
  | asking data calling last =>
    left
    by_cases leads : e = .flight_result .IS_LEADER
    · subst leads
      obtain ⟨listening, -, idle⟩ := heeds
      obtain ⟨handler, current, leading, calls, idle'⟩ := led_of_told calling taken
      have listening' : t.Listening := by
        simp only [step?, calling, Option.some.injEq] at taken
        rw [← taken]
        refine Listening.forward (s := { s with
          client_handler := .idle, current_query_ := query, leading := s.calls - 1 }) ?_ data
        exact listening.congr rfl rfl rfl fun _ member _ => member
      refine .leading ⟨listening'.alive, handler.trans idle, current, by omega⟩ ⟨by omega, ?_⟩ listening'
      exact fun busy => absurd idle' busy
    · have step := bridge_of_step taken
      generalize core' : t.core = c' at step
      have kept : c'.client_handler = .calling query data ∧ c'.calls = s.calls := by
        cases step with
        | quiet | early | delivers | responds | notifies | notified => exact ⟨calling, rfl⟩
        | passes data fate idle | asks data sql idle => cases idle.symm.trans calling
        | answered sql data result => exact absurd (told result rfl last) (by assumption)
        | leads => exact absurd rfl leads
      rw [← core'] at kept
      exact .asking data kept.1 (last.trans kept.2.symm)
  | leading led past listening =>
    have leads : s.current_query_ ≠ [] := by
      rw [led.current_query_]
      exact text
    rcases led.step text past taken with ⟨unread, -, led' | gone⟩ | ⟨read | told, unled⟩
    · exact .inl (.leading led' (past.step taken)
        (listening.step consistent leads led.idle heeds unread taken))
    · have alive := (listening.step consistent leads led.idle heeds unread taken).alive
      rw [gone] at alive
      contradiction
    · obtain ⟨response, rfl⟩ := read
      exact .inl (.notifying response (led.notified text taken))
    · subst told
      exact absurd heeds.2.1 leads
  | notifying result handler => exact absurd ⟨result, handler⟩ notifies

end Session

end FlightProxy
