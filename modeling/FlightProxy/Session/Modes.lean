import FlightProxy.Session.Tokens

/-! # The mode of a session

The bridge runs in one of two modes, plain or SSL. A handler that is inside QueryCache when the
session is closed goes on with the mode it had: close() shuts the sockets and keeps them.
-/

namespace FlightProxy

/-- A handler goes on after its call into QueryCache, without testing `is_destroying_` again. -/
def SessionEvent.resumes : SessionEvent → Bool
  | .flight_result _ | .notify_returned => true
  | _ => false

namespace Session

variable {s s' : Session} {e : SessionEvent}

/-- One of the two modes; close() leaves it as it is. -/
def Moded (s : Session) : Prop := s.Plain ∨ s.Tls

namespace Moded

variable (moded : s.Moded)
include moded

theorem congr (same : s'.sockets = s.sockets) : s'.Moded :=
  moded.imp (Plain.congr · same) (Tls.congr · same)

theorem close : s.close.Moded := by
  have shut_isSome (socket : Option Socket) : (shut socket).isSome = socket.isSome := by
    cases socket <;> rfl
  rw [Session.close]
  split_ifs
  · exact moded
  · rcases moded with plain | tls
    · refine .inl ⟨plain.ssl_enabled_, ?_, ?_, ?_, ?_⟩
      · exact congrArg shut plain.client_ssl_socket_
      · exact congrArg shut plain.server_ssl_socket_
      · exact (shut_isSome _).trans plain.client_socket_
      · exact (shut_isSome _).trans plain.server_socket_
    · refine .inr ⟨tls.ssl_enabled_, ?_, ?_, ?_, ?_⟩
      · exact (shut_isSome _).trans tls.client_ssl_socket_
      · exact (shut_isSome _).trans tls.server_ssl_socket_
      · exact congrArg shut tls.client_socket_
      · exact congrArg shut tls.server_socket_

theorem bridge_client_to_server : s.bridge_client_to_server.Moded := by
  rw [Session.bridge_client_to_server]
  split_ifs
  · exact moded
  · exact moded.congr rfl
  · exact moded.congr rfl
  · exact moded.close

theorem bridge_server_to_client : s.bridge_server_to_client.Moded := by
  rw [Session.bridge_server_to_client]
  split_ifs
  · exact moded
  · exact moded
  · exact moded.congr rfl
  · exact moded.congr rfl
  · exact moded.close

theorem forward (data : Bytes) : (s.forward data).Moded := by
  rw [Session.forward]
  split_ifs
  · exact moded.congr rfl
  · exact moded.congr rfl
  · exact Moded.close (s := s.record _) (moded.congr rfl)

theorem relay (data : Bytes) : (s.relay data).Moded := by
  rw [Session.relay]
  split_ifs
  · exact moded
  · exact moded.congr rfl
  · exact moded.congr rfl
  · exact moded.close

theorem on_result (call : ℕ) (result : Bytes) : (s.on_result call result).Moded := by
  rw [Session.on_result]
  split_ifs
  · exact moded
  · simp only
    split_ifs
    · exact moded.congr rfl
    · exact moded.congr rfl
    · exact moded.congr rfl

theorem client_read (data : Bytes) : (s.client_read data).Moded := by
  rw [Session.client_read]
  simp only
  split_ifs
  · exact moded.congr rfl
  · apply Moded.forward
    exact moded.congr rfl

theorem flight_result (sql_query data : Bytes) (result : QueryCache.FlightResult) :
    (s.flight_result sql_query data result).Moded := by
  cases result with
  | CACHE_HIT | IS_WAITER => exact moded.congr rfl
  | IS_LEADER =>
    apply Moded.forward
    exact moded.congr rfl

theorem server_read (data : Bytes) : (s.server_read data).Moded := by
  rw [Session.server_read]
  simp only
  split_ifs
  · exact moded.congr rfl
  · apply Moded.relay
    exact moded.congr rfl

theorem notify_returned (data : Bytes) : (s.notify_returned data).Moded := by
  apply Moded.relay
  exact moded.congr rfl

theorem fail (ec : ErrorCode) (op : Op) : (s.fail ec op).Moded := by
  have failed : (s.failed ec).Moded := by
    rw [Session.failed]
    split_ifs
    · exact moded
    · exact moded.close
  unfold Session.fail
  split
  iterate 4 exact moded.close
  · exact moded
  · split
    · simp only
      split_ifs
      · exact Moded.close (s := { s with client_closed_ := true }) (moded.congr rfl)
      · exact moded.congr rfl
    · exact failed
  · split
    · simp only
      split_ifs
      · exact Moded.close (s := { s with server_closed_ := true }) (moded.congr rfl)
      · exact moded.congr rfl
    · exact failed
  · exact failed

end Moded

/-- A handler that is in a call into QueryCache. -/
def Busy (s : Session) : Prop := s.client_handler ≠ .idle ∨ s.server_handler ≠ .idle

theorem Fresh.not_busy {stage : Stage} (fresh : s.Fresh stage) : ¬ s.Busy := by
  rintro (busy | busy)
  · exact busy fresh.client_handler
  · exact busy fresh.server_handler

/-- No step of a session that bridges takes it out of its mode, but for the destructor. -/
private theorem moded_of_step (moded : s.Moded) (started : s.started = true)
    (ops : ∀ op ∈ s.pending, op.stage = .bridging ∨ s.is_destroying_ = true) (undestroyed : e ≠ .destroy)
    (taken : s.step? e = some s') : s'.Moded := by
  cases e with
  | start =>
    simp only [step?, started, if_true] at taken
    contradiction
  | complete op completion =>
    have rest : Moded { s with pending := s.pending.erase op } := moded.congr rfl
    obtain ⟨present, -, ⟨data, rfl, -, rfl⟩ | ⟨ec, -, rfl⟩⟩ := complete_cases taken
    · simp only
      split_ifs with gone
      · exact rest
      · have bridging := (ops op present).resolve_right gone
        cases op with
        | client_read => exact rest.client_read data
        | server_write | response_write => exact rest.bridge_client_to_server
        | server_read => exact rest.server_read data
        | client_write => exact rest.bridge_server_to_client
        | _ => contradiction
    · simp only
      split_ifs
      · exact rest
      · exact rest.fail ec op
  | threw building =>
    simp only [step?, threw] at taken
    split_ifs at taken with present gone
    · obtain rfl := Option.some.inj taken
      exact moded.congr rfl
    · exact absurd ((ops _ present).resolve_right gone) Stage.noConfusion
  | flight_result result =>
    simp only [step?] at taken
    split at taken
    · obtain rfl := Option.some.inj taken
      exact moded.flight_result _ _ result
    · contradiction
  | on_result call result =>
    simp only [step?] at taken
    split_ifs at taken
    obtain rfl := Option.some.inj taken
    exact moded.on_result call result
  | notify_returned =>
    simp only [step?] at taken
    split at taken
    · obtain rfl := Option.some.inj taken
      exact moded.notify_returned _
    · contradiction
  | destroy => exact absurd rfl undestroyed

private theorem entered_by_client_read (data : Bytes) :
    (s.client_read data).client_handler = s.client_handler ∨
      (s.client_read data).is_destroying_ = s.is_destroying_ := by
  rw [client_read]
  simp only
  split_ifs
  · exact .inr rfl
  · obtain ⟨fate, -, after⟩ := core_forward
      (({ s with client_buffer_ := fill s.client_buffer_ data }).record (.read data none)) data
    exact .inl (congrArg Core.client_handler after)

private theorem entered_by_server_read (data : Bytes) :
    (s.server_read data).server_handler = s.server_handler ∨
      (s.server_read data).is_destroying_ = s.is_destroying_ := by
  rw [server_read]
  simp only
  split_ifs
  · exact .inr rfl
  · obtain ⟨relayed, after⟩ := core_relay
      (({ s with server_buffer_ := fill s.server_buffer_ data }).record (.response data)) data
    exact .inl (congrArg Core.server_handler after)

/-- A handler enters QueryCache in a session that is not being destroyed. -/
private theorem busy_of_step (busy : s'.Busy) (destroying : s'.is_destroying_ = true)
    (taken : s.step? e = some s') : s.Busy := by
  by_contra idle
  simp only [Busy, not_or, not_not] at idle
  have entered : s'.client_handler ≠ s.client_handler ∨ s'.server_handler ≠ s.server_handler := by
    rw [idle.1, idle.2]
    exact busy
  -- only a read brings a handler into QueryCache, and neither closes the session then
  have read : (∃ data, e = .complete .client_read (.ok data)) ∧ s'.client_handler ≠ s.client_handler ∨
      (∃ data, e = .complete .server_read (.ok data)) ∧ s'.server_handler ≠ s.server_handler := by
    have step := bridge_of_step taken
    generalize core' : s'.core = c' at step
    have client' : s'.client_handler = c'.client_handler := congrArg Core.client_handler core'
    have server' : s'.server_handler = c'.server_handler := congrArg Core.server_handler core'
    rw [client', server'] at entered ⊢
    cases step with
    | asks data => exact entered.imp (⟨⟨data, rfl⟩, ·⟩) (absurd rfl)
    | notifies data => exact entered.imp (absurd rfl) (⟨⟨data, rfl⟩, ·⟩)
    | quiet | early | passes | delivers | responds => exact absurd (entered.elim (absurd rfl) (absurd rfl)) id
    | answered _ _ _ calling | leads _ _ _ calling =>
      exact absurd (idle.1.symm.trans calling) ClientHandler.noConfusion
    | notified _ _ _ _ notifying => exact absurd (idle.2.symm.trans notifying) ServerHandler.noConfusion
  rcases read with ⟨⟨data, rfl⟩, entered⟩ | ⟨⟨data, rfl⟩, entered⟩
  all_goals
    obtain ⟨-, -, -, rfl⟩ := complete_ok_cases taken
    simp only at entered destroying
    split_ifs at entered destroying with gone
    · exact entered rfl
  · rcases entered_by_client_read (s := { s with pending := s.pending.erase .client_read }) data with
      same | same
    · exact entered same
    · exact gone (same.symm.trans destroying)
  · rcases entered_by_server_read (s := { s with pending := s.pending.erase .server_read }) data with
      same | same
    · exact entered same
    · exact gone (same.symm.trans destroying)

/-- A session whose handlers are in QueryCache has its mode, also after it has been closed. -/
structure Steady (s : Session) : Prop where
  consistent : s.Consistent
  moded : s.Busy → s.Moded
  started : s.Busy → s.started = true

theorem steady_init : Steady {} := by
  refine ⟨consistent_init, ?_, ?_⟩
  · rintro (busy | busy) <;> exact absurd rfl busy
  · rintro (busy | busy) <;> exact absurd rfl busy

theorem Steady.step (steady : s.Steady) (taken : s.step? e = some s') : s'.Steady := by
  have consistent := steady.consistent.step taken
  suffices kept : s'.Busy → s'.Moded ∧ s'.started = true from
    ⟨consistent, fun busy => (kept busy).1, fun busy => (kept busy).2⟩
  intro busy
  rcases consistent with destroying | staged
  · have before := busy_of_step busy destroying taken
    have moded := steady.moded before
    have started := steady.started before
    have undestroyed : e ≠ .destroy := by
      rintro rfl
      simp only [step?, destroy] at taken
      split_ifs at taken with resting
      rcases before with before | before
      · exact before resting.2.2.2.1
      · exact before resting.2.2.2.2
    refine ⟨moded_of_step moded started ?_ undestroyed taken, ?_⟩
    · intro op present
      rcases steady.consistent with gone | staged
      · exact .inr gone
      · rcases staged.bridging_of_busy (before.elim .inl (.inr ∘ .inl)) with ⟨-, gone | ⟨-, ops, -⟩⟩
        · exact .inr gone
        · exact .inl (ops op present)
    · exact (started_of_step taken).elim (fun first => first.2.2) fun kept => kept.2.trans started
  · rcases staged.bridging_of_busy (busy.elim .inl (.inr ∘ .inl)) with ⟨mode, gone | ⟨-, -, started⟩⟩
    · cases staged with
      | connecting _ fresh => exact absurd busy fresh.not_busy
      | securing _ fresh => exact absurd busy fresh.not_busy
      | secured _ fresh => exact absurd busy fresh.not_busy
      | bridging mode _ started => exact ⟨mode, started⟩
    · exact ⟨mode, started⟩

/-- Whenever the bridge runs or picks a stream, also in a session that was closed while the handler was
in QueryCache, the session is in exactly one of the two modes, by which both directions are chosen
alike, and it keeps its sockets unless it closes. -/
theorem exactly_one_mode {ok : Session → SessionEvent → Prop} {es : List SessionEvent}
    (run : Transition.Path step? ok {} es s) (taken : s.step? e = some s')
    (bridges : e.bridges = true) (picks : s.is_destroying_ = false ∨ e.resumes = true) :
    Xor s.Tls s.Plain ∧ s.client_ssl = s.isServerSslEnabled ∧
      (s'.is_destroying_ = true ∨ s'.sockets = s.sockets) := by
  have steady : s.Steady :=
    run.preserves steady_init fun _ _ _ steady _ taken => steady.step taken
  have found : s.Moded ∧ (s'.is_destroying_ = true ∨ s'.sockets = s.sockets) := by
    rcases steady.consistent with destroying | staged
    · have resumes := picks.resolve_left (by simp [destroying])
      refine ⟨steady.moded ?_, .inl (destroying_of_step destroying taken)⟩
      cases e with
      | flight_result result =>
        refine .inl fun idle => ?_
        simp [step?, idle] at taken
      | notify_returned =>
        refine .inr fun idle => ?_
        simp [step?, idle] at taken
      | _ => contradiction
    · obtain ⟨mode, kept⟩ := staged.bridges taken bridges
      exact ⟨mode, kept.imp_right And.left⟩
  obtain ⟨mode, kept⟩ := found
  refine ⟨?_, ?_, kept⟩
  · rcases mode with plain | tls
    · exact .inr ⟨plain, plain.not_tls⟩
    · exact .inl ⟨tls, fun plain => plain.not_tls tls⟩
  · rcases mode with plain | tls
    · rw [client_ssl, isServerSslEnabled, plain.ssl_enabled_, Bool.false_and, Bool.false_and]
    · rw [client_ssl, isServerSslEnabled, tls.client_ssl_socket_, tls.server_ssl_socket_]

/-- The packet of a plain client has been relayed, and the bridge starts. -/
theorem exactly_one_mode_run : ∃ s : Session, Xor s.Tls s.Plain := by
  have run : ∃ s s' : Session, Transition.Path step? Transition.always {}
      [.start, .complete (.resolve false) (.ok []), .complete (.connect false) (.ok []),
        .complete .read_client_startup (.ok [0x00, 0x00, 0x00, 0x08, 0x00, 0x03, 0x00, 0x00])] s ∧
      s.step? (.complete (.relay_to_server
        [0x00, 0x00, 0x00, 0x08, 0x00, 0x03, 0x00, 0x00]) (.ok [])) = some s' ∧
      s.is_destroying_ = false :=
    ⟨_, _, Transition.replay_eq_some_iff.mp rfl, rfl, rfl⟩
  obtain ⟨s, s', path, taken, alive⟩ := run
  exact ⟨s, (exactly_one_mode path taken (by decide) (.inl alive)).1⟩

end Session

end FlightProxy
