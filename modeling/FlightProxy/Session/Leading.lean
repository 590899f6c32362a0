import FlightProxy.Session.Attribution
import FlightProxy.Session.Stages

/-! # From a leading read to the read that answers it

The handler of a client read that leads leaves its text in `current_query_`, and the handler of the
next server read notifies that text, unless it is empty: an empty `current_query_` means that no
query is led.
-/

namespace FlightProxy

/-- The text that a read hands over is not empty when a byte other than NUL stands at offset 5. -/
theorem intercept_ne_nil_iff {data query : Bytes} (query' : intercept data = some query) :
    query ≠ [] ↔ ∃ byte, data[5]? = some byte ∧ byte ≠ 0 := by
  unfold intercept at query'
  split_ifs at query'
  obtain rfl := Option.some.inj query'
  have head : (data.drop 5).head? = data[5]? := by rw [List.head?_drop]
  rw [← head]
  cases data.drop 5 with
  | nil => simp
  | cons byte rest =>
    by_cases nul : byte = 0
    · simp [nul]
    · simp [nul]

namespace Core

variable {c c' : Core} {e : SessionEvent}

/-- The client read's handler stops in doSingleFlight with the text of its read. -/
def Asks (c : Core) : Prop :=
  ∀ query data, c.client_handler = .calling query data → intercept data = some query

theorem asks_init : Asks ⟨.idle, .idle, [], 0, 0, []⟩ := nofun

theorem Asks.bridge (asks : c.Asks) (step : Bridge c e c') : c'.Asks := by
  cases step with
  | asks data sql_query idle nonempty query =>
    intro query' data' calling
    obtain ⟨rfl, rfl⟩ := ClientHandler.calling.inj calling
    exact query
  | quiet | early | passes | delivers | responds | notifies | notified => exact asks
  | answered | leads => exact nofun

end Core

namespace Session

variable {s t : Session} {e : SessionEvent} {query data response : Bytes}

/-- The call leads, and no read of the session has notified for it. -/
structure Led (s : Session) (call : ℕ) (query : Bytes) : Prop where
  alive : s.is_destroying_ = false
  idle : s.server_handler = .idle
  current_query_ : s.current_query_ = query
  leading : s.leading = call

/-- The session notifies for the call no more: it is being destroyed or has begun to notify, it leads
nothing, or it leads for a later call. -/
def Unled (s : Session) (call : ℕ) : Prop :=
  s.is_destroying_ = true ∨ s.server_handler ≠ .idle ∨ s.current_query_ = [] ∨ call < s.leading

/-- The call has been made, and a call that the client read's handler is in is a later one. -/
structure Past (s : Session) (call : ℕ) : Prop where
  called : call < s.calls
  later : s.client_handler ≠ .idle → call + 1 < s.calls

theorem Past.step {call : ℕ} (past : s.Past call) (taken : s.step? e = some t) : t.Past call := by
  have step := bridge_of_step taken
  generalize core' : t.core = c' at step
  have kept : call < c'.calls ∧ (c'.client_handler ≠ .idle → call + 1 < c'.calls) := by
    cases step with
    | asks => exact ⟨Nat.lt_succ_of_lt past.called, fun _ => Nat.succ_lt_succ past.called⟩
    | answered | leads => exact ⟨past.called, fun busy => absurd rfl busy⟩
    | quiet | early | passes | delivers | responds | notifies | notified => exact ⟨past.called, past.later⟩
  rw [← core'] at kept
  exact ⟨kept.1, kept.2⟩

theorem Unled.step {call : ℕ} (unled : s.Unled call) (past : s.Past call)
    (taken : s.step? e = some t) : t.Unled call := by
  rcases unled with destroying | unled
  · exact .inl (destroying_of_step destroying taken)
  have step := bridge_of_step taken
  generalize core' : t.core = c' at step
  have kept : c'.server_handler ≠ .idle ∨ c'.current_query_ = [] ∨ call < c'.leading := by
    cases step with
    | quiet | early | passes | asks | answered | delivers | responds => exact unled
    | leads sql data fate calling =>
      have later := past.later fun idle => by cases idle.symm.trans calling
      exact .inr (.inr (Nat.lt_sub_of_add_lt later))
    | notifies => exact .inl ServerHandler.noConfusion
    | notified => exact .inr (.inl rfl)
  rw [← core'] at kept
  exact .inr kept

/-- A read from the server notifies what is led, if anything is. -/
private theorem server_handler_server_read (idle : s.server_handler = .idle) :
    (s.server_read response).server_handler = if s.current_query_ ≠ [] then
      .notifying s.leading s.current_query_ response else .idle := by
  have leads : (Session.record { s with server_buffer_ := fill s.server_buffer_ response }
      (.response response)).current_query_ = s.current_query_ := rfl
  rw [server_read, leads]
  split_ifs
  · rfl
  · obtain ⟨relayed, after⟩ := core_relay (Session.record { s with
      server_buffer_ := fill s.server_buffer_ response } (.response response)) response
    exact (congrArg Core.server_handler after).trans idle

/-- What a read from the server leaves its handler in. -/
theorem server_handler_of_read (taken : s.step? (.complete .server_read (.ok response)) = some t) :
    s.server_handler = .idle ∧ t.server_handler =
      if s.is_destroying_ = false ∧ s.current_query_ ≠ [] then
        .notifying s.leading s.current_query_ response else .idle := by
  have completed : s.complete .server_read (.ok response) = some t := taken
  obtain ⟨-, free, -, after⟩ := complete_ok_cases completed
  have idle : s.server_handler = .idle := by simpa [Session.free] using free
  refine ⟨idle, ?_⟩
  cases alive : s.is_destroying_ with
  | true =>
    have same := congrArg Core.server_handler (core_of_closed alive completed)
    have idle' : t.server_handler = .idle := same.trans idle
    rw [idle', if_neg (by simp)]
  | false =>
    have after := after.trans (if_neg (by simp [alive]))
    rw [after]
    simp only [true_and]
    exact server_handler_server_read idle

/-- A leadership that has lasted is notified by the next read; any other is not. -/
theorem Led.notified {call : ℕ} (led : s.Led call query) (text : query ≠ [])
    (taken : s.step? (.complete .server_read (.ok response)) = some t) :
    t.server_handler = .notifying call query response := by
  rw [(server_handler_of_read taken).2, led.current_query_, led.leading, if_pos ⟨led.alive, text⟩]

theorem Unled.silent {call : ℕ} (unled : s.Unled call)
    (taken : s.step? (.complete .server_read (.ok response)) = some t) :
    t.server_handler ≠ .notifying call query response := by
  obtain ⟨idle, after⟩ := server_handler_of_read taken
  rw [after]
  split_ifs with leads
  · intro same
    obtain ⟨leading, -, -⟩ := ServerHandler.notifying.inj same
    rcases unled with destroying | busy | empty | later
    · exact Bool.false_ne_true (leads.1.symm.trans destroying)
    · exact busy idle
    · exact leads.2 empty
    · exact Nat.lt_irrefl _ (leading ▸ later)
  · exact ServerHandler.noConfusion

/-- A leadership lasts until the server is read or the session is told to lead again. -/
theorem Led.step {call : ℕ} (led : s.Led call query) (text : query ≠ []) (past : s.Past call)
    (taken : s.step? e = some t) :
    ((∀ response, e ≠ .complete .server_read (.ok response)) ∧ e ≠ .flight_result .IS_LEADER ∧
        (t.Led call query ∨ t.is_destroying_ = true)) ∨
      ((∃ response, e = .complete .server_read (.ok response)) ∨ e = .flight_result .IS_LEADER) ∧
        t.Unled call := by
  by_cases reads : ∃ response, e = .complete .server_read (.ok response)
  · obtain ⟨response, rfl⟩ := reads
    refine .inr ⟨.inl ⟨response, rfl⟩, .inr (.inl ?_)⟩
    rw [led.notified text taken]
    exact ServerHandler.noConfusion
  by_cases told : e = .flight_result .IS_LEADER
  · subst told
    refine .inr ⟨.inr rfl, ?_⟩
    simp only [step?] at taken
    split at taken
    · next sql data calling =>
      obtain rfl := Option.some.inj taken
      obtain ⟨fate, -, after⟩ := core_forward { s with
        client_handler := .idle, current_query_ := sql, leading := s.calls - 1 } data
      have leading : (s.flight_result sql data .IS_LEADER).leading = s.calls - 1 :=
        congrArg Core.leading after
      have later := past.later (by rw [calling]; exact ClientHandler.noConfusion)
      refine .inr (.inr (.inr ?_))
      rw [leading]
      exact Nat.lt_sub_of_add_lt later
    · contradiction
  refine .inl ⟨fun response same => reads ⟨response, same⟩, told, ?_⟩
  have step := bridge_of_step taken
  generalize core' : t.core = c' at step
  have kept : c'.server_handler = .idle ∧ c'.current_query_ = query ∧ c'.leading = call := by
    have before := And.intro led.idle (And.intro led.current_query_ led.leading)
    cases step with
    | quiet | early | passes | asks | answered | delivers => exact before
    | leads => exact absurd rfl told
    | responds data | notifies data => exact absurd ⟨data, rfl⟩ reads
    | notified call query data relayed notifying => cases led.idle.symm.trans notifying
  rw [← core'] at kept
  cases alive : t.is_destroying_ with
  | true => exact .inr rfl
  | false => exact .inl ⟨alive, kept.1, kept.2.1, kept.2.2⟩

/-- What being told `IS_LEADER` leaves in the session. -/
theorem led_of_told (calling : s.client_handler = .calling query data)
    (told : s.step? (.flight_result .IS_LEADER) = some t) :
    t.server_handler = s.server_handler ∧ t.current_query_ = query ∧ t.leading = s.calls - 1 ∧
      t.calls = s.calls ∧ t.client_handler = .idle := by
  simp only [step?, calling, Option.some.injEq] at told
  subst told
  obtain ⟨fate, -, after⟩ := core_forward { s with
    client_handler := .idle, current_query_ := query, leading := s.calls - 1 } data
  exact ⟨congrArg Core.server_handler after, congrArg Core.current_query_ after,
    congrArg Core.leading after, congrArg Core.calls after, congrArg Core.client_handler after⟩

end Session

end FlightProxy
