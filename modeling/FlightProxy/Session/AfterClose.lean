import FlightProxy.Session.Bridge
import FlightProxy.Session.History

/-! # A session after close

Every handler and every callback first looks at `is_destroying_`. So whatever is still to be delivered
to a session that has been closed finds it closed and does nothing; only a handler that was stopped
in a call into QueryCache when the session closed goes on.
-/

namespace FlightProxy

open Transition

/-- A handler or a callback begins, rather than goes on after a call into QueryCache. -/
def SessionEvent.begins : SessionEvent → Bool
  | .flight_result _ | .notify_returned => false
  | _ => true

namespace Session

/-- A closed session stays closed: no operation is started, QueryCache is not called, nothing is
recorded, and the fields that the handlers share keep their values. -/
structure Inert (s s' : Session) : Prop where
  is_destroying_ : s'.is_destroying_ = true
  pending : s'.pending.Sublist s.pending
  client_handler : s'.client_handler = s.client_handler
  server_handler : s'.server_handler = s.server_handler
  calls : s'.calls = s.calls
  log : s'.log = s.log
  current_query_ : s'.current_query_ = s.current_query_
  cached_response_ : s'.cached_response_ = s.cached_response_
  ssl_enabled_ : s'.ssl_enabled_ = s.ssl_enabled_

variable {s s' t : Session} {e : SessionEvent} {es : List SessionEvent}

theorem Inert.refl (destroying : s.is_destroying_ = true) : s.Inert s :=
  ⟨destroying, List.Sublist.refl _, rfl, rfl, rfl, rfl, rfl, rfl, rfl⟩

theorem Inert.trans (first : s.Inert s') (second : s'.Inert t) : s.Inert t where
  is_destroying_ := second.is_destroying_
  pending := second.pending.trans first.pending
  client_handler := second.client_handler.trans first.client_handler
  server_handler := second.server_handler.trans first.server_handler
  calls := second.calls.trans first.calls
  log := second.log.trans first.log
  current_query_ := second.current_query_.trans first.current_query_
  cached_response_ := second.cached_response_.trans first.cached_response_
  ssl_enabled_ := second.ssl_enabled_.trans first.ssl_enabled_

/-- A handler that finds the session closed only ends its operation. -/
theorem inert_erase (s : Session) (op : Op) :
    s.Inert { s with is_destroying_ := true, pending := s.pending.erase op } :=
  ⟨rfl, List.erase_sublist, rfl, rfl, rfl, rfl, rfl, rfl, rfl⟩

theorem close_of_destroying (destroying : s.is_destroying_ = true) : s.close = s := if_pos destroying

/-- What begins in a closed session changes nothing. -/
theorem inert_of_step (destroying : s.is_destroying_ = true) (begins : e.begins = true)
    (taken : s.step? e = some s') : s.Inert s' := by
  cases e with
  | start =>
    simp only [step?, start, destroying, ↓reduceIte] at taken
    split_ifs at taken
    obtain rfl := Option.some.inj taken
    exact ⟨rfl, List.Sublist.refl _, rfl, rfl, rfl, rfl, rfl, rfl, rfl⟩
  | complete op completion =>
    obtain ⟨-, -, ⟨data, -, -, rfl⟩ | ⟨ec, -, rfl⟩⟩ := complete_cases taken
    · simp only [destroying, ↓reduceIte]
      exact inert_erase s op
    · simp only [destroying, ↓reduceIte]
      exact inert_erase s op
  | threw building =>
    simp only [step?, threw, destroying, ↓reduceIte] at taken
    split_ifs at taken
    obtain rfl := Option.some.inj taken
    exact inert_erase s .write_S
  | on_result call result =>
    simp only [step?, on_result, destroying, ↓reduceIte] at taken
    split_ifs at taken
    obtain rfl := Option.some.inj taken
    exact .refl destroying
  | destroy =>
    simp only [step?, destroy] at taken
    split_ifs at taken
    obtain rfl := Option.some.inj taken
    exact ⟨rfl, List.Sublist.refl _, rfl, rfl, rfl, rfl, rfl, rfl, rfl⟩
  | flight_result | notify_returned => contradiction

/-- No handler goes on after a call when none is stopped in one. -/
theorem begins_of_idle (client : s.client_handler = .idle) (server : s.server_handler = .idle)
    (taken : s.step? e = some s') : e.begins = true := by
  cases e with
  | flight_result result => simp [step?, client] at taken
  | notify_returned => simp [step?, server] at taken
  | _ => rfl

/-- Once a session has been closed, closing it again changes nothing, and neither does any handler or
callback that is delivered later; when no handler was stopped in a call, nothing at all does. -/
theorem inert_after_close (destroying : s.is_destroying_ = true) (rest : Path step? always s es t) :
    t.close = t ∧ (∀ e t', e.begins = true → t.step? e = some t' → t.Inert t') ∧
      (s.client_handler = .idle → s.server_handler = .idle → s.Inert t) := by
  have closed : t.is_destroying_ = true := by
    apply rest.preserves (I := fun t => t.is_destroying_ = true) destroying
    intro s e s' destroying _ taken
    exact destroying_of_step destroying taken
  refine ⟨close_of_destroying closed, fun e t' begins taken => inert_of_step closed begins taken, ?_⟩
  intro client server
  apply rest.preserves (I := fun t => s.Inert t) (.refl destroying)
  intro u e u' inert _ taken
  have begins := begins_of_idle (inert.client_handler.trans client)
    (inert.server_handler.trans server) taken
  exact inert.trans (inert_of_step inert.is_destroying_ begins taken)

/-- The server's connection fails while the client waits for a flight; then the callback is run. -/
theorem inert_after_close_run : ∃ s t : Session,
    Path step? always {} (connected ++
      [.complete .client_read (.ok [0x51, 0x00, 0x00, 0x00, 0x06, 0x71, 0x00]),
        .flight_result .IS_WAITER, .complete .server_read (.error .other)]) s ∧
      Path step? always s [.on_result 0 [0x5a]] t ∧ t.close = t ∧ s.Inert t := by
  have run : ∃ s t : Session,
      Path step? always {} (connected ++
        [.complete .client_read (.ok [0x51, 0x00, 0x00, 0x00, 0x06, 0x71, 0x00]),
          .flight_result .IS_WAITER, .complete .server_read (.error .other)]) s ∧
        Path step? always s [.on_result 0 [0x5a]] t ∧ s.is_destroying_ = true ∧
          s.client_handler = .idle ∧ s.server_handler = .idle := by
    refine ⟨_, _, replay_eq_some_iff.mp rfl, .cons trivial rfl (.nil _), ?_, ?_, ?_⟩ <;> rfl
  obtain ⟨s, t, path, rest, destroying, client, server⟩ := run
  obtain ⟨closed, -, inert⟩ := inert_after_close destroying rest
  exact ⟨s, t, path, rest, closed, inert client server⟩

end Session

end FlightProxy
