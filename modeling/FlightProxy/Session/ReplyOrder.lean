import FlightProxy.Session.Balance

/-! # When a session replies in order

The server loop relays each read before it takes the next. So when callbacks keep to the rule, a
session writes replies in the order of the requests, and one at a time.
-/

namespace FlightProxy.Session

open Transition

variable {server : Server} {s s' : Session} {e : SessionEvent} {es : List SessionEvent}

/-- The server loop has relayed what it has read, but for the read that is being notified, as long as
it goes on. -/
structure Returned (s : Session) : Prop where
  behind : relayed s.log <+: from_server s.log
  all : 0 < s.load → s.server_handler = .idle → relayed s.log = from_server s.log
  notifying : ∀ {call query data}, s.server_handler = .notifying call query data →
    data ≠ [] ∧ from_server s.log = relayed s.log ++ data

theorem returned_init : Returned {} := ⟨List.prefix_refl _, fun _ _ => rfl, nofun⟩

/-- The chain of startup and of the server loop has come to an end. -/
private theorem load_eq_zero (unused : ∀ op ∈ s.pending, op.serverward = false)
    (idle : s.server_handler = .idle) (started : s.started = true) : s.load = 0 := by
  have none : s.pending.countP Op.serverward = 0 :=
    List.countP_eq_zero.mpr fun op member => by simp [unused op member]
  rw [load, none, idle, started]
  rfl

private theorem Returned.kept (returned : s.Returned) (taken : s.step? e = some s')
    (heard : from_server s'.log = from_server s.log) (told : relayed s'.log = relayed s.log)
    (handler : s'.server_handler = s.server_handler) : s'.Returned := by
  have load := (eased_of_step taken).load
  refine ⟨?_, ?_, ?_⟩
  · rw [heard, told]
    exact returned.behind
  · intro goes_on idle
    rw [heard, told]
    exact returned.all (by omega) (handler.symm.trans idle)
  · intro call query data notifying
    rw [heard, told]
    exact returned.notifying (handler.symm.trans notifying)

theorem nonempty_of_read {data : Bytes} (taken : s.step? (.complete .server_read (.ok data)) = some s') :
    data ≠ [] := by
  have completed : s.complete .server_read (.ok data) = some s' := taken
  rintro rfl
  simp [complete, delivers] at completed

theorem Returned.step (serial : s.Serial) (returned : s.Returned) (taken : s.step? e = some s') :
    s'.Returned := by
  have turn := turn_of_step taken
  generalize core' : s'.core = c' at turn
  generalize pending' : s'.pending = ops' at turn
  have log : s'.log = c'.log := congrArg Core.log core'
  have handler : s'.server_handler = c'.server_handler := congrArg Core.server_handler core'
  have aside : ∀ {news : List Action}, c'.log = s.log ++ news → from_server news = [] →
      relayed news = [] → c'.server_handler = s.server_handler → s'.Returned := by
    intro news grown unheard untold same
    refine returned.kept taken ?_ ?_ (handler.trans same)
    · rw [log, grown, from_server_append, unheard, List.append_nil]
    · rw [log, grown, relayed_append, untold, List.append_nil]
  have started : e ≠ .start → s'.started = s.started := by
    intro other
    rcases started_of_step taken with ⟨same, -⟩ | ⟨-, same⟩
    · exact absurd same other
    · exact same
  cases turn with
  | quiet | starts | ends | threw | begins | reads_client | reads_server =>
    exact aside (List.append_nil _).symm rfl rfl rfl
  | hands_on op data next actions present startup startup' early =>
    have unheard : from_server actions = [] := by
      rw [from_server, List.flatten_eq_nil_iff]
      intro data member
      obtain ⟨action, here, same⟩ := List.mem_filterMap.mp member
      have startup := early action here
      cases action <;> contradiction
    have untold : relayed actions = [] := by
      rw [relayed, List.flatMap_eq_nil_iff]
      intro action here
      have startup := early action here
      cases action <;> first | rfl | contradiction
    exact aside rfl unheard untold rfl
  | passes | asks | answered | leads | delivers => exact aside rfl rfl rfl rfl
  | responds data relays present idle none =>
    obtain ⟨others, -, began⟩ := alone_of_pending serial present rfl
    have all := returned.all (load_pos_of_server_read present) idle
    have heard : from_server s'.log = from_server s.log ++ data := by
      rw [log, Core.record, from_server_append]
      cases relays <;> simp [from_server, responses, core]
    have told : relayed s'.log = relayed s.log ++ if relays then data else [] := by
      rw [log, Core.record, relayed_append]
      cases relays <;> simp [relayed, core]
    refine ⟨?_, ?_, ?_⟩
    · rw [heard, told, all]
      cases relays <;> simp
    · intro goes_on _
      cases relays with
      | true => rw [heard, told, all, if_pos rfl]
      | false =>
        rw [load_eq_zero (fun op member => ?_) (handler.trans idle) ((started (by simp)).trans began)]
          at goes_on
        · exact absurd goes_on (Nat.lt_irrefl 0)
        · rw [pending'] at member
          exact others op (by simpa using member)
    · intro call query data notifying
      have busy := idle.symm.trans (handler.symm.trans notifying)
      contradiction
  | notifies data present idle leading =>
    have all := returned.all (load_pos_of_server_read present) idle
    have heard : from_server s'.log = from_server s.log ++ data := by
      rw [log, from_server_append]
      simp [from_server, responses, core]
    have told : relayed s'.log = relayed s.log := by
      rw [log, relayed_append]
      simp [relayed, core]
    refine ⟨?_, ?_, ?_⟩
    · rw [heard, told, all]
      exact List.prefix_append _ _
    · intro _ idle'
      have busy := handler.symm.trans idle'
      contradiction
    · intro call query data' notifying
      obtain ⟨-, -, rfl⟩ := ServerHandler.notifying.inj (handler.symm.trans notifying)
      rw [heard, told, all]
      exact ⟨nonempty_of_read taken, rfl⟩
  | notified call query data relays notifying =>
    obtain ⟨nonempty, more⟩ := returned.notifying notifying
    have here : s.server_handler = .notifying call query data := notifying
    obtain ⟨others, began⟩ := alone_of_notifying serial (by simp [here])
    have heard : from_server s'.log = relayed s.log ++ data := by
      rw [log, from_server_append, ← more]
      cases relays <;> simp [from_server, responses, core]
    have told : relayed s'.log = relayed s.log ++ if relays then data else [] := by
      rw [log, relayed_append]
      cases relays <;> simp [relayed, core]
    refine ⟨?_, ?_, ?_⟩
    · rw [heard, told]
      cases relays <;> simp
    · intro goes_on idle
      cases relays with
      | true => rw [heard, told, if_pos rfl]
      | false =>
        rw [load_eq_zero (fun op member => ?_) idle ((started (by simp)).trans began)] at goes_on
        · exact absurd goes_on (Nat.lt_irrefl 0)
        · rw [pending'] at member
          exact others op (by simpa using member)
    · intro call' query' data' notifying'
      have busy := handler.symm.trans notifying'
      contradiction

/-- A result handed to the session now is written to the client. -/
def reaches_client (s : Session) : Bool :=
  !s.is_destroying_ && (s.client_ssl || s.client_socket_.isSome)

/-- The server replies in order to the requests it is sent, and says nothing else. A read that is
forwarded is a request, as the client sends its messages in separate reads. -/
def Replies (server : Server) (s : Session) : SessionEvent → Prop
  | .complete .server_read (.ok data) =>
    from_server s.log ++ data <+: server.output s.core.asked
  | _ => True

/-- A callback writes only when all that the server is to reply so far has been written to the client,
to the end of the last write. -/
def Spaced (server : Server) (s : Session) : SessionEvent → Prop
  | .on_result _ _ => s.reaches_client = true →
    relayed s.log = server.output s.core.asked ∧ ∀ data, .client_write data ∉ s.pending
  | _ => True

/-- What has been written to the client are the replies to its requests, in their order, and no write
is started while another goes on. -/
structure Ordered (server : Server) (s : Session) : Prop where
  order : to_client s.log <+: due server (result_of s.log) 0 s.core.requests
  one : s.pending.countP Op.writes_client ≤ 1

/-- What a run keeps in which the server replies in order and callbacks are spaced. -/
structure Paced (server : Server) (s : Session) : Prop where
  single : s.Single
  serial : s.Serial
  returned : s.Returned
  unstarted : s.started = false → s.calls = 0
  balanced : s.core.Balanced server
  apart : s.core.Apart server s.pending

theorem paced_init : Paced server {} := by
  refine ⟨single_init, serial_init, returned_init, fun _ => rfl, ?_, ?_⟩
  · refine ⟨rfl, nofun, List.prefix_refl _, rfl, List.prefix_refl _, [], nofun, .inl ⟨rfl, rfl⟩⟩
  · exact ⟨fun _ => rfl, nofun⟩

private theorem unwritten_of_unreached {call : ℕ} {result : Bytes}
    (taken : s.step? (.on_result call result) = some s') (unreached : s.reaches_client = false) :
    s'.pending = s.pending := by
  simp only [step?] at taken
  split_ifs at taken
  obtain rfl := Option.some.inj taken
  rw [on_result]
  split_ifs with destroying
  · rfl
  · have neither : s.client_ssl = false ∧ s.client_socket_.isSome = false := by
      simpa [reaches_client, destroying] using unreached
    have tls : client_ssl { s with cached_response_ := result } = false := neither.1
    simp [tls, neither.2]

/-- A session calls only after it has started. -/
private theorem unstarted_step (unstarted : s.started = false → s.calls = 0)
    (single : s.Single) (taken : s.step? e = some s') (still : s'.started = false) : s'.calls = 0 := by
  rcases started_of_step taken with ⟨-, -, started⟩ | ⟨-, same⟩
  · rw [started] at still
    contradiction
  · rw [same] at still
    have none := unstarted still
    have turn := turn_of_step taken
    generalize core' : s'.core = c' at turn
    generalize s'.pending = ops' at turn
    have calls : s'.calls = c'.calls := congrArg Core.calls core'
    rw [calls]
    cases turn with
    | asks data sql_query present =>
      have one := single.one
      have some : 0 < s.pending.countP Op.clientward := List.countP_pos_iff.mpr ⟨_, present, rfl⟩
      rw [tokens, Core.held, if_neg (by simp [still])] at one
      omega
    | _ => exact none

theorem Paced.step (paced : s.Paced server) (served : s.core.Served e) (replies : s.Replies server e)
    (spaced : s.Spaced server e) (taken : s.step? e = some s') : s'.Paced server := by
  have one := paced.single.one
  rw [tokens] at one
  have holds : Core.Due server s.core s.pending e s'.pending := by
    refine ⟨paced.single.numbered, by omega, served, ?_, paced.returned.behind, ?_,
      paced.returned.notifying, ?_⟩
    · rintro rfl
      rcases started_of_step taken with ⟨-, unstarted, -⟩ | ⟨other, -⟩
      · rw [unstarted] at one
        exact ⟨paced.unstarted unstarted, by simpa using one⟩
      · exact absurd rfl other
    · rintro data rfl
      have completed : s.complete .server_read (.ok data) = some s' := taken
      obtain ⟨present, -, -⟩ := complete_cases completed
      obtain ⟨-, idle, -⟩ := alone_of_pending paced.serial present rfl
      exact ⟨nonempty_of_read taken, paced.returned.all (load_pos_of_server_read present) idle, replies⟩
    · rintro call result rfl writes
      apply spaced
      by_contra unreached
      exact writes (unwritten_of_unreached taken (Bool.eq_false_iff.mpr unreached))
  have turn := turn_of_step taken
  exact ⟨paced.single.step served taken, paced.serial.step taken,
    paced.returned.step paced.serial taken, unstarted_step paced.unstarted paced.single taken,
    paced.balanced.turn turn holds paced.apart, paced.apart.turn turn holds paced.balanced⟩

/-- Of the operations that write to the client, those of startup and of the server loop are one at
most, and so is that of a callback. -/
theorem Paced.ordered (paced : s.Paced server) : s.Ordered server := by
  refine ⟨paced.balanced.settled.ordered, ?_⟩
  by_cases responding : ∃ data, .response_write data ∈ s.pending
  · obtain ⟨data, present⟩ := responding
    obtain ⟨-, -, quiet⟩ := paced.apart.hushed present
    have fewer : s.pending.countP Op.writes_client ≤ s.pending.countP Op.clientward := by
      apply List.countP_mono_left
      intro op member writes
      cases op with
      | client_write bytes =>
        have silent := quiet _ member rfl
        rw [writes] at silent
        contradiction
      | _ => first | rfl | contradiction
    have one := paced.single.one
    rw [tokens, Core.held] at one
    omega
  · have fewer : s.pending.countP Op.writes_client ≤ s.pending.countP Op.serverward := by
      apply List.countP_mono_left
      intro op member writes
      cases op with
      | response_write bytes => exact absurd ⟨bytes, member⟩ responding
      | _ => first | rfl | contradiction
    have one := paced.serial.one
    rw [load] at one
    omega

end FlightProxy.Session
