import FlightProxy.Session.Stages

/-! # What startup sends

Startup sends the server its own SSLRequest and one packet of the client, in this order and in full
before the bridge sends anything. The packet is the client's first one when no SSL was asked for.
After a server's refusal it is that one too, which was the client's SSLRequest: the server gets a
second one, where the client's next packet should be.
-/

namespace FlightProxy

open Transition

/-- The test of read_client_startup, which looks at two bytes of eight. -/
def looks_like_ssl_request (packet : Bytes) : Prop :=
  packet.length = 8 ∧ packet[4]? = some 0x04 ∧ packet[5]? = some 0xd2

/-- What the server gets. -/
def uploaded (log : List Action) : List Bytes :=
  log.filterMap fun
    | .negotiate data | .startup data | .bridged data .forwarded => some data
    | _ => none

/-- The single bytes with which the client's SSLRequest is answered. -/
def answers (log : List Action) : List UInt8 :=
  log.filterMap fun
    | .answer byte => some byte
    | _ => none

/-- What the client sends after its first packet. -/
def later (es : List SessionEvent) : List Bytes :=
  es.filterMap fun
    | .complete .read_client_startup_after_ssl (.ok data) | .complete .client_read (.ok data) =>
      some data
    | _ => none

/-- Steps in which a call into QueryCache returns or calls back. -/
def SessionEvent.calls : SessionEvent → Bool
  | .flight_result _ | .on_result _ _ | .notify_returned => true
  | _ => false

namespace Session

/-- The client's first packet and the server's reply are the given ones. -/
def Offers (packet : Bytes) (reply : UInt8) (_ : Session) : SessionEvent → Prop
  | .complete .read_client_startup (.ok data) => data = packet
  | .complete .read_ssl_answer (.ok data) => data = [reply]
  | _ => True

/-- The session has asked the server for SSL, or is reconnecting to do so. -/
def Negotiates (s : Session) : Prop :=
  .negotiate ssl_request ∈ s.log ∨ .resolve true ∈ s.pending ∨ .connect true ∈ s.pending

/-- SSL is negotiated for an SSLRequest: the server gets one SSLRequest, the client the server's
answer, and the next the server gets is what the client sent next, under SSL if it was accepted. -/
structure Negotiated (packet : Bytes) (reply : UInt8) (es : List SessionEvent) (s : Session) :
    Prop where
  entered : .complete .read_client_startup (.ok packet) ∈ es → s.is_destroying_ = false →
    (s.Negotiates ↔ packet = ssl_request)
  plain : packet ≠ ssl_request → answers s.log = [] ∧
    (uploaded s.log = [] ∨ ∃ rest, uploaded s.log = packet :: rest)
  ssl : packet = ssl_request →
    (answers s.log = [] ∨ answers s.log = [if reply = 0x53 then 0x53 else 0x4e]) ∧
      (uploaded s.log = [] ∨ uploaded s.log = [ssl_request] ∨ ∃ data rest,
        uploaded s.log = ssl_request :: data :: rest ∧ data ∈ later es ∧ answers s.log ≠ [] ∧
          (reply = 0x53 → s.is_destroying_ = false → s.Tls))

/-! ## What the bridge records is not startup -/

/-- Nothing about startup is recorded between two states. -/
def Late (before s : Session) : Prop :=
  ∃ news, s.log = before.log ++ news ∧ ∀ action ∈ news, action.early = false

variable {before s s' : Session} {e : SessionEvent} {op : Op}

theorem Late.of_core (late : before.Late s) (same : s'.core = s.core) : before.Late s' := by
  obtain ⟨news, history, quiet⟩ := late
  exact ⟨news, (congrArg Core.log same).trans history, quiet⟩

theorem Late.of_record (late : before.Late s) {actions : List Action}
    (recorded : s'.core = s.core.record actions) (quiet : ∀ action ∈ actions, action.early = false) :
    before.Late s' := by
  obtain ⟨news, history, earlier⟩ := late
  refine ⟨news ++ actions, ?_, ?_⟩
  · have log : s'.log = s.log ++ actions := congrArg Core.log recorded
    rw [log, history, List.append_assoc]
  · intro action member
    rcases List.mem_append.mp member with member | member
    · exact earlier action member
    · exact quiet action member

theorem Late.of_log (same : s.log = before.log) : before.Late s :=
  ⟨[], by rw [same, List.append_nil], fun _ member => absurd member List.not_mem_nil⟩

private theorem late_forward (late : before.Late s) (data : Bytes) :
    before.Late (s.forward data) := by
  obtain ⟨fate, -, recorded⟩ := core_forward s data
  refine late.of_record recorded ?_
  intro action member
  obtain rfl := List.mem_singleton.mp member
  rfl

private theorem late_relay (late : before.Late s) (data : Bytes) : before.Late (s.relay data) := by
  obtain ⟨relayed, recorded⟩ := core_relay s data
  refine late.of_record recorded ?_
  intro action member
  split_ifs at member
  · obtain rfl := List.mem_singleton.mp member
    rfl
  · contradiction

private theorem late_one (late : before.Late s) {action : Action} (quiet : action.early = false)
    (log : s'.log = s.log ++ [action]) : before.Late s' := by
  obtain ⟨news, history, earlier⟩ := late
  refine ⟨news ++ [action], ?_, ?_⟩
  · rw [log, history, List.append_assoc]
  · intro other member
    rcases List.mem_append.mp member with member | member
    · exact earlier other member
    · obtain rfl := List.mem_singleton.mp member
      exact quiet

private theorem late_succeed (late : before.Late s) (data : Bytes) (bridges : op.bridges = true) :
    before.Late (s.succeed data op) := by
  cases op with
  | relay_to_server bytes =>
    exact late.of_core (by
      rw [succeed, core_bridge_server_to_client, core_bridge_client_to_server])
  | write_client_startup bytes =>
    exact late.of_core (by
      rw [succeed, core_bridge_client_to_server, core_bridge_server_to_client])
  | server_write bytes => exact late.of_core (core_bridge_client_to_server s)
  | response_write bytes => exact late.of_core (core_bridge_client_to_server s)
  | client_write bytes => exact late.of_core (core_bridge_server_to_client s)
  | client_read =>
    simp only [succeed, client_read]
    split_ifs
    · exact late_one late rfl rfl
    · exact late_forward (late_one late rfl rfl) data
  | server_read =>
    have read : before.Late ({ s with server_buffer_ := fill s.server_buffer_ data }.record
        (.response data)) := late_one late rfl rfl
    simp only [succeed, server_read]
    split_ifs
    · exact late_one read rfl rfl
    · exact late_relay read data
  | _ => contradiction

/-- A step of the bridge records nothing about startup. -/
theorem late_of_bridges (taken : s.step? e = some s') (bridges : e.bridges = true) :
    s.Late s' := by
  cases e with
  | complete op completion =>
    cases completion with
    | error ec => contradiction
    | ok data =>
      have completed : s.complete op (.ok data) = some s' := taken
      obtain ⟨-, -, -, rfl⟩ := complete_ok_cases completed
      simp only
      split_ifs
      · exact .of_log rfl
      · exact late_succeed (.of_log rfl) data bridges
  | flight_result result =>
    simp only [step?] at taken
    split at taken
    · next sql_query data calling =>
      obtain rfl := Option.some.inj taken
      cases result with
      | CACHE_HIT => exact late_one (.of_log rfl) rfl rfl
      | IS_WAITER => exact late_one (.of_log rfl) rfl rfl
      | IS_LEADER =>
        have led : s.Late { s with
            client_handler := .idle, current_query_ := sql_query, leading := s.calls - 1 } :=
          .of_log rfl
        exact late_forward led data
    · contradiction
  | on_result call result =>
    simp only [step?] at taken
    split_ifs at taken
    obtain rfl := Option.some.inj taken
    rcases core_on_result s call result with same | recorded
    · exact .of_log (congrArg Core.log same)
    · exact late_one (.of_log rfl) rfl (congrArg Core.log recorded)
  | notify_returned =>
    simp only [step?] at taken
    split at taken
    · next call query data notifying =>
      obtain rfl := Option.some.inj taken
      have returned : s.Late { s with server_handler := .idle, current_query_ := [] } := .of_log rfl
      exact late_relay returned data
    · contradiction
  | start | threw | destroy => contradiction

/-! ## Steps before the bridge -/

/-- No call into QueryCache has been made. -/
structure Unasked (s : Session) : Prop where
  client_handler : s.client_handler = .idle
  server_handler : s.server_handler = .idle
  calls : s.calls = 0

theorem Unasked.of_core (unasked : s.Unasked) (same : s'.core = s.core) : s'.Unasked :=
  ⟨(congrArg Core.client_handler same).trans unasked.1,
    (congrArg Core.server_handler same).trans unasked.2,
    (congrArg Core.calls same).trans unasked.3⟩

/-- A step that is not about a call into QueryCache starts the session, runs the handler of an
operation that succeeded, or does no more than end an operation. -/
private theorem handler_cases (own : e.calls = false) (taken : s.step? e = some s') :
    (e = .start ∧ s.started = false ∧ s' = { s with started := true }.start) ∨
      (∃ op data, e = .complete op (.ok data) ∧ s.is_destroying_ = false ∧ op ∈ s.pending ∧
        delivers op data = true ∧
        s' = Session.succeed { s with pending := s.pending.erase op } data op) ∨
      (s'.core = s.core ∧ s'.started = s.started ∧ (s'.is_destroying_ = true ∨
        (s'.pending ⊆ s.pending ∧ s'.sockets = s.sockets ∧
          ∀ op data, e ≠ .complete op (.ok data)))) := by
  cases e with
  | start =>
    simp only [step?] at taken
    split_ifs at taken with started
    exact .inl ⟨rfl, Bool.eq_false_iff.mpr started, (Option.some.inj taken).symm⟩
  | complete op completion =>
    obtain ⟨present, -, ⟨data, rfl, delivered, rfl⟩ | ⟨ec, rfl, rfl⟩⟩ := complete_cases taken
    · simp only
      split_ifs with gone
      · exact .inr (.inr ⟨rfl, rfl, .inl gone⟩)
      · exact .inr (.inl ⟨op, data, rfl, Bool.eq_false_iff.mpr gone, present, delivered, rfl⟩)
    · simp only
      split_ifs with gone
      · exact .inr (.inr ⟨rfl, rfl, .inl gone⟩)
      · obtain ⟨pending, started, kept⟩ := fail_kept { s with pending := s.pending.erase op } ec op
        refine .inr (.inr ⟨?_, started, kept.imp_right fun sockets => ⟨?_, sockets, by simp⟩⟩)
        · exact core_fail { s with pending := s.pending.erase op } ec op
        · rw [pending]
          exact List.erase_subset
  | threw building =>
    simp only [step?, threw] at taken
    split_ifs at taken with present gone
    · obtain rfl := Option.some.inj taken
      exact .inr (.inr ⟨rfl, rfl, .inl gone⟩)
    · obtain rfl := Option.some.inj taken
      refine .inr (.inr ⟨?_, ?_, .inl destroying_close⟩)
      · rw [core_close, core_build_threw]
        rfl
      · rw [(close_kept _).2]
        cases building <;> rfl
  | flight_result | on_result | notify_returned => contradiction
  | destroy =>
    simp only [step?, destroy] at taken
    split_ifs at taken
    obtain rfl := Option.some.inj taken
    exact .inr (.inr ⟨rfl, rfl, .inl rfl⟩)

/-- Before any call there is nothing to return from. -/
private theorem Unasked.own (unasked : s.Unasked) (taken : s.step? e = some s') :
    e.calls = false := by
  cases e with
  | flight_result result =>
    simp only [step?, unasked.client_handler] at taken
    contradiction
  | on_result call result =>
    simp only [step?, unasked.calls] at taken
    split_ifs at taken with called
    exact absurd called.2 (Nat.not_lt_zero call)
  | notify_returned =>
    simp only [step?, unasked.server_handler] at taken
    contradiction
  | start | complete | threw | destroy => rfl

/-! ## The phases of startup -/

/-- What is recorded, and which operations may be pending, before the bridge starts. -/
structure Phase (log : List Action) (ops : Op → Prop) (s : Session) : Prop where
  log : s.log = log
  unasked : s.Unasked
  ops : s.is_destroying_ = false → ∀ op ∈ s.pending, ops op

/-- What is recorded when the bridge has started. -/
structure Bridged (log : List Action) (s : Session) : Prop where
  late : ∃ news, s.log = log ++ news ∧ ∀ action ∈ news, action.early = false
  ops : s.is_destroying_ = false → ∀ op ∈ s.pending, op.bridges = true
  started : s.is_destroying_ = false → s.started = true

/-- How far a session has come whose client asks for SSL only with an SSLRequest, which the server
accepts. -/
inductive Progress (packet : Bytes) (es : List SessionEvent) (s : Session) : Prop
  | connecting
      (phase : s.Phase [] fun op =>
        op = .resolve false ∨ op = .connect false ∨ op = .read_client_startup)
      (unread : s.is_destroying_ = false → .complete .read_client_startup (.ok packet) ∉ es)
      (connected : s.is_destroying_ = false → .read_client_startup ∈ s.pending →
        s.server_socket_ = some ⟨true⟩)
  | requested (asked : looks_like_ssl_request packet) (started : s.started = true)
      (phase : s.Phase [.negotiate ssl_request] fun op =>
        op = .write_ssl_request ∨ op = .read_ssl_answer)
  | accepted (asked : looks_like_ssl_request packet) (started : s.started = true)
      (phase : s.Phase [.negotiate ssl_request, .answer 0x53] fun op =>
        op = .write_S ∨ op = .handshake_client ∨ op = .handshake_server ∨
          op = .read_client_startup_after_ssl)
  | plain (other : ¬ looks_like_ssl_request packet) (bridged : s.Bridged [.startup packet])
      (unsecured : s.is_destroying_ = false → s.Plain)
  | secured (asked : looks_like_ssl_request packet) (data : Bytes) (sent : data ∈ later es)
      (bridged : s.Bridged [.negotiate ssl_request, .answer 0x53, .startup data])
      (tls : s.is_destroying_ = false → s.Tls)

variable {packet : Bytes} {reply : UInt8} {es : List SessionEvent} {log : List Action}

theorem later_append (es es' : List SessionEvent) : later (es ++ es') = later es ++ later es' :=
  List.filterMap_append ..

theorem mem_later {data : Bytes} (e : SessionEvent) (sent : data ∈ later es) :
    data ∈ later (es ++ [e]) := by
  rw [later_append]
  exact List.mem_append_left _ sent

/-- The bridge goes on, and records nothing about startup. -/
private theorem Bridged.step (bridged : s.Bridged log) (consistent : s.Consistent)
    (taken : s.step? e = some s') :
    s'.Bridged log ∧ (s'.is_destroying_ = true ∨ s'.sockets = s.sockets) := by
  obtain ⟨⟨news, history, quiet⟩, ops, started⟩ := bridged
  have goes_on : s.Late s' → (s'.is_destroying_ = false → s'.started = true) →
      (s'.is_destroying_ = false → ∀ op ∈ s'.pending, op.bridges = true) → s'.Bridged log := by
    rintro ⟨more, appended, late⟩ began pending
    refine ⟨⟨news ++ more, ?_, ?_⟩, pending, began⟩
    · rw [appended, history, List.append_assoc]
    · intro action member
      rcases List.mem_append.mp member with member | member
      · exact quiet action member
      · exact late action member
  have dead : s.Late s' → s'.is_destroying_ = true → s'.Bridged log := by
    intro late gone
    refine goes_on late ?_ ?_ <;> simp [gone]
  by_cases bridges : e.bridges = true
  · have late := late_of_bridges taken bridges
    rcases consistent with gone | staged
    · have gone' := destroying_of_step gone taken
      exact ⟨dead late gone', .inl gone'⟩
    · rcases (staged.bridges taken bridges).2 with gone | ⟨same, pending, began⟩
      · exact ⟨dead late gone, .inl gone⟩
      · refine ⟨goes_on late (fun _ => began) fun _ op member => ?_, .inr same⟩
        have last := pending op member
        cases op <;> first | rfl | contradiction
  · have own : e.calls = false := by
      cases e <;> first | rfl | exact absurd rfl bridges
    cases state : s.is_destroying_ with
    | true =>
      have gone' := destroying_of_step state taken
      refine ⟨dead ?_ gone', .inl gone'⟩
      obtain ⟨-, -, rfl⟩ | ⟨op, data, -, alive, -⟩ | ⟨same, -⟩ := handler_cases own taken
      · exact .of_log (congrArg Core.log (core_start _))
      · rw [state] at alive
        contradiction
      · exact .of_log (congrArg Core.log same)
    | false =>
      obtain ⟨-, unstarted, -⟩ | ⟨op, data, rfl, -, present, -, -⟩ | ⟨same, began, kept⟩ :=
        handler_cases own taken
      · rw [started state] at unstarted
        contradiction
      · exact absurd (ops state op present) bridges
      · have late : s.Late s' := .of_log (congrArg Core.log same)
        rcases kept with gone | ⟨fewer, sockets, -⟩
        · exact ⟨dead late gone, .inl gone⟩
        · refine ⟨goes_on late (fun _ => began.trans (started state)) ?_, .inr sockets⟩
          exact fun _ op member => ops state op (fewer member)

/-- A phase goes on while its operations only end, or start with the session. -/
private theorem Phase.step {ops : Op → Prop} (phase : s.Phase log ops)
    (taken : s.step? e = some s') :
    (e = .start ∧ s.started = false ∧ s' = { s with started := true }.start) ∨
      (∃ op data, e = .complete op (.ok data) ∧ s.is_destroying_ = false ∧ op ∈ s.pending ∧
        ops op ∧ delivers op data = true ∧
        s' = Session.succeed { s with pending := s.pending.erase op } data op) ∨
      (s'.Phase log ops ∧ s'.started = s.started ∧ (s'.is_destroying_ = false → s'.pending ⊆ s.pending ∧
        s'.sockets = s.sockets ∧ s.is_destroying_ = false ∧
          ∀ op data, e ≠ .complete op (.ok data))) := by
  rcases handler_cases (phase.unasked.own taken) taken with
    start | ⟨op, data, rfl, alive, present, delivered, rfl⟩ | ⟨same, began, kept⟩
  · exact .inl start
  · exact .inr (.inl ⟨op, data, rfl, alive, present, phase.ops alive op present, delivered, rfl⟩)
  · have alive_before : s'.is_destroying_ = false → s.is_destroying_ = false := by
      intro alive
      by_contra gone
      rw [destroying_of_step (eq_true_of_ne_false gone) taken] at alive
      contradiction
    refine .inr (.inr ⟨⟨(congrArg Core.log same).trans phase.log, phase.unasked.of_core same, ?_⟩,
      began, ?_⟩)
    · intro alive op member
      rcases kept with gone | ⟨fewer, -⟩
      · rw [gone] at alive
        contradiction
      · exact phase.ops (alive_before alive) op (fewer member)
    · intro alive
      rcases kept with gone | ⟨fewer, sockets, silent⟩
      · rw [gone] at alive
        contradiction
      · exact ⟨fewer, sockets, alive_before alive, silent⟩

private theorem server_socket_of_sockets (same : s'.sockets = s.sockets) :
    s'.server_socket_ = s.server_socket_ :=
  congrArg (fun sockets => sockets.2.2.2.2) same

private theorem unread_snoc (unread : .complete .read_client_startup (.ok packet) ∉ es)
    (other : e ≠ .complete .read_client_startup (.ok packet)) :
    .complete .read_client_startup (.ok packet) ∉ es ++ [e] := by
  intro member
  rcases List.mem_append.mp member with member | member
  · exact unread member
  · exact other (List.mem_singleton.mp member).symm

/-- The first packet starts the negotiation or is relayed. -/
private theorem first_packet {ops : Op → Prop} (phase : s.Phase [] ops)
    (consistent : s.Consistent) (alive : s.is_destroying_ = false)
    (present : .read_client_startup ∈ s.pending) (connected : s.server_socket_ = some ⟨true⟩) :
    Progress packet es
      (Session.succeed { s with pending := s.pending.erase .read_client_startup } packet
        .read_client_startup) := by
  obtain ⟨plain, fresh, started⟩ : s.Plain ∧ s.Fresh .connecting ∧ s.started = true := by
    rcases consistent with gone | staged
    · rw [alive] at gone
      contradiction
    · exact (staged.of_pending present).1 rfl
  have nothing : s.pending.erase .read_client_startup = [] := (fresh.quiet present started).pending
  simp only [Session.succeed]
  split_ifs with asked
  · -- the server socket is open, so there is no reconnection
    rw [check_server_ssl_support]
    simp only [alive, connected, nothing, Bool.false_eq_true, ↓reduceIte]
    refine .requested asked started ⟨?_, ⟨phase.unasked.1, phase.unasked.2, phase.unasked.3⟩, ?_⟩
    · exact congrArg (· ++ _) phase.log
    · intro _ op member
      exact .inl (List.mem_singleton.mp member)
  · rw [relay_to_server]
    simp only [alive, connected, nothing, Bool.false_eq_true, ↓reduceIte, Option.isNone_some, fill,
      List.take_left]
    refine .plain asked ⟨⟨[], ?_, fun _ member => absurd member List.not_mem_nil⟩, ?_, ?_⟩ ?_
    · exact congrArg (· ++ _) phase.log
    · intro _ op member
      obtain rfl := List.mem_singleton.mp member
      rfl
    · exact fun _ => started
    · exact fun _ => ⟨plain.1, plain.2, plain.3, plain.4, rfl⟩

/-- The first operations of startup, up to the client's first packet. -/
private theorem Progress.connecting_step
    (phase : s.Phase [] fun op =>
      op = .resolve false ∨ op = .connect false ∨ op = .read_client_startup)
    (unread : s.is_destroying_ = false → .complete .read_client_startup (.ok packet) ∉ es)
    (connected : s.is_destroying_ = false → .read_client_startup ∈ s.pending →
      s.server_socket_ = some ⟨true⟩) (consistent : s.Consistent)
    (offers : s.Offers packet reply e) (taken : s.step? e = some s') :
    s'.Progress packet (es ++ [e]) := by
  rcases phase.step taken with ⟨rfl, unstarted, rfl⟩ |
    ⟨op, data, rfl, alive, present, rfl | rfl | rfl, delivered, rfl⟩ | ⟨phase', -, kept⟩
  · have started : (start { s with started := true }).core = s.core := core_start _
    have effect : (start { s with started := true }).is_destroying_ = s.is_destroying_ ∧
        (start { s with started := true }).server_socket_ = s.server_socket_ ∧
        (start { s with started := true }).pending ⊆ s.pending ++ [.resolve false] := by
      rw [start]
      split_ifs
      · exact ⟨rfl, rfl, List.subset_append_left _ _⟩
      · exact ⟨rfl, rfl, List.subset_append_left _ _⟩
      · rw [connect_to_database]
        split_ifs
        exact ⟨rfl, rfl, List.Subset.refl _⟩
    obtain ⟨same, socket, pending⟩ := effect
    refine .connecting ⟨(congrArg Core.log started).trans phase.log,
      phase.unasked.of_core started, ?_⟩ ?_ ?_
    · intro alive op member
      rcases List.mem_append.mp (pending member) with before | here
      · exact phase.ops (same.symm.trans alive) op before
      · exact .inl (List.mem_singleton.mp here)
    · exact fun alive => unread_snoc (unread (same.symm.trans alive)) (by simp)
    · intro alive member
      rcases List.mem_append.mp (pending member) with before | here
      · rw [socket]
        exact connected (same.symm.trans alive) before
      · exact absurd (List.mem_singleton.mp here) (by simp)
  · -- the resolver is done
    refine .connecting ⟨phase.log, phase.unasked.of_core rfl, ?_⟩
      (fun _ => unread_snoc (unread alive) (by simp)) ?_
    · intro _ op member
      rcases List.mem_append.mp member with before | here
      · exact phase.ops alive op (List.mem_of_mem_erase before)
      · exact .inr (.inl (List.mem_singleton.mp here))
    · intro _ member
      rcases List.mem_append.mp member with before | here
      · exact connected alive (List.mem_of_mem_erase before)
      · exact absurd (List.mem_singleton.mp here) (by simp)
  · -- the connection is open
    have effect : ∀ u : Session, u.is_destroying_ = false → u.pending ⊆ s.pending →
        u.core = s.core → u.server_socket_ = some ⟨true⟩ →
        u.read_client_startup.Progress packet (es ++ [.complete (.connect false) (.ok data)]) := by
      intro u alive' fewer same socket
      have log : u.read_client_startup.core = s.core := (core_read_client_startup u).trans same
      have after : u.read_client_startup.server_socket_ = some ⟨true⟩ ∧
          u.read_client_startup.pending ⊆ s.pending ++ [.read_client_startup] := by
        rw [read_client_startup]
        split_ifs
        · exact ⟨socket, List.subset_append_of_subset_left _ fewer⟩
        · exact ⟨socket, List.subset_append_of_subset_left _ fewer⟩
        · refine ⟨socket, List.append_subset.mpr ⟨?_, List.subset_append_right _ _⟩⟩
          exact List.subset_append_of_subset_left _ fewer
      refine .connecting ⟨(congrArg Core.log log).trans phase.log, phase.unasked.of_core log, ?_⟩
        (fun _ => unread_snoc (unread alive) (by simp)) (fun _ _ => after.1)
      intro _ op member
      rcases List.mem_append.mp (after.2 member) with before | here
      · exact phase.ops alive op before
      · exact .inr (.inr (List.mem_singleton.mp here))
    exact effect { s with
      pending := s.pending.erase (.connect false), server_socket_ := some ⟨true⟩ } alive
      List.erase_subset rfl rfl
  · -- the client's first packet
    obtain rfl : data = packet := offers
    exact first_packet phase consistent alive present (connected alive present)
  · refine .connecting phase' ?_ ?_
    · intro alive
      obtain ⟨-, -, before, silent⟩ := kept alive
      exact unread_snoc (unread before) (silent _ _)
    · intro alive member
      obtain ⟨fewer, same, before, -⟩ := kept alive
      rw [server_socket_of_sockets same]
      exact connected before (fewer member)

/-- The server is asked, and accepts. -/
private theorem Progress.requested_step (asked : looks_like_ssl_request packet)
    (started : s.started = true) (phase : s.Phase [.negotiate ssl_request] fun op =>
      op = .write_ssl_request ∨ op = .read_ssl_answer) (consistent : s.Consistent)
    (offers : s.Offers packet 0x53 e) (taken : s.step? e = some s') :
    s'.Progress packet (es ++ [e]) := by
  rcases phase.step taken with ⟨-, unstarted, -⟩ |
    ⟨op, data, rfl, alive, present, rfl | rfl, delivered, rfl⟩ | ⟨phase', began, -⟩
  · rw [started] at unstarted
    contradiction
  · refine .requested asked started ⟨phase.log, phase.unasked.of_core rfl, ?_⟩
    intro _ op member
    rcases List.mem_append.mp member with before | here
    · exact phase.ops alive op (List.mem_of_mem_erase before)
    · exact .inr (List.mem_singleton.mp here)
  · obtain rfl : data = [0x53] := offers
    obtain ⟨plain, fresh, -⟩ : s.Plain ∧ s.Fresh .connecting ∧ s.started = true := by
      rcases consistent with gone | staged
      · rw [alive] at gone
        contradiction
      · exact (staged.of_pending present).1 rfl
    have nothing : s.pending.erase .read_ssl_answer = [] := (fresh.quiet present started).pending
    have client := Option.isNone_eq_false_iff.mpr plain.client_socket_
    have server := Option.isNone_eq_false_iff.mpr plain.server_socket_
    simp only [Session.succeed, perform_ssl_handshake, alive, client, server, nothing, ↓reduceIte,
      Bool.or_false, Bool.false_eq_true]
    refine .accepted asked started ⟨?_, ⟨phase.unasked.1, phase.unasked.2, phase.unasked.3⟩, ?_⟩
    · exact congrArg (· ++ _) phase.log
    · intro _ op member
      exact .inl (List.mem_singleton.mp member)
  · exact .requested asked (began.trans started) phase'

/-- The handshakes are done, and the client's startup packet goes to the server. -/
private theorem Progress.accepted_step (asked : looks_like_ssl_request packet)
    (started : s.started = true) (phase : s.Phase [.negotiate ssl_request, .answer 0x53] fun op =>
      op = .write_S ∨ op = .handshake_client ∨ op = .handshake_server ∨
        op = .read_client_startup_after_ssl) (consistent : s.Consistent)
    (taken : s.step? e = some s') : s'.Progress packet (es ++ [e]) := by
  have armed : ∀ {u : Session} {op : Op}, u.pending ⊆ s.pending → u.core = s.core →
      u.started = s.started → s.is_destroying_ = false → (op = .handshake_client ∨ op = .handshake_server ∨
        op = .read_client_startup_after_ssl) → (u.arm op).Progress packet (es ++ [e]) := by
    intro u op fewer same began alive next
    refine .accepted asked (began.trans started) ⟨(congrArg Core.log same).trans phase.log,
      phase.unasked.of_core same, ?_⟩
    intro _ op' member
    rcases List.mem_append.mp member with before | here
    · exact phase.ops alive op' (fewer before)
    · obtain rfl := List.mem_singleton.mp here
      exact .inr next
  rcases phase.step taken with ⟨-, unstarted, -⟩ |
    ⟨op, data, rfl, alive, present, rfl | rfl | rfl | rfl, delivered, rfl⟩ | ⟨phase', began, -⟩
  · rw [started] at unstarted
    contradiction
  · exact armed (u := build_ssl_streams { s with pending := s.pending.erase .write_S })
      List.erase_subset rfl rfl alive (.inl rfl)
  · simp only [Session.succeed]
    split_ifs
    · refine .accepted asked ((close_kept _).2.trans started) ⟨?_, ?_, ?_⟩
      · exact (congrArg Core.log (core_close _)).trans phase.log
      · exact phase.unasked.of_core (core_close _)
      · intro alive'
        rw [destroying_close] at alive'
        contradiction
    · exact armed List.erase_subset rfl rfl alive (.inr (.inl rfl))
  · simp only [Session.succeed, read_client_startup_after_ssl]
    split_ifs with gone missing
    · exact absurd (alive.symm.trans gone) Bool.false_ne_true
    · refine .accepted asked started ⟨phase.log, phase.unasked.of_core rfl, ?_⟩
      exact fun _ op member => phase.ops alive op (List.mem_of_mem_erase member)
    · exact armed (u := { s with
        pending := s.pending.erase .handshake_server
        ssl_enabled_ := true
        client_buffer_ := resize s.client_buffer_ }) List.erase_subset rfl rfl alive
          (.inr (.inr rfl))
  · obtain ⟨tls, fresh, -⟩ : s.Tls ∧ s.Fresh .secured ∧ s.started = true := by
      rcases consistent with gone | staged
      · rw [alive] at gone
        contradiction
      · exact (staged.of_pending present).2.2.1 rfl
    have nothing : s.pending.erase .read_client_startup_after_ssl = [] :=
      (fresh.quiet present started).pending
    have server := Option.isNone_eq_false_iff.mpr tls.server_ssl_socket_
    simp only [Session.succeed, server, nothing, Bool.false_eq_true, ↓reduceIte]
    refine .secured asked data ?_ ⟨⟨[], ?_, fun _ member => absurd member List.not_mem_nil⟩,
      ?_, fun _ => started⟩ fun _ => ⟨tls.1, tls.2, tls.3, tls.4, tls.5⟩
    · rw [later_append]
      exact List.mem_append_right _ (List.mem_singleton.mpr rfl)
    · exact congrArg (· ++ _) phase.log
    · intro _ op member
      obtain rfl := List.mem_singleton.mp member
      rfl
  · exact .accepted asked (began.trans started) phase'

/-- Startup goes on, when the client asks for SSL with an SSLRequest only and the server accepts. -/
theorem Progress.step (progress : s.Progress packet es) (consistent : s.Consistent)
    (good : looks_like_ssl_request packet → reply = 0x53) (offers : s.Offers packet reply e)
    (taken : s.step? e = some s') : s'.Progress packet (es ++ [e]) := by
  have alive_before : s'.is_destroying_ = false → s.is_destroying_ = false := by
    intro alive
    by_contra gone
    rw [destroying_of_step (eq_true_of_ne_false gone) taken] at alive
    contradiction
  cases progress with
  | connecting phase unread connected =>
    exact Progress.connecting_step phase unread connected consistent offers taken
  | requested asked started phase =>
    obtain rfl := good asked
    exact Progress.requested_step asked started phase consistent offers taken
  | accepted asked started phase => exact Progress.accepted_step asked started phase consistent taken
  | plain other bridged unsecured =>
    obtain ⟨bridged', kept⟩ := bridged.step consistent taken
    refine .plain other bridged' fun alive => ?_
    rcases kept with gone | same
    · rw [gone] at alive
      contradiction
    · exact (unsecured (alive_before alive)).congr same
  | secured asked data sent bridged tls =>
    obtain ⟨bridged', kept⟩ := bridged.step consistent taken
    refine .secured asked data (mem_later e sent) bridged' fun alive => ?_
    rcases kept with gone | same
    · rw [gone] at alive
      contradiction
    · exact (tls (alive_before alive)).congr same

private theorem looks_ssl_request : looks_like_ssl_request ssl_request := by
  refine ⟨?_, ?_, ?_⟩ <;> decide

private theorem answers_of_late {news : List Action}
    (late : ∀ action ∈ news, action.early = false) : answers news = [] := by
  apply List.filterMap_eq_nil_iff.mpr
  intro action member
  have quiet := late action member
  cases action with
  | answer => contradiction
  | _ => rfl

/-- A client that asks for SSL only with an SSLRequest, of a server that accepts. -/
private theorem Progress.negotiated (progress : s.Progress packet es)
    (good : looks_like_ssl_request packet → packet = ssl_request ∧ reply = 0x53) :
    s.Negotiated packet reply es := by
  cases progress with
  | connecting phase unread connected =>
    refine ⟨fun read alive => absurd read (unread alive), fun _ => ?_, fun _ => ?_⟩
    · rw [phase.log]
      exact ⟨rfl, .inl rfl⟩
    · rw [phase.log]
      exact ⟨.inl rfl, .inl rfl⟩
  | requested asked started phase =>
    obtain ⟨rfl, rfl⟩ := good asked
    refine ⟨fun _ _ => iff_of_true (.inl ?_) rfl, fun other => absurd rfl other, fun _ => ?_⟩
    · rw [phase.log]
      exact List.mem_singleton.mpr rfl
    · rw [phase.log]
      exact ⟨.inl rfl, .inr (.inl rfl)⟩
  | accepted asked started phase =>
    obtain ⟨rfl, rfl⟩ := good asked
    refine ⟨fun _ _ => iff_of_true (.inl ?_) rfl, fun other => absurd rfl other, fun _ => ?_⟩
    · rw [phase.log]
      exact List.mem_cons_self
    · rw [phase.log]
      exact ⟨.inr rfl, .inr (.inl rfl)⟩
  | plain other bridged unsecured =>
    obtain ⟨⟨news, history, late⟩, ops, -⟩ := bridged
    have different : packet ≠ ssl_request := by
      rintro rfl
      exact other looks_ssl_request
    refine ⟨fun _ alive => iff_of_false ?_ different, fun _ => ?_, fun same => absurd same different⟩
    · rintro (negotiated | resolving | connecting)
      · rw [history] at negotiated
        rcases List.mem_cons.mp negotiated with here | there
        · contradiction
        · exact absurd (late _ there) (by decide)
      · exact absurd (ops alive _ resolving) (by decide)
      · exact absurd (ops alive _ connecting) (by decide)
    · have quiet := answers_of_late late
      rw [history]
      exact ⟨quiet, .inr ⟨uploaded news, rfl⟩⟩
  | secured asked data sent bridged tls =>
    obtain ⟨rfl, rfl⟩ := good asked
    obtain ⟨⟨news, history, late⟩, -, -⟩ := bridged
    have quiet := congrArg (0x53 :: ·) (answers_of_late late)
    have answered : answers s.log = [0x53] := by
      rw [history]
      exact quiet
    refine ⟨fun _ _ => iff_of_true (.inl ?_) rfl, fun other => absurd rfl other, fun _ => ?_⟩
    · rw [history]
      exact List.mem_cons_self
    · refine ⟨.inr answered, .inr (.inr ⟨data, uploaded news, ?_, sent, ?_, fun _ => tls⟩)⟩
      · rw [history]
        rfl
      · rw [answered]
        exact List.cons_ne_nil _ _

/-- Up to the client's first packet. -/
private theorem opened (packet : Bytes) (reply : UInt8) : ∃ s : Session,
    Path step? (Offers packet reply) {}
      [.start, .complete (.resolve false) (.ok []), .complete (.connect false) (.ok [])] s ∧
    s.log = [] ∧ s.pending = [.read_client_startup] ∧ s.is_destroying_ = false ∧
    s.server_socket_ = some ⟨true⟩ ∧ s.client_socket_ = some ⟨true⟩ :=
  ⟨_, .cons trivial rfl (.cons trivial rfl (.cons trivial rfl (.nil _))), rfl, rfl, rfl, rfl, rfl⟩

/-- An eight-byte packet with the two bytes of an SSLRequest is taken for one. -/
private theorem asked_of_looks (looks : looks_like_ssl_request packet) (reply : UInt8) :
    ∃ s : Session, Path step? (Offers packet reply) {}
      [.start, .complete (.resolve false) (.ok []), .complete (.connect false) (.ok []),
        .complete .read_client_startup (.ok packet)] s ∧
    s.log = [.negotiate ssl_request] ∧ s.pending = [.write_ssl_request] ∧
    s.is_destroying_ = false ∧ s.startup_packet_ = packet ∧ s.client_buffer_.take 8 = packet ∧
    s.server_socket_ = some ⟨true⟩ ∧ s.client_socket_ = some ⟨true⟩ := by
  obtain ⟨s, path, log, pending, alive, server, client⟩ := opened packet reply
  have length := looks.1
  have taken : s.step? (.complete .read_client_startup (.ok packet)) =
      some (({ s with
        pending := []
        client_buffer_ := fill s.client_buffer_ packet
        startup_packet_ := packet }.record (.negotiate ssl_request)).arm .write_ssl_request) := by
    have delivered : delivers .read_client_startup packet = true := by
      simp [delivers, length]
    simp only [step?, complete, pending, free, delivered, List.mem_singleton, and_self, ↓reduceIte,
      List.erase_cons_head, alive, Bool.false_eq_true, Session.succeed]
    have test : packet.length = 8 ∧ packet[4]? = some 0x04 ∧ packet[5]? = some 0xd2 := looks
    rw [if_pos test]
    simp only [check_server_ssl_support, server, Bool.false_eq_true, ↓reduceIte]
  refine ⟨_, path.snoc rfl taken, ?_, rfl, alive, rfl, ?_, server, client⟩
  · exact congrArg (· ++ _) log
  · have eight : (fill s.client_buffer_ packet).take packet.length = packet := List.take_left
    rwa [length] at eight

/-- Whatever byte other than `'S'` the server replies, it gets the client's first packet next. -/
private theorem refused (looks : looks_like_ssl_request packet) (other : reply ≠ 0x53) :
    ∃ (es : List SessionEvent) (s : Session), Path step? (Offers packet reply) {} es s ∧
      later es = [] ∧ uploaded s.log = [ssl_request, packet] := by
  obtain ⟨s, path, log, pending, alive, startup, buffer, server, client⟩ :=
    asked_of_looks looks reply
  have written : s.step? (.complete .write_ssl_request (.ok [])) =
      some ({ s with pending := [] }.arm .read_ssl_answer) := by
    simp [step?, complete, pending, free, delivers, alive, Session.succeed]
  have answered : Session.step? ({ s with pending := [] }.arm .read_ssl_answer)
      (.complete .read_ssl_answer (.ok [reply])) =
      some (({ s with pending := [] }.record (.answer 0x4e)).arm .write_N) := by
    simp [step?, complete, free, delivers, alive, Session.succeed, arm, other, handle_ssl_request,
      client, record]
  have relayed : Session.step? (({ s with pending := [] }.record (.answer 0x4e)).arm .write_N)
      (.complete .write_N (.ok [])) =
      some (({ s with pending := [] }.record (.answer 0x4e)).record (.startup packet) |>.arm
        (.relay_to_server packet)) := by
    simp [step?, complete, free, delivers, alive, Session.succeed, arm, relay_to_server, record,
      server, startup, looks.1, buffer]
  refine ⟨_, _, ((path.snoc (by trivial) written).snoc (by rfl) answered).snoc (by trivial) relayed,
    rfl, ?_⟩
  simp [arm, record, log, uploaded]

/-- SSL is negotiated as PostgreSQL has it, for a first packet and a reply of the server, exactly when
the packet does not look like an SSLRequest, or is one and the server accepts. -/
theorem negotiated_iff (packet : Bytes) (reply : UInt8) :
    (∀ (es : List SessionEvent) (s : Session), Path step? (Offers packet reply) {} es s →
      s.Negotiated packet reply es) ↔
    (¬ looks_like_ssl_request packet ∨ (packet = ssl_request ∧ reply = 0x53)) := by
  constructor
  · intro negotiated
    by_contra bad
    obtain ⟨looks, bad⟩ := not_or.mp bad
    have looks := not_not.mp looks
    by_cases same : packet = ssl_request
    · subst same
      have other : reply ≠ 0x53 := fun accepted => bad ⟨rfl, accepted⟩
      obtain ⟨es, s, path, nothing, gets⟩ := refused looks other
      obtain ⟨-, none | one | ⟨data, rest, next, sent, -⟩⟩ := (negotiated es s path).ssl rfl
      · rw [gets] at none
        contradiction
      · rw [gets] at one
        contradiction
      · rw [nothing] at sent
        contradiction
    · obtain ⟨s, path, log, -, alive, -⟩ := asked_of_looks looks reply
      have entered := (negotiated _ s path).entered (by simp) alive
      refine same (entered.mp (.inl ?_))
      rw [log]
      exact List.mem_singleton.mpr rfl
  · intro condition es s run
    have good : looks_like_ssl_request packet → packet = ssl_request ∧ reply = 0x53 := fun looks =>
      condition.resolve_left (not_not_intro looks)
    have reached : s.Consistent ∧ s.Progress packet es := by
      refine run.records (I := fun es s => s.Consistent ∧ s.Progress packet es) ?_ ?_
      · refine ⟨consistent_init, .connecting ⟨rfl, ⟨rfl, rfl, rfl⟩, ?_⟩ ?_ ?_⟩
        · exact fun _ _ member => absurd member List.not_mem_nil
        · exact fun _ => List.not_mem_nil
        · exact fun _ member => absurd member List.not_mem_nil
      · rintro es s e s' ⟨consistent, progress⟩ offers taken
        exact ⟨consistent.step taken,
          progress.step consistent (fun looks => (good looks).2) offers taken⟩
    exact reached.2.negotiated good

/-- A server that replies `'N'` gets the client's SSLRequest as well as the proxy's own. -/
theorem not_negotiated : ¬ ∀ (packet : Bytes) (reply : UInt8) (es : List SessionEvent) (s : Session),
    Path step? (Offers packet reply) {} es s → s.Negotiated packet reply es := by
  intro negotiated
  have refusal : (0x4e : UInt8) ≠ 0x53 := by decide
  obtain ⟨es, s, path, nothing, gets⟩ := refused looks_ssl_request refusal
  obtain ⟨-, none | one | ⟨data, rest, next, sent, -⟩⟩ := (negotiated _ _ es s path).ssl rfl
  · rw [gets] at none
    contradiction
  · rw [gets] at one
    contradiction
  · rw [nothing] at sent
    contradiction

end Session

end FlightProxy
