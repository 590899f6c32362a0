import FlightProxy.Session.Negotiation
import FlightProxy.Session.Tokens

/-! # What a session passes on

Each loop holds at most one read that it has not passed on: whoever has the token of the loop has
that read, and the next one starts only when its write is done.
-/

namespace FlightProxy

open Transition

/-- What the reads of bridge_server_to_client got. -/
def server_reads (es : List SessionEvent) : List Bytes :=
  es.filterMap fun
    | .complete .server_read (.ok data) => some data
    | _ => none

/-- What its completed writes delivered. -/
def client_writes (es : List SessionEvent) : List Bytes :=
  es.filterMap fun
    | .complete (.client_write data) (.ok _) => some data
    | _ => none

/-- What the client sent: its startup packet and the reads of bridge_client_to_server. -/
def client_reads (es : List SessionEvent) : List Bytes :=
  es.filterMap fun
    | .complete .read_client_startup (.ok data) | .complete .client_read (.ok data) => some data
    | _ => none

/-- What the completed writes of relay_to_server and bridge_client_to_server delivered. -/
def server_writes (es : List SessionEvent) : List Bytes :=
  es.filterMap fun
    | .complete (.relay_to_server data) (.ok _) | .complete (.server_write data) (.ok _) => some data
    | _ => none

/-- What has been passed on is a prefix of what was read, short of it by at most the last read. -/
def Lags (passed read : List Bytes) : Prop := ∃ rest, read = passed ++ rest ∧ rest.length ≤ 1

/-- What the server's side still has to pass on, when the operation is pending. -/
def Op.returns (rest : List Bytes) : Op → Prop
  | .client_write data => rest = [data]
  | .client_read | .server_write _ | .response_write _ => True
  | _ => rest = []

/-- What the client's side still has to pass on, when the operation is pending and no SSL was asked
for. -/
def Op.forwards (rest : List Bytes) : Op → Prop
  | .resolve again | .connect again => again = false ∧ rest = []
  | .read_client_startup | .client_read => rest = []
  | .relay_to_server data | .server_write data => rest = [data]
  | .server_read | .client_write _ => True
  | _ => False

section

variable (es es' : List SessionEvent)

@[simp] theorem server_reads_append : server_reads (es ++ es') = server_reads es ++ server_reads es' :=
  List.filterMap_append ..

@[simp] theorem client_writes_append : client_writes (es ++ es') = client_writes es ++ client_writes es' :=
  List.filterMap_append ..

@[simp] theorem client_reads_append : client_reads (es ++ es') = client_reads es ++ client_reads es' :=
  List.filterMap_append ..

@[simp] theorem server_writes_append : server_writes (es ++ es') = server_writes es ++ server_writes es' :=
  List.filterMap_append ..

end

namespace Session

variable {s s' : Session} {e : SessionEvent} {es : List SessionEvent} {rest : List Bytes}

section

variable {P : Op → Prop} {ops before next : List Op} {op : Op}

/-- What is pending after a step was so before, or has just been armed. -/
private theorem added (kept : ∀ op ∈ before, op ∈ ops) (armed : ∀ op ∈ next, P op) :
    ∀ op ∈ before ++ next, op ∈ ops ∨ P op := by
  intro op member
  rcases List.mem_append.mp member with old | new
  · exact .inl (kept op old)
  · exact .inr (armed op new)

private theorem armed_if {p : Prop} [Decidable p] (armed : P op) :
    ∀ other ∈ if p then [op] else [], P other := by
  intro other member
  split_ifs at member
  · obtain rfl := List.mem_singleton.mp member
    exact armed
  · contradiction

end

/-! ## From the server to the client -/

/-- Whoever has the token of the server's side has what is left to pass on. -/
structure Returning (rest : List Bytes) (s : Session) : Prop where
  few : rest.length ≤ 1
  ops : ∀ op ∈ s.pending, op.returns rest
  notifying : ∀ call query data, s.server_handler = .notifying call query data → rest = [data]
  unstarted : s.started = false → rest = []

private theorem returns_of_client {op : Op} (client : op.serverward = false) : op.returns rest := by
  cases op <;> first | contradiction | trivial

private theorem returns_of_startup {op : Op} (startup : op.stage ≠ .bridging) : op.returns [] := by
  cases op <;> first | exact absurd rfl startup | rfl

/-- Startup has nothing to pass on to the client. -/
private theorem rest_of_startup {op : Op} (startup : op.stage ≠ .bridging)
    (carried : op.returns rest) : rest = [] := by
  cases op <;> first | exact absurd rfl startup | exact carried

private theorem unread_of_startup {op : Op} (startup : op.stage ≠ .bridging)
    (completion : Completion) : server_reads [.complete op completion] = [] ∧
      client_writes [.complete op completion] = [] := by
  cases op <;> first | exact absurd rfl startup | cases completion <;> exact ⟨rfl, rfl⟩

/-- An operation that succeeds reads from the server, ends a write to the client, or does neither. -/
private theorem server_side_cases (op : Op) (completion : Completion) :
    (∃ data, op = .server_read ∧ completion = .ok data) ∨
      (∃ data carried, op = .client_write data ∧ completion = .ok carried) ∨
      (server_reads [.complete op completion] = [] ∧
        client_writes [.complete op completion] = []) := by
  cases completion with
  | error ec => cases op <;> exact .inr (.inr ⟨rfl, rfl⟩)
  | ok data =>
    cases op with
    | server_read => exact .inl ⟨data, rfl, rfl⟩
    | client_write bytes => exact .inr (.inl ⟨bytes, data, rfl, rfl⟩)
    | _ => exact .inr (.inr ⟨rfl, rfl⟩)

/-- A turn passes on what it ought to: what is left after it, and what it has read, is what was left
before, and what it has written. -/
private theorem Returning.step (serial : s.Serial) (returning : s.Returning rest)
    (taken : s.step? e = some s') : ∃ rest', s'.Returning rest' ∧
      rest ++ server_reads [e] = client_writes [e] ++ rest' := by
  have started' : s'.started = false → s.started = false := by
    intro unstarted
    rcases started_of_step taken with ⟨-, -, started⟩ | ⟨-, same⟩
    · rw [unstarted] at started
      contradiction
    · rwa [← same]
  -- nothing is read or written, and what is left stays with what is pending
  have keeps : ∀ {handler ops}, s'.server_handler = handler → s'.pending = ops →
      server_reads [e] = [] → client_writes [e] = [] →
      (∀ op ∈ ops, op ∈ s.pending ∨ op.returns rest) → handler = s.server_handler →
      ∃ rest', s'.Returning rest' ∧ rest ++ server_reads [e] = client_writes [e] ++ rest' := by
    rintro handler ops handler' pending' unread unwritten pending rfl
    refine ⟨rest, ⟨returning.few, fun op member => ?_, ?_, returning.unstarted ∘ started'⟩, ?_⟩
    · exact (pending op (pending' ▸ member)).elim (returning.ops op) id
    · rw [handler']
      exact returning.notifying
    · rw [unread, unwritten, List.append_nil, List.nil_append]
  -- the token moves on with what it carries
  have moves : ∀ {handler ops} {before next : List Op} (rest' : List Bytes),
      s'.server_handler = handler → s'.pending = ops → s.started = true → ops = before ++ next →
      (∀ op ∈ before, op.serverward = false) → (∀ op ∈ next, op.returns rest') →
      (∀ call query data, handler = .notifying call query data → rest' = [data]) →
      rest'.length ≤ 1 → rest ++ server_reads [e] = client_writes [e] ++ rest' →
      ∃ rest', s'.Returning rest' ∧ rest ++ server_reads [e] = client_writes [e] ++ rest' := by
    rintro handler ops before next rest' rfl pending' started rfl others carried busy few same
    refine ⟨rest', ⟨few, fun op member => ?_, busy, fun unstarted => ?_⟩, same⟩
    · rw [pending'] at member
      rcases List.mem_append.mp member with member | member
      · exact returns_of_client (others op member)
      · exact carried op member
    · rw [started' unstarted] at started
      contradiction
  have turn := turn_of_step taken
  generalize c' : s'.core = core', ops' : s'.pending = pending' at turn
  have handler := congrArg Core.server_handler c'
  cases turn with
  | quiet e own =>
    cases e with
    | complete op completion => exact absurd rfl (own op completion)
    | _ => exact keeps handler ops' rfl rfl (fun op member => .inl member) rfl
  | starts =>
    rcases started_of_step taken with ⟨-, unstarted, -⟩ | ⟨other, -⟩
    · obtain rfl := returning.unstarted unstarted
      exact keeps handler ops' rfl rfl
        (added (fun _ => id) (List.forall_mem_singleton.mpr rfl)) rfl
    · exact absurd rfl other
  | ends op completion present =>
    rcases server_side_cases op completion with ⟨data, rfl, rfl⟩ | ⟨data, carried, rfl, rfl⟩ |
      ⟨unread, unwritten⟩
    · obtain ⟨others, idle, started⟩ := alone_of_pending serial present rfl
      obtain rfl : rest = [] := returning.ops _ present
      refine moves [data] handler ops' started (List.append_nil _).symm others (by simp) ?_
        (Nat.le_refl 1) rfl
      simp [core, idle]
    · obtain ⟨others, idle, started⟩ := alone_of_pending serial present rfl
      obtain rfl : rest = [data] := returning.ops _ present
      refine moves [] handler ops' started (List.append_nil _).symm others (by simp) ?_
        (Nat.zero_le 1) rfl
      simp [core, idle]
    · exact keeps handler ops' unread unwritten (fun op member => .inl (List.mem_of_mem_erase member))
        rfl
  | threw building =>
    exact keeps handler ops' rfl rfl (fun op member => .inl (List.mem_of_mem_erase member)) rfl
  | hands_on op data next actions present startup startup' early =>
    have startup : op.stage ≠ .bridging := by
      cases op <;> first | contradiction | simp [Op.stage]
    obtain rfl := rest_of_startup startup (returning.ops _ present)
    obtain ⟨unread, unwritten⟩ := unread_of_startup startup (.ok data)
    exact keeps handler ops' unread unwritten
      (added (fun _ => List.mem_of_mem_erase)
        (List.forall_mem_singleton.mpr (returns_of_startup startup'))) rfl
  | begins op data loops present startup last once loop =>
    obtain rfl := rest_of_startup startup (returning.ops _ present)
    obtain ⟨unread, unwritten⟩ := unread_of_startup startup (.ok data)
    refine keeps handler ops' unread unwritten
      (added (fun _ => List.mem_of_mem_erase) fun other member => ?_) rfl
    rcases loop other member with rfl | rfl
    · trivial
    · rfl
  | reads_client op data present written =>
    refine keeps handler ops' ?_ ?_
      (added (fun _ => List.mem_of_mem_erase) (List.forall_mem_singleton.mpr trivial)) rfl
    · obtain ⟨bytes, rfl⟩ | ⟨bytes, rfl⟩ := written <;> rfl
    · obtain ⟨bytes, rfl⟩ | ⟨bytes, rfl⟩ := written <;> rfl
  | reads_server bytes data present =>
    obtain ⟨others, idle, started⟩ := alone_of_pending serial present rfl
    obtain rfl : rest = [bytes] := returning.ops _ present
    refine moves [] handler ops' started rfl others (fun other member => ?_) ?_ (Nat.zero_le 1) rfl
    · obtain rfl := List.mem_singleton.mp member
      rfl
    · simp [core, idle]
  | passes data fate present idle nonempty other unanswered =>
    exact keeps handler ops' rfl rfl (added (fun _ => List.mem_of_mem_erase) (armed_if trivial)) rfl
  | asks data sql_query present idle nonempty query =>
    exact keeps handler ops' rfl rfl (fun op member => .inl (List.mem_of_mem_erase member)) rfl
  | answered sql_query data result calling other =>
    exact keeps handler ops' rfl rfl (fun op member => .inl member) rfl
  | leads sql_query data fate calling unanswered =>
    exact keeps handler ops' rfl rfl (added (fun _ => id) (armed_if trivial)) rfl
  | delivers call result called =>
    exact keeps handler ops' rfl rfl
      (added (fun _ => id) (List.forall_mem_singleton.mpr trivial)) rfl
  | responds data relayed present idle none =>
    obtain ⟨others, idle, started⟩ := alone_of_pending serial present rfl
    obtain rfl : rest = [] := returning.ops _ present
    refine moves [data] handler ops' started rfl others (fun other member => ?_) ?_ (Nat.le_refl 1)
      rfl
    · split_ifs at member
      · obtain rfl := List.mem_singleton.mp member
        rfl
      · contradiction
    · simp [Core.record, core, idle]
  | notifies data present idle leading =>
    obtain ⟨others, -, started⟩ := alone_of_pending serial present rfl
    obtain rfl : rest = [] := returning.ops _ present
    refine moves [data] handler ops' started (List.append_nil _).symm others (by simp) ?_
      (Nat.le_refl 1) rfl
    intro call query data' notifying
    rw [(ServerHandler.notifying.inj notifying).2.2]
  | notified call query data relayed notifying =>
    have busy : s.server_handler = .notifying call query data := notifying
    obtain ⟨others, started⟩ := alone_of_notifying serial (by rw [busy]; simp)
    obtain rfl := returning.notifying call query data busy
    refine moves [data] handler ops' started rfl others (fun other member => ?_) (by simp)
      (Nat.le_refl 1) rfl
    split_ifs at member
    · obtain rfl := List.mem_singleton.mp member
      rfl
    · contradiction

/-- Along a run the client gets what was read from the server, up to the last read. -/
theorem client_lags {ok : Session → SessionEvent → Prop} (run : Path step? ok {} es s) :
    Lags (client_writes es) (server_reads es) := by
  have kept : s.Serial ∧ ∃ rest, s.Returning rest ∧ server_reads es = client_writes es ++ rest := by
    refine run.records (I := fun es s => s.Serial ∧
      ∃ rest, s.Returning rest ∧ server_reads es = client_writes es ++ rest) ⟨serial_init, [], ?_, rfl⟩ ?_
    · exact ⟨Nat.zero_le 1, fun op member => absurd member List.not_mem_nil,
        fun _ _ _ notifying => by contradiction, fun _ => rfl⟩
    · rintro es s e s' ⟨serial, rest, returning, same⟩ - taken
      obtain ⟨rest', returning', passed⟩ := returning.step serial taken
      refine ⟨serial.step taken, rest', returning', ?_⟩
      rw [server_reads_append, client_writes_append, same, List.append_assoc, passed,
        List.append_assoc]
  obtain ⟨-, rest, returning, same⟩ := kept
  exact ⟨rest, same, returning.few⟩

/-! ## From the client to the server -/

/-- SSL is not asked for, and every read that is a query makes the session leader. -/
def Leading (_ : Session) : SessionEvent → Prop
  | .complete .read_client_startup (.ok data) => ¬ looks_like_ssl_request data
  | .flight_result result => result = .IS_LEADER
  | .on_result _ _ => False
  | _ => True

/-- Whoever has the token of the client's side has what is left to pass on. -/
structure Forwarding (rest : List Bytes) (s : Session) : Prop where
  few : rest.length ≤ 1
  ops : ∀ op ∈ s.pending, op.forwards rest
  calling : ∀ sql_query data, s.client_handler = .calling sql_query data → rest = [data]
  unstarted : s.started = false → rest = []
  undelivered : delivered s.log = []

private theorem forwards_of_server {op : Op} (server : op.clientward = false) : op.forwards rest := by
  cases op <;> first | contradiction | trivial

/-- While one operation of the client's side is pending, nothing else of it is in progress. -/
private theorem alone_of_client {op : Op} (single : s.Single) (undelivered : delivered s.log = [])
    (present : op ∈ s.pending) (clientward : op.clientward = true) :
    (∀ other ∈ s.pending.erase op, other.clientward = false) ∧ s.client_handler = .idle ∧
      s.started = true := by
  have one := single.one
  rw [tokens] at one
  have held : s.core.held s.pending ≤ 1 := by omega
  obtain ⟨unawaited, others⟩ := Core.alone_of_clientward held present clientward
  refine ⟨others, ?_, ?_⟩
  · cases state : s.client_handler with
    | idle => rfl
    | calling sql_query data =>
      have waits : s.calls - 1 ∈ s.core.waiting := single.numbered.mem_waiting_of_calling state (by
        rw [show delivered s.core.log = [] from undelivered]
        exact List.not_mem_nil)
      rw [unawaited] at waits
      contradiction
  · by_contra unstarted
    have erased := Core.countP_erase_of_mem present clientward
    rw [Core.held] at one
    rw [if_neg unstarted] at one
    omega

/-- While the client read's handler is in a call, nothing else of the client's side is in progress. -/
private theorem alone_of_calling {sql_query data : Bytes} (single : s.Single)
    (undelivered : delivered s.log = []) (calling : s.client_handler = .calling sql_query data) :
    (∀ other ∈ s.pending, other.clientward = false) ∧ s.started = true := by
  have waits : s.calls - 1 ∈ s.core.waiting := single.numbered.mem_waiting_of_calling calling (by
    rw [show delivered s.core.log = [] from undelivered]
    exact List.not_mem_nil)
  have one := single.one
  rw [tokens] at one
  have held : s.core.held s.pending ≤ 1 := by omega
  refine ⟨(Core.alone_of_waiting held waits).2, ?_⟩
  by_contra unstarted
  have some := Finset.card_pos.mpr ⟨_, waits⟩
  rw [Core.held, if_neg unstarted] at one
  omega

/-- What the operations of startup arm, when SSL is not asked for. -/
private theorem armed_of_succeed {op : Op} {data : Bytes} (plain : op.forwards rest)
    (startup : op.bridges = false)
    (other : op = .read_client_startup → ¬ looks_like_ssl_request data) :
    ∀ next ∈ (s.succeed data op).pending, next ∈ s.pending ∨
      next.forwards (if op = .read_client_startup then [data] else []) := by
  have armed : ∀ {u : Session} {rest : List Bytes} (next : Op), next.forwards rest →
      u.pending = s.pending → ∀ op ∈ (u.arm next).pending, op ∈ s.pending ∨ op.forwards rest := by
    intro u rest next carried same op member
    rcases List.mem_append.mp member with member | member
    · exact .inl (same ▸ member)
    · rw [List.mem_singleton.mp member]
      exact .inr carried
  cases op with
  | resolve again =>
    obtain ⟨rfl, -⟩ := plain
    rw [if_neg (by simp)]
    exact armed (.connect false) ⟨rfl, rfl⟩ rfl
  | connect again =>
    obtain ⟨rfl, -⟩ := plain
    rw [if_neg (by simp)]
    simp only [succeed, Bool.false_eq_true, ↓reduceIte, Session.read_client_startup]
    split_ifs
    · exact fun op member => .inl member
    · exact fun op member => .inl member
    · exact armed .read_client_startup rfl rfl
  | read_client_startup =>
    rw [if_pos rfl]
    simp only [succeed]
    split_ifs with looks
    · exact absurd looks (other rfl)
    · rw [Session.relay_to_server]
      split_ifs
      · exact fun op member => .inl member
      · exact fun op member => .inl member
      · refine armed (.relay_to_server _) ?_ rfl
        simp [Op.forwards, fill]
  | _ => contradiction

private theorem armed_of_step {op : Op} {data : Bytes} (plain : op.forwards rest)
    (startup : op.bridges = false) (leading : Leading s (.complete op (.ok data)))
    (taken : s.step? (.complete op (.ok data)) = some s') :
    ∀ next ∈ s'.pending, next ∈ s.pending.erase op ∨
      next.forwards (if op = .read_client_startup then [data] else []) := by
  have completed : s.complete op (.ok data) = some s' := taken
  obtain ⟨-, -, -, rfl⟩ := complete_ok_cases completed
  by_cases gone : s.is_destroying_ = true
  · simp only [if_pos gone]
    exact fun next member => .inl member
  · simp only [if_neg gone]
    refine armed_of_succeed (s := { s with pending := s.pending.erase op }) plain startup ?_
    rintro rfl
    exact leading

/-- An operation that succeeds reads from the client, ends a write to the server, or does neither. -/
private theorem client_side_cases (op : Op) (completion : Completion) :
    (∃ data, (op = .read_client_startup ∨ op = .client_read) ∧ completion = .ok data) ∨
      (∃ data carried, (op = .relay_to_server data ∨ op = .server_write data) ∧
        completion = .ok carried) ∨
      (client_reads [.complete op completion] = [] ∧
        server_writes [.complete op completion] = []) := by
  cases completion with
  | error ec => cases op <;> exact .inr (.inr ⟨rfl, rfl⟩)
  | ok data =>
    cases op with
    | read_client_startup => exact .inl ⟨data, .inl rfl, rfl⟩
    | client_read => exact .inl ⟨data, .inr rfl, rfl⟩
    | relay_to_server bytes => exact .inr (.inl ⟨bytes, data, .inl rfl, rfl⟩)
    | server_write bytes => exact .inr (.inl ⟨bytes, data, .inr rfl, rfl⟩)
    | _ => exact .inr (.inr ⟨rfl, rfl⟩)

/-- A turn of the client's side passes on what it ought to. -/
private theorem Forwarding.step (single : s.Single) (forwarding : s.Forwarding rest)
    (leading : Leading s e) (taken : s.step? e = some s') : ∃ rest', s'.Forwarding rest' ∧
      rest ++ client_reads [e] = server_writes [e] ++ rest' := by
  have started' : s'.started = false → s.started = false := by
    intro unstarted
    rcases started_of_step taken with ⟨-, -, started⟩ | ⟨-, same⟩
    · rw [unstarted] at started
      contradiction
    · rwa [← same]
  have undelivered : delivered s'.log = [] := by
    rcases Core.delivered_cases (turn_of_step taken) with same | ⟨call, result, rfl, -⟩
    · exact same.trans forwarding.undelivered
    · exact leading.elim
  have alone : ∀ {op : Op}, op ∈ s.pending → op.clientward = true →
      (∀ other ∈ s.pending.erase op, other.clientward = false) ∧ s.client_handler = .idle ∧
        s.started = true := alone_of_client single forwarding.undelivered
  -- nothing is read or written, and what is left stays with what is pending
  have keeps : ∀ {handler ops}, s'.client_handler = handler → s'.pending = ops →
      client_reads [e] = [] → server_writes [e] = [] →
      (∀ op ∈ ops, op ∈ s.pending ∨ op.forwards rest) → handler = s.client_handler →
      ∃ rest', s'.Forwarding rest' ∧ rest ++ client_reads [e] = server_writes [e] ++ rest' := by
    rintro handler ops handler' pending' unread unwritten pending rfl
    refine ⟨rest, ⟨forwarding.few, fun op member => ?_, ?_, forwarding.unstarted ∘ started',
      undelivered⟩, ?_⟩
    · exact (pending op (pending' ▸ member)).elim (forwarding.ops op) id
    · rw [handler']
      exact forwarding.calling
    · rw [unread, unwritten, List.append_nil, List.nil_append]
  -- the token moves on with what it carries
  have moves : ∀ {handler} (rest' : List Bytes), s'.client_handler = handler → s.started = true →
      (∀ op ∈ s'.pending, op.forwards rest') →
      (∀ sql_query data, handler = .calling sql_query data → rest' = [data]) →
      rest'.length ≤ 1 → rest ++ client_reads [e] = server_writes [e] ++ rest' →
      ∃ rest', s'.Forwarding rest' ∧ rest ++ client_reads [e] = server_writes [e] ++ rest' := by
    rintro handler rest' rfl started carried busy few same
    refine ⟨rest', ⟨few, carried, busy, fun unstarted => ?_, undelivered⟩, same⟩
    rw [started' unstarted] at started
    contradiction
  have passed : ∀ {before next : List Op} {rest' : List Bytes}, s'.pending = before ++ next →
      (∀ op ∈ before, op.clientward = false) → (∀ op ∈ next, op.forwards rest') →
      ∀ op ∈ s'.pending, op.forwards rest' := by
    intro before next rest' same others carried op member
    rw [same] at member
    rcases List.mem_append.mp member with member | member
    · exact forwards_of_server (others op member)
    · exact carried op member
  have turn := turn_of_step taken
  generalize c' : s'.core = core', ops' : s'.pending = pending' at turn
  have handler := congrArg Core.client_handler c'
  cases turn with
  | quiet e own =>
    cases e with
    | complete op completion => exact absurd rfl (own op completion)
    | _ => exact keeps handler ops' rfl rfl (fun op member => .inl member) rfl
  | starts =>
    rcases started_of_step taken with ⟨-, unstarted, -⟩ | ⟨other, -⟩
    · obtain rfl := forwarding.unstarted unstarted
      exact keeps handler ops' rfl rfl
        (added (fun _ => id) (List.forall_mem_singleton.mpr ⟨rfl, rfl⟩)) rfl
    · exact absurd rfl other
  | ends op completion present =>
    rcases client_side_cases op completion with ⟨data, read, rfl⟩ | ⟨data, carried, write, rfl⟩ |
      ⟨unread, unwritten⟩
    · obtain ⟨others, idle, started⟩ := alone present (by rcases read with rfl | rfl <;> rfl)
      obtain rfl : rest = [] := by
        rcases read with rfl | rfl <;> exact forwarding.ops _ present
      refine moves [data] handler started (passed (ops'.trans (List.append_nil _).symm) others
        (by simp)) (by simp [core, idle]) (Nat.le_refl 1) ?_
      rcases read with rfl | rfl <;> rfl
    · obtain ⟨others, idle, started⟩ := alone present (by rcases write with rfl | rfl <;> rfl)
      obtain rfl : rest = [data] := by
        rcases write with rfl | rfl <;> exact forwarding.ops _ present
      refine moves [] handler started (passed (ops'.trans (List.append_nil _).symm) others
        (by simp)) (by simp [core, idle]) (Nat.zero_le 1) ?_
      rcases write with rfl | rfl <;> rfl
    · exact keeps handler ops' unread unwritten (fun op member => .inl (List.mem_of_mem_erase member))
        rfl
  | threw building =>
    exact keeps handler ops' rfl rfl (fun op member => .inl (List.mem_of_mem_erase member)) rfl
  | hands_on op data next actions present startup startup' early =>
    have plain := forwarding.ops _ present
    obtain ⟨others, idle, started⟩ := alone present (by cases op <;> first | contradiction | rfl)
    have armed := armed_of_step plain startup leading taken
    refine moves (if op = .read_client_startup then [data] else []) handler started ?_
      (by simp [Core.record, core, idle]) (by split_ifs <;> simp) ?_
    · intro other member
      rcases armed other member with before | now
      · exact forwards_of_server (others other before)
      · exact now
    · cases op with
      | resolve again => rw [plain.2]; rfl
      | connect again => rw [plain.2]; rfl
      | read_client_startup => rw [show rest = [] from plain]; rfl
      | _ => contradiction
  | begins op data loops present startup last once loop =>
    have plain := forwarding.ops _ present
    cases op with
    | relay_to_server bytes =>
      obtain ⟨others, idle, started⟩ := alone present rfl
      obtain rfl : rest = [bytes] := plain
      refine moves [] handler started (passed ops' others fun other member => ?_)
        (by simp [core, idle]) (Nat.zero_le 1) rfl
      rcases loop other member with rfl | rfl
      · rfl
      · trivial
    | write_client_startup bytes => exact plain.elim
    | client_read | server_write | response_write | server_read | client_write =>
      exact absurd rfl startup
    | _ => contradiction
  | reads_client op data present written =>
    have plain := forwarding.ops _ present
    obtain ⟨bytes, rfl⟩ | ⟨bytes, rfl⟩ := written
    · obtain ⟨others, idle, started⟩ := alone present rfl
      obtain rfl : rest = [bytes] := plain
      refine moves [] handler started (passed ops' others fun other member => ?_)
        (by simp [core, idle]) (Nat.zero_le 1) rfl
      obtain rfl := List.mem_singleton.mp member
      rfl
    · exact plain.elim
  | reads_server bytes data present =>
    exact keeps handler ops' rfl rfl
      (added (fun _ => List.mem_of_mem_erase) (List.forall_mem_singleton.mpr trivial)) rfl
  | passes data fate present idle nonempty other unanswered =>
    obtain ⟨others, idle, started⟩ := alone present rfl
    obtain rfl : rest = [] := forwarding.ops _ present
    refine moves [data] handler started (passed ops' others fun other member => ?_)
      (by simp [Core.record, core, idle]) (Nat.le_refl 1) rfl
    split_ifs at member
    · obtain rfl := List.mem_singleton.mp member
      rfl
    · contradiction
  | asks data sql_query present idle nonempty query =>
    obtain ⟨others, -, started⟩ := alone present rfl
    obtain rfl : rest = [] := forwarding.ops _ present
    refine moves [data] handler started (passed (ops'.trans (List.append_nil _).symm) others
      (by simp)) ?_ (Nat.le_refl 1) rfl
    intro sql_query' data' calling
    rw [(ClientHandler.calling.inj calling).2]
  | answered sql_query data result calling other => exact absurd leading other
  | leads sql_query data fate calling unanswered =>
    have calling : s.client_handler = .calling sql_query data := calling
    obtain ⟨others, started⟩ := alone_of_calling single forwarding.undelivered calling
    obtain rfl := forwarding.calling sql_query data calling
    refine moves [data] handler started (passed ops' others fun other member => ?_) (by simp)
      (Nat.le_refl 1) rfl
    split_ifs at member
    · obtain rfl := List.mem_singleton.mp member
      rfl
    · contradiction
  | delivers call result called => exact leading.elim
  | responds data relayed present idle none =>
    exact keeps handler ops' rfl rfl (added (fun _ => List.mem_of_mem_erase) (armed_if trivial)) rfl
  | notifies data present idle leading =>
    exact keeps handler ops' rfl rfl (fun op member => .inl (List.mem_of_mem_erase member)) rfl
  | notified call query data relayed notifying =>
    exact keeps handler ops' rfl rfl (added (fun _ => id) (armed_if trivial)) rfl

/-- Along a run that leads every query the server gets what was read from the client, up to the last
read. -/
theorem server_lags (run : Path step? Leading {} es s) :
    Lags (server_writes es) (client_reads es) := by
  have kept : s.Single ∧ ∃ rest, s.Forwarding rest ∧ client_reads es = server_writes es ++ rest := by
    refine run.records (I := fun es s => s.Single ∧
      ∃ rest, s.Forwarding rest ∧ client_reads es = server_writes es ++ rest)
      ⟨single_init, [], ?_, rfl⟩ ?_
    · exact ⟨Nat.zero_le 1, fun op member => absurd member List.not_mem_nil,
        fun _ _ calling => by contradiction, fun _ => rfl, rfl⟩
    · rintro es s e s' ⟨single, rest, forwarding, same⟩ leading taken
      obtain ⟨rest', forwarding', passed⟩ := forwarding.step single leading taken
      refine ⟨single.step ?_ taken, rest', forwarding', ?_⟩
      · unfold Core.Served
        split
        · exact leading.elim
        · rw [show delivered s.core.log = [] from forwarding.undelivered]
          exact List.not_mem_nil
        · trivial
      · rw [client_reads_append, server_writes_append, same, List.append_assoc, passed,
          List.append_assoc]
  obtain ⟨-, rest, forwarding, same⟩ := kept
  exact ⟨rest, same, forwarding.few⟩

end Session

end FlightProxy
