import FlightProxy.Session.Attribution
import FlightProxy.Session.Tokens

/-! # Replies in the order of the requests

The client's requests go to the server or are answered by a callback. The server loop and the
callbacks both write to the client, and nothing but the order of events keeps them apart: a callback
that runs while the server still owes a reply writes ahead of it, or inside it.
-/

namespace FlightProxy

open Transition

/-- Who replies to a request of the client: the server, or the callback of a call. -/
inductive Replier
  | server
  | call (call : ℕ)
deriving DecidableEq, Repr

/-- The number of calls so far, and the requests so far, each with who replies to it. -/
def book : ℕ × List Replier → Action → ℕ × List Replier
  | (calls, requests), .read _ (some _) => (calls + 1, requests)
  | (calls, requests), .startup _ | (calls, requests), .bridged _ .forwarded =>
    (calls, requests ++ [.server])
  | (calls, requests), .bridged _ .answered => (calls, requests ++ [.call (calls - 1)])
  | booked, _ => booked

def booked (log : List Action) : ℕ × List Replier := log.foldl book (0, [])

/-- The result that the callback of a call has written. -/
def result_of (log : List Action) (call : ℕ) : Option Bytes :=
  log.findSome? fun
    | .on_result call' result => if call' = call then some result else none
    | _ => none

/-- What the session has written to the client in reply to its requests. -/
def to_client (log : List Action) : Bytes :=
  log.flatMap fun
    | .on_result _ data | .relay data => data
    | _ => []

/-- What the server loop has written to the client. -/
def relayed (log : List Action) : Bytes :=
  log.flatMap fun
    | .relay data => data
    | _ => []

/-- The replies to requests, in order, up to the first that has none yet; the server's next reply
is its `k`-th. -/
def due (server : Server) (result : ℕ → Option Bytes) : ℕ → List Replier → Bytes
  | _, [] => []
  | k, .server :: rest => server.answer k ++ due server result (k + 1) rest
  | k, .call call :: rest =>
    match result call with
    | some data => data ++ due server result k rest
    | none => []

/-- All replies by calls are there. -/
def Known (log : List Action) (requests : List Replier) : Prop :=
  ∀ call, .call call ∈ requests → call ∈ delivered log

/-- An asynchronous write to the client's stream. -/
def Op.writes_client : Op → Bool
  | .write_N | .write_S | .response_write _ | .client_write _ => true
  | _ => false

namespace Core

/-- The client's requests, in order; the one that its handler is in is answered locally, unless the
handler learns otherwise. -/
def requests (c : Core) : List Replier :=
  (booked c.log).2 ++
    match c.client_handler with
    | .idle => []
    | .calling _ _ => [.call (c.calls - 1)]

/-- The number of requests that go to the server. -/
def asked (c : Core) : ℕ := (booked c.log).2.count .server

end Core

section

variable {server : Server} {log news : List Action} {n k call : ℕ} {data : Bytes}
  {front rest : List Replier}

@[simp] theorem to_client_append : to_client (log ++ news) = to_client log ++ to_client news :=
  List.flatMap_append ..

@[simp] theorem relayed_append : relayed (log ++ news) = relayed log ++ relayed news :=
  List.flatMap_append ..

theorem booked_append : booked (log ++ news) = news.foldl book (booked log) := List.foldl_append ..

theorem result_of_append : result_of (log ++ news) call = (result_of log call).or (result_of news call) :=
  List.findSome?_append ..

theorem result_of_eq_none_iff : result_of log call = none ↔ call ∉ delivered log := by
  rw [result_of, List.findSome?_eq_none_iff]
  constructor
  · intro silent member
    obtain ⟨action, here, same⟩ := List.mem_filterMap.mp member
    have none := silent action here
    cases action with
    | on_result call' result =>
      obtain rfl := Option.some.inj same
      simp at none
    | _ => contradiction
  · intro undelivered action here
    cases action with
    | on_result call' result =>
      simp only [ite_eq_right_iff, reduceCtorEq, imp_false]
      rintro rfl
      exact undelivered (List.mem_filterMap.mpr ⟨_, here, rfl⟩)
    | _ => rfl

/-- What a call has written stays. -/
theorem result_of_kept (member : call ∈ delivered log) : result_of (log ++ news) call = result_of log call := by
  rw [result_of_append]
  cases here : result_of log call with
  | none => exact absurd member (result_of_eq_none_iff.mp here)
  | some data => rfl

theorem due_append (known : Known log front) :
    due server (result_of log) k (front ++ rest) =
      due server (result_of log) k front ++ due server (result_of log) (k + front.count .server) rest := by
  induction front generalizing k with
  | nil => rfl
  | cons replier front ih =>
    have later : Known log front := fun call member => known call (List.mem_cons_of_mem _ member)
    cases replier with
    | server =>
      have next : k + 1 + front.count .server = k + (front.count .server + 1) := by omega
      rw [List.cons_append, due, due, ih later, List.count_cons_self, next, List.append_assoc]
    | call call =>
      rw [List.cons_append, List.count_cons_of_ne (by simp)]
      cases here : result_of log call with
      | none => exact absurd (known call List.mem_cons_self) (result_of_eq_none_iff.mp here)
      | some data => simp only [due, here, ih later, List.append_assoc]

/-- Replies that are there stay. -/
theorem due_kept (known : Known log front) :
    due server (result_of (log ++ news)) k front = due server (result_of log) k front := by
  induction front generalizing k with
  | nil => rfl
  | cons replier front ih =>
    have later : Known log front := fun call member => known call (List.mem_cons_of_mem _ member)
    cases replier with
    | server => rw [due, due, ih later]
    | call call => simp only [due, result_of_kept (known call List.mem_cons_self), ih later]

/-- An entry that writes nothing to the client, by which no read and no request comes in. -/
def Action.unwritten : Action → Bool
  | .on_result _ _ | .relay _ => false
  | _ => true

theorem silent_of_unwritten (unwritten : ∀ action ∈ news, action.unwritten = true) :
    to_client news = [] ∧ relayed news = [] ∧ delivered news = [] := by
  refine ⟨List.flatMap_eq_nil_iff.mpr ?_, List.flatMap_eq_nil_iff.mpr ?_,
    List.filterMap_eq_nil_iff.mpr ?_⟩
  all_goals
    intro action member
    have silent := unwritten action member
    cases action <;> first | rfl | contradiction

/-- What has been written to the client are replies to the requests, in order, and the rest of them
is what the server still owes; all calls are answered but perhaps the last. -/
structure Settled (server : Server) (log : List Action) (requests : List Replier)
    (waiting : Finset ℕ) : Prop where
  paid : due server (result_of log) 0 requests =
    to_client log ++ (server.output (requests.count .server)).drop (relayed log).length
  behind : relayed log <+: server.output (requests.count .server)
  front : ∃ front, Known log front ∧ ((waiting = ∅ ∧ requests = front) ∨
    ∃ call, call ∉ delivered log ∧ waiting = {call} ∧ requests = front ++ [.call call])

variable {requests : List Replier} {waiting : Finset ℕ}

theorem count_server (requests : List Replier) :
    (requests ++ [Replier.server]).count Replier.server = requests.count .server + 1 := by
  rw [List.count_append, List.count_singleton_self]

theorem count_call (requests : List Replier) (call : ℕ) :
    (requests ++ [Replier.call call]).count Replier.server = requests.count .server := by
  simp

/-- A reply that is not there yet ends what is due. -/
theorem due_waiting (known : Known log front) (undelivered : call ∉ delivered log) :
    due server (result_of log) 0 (front ++ [.call call]) = due server (result_of log) 0 front := by
  rw [due_append known, due, result_of_eq_none_iff.mpr undelivered, List.append_nil]

theorem Known.mono (known : Known log front) (news : List Action) : Known (log ++ news) front := by
  intro call member
  rw [delivered_append]
  exact List.mem_append_left _ (known call member)

theorem Settled.known (settled : Settled server log requests ∅) : Known log requests := by
  obtain ⟨front, known, ⟨-, rfl⟩ | ⟨call, -, waits, -⟩⟩ := settled.front
  · exact known
  · exact absurd waits (Finset.singleton_ne_empty call).symm

theorem Settled.waits (settled : Settled server log requests {call}) :
    ∃ front, Known log front ∧ call ∉ delivered log ∧ requests = front ++ [.call call] := by
  obtain ⟨front, known, ⟨none, -⟩ | ⟨call', undelivered, waits, rfl⟩⟩ := settled.front
  · exact absurd none (Finset.singleton_ne_empty call)
  · obtain rfl := Finset.singleton_injective waits
    exact ⟨front, known, undelivered, rfl⟩

/-- Nothing is written. -/
theorem Settled.aside (settled : Settled server log requests waiting)
    (unwritten : ∀ action ∈ news, action.unwritten = true) :
    Settled server (log ++ news) requests waiting := by
  obtain ⟨nothing, unrelayed, undelivered⟩ := silent_of_unwritten unwritten
  have same : result_of (log ++ news) = result_of log := by
    funext call
    have none : result_of news call = none :=
      result_of_eq_none_iff.mpr (by rw [undelivered]; exact List.not_mem_nil)
    rw [result_of_append, none, Option.or_none]
  refine ⟨?_, ?_, ?_⟩
  · rw [same, to_client_append, nothing, relayed_append, unrelayed, List.append_nil, List.append_nil]
    exact settled.paid
  · rw [relayed_append, unrelayed, List.append_nil]
    exact settled.behind
  · obtain ⟨front, known, phase⟩ := settled.front
    refine ⟨front, known.mono news, ?_⟩
    rwa [delivered_append, undelivered, List.append_nil]

/-- A request goes to the server. -/
theorem Settled.forwards (settled : Settled server log requests ∅) :
    Settled server log (requests ++ [.server]) ∅ := by
  have known := settled.known
  have more := count_server requests
  refine ⟨?_, ?_, requests ++ [.server], ?_, .inl ⟨rfl, rfl⟩⟩
  · rw [due_append known, settled.paid, more, Server.output_succ,
      List.drop_append_of_le_length settled.behind.length_le]
    simp [due]
  · rw [more]
    exact settled.behind.trans (Server.output_prefix (Nat.le_succ _))
  · intro call member
    exact known call (by simpa using member)

/-- A request is handed to a call. -/
theorem Settled.asks (settled : Settled server log requests ∅) (undelivered : call ∉ delivered log) :
    Settled server log (requests ++ [.call call]) {call} := by
  have known := settled.known
  have same := count_call requests call
  refine ⟨?_, ?_, requests, known, .inr ⟨call, undelivered, rfl, rfl⟩⟩
  · rw [due_waiting known undelivered, same]
    exact settled.paid
  · rw [same]
    exact settled.behind

/-- The call turns out not to reply. -/
theorem Settled.withdraws (settled : Settled server log (requests ++ [.call call]) {call}) :
    Settled server log requests ∅ := by
  obtain ⟨front, known, undelivered, same⟩ := settled.waits
  obtain rfl := (List.append_inj' same rfl).1
  have count := count_call requests call
  have paid := settled.paid
  rw [due_waiting known undelivered, count] at paid
  exact ⟨paid, count ▸ settled.behind, requests, known, .inl ⟨rfl, rfl⟩⟩

/-- The call replies when the server owes nothing. -/
theorem Settled.delivers (settled : Settled server log requests {call})
    (relayed_all : relayed log = server.output (requests.count .server)) (data : Bytes) :
    Settled server (log ++ [.on_result call data]) requests ∅ := by
  obtain ⟨front, known, undelivered, rfl⟩ := settled.waits
  have paid := settled.paid
  rw [due_waiting known undelivered, relayed_all, List.drop_length, List.append_nil] at paid
  have unrelayed : relayed (log ++ [.on_result call data]) = relayed log := by
    rw [relayed_append]
    exact List.append_nil _
  have given : result_of (log ++ [.on_result call data]) call = some data := by
    rw [result_of_append, result_of_eq_none_iff.mpr undelivered]
    simp [result_of]
  have written : to_client (log ++ [.on_result call data]) = to_client log ++ data := by
    simp [to_client]
  refine ⟨?_, ?_, front ++ [.call call], ?_, .inl ⟨rfl, rfl⟩⟩
  · rw [due_append (known.mono _), due_kept known, paid, unrelayed, relayed_all, List.drop_length,
      written]
    simp [due, given]
  · rw [unrelayed]
    exact settled.behind
  · intro other member
    rcases List.mem_append.mp member with earlier | last
    · exact known.mono _ other earlier
    · obtain rfl := Replier.call.inj (List.mem_singleton.mp last)
      rw [delivered_append]
      exact List.mem_append_right _ List.mem_cons_self

/-- The server loop writes what comes next. -/
theorem Settled.relays (settled : Settled server log requests waiting)
    (next : relayed log ++ data <+: server.output (requests.count .server)) :
    Settled server (log ++ [.relay data]) requests waiting := by
  have unanswered : delivered [.relay data] = [] := rfl
  have same : result_of (log ++ [.relay data]) = result_of log := by
    funext call
    have none : result_of [.relay data] call = none := rfl
    rw [result_of_append, none, Option.or_none]
  have relayed_next : relayed (log ++ [.relay data]) = relayed log ++ data := by simp [relayed]
  have written : to_client (log ++ [.relay data]) = to_client log ++ data := by simp [to_client]
  refine ⟨?_, relayed_next ▸ next, ?_⟩
  · rw [same, settled.paid, relayed_next, written, List.append_assoc]
    obtain ⟨owed, all⟩ := next
    rw [← all, List.drop_left, List.append_assoc, List.drop_left]
  · obtain ⟨front, known, phase⟩ := settled.front
    refine ⟨front, known.mono _, ?_⟩
    rwa [delivered_append, unanswered, List.append_nil]

theorem Settled.ordered (settled : Settled server log requests waiting) :
    to_client log <+: due server (result_of log) 0 requests := by
  rw [settled.paid]
  exact List.prefix_append ..

end

end FlightProxy
