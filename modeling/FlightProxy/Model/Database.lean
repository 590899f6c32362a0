import FlightProxy.Model.ProxyServer

/-! # The database behind the proxy

Every session has a server connection of its own, and all of them reach one database. A server
executes the statements that its session has forwarded, in order, and writes one response to each;
the session reads a response whole, or whatever the server writes while the session leads no query,
such as its greeting.
-/

namespace FlightProxy

/-- A deterministic database: its next state after a statement, and the response. -/
abbrev Database (σ : Type*) := σ → Bytes → σ × Bytes

/-- Executing the statements on the database itself, one after another. -/
def Database.direct {σ : Type*} (exec : Database σ) (db : σ) (statements : List Bytes) : σ :=
  statements.foldl (fun db sql => (exec db sql).1) db

/-- The text of a Query message, which is its body without the NUL. -/
def statement (data : Bytes) : Option Bytes :=
  if data.head? = some query_type then some (data.drop 5).dropLast else none

/-- The statements that a session has forwarded to its server. -/
def statements (log : List Action) : List Bytes :=
  log.filterMap fun
    | .bridged data .forwarded => statement data
    | _ => none

/-- No query of the session is under way: it leads none, and its handler is in no call of
doSingleFlight, or in one whose callback has written the answer. -/
def Session.Answered (s : Session) : Prop :=
  s.current_query_ = [] ∧
    (s.client_handler = .idle ∨ ∃ value, .on_result (s.calls - 1) value ∈ s.log)

/-- A write to the client. -/
def Op.replies : Op → Bool
  | .client_write _ | .response_write _ => true
  | _ => false

/-- A session that waits for the next message on both sides. -/
structure Session.Rests (s : Session) : Prop where
  alive : s.is_destroying_ = false
  client : .client_read ∈ s.pending
  server : .server_read ∈ s.pending

/-- The proxy between its clients and the database. -/
structure System (σ : Type*) where
  proxy : ProxyServer
  db : σ
  /-- How many statements each session's server has executed. -/
  executed : ℕ → ℕ
  /-- What each session's server has responded and the session has not read. -/
  outbox : ℕ → List Bytes

namespace System

variable {σ : Type*}

def init (store : Store) (db : σ) : System σ := ⟨.init store, db, fun _ => 0, fun _ => []⟩

inductive Event
  | proxy (e : ProxyServer.Event)
  /-- The server of a session executes its next statement and writes the response. -/
  | execute (i : ℕ)
deriving DecidableEq, Repr

def execute (exec : Database σ) (s : System σ) (i : ℕ) : Option (System σ) :=
  (statements (s.proxy.sessions i).log)[s.executed i]?.map fun sql =>
    { s with
      db := (exec s.db sql).1
      executed := Function.update s.executed i (s.executed i + 1)
      outbox := Function.update s.outbox i (s.outbox i ++ [(exec s.db sql).2]) }

/-- What is left to be read after a step of the proxy, if its server read gets what is there. -/
def unread (s : System σ) : ProxyServer.Event → Option (ℕ → List Bytes)
  | .session i (.complete .server_read (.ok data)) =>
    match s.outbox i with
    | response :: rest =>
      if data = response then some (Function.update s.outbox i rest) else none
    | [] => if (s.proxy.sessions i).current_query_ = [] then some s.outbox else none
  | _ => some s.outbox

def step? (md5 : Bytes → Bytes) (exec : Database σ) (s : System σ) : Event → Option (System σ)
  | .proxy e => (s.unread e).bind fun outbox =>
    (s.proxy.step? md5 e).map fun proxy => { s with proxy := proxy, outbox := outbox }
  | .execute i => s.execute exec i

/-! ## Schedules -/

/-- The session and the text, when a client sends a Query message. -/
def Event.asks : Event → Option (ℕ × Bytes)
  | .proxy (.session i (.complete .client_read (.ok data))) => (statement data).map (Prod.mk i)
  | _ => none

/-- The queries that the clients of a run send, numbered as their sessions number the calls. -/
def schedule (es : List Event) : List ((ℕ × ℕ) × Bytes) :=
  es.foldl (fun asked e =>
    match e.asks with
    | some (i, sql) => asked ++ [((i, asked.countP fun q => q.1.1 = i), sql)]
    | none => asked) []

/-- A client sends a query when every session has answered the one before: a well-formed message
with a text that is not empty, in one read, to a session that is not being destroyed. -/
def Sequential (s : System σ) : Event → Prop
  | .proxy (.session i (.complete .client_read (.ok data))) =>
    data.head? = some query_type →
      (∃ m text, Message.encode m = data ∧ m.text = some text ∧ text ≠ []) ∧
        (s.proxy.sessions i).is_destroying_ = false ∧ ∀ j, (s.proxy.sessions j).Answered
  | _ => True

/-- Besides, a client sends a query only when nothing is being written to it. -/
def Turns (s : System σ) (e : Event) : Prop :=
  s.Sequential e ∧ ∀ i sql, e.asks = some (i, sql) →
    ∀ op ∈ (s.proxy.sessions i).pending, op.replies = false

end System

end FlightProxy
