import FlightProxy.Model.QueryCache
import Mathlib.Data.List.Infix

/-! # Session: one client, one server connection

A session runs in completion handlers. `pending` holds the asynchronous operations in flight, and
completing one runs its handler. Two handlers call into QueryCache; they stop at the call and go on
when it returns, so that other handlers and sessions may run meanwhile. `log` is the history of what
the session read, wrote, asked and notified; nothing reads it. A call of doSingleFlight is numbered
by the session, and `leading` is the number of the one that set `current_query_`.

notifyFlightResult gets the text that `current_query_` has when it is called. The source passes a
reference, and another handler of the session that is told `IS_LEADER` during the call would assign to
the string while the call reads it; such a data race has no defined behaviour and is not modelled.
-/

namespace FlightProxy

open QueryCache (FlightResult)

/-- A `boost::system::error_code` other than success. -/
inductive ErrorCode
  | eof
  | operation_aborted
  /-- Of the SSL category, with its message. -/
  | ssl (message : String)
  | other
deriving DecidableEq, Repr

/-- How an asynchronous operation ends; `data` is what a read got. -/
inductive Completion
  | ok (data : Bytes)
  | error (ec : ErrorCode)
deriving DecidableEq, Repr

def is_expected_ssl_error : ErrorCode → Bool
  | .operation_aborted => true
  | .ssl message =>
    ["stream truncated", "short read", "protocol is shutdown", "bad record mac"].any fun text =>
      decide (text.toList <:+: message.toList)
  | .eof | .other => false

/-- The bytes a buffer is resized with; kept folded, since no handler looks at them. -/
@[irreducible] def zeros (n : ℕ) : Bytes := List.replicate n 0

structure Socket where
  is_open : Bool
deriving DecidableEq, Repr

/-- An asynchronous operation, with the bytes a write was given. -/
inductive Op
  /-- The two stages of connect_to_database; `again` when check_server_ssl_support reconnects. -/
  | resolve (again : Bool)
  | connect (again : Bool)
  | read_client_startup
  | write_ssl_request
  | read_ssl_answer
  | write_N
  | write_S
  | handshake_client
  | handshake_server
  | read_client_startup_after_ssl
  | write_client_startup (data : Bytes)
  | relay_to_server (data : Bytes)
  /-- The read of bridge_client_to_server, into `client_buffer_`. -/
  | client_read
  /-- Its write to the server, from `client_buffer_`. -/
  | server_write (data : Bytes)
  /-- The write of on_result to the client, from `cached_response_`. -/
  | response_write (data : Bytes)
  /-- The read of bridge_server_to_client, into `server_buffer_`. -/
  | server_read
  /-- Its write to the client, from `server_buffer_`. -/
  | client_write (data : Bytes)
deriving DecidableEq, Repr

/-- Where the handler of a client read stands. -/
inductive ClientHandler
  | idle
  /-- In `cache.doSingleFlight(sql_query, on_result)`, for a read of these bytes. -/
  | calling (sql_query data : Bytes)
deriving DecidableEq, Repr

/-- Where the handler of a server read stands. -/
inductive ServerHandler
  | idle
  /-- In `cache.notifyFlightResult(current_query_, response_str)`, for the call that leads. -/
  | notifying (call : ℕ) (query data : Bytes)
deriving DecidableEq, Repr

/-- What bridge_client_to_server did with a read. -/
inductive Fate
  | forwarded
  /-- Returned after `CACHE_HIT` or `IS_WAITER`. -/
  | answered
  /-- Returned because of `server_closed_`. -/
  | server_closed
  /-- Found no socket to write to, and closed. -/
  | no_socket
deriving DecidableEq, Repr

inductive Action
  /-- Bytes sent in the clear before the final stream is chosen. -/
  | negotiate (data : Bytes)
  /-- The answer to the client's SSLRequest. -/
  | answer (byte : UInt8)
  /-- The client's first packet, handed to the server. -/
  | startup (data : Bytes)
  /-- A read by bridge_client_to_server, and the text it gives to doSingleFlight. -/
  | read (data : Bytes) (intercepted : Option Bytes)
  | bridged (data : Bytes) (fate : Fate)
  /-- A read by bridge_server_to_client. -/
  | response (data : Bytes)
  | notify (query result : Bytes)
  /-- A write of a cached or shared result to the client, by call number. -/
  | on_result (call : ℕ) (result : Bytes)
  /-- A write of server bytes to the client. -/
  | relay (data : Bytes)
deriving DecidableEq, Repr

structure Session where
  client_ssl_socket_ : Option Socket := none
  server_ssl_socket_ : Option Socket := none
  client_buffer_ : Bytes := zeros 8192
  server_buffer_ : Bytes := zeros 8192
  startup_packet_ : Bytes := zeros 8192
  current_query_ : Bytes := []
  cached_response_ : Bytes := []
  client_socket_ : Option Socket := some ⟨true⟩
  server_socket_ : Option Socket := some ⟨false⟩
  ssl_enabled_ : Bool := false
  is_destroying_ : Bool := false
  client_closed_ : Bool := false
  server_closed_ : Bool := false
  started : Bool := false
  destroyed : Bool := false
  pending : List Op := []
  client_handler : ClientHandler := .idle
  server_handler : ServerHandler := .idle
  /-- The number of doSingleFlight calls so far. -/
  calls : ℕ := 0
  leading : ℕ := 0
  log : List Action := []

/-- A step that fails while the SSL streams are built, and what it leaves behind. -/
inductive Building
  | client_stream
  | server_stream
  | verify_mode
deriving DecidableEq, Repr

inductive SessionEvent
  | start
  /-- An operation completes and its handler runs, up to a call into QueryCache. -/
  | complete (op : Op) (completion : Completion)
  /-- The write of `'S'` completes, but building the SSL streams throws. -/
  | threw (building : Building)
  /-- doSingleFlight returns to the client read's handler. -/
  | flight_result (result : FlightResult)
  /-- The callback passed with a call is invoked. -/
  | on_result (call : ℕ) (result : Bytes)
  /-- notifyFlightResult returns to the server read's handler. -/
  | notify_returned
  /-- The last reference is dropped. -/
  | destroy
deriving DecidableEq, Repr

namespace Session

def is_sql_query (buffer : Bytes) (length : ℕ) : Bool :=
  0 < length && buffer.head? == some query_type

/-- The bytes from offset 5 up to a NUL, or to the end of the read. -/
def extract_sql_query (buffer : Bytes) (length : ℕ) : Bytes :=
  if length < 5 then [] else ((buffer.take length).drop 5).takeWhile (· ≠ 0)

/-- A read overwrites the front of the buffer. -/
def fill (buffer data : Bytes) : Bytes := data ++ buffer.drop data.length

/-- `buffer.resize(8192)`. -/
def resize (buffer : Bytes) : Bytes :=
  buffer.take 8192 ++ zeros (8192 - buffer.length)

def arm (s : Session) (op : Op) : Session := { s with pending := s.pending ++ [op] }

def record (s : Session) (action : Action) : Session := { s with log := s.log ++ [action] }

def shut : Option Socket → Option Socket := Option.map fun _ => ⟨false⟩

def cleanup_sockets (s : Session) : Session :=
  { s with
    client_ssl_socket_ := shut s.client_ssl_socket_
    server_ssl_socket_ := shut s.server_ssl_socket_
    client_socket_ := shut s.client_socket_
    server_socket_ := shut s.server_socket_ }

def close (s : Session) : Session :=
  if s.is_destroying_ then s else { s with is_destroying_ := true }.cleanup_sockets

/-- The common error branch: close, except on an expected SSL error. -/
def failed (s : Session) (ec : ErrorCode) : Session :=
  if is_expected_ssl_error ec then s else s.close

def isServerSslEnabled (s : Session) : Bool := s.ssl_enabled_ && s.server_ssl_socket_.isSome

/-- `server_socket_` if it is there and open. -/
def getServerSocket (s : Session) : Option Socket := s.server_socket_.filter Socket.is_open

/-- The test by which the bridge and on_result choose the client's SSL stream. -/
def client_ssl (s : Session) : Bool := s.ssl_enabled_ && s.client_ssl_socket_.isSome

/-! ## Startup -/

def connect_to_database (s : Session) (again : Bool) : Session :=
  if s.is_destroying_ then s else s.arm (.resolve again)

def start (s : Session) : Session :=
  if s.is_destroying_ then s
  else if s.client_socket_.isNone then s
  else s.connect_to_database false

def read_client_startup (s : Session) : Session :=
  if s.is_destroying_ then s
  else if s.client_socket_.isNone then s
  else { s with client_buffer_ := resize s.client_buffer_ }.arm .read_client_startup

def read_client_startup_after_ssl (s : Session) : Session :=
  if s.is_destroying_ then s
  else if s.client_ssl_socket_.isNone then s
  else { s with client_buffer_ := resize s.client_buffer_ }.arm .read_client_startup_after_ssl

/-- The packet check_server_ssl_support sends. -/
def ssl_request : Bytes := [0x00, 0x00, 0x00, 0x08, 0x04, 0xd2, 0x16, 0x2f]

def check_server_ssl_support (s : Session) : Session :=
  if s.is_destroying_ then s
  else match s.server_socket_ with
    | none => s
    | some server =>
      if server.is_open then (s.record (.negotiate ssl_request)).arm .write_ssl_request
      else s.connect_to_database true

def handle_ssl_request (s : Session) : Session :=
  if s.is_destroying_ then s
  else if s.client_socket_.isNone then s
  else (s.record (.answer 0x4e)).arm .write_N

def perform_ssl_handshake (s : Session) : Session :=
  if s.is_destroying_ then s
  else if s.client_socket_.isNone || s.server_socket_.isNone then s.close
  else (s.record (.answer 0x53)).arm .write_S

/-- The sockets move into SSL streams. -/
def build_ssl_streams (s : Session) : Session :=
  { s with
    client_ssl_socket_ := s.client_socket_
    server_ssl_socket_ := s.server_socket_
    client_socket_ := none
    server_socket_ := none }

/-- What a throw leaves: the stream under construction is lost with its socket. -/
def build_threw (s : Session) : Building → Session
  | .client_stream => { s with client_socket_ := some ⟨false⟩ }
  | .server_stream =>
    { s with
      client_ssl_socket_ := s.client_socket_
      client_socket_ := some ⟨false⟩
      server_socket_ := some ⟨false⟩ }
  | .verify_mode => s.build_ssl_streams

def relay_to_server (s : Session) (length : ℕ) : Session :=
  if s.is_destroying_ then s
  else if s.server_socket_.isNone then s
  else
    let data := s.client_buffer_.take length
    (s.record (.startup data)).arm (.relay_to_server data)

/-! ## Bridge -/

def bridge_client_to_server (s : Session) : Session :=
  if s.is_destroying_ then s
  else if s.client_ssl then s.arm .client_read
  else if s.client_socket_.isSome then s.arm .client_read
  else s.close

def bridge_server_to_client (s : Session) : Session :=
  if s.is_destroying_ then s
  else if s.server_closed_ then s
  else if s.isServerSslEnabled then s.arm .server_read
  else if s.getServerSocket.isSome then s.arm .server_read
  else s.close

/-- The end of the client read's handler: the read goes to the server as it is. -/
def forward (s : Session) (data : Bytes) : Session :=
  if s.server_closed_ then s.record (.bridged data .server_closed)
  else if s.isServerSslEnabled || s.getServerSocket.isSome then
    (s.record (.bridged data .forwarded)).arm (.server_write data)
  else (s.record (.bridged data .no_socket)).close

/-- The client read's handler on success, up to doSingleFlight if the read is a query. -/
def client_read (s : Session) (data : Bytes) : Session :=
  let s := { s with client_buffer_ := fill s.client_buffer_ data }
  if is_sql_query s.client_buffer_ data.length then
    let sql_query := extract_sql_query s.client_buffer_ data.length
    { s.record (.read data (some sql_query)) with
      client_handler := .calling sql_query data
      calls := s.calls + 1 }
  else (s.record (.read data none)).forward data

/-- The client read's handler after doSingleFlight. -/
def flight_result (s : Session) (sql_query data : Bytes) (result : FlightResult) : Session :=
  let s := { s with client_handler := .idle }
  match result with
  | .CACHE_HIT | .IS_WAITER => s.record (.bridged data .answered)
  | .IS_LEADER => { s with current_query_ := sql_query, leading := s.calls - 1 }.forward data

/-- The callback that the client read's handler gives to doSingleFlight. -/
def on_result (s : Session) (call : ℕ) (result : Bytes) : Session :=
  if s.is_destroying_ then s
  else
    let s := { s with cached_response_ := result }
    if s.client_ssl then (s.record (.on_result call result)).arm (.response_write result)
    else if s.client_socket_.isSome then
      (s.record (.on_result call result)).arm (.response_write result)
    else s

/-- The end of the server read's handler: the read goes to the client as it is. -/
def relay (s : Session) (data : Bytes) : Session :=
  if s.client_closed_ then s
  else if s.client_ssl then (s.record (.relay data)).arm (.client_write data)
  else if s.client_socket_.isSome then (s.record (.relay data)).arm (.client_write data)
  else s.close

/-- The server read's handler on success, up to notifyFlightResult if the session leads a query. -/
def server_read (s : Session) (data : Bytes) : Session :=
  let s := { s with server_buffer_ := fill s.server_buffer_ data }.record (.response data)
  if s.current_query_ ≠ [] then
    { s.record (.notify s.current_query_ data) with
      server_handler := .notifying s.leading s.current_query_ data }
  else s.relay data

/-- The server read's handler after notifyFlightResult. -/
def notify_returned (s : Session) (data : Bytes) : Session :=
  { s with server_handler := .idle, current_query_ := [] }.relay data

/-! ## Handlers -/

/-- The bytes with which an operation can succeed: reads get between one byte and what the buffer
holds, and the rest carries none. -/
def delivers : Op → Bytes → Bool
  | .read_client_startup, data | .read_client_startup_after_ssl, data | .client_read, data
  | .server_read, data => 0 < data.length && data.length ≤ 8192
  | .read_ssl_answer, data => data.length = 1
  | _, data => data.isEmpty

/-- The handler of an operation that succeeded. -/
def succeed (s : Session) (data : Bytes) : Op → Session
  | .resolve again => s.arm (.connect again)
  | .connect again =>
    let s := { s with server_socket_ := some ⟨true⟩ }
    if again then s.check_server_ssl_support else s.read_client_startup
  | .read_client_startup =>
    let s := { s with client_buffer_ := fill s.client_buffer_ data }
    if data.length = 8 ∧ data[4]? = some 0x04 ∧ data[5]? = some 0xd2 then
      { s with startup_packet_ := data }.check_server_ssl_support
    else s.relay_to_server data.length
  | .write_ssl_request => s.arm .read_ssl_answer
  | .read_ssl_answer =>
    if data = [0x53] then s.perform_ssl_handshake else s.handle_ssl_request
  | .write_N => s.relay_to_server s.startup_packet_.length
  | .write_S => s.build_ssl_streams.arm .handshake_client
  | .handshake_client =>
    if s.server_ssl_socket_.isNone then s.close else s.arm .handshake_server
  | .handshake_server => { s with ssl_enabled_ := true }.read_client_startup_after_ssl
  | .read_client_startup_after_ssl =>
    let s := { s with client_buffer_ := fill s.client_buffer_ data }
    if s.server_ssl_socket_.isNone then s
    else (s.record (.startup data)).arm (.write_client_startup data)
  | .write_client_startup _ => s.bridge_server_to_client.bridge_client_to_server
  | .relay_to_server _ => s.bridge_client_to_server.bridge_server_to_client
  | .client_read => s.client_read data
  | .server_write _ => s.bridge_client_to_server
  | .response_write _ => s.bridge_client_to_server
  | .server_read => s.server_read data
  | .client_write _ => s.bridge_server_to_client

/-- The handler of an operation that failed. -/
def fail (s : Session) (ec : ErrorCode) : Op → Session
  | .resolve _ | .connect _ | .handshake_client | .write_client_startup _ => s.close
  | .response_write _ => s
  | .client_read =>
    if ec = .eof then
      let s := { s with client_closed_ := true }
      if s.server_closed_ then s.close else s
    else s.failed ec
  | .server_read =>
    if ec = .eof then
      let s := { s with server_closed_ := true }
      if s.client_closed_ then s.close else s
    else s.failed ec
  | _ => s.failed ec

/-- The handler of the operation is not stopped inside a call of the same handler. -/
def free (s : Session) : Op → Bool
  | .client_read => s.client_handler = .idle
  | .server_read => s.server_handler = .idle
  | _ => true

/-- Every handler first leaves the session alone if it is being destroyed. -/
def complete (s : Session) (op : Op) (completion : Completion) : Option Session :=
  if op ∈ s.pending ∧ s.free op then
    let s := { s with pending := s.pending.erase op }
    match completion with
    | .ok data =>
      if delivers op data then some (if s.is_destroying_ then s else s.succeed data op) else none
    | .error ec => some (if s.is_destroying_ then s else s.fail ec op)
  else none

def threw (s : Session) (building : Building) : Option Session :=
  if .write_S ∈ s.pending then
    let s := { s with pending := s.pending.erase .write_S }
    some (if s.is_destroying_ then s else (s.build_threw building).close)
  else none

/-- `~Session`, once no handler and no operation holds the session. -/
def destroy (s : Session) : Option Session :=
  if s.started ∧ ¬ s.destroyed ∧ s.pending = [] ∧ s.client_handler = .idle ∧
      s.server_handler = .idle then
    some { { s with is_destroying_ := true }.cleanup_sockets with
      client_ssl_socket_ := none, server_ssl_socket_ := none, destroyed := true }
  else none

def step? (s : Session) : SessionEvent → Option Session
  | .start => if s.started then none else some { s with started := true }.start
  | .complete op completion => s.complete op completion
  | .threw building => s.threw building
  | .flight_result result =>
    match s.client_handler with
    | .calling sql_query data => some (s.flight_result sql_query data result)
    | .idle => none
  | .on_result call result =>
    if s.destroyed = false ∧ call < s.calls then some (s.on_result call result) else none
  | .notify_returned =>
    match s.server_handler with
    | .notifying _ _ data => some (s.notify_returned data)
    | .idle => none
  | .destroy => s.destroy

end Session

end FlightProxy
