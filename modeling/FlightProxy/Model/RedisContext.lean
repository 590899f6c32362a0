import FlightProxy.Model.Redis
import FlightProxy.Resource.Handle

/-! # The Redis context: what QueryCache calls of hiredis

setRedisConfig, getL2, putL2, clear and the destructor, with each block under `redis_mutex_` as one
step. `log` is the history of redisConnectWithTimeout, redisFree and redisCommand. hiredis decides
what a connection attempt returns and whether a command gets a reply, which may be none at any time.
Nothing stops calls that go on after the destructor here, so the runs include those of the program.
-/

namespace FlightProxy.RedisContext

open Redis Resource

/-- What redisConnectWithTimeout returns: null, a context with an error, or a connection. -/
inductive Connection
  | null
  | failed
  | connected
deriving DecidableEq, Repr

/-- The arguments of redisConnectWithTimeout, with the seconds and microseconds of the timeval. -/
structure Address where
  host : Bytes
  port : Int
  tv_sec : Int
  tv_usec : Int
deriving DecidableEq, Repr

/-- The value of a reply of type REDIS_REPLY_STRING. -/
def str : Reply → Option Bytes
  | .string value => some value
  | .nil | .status => none

/-- The program point of a call. -/
inductive Point
  | idle
  /-- In getL2, after `lock.unlock()`. -/
  | retrying (key : Bytes)
  /-- In clear, `redis_enabled_` was set. -/
  | flushing
  /-- getL2 returned. -/
  | got (key : Bytes) (found : Option Bytes)
  | done
deriving DecidableEq, Repr

structure State (Call : Type*) where
  redis_ctx_ : Option ℕ := none
  redis_enabled_ : Bool := false
  redis_host_ : Bytes := []
  redis_port_ : Int := 6379
  redis_timeout_ms_ : Int := 1000
  /-- The context that hiredis returns next. -/
  fresh : ℕ := 0
  log : List (Action Address Command) := []
  point : Call → Point := fun _ => .idle

variable {Call : Type*}

inductive Event (Call : Type*)
  | setRedisConfig (c : Call) (host : Bytes) (port timeout_ms : Int) (connection : Connection)
  /-- The block of getL2 under the shared lock. -/
  | getL2 (c : Call) (key : Bytes) (reply : Option Reply)
  /-- Its block under the unique lock, after a command without a reply. -/
  | reconnect (c : Call) (connection : Connection) (reply : Option Reply)
  | putL2 (c : Call) (key result : Bytes) (reply : Option Reply) (connection : Connection)
  | clear (c : Call)
  /-- The block of clear under the lock. -/
  | flush (c : Call)
  | destroy
deriving DecidableEq, Repr

namespace State

def call (s : State Call) (action : Action Address Command) : State Call :=
  { s with log := s.log ++ [action] }

def address (s : State Call) : Address where
  host := s.redis_host_
  port := s.redis_port_
  tv_sec := s.redis_timeout_ms_.tdiv 1000
  tv_usec := s.redis_timeout_ms_.tmod 1000 * 1000

def redisConnectWithTimeout (s : State Call) : Connection → State Call
  | .null => { s.call (.acquire s.address none) with redis_ctx_ := none }
  | .failed | .connected =>
    { s.call (.acquire s.address (some s.fresh)) with
      redis_ctx_ := some s.fresh
      fresh := s.fresh + 1 }

/-- `redisFree(redis_ctx_); redis_ctx_ = nullptr`, if there is a context. -/
def redisFree (s : State Call) : State Call :=
  match s.redis_ctx_ with
  | some ctx => { s.call (.release ctx) with redis_ctx_ := none }
  | none => s

def redisCommand (s : State Call) (cmd : Command) : State Call := s.call (.use s.redis_ctx_ cmd)

/-- Without a host the context is left as it is. -/
def connectRedis (s : State Call) (connection : Connection) : Bool × State Call :=
  if s.redis_host_.isEmpty then (false, { s with redis_enabled_ := false })
  else
    let s := s.redisConnectWithTimeout connection
    if s.redis_ctx_.isNone || connection = .failed then
      (false, { s.redisFree with redis_enabled_ := false })
    else (true, { s with redis_enabled_ := true })

def disconnectRedis (s : State Call) : State Call := { s.redisFree with redis_enabled_ := false }

/-- The constructor. -/
def QueryCache (connection : Connection) : State Call := (({} : State Call).connectRedis connection).2

/-- `connectRedis() && redis_ctx_`, and the command again if so. -/
def retry (s : State Call) (connection : Connection) (cmd : Command) : Bool × State Call :=
  let (connected, s) := s.disconnectRedis.connectRedis connection
  if connected && s.redis_ctx_.isSome then (true, s.redisCommand cmd) else (false, s)

variable [DecidableEq Call]

def move (s : State Call) (c : Call) (next : Point) : State Call :=
  { s with point := Function.update s.point c next }

def setRedisConfig (s : State Call) (c : Call) (host : Bytes) (port timeout_ms : Int)
    (connection : Connection) : Option (State Call) :=
  match s.point c with
  | .idle =>
    let s := { s with redis_host_ := host, redis_port_ := port, redis_timeout_ms_ := timeout_ms }
    let s := if s.redis_ctx_.isSome then s.disconnectRedis else s
    some ((s.connectRedis connection).2.move c .done)
  | _ => none

def getL2 (s : State Call) (c : Call) (key : Bytes) (reply : Option Reply) : Option (State Call) :=
  match s.point c with
  | .idle =>
    if s.redis_ctx_.isNone || !s.redis_enabled_ then some (s.move c (.got key none))
    else
      let s := s.redisCommand (.get (redis_key key))
      match reply with
      | some reply => some (s.move c (.got key (str reply)))
      | none => some (s.move c (.retrying key))
  | _ => none

def reconnect (s : State Call) (c : Call) (connection : Connection) (reply : Option Reply) :
    Option (State Call) :=
  match s.point c with
  | .retrying key =>
    let (sent, s) := s.retry connection (.get (redis_key key))
    some (s.move c (.got key (if sent then reply.bind str else none)))
  | _ => none

def putL2 (s : State Call) (c : Call) (key result : Bytes) (reply : Option Reply)
    (connection : Connection) : Option (State Call) :=
  match s.point c with
  | .idle =>
    if s.redis_ctx_.isNone || !s.redis_enabled_ then some (s.move c .done)
    else
      let s := s.redisCommand (.setex (redis_key key) result)
      match reply with
      | some _ => some (s.move c .done)
      | none => some ((s.retry connection (.setex (redis_key key) result)).2.move c .done)
  | _ => none

/-- clear reads `redis_enabled_` without the lock. -/
def clear (s : State Call) (c : Call) : Option (State Call) :=
  match s.point c with
  | .idle => some (s.move c (if s.redis_enabled_ then .flushing else .done))
  | _ => none

def flush (s : State Call) (c : Call) : Option (State Call) :=
  match s.point c with
  | .flushing => some ((if s.redis_ctx_.isSome then s.redisCommand .flushdb else s).move c .done)
  | _ => none

def step? (s : State Call) : Event Call → Option (State Call)
  | .setRedisConfig c host port timeout_ms connection =>
    s.setRedisConfig c host port timeout_ms connection
  | .getL2 c key reply => s.getL2 c key reply
  | .reconnect c connection reply => s.reconnect c connection reply
  | .putL2 c key result reply connection => s.putL2 c key result reply connection
  | .clear c => s.clear c
  | .flush c => s.flush c
  | .destroy => some s.disconnectRedis

end State

end FlightProxy.RedisContext
