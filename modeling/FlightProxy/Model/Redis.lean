import FlightProxy.Model.QueryCache
import FlightProxy.Sync.SharedMutex

/-! # Redis commands under redis_mutex_

Calls of getL2, putL2, clear and setRedisConfig. A redisContext is a connection on which Redis
executes the commands in the order they are sent and replies in that order. redisCommand sends its
command and then takes the next reply, in two steps; it returns no reply once the context has an
error. getL2 is taken to look up `"query:" + key`.
-/

namespace FlightProxy.Redis

open Sync

inductive Command
  | get (redis_key : Bytes)
  | setex (redis_key value : Bytes)
  | flushdb
deriving DecidableEq, Repr

inductive Reply
  | string (value : Bytes)
  | nil
  | status
deriving DecidableEq, Repr

/-- What Redis replies, and the keys it holds then. -/
def exec (redis : Bytes → Option Bytes) : Command → Reply × (Bytes → Option Bytes)
  | .get redis_key =>
    match redis redis_key with
    | some value => (.string value, redis)
    | none => (.nil, redis)
  | .setex redis_key value => (.status, Function.update redis redis_key (some value))
  | .flushdb => (.status, fun _ => none)

/-- `redisContext`, with the commands that Redis has not executed and the replies not yet taken. -/
structure Context where
  err : Bool := false
  commands : List Command := []
  replies : List Reply := []
deriving DecidableEq, Repr

/-- The program point of a call; `again` says that it has reconnected. -/
inductive Point
  | idle
  /-- Holding the lock, before redisCommand. -/
  | locked (cmd : Command) (again : Bool) (ctx : ℕ)
  /-- In redisCommand, with the command sent. -/
  | waiting (cmd : Command) (again : Bool) (ctx : ℕ)
  /-- In getL2, after `lock.unlock()`. -/
  | retrying (redis_key : Bytes)
  /-- Before connectRedis; a failed command follows it. -/
  | connecting (cmd : Option Command)
  /-- In clear, `redis_enabled_` was set. -/
  | flushing
  /-- getL2 returned. -/
  | got (redis_key : Bytes) (found : Option Bytes)
  | done
deriving DecidableEq, Repr

/-- The mode in which the lock is held during a command: getL2 takes it in shared mode at first. -/
def Command.mode : Command → Bool → Mode
  | .get _, false => .shared
  | _, _ => .unique

/-- The mode in which a call holds `redis_mutex_`. -/
def Point.mode : Point → Option Mode
  | .locked cmd again _ | .waiting cmd again _ => some (cmd.mode again)
  | .connecting _ => some .unique
  | _ => none

/-- What the call returns with the reply of its command. -/
def Command.result : Command → Option Reply → Point
  | .get redis_key, some (.string value) => .got redis_key (some value)
  | .get redis_key, _ => .got redis_key none
  | _, _ => .done

structure State (Call : Type*) where
  redis_mutex_ : SharedMutex Call := {}
  redis_ctx_ : Option ℕ := none
  redis_enabled_ : Bool := false
  redis_host_ : Bytes := []
  redis_port_ : Int := 6379
  redis_timeout_ms_ : Int := 1000
  /-- The contexts allocated so far; a freed one is one that `redis_ctx_` has left. -/
  contexts : ℕ → Context := fun _ => {}
  fresh : ℕ := 0
  redis : Bytes → Option Bytes := fun _ => none
  point : Call → Point := fun _ => .idle

variable {Call : Type*}

inductive Event (Call : Type*)
  | getL2 (c : Call) (key : Bytes)
  | putL2 (c : Call) (key result : Bytes)
  | clear (c : Call)
  /-- The block of clear under the lock. -/
  | flush (c : Call)
  | setRedisConfig (c : Call) (host : Bytes) (port timeout_ms : Int)
  /-- `connectRedis()`; `connected` says whether Redis accepts the connection. -/
  | connect (c : Call) (connected : Bool)
  | send (c : Call)
  | receive (c : Call)
  /-- redisCommand returns no reply. -/
  | fail (c : Call)
  /-- getL2 locks again after a failed command. -/
  | relock (c : Call)
  /-- Redis executes the next command of a connection. -/
  | serve (ctx : ℕ)
  /-- A key expires, or another client of Redis writes it. -/
  | alter (redis_key : Bytes) (value : Option Bytes)
deriving DecidableEq, Repr

variable [DecidableEq Call]

namespace State

def move (s : State Call) (c : Call) (next : Point) : State Call :=
  { s with point := Function.update s.point c next }

/-- Unlock and move the call. -/
def leave (s : State Call) (c : Call) (kind : Mode) (next : Point) : State Call :=
  { s with redis_mutex_ := s.redis_mutex_.unlock c kind }.move c next

def disconnectRedis (s : State Call) : State Call :=
  { s with redis_ctx_ := none, redis_enabled_ := false }

/-- Without a host the context is left as it is. -/
def connectRedis (s : State Call) (connected : Bool) : Bool × State Call :=
  if s.redis_host_.isEmpty then (false, { s with redis_enabled_ := false })
  else if connected then
    (true, { s with
      redis_ctx_ := some s.fresh
      contexts := Function.update s.contexts s.fresh {}
      fresh := s.fresh + 1
      redis_enabled_ := true })
  else (false, { s with redis_ctx_ := none, redis_enabled_ := false })

/-- Lock, unless there is no context: then the call returns, and unlocks. -/
def enter (s : State Call) (c : Call) (cmd : Command) (enabled : Bool) : Option (State Call) :=
  (s.redis_mutex_.lock? c (cmd.mode false)).map fun mutex =>
    match s.redis_ctx_ with
    | some ctx =>
      if enabled then { s with redis_mutex_ := mutex }.move c (.locked cmd false ctx)
      else s.move c (cmd.result none)
    | none => s.move c (cmd.result none)

def getL2 (s : State Call) (c : Call) (key : Bytes) : Option (State Call) :=
  match s.point c with
  | .idle => s.enter c (.get (redis_key key)) s.redis_enabled_
  | _ => none

def putL2 (s : State Call) (c : Call) (key result : Bytes) : Option (State Call) :=
  match s.point c with
  | .idle => s.enter c (.setex (redis_key key) result) s.redis_enabled_
  | _ => none

/-- clear reads `redis_enabled_` without the lock. -/
def clear (s : State Call) (c : Call) : Option (State Call) :=
  match s.point c with
  | .idle => some (s.move c (if s.redis_enabled_ then .flushing else .done))
  | _ => none

def flush (s : State Call) (c : Call) : Option (State Call) :=
  match s.point c with
  | .flushing => s.enter c .flushdb true
  | _ => none

def setRedisConfig (s : State Call) (c : Call) (host : Bytes) (port timeout_ms : Int) :
    Option (State Call) :=
  match s.point c with
  | .idle =>
    (s.redis_mutex_.lock? c .unique).map fun mutex =>
      let s := { s with
        redis_mutex_ := mutex
        redis_host_ := host
        redis_port_ := port
        redis_timeout_ms_ := timeout_ms }
      (if s.redis_ctx_.isSome then s.disconnectRedis else s).move c (.connecting none)
  | _ => none

/-- After connectRedis, redisCommand follows again for the command that has failed. -/
def connect (s : State Call) (c : Call) (connected : Bool) : Option (State Call) :=
  match s.point c with
  | .connecting none => some ((s.connectRedis connected).2.leave c .unique .done)
  | .connecting (some cmd) =>
    match s.connectRedis connected with
    | (true, s) =>
      match s.redis_ctx_ with
      | some ctx => some (s.move c (.locked cmd true ctx))
      | none => some (s.leave c .unique (cmd.result none))
    | (false, s) => some (s.leave c .unique (cmd.result none))
  | _ => none

def send (s : State Call) (c : Call) : Option (State Call) :=
  match s.point c with
  | .locked cmd again ctx =>
    let context := s.contexts ctx
    if context.err then none
    else
      some ({ s with
        contexts := Function.update s.contexts ctx
          { context with commands := context.commands ++ [cmd] } }.move c (.waiting cmd again ctx))
  | _ => none

def receive (s : State Call) (c : Call) : Option (State Call) :=
  match s.point c with
  | .waiting cmd again ctx =>
    let context := s.contexts ctx
    match context.err, context.replies with
    | false, reply :: replies =>
      some ({ s with
        contexts := Function.update s.contexts ctx { context with replies := replies } }.leave c
          (cmd.mode again) (cmd.result (some reply)))
    | _, _ => none
  | _ => none

/-- What a call does after a redisCommand without a reply. -/
def retry (s : State Call) (c : Call) : Command → Bool → State Call
  | .get redis_key, false => s.leave c .shared (.retrying redis_key)
  | .setex redis_key value, false =>
    s.disconnectRedis.move c (.connecting (some (.setex redis_key value)))
  | cmd, _ => s.leave c .unique (cmd.result none)

/-- The context has an error from then on. -/
def fail (s : State Call) (c : Call) : Option (State Call) :=
  match s.point c with
  | .locked cmd again ctx | .waiting cmd again ctx =>
    some ({ s with
      contexts := Function.update s.contexts ctx
        { s.contexts ctx with err := true } }.retry c cmd again)
  | _ => none

def relock (s : State Call) (c : Call) : Option (State Call) :=
  match s.point c with
  | .retrying redis_key =>
    (s.redis_mutex_.lock? c .unique).map fun mutex =>
      { s with redis_mutex_ := mutex }.disconnectRedis.move c (.connecting (some (.get redis_key)))
  | _ => none

def serve (s : State Call) (ctx : ℕ) : Option (State Call) :=
  match (s.contexts ctx).commands with
  | cmd :: commands =>
    some { s with
      redis := (exec s.redis cmd).2
      contexts := Function.update s.contexts ctx
        { s.contexts ctx with
          commands := commands
          replies := (s.contexts ctx).replies ++ [(exec s.redis cmd).1] } }
  | [] => none

def step? (s : State Call) : Event Call → Option (State Call)
  | .getL2 c key => s.getL2 c key
  | .putL2 c key result => s.putL2 c key result
  | .clear c => s.clear c
  | .flush c => s.flush c
  | .setRedisConfig c host port timeout_ms => s.setRedisConfig c host port timeout_ms
  | .connect c connected => s.connect c connected
  | .send c => s.send c
  | .receive c => s.receive c
  | .fail c => s.fail c
  | .relock c => s.relock c
  | .serve ctx => s.serve ctx
  | .alter redis_key value => some { s with redis := Function.update s.redis redis_key value }

end State

end FlightProxy.Redis
