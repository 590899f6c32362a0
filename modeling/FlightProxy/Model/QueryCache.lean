import FlightProxy.Model.L1
import FlightProxy.Model.SingleFlight

/-! # QueryCache: the cache lookup in front of SingleFlight

`get` and `put` on the two stores, and the calls doSingleFlight and notifyFlightResult as atomic
steps: the two sections of getL1, getL2, putL1 and putL2, each callback, and each block of
SingleFlight. MD5 is a parameter. Redis is a map; a command that does not reach it finds nothing and
stores nothing, which also covers an expired key.
-/

namespace FlightProxy

/-- `QueryCache::Stats` without `l1_size`, which getStats fills in. -/
structure Stats where
  l1_hits : ℕ := 0
  l1_misses : ℕ := 0
  l2_hits : ℕ := 0
  l2_misses : ℕ := 0
deriving DecidableEq, Repr

/-- The two stores and the counters of a QueryCache. -/
structure Store where
  l1 : L1 := {}
  redis_enabled_ : Bool := false
  redis : Bytes → Option Bytes := fun _ => none
  stats_ : Stats := {}

/-- Two lower-case hexadecimal digits. -/
def hex (byte : UInt8) : Bytes :=
  let digit (d : UInt8) : UInt8 := if d < 10 then 0x30 + d else 0x61 + (d - 10)
  [digit (byte >>> 4), digit (byte &&& 0x0f)]

/-- `"query:" + key`. -/
def redis_key (key : Bytes) : Bytes := [0x71, 0x75, 0x65, 0x72, 0x79, 0x3a] ++ key

namespace Store

def updateStats (s : Store) (l1_hit l2_hit : Bool) : Store :=
  { s with stats_ :=
      if l1_hit then { s.stats_ with l1_hits := s.stats_.l1_hits + 1 }
      else if l2_hit then
        { s.stats_ with l1_misses := s.stats_.l1_misses + 1, l2_hits := s.stats_.l2_hits + 1 }
      else
        { s.stats_ with l1_misses := s.stats_.l1_misses + 1, l2_misses := s.stats_.l2_misses + 1 } }

/-- The value a GET returns, when the command reaches Redis. -/
def getL2 (s : Store) (reached : Bool) (key : Bytes) : Option Bytes :=
  if s.redis_enabled_ && reached then s.redis (redis_key key) else none

/-- The SETEX of putL2, when the command reaches Redis. -/
def putL2 (s : Store) (reached : Bool) (key result : Bytes) : Store :=
  if s.redis_enabled_ && reached then
    { s with redis := Function.update s.redis (redis_key key) (some result) }
  else s

def putL1 (s : Store) (key result : Bytes) : Store :=
  { s with l1 := s.l1.putL1 key result }

end Store

namespace QueryCache

variable {Call : Type*}

/-- `QueryCache::FlightResult`. -/
inductive FlightResult
  | CACHE_HIT
  | IS_LEADER
  | IS_WAITER
deriving DecidableEq, Repr

/-- The program point of a QueryCache::doSingleFlight call. -/
inductive DoCall
  | idle
  /-- getL1 found the key in its shared section. -/
  | present (query : Bytes)
  /-- getL1 returned nothing. -/
  | missed (query : Bytes)
  /-- getL2 returned a value, which putL1 is about to copy. -/
  | fetched (query value : Bytes)
  /-- get returned a value, and `on_result` is about to run. -/
  | hit (query value : Bytes)
  /-- get returned nothing, and the flight election is next. -/
  | electing (query : Bytes)
  /-- In or past `singleflight_->doSingleFlight`. -/
  | flying (query : Bytes)
  /-- Returned `CACHE_HIT`. -/
  | served (query value : Bytes)
  | threw (query : Bytes)
deriving DecidableEq, Repr

/-- `on_result(cached.value())` either returns or throws out of doSingleFlight. -/
def DoCall.after (query value : Bytes) : SingleFlight.Outcome → DoCall
  | .returned => .served query value
  | .threw => .threw query

/-- The program point of a notifyFlightResult call. -/
inductive NotifyCall
  | idle
  /-- putL1 is done. -/
  | pushing (query result : Bytes)
  /-- put is done. -/
  | publishing (query result : Bytes)
  /-- In or past `singleflight_->notifyResult`. -/
  | flying (query result : Bytes)
deriving DecidableEq, Repr

structure State (Call : Type*) where
  store : Store
  singleflight_ : SingleFlight.State Call
  doing : Call → DoCall
  notifying : Call → NotifyCall

/-- A cache with the given stores and no call in progress. -/
def State.init (store : Store) : State Call :=
  ⟨store, .init, fun _ => .idle, fun _ => .idle⟩

inductive Event (Call : Type*)
  /-- `doSingleFlight(query, on_result)` starts: the shared section of getL1. -/
  | getL1_shared (c : Call) (query : Bytes)
  | getL1_unique (c : Call)
  | getL2 (c : Call) (reached : Bool)
  /-- `putL1(key, l2_result.value())` in get. -/
  | promote (c : Call)
  /-- `on_result(cached.value())`. -/
  | call_back (c : Call) (outcome : SingleFlight.Outcome)
  /-- `notifyFlightResult(query, result)` starts: putL1 in put. -/
  | putL1 (n : Call) (query result : Bytes)
  | putL2 (n : Call) (reached : Bool)
  /-- A block of `singleflight_`. -/
  | flight (e : SingleFlight.Event Call)
deriving DecidableEq, Repr

section Hash

variable (md5 : Bytes → Bytes)

def hash_query (query : Bytes) : Bytes := (md5 query).flatMap hex

variable [DecidableEq Call]

namespace State

def move (s : State Call) (c : Call) (next : DoCall) : State Call :=
  { s with doing := Function.update s.doing c next }

def getL1_shared (s : State Call) (c : Call) (query : Bytes) : Option (State Call) :=
  if s.doing c = .idle then
    if s.store.l1.getL1_shared (hash_query md5 query) then some (s.move c (.present query))
    else some ({ s with store := s.store.updateStats false false }.move c (.missed query))
  else none

def getL1_unique (s : State Call) (c : Call) : Option (State Call) :=
  match s.doing c with
  | .present query =>
    match s.store.l1.getL1_unique (hash_query md5 query) with
    | (some value, l1) =>
      some ({ s with store := { s.store with l1 := l1 }.updateStats true false }.move c
        (.hit query value))
    | (none, l1) =>
      some ({ s with store := { s.store with l1 := l1 }.updateStats false false }.move c
        (.missed query))
  | _ => none

def getL2 (s : State Call) (c : Call) (reached : Bool) : Option (State Call) :=
  match s.doing c with
  | .missed query =>
    match s.store.getL2 reached (hash_query md5 query) with
    | some value => some (s.move c (.fetched query value))
    | none =>
      some ((if s.store.redis_enabled_ then { s with store := s.store.updateStats false false }
        else s).move c (.electing query))
  | _ => none

def promote (s : State Call) (c : Call) : Option (State Call) :=
  match s.doing c with
  | .fetched query value =>
    some ({ s with store := (s.store.putL1 (hash_query md5 query) value).updateStats false true }.move
      c (.hit query value))
  | _ => none

def call_back (s : State Call) (c : Call) (outcome : SingleFlight.Outcome) : Option (State Call) :=
  match s.doing c with
  | .hit query value => some (s.move c (.after query value outcome))
  | _ => none

def putL1 (s : State Call) (n : Call) (query result : Bytes) : Option (State Call) :=
  if s.notifying n = .idle then
    some { s with
      store := s.store.putL1 (hash_query md5 query) result
      notifying := Function.update s.notifying n (.pushing query result) }
  else none

def putL2 (s : State Call) (n : Call) (reached : Bool) : Option (State Call) :=
  match s.notifying n with
  | .pushing query result =>
    some { s with
      store := s.store.putL2 reached (hash_query md5 query) result
      notifying := Function.update s.notifying n (.publishing query result) }
  | _ => none

/-- The calls that `singleflight_` is entered with, and the call's move past the entry. -/
def enter (s : State Call) : SingleFlight.Event Call → Option (State Call)
  | .elect c key =>
    match s.doing c with
    | .electing query =>
      if key = hash_query md5 query then some (s.move c (.flying query)) else none
    | _ => none
  | .lookup n key result =>
    match s.notifying n with
    | .publishing query result' =>
      if key = hash_query md5 query ∧ result = result' then
        some { s with notifying := Function.update s.notifying n (.flying query result) }
      else none
    | _ => none
  | _ => some s

def flight (s : State Call) (e : SingleFlight.Event Call) : Option (State Call) :=
  (s.enter md5 e).bind fun entered =>
    (s.singleflight_.step? e).map fun flights => { entered with singleflight_ := flights }

def step? (s : State Call) : Event Call → Option (State Call)
  | .getL1_shared c query => s.getL1_shared md5 c query
  | .getL1_unique c => s.getL1_unique md5 c
  | .getL2 c reached => s.getL2 md5 c reached
  | .promote c => s.promote md5 c
  | .call_back c outcome => s.call_back c outcome
  | .putL1 n query result => s.putL1 md5 n query result
  | .putL2 n reached => s.putL2 md5 n reached
  | .flight e => s.flight md5 e

end State

end Hash

end QueryCache

end FlightProxy
