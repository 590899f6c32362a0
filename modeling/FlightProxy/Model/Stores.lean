import FlightProxy.Model.QueryCache

/-! # The two stores under get, put and clear

Calls of `QueryCache::get`, `put` and `clear`, interleaved by their locked sections. A call of get
passes the two sections of getL1, getL2 and the putL1 that copies an L2 value, a call of put passes
putL1 and putL2, and a call of clear empties L1, then Redis, then the counters. Redis is a reliable
map here: every command reaches it.
-/

namespace FlightProxy

namespace Store

/-- The `FLUSHDB` of clear. -/
def flushdb (s : Store) : Store :=
  if s.redis_enabled_ then { s with redis := fun _ => none } else s

end Store

namespace Stores

open QueryCache (hash_query)

/-- The program point of a call. -/
inductive Point
  | idle
  /-- In get, getL1 found the key in its shared section. -/
  | present (query : Bytes)
  /-- In get, getL1 returned nothing. -/
  | missed (query : Bytes)
  /-- In get, getL2 returned a value, which putL1 is about to copy. -/
  | fetched (query value : Bytes)
  /-- get returned. -/
  | got (query : Bytes) (found : Option Bytes)
  /-- In put, putL1 is done. -/
  | pushing (query result : Bytes)
  /-- put returned. -/
  | stored (query result : Bytes)
  /-- In clear, L1 is empty. -/
  | flushing
  /-- In clear, Redis is empty. -/
  | resetting
  /-- clear returned. -/
  | cleared
deriving DecidableEq, Repr

structure State (Call : Type*) where
  store : Store
  point : Call → Point

variable {Call : Type*}

/-- Two empty stores and no call in progress. -/
def State.init (l1_max_size_ : ℕ) (l1_enabled_ redis_enabled_ : Bool) : State Call :=
  ⟨{ l1 := { l1_max_size_, l1_enabled_ }, redis_enabled_ }, fun _ => .idle⟩

inductive Event (Call : Type*)
  /-- `get(query)` starts: the shared section of getL1. -/
  | getL1_shared (c : Call) (query : Bytes)
  | getL1_unique (c : Call)
  | getL2 (c : Call)
  /-- `putL1(key, l2_result.value())` in get. -/
  | promote (c : Call)
  /-- `put(query, result)` starts: putL1. -/
  | putL1 (c : Call) (query result : Bytes)
  | putL2 (c : Call)
  /-- `clear()` starts: its block under `l1_mutex_`. -/
  | clear (c : Call)
  | flushdb (c : Call)
  /-- `stats_ = Stats{}`. -/
  | reset (c : Call)
deriving DecidableEq, Repr

variable (md5 : Bytes → Bytes) [DecidableEq Call]

namespace State

/-- Write the stores and move the call. -/
def move (s : State Call) (store : Store) (c : Call) (next : Point) : State Call :=
  ⟨store, Function.update s.point c next⟩

def getL1_shared (s : State Call) (c : Call) (query : Bytes) : Option (State Call) :=
  match s.point c with
  | .idle =>
    if s.store.l1.getL1_shared (hash_query md5 query) then some (s.move s.store c (.present query))
    else some (s.move (s.store.updateStats false false) c (.missed query))
  | _ => none

def getL1_unique (s : State Call) (c : Call) : Option (State Call) :=
  match s.point c with
  | .present query =>
    match s.store.l1.getL1_unique (hash_query md5 query) with
    | (some value, l1) =>
      some (s.move ({ s.store with l1 := l1 }.updateStats true false) c (.got query (some value)))
    | (none, l1) =>
      some (s.move ({ s.store with l1 := l1 }.updateStats false false) c (.missed query))
  | _ => none

def getL2 (s : State Call) (c : Call) : Option (State Call) :=
  match s.point c with
  | .missed query =>
    match s.store.getL2 true (hash_query md5 query) with
    | some value => some (s.move s.store c (.fetched query value))
    | none =>
      some (s.move (if s.store.redis_enabled_ then s.store.updateStats false false else s.store) c
        (.got query none))
  | _ => none

def promote (s : State Call) (c : Call) : Option (State Call) :=
  match s.point c with
  | .fetched query value =>
    some (s.move ((s.store.putL1 (hash_query md5 query) value).updateStats false true) c
      (.got query (some value)))
  | _ => none

def putL1 (s : State Call) (c : Call) (query result : Bytes) : Option (State Call) :=
  match s.point c with
  | .idle => some (s.move (s.store.putL1 (hash_query md5 query) result) c (.pushing query result))
  | _ => none

def putL2 (s : State Call) (c : Call) : Option (State Call) :=
  match s.point c with
  | .pushing query result =>
    some (s.move (s.store.putL2 true (hash_query md5 query) result) c (.stored query result))
  | _ => none

def clear (s : State Call) (c : Call) : Option (State Call) :=
  match s.point c with
  | .idle => some (s.move { s.store with l1 := s.store.l1.clear } c .flushing)
  | _ => none

def flushdb (s : State Call) (c : Call) : Option (State Call) :=
  match s.point c with
  | .flushing => some (s.move s.store.flushdb c .resetting)
  | _ => none

def reset (s : State Call) (c : Call) : Option (State Call) :=
  match s.point c with
  | .resetting => some (s.move { s.store with stats_ := {} } c .cleared)
  | _ => none

def step? (s : State Call) : Event Call → Option (State Call)
  | .getL1_shared c query => s.getL1_shared md5 c query
  | .getL1_unique c => s.getL1_unique md5 c
  | .getL2 c => s.getL2 md5 c
  | .promote c => s.promote md5 c
  | .putL1 c query result => s.putL1 md5 c query result
  | .putL2 c => s.putL2 md5 c
  | .clear c => s.clear c
  | .flushdb c => s.flushdb c
  | .reset c => s.reset c

end State

end Stores

end FlightProxy
