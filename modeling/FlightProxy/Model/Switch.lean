import FlightProxy.Model.QueryCache

/-! # Switching L1 off under get and put

Calls of setL1Enabled, getL1, putL1, get and put, interleaved by their locked sections, where the
read of `l1_enabled_` at the start of getL1 and putL1, without the lock, is a step of its own. A key
of getL1 and putL1 is a hash; get and put compute it from the query.
-/

namespace FlightProxy.Switch

open QueryCache (hash_query)

/-- Which call runs putL1. -/
inductive Caller
  | putL1
  | get
  | put
deriving DecidableEq, Repr

/-- The program point of a call; `within` says that a getL1 is that of a get. -/
inductive Point
  | idle
  /-- In getL1, `l1_enabled_` was set. -/
  | seeking (within : Bool) (key : Bytes)
  /-- In getL1, the shared section found the key. -/
  | present (within : Bool) (key : Bytes)
  /-- In get, getL1 returned nothing. -/
  | missed (key : Bytes)
  /-- In get, getL2 returned a value, which putL1 is about to copy. -/
  | fetched (key value : Bytes)
  /-- In putL1, `l1_enabled_` was set. -/
  | storing (caller : Caller) (key value : Bytes)
  /-- In put, putL1 is done. -/
  | pushing (key value : Bytes)
  | returned (found : Option Bytes)
deriving DecidableEq, Repr

structure State (Call : Type*) where
  store : Store
  point : Call → Point

variable {Call : Type*}

/-- An empty L1 in front of any Redis, and no call in progress. -/
def State.init (l1_max_size_ : ℕ) (l1_enabled_ redis_enabled_ : Bool)
    (redis : Bytes → Option Bytes) : State Call :=
  ⟨{ l1 := { l1_max_size_, l1_enabled_ }, redis_enabled_, redis }, fun _ => .idle⟩

/-- A step of a call; `reached` says whether its command reaches Redis. -/
inductive Event (Call : Type*)
  | setL1Enabled (c : Call) (enabled : Bool)
  /-- `getL1(key)` starts, and reads `l1_enabled_`. -/
  | getL1 (c : Call) (key : Bytes)
  /-- `get(query)` starts, and its getL1 reads `l1_enabled_`. -/
  | get (c : Call) (query : Bytes)
  | getL1_shared (c : Call)
  | getL1_unique (c : Call)
  | getL2 (c : Call) (reached : Bool)
  /-- `putL1(key, value)` starts, and reads `l1_enabled_`. -/
  | putL1 (c : Call) (key value : Bytes)
  /-- `put(query, result)` starts, and its putL1 reads `l1_enabled_`. -/
  | put (c : Call) (query result : Bytes)
  /-- `putL1(key, l2_result.value())` in get starts, and reads `l1_enabled_`. -/
  | promote (c : Call)
  | putL1_unique (c : Call)
  | putL2 (c : Call) (reached : Bool)
deriving DecidableEq, Repr

variable (md5 : Bytes → Bytes) [DecidableEq Call]

namespace State

/-- Write the stores and move the call. -/
def move (s : State Call) (store : Store) (c : Call) (next : Point) : State Call :=
  ⟨store, Function.update s.point c next⟩

/-- getL1 returns; a get counts the lookup. -/
def answer (s : State Call) (store : Store) (c : Call) (key : Bytes) :
    Bool → Option Bytes → State Call
  | false, found => s.move store c (.returned found)
  | true, some value => s.move (store.updateStats true false) c (.returned (some value))
  | true, none => s.move (store.updateStats false false) c (.missed key)

/-- putL1 returns. -/
def stored (s : State Call) (store : Store) (c : Call) (key value : Bytes) : Caller → State Call
  | .putL1 => s.move store c (.returned none)
  | .get => s.move (store.updateStats false true) c (.returned (some value))
  | .put => s.move store c (.pushing key value)

/-- The test at the start of getL1. -/
def seek (s : State Call) (c : Call) (within : Bool) (key : Bytes) : State Call :=
  if s.store.l1.l1_enabled_ then s.move s.store c (.seeking within key)
  else s.answer s.store c key within none

/-- The test at the start of putL1. -/
def test (s : State Call) (c : Call) (caller : Caller) (key value : Bytes) : State Call :=
  if s.store.l1.l1_enabled_ then s.move s.store c (.storing caller key value)
  else s.stored s.store c key value caller

def setL1Enabled (s : State Call) (c : Call) (enabled : Bool) : Option (State Call) :=
  match s.point c with
  | .idle => some (s.move { s.store with l1 := s.store.l1.setL1Enabled enabled } c (.returned none))
  | _ => none

def getL1 (s : State Call) (c : Call) (within : Bool) (key : Bytes) : Option (State Call) :=
  match s.point c with
  | .idle => some (s.seek c within key)
  | _ => none

def getL1_shared (s : State Call) (c : Call) : Option (State Call) :=
  match s.point c with
  | .seeking within key =>
    if (s.store.l1.l1_map_ key).isSome then some (s.move s.store c (.present within key))
    else some (s.answer s.store c key within none)
  | _ => none

def getL1_unique (s : State Call) (c : Call) : Option (State Call) :=
  match s.point c with
  | .present within key =>
    some (s.answer { s.store with l1 := (s.store.l1.getL1_unique key).2 } c key within
      (s.store.l1.getL1_unique key).1)
  | _ => none

def getL2 (s : State Call) (c : Call) (reached : Bool) : Option (State Call) :=
  match s.point c with
  | .missed key =>
    match s.store.getL2 reached key with
    | some value => some (s.move s.store c (.fetched key value))
    | none =>
      some (s.move (if s.store.redis_enabled_ then s.store.updateStats false false else s.store) c
        (.returned none))
  | _ => none

def putL1 (s : State Call) (c : Call) (caller : Caller) (key value : Bytes) : Option (State Call) :=
  match s.point c with
  | .idle => some (s.test c caller key value)
  | _ => none

def promote (s : State Call) (c : Call) : Option (State Call) :=
  match s.point c with
  | .fetched key value => some (s.test c .get key value)
  | _ => none

def putL1_unique (s : State Call) (c : Call) : Option (State Call) :=
  match s.point c with
  | .storing caller key value =>
    some (s.stored { s.store with l1 := s.store.l1.putL1_unique key value } c key value caller)
  | _ => none

def putL2 (s : State Call) (c : Call) (reached : Bool) : Option (State Call) :=
  match s.point c with
  | .pushing key value => some (s.move (s.store.putL2 reached key value) c (.returned none))
  | _ => none

def step? (s : State Call) : Event Call → Option (State Call)
  | .setL1Enabled c enabled => s.setL1Enabled c enabled
  | .getL1 c key => s.getL1 c false key
  | .get c query => s.getL1 c true (hash_query md5 query)
  | .getL1_shared c => s.getL1_shared c
  | .getL1_unique c => s.getL1_unique c
  | .getL2 c reached => s.getL2 c reached
  | .putL1 c key value => s.putL1 c .putL1 key value
  | .put c query result => s.putL1 c .put (hash_query md5 query) result
  | .promote c => s.promote c
  | .putL1_unique c => s.putL1_unique c
  | .putL2 c reached => s.putL2 c reached

end State

end FlightProxy.Switch
