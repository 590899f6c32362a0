import FlightProxy.Model.Wire
import Mathlib.Logic.Function.Basic

/-! # The L1 cache: a list of nodes and a map of iterators

`l1_list_` is a `std::list`, whose nodes keep their identity while they are spliced, so a node is an
iterator, here a number, with its `LRUNode`, and `l1_map_` maps a key to an iterator. Each section under `l1_mutex_`
is a definition of its own; `getL1` and `putL1` compose them with the unlocked test of
`l1_enabled_`. Dereferencing an iterator that is not in the list is undefined in the source.
-/

namespace FlightProxy

structure LRUNode where
  key : Bytes
  value : Bytes
deriving DecidableEq, Repr

structure L1 where
  l1_max_size_ : ℕ := 1000
  l1_enabled_ : Bool := true
  l1_list_ : List (ℕ × LRUNode) := []
  l1_map_ : Bytes → Option ℕ := fun _ => none
  /-- The node the next insertion allocates. -/
  fresh : ℕ := 0

namespace L1

/-- `l1_list_.splice(l1_list_.end(), l1_list_, it)`. -/
def splice (list : List (ℕ × LRUNode)) (it : ℕ) : List (ℕ × LRUNode) :=
  list.filter (fun node => node.1 ≠ it) ++ list.filter (fun node => node.1 = it)

/-- `it->second->value = result`. -/
def assign (list : List (ℕ × LRUNode)) (it : ℕ) (result : Bytes) :
    List (ℕ × LRUNode) :=
  list.map fun node => if node.1 = it then (it, { node.2 with value := result }) else node

/-- `*it`. -/
def deref (list : List (ℕ × LRUNode)) (it : ℕ) : Option LRUNode :=
  (list.find? fun node => node.1 = it).map Prod.snd

/-- The section of getL1 under the shared lock, with the unlocked test before it. -/
def getL1_shared (s : L1) (query : Bytes) : Bool :=
  s.l1_enabled_ && (s.l1_map_ query).isSome

/-- The section of getL1 under the unique lock. -/
def getL1_unique (s : L1) (query : Bytes) : Option Bytes × L1 :=
  match s.l1_map_ query with
  | none => (none, s)
  | some it =>
    let list := splice s.l1_list_ it
    ((deref list it).map LRUNode.value, { s with l1_list_ := list })

def getL1 (s : L1) (query : Bytes) : Option Bytes × L1 :=
  if s.getL1_shared query then s.getL1_unique query else (none, s)

/-- `l1_map_.erase(oldest->key); l1_list_.pop_front()`; undefined on an empty list. -/
def evict (s : L1) : L1 :=
  match s.l1_list_ with
  | [] => s
  | oldest :: rest =>
    { s with l1_list_ := rest, l1_map_ := Function.update s.l1_map_ oldest.2.key none }

/-- `l1_list_.push_back({query, result}); l1_map_[query] = std::prev(l1_list_.end())`. -/
def push_back (s : L1) (query result : Bytes) : L1 :=
  { s with
    l1_list_ := s.l1_list_ ++ [(s.fresh, ⟨query, result⟩)]
    l1_map_ := Function.update s.l1_map_ query (some s.fresh)
    fresh := s.fresh + 1 }

/-- The section of putL1 under the unique lock. -/
def putL1_unique (s : L1) (query result : Bytes) : L1 :=
  match s.l1_map_ query with
  | some it => { s with l1_list_ := splice (assign s.l1_list_ it result) it }
  | none =>
    (if s.l1_max_size_ ≤ s.l1_list_.length then s.evict else s).push_back query result

def putL1 (s : L1) (query result : Bytes) : L1 :=
  if s.l1_enabled_ then s.putL1_unique query result else s

/-- The section of clear under `l1_mutex_`. -/
def clear (s : L1) : L1 :=
  { s with l1_list_ := [], l1_map_ := fun _ => none }

def setL1MaxSize (s : L1) (max_size : ℕ) : L1 :=
  { s with l1_max_size_ := max_size }

def setL1Enabled (s : L1) (enabled : Bool) : L1 :=
  if enabled then { s with l1_enabled_ := true }
  else { s with l1_enabled_ := false, l1_list_ := [], l1_map_ := fun _ => none }

/-- The keys and values of the list, without the identities of its nodes. -/
def contents (s : L1) : List (Bytes × Bytes) :=
  s.l1_list_.map fun node => (node.2.key, node.2.value)

end L1

end FlightProxy
