import FlightProxy.QueryCache.Steps

/-! # What the counters count

Whole calls one after the other. A get that L1 does not answer calls updateStats before it looks at
L2, which counts a miss in both caches, and once more after L2 has been asked.
-/

namespace FlightProxy

open Transition
open QueryCache (hash_query)

/-- Where a get finds its value. -/
inductive Outcome
  | l1
  | l2 (found : Bool)
  /-- Not in L1, and L2 is not asked. -/
  | neither
deriving DecidableEq, Repr

/-- A call; L2 may change in any way between two calls. -/
inductive StoreCall
  | get (query : Bytes) (reached : Bool)
  | put (query result : Bytes) (reached : Bool)
  | doSingleFlight (query : Bytes) (reached : Bool)
  | l2 (redis_enabled_ : Bool) (redis : Bytes → Option Bytes)

namespace Store

variable (md5 : Bytes → Bytes)

/-- The part of get after a miss in L1. -/
def get_missed (s : Store) (reached : Bool) (key : Bytes) : Option Bytes × Store :=
  if s.redis_enabled_ then
    match s.getL2 reached key with
    | some value => (some value, (s.putL1 key value).updateStats false true)
    | none => (none, s.updateStats false false)
  else (none, s)

/-- `QueryCache::get`. -/
def get (s : Store) (reached : Bool) (query : Bytes) : Option Bytes × Store :=
  match s.l1.getL1 (hash_query md5 query) with
  | (some value, l1) => (some value, { s with l1 := l1 }.updateStats true false)
  | (none, l1) => ({ s with l1 := l1 }.updateStats false false).get_missed reached (hash_query md5 query)

/-- `QueryCache::put`. -/
def put (s : Store) (reached : Bool) (query result : Bytes) : Store :=
  (s.putL1 (hash_query md5 query) result).putL2 reached (hash_query md5 query) result

/-- `QueryCache::doSingleFlight` begins with a get, and touches the stores no more. -/
def call (s : Store) : StoreCall → Store
  | .get query reached | .doSingleFlight query reached => (s.get md5 reached query).2
  | .put query result reached => s.put md5 reached query result
  | .l2 redis_enabled_ redis => { s with redis_enabled_ := redis_enabled_, redis := redis }

/-- Where a get of the query finds its value. -/
def sought (s : Store) (reached : Bool) (query : Bytes) : Outcome :=
  if (s.l1.getL1 (hash_query md5 query)).1.isSome then .l1
  else if s.redis_enabled_ then .l2 (s.getL2 reached (hash_query md5 query)).isSome
  else .neither

/-- Where the get that a call makes finds its value. -/
def outcome (s : Store) : StoreCall → List Outcome
  | .get query reached | .doSingleFlight query reached => [s.sought md5 reached query]
  | .put .. | .l2 .. => []

/-- The store after the calls. -/
def after (s : Store) : List StoreCall → Store
  | [] => s
  | c :: calls => after (s.call md5 c) calls

/-- The outcomes of all gets that the calls make. -/
def outcomes (s : Store) : List StoreCall → List Outcome
  | [] => []
  | c :: calls => s.outcome md5 c ++ outcomes (s.call md5 c) calls

end Store

/-- What updateStats adds for a get with the outcome. -/
def Stats.count (stats : Stats) : Outcome → Stats
  | .l1 => { stats with l1_hits := stats.l1_hits + 1 }
  | .l2 true =>
    { stats with
      l1_misses := stats.l1_misses + 2
      l2_hits := stats.l2_hits + 1
      l2_misses := stats.l2_misses + 1 }
  | .l2 false => { stats with l1_misses := stats.l1_misses + 2, l2_misses := stats.l2_misses + 2 }
  | .neither => { stats with l1_misses := stats.l1_misses + 1, l2_misses := stats.l2_misses + 1 }

/-- Every get is counted once in L1, and every lookup in L2 once there. -/
structure Stats.AddsUp (stats : Stats) (outcomes : List Outcome) : Prop where
  gets : stats.l1_hits + stats.l1_misses = outcomes.length
  l1_hits : stats.l1_hits = outcomes.count .l1
  l2_hits : stats.l2_hits = outcomes.count (.l2 true)
  l2_misses : stats.l2_misses = outcomes.count (.l2 false)

namespace Store

variable {md5 : Bytes → Bytes} {s : Store} {reached : Bool} {query result : Bytes}
  {calls : List StoreCall}

theorem stats_get : (s.get md5 reached query).2.stats_ = s.stats_.count (s.sought md5 reached query) := by
  rw [get, sought]
  cases s.l1.getL1 (hash_query md5 query) with
  | mk value l1 =>
    cases value with
    | some value => rfl
    | none =>
      have enabled : (updateStats { s with l1 := l1 } false false).redis_enabled_ = s.redis_enabled_ := rfl
      have asked : (updateStats { s with l1 := l1 } false false).getL2 reached (hash_query md5 query) =
        s.getL2 reached (hash_query md5 query) := rfl
      simp only [Option.isSome_none, Bool.false_eq_true, ↓reduceIte, get_missed]
      rw [enabled, asked]
      split_ifs
      · cases s.getL2 reached (hash_query md5 query) with
        | some value => rfl
        | none => rfl
      · rfl

theorem stats_put : (s.put md5 reached query result).stats_ = s.stats_ := by
  rw [put, putL2]
  split_ifs <;> rfl

theorem stats_call (c : StoreCall) :
    (s.call md5 c).stats_ = (s.outcome md5 c).foldl Stats.count s.stats_ := by
  cases c with
  | get query reached => exact stats_get
  | doSingleFlight query reached => exact stats_get
  | put query result reached => exact stats_put
  | l2 redis_enabled_ redis => rfl

theorem stats_after (s : Store) (calls : List StoreCall) :
    (s.after md5 calls).stats_ = (s.outcomes md5 calls).foldl Stats.count s.stats_ := by
  induction calls generalizing s with
  | nil => rfl
  | cons c calls ih => rw [after, outcomes, List.foldl_append, ih, stats_call]

end Store

/-- The counters in terms of the numbers of outcomes. -/
theorem Stats.foldl_count (stats : Stats) (outcomes : List Outcome) :
    outcomes.foldl Stats.count stats =
      ⟨stats.l1_hits + outcomes.count .l1,
        stats.l1_misses + outcomes.count .neither + 2 * outcomes.count (.l2 true) +
          2 * outcomes.count (.l2 false),
        stats.l2_hits + outcomes.count (.l2 true),
        stats.l2_misses + outcomes.count .neither + outcomes.count (.l2 true) +
          2 * outcomes.count (.l2 false)⟩ := by
  induction outcomes generalizing stats with
  | nil => rfl
  | cons outcome outcomes ih =>
    rw [List.foldl_cons, ih]
    cases outcome with
    | l1 => simp [Stats.count]; omega
    | l2 found => cases found <;> simp [Stats.count] <;> omega
    | neither => simp [Stats.count]; omega

/-- Every get has one of the outcomes. -/
theorem length_outcomes (outcomes : List Outcome) :
    outcomes.length = outcomes.count .l1 + outcomes.count (.l2 true) + outcomes.count (.l2 false) +
      outcomes.count .neither := by
  induction outcomes with
  | nil => rfl
  | cons outcome outcomes ih =>
    cases outcome with
    | l1 => simp [ih]; omega
    | l2 found => cases found <;> simp [ih] <;> omega
    | neither => simp [ih]; omega

/-- The counters add up exactly when no get leaves the first cache. -/
private theorem adds_up_count_iff (outcomes : List Outcome) :
    (outcomes.foldl Stats.count {}).AddsUp outcomes ↔ ∀ outcome ∈ outcomes, outcome = .l1 := by
  have total := length_outcomes outcomes
  rw [Stats.foldl_count]
  constructor
  · rintro ⟨gets, -, -, l2_misses⟩
    have found : outcomes.count .l1 = outcomes.length := by
      simp only at gets l2_misses
      omega
    intro outcome member
    exact (List.count_eq_length.mp found outcome member).symm
  · intro all
    have found : outcomes.count .l1 = outcomes.length :=
      List.count_eq_length.mpr fun outcome member => (all outcome member).symm
    constructor <;> simp only <;> omega

namespace Store

variable {md5 : Bytes → Bytes} {s : Store} {reached : Bool} {query result : Bytes}

/-- Since the counters were last reset, they add up exactly when every get has found its key in L1;
and what they say of L2 is never more than what they say L1 missed. -/
theorem adds_up_iff (md5 : Bytes → Bytes) (fresh : s.stats_ = {}) (calls : List StoreCall) :
    ((s.after md5 calls).stats_.AddsUp (s.outcomes md5 calls) ↔
        ∀ outcome ∈ s.outcomes md5 calls, outcome = .l1) ∧
      (s.after md5 calls).stats_.l2_hits + (s.after md5 calls).stats_.l2_misses ≤
        (s.after md5 calls).stats_.l1_misses := by
  rw [stats_after, fresh]
  refine ⟨adds_up_count_iff _, ?_⟩
  rw [Stats.foldl_count]
  simp only
  omega

/-- One get on an empty cache without L2. -/
theorem not_adds_up : ¬ ∀ (md5 : Bytes → Bytes) (s : Store) (calls : List StoreCall),
    s.stats_ = {} → (s.after md5 calls).stats_.AddsUp (s.outcomes md5 calls) := by
  intro adds
  have up := (adds id {} [.get [0x71] false] rfl).l2_misses
  revert up
  decide +kernel

/-- A value is put and found in L1. -/
theorem adds_up_iff_run : (({} : Store).after id
    [.put [0x71] [0x5a] false, .get [0x71] false]).stats_.AddsUp [.l1] := by
  have fresh : ({} : Store).stats_ = {} := rfl
  apply (adds_up_iff id fresh [.put [0x71] [0x5a] false, .get [0x71] false]).1.mpr
  decide +kernel

end Store

namespace QueryCache.State

variable {Call : Type*} [DecidableEq Call] {md5 : Bytes → Bytes} {s : State Call} {c : Call}
  {query : Bytes}

/-- The blocks of a get after a miss in L1. -/
private theorem path_of_missed (md5 : Bytes → Bytes) (missed : s.doing c = .missed query)
    (reached : Bool) : ∃ es t, Path (step? md5) always s es t ∧
      t.store = (s.store.get_missed reached (hash_query md5 query)).2 := by
  rw [Store.get_missed]
  cases found : s.store.getL2 reached (hash_query md5 query) with
  | some value =>
    have enabled : s.store.redis_enabled_ = true := by
      by_contra disabled
      simp [Store.getL2, disabled] at found
    have fetched : s.step? md5 (.getL2 c reached) = some (s.move c (.fetched query value)) := by
      simp only [step?, getL2, missed, found]
    have promoted : (s.move c (.fetched query value)).step? md5 (.promote c) =
        some ({ s.move c (.fetched query value) with
          store := (s.store.putL1 (hash_query md5 query) value).updateStats false true }.move c
            (.hit query value)) := by
      simp only [step?, promote, move, Function.update_self]
    refine ⟨_, _, .cons trivial fetched (.cons trivial promoted (.nil _)), ?_⟩
    rw [if_pos enabled]
    rfl
  | none =>
    have absent : s.step? md5 (.getL2 c reached) =
        some ((if s.store.redis_enabled_ then { s with store := s.store.updateStats false false }
          else s).move c (.electing query)) := by
      simp only [step?, getL2, missed, found]
    refine ⟨_, _, .cons trivial absent (.nil _), ?_⟩
    split_ifs <;> rfl

/-- A get as a whole is its blocks one after the other. -/
theorem path_of_get (idle : s.doing c = .idle) (reached : Bool) (query : Bytes) : ∃ es t,
    Path (step? md5) always s es t ∧ t.store = (s.store.get md5 reached query).2 := by
  by_cases present : s.store.l1.getL1_shared (hash_query md5 query) = true
  · have shared : s.step? md5 (.getL1_shared c query) = some (s.move c (.present query)) := by
      simp only [step?, getL1_shared, idle, present, ↓reduceIte]
    have answer : s.store.l1.getL1 (hash_query md5 query) =
        s.store.l1.getL1_unique (hash_query md5 query) := if_pos present
    rw [Store.get, answer]
    cases found : s.store.l1.getL1_unique (hash_query md5 query) with
    | mk value l1 =>
      cases value with
      | some value =>
        have hit : (s.move c (.present query)).step? md5 (.getL1_unique c) =
            some ({ s.move c (.present query) with
              store := { s.store with l1 := l1 }.updateStats true false }.move c
                (.hit query value)) := by
          simp only [step?, getL1_unique, move, Function.update_self, found]
        exact ⟨_, _, .cons trivial shared (.cons trivial hit (.nil _)), rfl⟩
      | none =>
        have lost : (s.move c (.present query)).step? md5 (.getL1_unique c) =
            some ({ s.move c (.present query) with
              store := { s.store with l1 := l1 }.updateStats false false }.move c
                (.missed query)) := by
          simp only [step?, getL1_unique, move, Function.update_self, found]
        have after : (({ s.move c (.present query) with
            store := { s.store with l1 := l1 }.updateStats false false } : State Call).move c
              (.missed query)).doing c = .missed query := Function.update_self ..
        obtain ⟨es, t, rest, same⟩ := path_of_missed md5 after reached
        exact ⟨_, t, .cons trivial shared (.cons trivial lost rest), same⟩
  · have answer : s.store.l1.getL1 (hash_query md5 query) = (none, s.store.l1) := if_neg present
    have missed : s.step? md5 (.getL1_shared c query) =
        some ({ s with store := s.store.updateStats false false }.move c (.missed query)) := by
      simp only [step?, getL1_shared, idle, ↓reduceIte, present, Bool.false_eq_true]
    have after : (({ s with store := s.store.updateStats false false } : State Call).move c
        (.missed query)).doing c = .missed query := Function.update_self ..
    obtain ⟨es, t, rest, same⟩ := path_of_missed md5 after reached
    rw [Store.get, answer]
    exact ⟨_, t, .cons trivial missed rest, same⟩

end QueryCache.State

end FlightProxy
