import FlightProxy.L1.Roomy
import FlightProxy.Recency.Reference
import FlightProxy.Transition.Path

/-! # The cache is linearizable

Calls of getL1, putL1 and clear, interleaved by their locked sections, answer as the reference cache
does on the history of the calls in order of their effects: a call takes effect in its one section,
and getL1 in its shared section when that misses and in its unique section otherwise.
-/

namespace FlightProxy.L1

open Recency Transition
open scoped List

inductive Op
  | putL1 (query result : Bytes)
  | getL1 (query : Bytes)
  | clear
deriving DecidableEq, Repr

/-- The program point of a call. -/
inductive Point
  | idle
  /-- Before its first section. -/
  | called (op : Op)
  /-- getL1 found the key in its shared section. -/
  | present (query : Bytes)
  /-- Past its last section; only getL1 has an answer to return. -/
  | done (op : Op) (found : Option Bytes)
  | returned (op : Op) (found : Option Bytes)
deriving DecidableEq, Repr

/-- The call and the answer of a point past the last section. -/
def Point.answer : Point → Option (Op × Option Bytes)
  | .idle | .called _ | .present _ => none
  | .done op found | .returned op found => some (op, found)

structure State (Call : Type*) where
  l1 : L1
  point : Call → Point

inductive Event (Call : Type*)
  | invoke (c : Call) (op : Op)
  | putL1 (c : Call)
  | getL1_shared (c : Call)
  | getL1_unique (c : Call)
  | clear (c : Call)
  | leave (c : Call)
deriving DecidableEq, Repr

namespace State

variable {Call : Type*}

/-- An enabled empty cache of the given size, with no call in progress. -/
def init (size : ℕ) : State Call := ⟨{ l1_max_size_ := size }, fun _ => .idle⟩

variable [DecidableEq Call]

def move (s : State Call) (c : Call) (next : Point) : State Call :=
  { s with point := Function.update s.point c next }

def step? (s : State Call) : Event Call → Option (State Call)
  | .invoke c op =>
    match s.point c with
    | .idle => some (s.move c (.called op))
    | _ => none
  | .putL1 c =>
    match s.point c with
    | .called (.putL1 query result) =>
      some ({ s with l1 := s.l1.putL1 query result }.move c (.done (.putL1 query result) none))
    | _ => none
  | .getL1_shared c =>
    match s.point c with
    | .called (.getL1 query) =>
      some (s.move c (if s.l1.getL1_shared query then .present query else .done (.getL1 query) none))
    | _ => none
  | .getL1_unique c =>
    match s.point c with
    | .present query =>
      some ({ s with l1 := (s.l1.getL1_unique query).2 }.move c
        (.done (.getL1 query) (s.l1.getL1_unique query).1))
    | _ => none
  | .clear c =>
    match s.point c with
    | .called .clear => some ({ s with l1 := s.l1.clear }.move c (.done .clear none))
    | _ => none
  | .leave c =>
    match s.point c with
    | .done op found => some (s.move c (.returned op found))
    | _ => none

end State

/-! ## The sections against the reference -/

/-- The cache is what the accesses so far have made of it. -/
structure Follows (size : ℕ) (history : List (Access Bytes Bytes)) (l1 : L1) : Prop where
  legal : Legal size history
  linked : l1.Linked
  enabled : l1.l1_enabled_ = true
  bounded : l1.l1_max_size_ = size
  contents : l1.contents = (order history).rtake size

variable {size : ℕ} {history : List (Access Bytes Bytes)} {l1 : L1} {query result : Bytes}

theorem follows_init : Follows size [] { l1_max_size_ := size } := by
  refine ⟨?_, linked_empty size true, rfl, rfl, (List.rtake_nil size).symm⟩
  intro before key found after same
  simp at same

/-- What the list binds a key to is what a get of it has to answer. -/
theorem Follows.lookup_eq (follows : Follows size history l1) :
    lookup query l1.contents = expected size query history := by
  rw [follows.contents, lookup_rtake_order follows.legal]

theorem Follows.putL1 (follows : Follows size history l1) (positive : 1 ≤ size)
    (query result : Bytes) : Follows size (history ++ [.put query result]) (l1.putL1 query result) := by
  obtain ⟨contents, linked⟩ := putL1_unique_spec follows.linked query result
  rw [L1.putL1, if_pos follows.enabled]
  refine ⟨?_, linked, ?_, ?_, ?_⟩
  · exact legal_append.mpr ⟨follows.legal, by intros; contradiction⟩
  · rw [putL1_unique_l1_enabled_, follows.enabled]
  · rw [putL1_unique_l1_max_size_, follows.bounded]
  · rw [contents, kept, follows.bounded, follows.contents, order_append]
    exact (rtake_store positive keys_order_nodup).symm

theorem Follows.missed (follows : Follows size history l1) (absent : lookup query l1.contents = none) :
    Follows size (history ++ [.get query none]) l1 := by
  refine ⟨?_, follows.linked, follows.enabled, follows.bounded, ?_⟩
  · apply legal_append.mpr
    refine ⟨follows.legal, fun key found same => ?_⟩
    obtain ⟨rfl, rfl⟩ := Access.get.inj same
    rw [← follows.lookup_eq, absent]
  · rw [order_append]
    exact follows.contents

theorem Follows.getL1_unique (follows : Follows size history l1) (positive : 1 ≤ size)
    (query : Bytes) : Follows size (history ++ [.get query (l1.getL1_unique query).1])
      (l1.getL1_unique query).2 := by
  obtain ⟨answer, contents, linked⟩ := getL1_unique_spec follows.linked query
  cases bound : lookup query l1.contents with
  | none =>
    obtain unmapped := follows.linked.lookup_none_iff.mp bound
    have same : l1.getL1_unique query = (none, l1) := by rw [L1.getL1_unique, unmapped]
    rw [same]
    exact follows.missed bound
  | some value =>
    rw [answer, bound]
    refine ⟨?_, linked, ?_, ?_, ?_⟩
    · apply legal_append.mpr
      refine ⟨follows.legal, fun key found same => ?_⟩
      obtain ⟨rfl, rfl⟩ := Access.get.inj same
      rw [← follows.lookup_eq, bound]
    · rw [getL1_unique_l1_enabled_, follows.enabled]
    · rw [getL1_unique_l1_max_size_, follows.bounded]
    · rw [follows.contents] at bound
      rw [contents, follows.contents, order_append]
      exact (rtake_touch positive keys_order_nodup bound).symm

theorem Follows.clear (follows : Follows size history l1) :
    Follows size (history ++ [.clear]) l1.clear := by
  refine ⟨?_, linked_clear, follows.enabled, follows.bounded, ?_⟩
  · exact legal_append.mpr ⟨follows.legal, by intros; contradiction⟩
  · rw [order_append]
    exact (List.rtake_nil size).symm

/-! ## The order of the effects -/

/-- What a call with its answer is to the reference. -/
def access : Op × Option Bytes → Access Bytes Bytes
  | (.putL1 query result, _) => .put query result
  | (.getL1 query, found) => .get query found
  | (.clear, _) => .clear

variable {Call : Type*}

/-- A sequential order of calls, each with its answer, explains the tape and the state it led to. -/
structure Linearizes (size : ℕ) (es : List (Event Call)) (s : State Call)
    (calls : List (Call × Op × Option Bytes)) : Prop where
  once : (calls.map Prod.fst).Nodup
  /-- The calls in the order are those past their last section, with their answers. -/
  answered : ∀ {c done}, (c, done) ∈ calls ↔ (s.point c).answer = some done
  /-- A call that returned before another was invoked comes before it. -/
  real_time : ∀ {c d op}, [.leave c, .invoke d op] <+ es → d ∈ calls.map Prod.fst →
    [c, d] <+ calls.map Prod.fst
  legal : Legal size (calls.map fun call => access call.2)
  /-- The list holds the keys in order of last use, up to its size. -/
  recency : s.l1.contents.map Prod.fst = (uses (calls.map fun call => access call.2)).dedup.rtake size

/-- The order so far, for a step to extend. -/
private structure Explains (size : ℕ) (es : List (Event Call)) (s : State Call)
    (calls : List (Call × Op × Option Bytes)) : Prop where
  once : (calls.map Prod.fst).Nodup
  answered : ∀ {c done}, (c, done) ∈ calls ↔ (s.point c).answer = some done
  real_time : ∀ {c d op}, [.leave c, .invoke d op] <+ es → d ∈ calls.map Prod.fst →
    [c, d] <+ calls.map Prod.fst
  follows : Follows size (calls.map fun call => access call.2) s.l1
  invoked : ∀ {c op}, .invoke c op ∈ es → s.point c ≠ .idle
  left : ∀ {c}, .leave c ∈ es → c ∈ calls.map Prod.fst

variable {es : List (Event Call)} {s s' : State Call} {calls : List (Call × Op × Option Bytes)}
  {c : Call} {e : Event Call}

private theorem explains_init : Explains size [] (State.init size : State Call) [] := by
  refine ⟨List.nodup_nil, ?_, ?_, follows_init, ?_, ?_⟩
  · intro c done
    simp [State.init, Point.answer]
  · intro c d op pair
    simp at pair
  · simp
  · simp

variable [DecidableEq Call]

/-- A step in which no call takes effect. -/
private theorem Explains.keep (explains : Explains size es s calls) {next : Point}
    (answer : next.answer = (s.point c).answer) (started : next ≠ .idle)
    (invoked : ∀ d op, e = .invoke d op → d = c ∧ (s.point c).answer = none)
    (left : ∀ d, e = .leave d → d = c ∧ (s.point c).answer ≠ none) :
    Explains size (es ++ [e]) (s.move c next) calls := by
  refine ⟨explains.once, ?_, ?_, explains.follows, ?_, ?_⟩
  · intro d done
    simp only [explains.answered, State.move, Function.update_apply]
    split_ifs with same
    · rw [same, answer]
    · rfl
  · intro d d' op pair member
    rcases pair_snoc pair with before | ⟨-, rfl⟩
    · exact explains.real_time before member
    · obtain ⟨⟨d'', done⟩, present, rfl⟩ := List.mem_map.mp member
      obtain ⟨rfl, pending⟩ := invoked _ _ rfl
      rw [explains.answered, pending] at present
      contradiction
  · intro d op member
    simp only [State.move, Function.update_apply]
    split_ifs with same
    · exact started
    · rcases List.mem_append.mp member with before | last
      · exact explains.invoked before
      · exact absurd (invoked d op (List.mem_singleton.mp last).symm).1 same
  · intro d member
    rcases List.mem_append.mp member with before | last
    · exact explains.left before
    · obtain ⟨rfl, past⟩ := left d (List.mem_singleton.mp last).symm
      obtain ⟨done, answered⟩ := Option.ne_none_iff_exists'.mp past
      exact List.mem_map_of_mem (explains.answered.mpr answered)

/-- A step in which a call takes effect. -/
private theorem Explains.effect (explains : Explains size es s calls) {l1 : L1} {op : Op}
    {found : Option Bytes} (pending : (s.point c).answer = none)
    (follows : Follows size ((calls.map fun call => access call.2) ++ [access (op, found)]) l1)
    (inside : (∀ d op, e ≠ .invoke d op) ∧ ∀ d, e ≠ .leave d) :
    Explains size (es ++ [e]) ({ s with l1 := l1 }.move c (.done op found))
      (calls ++ [(c, op, found)]) := by
  have fresh : c ∉ calls.map Prod.fst := by
    intro member
    obtain ⟨⟨d, done⟩, present, rfl⟩ := List.mem_map.mp member
    rw [explains.answered, pending] at present
    contradiction
  have before : ∀ {e'}, e' ∈ es ++ [e] → e' ≠ e → e' ∈ es := by
    intro e' member other
    rcases List.mem_append.mp member with present | last
    · exact present
    · exact absurd (List.mem_singleton.mp last) other
  refine ⟨?_, ?_, ?_, ?_, ?_, ?_⟩
  · rw [List.map_append]
    exact explains.once.append (List.nodup_singleton _) (List.disjoint_singleton.mpr fresh)
  · intro d done
    simp only [List.mem_append, List.mem_singleton, State.move, Function.update_apply]
    split_ifs with same
    · subst same
      rw [explains.answered, pending]
      simp [Point.answer, eq_comm]
    · rw [explains.answered]
      simp [same]
  · intro d d' op' pair member
    rw [List.map_append] at member ⊢
    have first : d ∈ calls.map Prod.fst :=
      explains.left (before (pair.subset List.mem_cons_self) (inside.2 d).symm)
    rcases List.mem_append.mp member with present | last
    · rcases pair_snoc pair with old | ⟨-, same⟩
      · exact (explains.real_time old present).trans (List.sublist_append_left _ _)
      · exact absurd same.symm (inside.1 _ _)
    · rw [List.mem_singleton.mp last]
      exact (List.singleton_sublist.mpr first).append (List.Sublist.refl _)
  · rw [List.map_append]
    exact follows
  · intro d op' member
    have present := explains.invoked (before member (inside.1 _ _).symm)
    simp only [State.move, Function.update_apply]
    split_ifs
    · exact nofun
    · exact present
  · intro d member
    rw [List.map_append]
    exact List.mem_append_left _ (explains.left (before member (inside.2 d).symm))

private theorem Explains.step (explains : Explains size es s calls) (positive : 1 ≤ size)
    (taken : s.step? e = some s') : ∃ calls', Explains size (es ++ [e]) s' calls' := by
  cases e with
  | invoke c op =>
    simp only [State.step?] at taken
    split at taken
    · next idle =>
      obtain rfl := Option.some.inj taken
      refine ⟨calls, explains.keep (by rw [idle]; rfl) nofun ?_ nofun⟩
      intro d op' same
      exact ⟨(Event.invoke.inj same).1.symm, by rw [idle]; rfl⟩
    · contradiction
  | putL1 c =>
    simp only [State.step?] at taken
    split at taken
    · next query result called =>
      obtain rfl := Option.some.inj taken
      refine ⟨_, explains.effect (by rw [called]; rfl) ?_ ⟨nofun, nofun⟩⟩
      exact explains.follows.putL1 positive query result
    · contradiction
  | getL1_shared c =>
    simp only [State.step?] at taken
    split at taken
    · next query called =>
      obtain rfl := Option.some.inj taken
      split_ifs with found
      · exact ⟨calls, explains.keep (by rw [called]; rfl) nofun nofun nofun⟩
      · refine ⟨_, explains.effect (by rw [called]; rfl) ?_ ⟨nofun, nofun⟩⟩
        apply explains.follows.missed
        by_contra present
        exact found (explains.follows.linked.getL1_shared_iff.mpr ⟨explains.follows.enabled, present⟩)
    · contradiction
  | getL1_unique c =>
    simp only [State.step?] at taken
    split at taken
    · next query present =>
      obtain rfl := Option.some.inj taken
      refine ⟨_, explains.effect (by rw [present]; rfl) ?_ ⟨nofun, nofun⟩⟩
      exact explains.follows.getL1_unique positive query
    · contradiction
  | clear c =>
    simp only [State.step?] at taken
    split at taken
    · next called =>
      obtain rfl := Option.some.inj taken
      refine ⟨_, explains.effect (by rw [called]; rfl) ?_ ⟨nofun, nofun⟩⟩
      exact explains.follows.clear
    · contradiction
  | leave c =>
    simp only [State.step?] at taken
    split at taken
    · next op found done =>
      obtain rfl := Option.some.inj taken
      refine ⟨calls, explains.keep (by rw [done]; rfl) nofun nofun ?_⟩
      intro d same
      exact ⟨(Event.leave.inj same).symm, by rw [done]; exact nofun⟩
    · contradiction

/-- In every run the calls answer as the reference does in an order that keeps to real time. -/
theorem linearizable (positive : 1 ≤ size)
    (path : Path State.step? always (State.init size) es s) : ∃ calls, Linearizes size es s calls := by
  obtain ⟨calls, explains⟩ := path.records (I := fun es s => ∃ calls, Explains size es s calls)
    ⟨[], explains_init⟩ (fun es s e s' ⟨calls, explains⟩ _ taken => explains.step positive taken)
  refine ⟨calls, explains.once, explains.answered, explains.real_time, explains.follows.legal, ?_⟩
  rw [explains.follows.contents, ← keys_order explains.follows.legal, List.rtake, List.rtake,
    List.map_drop, List.length_map]

/-- With room for one key, a put between the two sections of a get evicts the key that the get found
in the first. -/
def crossing : List (Event ℕ) :=
  [.invoke 0 (.putL1 [1] [8]), .putL1 0, .invoke 1 (.getL1 [1]), .getL1_shared 1,
    .invoke 2 (.putL1 [2] [9]), .putL1 2, .getL1_unique 1, .leave 1]

/-- The get finds nothing, which is right after both puts. -/
theorem linearizable_run : ∃ s calls, Path State.step? always (State.init 1) crossing s ∧
    Linearizes 1 crossing s calls ∧ (1, .getL1 [1], none) ∈ calls := by
  have run : ∃ s : State ℕ, Path State.step? always (State.init 1) crossing s ∧
      (s.point 1).answer = some (.getL1 [1], none) := by
    refine ⟨_, replay_eq_some_iff.mp rfl, ?_⟩
    decide +kernel
  obtain ⟨s, path, answer⟩ := run
  obtain ⟨calls, linearizes⟩ := linearizable (Nat.le_refl 1) path
  exact ⟨s, calls, path, linearizes, linearizes.answered.mpr answer⟩

end FlightProxy.L1
