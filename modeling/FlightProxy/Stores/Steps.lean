import FlightProxy.L1.Roomy
import FlightProxy.Model.Stores

/-! # What each step of the two stores can do

One inversion per step, guards included, and from these what a step does to the point of a call and
to the bindings of the two stores.
-/

namespace FlightProxy.Stores

open Recency
open QueryCache (hash_query)

variable {Call : Type*}

/-- The call that takes the step. -/
def Event.call : Event Call → Call
  | .getL1_shared c _ | .getL1_unique c | .getL2 c | .promote c => c
  | .putL1 c _ _ | .putL2 c => c
  | .clear c | .flushdb c | .reset c => c

namespace State

/-- What L1 binds the key to. -/
def binds (s : State Call) (key : Bytes) : Option Bytes := lookup key s.store.l1.contents

/-- What Redis holds under the key. -/
def holds (s : State Call) (key : Bytes) : Option Bytes := s.store.redis (redis_key key)

theorem redis_key_inj {first second : Bytes} : redis_key first = redis_key second ↔ first = second :=
  List.append_right_inj _

variable {md5 : Bytes → Bytes} [DecidableEq Call] {s s' : State Call} {c d : Call} {e : Event Call}
  {query result value key : Bytes}

@[simp] theorem move_store (store : Store) (c : Call) (next : Point) :
    (s.move store c next).store = store := rfl

theorem move_self (store : Store) (c : Call) (next : Point) :
    (s.move store c next).point c = next := Function.update_self ..

theorem move_of_ne (store : Store) (next : Point) (other : d ≠ c) :
    (s.move store c next).point d = s.point d := Function.update_of_ne other ..

theorem getL1_shared_cases (taken : s.getL1_shared md5 c query = some s') :
    s.point c = .idle ∧ ∃ stats_,
      s' = s.move { s.store with stats_ := stats_ } c (.present query) ∨
        s' = s.move { s.store with stats_ := stats_ } c (.missed query) := by
  unfold getL1_shared at taken
  split at taken
  · next idle =>
    split_ifs at taken
    · exact ⟨idle, s.store.stats_, .inl (Option.some.inj taken).symm⟩
    · exact ⟨idle, _, .inr (Option.some.inj taken).symm⟩
  · contradiction

theorem getL1_unique_cases (taken : s.getL1_unique md5 c = some s') :
    ∃ query stats_, s.point c = .present query ∧
      ((∃ value, (s.store.l1.getL1_unique (hash_query md5 query)).1 = some value ∧
          s' = s.move { s.store with
            l1 := (s.store.l1.getL1_unique (hash_query md5 query)).2
            stats_ := stats_ } c (.got query (some value))) ∨
        s' = s.move { s.store with
          l1 := (s.store.l1.getL1_unique (hash_query md5 query)).2
          stats_ := stats_ } c (.missed query)) := by
  unfold getL1_unique at taken
  split at taken
  · next query present =>
    split at taken
    · next value l1 found =>
      refine ⟨query, (s.store.updateStats true false).stats_, present, .inl ⟨value, ?_, ?_⟩⟩
      · rw [found]
      · rw [found]
        exact (Option.some.inj taken).symm
    · next l1 gone =>
      refine ⟨query, (s.store.updateStats false false).stats_, present, .inr ?_⟩
      rw [gone]
      exact (Option.some.inj taken).symm
  · contradiction

theorem getL2_cases (taken : s.getL2 md5 c = some s') :
    ∃ query stats_, s.point c = .missed query ∧
      ((∃ value, s.store.redis_enabled_ = true ∧ s.holds (hash_query md5 query) = some value ∧
          s' = s.move { s.store with stats_ := stats_ } c (.fetched query value)) ∨
        s' = s.move { s.store with stats_ := stats_ } c (.got query none)) := by
  unfold getL2 at taken
  split at taken
  · next query missed =>
    split at taken
    · next value found =>
      rw [Store.getL2, Bool.and_true] at found
      split_ifs at found with enabled
      exact ⟨query, s.store.stats_, missed, .inl ⟨value, enabled, found, (Option.some.inj taken).symm⟩⟩
    · obtain rfl := Option.some.inj taken
      split_ifs
      · exact ⟨query, _, missed, .inr rfl⟩
      · exact ⟨query, s.store.stats_, missed, .inr rfl⟩
  · contradiction

theorem promote_cases (taken : s.promote md5 c = some s') :
    ∃ query value stats_, s.point c = .fetched query value ∧
      s' = s.move { s.store with
        l1 := s.store.l1.putL1 (hash_query md5 query) value
        stats_ := stats_ } c (.got query (some value)) := by
  unfold promote at taken
  split at taken
  · next query value fetched => exact ⟨query, value, _, fetched, (Option.some.inj taken).symm⟩
  · contradiction

theorem putL1_cases (taken : s.putL1 md5 c query result = some s') :
    s.point c = .idle ∧ s' = s.move { s.store with
      l1 := s.store.l1.putL1 (hash_query md5 query) result } c (.pushing query result) := by
  unfold putL1 at taken
  split at taken
  · next idle => exact ⟨idle, (Option.some.inj taken).symm⟩
  · contradiction

theorem putL2_cases (taken : s.putL2 md5 c = some s') :
    ∃ query result, s.point c = .pushing query result ∧
      s' = s.move (s.store.putL2 true (hash_query md5 query) result) c (.stored query result) := by
  unfold putL2 at taken
  split at taken
  · next query result pushing => exact ⟨query, result, pushing, (Option.some.inj taken).symm⟩
  · contradiction

theorem clear_cases (taken : s.clear c = some s') :
    s.point c = .idle ∧ s' = s.move { s.store with l1 := s.store.l1.clear } c .flushing := by
  unfold clear at taken
  split at taken
  · next idle => exact ⟨idle, (Option.some.inj taken).symm⟩
  · contradiction

theorem flushdb_cases (taken : s.flushdb c = some s') :
    s.point c = .flushing ∧ s' = s.move s.store.flushdb c .resetting := by
  unfold flushdb at taken
  split at taken
  · next flushing => exact ⟨flushing, (Option.some.inj taken).symm⟩
  · contradiction

theorem reset_cases (taken : s.reset c = some s') :
    s.point c = .resetting ∧ s' = s.move { s.store with stats_ := {} } c .cleared := by
  unfold reset at taken
  split at taken
  · next resetting => exact ⟨resetting, (Option.some.inj taken).symm⟩
  · contradiction

/-! ## The point of a call -/

/-- Where a step takes its call, and from where. -/
inductive Turn (md5 : Bytes → Bytes) (s : State Call) : Event Call → Point → Prop
  | present {c : Call} {query : Bytes} : s.point c = .idle →
      Turn md5 s (.getL1_shared c query) (.present query)
  | missed {c : Call} {query : Bytes} : s.point c = .idle →
      Turn md5 s (.getL1_shared c query) (.missed query)
  | hit {c : Call} {query value : Bytes} : s.point c = .present query →
      s.binds (hash_query md5 query) = some value →
      Turn md5 s (.getL1_unique c) (.got query (some value))
  | lost {c : Call} {query : Bytes} : s.point c = .present query →
      Turn md5 s (.getL1_unique c) (.missed query)
  | fetched {c : Call} {query value : Bytes} : s.point c = .missed query →
      s.store.redis_enabled_ = true → s.holds (hash_query md5 query) = some value →
      Turn md5 s (.getL2 c) (.fetched query value)
  | absent {c : Call} {query : Bytes} : s.point c = .missed query →
      Turn md5 s (.getL2 c) (.got query none)
  | promoted {c : Call} {query value : Bytes} : s.point c = .fetched query value →
      Turn md5 s (.promote c) (.got query (some value))
  | pushing {c : Call} {query result : Bytes} : s.point c = .idle →
      Turn md5 s (.putL1 c query result) (.pushing query result)
  | stored {c : Call} {query result : Bytes} : s.point c = .pushing query result →
      Turn md5 s (.putL2 c) (.stored query result)
  | flushing {c : Call} : s.point c = .idle → Turn md5 s (.clear c) .flushing
  | resetting {c : Call} : s.point c = .flushing → Turn md5 s (.flushdb c) .resetting
  | cleared {c : Call} : s.point c = .resetting → Turn md5 s (.reset c) .cleared

/-- A step writes the stores, moves its call and leaves the others where they are. -/
theorem turn_of_step (linked : s.store.l1.Linked) (taken : s.step? md5 e = some s') :
    ∃ next, Turn md5 s e next ∧ s' = s.move s'.store e.call next := by
  cases e with
  | getL1_shared c query =>
    obtain ⟨idle, stats_, rfl | rfl⟩ := getL1_shared_cases taken
    · exact ⟨_, .present idle, rfl⟩
    · exact ⟨_, .missed idle, rfl⟩
  | getL1_unique c =>
    obtain ⟨query, stats_, present, ⟨value, found, rfl⟩ | rfl⟩ := getL1_unique_cases taken
    · exact ⟨_, .hit present ((L1.getL1_unique_spec linked _).1.symm.trans found), rfl⟩
    · exact ⟨_, .lost present, rfl⟩
  | getL2 c =>
    obtain ⟨query, stats_, missed, ⟨value, enabled, found, rfl⟩ | rfl⟩ := getL2_cases taken
    · exact ⟨_, .fetched missed enabled found, rfl⟩
    · exact ⟨_, .absent missed, rfl⟩
  | promote c =>
    obtain ⟨query, value, stats_, fetched, rfl⟩ := promote_cases taken
    exact ⟨_, .promoted fetched, rfl⟩
  | putL1 c query result =>
    obtain ⟨idle, rfl⟩ := putL1_cases taken
    exact ⟨_, .pushing idle, rfl⟩
  | putL2 c =>
    obtain ⟨query, result, pushing, rfl⟩ := putL2_cases taken
    exact ⟨_, .stored pushing, rfl⟩
  | clear c =>
    obtain ⟨idle, rfl⟩ := clear_cases taken
    exact ⟨_, .flushing idle, rfl⟩
  | flushdb c =>
    obtain ⟨flushing, rfl⟩ := flushdb_cases taken
    exact ⟨_, .resetting flushing, rfl⟩
  | reset c =>
    obtain ⟨resetting, rfl⟩ := reset_cases taken
    exact ⟨_, .cleared resetting, rfl⟩

theorem point_of_step (linked : s.store.l1.Linked) (taken : s.step? md5 e = some s') (d : Call) :
    s'.point d = s.point d ∨ d = e.call ∧ Turn md5 s e (s'.point d) := by
  obtain ⟨next, turn, moved⟩ := turn_of_step linked taken
  by_cases same : d = e.call
  · subst same
    rw [moved, move_self]
    exact .inr ⟨rfl, turn⟩
  · rw [moved, move_of_ne _ _ same]
    exact .inl rfl

theorem pushing_of_step (linked : s.store.l1.Linked) (taken : s.step? md5 e = some s')
    (pushing : s.point c = .pushing query result) :
    s'.point c = .pushing query result ∨ e = .putL2 c := by
  rcases point_of_step linked taken c with same | ⟨rfl, turn⟩
  · exact .inl (same.trans pushing)
  · generalize s'.point e.call = next at turn
    cases turn with
    | stored => exact .inr rfl
    | present here | missed here | hit here | lost here | fetched here | absent here
    | promoted here | pushing here | flushing here | resetting here | cleared here =>
      exact absurd (here.symm.trans pushing) nofun

theorem stored_of_step (linked : s.store.l1.Linked) (taken : s.step? md5 e = some s')
    (stored : s.point c = .stored query result) : s'.point c = .stored query result := by
  rcases point_of_step linked taken c with same | ⟨rfl, turn⟩
  · exact same.trans stored
  · generalize s'.point e.call = next at turn
    cases turn with
    | present here | missed here | hit here | lost here | fetched here | absent here
    | promoted here | pushing here | stored here | flushing here | resetting here | cleared here =>
      exact absurd (here.symm.trans stored) nofun

/-! ## The bindings of the stores -/

theorem linked_of_step (linked : s.store.l1.Linked) (taken : s.step? md5 e = some s') :
    s'.store.l1.Linked := by
  cases e with
  | getL1_shared c query =>
    obtain ⟨-, stats_, rfl | rfl⟩ := getL1_shared_cases taken
    · exact linked
    · exact linked
  | getL1_unique c =>
    obtain ⟨query, stats_, -, ⟨value, -, rfl⟩ | rfl⟩ := getL1_unique_cases taken
    · exact (L1.getL1_unique_spec linked _).2.2
    · exact (L1.getL1_unique_spec linked _).2.2
  | getL2 c =>
    obtain ⟨query, stats_, -, ⟨value, -, -, rfl⟩ | rfl⟩ := getL2_cases taken
    · exact linked
    · exact linked
  | promote c =>
    obtain ⟨query, value, stats_, -, rfl⟩ := promote_cases taken
    exact linked.putL1 _ _
  | putL1 c query result =>
    obtain ⟨-, rfl⟩ := putL1_cases taken
    exact linked.putL1 _ _
  | putL2 c =>
    obtain ⟨query, result, -, rfl⟩ := putL2_cases taken
    rw [move_store, Store.putL2]
    split_ifs
    · exact linked
    · exact linked
  | clear c =>
    obtain ⟨-, rfl⟩ := clear_cases taken
    exact L1.linked_clear
  | flushdb c =>
    obtain ⟨-, rfl⟩ := flushdb_cases taken
    rw [move_store, Store.flushdb]
    split_ifs
    · exact linked
    · exact linked
  | reset c =>
    obtain ⟨-, rfl⟩ := reset_cases taken
    exact linked

/-- A binding of L1 after a step was there before, or putL1 has made it, in put or in get. -/
theorem binds_of_step (linked : s.store.l1.Linked) (taken : s.step? md5 e = some s')
    (bound : s'.binds key = some value) :
    (s.binds key = some value ∧ ∀ c, e ≠ .clear c) ∨
      (∃ c query, e = .putL1 c query value ∧ hash_query md5 query = key) ∨
        ∃ c query, e = .promote c ∧ s.point c = .fetched query value ∧ hash_query md5 query = key := by
  cases e with
  | getL1_shared c query =>
    obtain ⟨-, stats_, rfl | rfl⟩ := getL1_shared_cases taken
    · exact .inl ⟨bound, by simp⟩
    · exact .inl ⟨bound, by simp⟩
  | getL1_unique c =>
    obtain ⟨query, stats_, -, rest⟩ := getL1_unique_cases taken
    have kept : s'.binds key = s.binds key := by
      have touched := (L1.getL1_unique_spec linked (hash_query md5 query)).2.1
      rcases rest with ⟨value, -, rfl⟩ | rfl
      · rw [binds, move_store, touched, lookup_touch, binds]
      · rw [binds, move_store, touched, lookup_touch, binds]
    exact .inl ⟨kept ▸ bound, by simp⟩
  | getL2 c =>
    obtain ⟨query, stats_, -, ⟨value, -, -, rfl⟩ | rfl⟩ := getL2_cases taken
    · exact .inl ⟨bound, by simp⟩
    · exact .inl ⟨bound, by simp⟩
  | promote c =>
    obtain ⟨query, result, stats_, fetched, rfl⟩ := promote_cases taken
    rcases linked.lookup_putL1 bound with before | ⟨rfl, rfl⟩
    · exact .inl ⟨before, by simp⟩
    · exact .inr (.inr ⟨c, query, rfl, fetched, rfl⟩)
  | putL1 c query result =>
    obtain ⟨-, rfl⟩ := putL1_cases taken
    rcases linked.lookup_putL1 bound with before | ⟨rfl, rfl⟩
    · exact .inl ⟨before, by simp⟩
    · exact .inr (.inl ⟨c, query, rfl, rfl⟩)
  | putL2 c =>
    obtain ⟨query, result, -, rfl⟩ := putL2_cases taken
    rw [binds, move_store, Store.putL2] at bound
    split_ifs at bound
    · exact .inl ⟨bound, by simp⟩
    · exact .inl ⟨bound, by simp⟩
  | clear c =>
    obtain ⟨-, rfl⟩ := clear_cases taken
    contradiction
  | flushdb c =>
    obtain ⟨-, rfl⟩ := flushdb_cases taken
    rw [binds, move_store, Store.flushdb] at bound
    split_ifs at bound
    · exact .inl ⟨bound, by simp⟩
    · exact .inl ⟨bound, by simp⟩
  | reset c =>
    obtain ⟨-, rfl⟩ := reset_cases taken
    exact .inl ⟨bound, by simp⟩

/-- Only put and clear write Redis. -/
theorem holds_of_step (taken : s.step? md5 e = some s') :
    (∃ c query result, e = .putL2 c ∧ s.point c = .pushing query result ∧ ∀ key, s'.holds key =
        if s.store.redis_enabled_ = true ∧ key = hash_query md5 query then some result
        else s.holds key) ∨
      (∃ c, e = .flushdb c ∧
        ∀ key, s'.holds key = if s.store.redis_enabled_ = true then none else s.holds key) ∨
      ((∀ c, e ≠ .putL2 c) ∧ (∀ c, e ≠ .flushdb c) ∧ s'.holds = s.holds) := by
  cases e with
  | getL1_shared c query =>
    obtain ⟨-, stats_, rfl | rfl⟩ := getL1_shared_cases taken
    · exact .inr (.inr ⟨nofun, nofun, rfl⟩)
    · exact .inr (.inr ⟨nofun, nofun, rfl⟩)
  | getL1_unique c =>
    obtain ⟨query, stats_, -, ⟨value, -, rfl⟩ | rfl⟩ := getL1_unique_cases taken
    · exact .inr (.inr ⟨nofun, nofun, rfl⟩)
    · exact .inr (.inr ⟨nofun, nofun, rfl⟩)
  | getL2 c =>
    obtain ⟨query, stats_, -, ⟨value, -, -, rfl⟩ | rfl⟩ := getL2_cases taken
    · exact .inr (.inr ⟨nofun, nofun, rfl⟩)
    · exact .inr (.inr ⟨nofun, nofun, rfl⟩)
  | promote c =>
    obtain ⟨query, value, stats_, -, rfl⟩ := promote_cases taken
    exact .inr (.inr ⟨nofun, nofun, rfl⟩)
  | putL1 c query result =>
    obtain ⟨-, rfl⟩ := putL1_cases taken
    exact .inr (.inr ⟨nofun, nofun, rfl⟩)
  | putL2 c =>
    obtain ⟨query, result, pushing, rfl⟩ := putL2_cases taken
    refine .inl ⟨c, query, result, rfl, pushing, fun key => ?_⟩
    rw [holds, holds, move_store, Store.putL2, Bool.and_true]
    by_cases enabled : s.store.redis_enabled_ = true
    · simp only [enabled, ↓reduceIte, true_and, Function.update_apply, redis_key_inj]
    · rw [if_neg enabled, if_neg fun both => enabled both.1]
  | clear c =>
    obtain ⟨-, rfl⟩ := clear_cases taken
    exact .inr (.inr ⟨nofun, nofun, rfl⟩)
  | flushdb c =>
    obtain ⟨-, rfl⟩ := flushdb_cases taken
    refine .inr (.inl ⟨c, rfl, fun key => ?_⟩)
    rw [holds, holds, move_store, Store.flushdb]
    split_ifs
    · rfl
    · rfl
  | reset c =>
    obtain ⟨-, rfl⟩ := reset_cases taken
    exact .inr (.inr ⟨nofun, nofun, rfl⟩)

theorem redis_enabled_of_step (taken : s.step? md5 e = some s') :
    s'.store.redis_enabled_ = s.store.redis_enabled_ := by
  cases e with
  | getL1_shared c query =>
    obtain ⟨-, stats_, rfl | rfl⟩ := getL1_shared_cases taken
    · rfl
    · rfl
  | getL1_unique c =>
    obtain ⟨query, stats_, -, ⟨value, -, rfl⟩ | rfl⟩ := getL1_unique_cases taken
    · rfl
    · rfl
  | getL2 c =>
    obtain ⟨query, stats_, -, ⟨value, -, -, rfl⟩ | rfl⟩ := getL2_cases taken
    · rfl
    · rfl
  | promote c =>
    obtain ⟨query, value, stats_, -, rfl⟩ := promote_cases taken
    rfl
  | putL1 c query result =>
    obtain ⟨-, rfl⟩ := putL1_cases taken
    rfl
  | putL2 c =>
    obtain ⟨query, result, -, rfl⟩ := putL2_cases taken
    rw [move_store, Store.putL2]
    split_ifs
    · rfl
    · rfl
  | clear c =>
    obtain ⟨-, rfl⟩ := clear_cases taken
    rfl
  | flushdb c =>
    obtain ⟨-, rfl⟩ := flushdb_cases taken
    rw [move_store, Store.flushdb]
    split_ifs
    · rfl
    · rfl
  | reset c =>
    obtain ⟨-, rfl⟩ := reset_cases taken
    rfl

end State

end FlightProxy.Stores
