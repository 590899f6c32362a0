import FlightProxy.L1.Roomy
import FlightProxy.QueryCache.Calls

/-! # What an L1 that evicts nothing holds

With L2 disabled and no put that evicts, L1 binds every key to the result of the latest put under it.
So a call that begins once the key is bound finds it in both sections of getL1.
-/

namespace FlightProxy.QueryCache

open Recency

variable {Call : Type*}

/-- The put of an event under the key: its call, its query and its result. -/
def Event.puts (md5 : Bytes → Bytes) (key : Bytes) : Event Call → Option (Call × Bytes × Bytes)
  | .putL1 n query result => if hash_query md5 query = key then some (n, query, result) else none
  | _ => none

/-- The latest put under the key. -/
def latest (md5 : Bytes → Bytes) (key : Bytes) (es : List (Event Call)) :
    Option (Call × Bytes × Bytes) :=
  es.reverse.findSome? (Event.puts md5 key)

theorem latest_append (md5 : Bytes → Bytes) (key : Bytes) (es : List (Event Call)) (e : Event Call) :
    latest md5 key (es ++ [e]) = (e.puts md5 key).or (latest md5 key es) := by
  rw [latest, List.reverse_append]
  cases put : e.puts md5 key <;> simp [put, latest]

theorem mem_of_latest {md5 : Bytes → Bytes} {key query value : Bytes} {n : Call}
    {es : List (Event Call)} (last : latest md5 key es = some (n, query, value)) :
    .putL1 n query value ∈ es ∧ hash_query md5 query = key := by
  obtain ⟨e, member, put⟩ := List.exists_of_findSome?_eq_some last
  cases e with
  | putL1 n' query' value' =>
    simp only [Event.puts] at put
    split_ifs at put with same
    obtain ⟨rfl, rfl, rfl⟩ : n' = n ∧ query' = query ∧ value' = value := by simpa using put
    exact ⟨List.mem_reverse.mp member, same⟩
  | _ => contradiction

namespace State

/-- A put of a new key finds L1 full. -/
def Evicts (md5 : Bytes → Bytes) (s : State Call) : Event Call → Prop
  | .putL1 _ query _ => s.store.l1.l1_map_ (hash_query md5 query) = none ∧
      s.store.l1.l1_max_size_ ≤ s.store.l1.l1_list_.length
  | _ => False

/-- L1 binds every key to the result of the latest put, and L2 is not used. -/
structure Keeps (md5 : Bytes → Bytes) (es : List (Event Call)) (s : State Call) : Prop where
  linked : s.store.l1.Linked
  enabled : s.store.l1.l1_enabled_ = true
  disabled : s.store.redis_enabled_ = false
  unfetched : ∀ {c query value}, s.doing c ≠ .fetched query value
  bound : ∀ {key}, lookup key s.store.l1.contents = (latest md5 key es).map fun put => put.2.2

variable {md5 : Bytes → Bytes} {es : List (Event Call)} {s s' : State Call} {e : Event Call}

theorem keeps_init (l1_max_size_ : ℕ) (redis : Bytes → Option Bytes) :
    (init { l1 := { l1_max_size_ }, redis } : State Call).Keeps md5 [] :=
  ⟨L1.linked_empty l1_max_size_ true, rfl, rfl, nofun, rfl⟩

/-- A step that puts nothing in L1 keeps its bindings. -/
private theorem Keeps.aside (keeps : s.Keeps md5 es) (linked : s'.store.l1.Linked)
    (enabled : s'.store.l1.l1_enabled_ = s.store.l1.l1_enabled_)
    (disabled : s'.store.redis_enabled_ = s.store.redis_enabled_)
    (same : ∀ key, lookup key s'.store.l1.contents = lookup key s.store.l1.contents)
    (unfetched : ∀ {c query value}, s'.doing c ≠ .fetched query value)
    (none : ∀ key, e.puts md5 key = none) : s'.Keeps md5 (es ++ [e]) := by
  refine ⟨linked, enabled.trans keeps.enabled, disabled.trans keeps.disabled, unfetched, ?_⟩
  intro key
  rw [same, keeps.bound, latest_append, none, Option.none_or]

variable [DecidableEq Call]

/-- Without L2 nothing is fetched. -/
private theorem Keeps.unfetched_step (keeps : s.Keeps md5 es) (taken : s.step? md5 e = some s')
    {c : Call} {query value : Bytes} : s'.doing c ≠ .fetched query value := by
  intro fetched
  rcases moves_of_step taken c with same | moves
  · exact keeps.unfetched (same.symm.trans fetched)
  · generalize s'.doing c = next at moves fetched
    cases moves with
    | fetched query' value' reached missed found =>
      rw [Store.getL2, keeps.disabled] at found
      contradiction
    | calls_back query' value' outcome hit => cases outcome <;> contradiction
    | present | missed | hit | lost | absent | promoted | flies => contradiction

theorem Keeps.step (keeps : s.Keeps md5 es) (spares : ¬ s.Evicts md5 e)
    (taken : s.step? md5 e = some s') : s'.Keeps md5 (es ++ [e]) := by
  have unfetched : ∀ {c query value}, s'.doing c ≠ .fetched query value :=
    keeps.unfetched_step taken
  cases e with
  | getL1_shared c query =>
    obtain ⟨-, ⟨-, rfl⟩ | ⟨-, rfl⟩⟩ := getL1_shared_cases taken
    · exact keeps.aside keeps.linked rfl rfl (fun _ => rfl) unfetched fun _ => rfl
    · exact keeps.aside keeps.linked rfl rfl (fun _ => rfl) unfetched fun _ => rfl
  | getL1_unique c =>
    obtain ⟨query, -, rest⟩ := getL1_unique_cases taken
    obtain ⟨-, contents, linked⟩ := L1.getL1_unique_spec keeps.linked (hash_query md5 query)
    have same : ∀ key, lookup key (s.store.l1.getL1_unique (hash_query md5 query)).2.contents =
        lookup key s.store.l1.contents := by
      intro key
      rw [contents, lookup_touch]
    rcases rest with ⟨value, -, rfl⟩ | ⟨-, rfl⟩
    · exact keeps.aside linked L1.getL1_unique_l1_enabled_ rfl same unfetched fun _ => rfl
    · exact keeps.aside linked L1.getL1_unique_l1_enabled_ rfl same unfetched fun _ => rfl
  | getL2 c reached =>
    obtain ⟨query, -, ⟨value, -, rfl⟩ | ⟨-, stats_, rfl⟩⟩ := getL2_cases taken
    · exact keeps.aside keeps.linked rfl rfl (fun _ => rfl) unfetched fun _ => rfl
    · exact keeps.aside keeps.linked rfl rfl (fun _ => rfl) unfetched fun _ => rfl
  | promote c =>
    obtain ⟨query, value, fetched, -⟩ := promote_cases taken
    exact absurd fetched keeps.unfetched
  | call_back c outcome =>
    obtain ⟨query, value, -, rfl⟩ := call_back_cases outcome taken
    exact keeps.aside keeps.linked rfl rfl (fun _ => rfl) unfetched fun _ => rfl
  | putL1 n query result =>
    obtain ⟨-, rfl⟩ := putL1_cases taken
    obtain ⟨contents, linked⟩ := L1.putL1_unique_spec keeps.linked (hash_query md5 query) result
    have kept : s.store.l1.kept (hash_query md5 query) = s.store.l1.contents := by
      refine if_neg ?_
      rintro ⟨absent, full⟩
      rw [L1.contents, List.length_map] at full
      exact spares ⟨keeps.linked.lookup_none_iff.mp absent, full⟩
    have put : s.store.l1.putL1 (hash_query md5 query) result =
        s.store.l1.putL1_unique (hash_query md5 query) result := if_pos keeps.enabled
    refine ⟨?_, ?_, keeps.disabled, unfetched, ?_⟩
    · simp only [Store.putL1, put]
      exact linked
    · simp only [Store.putL1, put, L1.putL1_unique_l1_enabled_]
      exact keeps.enabled
    · intro key
      simp only [Store.putL1, put, contents, kept, latest_append, Event.puts]
      split_ifs with same
      · rw [same, lookup_store_self]
        rfl
      · rw [lookup_store_of_ne (Ne.symm same), keeps.bound, Option.none_or]
  | putL2 n reached =>
    obtain ⟨query, result, -, rfl⟩ := putL2_cases taken
    have unused : s.store.putL2 reached (hash_query md5 query) result = s.store := by
      rw [Store.putL2, keeps.disabled]
      rfl
    simp only [unused]
    exact keeps.aside keeps.linked rfl rfl (fun _ => rfl) unfetched fun _ => rfl
  | flight d =>
    obtain ⟨flights, -, ⟨c, query, -, -, rfl⟩ | ⟨n, query, result, -, -, rfl⟩ | ⟨-, -, rfl⟩⟩ :=
      flight_cases taken
    · exact keeps.aside keeps.linked rfl rfl (fun _ => rfl) unfetched fun _ => rfl
    · exact keeps.aside keeps.linked rfl rfl (fun _ => rfl) unfetched fun _ => rfl
    · exact keeps.aside keeps.linked rfl rfl (fun _ => rfl) unfetched fun _ => rfl

end State

end FlightProxy.QueryCache
