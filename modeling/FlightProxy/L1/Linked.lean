import FlightProxy.Model.L1
import FlightProxy.Recency.Order

/-! # The list and the map agree

The nodes of `l1_list_` have distinct identities, `l1_map_` maps exactly the keys of the list, each
to the node that carries it. On such a cache the locked sections act on the key-value contents as a
least recently used cache, whatever the identities of the nodes.
-/

namespace FlightProxy.L1

open Recency

structure Linked (s : L1) : Prop where
  iterators : (s.l1_list_.map Prod.fst).Nodup
  allocated : ∀ node ∈ s.l1_list_, node.1 < s.fresh
  entry : ∀ {key it}, s.l1_map_ key = some it ↔ ∃ node, (it, node) ∈ s.l1_list_ ∧ node.key = key

theorem linked_empty (max_size : ℕ) (enabled : Bool) :
    Linked { l1_max_size_ := max_size, l1_enabled_ := enabled } := by
  refine ⟨List.nodup_nil, fun node member => absurd member List.not_mem_nil, ?_⟩
  simp

variable {s : L1} {query key result : Bytes} {it : ℕ}

/-- The iterator of a key selects the node that carries the key. -/
theorem Linked.selects (linked : s.Linked) (mapped : s.l1_map_ key = some it)
    {node : ℕ × LRUNode} (member : node ∈ s.l1_list_) : node.1 = it ↔ node.2.key = key := by
  constructor
  · rintro rfl
    obtain ⟨other, present, same⟩ := linked.entry.mp mapped
    have unique := List.inj_on_of_nodup_map linked.iterators present member rfl
    rw [← unique, same]
  · intro same
    have entry := linked.entry.mpr ⟨node.2, member, same⟩
    exact Option.some.inj (entry.symm.trans mapped)

theorem Linked.keys_nodup (linked : s.Linked) : (s.contents.map Prod.fst).Nodup := by
  rw [contents, List.map_map]
  refine linked.iterators.of_map _ |>.map_on ?_
  intro first member second member' same
  have mapped := linked.entry.mpr ⟨first.2, member, rfl⟩
  have iterator := (linked.selects mapped member').mpr same.symm
  exact List.inj_on_of_nodup_map linked.iterators member member' iterator.symm

/-- What a key is bound to is the value of the node its iterator points to. -/
theorem Linked.lookup_eq (linked : s.Linked) {node : LRUNode} (member : (it, node) ∈ s.l1_list_)
    (carries : node.key = key) : lookup key s.contents = some node.value :=
  lookup_of_mem linked.keys_nodup (List.mem_map.mpr ⟨(it, node), member, by rw [← carries]⟩)

theorem Linked.lookup_none_iff (linked : s.Linked) :
    lookup key s.contents = none ↔ s.l1_map_ key = none := by
  rw [lookup_eq_none_iff, contents, List.map_map, Option.eq_none_iff_forall_ne_some]
  constructor
  · intro absent it mapped
    obtain ⟨node, member, carries⟩ := linked.entry.mp mapped
    exact absent (List.mem_map.mpr ⟨_, member, carries⟩)
  · intro unmapped present
    obtain ⟨node, member, carries⟩ := List.mem_map.mp present
    exact unmapped node.1 (linked.entry.mpr ⟨node.2, member, carries⟩)

/-- The nodes other than the one of the key are those with another key. -/
theorem Linked.filter_ne (linked : s.Linked) (mapped : s.l1_map_ key = some it) :
    s.l1_list_.filter (fun node => node.1 ≠ it) = s.l1_list_.filter (fun node => node.2.key ≠ key) := by
  apply List.filter_congr
  intro node member
  simp only [ne_eq, linked.selects mapped member]

/-- Exactly one node carries the key. -/
theorem Linked.filter_eq (linked : s.Linked) {node : LRUNode} (member : (it, node) ∈ s.l1_list_) :
    s.l1_list_.filter (fun other => other.1 = it) = [(it, node)] := by
  have once : (s.l1_list_.map Prod.fst).filter (fun other => other = it) = [it] := by
    rw [List.filter_eq, List.count_eq_one_of_mem linked.iterators (List.mem_map_of_mem member)]
    rfl
  rw [List.filter_map, List.map_eq_singleton_iff] at once
  obtain ⟨other, selected, -⟩ := once
  have present : (it, node) ∈ s.l1_list_.filter (fun other => other.1 = it) :=
    List.mem_filter.mpr ⟨member, decide_eq_true rfl⟩
  have selected' : s.l1_list_.filter (fun other => other.1 = it) = [other] := selected
  rw [selected'] at present ⊢
  rw [List.mem_singleton.mp present]

/-- The node of a key may move to the end of the list, with a new value. -/
private theorem Linked.moved (linked : s.Linked) (mapped : s.l1_map_ key = some it) (value : Bytes) :
    Linked { s with
      l1_list_ := s.l1_list_.filter (fun node => node.1 ≠ it) ++ [(it, ⟨key, value⟩)] } := by
  obtain ⟨node, member, carries⟩ := linked.entry.mp mapped
  refine ⟨?_, ?_, ?_⟩
  · rw [List.map_append]
    refine (linked.iterators.sublist (List.filter_sublist.map _)).append (List.nodup_singleton _) ?_
    simp
  · intro other present
    rcases List.mem_append.mp present with before | last
    · exact linked.allocated other (List.mem_filter.mp before).1
    · rw [List.mem_singleton.mp last]
      exact linked.allocated (it, node) member
  · intro key' it'
    rw [linked.entry]
    constructor
    · rintro ⟨other, present, same⟩
      by_cases here : it' = it
      · subst here
        have unique := (linked.selects mapped present).mp rfl
        exact ⟨_, List.mem_append_right _ (List.mem_singleton_self _), unique.symm.trans same⟩
      · exact ⟨other, List.mem_append_left _ (List.mem_filter.mpr ⟨present, decide_eq_true here⟩), same⟩
    · rintro ⟨other, present, same⟩
      rcases List.mem_append.mp present with before | last
      · exact ⟨other, (List.mem_filter.mp before).1, same⟩
      · obtain ⟨rfl, rfl⟩ := Prod.mk.inj (List.mem_singleton.mp last)
        exact ⟨node, member, carries.trans same⟩

private theorem contents_moved (linked : s.Linked) (mapped : s.l1_map_ key = some it) (value : Bytes) :
    contents { s with
      l1_list_ := s.l1_list_.filter (fun node => node.1 ≠ it) ++ [(it, ⟨key, value⟩)] } =
        store key value s.contents := by
  rw [linked.filter_ne mapped]
  simp only [contents, store, forget, List.map_append, List.filter_map, List.map_cons, List.map_nil,
    Function.comp_def]

theorem Linked.splice_eq (linked : s.Linked) {node : LRUNode} (member : (it, node) ∈ s.l1_list_) :
    splice s.l1_list_ it = s.l1_list_.filter (fun node => node.1 ≠ it) ++ [(it, node)] := by
  rw [splice, linked.filter_eq member]

/-- Assigning through an iterator and splicing it leaves the other nodes as they were. -/
theorem Linked.splice_assign_eq (linked : s.Linked) {node : LRUNode}
    (member : (it, node) ∈ s.l1_list_) :
    splice (assign s.l1_list_ it result) it =
      s.l1_list_.filter (fun node => node.1 ≠ it) ++ [(it, { node with value := result })] := by
  have kept : ∀ other : ℕ × LRUNode,
      (if other.1 = it then (it, { other.2 with value := result }) else other).1 = other.1 := by
    intro other
    split_ifs with same
    · exact same.symm
    · rfl
  rw [splice, assign, List.filter_map, List.filter_map]
  simp only [Function.comp_def, kept, linked.filter_eq member, List.map_cons, ↓reduceIte, List.map_nil]
  congr 1
  refine (List.map_congr_left ?_).trans (List.map_id _)
  intro other selected
  rw [if_neg (of_decide_eq_true (List.mem_filter.mp selected).2)]
  rfl

/-- The locked section of getL1 returns the binding of the key and makes it the last used. -/
theorem getL1_unique_spec (linked : s.Linked) (query : Bytes) :
    (s.getL1_unique query).1 = lookup query s.contents ∧
      (s.getL1_unique query).2.contents = touch query s.contents ∧
      (s.getL1_unique query).2.Linked := by
  cases mapped : s.l1_map_ query with
  | none =>
    have absent := linked.lookup_none_iff.mpr mapped
    simp only [getL1_unique, mapped, touch, absent, true_and]
    exact linked
  | some it =>
    obtain ⟨node, member, carries⟩ := linked.entry.mp mapped
    have bound := linked.lookup_eq member carries
    have found : deref (splice s.l1_list_ it) it = some node := by
      rw [linked.splice_eq member, deref, List.find?_append, List.find?_eq_none.mpr]
      · simp
      · intro other selected
        simpa using (List.mem_filter.mp selected).2
    have moved : (it, node) = (it, ⟨query, node.value⟩) := by rw [← carries]
    simp only [getL1_unique, mapped, found, Option.map_some, bound, true_and, touch]
    rw [linked.splice_eq member, moved]
    exact ⟨contents_moved linked mapped _, linked.moved mapped _⟩

/-- Erasing the front node and its key keeps the rest linked. -/
theorem Linked.evict (linked : s.Linked) : s.evict.Linked := by
  rw [L1.evict]
  split
  · exact linked
  · next oldest rest list =>
    obtain ⟨iterators, allocated, entry⟩ := linked
    rw [list] at iterators allocated entry
    have nodup := List.nodup_cons.mp iterators
    refine ⟨nodup.2, fun node member => allocated node (List.mem_cons_of_mem _ member), ?_⟩
    intro key it
    simp only [Function.update_apply]
    split_ifs with same
    · refine iff_of_false (by simp) ?_
      rintro ⟨node, member, carries⟩
      have mapped := entry.mpr ⟨oldest.2, List.mem_cons_self, same.symm⟩
      have other := entry.mpr ⟨node, List.mem_cons_of_mem _ member, carries⟩
      have unique := Option.some.inj (mapped.symm.trans other)
      exact nodup.1 (List.mem_map.mpr ⟨(it, node), member, unique.symm⟩)
    · rw [entry]
      constructor
      · rintro ⟨node, member, carries⟩
        rcases List.mem_cons.mp member with rfl | member
        · exact absurd carries.symm same
        · exact ⟨node, member, carries⟩
      · rintro ⟨node, member, carries⟩
        exact ⟨node, List.mem_cons_of_mem _ member, carries⟩

theorem Linked.push_back (linked : s.Linked) (unmapped : s.l1_map_ query = none) (result : Bytes) :
    (s.push_back query result).Linked := by
  refine ⟨?_, ?_, ?_⟩
  · rw [L1.push_back, List.map_append]
    refine linked.iterators.append (List.nodup_singleton _) (List.disjoint_singleton.mpr ?_)
    rintro present
    obtain ⟨node, member, same⟩ := List.mem_map.mp present
    have bound := linked.allocated node member
    omega
  · intro node present
    simp only [L1.push_back, List.mem_append, List.mem_singleton] at present ⊢
    rcases present with before | rfl
    · have bound := linked.allocated node before
      omega
    · omega
  · intro key it
    simp only [L1.push_back, Function.update_apply]
    split_ifs with same
    · subst same
      constructor
      · intro allocated
        obtain rfl := Option.some.inj allocated
        exact ⟨_, List.mem_append_right _ (List.mem_singleton_self _), rfl⟩
      · rintro ⟨node, present, carries⟩
        rcases List.mem_append.mp present with before | last
        · rw [linked.entry.mpr ⟨node, before, carries⟩] at unmapped
          contradiction
        · rw [(Prod.mk.inj (List.mem_singleton.mp last)).1]
    · rw [linked.entry]
      constructor
      · rintro ⟨node, member, carries⟩
        exact ⟨node, List.mem_append_left _ member, carries⟩
      · rintro ⟨node, present, carries⟩
        rcases List.mem_append.mp present with before | last
        · exact ⟨node, before, carries⟩
        · obtain ⟨-, rfl⟩ := Prod.mk.inj (List.mem_singleton.mp last)
          exact absurd carries.symm same

/-- The entries an insertion keeps: an unbound key in a full list first evicts the oldest. -/
def kept (s : L1) (query : Bytes) : List (Bytes × Bytes) :=
  if lookup query s.contents = none ∧ s.l1_max_size_ ≤ s.contents.length then s.contents.tail
  else s.contents

/-- The locked section of putL1 stores the binding, evicting the oldest entry of a full list. -/
theorem putL1_unique_spec (linked : s.Linked) (query result : Bytes) :
    (s.putL1_unique query result).contents = store query result (s.kept query) ∧
      (s.putL1_unique query result).Linked := by
  cases mapped : s.l1_map_ query with
  | some it =>
    obtain ⟨node, member, carries⟩ := linked.entry.mp mapped
    have bound := linked.lookup_eq member carries
    have moved : (it, { node with value := result }) = (it, (⟨query, result⟩ : LRUNode)) := by
      rw [← carries]
    simp only [putL1_unique, mapped, kept, bound, reduceCtorEq, false_and, ↓reduceIte]
    rw [linked.splice_assign_eq member, moved]
    exact ⟨contents_moved linked mapped _, linked.moved mapped _⟩
  | none =>
    have absent := linked.lookup_none_iff.mpr mapped
    have size : s.contents.length = s.l1_list_.length := List.length_map _
    have pushed : ∀ t : L1, t.l1_map_ query = none → t.Linked →
        (t.push_back query result).contents = store query result t.contents := by
      intro t unmapped linked'
      rw [store, forget_of_notMem (lookup_eq_none_iff.mp (linked'.lookup_none_iff.mpr unmapped))]
      simp only [contents, L1.push_back, List.map_append, List.map_cons, List.map_nil]
    simp only [putL1_unique, mapped, kept, absent, size, true_and]
    split_ifs
    · have evicted : s.evict.contents = s.contents.tail ∧ s.evict.l1_map_ query = none := by
        rw [L1.evict]
        split
        · next empty => simp only [contents, empty, List.map_nil, List.tail_nil, mapped, and_self]
        · next oldest rest list =>
          simp only [contents, list, List.map_cons, List.tail_cons, true_and, Function.update_apply]
          split_ifs
          · rfl
          · exact mapped
      rw [pushed _ evicted.2 linked.evict, evicted.1]
      exact ⟨rfl, linked.evict.push_back evicted.2 result⟩
    · exact ⟨pushed s mapped linked, linked.push_back mapped result⟩

theorem Linked.putL1 (linked : s.Linked) (query result : Bytes) : (s.putL1 query result).Linked := by
  rw [L1.putL1]
  split_ifs
  · exact (putL1_unique_spec linked query result).2
  · exact linked

theorem linked_clear : s.clear.Linked :=
  ⟨List.nodup_nil, fun _ member => absurd member List.not_mem_nil, by simp [L1.clear]⟩

/-- After the section of putL1 another key is bound only as before, and its key to its result. -/
theorem Linked.lookup_putL1_unique (linked : s.Linked) {value : Bytes}
    (bound : lookup key (s.putL1_unique query result).contents = some value) :
    key ≠ query ∧ lookup key s.contents = some value ∨ query = key ∧ result = value := by
  rw [(putL1_unique_spec linked query result).1] at bound
  by_cases same : key = query
  · subst same
    rw [lookup_store_self] at bound
    exact .inr ⟨rfl, Option.some.inj bound⟩
  · rw [lookup_store_of_ne same, kept] at bound
    refine .inl ⟨same, ?_⟩
    split_ifs at bound
    · apply lookup_of_mem linked.keys_nodup
      exact List.mem_of_mem_tail (mem_of_lookup bound)
    · exact bound

/-- After putL1 a key is bound as before, or it is the key of the call with its result. -/
theorem Linked.lookup_putL1 (linked : s.Linked) {value : Bytes}
    (bound : lookup key (s.putL1 query result).contents = some value) :
    lookup key s.contents = some value ∨ query = key ∧ result = value := by
  rw [L1.putL1] at bound
  split_ifs at bound
  · exact (linked.lookup_putL1_unique bound).imp_left And.right
  · exact .inl bound

/-- putL1 under the query evicts the entry of the key. -/
def Drops (s : L1) (query key : Bytes) : Prop :=
  s.l1_enabled_ = true ∧ s.l1_map_ query = none ∧ s.l1_max_size_ ≤ s.l1_list_.length ∧
    ∃ oldest rest, s.l1_list_ = oldest :: rest ∧ oldest.2.key = key

/-- A binding that is not evicted is looked up among the entries that are kept. -/
theorem Linked.lookup_kept (linked : s.Linked) (enabled : s.l1_enabled_ = true)
    (spared : ¬ s.Drops query key) : lookup key (s.kept query) = lookup key s.contents := by
  rw [kept]
  split_ifs with full
  · obtain ⟨absent, full⟩ := full
    have unmapped := linked.lookup_none_iff.mp absent
    cases list : s.l1_list_ with
    | nil => simp [contents, list]
    | cons oldest rest =>
      have other : oldest.2.key ≠ key := by
        intro same
        apply spared
        refine ⟨enabled, unmapped, ?_, oldest, rest, list, same⟩
        rwa [contents, List.length_map] at full
      simp [contents, list, lookup, other]
  · rfl

/-- putL1 binds its own key, if L1 is enabled. -/
theorem Linked.lookup_putL1_self (linked : s.Linked) : lookup query (s.putL1 query result).contents =
    if s.l1_enabled_ then some result else lookup query s.contents := by
  rw [L1.putL1]
  split_ifs
  · rw [(putL1_unique_spec linked query result).1, lookup_store_self]
  · rfl

/-- putL1 leaves the bindings of other keys alone that it does not evict. -/
theorem Linked.lookup_putL1_of_ne (linked : s.Linked) (other : key ≠ query)
    (spared : ¬ s.Drops query key) :
    lookup key (s.putL1 query result).contents = lookup key s.contents := by
  rw [L1.putL1]
  split_ifs with enabled
  · rw [(putL1_unique_spec linked query result).1, lookup_store_of_ne other,
      linked.lookup_kept enabled spared]
  · rfl

end FlightProxy.L1
