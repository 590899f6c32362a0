import FlightProxy.Recency.Order

/-! # Lists of different bounds

A list in order of last use whose insertions evict the entry used longest ago once a bound is
reached. Under the same uses, the list with the smaller bound stays a sublist of the other: the two
are equal until the smaller bound is reached, and from then on every insertion that evicts from the
longer list evicts from the shorter one.
-/

namespace Recency

open scoped List

variable {κ α : Type*} [DecidableEq κ]

/-- Bind the key; if it is new and the bound is reached, the oldest entry goes. -/
def put (size : ℕ) (key : κ) (value : α) (entries : List (κ × α)) : List (κ × α) :=
  store key value (if lookup key entries = none ∧ size ≤ entries.length then entries.tail
    else entries)

/-- The list of the smaller bound against that of the larger one. -/
structure Included (size : ℕ) (small large : List (κ × α)) : Prop where
  sublist : small <+ large
  same : small.length < size → small = large
  nodup : (large.map Prod.fst).Nodup

variable {small large : List (κ × α)} {size bound : ℕ} {key : κ} {value : α}

omit [DecidableEq κ] in
theorem included_nil : Included size ([] : List (κ × α)) [] :=
  ⟨.refl _, fun _ => rfl, List.nodup_nil⟩

/-- A key bound in the shorter list is bound to the same value in the longer one. -/
theorem Included.lookup (included : Included size small large)
    (bound : lookup key small = some value) : lookup key large = some value :=
  lookup_of_mem included.nodup (included.sublist.subset (mem_of_lookup bound))

theorem forget_sublist (sublist : small <+ large) : forget key small <+ forget key large :=
  sublist.filter _

theorem store_sublist (sublist : small <+ large) : store key value small <+ store key value large :=
  (forget_sublist sublist).append (.refl _)

/-- Storing a key that is bound keeps the number of entries. -/
theorem length_store_of_mem (nodup : (small.map Prod.fst).Nodup) (bound : lookup key small ≠ none) :
    (store key value small).length = small.length := by
  induction small with
  | nil => exact absurd rfl bound
  | cons entry rest ih =>
    rw [List.map_cons, List.nodup_cons] at nodup
    by_cases here : entry.1 = key
    · have absent : key ∉ rest.map Prod.fst := here ▸ nodup.1
      have gone : forget key (entry :: rest) = rest := by
        rw [forget, List.filter_cons_of_neg (by simp [here]), ← forget, forget_of_notMem absent]
      rw [store, gone, List.length_append, List.length_singleton, List.length_cons]
    · have there : lookup key rest ≠ none := by
        simpa only [lookup, here, ↓reduceIte] using bound
      have kept : forget key (entry :: rest) = entry :: forget key rest :=
        List.filter_cons_of_pos (by simp [here])
      have shorter := ih nodup.2 there
      rw [store, List.length_append, List.length_singleton] at shorter ⊢
      rw [kept, List.length_cons, List.length_cons]
      omega

theorem length_store_of_notMem (absent : lookup key small = none) :
    (store key value small).length = small.length + 1 := by
  rw [store, forget_of_notMem (lookup_eq_none_iff.mp absent), List.length_append]
  rfl

omit [DecidableEq κ] in
theorem Included.nodup_small (included : Included size small large) : (small.map Prod.fst).Nodup :=
  included.nodup.sublist (included.sublist.map _)

/-- A use of a key bound in the longer list only leaves the shorter one as it is. -/
theorem Included.touch (included : Included size small large) (key : κ) :
    Included size (touch key small) (touch key large) := by
  cases bound : Recency.lookup key small with
  | some value =>
    have touched : Recency.touch key small = store key value small := by rw [Recency.touch, bound]
    have touched' : Recency.touch key large = store key value large := by
      rw [Recency.touch, included.lookup bound]
    rw [touched, touched']
    refine ⟨store_sublist included.sublist, fun short => ?_, keys_store_nodup included.nodup⟩
    rw [length_store_of_mem included.nodup_small (by rw [bound]; exact Option.some_ne_none _)] at short
    rw [included.same short]
  | none =>
    have untouched : Recency.touch key small = small := by rw [Recency.touch, bound]
    rw [untouched]
    cases bound' : Recency.lookup key large with
    | none =>
      have untouched' : Recency.touch key large = large := by rw [Recency.touch, bound']
      rwa [untouched']
    | some value =>
      have touched : Recency.touch key large = store key value large := by rw [Recency.touch, bound']
      rw [touched]
      refine ⟨?_, fun short => ?_, keys_store_nodup included.nodup⟩
      · have kept : forget key small = small := forget_of_notMem (lookup_eq_none_iff.mp bound)
        rw [← kept]
        exact (forget_sublist included.sublist).trans (List.sublist_append_left _ _)
      · rw [included.same short, bound'] at bound
        contradiction

theorem put_of_bound (bound : lookup key small ≠ none) :
    put size key value small = store key value small := by
  rw [put, if_neg fun full => bound full.1]

theorem put_of_short (short : small.length < size) :
    put size key value small = store key value small := by
  rw [put, if_neg fun full => Nat.not_le_of_lt short full.2]

theorem put_of_full (absent : lookup key small = none) (full : size ≤ small.length) :
    put size key value small = store key value small.tail := by
  rw [put, if_pos ⟨absent, full⟩]

theorem lookup_tail_none (absent : lookup key small = none) : lookup key small.tail = none := by
  rw [lookup_eq_none_iff] at absent ⊢
  exact fun member => absent (((List.tail_sublist _).map _).subset member)

theorem keys_put_nodup (nodup : (large.map Prod.fst).Nodup) :
    ((put bound key value large).map Prod.fst).Nodup := by
  rw [put]
  split_ifs
  · exact keys_store_nodup (nodup.sublist ((List.tail_sublist _).map _))
  · exact keys_store_nodup nodup

/-- An insertion that evicts keeps the number of entries. -/
theorem length_put_of_full (positive : 1 ≤ size) (absent : lookup key small = none)
    (full : size ≤ small.length) : (put size key value small).length = small.length := by
  rw [put_of_full absent full, length_store_of_notMem (lookup_tail_none absent),
    List.length_tail]
  omega

/-- An insertion evicts from the longer list only if it evicts from the shorter one as well. -/
theorem Included.put (included : Included size small large) (positive : 1 ≤ size)
    (le : size ≤ bound) (key : κ) (value : α) :
    Included size (put size key value small) (put bound key value large) := by
  by_cases absent : Recency.lookup key small = none
  · by_cases short : small.length < size
    · -- nothing has been evicted so far, from either list
      obtain rfl := included.same short
      rw [put_of_short short, put_of_short (Nat.lt_of_lt_of_le short le)]
      exact ⟨.refl _, fun _ => rfl, keys_store_nodup included.nodup⟩
    · have full : size ≤ small.length := Nat.le_of_not_lt short
      refine ⟨?_, fun short' => ?_, keys_put_nodup included.nodup⟩
      · rw [put_of_full absent full, Recency.put]
        split_ifs
        · exact store_sublist included.sublist.tail
        · exact store_sublist ((List.tail_sublist _).trans included.sublist)
      · rw [length_put_of_full positive absent full] at short'
        exact absurd short' short
  · obtain ⟨value', here⟩ := Option.ne_none_iff_exists'.mp absent
    have there : Recency.lookup key large ≠ none := by
      rw [included.lookup here]
      exact Option.some_ne_none _
    rw [put_of_bound absent, put_of_bound there]
    refine ⟨store_sublist included.sublist, fun short => ?_, keys_store_nodup included.nodup⟩
    rw [length_store_of_mem included.nodup_small absent] at short
    rw [included.same short]

end Recency
