import FlightProxy.L1.Linked
import Mathlib.Data.Finset.Card

/-! # A cache with room for every key in use

When `l1_max_size_` is at least the number of keys ever stored, no insertion evicts, so what has
been bound stays bound.
-/

namespace FlightProxy.L1

open Recency

/-- The cache is enabled and holds only these keys, all of which it has room for. -/
structure Roomy (keys : Finset Bytes) (s : L1) : Prop where
  linked : s.Linked
  enabled : s.l1_enabled_ = true
  within : ∀ {key}, key ∈ s.contents.map Prod.fst → key ∈ keys
  fits : keys.card ≤ s.l1_max_size_

variable {s : L1} {keys : Finset Bytes} {key query result : Bytes}

theorem evict_l1_max_size_ : s.evict.l1_max_size_ = s.l1_max_size_ := by
  rw [evict]
  split <;> rfl

theorem evict_l1_enabled_ : s.evict.l1_enabled_ = s.l1_enabled_ := by
  rw [evict]
  split <;> rfl

@[simp] theorem putL1_unique_l1_max_size_ :
    (s.putL1_unique query result).l1_max_size_ = s.l1_max_size_ := by
  rw [putL1_unique]
  split
  · rfl
  · simp only [push_back]
    split_ifs
    · exact evict_l1_max_size_
    · rfl

@[simp] theorem putL1_unique_l1_enabled_ :
    (s.putL1_unique query result).l1_enabled_ = s.l1_enabled_ := by
  rw [putL1_unique]
  split
  · rfl
  · simp only [push_back]
    split_ifs
    · exact evict_l1_enabled_
    · rfl

@[simp] theorem getL1_unique_l1_max_size_ :
    (s.getL1_unique query).2.l1_max_size_ = s.l1_max_size_ := by
  rw [getL1_unique]
  split <;> rfl

@[simp] theorem getL1_unique_l1_enabled_ :
    (s.getL1_unique query).2.l1_enabled_ = s.l1_enabled_ := by
  rw [getL1_unique]
  split <;> rfl

/-- The shared section finds exactly the bound keys of an enabled cache. -/
theorem Linked.getL1_shared_iff (linked : s.Linked) :
    s.getL1_shared query = true ↔ s.l1_enabled_ = true ∧ lookup query s.contents ≠ none := by
  rw [getL1_shared, Bool.and_eq_true, Option.isSome_iff_ne_none, ne_eq, ne_eq, linked.lookup_none_iff]

/-- No insertion of a known key evicts. -/
theorem Roomy.kept_eq (roomy : s.Roomy keys) (known : query ∈ keys) : s.kept query = s.contents := by
  refine if_neg ?_
  rintro ⟨absent, full⟩
  have nodup : (query :: s.contents.map Prod.fst).Nodup :=
    List.nodup_cons.mpr ⟨lookup_eq_none_iff.mp absent, roomy.linked.keys_nodup⟩
  have within : (query :: s.contents.map Prod.fst).toFinset ⊆ keys := by
    intro key member
    rcases List.mem_cons.mp (List.mem_toFinset.mp member) with rfl | member
    · exact known
    · exact roomy.within member
  have count := Finset.card_le_card within
  rw [List.toFinset_card_of_nodup nodup, List.length_cons, List.length_map] at count
  have fits := roomy.fits
  omega

theorem mem_keys_store {entries : List (Bytes × Bytes)}
    (member : key ∈ (store query result entries).map Prod.fst) :
    key = query ∨ key ∈ entries.map Prod.fst := by
  rw [store, List.map_append, List.mem_append] at member
  rcases member with before | last
  · exact .inr ((List.filter_sublist.map _).subset before)
  · exact .inl (List.mem_singleton.mp last)

theorem Roomy.putL1 (roomy : s.Roomy keys) (known : query ∈ keys) (result : Bytes) :
    (s.putL1 query result).Roomy keys ∧
      (s.putL1 query result).contents = store query result s.contents := by
  obtain ⟨contents, linked⟩ := putL1_unique_spec roomy.linked query result
  rw [roomy.kept_eq known] at contents
  rw [L1.putL1, if_pos roomy.enabled]
  refine ⟨⟨linked, ?_, ?_, ?_⟩, contents⟩
  · rw [putL1_unique_l1_enabled_, roomy.enabled]
  · intro key member
    rw [contents] at member
    rcases mem_keys_store member with rfl | before
    · exact known
    · exact roomy.within before
  · rw [putL1_unique_l1_max_size_]
    exact roomy.fits

theorem Roomy.getL1_unique (roomy : s.Roomy keys) (query : Bytes) :
    (s.getL1_unique query).2.Roomy keys := by
  obtain ⟨-, contents, linked⟩ := getL1_unique_spec roomy.linked query
  refine ⟨linked, ?_, ?_, ?_⟩
  · rw [getL1_unique_l1_enabled_, roomy.enabled]
  · intro key member
    by_contra unknown
    have absent := lookup_eq_none_iff.mpr fun before => unknown (roomy.within before)
    have kept : lookup key (touch query s.contents) = lookup key s.contents := lookup_touch
    rw [← kept, ← contents] at absent
    exact lookup_eq_none_iff.mp absent member
  · rw [getL1_unique_l1_max_size_]
    exact roomy.fits

end FlightProxy.L1
