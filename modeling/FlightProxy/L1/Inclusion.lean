import FlightProxy.L1.Linearizable
import FlightProxy.Recency.Inclusion

/-! # A larger cache keeps what a smaller one keeps

The same calls on two caches of fixed sizes. The entries of the smaller are among those of the larger,
in the same order, so whatever the smaller finds the larger finds.
-/

namespace FlightProxy.L1

open Recency
open scoped List

/-- A whole call, and its answer. -/
def serve (s : L1) : Op → Option Bytes × L1
  | .putL1 query result => (none, s.putL1 query result)
  | .getL1 query => s.getL1 query
  | .clear => (none, s.clear)

/-- The cache after the calls. -/
def after (s : L1) (ops : List Op) : L1 := ops.foldl (fun s op => (s.serve op).2) s

theorem after_snoc (s : L1) (ops : List Op) (op : Op) :
    s.after (ops ++ [op]) = ((s.after ops).serve op).2 := List.foldl_concat ..

/-- An enabled cache of a fixed size. -/
structure Sized (size : ℕ) (s : L1) : Prop where
  linked : s.Linked
  enabled : s.l1_enabled_ = true
  size : s.l1_max_size_ = size

variable {s small large : L1} {m n size : ℕ} {query result value : Bytes} {ops : List Op} {op : Op}

theorem sized_init (size : ℕ) : Sized size { l1_max_size_ := size } :=
  ⟨linked_empty size true, rfl, rfl⟩

theorem Sized.putL1_contents (sized : s.Sized size) (query result : Bytes) :
    (s.putL1 query result).contents = put size query result s.contents := by
  rw [L1.putL1, if_pos sized.enabled, (putL1_unique_spec sized.linked query result).1, kept,
    sized.size, put]

/-- getL1 answers with the binding of the key, and makes it the last used. -/
theorem Sized.getL1_spec (sized : s.Sized size) (query : Bytes) :
    (s.getL1 query).1 = lookup query s.contents ∧
      (s.getL1 query).2.contents = touch query s.contents := by
  obtain ⟨found, touched, -⟩ := getL1_unique_spec sized.linked query
  rw [L1.getL1]
  split_ifs with present
  · exact ⟨found, touched⟩
  · have absent : lookup query s.contents = none := by
      by_contra bound
      exact present (sized.linked.getL1_shared_iff.mpr ⟨sized.enabled, bound⟩)
    rw [touch, absent]
    exact ⟨rfl, rfl⟩

theorem Sized.serve (sized : s.Sized size) (op : Op) : (s.serve op).2.Sized size := by
  cases op with
  | putL1 query result =>
    refine ⟨sized.linked.putL1 query result, ?_, ?_⟩
    · simp only [L1.serve, L1.putL1, sized.enabled, ↓reduceIte, putL1_unique_l1_enabled_]
    · simp only [L1.serve, L1.putL1, sized.enabled, ↓reduceIte, putL1_unique_l1_max_size_, sized.size]
  | getL1 query =>
    simp only [L1.serve, L1.getL1]
    split_ifs
    · refine ⟨(getL1_unique_spec sized.linked query).2.2, ?_, ?_⟩
      · rw [getL1_unique_l1_enabled_, sized.enabled]
      · rw [getL1_unique_l1_max_size_, sized.size]
    · exact sized
  | clear => exact ⟨linked_clear, sized.enabled, sized.size⟩

/-- Every call keeps the lists included. -/
theorem included_serve (sized : small.Sized m) (sized' : large.Sized n) (positive : 1 ≤ m)
    (le : m ≤ n) (included : Included m small.contents large.contents) (op : Op) :
    Included m (small.serve op).2.contents (large.serve op).2.contents := by
  cases op with
  | putL1 query result =>
    simp only [L1.serve]
    rw [sized.putL1_contents, sized'.putL1_contents]
    exact included.put positive le query result
  | getL1 query =>
    simp only [L1.serve]
    rw [(sized.getL1_spec query).2, (sized'.getL1_spec query).2]
    exact included.touch query
  | clear => exact included_nil

/-- After the same calls the list of the smaller cache is a sublist of that of the larger one, and
what getL1 finds with the smaller size it finds with the larger one. -/
theorem included_after (positive : 1 ≤ m) (le : m ≤ n) (ops : List Op) :
    (after { l1_max_size_ := m } ops).contents <+ (after { l1_max_size_ := n } ops).contents ∧
      ∀ query value, ((after { l1_max_size_ := m } ops).getL1 query).1 = some value →
        ((after { l1_max_size_ := n } ops).getL1 query).1 = some value := by
  have kept : (after { l1_max_size_ := m } ops).Sized m ∧ (after { l1_max_size_ := n } ops).Sized n ∧
      Included m (after { l1_max_size_ := m } ops).contents
        (after { l1_max_size_ := n } ops).contents := by
    induction ops using List.reverseRecOn with
    | nil => exact ⟨sized_init m, sized_init n, included_nil⟩
    | append_singleton ops op ih =>
      obtain ⟨small, large, included⟩ := ih
      rw [after_snoc, after_snoc]
      exact ⟨small.serve op, large.serve op, included_serve small large positive le included op⟩
  obtain ⟨small, large, included⟩ := kept
  refine ⟨included.sublist, fun query value found => ?_⟩
  rw [(small.getL1_spec query).1] at found
  rw [(large.getL1_spec query).1]
  exact included.lookup found

/-- A get hits in the larger cache and misses in the smaller one, and then an insertion evicts
different keys. -/
theorem included_after_run :
    (after { l1_max_size_ := 1 } [.putL1 [0x61] [0x01], .putL1 [0x62] [0x02], .getL1 [0x61],
        .putL1 [0x63] [0x03]]).contents = [([0x63], [0x03])] ∧
      ((after { l1_max_size_ := 2 } [.putL1 [0x61] [0x01], .putL1 [0x62] [0x02], .getL1 [0x61],
        .putL1 [0x63] [0x03]]).getL1 [0x63]).1 = some [0x03] := by
  refine ⟨by decide +kernel, ?_⟩
  exact (included_after (m := 1) (Nat.le_refl 1) (Nat.le_succ 1) _).2 [0x63] [0x03]
    (by decide +kernel)

end FlightProxy.L1
