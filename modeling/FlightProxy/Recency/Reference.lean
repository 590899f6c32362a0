import FlightProxy.Recency.Order
import Mathlib.Data.List.Dedup
import Mathlib.Data.List.DropRight

/-! # The reference for a least recently used cache

What a cache of a given size must answer, read off the history of its uses: a key is found if it was
put since the last clear and fewer other keys than the size have been used since its own last use.
A list in order of last use, cut down to its last entries, answers just so.
-/

namespace Recency

/-- A use of the cache; a get comes with its answer. -/
inductive Access (κ α : Type*)
  | put (key : κ) (value : α)
  | get (key : κ) (found : Option α)
  | clear

variable {κ α : Type*}

/-- The key that an access uses; a get that finds nothing uses none. -/
def Access.used : Access κ α → Option κ
  | .put key _ => some key
  | .get key (some _) => some key
  | .get _ none | .clear => none

def Access.isClear : Access κ α → Bool
  | .clear => true
  | .put _ _ | .get _ _ => false

/-- The history since the last clear. -/
def since (history : List (Access κ α)) : List (Access κ α) :=
  (history.reverse.takeWhile fun access => !access.isClear).reverse

/-- The keys used since the last clear, in order of time. -/
def uses (history : List (Access κ α)) : List κ := (since history).filterMap Access.used

variable [DecidableEq κ]

/-- The value that an access binds to the key. -/
def Access.binds (key : κ) : Access κ α → Option α
  | .put k value => if k = key then some value else none
  | .get _ _ | .clear => none

/-- The value of the last put of the key since the last clear. -/
def last_put (key : κ) (history : List (Access κ α)) : Option α :=
  (since history).reverse.findSome? (Access.binds key)

/-- How many distinct other keys have been used since the last use of the key. -/
def others (key : κ) (history : List (Access κ α)) : ℕ :=
  ((uses history).reverse.takeWhile (· ≠ key)).dedup.length

/-- The answer of a cache of the given size. -/
def expected (size : ℕ) (key : κ) (history : List (Access κ α)) : Option α :=
  if others key history < size then last_put key history else none

/-- Every get is answered as it ought to be. -/
def Legal (size : ℕ) (history : List (Access κ α)) : Prop :=
  ∀ before key found after, history = before ++ .get key found :: after →
    found = expected size key before

/-- What an access does to a list without a bound on its size. -/
def Access.run (entries : List (κ × α)) : Access κ α → List (κ × α)
  | .put key value => store key value entries
  | .get key (some _) => touch key entries
  | .get _ none => entries
  | .clear => []

/-- The bindings since the last clear, in order of last use. -/
def order (history : List (Access κ α)) : List (κ × α) := history.foldl Access.run []

variable {history : List (Access κ α)} {access : Access κ α} {key other : κ} {value : α}
  {entries : List (κ × α)} {size : ℕ}

omit [DecidableEq κ] in
theorem since_append : since (history ++ [access]) =
    if access.isClear then [] else since history ++ [access] := by
  cases access <;> simp [since, Access.isClear]

omit [DecidableEq κ] in
theorem uses_append : uses (history ++ [access]) =
    if access.isClear then [] else uses history ++ access.used.toList := by
  rw [uses, since_append]
  split_ifs
  · rfl
  · rw [List.filterMap_append, uses]
    cases used : access.used with
    | none => rw [List.filterMap_cons_none used, List.filterMap_nil, Option.toList_none]
    | some key => rw [List.filterMap_cons_some used, List.filterMap_nil, Option.toList_some]

theorem order_append : order (history ++ [access]) = access.run (order history) := by
  rw [order, List.foldl_append]
  rfl

theorem legal_append : Legal size (history ++ [access]) ↔ Legal size history ∧
    ∀ key found, access = .get key found → found = expected size key history := by
  constructor
  · intro legal
    refine ⟨fun before key found after same => ?_, fun key found same => ?_⟩
    · apply legal before key found (after ++ [access])
      rw [same, List.append_assoc, List.cons_append]
    · exact legal history key found [] (by rw [same])
  · rintro ⟨legal, last⟩ before key found after same
    rcases List.eq_nil_or_concat after with rfl | ⟨rest, final, rfl⟩
    · obtain ⟨rfl, here⟩ := List.append_inj' same rfl
      exact last key found (List.cons.inj here).1
    · rw [List.concat_eq_append, ← List.cons_append, ← List.append_assoc] at same
      exact legal before key found rest (List.append_inj' same rfl).1

/-! ## The order of last use -/

theorem last_put_append : last_put key (history ++ [access]) =
    if access.isClear then none else (access.binds key).or (last_put key history) := by
  rw [last_put, since_append]
  split_ifs
  · rfl
  · rw [List.reverse_append]
    cases bound : access.binds key <;> simp [bound, last_put]

/-- The list binds every key as it was last put. -/
theorem lookup_order : lookup key (order history) = last_put key history := by
  induction history using List.reverseRecOn with
  | nil => rfl
  | append_singleton history access ih =>
    rw [order_append, last_put_append]
    cases access with
    | put k value =>
      simp only [Access.run, Access.isClear, Access.binds, Bool.false_eq_true, ↓reduceIte]
      split_ifs with same
      · rw [same, lookup_store_self]
        rfl
      · rw [lookup_store_of_ne (Ne.symm same), ih]
        rfl
    | get k found =>
      cases found with
      | none => exact ih
      | some value => exact lookup_touch.trans ih
    | clear => rfl

theorem keys_touch_nodup (nodup : (entries.map Prod.fst).Nodup) :
    ((touch key entries).map Prod.fst).Nodup := by
  rw [touch]
  split
  · exact keys_store_nodup nodup
  · exact nodup

theorem keys_order_nodup : ((order history).map Prod.fst).Nodup := by
  induction history using List.reverseRecOn with
  | nil => exact List.nodup_nil
  | append_singleton history access ih =>
    rw [order_append]
    cases access with
    | put k value => exact keys_store_nodup ih
    | get k found =>
      cases found with
      | none => exact ih
      | some value => exact keys_touch_nodup ih
    | clear => exact List.nodup_nil

theorem dedup_append_singleton (keys : List κ) :
    (keys ++ [key]).dedup = keys.dedup.filter (· ≠ key) ++ [key] := by
  induction keys with
  | nil => rfl
  | cons k keys ih =>
    by_cases member : k ∈ keys
    · rw [List.cons_append, List.dedup_cons_of_mem (List.mem_append_left _ member),
        List.dedup_cons_of_mem member, ih]
    · by_cases same : k = key
      · subst same
        rw [List.cons_append, List.dedup_cons_of_mem (by simp), List.dedup_cons_of_notMem member, ih]
        simp
      · rw [List.cons_append, List.dedup_cons_of_notMem (by simp [member, same]),
          List.dedup_cons_of_notMem member, ih]
        simp [same]

theorem keys_store : (store key value entries).map Prod.fst =
    (entries.map Prod.fst).filter (· ≠ key) ++ [key] := by
  rw [store, forget, List.map_append, List.filter_map]
  rfl

/-- The list holds the keys used since the last clear, in order of last use. -/
theorem keys_order (legal : Legal size history) :
    (order history).map Prod.fst = (uses history).dedup := by
  induction history using List.reverseRecOn with
  | nil => rfl
  | append_singleton history access ih =>
    obtain ⟨before, last⟩ := legal_append.mp legal
    rw [order_append, uses_append]
    cases access with
    | put key value => exact keys_store.trans (by rw [ih before]; exact (dedup_append_singleton _).symm)
    | get key found =>
      cases found with
      | none => exact (ih before).trans (congrArg List.dedup (List.append_nil _).symm)
      | some value =>
        have bound : lookup key (order history) = some value := by
          rw [lookup_order]
          have answer := last key _ rfl
          rw [expected] at answer
          split_ifs at answer
          exact answer.symm
        rw [Access.run, touch, bound]
        exact keys_store.trans (by rw [ih before]; exact (dedup_append_singleton _).symm)
    | clear => rfl

/-! ## The window of the last entries -/

/-- The entries after that of the key, or all of them. -/
def behind (key : κ) (entries : List (κ × α)) : ℕ :=
  ((entries.map Prod.fst).reverse.takeWhile (· ≠ key)).length

theorem behind_append (entry : κ × α) :
    behind key (entries ++ [entry]) = if entry.1 = key then 0 else behind key entries + 1 := by
  rw [behind, List.map_append, List.reverse_append]
  split_ifs with same
  · simp [same]
  · simp [same, behind]

/-- A binding is among the last entries if few enough entries stand behind it. -/
theorem lookup_rtake (nodup : (entries.map Prod.fst).Nodup) :
    lookup key (entries.rtake size) = if behind key entries < size then lookup key entries else none := by
  induction entries using List.reverseRecOn generalizing size with
  | nil => simp [lookup]
  | append_singleton entries entry ih =>
    cases size with
    | zero => simp [lookup]
    | succ size =>
      rw [List.map_append] at nodup
      rw [List.rtake_concat_succ, lookup_append, lookup_append, ih nodup.of_append_left, behind_append]
      by_cases same : entry.1 = key
      · have absent : lookup key entries = none := by
          apply lookup_eq_none_iff.mpr
          rw [← same]
          exact fun member => List.disjoint_of_nodup_append nodup member List.mem_cons_self
        simp [absent, same]
      · simp [lookup, same]

private theorem takeWhile_filter_comm (distinct : other ≠ key) (keys : List κ) :
    (keys.filter (· ≠ other)).takeWhile (· ≠ key) = (keys.takeWhile (· ≠ key)).filter (· ≠ other) := by
  induction keys with
  | nil => rfl
  | cons k keys ih =>
    by_cases first : k = other
    · subst first
      simpa [distinct] using ih
    · by_cases second : k = key
      · simp [second, distinct.symm]
      · simpa [first, second] using ih

/-- Counting each key once and then up to the last use of a key is counting up to that use and then each key once. -/
theorem mem_takeWhile_dedup (keys : List κ) : other ∈ keys.dedup.reverse.takeWhile (· ≠ key) ↔
    other ∈ keys.reverse.takeWhile (· ≠ key) := by
  induction keys using List.reverseRecOn with
  | nil => rfl
  | append_singleton keys last ih =>
    rw [dedup_append_singleton, List.reverse_append, List.reverse_append, ← List.filter_reverse]
    by_cases same : last = key
    · simp [same]
    · have comm := takeWhile_filter_comm same keys.dedup.reverse
      simp only [List.reverse_singleton, List.singleton_append, List.takeWhile_cons, ne_eq, same,
        not_false_eq_true, decide_true, ↓reduceIte, List.mem_cons] at comm ih ⊢
      rw [comm, List.mem_filter, ih]
      by_cases here : other = last <;> simp [here]

theorem behind_order (legal : Legal size history) : behind key (order history) = others key history := by
  rw [behind, keys_order legal, others]
  apply List.Perm.length_eq
  apply (List.perm_ext_iff_of_nodup ?_ (List.nodup_dedup _)).mpr
  · intro other
    rw [mem_takeWhile_dedup, List.mem_dedup]
  · exact (List.nodup_reverse.mpr (List.nodup_dedup _)).sublist (List.takeWhile_sublist _)

/-- The last entries of the list answer as the reference does. -/
theorem lookup_rtake_order (legal : Legal size history) :
    lookup key ((order history).rtake size) = expected size key history := by
  rw [lookup_rtake keys_order_nodup, behind_order legal, lookup_order, expected]

omit [DecidableEq κ] in
private theorem rtake_of_append {first second : List (κ × α)}
    (whole : second.length = size ∨ first = [] ∧ second.length ≤ size) :
    (first ++ second).rtake size = second := by
  rcases whole with rfl | ⟨rfl, fits⟩
  · simp [List.rtake]
  · simp [List.rtake, Nat.sub_eq_zero_of_le fits]

/-- Removing a key from a list that binds it once shortens the list by one. -/
private theorem length_forget (nodup : (entries.map Prod.fst).Nodup)
    (member : key ∈ entries.map Prod.fst) : (forget key entries).length + 1 = entries.length := by
  have erased := List.length_erase_add_one member
  rw [nodup.erase_eq_filter, List.length_map, List.filter_map, List.length_map] at erased
  rw [← erased, forget]
  congr 2
  apply List.filter_congr
  intro entry _
  by_cases same : entry.1 = key <;> simp [same]

/-- Storing a binding keeps the last entries: an unbound key in a full window drops its oldest. -/
theorem rtake_store (positive : 1 ≤ size) (nodup : (entries.map Prod.fst).Nodup) :
    (store key value entries).rtake size = store key value
      (if lookup key (entries.rtake size) = none ∧ size ≤ (entries.rtake size).length
        then (entries.rtake size).tail else entries.rtake size) := by
  obtain ⟨n, rfl⟩ := Nat.exists_eq_add_of_le' positive
  obtain ⟨first, last, split, window, whole⟩ : ∃ first last, entries = first ++ last ∧
      entries.rtake (n + 1) = last ∧ (last.length = n + 1 ∨ first = [] ∧ last.length ≤ n) := by
    refine ⟨entries.take (entries.length - (n + 1)), entries.rtake (n + 1), ?_, rfl, ?_⟩
    · exact (List.take_append_drop _ _).symm
    · rcases Nat.lt_or_ge n entries.length with long | short
      · left
        simp only [List.rtake, List.length_drop]
        omega
      · right
        have whole : entries.length - (n + 1) = 0 := by omega
        simp only [List.rtake, whole, List.take_zero, List.drop_zero, true_and]
        exact short
  rw [window, store, store, List.rtake_concat_succ]
  congr 1
  subst split
  rw [List.map_append] at nodup
  rw [forget, List.filter_append]
  by_cases bound : key ∈ last.map Prod.fst
  · have gone : forget key first = first :=
      forget_of_notMem fun member => List.disjoint_of_nodup_append nodup member bound
    have shorter := length_forget nodup.of_append_right bound
    rw [if_neg fun absent => absurd bound (lookup_eq_none_iff.mp absent.1)]
    rw [← forget, gone, ← forget]
    apply rtake_of_append
    rcases whole with full | ⟨rfl, fits⟩
    · left
      omega
    · exact .inr ⟨rfl, by omega⟩
  · have same : forget key last = last := forget_of_notMem bound
    rcases whole with full | ⟨rfl, fits⟩
    · obtain ⟨head, tail, rfl⟩ := List.exists_cons_of_length_eq_add_one full
      have rest : forget key tail = tail :=
        forget_of_notMem fun member => bound (List.mem_cons_of_mem _ member)
      rw [if_pos ⟨lookup_eq_none_iff.mpr bound, full.ge⟩, List.tail_cons, rest, ← forget, ← forget,
        same, List.append_cons]
      apply rtake_of_append
      left
      exact Nat.succ.inj full
    · rw [if_neg fun full => by omega, ← forget, ← forget, same]
      exact rtake_of_append (.inr ⟨rfl, fits⟩)

/-- Using a key of the window makes it the last used there too. -/
theorem rtake_touch (positive : 1 ≤ size) (nodup : (entries.map Prod.fst).Nodup)
    (bound : lookup key (entries.rtake size) = some value) :
    (touch key entries).rtake size = touch key (entries.rtake size) := by
  have member : (key, value) ∈ entries := (List.drop_sublist _ _).subset (mem_of_lookup bound)
  have stored : (store key value entries).rtake size = store key value
      (if lookup key (entries.rtake size) = none ∧ size ≤ (entries.rtake size).length
        then (entries.rtake size).tail else entries.rtake size) := rtake_store positive nodup
  rw [if_neg fun absent => by simp [bound] at absent] at stored
  rw [touch, touch, bound, lookup_of_mem nodup member, stored]

end Recency
