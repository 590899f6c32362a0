import Mathlib.Data.List.Nodup

/-! # Association lists in order of last use

An association list whose keys are distinct, the entry used longest ago first. Storing or touching
a key moves it to the end; forgetting it removes it. These are the operations of a least recently
used cache before any bound on its size, over arbitrary keys and values.
-/

namespace Recency

variable {κ α : Type*} [DecidableEq κ]

def lookup (key : κ) : List (κ × α) → Option α
  | [] => none
  | (k, value) :: rest => if k = key then some value else lookup key rest

def forget (key : κ) (entries : List (κ × α)) : List (κ × α) :=
  entries.filter fun entry => entry.1 ≠ key

/-- Bind the key and make it the last used. -/
def store (key : κ) (value : α) (entries : List (κ × α)) : List (κ × α) :=
  forget key entries ++ [(key, value)]

/-- Use the key if it is bound. -/
def touch (key : κ) (entries : List (κ × α)) : List (κ × α) :=
  match lookup key entries with
  | some value => store key value entries
  | none => entries

variable {key other : κ} {value : α} {entries : List (κ × α)}

theorem lookup_eq_none_iff : lookup key entries = none ↔ key ∉ entries.map Prod.fst := by
  induction entries with
  | nil => simp [lookup]
  | cons entry rest ih =>
    simp only [lookup, List.map_cons, List.mem_cons, not_or]
    split_ifs with same
    · simp [same]
    · simp only [ih, Ne.symm same, not_false_eq_true, true_and]

theorem mem_of_lookup (bound : lookup key entries = some value) : (key, value) ∈ entries := by
  induction entries with
  | nil => contradiction
  | cons entry rest ih =>
    obtain ⟨k, v⟩ := entry
    simp only [lookup] at bound
    split_ifs at bound with same
    · rw [same, Option.some.inj bound]
      exact List.mem_cons_self
    · exact List.mem_cons_of_mem _ (ih bound)

theorem lookup_of_mem (nodup : (entries.map Prod.fst).Nodup) (member : (key, value) ∈ entries) :
    lookup key entries = some value := by
  cases bound : lookup key entries with
  | none => exact absurd (List.mem_map_of_mem member) (lookup_eq_none_iff.mp bound)
  | some other =>
    have same := List.inj_on_of_nodup_map nodup member (mem_of_lookup bound) rfl
    rw [(Prod.mk.inj same).2]

theorem lookup_append (first second : List (κ × α)) :
    lookup key (first ++ second) = (lookup key first).or (lookup key second) := by
  induction first with
  | nil => rfl
  | cons entry rest ih =>
    simp only [List.cons_append, lookup]
    split_ifs
    · rfl
    · exact ih

theorem lookup_forget_of_ne (distinct : other ≠ key) :
    lookup other (forget key entries) = lookup other entries := by
  induction entries with
  | nil => rfl
  | cons entry rest ih =>
    rw [forget] at ih ⊢
    by_cases gone : entry.1 = key
    · simp only [List.filter_cons, gone, ne_eq, not_true_eq_false, decide_false, Bool.false_eq_true,
        ↓reduceIte, ih, lookup, distinct.symm]
    · simp only [List.filter_cons, gone, ne_eq, not_false_eq_true, decide_true, ↓reduceIte, lookup, ih]

theorem notMem_keys_forget : key ∉ (forget key entries).map Prod.fst := by
  simp [forget]

theorem forget_of_notMem (absent : key ∉ entries.map Prod.fst) : forget key entries = entries := by
  apply List.filter_eq_self.mpr
  intro entry member
  apply decide_eq_true
  rintro rfl
  exact absent (List.mem_map_of_mem member)

@[simp] theorem lookup_store_self : lookup key (store key value entries) = some value := by
  rw [store, lookup_append, lookup_eq_none_iff.mpr notMem_keys_forget]
  simp [lookup]

theorem lookup_store_of_ne (distinct : other ≠ key) :
    lookup other (store key value entries) = lookup other entries := by
  rw [store, lookup_append, lookup_forget_of_ne distinct]
  simp [lookup, distinct.symm]

/-- Using a key changes the order and no binding. -/
@[simp] theorem lookup_touch : lookup other (touch key entries) = lookup other entries := by
  rw [touch]
  split
  · next bound =>
    by_cases same : other = key
    · rw [same, lookup_store_self, bound]
    · exact lookup_store_of_ne same
  · rfl

theorem keys_store_nodup (nodup : (entries.map Prod.fst).Nodup) :
    ((store key value entries).map Prod.fst).Nodup := by
  rw [store, List.map_append]
  exact (nodup.sublist (List.filter_sublist.map _)).append (List.nodup_singleton _)
    (List.disjoint_singleton.mpr notMem_keys_forget)

end Recency
