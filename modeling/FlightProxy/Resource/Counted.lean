import Mathlib.Data.Finset.Card
import Mathlib.Logic.Function.Basic

/-! # Counted references

Slots that refer to at most one object each, and a count for every object of the slots that refer to
it. A slot is made to refer to an object, or lets go of it, and the count of that object goes up or
down by one. So an object has a positive count as long as a slot refers to it, and where it is one no
other slot does.
-/

namespace Resource

variable {ι κ : Type*}

/-- The count of each object is the number of slots that refer to it. -/
def Counted (count : ι → ℕ) (slots : κ → Option ι) : Prop :=
  ∀ o, ∃ owners : Finset κ, owners.card = count o ∧ ∀ k, k ∈ owners ↔ slots k = some o

variable {count : ι → ℕ} {slots : κ → Option ι} {o : ι} {k l : κ}

theorem counted_init : Counted (fun _ : ι => 0) fun _ : κ => none :=
  fun _ => ⟨∅, Finset.card_empty, by simp⟩

theorem Counted.pos (counted : Counted count slots) (refers : slots k = some o) : 0 < count o := by
  obtain ⟨owners, card, mem⟩ := counted o
  rw [← card]
  exact Finset.card_pos.mpr ⟨k, (mem k).mpr refers⟩

/-- Two slots that refer to an object count as two. -/
theorem Counted.one_lt (counted : Counted count slots) (first : slots k = some o)
    (second : slots l = some o) (distinct : k ≠ l) : 1 < count o := by
  obtain ⟨owners, card, mem⟩ := counted o
  rw [← card]
  exact Finset.one_lt_card.mpr ⟨k, (mem k).mpr first, l, (mem l).mpr second, distinct⟩

theorem Counted.eq_of_one (counted : Counted count slots) (one : count o = 1)
    (first : slots k = some o) (second : slots l = some o) : k = l := by
  by_contra distinct
  have more := counted.one_lt first second distinct
  omega

/-- An object to which no slot refers has the count zero. -/
theorem Counted.eq_zero (counted : Counted count slots) (nobody : ∀ k, slots k ≠ some o) :
    count o = 0 := by
  obtain ⟨owners, card, mem⟩ := counted o
  rw [← card, Finset.card_eq_zero]
  apply Finset.eq_empty_of_forall_notMem
  intro k member
  exact nobody k ((mem k).mp member)

variable [DecidableEq ι] [DecidableEq κ]

/-- An empty slot is made to refer to an object. -/
theorem Counted.refer (counted : Counted count slots) (empty : slots k = none) (o : ι) :
    Counted (Function.update count o (count o + 1)) (Function.update slots k (some o)) := by
  intro p
  obtain ⟨owners, card, mem⟩ := counted p
  have outside : k ∉ owners := by
    rw [mem k, empty]
    exact (Option.some_ne_none p).symm
  by_cases same : p = o
  · subst same
    refine ⟨insert k owners, ?_, fun l => ?_⟩
    · rw [Finset.card_insert_of_notMem outside, card, Function.update_self]
    · rw [Finset.mem_insert, mem l, Function.update_apply]
      split_ifs with here
      · simp [here]
      · simp [here]
  · refine ⟨owners, ?_, fun l => ?_⟩
    · rw [card, Function.update_of_ne same]
    · rw [mem l, Function.update_apply]
      split_ifs with here
      · subst here
        rw [empty]
        simp [Ne.symm same]
      · rfl

/-- A slot lets go of the object that it refers to. -/
theorem Counted.release (counted : Counted count slots) (refers : slots k = some o) :
    Counted (Function.update count o (count o - 1)) (Function.update slots k none) := by
  intro p
  obtain ⟨owners, card, mem⟩ := counted p
  by_cases same : p = o
  · subst same
    refine ⟨owners.erase k, ?_, fun l => ?_⟩
    · rw [Finset.card_erase_of_mem ((mem k).mpr refers), card, Function.update_self]
    · rw [Finset.mem_erase, mem l, Function.update_apply]
      split_ifs with here
      · simp [here]
      · simp [here]
  · refine ⟨owners, ?_, fun l => ?_⟩
    · rw [card, Function.update_of_ne same]
    · rw [mem l, Function.update_apply]
      split_ifs with here
      · subst here
        rw [refers]
        simp [Ne.symm same]
      · rfl

end Resource
