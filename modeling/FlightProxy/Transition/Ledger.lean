import Mathlib.Data.List.Basic

/-! # Items that are given one at a time

A giver hands out items, one of them on its way to the receiver at most. The ledger compares what has
arrived with what was given: they agree up to the item on its way, until the receiver is cut off and
items are lost.
-/

namespace Transition

variable {α : Type*}

/-- What happens to what is on its way: it stays, or the only item arrives or is lost. -/
inductive Receipt (got got' before after : List α) (cut : Prop) : Prop
  | stays (gets : got' = got) (same : after = before)
  | arrives (item : α) (only : before = [item]) (none : after = []) (gets : got' = got ++ [item])
  | lost (item : α) (only : before = [item]) (none : after = []) (gets : got' = got) (cut : cut)

/-- What has been received, and the one item that is on its way at most, are all that was given, unless
the receiver has been cut off; nothing is on its way while an item is owed. -/
structure Ledger (got due given : List α) (owed cut : Prop) : Prop where
  few : due.length ≤ 1
  clear : owed → due = []
  tallied : given = got ++ due ∨ cut ∧ (got ++ due).Sublist given

namespace Ledger

variable {got got' due given given' before after put : List α} {owed owed' cut cut' : Prop}

theorem sublist (ledger : Ledger got due given owed cut) : (got ++ due).Sublist given := by
  rcases ledger.tallied with same | ⟨-, part⟩
  · rw [same]
  · exact part

/-- Nothing moves, and an item may be owed now if none is on its way. -/
theorem mono (ledger : Ledger got due given owed cut) (owes : owed' → owed ∨ due = [])
    (cuts : cut → cut') : Ledger got due given owed' cut' :=
  ⟨ledger.few, fun still => (owes still).elim ledger.clear id, ledger.tallied.imp_right (And.imp_left cuts)⟩

/-- The item on its way stays, arrives, or is lost because the receiver is cut off. -/
theorem receipt (ledger : Ledger got (before ++ put) given owed cut) (cuts : cut → cut')
    (receipt : Receipt got got' before after cut') : Ledger got' (after ++ put) given owed cut' := by
  have few := ledger.few
  cases receipt with
  | stays gets same =>
    rw [gets, same]
    exact ledger.mono .inl cuts
  | arrives item only none gets =>
    subst only none gets
    obtain rfl : put = [] := by
      rw [← List.length_eq_zero_iff]
      rw [List.length_append, List.length_singleton] at few
      omega
    refine ⟨Nat.zero_le 1, fun _ => rfl, ?_⟩
    rw [List.append_nil, List.append_nil]
    exact ledger.tallied.imp_right (And.imp_left cuts)
  | lost item only none gets cut' =>
    subst only none gets
    refine ⟨?_, ?_, .inr ⟨cut', ?_⟩⟩
    · rw [List.nil_append]
      rw [List.length_append] at few
      omega
    · exact fun owes => (List.append_eq_nil_iff.mp (ledger.clear owes)).2
    · exact ((List.sublist_append_right _ _).append_left _).trans ledger.sublist

/-- The item that was owed is given, and is on its way. -/
theorem give (ledger : Ledger got due given owed cut) (cuts : cut → cut') (owes : owed) (settled : ¬ owed')
    (item : α) : Ledger got [item] (given ++ [item]) owed' cut' := by
  obtain rfl := ledger.clear owes
  refine ⟨Nat.le_refl 1, fun still => absurd still settled, ?_⟩
  rcases ledger.tallied with same | ⟨cut, part⟩
  · rw [same, List.append_nil]
    exact .inl rfl
  · rw [List.append_nil] at part
    exact .inr ⟨cuts cut, part.append_right _⟩

/-- What is on its way is lost. -/
theorem lose (ledger : Ledger got due given owed cut) (part : given.Sublist given') (lost : cut') :
    Ledger got [] given' owed' cut' := by
  refine ⟨Nat.zero_le 1, fun _ => rfl, .inr ⟨lost, ?_⟩⟩
  rw [List.append_nil]
  exact ((List.sublist_append_left _ _).trans ledger.sublist).trans part

end Ledger

end Transition
