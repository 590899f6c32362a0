import FlightProxy.Transition.Path
import Mathlib.Data.List.Forall2

/-! # Unwinding: what an observer of two runs can tell

An observer sees some events of a run. Two runs look alike when the events seen are alike one by one.
If no unseen step changes how a state looks, and alike steps of states that look alike leave states
that look alike, then two runs that look alike end in states that do. Nothing here mentions a
concrete machine.
-/

namespace Transition

variable {σ ε : Type*}

/-- The conditions on one step of either run, or of both. -/
structure Unwinds (step : σ → ε → Option σ) (ok ok' : σ → ε → Prop) (seen : ε → Bool)
    (Alike : ε → ε → Prop) (Looks : σ → σ → Prop) : Prop where
  left : ∀ {s s' u e}, Looks s u → ok s e → seen e = false → step s e = some s' → Looks s' u
  right : ∀ {s u u' e}, Looks s u → ok' u e → seen e = false → step u e = some u' → Looks s u'
  both : ∀ {s s' u u' e e'}, Looks s u → ok s e → ok' u e' → seen e = true → Alike e e' →
    step s e = some s' → step u e' = some u' → Looks s' u'

namespace Unwinds

variable {step : σ → ε → Option σ} {ok ok' : σ → ε → Prop} {seen : ε → Bool}
  {Alike : ε → ε → Prop} {Looks : σ → σ → Prop} {s t u v : σ} {es ds : List ε}

/-- Unseen steps of the second run leave the states alike. -/
private theorem unseen (unwinds : Unwinds step ok ok' seen Alike Looks) (looks : Looks s u)
    (path : Path step ok' u ds v) (hidden : ∀ d ∈ ds, seen d = false) : Looks s v := by
  apply path.along.preserves (I := Looks s) looks
  rintro u d u' looks ⟨allowed, member⟩ taken
  exact unwinds.right looks allowed (hidden d member) taken

/-- Two runs that look alike end in states that look alike. -/
theorem run (unwinds : Unwinds step ok ok' seen Alike Looks) (looks : Looks s u)
    (path : Path step ok s es t) (path' : Path step ok' u ds v)
    (alike : List.Forall₂ Alike (es.filter seen) (ds.filter seen)) : Looks t v := by
  induction path generalizing u ds with
  | nil =>
    have none : ds.filter seen = [] := List.forall₂_nil_left_iff.mp alike
    apply unwinds.unseen looks path'
    intro d member
    exact Bool.eq_false_iff.mpr (List.filter_eq_nil_iff.mp none d member)
  | @cons s mid t e es allowed taken rest ih =>
    cases visible : seen e with
    | false =>
      apply ih (unwinds.left looks allowed visible taken) path'
      rwa [List.filter_cons_of_neg (by simp [visible])] at alike
    | true =>
      rw [List.filter_cons_of_pos visible] at alike
      obtain ⟨d, later, like, alike', split⟩ := List.forall₂_cons_left_iff.mp alike
      obtain ⟨first, second, rfl, hidden, -, rfl⟩ := List.filter_eq_cons_iff.mp split
      obtain ⟨u₁, before, after⟩ := Path.append_iff.mp path'
      obtain ⟨allowed', u₂, taken', after⟩ := Path.cons_iff.mp after
      have looks₁ : Looks s u₁ := unwinds.unseen looks before fun d member =>
        Bool.eq_false_iff.mpr (hidden d member)
      exact ih (unwinds.both looks₁ allowed allowed' visible like taken taken') after alike'

end Unwinds

end Transition
