import FlightProxy.Transition.Path

/-! # Runs that come to rest

A run whose steps use up a measure ends; where it cannot go on, it is at rest. So what may be left to do
is done however the steps are ordered, and within a bound that is known beforehand.
-/

namespace Transition

variable {σ ε : Type*} {step : σ → ε → Option σ} {ok : σ → ε → Prop} {I : σ → Prop} {μ : σ → ℕ}
  {s t : σ} {es : List ε}

/-- No step that may be taken is left. -/
def Rests (step : σ → ε → Option σ) (ok : σ → ε → Prop) (s : σ) : Prop :=
  ∀ e, ok s e → step s e = none

/-- A run is no longer than the measure that its steps use up. -/
theorem Path.length_le (path : Path step ok s es t) (initial : I s)
    (preserved : ∀ s e s', I s → ok s e → step s e = some s' → I s')
    (uses : ∀ s e s', I s → ok s e → step s e = some s' → μ s' < μ s) : es.length + μ t ≤ μ s := by
  induction path with
  | nil => simp
  | cons allowed taken _ ih =>
    have rest := ih (preserved _ _ _ initial allowed taken)
    have used := uses _ _ _ initial allowed taken
    rw [List.length_cons]
    omega

/-- So it can be continued until it is at rest. -/
theorem exists_rest (initial : I s)
    (preserved : ∀ s e s', I s → ok s e → step s e = some s' → I s')
    (uses : ∀ s e s', I s → ok s e → step s e = some s' → μ s' < μ s) :
    ∃ es t, Path step ok s es t ∧ Rests step ok t := by
  induction left : μ s using Nat.strongRecOn generalizing s with
  | ind left' ih =>
    by_cases rests : Rests step ok s
    · exact ⟨[], s, .nil s, rests⟩
    · unfold Rests at rests
      push Not at rests
      obtain ⟨e, allowed, some⟩ := rests
      obtain ⟨mid, taken⟩ := Option.ne_none_iff_exists'.mp some
      have used := uses s e mid initial allowed taken
      obtain ⟨es, t, rest, done⟩ :=
        ih (μ mid) (left ▸ used) (preserved s e mid initial allowed taken) rfl
      exact ⟨e :: es, t, .cons allowed taken rest, done⟩

end Transition
