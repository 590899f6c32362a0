import Mathlib.Data.Option.Basic

/-! # A mutex and the control points of its threads

The mutex records its owner. A machine whose control points say which threads are in the section is
guarded by the mutex when the two agree; the rules below keep them in agreement when one thread moves,
and a thread in the section is then alone in it.
-/

namespace Sync.Mutex

variable {θ : Type*}

/-- The mutex is held by the thread that is in the section. -/
def Guards (m : Option θ) (inside : θ → Prop) : Prop := ∀ c, m = some c ↔ inside c

variable {m : Option θ} {inside inside' : θ → Prop} {c d : θ}

theorem guards_init : Guards none fun _ : θ => False := fun _ => by simp

theorem Guards.alone (guards : Guards m inside) (first : inside c) (second : inside d) : c = d :=
  Option.some.inj (((guards c).mpr first).symm.trans ((guards d).mpr second))

theorem Guards.free (guards : Guards none inside) (c : θ) : ¬ inside c := by
  rw [← guards c]
  exact (Option.some_ne_none c).symm

theorem Guards.congr (guards : Guards m inside) (same : ∀ d, inside' d ↔ inside d) :
    Guards m inside' := fun d => (guards d).trans (same d).symm

/-- A thread enters the section, if nobody is in it. -/
theorem Guards.lock (guards : Guards none inside) (enters : inside' c)
    (others : ∀ d, d ≠ c → (inside' d ↔ inside d)) : Guards (some c) inside' := by
  intro d
  rw [Option.some.injEq]
  constructor
  · rintro rfl
    exact enters
  · intro here
    by_contra other
    exact guards.free d ((others d (Ne.symm other)).mp here)

/-- The thread in the section leaves it. -/
theorem Guards.unlock (guards : Guards m inside) (inside_c : inside c) (leaves : ¬ inside' c)
    (others : ∀ d, d ≠ c → (inside' d ↔ inside d)) : Guards none inside' := by
  intro d
  refine iff_of_false (Option.some_ne_none d).symm fun here => ?_
  by_cases same : d = c
  · exact leaves (same ▸ here)
  · exact same (guards.alone ((others d same).mp here) inside_c)

end Sync.Mutex
