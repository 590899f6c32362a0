import Mathlib.Data.List.Basic
import Mathlib.Logic.Function.Basic

/-! # A mutex with a shared and an exclusive mode

The lock records who holds it. A machine whose control points say which mode each of its threads
holds is guarded by the lock when the two agree; the rules below keep them in agreement, and a
thread in exclusive mode is then alone.
-/

namespace Sync

variable {θ : Type*}

inductive Mode
  | shared
  | unique
deriving DecidableEq, Repr

structure SharedMutex (θ : Type*) where
  shared : List θ := []
  unique : Option θ := none

namespace SharedMutex

/-- Enter in the given mode, unless that has to wait. -/
def lock? (m : SharedMutex θ) (c : θ) : Mode → Option (SharedMutex θ)
  | .shared => if m.unique = none then some { m with shared := c :: m.shared } else none
  | .unique => if m.unique = none ∧ m.shared = [] then some { m with unique := some c } else none

def unlock [DecidableEq θ] (m : SharedMutex θ) (c : θ) : Mode → SharedMutex θ
  | .shared => { m with shared := m.shared.erase c }
  | .unique => { m with unique := none }

/-- The lock is held as the threads say. -/
structure Guards (m : SharedMutex θ) (mode : θ → Option Mode) : Prop where
  nodup : m.shared.Nodup
  shared : ∀ c, c ∈ m.shared ↔ mode c = some .shared
  unique : ∀ c, m.unique = some c ↔ mode c = some .unique
  excludes : m.unique ≠ none → m.shared = []

variable {m m' : SharedMutex θ} {mode : θ → Option Mode} {c d : θ} {kind : Mode}

theorem guards_init : Guards (θ := θ) {} fun _ => none := by
  constructor <;> simp

/-- Who holds the lock in exclusive mode is alone. -/
theorem Guards.alone (guards : m.Guards mode) (holds : mode c = some .unique)
    (other : mode d ≠ none) : d = c := by
  have owner := (guards.unique c).mpr holds
  cases held : mode d with
  | none => exact absurd held other
  | some kind =>
    cases kind with
    | shared =>
      have member := (guards.shared d).mpr held
      rw [guards.excludes (by simp [owner])] at member
      contradiction
    | unique =>
      have same := (guards.unique d).mpr held
      exact Option.some.inj (same.symm.trans owner)

/-- Who enters in exclusive mode finds nobody. -/
theorem Guards.free (guards : m.Guards mode) (entered : m.lock? c .unique = some m') (d : θ) :
    mode d = none := by
  simp only [lock?] at entered
  split_ifs at entered with free
  obtain ⟨unowned, unshared⟩ := free
  cases held : mode d with
  | none => rfl
  | some kind =>
    cases kind with
    | shared =>
      have member := (guards.shared d).mpr held
      rw [unshared] at member
      contradiction
    | unique =>
      have owner := (guards.unique d).mpr held
      rw [unowned] at owner
      contradiction

variable [DecidableEq θ]

theorem Guards.lock (guards : m.Guards mode) (outside : mode c = none)
    (entered : m.lock? c kind = some m') : m'.Guards (Function.update mode c (some kind)) := by
  cases kind with
  | shared =>
    simp only [lock?] at entered
    split_ifs at entered with free
    obtain rfl := Option.some.inj entered
    constructor
    · refine List.nodup_cons.mpr ⟨fun member => ?_, guards.nodup⟩
      rw [(guards.shared c).mp member] at outside
      contradiction
    · intro d
      by_cases same : d = c
      · subst same
        simp
      · simp [same, guards.shared d]
    · intro d
      by_cases same : d = c
      · subst same
        simp [free]
      · simp [same, guards.unique d]
    · exact fun owned => absurd free owned
  | unique =>
    have idle := guards.free entered
    simp only [lock?] at entered
    split_ifs at entered with free
    obtain rfl := Option.some.inj entered
    constructor
    · exact guards.nodup
    · intro d
      by_cases same : d = c
      · subst same
        simp [free.2]
      · simp [free.2, same, idle d]
    · intro d
      by_cases same : d = c
      · subst same
        simp
      · simp [same, Ne.symm same, idle d]
    · exact fun _ => free.2

theorem Guards.unlock (guards : m.Guards mode) (holds : mode c = some kind) :
    (m.unlock c kind).Guards (Function.update mode c none) := by
  cases kind with
  | shared =>
    have member := (guards.shared c).mpr holds
    constructor
    · exact guards.nodup.erase c
    · intro d
      by_cases same : d = c
      · subst same
        simp [SharedMutex.unlock, guards.nodup.not_mem_erase]
      · simp [SharedMutex.unlock, same, List.mem_erase_of_ne same, guards.shared d]
    · intro d
      by_cases same : d = c
      · subst same
        simp only [SharedMutex.unlock, guards.unique d, holds]
        simp
      · simp [SharedMutex.unlock, same, guards.unique d]
    · intro owned
      rw [guards.excludes owned] at member
      contradiction
  | unique =>
    have alone := fun d => guards.alone (d := d) holds
    have empty : m.shared = [] := guards.excludes (by simp [(guards.unique c).mpr holds])
    constructor
    · exact guards.nodup
    · intro d
      by_cases same : d = c
      · subst same
        simp [SharedMutex.unlock, empty]
      · have outside : mode d = none := by
          by_contra other
          exact same (alone d other)
        simp [SharedMutex.unlock, empty, same, outside]
    · intro d
      by_cases same : d = c
      · subst same
        simp [SharedMutex.unlock]
      · have outside : mode d = none := by
          by_contra other
          exact same (alone d other)
        simp [SharedMutex.unlock, same, outside]
    · exact fun owned => absurd rfl owned

end SharedMutex

end Sync
