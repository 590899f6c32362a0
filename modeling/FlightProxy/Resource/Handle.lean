import Mathlib.Data.List.Basic

/-! # An owner of one handle at a time

A history of what a program acquired, released and used, from an allocator that gives every handle a
name of its own and may also give none. An owner holds at most one handle: it acquires one only when
it holds none, and releases and uses only the one it holds. Then every handle it ever got is the one
it holds, or has been released exactly once, and each use is of a handle acquired before and not
released. Nothing here mentions a concrete allocator.
-/

namespace Resource

variable {α κ : Type*}

/-- A call of the allocator or on a handle. -/
inductive Action (α κ : Type*)
  /-- What an attempt returned. -/
  | acquire (attempt : α) (handle : Option ℕ)
  | release (handle : ℕ)
  | use (handle : Option ℕ) (op : κ)
deriving DecidableEq, Repr

def acquired (log : List (Action α κ)) : List ℕ :=
  log.filterMap fun
    | .acquire _ handle => handle
    | _ => none

def released (log : List (Action α κ)) : List ℕ :=
  log.filterMap fun
    | .release handle => some handle
    | _ => none

/-- Each use is of a handle acquired before and not released. -/
def Valid (log : List (Action α κ)) : Prop :=
  ∀ before handle op after, log = before ++ .use handle op :: after →
    ∃ h, handle = some h ∧ h ∈ acquired before ∧ h ∉ released before

/-- The history of an owner, the handle that it holds, and the next one of the allocator. -/
structure Owns (log : List (Action α κ)) (held : Option ℕ) (fresh : ℕ) : Prop where
  allocated : ∀ h ∈ acquired log, h < fresh
  owned : ∀ h ∈ released log, h ∈ acquired log
  current : ∀ h, held = some h → h ∈ acquired log ∧ h ∉ released log
  settled : ∀ h ∈ acquired log, held = some h ∨ (released log).count h = 1
  valid : Valid log

variable {log : List (Action α κ)} {held : Option ℕ} {fresh h : ℕ} {action : Action α κ}
  {attempt : α} {op : κ}

@[simp] theorem acquired_append (first second : List (Action α κ)) :
    acquired (first ++ second) = acquired first ++ acquired second := List.filterMap_append ..

@[simp] theorem released_append (first second : List (Action α κ)) :
    released (first ++ second) = released first ++ released second := List.filterMap_append ..

/-- A further call is a valid use, if it is one. -/
theorem Valid.snoc (valid : Valid log) (last : ∀ handle op, action = .use handle op →
    ∃ h, handle = some h ∧ h ∈ acquired log ∧ h ∉ released log) : Valid (log ++ [action]) := by
  intro before handle op after split
  rcases List.eq_nil_or_concat after with rfl | ⟨after, other, rfl⟩
  · obtain ⟨rfl, same⟩ := List.append_inj' split rfl
    exact last handle op (List.cons.inj same).1
  · have split' : log ++ [action] = (before ++ .use handle op :: after) ++ [other] := by
      rw [split, List.append_assoc, List.cons_append, List.concat_eq_append]
    exact valid before handle op after (List.append_inj' split' rfl).1

theorem owns_nil : Owns ([] : List (Action α κ)) none 0 := by
  constructor
  · exact fun _ member => absurd member List.not_mem_nil
  · exact fun _ member => absurd member List.not_mem_nil
  · exact nofun
  · exact fun _ member => absurd member List.not_mem_nil
  · intro before handle op after split
    simp at split

/-- An attempt that returns none changes nothing. -/
theorem Owns.refused (owns : Owns log held fresh) :
    Owns (log ++ [.acquire attempt none]) held fresh := by
  have same : acquired (log ++ [.acquire attempt none]) = acquired log := by
    simp [acquired]
  have same' : released (log ++ [.acquire attempt none]) = released log := by
    simp [released]
  obtain ⟨allocated, owned, current, settled, valid⟩ := owns
  constructor
  · rwa [same]
  · rwa [same, same']
  · rwa [same, same']
  · rwa [same, same']
  · apply valid.snoc
    exact nofun

/-- Without a handle, the owner may acquire the next one. -/
theorem Owns.acquire (owns : Owns log none fresh) :
    Owns (log ++ [.acquire attempt (some fresh)]) (some fresh) (fresh + 1) := by
  have grown : acquired (log ++ [.acquire attempt (some fresh)]) = acquired log ++ [fresh] := by
    simp [acquired]
  have same : released (log ++ [.acquire attempt (some fresh)]) = released log := by
    simp [released]
  obtain ⟨allocated, owned, -, settled, valid⟩ := owns
  have unknown : fresh ∉ acquired log := by
    intro member
    have below := allocated fresh member
    omega
  constructor
  · intro h member
    rw [grown] at member
    rcases List.mem_append.mp member with old | new
    · have below := allocated h old
      omega
    · have here := List.mem_singleton.mp new
      omega
  · intro h member
    rw [same] at member
    rw [grown]
    exact List.mem_append_left _ (owned h member)
  · intro h held
    obtain rfl := Option.some.inj held
    rw [grown, same]
    exact ⟨List.mem_append_right _ (List.mem_singleton_self _), fun member => unknown (owned _ member)⟩
  · intro h member
    rw [grown] at member
    rw [same]
    rcases List.mem_append.mp member with old | new
    · right
      exact (settled h old).resolve_left nofun
    · left
      rw [List.mem_singleton.mp new]
  · apply valid.snoc
    exact nofun

/-- The owner releases what it holds. -/
theorem Owns.release (owns : Owns log (some h) fresh) : Owns (log ++ [.release h]) none fresh := by
  have same : acquired (log ++ [.release h]) = acquired log := by
    simp [acquired]
  have grown : released (log ++ [.release h]) = released log ++ [h] := by
    simp [released]
  obtain ⟨allocated, owned, current, settled, valid⟩ := owns
  obtain ⟨own, kept⟩ := current h rfl
  constructor
  · rwa [same]
  · intro other member
    rw [grown] at member
    rw [same]
    rcases List.mem_append.mp member with old | new
    · exact owned other old
    · rwa [List.mem_singleton.mp new]
  · exact nofun
  · intro other member
    rw [same] at member
    right
    rw [grown, List.count_append]
    by_cases here : h = other
    · subst here
      rw [List.count_eq_zero_of_not_mem kept]
      simp
    · have once := (settled other member).resolve_left fun held => here (Option.some.inj held)
      rw [once, List.count_singleton]
      simp [here]
  · apply valid.snoc
    exact nofun

/-- The owner uses what it holds. -/
theorem Owns.use (owns : Owns log (some h) fresh) :
    Owns (log ++ [.use (some h) op]) (some h) fresh := by
  have same : acquired (log ++ [.use (some h) op]) = acquired log := by
    simp [acquired]
  have same' : released (log ++ [.use (some h) op]) = released log := by
    simp [released]
  obtain ⟨allocated, owned, current, settled, valid⟩ := owns
  constructor
  · rwa [same]
  · rwa [same, same']
  · rwa [same, same']
  · rwa [same, same']
  · apply valid.snoc
    intro handle op' here
    obtain ⟨rfl, -⟩ := Action.use.inj here
    exact ⟨h, rfl, current h rfl⟩

/-- A handle that has been acquired is held and not released, or has been released once. -/
theorem Owns.held_or_released (owns : Owns log held fresh) (member : h ∈ acquired log) :
    (held = some h ∧ (released log).count h = 0) ∨ (held ≠ some h ∧ (released log).count h = 1) := by
  by_cases here : held = some h
  · left
    exact ⟨here, List.count_eq_zero_of_not_mem (owns.current h here).2⟩
  · right
    exact ⟨here, (owns.settled h member).resolve_left here⟩

end Resource
