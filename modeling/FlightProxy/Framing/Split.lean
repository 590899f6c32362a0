import Mathlib.Data.List.Basic

/-! # Cutting a stream into frames

The length of a frame is read off the beginning of the stream, once enough of it is there. `frames`
cuts off frames as long as the next one is complete. Frames already cut do not change when the stream
grows.
-/

namespace Framing

variable {α : Type*} (size : List α → Option ℕ)

def split : ℕ → List α → List (List α)
  | 0, _ => []
  | fuel + 1, stream =>
    match size stream with
    | some n =>
      if 0 < n ∧ n ≤ stream.length then stream.take n :: split fuel (stream.drop n) else []
    | none => []

/-- The complete frames at the beginning of the stream. -/
def frames (stream : List α) : List (List α) := split size stream.length stream

/-- The length of a frame is known from a beginning of the stream, whatever follows. -/
def Stable : Prop := ∀ stream rest n, size stream = some n → size (stream ++ rest) = some n

variable {size} {stream rest : List α} {n fuel : ℕ}

/-- Every frame takes an element, so the length of the stream is fuel enough. -/
theorem split_succ (enough : stream.length ≤ fuel) :
    split size (fuel + 1) stream = split size fuel stream := by
  induction fuel generalizing stream with
  | zero =>
    obtain rfl := List.length_eq_zero_iff.mp (Nat.le_zero.mp enough)
    simp only [split]
    split
    · rw [if_neg]
      rw [List.length_nil]
      omega
    · rfl
  | succ fuel ih =>
    rw [split]
    conv_rhs => rw [split]
    split
    · next n known =>
      split_ifs with complete
      · rw [ih]
        rw [List.length_drop]
        omega
      · rfl
    · rfl

theorem split_eq (enough : stream.length ≤ fuel) : split size fuel stream = frames size stream := by
  obtain ⟨more, rfl⟩ := Nat.exists_eq_add_of_le enough
  clear enough
  induction more with
  | zero => rfl
  | succ more ih =>
    rw [← Nat.add_assoc, split_succ (Nat.le_add_right _ _), ih]

theorem frames_of_incomplete
    (incomplete : ∀ n, size stream = some n → 0 < n → stream.length < n) :
    frames size stream = [] := by
  rw [frames]
  cases stream.length with
  | zero => rfl
  | succ fuel =>
    rw [split]
    split
    · next n known =>
      rw [if_neg]
      rintro ⟨positive, complete⟩
      have short := incomplete n known positive
      omega
    · rfl

theorem frames_of_complete (known : size stream = some n) (positive : 0 < n)
    (complete : n ≤ stream.length) :
    frames size stream = stream.take n :: frames size (stream.drop n) := by
  have fuel : stream.length = (stream.length - 1) + 1 := by omega
  rw [frames, fuel, split, known]
  simp only
  rw [if_pos ⟨positive, complete⟩, split_eq]
  rw [List.length_drop]
  omega

variable (size) in
/-- The induction behind `frames`: either nothing more can be cut, or a frame comes first. -/
theorem frames_induction {motive : List α → Prop}
    (incomplete : ∀ stream, (∀ n, size stream = some n → 0 < n → stream.length < n) →
      motive stream)
    (complete : ∀ stream n, size stream = some n → 0 < n → n ≤ stream.length →
      motive (stream.drop n) → motive stream) (stream : List α) : motive stream := by
  induction length : stream.length using Nat.strongRecOn generalizing stream with
  | ind m ih =>
    by_cases next : ∃ n, size stream = some n ∧ 0 < n ∧ n ≤ stream.length
    · obtain ⟨n, known, positive, whole⟩ := next
      refine complete stream n known positive whole (ih _ ?_ _ rfl)
      rw [List.length_drop]
      omega
    · refine incomplete stream fun n known positive => ?_
      by_contra short
      exact next ⟨n, known, positive, Nat.not_lt.mp short⟩

/-- Frames already cut do not change when the stream grows. -/
theorem frames_prefix (stable : Stable size) : frames size stream <+: frames size (stream ++ rest) := by
  induction stream using frames_induction size with
  | incomplete stream incomplete =>
    rw [frames_of_incomplete incomplete]
    exact List.nil_prefix
  | complete stream n known positive complete ih =>
    rw [frames_of_complete known positive complete, frames_of_complete (stable stream rest n known)
      positive (by rw [List.length_append]; omega), List.take_append_of_le_length complete,
      List.drop_append_of_le_length complete]
    exact List.cons_prefix_cons.mpr ⟨rfl, ih⟩

end Framing
