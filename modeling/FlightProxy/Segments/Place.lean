import Mathlib.Data.List.Sort
import Mathlib.Algebra.Ring.Nat

/-! # Pieces of a sequence and where they start

A sequence may be cut into pieces in several ways. `place` pairs every piece with its offset, and
two cuttings of one sequence are compared through these offsets. Pieces are of any type with a size,
so a cutting may consist of values that stand for what they occupy.
-/

namespace Segments

variable {α β : Type*} {size : β → ℕ} {pieces : List β} {piece other : β}
  {start offset at' : ℕ}

/-- Every piece with its offset, the first one at `start`. -/
def place (size : β → ℕ) : ℕ → List β → List (ℕ × β)
  | _, [] => []
  | start, piece :: rest => (start, piece) :: place size (start + size piece) rest

/-- The size of all pieces together. -/
def extent (size : β → ℕ) (pieces : List β) : ℕ := (pieces.map size).sum

theorem map_snd_place (size : β → ℕ) (start : ℕ) (pieces : List β) :
    (place size start pieces).map Prod.snd = pieces := by
  induction pieces generalizing start with
  | nil => rfl
  | cons piece rest ih => rw [place, List.map_cons, ih]

theorem place_append (left right : List β) :
    place size start (left ++ right) =
      place size start left ++ place size (start + extent size left) right := by
  induction left generalizing start with
  | nil => rfl
  | cons head rest ih =>
    simp only [List.cons_append, place, ih, extent, List.map_cons, List.sum_cons, Nat.add_assoc]

theorem le_of_mem_place (member : (offset, piece) ∈ place size start pieces) : start ≤ offset := by
  induction pieces generalizing start with
  | nil => contradiction
  | cons head rest ih =>
    rcases List.mem_cons.mp member with same | later
    · exact Nat.le_of_eq (Prod.mk.inj same).1.symm
    · exact Nat.le_trans (Nat.le_add_right _ _) (ih later)

theorem end_le_of_mem_place (member : (offset, piece) ∈ place size start pieces) :
    offset + size piece ≤ start + extent size pieces := by
  induction pieces generalizing start with
  | nil => contradiction
  | cons head rest ih =>
    simp only [extent, List.map_cons, List.sum_cons] at ih ⊢
    rcases List.mem_cons.mp member with same | later
    · obtain ⟨rfl, rfl⟩ := Prod.mk.inj same
      omega
    · have bound := ih later
      omega

/-- Every position of the sequence lies in a piece. -/
theorem exists_mem_place (size : β → ℕ) (pieces : List β) (at' : ℕ) (low : start ≤ at')
    (high : at' < start + extent size pieces) :
    ∃ offset piece, (offset, piece) ∈ place size start pieces ∧ offset ≤ at' ∧
      at' < offset + size piece := by
  induction pieces generalizing start with
  | nil =>
    simp only [extent, List.map_nil, List.sum_nil] at high
    omega
  | cons head rest ih =>
    have rest_high : start + size head + extent size rest = start + extent size (head :: rest) := by
      simp only [extent, List.map_cons, List.sum_cons, Nat.add_assoc]
    by_cases here : at' < start + size head
    · exact ⟨start, head, List.mem_cons_self, low, here⟩
    · obtain ⟨offset, piece, member, within⟩ := ih (Nat.not_lt.mp here) (by omega)
      exact ⟨offset, piece, List.mem_cons_of_mem _ member, within⟩

/-- Two pieces that share a position are the same piece. -/
theorem eq_of_mem_place (at' : ℕ) (left : (start, piece) ∈ place size offset pieces) {start' : ℕ}
    (right : (start', other) ∈ place size offset pieces) (low : start ≤ at')
    (high : at' < start + size piece) (low' : start' ≤ at') (high' : at' < start' + size other) :
    start = start' ∧ piece = other := by
  induction pieces generalizing offset with
  | nil => contradiction
  | cons head rest ih =>
    rcases List.mem_cons.mp left with same | later
    · rcases List.mem_cons.mp right with same' | later'
      · exact Prod.mk.inj (same.trans same'.symm)
      · obtain ⟨rfl, rfl⟩ := Prod.mk.inj same
        have bound := le_of_mem_place later'
        omega
    · rcases List.mem_cons.mp right with same' | later'
      · obtain ⟨rfl, rfl⟩ := Prod.mk.inj same'
        have bound := le_of_mem_place later
        omega
      · exact ih later later'

/-- What a piece occupies is the part of the sequence at its offset. -/
theorem take_drop_of_mem_place (content : β → List α)
    (sized : ∀ piece, size piece = (content piece).length)
    (member : (offset, piece) ∈ place size start pieces) (before : List α)
    (prefixed : before.length = start) :
    ((before ++ pieces.flatMap content).drop offset).take (size piece) = content piece := by
  induction pieces generalizing start before with
  | nil => contradiction
  | cons head rest ih =>
    rcases List.mem_cons.mp member with same | later
    · obtain ⟨rfl, rfl⟩ := Prod.mk.inj same
      rw [List.flatMap_cons, ← prefixed, List.drop_left, sized, List.take_left]
    · have step := ih later (before ++ content head) (by rw [List.length_append, prefixed, sized])
      rw [List.flatMap_cons, ← List.append_assoc]
      exact step

theorem extent_eq_length (content : β → List α)
    (sized : ∀ piece, size piece = (content piece).length) :
    extent size pieces = (pieces.flatMap content).length := by
  induction pieces with
  | nil => rfl
  | cons head rest ih =>
    rw [List.flatMap_cons, List.length_append, ← ih, ← sized]
    rfl

/-- With nonempty pieces the offsets increase. -/
theorem pairwise_place (positive : ∀ piece ∈ pieces, 0 < size piece) :
    (place size start pieces).Pairwise fun left right => left.1 < right.1 := by
  induction pieces generalizing start with
  | nil => exact .nil
  | cons head rest ih =>
    refine .cons ?_ (ih fun piece member => positive piece (List.mem_cons_of_mem _ member))
    intro entry member
    have bound := le_of_mem_place member
    have nonempty := positive head List.mem_cons_self
    simp only
    omega

/-- The elements at the positions of a set, from position `start` on. -/
def keep (kept : ℕ → Bool) : ℕ → List α → List α
  | _, [] => []
  | start, a :: rest =>
    if kept start then a :: keep kept (start + 1) rest else keep kept (start + 1) rest

theorem keep_append (kept : ℕ → Bool) (left right : List α) :
    keep kept start (left ++ right) = keep kept start left ++ keep kept (start + left.length) right := by
  induction left generalizing start with
  | nil => rfl
  | cons a rest ih =>
    simp only [List.cons_append, keep, ih, List.length_cons]
    rw [Nat.add_right_comm, Nat.add_assoc start]
    split_ifs <;> rfl

/-- A part that lies inside or outside the set is kept as a whole or not at all. -/
theorem keep_of_uniform {kept : ℕ → Bool} {decision : Bool} {part : List α}
    (uniform : ∀ position, start ≤ position → position < start + part.length →
      kept position = decision) : keep kept start part = if decision then part else [] := by
  induction part generalizing start with
  | nil => cases decision <;> rfl
  | cons a rest ih =>
    have here := uniform start (Nat.le_refl _) (by rw [List.length_cons]; omega)
    have later := @ih (start + 1) fun position low high =>
      uniform position (by omega) (by rw [List.length_cons]; omega)
    rw [keep, here, later]
    cases decision <;> rfl

/-- What a set keeps of a sequence is what it keeps of its pieces, each at its offset. -/
theorem keep_flatMap {content : β → List α} {kept : ℕ → Bool}
    (sized : ∀ piece, size piece = (content piece).length) :
    keep kept start (pieces.flatMap content) =
      (place size start pieces).flatMap fun entry => keep kept entry.1 (content entry.2) := by
  induction pieces generalizing start with
  | nil => rfl
  | cons head rest ih =>
    rw [List.flatMap_cons, keep_append, place, List.flatMap_cons, ← sized, ih]

/-- A set that goes up to a position inside a part keeps what comes before it. -/
theorem keep_of_prefix {kept : ℕ → Bool} {part : List α} {last : ℕ}
    (inside : ∀ position, start ≤ position → position < start + part.length → position < last →
      kept position = true)
    (outside : ∀ position, start ≤ position → last ≤ position → kept position = false) :
    keep kept start part = part.take (last - start) := by
  induction part generalizing start with
  | nil => simp [keep]
  | cons a rest ih =>
    have length : start + (a :: rest).length = start + 1 + rest.length := by
      rw [List.length_cons]
      omega
    rw [length] at inside
    by_cases before : start < last
    · have here := inside start (Nat.le_refl _) (by omega) before
      have later := @ih (start + 1) (fun position low high => inside position (by omega) high)
        fun position low => outside position (by omega)
      have more : last - start = last - (start + 1) + 1 := by omega
      rw [keep, if_pos here, later, more, List.take_succ_cons]
    · have none : keep kept start (a :: rest) = if false then a :: rest else [] :=
        keep_of_uniform fun position low _ => outside position low (by omega)
      rw [none, Nat.sub_eq_zero_of_le (Nat.le_of_not_lt before)]
      rfl

/-- What a partial reading of the pieces finds, with the offsets of the pieces it finds it in. -/
def select {γ : Type*} (read : β → Option γ) (placed : List (ℕ × β)) : List (ℕ × γ) :=
  placed.filterMap fun entry => (read entry.2).map fun value => (entry.1, value)

theorem mem_select {γ : Type*} {read : β → Option γ} {placed : List (ℕ × β)} {value : γ} :
    (offset, value) ∈ select read placed ↔
      ∃ piece, (offset, piece) ∈ placed ∧ read piece = some value := by
  simp only [select, List.mem_filterMap, Option.map_eq_some_iff, Prod.exists, Prod.mk.injEq]
  constructor
  · rintro ⟨_, piece, member, _, found, rfl, rfl⟩
    exact ⟨piece, member, found⟩
  · rintro ⟨piece, member, found⟩
    exact ⟨offset, piece, member, value, found, rfl, rfl⟩

theorem pairwise_select {γ : Type*} (read : β → Option γ)
    (positive : ∀ piece ∈ pieces, 0 < size piece) :
    (select read (place size start pieces)).Pairwise fun left right => left.1 < right.1 := by
  refine List.pairwise_filterMap.mpr ((pairwise_place positive).imp ?_)
  intro left right before entry found entry' found'
  obtain ⟨value, -, rfl⟩ := Option.map_eq_some_iff.mp found
  obtain ⟨value', -, rfl⟩ := Option.map_eq_some_iff.mp found'
  exact before

/-- Two readings of a sequence agree when each finds, at its offset, what the other finds. -/
theorem select_eq_iff {γ δ : Type*} {size' : δ → ℕ} {pieces' : List δ} {start' : ℕ}
    {read : β → Option γ} {read' : δ → Option γ}
    (positive : ∀ piece ∈ pieces, 0 < size piece)
    (positive' : ∀ piece ∈ pieces', 0 < size' piece) :
    select read (place size start pieces) = select read' (place size' start' pieces') ↔
      (∀ offset piece value, (offset, piece) ∈ place size start pieces → read piece = some value →
        ∃ piece', (offset, piece') ∈ place size' start' pieces' ∧ read' piece' = some value) ∧
      (∀ offset piece' value, (offset, piece') ∈ place size' start' pieces' →
        read' piece' = some value →
          ∃ piece, (offset, piece) ∈ place size start pieces ∧ read piece = some value) := by
  constructor
  · intro same
    refine ⟨?_, ?_⟩
    · intro offset piece value member found
      rw [← mem_select, ← same, mem_select]
      exact ⟨piece, member, found⟩
    · intro offset piece' value member found
      rw [← mem_select, same, mem_select]
      exact ⟨piece', member, found⟩
  · rintro ⟨forth, back⟩
    have irrefl : Std.Irrefl fun left right : ℕ × γ => left.1 < right.1 := ⟨fun _ => Nat.lt_irrefl _⟩
    have antisymm : Std.Antisymm fun left right : ℕ × γ => left.1 < right.1 :=
      ⟨fun _ _ before after => absurd before (Nat.lt_asymm after)⟩
    refine (pairwise_select read positive).eq_of_mem_iff (pairwise_select read' positive') ?_
    rintro ⟨offset, value⟩
    rw [mem_select, mem_select]
    constructor
    · rintro ⟨piece, member, found⟩
      exact forth offset piece value member found
    · rintro ⟨piece', member, found⟩
      exact back offset piece' value member found

/-- The values a reading finds do not depend on where the pieces are. -/
theorem map_snd_select {γ : Type*} (read : β → Option γ) :
    (select read (place size start pieces)).map Prod.snd = pieces.filterMap read := by
  induction pieces generalizing start with
  | nil => rfl
  | cons head rest ih =>
    rw [place, select, List.filterMap_cons, List.filterMap_cons]
    cases found : read head with
    | none => exact ih
    | some value => exact congrArg (value :: ·) ih

end Segments
