import FlightProxy.L1.Roomy
import FlightProxy.Transition.Path

/-! # The size of L1, and the branch that evicts

One insertion evicts one entry at most. So it keeps a list within `l1_max_size_` if it is within
already, but does not bring it back there; and it evicts from an empty list if the size is zero.
-/

namespace FlightProxy.L1

open Recency Transition

/-- A section under the unique lock. A call of getL1 or putL1 runs its section if it has found
`l1_enabled_` set, at any time before, and nothing otherwise. -/
inductive Block
  | putL1 (query result : Bytes)
  | getL1 (query : Bytes)
  | clear
  | setL1Enabled (enabled : Bool)
  | setL1MaxSize (max_size : ℕ)
deriving DecidableEq, Repr

def step? (s : L1) : Block → Option L1
  | .putL1 query result => some (s.putL1_unique query result)
  | .getL1 query => some (s.getL1_unique query).2
  | .clear => some s.clear
  | .setL1Enabled enabled => some (s.setL1Enabled enabled)
  | .setL1MaxSize max_size => some (s.setL1MaxSize max_size)

/-- The entries do not exceed the maximum. -/
def Bounded (s : L1) : Prop := s.l1_list_.length ≤ s.l1_max_size_

instance (s : L1) : Decidable s.Bounded := Nat.decLe _ _

/-- The maximum is never set to zero. -/
def Positive (_ : L1) : Block → Prop
  | .setL1MaxSize max_size => 1 ≤ max_size
  | _ => True

/-- The maximum is set to one that the entries do not exceed. -/
def Spacious (s : L1) : Block → Prop
  | .setL1MaxSize max_size => 1 ≤ max_size ∧ s.l1_list_.length ≤ max_size
  | _ => True

variable {s s' : L1} {b : Block} {bs : List Block} {query result : Bytes} {list : List (ℕ × LRUNode)}
  {it : ℕ}

theorem length_splice : (splice list it).length = list.length := by
  have both := List.length_eq_length_filter_add (l := list) fun node => decide (node.1 = it)
  rw [splice, List.length_append, Nat.add_comm]
  simpa using both.symm

theorem length_assign : (assign list it result).length = list.length := List.length_map _

theorem length_evict : s.evict.l1_list_.length = s.l1_list_.length - 1 := by
  rw [evict]
  split
  · next empty => rw [empty, List.length_nil]
  · next oldest rest full => rw [full, List.length_cons, Nat.add_sub_cancel]

/-- A new entry goes in the place of the oldest when the list is full. -/
theorem length_putL1_unique : (s.putL1_unique query result).l1_list_.length =
    if (s.l1_map_ query).isSome then s.l1_list_.length
    else if s.l1_max_size_ ≤ s.l1_list_.length then s.l1_list_.length - 1 + 1
    else s.l1_list_.length + 1 := by
  unfold putL1_unique
  split
  · next it mapped => simp [mapped, length_splice, length_assign]
  · next unmapped =>
    simp only [unmapped, Option.isSome_none, Bool.false_eq_true, ↓reduceIte, push_back,
      List.length_append, List.length_singleton]
    split_ifs
    · rw [length_evict]
    · rfl

/-- An insertion leaves the entries within the maximum exactly when they were before. -/
theorem bounded_putL1_unique_iff (positive : 1 ≤ s.l1_max_size_) :
    (s.putL1_unique query result).Bounded ↔ s.Bounded := by
  rw [Bounded, Bounded, putL1_unique_l1_max_size_, length_putL1_unique]
  split_ifs
  · rfl
  · omega
  · omega

theorem length_getL1_unique : (s.getL1_unique query).2.l1_list_.length = s.l1_list_.length := by
  rw [getL1_unique]
  split
  · rfl
  · exact length_splice

theorem positive_step (positive : 1 ≤ s.l1_max_size_) (allowed : s.Positive b)
    (taken : s.step? b = some s') : 1 ≤ s'.l1_max_size_ := by
  cases b with
  | putL1 query result =>
    obtain rfl := Option.some.inj taken
    rwa [putL1_unique_l1_max_size_]
  | getL1 query =>
    obtain rfl := Option.some.inj taken
    rwa [getL1_unique_l1_max_size_]
  | clear =>
    obtain rfl := Option.some.inj taken
    exact positive
  | setL1Enabled enabled =>
    obtain rfl := Option.some.inj taken
    cases enabled <;> exact positive
  | setL1MaxSize max_size =>
    obtain rfl := Option.some.inj taken
    exact allowed

theorem positive_of_spacious (spacious : s.Spacious b) : s.Positive b := by
  cases b with
  | setL1MaxSize max_size => exact spacious.1
  | _ => trivial

theorem Bounded.step (bounded : s.Bounded) (positive : 1 ≤ s.l1_max_size_) (spacious : s.Spacious b)
    (taken : s.step? b = some s') : s'.Bounded := by
  cases b with
  | putL1 query result =>
    obtain rfl := Option.some.inj taken
    exact (bounded_putL1_unique_iff positive).mpr bounded
  | getL1 query =>
    obtain rfl := Option.some.inj taken
    rw [Bounded, length_getL1_unique, getL1_unique_l1_max_size_]
    exact bounded
  | clear =>
    obtain rfl := Option.some.inj taken
    exact Nat.zero_le _
  | setL1Enabled enabled =>
    obtain rfl := Option.some.inj taken
    cases enabled with
    | true => exact bounded
    | false => exact Nat.zero_le _
  | setL1MaxSize max_size =>
    obtain rfl := Option.some.inj taken
    exact spacious.2

/-- A putL1 leaves the entries within the maximum exactly when they were before; and they always are
when the maximum is never set below the number of entries. -/
theorem bounded_of_spacious (run : Path step? Positive {} bs s) :
    (∀ query result, (s.putL1 query result).Bounded ↔ s.Bounded) ∧
      (Path step? Spacious {} bs s → s.Bounded) := by
  have positive : 1 ≤ s.l1_max_size_ := by
    apply run.preserves (I := fun s => 1 ≤ s.l1_max_size_) (by decide)
    intro s b s' positive allowed taken
    exact positive_step positive allowed taken
  constructor
  · intro query result
    rw [L1.putL1]
    split_ifs
    · exact bounded_putL1_unique_iff positive
    · rfl
  · intro run
    have kept : 1 ≤ s.l1_max_size_ ∧ s.Bounded := by
      apply run.preserves (I := fun s => 1 ≤ s.l1_max_size_ ∧ s.Bounded) ⟨by decide, Nat.zero_le _⟩
      rintro s b s' ⟨positive, bounded⟩ spacious taken
      exact ⟨positive_step positive (positive_of_spacious spacious) taken,
        bounded.step positive spacious taken⟩
    exact kept.2

/-- The maximum is lowered to one while there are two entries. -/
def lowered : List Block :=
  [.setL1MaxSize 2, .putL1 [0x61] [0x01], .putL1 [0x62] [0x02], .setL1MaxSize 1]

/-- A putL1 after `lowered` leaves two entries. -/
theorem not_bounded : ¬ ∀ (bs : List Block) (s : L1) (query result : Bytes),
    Path step? Positive {} bs s → (s.putL1 query result).Bounded := by
  intro bounded
  have run : ∃ s : L1, Path step? Positive {} lowered s ∧
      ¬ (s.putL1 [0x63] [0x03]).Bounded := by
    refine ⟨_, .cons (Nat.le_of_ble_eq_true rfl) rfl (.cons trivial rfl (.cons trivial rfl
      (.cons (Nat.le_refl 1) rfl (.nil _)))), ?_⟩
    decide +kernel
  obtain ⟨s, path, exceeds⟩ := run
  exact exceeds (bounded _ s _ _ path)

/-- The maximum is lowered to one while there is one entry, and holds. -/
theorem bounded_of_spacious_run : ∃ s : L1, s.l1_max_size_ = 1 ∧ s.Bounded ∧
    (s.putL1 [0x63] [0x03]).Bounded := by
  have run : ∃ s : L1, Path step? Positive {} [.putL1 [0x61] [0x01], .setL1MaxSize 1] s ∧
      Path step? Spacious {} [.putL1 [0x61] [0x01], .setL1MaxSize 1] s ∧ s.l1_max_size_ = 1 :=
    ⟨_, .cons trivial rfl (.cons (Nat.le_refl 1) rfl (.nil _)),
      .cons trivial rfl (.cons ⟨Nat.le_refl 1, by decide +kernel⟩ rfl (.nil _)), rfl⟩
  obtain ⟨s, path, spacious, size⟩ := run
  obtain ⟨kept, bounded⟩ := bounded_of_spacious path
  exact ⟨s, size, bounded spacious, (kept _ _).mpr (bounded spacious)⟩

/-! ## The front node -/

/-- putL1 takes the branch that evicts. -/
def Evicts (s : L1) (query : Bytes) : Prop :=
  s.l1_map_ query = none ∧ s.l1_max_size_ ≤ s.l1_list_.length

/-- A putL1 that finds no entries finds a maximum other than zero. -/
def Admits (s : L1) : Block → Prop
  | .putL1 _ _ => s.l1_list_ = [] → 1 ≤ s.l1_max_size_
  | _ => True

theorem Linked.of_list (linked : s.Linked) (list : s'.l1_list_ = s.l1_list_)
    (map : s'.l1_map_ = s.l1_map_) (fresh : s'.fresh = s.fresh) : s'.Linked := by
  obtain ⟨iterators, allocated, entry⟩ := linked
  rw [← list] at iterators allocated
  rw [← fresh] at allocated
  refine ⟨iterators, allocated, fun {key it} => ?_⟩
  rw [map, list]
  exact entry

theorem Linked.step (linked : s.Linked) (taken : s.step? b = some s') : s'.Linked := by
  cases b with
  | putL1 query result =>
    obtain rfl := Option.some.inj taken
    exact (putL1_unique_spec linked query result).2
  | getL1 query =>
    obtain rfl := Option.some.inj taken
    exact (getL1_unique_spec linked query).2.2
  | clear =>
    obtain rfl := Option.some.inj taken
    exact linked_clear
  | setL1Enabled enabled =>
    obtain rfl := Option.some.inj taken
    cases enabled with
    | true => exact linked.of_list rfl rfl rfl
    | false => exact linked_clear.of_list rfl rfl rfl
  | setL1MaxSize max_size =>
    obtain rfl := Option.some.inj taken
    exact linked.of_list rfl rfl rfl

/-- A cache without entries maps no key. -/
theorem Linked.unmapped (linked : s.Linked) (empty : s.l1_list_ = []) : s.l1_map_ query = none := by
  rw [Option.eq_none_iff_forall_ne_some]
  intro it mapped
  obtain ⟨node, member, -⟩ := linked.entry.mp mapped
  rw [empty] at member
  exact List.not_mem_nil member

/-- The front node that evict reads is there exactly when the maximum admits the insertion. -/
theorem Linked.front_iff (linked : s.Linked) (query result : Bytes) :
    (s.Evicts query → ∃ oldest rest, s.l1_list_ = oldest :: rest ∧
      s.l1_map_ oldest.2.key = some oldest.1) ↔ s.Admits (.putL1 query result) := by
  constructor
  · intro front empty
    by_contra zero
    obtain ⟨oldest, rest, full, -⟩ := front ⟨linked.unmapped empty, by omega⟩
    rw [empty] at full
    contradiction
  · rintro admits ⟨-, full⟩
    cases list : s.l1_list_ with
    | nil =>
      have positive := admits list
      rw [list, List.length_nil] at full
      omega
    | cons oldest rest =>
      refine ⟨oldest, rest, rfl, linked.entry.mpr ⟨oldest.2, ?_, rfl⟩⟩
      rw [list]
      exact List.mem_cons_self

/-- While no insertion finds an empty list and a maximum of zero, the keys of the list are distinct
and the map has exactly these, each with its node; and an insertion evicts a node that is there, unless
it is itself such an insertion. -/
theorem linked_of_admits (run : Path step? Admits {} bs s) :
    (s.l1_list_.map fun node => node.2.key).Nodup ∧ (s.l1_list_.map Prod.fst).Nodup ∧
      (∀ key it, s.l1_map_ key = some it ↔ ∃ node, (it, node) ∈ s.l1_list_ ∧ node.key = key) ∧
      ∀ query result, (s.Evicts query → ∃ oldest rest, s.l1_list_ = oldest :: rest ∧
        s.l1_map_ oldest.2.key = some oldest.1) ↔ s.Admits (.putL1 query result) := by
  have linked : s.Linked := run.preserves (linked_empty 1000 true)
    fun _ _ _ linked _ taken => linked.step taken
  have keys := linked.keys_nodup
  rw [contents, List.map_map] at keys
  exact ⟨keys, linked.iterators, fun key it => linked.entry, linked.front_iff⟩

/-- With a maximum of zero the first insertion evicts from an empty list. -/
theorem not_front : ¬ ∀ (bs : List Block) (s : L1) (query : Bytes), Path step? always {} bs s →
    s.Evicts query → s.l1_list_ ≠ [] := by
  intro front
  have run : ∃ s : L1, Path step? always {} [.setL1MaxSize 0] s ∧ s.Evicts [0x61] ∧
      s.l1_list_ = [] := ⟨_, .cons trivial rfl (.nil _), ⟨rfl, Nat.le_refl 0⟩, rfl⟩
  obtain ⟨s, path, evicts, empty⟩ := run
  exact front _ s _ path evicts empty

/-- With a maximum of zero, set while there is an entry, an insertion evicts that entry. -/
theorem linked_of_admits_run : ∃ s : L1, s.l1_max_size_ = 0 ∧ ∃ oldest rest,
    s.l1_list_ = oldest :: rest ∧ s.l1_map_ oldest.2.key = some oldest.1 := by
  have run : ∃ s : L1, Path step? Admits {} [.putL1 [0x61] [0x01], .setL1MaxSize 0] s ∧
      s.l1_max_size_ = 0 ∧ s.Evicts [0x62] ∧ s.l1_list_ ≠ [] := by
    refine ⟨_, .cons (fun _ => Nat.le_of_ble_eq_true rfl) rfl (.cons trivial rfl (.nil _)), rfl,
      ⟨rfl, Nat.zero_le _⟩, nofun⟩
  obtain ⟨s, path, size, evicts, full⟩ := run
  obtain ⟨-, -, -, front⟩ := linked_of_admits path
  exact ⟨s, size, (front [0x62] []).mpr (fun empty => absurd empty full) evicts⟩

end FlightProxy.L1
