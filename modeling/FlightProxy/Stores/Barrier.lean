import FlightProxy.Stores.Steps

/-! # When clear is a barrier

clear empties L1 and then Redis, so a get that has read a value from Redis can put it into L1 behind
the clear. Here is what every run keeps in which no get does: from the first block of clear on L1,
and from the second on Redis too, hold only values of puts that had not returned when it began.
-/

namespace FlightProxy.Stores

open Recency Transition
open QueryCache (hash_query)

variable {Call : Type*} [DecidableEq Call]

namespace State

/-- A put with this key and value that had not returned in `s₀` has written L1. -/
def Renewed (md5 : Bytes → Bytes) (s s₀ : State Call) (key value : Bytes) : Prop :=
  ∃ p query, hash_query md5 query = key ∧ s₀.point p ≠ .stored query value ∧
    (s.point p = .pushing query value ∨ s.point p = .stored query value)

/-- A step at which no get takes a value of Redis around the clear, unless a put has renewed it: no
copy to L1 between the two blocks, and no such copy under way at the second. -/
def Undodged (md5 : Bytes → Bytes) (c : Call) (s₀ s : State Call) : Event Call → Prop
  | .promote g => s.point c = .flushing → ∀ query value, s.point g = .fetched query value →
      s.Renewed md5 s₀ (hash_query md5 query) value
  | .flushdb d => d = c → ∀ g query value, s.point g = .fetched query value →
      s.Renewed md5 s₀ (hash_query md5 query) value
  | _ => True

variable {md5 : Bytes → Bytes} {s₀ s s' : State Call} {e : Event Call} {key value : Bytes}
  {c g : Call}

/-- What a run after the first block of the clear keeps. -/
structure Emptied (md5 : Bytes → Bytes) (c : Call) (s₀ s : State Call) : Prop where
  linked : s.store.l1.Linked
  began : s.point c = .flushing ∨ s.point c = .resetting ∨ s.point c = .cleared
  stored : ∀ {p query value}, s₀.point p = .stored query value → s.point p = .stored query value
  bound : ∀ {key value}, s.binds key = some value → s.Renewed md5 s₀ key value
  held : s.store.redis_enabled_ = true → s.point c ≠ .flushing →
    ∀ {key value}, s.holds key = some value → s.Renewed md5 s₀ key value
  fetched : s.point c ≠ .flushing → ∀ {g query value}, s.point g = .fetched query value →
    s.Renewed md5 s₀ (hash_query md5 query) value
  got : ∀ {g query value}, s.point g = .got query (some value) →
    s₀.point g = .got query (some value) ∨ s.Renewed md5 s₀ (hash_query md5 query) value

theorem Renewed.of_step (renewed : s.Renewed md5 s₀ key value) (linked : s.store.l1.Linked)
    (taken : s.step? md5 e = some s') : s'.Renewed md5 s₀ key value := by
  obtain ⟨p, query, hashed, new, pushing | stored⟩ := renewed
  · refine ⟨p, query, hashed, new, ?_⟩
    rcases pushing_of_step linked taken pushing with same | rfl
    · exact .inl same
    · obtain ⟨query', result', here, rfl⟩ := putL2_cases taken
      obtain ⟨rfl, rfl⟩ := Point.pushing.inj (pushing.symm.trans here)
      exact .inr (move_self ..)
  · exact ⟨p, query, hashed, new, .inr (stored_of_step linked taken stored)⟩

/-- The clear goes on from block to block. -/
private theorem clearing_of_step (linked : s.store.l1.Linked) (taken : s.step? md5 e = some s')
    (began : s.point c = .flushing ∨ s.point c = .resetting ∨ s.point c = .cleared) :
    (s'.point c = .flushing ∨ s'.point c = .resetting ∨ s'.point c = .cleared) ∧
      (s'.point c ≠ .flushing → s.point c ≠ .flushing ∨ e = .flushdb c) := by
  rcases point_of_step linked taken c with same | ⟨rfl, turn⟩
  · rw [same]
    exact ⟨began, .inl⟩
  · generalize s'.point e.call = next at turn
    cases turn with
    | resetting => exact ⟨.inr (.inl rfl), fun _ => .inr rfl⟩
    | cleared here => exact ⟨.inr (.inr rfl), fun _ => .inl (here ▸ nofun)⟩
    | present here | missed here | hit here | lost here | fetched here | absent here
    | promoted here | pushing here | stored here | flushing here =>
      rcases began with other | other | other
      · exact absurd (here.symm.trans other) nofun
      · exact absurd (here.symm.trans other) nofun
      · exact absurd (here.symm.trans other) nofun

omit [DecidableEq Call] in
/-- A put that starts now has not returned before. -/
private theorem Emptied.unstored (emptied : Emptied md5 c s₀ s) {p : Call} {query value : Bytes}
    (unstored : s.point p ≠ .stored query value) : s₀.point p ≠ .stored query value :=
  fun stored => unstored (emptied.stored stored)

theorem emptied_of_clear (linked : s₀.store.l1.Linked) (taken : s₀.step? md5 (.clear c) = some s) :
    Emptied md5 c s₀ s := by
  have linked' := linked_of_step linked taken
  have kept : ∀ {p query result}, s₀.point p = .stored query result →
      s.point p = .stored query result := fun stored => stored_of_step linked taken stored
  obtain ⟨idle, moved⟩ := clear_cases taken
  have flushing : s.point c = .flushing := by rw [moved, move_self]
  refine ⟨linked', .inl flushing, kept, ?_, ?_, ?_, ?_⟩
  · intro key value bound
    rw [moved] at bound
    contradiction
  · intro _ past
    exact absurd flushing past
  · intro past
    exact absurd flushing past
  · intro g query value got
    rcases point_of_step linked taken g with same | ⟨rfl, turn⟩
    · exact .inl (same.symm.trans got)
    · rw [got] at turn
      contradiction

theorem Emptied.step (emptied : Emptied md5 c s₀ s) (undodged : Undodged md5 c s₀ s e)
    (taken : s.step? md5 e = some s') : Emptied md5 c s₀ s' := by
  have linked := emptied.linked
  obtain ⟨began, past_of⟩ := clearing_of_step linked taken emptied.began
  refine ⟨linked_of_step linked taken, began, ?_, ?_, ?_, ?_, ?_⟩
  · intro p query value stored
    exact stored_of_step linked taken (emptied.stored stored)
  · intro key value bound
    rcases binds_of_step linked taken bound with ⟨before, -⟩ | ⟨p, query, rfl, hashed⟩ |
      ⟨g, query, rfl, fetched, rfl⟩
    · exact (emptied.bound before).of_step linked taken
    · obtain ⟨idle, rfl⟩ := putL1_cases taken
      exact ⟨p, query, hashed, emptied.unstored (idle ▸ nofun), .inl (move_self ..)⟩
    · apply Renewed.of_step _ linked taken
      by_cases flushing : s.point c = .flushing
      · exact undodged flushing query value fetched
      · exact emptied.fetched flushing fetched
  · intro enabled past key value held
    rw [redis_enabled_of_step taken] at enabled
    rcases holds_of_step taken with ⟨p, query, result, rfl, pushing, holds⟩ | ⟨d, rfl, holds⟩ |
      ⟨-, aside, same⟩
    · rw [holds] at held
      split_ifs at held with here
      · obtain rfl := Option.some.inj held
        obtain ⟨query', result', pushing', rfl⟩ := putL2_cases taken
        obtain ⟨rfl, rfl⟩ := Point.pushing.inj (pushing.symm.trans pushing')
        exact ⟨p, query, here.2.symm, emptied.unstored (pushing ▸ nofun), .inr (move_self ..)⟩
      · rcases past_of past with before | other
        · exact (emptied.held enabled before held).of_step linked taken
        · contradiction
    · rw [holds, if_pos enabled] at held
      contradiction
    · rw [same] at held
      rcases past_of past with before | here
      · exact (emptied.held enabled before held).of_step linked taken
      · exact absurd here (aside c)
  · intro past g query value fetched
    rcases point_of_step linked taken g with same | ⟨rfl, turn⟩
    · rw [same] at fetched
      rcases past_of past with before | rfl
      · exact (emptied.fetched before fetched).of_step linked taken
      · exact (undodged rfl g query value fetched).of_step linked taken
    · rw [fetched] at turn
      cases turn with
      | fetched missed enabled held =>
        rcases past_of past with before | other
        · exact (emptied.held enabled before held).of_step linked taken
        · contradiction
  · intro g query value got
    rcases point_of_step linked taken g with same | ⟨rfl, turn⟩
    · rw [same] at got
      rcases emptied.got got with before | renewed
      · exact .inl before
      · exact .inr (renewed.of_step linked taken)
    · rw [got] at turn
      cases turn with
      | hit present bound => exact .inr ((emptied.bound bound).of_step linked taken)
      | promoted fetched =>
        right
        apply Renewed.of_step _ linked taken
        by_cases flushing : s.point c = .flushing
        · exact undodged flushing query value fetched
        · exact emptied.fetched flushing fetched

theorem linked_of_run {ok : State Call → Event Call → Prop} {es : List (Event Call)}
    {l1_max_size_ : ℕ} {l1_enabled_ redis_enabled_ : Bool}
    (path : Path (step? md5) ok (init l1_max_size_ l1_enabled_ redis_enabled_) es s) :
    s.store.l1.Linked := by
  apply path.preserves (I := fun s => s.store.l1.Linked) (L1.linked_empty _ _)
  intro s e s' linked _ taken
  exact linked_of_step linked taken

/-- In a run in which no value is taken around the clear, every get that returns after it began
returns a value of a put that had not returned by then. -/
theorem barrier_of_undodged {es₀ es : List (Event Call)} {s₁ t : State Call} {l1_max_size_ : ℕ}
    {l1_enabled_ redis_enabled_ : Bool}
    (before : Path (step? md5) always (init l1_max_size_ l1_enabled_ redis_enabled_) es₀ s₀)
    (began : s₀.step? md5 (.clear c) = some s₁) (path : Path (step? md5) (Undodged md5 c s₀) s₁ es t)
    {query : Bytes} (got : t.point g = .got query (some value))
    (later : s₀.point g ≠ .got query (some value)) : t.Renewed md5 s₀ (hash_query md5 query) value := by
  have emptied : Emptied md5 c s₀ t := by
    apply path.preserves (I := fun s => Emptied md5 c s₀ s) (emptied_of_clear (linked_of_run before) began)
    intro s e s' emptied undodged taken
    exact emptied.step undodged taken
  rcases emptied.got got with before | renewed
  · exact absurd before later
  · exact renewed

/-- A value is put, cleared and put again, and a get finds the new one. -/
theorem barrier_of_undodged_run : ∃ s₀ t : State (Fin 4),
    Path (step? id) always (init 1 true true) [.putL1 0 [1] [8], .putL2 0] s₀ ∧
      t.point 3 = .got [1] (some [8]) ∧ t.Renewed id s₀ (hash_query id [1]) [8] := by
  have run : ∃ s₀ s₁ t : State (Fin 4),
      Path (step? id) always (init 1 true true) [.putL1 0 [1] [8], .putL2 0] s₀ ∧
      s₀.step? id (.clear 1) = some s₁ ∧
      Path (step? id) (Undodged id 1 s₀) s₁
        [.flushdb 1, .reset 1, .putL1 2 [1] [8], .getL1_shared 3 [1], .getL1_unique 3] t ∧
      s₀.point 3 = .idle ∧ t.point 3 = .got [1] (some [8]) := by
    refine ⟨_, _, _, .cons trivial rfl (.cons trivial rfl (.nil _)), rfl, .cons ?_ rfl
      (.cons trivial rfl (.cons trivial rfl (.cons trivial rfl (.cons trivial rfl (.nil _))))), ?_, ?_⟩
    · intro _ g query value fetched
      match g with
      | 0 => contradiction
      | 1 => contradiction
      | 2 => contradiction
      | 3 => contradiction
    · decide +kernel
    · decide +kernel
  obtain ⟨s₀, s₁, t, before, began, path, idle, got⟩ := run
  exact ⟨s₀, t, before, got, barrier_of_undodged before began path got (idle ▸ nofun)⟩

/-- A get reads a value from L2 before the clear and copies it to L1 after, where a get that starts
after the clear finds it. -/
theorem not_barrier : ¬ ∀ (es₀ first second : List (Event (Fin 4))) (s₀ s₁ s₂ t : State (Fin 4))
    (c g : Fin 4) (query value : Bytes), Path (step? id) always (init 1000 true true) es₀ s₀ →
      s₀.step? id (.clear c) = some s₁ → Path (step? id) always s₁ first s₂ → s₂.point c = .cleared →
        Path (step? id) always s₂ second t → s₂.point g = .idle →
          t.point g = .got query (some value) → t.Renewed id s₀ (hash_query id query) value := by
  intro barrier
  have run : ∃ s₀ s₁ s₂ t : State (Fin 4),
      Path (step? id) always (init 1000 true true)
        [.getL1_shared 0 [1], .putL1 1 [1] [8], .putL2 1, .getL2 0] s₀ ∧
      s₀.step? id (.clear 2) = some s₁ ∧ Path (step? id) always s₁ [.flushdb 2, .reset 2] s₂ ∧
      Path (step? id) always s₂ [.promote 0, .getL1_shared 3 [1], .getL1_unique 3] t ∧
      s₂.point 2 = .cleared ∧ s₂.point 3 = .idle ∧ t.point 3 = .got [1] (some [8]) ∧
      s₀.point 1 = .stored [1] [8] ∧ t.point 1 = .stored [1] [8] ∧ t.point 0 = .got [1] (some [8]) ∧
        t.point 2 = .cleared := by
    refine ⟨_, _, _, _, replay_eq_some_iff.mp rfl, rfl, replay_eq_some_iff.mp rfl,
      replay_eq_some_iff.mp rfl, ?_, ?_, ?_, ?_, ?_, ?_, ?_⟩
    · decide +kernel
    · decide +kernel
    · decide +kernel
    · decide +kernel
    · decide +kernel
    · decide +kernel
    · decide +kernel
  obtain ⟨s₀, s₁, s₂, t, before, began, cleared, path, finished, idle, got, stored, stored', first, last⟩ := run
  obtain ⟨p, query, -, new, put⟩ :=
    barrier _ _ _ s₀ s₁ s₂ t 2 3 _ _ before began cleared finished path idle got
  match p with
  | 0 => simp [first] at put
  | 1 =>
    rcases put with pushing | again
    · simp [stored'] at pushing
    · exact new (stored.trans (stored'.symm.trans again))
  | 2 => simp [last] at put
  | 3 => simp [got] at put

end State

end FlightProxy.Stores
