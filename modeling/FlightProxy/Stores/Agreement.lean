import FlightProxy.Stores.Steps

/-! # When L1 and L2 agree

put writes the two stores in two sections and get copies from one to the other, so two puts, or a
put and a get, can cross and leave different values. Here is what every run of get and put without
such a crossing keeps: what L1 binds, Redis holds, or an unfinished put is still to write there.
-/

namespace FlightProxy.Stores

open Recency Transition
open QueryCache (hash_query)
open scoped List

variable {Call : Type*} [DecidableEq Call]

namespace State

/-- The call has no step left to take, or has not started. -/
def Quiet (s : State Call) : Prop :=
  ∀ c, s.point c = .idle ∨ (∃ query found, s.point c = .got query found) ∨
    ∃ query result, s.point c = .stored query result

/-- A put with this key and result has written L1 and not yet L2. -/
def Pushes (md5 : Bytes → Bytes) (s : State Call) (key value : Bytes) : Prop :=
  ∃ c query, s.point c = .pushing query value ∧ hash_query md5 query = key

/-- A get has read this value for the key from L2 and not yet copied it to L1. -/
def Copies (md5 : Bytes → Bytes) (s : State Call) (key value : Bytes) : Prop :=
  ∃ c query, s.point c = .fetched query value ∧ hash_query md5 query = key

/-- A step of get or put at which no two calls cross. A put writes L2 only if no other value for the
key is on its way from L2 to L1, and L1 has no other value that no put is still to write to L2; a
get copies to L1 only if no put is still to write another value to L2. -/
def Uncrossed (md5 : Bytes → Bytes) (s : State Call) : Event Call → Prop
  | .putL2 c => ∀ query result, s.point c = .pushing query result →
      (∀ value, s.Copies md5 (hash_query md5 query) value → value = result) ∧
        ∀ value, s.binds (hash_query md5 query) = some value → value ≠ result →
          s.Pushes md5 (hash_query md5 query) value
  | .promote c => ∀ query value, s.point c = .fetched query value →
      ∀ result, s.Pushes md5 (hash_query md5 query) result → result = value
  | .clear _ | .flushdb _ | .reset _ => False
  | .getL1_shared _ _ | .getL1_unique _ | .getL2 _ | .putL1 _ _ _ => True

/-- The step copies a value to L1 where another one is bound. -/
def Overwrites (md5 : Bytes → Bytes) (s : State Call) (e : Event Call) : Prop :=
  ∃ c query value newer, e = .promote c ∧ s.point c = .fetched query value ∧
    s.binds (hash_query md5 query) = some newer ∧ newer ≠ value

/-- The put returned with this result, and every put of the key that started since has yet to write
L2. -/
def LastStored (md5 : Bytes → Bytes) (es : List (Event Call)) (s : State Call) (key value : Bytes)
    (c : Call) : Prop :=
  (∃ query, s.point c = .stored query value ∧ hash_query md5 query = key) ∧
    ∀ d query result, hash_query md5 query = key → [.putL2 c, .putL1 d query result] <+ es →
      s.point d = .pushing query result

variable {md5 : Bytes → Bytes} {es : List (Event Call)} {s s' : State Call} {e : Event Call}
  {key value : Bytes} {c d : Call}

/-- What a run without crossings keeps. -/
structure Level (md5 : Bytes → Bytes) (es : List (Event Call)) (s : State Call) : Prop where
  linked : s.store.l1.Linked
  enabled : s.store.redis_enabled_ = true
  bound : ∀ {key value}, s.binds key = some value → s.holds key = some value ∨ s.Pushes md5 key value
  copied : ∀ {key value}, s.Copies md5 key value → s.holds key = some value
  held : ∀ {key value}, s.holds key = some value → ∃ c, s.LastStored md5 es key value c
  past : ∀ {c}, .putL2 c ∈ es → ∃ query result, s.point c = .stored query result

omit [DecidableEq Call] in
theorem level_init (l1_max_size_ : ℕ) (l1_enabled_ : Bool) :
    Level md5 [] (init l1_max_size_ l1_enabled_ true : State Call) := by
  refine ⟨L1.linked_empty _ _, rfl, nofun, ?_, nofun, nofun⟩
  rintro key value ⟨c, query, fetched, -⟩
  contradiction

/-- A put goes on to write L2, or does so. -/
theorem Pushes.of_step (pushes : s.Pushes md5 key value) (linked : s.store.l1.Linked)
    (taken : s.step? md5 e = some s') : s'.Pushes md5 key value ∨
      ∃ c query, e = .putL2 c ∧ s.point c = .pushing query value ∧ hash_query md5 query = key := by
  obtain ⟨c, query, pushing, hashed⟩ := pushes
  rcases pushing_of_step linked taken pushing with pushing' | rfl
  · exact .inl ⟨c, query, pushing', hashed⟩
  · exact .inr ⟨c, query, rfl, pushing, hashed⟩

/-- A get that holds a value held it before, or has just read it. -/
theorem copies_of_step (linked : s.store.l1.Linked) (taken : s.step? md5 e = some s')
    (copies : s'.Copies md5 key value) : s.Copies md5 key value ∨
      s.holds key = some value ∧ ∃ c, e = .getL2 c := by
  obtain ⟨c, query, fetched, hashed⟩ := copies
  rcases point_of_step linked taken c with same | ⟨rfl, turn⟩
  · exact .inl ⟨c, query, same.symm.trans fetched, hashed⟩
  · rw [fetched] at turn
    cases turn with
    | fetched missed enabled held => exact .inr ⟨hashed ▸ held, _, rfl⟩

/-- What has been written to Redis stays the last until another put of the key writes there. -/
theorem LastStored.of_step (last : s.LastStored md5 es key value c) (linked : s.store.l1.Linked)
    (taken : s.step? md5 e = some s')
    (unwritten : ∀ d query result, e = .putL2 d → s.point d = .pushing query result →
      hash_query md5 query ≠ key) : s'.LastStored md5 (es ++ [e]) key value c := by
  obtain ⟨⟨query, stored, hashed⟩, later⟩ := last
  refine ⟨⟨query, stored_of_step linked taken stored, hashed⟩, ?_⟩
  intro d query' result hashed' pair
  rcases pair_snoc pair with before | ⟨-, rfl⟩
  · rcases pushing_of_step linked taken (later d query' result hashed' before) with same | rfl
    · exact same
    · exact absurd hashed' (unwritten d query' result rfl (later d query' result hashed' before))
  · obtain ⟨-, rfl⟩ := putL1_cases taken
    exact move_self ..

private theorem Level.past_step (level : s.Level md5 es) (taken : s.step? md5 e = some s')
    (member : .putL2 c ∈ es ++ [e]) : ∃ query result, s'.point c = .stored query result := by
  rcases List.mem_append.mp member with before | last
  · obtain ⟨query, result, stored⟩ := level.past before
    exact ⟨query, result, stored_of_step level.linked taken stored⟩
  · obtain rfl := List.mem_singleton.mp last
    obtain ⟨query, result, -, rfl⟩ := putL2_cases taken
    exact ⟨query, result, move_self ..⟩

/-- The putL2 of a put keeps the stores level if no other value of the key is around. -/
private theorem Level.putL2 (level : s.Level md5 es) (uncrossed : s.Uncrossed md5 (.putL2 c))
    (taken : s.step? md5 (.putL2 c) = some s') : s'.Level md5 (es ++ [.putL2 c]) := by
  have linked := level.linked
  obtain ⟨query, result, pushing, moved⟩ := putL2_cases taken
  obtain ⟨uncopied, unbound⟩ := uncrossed query result pushing
  have held' : ∀ key, s'.holds key = if key = hash_query md5 query then some result else s.holds key := by
    rcases holds_of_step taken with ⟨d, query', result', same, pushing', holds'⟩ | ⟨d, other, -⟩ |
      ⟨other, -⟩
    · obtain rfl := Event.putL2.inj same
      obtain ⟨rfl, rfl⟩ := Point.pushing.inj (pushing.symm.trans pushing')
      intro key
      simp only [holds', level.enabled, true_and]
    · contradiction
    · exact absurd rfl (other c)
  refine ⟨linked_of_step linked taken, ?_, ?_, ?_, ?_, level.past_step taken⟩
  · rw [redis_enabled_of_step taken, level.enabled]
  · intro key value bound
    have before : s.binds key = some value := by
      rcases binds_of_step linked taken bound with ⟨before, -⟩ | ⟨d, query', other, -⟩ | ⟨d, query', other, -⟩
      · exact before
      · contradiction
      · contradiction
    rw [held']
    split_ifs with same
    · by_cases equal : value = result
      · exact .inl (by rw [equal])
      · subst same
        rcases (unbound value before equal).of_step linked taken with pushes | ⟨d, query', same, here, -⟩
        · exact .inr pushes
        · obtain rfl := Event.putL2.inj same
          exact absurd (Point.pushing.inj (here.symm.trans pushing)).2 equal
    · rcases level.bound before with held | pushes
      · exact .inl held
      · rcases pushes.of_step linked taken with pushes' | ⟨d, query', same', here, hashed⟩
        · exact .inr pushes'
        · obtain rfl := Event.putL2.inj same'
          obtain ⟨rfl, -⟩ := Point.pushing.inj (here.symm.trans pushing)
          exact absurd hashed.symm same
  · intro key value copies
    rcases copies_of_step linked taken copies with before | ⟨-, d, other⟩
    · rw [held']
      split_ifs with same
      · rw [uncopied value (same ▸ before)]
      · exact level.copied before
    · contradiction
  · intro key value held
    rw [held'] at held
    split_ifs at held with same
    · obtain rfl := Option.some.inj held
      refine ⟨c, ⟨query, ?_, same.symm⟩, ?_⟩
      · rw [moved, move_self]
      · intro d query' result' _ pair
        rcases pair_snoc pair with before | ⟨-, other⟩
        · obtain ⟨_, _, stored⟩ := level.past (before.subset List.mem_cons_self)
          rw [pushing] at stored
          contradiction
        · contradiction
    · obtain ⟨d, last⟩ := level.held held
      refine ⟨d, last.of_step linked taken ?_⟩
      intro d' query' result' same' here hashed
      obtain rfl := Event.putL2.inj same'
      obtain ⟨rfl, -⟩ := Point.pushing.inj (here.symm.trans pushing)
      exact same hashed.symm

/-- A step that leaves Redis alone keeps the stores level. -/
private theorem Level.aside (level : s.Level md5 es) (taken : s.step? md5 e = some s')
    (aside : ∀ c, e ≠ .putL2 c) (same : s'.holds = s.holds) : s'.Level md5 (es ++ [e]) := by
  have linked := level.linked
  refine ⟨linked_of_step linked taken, ?_, ?_, ?_, ?_, level.past_step taken⟩
  · rw [redis_enabled_of_step taken, level.enabled]
  · intro key value bound
    rw [same]
    rcases binds_of_step linked taken bound with ⟨before, -⟩ | ⟨c, query, rfl, hashed⟩ |
      ⟨c, query, -, fetched, hashed⟩
    · rcases level.bound before with held | pushes
      · exact .inl held
      · rcases pushes.of_step linked taken with pushes' | ⟨c, query, here, -⟩
        · exact .inr pushes'
        · exact absurd here (aside c)
    · obtain ⟨-, rfl⟩ := putL1_cases taken
      exact .inr ⟨c, query, move_self .., hashed⟩
    · exact .inl (level.copied ⟨c, query, fetched, hashed⟩)
  · intro key value copies
    rw [same]
    rcases copies_of_step linked taken copies with before | ⟨held, -⟩
    · exact level.copied before
    · exact held
  · intro key value held
    rw [same] at held
    obtain ⟨c, last⟩ := level.held held
    refine ⟨c, last.of_step linked taken ?_⟩
    intro d query result here
    exact absurd here (aside d)

theorem Level.step (level : s.Level md5 es) (uncrossed : s.Uncrossed md5 e)
    (taken : s.step? md5 e = some s') : s'.Level md5 (es ++ [e]) := by
  rcases holds_of_step taken with ⟨c, query, result, rfl, -⟩ | ⟨c, rfl, -⟩ | ⟨aside, -, same⟩
  · exact level.putL2 uncrossed taken
  · exact uncrossed.elim
  · exact level.aside taken aside same

omit [DecidableEq Call] in
/-- A copy to L1 replaces no other value. -/
theorem Level.keeps (level : s.Level md5 es) (uncrossed : s.Uncrossed md5 e) : ¬ s.Overwrites md5 e := by
  rintro ⟨c, query, value, newer, rfl, fetched, bound, other⟩
  have held := level.copied ⟨c, query, fetched, rfl⟩
  rcases level.bound bound with held' | pushes
  · exact other (Option.some.inj (held'.symm.trans held))
  · exact other (uncrossed query value fetched newer pushes)

theorem level_of_uncrossed {l1_max_size_ : ℕ} {l1_enabled_ : Bool}
    (path : Path (step? md5) (Uncrossed md5) (init l1_max_size_ l1_enabled_ true) es s) :
    s.Level md5 es := by
  apply path.records (I := fun es s => s.Level md5 es) (level_init _ _)
  intro es s e s' level uncrossed taken
  exact level.step uncrossed taken

/-- Without a crossing no copy replaces another value, and when no call is in progress every value
of L1 is that of Redis, from a put after which no other put of the key has started. -/
theorem agree_of_uncrossed {l1_max_size_ : ℕ} {l1_enabled_ : Bool}
    (path : Path (step? md5) (Uncrossed md5) (init l1_max_size_ l1_enabled_ true) es s) :
    ¬ Takes (step? md5) (Uncrossed md5) (Overwrites md5) (init l1_max_size_ l1_enabled_ true) es s ∧
      (s.Quiet → ∀ key value, s.binds key = some value → s.holds key = some value ∧
        ∃ c query, s.point c = .stored query value ∧ hash_query md5 query = key ∧
          ∀ d query' result, hash_query md5 query' = key →
            ¬ [.putL2 c, .putL1 d query' result] <+ es) := by
  constructor
  · rintro ⟨first, e, second, mid, -, before, after, overwrites⟩
    exact (level_of_uncrossed before).keeps (Path.cons_iff.mp after).1 overwrites
  · intro quiet key value bound
    have pushing_not : ∀ c query result, s.point c ≠ .pushing query result := by
      intro c query result pushing
      rcases quiet c with here | ⟨_, _, here⟩ | ⟨_, _, here⟩
      · exact absurd (here.symm.trans pushing) nofun
      · exact absurd (here.symm.trans pushing) nofun
      · exact absurd (here.symm.trans pushing) nofun
    have held : s.holds key = some value := by
      rcases (level_of_uncrossed path).bound bound with held | ⟨c, query, pushing, -⟩
      · exact held
      · exact absurd pushing (pushing_not c query value)
    obtain ⟨c, ⟨query, stored, hashed⟩, later⟩ := (level_of_uncrossed path).held held
    refine ⟨held, c, query, stored, hashed, ?_⟩
    intro d query' result hashed' pair
    exact pushing_not d query' result (later d query' result hashed' pair)

/-- A put, and a get that finds its value in L1. -/
theorem agree_of_uncrossed_run : ∃ s : State (Fin 2),
    Path (step? id) (Uncrossed id) (init 1 true true)
      [.putL1 0 [1] [8], .putL2 0, .getL1_shared 1 [1], .getL1_unique 1] s ∧
      s.point 1 = .got [1] (some [8]) ∧ s.binds (hash_query id [1]) = some [8] ∧
        s.holds (hash_query id [1]) = some [8] := by
  have run : ∃ s : State (Fin 2), Path (step? id) (Uncrossed id) (init 1 true true)
      [.putL1 0 [1] [8], .putL2 0, .getL1_shared 1 [1], .getL1_unique 1] s ∧
      s.point 0 = .stored [1] [8] ∧ s.point 1 = .got [1] (some [8]) ∧
        s.binds (hash_query id [1]) = some [8] := by
    refine ⟨_, .cons trivial rfl (.cons ?_ rfl (.cons trivial rfl (.cons trivial rfl (.nil _)))),
      ?_, ?_, ?_⟩
    · intro query result pushing
      obtain ⟨rfl, rfl⟩ := Point.pushing.inj (show Point.pushing [1] [8] = _ from pushing)
      refine ⟨?_, fun value bound other => ?_⟩
      · rintro value ⟨c, query, fetched, -⟩
        match c with
        | 0 => contradiction
        | 1 => contradiction
      · exact absurd (Option.some.inj (bound.symm.trans (by decide +kernel))) other
    · decide +kernel
    · decide +kernel
    · decide +kernel
  obtain ⟨s, path, first, second, bound⟩ := run
  have quiet : s.Quiet := by
    intro c
    match c with
    | 0 => exact .inr (.inr ⟨_, _, first⟩)
    | 1 => exact .inr (.inl ⟨_, _, second⟩)
  exact ⟨s, path, second, bound, ((agree_of_uncrossed path).2 quiet _ _ bound).1⟩

/-- A get reads the value of one put from L2, another put runs, and then the get overwrites its
value in L1. -/
theorem not_agreeing : ¬ ∀ (es : List (Event (Fin 3))) (s : State (Fin 3)),
    Path (step? id) (fun _ e => ∀ c, e ≠ .clear c) (init 1000 true true) es s → s.Quiet →
      ∀ key value value', s.binds key = some value → s.holds key = some value' → value = value' := by
  intro agreeing
  have run : ∃ s : State (Fin 3), Path (step? id) (fun _ e => ∀ c, e ≠ .clear c) (init 1000 true true)
      [.getL1_shared 0 [1], .putL1 1 [1] [8], .putL2 1, .getL2 0, .putL1 2 [1] [9], .putL2 2,
        .promote 0] s ∧
      s.point 0 = .got [1] (some [8]) ∧ s.point 1 = .stored [1] [8] ∧ s.point 2 = .stored [1] [9] ∧
        s.binds (hash_query id [1]) = some [8] ∧ s.holds (hash_query id [1]) = some [9] := by
    refine ⟨_, .cons nofun rfl (.cons nofun rfl (.cons nofun rfl (.cons nofun rfl
      (.cons nofun rfl (.cons nofun rfl (.cons nofun rfl (.nil _))))))), ?_, ?_, ?_, ?_, ?_⟩
    · decide +kernel
    · decide +kernel
    · decide +kernel
    · decide +kernel
    · decide +kernel
  obtain ⟨s, path, first, second, third, bound, held⟩ := run
  have quiet : s.Quiet := by
    intro c
    match c with
    | 0 => exact .inr (.inl ⟨_, _, first⟩)
    | 1 => exact .inr (.inr ⟨_, _, second⟩)
    | 2 => exact .inr (.inr ⟨_, _, third⟩)
  have equal := agreeing _ s path quiet _ _ _ bound held
  contradiction

end State

end FlightProxy.Stores
