import FlightProxy.Main.Lifecycle

/-! # One accept at a time

The accept handler arms the next accept, so that one accept is armed, completed or being handled at
any time. A session that throws while it is made or started takes the accept with it: the acceptor stays
open and `accepting_` set, but no connection is accepted any more.
-/

namespace FlightProxy.Main

open Transition

/-- Where an accept can be. -/
inductive Place
  | armed
  | completed
  | main
  | worker (i : ℕ)
deriving DecidableEq, Repr

namespace State

/-- The server has no accept, or the only one is there. -/
structure Located (s : State) (x : Option Place) : Prop where
  armed : s.armed = if x = some .armed then 1 else 0
  completed : s.completed.length = if x = some .completed then 1 else 0
  main : (∃ p, s.main = .constructing p) ↔ x = some .main
  worker : ∀ i, (∃ p, s.worker i = .accepting p) ↔ x = some (.worker i)

/-- A session throws while it is made or started. -/
def Drops (s : State) (e : Event) : Prop := ∃ i, e = .throws i ∧ s.worker i = .accepting .starting

/-- The accept is not armed again, since `accepting_` is not set. -/
def Stops (s : State) (e : Event) : Prop :=
  s.accepting_ = false ∧ ∃ p, (p = .again ∨ p = .testing) ∧
    (e = .main ∧ s.main = .constructing p ∨ ∃ i, e = .worker i ∧ s.worker i = .accepting p)

variable {n : ℕ} {s s' t u : State} {e : Event} {p : AcceptPoint} {next : Option AcceptPoint}
  {es fs : List Event} {x y : Option Place} {z : Place} {i : ℕ}

theorem located_init : ({} : State).Located (some .main) where
  armed := rfl
  completed := rfl
  main := by simp
  worker i := by simp

theorem Located.unique (located : s.Located x) (other : s.Located y) : x = y := by
  cases x with
  | none =>
    cases y with
    | none => rfl
    | some z =>
      cases z with
      | armed => simpa using located.armed.symm.trans other.armed
      | completed => simpa using located.completed.symm.trans other.completed
      | main => exact located.main.mp (other.main.mpr rfl)
      | worker i => exact (located.worker i).mp ((other.worker i).mpr rfl)
  | some z =>
    cases z with
    | armed =>
      have same := located.armed.symm.trans other.armed
      by_contra distinct
      rw [if_pos rfl, if_neg (Ne.symm distinct)] at same
      contradiction
    | completed =>
      have same := located.completed.symm.trans other.completed
      by_contra distinct
      rw [if_pos rfl, if_neg (Ne.symm distinct)] at same
      contradiction
    | main => exact (other.main.mp (located.main.mpr rfl)).symm
    | worker i => exact ((other.worker i).mp ((located.worker i).mpr rfl)).symm

/-- A step that touches no accept. -/
theorem Located.kept (located : s.Located x) (armed : s'.armed = s.armed)
    (completed : s'.completed = s.completed)
    (main : ∀ p, s'.main = .constructing p ↔ s.main = .constructing p)
    (worker : ∀ i p, s'.worker i = .accepting p ↔ s.worker i = .accepting p) : s'.Located x where
  armed := armed.trans located.armed
  completed := (congrArg List.length completed).trans located.completed
  main := by
    rw [← located.main]
    exact exists_congr main
  worker i := by
    rw [← located.worker i]
    exact exists_congr (worker i)

/-- A statement of the accept handler keeps the accept where it is, arms it, completes it with an error,
or gives it up. -/
theorem Located.turned (located : s.Located (some z)) (s' : State) (running : z = .main ∨ ∃ i, z = .worker i)
    (turn : s.Turn p (u, next)) (armed : s'.armed = u.armed) (completed : s'.completed = u.completed)
    (main : (∃ p, s'.main = .constructing p) ↔ z = .main ∧ next ≠ none)
    (worker : ∀ i, (∃ p, s'.worker i = .accepting p) ↔ z = .worker i ∧ next ≠ none) :
    ∃ y, s'.Located y ∧ (y = none ↔ s.accepting_ = false ∧ (p = .again ∨ p = .testing)) := by
  have unarmed : s.armed = 0 := by
    rw [located.armed, if_neg]
    rcases running with rfl | ⟨i, rfl⟩ <;> simp
  have none_completed : s.completed = [] := by
    apply List.eq_nil_of_length_eq_zero
    rw [located.completed, if_neg]
    rcases running with rfl | ⟨i, rfl⟩ <;> simp
  have stays (armed' : u.armed = s.armed) (completed' : u.completed = s.completed)
      (goes : next ≠ none) : s'.Located (some z) := by
    refine ⟨?_, ?_, ?_, fun i => ?_⟩
    · rw [armed, armed', located.armed]
    · rw [completed, completed', located.completed]
    · simp [main, goes]
    · simp [worker i, goes]
  cases turn with
  | accepts | skips | starts => exact ⟨some z, stays rfl rfl (by simp), by simp⟩
  | again accepting | tests accepting =>
    exact ⟨some z, stays rfl rfl (by simp), by simp [accepting]⟩
  | stops p ends stopped =>
    refine ⟨none, ⟨?_, ?_, ?_, fun i => ?_⟩, iff_of_true rfl ⟨stopped, ends⟩⟩
    · simp [armed, unarmed]
    · simp [completed, none_completed]
    · simp [main]
    · simp [worker i]
  | arms =>
    refine ⟨some .armed, ⟨?_, ?_, ?_, fun i => ?_⟩, by simp⟩
    · simp [armed, unarmed]
    · simp [completed, none_completed]
    · simp [main]
    · simp [worker i]
  | aborts =>
    refine ⟨some .completed, ⟨?_, ?_, ?_, fun i => ?_⟩, by simp⟩
    · simp [armed, unarmed]
    · simp [completed, none_completed]
    · simp [main]
    · simp [worker i]

theorem Located.at_armed (located : s.Located x) (armed : 0 < s.armed) : x = some .armed := by
  by_contra elsewhere
  rw [located.armed, if_neg elsewhere] at armed
  contradiction

theorem Located.at_completed (located : s.Located x) (completed : s.completed ≠ []) :
    x = some .completed := by
  by_contra elsewhere
  have empty := located.completed
  rw [if_neg elsewhere] at empty
  exact completed (List.eq_nil_of_length_eq_zero empty)

theorem stops_main (here : s.main = .constructing p) :
    s.Stops .main ↔ s.accepting_ = false ∧ (p = .again ∨ p = .testing) := by
  simp [Stops, here]

theorem stops_worker (here : s.worker i = .accepting p) :
    s.Stops (.worker i) ↔ s.accepting_ = false ∧ (p = .again ∨ p = .testing) := by
  simp [Stops, here]

/-- The accept is where it was, or where the step has put it. -/
def Follows (s : State) (e : Event) (x : Option Place) (s' : State) : Prop :=
  ∃ y, s'.Located y ∧ (y = none ↔ x = none ∨ s.Drops e ∨ s.Stops e)

theorem Located.follows (located : s'.Located x) (drops : ¬ s.Drops e) (stops : ¬ s.Stops e) :
    s.Follows e x s' := by
  refine ⟨x, located, ?_⟩
  simp [drops, stops]

/-- A step of main. -/
theorem Located.mains (located : s.Located x) (sound : s.Sound n) (mains : s.Mains n s') :
    s.Follows .main x s' := by
  have drops : ¬ s.Drops .main := by simp [Drops]
  by_cases constructing : ∃ p, s.main = .constructing p
  · obtain rfl := located.main.mp constructing
    have idle : ∀ i p, s.worker i ≠ .accepting p := by
      intro i p here
      have other := (located.worker i).mp ⟨p, here⟩
      simp at other
    obtain ⟨p, here⟩ := constructing
    have turned {u : State} {next : Option AcceptPoint} {m : MainPoint} (turn : s.Turn p (u, next))
        (main : (∃ p, m = .constructing p) ↔ next ≠ none) : s.Follows .main (some .main) (s.touch u m) := by
      obtain ⟨y, located', gone⟩ := located.turned (s.touch u m) (.inl rfl) turn rfl rfl
        (by simpa [touch] using main) (fun i => by simp [touch, idle])
      refine ⟨y, located', ?_⟩
      rw [gone, stops_main here]
      simp [drops]
    cases mains with
    | goes here' turn =>
      obtain rfl := MainPoint.constructing.inj (here.symm.trans here')
      exact turned turn (by simp)
    | constructed here' turn =>
      obtain rfl := MainPoint.constructing.inj (here.symm.trans here')
      exact turned turn (by simp)
    | _ here' => simp [here] at here'
  · have stops : ¬ s.Stops .main := by
      rintro ⟨-, p, -, ⟨-, here⟩ | ⟨i, same, -⟩⟩
      · exact constructing ⟨p, here⟩
      · contradiction
    refine Located.follows ?_ drops stops
    have main := not_exists.mp constructing
    cases mains with
    | goes here | constructed here => exact absurd here (main _)
    | @spawns k here below =>
      refine located.kept rfl rfl ?_ ?_
      · simp [main]
      · intro i p
        have unborn := sound.unborn k (by rw [here]; exact Nat.le_refl k)
        by_cases other : i = k
        · subst other
          simp [move, unborn]
        · simp [move, other]
    | _ =>
      refine located.kept rfl rfl ?_ ?_
      · simp [main]
      · intro i p
        rfl

/-- A worker moves, outside the accept handler. -/
theorem Located.moved {q : WorkerPoint} (located : s.Located x)
    (before : ∀ p, s.worker i ≠ .accepting p) (after : ∀ p, q ≠ .accepting p) :
    (s.move i q).Located x := by
  refine located.kept rfl rfl (fun _ => Iff.rfl) ?_
  intro j p
  by_cases other : j = i
  · subst other
    simp [move, before, after]
  · simp [move, other]

/-- A statement of a worker. -/
theorem Located.next_worker (located : s.Located x) (taken : s.next_worker i = some s') :
    s.Follows (.worker i) x s' := by
  have drops : ¬ s.Drops (.worker i) := by simp [Drops]
  unfold State.next_worker at taken
  cases here : s.worker i with
  | accepting p =>
    simp only [here] at taken
    obtain rfl := (located.worker i).mp ⟨p, here⟩
    have main : ∀ p, s.main ≠ .constructing p := by
      intro p constructing
      have other := located.main.mp ⟨p, constructing⟩
      simp at other
    have idle : ∀ j, j ≠ i → ∀ p, s.worker j ≠ .accepting p := by
      intro j distinct p accepting
      have other := (located.worker j).mp ⟨p, accepting⟩
      simp only [Option.some.injEq, Place.worker.injEq] at other
      exact distinct other.symm
    have turn := s.turn_of_accept p
    have turned {u : State} {next : Option AcceptPoint} {q : WorkerPoint} (turn : s.Turn p (u, next))
        (goes : (∃ p, q = .accepting p) ↔ next ≠ none) :
        s.Follows (.worker i) (some (.worker i)) (u.move i q) := by
      have frame := turn.frame
      obtain ⟨y, located', gone⟩ := located.turned (u.move i q) (.inr ⟨i, rfl⟩) turn rfl rfl
        (by rw [frame]; simp [move, main]) (fun j => by
          rw [frame]
          by_cases other : j = i
          · subst other
            simpa [move] using goes
          · simp [move, other, Ne.symm other, idle j other])
      refine ⟨y, located', ?_⟩
      rw [gone, stops_worker here]
      simp [drops]
    cases went : s.accept p with
    | mk u next =>
      rw [went] at taken turn
      cases next with
      | none =>
        obtain rfl := Option.some.inj taken
        exact turned turn (by simp)
      | some q =>
        obtain rfl := Option.some.inj taken
        exact turned turn (by simp)
  | running =>
    simp only [here] at taken
    split_ifs at taken
    obtain rfl := Option.some.inj taken
    refine (located.moved (by simp [here]) (by simp)).follows drops ?_
    simp [Stops, here]
  | unborn | handling | ended => simp [here] at taken

/-- A worker takes the completed accept. -/
theorem Located.take (located : s.Located x) (taken : s.take i = some s') :
    s.Follows (.take i) x s' := by
  unfold State.take at taken
  split at taken
  · rename_i ec rest here completed
    split_ifs at taken
    obtain rfl := Option.some.inj taken
    obtain rfl := located.at_completed (by simp [completed])
    have last : rest = [] := by
      have one := located.completed
      rw [completed] at one
      simpa using one
    refine ⟨some (.worker i), ⟨?_, ?_, ?_, fun j => ?_⟩, by simp [Drops, Stops]⟩
    · have unarmed := located.armed
      simpa [move] using unarmed
    · simp [last, move]
    · have main := located.main
      simpa [move] using main
    · by_cases other : j = i
      · subst other
        simp [move]
      · have worker := located.worker j
        simp only [move, Function.update_of_ne other]
        rw [worker]
        simp [Ne.symm other]
  · contradiction

/-- The handler of a worker throws. -/
theorem Located.throws (located : s.Located x) (taken : s.throws i = some s') :
    s.Follows (.throws i) x s' := by
  obtain ⟨here, taken⟩ := Option.ite_none_right_eq_some.mp taken
  obtain rfl := Option.some.inj taken
  have stops : ¬ s.Stops (.throws i) := by simp [Stops]
  rcases here with here | here
  · refine (located.moved (by simp [here]) (by simp)).follows ?_ stops
    simp [Drops, here]
  · obtain rfl := (located.worker i).mp ⟨.starting, here⟩
    refine ⟨none, ⟨?_, ?_, ?_, fun j => ?_⟩, by simp [Drops, here]⟩
    · simpa [move] using located.armed
    · simpa [move] using located.completed
    · simpa [move] using located.main
    · by_cases other : j = i
      · subst other
        simp [move]
      · have worker := located.worker j
        simp only [move, Function.update_of_ne other]
        rw [worker]
        simp [Ne.symm other]

/-- The armed accept completes. -/
theorem Located.complete {ec : Bool} (located : s.Located x) (taken : s.complete ec = some s') :
    s.Follows (.complete ec) x s' := by
  obtain ⟨⟨armed, -⟩, taken⟩ := Option.ite_none_right_eq_some.mp taken
  obtain rfl := Option.some.inj taken
  obtain rfl := located.at_armed armed
  have one := located.armed
  have empty := located.completed
  refine ⟨some .completed, ⟨?_, ?_, ?_, fun j => ?_⟩, by simp [Drops, Stops]⟩
  · simp [one]
  · simpa using empty
  · simpa using located.main
  · simpa using located.worker j

theorem Located.of_step (located : s.Located x) (sound : s.Sound n) (taken : s.step? n e = some s') :
    s.Follows e x s' := by
  cases e with
  | main =>
    obtain ⟨-, taken⟩ := Option.ite_none_right_eq_some.mp taken
    exact located.mains sound (mains_of_next taken)
  | worker i =>
    obtain ⟨-, taken⟩ := Option.ite_none_right_eq_some.mp taken
    exact located.next_worker taken
  | take i =>
    obtain ⟨-, taken⟩ := Option.ite_none_right_eq_some.mp taken
    exact located.take taken
  | handle i k =>
    obtain ⟨-, taken⟩ := Option.ite_none_right_eq_some.mp taken
    obtain ⟨⟨here, -⟩, taken⟩ := Option.ite_none_right_eq_some.mp taken
    obtain rfl := Option.some.inj taken
    have same : { s with handlers := s.handlers - 1, operations := s.operations + k }.Located x :=
      located.kept rfl rfl (fun _ => Iff.rfl) (fun _ _ => Iff.rfl)
    exact (same.moved (by simp [here]) (by simp)).follows (by simp [Drops]) (by simp [Stops])
  | finish i =>
    obtain ⟨-, taken⟩ := Option.ite_none_right_eq_some.mp taken
    obtain ⟨here, taken⟩ := Option.ite_none_right_eq_some.mp taken
    obtain rfl := Option.some.inj taken
    exact (located.moved (by simp [here]) (by simp)).follows (by simp [Drops]) (by simp [Stops])
  | throws i =>
    obtain ⟨-, taken⟩ := Option.ite_none_right_eq_some.mp taken
    exact located.throws taken
  | complete ec => exact located.complete taken
  | ready =>
    obtain ⟨-, taken⟩ := Option.ite_none_right_eq_some.mp taken
    obtain rfl := Option.some.inj taken
    have located' : { s with operations := s.operations - 1, handlers := s.handlers + 1 }.Located x :=
      located.kept rfl rfl (fun _ => Iff.rfl) (fun _ _ => Iff.rfl)
    exact located'.follows (by simp [Drops]) (by simp [Stops])
  | signal t =>
    obtain ⟨-, taken⟩ := Option.ite_none_right_eq_some.mp taken
    obtain rfl := Option.some.inj taken
    have located' : (s.goes t (.checking :: s.frames t)).Located x :=
      located.kept rfl rfl (fun _ => Iff.rfl) (fun _ _ => Iff.rfl)
    exact located'.follows (by simp [Drops]) (by simp [Stops])
  | handler t =>
    have located' : s'.Located x := by
      cases handles_of_handler taken <;>
        exact located.kept rfl rfl (fun _ => Iff.rfl) (fun _ _ => Iff.rfl)
    exact located'.follows (by simp [Drops]) (by simp [Stops])

theorem located_of_run (run : Path (step? n) always {} es s) : ∃ x, s.Located x := by
  refine (run.preserves (I := fun s => (∃ x, s.Located x) ∧ s.Sound n)
    ⟨⟨_, located_init⟩, sound_init n⟩ ?_).1
  rintro s e s' ⟨⟨x, located⟩, sound⟩ - taken
  obtain ⟨y, next, -⟩ := located.of_step sound taken
  exact ⟨⟨y, next⟩, sound_of_step sound taken⟩

/-- `accepting_` is never set again. -/
theorem accepting_persists (taken : s.step? n e = some s') (closed : s.accepting_ = false) :
    s'.accepting_ = false := by
  cases acts : e.worker? with
  | some i =>
    obtain ⟨-, -, p, -, same⟩ := works_of_step taken acts
    rw [same]
    exact closed
  | none =>
    cases e with
    | main =>
      obtain ⟨-, taken⟩ := Option.ite_none_right_eq_some.mp taken
      cases mains_of_next taken with
      | stores => rfl
      | _ => exact closed
    | complete | ready | signal =>
      obtain ⟨-, taken⟩ := Option.ite_none_right_eq_some.mp taken
      obtain rfl := Option.some.inj taken
      exact closed
    | handler t =>
      cases handles_of_handler taken with
      | stores => rfl
      | _ => exact closed
    | worker | take | handle | finish | throws => simp [Event.worker?] at acts

/-- A worker is making or starting a session. -/
def Making (s : State) (i : ℕ) : Prop := s.worker i = .accepting .starting

/-- A worker comes to make a session only while `accepting_` is set. -/
theorem making_of_step (taken : s.step? n e = some s') (making : s'.Making i) :
    s.Making i ∨ s.accepting_ = true := by
  cases acts : e.worker? with
  | some j =>
    obtain ⟨-, -, p, leads, same⟩ := works_of_step taken acts
    rw [same] at making
    have making : Function.update s.worker j p i = .accepting .starting := making
    by_cases other : i = j
    · subst other
      rw [Function.update_self] at making
      subst making
      exact .inr leads
    · rw [Function.update_of_ne other] at making
      exact .inl making
  | none =>
    left
    cases e with
    | main =>
      obtain ⟨-, taken⟩ := Option.ite_none_right_eq_some.mp taken
      cases mains_of_next taken with
      | @spawns k =>
        have making : Function.update s.worker k .running i = .accepting .starting := making
        by_cases other : i = k
        · subst other
          rw [Function.update_self] at making
          contradiction
        · rwa [Function.update_of_ne other] at making
      | _ => exact making
    | complete | ready | signal =>
      obtain ⟨-, taken⟩ := Option.ite_none_right_eq_some.mp taken
      obtain rfl := Option.some.inj taken
      exact making
    | handler t => cases handles_of_handler taken <;> exact making
    | worker | take | handle | finish | throws => simp [Event.worker?] at acts

/-- A session is started by the worker that makes it. -/
theorem started_of_step (sound : s.Sound n) (taken : s.step? n e = some s') :
    s'.started = s.started ∨ s'.started = s.started + 1 ∧
      ∃ i, s.Making i ∧ s'.worker i = .accepting .again := by
  cases e with
  | main =>
    left
    obtain ⟨-, taken⟩ := Option.ite_none_right_eq_some.mp taken
    cases mains_of_next taken with
    | goes here turn | constructed here turn =>
      rcases sound.constructing _ here with rfl | rfl <;> cases turn <;> rfl
    | _ => rfl
  | worker i =>
    obtain ⟨-, taken⟩ := Option.ite_none_right_eq_some.mp taken
    unfold State.next_worker at taken
    cases here : s.worker i with
    | accepting p =>
      simp only [here] at taken
      have turn := s.turn_of_accept p
      cases went : s.accept p with
      | mk u next =>
        rw [went] at taken turn
        cases turn with
        | starts =>
          obtain rfl := Option.some.inj taken
          exact .inr ⟨rfl, i, here, Function.update_self ..⟩
        | _ =>
          obtain rfl := Option.some.inj taken
          exact .inl rfl
    | running =>
      simp only [here] at taken
      split_ifs at taken
      obtain rfl := Option.some.inj taken
      exact .inl rfl
    | unborn | handling | ended => simp [here] at taken
  | take i =>
    left
    obtain ⟨-, taken⟩ := Option.ite_none_right_eq_some.mp taken
    unfold State.take at taken
    split at taken
    · split_ifs at taken
      obtain rfl := Option.some.inj taken
      rfl
    · contradiction
  | handle i | finish i | throws i =>
    left
    obtain ⟨-, taken⟩ := Option.ite_none_right_eq_some.mp taken
    obtain ⟨-, taken⟩ := Option.ite_none_right_eq_some.mp taken
    obtain rfl := Option.some.inj taken
    rfl
  | complete | ready | signal =>
    left
    obtain ⟨-, taken⟩ := Option.ite_none_right_eq_some.mp taken
    obtain rfl := Option.some.inj taken
    rfl
  | handler t =>
    left
    cases handles_of_handler taken <;> rfl

/-- Once the accept is gone, no session is started any more. -/
theorem started_of_gone (sound : s.Sound n) (gone : s.Located none)
    (run : Path (step? n) always s es t) : t.started = s.started := by
  refine (run.preserves (I := fun u => u.Sound n ∧ u.Located none ∧ u.started = s.started)
    ⟨sound, gone, rfl⟩ ?_).2.2
  rintro u e u' ⟨sound, gone, same⟩ - taken
  obtain ⟨y, next, lost⟩ := gone.of_step sound taken
  obtain rfl := lost.mpr (.inl rfl)
  refine ⟨sound_of_step sound taken, next, ?_⟩
  rcases started_of_step sound taken with started | ⟨-, i, making, -⟩
  · exact started.trans same
  · have other := (gone.worker i).mp ⟨_, making⟩
    contradiction

/-- Once `accepting_` is not set, at most the session that is being made is still started. -/
theorem started_of_closed (sound : s.Sound n) (located : s.Located x) (closed : s.accepting_ = false)
    (run : Path (step? n) always s es t) :
    t.started = s.started ∨ (∃ i, s.Making i) ∧ t.started = s.started + 1 := by
  have kept := run.preserves (I := fun u => u.Sound n ∧ (∃ y, u.Located y) ∧ u.accepting_ = false ∧
    ((u.started = s.started ∧ ∀ i, u.Making i → s.Making i) ∨
      (∃ i, s.Making i) ∧ u.started = s.started + 1 ∧ ∀ i, ¬ u.Making i))
    ⟨sound, ⟨x, located⟩, closed, .inl ⟨rfl, fun _ making => making⟩⟩ ?_
  · rcases kept.2.2.2 with ⟨same, -⟩ | ⟨making, more, -⟩
    · exact .inl same
    · exact .inr ⟨making, more⟩
  rintro u e u' ⟨sound, ⟨y, located⟩, closed, history⟩ - taken
  obtain ⟨y', located', -⟩ := located.of_step sound taken
  have earlier {i : ℕ} (making : u'.Making i) : u.Making i := by
    rcases making_of_step taken making with making | accepting
    · exact making
    · rw [closed] at accepting
      contradiction
  refine ⟨sound_of_step sound taken, ⟨y', located'⟩, accepting_persists taken closed, ?_⟩
  rcases history with ⟨same, making⟩ | ⟨made, more, idle⟩
  · rcases started_of_step sound taken with started | ⟨started, i, makes, again⟩
    · exact .inl ⟨started.trans same, fun i here => making i (earlier here)⟩
    · refine .inr ⟨⟨i, making i makes⟩, by rw [started, same], ?_⟩
      intro j other
      -- the one accept is in the hands of the worker that has started its session
      have here := (located'.worker i).mp ⟨_, again⟩
      have there := (located'.worker j).mp ⟨_, other⟩
      rw [here] at there
      obtain rfl := Place.worker.inj (Option.some.inj there)
      have other : u'.worker i = .accepting .starting := other
      rw [again] at other
      contradiction
  · rcases started_of_step sound taken with started | ⟨-, i, makes, -⟩
    · exact .inr ⟨made, started.trans more, fun i here => idle i (earlier here)⟩
    · exact absurd makes (idle i)

/-- The accept is gone exactly if some step has lost it. -/
theorem lost_iff_of_run (run : Path (step? n) always {} es s) :
    s.Located none ↔ Takes (step? n) always (fun s e => s.Drops e ∨ s.Stops e) {} es s := by
  rw [← not_not (a := s.Located none)]
  refine run.lost_iff (I := fun s => (∃ x, s.Located x) ∧ s.Sound n)
    (K := fun s => ¬ s.Located none) ⟨⟨_, located_init⟩, sound_init n⟩ ?_ ?_ ?_ ?_
  · intro gone
    have other := gone.unique located_init
    contradiction
  · rintro s e s' ⟨⟨x, located⟩, sound⟩ - taken
    obtain ⟨y, next, -⟩ := located.of_step sound taken
    exact ⟨⟨y, next⟩, sound_of_step sound taken⟩
  · rintro s e s' ⟨⟨x, located⟩, sound⟩ had - taken
    obtain ⟨y, next, gone⟩ := located.of_step sound taken
    have there : x ≠ none := by
      rintro rfl
      exact had located
    constructor
    · intro lost
      exact (or_iff_right there).mp (gone.mp (next.unique (not_not.mp lost)))
    · intro loses
      obtain rfl := gone.mpr (.inr loses)
      exact not_not_intro next
  · rintro s e s' ⟨-, sound⟩ gone - taken
    have gone := not_not.mp gone
    obtain ⟨y, next, lost⟩ := gone.of_step sound taken
    obtain rfl := lost.mpr (.inl rfl)
    exact not_not_intro next

/-- While `accepting_` is set, only an exception can have lost it. -/
theorem dropped_of_run (run : Path (step? n) always {} es s) (accepting : s.accepting_ = true)
    (gone : s.Located none) : Takes (step? n) always Drops {} es s := by
  obtain ⟨first, e, second, mid, same, before, after, drops | stops⟩ := (lost_iff_of_run run).mp gone
  · exact ⟨first, e, second, mid, same, before, after, drops⟩
  · have closed := after.preserves stops.1 fun _ _ _ closed _ taken => accepting_persists taken closed
    rw [closed] at accepting
    contradiction

/-- There is never more than one accept, wherever main and the workers are. It is gone for good exactly
if a session threw while it was made or started, or the handler found `accepting_` not set; where
`accepting_` is still set, only the first can have happened. Then no session is started any more, and
after `accepting_` has been cleared at most the one that is being made. -/
theorem accepting_of_run (run : Path (step? n) always {} es s) :
    (∃ x, s.Located x) ∧
      (s.Located none ↔
        Takes (step? n) always (fun s e => s.Drops e ∨ s.Stops e) {} es s) ∧
      (s.accepting_ = true → s.Located none → Takes (step? n) always Drops {} es s) ∧
      ∀ fs t, Path (step? n) always s fs t →
        (s.Located none → t.started = s.started) ∧
        (s.accepting_ = false →
          t.started = s.started ∨ (∃ i, s.Making i) ∧ t.started = s.started + 1) := by
  have sound := sound_of_run run
  obtain ⟨x, located⟩ := located_of_run run
  refine ⟨⟨x, located⟩, lost_iff_of_run run, dropped_of_run run, fun fs t rest => ⟨?_, ?_⟩⟩
  · exact fun gone => started_of_gone sound gone rest
  · exact fun closed => started_of_closed sound located closed rest

end State

/-- One of two workers has accepted a second connection. -/
def accepting : List Event :=
  List.replicate 6 .main ++ [.complete false, .take 1] ++ List.replicate 5 (.worker 1) ++
    [.complete false, .take 0, .worker 0]

theorem accepting_of_run_run : ∃ s, Path (State.step? 2) always {} (accepting ++ [.throws 0]) s ∧
    s.accepting_ = true ∧ s.is_open = true ∧ s.started = 1 ∧ s.worker 1 = .running ∧
      ∀ fs t, Path (State.step? 2) always s fs t → t.started = 1 := by
  have run : ∃ u s, Path (State.step? 2) always {} accepting u ∧
      Path (State.step? 2) always u [.throws 0] s ∧ u.worker 0 = .accepting .starting ∧
      s.accepting_ = true ∧ s.is_open = true ∧ s.started = 1 ∧ s.worker 1 = .running := by
    refine ⟨_, _, replay_eq_some_iff.mp rfl, replay_eq_some_iff.mp rfl, ?_, ?_, ?_, ?_, ?_⟩ <;> rfl
  obtain ⟨u, s, before, last, making, accepting, is_open, started, running⟩ := run
  have path := before.append last
  obtain ⟨-, lost, -, later⟩ := State.accepting_of_run path
  have gone := lost.mpr ⟨_, .throws 0, [], u, rfl, before, last, .inl ⟨0, rfl, making⟩⟩
  refine ⟨s, path, accepting, is_open, started, running, fun fs t rest => ?_⟩
  exact ((later fs t rest).1 gone).trans started

end FlightProxy.Main
