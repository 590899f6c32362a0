import FlightProxy.QueryCache.Steps
import FlightProxy.SingleFlight.Steps

/-! # What the calls of QueryCache carry

A call of doSingleFlight keeps its query and a call of notifyFlightResult its query and its result.
In `singleflight_` they go under the query's key, and only after they have entered it here.
-/

namespace FlightProxy.QueryCache

variable {Call : Type*} [DecidableEq Call]

/-- The query and the result of a notifyFlightResult call. -/
def NotifyCall.sends : NotifyCall → Option (Bytes × Bytes)
  | .idle => none
  | .pushing query result | .publishing query result | .flying query result => some (query, result)

/-- Returned, threw, or went on in `singleflight_`. -/
def DoCall.done : DoCall → Bool
  | .flying _ | .served _ _ | .threw _ => true
  | _ => false

namespace State

variable {md5 : Bytes → Bytes} {store : Store} {s s' t : State Call} {c d n m : Call}
  {query result key : Bytes} {e : Event Call}

private theorem update_cases {β : Type*} (values : Call → β) (c : Call) (next : β) (d : Call) :
    Function.update values c next d = values d ∨
      (c = d ∧ Function.update values c next d = next) := by
  by_cases same : d = c
  · subst same
    exact .inr ⟨rfl, Function.update_self ..⟩
  · exact .inl (Function.update_of_ne same ..)

/-- Where a step takes its doSingleFlight call, and from where. -/
inductive Moves (md5 : Bytes → Bytes) (s : State Call) (c : Call) : Event Call → DoCall → Prop
  | present (query : Bytes) (idle : s.doing c = .idle)
      (found : s.store.l1.getL1_shared (hash_query md5 query) = true) :
      Moves md5 s c (.getL1_shared c query) (.present query)
  | missed (query : Bytes) (idle : s.doing c = .idle)
      (absent : s.store.l1.getL1_shared (hash_query md5 query) = false) :
      Moves md5 s c (.getL1_shared c query) (.missed query)
  | hit (query value : Bytes) (present : s.doing c = .present query)
      (found : (s.store.l1.getL1_unique (hash_query md5 query)).1 = some value) :
      Moves md5 s c (.getL1_unique c) (.hit query value)
  | lost (query : Bytes) (present : s.doing c = .present query)
      (absent : (s.store.l1.getL1_unique (hash_query md5 query)).1 = none) :
      Moves md5 s c (.getL1_unique c) (.missed query)
  | fetched (query value : Bytes) (reached : Bool) (missed : s.doing c = .missed query)
      (found : s.store.getL2 reached (hash_query md5 query) = some value) :
      Moves md5 s c (.getL2 c reached) (.fetched query value)
  | absent (query : Bytes) (reached : Bool) (missed : s.doing c = .missed query)
      (absent : s.store.getL2 reached (hash_query md5 query) = none) :
      Moves md5 s c (.getL2 c reached) (.electing query)
  | promoted (query value : Bytes) (fetched : s.doing c = .fetched query value) :
      Moves md5 s c (.promote c) (.hit query value)
  | calls_back (query value : Bytes) (outcome : SingleFlight.Outcome)
      (hit : s.doing c = .hit query value) :
      Moves md5 s c (.call_back c outcome) (.after query value outcome)
  | flies (query : Bytes) (electing : s.doing c = .electing query) :
      Moves md5 s c (.flight (.elect c (hash_query md5 query))) (.flying query)

theorem moves_of_step (taken : s.step? md5 e = some s') (d : Call) :
    s'.doing d = s.doing d ∨ Moves md5 s d e (s'.doing d) := by
  have along : ∀ {c : Call} {next : DoCall}, Moves md5 s c e next →
      Function.update s.doing c next d = s.doing d ∨
        Moves md5 s d e (Function.update s.doing c next d) := by
    intro c next moves
    rcases update_cases s.doing c next d with same | ⟨rfl, moved⟩
    · exact .inl same
    · rw [moved]
      exact .inr moves
  cases e with
  | getL1_shared c query =>
    obtain ⟨idle, ⟨found, rfl⟩ | ⟨absent, rfl⟩⟩ := getL1_shared_cases taken
    · exact along (.present query idle found)
    · exact along (.missed query idle absent)
  | getL1_unique c =>
    obtain ⟨query, present, ⟨value, found, rfl⟩ | ⟨absent, rfl⟩⟩ := getL1_unique_cases taken
    · exact along (.hit query value present found)
    · exact along (.lost query present absent)
  | getL2 c reached =>
    obtain ⟨query, missed, ⟨value, found, rfl⟩ | ⟨absent, stats_, rfl⟩⟩ := getL2_cases taken
    · exact along (.fetched query value reached missed found)
    · exact along (.absent query reached missed absent)
  | promote c =>
    obtain ⟨query, value, fetched, rfl⟩ := promote_cases taken
    exact along (.promoted query value fetched)
  | call_back c outcome =>
    obtain ⟨query, value, hit, rfl⟩ := call_back_cases outcome taken
    exact along (.calls_back query value outcome hit)
  | putL1 n query result =>
    obtain ⟨-, rfl⟩ := putL1_cases taken
    exact .inl rfl
  | putL2 n reached =>
    obtain ⟨query, result, -, rfl⟩ := putL2_cases taken
    exact .inl rfl
  | flight d =>
    obtain ⟨flights, -, rest⟩ := flight_cases taken
    rcases rest with ⟨c, query, rfl, electing, rfl⟩ | ⟨n, query, result, -, -, rfl⟩ | ⟨-, -, rfl⟩
    · exact along (.flies query electing)
    · exact .inl rfl
    · exact .inl rfl

/-- A call moves on here until it is done, and with its query. -/
theorem doing_cases (taken : s.step? md5 e = some s') (d : Call) :
    s'.doing d = s.doing d ∨ ((s.doing d).done = false ∧
      ((s'.doing d).query = (s.doing d).query ∨ ∃ query, e = .getL1_shared d query ∧
        s.doing d = .idle ∧ (s'.doing d).query = some query)) := by
  rcases moves_of_step taken d with same | moves
  · exact .inl same
  · right
    generalize s'.doing d = next at moves
    cases moves with
    | present query idle | missed query idle =>
      exact ⟨by rw [idle]; rfl, .inr ⟨query, rfl, idle, rfl⟩⟩
    | hit query value before | lost query before | fetched query value reached before
    | absent query reached before | promoted query value before | flies query before =>
      exact ⟨by rw [before]; rfl, .inl (by rw [before]; rfl)⟩
    | calls_back query value outcome before =>
      refine ⟨by rw [before]; rfl, .inl ?_⟩
      rw [before]
      cases outcome <;> rfl

/-- A notifier moves on from outside `singleflight_` only, and with its query and its result. -/
theorem notifying_cases (taken : s.step? md5 e = some s') (m : Call) :
    s'.notifying m = s.notifying m ∨ ((∀ query result, s.notifying m ≠ .flying query result) ∧
      ((s'.notifying m).sends = (s.notifying m).sends ∨ ∃ query result, e = .putL1 m query result ∧
        s.notifying m = .idle ∧ (s'.notifying m).sends = some (query, result))) := by
  cases e with
  | getL1_shared c query =>
    obtain ⟨-, ⟨-, rfl⟩ | ⟨-, rfl⟩⟩ := getL1_shared_cases taken
    · exact .inl rfl
    · exact .inl rfl
  | getL1_unique c =>
    obtain ⟨query, -, ⟨value, -, rfl⟩ | ⟨-, rfl⟩⟩ := getL1_unique_cases taken
    · exact .inl rfl
    · exact .inl rfl
  | getL2 c reached =>
    obtain ⟨query, -, ⟨value, -, rfl⟩ | ⟨-, stats_, rfl⟩⟩ := getL2_cases taken
    · exact .inl rfl
    · exact .inl rfl
  | promote c =>
    obtain ⟨query, value, -, rfl⟩ := promote_cases taken
    exact .inl rfl
  | call_back c outcome =>
    obtain ⟨query, value, -, rfl⟩ := call_back_cases outcome taken
    exact .inl rfl
  | putL1 n query result =>
    obtain ⟨idle, rfl⟩ := putL1_cases taken
    rcases update_cases s.notifying n (.pushing query result) m with same | ⟨rfl, moved⟩
    · exact .inl same
    · exact .inr ⟨by simp [idle], .inr ⟨query, result, rfl, idle, congrArg NotifyCall.sends moved⟩⟩
  | putL2 n reached =>
    obtain ⟨query, result, pushing, rfl⟩ := putL2_cases taken
    rcases update_cases s.notifying n (.publishing query result) m with same | ⟨rfl, moved⟩
    · exact .inl same
    · exact .inr ⟨by simp [pushing], .inl ((congrArg NotifyCall.sends moved).trans (by rw [pushing]; rfl))⟩
  | flight d =>
    obtain ⟨flights, -, rest⟩ := flight_cases taken
    rcases rest with ⟨c, query, -, -, rfl⟩ | ⟨n, query, result, -, publishing, rfl⟩ | ⟨-, -, rfl⟩
    · exact .inl rfl
    · rcases update_cases s.notifying n (.flying query result) m with same | ⟨rfl, moved⟩
      · exact .inl same
      · exact .inr ⟨by simp [publishing], .inl ((congrArg NotifyCall.sends moved).trans (by rw [publishing]; rfl))⟩
    · exact .inl rfl

theorem doing_of_done (done : (s.doing d).done = true) (taken : s.step? md5 e = some s') :
    s'.doing d = s.doing d := by
  rcases doing_cases taken d with same | ⟨undone, -⟩
  · exact same
  · rw [done] at undone
    contradiction

theorem query_persists (asked : (s.doing d).query = some query) (taken : s.step? md5 e = some s') :
    (s'.doing d).query = some query := by
  rcases doing_cases taken d with same | ⟨-, kept | ⟨query', -, idle, -⟩⟩
  · rw [same, asked]
  · rw [kept, asked]
  · rw [idle] at asked
    contradiction

theorem sends_persists {sent : Bytes × Bytes} (sends : (s.notifying m).sends = some sent)
    (taken : s.step? md5 e = some s') : (s'.notifying m).sends = some sent := by
  rcases notifying_cases taken m with same | ⟨-, kept | ⟨query, result, -, idle, -⟩⟩
  · rw [same, sends]
  · rw [kept, sends]
  · rw [idle] at sends
    contradiction

/-- Whatever call is in `singleflight_` entered it from here, under the key of its query. -/
structure Tied (md5 : Bytes → Bytes) (s : State Call) : Prop where
  doing : ∀ {c key}, (s.singleflight_.doing c).key = some key →
    ∃ query, s.doing c = .flying query ∧ hash_query md5 query = key
  notifying : ∀ {n key result}, (s.singleflight_.notifying n).sends = some (key, result) →
    ∃ query, s.notifying n = .flying query result ∧ hash_query md5 query = key

omit [DecidableEq Call] in
theorem tied_init : (init store : State Call).Tied md5 := by
  constructor <;> intros <;> contradiction

theorem Tied.step (tied : s.Tied md5) (taken : s.step? md5 e = some s') : s'.Tied md5 := by
  have doing_kept : ∀ {c query}, s.doing c = .flying query → s'.doing c = .flying query := by
    intro c query flying
    rw [doing_of_done (by rw [flying]; rfl) taken, flying]
  have notifying_kept : ∀ {n query result}, s.notifying n = .flying query result →
      s'.notifying n = .flying query result := by
    intro n query result flying
    rcases notifying_cases taken n with same | ⟨outside, -⟩
    · rw [same, flying]
    · exact absurd flying (outside query result)
  rcases singleflight_cases taken with ⟨d, rfl, block⟩ | ⟨-, same⟩
  · refine ⟨fun {c key} carries => ?_, fun {n key result} carries => ?_⟩
    · rcases SingleFlight.State.key_cases block c with kept | ⟨key', rfl, -, entered⟩
      · obtain ⟨query, flying, hashed⟩ := tied.doing (kept.symm.trans carries)
        exact ⟨query, doing_kept flying, hashed⟩
      · obtain rfl := Option.some.inj (entered.symm.trans carries)
        obtain ⟨flights, -, ⟨c', query, here, -, rfl⟩ | ⟨n, query, result, other, -, -⟩ |
          ⟨other, -, -⟩⟩ := flight_cases taken
        · obtain ⟨rfl, rfl⟩ := SingleFlight.Event.elect.inj here
          exact ⟨query, Function.update_self .., rfl⟩
        · contradiction
        · exact absurd rfl (other _ _)
    · rcases SingleFlight.State.sends_cases block n with kept | ⟨key', result', rfl, -, entered⟩
      · obtain ⟨query, flying, hashed⟩ := tied.notifying (kept.symm.trans carries)
        exact ⟨query, notifying_kept flying, hashed⟩
      · obtain ⟨rfl, rfl⟩ := Prod.mk.inj (Option.some.inj (entered.symm.trans carries))
        obtain ⟨flights, -, ⟨c', query, other, -, -⟩ | ⟨n, query, result, here, -, rfl⟩ |
          ⟨-, other, -⟩⟩ := flight_cases taken
        · contradiction
        · obtain ⟨rfl, rfl, rfl⟩ := SingleFlight.Event.lookup.inj here
          exact ⟨query, Function.update_self .., rfl⟩
        · exact absurd rfl (other _ _ _)
  · refine ⟨fun carries => ?_, fun carries => ?_⟩
    · rw [same] at carries
      obtain ⟨query, flying, hashed⟩ := tied.doing carries
      exact ⟨query, doing_kept flying, hashed⟩
    · rw [same] at carries
      obtain ⟨query, flying, hashed⟩ := tied.notifying carries
      exact ⟨query, notifying_kept flying, hashed⟩

end State

end FlightProxy.QueryCache
