import FlightProxy.Model.QueryCache

/-! # What each step of QueryCache can do

One inversion per step, guards included, as for the blocks of SingleFlight.
-/

namespace FlightProxy.QueryCache

def DoCall.query : DoCall → Option Bytes
  | .idle => none
  | .present query | .missed query | .electing query | .flying query | .threw query => some query
  | .fetched query _ | .hit query _ | .served query _ => some query

def NotifyCall.query : NotifyCall → Option Bytes
  | .idle => none
  | .pushing query _ | .publishing query _ | .flying query _ => some query

namespace State

variable {Call : Type*} [DecidableEq Call] {md5 : Bytes → Bytes} {s s' : State Call} {c n : Call}
  {query result : Bytes} {reached : Bool}

theorem getL1_shared_cases (taken : s.getL1_shared md5 c query = some s') :
    s.doing c = .idle ∧
      ((s.store.l1.getL1_shared (hash_query md5 query) = true ∧ s' = s.move c (.present query)) ∨
        (s.store.l1.getL1_shared (hash_query md5 query) = false ∧
          s' = { s with store := s.store.updateStats false false }.move c (.missed query))) := by
  unfold getL1_shared at taken
  split_ifs at taken with idle mapped
  · exact ⟨idle, .inl ⟨mapped, (Option.some.inj taken).symm⟩⟩
  · exact ⟨idle, .inr ⟨Bool.eq_false_iff.mpr mapped, (Option.some.inj taken).symm⟩⟩

theorem getL1_unique_cases (taken : s.getL1_unique md5 c = some s') :
    ∃ query, s.doing c = .present query ∧
      ((∃ value, (s.store.l1.getL1_unique (hash_query md5 query)).1 = some value ∧
          s' = { s with store := { s.store with
              l1 := (s.store.l1.getL1_unique (hash_query md5 query)).2 }.updateStats true false }.move
            c (.hit query value)) ∨
        ((s.store.l1.getL1_unique (hash_query md5 query)).1 = none ∧
          s' = { s with store := { s.store with
              l1 := (s.store.l1.getL1_unique (hash_query md5 query)).2 }.updateStats false false }.move
            c (.missed query))) := by
  unfold getL1_unique at taken
  split at taken
  · next query present =>
    refine ⟨query, present, ?_⟩
    split at taken
    · next value l1 found =>
      rw [found]
      exact .inl ⟨value, rfl, (Option.some.inj taken).symm⟩
    · next l1 gone =>
      rw [gone]
      exact .inr ⟨rfl, (Option.some.inj taken).symm⟩
  · contradiction

theorem getL2_cases (taken : s.getL2 md5 c reached = some s') :
    ∃ query, s.doing c = .missed query ∧
      ((∃ value, s.store.getL2 reached (hash_query md5 query) = some value ∧
          s' = s.move c (.fetched query value)) ∨
        (s.store.getL2 reached (hash_query md5 query) = none ∧ ∃ stats_,
          s' = { s with store := { s.store with stats_ := stats_ } }.move c (.electing query))) := by
  unfold getL2 at taken
  split at taken
  · next query missed =>
    refine ⟨query, missed, ?_⟩
    split at taken
    · next value found => exact .inl ⟨value, found, (Option.some.inj taken).symm⟩
    · next absent =>
      refine .inr ⟨absent, ?_⟩
      split_ifs at taken
      · exact ⟨_, (Option.some.inj taken).symm⟩
      · exact ⟨s.store.stats_, (Option.some.inj taken).symm⟩
  · contradiction

theorem promote_cases (taken : s.promote md5 c = some s') :
    ∃ query value, s.doing c = .fetched query value ∧
      s' = { s with store :=
        (s.store.putL1 (hash_query md5 query) value).updateStats false true }.move c
          (.hit query value) := by
  unfold promote at taken
  split at taken
  · next query value fetched => exact ⟨query, value, fetched, (Option.some.inj taken).symm⟩
  · contradiction

theorem call_back_cases (outcome : SingleFlight.Outcome) (taken : s.call_back c outcome = some s') :
    ∃ query value, s.doing c = .hit query value ∧ s' = s.move c (.after query value outcome) := by
  unfold call_back at taken
  split at taken
  · next query value hit => exact ⟨query, value, hit, (Option.some.inj taken).symm⟩
  · contradiction

theorem putL1_cases (taken : s.putL1 md5 n query result = some s') :
    s.notifying n = .idle ∧ s' = { s with
      store := s.store.putL1 (hash_query md5 query) result
      notifying := Function.update s.notifying n (.pushing query result) } := by
  unfold putL1 at taken
  split_ifs at taken with idle
  exact ⟨idle, (Option.some.inj taken).symm⟩

theorem putL2_cases (taken : s.putL2 md5 n reached = some s') :
    ∃ query result, s.notifying n = .pushing query result ∧ s' = { s with
      store := s.store.putL2 reached (hash_query md5 query) result
      notifying := Function.update s.notifying n (.publishing query result) } := by
  unfold putL2 at taken
  split at taken
  · next query result pushing => exact ⟨query, result, pushing, (Option.some.inj taken).symm⟩
  · contradiction

/-- `singleflight_` is entered through an election or a lookup, with the call's own key and result;
its other blocks leave the calls of QueryCache where they are. -/
theorem flight_cases {e : SingleFlight.Event Call} (taken : s.flight md5 e = some s') :
    ∃ flights, s.singleflight_.step? e = some flights ∧
      ((∃ c query, e = .elect c (hash_query md5 query) ∧ s.doing c = .electing query ∧
          s' = { s.move c (.flying query) with singleflight_ := flights }) ∨
        (∃ n query result, e = .lookup n (hash_query md5 query) result ∧
          s.notifying n = .publishing query result ∧ s' = { s with
            singleflight_ := flights
            notifying := Function.update s.notifying n (.flying query result) }) ∨
        ((∀ c key, e ≠ .elect c key) ∧ (∀ n key result, e ≠ .lookup n key result) ∧
          s' = { s with singleflight_ := flights })) := by
  unfold flight at taken
  obtain ⟨entered, entry, moved⟩ := Option.bind_eq_some_iff.mp taken
  obtain ⟨flights, step, rfl⟩ := Option.map_eq_some_iff.mp moved
  refine ⟨flights, step, ?_⟩
  unfold enter at entry
  split at entry
  · next c key =>
    split at entry
    · next query electing =>
      split_ifs at entry with same
      obtain rfl := Option.some.inj entry
      subst same
      exact .inl ⟨c, query, rfl, electing, rfl⟩
    · contradiction
  · next n key result =>
    split at entry
    · next query result' publishing =>
      split_ifs at entry with same
      obtain rfl := Option.some.inj entry
      obtain ⟨rfl, rfl⟩ := same
      exact .inr (.inl ⟨n, query, result, rfl, publishing, rfl⟩)
    · contradiction
  · next elections lookups =>
    obtain rfl := Option.some.inj entry
    exact .inr (.inr ⟨elections, lookups, rfl⟩)

/-- A step of QueryCache takes a block of `singleflight_`, or leaves it alone. -/
theorem singleflight_cases {e : Event Call} (taken : s.step? md5 e = some s') :
    (∃ d, e = .flight d ∧ s.singleflight_.step? d = some s'.singleflight_) ∨
      ((∀ d, e ≠ .flight d) ∧ s'.singleflight_ = s.singleflight_) := by
  cases e with
  | getL1_shared c query =>
    obtain ⟨-, ⟨-, rfl⟩ | ⟨-, rfl⟩⟩ := getL1_shared_cases taken
    · exact .inr ⟨by simp, rfl⟩
    · exact .inr ⟨by simp, rfl⟩
  | getL1_unique c =>
    obtain ⟨query, -, ⟨value, -, rfl⟩ | ⟨-, rfl⟩⟩ := getL1_unique_cases taken
    · exact .inr ⟨by simp, rfl⟩
    · exact .inr ⟨by simp, rfl⟩
  | getL2 c reached =>
    obtain ⟨query, -, ⟨value, -, rfl⟩ | ⟨-, stats_, rfl⟩⟩ := getL2_cases taken
    · exact .inr ⟨by simp, rfl⟩
    · exact .inr ⟨by simp, rfl⟩
  | promote c =>
    obtain ⟨query, value, -, rfl⟩ := promote_cases taken
    exact .inr ⟨by simp, rfl⟩
  | call_back c outcome =>
    obtain ⟨query, value, -, rfl⟩ := call_back_cases outcome taken
    exact .inr ⟨by simp, rfl⟩
  | putL1 n query result =>
    obtain ⟨-, rfl⟩ := putL1_cases taken
    exact .inr ⟨by simp, rfl⟩
  | putL2 n reached =>
    obtain ⟨query, result, -, rfl⟩ := putL2_cases taken
    exact .inr ⟨by simp, rfl⟩
  | flight d =>
    obtain ⟨flights, step, rest⟩ := flight_cases taken
    refine .inl ⟨d, rfl, ?_⟩
    rcases rest with ⟨c, query, -, -, rfl⟩ | ⟨n, query, result, -, -, rfl⟩ | ⟨-, -, rfl⟩
    · exact step
    · exact step
    · exact step

/-- The flights of a run of QueryCache run along in `singleflight_`. -/
theorem flights_of_run {ok : State Call → Event Call → Prop}
    (ok' : SingleFlight.State Call → SingleFlight.Event Call → Prop) {s t : State Call}
    {es : List (Event Call)}
    (run : Transition.Path (step? md5) ok s es t)
    (follows : ∀ s d, ok s (.flight d) → ok' s.singleflight_ d) :
    Transition.Path SingleFlight.State.step? ok' s.singleflight_
      (es.filterMap fun | .flight d => some d | _ => none) t.singleflight_ := by
  refine run.project State.singleflight_ _ ?_ ?_
  · intro s e s' allowed taken d label
    rcases singleflight_cases taken with ⟨d', rfl, step⟩ | ⟨other, -⟩
    · obtain rfl := Option.some.inj label
      exact ⟨follows s _ allowed, step⟩
    · cases e with
      | flight d' => exact absurd rfl (other d')
      | _ => contradiction
  · intro s e s' allowed taken label
    rcases singleflight_cases taken with ⟨d', rfl, step⟩ | ⟨-, kept⟩
    · contradiction
    · exact kept

/-- The call returned `IS_LEADER` for the query. -/
def Leads (md5 : Bytes → Bytes) (s : State Call) (query : Bytes) (c : Call) : Prop :=
  s.doing c = .flying query ∧ s.singleflight_.doing c = .leader (hash_query md5 query)

end State

end FlightProxy.QueryCache
