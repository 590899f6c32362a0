import FlightProxy.L1.Linked
import FlightProxy.Model.ProxyServer
import FlightProxy.QueryCache.Calls
import FlightProxy.SingleFlight.Provenance

/-! # Where the values in the cache come from

A value gets into the stores and into the flights by notifyFlightResult only. So whatever holds of
the results put under each key holds of every value that is found there, waits in a call, or is
handed to a callback.
-/

namespace FlightProxy.QueryCache

open Recency

variable {Call : Type*}

/-- The query of a call and the value that get has found for it. -/
def DoCall.value : DoCall → Option (Bytes × Bytes)
  | .fetched query value | .hit query value | .served query value => some (query, value)
  | _ => none

namespace State

/-- All values that have got into the cache are genuine for their keys. -/
structure Genuine (md5 : Bytes → Bytes) (K : Bytes → Bytes → Prop) (s : State Call) : Prop where
  led : s.singleflight_.Led
  enrolled : s.singleflight_.Enrolled
  tied : s.Tied md5
  flights : s.singleflight_.Genuine K
  linked : s.store.l1.Linked
  bound : ∀ {key value}, lookup key s.store.l1.contents = some value → K key value
  held : s.store.redis_enabled_ = true →
    ∀ {key value}, s.store.redis (redis_key key) = some value → K key value
  found : ∀ {c query value}, (s.doing c).value = some (query, value) → K (hash_query md5 query) value
  sent : ∀ {n query result}, (s.notifying n).sends = some (query, result) →
    K (hash_query md5 query) result

variable {md5 : Bytes → Bytes} {K K' : Bytes → Bytes → Prop} {s s' : State Call}
  {c n : Call} {e : Event Call} {store : Store}

theorem genuine_init (linked : store.l1.Linked) (empty : store.l1.contents = [])
    (held : store.redis_enabled_ = true →
      ∀ {key value}, store.redis (redis_key key) = some value → K key value) :
    (init store : State Call).Genuine md5 K := by
  refine ⟨SingleFlight.State.led_init, SingleFlight.State.enrolled_init, tied_init,
    SingleFlight.State.genuine_init, linked, ?_, held, nofun, nofun⟩
  intro key value bound
  rw [init, empty] at bound
  contradiction

theorem Genuine.mono (genuine : s.Genuine md5 K) (more : ∀ key value, K key value → K' key value) :
    s.Genuine md5 K' where
  led := genuine.led
  enrolled := genuine.enrolled
  tied := genuine.tied
  flights := genuine.flights.mono more
  linked := genuine.linked
  bound := fun bound => more _ _ (genuine.bound bound)
  held := fun enabled _ _ held => more _ _ (genuine.held enabled held)
  found := fun found => more _ _ (genuine.found found)
  sent := fun sends => more _ _ (genuine.sent sends)

variable [DecidableEq Call]

/-- What a step has to keep of the stores and of the values that calls have found. -/
private structure Carries (md5 : Bytes → Bytes) (K : Bytes → Bytes → Prop) (s' : State Call) : Prop
    where
  linked : s'.store.l1.Linked
  bound : ∀ {key value}, lookup key s'.store.l1.contents = some value → K key value
  held : s'.store.redis_enabled_ = true →
    ∀ {key value}, s'.store.redis (redis_key key) = some value → K key value
  found : ∀ {c query value}, (s'.doing c).value = some (query, value) → K (hash_query md5 query) value

/-- A call that finds a genuine value, or none, moves. -/
private theorem Genuine.moved (genuine : s.Genuine md5 K) {next : DoCall}
    (found : ∀ query value, next.value = some (query, value) → K (hash_query md5 query) value)
    {c d : Call} {query value : Bytes}
    (here : (Function.update s.doing c next d).value = some (query, value)) :
    K (hash_query md5 query) value := by
  rw [Function.update_apply] at here
  split_ifs at here
  · exact found query value here
  · exact genuine.found here

private theorem Genuine.carries (genuine : s.Genuine md5 K)
    (allowed : ∀ n query result, e = .putL1 n query result → K (hash_query md5 query) result)
    (taken : s.step? md5 e = some s') : Carries md5 K s' := by
  cases e with
  | getL1_shared c query =>
    obtain ⟨-, ⟨-, rfl⟩ | ⟨-, rfl⟩⟩ := getL1_shared_cases taken
    · exact ⟨genuine.linked, genuine.bound, genuine.held, genuine.moved (by simp [DoCall.value])⟩
    · exact ⟨genuine.linked, genuine.bound, genuine.held, genuine.moved (by simp [DoCall.value])⟩
  | getL1_unique c =>
    obtain ⟨query, -, rest⟩ := getL1_unique_cases taken
    obtain ⟨answer, contents, linked⟩ :=
      L1.getL1_unique_spec genuine.linked (hash_query md5 query)
    have bound : ∀ {key value}, lookup key (s.store.l1.getL1_unique
        (hash_query md5 query)).2.contents = some value → K key value := by
      intro key value here
      rw [contents, lookup_touch] at here
      exact genuine.bound here
    rcases rest with ⟨value, found, rfl⟩ | ⟨-, rfl⟩
    · refine ⟨linked, bound, genuine.held, genuine.moved ?_⟩
      intro query' value' same
      obtain ⟨rfl, rfl⟩ := Prod.mk.inj (Option.some.inj same)
      exact genuine.bound (answer.symm.trans found)
    · exact ⟨linked, bound, genuine.held, genuine.moved (by simp [DoCall.value])⟩
  | getL2 c reached =>
    obtain ⟨query, -, ⟨value, found, rfl⟩ | ⟨-, stats_, rfl⟩⟩ := getL2_cases taken
    · refine ⟨genuine.linked, genuine.bound, genuine.held, genuine.moved ?_⟩
      intro query' value' same
      obtain ⟨rfl, rfl⟩ := Prod.mk.inj (Option.some.inj same)
      rw [Store.getL2] at found
      split_ifs at found with reaches
      exact genuine.held (Bool.and_eq_true_iff.mp reaches).1 found
    · exact ⟨genuine.linked, genuine.bound, genuine.held, genuine.moved (by simp [DoCall.value])⟩
  | promote c =>
    obtain ⟨query, value, fetched, rfl⟩ := promote_cases taken
    have holds : K (hash_query md5 query) value :=
      genuine.found (c := c) (by rw [fetched]; rfl)
    refine ⟨genuine.linked.putL1 _ _, ?_, genuine.held, genuine.moved ?_⟩
    · intro key value' here
      rcases genuine.linked.lookup_putL1 here with before | ⟨rfl, rfl⟩
      · exact genuine.bound before
      · exact holds
    · intro query' value' same
      obtain ⟨rfl, rfl⟩ := Prod.mk.inj (Option.some.inj same)
      exact holds
  | call_back c outcome =>
    obtain ⟨query, value, hit, rfl⟩ := call_back_cases outcome taken
    refine ⟨genuine.linked, genuine.bound, genuine.held, genuine.moved ?_⟩
    intro query' value' same
    refine genuine.found (c := c) ?_
    rw [hit]
    cases outcome
    · exact same
    · contradiction
  | putL1 n query result =>
    obtain ⟨-, rfl⟩ := putL1_cases taken
    refine ⟨genuine.linked.putL1 _ _, ?_, genuine.held, genuine.found⟩
    intro key value here
    rcases genuine.linked.lookup_putL1 here with before | ⟨rfl, rfl⟩
    · exact genuine.bound before
    · exact allowed n query result rfl
  | putL2 n reached =>
    obtain ⟨query, result, pushing, rfl⟩ := putL2_cases taken
    have holds : K (hash_query md5 query) result :=
      genuine.sent (n := n) (by rw [pushing]; rfl)
    simp only [Store.putL2]
    split_ifs
    · refine ⟨genuine.linked, genuine.bound, fun enabled key value here => ?_, genuine.found⟩
      simp only [Function.update_apply] at here
      split_ifs at here with same
      · obtain rfl := Option.some.inj here
        rw [List.append_cancel_left same]
        exact holds
      · exact genuine.held enabled here
    · exact ⟨genuine.linked, genuine.bound, genuine.held, genuine.found⟩
  | flight d =>
    obtain ⟨flights, -, ⟨c, query, -, -, rfl⟩ | ⟨n, query, result, -, -, rfl⟩ | ⟨-, -, rfl⟩⟩ :=
      flight_cases taken
    · exact ⟨genuine.linked, genuine.bound, genuine.held, genuine.moved (by simp [DoCall.value])⟩
    · exact ⟨genuine.linked, genuine.bound, genuine.held, genuine.found⟩
    · exact ⟨genuine.linked, genuine.bound, genuine.held, genuine.found⟩

theorem Genuine.step (genuine : s.Genuine md5 K)
    (allowed : ∀ n query result, e = .putL1 n query result → K (hash_query md5 query) result)
    (taken : s.step? md5 e = some s') : s'.Genuine md5 K := by
  obtain ⟨linked, bound, held, found⟩ := genuine.carries allowed taken
  have flights : s'.singleflight_.Led ∧ s'.singleflight_.Enrolled ∧ s'.singleflight_.Genuine K := by
    rcases singleflight_cases taken with ⟨d, rfl, block⟩ | ⟨-, same⟩
    · refine ⟨genuine.led.step block, genuine.enrolled.step block,
        genuine.flights.step genuine.led genuine.enrolled ?_ block⟩
      rintro n key result rfl
      obtain ⟨flights, -, ⟨c, query, other, -⟩ | ⟨m, query, result', here, publishing, -⟩ |
        ⟨-, other, -⟩⟩ := flight_cases taken
      · contradiction
      · obtain ⟨rfl, rfl, rfl⟩ := SingleFlight.Event.lookup.inj here
        exact genuine.sent (n := n) (by rw [publishing]; rfl)
      · exact absurd rfl (other n key result)
    · rw [same]
      exact ⟨genuine.led, genuine.enrolled, genuine.flights⟩
  refine ⟨flights.1, flights.2.1, genuine.tied.step taken, flights.2.2, linked, bound, held, found, ?_⟩
  intro n query result sends
  rcases notifying_cases taken n with same | ⟨-, kept | ⟨query', result', rfl, -, entered⟩⟩
  · exact genuine.sent (same ▸ sends)
  · exact genuine.sent (kept.symm.trans sends)
  · obtain ⟨rfl, rfl⟩ := Prod.mk.inj (Option.some.inj (entered.symm.trans sends))
    exact allowed n query' result' rfl

/-- A callback that `singleflight_` runs is on record there. -/
private theorem invoked_of_invokes {d : SingleFlight.Event Call} {value : Bytes}
    (taken : s.step? md5 (.flight d) = some s') (invoked : s.invokes (.flight d) = some (c, value)) :
    (c, value) ∈ s'.singleflight_.invoked := by
  obtain ⟨flights, block, rest⟩ := flight_cases taken
  have same : s'.singleflight_ = flights := by
    rcases rest with ⟨c, query, -, -, rfl⟩ | ⟨n, query, result, -, -, rfl⟩ | ⟨-, -, rfl⟩
    · rfl
    · rfl
    · rfl
  rw [same]
  cases d with
  | call_back c' outcome =>
    obtain ⟨key, f, result, calling, rfl⟩ := SingleFlight.State.call_back_cases block
    simp only [invokes, calling, Option.some.injEq, Prod.mk.injEq] at invoked
    obtain ⟨rfl, rfl⟩ := invoked
    exact List.mem_append_right _ (List.mem_singleton_self _)
  | notify n outcome =>
    obtain ⟨key, result, f, c', rest, notifying, rfl⟩ := SingleFlight.State.notify_cases outcome block
    simp only [invokes, notifying, Option.some.injEq, Prod.mk.injEq] at invoked
    obtain ⟨rfl, rfl⟩ := invoked
    exact List.mem_append_right _ (List.mem_singleton_self _)
  | elect | join | lookup | publish | erase => contradiction

/-- Whatever a callback is handed is genuine for the key of its own query. -/
theorem Genuine.of_invokes (genuine : s'.Genuine md5 K) (before : s.Genuine md5 K) {value : Bytes}
    (taken : s.step? md5 e = some s') (invoked : s.invokes e = some (c, value)) :
    ∃ query, (s'.doing c).query = some query ∧ K (hash_query md5 query) value := by
  cases e with
  | call_back c' outcome =>
    obtain ⟨query, value', hit, rfl⟩ := call_back_cases outcome taken
    simp only [invokes, hit, Option.some.injEq, Prod.mk.injEq] at invoked
    obtain ⟨rfl, rfl⟩ := invoked
    refine ⟨query, ?_, before.found (c := c') (by rw [hit]; rfl)⟩
    simp only [move, Function.update_self]
    cases outcome <;> rfl
  | flight d =>
    obtain ⟨key, named, holds⟩ := genuine.flights.invoked (invoked_of_invokes taken invoked)
    obtain ⟨query, flying, rfl⟩ := genuine.tied.doing named
    exact ⟨query, by rw [flying]; rfl, holds⟩
  | getL1_shared | getL1_unique | getL2 | promote | putL1 | putL2 => contradiction

end State

end FlightProxy.QueryCache
