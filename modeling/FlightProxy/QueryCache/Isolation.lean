import FlightProxy.L1.Roomy
import FlightProxy.QueryCache.Provenance
import FlightProxy.SingleFlight.Isolation

/-! # Calls under their own keys

A set of calls asks for keys of its own. Two states agree on them when they have the same bindings
under these keys, the same flights, and the same program points of these calls. A step of another
call leaves a state in agreement with itself, unless it evicts a binding under one of the keys, and
the same step of one of these calls keeps two states in agreement.
-/

namespace FlightProxy

open Recency

theorem redis_key_injective : Function.Injective redis_key :=
  fun _ _ same => List.append_cancel_left same

namespace Store

/-- The stores have the same results under these keys. -/
structure Agree (K : Bytes → Prop) (s u : Store) : Prop where
  l1_enabled_ : s.l1.l1_enabled_ = u.l1.l1_enabled_
  redis_enabled_ : s.redis_enabled_ = u.redis_enabled_
  bound : ∀ {key}, K key → lookup key s.l1.contents = lookup key u.l1.contents
  held : ∀ {key}, K key → s.redis (redis_key key) = u.redis (redis_key key)

variable {K : Bytes → Prop} {s u v : Store} {key result : Bytes} {reached : Bool}

theorem Agree.refl (s : Store) : s.Agree K s := ⟨rfl, rfl, fun _ => rfl, fun _ => rfl⟩

theorem Agree.symm (agree : s.Agree K u) : u.Agree K s :=
  ⟨agree.l1_enabled_.symm, agree.redis_enabled_.symm, fun own => (agree.bound own).symm,
    fun own => (agree.held own).symm⟩

theorem Agree.trans (agree : s.Agree K u) (agree' : u.Agree K v) : s.Agree K v :=
  ⟨agree.l1_enabled_.trans agree'.l1_enabled_, agree.redis_enabled_.trans agree'.redis_enabled_,
    fun own => (agree.bound own).trans (agree'.bound own),
    fun own => (agree.held own).trans (agree'.held own)⟩

/-- The counters do not matter. -/
theorem agree_stats (s : Store) (stats_ : Stats) : s.Agree K { s with stats_ := stats_ } :=
  ⟨rfl, rfl, fun _ => rfl, fun _ => rfl⟩

theorem l1_enabled_putL1 : (s.putL1 key result).l1.l1_enabled_ = s.l1.l1_enabled_ := by
  rw [putL1, L1.putL1]
  split_ifs with enabled
  · exact L1.putL1_unique_l1_enabled_
  · rfl

/-- putL1 under another key leaves the bindings that it does not evict. -/
theorem agree_putL1 (linked : s.l1.Linked) (other : ¬ K key)
    (spared : ∀ own, K own → ¬ s.l1.Drops key own) : s.Agree K (s.putL1 key result) := by
  refine ⟨l1_enabled_putL1.symm, rfl, fun {own} mine => ?_, fun _ => rfl⟩
  apply (linked.lookup_putL1_of_ne _ (spared own mine)).symm
  rintro rfl
  exact other mine

/-- getL1 moves an entry, and leaves the bindings. -/
theorem agree_getL1_unique (linked : s.l1.Linked) (key : Bytes) :
    s.Agree K { s with l1 := (s.l1.getL1_unique key).2 } := by
  obtain ⟨-, contents, -⟩ := L1.getL1_unique_spec linked key
  refine ⟨L1.getL1_unique_l1_enabled_.symm, rfl, fun {own} _ => ?_, fun _ => rfl⟩
  rw [contents, lookup_touch]

theorem agree_putL2 (other : ¬ K key) : s.Agree K (s.putL2 reached key result) := by
  rw [putL2]
  split_ifs
  · refine ⟨rfl, rfl, fun _ => rfl, fun {own} mine => ?_⟩
    apply (Function.update_of_ne _ _ _).symm
    intro same
    rw [redis_key_injective same] at mine
    exact other mine
  · exact .refl s

theorem Agree.putL1 (agree : s.Agree K u) (key result : Bytes) (linked : s.l1.Linked) (linked' : u.l1.Linked)
    (spared : ∀ own, K own → ¬ s.l1.Drops key own) (spared' : ∀ own, K own → ¬ u.l1.Drops key own) :
    (s.putL1 key result).Agree K (u.putL1 key result) := by
  refine ⟨?_, agree.redis_enabled_, fun {own} mine => ?_, agree.held⟩
  · rw [l1_enabled_putL1, l1_enabled_putL1, agree.l1_enabled_]
  · by_cases same : own = key
    · subst same
      simp only [Store.putL1, linked.lookup_putL1_self, linked'.lookup_putL1_self, agree.l1_enabled_,
        agree.bound mine]
    · simp only [Store.putL1, linked.lookup_putL1_of_ne same (spared own mine),
        linked'.lookup_putL1_of_ne same (spared' own mine), agree.bound mine]

theorem Agree.putL2 (agree : s.Agree K u) (key : Bytes) :
    (s.putL2 reached key result).Agree K (u.putL2 reached key result) := by
  simp only [Store.putL2, agree.redis_enabled_]
  split_ifs
  · refine ⟨agree.l1_enabled_, rfl, agree.bound, fun {own} mine => ?_⟩
    simp only [Function.update_apply, agree.held mine]
  · exact agree

/-- What getL1 and getL2 find is the same. -/
theorem Agree.getL1_shared (agree : s.Agree K u) (linked : s.l1.Linked) (linked' : u.l1.Linked)
    (own : K key) : s.l1.getL1_shared key = u.l1.getL1_shared key := by
  rw [Bool.eq_iff_iff, linked.getL1_shared_iff, linked'.getL1_shared_iff, agree.l1_enabled_,
    agree.bound own]

theorem Agree.getL1_unique (agree : s.Agree K u) (linked : s.l1.Linked) (linked' : u.l1.Linked)
    (own : K key) : (s.l1.getL1_unique key).1 = (u.l1.getL1_unique key).1 := by
  rw [(L1.getL1_unique_spec linked key).1, (L1.getL1_unique_spec linked' key).1, agree.bound own]

theorem Agree.getL2 (agree : s.Agree K u) (reached : Bool) (own : K key) :
    s.getL2 reached key = u.getL2 reached key := by
  rw [Store.getL2, Store.getL2, agree.redis_enabled_, agree.held own]

end Store

namespace QueryCache

variable {Call : Type*}

/-- The call that takes the step: one of doSingleFlight, or one of notifyFlightResult. -/
def Event.actor : Event Call → Call ⊕ Call
  | .getL1_shared c _ | .getL1_unique c | .getL2 c _ | .promote c | .call_back c _ => .inl c
  | .flight (.elect c _) | .flight (.join c) | .flight (.call_back c _) => .inl c
  | .putL1 n _ _ | .putL2 n _ => .inr n
  | .flight (.lookup n _ _) | .flight (.publish n) | .flight (.notify n _) | .flight (.erase n) => .inr n

def Event.call (e : Event Call) : Call := e.actor.elim id id

namespace State

/-- What the calls in progress ask for. -/
structure Asks (P : Call → Bytes → Prop) (s : State Call) : Prop where
  doing : ∀ {c query}, (s.doing c).query = some query → P c query
  notifying : ∀ {n query result}, (s.notifying n).sends = some (query, result) → P n query

theorem asks_init (P : Call → Bytes → Prop) (store : Store) : (init store : State Call).Asks P :=
  ⟨nofun, nofun⟩

/-- The step evicts the binding of the key. -/
def Drops (md5 : Bytes → Bytes) (s : State Call) (key : Bytes) : Event Call → Prop
  | .putL1 _ query _ => s.store.l1.Drops (hash_query md5 query) key
  | .promote c => ∃ query value, s.doing c = .fetched query value ∧
      s.store.l1.Drops (hash_query md5 query) key
  | _ => False

variable [DecidableEq Call]

/-- The states agree on these calls and keys. -/
structure Agree (K : Bytes → Prop) (T : Call → Prop) (s u : State Call) : Prop where
  store : s.store.Agree K u.store
  doing : ∀ {c}, T c → s.doing c = u.doing c
  notifying : ∀ {n}, T n → s.notifying n = u.notifying n
  flights : ∀ {key}, K key → s.singleflight_.under key = u.singleflight_.under key

variable {md5 : Bytes → Bytes} {P : Call → Bytes → Prop} {K : Bytes → Prop} {T : Call → Prop}
  {s s' u u' v : State Call} {c n : Call} {e : Event Call} {key query : Bytes}

theorem Agree.refl (s : State Call) : s.Agree K T s :=
  ⟨.refl _, fun _ => rfl, fun _ => rfl, fun _ => rfl⟩

theorem Agree.symm (agree : s.Agree K T u) : u.Agree K T s :=
  ⟨agree.store.symm, fun own => (agree.doing own).symm, fun own => (agree.notifying own).symm,
    fun own => (agree.flights own).symm⟩

theorem Agree.trans (agree : s.Agree K T u) (agree' : u.Agree K T v) : s.Agree K T v :=
  ⟨agree.store.trans agree'.store, fun own => (agree.doing own).trans (agree'.doing own),
    fun own => (agree.notifying own).trans (agree'.notifying own),
    fun own => (agree.flights own).trans (agree'.flights own)⟩

theorem Asks.step (asks : s.Asks P) (starts : ∀ c query, e = .getL1_shared c query → P c query)
    (starts' : ∀ n query result, e = .putL1 n query result → P n query)
    (taken : s.step? md5 e = some s') : s'.Asks P := by
  constructor
  · intro c query asked
    rcases doing_cases taken c with same | ⟨-, same | ⟨query', here, -, begun⟩⟩
    · exact asks.doing (same ▸ asked)
    · exact asks.doing (same.symm.trans asked)
    · obtain rfl := Option.some.inj (begun.symm.trans asked)
      exact starts c query' here
  · intro n query result asked
    rcases notifying_cases taken n with same | ⟨-, same | ⟨query', result', here, -, begun⟩⟩
    · exact asks.notifying (same ▸ asked)
    · exact asks.notifying (same.symm.trans asked)
    · obtain ⟨rfl, rfl⟩ := Prod.mk.inj (Option.some.inj (begun.symm.trans asked))
      exact starts' n query' result' here

/-! ## Whose step it is -/

omit [DecidableEq Call] in
theorem Moves.actor {next : DoCall} (moves : Moves md5 s c e next) : e.actor = .inl c := by
  cases moves <;> rfl

theorem doing_of_other (taken : s.step? md5 e = some s') (other : e.call ≠ c) :
    s'.doing c = s.doing c := by
  rcases moves_of_step taken c with same | moves
  · exact same
  · refine absurd ?_ other
    rw [Event.call, moves.actor]
    rfl

theorem notifying_of_other (taken : s.step? md5 e = some s') (other : e.call ≠ n) :
    s'.notifying n = s.notifying n := by
  cases e with
  | getL1_shared c query =>
    obtain ⟨-, ⟨-, rfl⟩ | ⟨-, rfl⟩⟩ := getL1_shared_cases taken
    · rfl
    · rfl
  | getL1_unique c =>
    obtain ⟨query, -, ⟨value, -, rfl⟩ | ⟨-, rfl⟩⟩ := getL1_unique_cases taken
    · rfl
    · rfl
  | getL2 c reached =>
    obtain ⟨query, -, ⟨value, -, rfl⟩ | ⟨-, stats_, rfl⟩⟩ := getL2_cases taken
    · rfl
    · rfl
  | promote c =>
    obtain ⟨query, value, -, rfl⟩ := promote_cases taken
    rfl
  | call_back c outcome =>
    obtain ⟨query, value, -, rfl⟩ := call_back_cases outcome taken
    rfl
  | putL1 m query result =>
    obtain ⟨-, rfl⟩ := putL1_cases taken
    exact Function.update_of_ne (Ne.symm other) ..
  | putL2 m reached =>
    obtain ⟨query, result, -, rfl⟩ := putL2_cases taken
    exact Function.update_of_ne (Ne.symm other) ..
  | flight d =>
    obtain ⟨flights, -, rest⟩ := flight_cases taken
    rcases rest with ⟨c, query, -, -, rfl⟩ | ⟨m, query, result, rfl, -, rfl⟩ | ⟨-, -, rfl⟩
    · rfl
    · exact Function.update_of_ne (Ne.symm other) ..
    · rfl

/-- An election is one of a call that asks for a query with the key. -/
theorem flight_elect_cases (taken : s.step? md5 (.flight (.elect c key)) = some s') :
    ∃ query flights, s.doing c = .electing query ∧ hash_query md5 query = key ∧
      s' = { s.move c (.flying query) with singleflight_ := flights } := by
  obtain ⟨flights, -, ⟨c', query, here, electing, after⟩ | ⟨n, query, result, here, -⟩ | ⟨other, -⟩⟩ :=
    flight_cases taken
  · obtain ⟨rfl, rfl⟩ := SingleFlight.Event.elect.inj here
    exact ⟨query, flights, electing, rfl, after⟩
  · contradiction
  · exact absurd rfl (other c key)

theorem flight_lookup_cases {result : Bytes}
    (taken : s.step? md5 (.flight (.lookup n key result)) = some s') :
    ∃ query flights, s.notifying n = .publishing query result ∧ hash_query md5 query = key ∧
      s' = { s with
        singleflight_ := flights
        notifying := Function.update s.notifying n (.flying query result) } := by
  obtain ⟨flights, -, ⟨c, query, here, -⟩ | ⟨n', query, result', here, publishing, after⟩ | ⟨-, other, -⟩⟩ :=
    flight_cases taken
  · contradiction
  · obtain ⟨rfl, rfl, rfl⟩ := SingleFlight.Event.lookup.inj here
    exact ⟨query, flights, publishing, rfl, after⟩
  · exact absurd rfl (other n key result)

/-- A block of `singleflight_` under a key belongs to a call that asks for a query with the key. -/
theorem Asks.of_concerns (asks : s.Asks P) (tied : s.Tied md5) {d : SingleFlight.Event Call}
    (taken : s.step? md5 (.flight d) = some s') (concerned : s.singleflight_.concerns key d = true) :
    ∃ query, P (Event.flight d).call query ∧ hash_query md5 query = key := by
  have joined : ∀ {c}, (s.singleflight_.doing c).key = some key →
      ∃ query, P c query ∧ hash_query md5 query = key := by
    intro c keyed
    obtain ⟨query, flying, same⟩ := tied.doing keyed
    exact ⟨query, asks.doing (by rw [flying]; rfl), same⟩
  have sent : ∀ {n}, (s.singleflight_.notifying n).key = some key →
      ∃ query, P n query ∧ hash_query md5 query = key := by
    intro n keyed
    obtain ⟨⟨key', result⟩, sends, rfl⟩ := Option.map_eq_some_iff.mp keyed
    obtain ⟨query, flying, same⟩ := tied.notifying sends
    exact ⟨query, asks.notifying (by rw [flying]; rfl), same⟩
  cases d with
  | elect c key' =>
    obtain rfl : key' = key := of_decide_eq_true concerned
    obtain ⟨query, flights, electing, same, -⟩ := flight_elect_cases taken
    exact ⟨query, asks.doing (c := c) (by rw [electing]; rfl), same⟩
  | lookup n key' result =>
    obtain rfl : key' = key := of_decide_eq_true concerned
    obtain ⟨query, flights, publishing, same, -⟩ := flight_lookup_cases taken
    exact ⟨query, asks.notifying (n := n) (by rw [publishing]; rfl), same⟩
  | join | call_back => exact joined (of_decide_eq_true concerned)
  | publish | notify | erase => exact sent (of_decide_eq_true concerned)

/-! ## Steps and agreement -/

/-- What the steps of two states that agree count on: the keys tell whose a call is. -/
structure Keyed (md5 : Bytes → Bytes) (K : Bytes → Prop) (T : Call → Prop) (s : State Call) : Prop
    where
  genuine : s.Genuine md5 fun _ _ => True
  asks : s.Asks fun c query => K (hash_query md5 query) ↔ T c

/-- A step that begins a call asks for a key of its own. -/
def Opens (md5 : Bytes → Bytes) (K : Bytes → Prop) (T : Call → Prop) : Event Call → Prop
  | .getL1_shared c query | .putL1 c query _ => K (hash_query md5 query) ↔ T c
  | _ => True

theorem Keyed.step (keyed : s.Keyed md5 K T) (opens : Opens md5 K T e)
    (taken : s.step? md5 e = some s') : s'.Keyed md5 K T := by
  refine ⟨keyed.genuine.step (fun _ _ _ _ => trivial) taken, keyed.asks.step ?_ ?_ taken⟩
  · rintro c query rfl
    exact opens
  · rintro n query result rfl
    exact opens

/-- A step of another call leaves the stores in agreement, unless it evicts. -/
private theorem agree_store_aside (keyed : s.Keyed md5 K T) (opens : Opens md5 K T e)
    (spared : ∀ key, K key → ¬ s.Drops md5 key e) (other : ¬ T e.call)
    (taken : s.step? md5 e = some s') : s.store.Agree K s'.store := by
  cases e with
  | getL1_shared c query =>
    obtain ⟨-, ⟨-, rfl⟩ | ⟨-, rfl⟩⟩ := getL1_shared_cases taken
    · exact .refl _
    · exact Store.agree_stats ..
  | getL1_unique c =>
    have moved := fun query => Store.agree_getL1_unique (K := K) keyed.genuine.linked (hash_query md5 query)
    obtain ⟨query, -, ⟨value, -, rfl⟩ | ⟨-, rfl⟩⟩ := getL1_unique_cases taken
    · exact (moved query).trans (Store.agree_stats ..)
    · exact (moved query).trans (Store.agree_stats ..)
  | getL2 c reached =>
    obtain ⟨query, -, ⟨value, -, rfl⟩ | ⟨-, stats_, rfl⟩⟩ := getL2_cases taken
    · exact .refl _
    · exact Store.agree_stats ..
  | promote c =>
    obtain ⟨query, value, fetched, rfl⟩ := promote_cases taken
    have foreign : ¬ K (hash_query md5 query) := fun own =>
      other ((keyed.asks.doing (c := c) (by rw [fetched]; rfl)).mp own)
    refine (Store.agree_putL1 keyed.genuine.linked foreign ?_).trans (Store.agree_stats ..)
    exact fun key own drops => spared key own ⟨query, value, fetched, drops⟩
  | call_back c outcome =>
    obtain ⟨query, value, -, rfl⟩ := call_back_cases outcome taken
    exact .refl _
  | putL1 n query result =>
    obtain ⟨-, rfl⟩ := putL1_cases taken
    exact Store.agree_putL1 keyed.genuine.linked (fun own => other (opens.mp own)) spared
  | putL2 n reached =>
    obtain ⟨query, result, pushing, rfl⟩ := putL2_cases taken
    apply Store.agree_putL2
    exact fun own => other ((keyed.asks.notifying (n := n) (by rw [pushing]; rfl)).mp own)
  | flight d =>
    obtain ⟨flights, -, ⟨c, query, -, -, rfl⟩ | ⟨n, query, result, -, -, rfl⟩ | ⟨-, -, rfl⟩⟩ :=
      flight_cases taken
    · exact .refl _
    · exact .refl _
    · exact .refl _

/-- A step of another call leaves a state in agreement with itself, unless it evicts. -/
theorem agree_aside (keyed : s.Keyed md5 K T) (opens : Opens md5 K T e)
    (spared : ∀ key, K key → ¬ s.Drops md5 key e) (other : ¬ T e.call)
    (taken : s.step? md5 e = some s') : s.Agree K T s' := by
  constructor
  · exact agree_store_aside keyed opens spared other taken
  · intro c own
    refine (doing_of_other taken ?_).symm
    rintro rfl
    exact other own
  · intro n own
    refine (notifying_of_other taken ?_).symm
    rintro rfl
    exact other own
  · intro key own
    rcases singleflight_cases taken with ⟨d, rfl, block⟩ | ⟨-, same⟩
    · have step := SingleFlight.State.under_step key keyed.genuine.led keyed.genuine.enrolled block
      cases concerned : s.singleflight_.concerns key d with
      | true =>
        obtain ⟨query, own', rfl⟩ := keyed.asks.of_concerns keyed.genuine.tied taken concerned
        exact absurd (own'.mp own) other
      | false => rwa [concerned, if_neg Bool.false_ne_true] at step
    · rw [same]

/-- Two states that agree move a call to the same point. -/
private theorem Agree.move (agree : s.Agree K T u) {store store' : Store}
    (stores : store.Agree K store') (c : Call) (next : DoCall) :
    ({ s with store := store }.move c next).Agree K T ({ u with store := store' }.move c next) := by
  refine ⟨stores, fun {d} own => ?_, agree.notifying, agree.flights⟩
  simp only [State.move, Function.update_apply, agree.doing own]

private theorem Agree.notify (agree : s.Agree K T u) {store store' : Store}
    (stores : store.Agree K store') (n : Call) (next : NotifyCall) :
    State.Agree K T
      { s with store := store, notifying := Function.update s.notifying n next }
      { u with store := store', notifying := Function.update u.notifying n next } := by
  refine ⟨stores, agree.doing, fun {m} own => ?_, agree.flights⟩
  simp only [Function.update_apply, agree.notifying own]

/-- The points of calls after the same block of `singleflight_`. -/
private theorem Agree.enter (agree : s.Agree K T u) {d : SingleFlight.Event Call}
    (own : T (Event.flight d).call) (taken : s.step? md5 (.flight d) = some s')
    (taken' : u.step? md5 (.flight d) = some u') :
    s'.store.Agree K u'.store ∧ (∀ {c}, T c → s'.doing c = u'.doing c) ∧
      ∀ {n}, T n → s'.notifying n = u'.notifying n := by
  cases d with
  | elect c key =>
    obtain ⟨query, flights, electing, -, rfl⟩ := flight_elect_cases taken
    obtain ⟨query', flights', electing', -, rfl⟩ := flight_elect_cases taken'
    rw [agree.doing (c := c) own] at electing
    obtain rfl := DoCall.electing.inj (electing.symm.trans electing')
    have moved := agree.move agree.store c (.flying query)
    exact ⟨moved.store, moved.doing, moved.notifying⟩
  | lookup n key result =>
    obtain ⟨query, flights, publishing, -, rfl⟩ := flight_lookup_cases taken
    obtain ⟨query', flights', publishing', -, rfl⟩ := flight_lookup_cases taken'
    rw [agree.notifying (n := n) own] at publishing
    obtain ⟨rfl, -⟩ := NotifyCall.publishing.inj (publishing.symm.trans publishing')
    have moved := agree.notify agree.store n (.flying query result)
    exact ⟨moved.store, moved.doing, moved.notifying⟩
  | join | call_back | publish | notify | erase =>
    obtain ⟨flights, -, ⟨c, query, here, -⟩ | ⟨n, query, result, here, -⟩ | ⟨-, -, rfl⟩⟩ :=
      flight_cases taken
    · contradiction
    · contradiction
    · obtain ⟨flights', -, ⟨c, query, here, -⟩ | ⟨n, query, result, here, -⟩ | ⟨-, -, rfl⟩⟩ :=
        flight_cases taken'
      · contradiction
      · contradiction
      · exact ⟨agree.store, agree.doing, agree.notifying⟩

/-- The same step of one of the calls keeps two states in agreement. -/
theorem Agree.step (agree : s.Agree K T u) (keyed : s.Keyed md5 K T) (keyed' : u.Keyed md5 K T)
    (opens : Opens md5 K T e) (spared : ∀ key, K key → ¬ s.Drops md5 key e)
    (spared' : ∀ key, K key → ¬ u.Drops md5 key e) (own : T e.call)
    (taken : s.step? md5 e = some s') (taken' : u.step? md5 e = some u') : s'.Agree K T u' := by
  have linked := keyed.genuine.linked
  have linked' := keyed'.genuine.linked
  cases e with
  | getL1_shared c query =>
    have same := agree.store.getL1_shared linked linked' (opens.mpr own)
    obtain ⟨-, ⟨found, rfl⟩ | ⟨absent, rfl⟩⟩ := getL1_shared_cases taken
    · obtain ⟨-, ⟨-, rfl⟩ | ⟨absent', rfl⟩⟩ := getL1_shared_cases taken'
      · exact agree.move agree.store c _
      · rw [found, absent'] at same
        contradiction
    · obtain ⟨-, ⟨found', rfl⟩ | ⟨-, rfl⟩⟩ := getL1_shared_cases taken'
      · rw [absent, found'] at same
        contradiction
      · exact agree.move ((Store.agree_stats ..).symm.trans (agree.store.trans (Store.agree_stats ..))) c _
  | getL1_unique c =>
    obtain ⟨query, present, rest⟩ := getL1_unique_cases taken
    obtain ⟨query', present', rest'⟩ := getL1_unique_cases taken'
    have asked : K (hash_query md5 query) :=
      (keyed.asks.doing (c := c) (by rw [present]; rfl)).mpr own
    rw [agree.doing (c := c) own] at present
    obtain rfl := DoCall.present.inj (present.symm.trans present')
    have same := agree.store.getL1_unique linked linked' asked
    have stores := ((Store.agree_getL1_unique (K := K) linked (hash_query md5 query)).symm.trans
      agree.store).trans (Store.agree_getL1_unique linked' (hash_query md5 query))
    have stores' := fun stats stats' => ((Store.agree_stats _ stats).symm.trans stores).trans
      (Store.agree_stats _ stats')
    rcases rest with ⟨value, found, rfl⟩ | ⟨absent, rfl⟩
    · rcases rest' with ⟨value', found', rfl⟩ | ⟨absent', rfl⟩
      · obtain rfl := Option.some.inj (found.symm.trans (same.trans found'))
        exact agree.move (stores' _ _) c _
      · rw [found, absent'] at same
        contradiction
    · rcases rest' with ⟨value', found', rfl⟩ | ⟨absent', rfl⟩
      · rw [absent, found'] at same
        contradiction
      · exact agree.move (stores' _ _) c _
  | getL2 c reached =>
    obtain ⟨query, missed, rest⟩ := getL2_cases taken
    obtain ⟨query', missed', rest'⟩ := getL2_cases taken'
    have asked : K (hash_query md5 query) :=
      (keyed.asks.doing (c := c) (by rw [missed]; rfl)).mpr own
    rw [agree.doing (c := c) own] at missed
    obtain rfl := DoCall.missed.inj (missed.symm.trans missed')
    have same := agree.store.getL2 reached asked
    rcases rest with ⟨value, found, rfl⟩ | ⟨absent, stats_, rfl⟩
    · rcases rest' with ⟨value', found', rfl⟩ | ⟨absent', stats_', rfl⟩
      · obtain rfl := Option.some.inj (found.symm.trans (same.trans found'))
        exact agree.move agree.store c _
      · rw [found, absent'] at same
        contradiction
    · rcases rest' with ⟨value', found', rfl⟩ | ⟨absent', stats_', rfl⟩
      · rw [absent, found'] at same
        contradiction
      · exact agree.move ((Store.agree_stats ..).symm.trans (agree.store.trans (Store.agree_stats ..))) c _
  | promote c =>
    obtain ⟨query, value, fetched, rfl⟩ := promote_cases taken
    obtain ⟨query', value', fetched', rfl⟩ := promote_cases taken'
    have fetched₀ := fetched
    rw [agree.doing (c := c) own] at fetched
    obtain ⟨rfl, rfl⟩ := DoCall.fetched.inj (fetched.symm.trans fetched')
    have stores := agree.store.putL1 (hash_query md5 query) value linked linked'
      (fun key own drops => spared key own ⟨query, value, fetched₀, drops⟩)
      (fun key own drops => spared' key own ⟨query, value, fetched', drops⟩)
    exact agree.move ((Store.agree_stats ..).symm.trans (stores.trans (Store.agree_stats ..))) c _
  | call_back c outcome =>
    obtain ⟨query, value, hit, rfl⟩ := call_back_cases outcome taken
    obtain ⟨query', value', hit', rfl⟩ := call_back_cases outcome taken'
    rw [agree.doing (c := c) own] at hit
    obtain ⟨rfl, rfl⟩ := DoCall.hit.inj (hit.symm.trans hit')
    exact agree.move agree.store c _
  | putL1 n query result =>
    obtain ⟨-, rfl⟩ := putL1_cases taken
    obtain ⟨-, rfl⟩ := putL1_cases taken'
    exact agree.notify (agree.store.putL1 (hash_query md5 query) result linked linked' spared spared') n _
  | putL2 n reached =>
    obtain ⟨query, result, pushing, rfl⟩ := putL2_cases taken
    obtain ⟨query', result', pushing', rfl⟩ := putL2_cases taken'
    rw [agree.notifying (n := n) own] at pushing
    obtain ⟨rfl, rfl⟩ := NotifyCall.pushing.inj (pushing.symm.trans pushing')
    exact agree.notify (agree.store.putL2 (hash_query md5 query)) n _
  | flight d =>
    obtain ⟨stores, doing, notifying⟩ := agree.enter own taken taken'
    refine ⟨stores, doing, notifying, fun {key} mine => ?_⟩
    have block : s.singleflight_.step? d = some s'.singleflight_ := by
      rcases singleflight_cases taken with ⟨d', here, block⟩ | ⟨other, -⟩
      · obtain rfl := Event.flight.inj here
        exact block
      · exact absurd rfl (other d)
    have block' : u.singleflight_.step? d = some u'.singleflight_ := by
      rcases singleflight_cases taken' with ⟨d', here, block⟩ | ⟨other, -⟩
      · obtain rfl := Event.flight.inj here
        exact block
      · exact absurd rfl (other d)
    exact SingleFlight.State.under_congr keyed.genuine.led keyed.genuine.enrolled
      keyed'.genuine.led keyed'.genuine.enrolled (agree.flights mine) block block'

private theorem Agree.joined (agree : s.Agree K T u) (keyed : s.Keyed md5 K T) (own : T c)
    (joined : (s.singleflight_.doing c).key ≠ none) :
    s.singleflight_.doing c = u.singleflight_.doing c := by
  obtain ⟨key, joined⟩ := Option.ne_none_iff_exists'.mp joined
  obtain ⟨query, flying, rfl⟩ := keyed.genuine.tied.doing joined
  have asked := (keyed.asks.doing (c := c) (by rw [flying]; rfl)).mpr own
  exact (SingleFlight.State.doing_of_under (agree.flights asked) joined).symm

/-- The points of the calls in `singleflight_` agree too. -/
theorem Agree.singleflight_doing (agree : s.Agree K T u) (keyed : s.Keyed md5 K T)
    (keyed' : u.Keyed md5 K T) (own : T c) :
    s.singleflight_.doing c = u.singleflight_.doing c := by
  by_cases joined : (s.singleflight_.doing c).key = none
  · by_cases joined' : (u.singleflight_.doing c).key = none
    · rw [SingleFlight.DoCall.key_eq_none_iff.mp joined, SingleFlight.DoCall.key_eq_none_iff.mp joined']
    · exact (agree.symm.joined keyed' own joined').symm
  · exact agree.joined keyed own joined

private theorem Agree.sent (agree : s.Agree K T u) (keyed : s.Keyed md5 K T) (own : T n)
    (sent : (s.singleflight_.notifying n).sends ≠ none) :
    s.singleflight_.notifying n = u.singleflight_.notifying n := by
  obtain ⟨⟨key, result⟩, sent⟩ := Option.ne_none_iff_exists'.mp sent
  obtain ⟨query, flying, rfl⟩ := keyed.genuine.tied.notifying sent
  have asked := (keyed.asks.notifying (n := n) (by rw [flying]; rfl)).mpr own
  apply (SingleFlight.State.notifying_of_under (agree.flights asked) _).symm
  rw [SingleFlight.NotifyCall.key, sent]
  rfl

theorem Agree.singleflight_notifying (agree : s.Agree K T u) (keyed : s.Keyed md5 K T)
    (keyed' : u.Keyed md5 K T) (own : T n) :
    s.singleflight_.notifying n = u.singleflight_.notifying n := by
  by_cases sent : (s.singleflight_.notifying n).sends = none
  · by_cases sent' : (u.singleflight_.notifying n).sends = none
    · rw [SingleFlight.NotifyCall.sends_eq_none_iff.mp sent,
        SingleFlight.NotifyCall.sends_eq_none_iff.mp sent']
    · exact (agree.symm.sent keyed' own sent').symm
  · exact agree.sent keyed own sent

/-- The next step of one of the calls invokes the same callback with the same value. -/
theorem Agree.invokes (agree : s.Agree K T u) (keyed : s.Keyed md5 K T) (keyed' : u.Keyed md5 K T)
    (own : T e.call) : s.invokes e = u.invokes e := by
  cases e with
  | call_back c outcome => simp only [State.invokes, agree.doing (c := c) own]
  | flight d =>
    cases d with
    | call_back c outcome =>
      simp only [State.invokes, agree.singleflight_doing keyed keyed' (c := c) own]
    | notify n outcome =>
      simp only [State.invokes, agree.singleflight_notifying keyed keyed' (n := n) own]
    | elect | join | lookup | publish | erase => rfl
  | getL1_shared | getL1_unique | getL2 | promote | putL1 | putL2 => rfl

/-- A callback that a step invokes is one of these calls exactly when the step is. -/
theorem Keyed.invokes_iff (keyed : s.Keyed md5 K T) (taken : s.step? md5 e = some s') {value : Bytes}
    (invoked : s.invokes e = some (c, value)) : T c ↔ T e.call := by
  unfold State.invokes at invoked
  split at invoked
  · next c' outcome =>
    obtain ⟨query, value', hit, -⟩ := call_back_cases outcome taken
    rw [hit] at invoked
    obtain ⟨rfl, -⟩ := Prod.mk.inj (Option.some.inj invoked)
    rfl
  · next c' outcome =>
    obtain ⟨flights, block, -⟩ := flight_cases taken
    obtain ⟨key, f, result, calling, -⟩ := SingleFlight.State.call_back_cases block
    rw [calling] at invoked
    obtain ⟨rfl, -⟩ := Prod.mk.inj (Option.some.inj invoked)
    rfl
  · next n outcome =>
    obtain ⟨flights, block, -⟩ := flight_cases taken
    obtain ⟨key, result, f, c', rest, notifying, -⟩ := SingleFlight.State.notify_cases outcome block
    rw [notifying] at invoked
    obtain ⟨rfl, -⟩ := Prod.mk.inj (Option.some.inj invoked)
    obtain ⟨key', waiter⟩ := keyed.genuine.enrolled.snapshot notifying List.mem_cons_self
    have leads := keyed.genuine.led.doing (c := c') (by rw [waiter]; rfl)
    rw [keyed.genuine.led.notifying (n := n) (by rw [notifying]; rfl)] at leads
    obtain rfl := SingleFlight.DoCall.leader.inj leads
    obtain ⟨query, flying, same⟩ := keyed.genuine.tied.doing (c := c') (by rw [waiter]; rfl)
    obtain ⟨query', flying', same'⟩ :=
      keyed.genuine.tied.notifying (n := n) (by rw [notifying]; rfl)
    have mine := keyed.asks.doing (c := c') (by rw [flying]; rfl)
    have mine' := keyed.asks.notifying (n := n) (by rw [flying']; rfl)
    rw [same] at mine
    rw [same'] at mine'
    exact mine.symm.trans mine'
  · contradiction

end State

end QueryCache

end FlightProxy
