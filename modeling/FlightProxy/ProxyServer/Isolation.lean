import FlightProxy.ProxyServer.Notifications
import FlightProxy.QueryCache.Isolation
import FlightProxy.Transition.Unwinding

/-! # Sessions that ask for keys of their own

Two runs of the proxy in which some sessions get the same inputs in the same order, while the others
may do anything else. If no other session asks for a key that these sessions ask for, and no result
under such a key is evicted from L1, then these sessions end in the same states.
-/

namespace FlightProxy

open QueryCache (hash_query)

namespace Core

/-- Every query that the session is at work on meets the condition. -/
structure Queries (P : Bytes → Prop) (c : Core) : Prop where
  calling : ∀ {query data}, c.client_handler = .calling query data → P query
  leading : c.current_query_ ≠ [] → P c.current_query_
  notifying : ∀ {k query value}, c.server_handler = .notifying k query value → P query

variable {P : Bytes → Prop} {c c' : Core} {e : SessionEvent}

theorem queries_init : Queries P ⟨.idle, .idle, [], 0, 0, []⟩ :=
  ⟨nofun, fun leads => absurd rfl leads, nofun⟩

theorem Queries.bridge (queries : c.Queries P) (step : Bridge c e c')
    (asks : ∀ data query, e = .complete .client_read (.ok data) → intercept data = some query →
      P query) : c'.Queries P := by
  obtain ⟨calling, leading, notifying⟩ := queries
  cases step with
  | quiet | early | passes | delivers | responds => exact ⟨calling, leading, notifying⟩
  | asks data sql_query idle nonempty query =>
    refine ⟨?_, leading, notifying⟩
    intro query' data' here
    obtain ⟨rfl, rfl⟩ := ClientHandler.calling.inj here
    exact asks data sql_query rfl query
  | answered => exact ⟨nofun, leading, notifying⟩
  | leads sql_query data fate here => exact ⟨nofun, fun _ => calling here, notifying⟩
  | notifies data idle leads =>
    refine ⟨calling, leading, ?_⟩
    intro k query value here
    obtain ⟨-, rfl, -⟩ := ServerHandler.notifying.inj here
    exact leading leads
  | notified => exact ⟨calling, fun leads => absurd rfl leads, nofun⟩

end Core

namespace QueryCache.Event

variable {Call : Type*}

/-- Whether the command of the step reaches Redis. -/
def reached? : Event Call → Option Bool
  | .getL2 _ reached | .putL2 _ reached => some reached
  | _ => none

/-- The same call takes its next step, and the commands of both reach Redis, or neither. -/
def Alike (e e' : Event Call) : Prop :=
  e.actor = e'.actor ∧ ∀ r r', e.reached? = some r → e'.reached? = some r' → r = r'

end QueryCache.Event

namespace ProxyServer

open Transition

/-- The session that takes the step. -/
def Event.owner : Event → ℕ
  | .session i _ => i
  | .cache e => e.call.1

/-- The session and the text, when a step reads a query. -/
def Event.asks : Event → Option (ℕ × Bytes)
  | .session i (.complete .client_read (.ok data)) => (intercept data).map (Prod.mk i)
  | _ => none

/-- The queries that the clients of a run send. -/
def questions (es : List Event) : List (ℕ × Bytes) := es.filterMap Event.asks

/-- Steps of the same handler or call, with the same inputs. What doSingleFlight returns, and what a
call of the cache does next, is no input. -/
def Alike : Event → Event → Prop
  | .session i (.flight_result _), .session j (.flight_result _) => i = j
  | .session i d, .session j d' => i = j ∧ d = d'
  | .cache e, .cache e' => e.Alike e'
  | _, _ => False

theorem Alike.refl (e : Event) : Alike e e := by
  cases e with
  | session i d => cases d <;> first | exact ⟨rfl, rfl⟩ | exact rfl
  | cache d =>
    refine ⟨rfl, fun r r' given given' => ?_⟩
    exact Option.some.inj (given.symm.trans given')

/-- The step evicts the binding of the key. -/
def Drops (md5 : Bytes → Bytes) (p : ProxyServer) (key : Bytes) : Event → Prop
  | .cache e => p.cache.Drops md5 key e
  | .session _ _ => False

/-- The step evicts no binding under these keys. -/
def Spares (md5 : Bytes → Bytes) (K : Bytes → Prop) (p : ProxyServer) (e : Event) : Prop :=
  ∀ key, K key → ¬ p.Drops md5 key e

/-- What the sessions are at work on, and the calls that they have made. -/
structure Asking (md5 : Bytes → Bytes) (Q : ℕ → Bytes → Prop) (p : ProxyServer) : Prop where
  notifies : p.Notifies md5
  sessions : ∀ i, (p.sessions i).core.Queries (Q i)
  calls : p.cache.Asks fun c => Q c.1

variable {md5 : Bytes → Bytes} {store : Store} {p p' q q' : ProxyServer} {e e' : Event}
  {Q : ℕ → Bytes → Prop} {K : Bytes → Prop} {T : ℕ → Prop} {es es' : List Event}

theorem asking_init : (init store).Asking md5 Q :=
  ⟨notifies_init, fun _ => Core.queries_init, QueryCache.State.asks_init _ store⟩

theorem Asking.step (asking : p.Asking md5 Q) (asks : ∀ i query, e.asks = some (i, query) → Q i query)
    (taken : p.step? md5 e = some p') : p'.Asking md5 Q := by
  refine ⟨asking.notifies.step taken, fun i => ?_, ?_⟩
  · rcases turn_cases taken i with ⟨-, same⟩ | ⟨d, rfl, -, ran, -⟩ | ⟨d, call, value, -, -, ran⟩
    · rw [same]
      exact asking.sessions i
    · apply (asking.sessions i).bridge (Session.bridge_of_step ran)
      rintro data query rfl here
      apply asks
      rw [Event.asks, here]
      rfl
    · exact (asking.sessions i).bridge (Session.bridge_of_step ran) nofun
  · cases e with
    | session i d =>
      rw [cache_of_session taken]
      exact asking.calls
    | cache d =>
      obtain ⟨entered, -⟩ := cache_cases taken
      apply asking.calls.step _ _ (cache_of_cache taken)
      · rintro c query rfl
        obtain ⟨data, calling, -⟩ := asking.notifies.calling_of_enters entered
        exact (asking.sessions c.1).calling calling
      · rintro n query result rfl
        exact (asking.sessions n.1).notifying (notifying_of_enters entered)

/-! ## The next step of a call -/

/-- The next step of a call, if its command reaches Redis or not. -/
def upcoming (md5 : Bytes → Bytes) (p : ProxyServer) (reached : Bool) :
    (ℕ × ℕ) ⊕ (ℕ × ℕ) → Option (QueryCache.Event (ℕ × ℕ))
  | .inl c =>
    match p.cache.doing c with
    | .idle =>
      match (p.sessions c.1).client_handler with
      | .calling query _ => some (.getL1_shared c query)
      | .idle => none
    | .present _ => some (.getL1_unique c)
    | .missed _ => some (.getL2 c reached)
    | .fetched _ _ => some (.promote c)
    | .hit _ _ => some (.call_back c .returned)
    | .electing query => some (.flight (.elect c (hash_query md5 query)))
    | .flying _ =>
      match p.cache.singleflight_.doing c with
      | .joining _ _ => some (.flight (.join c))
      | .calling _ _ _ => some (.flight (.call_back c .returned))
      | _ => none
    | _ => none
  | .inr n =>
    match p.cache.notifying n with
    | .idle =>
      match (p.sessions n.1).server_handler with
      | .notifying _ query result => some (.putL1 n query result)
      | .idle => none
    | .pushing _ _ => some (.putL2 n reached)
    | .publishing query result => some (.flight (.lookup n (hash_query md5 query) result))
    | .flying _ _ =>
      match p.cache.singleflight_.notifying n with
      | .publishing _ _ _ => some (.flight (.publish n))
      | .notifying _ _ _ (_ :: _) => some (.flight (.notify n .returned))
      | .notifying _ _ _ [] => some (.flight (.erase n))
      | _ => none

/-- A step of the cache is the next step of its call. -/
theorem upcoming_of_step {d : QueryCache.Event (ℕ × ℕ)} {reached : Bool} (notifies : p.Notifies md5)
    (input : ∀ r, d.reached? = some r → r = reached) (taken : p.step? md5 (.cache d) = some p') :
    p.upcoming md5 reached d.actor = some d := by
  obtain ⟨entered, -⟩ := cache_cases taken
  have moved := cache_of_cache taken
  cases d with
  | getL1_shared c query =>
    obtain ⟨idle, -⟩ := QueryCache.State.getL1_shared_cases moved
    obtain ⟨data, calling, -⟩ := notifies.calling_of_enters entered
    simp only [QueryCache.Event.actor, upcoming, idle, calling]
  | getL1_unique c =>
    obtain ⟨query, present, -⟩ := QueryCache.State.getL1_unique_cases moved
    simp only [QueryCache.Event.actor, upcoming, present]
  | getL2 c reached' =>
    obtain ⟨query, missed, -⟩ := QueryCache.State.getL2_cases moved
    simp only [QueryCache.Event.actor, upcoming, missed, input reached' rfl]
  | promote c =>
    obtain ⟨query, value, fetched, -⟩ := QueryCache.State.promote_cases moved
    simp only [QueryCache.Event.actor, upcoming, fetched]
  | call_back c outcome =>
    obtain ⟨query, value, hit, -⟩ := QueryCache.State.call_back_cases outcome moved
    obtain rfl : outcome = .returned := of_decide_eq_true entered
    simp only [QueryCache.Event.actor, upcoming, hit]
  | putL1 n query result =>
    obtain ⟨idle, -⟩ := QueryCache.State.putL1_cases moved
    simp only [QueryCache.Event.actor, upcoming, idle, notifying_of_enters entered]
  | putL2 n reached' =>
    obtain ⟨query, result, pushing, -⟩ := QueryCache.State.putL2_cases moved
    simp only [QueryCache.Event.actor, upcoming, pushing, input reached' rfl]
  | flight b =>
    obtain ⟨flights, block, -⟩ := QueryCache.State.flight_cases moved
    cases b with
    | elect c key =>
      obtain ⟨query, flights, electing, rfl, -⟩ := QueryCache.State.flight_elect_cases moved
      simp only [QueryCache.Event.actor, upcoming, electing]
    | join c =>
      obtain ⟨key, f, joining, -⟩ := SingleFlight.State.join_cases block
      obtain ⟨query, flying, -⟩ := notifies.tied.doing (c := c) (by rw [joining]; rfl)
      simp only [QueryCache.Event.actor, upcoming, flying, joining]
    | call_back c outcome =>
      obtain ⟨key, f, result, calling, -⟩ := SingleFlight.State.call_back_cases block
      obtain ⟨query, flying, -⟩ := notifies.tied.doing (c := c) (by rw [calling]; rfl)
      obtain rfl : outcome = .returned := of_decide_eq_true entered
      simp only [QueryCache.Event.actor, upcoming, flying, calling]
    | lookup n key result =>
      obtain ⟨query, flights, publishing, rfl, -⟩ := QueryCache.State.flight_lookup_cases moved
      simp only [QueryCache.Event.actor, upcoming, publishing]
    | publish n =>
      obtain ⟨key, result, f, publishing, -⟩ := SingleFlight.State.publish_cases block
      obtain ⟨query, flying, -⟩ := notifies.tied.notifying (n := n) (by rw [publishing]; rfl)
      simp only [QueryCache.Event.actor, upcoming, flying, publishing]
    | notify n outcome =>
      obtain ⟨key, result, f, c, rest, notifying, -⟩ := SingleFlight.State.notify_cases outcome block
      obtain ⟨query, flying, -⟩ := notifies.tied.notifying (n := n) (by rw [notifying]; rfl)
      obtain rfl : outcome = .returned := of_decide_eq_true entered
      simp only [QueryCache.Event.actor, upcoming, flying, notifying]
    | erase n =>
      obtain ⟨key, result, f, notifying, -⟩ := SingleFlight.State.erase_cases block
      obtain ⟨query, flying, -⟩ := notifies.tied.notifying (n := n) (by rw [notifying]; rfl)
      simp only [QueryCache.Event.actor, upcoming, flying, notifying]

/-! ## Two runs -/

/-- What the sessions of a run keep, when a query shows whether it is one of these sessions that asks. -/
structure Keyed (md5 : Bytes → Bytes) (K : Bytes → Prop) (T : ℕ → Prop) (p : ProxyServer) : Prop where
  asking : p.Asking md5 fun i query => K (hash_query md5 query) ↔ T i
  genuine : p.cache.Genuine md5 fun _ _ => True

theorem Keyed.cache (keyed : p.Keyed md5 K T) : p.cache.Keyed md5 K fun c => T c.1 :=
  ⟨keyed.genuine, keyed.asking.calls⟩

theorem keyed_init (l1_max_size_ : ℕ) (l1_enabled_ redis_enabled_ : Bool) :
    (init { l1 := { l1_max_size_, l1_enabled_ }, redis_enabled_ }).Keyed md5 K T := by
  refine ⟨asking_init, QueryCache.State.genuine_init ?_ rfl nofun⟩
  exact L1.linked_empty l1_max_size_ l1_enabled_

/-- A query that the step reads is of a key that tells whose it is. -/
def Tells (md5 : Bytes → Bytes) (K : Bytes → Prop) (T : ℕ → Prop) (e : Event) : Prop :=
  ∀ i query, e.asks = some (i, query) → (K (hash_query md5 query) ↔ T i)

theorem Keyed.step (keyed : p.Keyed md5 K T) (tells : Tells md5 K T e)
    (taken : p.step? md5 e = some p') : p'.Keyed md5 K T := by
  refine ⟨keyed.asking.step tells taken, ?_⟩
  cases e with
  | session i d =>
    rw [cache_of_session taken]
    exact keyed.genuine
  | cache d => exact keyed.genuine.step (fun _ _ _ _ => trivial) (cache_of_cache taken)

/-- A call begins with a query of its session. -/
private theorem Keyed.opens (keyed : p.Keyed md5 K T) {d : QueryCache.Event (ℕ × ℕ)}
    (entered : p.enters d = true) : QueryCache.State.Opens md5 K (fun c => T c.1) d := by
  cases d with
  | getL1_shared c query =>
    obtain ⟨data, calling, -⟩ := keyed.asking.notifies.calling_of_enters entered
    exact (keyed.asking.sessions c.1).calling calling
  | putL1 n query result =>
    exact (keyed.asking.sessions n.1).notifying (notifying_of_enters entered)
  | _ => trivial

/-- Two states in which these sessions are the same, and find the same in the cache. -/
structure Looks (md5 : Bytes → Bytes) (K : Bytes → Prop) (T : ℕ → Prop) (p q : ProxyServer) : Prop where
  sessions : ∀ {i}, T i → p.sessions i = q.sessions i
  cache : p.cache.Agree K (fun c => T c.1) q.cache
  keyed : p.Keyed md5 K T
  keyed' : q.Keyed md5 K T

theorem Looks.symm (looks : p.Looks md5 K T q) : q.Looks md5 K T p :=
  ⟨fun own => (looks.sessions own).symm, looks.cache.symm, looks.keyed', looks.keyed⟩

/-- A step of another session changes nothing that these sessions see. -/
private theorem Looks.aside (looks : p.Looks md5 K T q) (tells : Tells md5 K T e)
    (spares : p.Spares md5 K e) (other : ¬ T e.owner) (taken : p.step? md5 e = some p') :
    p'.Looks md5 K T q := by
  have kept : ∀ {i}, T i → p'.sessions i = p.sessions i := by
    intro i own
    rcases turn_cases taken i with ⟨-, same⟩ | ⟨d, rfl, -⟩ | ⟨d, call, value, rfl, invoked, -⟩
    · exact same
    · exact absurd own other
    · exact absurd ((looks.keyed.cache.invokes_iff (cache_of_cache taken) invoked).mp own) other
  refine ⟨fun own => (kept own).trans (looks.sessions own), ?_, looks.keyed.step tells taken,
    looks.keyed'⟩
  cases e with
  | session i d =>
    rw [cache_of_session taken]
    exact looks.cache
  | cache d =>
    obtain ⟨entered, -⟩ := cache_cases taken
    exact (QueryCache.State.agree_aside looks.keyed.cache (looks.keyed.opens entered) spares other
      (cache_of_cache taken)).symm.trans looks.cache

/-- The next step of one of the calls is the same. -/
private theorem Looks.upcoming (looks : p.Looks md5 K T q) {actor : (ℕ × ℕ) ⊕ (ℕ × ℕ)}
    (own : T (actor.elim Prod.fst Prod.fst)) (reached : Bool) :
    p.upcoming md5 reached actor = q.upcoming md5 reached actor := by
  cases actor with
  | inl c =>
    have own : T c.1 := own
    simp only [ProxyServer.upcoming, looks.cache.doing own, looks.sessions own,
      looks.cache.singleflight_doing looks.keyed.cache looks.keyed'.cache own]
  | inr n =>
    have own : T n.1 := own
    simp only [ProxyServer.upcoming, looks.cache.notifying own, looks.sessions own,
      looks.cache.singleflight_notifying looks.keyed.cache looks.keyed'.cache own]

/-- Alike steps of one of these sessions are the same step. -/
private theorem Looks.same_step (looks : p.Looks md5 K T q) (own : T e.owner) (alike : Alike e e')
    (taken : p.step? md5 e = some p') (taken' : q.step? md5 e' = some q') : e = e' := by
  cases e with
  | session i d =>
    cases e' with
    | session j d' =>
      have returned : ∀ c : ℕ × ℕ, T c.1 → p.cache.returned c = q.cache.returned c := by
        intro c own
        simp only [QueryCache.State.returned, looks.cache.doing own,
          looks.cache.singleflight_doing looks.keyed.cache looks.keyed'.cache own]
      cases d with
      | flight_result result =>
        cases d' with
        | flight_result result' =>
          obtain rfl : i = j := alike
          obtain ⟨permitted, -⟩ := own_step taken
          obtain ⟨permitted', -⟩ := own_step taken'
          have told : p.cache.returned (i, (p.sessions i).calls - 1) = some result :=
            of_decide_eq_true permitted
          have told' : q.cache.returned (i, (q.sessions i).calls - 1) = some result' :=
            of_decide_eq_true permitted'
          rw [returned (i, _) own, looks.sessions (i := i) own, told'] at told
          rw [Option.some.inj told]
        | _ =>
          obtain ⟨-, other⟩ : i = j ∧ _ = _ := alike
          contradiction
      | _ =>
        obtain ⟨rfl, rfl⟩ : i = j ∧ _ = _ := alike
        rfl
    | cache d' => exact absurd alike (by cases d <;> exact id)
  | cache d =>
    cases e' with
    | session j d' => exact absurd alike id
    | cache d' =>
      obtain ⟨actor, input⟩ := alike
      -- The command of either step, if any, reaches Redis or not.
      obtain ⟨reached, here, here'⟩ : ∃ reached, (∀ r, d.reached? = some r → r = reached) ∧
          ∀ r, d'.reached? = some r → r = reached := by
        cases given : d.reached? with
        | none =>
          refine ⟨d'.reached?.getD false, nofun, fun r given' => ?_⟩
          rw [given']
          rfl
        | some reached =>
          refine ⟨reached, fun r same => (Option.some.inj same).symm, fun r given' => ?_⟩
          exact (input reached r given given').symm
      have next := upcoming_of_step looks.keyed.asking.notifies here taken
      have next' := upcoming_of_step looks.keyed'.asking.notifies here' taken'
      have own : T (d.actor.elim Prod.fst Prod.fst) := by
        have own : T d.call.1 := own
        rw [QueryCache.Event.call] at own
        cases actor : d.actor <;> rwa [actor] at own
      rw [looks.upcoming own, actor, next'] at next
      rw [Option.some.inj next]

/-- The same step of one of these sessions changes both states alike. -/
private theorem Looks.together (looks : p.Looks md5 K T q) (tells : Tells md5 K T e)
    (spares : p.Spares md5 K e) (spares' : q.Spares md5 K e) (own : T e.owner)
    (taken : p.step? md5 e = some p') (taken' : q.step? md5 e = some q') : p'.Looks md5 K T q' := by
  have keyed := looks.keyed.step tells taken
  have keyed' := looks.keyed'.step tells taken'
  -- The step, or the callback that it runs, changes one of these sessions alike.
  have update : ∀ {i d s s'}, T i → (p.sessions i).step? d = some s → (q.sessions i).step? d = some s' →
      ∀ {j}, T j → Function.update p.sessions i s j = Function.update q.sessions i s' j := by
    intro i d s s' own ran ran' j own'
    rw [looks.sessions own] at ran
    obtain rfl := Option.some.inj (ran.symm.trans ran')
    simp only [Function.update_apply, looks.sessions own']
  cases e with
  | session i d =>
    refine ⟨?_, ?_, keyed, keyed'⟩
    · obtain ⟨-, s, ran, rfl⟩ := session_cases taken
      obtain ⟨-, s', ran', rfl⟩ := session_cases taken'
      exact fun {_} mine => update own ran ran' mine
    · rw [cache_of_session taken, cache_of_session taken']
      exact looks.cache
  | cache d =>
    have moved := cache_of_cache taken
    refine ⟨?_, ?_, keyed, keyed'⟩
    · have same := looks.cache.invokes looks.keyed.cache looks.keyed'.cache (e := d) own
      obtain ⟨-, cache, -, rest⟩ := cache_cases taken
      obtain ⟨-, cache', -, rest'⟩ := cache_cases taken'
      rcases rest with ⟨silent, rfl⟩ | ⟨c, value, s, invoked, ran, rfl⟩
      · rcases rest' with ⟨-, rfl⟩ | ⟨c', value', s', invoked', -⟩
        · exact fun {_} mine => looks.sessions mine
        · rw [same, invoked'] at silent
          contradiction
      · rcases rest' with ⟨silent', -⟩ | ⟨c', value', s', invoked', ran', rfl⟩
        · rw [same, silent'] at invoked
          contradiction
        · have own' := (looks.keyed.cache.invokes_iff moved invoked).mpr own
          rw [same, invoked'] at invoked
          obtain ⟨rfl, rfl⟩ := Prod.mk.inj (Option.some.inj invoked)
          exact fun {_} mine => update own' ran ran' mine
    · obtain ⟨entered, -⟩ := cache_cases taken
      exact looks.cache.step looks.keyed.cache looks.keyed'.cache (looks.keyed.opens entered) spares
        spares' own moved (cache_of_cache taken')

/-- Two runs that look alike to these sessions, and in which nobody else asks for their keys and
nothing is evicted under them, leave these sessions in the same states. -/
theorem sessions_of_alike (seen : ℕ → Bool) {start t t' : ProxyServer}
    (keyed : start.Keyed md5 K fun i => seen i = true)
    (tells : ∀ e ∈ es, Tells md5 K (fun i => seen i = true) e)
    (tells' : ∀ e ∈ es', Tells md5 K (fun i => seen i = true) e)
    (run : Path (step? md5) (Spares md5 K) start es t)
    (run' : Path (step? md5) (Spares md5 K) start es' t')
    (alike : List.Forall₂ Alike (es.filter fun e => seen e.owner) (es'.filter fun e => seen e.owner))
    {i : ℕ} (own : seen i = true) : t.sessions i = t'.sessions i := by
  have unwinds : Unwinds (step? md5) (fun p e => Spares md5 K p e ∧ e ∈ es)
      (fun p e => Spares md5 K p e ∧ e ∈ es') (fun e => seen e.owner) Alike
      (Looks md5 K fun i => seen i = true) := by
    constructor
    · rintro p p' q e looks ⟨spares, member⟩ unseen taken
      exact looks.aside (tells e member) spares (Bool.eq_false_iff.mp unseen) taken
    · rintro p q q' e looks ⟨spares, member⟩ unseen taken
      exact (looks.symm.aside (tells' e member) spares (Bool.eq_false_iff.mp unseen) taken).symm
    · rintro p p' q q' e e' looks ⟨spares, member⟩ ⟨spares', -⟩ own alike taken taken'
      obtain rfl := looks.same_step own alike taken taken'
      exact looks.together (tells e member) spares spares' own taken taken'
  have looks : Looks md5 K (fun i => seen i = true) start start :=
    ⟨fun _ => rfl, .refl _, keyed, keyed⟩
  exact (unwinds.run looks run.along run'.along alike).sessions own

end ProxyServer

end FlightProxy
