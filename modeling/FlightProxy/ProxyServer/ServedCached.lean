import FlightProxy.ProxyServer.Notifications
import FlightProxy.QueryCache.LatestPut
import FlightProxy.QueryCache.Provenance
import FlightProxy.Session.Lifetime

/-! # What has been served is cached

notifyFlightResult puts before it publishes, and a session relays after it has returned. So in a run
without L2 and without evictions, once anybody has been handed a result for a query the query is in
L1, and a call that begins later is a hit on the latest put.
-/

namespace FlightProxy.ProxyServer

open Recency Transition
open QueryCache (hash_query latest latest_append mem_of_latest)
open scoped List

/-- A client has been handed a result for the query: a callback has run for a call with the query, or
a session has relayed what it notified. -/
def Handed (p : ProxyServer) (query : Bytes) : Prop :=
  (∃ c value, p.cache.doing c = .served query value) ∨
    (∃ c value, (p.cache.doing c).query = some query ∧ (c, value) ∈ p.cache.singleflight_.invoked) ∨
      ∃ i value, [.notify query value, .relay value] <+ (p.sessions i).log

/-- A put of the cache evicts another entry. -/
def Evicts (md5 : Bytes → Bytes) (p : ProxyServer) : Event → Prop
  | .cache d => p.cache.Evicts md5 d
  | .session _ _ => False

/-- The blocks of the cache on a tape. -/
def blocks (es : List Event) : List (QueryCache.Event (ℕ × ℕ)) := es.filterMap Event.cache?

@[simp] theorem blocks_append (first second : List Event) :
    blocks (first ++ second) = blocks first ++ blocks second := List.filterMap_append ..

@[simp] theorem blocks_cache (d : QueryCache.Event (ℕ × ℕ)) : blocks [.cache d] = [d] := rfl

@[simp] theorem blocks_session (i : ℕ) (d : SessionEvent) : blocks [.session i d] = [] := rfl

/-- What a run without evictions keeps. -/
structure Warmed (md5 : Bytes → Bytes) (es : List Event) (p : ProxyServer) : Prop where
  keeps : p.cache.Keeps md5 (blocks es)
  genuine : p.cache.Genuine md5 fun key _ => latest md5 key (blocks es) ≠ none
  notifies : p.Notifies md5
  put : ∀ {n query value}, .putL1 n query value ∈ blocks es →
    (p.cache.notifying n).sends = some (query, value)
  released : ∀ i, (p.sessions i).Released
  /-- The client read's handler waits for a call in progress. -/
  attended : ∀ {c}, (p.cache.doing c).done = false → p.cache.doing c ≠ .idle →
    (p.sessions c.1).client_handler ≠ .idle ∧ c.2 + 1 = (p.sessions c.1).calls

variable {md5 : Bytes → Bytes} {p p' t : ProxyServer} {e : Event} {es es' : List Event}
  {query value key : Bytes} {c : ℕ × ℕ}

theorem warmed_init (l1_max_size_ : ℕ) (redis : Bytes → Option Bytes) :
    (init { l1 := { l1_max_size_ }, redis }).Warmed md5 [] := by
  refine ⟨QueryCache.State.keeps_init l1_max_size_ redis, ?_, notifies_init, nofun,
    fun _ => Session.released_init, fun _ started => absurd rfl started⟩
  exact QueryCache.State.genuine_init (L1.linked_empty l1_max_size_ true) rfl nofun

/-- What has been put under a key stays. -/
theorem latest_mono (bound : latest md5 key (blocks es) ≠ none) (news : List Event) :
    latest md5 key (blocks (es ++ news)) ≠ none := by
  induction news using List.reverseRecOn with
  | nil => rwa [List.append_nil]
  | append_singleton news e ih =>
    rw [← List.append_assoc, blocks_append]
    cases e with
    | session i d => simpa using ih
    | cache d =>
      rw [blocks_cache, latest_append]
      cases put : d.puts md5 key with
      | none => rwa [Option.none_or]
      | some put => simp

private theorem done_of_returned {result : QueryCache.FlightResult}
    (returned : p.cache.returned c = some result) : (p.cache.doing c).done = true := by
  unfold QueryCache.State.returned at returned
  split at returned
  · next served => rw [served]; rfl
  · next flying => rw [flying]; rfl
  · contradiction

/-- A handler that waits for doSingleFlight waits until that returns. -/
private theorem waits_of_step {s s' : Session} {d : SessionEvent} (taken : s.step? d = some s')
    (busy : s.client_handler ≠ .idle) (waits : ∀ result, d ≠ .flight_result result) :
    s'.client_handler = s.client_handler ∧ s'.calls = s.calls := by
  have step := Session.bridge_of_step taken
  generalize core' : s'.core = c' at step
  have result : c'.client_handler = s.client_handler ∧ c'.calls = s.calls := by
    cases step with
    | quiet | early | delivers | responds | notifies | notified => exact ⟨rfl, rfl⟩
    | passes data fate idle | asks data sql_query idle => exact absurd idle busy
    | answered | leads => exact absurd rfl (waits _)
  rw [← core'] at result
  exact result

/-- The session of a call in progress stays in the call. -/
private theorem waits_of_running (taken : p.step? md5 e = some p')
    (attended : (p.sessions c.1).client_handler ≠ .idle ∧ c.2 + 1 = (p.sessions c.1).calls)
    (running : (p.cache.doing c).done = false) :
    (p'.sessions c.1).client_handler ≠ .idle ∧ c.2 + 1 = (p'.sessions c.1).calls := by
  rcases turn_cases taken c.1 with ⟨-, same⟩ | ⟨d, -, permitted, ran, -⟩ | ⟨d, call, value, -, -, ran⟩
  · rw [same]
    exact attended
  · have waits : ∀ result, d ≠ .flight_result result := by
      rintro result rfl
      have returned : p.cache.returned (c.1, (p.sessions c.1).calls - 1) = some result := by
        simpa [permits] using permitted
      rw [← attended.2, Nat.add_sub_cancel] at returned
      rw [done_of_returned returned] at running
      contradiction
    obtain ⟨handler, calls⟩ := waits_of_step ran attended.1 waits
    rw [handler, calls]
    exact attended
  · obtain ⟨handler, calls⟩ := waits_of_step ran attended.1 (by simp)
    rw [handler, calls]
    exact attended

/-- The call that the client read's handler waits for has not returned. -/
private theorem Warmed.attended_step (warmed : p.Warmed md5 es) (taken : p.step? md5 e = some p')
    (running : (p'.cache.doing c).done = false) (started : p'.cache.doing c ≠ .idle) :
    (p'.sessions c.1).client_handler ≠ .idle ∧ c.2 + 1 = (p'.sessions c.1).calls := by
  have kept : (p.cache.doing c).done = false → p.cache.doing c ≠ .idle →
      (p'.sessions c.1).client_handler ≠ .idle ∧ c.2 + 1 = (p'.sessions c.1).calls :=
    fun running started => waits_of_running taken (warmed.attended running started) running
  cases e with
  | session i d =>
    rw [cache_of_session taken] at running started
    exact kept running started
  | cache d =>
    rcases QueryCache.State.moves_of_step (cache_of_cache taken) c with same | moves
    · rw [same] at running started
      exact kept running started
    · generalize p'.cache.doing c = next at moves running
      cases moves with
      | present query | missed query =>
        obtain ⟨entered, -⟩ := cache_cases taken
        obtain ⟨data, calling, last⟩ := warmed.notifies.calling_of_enters entered
        have here : (p.sessions c.1).client_handler ≠ .idle ∧ c.2 + 1 = (p.sessions c.1).calls :=
          ⟨by simp [calling], last⟩
        rcases turn_cases taken c.1 with ⟨-, same⟩ | ⟨d, other, -⟩ | ⟨d, call, value, other, invoked, -⟩
        · rw [same]
          exact here
        · contradiction
        · obtain rfl := Event.cache.inj other
          contradiction
      | hit query value before | lost query before | fetched query value reached before
      | absent query reached before | promoted query value before | flies query before
      | calls_back query value outcome before =>
        exact kept (by rw [before]; rfl) (by rw [before]; nofun)

theorem Warmed.step (warmed : p.Warmed md5 es) (spares : ¬ p.Evicts md5 e)
    (taken : p.step? md5 e = some p') : p'.Warmed md5 (es ++ [e]) := by
  refine ⟨?_, ?_, warmed.notifies.step taken, ?_, ?_, warmed.attended_step taken⟩
  · cases e with
    | session i d =>
      rw [cache_of_session taken, blocks_append, blocks_session, List.append_nil]
      exact warmed.keeps
    | cache d =>
      rw [blocks_append, blocks_cache]
      exact warmed.keeps.step spares (cache_of_cache taken)
  · have before := warmed.genuine.mono fun key _ bound => latest_mono bound [e]
    cases e with
    | session i d =>
      rw [cache_of_session taken]
      exact before
    | cache d =>
      refine before.step ?_ (cache_of_cache taken)
      rintro n query result rfl
      rw [blocks_append, blocks_cache, latest_append]
      simp [QueryCache.Event.puts]
  · intro n query value member
    cases e with
    | session i d =>
      rw [cache_of_session taken]
      apply warmed.put
      simpa using member
    | cache d =>
      rw [blocks_append, blocks_cache] at member
      rcases List.mem_append.mp member with before | last
      · exact QueryCache.State.sends_persists (warmed.put before) (cache_of_cache taken)
      · obtain rfl := List.mem_singleton.mp last
        obtain ⟨-, same⟩ := QueryCache.State.putL1_cases (cache_of_cache taken)
        rw [same]
        simp [QueryCache.NotifyCall.sends]
  · intro i
    rcases session_of_step taken i with same | ⟨d, ran⟩
    · rw [same]
      exact warmed.released i
    · exact (warmed.released i).step ran

/-- Whoever has been handed a result, the query has been put. -/
theorem Warmed.latest_of_handed (warmed : p.Warmed md5 es) (handed : p.Handed query) :
    latest md5 (hash_query md5 query) (blocks es) ≠ none := by
  rcases handed with ⟨c, value, served⟩ | ⟨c, value, asked, member⟩ | ⟨i, value, pair⟩
  · exact warmed.genuine.found (c := c) (by rw [served]; rfl)
  · obtain ⟨key, named, bound⟩ := warmed.genuine.flights.invoked member
    obtain ⟨query', flying, rfl⟩ := warmed.genuine.tied.doing named
    rw [flying] at asked
    obtain rfl := Option.some.inj asked
    exact bound
  · obtain ⟨k, sends⟩ := (warmed.notifies.sessions i).relayed pair
    exact warmed.genuine.sent sends

/-- The call has found the query in L1, and the value that it has got is that of the latest put
before it looked. -/
def Finds (md5 : Bytes → Bytes) (es es' : List Event) (c : ℕ × ℕ) (query : Bytes)
    (point : QueryCache.DoCall) : Prop :=
  point = .present query ∨ ∃ value, (point = .hit query value ∨ point = .served query value) ∧
    ∃ first second n query', es' = first ++ .cache (.getL1_unique c) :: second ∧
      latest md5 (hash_query md5 query) (blocks (es ++ first)) = some (n, query', value)

theorem Finds.snoc {point : QueryCache.DoCall} (finds : Finds md5 es es' c query point) (e : Event) :
    Finds md5 es (es' ++ [e]) c query point := by
  rcases finds with present | ⟨value, point, first, second, n, query', rfl, last⟩
  · exact .inl present
  · exact .inr ⟨value, point, first, second ++ [e], n, query', by simp, last⟩

/-- A step of a call whose query has been put. -/
private theorem Finds.step {next : QueryCache.DoCall} {d : QueryCache.Event (ℕ × ℕ)}
    (warmed : p.Warmed md5 (es ++ es'))
    (put : latest md5 (hash_query md5 query) (blocks (es ++ es')) ≠ none)
    (before : (p.cache.doing c).query = some query → Finds md5 es es' c query (p.cache.doing c))
    (entered : p.enters d = true) (moves : p.cache.Moves md5 c d next)
    (asked : next.query = some query) : Finds md5 es (es' ++ [.cache d]) c query next := by
  have bound : lookup (hash_query md5 query) p.cache.store.l1.contents =
      (latest md5 (hash_query md5 query) (blocks (es ++ es'))).map fun put => put.2.2 :=
    warmed.keeps.bound
  have found : lookup (hash_query md5 query) p.cache.store.l1.contents ≠ none := by
    rw [bound]
    simpa using put
  cases moves with
  | present query' idle here =>
    obtain rfl := Option.some.inj asked
    exact .inl rfl
  | missed query' idle absent =>
    obtain rfl := Option.some.inj asked
    have here := warmed.keeps.linked.getL1_shared_iff.mpr ⟨warmed.keeps.enabled, found⟩
    rw [here] at absent
    contradiction
  | hit query' value present here =>
    obtain rfl := Option.some.inj asked
    rw [(L1.getL1_unique_spec warmed.keeps.linked _).1, bound] at here
    obtain ⟨⟨n, query, value'⟩, last, rfl⟩ := Option.map_eq_some_iff.mp here
    exact .inr ⟨value', .inl rfl, es', [], n, query, rfl, last⟩
  | lost query' present absent =>
    obtain rfl := Option.some.inj asked
    rw [(L1.getL1_unique_spec warmed.keeps.linked _).1] at absent
    exact absurd absent found
  | calls_back query' value outcome hit =>
    obtain rfl : outcome = .returned := by simpa [enters] using entered
    obtain rfl := Option.some.inj asked
    rcases before (by rw [hit]; rfl) with present | ⟨value', point, first, second, n, query, rfl, last⟩
    · rw [hit] at present
      contradiction
    · rw [hit] at point
      obtain rfl : value' = value := by simpa [eq_comm] using point
      have served : Finds md5 es _ c query' (.served query' value') :=
        .inr ⟨value', .inr rfl, first, second, n, query, rfl, last⟩
      exact served.snoc _
  | fetched query' value reached point | absent query' reached point
  | promoted query' value point | flies query' point =>
    obtain rfl := Option.some.inj asked
    rcases before (by rw [point]; rfl) with present | ⟨value', here | here, -⟩
    · rw [point] at present
      contradiction
    · rw [point] at here
      contradiction
    · rw [point] at here
      contradiction

/-- A call that begins when its query has been put finds it. -/
private theorem Warmed.finds (warmed : p.Warmed md5 es)
    (put : latest md5 (hash_query md5 query) (blocks es) ≠ none) (idle : p.cache.doing c = .idle)
    (rest : Path (step? md5) (fun p e => ¬ p.Evicts md5 e) p es' t) :
    t.Warmed md5 (es ++ es') ∧
      ((t.cache.doing c).query = some query → Finds md5 es es' c query (t.cache.doing c)) := by
  apply rest.records (I := fun es' t => t.Warmed md5 (es ++ es') ∧
    ((t.cache.doing c).query = some query → Finds md5 es es' c query (t.cache.doing c)))
  · rw [List.append_nil, idle]
    exact ⟨warmed, nofun⟩
  · rintro es' p e p' ⟨warmed, before⟩ spares taken
    have warmed' := warmed.step spares taken
    rw [List.append_assoc] at warmed'
    refine ⟨warmed', fun asked => ?_⟩
    cases e with
    | session i d =>
      rw [cache_of_session taken] at asked ⊢
      exact (before asked).snoc _
    | cache d =>
      rcases QueryCache.State.moves_of_step (cache_of_cache taken) c with same | moves
      · rw [same] at asked ⊢
        exact (before asked).snoc _
      · obtain ⟨entered, -⟩ := cache_cases taken
        exact .step warmed (latest_mono put es') before entered moves asked

/-- A call that has found its value can hand it over and return. -/
private theorem Warmed.serves (warmed : p.Warmed md5 es) (hit : p.cache.doing c = .hit query value) :
    ∃ t, p.step? md5 (.cache (.call_back c .returned)) = some t ∧
      t.cache.returned c = some .CACHE_HIT := by
  obtain ⟨busy, last⟩ := warmed.attended (c := c) (by rw [hit]; rfl) (by rw [hit]; nofun)
  have alive : (p.sessions c.1).destroyed = false := by
    by_contra gone
    exact busy (warmed.released c.1 (Bool.not_eq_false _ ▸ gone)).2.1
  have called : c.2 < (p.sessions c.1).calls := by omega
  have ran : (p.sessions c.1).step? (.on_result c.2 value) =
      some ((p.sessions c.1).on_result c.2 value) := if_pos ⟨alive, called⟩
  have moved : p.cache.step? md5 (.call_back c .returned) =
      some (p.cache.move c (.served query value)) := by
    simp only [QueryCache.State.step?, QueryCache.State.call_back, hit]
    rfl
  have invoked : p.cache.invokes (.call_back c .returned) = some (c, value) := by
    simp only [QueryCache.State.invokes, hit]
  have taken : p.step? md5 (.cache (.call_back c .returned)) =
      some ⟨Function.update p.sessions c.1 ((p.sessions c.1).on_result c.2 value),
        p.cache.move c (.served query value)⟩ := by
    simp [step?, enters, moved, invoked, deliver, act, ran]
  refine ⟨_, taken, QueryCache.State.returned_hit_iff.mpr ⟨query, value, ?_⟩⟩
  exact Function.update_self ..

/-- A call that has found the query in L1 returns CACHE_HIT, with its own steps only. -/
private theorem Warmed.completes (warmed : p.Warmed md5 (es ++ es'))
    (put : latest md5 (hash_query md5 query) (blocks (es ++ es')) ≠ none)
    (finds : Finds md5 es es' c query (p.cache.doing c)) :
    ∃ own t, own <:+ [.cache (.getL1_unique c), .cache (.call_back c .returned)] ∧
      Path (step? md5) (fun p e => ¬ p.Evicts md5 e) p own t ∧
        t.cache.returned c = some .CACHE_HIT := by
  rcases finds with present | ⟨value, hit | served, -⟩
  · obtain ⟨⟨n, query', value⟩, last⟩ := Option.ne_none_iff_exists'.mp put
    have answer : (p.cache.store.l1.getL1_unique (hash_query md5 query)).1 = some value := by
      rw [(L1.getL1_unique_spec warmed.keeps.linked _).1, warmed.keeps.bound, last]
      rfl
    obtain ⟨l1, same⟩ : ∃ l1, p.cache.store.l1.getL1_unique (hash_query md5 query) = (some value, l1) :=
      ⟨_, Prod.ext answer rfl⟩
    have taken : ∃ mid, p.step? md5 (.cache (.getL1_unique c)) = some mid ∧
        mid.cache.doing c = .hit query value := by
      simp [step?, enters, QueryCache.State.step?, QueryCache.State.getL1_unique, present, same,
        QueryCache.State.invokes, deliver, QueryCache.State.move]
    obtain ⟨mid, looks, hit⟩ := taken
    have spares : ¬ p.Evicts md5 (.cache (.getL1_unique c)) := id
    obtain ⟨t, serves, returned⟩ := (warmed.step spares looks).serves hit
    exact ⟨_, t, List.suffix_refl _, .cons spares looks (.cons id serves (.nil t)), returned⟩
  · obtain ⟨t, serves, returned⟩ := warmed.serves hit
    exact ⟨_, t, List.suffix_cons _ _, .cons id serves (.nil t), returned⟩
  · refine ⟨[], p, List.nil_suffix, .nil p, ?_⟩
    exact QueryCache.State.returned_hit_iff.mpr ⟨query, value, served⟩

theorem warmed_of_run {l1_max_size_ : ℕ} {redis : Bytes → Option Bytes}
    (run : Path (step? md5) (fun p e => ¬ p.Evicts md5 e) (init { l1 := { l1_max_size_ }, redis }) es p) :
    p.Warmed md5 es := by
  apply run.records (I := fun es p => p.Warmed md5 es) (warmed_init l1_max_size_ redis)
  intro es p e p' warmed spares taken
  exact warmed.step spares taken

/-- In a run without L2 and without evictions, once somebody has been handed a result for a query,
every call with it that begins later can only return CACHE_HIT, can always go on to do so, and passes
on what a session has notified for the query: the latest put when it looks L1 up. -/
theorem cached_of_handed {l1_max_size_ : ℕ} {redis : Bytes → Option Bytes}
    (run : Path (step? md5) (fun p e => ¬ p.Evicts md5 e) (init { l1 := { l1_max_size_ }, redis }) es p)
    (handed : p.Handed query) (rest : Path (step? md5) (fun p e => ¬ p.Evicts md5 e) p es' t)
    (apart : ∀ n query' result, .cache (.putL1 n query' result) ∈ es ++ es' →
      hash_query md5 query' = hash_query md5 query → query' = query)
    (idle : p.cache.doing c = .idle) (asked : (t.cache.doing c).query = some query) :
    (∀ result, t.cache.returned c = some result → result = .CACHE_HIT) ∧
      (∃ own u, own <:+ [.cache (.getL1_unique c), .cache (.call_back c .returned)] ∧
        Path (step? md5) (fun p e => ¬ p.Evicts md5 e) t own u ∧
          u.cache.returned c = some .CACHE_HIT) ∧
      ∀ value, t.cache.doing c = .hit query value ∨ t.cache.doing c = .served query value →
        ∃ first second n, es' = first ++ .cache (.getL1_unique c) :: second ∧
          latest md5 (hash_query md5 query) (blocks (es ++ first)) = some (n, query, value) ∧
            .notify query value ∈ (t.sessions n.1).log := by
  have warmed := warmed_of_run run
  have put := warmed.latest_of_handed handed
  obtain ⟨warmed', finds⟩ := warmed.finds put idle rest
  have finds := finds asked
  refine ⟨?_, warmed'.completes (latest_mono put es') finds, ?_⟩
  · intro result returned
    rcases finds with present | ⟨value, hit | served, -⟩
    · simp [QueryCache.State.returned, present] at returned
    · simp [QueryCache.State.returned, hit] at returned
    · simpa [QueryCache.State.returned, served, eq_comm] using returned
  · intro value point
    rcases finds with present | ⟨value', point', first, second, n, query', rfl, last⟩
    · rcases point with hit | served
      · rw [hit] at present
        contradiction
      · rw [served] at present
        contradiction
    · obtain rfl : value' = value := by
        rcases point with hit | served
        · simpa [hit, eq_comm] using point'
        · simpa [served, eq_comm] using point'
      obtain ⟨member, hashed⟩ := mem_of_latest last
      obtain rfl : query' = query := by
        apply apart n query' value' _ hashed
        obtain ⟨e, here, image⟩ := List.mem_filterMap.mp member
        cases e with
        | session i d => contradiction
        | cache d =>
          obtain rfl := Option.some.inj image
          rcases List.mem_append.mp here with before | now
          · exact List.mem_append_left _ before
          · exact List.mem_append_right _ (List.mem_append_left _ now)
      refine ⟨first, second, n, rfl, last, ?_⟩
      have sends : (t.cache.notifying n).sends = some (query', value') := by
        apply warmed'.put
        rw [← List.append_assoc, blocks_append]
        exact List.mem_append_left _ member
      exact (warmed'.notifies.sessions n.1).known sends

/-- A client connects and sends `q`. -/
def asking (i : ℕ) : List Event :=
  Session.connected.map (.session i) ++
    [.session i (.complete .client_read (.ok [0x51, 0x00, 0x00, 0x00, 0x06, 0x71, 0x00])),
      .cache (.getL1_shared (i, 0) [0x71])]

/-- The call leads; the server answers, and the session notifies the answer and relays it. -/
def answering : List Event :=
  [.cache (.getL2 (0, 0) false), .cache (.flight (.elect (0, 0) (hash_query id [0x71]))),
    .session 0 (.flight_result .IS_LEADER), .session 0 (.complete .server_read (.ok [0x5a])),
    .cache (.putL1 (0, 0) [0x71] [0x5a]), .cache (.putL2 (0, 0) false),
    .cache (.flight (.lookup (0, 0) (hash_query id [0x71]) [0x5a])),
    .cache (.flight (.publish (0, 0))), .cache (.flight (.erase (0, 0))), .session 0 .notify_returned]

/-- Session 0 has relayed its answer, so the query of session 1 can be served from L1. -/
theorem cached_of_handed_run : ∃ p t u : ProxyServer, ∃ own : List Event,
    Path (step? id) (fun p e => ¬ p.Evicts id e) (init {}) (asking 0 ++ answering) p ∧
      Path (step? id) (fun p e => ¬ p.Evicts id e) p (asking 1) t ∧
      Path (step? id) (fun p e => ¬ p.Evicts id e) t own u ∧
        u.cache.returned (1, 0) = some .CACHE_HIT := by
  have run : ∃ p t : ProxyServer,
      Path (step? id) (fun p e => ¬ p.Evicts id e) (init {}) (asking 0 ++ answering) p ∧
      (p.sessions 0).log = [.startup Session.plain_startup,
        .read [0x51, 0x00, 0x00, 0x00, 0x06, 0x71, 0x00] (some [0x71]),
        .bridged [0x51, 0x00, 0x00, 0x00, 0x06, 0x71, 0x00] .forwarded, .response [0x5a],
        .notify [0x71] [0x5a], .relay [0x5a]] ∧
      Path (step? id) (fun p e => ¬ p.Evicts id e) p (asking 1) t ∧
      p.cache.doing (1, 0) = .idle ∧ (t.cache.doing (1, 0)).query = some [0x71] := by
    refine ⟨_, _, .append (.cons id rfl (.cons id rfl (.cons id rfl (.cons id rfl
      (.cons id rfl (.cons id rfl (.cons id rfl (.nil _))))))))
      (.cons id rfl (.cons id rfl (.cons id rfl (.cons id rfl (.cons ?_ rfl (.cons id rfl
        (.cons id rfl (.cons id rfl (.cons id rfl (.cons id rfl (.nil _))))))))))), ?_,
      .cons id rfl (.cons id rfl (.cons id rfl (.cons id rfl
      (.cons id rfl (.cons id rfl (.cons id rfl (.nil _))))))), rfl, rfl⟩
    · rintro ⟨-, full⟩
      exact absurd full (by decide +kernel)
    · rfl
  obtain ⟨p, t, path, log, rest, idle, asked⟩ := run
  have handed : p.Handed [0x71] := by
    refine .inr (.inr ⟨0, [0x5a], ?_⟩)
    rw [log]
    decide
  have apart : ∀ n query' result, .cache (.putL1 n query' result) ∈ (asking 0 ++ answering) ++ asking 1 →
      hash_query id query' = hash_query id [0x71] → query' = [0x71] := by
    intro n query' result member _
    simp [asking, answering, Session.connected] at member
    exact member.2.1
  obtain ⟨-, ⟨own, u, -, completes, returned⟩, -⟩ := cached_of_handed path handed rest apart idle asked
  exact ⟨p, t, u, own, path, rest, completes, returned⟩

end FlightProxy.ProxyServer
