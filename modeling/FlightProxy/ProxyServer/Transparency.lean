import FlightProxy.ProxyServer.Receipts
import FlightProxy.ProxyServer.Writes
import FlightProxy.QueryCache.ExecutedOnce

/-! # What the clients see of the cache

Any cache that is empty at first answers the clients as a memo of the database would, whatever L1
evicts and Redis loses. If no query changes what the database responds, they see no difference. If L1
has room for every query, it is the memo that forgets nothing.
-/

namespace FlightProxy

open QueryCache (hash_query)
open Recency Transition

namespace System

variable {σ : Type*} {md5 : Bytes → Bytes} {exec : Database σ} {db : σ}
  {l1_max_size_ : ℕ} {l1_enabled_ redis_enabled_ : Bool} {es : List Event}

/-- In every run in which the clients take turns, the answers so far are a history of a memo of the
database: the response that the database gave to the query itself, or one that it gave to an earlier
query of the same key. What callbacks write to the clients are these answers. Each client has received
answers to its own queries, in order, and all there are while its session waits on both sides. When all
have been answered, every query has an answer, and the database has executed exactly what was not
recalled. -/
theorem remembers_of_run (md5 : Bytes → Bytes) (exec : Database σ) (db : σ) {t : System σ}
    (run : Path (step? md5 exec) Turns
      (init { l1 := { l1_max_size_, l1_enabled_ }, redis_enabled_ } db) es t) :
    Memo.Remembers exec (hash_query md5) db (t.proxy.history (schedule es)) ∧
      (∀ i call value, .on_result call value ∈ (t.proxy.sessions i).log →
        t.proxy.answer (i, call) = some (.recalled value)) ∧
      (∀ i, (received i es).Sublist (t.answers i es) ∧
        ((t.proxy.sessions i).Rests → received i es = t.answers i es)) ∧
      ((∀ i, (t.proxy.sessions i).Answered) →
        (t.proxy.history (schedule es)).map Prod.fst = (schedule es).map Prod.snd ∧
          t.db = Memo.state exec db (t.proxy.history (schedule es))) := by
  obtain ⟨u, rfl, receives⟩ := receives_of_run (L1.linked_empty l1_max_size_ l1_enabled_) rfl
    (fun _ _ => rfl) run
  have recounts := (receives 0).recounts
  refine ⟨recounts.remembers, fun i call value written => recounts.written written,
    fun i => (receives i).received_cases, fun answered => ?_⟩
  have all : ∀ q ∈ schedule es, u.proxy.answer q.1 ≠ none := fun q => recounts.answered (answered q.1.1)
  constructor
  · exact ProxyServer.history_fst all
  · obtain ⟨-, -, state⟩ := recounts.follows.phase.answered recounts.follows.accounted answered
    have kept : u.forget.db = exec.direct db (led u.proxy (schedule es)) := by
      rw [forget, state, Database.direct_echo]
    exact kept.trans (ProxyServer.state_history exec db all).symm

/-- The second of two equal queries is answered with the response to the first, and the client receives
both. -/
theorem remembers_of_run_run : ∃ t : System ℕ,
    Path (step? id (register Nat.succ)) Turns (init {} 0) twice t ∧
      Memo.Remembers (register Nat.succ) (hash_query id) 0 (t.proxy.history (schedule twice)) ∧
        (t.proxy.history (schedule twice)).map Prod.fst = [[0x71], [0x71]] ∧
          t.answers 0 twice = [[0x01], [0x01]] := by
  obtain ⟨t, run, answered, -, -, rests⟩ := @run_of_twice Nat.succ (by decide +kernel)
  obtain ⟨remembers, -, receives, all⟩ := remembers_of_run id (register Nat.succ) 0 run
  refine ⟨t, run, remembers, (all answered).1, ?_⟩
  rw [← (receives 0).2 rests]
  decide +kernel

/-- If no query changes what the database responds, and queries of one key get the same response, what
a client receives is what the database itself would respond to its queries, in order: to all of them,
when it has been answered and its session waits on both sides. -/
theorem transparent_of_run (md5 : Bytes → Bytes) (exec : Database σ) (db : σ) {t : System σ}
    (inert : Memo.Inert exec)
    (separates : ∀ db sql sql', hash_query md5 sql = hash_query md5 sql' →
      (exec db sql).2 = (exec db sql').2)
    (run : Path (step? md5 exec) Turns
      (init { l1 := { l1_max_size_, l1_enabled_ }, redis_enabled_ } db) es t) (i : ℕ) :
    (received i es).Sublist ((sent_by i es).map fun q => (exec db q.2).2) ∧
      ((t.proxy.sessions i).Answered → (t.proxy.sessions i).Rests →
        received i es = (sent_by i es).map fun q => (exec db q.2).2) := by
  obtain ⟨u, rfl, receives⟩ := receives_of_run (L1.linked_empty l1_max_size_ l1_enabled_) rfl
    (fun _ _ => rfl) run
  have recounts := (receives i).recounts
  have answers : u.answers i es =
      ((u.proxy.history (sent_by i es)).map Prod.fst).map fun sql => (exec db sql).2 := by
    rw [System.answers, List.map_map]
    apply List.map_congr_left
    intro entry member
    obtain ⟨q, asked, here⟩ := List.mem_filterMap.mp member
    have known : entry ∈ u.proxy.history (schedule es) :=
      List.mem_filterMap.mpr ⟨q, (mem_sent_by.mp asked).1, here⟩
    exact recounts.remembers.transparent inert separates known
  have asked : (sent_by i es).map (fun q => (exec db q.2).2) =
      ((sent_by i es).map Prod.snd).map fun sql => (exec db sql).2 := by
    rw [List.map_map]
    rfl
  obtain ⟨part, whole⟩ := (receives i).received_cases
  rw [asked]
  constructor
  · rw [answers] at part
    exact part.trans ((ProxyServer.history_fst_sublist _).map _)
  · intro answered rests
    have all : ∀ q ∈ sent_by i es, u.proxy.answer q.1 ≠ none := by
      intro q member
      obtain ⟨scheduled, rfl⟩ := mem_sent_by.mp member
      exact recounts.answered answered scheduled
    rw [whole rests, answers, ProxyServer.history_fst all]

/-- The response is the same whatever the number. -/
theorem transparent_of_run_run : ∃ t : System ℕ,
    Path (step? id (register Nat.succ)) Turns (init {} 0) twice t ∧
      received 0 twice = (sent_by 0 twice).map fun q => (register Nat.succ 0 q.2).2 := by
  obtain ⟨t, run, answered, -, -, rests⟩ := @run_of_twice Nat.succ (by decide +kernel)
  refine ⟨t, run, ?_⟩
  exact (transparent_of_run id (register Nat.succ) 0 (fun _ _ _ => rfl) (fun _ _ _ _ => rfl) run 0).2
    (answered 0) rests

/-! ## An L1 that has room for every query -/

end System

namespace ProxyServer

variable {md5 : Bytes → Bytes} {p p' : ProxyServer} {d : Event}

theorem query_of_step {c : ℕ × ℕ} {query : Bytes} (begun : (p.cache.doing c).query = some query)
    (taken : p.step? md5 d = some p') : (p'.cache.doing c).query = some query := by
  cases d with
  | session i e =>
    rw [cache_of_session taken]
    exact begun
  | cache b => exact QueryCache.State.query_persists begun (cache_of_cache taken)

/-- What a session leads is the query of its call. -/
def Names (p : ProxyServer) (i : ℕ) : Prop := (p.sessions i).current_query_ ≠ [] →
  (p.cache.doing (i, (p.sessions i).leading)).query = some (p.sessions i).current_query_

theorem Names.step {i : ℕ} (names : p.Names i) (coherent : p.Coherent md5)
    (taken : p.step? md5 d = some p') : p'.Names i := by
  intro led
  have moved : ∀ {e}, (p.sessions i).step? e = some (p'.sessions i) →
      (∀ result, e = .flight_result result → p.permits i e = true) →
        (p'.cache.doing (i, (p'.sessions i).leading)).query = some (p'.sessions i).current_query_ := by
    intro e step permitted
    have step := Session.bridge_of_step step
    generalize core' : (p'.sessions i).core = c' at step
    have named : (p'.cache.doing (i, c'.leading)).query = some c'.current_query_ := by
      have led : c'.current_query_ ≠ [] := by
        rw [← core']
        exact led
      cases step with
      | quiet | early | passes | asks | answered | delivers | responds | notifies =>
        exact query_of_step (names led) taken
      | leads sql data fate calling =>
        have returned : p.cache.returned (i, (p.sessions i).calls - 1) = some .IS_LEADER := by
          simpa [permits] using permitted _ rfl
        obtain ⟨query, key, flying, -⟩ := QueryCache.State.returned_leader_iff.mp returned
        have begun : (p.cache.doing (i, (p.sessions i).calls - 1)).query = some query := by
          rw [flying]
          rfl
        have positive : 0 < (p.sessions i).calls := by
          apply (coherent.notifies.sessions i).asking
          rw [calling]
          exact ClientHandler.noConfusion
        have same := coherent.asked.asked calling (Nat.sub_add_cancel positive) query begun
        rw [same] at begun
        exact query_of_step begun taken
      | notified => exact absurd rfl led
    rw [← core'] at named
    exact named
  rcases turn_cases taken i with ⟨-, same⟩ | ⟨e, -, permitted, step, -⟩ | ⟨b, k, v, -, -, step⟩
  · rw [same] at led ⊢
    exact query_of_step (names led) taken
  · exact moved step fun _ _ => permitted
  · exact moved step (by simp)

end ProxyServer

namespace System

variable {σ : Type*} {md5 : Bytes → Bytes} {exec : Database σ} {db : σ}
  {l1_max_size_ : ℕ} {redis_enabled_ : Bool} {es : List Event}

/-- A call past its cache miss. -/
def past : QueryCache.DoCall → Bool
  | .missed _ | .fetched _ _ | .electing _ | .flying _ => true
  | _ => false

/-- What the runs keep while L1 has room for the queries. -/
structure Exact (md5 : Bytes → Bytes) (exec : Database σ) (db : σ) (queries : Finset Bytes)
    (es : List Event) (s : System (σ × Bytes)) : Prop where
  recounts : s.Recounts md5 exec db es
  warm : s.proxy.cache.Warm md5 queries
  names : ∀ i, s.proxy.Names i
  known : ∀ {c sql}, (c, sql) ∈ schedule es → sql ∈ queries
  once : Memo.Once (hash_query md5) (s.proxy.history (schedule es))
  put : ∀ {key value}, Known md5 (s.proxy.history (schedule es)) key value →
    ∃ (n : ℕ × ℕ) (query value : Bytes), s.proxy.sent n.1 n.2 = some (query, value) ∧
      hash_query md5 query = key
  fresh : ∀ {c sql}, (c, sql) ∈ schedule es → s.proxy.answer c = none →
    past (s.proxy.cache.doing c) = true →
      ∀ value, ¬ Known md5 (s.proxy.history (schedule es)) (hash_query md5 sql) value

namespace Exact

variable {queries : Finset Bytes} {s s' : System (σ × Bytes)} {d : ProxyServer.Event} {e : Event}
  {c : ℕ × ℕ}

/-- What has been computed is bound in L1. -/
private theorem bound (exact : s.Exact md5 exec db queries es) {key value : Bytes}
    (known : Known md5 (s.proxy.history (schedule es)) key value) :
    lookup key s.proxy.cache.store.l1.contents ≠ none := by
  obtain ⟨n, query, value', sent, rfl⟩ := exact.put known
  have held : (s.proxy.cache.notifying n).query = some query := by
    rw [ProxyServer.sent] at sent
    cases notifying : s.proxy.cache.notifying n with
    | idle =>
      rw [notifying] at sent
      contradiction
    | pushing | publishing | flying =>
      rw [notifying] at sent
      obtain ⟨rfl, -⟩ := Prod.mk.inj (Option.some.inj sent)
      rfl
  exact (exact.warm.stored held).2

private theorem warm_step (exact : s.Exact md5 exec db queries es) {p : ProxyServer}
    (ran : s.proxy.step? md5 d = some p) : p.cache.Warm md5 queries := by
  cases d with
  | session i e =>
    rw [ProxyServer.cache_of_session ran]
    exact exact.warm
  | cache b =>
    apply exact.warm.step ?_ (ProxyServer.cache_of_cache ran)
    have follows := exact.recounts.follows
    obtain ⟨entered, -⟩ := ProxyServer.cache_cases ran
    cases b with
    | getL1_shared c query =>
      obtain ⟨data, calling, last⟩ := follows.coherent.notifies.calling_of_enters entered
      have within : c.2 < (s.core c.1).calls := Nat.lt_of_succ_le (Nat.le_of_eq last)
      obtain ⟨sql, member⟩ := mem_schedule (follows.numbered c.1 ▸ within)
      have idle : s.proxy.cache.doing c = .idle := by
        obtain ⟨idle, -⟩ := QueryCache.State.getL1_shared_cases (ProxyServer.cache_of_cache ran)
        exact idle
      have waits : s.proxy.cache.returned c = none := by
        rw [QueryCache.State.returned, idle]
      obtain ⟨-, -, data', calling'⟩ :=
        (exact.recounts.decided_or_asking member).resolve_left (not_not_intro waits)
      obtain ⟨rfl, -⟩ := ClientHandler.calling.inj (calling.symm.trans calling')
      exact exact.known member
    | putL1 n query value =>
      obtain ⟨-, leading, number, text, -⟩ :=
        follows.notifying (i := n.1) (ProxyServer.notifying_of_enters entered)
      have leads : s.proxy.Leads md5 query n := by
        rw [← text, ← Prod.mk.eta (p := n), ← number]
        exact exact.recounts.elects.leads leading
      obtain ⟨query', flying, -⟩ := follows.accounted.tied.doing (c := n) (by rw [leads]; rfl)
      have named : (s.proxy.cache.doing n).query = some query := by
        rw [← text, ← Prod.mk.eta (p := n), ← number]
        exact exact.names n.1 leading
      rw [flying] at named
      obtain rfl := Option.some.inj named
      exact ⟨flying, leads⟩
    | _ => trivial

/-- The last query is computed if its key has not been. -/
private theorem once_step (exact : s.Exact md5 exec db queries es) {p : ProxyServer}
    (ran : s.proxy.step? md5 d = some p) :
    Memo.Once (hash_query md5) (p.history (schedule es)) ∧
      ∀ {key value}, Known md5 (p.history (schedule es)) key value →
        ∃ (n : ℕ × ℕ) (query value : Bytes), p.sent n.1 n.2 = some (query, value) ∧
          hash_query md5 query = key := by
  have persists : ∀ {key value}, Known md5 (s.proxy.history (schedule es)) key value →
      ∃ (n : ℕ × ℕ) (query value : Bytes), p.sent n.1 n.2 = some (query, value) ∧
        hash_query md5 query = key := by
    intro key value known
    obtain ⟨n, query, value', sent, same⟩ := exact.put known
    exact ⟨n, query, value', ProxyServer.sent_of_step sent ran, same⟩
  rcases exact.recounts.grows ran with kept | ⟨before, ⟨c, sql⟩, reply, split, -, unanswered, now, grown, -⟩
  · rw [kept]
    exact ⟨exact.once, persists⟩
  have member : (c, sql) ∈ schedule es := by
    rw [split]
    exact List.mem_append_right _ List.mem_cons_self
  rw [grown]
  rcases ProxyServer.answer_cases now with ⟨query, value, -, rfl⟩ | ⟨leads, put, sent, rfl⟩
  · refine ⟨exact.once.concat nofun, ?_⟩
    rintro key value' ⟨sql', known, hashed⟩
    exact persists ⟨sql', by simpa using known, hashed⟩
  · have unsent := exact.recounts.unsent member unanswered
    rcases ProxyServer.sent_cases ran c with kept | ⟨query, value, rfl, sent', -, notifying⟩
    · rw [kept, unsent] at sent
      contradiction
    · obtain rfl := Option.some.inj (sent'.symm.trans sent)
      obtain ⟨before', sql', split', -, hashed, -, returned, -⟩ := exact.recounts.puts notifying unsent
      obtain ⟨-, last⟩ := List.append_inj' (split'.symm.trans split) rfl
      obtain ⟨-, rfl⟩ := Prod.mk.inj (List.singleton_inj.mp last)
      have flying : past (s.proxy.cache.doing c) = true := by
        obtain ⟨query', key, flying, -⟩ := QueryCache.State.returned_leader_iff.mp returned
        rw [flying]
        rfl
      constructor
      · apply exact.once.concat
        intro _
        by_contra some
        obtain ⟨sql'', value', known, same⟩ := Memo.computed_isSome.mp (Option.isSome_iff_ne_none.mpr some)
        exact exact.fresh member unanswered flying value' ⟨sql'', known, same⟩
      · rintro key value' ⟨sql'', known, same⟩
        rcases List.mem_append.mp known with earlier | last
        · exact persists ⟨sql'', earlier, same⟩
        · obtain ⟨rfl, -⟩ := Prod.mk.inj (List.mem_singleton.mp last)
          exact ⟨c, query, value, sent, hashed.trans same⟩

/-- A call that misses the cache asks for a key for which nothing has been computed. -/
private theorem fresh_step (exact : s.Exact md5 exec db queries es) {p : ProxyServer}
    (ran : s.proxy.step? md5 d = some p) {sql : Bytes} (member : (c, sql) ∈ schedule es)
    (waits : p.answer c = none) (gone : past (p.cache.doing c) = true) (value : Bytes) :
    ¬ Known md5 (p.history (schedule es)) (hash_query md5 sql) value := by
  have unanswered : s.proxy.answer c = none := by
    by_contra some
    obtain ⟨reply, answered⟩ := Option.ne_none_iff_exists'.mp some
    rw [ProxyServer.answer_of_step answered ran] at waits
    contradiction
  have kept : p.history (schedule es) = s.proxy.history (schedule es) := by
    rcases exact.recounts.grows ran with kept | ⟨before, q, reply, split, -, -, now, -⟩
    · exact kept
    · obtain ⟨before', split', -⟩ := exact.recounts.last member unanswered
      obtain ⟨-, last⟩ := List.append_inj' (split'.symm.trans split) rfl
      rw [← List.singleton_inj.mp last, waits] at now
      contradiction
  rw [kept]
  have before : past (s.proxy.cache.doing c) = true →
      ¬ Known md5 (s.proxy.history (schedule es)) (hash_query md5 sql) value :=
    fun gone => exact.fresh member unanswered gone value
  have linked := exact.warm.roomy.linked
  cases d with
  | session i e =>
    rw [ProxyServer.cache_of_session ran] at gone
    exact before gone
  | cache b =>
    rcases QueryCache.State.moves_of_step (ProxyServer.cache_of_cache ran) c with same | moves
    · rw [same] at gone
      exact before gone
    · generalize next' : p.cache.doing c = next at moves gone
      cases moves with
      | present | hit | promoted => contradiction
      | calls_back query value outcome => cases outcome <;> contradiction
      | fetched query value reached earlier | absent query reached earlier | flies query earlier =>
        exact before (by rw [earlier]; rfl)
      | missed query idle absent =>
        intro known
        have text : query = _ := exact.recounts.texts_step ran member (by rw [next']; rfl)
        rw [text, linked.getL1_shared_iff.mpr ⟨exact.warm.roomy.enabled, exact.bound known⟩] at absent
        contradiction
      | lost query present absent =>
        intro known
        have text : query = _ := exact.recounts.texts_step ran member (by rw [next']; rfl)
        rw [text, (L1.getL1_unique_spec linked _).1] at absent
        exact exact.bound known absent

private theorem quiet_step (exact : s.Exact md5 exec db queries es) {p : ProxyServer}
    (ran : s.proxy.step? md5 d = some p) (same : s'.proxy = p)
    (recounts : s'.Recounts md5 exec db (es ++ [.proxy d])) (silent : (Event.proxy d).asks = none) :
    s'.Exact md5 exec db queries (es ++ [.proxy d]) := by
  subst same
  have unasked : schedule (es ++ [.proxy d]) = schedule es := by rw [schedule_concat, silent]
  obtain ⟨once, put⟩ := exact.once_step ran
  refine ⟨recounts, exact.warm_step ran, fun i => (exact.names i).step exact.recounts.follows.coherent ran,
    ?_, ?_, ?_, ?_⟩
  all_goals rw [unasked]
  · exact exact.known
  · exact once
  · exact put
  · exact exact.fresh_step ran

private theorem ask_step (exact : s.Exact md5 exec db queries es)
    (taken : s.step? md5 exec.echo (.proxy d) = some s')
    (recounts : s'.Recounts md5 exec db (es ++ [.proxy d])) {i : ℕ} {sql : Bytes}
    (asks : (Event.proxy d).asks = some (i, sql)) (known : sql ∈ queries) :
    s'.Exact md5 exec db queries (es ++ [.proxy d]) := by
  obtain ⟨c, grown, cache, fresh, history, -⟩ := exact.recounts.asked taken asks
  obtain ⟨p, outbox, -, ran, rfl⟩ := proxy_cases taken
  refine ⟨recounts, exact.warm_step ran, fun i => (exact.names i).step exact.recounts.follows.coherent ran,
    ?_, ?_, ?_, ?_⟩
  · intro c' sql' member
    rw [grown] at member
    rcases List.mem_append.mp member with earlier | now
    · exact exact.known earlier
    · obtain ⟨-, rfl⟩ := Prod.mk.inj (List.mem_singleton.mp now)
      exact known
  · rw [history]
    exact exact.once
  · rw [history]
    intro key value known
    obtain ⟨n, query, value', sent, hashed⟩ := exact.put known
    exact ⟨n, query, value', ProxyServer.sent_of_step sent ran, hashed⟩
  · intro c' sql' member waits gone
    rw [history]
    rw [grown] at member
    rw [cache] at gone
    rw [ProxyServer.answer_of_cache cache] at waits
    rcases List.mem_append.mp member with earlier | now
    · exact exact.fresh earlier waits gone
    · obtain ⟨rfl, -⟩ := Prod.mk.inj (List.mem_singleton.mp now)
      cases doing : s.proxy.cache.doing c' with
      | idle =>
        rw [doing] at gone
        contradiction
      | _ =>
        rw [doing] at fresh
        contradiction

theorem step (exact : s.Exact md5 exec db queries es) (sequential : s.Sequential e)
    (asks : ∀ i sql, e.asks = some (i, sql) → sql ∈ queries)
    (taken : s.step? md5 exec.echo e = some s') : s'.Exact md5 exec db queries (es ++ [e]) := by
  have recounts := exact.recounts.step sequential taken
  cases e with
  | execute j =>
    have unasked : schedule (es ++ [.execute j]) = schedule es := schedule_concat es (.execute j)
    obtain ⟨sql, -, rfl⟩ := Option.map_eq_some_iff.mp taken
    refine ⟨recounts, exact.warm, exact.names, ?_, ?_, ?_, ?_⟩
    all_goals rw [unasked]
    · exact exact.known
    · exact exact.once
    · exact exact.put
    · exact exact.fresh
  | proxy d =>
    cases asked : (Event.proxy d).asks with
    | none =>
      obtain ⟨p, outbox, -, ran, rfl⟩ := proxy_cases taken
      exact exact.quiet_step ran rfl recounts asked
    | some ask => exact exact.ask_step taken recounts asked (asks _ _ asked)

end Exact

theorem exact_init {queries : Finset Bytes} (fits : queries.card ≤ l1_max_size_) :
    (init { l1 := { l1_max_size_ }, redis_enabled_ } (db, []) : System (σ × Bytes)).Exact md5 exec db
      queries [] := by
  have linked := L1.linked_empty l1_max_size_ true
  refine ⟨recounts_init linked rfl fun _ _ => rfl, QueryCache.State.warm_init linked rfl rfl fits,
    fun i led => absurd rfl led, ?_, Memo.once_nil, ?_, ?_⟩
  · intro c sql member
    simp [schedule] at member
  · rintro key value ⟨sql, member, -⟩
    simp [schedule, ProxyServer.history] at member
  · intro c sql member
    simp [schedule] at member

/-- A query that a client sends is on the schedule. -/
theorem mem_schedule_of_asks {e : Event} {i : ℕ} {sql : Bytes} (member : e ∈ es)
    (asks : e.asks = some (i, sql)) : sql ∈ (schedule es).map Prod.snd := by
  induction es using List.reverseRecOn with
  | nil => contradiction
  | append_singleton es last ih =>
    rw [schedule_concat]
    rcases List.mem_append.mp member with earlier | now
    · split
      · rw [List.map_append]
        exact List.mem_append_left _ (ih earlier)
      · exact ih earlier
    · rw [← List.mem_singleton.mp now, asks, List.map_append]
      exact List.mem_append_right _ List.mem_cons_self

/-- If L1 has room for every query, the proxy is the memo that forgets nothing: each client receives the
answers that it gives to the client's queries, in order, and all of them while its session waits on
both sides, and the database is left in its state. Redis makes no difference. -/
theorem recording_of_run (md5 : Bytes → Bytes) (exec : Database σ) (db : σ) {t : System σ}
    (run : Path (step? md5 exec) Turns (init { l1 := { l1_max_size_ }, redis_enabled_ } db) es t)
    (roomy : ((schedule es).map Prod.snd).toFinset.card ≤ l1_max_size_)
    (answered : ∀ i, (t.proxy.sessions i).Answered) : ∃ table history,
      Memo.recording exec (hash_query md5) db ((schedule es).map Prod.snd) = ((t.db, table), history) ∧
        ∀ i, (received i es).Sublist ((((schedule es).zip history).filter fun entry =>
            entry.1.1.1 = i).map fun entry => entry.2.2.value) ∧
          ((t.proxy.sessions i).Rests → received i es = (((schedule es).zip history).filter fun entry =>
            entry.1.1.1 = i).map fun entry => entry.2.2.value) := by
  obtain ⟨u, rfl, run'⟩ := echoed_of_run run
  have exact : u.Exact md5 exec db ((schedule es).map Prod.snd).toFinset es := by
    apply run'.along.records
      (I := fun tape s => s.Exact md5 exec db ((schedule es).map Prod.snd).toFinset tape) (exact_init roomy)
    rintro tape s e s' exact ⟨turns, member⟩ taken
    apply exact.step turns.1 ?_ taken
    intro i sql asks
    exact List.mem_toFinset.mpr (mem_schedule_of_asks member asks)
  have all : ∀ q ∈ schedule es, u.proxy.answer q.1 ≠ none := fun q =>
    exact.recounts.answered (answered q.1.1)
  have follows := exact.recounts.follows
  obtain ⟨-, -, state⟩ := follows.phase.answered follows.accounted answered
  refine ⟨Memo.computed (hash_query md5) (u.proxy.history (schedule es)),
    u.proxy.history (schedule es), ?_, fun i => ?_⟩
  · have recorded := exact.recounts.remembers.eq_recording exact.once
    rw [ProxyServer.history_fst all, ProxyServer.state_history exec db all] at recorded
    rw [recorded, forget, state, Database.direct_echo]
  · rw [← answers_zip all]
    obtain ⟨u', same, receives⟩ := receives_of_run (L1.linked_empty l1_max_size_ true) rfl
      (fun _ _ => rfl) run
    have proxy : u'.proxy = u.proxy := congrArg (fun t : System σ => t.proxy) same
    have cases' := (receives i).received_cases
    rw [System.answers, proxy] at cases'
    exact cases'

/-- The client receives what the memo recalls. -/
theorem recording_of_run_run : ∃ (t : System ℕ) (table : Bytes → Option Bytes)
    (history : List (Bytes × Memo.Answer Bytes)),
    Path (step? id (register Nat.succ)) Turns (init {} 0) twice t ∧
      Memo.recording (register Nat.succ) (hash_query id) 0 [[0x71], [0x71]] = ((1, table), history) ∧
        received 0 twice = ((([((0, 0), [0x71]), ((0, 1), [0x71])] : List ((ℕ × ℕ) × Bytes)).zip
          history).filter fun entry => entry.1.1.1 = 0).map fun entry => entry.2.2.value := by
  obtain ⟨t, run, answered, state, -, rests⟩ := @run_of_twice Nat.succ (by decide +kernel)
  obtain ⟨table, history, recorded, receives⟩ :=
    recording_of_run id (register Nat.succ) 0 run (by decide +kernel) answered
  rw [state] at recorded
  exact ⟨t, table, history, run, recorded, (receives 0).2 rests⟩

end System

end FlightProxy
