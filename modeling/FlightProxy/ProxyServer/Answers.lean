import FlightProxy.Memo.Machine
import FlightProxy.ProxyServer.Elections
import FlightProxy.QueryCache.Provenance

/-! # The proxy is a memo of the database

While the clients take turns, each query is answered with what the database responds to it, or with
what it has responded to an earlier query of the same key. The proof lets the database keep its last
response: that is what the session at work reads, notifies and puts.
-/

namespace FlightProxy

open QueryCache (FlightResult hash_query)
open Transition

/-- A database that keeps its last response. -/
def Database.echo {σ : Type*} (exec : Database σ) : Database (σ × Bytes) :=
  fun x sql => (exec x.1 sql, (exec x.1 sql).2)

theorem Database.direct_echo {σ : Type*} {exec : Database σ} (x : σ × Bytes) (sqls : List Bytes) :
    (exec.echo.direct x sqls).1 = exec.direct x.1 sqls := by
  induction sqls using List.reverseRecOn with
  | nil => rfl
  | append_singleton sqls sql ih =>
    rw [direct_concat, direct_concat, ← ih]
    rfl

/-- Only a callback writes a cached or shared result. -/
theorem Core.Bridge.written_cases {c c' : Core} {e : SessionEvent} {call : ℕ} {value : Bytes}
    (step : Bridge c e c') (written : .on_result call value ∈ c'.log) :
    .on_result call value ∈ c.log ∨ e = .on_result call value := by
  cases step with
  | quiet => exact .inl written
  | delivers call' value' called =>
    rcases List.mem_append.mp written with before | now
    · exact .inl before
    · obtain ⟨rfl, rfl⟩ := Action.on_result.inj (List.mem_singleton.mp now)
      exact .inr rfl
  | early e action early =>
    rcases List.mem_append.mp written with before | now
    · exact .inl before
    · rw [← List.mem_singleton.mp now] at early
      contradiction
  | passes | asks | answered | leads | notifies =>
    left
    simpa [Core.record] using written
  | responds data relayed | notified call' query data relayed =>
    left
    cases relayed <;> simpa [Core.record] using written

namespace ProxyServer

variable {md5 : Bytes → Bytes} {p p' : ProxyServer} {d : Event} {c : ℕ × ℕ}
  {queries : List ((ℕ × ℕ) × Bytes)} {reply : Memo.Answer Bytes}

/-- How the query of a call has been answered: with the value found in the cache, or with what its
leader has notified. -/
def answer (p : ProxyServer) (c : ℕ × ℕ) : Option (Memo.Answer Bytes) :=
  match p.cache.returned c with
  | some .CACHE_HIT => (p.cache.doing c).value.map fun found => .recalled found.2
  | some .IS_LEADER => (p.sent c.1 c.2).map fun put => .computed put.2
  | _ => none

/-- The queries that have been answered, with their answers. -/
def history (p : ProxyServer) (queries : List ((ℕ × ℕ) × Bytes)) : List (Bytes × Memo.Answer Bytes) :=
  queries.filterMap fun q => (p.answer q.1).map (Prod.mk q.2)

theorem answer_of_hit {query value : Bytes} (served : p.cache.doing c = .served query value) :
    p.answer c = some (.recalled value) := by
  simp [answer, QueryCache.State.returned, served, QueryCache.DoCall.value]

theorem answer_of_sent {put : Bytes × Bytes} (leads : p.cache.returned c = some .IS_LEADER)
    (sent : p.sent c.1 c.2 = some put) : p.answer c = some (.computed put.2) := by
  rw [answer, leads, sent]
  rfl

theorem answer_cases (answered : p.answer c = some reply) :
    (∃ query value, p.cache.doing c = .served query value ∧ reply = .recalled value) ∨
      p.cache.returned c = some .IS_LEADER ∧
        ∃ put, p.sent c.1 c.2 = some put ∧ reply = .computed put.2 := by
  unfold ProxyServer.answer at answered
  split at answered
  · next hit =>
    obtain ⟨⟨query, value⟩, found, rfl⟩ := Option.map_eq_some_iff.mp answered
    unfold QueryCache.State.returned at hit
    split at hit
    · next query' value' served =>
      rw [served] at found
      obtain ⟨rfl, rfl⟩ := Prod.mk.inj (Option.some.inj found)
      exact .inl ⟨_, _, served, rfl⟩
    · split at hit <;> contradiction
    · contradiction
  · next leads =>
    obtain ⟨put, sent, rfl⟩ := Option.map_eq_some_iff.mp answered
    exact .inr ⟨leads, put, sent, rfl⟩
  · contradiction

theorem sent_of_step {i k : ℕ} {put : Bytes × Bytes} (sent : p.sent i k = some put)
    (taken : p.step? md5 d = some p') : p'.sent i k = some put := by
  cases d with
  | session j e =>
    rw [ProxyServer.sent, cache_of_session taken]
    exact sent
  | cache e => exact QueryCache.State.sends_persists sent (cache_of_cache taken)

/-- An answer stays. -/
theorem answer_of_step (answered : p.answer c = some reply) (taken : p.step? md5 d = some p') :
    p'.answer c = some reply := by
  rcases answer_cases answered with ⟨query, value, served, rfl⟩ | ⟨leads, put, sent, rfl⟩
  · apply answer_of_hit
    cases d with
    | session j e =>
      rw [cache_of_session taken]
      exact served
    | cache e =>
      rw [QueryCache.State.doing_of_done (by rw [served]; rfl) (cache_of_cache taken)]
      exact served
  · exact answer_of_sent (returned_of_step leads taken) (sent_of_step sent taken)

theorem answer_of_cache (same : p'.cache = p.cache) (c : ℕ × ℕ) : p'.answer c = p.answer c := by
  rw [answer, answer, sent, sent, same]

theorem history_concat (q : (ℕ × ℕ) × Bytes) : p.history (queries ++ [q]) =
    p.history queries ++ ((p.answer q.1).map (Prod.mk q.2)).toList := by
  rw [history, history, List.filterMap_append]
  cases reply : p.answer q.1 <;> simp [reply]

theorem history_fst (answered : ∀ q ∈ queries, p.answer q.1 ≠ none) :
    (p.history queries).map Prod.fst = queries.map Prod.snd := by
  induction queries using List.reverseRecOn with
  | nil => rfl
  | append_singleton queries q ih =>
    obtain ⟨reply, here⟩ :=
      Option.ne_none_iff_exists'.mp (answered q (List.mem_append_right _ List.mem_cons_self))
    rw [history_concat, here, List.map_append, List.map_append,
      ih fun q' member => answered q' (List.mem_append_left _ member)]
    rfl

/-- The queries that have answers, in order. -/
theorem history_fst_sublist (queries : List ((ℕ × ℕ) × Bytes)) :
    ((p.history queries).map Prod.fst).Sublist (queries.map Prod.snd) := by
  induction queries using List.reverseRecOn with
  | nil => exact List.Sublist.refl _
  | append_singleton queries q ih =>
    rw [history_concat, List.map_append, List.map_append]
    refine ih.append ?_
    cases p.answer q.1 with
    | none => exact List.nil_sublist _
    | some reply => exact List.Sublist.refl _

/-- Queries that had been answered have the answers they had. -/
theorem history_of_step (answered : ∀ q ∈ queries, p.answer q.1 ≠ none)
    (taken : p.step? md5 d = some p') : p'.history queries = p.history queries := by
  apply List.filterMap_congr
  intro q member
  obtain ⟨reply, here⟩ := Option.ne_none_iff_exists'.mp (answered q member)
  rw [here, answer_of_step here taken]

/-- The database has executed the queries that have led. -/
theorem state_history {σ : Type*} (exec : Database σ) (db : σ)
    (answered : ∀ q ∈ queries, p.answer q.1 ≠ none) :
    Memo.state exec db (p.history queries) = exec.direct db (System.led p queries) := by
  induction queries using List.reverseRecOn with
  | nil => rfl
  | append_singleton queries q ih =>
    have earlier := ih fun q' member => answered q' (List.mem_append_left _ member)
    obtain ⟨reply, here⟩ :=
      Option.ne_none_iff_exists'.mp (answered q (List.mem_append_right _ List.mem_cons_self))
    rw [history_concat, here, System.led_concat p q.1 q.2]
    rcases answer_cases here with ⟨query, value, served, rfl⟩ | ⟨leads, put, sent, rfl⟩
    · have hit : p.cache.returned q.1 = some .CACHE_HIT := by
        rw [QueryCache.State.returned, served]
      rw [hit, if_neg nofun, List.append_nil, ← earlier]
      exact Memo.state_recalled
    · rw [if_pos leads, Database.direct_concat, ← earlier]
      exact Memo.state_computed

/-- A call of notifyFlightResult puts once, when the handler that is stopped in it enters the cache. -/
theorem sent_cases (taken : p.step? md5 d = some p') (c : ℕ × ℕ) :
    p'.sent c.1 c.2 = p.sent c.1 c.2 ∨ ∃ query value, d = .cache (.putL1 c query value) ∧
      p'.sent c.1 c.2 = some (query, value) ∧ p.sent c.1 c.2 = none ∧
        (p.sessions c.1).server_handler = .notifying c.2 query value := by
  cases d with
  | session j e => exact .inl (by rw [sent, sent, cache_of_session taken])
  | cache e =>
    rcases QueryCache.State.notifying_cases (cache_of_cache taken) c with
      same | ⟨-, kept | ⟨query, value, rfl, idle, sends⟩⟩
    · exact .inl (congrArg QueryCache.NotifyCall.sends same)
    · exact .inl kept
    · obtain ⟨entered, -⟩ := cache_cases taken
      refine .inr ⟨query, value, rfl, sends, ?_, notifying_of_enters entered⟩
      rw [sent, idle]
      rfl

/-- A call that leads led before, or has just been elected. -/
theorem leader_cases {key : Bytes} (taken : p.step? md5 d = some p')
    (leads : p'.cache.singleflight_.doing c = .leader key) :
    p.cache.singleflight_.doing c = .leader key ∨ ∃ key', d = .cache (.flight (.elect c key')) := by
  rcases singleflight_cases taken with ⟨b, rfl, block⟩ | ⟨-, same⟩
  · rcases SingleFlight.State.leader_cases block with ⟨c', key', rfl, -, -, after⟩ | kept
    · simp only [after, SingleFlight.State.lead, Function.update_apply] at leads
      split_ifs at leads with here
      · exact .inr ⟨key', by rw [here]⟩
      · exact .inl leads
    · exact .inl ((kept c key).mp leads)
  · rw [same] at leads
    exact .inl leads

end ProxyServer

namespace System

variable {σ : Type*} {md5 : Bytes → Bytes} {exec : Database σ} {store : Store} {db : σ}
  {s s' t : System (σ × Bytes)} {d : ProxyServer.Event} {e : Event} {es : List Event} {c : ℕ × ℕ}
  {i j : ℕ}

/-- What a session is to read from its server, and what it notifies, is the last response. -/
structure Echoes (s : System (σ × Bytes)) (i : ℕ) : Prop where
  read : ∀ {response}, response ∈ s.outbox i → response = s.db.2
  notifies : ∀ {call query data}, (s.core i).server_handler = .notifying call query data → data = s.db.2

theorem Echoes.proxy (echoes : s.Echoes i) (taken : s.step? md5 exec.echo (.proxy d) = some s') :
    s'.Echoes i := by
  obtain ⟨e, step, -, fetches, -⟩ := turn taken i
  have db : s'.db = s.db := by
    obtain ⟨p, outbox, -, -, rfl⟩ := proxy_cases taken
    rfl
  constructor
  · intro response member
    rw [db]
    apply echoes.read
    unfold Core.Fetches at fetches
    split at fetches
    · rcases fetches with more | ⟨-, none, -⟩
      · rw [more]
        exact List.mem_cons_of_mem _ member
      · rw [none] at member
        contradiction
    · rwa [← fetches]
  · intro call query data notifying
    rw [db]
    generalize s'.core i = c' at step notifying
    cases step with
    | quiet | early | passes | asks | answered | leads | delivers | responds =>
      exact echoes.notifies notifying
    | notifies data' idle leads =>
      obtain ⟨-, -, rfl⟩ := ServerHandler.notifying.inj notifying
      rcases fetches with more | ⟨-, -, none⟩
      · apply echoes.read
        rw [more]
        exact List.mem_cons_self
      · exact absurd none leads
    | notified => contradiction

/-- A server has a statement to execute only while there is nothing to be read or notified. -/
theorem Follows.executing {σ : Type*} {exec : Database σ} {db : σ} {s s' : System σ}
    (follows : s.Follows md5 exec db es) (taken : s.execute exec j = some s') (i : ℕ) :
    s.outbox i = [] ∧ (s.core i).server_handler = .idle := by
  obtain ⟨sql, next, -⟩ := Option.map_eq_some_iff.mp taken
  have next : (statements (s.core j).log)[s.executed j]? = some sql := next
  have busy : s.executed j ≠ (statements (s.core j).log).length := by
    intro done
    rw [done, List.getElem?_eq_none le_rfl] at next
    contradiction
  rcases follows.placed i with open' | ⟨idle, leads, ⟨x, progress⟩, others⟩
  · exact ⟨open'.read, open'.server⟩
  · by_cases here : j = i
    · subst here
      cases progress with
      | sent before sql' server last done read => exact ⟨read, server⟩
      | executed response server done => exact absurd done busy
      | notifying data notifying done => exact absurd done busy
      | lost server done => exact absurd done busy
    · exact absurd (others j here).open'.done busy

theorem Follows.echoes (follows : s.Follows md5 exec.echo (db, []) es)
    (taken : s.execute exec.echo j = some s') (i : ℕ) : s'.Echoes i := by
  obtain ⟨nothing, idle⟩ := follows.executing taken i
  obtain ⟨sql, next, rfl⟩ := Option.map_eq_some_iff.mp taken
  constructor
  · intro response member
    simp only [Function.update_apply] at member
    split_ifs at member with here
    · subst here
      rw [nothing] at member
      exact List.mem_singleton.mp member
    · rw [nothing] at member
      contradiction
  · intro call query data notifying
    exact absurd (idle.symm.trans notifying) nofun

/-- A response that the database gave to a query of the key. -/
def Known (md5 : Bytes → Bytes) (history : List (Bytes × Memo.Answer Bytes)) (key value : Bytes) : Prop :=
  ∃ sql, (sql, .computed value) ∈ history ∧ hash_query md5 sql = key

/-- What the runs in which the clients take turns keep about the answers. -/
structure Recounts (md5 : Bytes → Bytes) (exec : Database σ) (db : σ) (es : List Event)
    (s : System (σ × Bytes)) : Prop where
  follows : s.Follows md5 exec.echo (db, []) es
  elects : s.Elects md5
  echoes : ∀ i, s.Echoes i
  texts : ∀ {c sql query}, (c, sql) ∈ schedule es → (s.proxy.cache.doing c).query = some query →
    query = sql
  earlier : ∀ {first q second}, schedule es = first ++ q :: second → second ≠ [] →
    s.proxy.answer q.1 ≠ none
  kept : ∀ {c key}, s.proxy.cache.singleflight_.doing c = .leader key →
    s.proxy.sent c.1 c.2 ≠ none ∨ s.Holds c
  written : ∀ {i call value}, .on_result call value ∈ (s.core i).log →
    s.proxy.answer (i, call) = some (.recalled value)
  genuine : s.proxy.cache.Genuine md5 (Known md5 (s.proxy.history (schedule es)))
  remembers : Memo.Remembers exec (hash_query md5) db (s.proxy.history (schedule es))

theorem recounts_init (linked : store.l1.Linked) (empty : store.l1.contents = [])
    (unheld : store.redis_enabled_ = true → ∀ key, store.redis (redis_key key) = none) :
    (init store (db, []) : System (σ × Bytes)).Recounts md5 exec db [] := by
  refine ⟨follows_init, elects_init, fun i => ⟨fun member => ?_, fun notifying => ?_⟩, nofun, ?_,
    fun leads => ?_, fun written => absurd written List.not_mem_nil, ?_, .nil⟩
  · contradiction
  · contradiction
  · intro first q second split
    simp [schedule] at split
  · contradiction
  · apply QueryCache.State.genuine_init linked empty
    intro enabled key value held
    rw [unheld enabled key] at held
    contradiction

namespace Recounts

/-- A query that has not been answered is the last one. -/
theorem last (recounts : s.Recounts md5 exec db es) {sql : Bytes} (member : (c, sql) ∈ schedule es)
    (unanswered : s.proxy.answer c = none) : ∃ before, schedule es = before ++ [(c, sql)] ∧
      ∀ q ∈ before, s.proxy.answer q.1 ≠ none := by
  obtain ⟨before, after, split⟩ := List.append_of_mem member
  cases after with
  | cons q after => exact absurd unanswered (recounts.earlier split nofun)
  | nil =>
    refine ⟨before, split, fun q member => ?_⟩
    obtain ⟨first, second, rfl⟩ := List.append_of_mem member
    rw [List.append_assoc, List.cons_append] at split
    exact recounts.earlier split (by simp)

/-- A call that has returned has found a value or leads. -/
theorem returned_cases (recounts : s.Recounts md5 exec db es) (returned : s.proxy.cache.returned c ≠ none) :
    (∃ query value, s.proxy.cache.doing c = .served query value) ∨
      s.proxy.cache.returned c = some .IS_LEADER := by
  obtain ⟨result, here⟩ := Option.ne_none_iff_exists'.mp returned
  cases result with
  | IS_LEADER => exact .inr here
  | IS_WAITER =>
    obtain ⟨query, key, f, -, waiter⟩ := QueryCache.State.returned_waiter_iff.mp here
    have alone := recounts.elects.alone c
    rw [waiter] at alone
    contradiction
  | CACHE_HIT =>
    left
    unfold QueryCache.State.returned at here
    split at here
    · next query value served => exact ⟨query, value, served⟩
    · split at here <;> contradiction
    · contradiction

/-- A query whose call has not returned is the one that its session asks. -/
theorem decided_or_asking (recounts : s.Recounts md5 exec db es) {sql : Bytes}
    (member : (c, sql) ∈ schedule es) : s.proxy.cache.returned c ≠ none ∨
      (s.core c.1).client_handler ≠ .idle ∧ c.2 = (s.core c.1).calls - 1 ∧
        ∃ data, (s.core c.1).client_handler = .calling sql data := by
  cases recounts.follows.phase with
  | decided i others decided => exact .inl (decided _ member)
  | asking i sql' data before split calling waits open' others decided =>
    rw [split] at member
    rcases List.mem_append.mp member with earlier | now
    · exact .inl (decided _ earlier)
    · obtain ⟨same, rfl⟩ := Prod.mk.inj (List.mem_singleton.mp now)
      obtain ⟨rfl, number⟩ := Prod.mk.inj (same : (c.1, c.2) = _)
      exact .inr ⟨by rw [calling]; nofun, number, data, calling⟩

/-- When a client has been answered, each of its queries has an answer on record. -/
theorem answered (recounts : s.Recounts md5 exec db es) {q : (ℕ × ℕ) × Bytes}
    (answered : (s.proxy.sessions q.1.1).Answered) (member : q ∈ schedule es) :
    s.proxy.answer q.1 ≠ none := by
  obtain ⟨⟨i, k⟩, sql⟩ := q
  -- a call in progress whose callback has written has been answered with what it wrote
  have written : (s.core i).client_handler ≠ .idle → k = (s.core i).calls - 1 →
      s.proxy.answer (i, k) ≠ none := by
    rintro busy rfl
    obtain ⟨value, written⟩ := answered.2.resolve_left busy
    have here : s.proxy.answer (i, (s.core i).calls - 1) = some (.recalled value) :=
      recounts.written written
    rw [here]
    exact Option.some_ne_none _
  rcases recounts.decided_or_asking member with decided | ⟨busy, last, -⟩
  · rcases recounts.returned_cases decided with ⟨query, value, served⟩ | returned
    · rw [ProxyServer.answer_of_hit served]
      exact Option.some_ne_none _
    · obtain ⟨query, key, -, leads⟩ := QueryCache.State.returned_leader_iff.mp returned
      rcases recounts.kept leads with sent | ⟨led, -⟩ | ⟨busy, last⟩
      · obtain ⟨put, sent⟩ := Option.ne_none_iff_exists'.mp sent
        rw [ProxyServer.answer_of_sent returned sent]
        exact Option.some_ne_none _
      · exact absurd answered.1 led
      · exact written busy (Nat.eq_sub_of_add_eq last)
  · exact written busy last

/-- What a leader puts is what the database responds to its query. -/
theorem puts (recounts : s.Recounts md5 exec db es) {query value : Bytes}
    (notifying : (s.proxy.sessions c.1).server_handler = .notifying c.2 query value)
    (unsent : s.proxy.sent c.1 c.2 = none) : ∃ before sql, schedule es = before ++ [(c, sql)] ∧
      (∀ q ∈ before, s.proxy.answer q.1 ≠ none) ∧ hash_query md5 query = hash_query md5 sql ∧
        s.proxy.answer c = none ∧ s.proxy.cache.returned c = some .IS_LEADER ∧
          value = (exec (exec.direct db (led s.proxy before)) sql).2 := by
  have follows := recounts.follows
  obtain ⟨idle, leading, number, text, others⟩ := follows.notifying (i := c.1) notifying
  have leads : s.proxy.Leads md5 query c := by
    rw [← text, ← Prod.mk.eta (p := c), ← number]
    exact recounts.elects.leads leading
  have returned := follows.returned_of_leader leads
  have unanswered : s.proxy.answer c = none := by
    rw [ProxyServer.answer, returned, unsent]
    rfl
  obtain ⟨query', flying, hashed⟩ := follows.accounted.tied.doing (c := c) (by rw [leads]; rfl)
  have begun : (s.proxy.cache.doing c).query = some query' := by
    rw [flying]
    rfl
  have within : c.2 < (s.core c.1).calls :=
    follows.coherent.asked.numbered (by rw [begun]; exact Option.some_ne_none _)
  obtain ⟨sql, member⟩ := mem_schedule (follows.numbered c.1 ▸ within)
  obtain ⟨before, split, earlier⟩ := recounts.last member unanswered
  have same := recounts.texts member begun
  refine ⟨before, sql, split, earlier, ?_, unanswered, returned, ?_⟩
  · rw [← hashed, same]
  · have state : s.db = exec.echo.direct (db, []) (led s.proxy (schedule es)) := by
      cases follows.phase with
      | asking i sql' data before' last calling waits open' others' =>
        by_cases here : c.1 = i
        · rw [← here] at open'
          exact absurd open'.unled leading
        · exact absurd (others' _ here).open'.unled leading
      | decided i others' decided stage =>
        by_cases here : c.1 = i
        · rw [← here] at stage
          cases stage with
          | unled open' => exact absurd open'.unled leading
          | led idle' leads' progress =>
            cases progress with
            | sent before' sql' server => cases server.symm.trans notifying
            | executed response server => cases server.symm.trans notifying
            | notifying data' here' done read owes => exact owes.symm
            | lost server => cases server.symm.trans notifying
        · exact absurd (others' _ here).open'.unled leading
    have echoed := (recounts.echoes c.1).notifies notifying
    rw [split, led_concat, if_pos returned, Database.direct_concat] at state
    rw [echoed, state, ← Database.direct_echo (db, ([] : Bytes))]
    rfl

/-- A call that leads has been notified, or its session is at work on it. -/
private theorem kept_step (recounts : s.Recounts md5 exec db es) (sequential : s.Sequential (.proxy d))
    (taken : s.step? md5 exec.echo (.proxy d) = some s') {key : Bytes}
    (leads : s'.proxy.cache.singleflight_.doing c = .leader key) :
    s'.proxy.sent c.1 c.2 ≠ none ∨ s'.Holds c := by
  have follows := recounts.follows
  obtain ⟨p, outbox, -, ran, same⟩ := proxy_cases taken
  have ran : s.proxy.step? md5 d = some s'.proxy := by rw [ran, same]
  have persists : s.proxy.sent c.1 c.2 ≠ none → s'.proxy.sent c.1 c.2 ≠ none := by
    intro sent
    obtain ⟨put, sent⟩ := Option.ne_none_iff_exists'.mp sent
    rw [ProxyServer.sent_of_step sent ran]
    exact Option.some_ne_none _
  rcases ProxyServer.leader_cases ran leads with led | ⟨key', rfl⟩
  · rcases recounts.kept led with sent | holds
    · exact .inl (persists sent)
    · rcases follows.silent_or_free sequential taken with calls | ⟨free, -⟩
      · have answer : ∀ result, s.proxy.cache.returned c = some result → result = .IS_LEADER := by
          intro result returned
          exact Option.some.inj (returned.symm.trans (follows.returned_of_leader led))
        rcases follows.holds_step taken calls answer holds with held | settled
        · exact .inr held
        · exact .inl (persists (follows.coherent.sent_of_settled settled))
      · exact absurd holds (follows.not_holds (free c.1) led)
  · obtain ⟨query, flights, electing, -⟩ :=
      QueryCache.State.flight_elect_cases (ProxyServer.cache_of_cache ran)
    have waits : s.proxy.cache.returned c = none := by
      unfold QueryCache.State.returned
      rw [electing]
    obtain ⟨busy, last, -⟩ := follows.asking (by rw [electing]; exact Option.some_ne_none _) waits
    rcases follows.holds_step taken (calls_of_silent taken rfl) (by simp [waits]) (.inr ⟨busy, last⟩) with
      held | settled
    · exact .inr held
    · exact .inl (persists (follows.coherent.sent_of_settled settled))

/-- While no call waits in a flight, the callback that a step runs is that of a cache hit. -/
theorem hit_of_invokes (recounts : s.Recounts md5 exec db es) {p : ProxyServer}
    {b : QueryCache.Event (ℕ × ℕ)} {value : Bytes} (ran : s.proxy.step? md5 (.cache b) = some p)
    (invoked : s.proxy.cache.invokes b = some (c, value)) : ∃ query,
      s.proxy.cache.doing c = .hit query value ∧ p.cache.doing c = .served query value := by
  have moved := ProxyServer.cache_of_cache ran
  cases b with
  | call_back c outcome =>
    obtain ⟨query, value, hit, after⟩ := QueryCache.State.call_back_cases outcome moved
    obtain ⟨entered, -⟩ := ProxyServer.cache_cases ran
    obtain rfl : outcome = .returned := by simpa [ProxyServer.enters] using entered
    simp only [QueryCache.State.invokes, hit, Option.some.injEq, Prod.mk.injEq] at invoked
    obtain ⟨rfl, rfl⟩ := invoked
    refine ⟨query, hit, ?_⟩
    rw [after]
    exact Function.update_self ..
  | flight b =>
    have joined : ∃ c joined, (s.proxy.cache.singleflight_.doing c).refers = some joined := by
      cases b with
      | call_back c outcome =>
        cases calling : s.proxy.cache.singleflight_.doing c with
        | calling key f result => exact ⟨c, (key, f), by rw [calling]; rfl⟩
        | _ => simp [QueryCache.State.invokes, calling] at invoked
      | notify n outcome =>
        cases notifying : s.proxy.cache.singleflight_.notifying n with
        | notifying key result f rest =>
          cases rest with
          | nil => simp [QueryCache.State.invokes, notifying] at invoked
          | cons c rest =>
            obtain ⟨key', waiter⟩ := recounts.genuine.enrolled.snapshot notifying List.mem_cons_self
            exact ⟨c, (key', f), by rw [waiter]; rfl⟩
        | _ => simp [QueryCache.State.invokes, notifying] at invoked
      | elect | join | lookup | publish | erase => contradiction
    obtain ⟨c, flight, joined⟩ := joined
    rw [recounts.elects.alone c] at joined
    contradiction
  | getL1_shared | getL1_unique | getL2 | promote | putL1 | putL2 => contradiction

/-- What is written to a client for a call is the answer to its query. -/
private theorem written_step (recounts : s.Recounts md5 exec db es)
    (taken : s.step? md5 exec.echo (.proxy d) = some s') {call : ℕ} {value : Bytes}
    (written : .on_result call value ∈ (s'.core i).log) :
    s'.proxy.answer (i, call) = some (.recalled value) := by
  obtain ⟨p, outbox, -, ran, rfl⟩ := proxy_cases taken
  have old : .on_result call value ∈ (s.core i).log → p.answer (i, call) = some (.recalled value) :=
    fun before => ProxyServer.answer_of_step (recounts.written before) ran
  rcases ProxyServer.turn_cases ran i with ⟨-, same⟩ | ⟨e, -, permitted, step, -⟩ |
    ⟨b, call', value', rfl, invoked, step⟩
  · exact old (by rwa [core, ← same])
  · rcases (Session.bridge_of_step step).written_cases written with before | rfl
    · exact old before
    · contradiction
  · rcases (Session.bridge_of_step step).written_cases written with before | here
    · exact old before
    · obtain ⟨rfl, rfl⟩ := SessionEvent.on_result.inj here
      obtain ⟨query, -, served⟩ := recounts.hit_of_invokes ran invoked
      exact ProxyServer.answer_of_hit served

/-- The step answers no query, or the last one. -/
theorem grows (recounts : s.Recounts md5 exec db es) {p : ProxyServer}
    (ran : s.proxy.step? md5 d = some p) : p.history (schedule es) = s.proxy.history (schedule es) ∨
      ∃ before q reply, schedule es = before ++ [q] ∧ (∀ q ∈ before, s.proxy.answer q.1 ≠ none) ∧
        s.proxy.answer q.1 = none ∧ p.answer q.1 = some reply ∧
          p.history (schedule es) = s.proxy.history (schedule es) ++ [(q.2, reply)] ∧
            s.proxy.history (schedule es) = s.proxy.history before := by
  cases whole : schedule es using List.reverseRecOn with
  | nil => exact .inl rfl
  | append_singleton before q =>
    have earlier : ∀ q ∈ before, s.proxy.answer q.1 ≠ none := by
      intro q' member
      obtain ⟨first, second, rfl⟩ := List.append_of_mem member
      rw [List.append_assoc, List.cons_append] at whole
      exact recounts.earlier whole (by simp)
    have same := ProxyServer.history_of_step earlier ran
    rw [ProxyServer.history_concat, ProxyServer.history_concat, same]
    cases was : s.proxy.answer q.1 with
    | some reply =>
      rw [ProxyServer.answer_of_step was ran]
      exact .inl rfl
    | none =>
      cases now : p.answer q.1 with
      | none => exact .inl rfl
      | some reply => exact .inr ⟨before, q, reply, rfl, earlier, was, now, by simp, by simp⟩

/-- Only the last query can be answered by the step. -/
theorem texts_step (recounts : s.Recounts md5 exec db es) {p : ProxyServer}
    (ran : s.proxy.step? md5 d = some p) {sql query : Bytes} (member : (c, sql) ∈ schedule es)
    (begun : (p.cache.doing c).query = some query) : query = sql := by
  cases d with
  | session i e =>
    rw [ProxyServer.cache_of_session ran] at begun
    exact recounts.texts member begun
  | cache b =>
    rcases QueryCache.State.doing_cases (ProxyServer.cache_of_cache ran) c with
      same | ⟨-, kept | ⟨query', rfl, idle, begun'⟩⟩
    · rw [same] at begun
      exact recounts.texts member begun
    · rw [kept] at begun
      exact recounts.texts member begun
    · obtain rfl := Option.some.inj (begun.symm.trans begun')
      obtain ⟨entered, -⟩ := ProxyServer.cache_cases ran
      obtain ⟨data, calling, last⟩ := recounts.follows.coherent.notifies.calling_of_enters entered
      have waits : s.proxy.cache.returned c = none := by
        unfold QueryCache.State.returned
        rw [idle]
      obtain ⟨-, -, data', calling'⟩ := (recounts.decided_or_asking member).resolve_left (not_not_intro waits)
      exact (ClientHandler.calling.inj (calling.symm.trans calling')).1

/-- Nothing has been notified for a query that has not been answered. -/
theorem unsent (recounts : s.Recounts md5 exec db es) {sql : Bytes}
    (member : (c, sql) ∈ schedule es) (unanswered : s.proxy.answer c = none) :
    s.proxy.sent c.1 c.2 = none := by
  by_contra notified
  obtain ⟨put, sent⟩ := Option.ne_none_iff_exists'.mp notified
  have within : c.2 < (s.core c.1).returned :=
    (recounts.follows.coherent.notifies.sessions c.1).past notified
  rcases recounts.decided_or_asking member with returned | ⟨busy, last, -⟩
  · rcases recounts.returned_cases returned with ⟨query, value, served⟩ | leads
    · rw [ProxyServer.answer_of_hit served] at unanswered
      contradiction
    · rw [ProxyServer.answer_of_sent leads sent] at unanswered
      contradiction
  · rw [Core.returned, if_neg busy] at within
    omega

/-- A step of the proxy while no client asks. -/
private theorem quiet_step (recounts : s.Recounts md5 exec db es) (sequential : s.Sequential (.proxy d))
    (taken : s.step? md5 exec.echo (.proxy d) = some s') (silent : (Event.proxy d).asks = none) :
    s'.Recounts md5 exec db (es ++ [.proxy d]) := by
  have follows := recounts.follows.step sequential taken
  have unasked : schedule (es ++ [.proxy d]) = schedule es := by rw [schedule_concat, silent]
  obtain ⟨p, outbox, -, ran, same⟩ := proxy_cases taken
  have ran : s.proxy.step? md5 d = some s'.proxy := by rw [ran, same]
  have texts : ∀ {c sql query}, (c, sql) ∈ schedule es →
      (s'.proxy.cache.doing c).query = some query → query = sql := recounts.texts_step ran
  -- what is put is what the database has responded to the last query
  have allowed : ∀ b, d = .cache b → ∀ n query value, b = .putL1 n query value →
      Known md5 (s'.proxy.history (schedule es)) (hash_query md5 query) value := by
    rintro b rfl n query value rfl
    obtain ⟨entered, -⟩ := ProxyServer.cache_cases ran
    obtain ⟨idle, put⟩ := QueryCache.State.putL1_cases (ProxyServer.cache_of_cache ran)
    have unsent : s.proxy.sent n.1 n.2 = none := by
      rw [ProxyServer.sent, idle]
      rfl
    have sent : s'.proxy.sent n.1 n.2 = some (query, value) := by
      rw [ProxyServer.sent, put]
      simp [QueryCache.NotifyCall.sends]
    obtain ⟨before, sql, split, earlier, hashed, unanswered, returned, computed⟩ :=
      recounts.puts (ProxyServer.notifying_of_enters entered) unsent
    have answer := ProxyServer.answer_of_sent (ProxyServer.returned_of_step returned ran) sent
    refine ⟨sql, ?_, hashed.symm⟩
    rw [split, ProxyServer.history_concat, answer]
    exact List.mem_append_right _ List.mem_cons_self
  have genuine : s'.proxy.cache.Genuine md5 (Known md5 (s'.proxy.history (schedule es))) := by
    have more : s.proxy.cache.Genuine md5 (Known md5 (s'.proxy.history (schedule es))) := by
      apply recounts.genuine.mono
      rintro key value ⟨sql, member, hashed⟩
      refine ⟨sql, ?_, hashed⟩
      rcases recounts.grows ran with kept | ⟨before, q, reply, -, -, -, -, grown, -⟩
      · rwa [kept]
      · rw [grown]
        exact List.mem_append_left _ member
    cases d with
    | session i e =>
      rw [ProxyServer.cache_of_session ran]
      exact more
    | cache b => exact more.step (allowed b rfl) (ProxyServer.cache_of_cache ran)
  refine ⟨follows, recounts.elects.step recounts.follows sequential taken,
    fun i => (recounts.echoes i).proxy taken, ?_, ?_, recounts.kept_step sequential taken,
    recounts.written_step taken, ?_, ?_⟩
  · rw [unasked]
    exact texts
  · rw [unasked]
    intro first q second split more
    obtain ⟨reply, answered⟩ := Option.ne_none_iff_exists'.mp (recounts.earlier split more)
    rw [ProxyServer.answer_of_step answered ran]
    exact Option.some_ne_none _
  · rw [unasked]
    exact genuine
  · rw [unasked]
    rcases recounts.grows ran with
      kept | ⟨before, ⟨c, sql⟩, reply, split, earlier, unanswered, now, grown, old⟩
    · rw [kept]
      exact recounts.remembers
    · have member : (c, sql) ∈ schedule es := by
        rw [split]
        exact List.mem_append_right _ List.mem_cons_self
      rw [grown]
      rcases ProxyServer.answer_cases now with ⟨query, value, served, rfl⟩ | ⟨leads, put, sent, rfl⟩
      · -- a value that was found
        obtain ⟨sql', known, hashed⟩ := genuine.found (c := c) (by rw [served]; rfl)
        have text := texts member (by rw [served]; rfl)
        rw [grown] at known
        refine .recalls recounts.remembers (b := sql') ?_ (by rw [hashed, text])
        simpa using known
      · -- a value that was notified
        have unsent := recounts.unsent member unanswered
        rcases ProxyServer.sent_cases ran c with kept | ⟨query, value, rfl, sent', -, notifying⟩
        · rw [kept, unsent] at sent
          contradiction
        · obtain rfl := Option.some.inj (sent'.symm.trans sent)
          obtain ⟨before', sql', split', -, -, -, -, computed⟩ := recounts.puts notifying unsent
          obtain ⟨rfl, last⟩ := List.append_inj' (split'.symm.trans split) rfl
          obtain ⟨-, rfl⟩ := Prod.mk.inj (List.singleton_inj.mp last)
          have state := ProxyServer.state_history exec db earlier
          rw [← old] at state
          rw [computed, ← state]
          exact .computes _ recounts.remembers

/-- When a client asks, its query is appended to the schedule, and is in no call yet. -/
theorem asked (recounts : s.Recounts md5 exec db es) (taken : s.step? md5 exec.echo (.proxy d) = some s')
    {sql : Bytes} (asks : (Event.proxy d).asks = some (i, sql)) : ∃ c,
      schedule (es ++ [.proxy d]) = schedule es ++ [(c, sql)] ∧ s'.proxy.cache = s.proxy.cache ∧
        (s.proxy.cache.doing c).query = none ∧
          s'.proxy.history (schedule (es ++ [.proxy d])) = s.proxy.history (schedule es) ∧ c.1 = i := by
  obtain ⟨data, here, text⟩ := asks_cases asks
  obtain rfl := Event.proxy.inj here
  obtain ⟨p, outbox, -, ran, rfl⟩ := proxy_cases taken
  have cache : p.cache = s.proxy.cache := ProxyServer.cache_of_session ran
  have same : ∀ c, p.answer c = s.proxy.answer c := ProxyServer.answer_of_cache cache
  have asked : schedule (es ++ [.proxy (.session i (.complete .client_read (.ok data)))]) =
      schedule es ++ [((i, (s.core i).calls), sql)] := by
    rw [schedule_concat, asks, recounts.follows.numbered]
  have fresh : (s.proxy.cache.doing (i, (s.core i).calls)).query = none := by
    by_contra begun
    exact absurd (recounts.follows.coherent.asked.numbered begun) (Nat.lt_irrefl _)
  refine ⟨_, asked, cache, fresh, ?_, rfl⟩
  rw [asked, ProxyServer.history_concat, same, ProxyServer.answer, unasked fresh, Option.map_none,
    Option.toList_none, List.append_nil, ProxyServer.history, ProxyServer.history]
  simp only [same]

/-- A client asks, so every query before has been answered. -/
private theorem ask_step (recounts : s.Recounts md5 exec db es) (sequential : s.Sequential (.proxy d))
    (taken : s.step? md5 exec.echo (.proxy d) = some s') {sql : Bytes}
    (asks : (Event.proxy d).asks = some (i, sql)) : s'.Recounts md5 exec db (es ++ [.proxy d]) := by
  obtain ⟨c, grown, cache, fresh, history, -⟩ := recounts.asked taken asks
  have answered : ∀ j, (s.proxy.sessions j).Answered := by
    obtain ⟨data, here, text⟩ := asks_cases asks
    obtain rfl := Event.proxy.inj here
    have first : data.head? = some query_type := by
      rw [← statement_isSome_iff, text]
      rfl
    exact (sequential first).2.2
  refine ⟨recounts.follows.step sequential taken, recounts.elects.step recounts.follows sequential taken,
    fun j => (recounts.echoes j).proxy taken, ?_, ?_, recounts.kept_step sequential taken,
    recounts.written_step taken, ?_, ?_⟩
  · intro c' text query member begun
    rw [grown] at member
    rw [cache] at begun
    rcases List.mem_append.mp member with earlier | now
    · exact recounts.texts earlier begun
    · obtain ⟨rfl, -⟩ := Prod.mk.inj (List.mem_singleton.mp now)
      rw [fresh] at begun
      contradiction
  · intro before q after split more
    rw [grown] at split
    rw [ProxyServer.answer_of_cache cache]
    refine recounts.answered (answered q.1.1) ?_
    obtain ⟨after', last, rfl⟩ := (List.eq_nil_or_concat' after).resolve_left more
    rw [← List.cons_append, ← List.append_assoc] at split
    rw [(List.append_inj' split rfl).1]
    exact List.mem_append_right _ List.mem_cons_self
  · rw [history, cache]
    exact recounts.genuine
  · rw [history]
    exact recounts.remembers

theorem step (recounts : s.Recounts md5 exec db es) (sequential : s.Sequential e)
    (taken : s.step? md5 exec.echo e = some s') : s'.Recounts md5 exec db (es ++ [e]) := by
  cases e with
  | execute j =>
    have follows := recounts.follows.step sequential taken
    have elects := recounts.elects.step recounts.follows sequential taken
    have echoes := recounts.follows.echoes taken
    have unasked : schedule (es ++ [.execute j]) = schedule es := schedule_concat es (.execute j)
    obtain ⟨sql, -, rfl⟩ := Option.map_eq_some_iff.mp taken
    refine ⟨follows, elects, echoes, ?_, ?_, recounts.kept, recounts.written, ?_, ?_⟩
    all_goals rw [unasked]
    · exact recounts.texts
    · exact recounts.earlier
    · exact recounts.genuine
    · exact recounts.remembers
  | proxy d =>
    cases asks : (Event.proxy d).asks with
    | none => exact recounts.quiet_step sequential taken asks
    | some asked => exact recounts.ask_step sequential taken asks

end Recounts

/-! ## Runs -/

/-- The system without what the database keeps of its responses. -/
def forget (s : System (σ × Bytes)) : System σ := ⟨s.proxy, s.db.1, s.executed, s.outbox⟩

theorem forget_step {s : System (σ × Bytes)} :
    (s.step? md5 exec.echo e).map forget = s.forget.step? md5 exec e := by
  cases e with
  | execute j =>
    simp only [step?, execute, forget]
    cases (statements (s.proxy.sessions j).log)[s.executed j]? with
    | none => rfl
    | some sql => rfl
  | proxy d =>
    have unread : s.forget.unread d = s.unread d := rfl
    simp only [step?, unread]
    cases s.unread d with
    | none => rfl
    | some outbox =>
      have proxy : s.forget.proxy = s.proxy := rfl
      simp only [Option.bind_some, proxy]
      cases s.proxy.step? md5 d with
      | none => rfl
      | some p => rfl

/-- A run of the system is one in which the database keeps its last response. -/
theorem echoed_of_run {t : System σ} {ok : System σ → Event → Prop}
    (run : Path (step? md5 exec) ok (init store db) es t) : ∃ u : System (σ × Bytes), u.forget = t ∧
      Path (step? md5 exec.echo) (fun u e => ok u.forget e) (init store (db, [])) es u := by
  have follows : ∀ s e s' (u : System (σ × Bytes)), u.forget = s → ok s e →
      step? md5 exec s e = some s' →
        ok u.forget e ∧ ∃ u', step? md5 exec.echo u e = some u' ∧ u'.forget = s' := by
    rintro s e s' u rfl allowed taken
    rw [← forget_step] at taken
    obtain ⟨u', ran, rfl⟩ := Option.map_eq_some_iff.mp taken
    exact ⟨allowed, u', ran, rfl⟩
  obtain ⟨u, run', same⟩ := run.simulates (u := init store (db, [])) rfl follows
  exact ⟨u, same, run'⟩

end System

end FlightProxy
