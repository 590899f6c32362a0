import FlightProxy.ProxyServer.Settlement
import FlightProxy.Session.Interception
import FlightProxy.Session.Statements

/-! # Clients that take turns

While each query is answered before the next is sent, one session at most is at work, and only on the
last query. The database is then in the state after the queries that have led, in the order in which
the clients sent them, up to the last one while it is on its way.
-/

namespace FlightProxy

open QueryCache (FlightResult)
open Transition

theorem Database.direct_concat {σ : Type*} {exec : Database σ} {db : σ} (sqls : List Bytes) (sql : Bytes) :
    exec.direct db (sqls ++ [sql]) = (exec (exec.direct db sqls) sql).1 := by
  rw [direct, List.foldl_append]
  rfl

/-- The handler of a read that is classified as a query. -/
theorem Session.core_of_query {s s' : Session} {data sql : Bytes}
    (taken : s.step? (.complete .client_read (.ok data)) = some s') (alive : s.is_destroying_ = false)
    (query : intercept data = some sql) : s'.core = { s.core with
      client_handler := .calling sql data
      calls := s.calls + 1
      log := s.log ++ [.read data (some sql)] } := by
  have completed : s.complete .client_read (.ok data) = some s' := taken
  obtain ⟨-, -, delivered, rfl⟩ := complete_ok_cases completed
  simp only [delivers, Bool.and_eq_true, decide_eq_true_eq] at delivered
  have interception := intercept_fill s.client_buffer_ data delivered.1
  simp only [alive, Bool.false_eq_true, if_false, succeed, client_read]
  split_ifs at interception ⊢ with here
  · rw [← interception] at query
    obtain rfl := Option.some.inj query
    rfl
  · rw [← interception] at query
    contradiction

namespace System

variable {σ : Type*} {md5 : Bytes → Bytes} {exec : Database σ} {store : Store} {x db : σ}
  {s s' t : System σ} {e : Event} {es : List Event} {d : ProxyServer.Event}
  {queries : List ((ℕ × ℕ) × Bytes)} {i j : ℕ}

def core (s : System σ) (i : ℕ) : Core := (s.proxy.sessions i).core

/-- What the last call of the session has returned. -/
def result (s : System σ) (i : ℕ) : Option FlightResult :=
  s.proxy.cache.returned (i, (s.core i).calls - 1)

def Free (s : System σ) (i : ℕ) : Prop := (s.core i).Free (s.result i) (s.executed i) (s.outbox i)

def Stage (exec : Database σ) (x : σ) (s : System σ) (i : ℕ) : Prop :=
  (s.core i).Stage exec s.db x (s.result i) (s.executed i) (s.outbox i)

/-! ## Steps of the proxy -/

theorem proxy_cases (taken : s.step? md5 exec (.proxy d) = some s') :
    ∃ p outbox, s.unread d = some outbox ∧ s.proxy.step? md5 d = some p ∧
      s' = { s with proxy := p, outbox := outbox } := by
  obtain ⟨outbox, unread, moved⟩ := Option.bind_eq_some_iff.mp taken
  obtain ⟨p, ran, rfl⟩ := Option.map_eq_some_iff.mp moved
  exact ⟨p, outbox, unread, ran, rfl⟩

/-- A session reads off its own server only. -/
private theorem fetches_of_unread {outbox : ℕ → List Bytes} (unread : s.unread d = some outbox) (i : ℕ) :
    (∀ e, d = .session i e → (s.core i).Fetches (s.outbox i) e (outbox i)) ∧
      ((∀ e, d ≠ .session i e) → outbox i = s.outbox i) := by
  unfold System.unread at unread
  split at unread
  · next j data =>
    split at unread
    · next response rest more =>
      split_ifs at unread with same
      subst same
      obtain rfl := Option.some.inj unread
      constructor
      · intro e here
        obtain ⟨rfl, rfl⟩ := ProxyServer.Event.session.inj here
        refine .inl ?_
        rw [Function.update_self]
        exact more
      · intro other
        refine Function.update_of_ne ?_ ..
        rintro rfl
        exact other _ rfl
    · next empty =>
      split_ifs at unread with unled
      obtain rfl := Option.some.inj unread
      refine ⟨?_, fun _ => rfl⟩
      intro e here
      obtain ⟨rfl, rfl⟩ := ProxyServer.Event.session.inj here
      exact .inr ⟨empty, empty, unled⟩
  · next other =>
    obtain rfl := Option.some.inj unread
    refine ⟨?_, fun _ => rfl⟩
    rintro e rfl
    unfold Core.Fetches
    split
    · next data => exact absurd rfl (other i data)
    · rfl

/-- What a step of the proxy is to one of its sessions. -/
theorem turn (taken : s.step? md5 exec (.proxy d) = some s') (i : ℕ) :
    ∃ e, (s.core i).Bridge e (s'.core i) ∧
      (∀ result, e = .flight_result result → s.result i = some result) ∧
      (s.core i).Fetches (s.outbox i) e (s'.outbox i) ∧
      ∀ call query data, e = .notify_returned → (s.core i).server_handler = .notifying call query data →
        s.proxy.cache.settled (i, call) = true := by
  obtain ⟨p, outbox, unread, ran, rfl⟩ := proxy_cases taken
  obtain ⟨own, other⟩ := fetches_of_unread unread i
  rcases ProxyServer.turn_cases ran i with
    ⟨aside, same⟩ | ⟨e, rfl, permitted, step, -⟩ | ⟨b, call, value, rfl, -, step⟩
  · refine ⟨.start, ?_, by simp, other aside, by simp⟩
    have same : (p.sessions i).core = s.core i := congrArg Session.core same
    simp only [core] at same ⊢
    rw [same]
    exact .quiet _
  · refine ⟨e, Session.bridge_of_step step, ?_, own e rfl, ?_⟩
    · rintro result rfl
      exact of_decide_eq_true permitted
    · rintro call query data rfl notifying
      have notifying : (s.proxy.sessions i).server_handler = .notifying call query data := notifying
      simpa [ProxyServer.permits, notifying] using permitted
  · exact ⟨.on_result call value, Session.bridge_of_step step, by simp, other (by simp), by simp⟩

private theorem result_of_step (taken : s.step? md5 exec (.proxy d) = some s')
    (calls : (s'.core i).calls = (s.core i).calls) (result : FlightResult)
    (returned : s.result i = some result) : s'.result i = some result := by
  obtain ⟨p, outbox, -, ran, rfl⟩ := proxy_cases taken
  have calls : (p.sessions i).core.calls = (s.core i).calls := calls
  simp only [System.result, core] at returned ⊢
  rw [calls]
  exact ProxyServer.returned_of_step returned ran

theorem free_of_step (free : s.Free i) (taken : s.step? md5 exec (.proxy d) = some s')
    (calls : (s'.core i).calls = (s.core i).calls) : s'.Free i := by
  obtain ⟨e, step, told, fetches, -⟩ := turn taken i
  have after := (free.bridge step calls told fetches).told (result_of_step taken calls)
  obtain ⟨p, outbox, -, ran, rfl⟩ := proxy_cases taken
  exact after

theorem stage_of_step (stage : s.Stage exec x i) (taken : s.step? md5 exec (.proxy d) = some s')
    (calls : (s'.core i).calls = (s.core i).calls) : s'.Stage exec x i := by
  obtain ⟨e, step, told, fetches, -⟩ := turn taken i
  have after := (stage.bridge step calls told fetches).told (result_of_step taken calls)
  obtain ⟨p, outbox, -, ran, rfl⟩ := proxy_cases taken
  exact after

/-! ## Runs -/

/-- The texts of the queries that have made their session lead. -/
def led (p : ProxyServer) (queries : List ((ℕ × ℕ) × Bytes)) : List Bytes :=
  (queries.filter fun q => p.cache.returned q.1 = some .IS_LEADER).map Prod.snd

/-- The calls for the queries have returned. -/
def Decided (p : ProxyServer) (queries : List ((ℕ × ℕ) × Bytes)) : Prop :=
  ∀ q ∈ queries, p.cache.returned q.1 ≠ none

/-- One session at most is at work on a query, and that is the last one. -/
inductive Phase (exec : Database σ) (db : σ) (queries : List ((ℕ × ℕ) × Bytes)) (s : System σ) : Prop
  /-- The call for the last query is in progress. -/
  | asking (i : ℕ) (sql data : Bytes) (before : List ((ℕ × ℕ) × Bytes))
      (last : queries = before ++ [((i, (s.core i).calls - 1), sql)])
      (calling : (s.core i).client_handler = .calling sql data) (waits : s.result i = none)
      (open' : (s.core i).Open (s.executed i) (s.outbox i)) (others : ∀ j, j ≠ i → s.Free j)
      (decided : Decided s.proxy before) (state : s.db = exec.direct db (led s.proxy before))
  | decided (i : ℕ) (others : ∀ j, j ≠ i → s.Free j) (decided : Decided s.proxy queries)
      (stage : s.Stage exec (exec.direct db (led s.proxy queries)) i)

theorem decided_of_step (decided : Decided s.proxy queries)
    (taken : s.step? md5 exec (.proxy d) = some s') :
    Decided s'.proxy queries ∧ led s'.proxy queries = led s.proxy queries := by
  obtain ⟨p, outbox, -, ran, rfl⟩ := proxy_cases taken
  have kept : ∀ q ∈ queries, p.cache.returned q.1 = s.proxy.cache.returned q.1 := by
    intro q member
    obtain ⟨result, returned⟩ := Option.ne_none_iff_exists'.mp (decided q member)
    rw [returned]
    exact ProxyServer.returned_of_step returned ran
  constructor
  · intro q member
    simp only [kept q member]
    exact decided q member
  · apply congrArg (List.map Prod.snd)
    apply List.filter_congr
    intro q member
    simp only [kept q member]

theorem led_concat (p : ProxyServer) (c : ℕ × ℕ) (sql : Bytes) :
    led p (queries ++ [(c, sql)]) =
      led p queries ++ if p.cache.returned c = some .IS_LEADER then [sql] else [] := by
  unfold led
  rw [List.filter_append, List.map_append, List.filter_singleton]
  split_ifs with leads
  · simp [leads]
  · simp [leads]

/-- A step of the proxy in which no client asks. -/
theorem Phase.proxy (phase : s.Phase exec db queries) (taken : s.step? md5 exec (.proxy d) = some s')
    (calls : ∀ i, (s'.core i).calls = (s.core i).calls) : s'.Phase exec db queries := by
  cases phase with
  | decided i others decided stage =>
    obtain ⟨decided', same⟩ := decided_of_step decided taken
    refine .decided i (fun j other => free_of_step (others j other) taken (calls j)) decided' ?_
    rw [same]
    exact stage_of_step stage taken (calls i)
  | asking i sql data before last calling waits open' others decided state =>
    obtain ⟨decided', same⟩ := decided_of_step decided taken
    have others' : ∀ j, j ≠ i → s'.Free j := fun j other =>
      free_of_step (others j other) taken (calls j)
    obtain ⟨e, step, told, fetches, -⟩ := turn taken i
    have kept : (s'.core i).Open (s.executed i) (s'.outbox i) ∧
        (s'.core i).client_handler = (s.core i).client_handler := by
      rcases open'.bridge exec s.db step (calls i) fetches with
        kept | ⟨result, rfl, -⟩ | ⟨sql, data, rfl, -⟩
      · exact kept
      · cases waits.symm.trans (told result rfl)
      · cases waits.symm.trans (told _ rfl)
    obtain ⟨open'', handler⟩ := kept
    rw [calling] at handler
    rw [← calls i] at last
    have state' : s'.db = exec.direct db (led s'.proxy before) := by
      rw [same, ← state]
      obtain ⟨p, outbox, -, -, rfl⟩ := proxy_cases taken
      rfl
    have done : s'.executed = s.executed := by
      obtain ⟨p, outbox, -, -, rfl⟩ := proxy_cases taken
      rfl
    rw [← done] at open''
    cases returned : s'.result i with
    | none => exact .asking i sql data before last handler returned open'' others' decided' state'
    | some result =>
      have here : s'.proxy.cache.returned (i, (s'.core i).calls - 1) = some result := returned
      refine .decided i others' ?_ (.unled open'' (.inr ?_) ?_)
      · intro q member
        rw [last] at member
        rcases List.mem_append.mp member with earlier | now
        · exact decided' q earlier
        · obtain rfl := List.mem_singleton.mp now
          simp only [here]
          exact Option.some_ne_none _
      · rw [returned]
        exact Option.some_ne_none _
      · rw [last, led_concat, here]
        unfold Core.owed
        rw [handler, returned]
        cases result with
        | IS_LEADER => rw [if_pos rfl, Database.direct_concat, state']
        | CACHE_HIT => rw [if_neg nofun, List.append_nil, state']
        | IS_WAITER => rw [if_neg nofun, List.append_nil, state']

/-- A server has a statement to execute only while it owes the database one. -/
theorem Phase.execute (phase : s.Phase exec db queries) (taken : s.execute exec j = some s') :
    s'.Phase exec db queries := by
  obtain ⟨sql, next, rfl⟩ := Option.map_eq_some_iff.mp taken
  have next : (statements (s.core j).log)[s.executed j]? = some sql := next
  have busy : s.executed j ≠ (statements (s.core j).log).length := by
    intro done
    rw [done, List.getElem?_eq_none le_rfl] at next
    contradiction
  have unfree : ¬ s.Free j := fun free => busy free.open'.done
  cases phase with
  | asking i sql' data before last calling waits open' others =>
    by_cases here : j = i
    · subst here
      exact absurd open'.done busy
    · exact absurd (others j here) unfree
  | decided i others decided stage =>
    by_cases here : j = i
    · subst here
      cases stage with
      | unled open' => exact absurd open'.done busy
      | led idle leads progress =>
        refine .decided j (fun k other => ?_) decided (.led idle leads ?_)
        · have same : Function.update s.executed j (s.executed j + 1) k = s.executed k ∧
              Function.update s.outbox j (s.outbox j ++ [(exec s.db sql).2]) k = s.outbox k :=
            ⟨Function.update_of_ne other .., Function.update_of_ne other ..⟩
          have after := others k other
          rw [Free, ← same.1, ← same.2] at after
          exact after
        · cases progress with
          | sent before sql' server last done read owes =>
            rw [last, done, List.getElem?_concat_length] at next
            obtain rfl := Option.some.inj next
            have count : s.executed j + 1 = (statements (s.core j).log).length := by
              rw [last, done, List.length_append, List.length_singleton]
            refine .executed (exec s.db sql').2 server ((Function.update_self ..).trans count)
              ((Function.update_self ..).trans ?_) owes
            rw [read]
            rfl
          | executed response server done => exact absurd done busy
          | notifying data notifying done => exact absurd done busy
          | lost server done => exact absurd done busy
    · exact absurd (others j here) unfree

/-- When every query has been answered, no session is at work, and the database is up to date. -/
theorem Phase.answered (phase : s.Phase exec db queries) (accounted : s.proxy.Accounted md5)
    (answered : ∀ j, (s.proxy.sessions j).Answered) :
    (∀ j, s.Free j) ∧ Decided s.proxy queries ∧ s.db = exec.direct db (led s.proxy queries) := by
  have free : ∀ {j}, (s.core j).Open (s.executed j) (s.outbox j) → s.Free j := by
    intro j open'
    refine ⟨open', (answered j).2.imp_right ?_⟩
    rintro ⟨value, written⟩
    exact accounted.delivered (List.mem_filterMap.mpr ⟨_, written, rfl⟩)
  have all : ∀ {i}, (∀ j, j ≠ i → s.Free j) → s.Free i → ∀ j, s.Free j := by
    intro i others own j
    by_cases here : j = i
    · rw [here]
      exact own
    · exact others j here
  cases phase with
  | asking i sql data before last calling waits open' others =>
    rcases (free open').free with idle | hit | waiter
    · cases idle.symm.trans calling
    · cases waits.symm.trans hit
    · cases waits.symm.trans waiter
  | decided i others decided stage =>
    cases stage with
    | unled open' returned owes =>
      refine ⟨all others (free open'), decided, ?_⟩
      rw [owes, (free open').owed_eq]
    | led idle leads => exact absurd (answered i).1 leads

theorem schedule_concat (es : List Event) (e : Event) : schedule (es ++ [e]) =
    match e.asks with
    | some (i, sql) => schedule es ++ [((i, (schedule es).countP fun q => q.1.1 = i), sql)]
    | none => schedule es := by
  rw [schedule, List.foldl_append]
  rfl

/-- Every number up to the last stands for a query of the session. -/
theorem mem_schedule {i k : ℕ} {es : List Event} (asked : k < (schedule es).countP fun q => q.1.1 = i) :
    ∃ sql, ((i, k), sql) ∈ schedule es := by
  induction es using List.reverseRecOn with
  | nil => contradiction
  | append_singleton es e ih =>
    rw [schedule_concat] at asked ⊢
    split at asked
    · next j sql here =>
      rw [List.countP_append, List.countP_singleton] at asked
      by_cases earlier : k < (schedule es).countP fun q => q.1.1 = i
      · obtain ⟨sql', member⟩ := ih earlier
        exact ⟨sql', List.mem_append_left _ member⟩
      · split_ifs at asked with own
        · obtain rfl : j = i := of_decide_eq_true own
          have last : k = (schedule es).countP fun q => q.1.1 = j := by omega
          rw [← last]
          exact ⟨sql, List.mem_append_right _ List.mem_cons_self⟩
        · omega
    · exact ih asked

/-- What the runs in which the clients take turns keep. -/
structure Follows (md5 : Bytes → Bytes) (exec : Database σ) (db : σ) (es : List Event) (s : System σ) :
    Prop where
  accounted : s.proxy.Accounted md5
  coherent : s.proxy.Coherent md5
  numbered : ∀ i, (s.core i).calls = (schedule es).countP fun q => q.1.1 = i
  phase : s.Phase exec db (schedule es)

theorem follows_init : (init store db).Follows md5 exec db [] := by
  refine ⟨ProxyServer.accounted_init, ProxyServer.coherent_init, fun _ => rfl, ?_⟩
  have open' : ∀ i, ((init store db).core i).Open 0 [] := fun _ => ⟨rfl, rfl, rfl, rfl, nofun⟩
  exact .decided 0 (fun j _ => ⟨open' j, .inl rfl⟩) nofun (.unled (open' 0) (.inl rfl) rfl)

theorem unasked {c : ℕ × ℕ} (idle : (s.proxy.cache.doing c).query = none) :
    s.proxy.cache.returned c = none := by
  unfold QueryCache.State.returned
  split
  · next served =>
    rw [served] at idle
    contradiction
  · next flying =>
    rw [flying] at idle
    contradiction
  · rfl

/-- Without a query no session makes a call. -/
theorem calls_of_silent (taken : s.step? md5 exec (.proxy d) = some s')
    (silent : (Event.proxy d).asks = none) (i : ℕ) : (s'.core i).calls = (s.core i).calls := by
  obtain ⟨p, outbox, -, ran, rfl⟩ := proxy_cases taken
  rcases ProxyServer.turn_cases ran i with
    ⟨-, same⟩ | ⟨e, rfl, -, step, -⟩ | ⟨b, call, value, -, -, step⟩
  · exact congrArg Session.calls same
  · rcases (Session.bridge_of_step step).calls_cases with same | ⟨data, sql, rfl, query⟩
    · exact same
    · have silent : (statement data).map (Prod.mk i) = none := silent
      rw [Option.map_eq_none_iff] at silent
      have other : intercept data = none := by
        unfold intercept
        rw [if_neg]
        rw [← statement_isSome_iff, silent]
        nofun
      cases query.symm.trans other
  · rcases (Session.bridge_of_step step).calls_cases with same | ⟨data, sql, other, -⟩
    · exact same
    · contradiction

/-- A client asks while no session is at work. -/
private theorem Follows.ask (follows : s.Follows md5 exec db es) {data sql : Bytes}
    (taken : s.step? md5 exec (.proxy (.session i (.complete .client_read (.ok data)))) = some s')
    (alive : (s.proxy.sessions i).is_destroying_ = false) (query : intercept data = some sql)
    (text : statement data = some sql) (nonempty : sql ≠ [])
    (answered : ∀ j, (s.proxy.sessions j).Answered) :
    (s'.core i).calls = (s.core i).calls + 1 ∧ (∀ j, j ≠ i → (s'.core j).calls = (s.core j).calls) ∧
      s'.Phase exec db (schedule es ++ [((i, (s.core i).calls), sql)]) := by
  obtain ⟨free, decided, state⟩ := follows.phase.answered follows.accounted answered
  obtain ⟨decided', same⟩ := decided_of_step decided taken
  have aside : ∀ j, j ≠ i → (s'.core j).calls = (s.core j).calls := by
    intro j other
    obtain ⟨p, outbox, -, ran, rfl⟩ := proxy_cases taken
    rcases ProxyServer.turn_cases ran j with ⟨-, same⟩ | ⟨e, here, -⟩ | ⟨b, call, value, here, -⟩
    · exact congrArg Session.calls same
    · exact absurd (ProxyServer.Event.session.inj here).1.symm other
    · contradiction
  have others : ∀ j, j ≠ i → s'.Free j := fun j other => free_of_step (free j) taken (aside j other)
  obtain ⟨p, outbox, unread, ran, rfl⟩ := proxy_cases taken
  obtain rfl : s.outbox = outbox := Option.some.inj unread
  have asked := Session.core_of_query (ProxyServer.own_step ran).2 alive query
  have calls : (p.sessions i).core.calls = (s.core i).calls + 1 := congrArg Core.calls asked
  have number : (p.sessions i).core.calls - 1 = (s.core i).calls := by omega
  have fresh : (s.proxy.cache.doing (i, (s.core i).calls)).query = none := by
    by_contra begun
    exact absurd (follows.coherent.asked.numbered begun) (Nat.lt_irrefl _)
  refine ⟨calls, aside, .asking i sql data (schedule es) ?_ (congrArg Core.client_handler asked) ?_
    ((free i).open'.asks text nonempty asked) others decided' (by rw [same]; exact state)⟩
  · simp only [core]
    rw [number]
    rfl
  · simp only [result, core]
    rw [number, ProxyServer.cache_of_session ran]
    exact unasked fresh

theorem asks_cases {sql : Bytes} (asks : e.asks = some (i, sql)) : ∃ data,
    e = .proxy (.session i (.complete .client_read (.ok data))) ∧ statement data = some sql := by
  unfold Event.asks at asks
  split at asks
  · next j data =>
    obtain ⟨text, here, same⟩ := Option.map_eq_some_iff.mp asks
    obtain ⟨rfl, rfl⟩ := Prod.mk.inj same
    exact ⟨data, rfl, here⟩
  · contradiction

/-- No session makes a call in the step, or none is at work. -/
theorem Follows.silent_or_free (follows : s.Follows md5 exec db es) (sequential : s.Sequential (.proxy d))
    (taken : s.step? md5 exec (.proxy d) = some s') :
    (∀ i, (s'.core i).calls = (s.core i).calls) ∨ (∀ j, s.Free j) ∧ ∃ i e, d = .session i e := by
  cases asks : (Event.proxy d).asks with
  | none => exact .inl (calls_of_silent taken asks)
  | some asked =>
    obtain ⟨data, here, text⟩ := asks_cases asks
    obtain rfl := Event.proxy.inj here
    have first : data.head? = some query_type := by
      rw [← statement_isSome_iff, text]
      rfl
    obtain ⟨-, -, answered⟩ := sequential first
    exact .inr ⟨(follows.phase.answered follows.accounted answered).1, _, _, rfl⟩

theorem Follows.step (follows : s.Follows md5 exec db es) (sequential : s.Sequential e)
    (taken : s.step? md5 exec e = some s') : s'.Follows md5 exec db (es ++ [e]) := by
  cases e with
  | execute j =>
    have after := follows.phase.execute taken
    obtain ⟨sql, -, rfl⟩ := Option.map_eq_some_iff.mp taken
    refine ⟨follows.accounted, follows.coherent, ?_, ?_⟩
    · rw [schedule_concat]
      exact follows.numbered
    · rw [schedule_concat]
      exact after
  | proxy d =>
    have kept : s'.proxy.Accounted md5 ∧ s'.proxy.Coherent md5 := by
      obtain ⟨p, outbox, -, ran, rfl⟩ := proxy_cases taken
      exact ⟨follows.accounted.step ran, follows.coherent.step ran⟩
    cases asks : (Event.proxy d).asks with
    | none =>
      have calls := calls_of_silent taken asks
      refine ⟨kept.1, kept.2, fun i => ?_, ?_⟩
      · rw [schedule_concat, asks, calls]
        exact follows.numbered i
      · rw [schedule_concat, asks]
        exact follows.phase.proxy taken calls
    | some asked =>
      obtain ⟨i, sql⟩ := asked
      obtain ⟨data, here, text⟩ := asks_cases asks
      obtain rfl := Event.proxy.inj here
      have first : data.head? = some query_type := by
        rw [← statement_isSome_iff, text]
        rfl
      obtain ⟨⟨m, sql', rfl, named, nonempty⟩, alive, answered⟩ := sequential first
      obtain rfl : sql' = sql := by
        rw [statement_encode, named] at text
        exact Option.some.inj text
      obtain ⟨calls, aside, phase⟩ :=
        follows.ask taken alive (intercept_encode named) text nonempty answered
      refine ⟨kept.1, kept.2, fun j => ?_, ?_⟩
      · rw [schedule_concat, asks, List.countP_append, ← follows.numbered j, List.countP_singleton]
        by_cases own : j = i
        · subst own
          simpa using calls
        · rw [aside j own]
          simp [Ne.symm own]
      · rw [schedule_concat, asks]
        simp only [← follows.numbered i]
        exact phase

theorem follows_of_run (run : Path (step? md5 exec) Sequential (init store db) es t) :
    t.Follows md5 exec db es := by
  apply run.records (I := fun es s => s.Follows md5 exec db es) follows_init
  intro es s e s' follows sequential taken
  exact follows.step sequential taken

end System

end FlightProxy
