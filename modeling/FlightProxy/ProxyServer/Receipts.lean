import FlightProxy.ProxyServer.Answers
import FlightProxy.ProxyServer.Attendance
import FlightProxy.Session.Receipts

/-! # What the clients receive

A client that sends a query only when nothing is being written to it receives the answers to its
queries in order. While its session waits on both sides, it has received every answer there is.
-/

namespace FlightProxy

open Transition

namespace System

variable {σ : Type*} {md5 : Bytes → Bytes} {exec : Database σ} {store : Store} {db : σ}
  {s s' : System (σ × Bytes)} {d : ProxyServer.Event} {e : Event} {es : List Event} {i : ℕ}

/-- The steps that a session takes on its own. -/
def tape (i : ℕ) (es : List Event) : List SessionEvent :=
  es.filterMap fun
    | .proxy (.session j e) => if j = i then some e else none
    | _ => none

/-- The answers that a client has received: what was written to it by a callback, or after a
notification, in writes that have completed. -/
def received (i : ℕ) (es : List Event) : List Bytes := ((tape i es).foldl receive (false, [])).2

/-- The queries that a client has sent. -/
def sent_by (i : ℕ) (es : List Event) : List ((ℕ × ℕ) × Bytes) := (schedule es).filter fun q => q.1.1 = i

/-- The answers that the proxy has for the queries of a client. -/
def answers (s : System σ) (i : ℕ) (es : List Event) : List Bytes :=
  (s.proxy.history (sent_by i es)).map fun entry => entry.2.value

/-- A response that has been put, and that notifyFlightResult has not given back to the handler. -/
def put (s : System σ) (i : ℕ) : List Bytes :=
  match (s.core i).server_handler with
  | .notifying call _ data => if (s.proxy.sent i call).isSome then [data] else []
  | .idle => []

theorem tape_append (i : ℕ) (es es' : List Event) : tape i (es ++ es') = tape i es ++ tape i es' :=
  List.filterMap_append ..

theorem tape_own (i : ℕ) (e : SessionEvent) : tape i [.proxy (.session i e)] = [e] := by
  simp [tape]

theorem tape_aside (other : ∀ d, e ≠ .proxy (.session i d)) : tape i [e] = [] := by
  cases e with
  | execute j => rfl
  | proxy d =>
    cases d with
    | cache b => rfl
    | session j d =>
      have distinct : j ≠ i := by
        rintro rfl
        exact other d rfl
      simp [tape, distinct]

theorem mem_sent_by {q : (ℕ × ℕ) × Bytes} : q ∈ sent_by i es ↔ q ∈ schedule es ∧ q.1.1 = i := by
  simp [sent_by]

/-- When all queries have been answered, a client's answers are its share of the history. -/
theorem answers_zip {p : ProxyServer} {queries : List ((ℕ × ℕ) × Bytes)}
    (answered : ∀ q ∈ queries, p.answer q.1 ≠ none) :
    (p.history (queries.filter fun q => q.1.1 = i)).map (fun entry => entry.2.value) =
      ((queries.zip (p.history queries)).filter fun entry => entry.1.1.1 = i).map
        fun entry => entry.2.2.value := by
  induction queries with
  | nil => rfl
  | cons q queries ih =>
    obtain ⟨reply, here⟩ := Option.ne_none_iff_exists'.mp (answered q List.mem_cons_self)
    have rest := ih fun q' member => answered q' (List.mem_cons_of_mem _ member)
    have history : ∀ queries, p.history (q :: queries) = (q.2, reply) :: p.history queries := by
      intro queries
      rw [ProxyServer.history, List.filterMap_cons, here]
      rfl
    rw [history, List.zip_cons_cons, List.filter_cons, List.filter_cons]
    split_ifs
    · rw [history, List.map_cons, List.map_cons, rest]
    · exact rest

/-- While no answer changes, neither do those of the client. -/
theorem answers_of_kept {p : ProxyServer} (ran : s.proxy.step? md5 d = some p)
    (kept : ∀ q ∈ sent_by i es, s.proxy.answer q.1 = none → p.answer q.1 = none) :
    p.history (sent_by i es) = s.proxy.history (sent_by i es) := by
  apply List.filterMap_congr
  intro q member
  cases before : s.proxy.answer q.1 with
  | none => rw [kept q member before]
  | some reply => rw [ProxyServer.answer_of_step before ran]

/-- The answer to the last query is the client's last. -/
theorem Recounts.answers_of_answered (recounts : s.Recounts md5 exec db es) {p : ProxyServer}
    (ran : s.proxy.step? md5 d = some p) {k : ℕ} {sql : Bytes} {reply : Memo.Answer Bytes}
    (member : ((i, k), sql) ∈ schedule es) (unanswered : s.proxy.answer (i, k) = none)
    (now : p.answer (i, k) = some reply) :
    (p.history (sent_by i es)).map (fun entry => entry.2.value) = s.answers i es ++ [reply.value] ∧
      ∀ q ∈ sent_by i es, p.answer q.1 ≠ none := by
  obtain ⟨before, split, earlier⟩ := recounts.last member unanswered
  have own : sent_by i es = before.filter (fun q => q.1.1 = i) ++ [((i, k), sql)] := by
    rw [sent_by, split, List.filter_append]
    simp
  have answered : ∀ q ∈ before.filter (fun q => q.1.1 = i), s.proxy.answer q.1 ≠ none :=
    fun q member => earlier q (List.mem_of_mem_filter member)
  constructor
  · rw [answers, own, ProxyServer.history_concat, ProxyServer.history_concat, now, unanswered,
      ProxyServer.history_of_step answered ran]
    simp
  · intro q member
    rw [own] at member
    rcases List.mem_append.mp member with old | new
    · obtain ⟨reply', here⟩ := Option.ne_none_iff_exists'.mp (answered q old)
      rw [ProxyServer.answer_of_step here ran]
      exact Option.some_ne_none _
    · rw [List.mem_singleton.mp new, now]
      exact Option.some_ne_none _

/-- What the runs in which the clients take turns keep about the answers to one client. -/
structure Receives (md5 : Bytes → Bytes) (exec : Database σ) (db : σ) (i : ℕ) (es : List Event)
    (s : System (σ × Bytes)) : Prop where
  recounts : s.Recounts md5 exec db es
  consistent : (s.proxy.sessions i).Consistent
  serial : (s.proxy.sessions i).Serial
  single : (s.proxy.sessions i).Single
  marked : (s.proxy.sessions i).Marked ((tape i es).foldl receive (false, []))
  ledger : Ledger (received i es)
    (replying ((tape i es).foldl receive (false, [])).1 (s.proxy.sessions i).pending ++ s.put i)
    (s.answers i es) (∃ q ∈ sent_by i es, s.proxy.answer q.1 = none) (s.proxy.sessions i).Cut

theorem receives_init (linked : store.l1.Linked) (empty : store.l1.contents = [])
    (unheld : store.redis_enabled_ = true → ∀ key, store.redis (redis_key key) = none) :
    (init store (db, []) : System (σ × Bytes)).Receives md5 exec db i [] := by
  refine ⟨recounts_init linked empty unheld, Session.consistent_init, Session.serial_init,
    Session.single_init, fun marked => absurd marked Bool.false_ne_true,
    ⟨Nat.zero_le 1, fun _ => rfl, .inl rfl⟩⟩

/-- What is put stays so while the handler stays where it is. -/
theorem put_of_kept (handler : (s'.core i).server_handler = (s.core i).server_handler)
    (kept : ∀ call query data, (s.core i).server_handler = .notifying call query data →
      s'.proxy.sent i call = s.proxy.sent i call) : s'.put i = s.put i := by
  unfold put
  rw [handler]
  split
  · next call query data notifying => rw [kept call query data notifying]
  · rfl

namespace Receives

/-- What is on its way to the client, and what is put, when no query of it is left. -/
private theorem nothing (receives : s.Receives md5 exec db i es)
    (owed : ∃ q ∈ sent_by i es, s.proxy.answer q.1 = none) :
    replying ((tape i es).foldl receive (false, [])).1 (s.proxy.sessions i).pending = [] ∧ s.put i = [] :=
  List.append_eq_nil_iff.mp (receives.ledger.clear owed)

/-- The session takes a step. -/
private theorem moved (receives : s.Receives md5 exec db i es) {p : ProxyServer} {d' : SessionEvent}
    (ran : s.proxy.step? md5 d = some p) (does : s.proxy.Does i d d')
    (step : (s.proxy.sessions i).step? d' = some (p.sessions i)) :
    (s.proxy.sessions i).core.Served d' ∧ (p.sessions i).Consistent ∧ (p.sessions i).Serial ∧
      (p.sessions i).Single := by
  have served : (s.proxy.sessions i).core.Served d' := by
    refine receives.recounts.follows.accounted.served_of_fresh does ?_ ran step
    rintro call value rfl delivered
    rcases does with ⟨rfl, permitted⟩ | ⟨b, call', value', here, rfl, invoked⟩
    · contradiction
    · obtain ⟨rfl, rfl⟩ := SessionEvent.on_result.inj here
      obtain ⟨query, hit, -⟩ := receives.recounts.hit_of_invokes ran invoked
      have written : ∃ value, .on_result call value ∈ (s.core i).log := by
        obtain ⟨action, member, same⟩ := List.mem_filterMap.mp delivered
        cases action with
        | on_result call' value =>
          obtain rfl := Option.some.inj same
          exact ⟨value, member⟩
        | _ => contradiction
      obtain ⟨value', written⟩ := written
      have answered := receives.recounts.written written
      rw [ProxyServer.answer, QueryCache.State.returned, hit] at answered
      contradiction
  exact ⟨served, receives.consistent.step step, receives.serial.step step,
    receives.single.step served step⟩

/-- A callback is run, which is that of a cache hit. -/
private theorem called_step (receives : s.Receives md5 exec db i es)
    (recounts : s'.Recounts md5 exec db (es ++ [.proxy d]))
    (taken : s.step? md5 exec.echo (.proxy d) = some s') {b : QueryCache.Event (ℕ × ℕ)} {k : ℕ}
    {value : Bytes} (here : d = .cache b) (invoked : s.proxy.cache.invokes b = some ((i, k), value))
    (step : (s.proxy.sessions i).step? (.on_result k value) = some (s'.proxy.sessions i)) :
    s'.Receives md5 exec db i (es ++ [.proxy d]) := by
  obtain ⟨p, outbox, -, ran, rfl⟩ := proxy_cases taken
  subst here
  obtain ⟨query, hit, served⟩ := receives.recounts.hit_of_invokes ran invoked
  obtain ⟨serves, consistent, serial, single⟩ := receives.moved ran (.inr ⟨_, _, _, rfl, rfl, invoked⟩) step
  have follows := receives.recounts.follows
  have unanswered : s.proxy.answer (i, k) = none := by
    rw [ProxyServer.answer, QueryCache.State.returned, hit]
  have within : k < (s.core i).calls :=
    follows.coherent.asked.numbered (by rw [hit]; exact Option.some_ne_none query)
  obtain ⟨sql, member⟩ := mem_schedule (follows.numbered i ▸ within)
  obtain ⟨answers, settled⟩ := receives.recounts.answers_of_answered ran member unanswered
    (ProxyServer.answer_of_hit served)
  have owed : ∃ q ∈ sent_by i es, s.proxy.answer q.1 = none :=
    ⟨_, mem_sent_by.mpr ⟨member, rfl⟩, unanswered⟩
  obtain ⟨idle, unput⟩ := receives.nothing owed
  have unasked : schedule (es ++ [.proxy (.cache b)]) = schedule es := schedule_concat es _
  have silent : tape i (es ++ [.proxy (.cache b)]) = tape i es := by
    rw [tape_append, tape_aside (by simp), List.append_nil]
  obtain ⟨handler, armed⟩ := Session.on_result_cases receives.consistent step
  have put : System.put { s with proxy := p, outbox := outbox } i = [] := by
    rw [← unput]
    refine put_of_kept handler fun call query' data notifying => ?_
    refine (ProxyServer.sent_cases ran (i, call)).resolve_right ?_
    rintro ⟨query'', value', here, -⟩
    obtain rfl := ProxyServer.Event.cache.inj here
    contradiction
  refine ⟨recounts, consistent, serial, single, ?_, ?_⟩
  · rw [silent]
    exact receives.marked.step receives.serial step
  · rw [received, silent, ← received, put, List.append_nil, System.answers, sent_by, unasked, ← sent_by,
      answers]
    have open' : ¬ ∃ q ∈ sent_by i es, p.answer q.1 = none := by
      rintro ⟨q, member, waits⟩
      exact settled q member waits
    rcases armed with pending | ⟨pending, destroying⟩
    · rw [pending, replying_append, idle]
      exact receives.ledger.give (fun cut => cut.step receives.single serves step) owed open' value
    · rw [pending, idle]
      exact receives.ledger.lose (List.sublist_append_left _ _) (.inr (.inr destroying))

/-- The session takes no step, and the cache may put the response that it notifies. -/
private theorem aside_step (receives : s.Receives md5 exec db i es)
    (recounts : s'.Recounts md5 exec db (es ++ [.proxy d]))
    (taken : s.step? md5 exec.echo (.proxy d) = some s') (other : ∀ e, d ≠ .session i e)
    (uncalled : ∀ b k value, d = .cache b → s.proxy.cache.invokes b ≠ some ((i, k), value))
    (same : s'.proxy.sessions i = s.proxy.sessions i) :
    s'.Receives md5 exec db i (es ++ [.proxy d]) := by
  have silent : tape i (es ++ [.proxy d]) = tape i es := by
    rw [tape_append, tape_aside (by simpa using other), List.append_nil]
  have own : sent_by i (es ++ [.proxy d]) = sent_by i es := by
    rw [sent_by, schedule_concat]
    split
    · next j sql asks =>
      obtain ⟨data, here, -⟩ := asks_cases asks
      have distinct : j ≠ i := by
        rintro rfl
        exact other _ (Event.proxy.inj here)
      rw [List.filter_append, List.filter_singleton]
      simp [distinct, sent_by]
    · rfl
  obtain ⟨p, outbox, -, ran, rfl⟩ := proxy_cases taken
  have same : p.sessions i = s.proxy.sessions i := same
  refine ⟨recounts, ?_, ?_, ?_, ?_, ?_⟩
  · simp only [same]
    exact receives.consistent
  · simp only [same]
    exact receives.serial
  · simp only [same]
    exact receives.single
  · simp only [same, silent]
    exact receives.marked
  · rw [received, silent, ← received, own, System.answers, own]
    simp only [same]
    by_cases puts : ∃ call, p.sent i call ≠ s.proxy.sent i call
    · obtain ⟨call, moved⟩ := puts
      obtain ⟨query, value, rfl, sent, unsent, notifying⟩ :=
        (ProxyServer.sent_cases ran (i, call)).resolve_left moved
      obtain ⟨before, sql, split, -, -, unanswered, returned, -⟩ := receives.recounts.puts notifying unsent
      have member : ((i, call), sql) ∈ schedule es := by
        rw [split]
        exact List.mem_append_right _ List.mem_cons_self
      obtain ⟨answers, settled⟩ := receives.recounts.answers_of_answered ran member unanswered
        (ProxyServer.answer_of_sent (ProxyServer.returned_of_step returned ran) sent)
      have owed : ∃ q ∈ sent_by i es, s.proxy.answer q.1 = none :=
        ⟨_, mem_sent_by.mpr ⟨member, rfl⟩, unanswered⟩
      have put : System.put { s with proxy := p, outbox := outbox } i = [value] := by
        have handler : (p.sessions i).core.server_handler = .notifying call query value := by
          rw [same]
          exact notifying
        have given : p.sent i call = some (query, value) := sent
        simp only [System.put, core, handler, given, Option.isSome_some, if_true]
      rw [answers, (receives.nothing owed).1, put]
      refine receives.ledger.give id owed ?_ value
      rintro ⟨q, member, waits⟩
      exact settled q member waits
    · have kept : ∀ call, p.sent i call = s.proxy.sent i call := fun call =>
        not_not.mp fun moved => puts ⟨call, moved⟩
      have unmoved : ∀ q ∈ sent_by i es, s.proxy.answer q.1 = none → p.answer q.1 = none := by
        rintro ⟨⟨j, k⟩, sql⟩ member unanswered
        obtain ⟨scheduled, rfl⟩ := mem_sent_by.mp member
        cases d with
        | session j e => rw [ProxyServer.answer_of_cache (ProxyServer.cache_of_session ran), unanswered]
        | cache b =>
          cases now : p.answer (j, k) with
          | none => rfl
          | some reply =>
            rcases ProxyServer.answer_cases now with ⟨query, value, served, -⟩ | ⟨-, put, sent, -⟩
            · rcases QueryCache.State.served_cases (ProxyServer.cache_of_cache ran) served with
                before | invoked
              · rw [ProxyServer.answer_of_hit before] at unanswered
                contradiction
              · exact absurd invoked (uncalled b k value rfl)
            · have unsent := receives.recounts.unsent scheduled unanswered
              rw [← kept, sent] at unsent
              contradiction
      have put : System.put { s with proxy := p, outbox := outbox } i = s.put i := by
        refine put_of_kept ?_ fun call _ _ _ => kept call
        simp only [core, same]
      rw [answers_of_kept ran unmoved, put]
      refine receives.ledger.mono ?_ id
      rintro ⟨q, member, waits⟩
      refine .inl ⟨q, member, ?_⟩
      by_contra answered
      obtain ⟨reply, here⟩ := Option.ne_none_iff_exists'.mp answered
      rw [ProxyServer.answer_of_step here ran] at waits
      contradiction

/-- A step of the session answers no query; when the client sends one, nothing is on its way to it. -/
private theorem unanswered_step (receives : s.Receives md5 exec db i es) {e : SessionEvent}
    (turns : s.Turns (.proxy (.session i e)))
    (taken : s.step? md5 exec.echo (.proxy (.session i e)) = some s') :
    s'.answers i (es ++ [.proxy (.session i e)]) = s.answers i es ∧
      ((∃ q ∈ sent_by i (es ++ [.proxy (.session i e)]), s'.proxy.answer q.1 = none) →
        (∃ q ∈ sent_by i es, s.proxy.answer q.1 = none) ∨
          replying ((tape i es).foldl receive (false, [])).1 (s.proxy.sessions i).pending ++ s.put i =
            []) := by
  have answer : ∀ c, s'.proxy.answer c = s.proxy.answer c := by
    obtain ⟨p, outbox, -, ran, rfl⟩ := proxy_cases taken
    exact ProxyServer.answer_of_cache (ProxyServer.cache_of_session ran)
  have history : ∀ queries, s'.proxy.history queries = s.proxy.history queries := by
    intro queries
    simp only [ProxyServer.history, answer]
  cases asks : (Event.proxy (.session i e)).asks with
  | none =>
    have same : sent_by i (es ++ [.proxy (.session i e)]) = sent_by i es := by
      rw [sent_by, schedule_concat, asks]
      rfl
    rw [System.answers, same, history]
    simp only [answer]
    exact ⟨rfl, .inl⟩
  | some asked =>
    obtain ⟨j, sql⟩ := asked
    obtain ⟨data, here, text⟩ := asks_cases asks
    obtain ⟨rfl, rfl⟩ := ProxyServer.Event.session.inj (Event.proxy.inj here)
    obtain ⟨c, grown, -, fresh, -, rfl⟩ := receives.recounts.asked taken asks
    have own : sent_by c.1 (es ++ [.proxy (.session c.1 (.complete .client_read (.ok data)))]) =
        sent_by c.1 es ++ [(c, sql)] := by
      rw [sent_by, grown, List.filter_append]
      simp [sent_by]
    have waits : s.proxy.answer c = none := by
      rw [ProxyServer.answer, unasked fresh]
    constructor
    · rw [System.answers, own, history, ProxyServer.history_concat, waits]
      simp [System.answers]
    · rintro -
      right
      have follows := receives.recounts.follows
      have first : data.head? = some query_type := by
        rw [← statement_isSome_iff, text]
        rfl
      obtain ⟨-, -, answered⟩ := turns.1 first
      obtain ⟨free, -⟩ := follows.phase.answered follows.accounted answered
      have idle := (free c.1).open'.server
      have unput : s.put c.1 = [] := by
        rw [put, idle]
      rw [unput, List.append_nil]
      exact replying_eq_nil fun op member => reply_of_not_replies (turns.2 _ sql asks op member)

/-- What is put changes only when notifyFlightResult returns. -/
private theorem put_step (receives : s.Receives md5 exec db i es) {e : SessionEvent}
    (stopped : e ≠ .notify_returned)
    (taken : s.step? md5 exec.echo (.proxy (.session i e)) = some s') : s'.put i = s.put i := by
  obtain ⟨p, outbox, -, ran, rfl⟩ := proxy_cases taken
  have cache : p.cache = s.proxy.cache := ProxyServer.cache_of_session ran
  have sent : ∀ call, p.sent i call = s.proxy.sent i call := fun call => by
    rw [ProxyServer.sent, ProxyServer.sent, cache]
  have step := Session.bridge_of_step (ProxyServer.own_step ran).2
  have still : (p.sessions i).core.server_handler = (s.core i).server_handler →
      System.put { s with proxy := p, outbox := outbox } i = s.put i :=
    fun handler => put_of_kept handler fun call _ _ _ => sent call
  generalize core' : (p.sessions i).core = c' at step still
  cases step with
  | notifies data idle leading =>
    have unsent : s.proxy.sent i (s.core i).leading = none :=
      ((receives.recounts.follows.coherent.notifies.sessions i).next leading idle).2
    rw [← sent] at unsent
    have before : s.put i = [] := by
      rw [put, core, idle]
    have after : (p.sessions i).core.server_handler =
        .notifying (s.core i).leading (s.core i).current_query_ data := by
      rw [core']
      rfl
    rw [before]
    simp only [put, core]
    simp only [core] at after unsent
    simp only [after, unsent, Option.isSome_none, Bool.false_eq_true, if_false]
  | notified => contradiction
  | _ => exact still rfl

/-- notifyFlightResult returns, and the response that has been put is written to the client. -/
private theorem returned_step (receives : s.Receives md5 exec db i es) {owed : Prop}
    (ledger : Ledger (received i es)
      (replying ((tape i es).foldl receive (false, [])).1 (s.proxy.sessions i).pending ++ s.put i)
      (s.answers i es) owed (s.proxy.sessions i).Cut) {call : ℕ} {query data : Bytes}
    (notifying : (s.proxy.sessions i).server_handler = .notifying call query data)
    (taken : s.step? md5 exec.echo (.proxy (.session i .notify_returned)) = some s') :
    Ledger (received i es) (replying true (s'.proxy.sessions i).pending ++ s'.put i) (s.answers i es)
      owed (s'.proxy.sessions i).Cut := by
  obtain ⟨p, outbox, -, ran, rfl⟩ := proxy_cases taken
  obtain ⟨permitted, step⟩ := ProxyServer.own_step ran
  have settled : s.proxy.cache.settled (i, call) = true := by
    simpa [ProxyServer.permits, notifying] using permitted
  have sent := receives.recounts.follows.coherent.sent_of_settled settled
  have put : s.put i = [data] := by
    have handler : (s.core i).server_handler = .notifying call query data := notifying
    rw [System.put, handler]
    exact if_pos (Option.isSome_iff_ne_none.mpr sent)
  obtain ⟨serves, -⟩ := receives.moved ran (.inl ⟨rfl, permitted⟩) step
  obtain ⟨idle, relayed⟩ := Session.notify_returned_cases receives.serial notifying step
  have unput : System.put { s with proxy := p, outbox := outbox } i = [] := by
    have handler : (p.sessions i).core.server_handler = .idle := idle
    simp only [System.put, core, handler]
  rw [put] at ledger
  have nothing : replying ((tape i es).foldl receive (false, [])).1 (s.proxy.sessions i).pending = [] := by
    have few := ledger.few
    rw [List.length_append, List.length_singleton] at few
    rw [← List.length_eq_zero_iff]
    omega
  -- the token is in the handler, so no relay is pending
  have quiet : replying true (s.proxy.sessions i).pending = [] := by
    have busy : (s.proxy.sessions i).server_handler ≠ .idle := by
      rw [notifying]
      exact ServerHandler.noConfusion
    obtain ⟨others, -⟩ := Session.alone_of_notifying receives.serial busy
    refine replying_eq_nil fun op member => ?_
    cases op with
    | client_write bytes =>
      have other := others _ member
      contradiction
    | response_write bytes =>
      have silent := List.filterMap_eq_nil_iff.mp nothing _ member
      contradiction
    | _ => rfl
  rw [nothing, List.nil_append] at ledger
  rw [unput, List.append_nil]
  rcases relayed with armed | ⟨pending, ended⟩
  · simp only [armed, replying_append, quiet, List.nil_append]
    exact ledger.mono .inl fun cut => cut.step receives.single serves step
  · simp only [pending, quiet]
    exact ledger.lose (List.Sublist.refl _) (.inl ended)

private theorem own_step (receives : s.Receives md5 exec db i es) {e : SessionEvent}
    (turns : s.Turns (.proxy (.session i e)))
    (recounts : s'.Recounts md5 exec db (es ++ [.proxy (.session i e)]))
    (taken : s.step? md5 exec.echo (.proxy (.session i e)) = some s') :
    s'.Receives md5 exec db i (es ++ [.proxy (.session i e)]) := by
  obtain ⟨answers, owes⟩ := receives.unanswered_step turns taken
  have step : s.proxy.permits i e = true ∧
      (s.proxy.sessions i).step? e = some (s'.proxy.sessions i) ∧
        (s.proxy.sessions i).core.Served e ∧ (s'.proxy.sessions i).Consistent ∧
          (s'.proxy.sessions i).Serial ∧ (s'.proxy.sessions i).Single := by
    obtain ⟨p, outbox, -, ran, rfl⟩ := proxy_cases taken
    obtain ⟨permitted, step⟩ := ProxyServer.own_step ran
    exact ⟨permitted, step, receives.moved ran (.inl ⟨rfl, permitted⟩) step⟩
  obtain ⟨permitted, step, serves, consistent, serial, single⟩ := step
  have noted : (tape i (es ++ [.proxy (.session i e)])).foldl receive (false, []) =
      receive ((tape i es).foldl receive (false, [])) e := by
    rw [tape_append, tape_own, List.foldl_append]
    rfl
  refine ⟨recounts, consistent, serial, single, ?_, ?_⟩
  · rw [noted]
    exact receives.marked.step receives.serial step
  rw [received, noted, answers]
  by_cases stopped : e = .notify_returned
  · subst stopped
    cases notifying : (s.proxy.sessions i).server_handler with
    | idle => simp [Session.step?, notifying] at step
    | notifying call query data => exact receives.returned_step (receives.ledger.mono owes id) notifying taken
  · have few : (replying ((tape i es).foldl receive (false, [])).1
        (s.proxy.sessions i).pending).length ≤ 1 := by
      have few := receives.ledger.few
      rw [List.length_append] at few
      omega
    have called : ∀ call value, e ≠ .on_result call value := by
      rintro call value rfl
      contradiction
    rw [receives.put_step stopped taken]
    exact (receives.ledger.mono owes id).receipt (fun cut => cut.step receives.single serves step)
      (Session.receipt_of_step receives.serial receives.single receives.marked few called stopped step)

theorem step (receives : s.Receives md5 exec db i es) (turns : s.Turns e)
    (taken : s.step? md5 exec.echo e = some s') : s'.Receives md5 exec db i (es ++ [e]) := by
  have recounts := receives.recounts.step turns.1 taken
  cases e with
  | execute j =>
    have silent : tape i (es ++ [.execute j]) = tape i es := by
      rw [tape_append, tape_aside (by simp), List.append_nil]
    have unasked : schedule (es ++ [.execute j]) = schedule es := schedule_concat es _
    obtain ⟨sql, -, rfl⟩ := Option.map_eq_some_iff.mp taken
    refine ⟨recounts, receives.consistent, receives.serial, receives.single, ?_, ?_⟩
    · rw [silent]
      exact receives.marked
    · rw [received, silent, System.answers, sent_by, unasked]
      exact receives.ledger
  | proxy d =>
    cases d with
    | session j e =>
      by_cases here : j = i
      · subst here
        exact receives.own_step turns recounts taken
      · have other : ∀ e', ProxyServer.Event.session j e ≠ .session i e' :=
          fun e' same => here (ProxyServer.Event.session.inj same).1
        refine receives.aside_step recounts taken other nofun ?_
        obtain ⟨p, outbox, -, ran, rfl⟩ := proxy_cases taken
        rcases ProxyServer.turn_cases ran i with ⟨-, same⟩ | ⟨e', same, -⟩ | ⟨b, k, value, other, -⟩
        · exact same
        · exact absurd same (other e')
        · contradiction
    | cache b =>
      by_cases called : ∃ k value, s.proxy.cache.invokes b = some ((i, k), value)
      · obtain ⟨k, value, invoked⟩ := called
        refine receives.called_step recounts taken rfl invoked ?_
        obtain ⟨p, outbox, -, ran, rfl⟩ := proxy_cases taken
        obtain ⟨-, cache, -, ⟨none, -⟩ | ⟨c, value', t, invoked', step, rfl⟩⟩ := ProxyServer.cache_cases ran
        · rw [invoked] at none
          contradiction
        · obtain ⟨rfl, rfl⟩ := Prod.mk.inj (Option.some.inj (invoked'.symm.trans invoked))
          simpa only [Function.update_self] using step
      · have uncalled : ∀ b' k value, ProxyServer.Event.cache b = .cache b' →
            s.proxy.cache.invokes b' ≠ some ((i, k), value) := by
          rintro b' k value here invoked
          obtain rfl := ProxyServer.Event.cache.inj here
          exact called ⟨k, value, invoked⟩
        refine receives.aside_step recounts taken nofun uncalled ?_
        obtain ⟨p, outbox, -, ran, rfl⟩ := proxy_cases taken
        rcases ProxyServer.turn_cases ran i with ⟨-, same⟩ | ⟨e', other, -⟩ | ⟨b', k, value, here, invoked, -⟩
        · exact same
        · contradiction
        · exact absurd invoked (uncalled b' k value here)

/-- What has been received is part of the answers, in order, and all of them while the session waits on
both sides. -/
theorem received_cases (receives : s.Receives md5 exec db i es) :
    (received i es).Sublist (s.answers i es) ∧
      ((s.proxy.sessions i).Rests → received i es = s.answers i es) := by
  refine ⟨(List.sublist_append_left _ _).trans receives.ledger.sublist, fun rests => ?_⟩
  obtain ⟨uncut, quiet, idle⟩ := rests.uncut receives.serial receives.single
  have unput : s.put i = [] := by
    have handler : (s.core i).server_handler = .idle := idle
    rw [put, handler]
  have tallied := receives.ledger.tallied.resolve_right fun lost => uncut lost.1
  rw [quiet, unput, List.append_nil, List.append_nil] at tallied
  exact tallied.symm

end Receives

theorem receives_of_run {t : System σ} (linked : store.l1.Linked) (empty : store.l1.contents = [])
    (unheld : store.redis_enabled_ = true → ∀ key, store.redis (redis_key key) = none)
    (run : Path (step? md5 exec) Turns (init store db) es t) :
    ∃ u : System (σ × Bytes), u.forget = t ∧ ∀ i, u.Receives md5 exec db i es := by
  obtain ⟨u, same, run'⟩ := echoed_of_run run
  refine ⟨u, same, fun i => ?_⟩
  apply run'.records (I := fun es s => s.Receives md5 exec db i es) (receives_init linked empty unheld)
  intro es s e s' receives turns taken
  exact receives.step turns taken

end System

end FlightProxy
