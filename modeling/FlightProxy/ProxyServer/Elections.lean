import FlightProxy.ProxyServer.Schedules
import FlightProxy.QueryCache.Isolation

/-! # No query waits while the clients take turns

A flight that is not ready belongs to the query that its session is at work on. So while the clients
take turns a call that comes to the election finds no flight to join, and leads.
-/

namespace FlightProxy

open QueryCache (FlightResult hash_query)
open Transition

namespace ProxyServer

variable {md5 : Bytes → Bytes} {store : Store} {p p' : ProxyServer} {e : Event} {n : ℕ × ℕ}

theorem settled_of_step (settled : p.cache.settled n = true) (taken : p.step? md5 e = some p') :
    p'.cache.settled n = true := by
  unfold QueryCache.State.settled at settled ⊢
  split at settled
  · next key result found returned =>
    rcases singleflight_cases taken with ⟨d, -, block⟩ | ⟨-, same⟩
    · rw [SingleFlight.State.notifying_of_returned returned block]
    · rw [same, returned]
  · contradiction

/-- A call of notifyFlightResult that has begun has returned, or its session is stopped in it. -/
def Attends (p : ProxyServer) : Prop :=
  ∀ i k, p.cache.notifying (i, k) ≠ .idle → p.cache.settled (i, k) = true ∨
    ∃ query data, (p.sessions i).server_handler = .notifying k query data

theorem attends_init : (init store).Attends := fun _ _ begun => absurd rfl begun

/-- The handler stays in its call until that has returned. -/
private theorem Attends.kept {i k : ℕ} (attended : p.cache.settled (i, k) = true ∨
      ∃ query data, (p.sessions i).server_handler = .notifying k query data)
    (taken : p.step? md5 e = some p') : p'.cache.settled (i, k) = true ∨
      ∃ query data, (p'.sessions i).server_handler = .notifying k query data := by
  rcases attended with settled | ⟨query, data, notifying⟩
  · exact .inl (settled_of_step settled taken)
  · rcases notifying_of_step notifying taken with settled | same
    · exact .inl (settled_of_step settled taken)
    · exact .inr ⟨query, data, same⟩

theorem Attends.step (attends : p.Attends) (taken : p.step? md5 e = some p') : p'.Attends := by
  intro i k begun
  by_cases before : p.cache.notifying (i, k) = .idle
  · cases e with
    | session j d =>
      rw [cache_of_session taken] at begun
      exact absurd before begun
    | cache d =>
      rcases QueryCache.State.notifying_cases (cache_of_cache taken) (i, k) with
        same | ⟨-, kept | ⟨query, value, rfl, -⟩⟩
      · exact absurd (same.trans before) begun
      · rw [before] at kept
        cases state : p'.cache.notifying (i, k) with
        | idle => exact absurd state begun
        | pushing | publishing | flying =>
          rw [state] at kept
          contradiction
      · obtain ⟨entered, -⟩ := cache_cases taken
        exact Attends.kept (.inr ⟨query, value, notifying_of_enters entered⟩) taken
  · exact Attends.kept (attends i k before) taken

end ProxyServer

namespace System

variable {σ : Type*} {md5 : Bytes → Bytes} {exec : Database σ} {store : Store} {db : σ}
  {s s' t : System σ} {d : ProxyServer.Event} {e : Event} {es : List Event} {c n : ℕ × ℕ}
  {key query : Bytes} {i : ℕ}

/-- The session is at work on the call. -/
def Holds (s : System σ) (c : ℕ × ℕ) : Prop := (s.core c.1).Holds c.2

/-- Every session leads no query, or has one on its way. -/
theorem Follows.placed (follows : s.Follows md5 exec db es) (i : ℕ) :
    (s.core i).Open (s.executed i) (s.outbox i) ∨
      (s.core i).client_handler = .idle ∧ (s.core i).current_query_ ≠ [] ∧
        (∃ x, (s.core i).Led exec s.db x (s.executed i) (s.outbox i)) ∧ ∀ j, j ≠ i → s.Free j := by
  cases follows.phase with
  | asking j sql data before last calling waits open' others =>
    by_cases here : i = j
    · rw [here]
      exact .inl open'
    · exact .inl (others i here).open'
  | decided j others decided stage =>
    by_cases here : i = j
    · subst here
      cases stage with
      | unled open' => exact .inl open'
      | led idle leads progress => exact .inr ⟨idle, leads, ⟨_, progress⟩, others⟩
    · exact .inl (others i here).open'

/-- A session that is stopped in notifyFlightResult notifies the query that it leads. -/
theorem Follows.notifying (follows : s.Follows md5 exec db es) {call : ℕ} {data : Bytes}
    (notifying : (s.core i).server_handler = .notifying call query data) :
    (s.core i).client_handler = .idle ∧ (s.core i).current_query_ ≠ [] ∧
      (s.core i).leading = call ∧ (s.core i).current_query_ = query ∧ ∀ j, j ≠ i → s.Free j := by
  rcases follows.placed i with open' | ⟨idle, leads, ⟨x, progress⟩, others⟩
  · cases open'.server.symm.trans notifying
  · cases progress with
    | sent before sql server => cases server.symm.trans notifying
    | executed response server => cases server.symm.trans notifying
    | notifying data' here =>
      obtain ⟨leading, same, -⟩ := ServerHandler.notifying.inj (here.symm.trans notifying)
      exact ⟨idle, leads, leading, same, others⟩
    | lost server => cases server.symm.trans notifying

/-- A call that has begun and not returned is the one that its session asks in, and no other session
is at work. -/
theorem Follows.asking (follows : s.Follows md5 exec db es)
    (begun : (s.proxy.cache.doing c).query ≠ none) (waits : s.proxy.cache.returned c = none) :
    (s.core c.1).client_handler ≠ .idle ∧ c.2 + 1 = (s.core c.1).calls ∧
      (s.core c.1).current_query_ = [] ∧ ∀ j, j ≠ c.1 → s.Free j := by
  obtain ⟨j, k⟩ := c
  have within : k < (s.core j).calls := follows.coherent.asked.numbered begun
  obtain ⟨sql, member⟩ := mem_schedule (i := j) (follows.numbered j ▸ within)
  cases follows.phase with
  | decided i others decided => exact absurd waits (decided _ member)
  | asking i sql' data before last calling waits' open' others decided =>
    rw [last] at member
    rcases List.mem_append.mp member with earlier | now
    · exact absurd waits (decided _ earlier)
    · obtain ⟨same, -⟩ := Prod.mk.inj (List.mem_singleton.mp now)
      obtain ⟨rfl, number⟩ := Prod.mk.inj same
      have busy : (s.core j).client_handler ≠ .idle := by
        rw [calling]
        nofun
      exact ⟨busy, by simp only; omega, open'.unled, others⟩

theorem Follows.returned_of_leader (follows : s.Follows md5 exec db es)
    (leads : s.proxy.cache.singleflight_.doing c = .leader key) :
    s.proxy.cache.returned c = some .IS_LEADER := by
  obtain ⟨query, flying, -⟩ := follows.accounted.tied.doing (c := c) (by rw [leads]; rfl)
  exact QueryCache.State.returned_leader_iff.mpr ⟨query, key, flying, leads⟩

/-- A session that has nothing on its way to the server is not at work on a call that leads. -/
theorem Follows.not_holds (follows : s.Follows md5 exec db es) (free : s.Free c.1)
    (leads : s.proxy.cache.singleflight_.doing c = .leader key) : ¬ s.Holds c := by
  rintro (⟨led, -⟩ | ⟨busy, last⟩)
  · exact led free.open'.unled
  · have returned : s.result c.1 = some .IS_LEADER := by
      rw [result, ← last]
      exact follows.returned_of_leader leads
    rcases free.free with idle | hit | waiter
    · exact busy idle
    · cases returned.symm.trans hit
    · cases returned.symm.trans waiter

/-- What the runs in which the clients take turns keep about the flights. -/
structure Elects (md5 : Bytes → Bytes) (s : System σ) : Prop where
  attends : s.proxy.Attends
  owned : s.proxy.cache.singleflight_.Owned
  leads : ∀ {i}, (s.core i).current_query_ ≠ [] →
    s.proxy.Leads md5 (s.core i).current_query_ (i, (s.core i).leading)
  held : ∀ {c key}, s.proxy.cache.singleflight_.doing c = .leader key →
    (s.proxy.cache.singleflight_.flight c).ready = true ∨ s.Holds c
  alone : ∀ c, (s.proxy.cache.singleflight_.doing c).refers = none

theorem elects_init : (init store db : System σ).Elects md5 :=
  ⟨ProxyServer.attends_init, SingleFlight.State.owned_init, fun led => absurd rfl led, nofun,
    fun _ => rfl⟩

/-- A call of notifyFlightResult in progress is the one that its session is stopped in. -/
private theorem Elects.stopped (elects : s.Elects md5) (follows : s.Follows md5 exec db es)
    (begun : s.proxy.cache.notifying n ≠ .idle) (running : ¬ s.proxy.cache.settled n = true) :
    ∃ data, (s.core n.1).server_handler = .notifying n.2 (s.core n.1).current_query_ data ∧
      (s.core n.1).client_handler = .idle ∧ (s.core n.1).leading = n.2 ∧
      s.proxy.Leads md5 (s.core n.1).current_query_ n ∧ ∀ j, j ≠ n.1 → s.Free j := by
  obtain ⟨i, k⟩ := n
  obtain ⟨query, data, handler⟩ := (elects.attends i k begun).resolve_left running
  obtain ⟨idle, led, rfl, rfl, others⟩ := follows.notifying handler
  exact ⟨data, handler, idle, rfl, elects.leads led, others⟩

/-- Only the leader of a key notifies it. -/
private theorem Elects.disciplined (elects : s.Elects md5) (follows : s.Follows md5 exec db es)
    {b : SingleFlight.Event (ℕ × ℕ)} {p : ProxyServer}
    (ran : s.proxy.step? md5 (.cache (.flight b)) = some p)
    (block : s.proxy.cache.singleflight_.step? b = some p.cache.singleflight_) :
    s.proxy.cache.singleflight_.Disciplined b := by
  cases b with
  | lookup n key result =>
    obtain ⟨idle, -⟩ := SingleFlight.State.lookup_cases block
    obtain ⟨query, flights, publishing, rfl, -⟩ :=
      QueryCache.State.flight_lookup_cases (ProxyServer.cache_of_cache ran)
    have running : ¬ s.proxy.cache.settled n = true := by
      unfold QueryCache.State.settled
      rw [idle]
      nofun
    obtain ⟨data, handler, -, -, leads, -⟩ := elects.stopped follows (by rw [publishing]; nofun) running
    obtain ⟨-, -, agrees⟩ :=
      (follows.coherent.notifies.sessions n.1).now (c := (s.proxy.sessions n.1).core) handler
    have sent : s.proxy.sent n.1 n.2 = some (query, result) := by
      rw [ProxyServer.sent, publishing]
      rfl
    obtain ⟨same, -⟩ := Prod.mk.inj (agrees _ sent)
    rw [← same] at leads
    exact leads
  | _ => trivial

/-- The flights under a key are ready when its notifier erases it. -/
private theorem Elects.harmless (elects : s.Elects md5) (follows : s.Follows md5 exec db es)
    (b : SingleFlight.Event (ℕ × ℕ)) : s.proxy.cache.singleflight_.Harmless b := by
  cases b with
  | erase n =>
    intro key result g notifying f present
    have leads := follows.coherent.led.entry present
    obtain ⟨query, flying, -⟩ :=
      follows.accounted.tied.notifying (n := n) (by rw [notifying]; rfl)
    have running : ¬ s.proxy.cache.settled n = true := by
      unfold QueryCache.State.settled
      rw [notifying]
      nofun
    obtain ⟨data, handler, idle, leading, -, others⟩ :=
      elects.stopped follows (by rw [flying]; nofun) running
    by_contra unready
    have holds := (elects.held leads).resolve_left unready
    have own : f.1 = n.1 := by
      by_contra other
      exact follows.not_holds (others f.1 other) leads holds
    rcases holds with ⟨-, same⟩ | ⟨busy, -⟩
    · have here : f = n := by
        apply Prod.ext own
        rw [← same, own, leading]
      rw [here] at unready
      exact unready (elects.owned.ready (by rw [notifying]; rfl))
    · rw [own] at busy
      exact busy idle
  | _ => trivial

private theorem Elects.owned_step (elects : s.Elects md5) (follows : s.Follows md5 exec db es)
    {p : ProxyServer} (ran : s.proxy.step? md5 d = some p) : p.cache.singleflight_.Owned := by
  rcases ProxyServer.singleflight_cases ran with ⟨b, rfl, block⟩ | ⟨-, same⟩
  · exact elects.owned.step follows.coherent.led (elects.disciplined follows ran block)
      (elects.harmless follows b) block
  · rw [same]
    exact elects.owned

/-- A session that leads a query leads it with its call. -/
private theorem Elects.leads_step (elects : s.Elects md5) (follows : s.Follows md5 exec db es)
    {p : ProxyServer} (ran : s.proxy.step? md5 d = some p) (i : ℕ)
    (led : (p.sessions i).current_query_ ≠ []) :
    p.Leads md5 (p.sessions i).current_query_ (i, (p.sessions i).leading) := by
  have moved : ∀ {e}, (s.proxy.sessions i).step? e = some (p.sessions i) →
      (∀ result, e = .flight_result result → s.proxy.permits i e = true) →
        p.Leads md5 (p.sessions i).current_query_ (i, (p.sessions i).leading) := by
    intro e step permitted
    have step := Session.bridge_of_step step
    generalize core' : (p.sessions i).core = c' at step
    have led : c'.current_query_ ≠ [] := by
      rw [← core']
      exact led
    have leads : p.Leads md5 c'.current_query_ (i, c'.leading) := by
      cases step with
      | quiet | early | passes | asks | answered | delivers | responds | notifies =>
        exact (elects.leads led).step ran
      | leads sql data fate calling =>
        exact (follows.coherent.leads_of_told calling (permitted _ rfl)).step ran
      | notified => exact absurd rfl led
    rw [← core'] at leads
    exact leads
  rcases ProxyServer.turn_cases ran i with ⟨-, same⟩ | ⟨e, -, permitted, step, -⟩ | ⟨b, k, v, -, -, step⟩
  · rw [same] at led ⊢
    exact (elects.leads led).step ran
  · exact moved step fun _ _ => permitted
  · exact moved step nofun

/-- A session is at work on a call until the call has returned from notifyFlightResult. -/
theorem Follows.holds_step (follows : s.Follows md5 exec db es)
    (taken : s.step? md5 exec (.proxy d) = some s') (calls : ∀ i, (s'.core i).calls = (s.core i).calls)
    (leads : ∀ result, s.proxy.cache.returned c = some result → result = .IS_LEADER)
    (holds : s.Holds c) : s'.Holds c ∨ s.proxy.cache.settled c = true := by
  obtain ⟨e, step, told, -, settled⟩ := turn taken c.1
  rcases follows.placed c.1 with open' | ⟨idle, -, ⟨x, progress⟩, -⟩
  · refine .inl (open'.holds step (calls c.1) (fun result here last => leads result ?_) holds)
    have returned := told result here
    rw [System.result, ← last] at returned
    exact returned
  · rcases progress.holds idle step (calls c.1) holds with kept | ⟨query, data, here, notifying⟩
    · exact .inl kept
    · exact .inr (settled _ _ _ here notifying)

private theorem Elects.ready_of_settled (elects : s.Elects md5) (settled : s.proxy.cache.settled c = true) :
    (s.proxy.cache.singleflight_.flight c).ready = true := by
  apply elects.owned.ready
  unfold QueryCache.State.settled at settled
  split at settled
  · next key result found returned =>
    cases found with
    | none => exact absurd returned elects.owned.found
    | some f =>
      rw [returned]
      rfl
  · contradiction

/-- A leader's flight is ready, or its session is at work on the call. -/
private theorem Elects.held_step (elects : s.Elects md5) (follows : s.Follows md5 exec db es)
    (sequential : s.Sequential (.proxy d)) (taken : s.step? md5 exec (.proxy d) = some s')
    (leads : s'.proxy.cache.singleflight_.doing c = .leader key) :
    (s'.proxy.cache.singleflight_.flight c).ready = true ∨ s'.Holds c := by
  have ready : s.proxy.cache.singleflight_.doing c = .leader key →
      (s.proxy.cache.singleflight_.flight c).ready = true →
        (s'.proxy.cache.singleflight_.flight c).ready = true := by
    intro led was
    obtain ⟨p, outbox, -, ran, rfl⟩ := proxy_cases taken
    rcases ProxyServer.singleflight_cases ran with ⟨b, -, block⟩ | ⟨-, same⟩
    · exact SingleFlight.State.ready_persists led was block
    · simp only [same]
      exact was
  have before : s.proxy.cache.singleflight_.doing c = .leader key ∨
      ∃ key', d = .cache (.flight (.elect c key')) := by
    obtain ⟨p, outbox, -, ran, rfl⟩ := proxy_cases taken
    rcases ProxyServer.singleflight_cases ran with ⟨b, rfl, block⟩ | ⟨-, same⟩
    · rcases SingleFlight.State.leader_cases block with ⟨c', key', rfl, -, -, after⟩ | kept
      · simp only [after, SingleFlight.State.lead, Function.update_apply] at leads
        split_ifs at leads with here
        · exact .inr ⟨key', by rw [here]⟩
        · exact .inl leads
      · exact .inl ((kept c key).mp leads)
    · simp only [same] at leads
      exact .inl leads
  rcases before with led | ⟨key', rfl⟩
  · rcases elects.held led with was | holds
    · exact .inl (ready led was)
    · rcases follows.silent_or_free sequential taken with calls | ⟨free, -⟩
      · have answer : ∀ result, s.proxy.cache.returned c = some result → result = .IS_LEADER := by
          intro result returned
          exact Option.some.inj (returned.symm.trans (follows.returned_of_leader led))
        rcases follows.holds_step taken calls answer holds with kept | settled
        · exact .inr kept
        · exact .inl (ready led (elects.ready_of_settled settled))
      · exact absurd holds (follows.not_holds (free c.1) led)
  · obtain ⟨p, outbox, -, ran, -⟩ := proxy_cases taken
    obtain ⟨query, flights, electing, -⟩ :=
      QueryCache.State.flight_elect_cases (ProxyServer.cache_of_cache ran)
    have waits : s.proxy.cache.returned c = none := by
      unfold QueryCache.State.returned
      rw [electing]
    obtain ⟨busy, last, -⟩ := follows.asking (by rw [electing]; exact Option.some_ne_none _) waits
    have calls := calls_of_silent taken rfl
    right
    refine (follows.holds_step taken calls ?_ (.inr ⟨busy, last⟩)).resolve_right fun settled => ?_
    · simp [waits]
    · have past : c.2 < (s.core c.1).returned :=
        (follows.coherent.notifies.sessions c.1).past (follows.coherent.sent_of_settled settled)
      rw [Core.returned, if_neg busy] at past
      omega

/-- A call that comes to the election finds no flight to join. -/
private theorem Elects.alone_step (elects : s.Elects md5) (follows : s.Follows md5 exec db es)
    {p : ProxyServer} (ran : s.proxy.step? md5 d = some p) (c : ℕ × ℕ) :
    (p.cache.singleflight_.doing c).refers = none := by
  have kept : ∀ {c'} {next : SingleFlight.DoCall (ℕ × ℕ)}, next.refers = none →
      (Function.update s.proxy.cache.singleflight_.doing c' next c).refers = none := by
    intro c' next alone
    rw [Function.update_apply]
    split_ifs
    · exact alone
    · exact elects.alone c
  rcases ProxyServer.singleflight_cases ran with ⟨b, rfl, block⟩ | ⟨-, same⟩
  · cases b with
    | elect c' key =>
      obtain ⟨idle, ⟨-, after⟩ | ⟨f, found, unready, -⟩⟩ := SingleFlight.State.elect_cases block
      · rw [after]
        exact kept rfl
      · obtain ⟨query, flights, electing, -⟩ :=
          QueryCache.State.flight_elect_cases (ProxyServer.cache_of_cache ran)
        have waits : s.proxy.cache.returned c' = none := by
          unfold QueryCache.State.returned
          rw [electing]
        obtain ⟨-, last, unled, others⟩ := follows.asking (by rw [electing]; nofun) waits
        have leads := follows.coherent.led.entry found
        have holds := (elects.held leads).resolve_left (by rw [unready]; nofun)
        by_cases own : f.1 = c'.1
        · rcases holds with ⟨led, -⟩ | ⟨-, last'⟩
          · rw [own] at led
            exact absurd unled led
          · have here : f = c' := by
              apply Prod.ext own
              rw [own] at last'
              omega
            rw [here, idle] at leads
            contradiction
        · exact absurd holds (follows.not_holds (others f.1 own) leads)
    | join c' =>
      obtain ⟨key, f, joining, -⟩ := SingleFlight.State.join_cases block
      have alone := elects.alone c'
      rw [joining] at alone
      contradiction
    | call_back c' outcome =>
      obtain ⟨key, f, result, calling, -⟩ := SingleFlight.State.call_back_cases block
      have alone := elects.alone c'
      rw [calling] at alone
      contradiction
    | lookup n key result =>
      obtain ⟨-, ⟨-, after⟩ | ⟨f, -, after⟩⟩ := SingleFlight.State.lookup_cases block
      · rw [after]
        exact elects.alone c
      · rw [after]
        exact elects.alone c
    | publish n =>
      obtain ⟨key, result, f, -, -, after⟩ := SingleFlight.State.publish_cases block
      rw [after]
      exact elects.alone c
    | notify n outcome =>
      obtain ⟨key, result, f, c', rest, -, after⟩ := SingleFlight.State.notify_cases outcome block
      rw [after]
      exact elects.alone c
    | erase n =>
      obtain ⟨key, result, f, -, after⟩ := SingleFlight.State.erase_cases block
      rw [after]
      exact elects.alone c
  · rw [same]
    exact elects.alone c

theorem Elects.step (elects : s.Elects md5) (follows : s.Follows md5 exec db es)
    (sequential : s.Sequential e) (taken : s.step? md5 exec e = some s') : s'.Elects md5 := by
  cases e with
  | execute j =>
    obtain ⟨sql, -, rfl⟩ := Option.map_eq_some_iff.mp taken
    exact ⟨elects.attends, elects.owned, elects.leads, elects.held, elects.alone⟩
  | proxy d =>
    refine ⟨?_, ?_, ?_, elects.held_step follows sequential taken, ?_⟩
    all_goals obtain ⟨p, outbox, -, ran, rfl⟩ := proxy_cases taken
    · exact elects.attends.step ran
    · exact elects.owned_step follows ran
    · exact elects.leads_step follows ran _
    · exact elects.alone_step follows ran

/-- While the clients take turns no call waits. -/
theorem not_waiter_of_run (run : Path (step? md5 exec) Sequential (init store db) es t) (c : ℕ × ℕ) :
    t.proxy.cache.returned c ≠ some .IS_WAITER := by
  have kept : t.Follows md5 exec db es ∧ t.Elects md5 := by
    apply run.records (I := fun es s => s.Follows md5 exec db es ∧ s.Elects md5)
      ⟨follows_init, elects_init⟩
    rintro es s e s' ⟨follows, elects⟩ sequential taken
    exact ⟨follows.step sequential taken, elects.step follows sequential taken⟩
  intro waits
  obtain ⟨query, key, f, -, waiter⟩ := QueryCache.State.returned_waiter_iff.mp waits
  have alone := kept.2.alone c
  rw [waiter] at alone
  contradiction

end System

end FlightProxy
