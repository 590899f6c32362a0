import FlightProxy.ProxyServer.Notifications
import FlightProxy.Session.Leading
import FlightProxy.SingleFlight.Settlement

/-! # A leading read is settled by the read that answers it

The read after a leading one notifies the text that the leading one handed to doSingleFlight, if
there is a text. The call of notifyFlightResult has the number of the call that leads, so its
notifyResult is the leader's own, and makes the flight ready.
-/

namespace FlightProxy

/-- What a step of a session does to the call that its client read's handler is stopped in. -/
theorem Core.Bridge.asking_cases {c c' : Core} {e : SessionEvent} (step : Bridge c e c') :
    (c'.client_handler = c.client_handler ∨ c'.client_handler = .idle) ∧ c'.calls = c.calls ∨
      c'.calls = c.calls + 1 := by
  cases step with
  | quiet | early | passes | delivers | responds | notifies | notified => exact .inl ⟨.inl rfl, rfl⟩
  | asks => exact .inr rfl
  | answered | leads => exact .inl ⟨.inr rfl, rfl⟩

namespace ProxyServer

open Transition
open QueryCache (hash_query)

variable {md5 : Bytes → Bytes} {store : Store} {p p' t : ProxyServer} {e : Event}
  {ok : ProxyServer → Event → Prop} {es : List Event} {i : ℕ} {c : ℕ × ℕ}
  {query data response : Bytes}

/-- A call is one of its session, for the text that its handler handed over. -/
structure Asked (p : ProxyServer) : Prop where
  numbered : ∀ {i k}, (p.cache.doing (i, k)).query ≠ none → k < (p.sessions i).calls
  asked : ∀ {i k query data}, (p.sessions i).client_handler = .calling query data →
    k + 1 = (p.sessions i).calls → ∀ query', (p.cache.doing (i, k)).query = some query' →
      query' = query
  texts : ∀ i, (p.sessions i).core.Asks

theorem asked_init : (init store).Asked :=
  ⟨fun asked => absurd rfl asked, fun calling => by contradiction, fun _ => Core.asks_init⟩

/-- A step of a session leaves its calls alone, or makes a new one. -/
private theorem Asked.turn {d : SessionEvent} (asked : p.Asked)
    (ran : (p.sessions i).step? d = some (p'.sessions i)) (cache : p'.cache = p.cache) (k : ℕ) :
    ((p'.cache.doing (i, k)).query ≠ none → k < (p'.sessions i).calls) ∧
      ∀ {query data}, (p'.sessions i).client_handler = .calling query data →
        k + 1 = (p'.sessions i).calls → ∀ query', (p'.cache.doing (i, k)).query = some query' →
          query' = query := by
  rw [cache]
  rcases (Session.bridge_of_step ran).asking_cases with ⟨handler, calls⟩ | calls
  · have calls : (p'.sessions i).calls = (p.sessions i).calls := calls
    rw [calls]
    refine ⟨asked.numbered, fun calling last => ?_⟩
    rcases handler with same | idle
    · exact asked.asked (same.symm.trans calling) last
    · cases idle.symm.trans calling
  · have calls : (p'.sessions i).calls = (p.sessions i).calls + 1 := calls
    rw [calls]
    refine ⟨fun begun => Nat.lt_succ_of_lt (asked.numbered begun), fun _ last query' begun => ?_⟩
    have earlier := asked.numbered (k := k) (by rw [begun]; nofun)
    omega

/-- A block of the cache keeps the query of a call, or begins the one that the handler is in. -/
theorem query_cases {d : QueryCache.Event (ℕ × ℕ)} (notifies : p.Notifies md5)
    (taken : p.step? md5 (.cache d) = some p') (i k : ℕ) :
    (p'.cache.doing (i, k)).query = (p.cache.doing (i, k)).query ∨
      ∃ query data, (p'.cache.doing (i, k)).query = some query ∧
        (p.sessions i).client_handler = .calling query data ∧ k + 1 = (p.sessions i).calls := by
  rcases QueryCache.State.doing_cases (cache_of_cache taken) (i, k) with
    same | ⟨-, kept | ⟨query, rfl, -, begun⟩⟩
  · exact .inl (congrArg _ same)
  · exact .inl kept
  · obtain ⟨entered, -⟩ := cache_cases taken
    obtain ⟨data, calling, last⟩ := notifies.calling_of_enters entered
    exact .inr ⟨query, data, begun, calling, last⟩

theorem Asked.step (asked : p.Asked) (notifies : p.Notifies md5)
    (taken : p.step? md5 e = some p') : p'.Asked := by
  have kept : ∀ j k, ((p'.cache.doing (j, k)).query ≠ none → k < (p'.sessions j).calls) ∧
      ∀ {query data}, (p'.sessions j).client_handler = .calling query data →
        k + 1 = (p'.sessions j).calls → ∀ query', (p'.cache.doing (j, k)).query = some query' →
          query' = query := by
    intro j k
    cases e with
    | session i d =>
      have cache := cache_of_session taken
      rcases turn_cases taken j with ⟨-, same⟩ | ⟨d, -, -, ran, -⟩ | ⟨d, call, value, other, -⟩
      · rw [cache, same]
        exact ⟨asked.numbered, asked.asked⟩
      · exact asked.turn ran cache k
      · contradiction
    | cache d =>
      have same : (p'.sessions j).client_handler = (p.sessions j).client_handler ∧
          (p'.sessions j).calls = (p.sessions j).calls := by
        rcases turn_cases taken j with ⟨-, same⟩ | ⟨d, other, -⟩ | ⟨d, call, value, -, -, ran⟩
        · rw [same]
          exact ⟨rfl, rfl⟩
        · contradiction
        · have step := Session.bridge_of_step ran
          generalize core' : (p'.sessions j).core = c' at step
          have result : c'.client_handler = (p.sessions j).client_handler ∧
              c'.calls = (p.sessions j).calls := by
            cases step with
            | quiet | early | delivers => exact ⟨rfl, rfl⟩
          rw [← core'] at result
          exact result
      rw [same.1, same.2]
      rcases query_cases notifies taken j k with kept | ⟨query, data, begun, calling, last⟩
      · rw [kept]
        exact ⟨asked.numbered, asked.asked⟩
      · rw [begun]
        refine ⟨fun _ => by omega, fun calling' _ query' same => ?_⟩
        obtain ⟨rfl, -⟩ := ClientHandler.calling.inj (calling.symm.trans calling')
        exact (Option.some.inj same).symm
  refine ⟨(kept _ _).1, (kept _ _).2, fun j => ?_⟩
  rcases session_of_step taken j with same | ⟨d, ran⟩
  · rw [same]
    exact asked.texts j
  · exact (asked.texts j).bridge (Session.bridge_of_step ran)

/-- A final erase of the query's key takes the flight of the call out before it is ready. -/
def Strips (md5 : Bytes → Bytes) (query : Bytes) (c : ℕ × ℕ) (p : ProxyServer) (e : Event) : Prop :=
  ∃ d, e = .cache (.flight d) ∧ p.cache.singleflight_.Strips (hash_query md5 query) c d

/-- What every run of the proxy keeps about calls and flights. -/
structure Coherent (md5 : Bytes → Bytes) (p : ProxyServer) : Prop where
  notifies : p.Notifies md5
  led : p.cache.singleflight_.Led
  asked : p.Asked

theorem coherent_init : (init store).Coherent md5 :=
  ⟨notifies_init, SingleFlight.State.led_init, asked_init⟩

theorem Coherent.step (coherent : p.Coherent md5) (taken : p.step? md5 e = some p') :
    p'.Coherent md5 := by
  refine ⟨coherent.notifies.step taken, ?_, coherent.asked.step coherent.notifies taken⟩
  rcases singleflight_cases taken with ⟨d, -, block⟩ | ⟨-, same⟩
  · exact coherent.led.step block
  · rw [same]
    exact coherent.led

/-- The call leads the query. -/
def Leads (md5 : Bytes → Bytes) (query : Bytes) (c : ℕ × ℕ) (p : ProxyServer) : Prop :=
  p.cache.singleflight_.doing c = .leader (hash_query md5 query)

theorem Leads.step (leads : p.Leads md5 query c) (taken : p.step? md5 e = some p') :
    p'.Leads md5 query c := by
  rcases singleflight_cases taken with ⟨d, -, block⟩ | ⟨-, same⟩
  · exact SingleFlight.State.leader_persists leads block
  · rw [Leads, same]
    exact leads

/-- A handler that is told `IS_LEADER` leads the text that it handed over. -/
theorem Coherent.leads_of_told (coherent : p.Coherent md5)
    (calling : (p.sessions i).client_handler = .calling query data)
    (permitted : p.permits i (.flight_result .IS_LEADER) = true) :
    p.Leads md5 query (i, (p.sessions i).calls - 1) := by
  have returned : p.cache.returned (i, (p.sessions i).calls - 1) = some .IS_LEADER := by
    simpa [permits] using permitted
  obtain ⟨query', key, flying, leads⟩ := QueryCache.State.returned_leader_iff.mp returned
  have passes : (p.cache.singleflight_.doing (i, (p.sessions i).calls - 1)).key = some key := by
    rw [leads]
    rfl
  obtain ⟨query'', flying', hashed⟩ := coherent.notifies.tied.doing passes
  obtain rfl := QueryCache.DoCall.flying.inj (flying.symm.trans flying')
  have positive : 0 < (p.sessions i).calls :=
    (coherent.notifies.sessions i).asking (c := (p.sessions i).core) (by simp [Session.core, calling])
  have same : query' = query := by
    apply coherent.asked.asked calling (k := (p.sessions i).calls - 1) (by omega)
    rw [flying]
    rfl
  rw [Leads, leads, ← hashed, same]

/-- The flight of a leader is safe while it is not stripped. -/
def Safe (md5 : Bytes → Bytes) (query : Bytes) (c : ℕ × ℕ) (p : ProxyServer) : Prop :=
  p.cache.singleflight_.Safe (hash_query md5 query) c

theorem safe_of_step (safe : p.Leads md5 query c → p.Safe md5 query c) (coherent : p.Coherent md5)
    (spares : ¬ p.Strips md5 query c e) (taken : p.step? md5 e = some p')
    (leads : p'.Leads md5 query c) : p'.Safe md5 query c := by
  rcases singleflight_cases taken with ⟨d, rfl, block⟩ | ⟨-, same⟩
  · exact SingleFlight.State.safe_of_leads safe coherent.led (fun strips => spares ⟨d, rfl, strips⟩)
      block leads
  · rw [Leads, same] at leads
    rw [Safe, same]
    exact safe leads

/-- The leader's call of notifyFlightResult is under way, or has put. -/
def Sends (i call : ℕ) (query result : Bytes) (p : ProxyServer) : Prop :=
  (p.sessions i).server_handler = .notifying call query result ∨ p.sent i call = some (query, result)

theorem Sends.sent {call : ℕ} (sends : p.Sends i call query response) (coherent : p.Coherent md5)
    {sent' : Bytes × Bytes} (sent : p.sent i call = some sent') : sent' = (query, response) := by
  rcases sends with notifying | sent''
  · obtain ⟨-, -, agrees⟩ := (coherent.notifies.sessions i).now (c := (p.sessions i).core) notifying
    exact agrees sent' sent
  · exact Option.some.inj (sent.symm.trans sent'')

/-- A call of notifyFlightResult that has returned has put. -/
theorem Coherent.sent_of_settled (coherent : p.Coherent md5) {call : ℕ}
    (settled : p.cache.settled (i, call) = true) : p.sent i call ≠ none := by
  unfold QueryCache.State.settled at settled
  split at settled
  · next key result found returned =>
    obtain ⟨query, flying, -⟩ :=
      coherent.notifies.tied.notifying (n := (i, call)) (by rw [returned]; rfl)
    rw [sent, flying]
    exact Option.some_ne_none _
  · contradiction

/-- The handler that notifies for a call stays until notifyFlightResult has put for it. -/
theorem notifying_of_step {call : ℕ}
    (notifying : (p.sessions i).server_handler = .notifying call query response)
    (taken : p.step? md5 e = some p') : p.cache.settled (i, call) = true ∨
      (p'.sessions i).server_handler = .notifying call query response := by
  have moved : ∀ {d}, (p.sessions i).step? d = some (p'.sessions i) →
      (d = .notify_returned → p.cache.settled (i, call) = true) →
        p.cache.settled (i, call) = true ∨
          (p'.sessions i).server_handler = .notifying call query response := by
    intro d ran settled
    have step := Session.bridge_of_step ran
    generalize core' : (p'.sessions i).core = c' at step
    have handler : d = .notify_returned ∨ c'.server_handler = (p.sessions i).server_handler := by
      cases step with
      | quiet | early | passes | asks | answered | leads | delivers => exact .inr rfl
      | responds data relayed idle | notifies data idle => cases idle.symm.trans notifying
      | notified => exact .inl rfl
    rcases handler with rfl | same
    · exact .inl (settled rfl)
    · rw [← core'] at same
      exact .inr (same.trans notifying)
  rcases turn_cases taken i with ⟨-, same⟩ | ⟨d, -, permitted, ran, -⟩ | ⟨d, call', value, -, -, ran⟩
  · rw [same]
    exact .inr notifying
  · apply moved ran
    rintro rfl
    simpa [permits, notifying] using permitted
  · exact moved ran (by simp)

theorem Sends.step {call : ℕ} (sends : p.Sends i call query response) (coherent : p.Coherent md5)
    (taken : p.step? md5 e = some p') : p'.Sends i call query response := by
  have persists : p.sent i call = some (query, response) → p'.sent i call = some (query, response) := by
    intro sent
    cases e with
    | session j d =>
      rw [ProxyServer.sent, cache_of_session taken]
      exact sent
    | cache d => exact QueryCache.State.sends_persists sent (cache_of_cache taken)
  rcases sends with notifying | sent
  · rcases notifying_of_step notifying taken with settled | same
    · obtain ⟨sent', sent⟩ := Option.ne_none_iff_exists'.mp (coherent.sent_of_settled settled)
      obtain rfl := Sends.sent (.inl notifying) coherent sent
      exact .inr (persists sent)
    · exact .inl same
  · exact .inr (persists sent)

/-- A session that leads has the number of its call, for which nothing has been put yet. -/
theorem Coherent.unsent_of_answered (coherent : p.Coherent md5) {call : ℕ}
    (ran : (p.sessions i).step? (.complete .server_read (.ok response)) = some (p'.sessions i))
    (notifying : (p'.sessions i).server_handler = .notifying call query response) :
    p.sent i call = none := by
  have idle : (p.sessions i).server_handler = .idle := by
    have completed : (p.sessions i).complete .server_read (.ok response) = some (p'.sessions i) := ran
    obtain ⟨-, free, -⟩ := Session.complete_cases completed
    simpa [Session.free] using free
  have step := Session.bridge_of_step ran
  generalize core' : (p'.sessions i).core = c' at step
  have notifying : c'.server_handler = .notifying call query response := by
    rw [← core']
    exact notifying
  cases step with
  | quiet | early | responds => cases idle.symm.trans notifying
  | notifies data idle leading =>
    obtain ⟨rfl, -, -⟩ := ServerHandler.notifying.inj notifying
    exact ((coherent.notifies.sessions i).next leading idle).2

/-- What a run keeps about the flight of a call while nobody strips it. -/
structure Guarded (md5 : Bytes → Bytes) (query : Bytes) (c : ℕ × ℕ) (p : ProxyServer) : Prop where
  coherent : p.Coherent md5
  safe : p.Leads md5 query c → p.Safe md5 query c

theorem guarded_init : (init store).Guarded md5 query c :=
  ⟨coherent_init, fun leads => by contradiction⟩

theorem Guarded.step (guarded : p.Guarded md5 query c) (spares : ¬ p.Strips md5 query c e)
    (taken : p.step? md5 e = some p') : p'.Guarded md5 query c :=
  ⟨guarded.coherent.step taken, safe_of_step guarded.safe guarded.coherent spares taken⟩

theorem spares_of_session (d : SessionEvent) : ¬ p.Strips md5 query c (.session i d) := by
  rintro ⟨d', other, -⟩
  contradiction

/-- What a run keeps once the leader's call of notifyFlightResult is under way. -/
structure Settling (md5 : Bytes → Bytes) (query result : Bytes) (i call : ℕ) (p : ProxyServer) :
    Prop where
  guarded : p.Guarded md5 query (i, call)
  leads : p.Leads md5 query (i, call)
  sends : p.Sends i call query result
  attended : p.cache.singleflight_.Attended (hash_query md5 query) (i, call)

theorem Settling.step {call : ℕ} (settling : p.Settling md5 query response i call)
    (spares : ¬ p.Strips md5 query (i, call) e) (taken : p.step? md5 e = some p') :
    p'.Settling md5 query response i call := by
  refine ⟨settling.guarded.step spares taken, settling.leads.step taken,
    settling.sends.step settling.guarded.coherent taken, ?_⟩
  rcases singleflight_cases taken with ⟨d, -, block⟩ | ⟨-, same⟩
  · exact settling.attended.step (settling.guarded.safe settling.leads) settling.leads block
  · rw [same]
    exact settling.attended

/-- The flight is ready when the call has returned. -/
theorem Settling.ready {call : ℕ} (settling : p.Settling md5 query response i call)
    (settled : p.cache.settled (i, call) = true) :
    (p.cache.singleflight_.flight (i, call)).ready = true := by
  have attended := settling.attended
  have coherent := settling.guarded.coherent
  unfold QueryCache.State.settled at settled
  split at settled
  · next key result found returned =>
    obtain ⟨query', flying, hashed⟩ :=
      coherent.notifies.tied.notifying (n := (i, call)) (by rw [returned]; rfl)
    have sent : p.sent i call = some (query', result) := by
      rw [ProxyServer.sent, flying]
      rfl
    obtain ⟨rfl, -⟩ := Prod.mk.inj (settling.sends.sent coherent sent)
    simp only [SingleFlight.State.Attended, returned] at attended
    exact attended hashed.symm
  · contradiction

/-- A server read that notifies begins the call of the leader. -/
theorem Guarded.settling {call : ℕ} (guarded : p.Guarded md5 query (i, call))
    (leads : p.Leads md5 query (i, call))
    (taken : p.step? md5 (.session i (.complete .server_read (.ok response))) = some p')
    (notifying : (p'.sessions i).server_handler = .notifying call query response) :
    p'.Settling md5 query response i call := by
  have guarded' := guarded.step (spares_of_session _) taken
  refine ⟨guarded', leads.step taken, .inl notifying, ?_⟩
  have unsent : p'.sent i call = none := by
    rw [ProxyServer.sent, cache_of_session taken]
    rcases turn_cases taken i with ⟨other, -⟩ | ⟨d, here, -, ran, -⟩ | ⟨d, call', value, other, -⟩
    · exact absurd rfl (other _)
    · obtain ⟨-, rfl⟩ := Event.session.inj here
      exact guarded.coherent.unsent_of_answered ran notifying
    · contradiction
  have idle : p'.cache.singleflight_.notifying (i, call) = .idle := by
    by_contra busy
    have entered : ∃ key result,
        (p'.cache.singleflight_.notifying (i, call)).sends = some (key, result) := by
      cases state : p'.cache.singleflight_.notifying (i, call) with
      | idle => exact absurd state busy
      | publishing key result | notifying key result | returned key result => exact ⟨key, result, rfl⟩
    obtain ⟨key, result, sends⟩ := entered
    obtain ⟨query', flying, -⟩ := guarded'.coherent.notifies.tied.notifying sends
    rw [ProxyServer.sent, flying] at unsent
    contradiction
  simp only [SingleFlight.State.Attended, idle]

/-- The session takes no part in the step. -/
def Aside (i : ℕ) (p : ProxyServer) (e : Event) : Prop := ∀ d, ¬ p.Does i e d

private theorem sessions_of_aside (run : Path (step? md5) (fun p e => ok p e ∧ Aside i p e) p es p') :
    p'.sessions i = p.sessions i := by
  apply run.preserves (I := fun q => q.sessions i = p.sessions i) rfl
  rintro q e q' same ⟨-, aside⟩ taken
  rcases turn_cases taken i with ⟨-, kept⟩ | ⟨d, here, permitted, -⟩ | ⟨d, call, value, here, invoked, -⟩
  · exact kept.trans same
  · exact absurd (.inl ⟨here, permitted⟩) (aside d)
  · exact absurd (.inr ⟨d, call, value, rfl, here, invoked⟩) (aside _)

/-- The session is not told to lead again, and no read of its server gets bytes. -/
def Undistracted (i : ℕ) (es : List Event) : Prop :=
  (∀ response, .session i (.complete .server_read (.ok response)) ∉ es) ∧
    .session i (.flight_result .IS_LEADER) ∉ es

/-- Whether a leadership that the session has been told of still lasts depends on its steps since. -/
private theorem led_of_run {call : ℕ} (run : Path (step? md5) ok p es t)
    (past : (p.sessions i).Past call) (text : query ≠ [])
    (leads : (p.sessions i).current_query_ = query ∧ (p.sessions i).leading = call) :
    ((t.sessions i).Led call query ∧ (p.sessions i).server_handler = .idle ∧ Undistracted i es) ∨
      (t.sessions i).Unled call ∧ ((t.sessions i).is_destroying_ = false →
        ¬ ((p.sessions i).server_handler = .idle ∧ Undistracted i es)) := by
  suffices kept : (t.sessions i).Past call ∧ _ from kept.2
  refine run.records (I := fun es q => (q.sessions i).Past call ∧
    (((q.sessions i).Led call query ∧ (p.sessions i).server_handler = .idle ∧ Undistracted i es) ∨
      (q.sessions i).Unled call ∧ ((q.sessions i).is_destroying_ = false →
        ¬ ((p.sessions i).server_handler = .idle ∧ Undistracted i es)))) ⟨past, ?_⟩ ?_
  · cases alive : (p.sessions i).is_destroying_ with
    | true => exact .inr ⟨.inl alive, by simp⟩
    | false =>
      by_cases idle : (p.sessions i).server_handler = .idle
      · exact .inl ⟨⟨alive, idle, leads.1, leads.2⟩, idle, by simp, by simp⟩
      · exact .inr ⟨.inr (.inl idle), fun _ undistracted => idle undistracted.1⟩
  · rintro es q e q' ⟨past, lasts⟩ - taken
    -- what is not on the longer tape was not on the shorter one
    have shorter : Undistracted i (es ++ [e]) → Undistracted i es := by
      rintro ⟨unread, untold⟩
      exact ⟨fun response member => unread response (List.mem_append_left _ member),
        fun member => untold (List.mem_append_left _ member)⟩
    have longer : Undistracted i es → (∀ response, e ≠ .session i (.complete .server_read (.ok response))) →
        e ≠ .session i (.flight_result .IS_LEADER) → Undistracted i (es ++ [e]) := by
      rintro ⟨unread, untold⟩ quiet other
      refine ⟨fun response member => ?_, fun member => ?_⟩
      · rcases List.mem_append.mp member with before | now
        · exact unread response before
        · exact quiet response (List.mem_singleton.mp now).symm
      · rcases List.mem_append.mp member with before | now
        · exact untold before
        · exact other (List.mem_singleton.mp now).symm
    -- a step of the session that leads, or of one that does not
    have moved : ∀ {d}, (q.sessions i).step? d = some (q'.sessions i) →
        (∀ d', e = .session i d' → d' = d) →
        (d = .flight_result .IS_LEADER ∨ (∃ response, d = .complete .server_read (.ok response)) →
          e = .session i d) →
        (q'.sessions i).Past call ∧ (((q'.sessions i).Led call query ∧
          (p.sessions i).server_handler = .idle ∧ Undistracted i (es ++ [e])) ∨
            (q'.sessions i).Unled call ∧ ((q'.sessions i).is_destroying_ = false →
              ¬ ((p.sessions i).server_handler = .idle ∧ Undistracted i (es ++ [e])))) := by
      intro d ran own same
      refine ⟨past.step ran, ?_⟩
      rcases lasts with ⟨led, idle, undistracted⟩ | ⟨unled, distracted⟩
      · rcases led.step text past ran with ⟨unread, untold, led' | destroying⟩ | ⟨ends, unled'⟩
        · refine .inl ⟨led', idle, longer undistracted ?_ ?_⟩
          · exact fun response here => unread response (own _ here).symm
          · exact fun here => untold (own _ here).symm
        · exact .inr ⟨.inl destroying, by simp [destroying]⟩
        · refine .inr ⟨unled', ?_⟩
          rintro - ⟨-, unread, untold⟩
          have last : e ∈ es ++ [e] := List.mem_append_right _ List.mem_cons_self
          rcases ends with ⟨response, rfl⟩ | rfl
          · exact unread response (same (.inr ⟨response, rfl⟩) ▸ last)
          · exact untold (same (.inl rfl) ▸ last)
      · refine .inr ⟨unled.step past ran, ?_⟩
        rintro alive ⟨idle, undistracted⟩
        refine distracted ?_ ⟨idle, shorter undistracted⟩
        exact Bool.eq_false_iff.mpr fun destroying =>
          Bool.false_ne_true (alive.symm.trans (Session.destroying_of_step destroying ran))
    rcases turn_cases taken i with ⟨aside, kept⟩ | ⟨d, rfl, -, ran, -⟩ | ⟨d, call', value, rfl, -, ran⟩
    · rw [kept]
      refine ⟨past, ?_⟩
      rcases lasts with ⟨led, idle, undistracted⟩ | ⟨unled, distracted⟩
      · exact .inl ⟨led, idle, longer undistracted (fun _ => aside _) (aside _)⟩
      · exact .inr ⟨unled, fun alive holds => distracted alive ⟨holds.1, shorter holds.2⟩⟩
    · exact moved ran (fun d' here => (Event.session.inj here).2.symm) fun _ => rfl
    · exact moved ran (fun d' here => by contradiction) (by simp)

/-- A read that makes its session leader has been written to the server, and the session's next step
is a read from the server. Then that read notifies the text that was handed to doSingleFlight exactly
when there is a text, the session has not been closed, and since it was told to lead it has neither had
another server read in hand nor been told to lead again; and when notifyFlightResult returns, the flight
of the call is ready, if no final erase of another leader has taken it out of the map. -/
theorem settled_of_answered {a b b' u u' : ProxyServer} {es₁ es₂ : List Event}
    (before : Path (step? md5) ok (init store) es a)
    (calling : (a.sessions i).client_handler = .calling query data)
    (told : a.step? md5 (.session i (.flight_result .IS_LEADER)) = some b)
    (meanwhile : Path (step? md5) ok b es₁ b')
    (written : b'.step? md5 (.session i (.complete (.server_write data) (.ok []))) = some u)
    (others : Path (step? md5) (fun p e => ok p e ∧ Aside i p e) u es₂ u')
    (answered : u'.step? md5 (.session i (.complete .server_read (.ok response))) = some p) :
    ((p.sessions i).server_handler = .notifying ((a.sessions i).calls - 1) query response ↔
        (∃ byte, data[5]? = some byte ∧ byte ≠ 0) ∧ (u'.sessions i).is_destroying_ = false ∧
          (a.sessions i).server_handler = .idle ∧ Undistracted i es₁) ∧
      ((p.sessions i).server_handler = .notifying ((a.sessions i).calls - 1) query response →
        (∀ p e, ok p e → ¬ p.Strips md5 query (i, (a.sessions i).calls - 1) e) →
        ∀ es₃ t, Path (step? md5) ok p es₃ t → t.Leads md5 query (i, (a.sessions i).calls - 1) ∧
          (t.cache.settled (i, (a.sessions i).calls - 1) = true →
            (t.cache.singleflight_.flight (i, (a.sessions i).calls - 1)).ready = true)) := by
  obtain ⟨permitted, told'⟩ := own_step told
  constructor
  · obtain ⟨-, written'⟩ := own_step written
    obtain ⟨-, answered'⟩ := own_step answered
    have coherent : a.Coherent md5 := before.preserves coherent_init
      fun _ _ _ coherent _ taken => coherent.step taken
    have called : intercept data = some query := coherent.asked.texts i query data calling
    rw [← intercept_ne_nil_iff called]
    by_cases text : query = []
    · refine iff_of_false ?_ fun holds => holds.1 text
      intro notifying
      rw [(Session.server_handler_of_read answered').2] at notifying
      split_ifs at notifying with leads
      exact leads.2 ((ServerHandler.notifying.inj notifying).2.1.trans text)
    obtain ⟨handler, current, leading, calls, idle⟩ := Session.led_of_told calling told'
    have positive : 0 < (a.sessions i).calls := by
      apply (coherent.notifies.sessions i).asking (c := (a.sessions i).core)
      simp [Session.core, calling]
    have past : (b.sessions i).Past ((a.sessions i).calls - 1) :=
      ⟨by rw [calls]; omega, fun busy => absurd idle busy⟩
    -- the end of the write is no read and tells nothing
    have untouched : Undistracted i (es₁ ++ [.session i (.complete (.server_write data) (.ok []))]) ↔
        Undistracted i es₁ := by
      simp [Undistracted]
    have quiet : Path (step? md5) always b es₁ b' := meanwhile.mono fun _ _ _ _ _ => trivial
    have run := quiet.snoc trivial written
    have lasts := led_of_run run past text ⟨current, leading⟩
    rw [← sessions_of_aside others, handler, untouched] at lasts
    rcases lasts with ⟨led, holds⟩ | ⟨unled, distracted⟩
    · exact iff_of_true (led.notified text answered') ⟨text, led.alive, holds⟩
    · exact iff_of_false (unled.silent answered') fun holds => distracted holds.2.1 holds.2.2
  · intro notifying spares es₃ t after
    have guarded : ∀ {ok' : ProxyServer → Event → Prop} {p q es}, (∀ p e, ok' p e → ok p e) →
        p.Guarded md5 query (i, (a.sessions i).calls - 1) → Path (step? md5) ok' p es q →
          q.Guarded md5 query (i, (a.sessions i).calls - 1) := by
      intro ok' p q es weaker initial run
      exact run.preserves initial
        fun p e p' guarded allowed taken => guarded.step (spares p e (weaker p e allowed)) taken
    have leading : ∀ {ok' : ProxyServer → Event → Prop} {p q es},
        p.Leads md5 query (i, (a.sessions i).calls - 1) → Path (step? md5) ok' p es q →
          q.Leads md5 query (i, (a.sessions i).calls - 1) := by
      intro ok' p q es initial run
      exact run.preserves initial fun _ _ _ leads _ taken => leads.step taken
    have at_a := guarded (fun _ _ allowed => allowed) guarded_init before
    have at_b := at_a.step (spares_of_session _) told
    have at_u := (guarded (fun _ _ allowed => allowed) at_b meanwhile).step (spares_of_session _) written
    have at_u' := guarded (fun _ _ allowed => allowed.1) at_u others
    have leads := (at_a.coherent.leads_of_told calling permitted).step told
    have leads' := leading ((leading leads meanwhile).step written) others
    have settling := at_u'.settling leads' answered notifying
    have settling' : t.Settling md5 query response i ((a.sessions i).calls - 1) :=
      after.preserves settling
        fun p e p' settling allowed taken => settling.step (spares p e allowed) taken
    exact ⟨settling'.leads, settling'.ready⟩

/-- A Query with an empty text leads, is written and answered, and notifies nothing. -/
theorem not_settled_of_answered : ¬ ∀ (md5 : Bytes → Bytes) (store : Store) (i : ℕ)
    (query data response : Bytes) (es : List Event) (a b u p : ProxyServer),
    Path (step? md5) always (init store) es a →
    (a.sessions i).client_handler = .calling query data → (a.sessions i).reaches_server = true →
    a.step? md5 (.session i (.flight_result .IS_LEADER)) = some b →
    b.step? md5 (.session i (.complete (.server_write data) (.ok []))) = some u →
    u.step? md5 (.session i (.complete .server_read (.ok response))) = some p →
      (p.sessions i).server_handler = .notifying ((a.sessions i).calls - 1) query response := by
  intro settled
  have run : ∃ a b u p : ProxyServer,
      Path (step? id) always (init {}) (Session.connected.map (.session 0) ++
        [.session 0 (.complete .client_read (.ok [0x51, 0x00, 0x00, 0x00, 0x05, 0x00])),
          .cache (.getL1_shared (0, 0) []), .cache (.getL2 (0, 0) false),
          .cache (.flight (.elect (0, 0) (hash_query id [])))]) a ∧
      (a.sessions 0).client_handler = .calling [] [0x51, 0x00, 0x00, 0x00, 0x05, 0x00] ∧
      (a.sessions 0).reaches_server = true ∧
      a.step? id (.session 0 (.flight_result .IS_LEADER)) = some b ∧
      b.step? id (.session 0 (.complete (.server_write [0x51, 0x00, 0x00, 0x00, 0x05, 0x00])
        (.ok []))) = some u ∧
      u.step? id (.session 0 (.complete .server_read (.ok [0x49]))) = some p ∧
      (p.sessions 0).server_handler = .idle := by
    refine ⟨_, _, _, _, replay_eq_some_iff.mp rfl, rfl, rfl, rfl, rfl, rfl, rfl⟩
  obtain ⟨a, b, u, p, before, calling, reaches, told, written, answered, idle⟩ := run
  have notifying := settled id {} 0 _ _ _ _ a b u p before calling reaches told written answered
  cases idle.symm.trans notifying

private theorem spares_of_other {d : QueryCache.Event (ℕ × ℕ)} (other : ∀ n, d ≠ .flight (.erase n)) :
    ¬ p.Strips md5 query c (.cache d) := by
  rintro ⟨d', here, strips⟩
  obtain rfl := Event.cache.inj here
  cases d' with
  | erase n => exact other n rfl
  | _ => exact strips

private theorem spares_of_ready (ready : (p.cache.singleflight_.flight c).ready = true) :
    ¬ p.Strips md5 query c e := by
  rintro ⟨d, -, strips⟩
  cases d with
  | erase n =>
    have unready := strips.1.2
    rw [ready] at unready
    contradiction
  | _ => exact strips

/-- The client's `q` is answered, and its flight is ready when notifyFlightResult has returned. -/
theorem settled_of_answered_run : ∃ p t : ProxyServer,
    (p.sessions 0).server_handler = .notifying 0 [0x71] [0x5a] ∧
      t.cache.settled (0, 0) = true ∧ (t.cache.singleflight_.flight (0, 0)).ready = true := by
  let ok : ProxyServer → Event → Prop := fun p e => ¬ p.Strips id [0x71] (0, 0) e
  have run : ∃ a b b' u p t : ProxyServer,
      Path (step? id) ok (init {}) (Session.connected.map (.session 0) ++
        [.session 0 (.complete .client_read (.ok [0x51, 0x00, 0x00, 0x00, 0x06, 0x71, 0x00])),
          .cache (.getL1_shared (0, 0) [0x71]), .cache (.getL2 (0, 0) false),
          .cache (.flight (.elect (0, 0) (hash_query id [0x71])))]) a ∧
      ((a.sessions 0).client_handler =
          .calling [0x71] [0x51, 0x00, 0x00, 0x00, 0x06, 0x71, 0x00] ∧
        (a.sessions 0).server_handler = .idle ∧ (a.sessions 0).calls = 1) ∧
      a.step? id (.session 0 (.flight_result .IS_LEADER)) = some b ∧
      Path (step? id) ok b [.session 1 .start] b' ∧
      b'.step? id (.session 0 (.complete (.server_write [0x51, 0x00, 0x00, 0x00, 0x06, 0x71, 0x00])
        (.ok []))) = some u ∧
      ((u.sessions 0).is_destroying_ = false ∧
        u.step? id (.session 0 (.complete .server_read (.ok [0x5a]))) = some p) ∧
      Path (step? id) ok p [.cache (.putL1 (0, 0) [0x71] [0x5a]), .cache (.putL2 (0, 0) false),
        .cache (.flight (.lookup (0, 0) (hash_query id [0x71]) [0x5a])),
        .cache (.flight (.publish (0, 0))), .cache (.flight (.erase (0, 0)))] t ∧
      t.cache.settled (0, 0) = true := by
    refine ⟨_, _, _, _, _, _, .cons (spares_of_session _) rfl (.cons (spares_of_session _) rfl
      (.cons (spares_of_session _) rfl (.cons (spares_of_session _) rfl
      (.cons (spares_of_session _) rfl (.cons (spares_of_session _) rfl
      (.cons (spares_of_other nofun) rfl (.cons (spares_of_other nofun) rfl
      (.cons (spares_of_other (by simp)) rfl (.nil _))))))))), ⟨rfl, rfl, rfl⟩, rfl,
      .cons (spares_of_session _) rfl (.nil _), rfl, ⟨rfl, rfl⟩,
      .cons (spares_of_other nofun) rfl (.cons (spares_of_other nofun) rfl
      (.cons (spares_of_other (by simp)) rfl (.cons (spares_of_other (by simp)) rfl
      (.cons (spares_of_ready rfl) rfl (.nil _))))), rfl⟩
  obtain ⟨a, b, b', u, p, t, before, ⟨calling, idle, calls⟩, told, meanwhile, written,
    ⟨alive, answered⟩, after, returned⟩ := run
  have settled := settled_of_answered before calling told meanwhile written (.nil _) answered
  rw [calls] at settled
  have notifying := settled.1.mpr ⟨⟨0x71, rfl, by decide⟩, alive, idle, by simp [Undistracted]⟩
  obtain ⟨-, ready⟩ := settled.2 notifying (fun _ _ spares => spares) _ t after
  exact ⟨p, t, notifying, returned, ready returned⟩

end ProxyServer

end FlightProxy
