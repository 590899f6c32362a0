import FlightProxy.ProxyServer.Settlement
import FlightProxy.Session.Serving
import FlightProxy.SingleFlight.Waiters

/-! # Who will answer a call that waits

A call that waits is in the list of a flight, or a notifier is about to run its callback. The flight is
made ready by its leader's notifyFlightResult, so it matters that the leader's session goes on serving.
-/

namespace FlightProxy

namespace QueryCache.State

variable {Call : Type*} [DecidableEq Call] {md5 : Bytes → Bytes} {s s' : State Call} {c : Call}
  {e : Event Call}

/-- The callbacks that `singleflight_` runs are those that a step invokes. -/
theorem invoked_cases (taken : s.step? md5 e = some s') {result : Bytes}
    (invoked : (c, result) ∈ s'.singleflight_.invoked) :
    (c, result) ∈ s.singleflight_.invoked ∨ s.invokes e = some (c, result) := by
  rcases singleflight_cases taken with ⟨d, rfl, block⟩ | ⟨-, same⟩
  · cases d with
    | elect c key =>
      obtain ⟨-, ⟨-, after⟩ | ⟨f, -, -, after⟩⟩ := SingleFlight.State.elect_cases block
      · rw [after] at invoked
        exact .inl invoked
      · rw [after] at invoked
        exact .inl invoked
    | join c =>
      obtain ⟨key, f, -, -, ⟨-, after⟩ | ⟨-, after⟩⟩ := SingleFlight.State.join_cases block
      · rw [after] at invoked
        exact .inl invoked
      · rw [after] at invoked
        exact .inl invoked
    | call_back d outcome =>
      obtain ⟨key, f, value, calling, after⟩ := SingleFlight.State.call_back_cases block
      rw [after] at invoked
      refine (List.mem_append.mp invoked).imp_right fun now => ?_
      obtain ⟨rfl, rfl⟩ := Prod.mk.inj (List.mem_singleton.mp now)
      simp only [invokes, calling]
    | lookup n key value =>
      obtain ⟨-, ⟨-, after⟩ | ⟨f, -, after⟩⟩ := SingleFlight.State.lookup_cases block
      · rw [after] at invoked
        exact .inl invoked
      · rw [after] at invoked
        exact .inl invoked
    | publish n =>
      obtain ⟨key, value, f, -, -, after⟩ := SingleFlight.State.publish_cases block
      rw [after] at invoked
      exact .inl invoked
    | notify n outcome =>
      obtain ⟨key, value, f, d, rest, notifying, after⟩ := SingleFlight.State.notify_cases outcome block
      rw [after] at invoked
      refine (List.mem_append.mp invoked).imp_right fun now => ?_
      obtain ⟨rfl, rfl⟩ := Prod.mk.inj (List.mem_singleton.mp now)
      simp only [invokes, notifying]
    | erase n =>
      obtain ⟨key, value, f, -, after⟩ := SingleFlight.State.erase_cases block
      rw [after] at invoked
      exact .inl invoked
  · rw [same] at invoked
    exact .inl invoked

/-- A call is served from the cache once its callback has been run. -/
theorem served_cases (taken : s.step? md5 e = some s') {query value : Bytes}
    (served : s'.doing c = .served query value) :
    s.doing c = .served query value ∨ s.invokes e = some (c, value) := by
  rcases moves_of_step taken c with same | moves
  · exact .inl (same.symm.trans served)
  · right
    rw [served] at moves
    generalize same : DoCall.served query value = next at moves
    cases moves with
    | calls_back query' value' outcome hit =>
      cases outcome with
      | returned =>
        obtain ⟨-, rfl⟩ := DoCall.served.inj same
        simp only [invokes, hit]
      | threw => contradiction
    | _ => contradiction

end QueryCache.State

namespace ProxyServer

open Transition
open QueryCache (hash_query)

variable {md5 : Bytes → Bytes} {store : Store} {p p' : ProxyServer} {e : Event} {f : ℕ × ℕ}
  {query : Bytes} {i : ℕ}

/-- The flight is under the key of its leader's query or ready, the leader's notifyResult call, if it
has begun, has found it, and the leader's session is at work on the call. -/
structure Tends (md5 : Bytes → Bytes) (query : Bytes) (f : ℕ × ℕ) (p : ProxyServer) : Prop where
  text : query ≠ []
  leads : p.Leads md5 query f
  safe : p.Safe md5 query f
  attended : p.cache.singleflight_.Attended (hash_query md5 query) f
  serves : (p.sessions f.1).Serves f.2 query

/-- A flight that is not ready is attended until it is, unless it is stripped or its leader's session
stops serving. -/
theorem Tends.step (tends : p.Tends md5 query f) (coherent : p.Coherent md5)
    (consistent : (p.sessions f.1).Consistent) (spares : ¬ p.Strips md5 query f e)
    (heeds : ∀ d, e = .session f.1 d →
      (∀ result, (p.sessions f.1).server_handler ≠ .notifying f.2 query result) →
        (p.sessions f.1).Heeds d)
    (unready : (p.cache.singleflight_.flight f).ready = false)
    (taken : p.step? md5 e = some p') : p'.Tends md5 query f := by
  have returned : ∀ result, p.cache.returned f = some result → result = .IS_LEADER := by
    intro result told
    have carries : (p.cache.singleflight_.doing f).key = some (hash_query md5 query) := by
      rw [tends.leads]
      rfl
    obtain ⟨query', flying, -⟩ := coherent.notifies.tied.doing carries
    exact Option.some.inj (told.symm.trans
      (QueryCache.State.returned_leader_iff.mpr ⟨query', _, flying, tends.leads⟩))
  have serves : (p'.sessions f.1).Serves f.2 query := by
    rcases turn_cases taken f.1 with ⟨-, same⟩ | ⟨d, rfl, permitted, ran, -⟩ |
      ⟨d, call, value, -, -, ran⟩
    · rw [same]
      exact tends.serves
    · have told : ∀ result, d = .flight_result result → f.2 + 1 = (p.sessions f.1).calls →
          result = .IS_LEADER := by
        rintro result rfl last
        apply returned
        have here : f = (f.1, (p.sessions f.1).calls - 1) := Prod.ext rfl (by simp only; omega)
        rw [here]
        simpa [permits] using permitted
      rcases tends.serves.step tends.text consistent told (heeds d rfl) ran with
        serves | ⟨⟨result, handler⟩, rfl⟩
      · exact serves
      · have settled : p.cache.settled f = true := by simpa [permits, handler] using permitted
        have settling : p.Settling md5 query result f.1 f.2 :=
          ⟨⟨coherent, fun _ => tends.safe⟩, tends.leads, .inl handler, tends.attended⟩
        rw [settling.ready settled] at unready
        contradiction
    · have untold : ∀ result, .on_result call value = SessionEvent.flight_result result →
          f.2 + 1 = (p.sessions f.1).calls → result = .IS_LEADER := fun _ other => by contradiction
      refine (tends.serves.step tends.text consistent untold (fun _ => trivial) ran).resolve_right ?_
      rintro ⟨-, other⟩
      contradiction
  refine ⟨tends.text, tends.leads.step taken, ?_, ?_, serves⟩
  · exact safe_of_step (fun _ => tends.safe) coherent spares taken (tends.leads.step taken)
  · rcases singleflight_cases taken with ⟨d, -, block⟩ | ⟨-, same⟩
    · exact tends.attended.step tends.safe tends.leads block
    · rw [same]
      exact tends.attended

/-! ## The calls of one client -/

/-- The callbacks of a client's calls that have run have written to the client. -/
structure Ran (i : ℕ) (p : ProxyServer) : Prop where
  served : ∀ {k query value}, p.cache.doing (i, k) = .served query value →
    k ∈ delivered (p.sessions i).log
  invoked : ∀ {k result}, ((i, k), result) ∈ p.cache.singleflight_.invoked →
    k ∈ delivered (p.sessions i).log

theorem ran_init : (init store).Ran i :=
  ⟨fun served => by contradiction, fun invoked => absurd invoked List.not_mem_nil⟩

theorem delivered_of_step (taken : p.step? md5 e = some p') {k : ℕ}
    (before : k ∈ delivered (p.sessions i).log) : k ∈ delivered (p'.sessions i).log := by
  rcases session_of_step taken i with same | ⟨d, ran⟩
  · rwa [same]
  · obtain ⟨news, history⟩ := (Session.bridge_of_step ran).grows
    have log : (p'.sessions i).log = (p.sessions i).log ++ news := history
    rw [log, delivered_append]
    exact List.mem_append_left _ before

/-- Callbacks run in a session that is not being destroyed. -/
theorem Ran.step (ran : p.Ran i) (consistent : (p.sessions i).Consistent)
    (alive : ∀ d k value, e = .cache d → p.cache.invokes d = some ((i, k), value) →
      (p.sessions i).is_destroying_ = false) (taken : p.step? md5 e = some p') : p'.Ran i := by
  cases e with
  | session j d =>
    have cache := cache_of_session taken
    constructor
    · intro k query value served
      rw [cache] at served
      exact delivered_of_step taken (ran.served served)
    · intro k result invoked
      rw [cache] at invoked
      exact delivered_of_step taken (ran.invoked invoked)
  | cache d =>
    have wrote : ∀ {k value}, p.cache.invokes d = some ((i, k), value) →
        k ∈ delivered (p'.sessions i).log := by
      intro k value invoked
      obtain ⟨-, cache, -, ⟨none, -⟩ | ⟨c, value', s, invoked', called, rfl⟩⟩ := cache_cases taken
      · rw [none] at invoked
        contradiction
      · obtain ⟨rfl, rfl⟩ := Prod.mk.inj (Option.some.inj (invoked'.symm.trans invoked))
        simp only [Function.update_self]
        obtain ⟨log, -⟩ := Session.delivers_of_on_result consistent (alive d k value' rfl invoked) called
        rw [log, delivered_append]
        exact List.mem_append_right _ (List.mem_singleton_self _)
    constructor
    · intro k query value served
      rcases QueryCache.State.served_cases (cache_of_cache taken) served with before | now
      · exact delivered_of_step taken (ran.served before)
      · exact wrote now
    · intro k result invoked
      rcases QueryCache.State.invoked_cases (cache_of_cache taken) invoked with before | now
      · exact delivered_of_step taken (ran.invoked before)
      · exact wrote now

end ProxyServer

end FlightProxy
