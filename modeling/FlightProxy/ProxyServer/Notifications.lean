import FlightProxy.ProxyServer.Calls
import FlightProxy.Session.Notifying

/-! # Results are put before they are relayed

A call of notifyFlightResult is the one that a session's server read handler is stopped in, and the
handler goes on when the call has put and published. So a session that has relayed what it notified
has put it, and whatever has been put was notified by a session.
-/

namespace FlightProxy.ProxyServer

open Transition
open scoped List

variable {md5 : Bytes → Bytes} {store : Store} {p p' : ProxyServer} {e : Event}
  {query value data : Bytes} {i : ℕ}

/-- The query and the result that a session's calls of notifyFlightResult have put. -/
def sent (p : ProxyServer) (i : ℕ) (call : ℕ) : Option (Bytes × Bytes) :=
  (p.cache.notifying (i, call)).sends

/-- The histories of the sessions agree with the cache on what has been put. -/
structure Notifies (md5 : Bytes → Bytes) (p : ProxyServer) : Prop where
  tied : p.cache.Tied md5
  sessions : ∀ i, (p.sessions i).core.Notifies (p.sent i)

theorem notifies_init : (init store).Notifies md5 :=
  ⟨QueryCache.State.tied_init, fun _ => Core.notifies_init⟩

/-- A call of notifyFlightResult begins in the session whose handler is stopped in it. -/
private theorem sent_of_cache {d : QueryCache.Event (ℕ × ℕ)} (taken : p.step? md5 (.cache d) = some p')
    (i : ℕ) : p'.sent i = p.sent i ∨ ∃ call query value,
      (p.sessions i).server_handler = .notifying call query value ∧
        ∀ k, p'.sent i k = if k = call then some (query, value) else p.sent i k := by
  obtain ⟨entered, -⟩ := cache_cases taken
  have moved := cache_of_cache taken
  by_cases begins : ∃ call query value, d = .putL1 (i, call) query value
  · obtain ⟨call, query, value, rfl⟩ := begins
    refine .inr ⟨call, query, value, by simpa [enters] using entered, ?_⟩
    obtain ⟨-, same⟩ := QueryCache.State.putL1_cases moved
    intro k
    rw [sent, sent, same]
    simp only [Function.update_apply, Prod.mk.injEq, true_and]
    split_ifs
    · rfl
    · rfl
  · left
    funext k
    rcases QueryCache.State.notifying_cases moved (i, k) with same | ⟨-, kept | ⟨query, value, rfl, -⟩⟩
    · rw [sent, sent, same]
    · exact kept
    · exact absurd ⟨k, query, value, rfl⟩ begins

theorem Notifies.step (notifies : p.Notifies md5) (taken : p.step? md5 e = some p') :
    p'.Notifies md5 := by
  constructor
  · cases e with
    | session i d => rw [cache_of_session taken]; exact notifies.tied
    | cache d => exact notifies.tied.step (cache_of_cache taken)
  · intro j
    have kept : (p.sessions j).core.Notifies (p'.sent j) := by
      cases e with
      | session i d =>
        have same : p'.sent j = p.sent j := by
          funext k
          rw [sent, sent, cache_of_session taken]
        rw [same]
        exact notifies.sessions j
      | cache d =>
        rcases sent_of_cache taken j with same | ⟨call, query, value, handler, grows⟩
        · rw [same]
          exact notifies.sessions j
        · exact (notifies.sessions j).begins query value handler grows
    rcases turn_cases taken j with ⟨-, same⟩ | ⟨d, -, permitted, ran, cache⟩ | ⟨d, call, value, -, -, ran⟩
    · rwa [same]
    · refine kept.bridge (Session.bridge_of_step ran) ?_
      rintro rfl k query value handler none
      have handler : (p.sessions j).server_handler = .notifying k query value := handler
      have settled : p.cache.settled (j, k) = true := by simpa [permits, handler] using permitted
      rw [sent, cache] at none
      unfold QueryCache.State.settled at settled
      split at settled
      · next key result found returned =>
        obtain ⟨query', flying, -⟩ := notifies.tied.notifying (n := (j, k)) (by rw [returned]; rfl)
        rw [flying] at none
        contradiction
      · contradiction
    · exact kept.bridge (Session.bridge_of_step ran) (by simp)

/-- doSingleFlight is entered by a handler that stopped at the call. -/
theorem Notifies.calling_of_enters {c : ℕ × ℕ} (notifies : p.Notifies md5)
    (entered : p.enters (.getL1_shared c query) = true) :
    ∃ data, (p.sessions c.1).client_handler = .calling query data ∧
      c.2 + 1 = (p.sessions c.1).calls := by
  simp only [enters] at entered
  split at entered
  · next sql_query data calling =>
    obtain ⟨rfl, last⟩ := of_decide_eq_true entered
    have busy : (p.sessions c.1).client_handler ≠ .idle := by simp [calling]
    have positive : 0 < (p.sessions c.1).calls := (notifies.sessions c.1).asking busy
    exact ⟨data, calling, by omega⟩
  · contradiction

/-- A call of notifyFlightResult puts what its session notifies. -/
theorem notifying_of_enters {n : ℕ × ℕ} (entered : p.enters (.putL1 n query value) = true) :
    (p.sessions n.1).server_handler = .notifying n.2 query value := by
  simpa [enters] using entered

end FlightProxy.ProxyServer
