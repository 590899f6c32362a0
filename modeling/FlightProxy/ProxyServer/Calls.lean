import FlightProxy.ProxyServer.Steps
import FlightProxy.QueryCache.Calls
import FlightProxy.Session.Tokens
import FlightProxy.SingleFlight.Callbacks

/-! # What the sessions are told about their calls

A session is told what its call returned, and a callback runs only for a call that is answered
locally. So in a run of the proxy a session's own history agrees with the cache.
-/

namespace FlightProxy

namespace QueryCache.State

variable {Call : Type*} [DecidableEq Call] {md5 : Bytes → Bytes} {s s' : State Call} {c : Call}
  {e : Event Call} {value : Bytes}

section

omit [DecidableEq Call]

theorem returned_hit_iff :
    s.returned c = some .CACHE_HIT ↔ ∃ query value, s.doing c = .served query value := by
  unfold State.returned
  split
  · next query value served => exact iff_of_true rfl ⟨query, value, served⟩
  · next query flying =>
    refine iff_of_false ?_ (by simp [flying])
    split <;> simp
  · next other _ => exact iff_of_false (by simp) fun ⟨query, value, served⟩ => other query value served

theorem returned_leader_iff : s.returned c = some .IS_LEADER ↔
    ∃ query key, s.doing c = .flying query ∧ s.singleflight_.doing c = .leader key := by
  unfold State.returned
  split
  · next query value served => exact iff_of_false (by simp) (by simp [served])
  · next query flying =>
    split
    · next key leader => exact iff_of_true rfl ⟨query, key, flying, leader⟩
    · next key f waiter => exact iff_of_false (by simp) (by simp [waiter])
    · next other _ => exact iff_of_false (by simp) fun ⟨_, key, _, leader⟩ => other key leader
  · next other => exact iff_of_false (by simp) fun ⟨query, _, flying, _⟩ => other query flying

theorem returned_waiter_iff : s.returned c = some .IS_WAITER ↔
    ∃ query key f, s.doing c = .flying query ∧ s.singleflight_.doing c = .waiter key f := by
  unfold State.returned
  split
  · next query value served => exact iff_of_false (by simp) (by simp [served])
  · next query flying =>
    split
    · next key leader => exact iff_of_false (by simp) (by simp [leader])
    · next key f waiter => exact iff_of_true rfl ⟨query, key, f, flying, waiter⟩
    · next other => exact iff_of_false (by simp) fun ⟨_, key, f, _, waiter⟩ => other key f waiter
  · next other => exact iff_of_false (by simp) fun ⟨query, _, _, flying, _⟩ => other query flying

/-- `CACHE_HIT` or `IS_WAITER`. -/
def Answered (s : State Call) (c : Call) : Prop :=
  s.returned c = some .CACHE_HIT ∨ s.returned c = some .IS_WAITER

theorem Answered.not_leader (answered : s.Answered c) : s.returned c ≠ some .IS_LEADER := by
  rcases answered with returned | returned <;> simp [returned]

end

private theorem flight_persists (done : (s.singleflight_.doing c).done = true)
    (taken : s.step? md5 e = some s') : s'.singleflight_.doing c = s.singleflight_.doing c := by
  rcases singleflight_cases taken with ⟨d, -, block⟩ | ⟨-, same⟩
  · exact SingleFlight.State.doing_of_done done block
  · rw [same]

theorem returned_persists {result : FlightResult} (returned : s.returned c = some result)
    (taken : s.step? md5 e = some s') : s'.returned c = some result := by
  cases result with
  | CACHE_HIT =>
    obtain ⟨query, value, served⟩ := returned_hit_iff.mp returned
    refine returned_hit_iff.mpr ⟨query, value, ?_⟩
    rw [doing_of_done (by rw [served]; rfl) taken, served]
  | IS_LEADER =>
    obtain ⟨query, key, flying, leader⟩ := returned_leader_iff.mp returned
    refine returned_leader_iff.mpr ⟨query, key, ?_, ?_⟩
    · rw [doing_of_done (by rw [flying]; rfl) taken, flying]
    · rw [flight_persists (by rw [leader]; rfl) taken, leader]
  | IS_WAITER =>
    obtain ⟨query, key, f, flying, waiter⟩ := returned_waiter_iff.mp returned
    refine returned_waiter_iff.mpr ⟨query, key, f, ?_, ?_⟩
    · rw [doing_of_done (by rw [flying]; rfl) taken, flying]
    · rw [flight_persists (by rw [waiter]; rfl) taken, waiter]

theorem Answered.step (answered : s.Answered c) (taken : s.step? md5 e = some s') : s'.Answered c :=
  answered.imp (returned_persists · taken) (returned_persists · taken)

/-- The callback that a step invokes does not throw. -/
def Event.quiet : Event Call → Prop
  | .call_back _ outcome | .flight (.call_back _ outcome) | .flight (.notify _ outcome) =>
    outcome = .returned
  | _ => True

/-- A callback runs for a call that is answered locally. -/
theorem answered_of_invokes (tied : s.Tied md5) (enrolled : s.singleflight_.Enrolled)
    (quiet : Event.quiet e) (taken : s.step? md5 e = some s')
    (invoked : s.invokes e = some (c, value)) : s'.Answered c := by
  unfold State.invokes at invoked
  split at invoked
  · next c' outcome =>
    obtain ⟨query, value', hit, rfl⟩ := call_back_cases outcome taken
    rw [hit] at invoked
    obtain ⟨rfl, rfl⟩ := Prod.mk.inj (Option.some.inj invoked)
    obtain rfl : outcome = .returned := quiet
    exact .inl (returned_hit_iff.mpr ⟨query, value', Function.update_self ..⟩)
  · next c' outcome =>
    obtain ⟨flights, block, -⟩ := flight_cases taken
    obtain ⟨key, f, result, calling, rfl⟩ := SingleFlight.State.call_back_cases block
    rw [calling] at invoked
    obtain ⟨rfl, rfl⟩ := Prod.mk.inj (Option.some.inj invoked)
    obtain rfl : outcome = .returned := quiet
    obtain ⟨query, flying, -⟩ := tied.doing (c := c') (by rw [calling]; rfl)
    refine .inr (returned_waiter_iff.mpr ⟨query, key, f, ?_, ?_⟩)
    · rw [doing_of_done (by rw [flying]; rfl) taken, flying]
    · rcases singleflight_cases taken with ⟨d, here, step⟩ | ⟨other, -⟩
      · obtain rfl := Event.flight.inj here
        rw [Option.some.inj (step.symm.trans block)]
        exact Function.update_self ..
      · exact absurd rfl (other _)
  · next n outcome =>
    obtain ⟨flights, block, -⟩ := flight_cases taken
    obtain ⟨key, result, f, c', rest, notifying, -⟩ := SingleFlight.State.notify_cases outcome block
    rw [notifying] at invoked
    obtain ⟨rfl, rfl⟩ := Prod.mk.inj (Option.some.inj invoked)
    obtain ⟨key', waiter⟩ := enrolled.snapshot notifying List.mem_cons_self
    obtain ⟨query, flying, -⟩ := tied.doing (c := c') (by rw [waiter]; rfl)
    have waits : s.returned c' = some .IS_WAITER :=
      returned_waiter_iff.mpr ⟨query, key', f, flying, waiter⟩
    exact .inr (returned_persists waits taken)
  · contradiction

end QueryCache.State

namespace ProxyServer

open Transition

variable {md5 : Bytes → Bytes} {store : Store} {p p' : ProxyServer} {e : Event}

/-- What a session does in a step of the proxy: nothing, a step of its own, or a callback. -/
theorem turn_cases (taken : p.step? md5 e = some p') (j : ℕ) :
    ((∀ d, e ≠ .session j d) ∧ p'.sessions j = p.sessions j) ∨
      (∃ d, e = .session j d ∧ p.permits j d = true ∧
        (p.sessions j).step? d = some (p'.sessions j) ∧ p'.cache = p.cache) ∨
      ∃ d call value, e = .cache d ∧ p.cache.invokes d = some ((j, call), value) ∧
        (p.sessions j).step? (.on_result call value) = some (p'.sessions j) := by
  cases e with
  | session i d =>
    obtain ⟨permitted, s, ran, rfl⟩ := session_cases taken
    by_cases here : j = i
    · subst here
      refine .inr (.inl ⟨d, rfl, permitted, ?_, rfl⟩)
      simpa only [Function.update_self] using ran
    · refine .inl ⟨fun d' same => here (Event.session.inj same).1.symm, ?_⟩
      exact Function.update_of_ne here ..
  | cache d =>
    obtain ⟨-, cache, -, ⟨-, rfl⟩ | ⟨c, value, s, invoked, ran, rfl⟩⟩ := cache_cases taken
    · exact .inl ⟨by simp, rfl⟩
    · by_cases here : j = c.1
      · subst here
        refine .inr (.inr ⟨d, c.2, value, rfl, invoked, ?_⟩)
        simpa only [Function.update_self] using ran
      · exact .inl ⟨by simp, Function.update_of_ne here ..⟩

/-- A session's own step is one that the proxy permits. -/
theorem own_step {i : ℕ} {d : SessionEvent} (taken : p.step? md5 (.session i d) = some p') :
    p.permits i d = true ∧ (p.sessions i).step? d = some (p'.sessions i) := by
  rcases turn_cases taken i with ⟨other, -⟩ | ⟨d', here, permitted, ran, -⟩ | ⟨d', call, value, other, -⟩
  · exact absurd rfl (other d)
  · obtain ⟨-, rfl⟩ := Event.session.inj here
    exact ⟨permitted, ran⟩
  · contradiction

/-- The histories of the sessions agree with the cache on what has become of their calls. -/
structure Accounted (md5 : Bytes → Bytes) (p : ProxyServer) : Prop where
  tied : p.cache.Tied md5
  enrolled : p.cache.singleflight_.Enrolled
  numbered : ∀ i, (p.sessions i).core.Numbered
  told : ∀ {i call fate}, (verdicts (p.sessions i).log)[call]? = some fate →
    if fate = .answered then p.cache.Answered (i, call)
    else p.cache.returned (i, call) = some .IS_LEADER
  delivered : ∀ {i call}, call ∈ delivered (p.sessions i).log → p.cache.Answered (i, call)

theorem accounted_init : (init store).Accounted md5 :=
  ⟨QueryCache.State.tied_init, SingleFlight.State.enrolled_init, fun _ => Core.numbered_init,
    fun given => by contradiction, fun member => absurd member List.not_mem_nil⟩

theorem answered_of_step {c : ℕ × ℕ} (answered : p.cache.Answered c)
    (taken : p.step? md5 e = some p') : p'.cache.Answered c := by
  cases e with
  | session i d => rwa [cache_of_session taken]
  | cache d => exact answered.step (cache_of_cache taken)

theorem returned_of_step {c : ℕ × ℕ} {result : QueryCache.FlightResult}
    (returned : p.cache.returned c = some result) (taken : p.step? md5 e = some p') :
    p'.cache.returned c = some result := by
  cases e with
  | session i d => rwa [cache_of_session taken]
  | cache d => exact QueryCache.State.returned_persists returned (cache_of_cache taken)

theorem Accounted.answered (accounted : p.Accounted md5) {d : QueryCache.Event (ℕ × ℕ)}
    {c : ℕ × ℕ} {value : Bytes} (taken : p.step? md5 (.cache d) = some p')
    (invoked : p.cache.invokes d = some (c, value)) : p'.cache.Answered c := by
  obtain ⟨entered, -⟩ := cache_cases taken
  refine QueryCache.State.answered_of_invokes accounted.tied accounted.enrolled ?_
    (cache_of_cache taken) invoked
  unfold enters at entered
  unfold QueryCache.State.Event.quiet
  split
  · simpa using entered
  · simpa using entered
  · simpa using entered
  · trivial

theorem Accounted.step (accounted : p.Accounted md5) (taken : p.step? md5 e = some p') :
    p'.Accounted md5 := by
  have turn : ∀ {d : SessionEvent} {j : ℕ}, (p.sessions j).step? d = some (p'.sessions j) →
      Turn (p.sessions j).core (p.sessions j).pending d (p'.sessions j).core
        (p'.sessions j).pending := Session.turn_of_step
  constructor
  · cases e with
    | session i d => rw [cache_of_session taken]; exact accounted.tied
    | cache d => exact accounted.tied.step (cache_of_cache taken)
  · rcases singleflight_cases taken with ⟨d, -, block⟩ | ⟨-, same⟩
    · exact accounted.enrolled.step block
    · rw [same]
      exact accounted.enrolled
  · intro j
    rcases turn_cases taken j with ⟨-, same⟩ | ⟨d, -, -, ran, -⟩ | ⟨d, call, value, -, -, ran⟩
    · rw [same]
      exact accounted.numbered j
    · exact ((accounted.numbered j).turn (turn ran)).1
    · exact ((accounted.numbered j).turn (turn ran)).1
  · intro j call fate given
    have before : (verdicts (p.sessions j).log)[call]? = some fate →
        if fate = .answered then p'.cache.Answered (j, call)
        else p'.cache.returned (j, call) = some .IS_LEADER := by
      intro given
      have told := accounted.told given
      split_ifs at told ⊢
      · exact answered_of_step told taken
      · exact returned_of_step told taken
    rcases turn_cases taken j with ⟨-, same⟩ | ⟨d, -, permitted, ran, kept⟩ |
      ⟨d, call', value, -, -, ran⟩
    · rw [same] at given
      exact before given
    · rcases (accounted.numbered j).verdict_cases (turn ran) call with
        same | ⟨result, fate', rfl, last, given', answered⟩
      · exact before (same.symm.trans given)
      · obtain rfl := Option.some.inj (given'.symm.trans given)
        have returned : p.cache.returned (j, (p.sessions j).calls - 1) = some result := by
          simpa [permits] using permitted
        have here : (p.sessions j).calls - 1 = call := by
          have last : call + 1 = (p.sessions j).calls := last
          omega
        rw [here, ← kept] at returned
        split_ifs with locally
        · rw [answered] at locally
          cases result with
          | CACHE_HIT => exact .inl returned
          | IS_WAITER => exact .inr returned
          | IS_LEADER => contradiction
        · rwa [not_not.mp (mt answered.mpr locally)] at returned
    · rcases (accounted.numbered j).verdict_cases (turn ran) call with
        same | ⟨result, fate', other, -⟩
      · exact before (same.symm.trans given)
      · contradiction
  · intro j call member
    rcases turn_cases taken j with ⟨-, same⟩ | ⟨d, -, permitted, ran, -⟩ |
      ⟨d, call', value, rfl, invoked, ran⟩
    · rw [same] at member
      exact answered_of_step (accounted.delivered member) taken
    · rcases Core.delivered_cases (turn ran) with same | ⟨call', result, rfl, -⟩
      · exact answered_of_step (accounted.delivered (same ▸ member)) taken
      · contradiction
    · rcases Core.delivered_cases (turn ran) with same | ⟨call'', result, here, more⟩
      · exact answered_of_step (accounted.delivered (same ▸ member)) taken
      · obtain ⟨rfl, rfl⟩ := SessionEvent.on_result.inj here
        have member : call ∈ FlightProxy.delivered (p'.sessions j).core.log := member
        rw [more] at member
        rcases List.mem_append.mp member with earlier | now
        · exact answered_of_step (accounted.delivered earlier) taken
        · obtain rfl := List.mem_singleton.mp now
          exact accounted.answered taken invoked

/-- No callback runs a second time: none runs that has written to its client before. -/
def Once (p : ProxyServer) : Event → Prop
  | .cache d => ∀ c value, p.cache.invokes d = some (c, value) →
    c.2 ∉ delivered (p.sessions c.1).log
  | .session _ _ => True

/-- A step of the proxy lets a session take a step of its own, or runs a callback in it. -/
def Does (p : ProxyServer) (i : ℕ) (e : Event) (d : SessionEvent) : Prop :=
  (e = .session i d ∧ p.permits i d = true) ∨ ∃ c call value, d = .on_result call value ∧
    e = .cache c ∧ p.cache.invokes c = some ((i, call), value)

theorem does_of_step (taken : p.step? md5 e = some p') (j : ℕ) : p'.sessions j = p.sessions j ∨
    ∃ d, p.Does j e d ∧ (p.sessions j).step? d = some (p'.sessions j) := by
  rcases turn_cases taken j with ⟨-, same⟩ | ⟨d, here, permitted, ran, -⟩ |
    ⟨d, call, value, rfl, invoked, ran⟩
  · exact .inl same
  · exact .inr ⟨d, .inl ⟨here, permitted⟩, ran⟩
  · exact .inr ⟨_, .inr ⟨d, call, value, rfl, rfl, invoked⟩, ran⟩

/-- A step that does not run a callback again is what the loop on the client's side counts on. -/
theorem Accounted.served_of_fresh (accounted : p.Accounted md5) {j : ℕ} {d : SessionEvent}
    (does : p.Does j e d)
    (fresh : ∀ call value, d = .on_result call value →
      call ∉ FlightProxy.delivered (p.sessions j).log)
    (taken : p.step? md5 e = some p') (ran : (p.sessions j).step? d = some (p'.sessions j)) :
    (p.sessions j).core.Served d := by
  rcases does with ⟨rfl, permitted⟩ | ⟨c, call, value, rfl, rfl, invoked⟩
  · unfold Core.Served
    split
    · contradiction
    · intro member
      have answered := accounted.delivered member
      have leads : p.cache.returned (j, (p.sessions j).calls - 1) = some .IS_LEADER := by
        simpa [permits] using permitted
      exact answered.not_leader leads
    · trivial
  · refine Core.mem_waiting.mpr ⟨?_, ?_, fresh call value rfl⟩
    · simp only [Session.step?] at ran
      split_ifs at ran with alive
      exact alive.2
    · intro fate given
      have told := accounted.told given
      split_ifs at told with answered
      · exact answered
      · have leads := returned_of_step told taken
        exact absurd leads (accounted.answered taken invoked).not_leader

/-- What the cache does with a session is what its loop on the client's side counts on. -/
theorem Accounted.served (accounted : p.Accounted md5) (once : p.Once e)
    (taken : p.step? md5 e = some p') (j : ℕ) : p'.sessions j = p.sessions j ∨
      ∃ d, p.Does j e d ∧ (p.sessions j).step? d = some (p'.sessions j) ∧
        (p.sessions j).core.Served d := by
  refine (does_of_step taken j).imp_right ?_
  rintro ⟨d, does, ran⟩
  refine ⟨d, does, ran, accounted.served_of_fresh does ?_ taken ran⟩
  rintro call value rfl
  rcases does with ⟨rfl, permitted⟩ | ⟨c, call', value', here, rfl, invoked⟩
  · contradiction
  · obtain ⟨rfl, rfl⟩ := SessionEvent.on_result.inj here
    exact once (j, call) value invoked

end ProxyServer

end FlightProxy
