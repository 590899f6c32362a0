import FlightProxy.Model.ProxyServer
import FlightProxy.QueryCache.Steps

/-! # What a step of the proxy does to the cache and to each session

A step moves the cache or leaves it alone, and moves at most one session, by a step of its own; so a
run of the proxy is a run of its cache and a run of each of its sessions.
-/

namespace FlightProxy.ProxyServer

open Transition

variable {md5 : Bytes → Bytes} {p p' : ProxyServer} {i : ℕ} {e : SessionEvent}
  {d : QueryCache.Event (ℕ × ℕ)}

theorem act_cases (acted : p.act i e = some p') :
    ∃ s, (p.sessions i).step? e = some s ∧
      p' = { p with sessions := Function.update p.sessions i s } := by
  obtain ⟨s, taken, rfl⟩ := Option.map_eq_some_iff.mp acted
  exact ⟨s, taken, rfl⟩

theorem session_cases (taken : p.step? md5 (.session i e) = some p') :
    p.permits i e = true ∧ ∃ s, (p.sessions i).step? e = some s ∧
      p' = { p with sessions := Function.update p.sessions i s } := by
  simp only [step?] at taken
  split_ifs at taken with permitted
  exact ⟨permitted, act_cases taken⟩

/-- A step of the cache is followed by the callback that it invokes, if any. -/
theorem cache_cases (taken : p.step? md5 (.cache d) = some p') :
    p.enters d = true ∧ ∃ cache, p.cache.step? md5 d = some cache ∧
      ((p.cache.invokes d = none ∧ p' = { p with cache := cache }) ∨
        ∃ c value s, p.cache.invokes d = some (c, value) ∧
          (p.sessions c.1).step? (.on_result c.2 value) = some s ∧
          p' = ⟨Function.update p.sessions c.1 s, cache⟩) := by
  simp only [step?] at taken
  split_ifs at taken with entered
  obtain ⟨cache, moved, delivered⟩ := Option.bind_eq_some_iff.mp taken
  refine ⟨entered, cache, moved, ?_⟩
  cases invoked : p.cache.invokes d with
  | none =>
    rw [invoked] at delivered
    exact .inl ⟨rfl, (Option.some.inj delivered).symm⟩
  | some call =>
    rw [invoked] at delivered
    obtain ⟨s, ran, rfl⟩ := act_cases delivered
    exact .inr ⟨call.1, call.2, s, rfl, ran, rfl⟩

/-- The block of the cache that a step takes. -/
def Event.cache? : Event → Option (QueryCache.Event (ℕ × ℕ))
  | .cache d => some d
  | .session _ _ => none

theorem cache_of_session (taken : p.step? md5 (.session i e) = some p') : p'.cache = p.cache := by
  obtain ⟨-, s, -, rfl⟩ := session_cases taken
  rfl

theorem cache_of_cache (taken : p.step? md5 (.cache d) = some p') :
    p.cache.step? md5 d = some p'.cache := by
  obtain ⟨-, cache, moved, ⟨-, rfl⟩ | ⟨c, value, s, -, -, rfl⟩⟩ := cache_cases taken
  · exact moved
  · exact moved

/-- A step takes a block of `singleflight_`, or leaves it alone. -/
theorem singleflight_cases {e : Event} (taken : p.step? md5 e = some p') :
    (∃ d, e = .cache (.flight d) ∧
        p.cache.singleflight_.step? d = some p'.cache.singleflight_) ∨
      ((∀ d, e ≠ .cache (.flight d)) ∧ p'.cache.singleflight_ = p.cache.singleflight_) := by
  cases e with
  | session i e =>
    rw [cache_of_session taken]
    exact .inr ⟨by simp, rfl⟩
  | cache d =>
    rcases QueryCache.State.singleflight_cases (cache_of_cache taken) with
      ⟨d', rfl, block⟩ | ⟨other, same⟩
    · exact .inl ⟨d', rfl, block⟩
    · exact .inr ⟨fun d' here => other d' (Event.cache.inj here), same⟩

/-- The step that a session takes when the proxy does, if it does. -/
theorem session_of_step {e : Event} (taken : p.step? md5 e = some p') (j : ℕ) :
    p'.sessions j = p.sessions j ∨ ∃ d, (p.sessions j).step? d = some (p'.sessions j) := by
  have moved : ∀ {i : ℕ} {d : SessionEvent} {s : Session}, (p.sessions i).step? d = some s →
      Function.update p.sessions i s j = p.sessions j ∨
        ∃ d, (p.sessions j).step? d = some (Function.update p.sessions i s j) := by
    intro i d s taken
    rw [Function.update_apply]
    split_ifs with same
    · rw [same]
      exact .inr ⟨d, taken⟩
    · exact .inl rfl
  cases e with
  | session i e =>
    obtain ⟨-, s, ran, rfl⟩ := session_cases taken
    exact moved ran
  | cache d =>
    obtain ⟨-, cache, -, ⟨-, rfl⟩ | ⟨c, value, s, -, ran, rfl⟩⟩ := cache_cases taken
    · exact .inl rfl
    · exact moved ran

end FlightProxy.ProxyServer
