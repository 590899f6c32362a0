import FlightProxy.SingleFlight.Callbacks
import FlightProxy.SingleFlight.Leadership

/-! # Where the results in the flights come from

Whatever holds of the results that notifyResult is called with holds, under the same key, of the
result of every ready flight and of every result that a callback is invoked with.
-/

namespace FlightProxy.SingleFlight.State

variable {Call : Type*}

/-- All results that have got into the flights are genuine for their keys. -/
structure Genuine (K : Bytes → Bytes → Prop) (s : State Call) : Prop where
  sent : ∀ {n key result}, (s.notifying n).sends = some (key, result) → K key result
  ready : ∀ {f key}, s.doing f = .leader key → (s.flight f).ready = true → K key (s.flight f).result
  calling : ∀ {c key f result}, s.doing c = .calling key f result → K key result
  invoked : ∀ {c result}, (c, result) ∈ s.invoked → ∃ key, (s.doing c).key = some key ∧ K key result

variable {K K' : Bytes → Bytes → Prop} {s s' : State Call} {c n : Call} {e : Event Call}

theorem genuine_init : (init : State Call).Genuine K :=
  ⟨nofun, nofun, nofun, fun member => absurd member List.not_mem_nil⟩

theorem Genuine.mono (genuine : s.Genuine K) (more : ∀ key result, K key result → K' key result) :
    s.Genuine K' := by
  refine ⟨fun sends => more _ _ (genuine.sent sends), fun leads set => more _ _ (genuine.ready leads set),
    fun calling => more _ _ (genuine.calling calling), fun member => ?_⟩
  obtain ⟨key, named, holds⟩ := genuine.invoked member
  exact ⟨key, named, more _ _ holds⟩

variable [DecidableEq Call]

/-- What a step keeps, when the results that it takes on are genuine. -/
private theorem Genuine.keep (genuine : s.Genuine K) (taken : s.step? e = some s')
    (allowed : ∀ n key result, e = .lookup n key result → K key result)
    (ready : ∀ {f key}, s'.doing f = .leader key → (s'.flight f).ready = true →
      K key (s'.flight f).result)
    (calling : ∀ {c key f result}, s'.doing c = .calling key f result →
      s.doing c = .calling key f result ∨ K key result)
    (invoked : ∀ {c result}, (c, result) ∈ s'.invoked →
      (c, result) ∈ s.invoked ∨ ∃ key, (s'.doing c).key = some key ∧ K key result) :
    s'.Genuine K := by
  refine ⟨?_, ready, ?_, ?_⟩
  · intro n key result sends
    rcases sends_cases taken n with same | ⟨key', result', rfl, -, entered⟩
    · exact genuine.sent (same.symm.trans sends)
    · obtain ⟨rfl, rfl⟩ := Prod.mk.inj (Option.some.inj (entered.symm.trans sends))
      exact allowed n key' result' rfl
  · intro c key f result here
    rcases calling here with before | holds
    · exact genuine.calling before
    · exact holds
  · intro c result member
    rcases invoked member with before | now
    · obtain ⟨key, named, holds⟩ := genuine.invoked before
      refine ⟨key, ?_, holds⟩
      rcases key_cases taken c with same | ⟨key', -, idle, -⟩
      · exact same.trans named
      · rw [idle] at named
        contradiction
    · exact now

omit [DecidableEq Call] in
/-- A flight that keeps its leader, and whether it is ready and with what, keeps a genuine result. -/
private theorem Genuine.flight (genuine : s.Genuine K)
    (leads : ∀ f key, s'.doing f = .leader key → s.doing f = .leader key)
    (same : ∀ f, (s'.flight f).ready = (s.flight f).ready ∧ (s'.flight f).result = (s.flight f).result) :
    ∀ {f key}, s'.doing f = .leader key → (s'.flight f).ready = true → K key (s'.flight f).result := by
  intro f key led set
  rw [(same f).2]
  rw [(same f).1] at set
  exact genuine.ready (leads f key led) set

/-- A call that moves to a point that is not the leader's leaves the leaders as they are. -/
private theorem leads_of_update {next : DoCall Call} (other : ∀ key, next ≠ .leader key) {f : Call}
    {key : Bytes} (leads : Function.update s.doing c next f = .leader key) : s.doing f = .leader key := by
  rw [Function.update_apply] at leads
  split_ifs at leads
  · exact absurd leads (other key)
  · exact leads

private theorem calling_of_update {next : DoCall Call} {d f : Call} {key result : Bytes}
    (calling : Function.update s.doing c next d = .calling key f result) :
    s.doing d = .calling key f result ∨ next = .calling key f result := by
  rw [Function.update_apply] at calling
  split_ifs at calling
  · exact .inr calling
  · exact .inl calling

theorem Genuine.step (genuine : s.Genuine K) (led : s.Led) (enrolled : s.Enrolled)
    (allowed : ∀ n key result, e = .lookup n key result → K key result)
    (taken : s.step? e = some s') : s'.Genuine K := by
  have taken' := taken
  cases e with
  | elect c key =>
    obtain ⟨idle, ⟨-, rfl⟩ | ⟨f, -, -, rfl⟩⟩ := elect_cases taken
    · refine genuine.keep taken' allowed ?_ ?_ .inl
      · intro f key' leads set
        simp only [lead, Function.update_apply] at leads set ⊢
        split_ifs at leads set ⊢
        exact genuine.ready leads set
      · intro d key' f result calling
        rcases calling_of_update calling with before | other
        · exact .inl before
        · contradiction
    · refine genuine.keep taken' allowed ?_ ?_ .inl
      · intro g key' leads set
        exact genuine.ready (leads_of_update (by simp) leads) set
      · intro d key' f result calling
        rcases calling_of_update calling with before | other
        · exact .inl before
        · contradiction
  | join c =>
    obtain ⟨key, f, joining, -, ⟨set, rfl⟩ | ⟨-, rfl⟩⟩ := join_cases taken
    · refine genuine.keep taken' allowed ?_ ?_ .inl
      · exact genuine.flight (fun _ _ => leads_of_update (by simp))
          fun g => ⟨ready_acquire g c, result_acquire g c⟩
      · intro d key' g result calling
        rcases calling_of_update calling with before | here
        · exact .inl before
        · obtain ⟨rfl, -, rfl⟩ := DoCall.calling.inj here
          exact .inr (genuine.ready (led.doing (c := c) (by rw [joining]; rfl)) set)
    · refine genuine.keep taken' allowed ?_ ?_ .inl
      · exact genuine.flight (fun _ _ => leads_of_update (by simp))
          fun g => ⟨ready_enrol g c, result_enrol g c⟩
      · intro d key' g result calling
        rcases calling_of_update calling with before | other
        · exact .inl before
        · contradiction
  | call_back c outcome =>
    obtain ⟨key, f, result, calling, rfl⟩ := call_back_cases taken
    have other : ∀ key', DoCall.after key f outcome ≠ .leader key' :=
      fun _ => DoCall.refers_ne_leader (DoCall.refers_after ..)
    refine genuine.keep taken' allowed ?_ ?_ ?_
    · exact genuine.flight (fun _ _ => leads_of_update other)
        fun g => ⟨ready_release g, result_release g⟩
    · intro d key' g result' calling'
      rcases calling_of_update calling' with before | other
      · exact .inl before
      · cases outcome <;> contradiction
    · intro d result' member
      rcases List.mem_append.mp member with before | now
      · exact .inl before
      · obtain ⟨rfl, rfl⟩ := Prod.mk.inj (List.mem_singleton.mp now)
        refine .inr ⟨key, ?_, genuine.calling calling⟩
        simp only [Function.update_self]
        cases outcome <;> rfl
  | lookup n key result =>
    obtain ⟨-, ⟨-, rfl⟩ | ⟨f, -, rfl⟩⟩ := lookup_cases taken
    · exact genuine.keep taken' allowed genuine.ready .inl .inl
    · exact genuine.keep taken' allowed genuine.ready .inl .inl
  | publish n =>
    obtain ⟨key, result, f, publishing, -, rfl⟩ := publish_cases taken
    refine genuine.keep taken' allowed ?_ .inl .inl
    intro g key' leads set
    simp only [Function.update_apply] at set ⊢
    split_ifs at set ⊢ with here
    · subst here
      have leads' : s.doing g = .leader key := led.notifying (n := n) (by rw [publishing]; rfl)
      obtain rfl := DoCall.leader.inj (leads.symm.trans leads')
      exact genuine.sent (n := n) (by rw [publishing]; rfl)
    · exact genuine.ready leads set
  | notify n outcome =>
    obtain ⟨key, result, f, c, rest, notifying, rfl⟩ := notify_cases outcome taken
    refine genuine.keep taken' allowed genuine.ready .inl ?_
    intro d result' member
    rcases List.mem_append.mp member with before | now
    · exact .inl before
    · obtain ⟨rfl, rfl⟩ := Prod.mk.inj (List.mem_singleton.mp now)
      obtain ⟨key', waiter⟩ := enrolled.snapshot notifying List.mem_cons_self
      have leads : s.doing f = .leader key := led.notifying (n := n) (by rw [notifying]; rfl)
      have leads' : s.doing f = .leader key' := led.doing (c := d) (by rw [waiter]; rfl)
      obtain rfl := DoCall.leader.inj (leads.symm.trans leads')
      exact .inr ⟨key, by rw [waiter]; rfl, genuine.sent (n := n) (by rw [notifying]; rfl)⟩
  | erase n =>
    obtain ⟨key, result, f, -, rfl⟩ := erase_cases taken
    exact genuine.keep taken' allowed genuine.ready .inl .inl

end FlightProxy.SingleFlight.State
