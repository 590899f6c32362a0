import FlightProxy.SingleFlight.Leadership
import Mathlib.Data.List.Nodup

/-! # Every waiter is served exactly once

A caller enrolled in a flight is served when the flight's own leader runs its snapshot, and a
caller that finds the flight ready is served at once; nobody else is served. Along a disciplined
run away from harmful erases a flight's enrolled callbacks wait, each once, until they are run
with the result its leader published.
-/

namespace FlightProxy.SingleFlight

variable {Call : Type*}

/-- The callbacks a notifier has still to run, given those enrolled in its own flight. -/
def NotifyCall.remaining (callbacks : List Call) : NotifyCall Call → List Call
  | .notifying _ _ _ rest => rest
  | .returned _ _ (some _) => []
  | .idle | .publishing .. | .returned _ _ none => callbacks

/-- The result a notifier published. -/
def NotifyCall.result : NotifyCall Call → Option Bytes
  | .notifying _ result _ _ | .returned _ result (some _) => some result
  | .idle | .publishing .. | .returned _ _ none => none

theorem NotifyCall.remaining_unpublished {m : NotifyCall Call} (unpublished : m.published = false)
    (callbacks : List Call) : m.remaining callbacks = callbacks := by
  cases m with
  | idle | publishing => rfl
  | notifying => contradiction
  | returned key result flight => cases flight <;> first | rfl | contradiction

theorem NotifyCall.published_of_result {m : NotifyCall Call} {result : Bytes}
    (published : m.result = some result) : m.published = true := by
  cases m with
  | idle | publishing => contradiction
  | notifying => rfl
  | returned key result flight => cases flight <;> first | rfl | contradiction

/-- Inside doSingleFlight. -/
def DoCall.running : DoCall Call → Bool
  | .joining .. | .calling .. => true
  | .idle | .leader _ | .waiter .. | .threw .. => false

/-- Returned `IS_LEADER`. -/
def DoCall.led : DoCall Call → Bool
  | .leader _ => true
  | .idle | .joining .. | .calling .. | .waiter .. | .threw .. => false

/-- Inside notifyResult. -/
def NotifyCall.running : NotifyCall Call → Bool
  | .publishing .. | .notifying .. => true
  | .idle | .returned .. => false

namespace State

/-- The callbacks enrolled in a flight that have still to be run. -/
def awaiting (s : State Call) (f : Call) : List Call :=
  (s.notifying f).remaining (s.flight f).callbacks

variable [DecidableEq Call] {s s' : State Call} {c n f : Call} {key result : Bytes}
  {outcome : Outcome}

/-- The results a caller's `on_result` was invoked with, oldest first. -/
def results (s : State Call) (c : Call) : List Bytes :=
  s.invoked.filterMap fun call => if call.1 = c then some call.2 else none

theorem results_append (c d : Call) (result : Bytes) :
    results { s with invoked := s.invoked ++ [(c, result)] } d =
      s.results d ++ if c = d then [result] else [] := by
  simp only [results, List.filterMap_append, List.filterMap_cons, List.filterMap_nil]
  split_ifs <;> rfl

/-- Who has been served, and with what. -/
structure Deliveries (s : State Call) : Prop where
  silent : ∀ {c}, (∀ key f, s.doing c ≠ .waiter key f) → (∀ key f, s.doing c ≠ .threw key f) →
    s.results c = []
  waiter : ∀ {c f}, c ∈ s.awaiting f → ∃ key, s.doing c = .waiter key f
  waiting : ∀ {c f}, c ∈ s.awaiting f → s.results c = []
  served : ∀ {c key f}, s.doing c = .waiter key f → c ∉ s.awaiting f →
    (s.flight f).ready = true ∧ s.results c = [(s.flight f).result]
  calling : ∀ {c key f result}, s.doing c = .calling key f result →
    (s.flight f).ready = true ∧ (s.flight f).result = result
  nodup : ∀ f, (s.awaiting f).Nodup
  published : ∀ {n result}, (s.notifying n).result = some result → (s.flight n).result = result

theorem deliveries_init : (init : State Call).Deliveries := by
  constructor <;> intros <;> first | rfl | contradiction | simp_all [init, awaiting, NotifyCall.remaining]

private theorem doing_update_iff {next target : DoCall Call} (old : s.doing c ≠ target)
    (new : next ≠ target) (d : Call) :
    Function.update s.doing c next d = target ↔ s.doing d = target := by
  rw [Function.update_apply]
  split_ifs with same
  · rw [same]
    exact iff_of_false new old
  · exact Iff.rfl

/-- Steps that serve nobody, enrol nobody and keep what the served callers were served with. -/
private theorem Deliveries.quiet (deliveries : s.Deliveries) (invoked : s'.invoked = s.invoked)
    (waiters : ∀ c key f, s'.doing c = .waiter key f ↔ s.doing c = .waiter key f)
    (threw : ∀ c key f, s'.doing c = .threw key f ↔ s.doing c = .threw key f)
    (awaiting : ∀ f, s'.awaiting f = s.awaiting f)
    (served : ∀ {c key f}, s.doing c = .waiter key f → c ∉ s.awaiting f →
      (s'.flight f).ready = true ∧ (s'.flight f).result = (s.flight f).result)
    (calling : ∀ {c key f result}, s'.doing c = .calling key f result →
      (s'.flight f).ready = true ∧ (s'.flight f).result = result)
    (published : ∀ {n result}, (s'.notifying n).result = some result →
      (s'.flight n).result = result) : s'.Deliveries := by
  have results : ∀ c, s'.results c = s.results c := by
    intro c
    rw [State.results, invoked]
    rfl
  refine ⟨?_, ?_, ?_, ?_, calling, ?_, published⟩
  · intro c notWaiter notThrew
    simp only [ne_eq, waiters, threw] at notWaiter notThrew
    rw [results]
    exact deliveries.silent notWaiter notThrew
  · intro c f waits
    simp only [awaiting, waiters] at waits ⊢
    exact deliveries.waiter waits
  · intro c f waits
    rw [awaiting] at waits
    rw [results]
    exact deliveries.waiting waits
  · intro c key f waiter done
    rw [waiters] at waiter
    rw [awaiting] at done
    rw [results, (served waiter done).2]
    exact ⟨(served waiter done).1, (deliveries.served waiter done).2⟩
  · intro f
    rw [awaiting]
    exact deliveries.nodup f

/-- A notifier of a caller that is not a leader has published nothing. -/
private theorem awaiting_nil (led : s.Led) (deliveries : s.Deliveries)
    (notLeader : ∀ key, s.doing f ≠ .leader key) : s.awaiting f = [] := by
  apply List.eq_nil_iff_forall_not_mem.mpr
  intro c waits
  obtain ⟨key, waiter⟩ := deliveries.waiter waits
  exact notLeader key (led.doing (by rw [waiter]; rfl))

private theorem Deliveries.elect (deliveries : s.Deliveries) (led : s.Led) (owned : s.Owned)
    (taken : s.elect c key = some s') : s'.Deliveries := by
  obtain ⟨idle, ⟨-, rfl⟩ | ⟨f, found, -, rfl⟩⟩ := elect_cases taken
  · have notLeader : ∀ key, s.doing c ≠ .leader key := by simp [idle]
    have unpublished := NotifyCall.unpublished_of_refers (owned.refers_none led idle)
    have other : ∀ {d key f}, (s.doing d).refers = some (key, f) → f ≠ c := by
      rintro d key f refers rfl
      exact notLeader key (led.doing refers)
    refine deliveries.quiet rfl (fun d _ _ => doing_update_iff (by simp [idle]) (by simp) d)
      (fun d _ _ => doing_update_iff (by simp [idle]) (by simp) d) ?_ ?_ ?_ ?_
    · intro f
      by_cases same : f = c
      · rw [same, awaiting_nil led deliveries notLeader]
        simp only [awaiting, lead, Function.update_self]
        exact NotifyCall.remaining_unpublished unpublished _
      · simp only [awaiting, lead, Function.update_of_ne same]
    · intro d key' f waiter done
      simp only [lead, Function.update_of_ne (other (d := d) (by rw [waiter]; rfl)), and_true]
      exact (deliveries.served waiter done).1
    · intro d key' f result calls
      have calls := (doing_update_iff (by simp [idle]) (by simp) d).mp calls
      simp only [lead, Function.update_of_ne (other (d := d) (by rw [calls]; rfl))]
      exact deliveries.calling calls
    · intro n result published
      have distinct : n ≠ c := by
        rintro rfl
        exact Bool.false_ne_true (unpublished.symm.trans (NotifyCall.published_of_result published))
      simp only [lead, Function.update_of_ne distinct]
      exact deliveries.published published
  · refine deliveries.quiet rfl (fun d _ _ => doing_update_iff (by simp [idle]) (by simp) d)
      (fun d _ _ => doing_update_iff (by simp [idle]) (by simp) d) (fun _ => rfl)
      (fun waiter done => ⟨(deliveries.served waiter done).1, rfl⟩) ?_ deliveries.published
    intro d key' f result calls
    exact deliveries.calling ((doing_update_iff (by simp [idle]) (by simp) d).mp calls)

private theorem Deliveries.join (deliveries : s.Deliveries) (owned : s.Owned)
    (taken : s.join c = some s') : s'.Deliveries := by
  obtain ⟨key, f, joining, -, ⟨ready, rfl⟩ | ⟨unready, rfl⟩⟩ := join_cases taken
  · refine deliveries.quiet rfl (fun d _ _ => doing_update_iff (by simp [joining]) (by simp) d)
      (fun d _ _ => doing_update_iff (by simp [joining]) (by simp) d) ?_ ?_ ?_ ?_
    · intro g
      simp only [awaiting, callbacks_acquire]
    · intro d key' g waiter done
      simp only [ready_acquire, result_acquire, and_true]
      exact (deliveries.served waiter done).1
    · intro d key' g result calls
      simp only [ready_acquire, result_acquire]
      simp only [Function.update_apply] at calls
      split_ifs at calls
      · obtain ⟨-, rfl, rfl⟩ := DoCall.calling.inj calls
        exact ⟨ready, rfl⟩
      · exact deliveries.calling calls
    · intro n result published
      simp only [result_acquire]
      exact deliveries.published published
  · have unpublished : (s.notifying f).published = false := by
      by_contra published
      rw [owned.ready (eq_true_of_ne_false published)] at unready
      contradiction
    have fresh : ∀ {g}, c ∉ s.awaiting g := by
      intro g waits
      obtain ⟨key', waiter⟩ := deliveries.waiter waits
      rw [joining] at waiter
      contradiction
    have unserved : s.results c = [] := deliveries.silent (by simp [joining]) (by simp [joining])
    have enrolled : ∀ g, awaiting { s with
        flight := Function.update s.flight f ((s.flight f).enrol c)
        doing := Function.update s.doing c (.waiter key f) } g =
          if g = f then s.awaiting f ++ [c] else s.awaiting g := by
      intro g
      simp only [awaiting, Function.update_apply]
      split_ifs with same
      · simp only [same, NotifyCall.remaining_unpublished unpublished, Flight.enrol]
      · rfl
    refine ⟨?_, ?_, ?_, ?_, ?_, ?_, ?_⟩
    · intro d notWaiter notThrew
      simp only [Function.update_apply] at notWaiter notThrew
      split_ifs at notWaiter notThrew
      · exact absurd rfl (notWaiter key f)
      · exact deliveries.silent notWaiter notThrew
    · intro d g waits
      rw [enrolled] at waits
      split_ifs at waits with here
      · rcases List.mem_append.mp waits with before | new
        · obtain ⟨key', waiter⟩ := deliveries.waiter before
          have other : d ≠ c := by rintro rfl; exact fresh before
          exact ⟨key', by simp only [Function.update_of_ne other, here, waiter]⟩
        · rw [List.mem_singleton.mp new, here]
          exact ⟨key, Function.update_self ..⟩
      · obtain ⟨key', waiter⟩ := deliveries.waiter waits
        have other : d ≠ c := by rintro rfl; exact fresh waits
        exact ⟨key', by simp only [Function.update_of_ne other, waiter]⟩
    · intro d g waits
      rw [enrolled] at waits
      split_ifs at waits
      · rcases List.mem_append.mp waits with before | new
        · exact deliveries.waiting before
        · rw [List.mem_singleton.mp new]
          exact unserved
      · exact deliveries.waiting waits
    · intro d key' g waiter done
      simp only [ready_enrol, result_enrol]
      rw [enrolled] at done
      by_cases here : d = c
      · simp only [here, Function.update_self, DoCall.waiter.injEq] at waiter
        rw [if_pos waiter.2.symm, here] at done
        exact absurd (List.mem_append_right _ (List.mem_singleton_self c)) done
      · simp only [Function.update_of_ne here] at waiter
        refine deliveries.served waiter fun before => done ?_
        split_ifs with same
        · rw [same] at before
          exact List.mem_append_left _ before
        · exact before
    · intro d key' g result calls
      simp only [ready_enrol, result_enrol]
      exact deliveries.calling ((doing_update_iff (by simp [joining]) (by simp) d).mp calls)
    · intro g
      rw [enrolled]
      split_ifs
      · exact List.Nodup.append (deliveries.nodup f) (List.nodup_singleton c)
          (List.disjoint_singleton.mpr fresh)
      · exact deliveries.nodup g
    · intro n result published
      simp only [result_enrol]
      exact deliveries.published published

private theorem Deliveries.call_back (deliveries : s.Deliveries)
    (taken : s.call_back c outcome = some s') : s'.Deliveries := by
  obtain ⟨key, f, result, calling, rfl⟩ := call_back_cases taken
  have unserved : s.results c = [] := deliveries.silent (by simp [calling]) (by simp [calling])
  have other : ∀ {d g}, d ∈ s.awaiting g → d ≠ c := by
    rintro d g waits rfl
    obtain ⟨key', waiter⟩ := deliveries.waiter waits
    rw [calling] at waiter
    contradiction
  have results : ∀ {d}, d ≠ c → State.results { s with
      flight := Function.update s.flight f (s.flight f).release
      doing := Function.update s.doing c (.after key f outcome)
      invoked := s.invoked ++ [(c, result)] } d = s.results d := by
    intro d distinct
    refine (results_append c d result).trans ?_
    rw [if_neg distinct.symm, List.append_nil]
  have awaiting : ∀ g, State.awaiting { s with
      flight := Function.update s.flight f (s.flight f).release
      doing := Function.update s.doing c (.after key f outcome)
      invoked := s.invoked ++ [(c, result)] } g = s.awaiting g := by
    intro g
    simp only [State.awaiting, callbacks_release]
  refine ⟨?_, ?_, ?_, ?_, ?_, ?_, ?_⟩
  · intro d notWaiter notThrew
    have distinct : d ≠ c := by
      rintro rfl
      simp only [Function.update_self] at notWaiter notThrew
      cases outcome
      · exact notWaiter key f rfl
      · exact notThrew key f rfl
    simp only [Function.update_of_ne distinct] at notWaiter notThrew
    rw [results distinct]
    exact deliveries.silent notWaiter notThrew
  · intro d g waits
    rw [awaiting] at waits
    simp only [Function.update_of_ne (other waits)]
    exact deliveries.waiter waits
  · intro d g waits
    rw [awaiting] at waits
    rw [results (other waits)]
    exact deliveries.waiting waits
  · intro d key' g waiter done
    rw [awaiting] at done
    simp only [ready_release, result_release]
    by_cases here : d = c
    · simp only [here, Function.update_self] at waiter
      obtain rfl : f = g := by
        have refers := DoCall.refers_after key f outcome
        rw [waiter] at refers
        exact (Prod.mk.inj (Option.some.inj refers)).2.symm
      refine ⟨(deliveries.calling calling).1, (results_append c d result).trans ?_⟩
      rw [if_pos here.symm, here, unserved, (deliveries.calling calling).2, List.nil_append]
    · simp only [Function.update_of_ne here] at waiter
      rw [results here]
      exact deliveries.served waiter done
  · intro d key' g result' calls
    simp only [ready_release, result_release]
    simp only [Function.update_apply] at calls
    split_ifs at calls
    · cases outcome <;> contradiction
    · exact deliveries.calling calls
  · intro g
    rw [awaiting]
    exact deliveries.nodup g
  · intro n result' published
    simp only [result_release]
    exact deliveries.published published

/-- Notifier steps that run no callback: what is enrolled, awaited and served stays as it is. -/
private theorem Deliveries.notifier (deliveries : s.Deliveries) {next : NotifyCall Call}
    (flights : Bytes → Option Call)
    (remaining : next.remaining (s.flight n).callbacks = s.awaiting n)
    (published : ∀ {result}, next.result = some result → (s.flight n).result = result) :
    Deliveries { s with flights_ := flights
                        notifying := Function.update s.notifying n next } := by
  refine deliveries.quiet rfl (fun _ _ _ => Iff.rfl) (fun _ _ _ => Iff.rfl) ?_
    (fun waiter done => ⟨(deliveries.served waiter done).1, rfl⟩) deliveries.calling ?_
  · intro g
    simp only [awaiting, Function.update_apply]
    split_ifs with same
    · rw [same, remaining]
      rfl
    · rfl
  · intro m result holds
    simp only [Function.update_apply] at holds
    split_ifs at holds with same
    · rw [same]
      exact published holds
    · exact deliveries.published holds

private theorem Deliveries.lookup (deliveries : s.Deliveries)
    (taken : s.lookup n key result = some s') : s'.Deliveries := by
  obtain ⟨idle, ⟨-, rfl⟩ | ⟨f, -, rfl⟩⟩ := lookup_cases taken
  · refine deliveries.notifier s.flights_ ?_ (by simp [NotifyCall.result])
    rw [awaiting, idle]
    rfl
  · refine deliveries.notifier s.flights_ ?_ (by simp [NotifyCall.result])
    rw [awaiting, idle]
    rfl

/-- Publishing turns the enrolled callbacks into the snapshot and serves nobody yet. -/
private theorem Deliveries.publish (deliveries : s.Deliveries) (owned : s.Owned) (led : s.Led)
    (taken : s.publish n = some s') : s'.Deliveries := by
  obtain ⟨key, result, f, publishing, -, rfl⟩ := publish_cases taken
  have refers : (s.notifying n).refers = some (key, f) := by rw [publishing]; rfl
  obtain rfl := owned.own refers
  have unready : (s.flight f).ready = false :=
    owned.unready (led.notifying refers) (by rw [publishing]; rfl)
  refine deliveries.quiet rfl (fun _ _ _ => Iff.rfl) (fun _ _ _ => Iff.rfl) ?_ ?_ ?_ ?_
  · intro g
    simp only [awaiting, Function.update_apply]
    split_ifs with same
    · rw [same, publishing]
      rfl
    · rfl
  · intro c key' g waiter done
    have ready := (deliveries.served waiter done).1
    have other : g ≠ f := by
      rintro rfl
      rw [unready] at ready
      contradiction
    simp only [Function.update_of_ne other]
    exact ⟨ready, trivial⟩
  · intro c key' g result' calls
    have calling := deliveries.calling calls
    have other : g ≠ f := by
      rintro rfl
      rw [unready] at calling
      exact Bool.false_ne_true calling.1
    simp only [Function.update_of_ne other]
    exact calling
  · intro m result' published
    simp only [Function.update_apply] at published ⊢
    split_ifs at published ⊢
    · exact Option.some.inj published
    · exact deliveries.published published

/-- One turn of the loop serves the next caller of the snapshot, and only that one. -/
private theorem Deliveries.notify (deliveries : s.Deliveries) (owned : s.Owned) (outcome : Outcome)
    (taken : s.notify n outcome = some s') : s'.Deliveries := by
  obtain ⟨key, result, f, c, rest, notifying, rfl⟩ := notify_cases outcome taken
  have refers : (s.notifying n).refers = some (key, f) := by rw [notifying]; rfl
  obtain rfl := owned.own refers
  have snapshot : s.awaiting f = c :: rest := by
    rw [awaiting, notifying]
    rfl
  have waits : c ∈ s.awaiting f := by rw [snapshot]; exact List.mem_cons_self
  have once : c ∉ rest ∧ rest.Nodup := by
    rw [← List.nodup_cons, ← snapshot]
    exact deliveries.nodup f
  obtain ⟨key', waiter⟩ := deliveries.waiter waits
  have ready : (s.flight f).ready = true := owned.ready (by rw [notifying]; rfl)
  have published : (s.flight f).result = result := deliveries.published (by rw [notifying]; rfl)
  have results : ∀ d, State.results { s with
      notifying := Function.update s.notifying f (.notifying key result f rest)
      invoked := s.invoked ++ [(c, result)] } d = s.results d ++ if c = d then [result] else [] :=
    fun d => results_append c d result
  have awaiting : ∀ g, State.awaiting { s with
      notifying := Function.update s.notifying f (.notifying key result f rest)
      invoked := s.invoked ++ [(c, result)] } g = if g = f then rest else s.awaiting g := by
    intro g
    simp only [State.awaiting, Function.update_apply]
    split_ifs <;> rfl
  have still : ∀ {d g}, d ∈ (if g = f then rest else s.awaiting g) → d ≠ c ∧ d ∈ s.awaiting g := by
    intro d g waits'
    split_ifs at waits' with same
    · refine ⟨?_, by rw [same, snapshot]; exact List.mem_cons_of_mem _ waits'⟩
      rintro rfl
      exact once.1 waits'
    · refine ⟨?_, waits'⟩
      rintro rfl
      obtain ⟨key'', waiter'⟩ := deliveries.waiter waits'
      exact same (DoCall.waiter.inj (waiter'.symm.trans waiter)).2
  refine ⟨?_, ?_, ?_, ?_, deliveries.calling, ?_, ?_⟩
  · intro d notWaiter notThrew
    have other : c ≠ d := by
      rintro rfl
      exact notWaiter _ _ waiter
    rw [results, if_neg other, List.append_nil]
    exact deliveries.silent notWaiter notThrew
  · intro d g waits'
    rw [awaiting] at waits'
    exact deliveries.waiter (still waits').2
  · intro d g waits'
    rw [awaiting] at waits'
    rw [results, if_neg (still waits').1.symm, List.append_nil]
    exact deliveries.waiting (still waits').2
  · intro d key'' g waiter' done
    rw [awaiting] at done
    rw [results]
    by_cases here : c = d
    · obtain rfl := here
      obtain rfl : g = f := (DoCall.waiter.inj (waiter'.symm.trans waiter)).2
      rw [if_pos rfl, deliveries.waiting waits, published]
      exact ⟨ready, rfl⟩
    · rw [if_neg here, List.append_nil]
      refine deliveries.served waiter' fun before => done ?_
      split_ifs with same
      · rw [same, snapshot] at before
        exact (List.mem_cons.mp before).resolve_left (Ne.symm here)
      · exact before
  · intro g
    rw [awaiting]
    split_ifs
    · exact once.2
    · exact deliveries.nodup g
  · intro m result' holds
    simp only [Function.update_apply] at holds
    split_ifs at holds with same
    · rw [same, published]
      exact Option.some.inj holds
    · exact deliveries.published holds

/-- Every step keeps the account of who has been served. -/
theorem Deliveries.step {e : Event Call} (deliveries : s.Deliveries) (led : s.Led) (owned : s.Owned)
    (taken : s.step? e = some s') : s'.Deliveries := by
  cases e with
  | elect c key => exact deliveries.elect led owned taken
  | join c => exact deliveries.join owned taken
  | call_back c outcome => exact deliveries.call_back taken
  | lookup n key result => exact deliveries.lookup taken
  | publish n => exact deliveries.publish owned led taken
  | notify n outcome => exact deliveries.notify owned outcome taken
  | erase n =>
    obtain ⟨key, result, f, notifying, rfl⟩ := erase_cases taken
    refine deliveries.notifier _ ?_ fun published => deliveries.published (n := n) ?_
    · rw [awaiting, notifying]
      rfl
    · rw [notifying]
      exact published

/-- No call is running and every caller that was told `IS_LEADER` has notified. -/
structure Settled (s : State Call) : Prop where
  doing : ∀ c, (s.doing c).running = false
  notifying : ∀ n, (s.notifying n).running = false
  leader : ∀ c, (s.doing c).led = true → s.notifying c ≠ .idle

/-- Each `IS_WAITER` caller's callback ran exactly once, with the result of the leader whose flight
it joined, and no `IS_LEADER` caller's callback ran. -/
structure Delivered (s : State Call) : Prop where
  waiter : ∀ c key f, s.doing c = .waiter key f →
    ∃ result found, s.notifying f = .returned key result found ∧ s.results c = [result]
  leader : ∀ c key, s.doing c = .leader key → s.results c = []

end State

open State

variable [DecidableEq Call] {es : List (Event Call)} {s : State Call}

theorem deliveries_of_run
    (run : Transition.Path step? (fun s e => s.Disciplined e ∧ s.Harmless e) .init es s) :
    s.Deliveries := by
  refine (run.preserves (I := fun s => (s.Led ∧ s.Owned) ∧ s.Deliveries)
    ⟨⟨led_init, owned_init⟩, deliveries_init⟩ ?_).2
  rintro s e s' ⟨⟨led, owned⟩, deliveries⟩ ⟨disciplined, harmless⟩ taken
  exact ⟨⟨led.step taken, owned.step led disciplined harmless taken⟩,
    deliveries.step led owned taken⟩

/-- When no final erase hits an unready flight, every waiter of a settled run has been served exactly
once with its own leader's result, whatever other callbacks throw, and no leader has been called. -/
theorem delivered_of_settled
    (run : Transition.Path step? (fun s e => s.Disciplined e ∧ s.Harmless e) .init es s)
    (settled : s.Settled) : s.Delivered := by
  obtain ⟨led, owned⟩ := invariants_of_run run
  have deliveries := deliveries_of_run run
  refine ⟨?_, ?_⟩
  · intro c key f waiter
    have leads := led.doing (c := c) (by rw [waiter]; rfl)
    have started := settled.leader f (by rw [leads]; rfl)
    have stopped := settled.notifying f
    cases notifier : s.notifying f with
    | idle => exact absurd notifier started
    | publishing | notifying =>
      rw [notifier] at stopped
      contradiction
    | returned key' result found =>
      cases found with
      | none => exact absurd notifier owned.found
      | some g =>
        have refers : (s.notifying f).refers = some (key', g) := by rw [notifier]; rfl
        obtain rfl := owned.own refers
        obtain rfl := DoCall.leader.inj ((led.notifying refers).symm.trans leads)
        have nobody : c ∉ s.awaiting g := by
          rw [awaiting, notifier]
          exact List.not_mem_nil
        refine ⟨result, some g, rfl, ?_⟩
        rw [(deliveries.served waiter nobody).2, deliveries.published (by rw [notifier]; rfl)]
  · intro c key leads
    exact deliveries.silent (by simp [leads]) (by simp [leads])

/-- A waiter joins the flight that replaced a published one; the erase of the first notifier then
removes that flight, and its leader finds nothing to notify. -/
def lostWaiter : List (Event (Fin 3)) :=
  [.elect 0 [0x71], .lookup 0 [0x71] [0x61], .publish 0, .elect 1 [0x71], .elect 2 [0x71], .join 2,
    .erase 0, .lookup 1 [0x71] [0x62]]

/-- After `lostWaiter` every call has returned and the third caller was never served. -/
theorem not_delivered_of_settled :
    ¬ ∀ (es : List (Event (Fin 3))) (s : State (Fin 3)),
      Transition.Path step? Disciplined .init es s → s.Settled → s.Delivered := by
  intro delivered
  have run : ∃ s : State (Fin 3), Transition.Path step? Disciplined .init lostWaiter s ∧
      s.Settled ∧ s.doing 2 = .waiter [0x71] 1 ∧ s.results 2 = [] := by
    exact ⟨_, .cons trivial rfl (.cons rfl rfl (.cons trivial rfl (.cons trivial rfl
      (.cons trivial rfl (.cons trivial rfl (.cons trivial rfl (.cons rfl rfl (.nil _)))))))),
      ⟨by decide, by decide, by decide⟩, rfl, rfl⟩
  obtain ⟨s, path, settled, waiter, unserved⟩ := run
  obtain ⟨result, found, -, served⟩ := (delivered _ s path settled).waiter _ _ _ waiter
  rw [unserved] at served
  contradiction

/-- One leader, one enrolled waiter and one that finds the flight ready, each served once. -/
def twoWaiters : List (Event (Fin 3)) :=
  [.elect 0 [0x71], .elect 1 [0x71], .elect 2 [0x71], .join 1, .lookup 0 [0x71] [0x61], .publish 0,
    .join 2, .call_back 2 .returned, .notify 0 .threw, .erase 0]

theorem delivered_of_settled_run : ∃ s : State (Fin 3),
    Transition.replay step? .init twoWaiters = some s ∧ s.Delivered ∧
      s.results 1 = [[0x61]] ∧ s.results 2 = [[0x61]] := by
  have run : ∃ s : State (Fin 3), Transition.Path step?
      (fun s e => s.Disciplined e ∧ s.Harmless e) .init twoWaiters s ∧ s.Settled ∧
      Transition.replay step? .init twoWaiters = some s ∧
      s.results 1 = [[0x61]] ∧ s.results 2 = [[0x61]] := by
    refine ⟨_, .cons ⟨trivial, trivial⟩ rfl (.cons ⟨trivial, trivial⟩ rfl
      (.cons ⟨trivial, trivial⟩ rfl (.cons ⟨trivial, trivial⟩ rfl (.cons ⟨rfl, trivial⟩ rfl
      (.cons ⟨trivial, trivial⟩ rfl (.cons ⟨trivial, trivial⟩ rfl (.cons ⟨trivial, trivial⟩ rfl
      (.cons ⟨trivial, trivial⟩ rfl (.cons ⟨trivial, ?_⟩ rfl (.nil _)))))))))),
      ⟨by decide, by decide, by decide⟩, rfl, by decide, by decide⟩
    intro key result g notifying f found
    cases notifying
    cases found
    rfl
  obtain ⟨s, path, settled, replayed, first, second⟩ := run
  exact ⟨s, replayed, delivered_of_settled path settled, first, second⟩

end FlightProxy.SingleFlight
