import FlightProxy.SingleFlight.Callbacks
import FlightProxy.SingleFlight.Leadership

/-! # Keys do not interfere

What a run does under one key is a run of its own: the calls of other keys can be deleted from it.
The view of a state under a key keeps the entry of the key, the calls made under it and the flights
that they refer to; a step of a call under the key is the same step of the view, and any other step
leaves the view alone.
-/

namespace FlightProxy.SingleFlight

open Transition

variable {Call : Type*}

/-- The key of a notifyResult call. -/
def NotifyCall.key (m : NotifyCall Call) : Option Bytes := m.sends.map Prod.fst

def DoCall.under (key : Bytes) (d : DoCall Call) : DoCall Call :=
  if d.key = some key then d else .idle

def NotifyCall.under (key : Bytes) (m : NotifyCall Call) : NotifyCall Call :=
  if m.key = some key then m else .idle

theorem DoCall.under_of_key {key : Bytes} {d : DoCall Call} (same : d.key = some key) :
    d.under key = d := if_pos same

theorem DoCall.under_of_other {key : Bytes} {d : DoCall Call} (other : d.key ≠ some key) :
    d.under key = .idle := if_neg other

theorem NotifyCall.under_of_key {key : Bytes} {m : NotifyCall Call} (same : m.key = some key) :
    m.under key = m := if_pos same

theorem NotifyCall.under_of_other {key : Bytes} {m : NotifyCall Call} (other : m.key ≠ some key) :
    m.under key = .idle := if_neg other

namespace State

variable [DecidableEq Call]

/-- The step belongs to a call under the key. -/
def concerns (s : State Call) (key : Bytes) : Event Call → Bool
  | .elect _ key' | .lookup _ key' _ => key' = key
  | .join c | .call_back c _ => (s.doing c).key = some key
  | .publish n | .notify n _ | .erase n => (s.notifying n).key = some key

/-- What a state holds under a key. -/
def under (s : State Call) (key : Bytes) : State Call where
  flights_ key' := if key' = key then s.flights_ key' else none
  flight f := if s.doing f = .leader key then s.flight f else {}
  doing c := (s.doing c).under key
  notifying n := (s.notifying n).under key
  invoked := s.invoked.filter fun call => (s.doing call.1).key = some key

variable {s s' t : State Call} {key key' result : Bytes} {c n f : Call} {e : Event Call}

theorem under_init : (init : State Call).under key = init := by
  simp only [under, init, ite_self, List.filter_nil, mk.injEq, true_and, and_true]
  exact ⟨rfl, rfl, rfl⟩

/-! ## The parts of the view after a step -/

private theorem doing_under {next : DoCall Call} (d : Call) :
    (Function.update s.doing c next d).under key =
      Function.update (fun d => (s.doing d).under key) c (next.under key) d := by
  simp only [Function.update_apply]
  split_ifs <;> rfl

private theorem notifying_under {next : NotifyCall Call} (m : Call) :
    (Function.update s.notifying n next m).under key =
      Function.update (fun m => (s.notifying m).under key) n (next.under key) m := by
  simp only [Function.update_apply]
  split_ifs <;> rfl

/-- A flight in view changes there too. -/
private theorem flight_under (leads : s.doing f = .leader key) (next : Flight Call)
    {doing : Call → DoCall Call} (same : ∀ g, doing g = .leader key ↔ s.doing g = .leader key) :
    (fun g => if doing g = .leader key then Function.update s.flight f next g else {}) =
      Function.update (s.under key).flight f next := by
  funext g
  simp only [same, under, Function.update_apply]
  by_cases here : g = f
  · subst here
    simp only [leads, ↓reduceIte]
  · simp only [here, ↓reduceIte]

/-- A flight of another key is out of view. -/
private theorem flight_under_other (leads : s.doing f = .leader key') (distinct : key' ≠ key)
    (next : Flight Call) {doing : Call → DoCall Call}
    (same : ∀ g, doing g = .leader key ↔ s.doing g = .leader key) :
    (fun g => if doing g = .leader key then Function.update s.flight f next g else {}) =
      (s.under key).flight := by
  funext g
  simp only [same, under]
  split_ifs with leader
  · rw [Function.update_of_ne]
    rintro rfl
    rw [leads] at leader
    exact distinct (DoCall.leader.inj leader)
  · rfl

/-- Callbacks run so far belong to calls that are done, and stay in view. -/
private theorem invoked_under (key : Bytes) (enrolled : s.Enrolled) (taken : s.step? e = some s') :
    s.invoked.filter (fun call => (s'.doing call.1).key = some key) = (s.under key).invoked := by
  refine List.filter_congr fun call member => ?_
  have here : (call.1, call.2) ∈ s.invoked := member
  obtain ⟨f, key', at_ | at_⟩ := enrolled.invoked here
  · rw [doing_of_done (by rw [at_]; rfl) taken]
  · rw [doing_of_done (by rw [at_]; rfl) taken]

/-- A call that is not a leader, and does not become one, leaves the leaders alone. -/
private theorem leaders_update {next : DoCall Call} (before : ∀ key, s.doing c ≠ .leader key)
    (after : ∀ key, next ≠ .leader key) (g : Call) :
    Function.update s.doing c next g = .leader key ↔ s.doing g = .leader key := by
  rw [Function.update_apply]
  split_ifs with same
  · rw [same]
    exact iff_of_false (after key) (before key)
  · exact Iff.rfl

/-! ## Steps in view -/

/-- The parts of a view, one by one. -/
private theorem under_eq {u : State Call}
    (flights_ : ∀ key', u.flights_ key' = if key' = key then s.flights_ key' else none)
    (flight : ∀ f, u.flight f = if s.doing f = .leader key then s.flight f else {})
    (doing : ∀ c, u.doing c = (s.doing c).under key)
    (notifying : ∀ n, u.notifying n = (s.notifying n).under key)
    (invoked : u.invoked = s.invoked.filter fun call => (s.doing call.1).key = some key) :
    u = s.under key := by
  obtain ⟨flights_', flight', doing', notifying', invoked'⟩ := u
  simp only [under, mk.injEq]
  exact ⟨funext flights_, funext flight, funext doing, funext notifying, invoked⟩

private theorem under_lead (enrolled : s.Enrolled) (taken : s.elect c key = some s')
    (led : s' = s.lead c key) : (s.under key).lead c key = s'.under key := by
  have kept := invoked_under key enrolled (e := .elect c key) taken
  subst led
  refine under_eq ?_ ?_ ?_ (fun _ => rfl) kept.symm
  · intro key'
    simp only [lead, under, Function.update_apply]
    split_ifs <;> rfl
  · intro g
    simp only [lead, under, Function.update_apply]
    split_ifs <;> rfl
  · intro d
    change _ = (Function.update s.doing c (.leader key) d).under key
    rw [doing_under, DoCall.under_of_key rfl]
    rfl

private theorem under_elect (led : s.Led) (enrolled : s.Enrolled) (taken : s.elect c key = some s') :
    (s.under key).elect c key = some (s'.under key) := by
  have elected := taken
  have kept := invoked_under key enrolled (e := .elect c key) taken
  have entry : (s.under key).flights_ key = s.flights_ key := if_pos rfl
  unfold elect at taken ⊢
  split_ifs at taken with idle
  have idle' : (s.under key).doing c = .idle := by
    simp [under, idle, DoCall.under]
  rw [if_pos idle', entry]
  split at taken
  · next f found =>
    have viewed : (s.under key).flight f = s.flight f := if_pos (led.entry found)
    split_ifs at taken with free ready
    · simp only [viewed, free, ready, ↓reduceIte]
      rw [under_lead enrolled elected (Option.some.inj taken).symm]
    · obtain rfl := Option.some.inj taken
      simp only [viewed, free, ready, ↓reduceIte, Bool.false_eq_true, Option.some.injEq]
      refine under_eq (fun _ => rfl) ?_ ?_ (fun _ => rfl) kept.symm
      · intro g
        have same : Function.update s.doing c (.joining key f) g = .leader key ↔
            s.doing g = .leader key := leaders_update (by simp [idle]) (by simp) g
        simp only [under, same]
      · intro d
        rw [doing_under, DoCall.under_of_key rfl]
        rfl
  · next absent =>
    rw [under_lead enrolled elected (Option.some.inj taken).symm]

private theorem under_join (led : s.Led) (enrolled : s.Enrolled) (taken : s.join c = some s')
    (joined : (s.doing c).key = some key) : (s.under key).join c = some (s'.under key) := by
  have kept := invoked_under key enrolled (e := .join c) taken
  obtain ⟨key', f, joining, free, rest⟩ := join_cases taken
  rw [joining] at joined
  obtain rfl := Option.some.inj joined
  have leads : s.doing f = .leader key' := led.doing (c := c) (by rw [joining]; rfl)
  have viewed : (s.under key').flight f = s.flight f := if_pos leads
  have joining' : (s.under key').doing c = .joining key' f := by
    simp [under, joining, DoCall.under, DoCall.key]
  rcases rest with ⟨ready, rfl⟩ | ⟨unready, rfl⟩
  · simp only [join, joining', viewed, free, ready, ↓reduceIte, Option.some.injEq]
    refine under_eq (fun _ => rfl) ?_ ?_ (fun _ => rfl) kept.symm
    · exact fun g => (congrFun (flight_under leads ((s.flight f).acquire c)
        (leaders_update (by simp [joining]) (by simp))) g).symm
    · intro d
      rw [doing_under, DoCall.under_of_key rfl]
      rfl
  · simp only [join, joining', viewed, free, unready, ↓reduceIte, Bool.false_eq_true,
      Option.some.injEq]
    refine under_eq (fun _ => rfl) ?_ ?_ (fun _ => rfl) kept.symm
    · exact fun g => (congrFun (flight_under leads ((s.flight f).enrol c)
        (leaders_update (by simp [joining]) (by simp))) g).symm
    · intro d
      rw [doing_under, DoCall.under_of_key rfl]
      rfl

private theorem under_call_back (led : s.Led) (enrolled : s.Enrolled) {outcome : Outcome}
    (taken : s.call_back c outcome = some s') (joined : (s.doing c).key = some key) :
    (s.under key).call_back c outcome = some (s'.under key) := by
  have kept := invoked_under key enrolled (e := .call_back c outcome) taken
  obtain ⟨key', f, result, calling, rfl⟩ := call_back_cases taken
  rw [calling] at joined
  obtain rfl := Option.some.inj joined
  have leads : s.doing f = .leader key' := led.doing (c := c) (by rw [calling]; rfl)
  have viewed : (s.under key').flight f = s.flight f := if_pos leads
  have calling' : (s.under key').doing c = .calling key' f result := by
    simp [under, calling, DoCall.under, DoCall.key]
  have after : (DoCall.after key' f outcome).key = some key' := by
    cases outcome <;> rfl
  simp only [call_back, calling', viewed, Option.some.injEq]
  refine under_eq (fun _ => rfl) ?_ ?_ (fun _ => rfl) ?_
  · refine fun g => (congrFun (flight_under leads (s.flight f).release
      (leaders_update (by simp [calling]) ?_)) g).symm
    exact fun _ => DoCall.refers_ne_leader (DoCall.refers_after ..)
  · intro d
    rw [doing_under, DoCall.under_of_key after]
    rfl
  · simp only [List.filter_append, kept]
    simp [after]

private theorem under_lookup (taken : s.lookup n key result = some s') :
    (s.under key).lookup n key result = some (s'.under key) := by
  have entry : (s.under key).flights_ key = s.flights_ key := if_pos rfl
  obtain ⟨idle, rest⟩ := lookup_cases taken
  have idle' : (s.under key).notifying n = .idle := by
    simp [under, idle, NotifyCall.under]
  rcases rest with ⟨absent, rfl⟩ | ⟨f, found, rfl⟩
  · simp only [lookup, idle', entry, absent, ↓reduceIte, Option.some.injEq]
    refine under_eq (fun _ => rfl) (fun _ => rfl) (fun _ => rfl) (fun m => ?_) rfl
    rw [notifying_under, NotifyCall.under_of_key rfl]
    rfl
  · simp only [lookup, idle', entry, found, ↓reduceIte, Option.some.injEq]
    refine under_eq (fun _ => rfl) (fun _ => rfl) (fun _ => rfl) (fun m => ?_) rfl
    rw [notifying_under, NotifyCall.under_of_key rfl]
    rfl

private theorem under_publish (led : s.Led) (taken : s.publish n = some s')
    (sent : (s.notifying n).key = some key) : (s.under key).publish n = some (s'.under key) := by
  obtain ⟨key', result, f, publishing, free, rfl⟩ := publish_cases taken
  rw [publishing] at sent
  obtain rfl := Option.some.inj sent
  have leads : s.doing f = .leader key' := led.notifying (n := n) (by rw [publishing]; rfl)
  have viewed : (s.under key').flight f = s.flight f := if_pos leads
  have publishing' : (s.under key').notifying n = .publishing key' result f := by
    simp [under, publishing, NotifyCall.under, NotifyCall.key, NotifyCall.sends]
  simp only [publish, publishing', viewed, free, ↓reduceIte, Option.some.injEq]
  refine under_eq (fun _ => rfl) ?_ (fun _ => rfl) ?_ rfl
  · exact fun g => (congrFun (flight_under leads ((s.flight f).resolve result) fun _ => Iff.rfl) g).symm
  · intro m
    rw [notifying_under, NotifyCall.under_of_key rfl]
    rfl

omit [DecidableEq Call] in
/-- Who is called back waits on the key that is notified. -/
private theorem key_of_snapshot {c : Call} {rest : List Call} {key result : Bytes} {f : Call}
    (led : s.Led) (enrolled : s.Enrolled)
    (notifying : s.notifying n = .notifying key result f (c :: rest)) :
    (s.doing c).key = some key := by
  obtain ⟨key', waiter⟩ := enrolled.snapshot notifying List.mem_cons_self
  have leads := led.doing (c := c) (by rw [waiter]; rfl)
  rw [led.notifying (n := n) (by rw [notifying]; rfl)] at leads
  rw [waiter, DoCall.leader.inj leads]
  rfl

private theorem under_notify (led : s.Led) (enrolled : s.Enrolled) (outcome : Outcome)
    (taken : s.notify n outcome = some s') (sent : (s.notifying n).key = some key) :
    (s.under key).notify n outcome = some (s'.under key) := by
  obtain ⟨key', result, f, c, rest, notifying, rfl⟩ := notify_cases outcome taken
  rw [notifying] at sent
  obtain rfl := Option.some.inj sent
  have notifying' : (s.under key').notifying n = .notifying key' result f (c :: rest) := by
    simp [under, notifying, NotifyCall.under, NotifyCall.key, NotifyCall.sends]
  have called := key_of_snapshot led enrolled notifying
  simp only [notify, notifying', Option.some.injEq]
  refine under_eq (fun _ => rfl) (fun _ => rfl) (fun _ => rfl) (fun m => ?_) ?_
  · rw [notifying_under, NotifyCall.under_of_key rfl]
    rfl
  · simp only [List.filter_append, under]
    simp [called]

private theorem under_erase (taken : s.erase n = some s') (sent : (s.notifying n).key = some key) :
    (s.under key).erase n = some (s'.under key) := by
  obtain ⟨key', result, f, notifying, rfl⟩ := erase_cases taken
  rw [notifying] at sent
  obtain rfl := Option.some.inj sent
  have notifying' : (s.under key').notifying n = .notifying key' result f [] := by
    simp [under, notifying, NotifyCall.under, NotifyCall.key, NotifyCall.sends]
  simp only [erase, notifying', Option.some.injEq]
  refine under_eq (fun key => ?_) (fun _ => rfl) (fun _ => rfl) (fun m => ?_) rfl
  · simp only [under, Function.update_apply]
    split_ifs <;> rfl
  · rw [notifying_under, NotifyCall.under_of_key rfl]
    rfl

/-! ## Steps out of view -/

private theorem doing_under_other {next : DoCall Call} (before : (s.doing c).key ≠ some key)
    (after : next.key ≠ some key) (d : Call) :
    (s.doing d).under key = (Function.update s.doing c next d).under key := by
  rw [Function.update_apply]
  split_ifs with same
  · rw [same, DoCall.under_of_other before, DoCall.under_of_other after]
  · rfl

private theorem notifying_under_other {next : NotifyCall Call}
    (before : (s.notifying n).key ≠ some key) (after : next.key ≠ some key) (m : Call) :
    (s.notifying m).under key = (Function.update s.notifying n next m).under key := by
  rw [Function.update_apply]
  split_ifs with same
  · rw [same, NotifyCall.under_of_other before, NotifyCall.under_of_other after]
  · rfl

private theorem elect_other (enrolled : s.Enrolled) (taken : s.elect c key' = some s')
    (distinct : key' ≠ key) : s.under key = s'.under key := by
  have kept := invoked_under key enrolled (e := .elect c key') taken
  have other : some key' ≠ some key := fun same => distinct (Option.some.inj same)
  obtain ⟨idle, ⟨-, rfl⟩ | ⟨f, -, -, rfl⟩⟩ := elect_cases taken
  · refine under_eq ?_ ?_ ?_ (fun _ => rfl) kept.symm
    · intro key''
      simp only [lead, under, Function.update_apply]
      split_ifs with here there
      · exact absurd (there.symm.trans here) distinct
      · rfl
      · rfl
    · intro g
      simp only [lead, under, Function.update_apply]
      by_cases here : g = c
      · subst here
        simp [idle, distinct]
      · simp only [here, ↓reduceIte]
    · exact doing_under_other (by rw [idle]; simp [DoCall.key]) other
  · refine under_eq (fun _ => rfl) ?_ (doing_under_other (by rw [idle]; simp [DoCall.key]) other)
      (fun _ => rfl) kept.symm
    intro g
    have same : Function.update s.doing c (.joining key' f) g = .leader key ↔
        s.doing g = .leader key := leaders_update (by simp [idle]) (by simp) g
    simp only [under, same]

private theorem join_other (led : s.Led) (enrolled : s.Enrolled) (taken : s.join c = some s')
    (other : (s.doing c).key ≠ some key) : s.under key = s'.under key := by
  have kept := invoked_under key enrolled (e := .join c) taken
  obtain ⟨key', f, joining, -, rest⟩ := join_cases taken
  have leads : s.doing f = .leader key' := led.doing (c := c) (by rw [joining]; rfl)
  have distinct : key' ≠ key := by
    rintro rfl
    exact other (by rw [joining]; rfl)
  have after : some key' ≠ some key := fun same => distinct (Option.some.inj same)
  rcases rest with ⟨-, rfl⟩ | ⟨-, rfl⟩
  · refine under_eq (fun _ => rfl) ?_ (doing_under_other other after) (fun _ => rfl) kept.symm
    exact fun g => (congrFun (flight_under_other leads distinct ((s.flight f).acquire c)
      (leaders_update (by simp [joining]) (by simp))) g).symm
  · refine under_eq (fun _ => rfl) ?_ (doing_under_other other after) (fun _ => rfl) kept.symm
    exact fun g => (congrFun (flight_under_other leads distinct ((s.flight f).enrol c)
      (leaders_update (by simp [joining]) (by simp))) g).symm

private theorem call_back_other (led : s.Led) (enrolled : s.Enrolled) {outcome : Outcome}
    (taken : s.call_back c outcome = some s') (other : (s.doing c).key ≠ some key) :
    s.under key = s'.under key := by
  have kept := invoked_under key enrolled (e := .call_back c outcome) taken
  obtain ⟨key', f, result, calling, rfl⟩ := call_back_cases taken
  have leads : s.doing f = .leader key' := led.doing (c := c) (by rw [calling]; rfl)
  have distinct : key' ≠ key := by
    rintro rfl
    exact other (by rw [calling]; rfl)
  have after : (DoCall.after key' f outcome).key ≠ some key := by
    cases outcome <;> simpa [DoCall.after, DoCall.key] using distinct
  refine under_eq (fun _ => rfl) ?_ (doing_under_other other after) (fun _ => rfl) ?_
  · refine fun g => (congrFun (flight_under_other leads distinct (s.flight f).release
      (leaders_update (by simp [calling]) ?_)) g).symm
    exact fun _ => DoCall.refers_ne_leader (DoCall.refers_after ..)
  · simp only [List.filter_append, kept]
    simp [after]

private theorem lookup_other (taken : s.lookup n key' result = some s') (distinct : key' ≠ key) :
    s.under key = s'.under key := by
  have other : some key' ≠ some key := fun same => distinct (Option.some.inj same)
  obtain ⟨idle, ⟨-, rfl⟩ | ⟨f, -, rfl⟩⟩ := lookup_cases taken
  · exact under_eq (fun _ => rfl) (fun _ => rfl) (fun _ => rfl)
      (notifying_under_other (by rw [idle]; simp [NotifyCall.key, NotifyCall.sends]) other) rfl
  · exact under_eq (fun _ => rfl) (fun _ => rfl) (fun _ => rfl)
      (notifying_under_other (by rw [idle]; simp [NotifyCall.key, NotifyCall.sends]) other) rfl

private theorem publish_other (led : s.Led) (taken : s.publish n = some s')
    (other : (s.notifying n).key ≠ some key) : s.under key = s'.under key := by
  obtain ⟨key', result, f, publishing, -, rfl⟩ := publish_cases taken
  have leads : s.doing f = .leader key' := led.notifying (n := n) (by rw [publishing]; rfl)
  have after := other
  rw [publishing] at after
  have distinct : key' ≠ key := by
    rintro rfl
    exact after rfl
  refine under_eq (fun _ => rfl) ?_ (fun _ => rfl) (notifying_under_other other after) rfl
  exact fun g => (congrFun (flight_under_other leads distinct ((s.flight f).resolve result)
    fun _ => Iff.rfl) g).symm

private theorem notify_other (led : s.Led) (enrolled : s.Enrolled) (outcome : Outcome)
    (taken : s.notify n outcome = some s') (other : (s.notifying n).key ≠ some key) :
    s.under key = s'.under key := by
  obtain ⟨key', result, f, c, rest, notifying, rfl⟩ := notify_cases outcome taken
  have after := other
  rw [notifying] at after
  have called := key_of_snapshot led enrolled notifying
  refine under_eq (fun _ => rfl) (fun _ => rfl) (fun _ => rfl) (notifying_under_other other after) ?_
  have out : (s.doing c).key ≠ some key := by
    rw [called]
    exact after
  simp only [List.filter_append, under]
  simp [out]

private theorem erase_other (taken : s.erase n = some s') (other : (s.notifying n).key ≠ some key) :
    s.under key = s'.under key := by
  obtain ⟨key', result, f, notifying, rfl⟩ := erase_cases taken
  have after := other
  rw [notifying] at after
  refine under_eq (fun key'' => ?_) (fun _ => rfl) (fun _ => rfl) (notifying_under_other other after) rfl
  simp only [under, Function.update_apply]
  split_ifs with here there
  · subst there
    exact absurd (congrArg some here) after
  · rfl
  · rfl

/-! ## Steps -/

/-- A step of a call under the key is a step of the view, and any other leaves it alone. -/
theorem under_step (key : Bytes) (led : s.Led) (enrolled : s.Enrolled) (taken : s.step? e = some s') :
    if s.concerns key e then (s.under key).step? e = some (s'.under key)
    else s.under key = s'.under key := by
  cases e with
  | elect c key' =>
    simp only [concerns, decide_eq_true_eq]
    split_ifs with same
    · subst same
      exact under_elect led enrolled taken
    · exact elect_other enrolled taken same
  | join c =>
    simp only [concerns, decide_eq_true_eq]
    split_ifs with same
    · exact under_join led enrolled taken same
    · exact join_other led enrolled taken same
  | call_back c outcome =>
    simp only [concerns, decide_eq_true_eq]
    split_ifs with same
    · exact under_call_back led enrolled taken same
    · exact call_back_other led enrolled taken same
  | lookup n key' result =>
    simp only [concerns, decide_eq_true_eq]
    split_ifs with same
    · subst same
      exact under_lookup taken
    · exact lookup_other taken same
  | publish n =>
    simp only [concerns, decide_eq_true_eq]
    split_ifs with same
    · exact under_publish led taken same
    · exact publish_other led taken same
  | notify n outcome =>
    simp only [concerns, decide_eq_true_eq]
    split_ifs with same
    · exact under_notify led enrolled outcome taken same
    · exact notify_other led enrolled outcome taken same
  | erase n =>
    simp only [concerns, decide_eq_true_eq]
    split_ifs with same
    · exact under_erase taken same
    · exact erase_other taken same

/-! ## States with the same view -/

section

variable {u u' : State Call}

/-- States with the same view have the calls under the key in common. -/
theorem doing_of_under (same : s.under key = u.under key) (keyed : (s.doing c).key = some key) :
    u.doing c = s.doing c := by
  have viewed : (s.doing c).under key = (u.doing c).under key :=
    congrFun (congrArg State.doing same) c
  rw [DoCall.under_of_key keyed] at viewed
  by_cases keyed' : (u.doing c).key = some key
  · rw [viewed, DoCall.under_of_key keyed']
  · rw [viewed, DoCall.under_of_other keyed'] at keyed
    contradiction

theorem notifying_of_under (same : s.under key = u.under key)
    (keyed : (s.notifying n).key = some key) : u.notifying n = s.notifying n := by
  have viewed : (s.notifying n).under key = (u.notifying n).under key :=
    congrFun (congrArg State.notifying same) n
  rw [NotifyCall.under_of_key keyed] at viewed
  by_cases keyed' : (u.notifying n).key = some key
  · rw [viewed, NotifyCall.under_of_key keyed']
  · rw [viewed, NotifyCall.under_of_other keyed'] at keyed
    contradiction

/-- A step belongs to the key in both states. -/
theorem concerns_of_under (same : s.under key = u.under key) (e : Event Call)
    (concerned : s.concerns key e = true) : u.concerns key e = true := by
  cases e with
  | elect | lookup => exact concerned
  | join c | call_back c =>
    have keyed : (s.doing c).key = some key := of_decide_eq_true concerned
    simpa [concerns, doing_of_under same keyed] using keyed
  | publish n | notify n | erase n =>
    have keyed : (s.notifying n).key = some key := of_decide_eq_true concerned
    simpa [concerns, notifying_of_under same keyed] using keyed

/-- The same step of two states with the same view leaves them with the same view. -/
theorem under_congr (led : s.Led) (enrolled : s.Enrolled) (led' : u.Led) (enrolled' : u.Enrolled)
    (same : s.under key = u.under key) (taken : s.step? e = some s') (taken' : u.step? e = some u') :
    s'.under key = u'.under key := by
  have step := under_step key led enrolled taken
  have step' := under_step key led' enrolled' taken'
  cases concerned : s.concerns key e with
  | true =>
    have concerned' := concerns_of_under same e concerned
    rw [concerned, if_pos rfl, same] at step
    rw [concerned', if_pos rfl] at step'
    exact Option.some.inj (step.symm.trans step')
  | false =>
    have concerned' : u.concerns key e = false := by
      rw [← Bool.not_eq_true] at concerned ⊢
      exact fun there => concerned (concerns_of_under same.symm e there)
    rw [concerned, if_neg Bool.false_ne_true] at step
    rw [concerned', if_neg Bool.false_ne_true] at step'
    rw [← step, ← step', same]

end

/-! ## Runs -/

private theorem key_persists (keyed : (s.doing c).key = some key) (taken : s.step? e = some s') :
    (s'.doing c).key = some key := by
  rcases key_cases taken c with same | ⟨key', -, idle, -⟩
  · exact same.trans keyed
  · rw [idle] at keyed
    contradiction

private theorem sent_persists (sent : (s.notifying n).key = some key) (taken : s.step? e = some s') :
    (s'.notifying n).key = some key := by
  rcases sends_cases taken n with same | ⟨key', result, -, idle, -⟩
  · exact (congrArg (Option.map Prod.fst) same).trans sent
  · rw [idle] at sent
    contradiction

/-- A step concerns the same key at the end of the run: a call that has one keeps it. -/
private theorem concerns_iff {es : List (Event Call)} (taken : s.step? e = some s')
    (rest : Path step? always s' es t) : t.concerns key e = s.concerns key e := by
  have doing : ∀ {c key'}, (s.doing c).key = some key' → (t.doing c).key = some key' := by
    intro c key' keyed
    exact rest.preserves (I := fun t => (t.doing c).key = some key') (key_persists keyed taken)
      fun _ _ _ keyed _ taken => key_persists keyed taken
  have notifying : ∀ {n key'}, (s.notifying n).key = some key' → (t.notifying n).key = some key' := by
    intro n key' sent
    exact rest.preserves (I := fun t => (t.notifying n).key = some key') (sent_persists sent taken)
      fun _ _ _ sent _ taken => sent_persists sent taken
  cases e with
  | elect c key' => rfl
  | join c =>
    obtain ⟨key', f, joining, -⟩ := join_cases taken
    have keyed : (s.doing c).key = some key' := by rw [joining]; rfl
    simp only [concerns, keyed, doing keyed]
  | call_back c outcome =>
    obtain ⟨key', f, result, calling, -⟩ := call_back_cases taken
    have keyed : (s.doing c).key = some key' := by rw [calling]; rfl
    simp only [concerns, keyed, doing keyed]
  | lookup n key' result => rfl
  | publish n =>
    obtain ⟨key', result, f, publishing, -⟩ := publish_cases taken
    have sent : (s.notifying n).key = some key' := by rw [publishing]; rfl
    simp only [concerns, sent, notifying sent]
  | notify n outcome =>
    obtain ⟨key', result, f, c, rest, at_, -⟩ := notify_cases outcome taken
    have sent : (s.notifying n).key = some key' := by rw [at_]; rfl
    simp only [concerns, sent, notifying sent]
  | erase n =>
    obtain ⟨key', result, f, at_, -⟩ := erase_cases taken
    have sent : (s.notifying n).key = some key' := by rw [at_]; rfl
    simp only [concerns, sent, notifying sent]

/-- Deleting the steps of calls on other keys leaves a run, in which the calls on the key come out as
before, their callbacks are run with the same values in the same order, and the key has the same
entry. -/
theorem isolated {es : List (Event Call)} (run : Path step? always init es t) (key : Bytes) :
    ∃ t' : State Call, Path step? always init (es.filter (t.concerns key)) t' ∧
      (∀ c, (t.doing c).key = some key → t'.doing c = t.doing c) ∧
      (∀ n, (t.notifying n).key = some key → t'.notifying n = t.notifying n) ∧
      t'.invoked = t.invoked.filter (fun call => (t.doing call.1).key = some key) ∧
      t'.flights_ key = t.flights_ key := by
  refine ⟨t.under key, ?_, fun c keyed => DoCall.under_of_key keyed,
    fun n sent => NotifyCall.under_of_key sent, rfl, if_pos rfl⟩
  have watched := run.toward.strengthen (I := fun s => s.Led ∧ s.Enrolled) ⟨led_init, enrolled_init⟩
    fun _ _ _ kept _ taken => ⟨kept.1.step taken, kept.2.step taken⟩
  have viewed : Path step? always ((init : State Call).under key)
      (es.filterMap (Option.guard (t.concerns key))) (t.under key) := by
    refine watched.project (fun s => s.under key) _ ?_ ?_
    · rintro s e s' ⟨⟨-, toward⟩, led, enrolled⟩ taken d label
      obtain ⟨rest, path⟩ := toward s' taken
      obtain ⟨rfl, concerned⟩ := Option.guard_eq_some_iff.mp label
      have step := under_step key led enrolled taken
      rw [← concerns_iff taken path, if_pos concerned] at step
      exact ⟨trivial, step⟩
    · rintro s e s' ⟨⟨-, toward⟩, led, enrolled⟩ taken label
      obtain ⟨rest, path⟩ := toward s' taken
      have other := Option.guard_eq_none_iff.mp label
      have step := under_step key led enrolled taken
      rw [← concerns_iff taken path, other, if_neg Bool.false_ne_true] at step
      exact step.symm
  rwa [under_init, List.filterMap_eq_filter] at viewed

/-- Two callers of `1` and one of `2`, whose leader publishes between them. -/
def twoKeys : List (Event ℕ) :=
  [.elect 0 [1], .elect 1 [2], .elect 2 [1], .lookup 1 [2] [8], .join 2, .publish 1,
    .lookup 0 [1] [9], .publish 0, .erase 1, .notify 0 .returned, .erase 0]

/-- Without the caller of `2` the waiter of `1` gets its leader's result all the same. -/
theorem isolated_run : ∃ t t' : State ℕ, Path step? always init twoKeys t ∧
    Path step? always init (twoKeys.filter (t.concerns [1])) t' ∧
      (twoKeys.filter (t.concerns [1])).length = 7 ∧ t'.invoked = [(2, [9])] := by
  have run : ∃ t : State ℕ, Path step? always init twoKeys t ∧
      (twoKeys.filter (t.concerns [1])).length = 7 ∧
      t.invoked.filter (fun call => (t.doing call.1).key = some [1]) = [(2, [9])] := by
    refine ⟨_, replay_eq_some_iff.mp rfl, ?_, ?_⟩
    · decide +kernel
    · decide +kernel
  obtain ⟨t, path, few, served⟩ := run
  obtain ⟨t', path', -, -, invoked, -⟩ := isolated path [1]
  exact ⟨t, t', path, path', few, invoked.trans served⟩

end State

end FlightProxy.SingleFlight
