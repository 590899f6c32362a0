import FlightProxy.SingleFlight.Steps

/-! # Who leads a key

Every reference to a flight, from the map or from a call in progress, names a caller that was told
`IS_LEADER` for the same key. When only leaders notify, once each, a flight that is not ready stays
under its key until its own leader publishes, unless the final erase of an older notifier removes
it: that erase works on the key, not on the flight. Away from such erases the unready flight of a
key is unique, and with it the leader that has not published.
-/

namespace FlightProxy.SingleFlight

variable {Call : Type*}

/-- The key and the flight that a doSingleFlight call holds a reference to. -/
def DoCall.refers : DoCall Call → Option (Bytes × Call)
  | .joining key f | .calling key f _ | .waiter key f | .threw key f => some (key, f)
  | .idle | .leader _ => none

/-- The key and the flight that a notifyResult call holds a reference to. -/
def NotifyCall.refers : NotifyCall Call → Option (Bytes × Call)
  | .publishing key _ f | .notifying key _ f _ | .returned key _ (some f) => some (key, f)
  | .idle | .returned _ _ none => none

/-- Past the block that sets `ready`. -/
def NotifyCall.published : NotifyCall Call → Bool
  | .notifying .. | .returned _ _ (some _) => true
  | .idle | .publishing .. | .returned _ _ none => false

@[simp] theorem DoCall.refers_after (key : Bytes) (f : Call) (outcome : Outcome) :
    (DoCall.after key f outcome).refers = some (key, f) := by
  cases outcome <;> rfl

theorem DoCall.refers_ne_leader {d : DoCall Call} {key key' : Bytes} {f : Call}
    (refers : d.refers = some (key, f)) : d ≠ .leader key' := by
  rintro rfl
  contradiction

theorem NotifyCall.unpublished_of_refers {m : NotifyCall Call} (none : m.refers = none) :
    m.published = false := by
  cases m with
  | idle => rfl
  | publishing | notifying => contradiction
  | returned key result flight => cases flight <;> first | rfl | contradiction

namespace State

variable [DecidableEq Call] {s s' : State Call} {c n f : Call} {key result : Bytes}
  {outcome : Outcome}

/-- References only ever name leaders of the same key. -/
structure Led (s : State Call) : Prop where
  entry : ∀ {key f}, s.flights_ key = some f → s.doing f = .leader key
  doing : ∀ {c key f}, (s.doing c).refers = some (key, f) → s.doing f = .leader key
  notifying : ∀ {n key f}, (s.notifying n).refers = some (key, f) → s.doing f = .leader key

omit [DecidableEq Call] in
theorem led_init : (init : State Call).Led := by
  constructor <;> intros <;> contradiction

/-- A call that is not a leader may move without disturbing any leader. -/
private theorem leader_update (moving : ∀ key, s.doing c ≠ .leader key) (next : DoCall Call)
    (leads : s.doing f = .leader key) : Function.update s.doing c next f = .leader key := by
  rw [Function.update_of_ne, leads]
  rintro rfl
  exact moving key leads

private theorem Led.move (led : s.Led) (moving : ∀ key, s.doing c ≠ .leader key)
    {next : DoCall Call} (same : ∀ key f, next.refers = some (key, f) → s.doing f = .leader key)
    {key : Bytes} (refers : (Function.update s.doing c next n).refers = some (key, f)) :
    Function.update s.doing c next f = .leader key := by
  apply leader_update moving
  rw [Function.update_apply] at refers
  split_ifs at refers
  · exact same key f refers
  · exact led.doing refers

private theorem Led.elect (led : s.Led) (taken : s.elect c key = some s') : s'.Led := by
  obtain ⟨idle, ⟨-, rfl⟩ | ⟨f, found, -, rfl⟩⟩ := elect_cases taken
  · have moving : ∀ key, s.doing c ≠ .leader key := by simp [idle]
    refine ⟨?_, ?_, fun refers => leader_update moving _ (led.notifying refers)⟩
    · intro key' f present
      simp only [lead, Function.update_apply] at present
      split_ifs at present with same
      · obtain rfl := Option.some.inj present
        rw [same]
        exact Function.update_self ..
      · exact leader_update moving _ (led.entry present)
    · intro d key' f refers
      exact led.move moving (by simp [DoCall.refers]) refers
  · have moving : ∀ key, s.doing c ≠ .leader key := by simp [idle]
    refine ⟨fun present => leader_update moving _ (led.entry present), ?_,
      fun refers => leader_update moving _ (led.notifying refers)⟩
    intro d key' g refers
    refine led.move moving ?_ refers
    intro key'' f' same
    simp only [DoCall.refers, Option.some.injEq, Prod.mk.injEq] at same
    obtain ⟨rfl, rfl⟩ := same
    exact led.entry found

/-- Steps that only move a call along the reference it already holds. -/
private theorem Led.along (led : s.Led) {next : DoCall Call}
    (held : (s.doing c).refers = some (key, f)) (holds : next.refers = some (key, f))
    (flight : Call → Flight Call) (invoked : List (Call × Bytes)) :
    Led { s with doing := Function.update s.doing c next, flight := flight, invoked := invoked } := by
  have moving : ∀ key, s.doing c ≠ .leader key := fun _ => DoCall.refers_ne_leader held
  refine ⟨fun present => leader_update moving _ (led.entry present), ?_,
    fun refers => leader_update moving _ (led.notifying refers)⟩
  intro d key' g refers
  refine led.move moving ?_ refers
  intro key'' f' same
  exact led.doing (held.trans (holds.symm.trans same))

/-- A notifier may move when its reference already names a leader, and keys may be erased. -/
private theorem Led.notifier (led : s.Led) {next : NotifyCall Call} {flights : Bytes → Option Call}
    (named : ∀ key f, next.refers = some (key, f) → s.doing f = .leader key)
    (fewer : ∀ key f, flights key = some f → s.flights_ key = some f)
    (flight : Call → Flight Call) (invoked : List (Call × Bytes)) :
    Led { s with flights_ := flights, notifying := Function.update s.notifying n next,
                 flight := flight, invoked := invoked } := by
  refine ⟨fun present => led.entry (fewer _ _ present), led.doing, ?_⟩
  intro m key f refers
  simp only [Function.update_apply] at refers
  split_ifs at refers
  · exact named key f refers
  · exact led.notifying refers

/-- No step, whoever takes it, leaves a reference to a flight without a leader. -/
theorem Led.step {e : Event Call} (led : s.Led) (taken : s.step? e = some s') : s'.Led := by
  cases e with
  | elect c key => exact led.elect taken
  | join c =>
    obtain ⟨key, f, joining, -, ⟨-, rfl⟩ | ⟨-, rfl⟩⟩ := join_cases taken
    · exact led.along (by rw [joining]; rfl) rfl _ _
    · exact led.along (by rw [joining]; rfl) rfl _ _
  | call_back c outcome =>
    obtain ⟨key, f, result, calling, rfl⟩ := call_back_cases taken
    exact led.along (by rw [calling]; rfl) (DoCall.refers_after ..) _ _
  | lookup n key result =>
    obtain ⟨-, ⟨-, rfl⟩ | ⟨f, found, rfl⟩⟩ := lookup_cases taken
    · exact led.notifier (by simp [NotifyCall.refers]) (fun _ _ => id) _ _
    · refine led.notifier ?_ (fun _ _ => id) _ _
      rintro key' f' same
      obtain ⟨rfl, rfl⟩ := Prod.mk.inj (Option.some.inj same)
      exact led.entry found
  | publish n =>
    obtain ⟨key, result, f, publishing, -, rfl⟩ := publish_cases taken
    refine led.notifier (fun key' f' same => led.notifying (n := n) ?_) (fun _ _ => id) _ _
    rw [publishing]
    exact same
  | notify n outcome =>
    obtain ⟨key, result, f, c, rest, notifying, rfl⟩ := notify_cases outcome taken
    refine led.notifier (fun key' f' same => led.notifying (n := n) ?_) (fun _ _ => id) _ _
    rw [notifying]
    exact same
  | erase n =>
    obtain ⟨key, result, f, notifying, rfl⟩ := erase_cases taken
    refine led.notifier (fun key' f' same => led.notifying (n := n) ?_) ?_ _ _
    · rw [notifying]
      exact same
    · intro key' f' present
      rw [Function.update_apply] at present
      split_ifs at present
      exact present

/-- Only a caller that was told `IS_LEADER` for the key notifies. Its notifyResult call carries the
caller's own name, so it notifies at most once. -/
def Disciplined (s : State Call) : Event Call → Prop
  | .lookup n key _ => s.doing n = .leader key
  | _ => True

/-- A final erase does not hit a flight that is not ready. -/
def Harmless (s : State Call) : Event Call → Prop
  | .erase n => ∀ key result g, s.notifying n = .notifying key result g [] →
      ∀ f, s.flights_ key = some f → (s.flight f).ready = true
  | _ => True

/-- Under the discipline every unready flight is kept for its own leader. -/
structure Owned (s : State Call) : Prop where
  kept : ∀ {f key}, s.doing f = .leader key → (s.flight f).ready = false → s.flights_ key = some f
  own : ∀ {n key f}, (s.notifying n).refers = some (key, f) → f = n
  unready : ∀ {n key}, s.doing n = .leader key → (s.notifying n).published = false →
    (s.flight n).ready = false
  ready : ∀ {n}, (s.notifying n).published = true → (s.flight n).ready = true
  found : ∀ {n key result}, s.notifying n ≠ .returned key result none

omit [DecidableEq Call] in
theorem owned_init : (init : State Call).Owned := by
  constructor <;> intros <;> first | contradiction | simp [init]

omit [DecidableEq Call] in
/-- Steps that make no call a leader and no flight ready, and leave map and notifiers alone. -/
private theorem Owned.quiet (owned : s.Owned) {doing : Call → DoCall Call}
    {flight : Call → Flight Call} (invoked : List (Call × Bytes))
    (leaders : ∀ f key, doing f = .leader key → s.doing f = .leader key)
    (ready : ∀ f, (flight f).ready = (s.flight f).ready) :
    Owned { s with doing := doing, flight := flight, invoked := invoked } := by
  refine ⟨?_, owned.own, ?_, fun published => (ready _).trans (owned.ready published), owned.found⟩
  · intro f key leads unready
    exact owned.kept (leaders f key leads) ((ready f).symm.trans unready)
  · intro n key leads unpublished
    exact (ready n).trans (owned.unready (leaders n key leads) unpublished)

private theorem not_leader_update {next : DoCall Call} (moving : ∀ key, next ≠ .leader key) (f : Call)
    (key : Bytes) (leads : Function.update s.doing c next f = .leader key) :
    s.doing f = .leader key := by
  rw [Function.update_apply] at leads
  split_ifs at leads
  · exact absurd leads (moving key)
  · exact leads

omit [DecidableEq Call] in
/-- A notifier that holds a reference holds one to its own flight, so its caller is a leader. -/
theorem Owned.refers_none (led : s.Led) (owned : s.Owned) (idle : s.doing n = .idle) :
    (s.notifying n).refers = none := by
  cases refers : (s.notifying n).refers with
  | none => rfl
  | some reference =>
    obtain ⟨key, f⟩ := reference
    obtain rfl := owned.own refers
    have leads := led.notifying refers
    rw [idle] at leads
    contradiction

private theorem Owned.elect (led : s.Led) (owned : s.Owned) (taken : s.elect c key = some s') :
    s'.Owned := by
  obtain ⟨idle, ⟨replaceable, rfl⟩ | ⟨f, found, -, rfl⟩⟩ := elect_cases taken
  · refine ⟨?_, owned.own, ?_, ?_, owned.found⟩
    · intro f key' leads unready
      simp only [lead, Function.update_apply] at leads unready ⊢
      by_cases same : f = c
      · rw [if_pos same] at leads
        rw [if_pos (DoCall.leader.inj leads).symm, same]
      · rw [if_neg same] at leads unready
        have kept := owned.kept leads unready
        -- a key whose flight is still unready would not have elected a new leader
        have other : key' ≠ key := by
          rintro rfl
          rw [replaceable f kept] at unready
          contradiction
        rw [if_neg other, kept]
    · intro n key' leads unpublished
      simp only [lead, Function.update_apply] at leads ⊢
      split_ifs at leads ⊢ with same
      · rfl
      · exact owned.unready leads unpublished
    · intro n published
      simp only [lead, Function.update_apply] at published ⊢
      split_ifs with same
      · rw [same, NotifyCall.unpublished_of_refers (owned.refers_none led idle)] at published
        contradiction
      · exact owned.ready published
  · exact owned.quiet _ (not_leader_update (by simp)) (fun _ => rfl)

private theorem Owned.lookup (owned : s.Owned) (leads : s.doing n = .leader key)
    (taken : s.lookup n key result = some s') : s'.Owned := by
  obtain ⟨idle, missing | ⟨f, present, rfl⟩⟩ := lookup_cases taken
  · have kept := owned.kept leads (owned.unready leads (by rw [idle]; rfl))
    rw [kept] at missing
    exact absurd missing.1 (by simp)
  · have kept := owned.kept leads (owned.unready leads (by rw [idle]; rfl))
    obtain rfl := Option.some.inj (kept.symm.trans present)
    refine ⟨owned.kept, ?_, ?_, ?_, ?_⟩
    · intro m key' g refers
      simp only [Function.update_apply] at refers
      split_ifs at refers with same
      · rw [same]
        exact (Prod.mk.inj (Option.some.inj refers)).2.symm
      · exact owned.own refers
    · intro m key' leads' unpublished
      simp only [Function.update_apply] at unpublished
      split_ifs at unpublished with same
      · rw [same]
        exact owned.unready leads (by rw [idle]; rfl)
      · exact owned.unready leads' unpublished
    · intro m published
      simp only [Function.update_apply] at published
      split_ifs at published
      · contradiction
      · exact owned.ready published
    · intro m key' result'
      simp only [Function.update_apply]
      split_ifs
      · simp
      · exact owned.found

private theorem Owned.publish (owned : s.Owned) (taken : s.publish n = some s') : s'.Owned := by
  obtain ⟨key, result, f, publishing, -, rfl⟩ := publish_cases taken
  have refers : (s.notifying n).refers = some (key, f) := by rw [publishing]; rfl
  obtain rfl := owned.own refers
  refine ⟨?_, ?_, ?_, ?_, ?_⟩
  · intro g key' leads unready
    simp only [Function.update_apply] at unready
    split_ifs at unready
    · simp only [Flight.resolve, Bool.true_eq_false] at unready
    · exact owned.kept leads unready
  · intro m key' g refers
    simp only [Function.update_apply] at refers
    split_ifs at refers with same
    · rw [same]
      exact (Prod.mk.inj (Option.some.inj refers)).2.symm
    · exact owned.own refers
  · intro m key' leads unpublished
    simp only [Function.update_apply] at unpublished ⊢
    split_ifs at unpublished ⊢ with same
    · contradiction
    · exact owned.unready leads unpublished
  · intro m published
    simp only [Function.update_apply] at published ⊢
    split_ifs at published ⊢ with same
    · rfl
    · exact owned.ready published
  · intro m key' result'
    simp only [Function.update_apply]
    split_ifs
    · simp
    · exact owned.found

/-- A published notifier goes through its callbacks and its erase; the flights stay as they are. -/
private theorem Owned.finish (owned : s.Owned) {rest : List Call} {next : NotifyCall Call}
    (notifying : s.notifying n = .notifying key result f rest)
    (refers : next.refers = some (key, f)) (published : next.published = true)
    {flights : Bytes → Option Call} (invoked : List (Call × Bytes))
    (kept : ∀ g key, s.flights_ key = some g → (s.flight g).ready = false →
      flights key = some g) :
    Owned { s with flights_ := flights, notifying := Function.update s.notifying n next,
                   invoked := invoked } := by
  refine ⟨?_, ?_, ?_, ?_, ?_⟩
  · intro g key' leads unready
    exact kept g key' (owned.kept leads unready) unready
  · intro m key' g refers'
    simp only [Function.update_apply] at refers'
    split_ifs at refers' with same
    · rw [same]
      have refers : (s.notifying n).refers = some (key', g) := by
        rw [notifying, ← refers', refers]
        rfl
      exact owned.own refers
    · exact owned.own refers'
  · intro m key' leads unpublished
    simp only [Function.update_apply] at unpublished
    split_ifs at unpublished
    · rw [published] at unpublished
      contradiction
    · exact owned.unready leads unpublished
  · intro m published'
    simp only [Function.update_apply] at published'
    split_ifs at published' with same
    · rw [same]
      exact owned.ready (by rw [notifying]; rfl)
    · exact owned.ready published'
  · intro m key' result'
    simp only [Function.update_apply]
    split_ifs
    · rintro rfl
      contradiction
    · exact owned.found

/-- One disciplined step keeps every unready flight for its leader, unless it erases one. -/
theorem Owned.step {e : Event Call} (led : s.Led) (owned : s.Owned) (disciplined : s.Disciplined e)
    (harmless : s.Harmless e) (taken : s.step? e = some s') : s'.Owned := by
  cases e with
  | elect c key => exact owned.elect led taken
  | join c =>
    obtain ⟨key, f, -, -, ⟨-, rfl⟩ | ⟨-, rfl⟩⟩ := join_cases taken
    · exact owned.quiet _ (not_leader_update (by simp)) (fun g => ready_acquire g c)
    · exact owned.quiet _ (not_leader_update (by simp)) (fun g => ready_enrol g c)
  | call_back c outcome =>
    obtain ⟨key, f, result, calling, rfl⟩ := call_back_cases taken
    refine owned.quiet _ (not_leader_update ?_) ready_release
    exact fun _ => DoCall.refers_ne_leader (DoCall.refers_after ..)
  | lookup n key result => exact owned.lookup disciplined taken
  | publish n => exact owned.publish taken
  | notify n outcome =>
    obtain ⟨key, result, f, c, rest, notifying, rfl⟩ := notify_cases outcome taken
    exact owned.finish notifying rfl rfl _ (fun _ _ present _ => present)
  | erase n =>
    obtain ⟨key, result, f, notifying, rfl⟩ := erase_cases taken
    refine owned.finish notifying rfl rfl _ ?_
    intro g key' present unready
    rw [Function.update_of_ne, present]
    rintro rfl
    rw [harmless _ _ _ notifying g present] at unready
    contradiction

/-- The leader of the key has not gone through the block of notifyResult that publishes. -/
def Outstanding (s : State Call) (key : Bytes) (c : Call) : Prop :=
  s.doing c = .leader key ∧ (s.notifying c).published = false

omit [DecidableEq Call] in
theorem Owned.outstanding_entry (owned : s.Owned) (outstanding : s.Outstanding key c) :
    s.flights_ key = some c :=
  owned.kept outstanding.1 (owned.unready outstanding.1 outstanding.2)

end State

open State

variable [DecidableEq Call] {es : List (Event Call)} {s : State Call}

/-- The invariants of every disciplined run away from harmful erases. -/
theorem invariants_of_run
    (run : Transition.Path step? (fun s e => s.Disciplined e ∧ s.Harmless e) .init es s) :
    s.Led ∧ s.Owned := by
  refine run.preserves (I := fun s => s.Led ∧ s.Owned) ⟨led_init, owned_init⟩ ?_
  rintro s e s' ⟨led, owned⟩ ⟨disciplined, harmless⟩ taken
  exact ⟨led.step taken, owned.step led disciplined harmless taken⟩

/-- While no final erase hits an unready flight, a key has at most one leader that has not
published, and a new leader of a key is elected only after every earlier one set its flight ready. -/
theorem one_outstanding_leader
    (run : Transition.Path step? (fun s e => s.Disciplined e ∧ s.Harmless e) .init es s) :
    (∀ key c d, s.Outstanding key c → s.Outstanding key d → c = d) ∧
      ∀ key c s', s.step? (.elect c key) = some s' → s'.doing c = .leader key →
        ∀ d, s.doing d = .leader key → (s.flight d).ready = true := by
  obtain ⟨-, owned⟩ := invariants_of_run run
  refine ⟨?_, ?_⟩
  · intro key c d first second
    exact Option.some.inj ((owned.outstanding_entry first).symm.trans (owned.outstanding_entry second))
  · intro key c s' taken elected d leads
    by_contra unready
    have kept := owned.kept leads (Bool.eq_false_iff.mpr unready)
    obtain ⟨-, ⟨replaceable, -⟩ | ⟨f, -, -, rfl⟩⟩ := elect_cases taken
    · exact unready (replaceable d kept)
    · simp only [Function.update_self, reduceCtorEq] at elected

/-- Conversely, the first erase that hits an unready flight leaves the key open: whoever calls next
leads beside a leader that has not published. -/
theorem two_outstanding_of_erase {c n f : Call} {key result : Bytes} {g : Call} {s' : State Call}
    (run : Transition.Path step? (fun s e => s.Disciplined e ∧ s.Harmless e) .init es s)
    (notifying : s.notifying n = .notifying key result g []) (entry : s.flights_ key = some f)
    (unready : (s.flight f).ready = false) (taken : s.step? (.erase n) = some s')
    (idle : s'.doing c = .idle) :
    ∃ t, s'.step? (.elect c key) = some t ∧ t.Outstanding key c ∧ t.Outstanding key f ∧ c ≠ f := by
  obtain ⟨led, owned⟩ := invariants_of_run run
  have leads := led.entry entry
  have unpublished : (s.notifying f).published = false := by
    by_contra published
    rw [owned.ready (eq_true_of_ne_false published)] at unready
    contradiction
  have other : f ≠ n := by
    rintro rfl
    rw [notifying] at unpublished
    contradiction
  obtain ⟨key', result', g', same, rfl⟩ := erase_cases taken
  cases notifying.symm.trans same
  have distinct : c ≠ f := by
    rintro rfl
    rw [leads] at idle
    contradiction
  have caller : (Function.update s.notifying n (.returned key result (some g)) c).published = false := by
    rw [Function.update_of_ne]
    · exact NotifyCall.unpublished_of_refers (owned.refers_none led idle)
    · rintro rfl
      have none := owned.refers_none led idle
      rw [notifying] at none
      contradiction
  have elected : ∀ t : State Call, t.doing c = .idle → t.flights_ key = none →
      t.step? (.elect c key) = some (t.lead c key) := by
    intro t idle absent
    simp only [step?, elect]
    rw [if_pos idle, absent]
  refine ⟨_, elected _ idle (Function.update_self ..), ⟨Function.update_self .., caller⟩,
    ⟨?_, ?_⟩, distinct⟩
  · simp only [lead]
    rw [Function.update_of_ne distinct.symm, leads]
  · simp only [lead]
    rw [Function.update_of_ne other, unpublished]

/-- The first notifier erases the flight of the leader that replaced it, and a third caller leads. -/
def lateErase : List (Event ℕ) :=
  [.elect 0 [0x71], .lookup 0 [0x71] [0x61], .publish 0, .elect 1 [0x71], .erase 0, .elect 2 [0x71]]

/-- Two leaders of one key are outstanding after `lateErase`. -/
theorem not_one_outstanding_leader :
    ¬ ∀ (es : List (Event ℕ)) (s : State ℕ), Transition.Path step? Disciplined .init es s →
      ∀ key c d, s.Outstanding key c → s.Outstanding key d → c = d := by
  intro unique
  have run : ∃ s : State ℕ, Transition.Path step? Disciplined .init lateErase s ∧
      s.Outstanding [0x71] 1 ∧ s.Outstanding [0x71] 2 :=
    ⟨_, .cons trivial rfl (.cons rfl rfl (.cons trivial rfl (.cons trivial rfl (.cons trivial rfl
      (.cons trivial rfl (.nil _)))))), ⟨rfl, rfl⟩, ⟨rfl, rfl⟩⟩
  obtain ⟨s, path, first, second⟩ := run
  exact absurd (unique _ s path _ _ _ first second) (by decide)

/-- A leader that publishes and erases with nobody in between meets both conditions. -/
theorem one_outstanding_leader_run :
    ∃ s : State ℕ, (∀ key c d, s.Outstanding key c → s.Outstanding key d → c = d) ∧
      s.Outstanding [0x71] 1 := by
  have run : ∃ s : State ℕ, Transition.Path step?
      (fun s e => s.Disciplined e ∧ s.Harmless e) .init
      [.elect 0 [0x71], .lookup 0 [0x71] [0x61], .publish 0, .erase 0, .elect 1 [0x71]] s ∧
      s.Outstanding [0x71] 1 := by
    refine ⟨_, .cons ⟨trivial, trivial⟩ rfl (.cons ⟨rfl, trivial⟩ rfl (.cons ⟨trivial, trivial⟩ rfl
      (.cons ⟨trivial, ?_⟩ rfl (.cons ⟨trivial, trivial⟩ rfl (.nil _))))), rfl, rfl⟩
    intro key result g notifying f found
    cases notifying
    cases found
    rfl
  obtain ⟨s, path, outstanding⟩ := run
  exact ⟨s, (one_outstanding_leader path).1, outstanding⟩

end FlightProxy.SingleFlight
