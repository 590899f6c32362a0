import FlightProxy.Model.SingleFlight

/-! # What each block of SingleFlight can do

One inversion per block, guards included, so that no invariant unfolds the transition function.
-/

namespace FlightProxy.SingleFlight

/-- The key of a doSingleFlight call. -/
def DoCall.key {Call : Type*} : DoCall Call → Option Bytes
  | .idle => none
  | .joining key _ | .calling key _ _ | .leader key | .waiter key _ | .threw key _ => some key

/-- The key and the result of a notifyResult call. -/
def NotifyCall.sends {Call : Type*} : NotifyCall Call → Option (Bytes × Bytes)
  | .idle => none
  | .publishing key result _ | .notifying key result _ _ | .returned key result _ =>
    some (key, result)

theorem DoCall.key_eq_none_iff {Call : Type*} {d : DoCall Call} : d.key = none ↔ d = .idle := by
  cases d <;> simp [DoCall.key]

theorem NotifyCall.sends_eq_none_iff {Call : Type*} {m : NotifyCall Call} :
    m.sends = none ↔ m = .idle := by
  cases m <;> simp [NotifyCall.sends]

section Update

variable {Call : Type*} [DecidableEq Call]

/-- A change at one call is invisible to any view it keeps. -/
theorem view_update {α β : Type*} (view : β → α) {values : Call → β} {c : Call} {next : β}
    (same : view next = view (values c)) (d : Call) :
    view (Function.update values c next d) = view (values d) := by
  rw [Function.update_apply]
  split_ifs with here
  · rw [same, here]
  · rfl

variable {flight : Call → Flight Call} {f : Call}

variable (g c : Call)

@[simp] theorem ready_acquire :
    (Function.update flight f ((flight f).acquire c) g).ready = (flight g).ready :=
  view_update Flight.ready (by rfl) g

@[simp] theorem result_acquire :
    (Function.update flight f ((flight f).acquire c) g).result = (flight g).result :=
  view_update Flight.result (by rfl) g

@[simp] theorem callbacks_acquire :
    (Function.update flight f ((flight f).acquire c) g).callbacks = (flight g).callbacks :=
  view_update Flight.callbacks (by rfl) g

@[simp] theorem ready_release :
    (Function.update flight f (flight f).release g).ready = (flight g).ready :=
  view_update Flight.ready (by rfl) g

@[simp] theorem result_release :
    (Function.update flight f (flight f).release g).result = (flight g).result :=
  view_update Flight.result (by rfl) g

@[simp] theorem callbacks_release :
    (Function.update flight f (flight f).release g).callbacks = (flight g).callbacks :=
  view_update Flight.callbacks (by rfl) g

@[simp] theorem ready_enrol :
    (Function.update flight f ((flight f).enrol c) g).ready = (flight g).ready :=
  view_update Flight.ready (by rfl) g

@[simp] theorem result_enrol :
    (Function.update flight f ((flight f).enrol c) g).result = (flight g).result :=
  view_update Flight.result (by rfl) g

end Update

namespace State

variable {Call : Type*} [DecidableEq Call] {s s' : State Call} {c n : Call} {key result : Bytes}

/-- An election leads when the key has no flight or a ready one, and joins otherwise. -/
theorem elect_cases (taken : s.elect c key = some s') :
    s.doing c = .idle ∧
      (((∀ f, s.flights_ key = some f → (s.flight f).ready = true) ∧ s' = s.lead c key) ∨
        ∃ f, s.flights_ key = some f ∧ (s.flight f).ready = false ∧
          s' = { s with doing := Function.update s.doing c (.joining key f) }) := by
  unfold elect at taken
  split at taken
  · next idle =>
    refine ⟨idle, ?_⟩
    split at taken
    · next f found =>
      split_ifs at taken with free ready
      · obtain rfl := Option.some.inj taken
        refine .inl ⟨?_, rfl⟩
        intro g same
        obtain rfl := Option.some.inj (found.symm.trans same)
        exact ready
      · obtain rfl := Option.some.inj taken
        exact .inr ⟨f, found, Bool.eq_false_iff.mpr ready, rfl⟩
    · next absent =>
      obtain rfl := Option.some.inj taken
      refine .inl ⟨?_, rfl⟩
      intro f found
      rw [absent] at found
      contradiction
  · contradiction

/-- A joiner of a ready flight keeps its mutex for the direct callback; otherwise it enrols. -/
theorem join_cases (taken : s.join c = some s') :
    ∃ key f, s.doing c = .joining key f ∧ (s.flight f).mutex = none ∧
      (((s.flight f).ready = true ∧ s' = { s with
          flight := Function.update s.flight f ((s.flight f).acquire c)
          doing := Function.update s.doing c (.calling key f (s.flight f).result) }) ∨
        ((s.flight f).ready = false ∧ s' = { s with
          flight := Function.update s.flight f ((s.flight f).enrol c)
          doing := Function.update s.doing c (.waiter key f) })) := by
  unfold join at taken
  split at taken
  · next key f joining =>
    split_ifs at taken with free ready
    · exact ⟨key, f, joining, free, .inl ⟨ready, (Option.some.inj taken).symm⟩⟩
    · exact ⟨key, f, joining, free, .inr ⟨Bool.eq_false_iff.mpr ready, (Option.some.inj taken).symm⟩⟩
  · contradiction

theorem call_back_cases {outcome : Outcome} (taken : s.call_back c outcome = some s') :
    ∃ key f result, s.doing c = .calling key f result ∧ s' = { s with
      flight := Function.update s.flight f (s.flight f).release
      doing := Function.update s.doing c (.after key f outcome)
      invoked := s.invoked ++ [(c, result)] } := by
  unfold call_back at taken
  split at taken
  · next key f result calling => exact ⟨key, f, result, calling, (Option.some.inj taken).symm⟩
  · contradiction

theorem lookup_cases (taken : s.lookup n key result = some s') :
    s.notifying n = .idle ∧
      ((s.flights_ key = none ∧ s' = { s with
          notifying := Function.update s.notifying n (.returned key result none) }) ∨
        ∃ f, s.flights_ key = some f ∧ s' = { s with
          notifying := Function.update s.notifying n (.publishing key result f) }) := by
  unfold lookup at taken
  split at taken
  · next idle =>
    refine ⟨idle, ?_⟩
    split at taken
    · next absent => exact .inl ⟨absent, (Option.some.inj taken).symm⟩
    · next f found => exact .inr ⟨f, found, (Option.some.inj taken).symm⟩
  · contradiction

theorem publish_cases (taken : s.publish n = some s') :
    ∃ key result f, s.notifying n = .publishing key result f ∧ (s.flight f).mutex = none ∧
      s' = { s with
        flight := Function.update s.flight f ((s.flight f).resolve result)
        notifying := Function.update s.notifying n
          (.notifying key result f (s.flight f).callbacks) } := by
  unfold publish at taken
  split at taken
  · next key result f publishing =>
    split_ifs at taken with free
    exact ⟨key, result, f, publishing, free, (Option.some.inj taken).symm⟩
  · contradiction

theorem notify_cases (outcome : Outcome) (taken : s.notify n outcome = some s') :
    ∃ key result f c rest, s.notifying n = .notifying key result f (c :: rest) ∧ s' = { s with
      notifying := Function.update s.notifying n (.notifying key result f rest)
      invoked := s.invoked ++ [(c, result)] } := by
  unfold notify at taken
  split at taken
  · next key result f c rest notifying =>
    exact ⟨key, result, f, c, rest, notifying, (Option.some.inj taken).symm⟩
  · contradiction

theorem erase_cases (taken : s.erase n = some s') :
    ∃ key result f, s.notifying n = .notifying key result f [] ∧ s' = { s with
      flights_ := Function.update s.flights_ key none
      notifying := Function.update s.notifying n (.returned key result (some f)) } := by
  unfold erase at taken
  split at taken
  · next key result f notifying => exact ⟨key, result, f, notifying, (Option.some.inj taken).symm⟩
  · contradiction

/-- A call keeps its key from its election on. -/
theorem key_cases {e : Event Call} (taken : s.step? e = some s') (d : Call) :
    (s'.doing d).key = (s.doing d).key ∨
      ∃ key, e = .elect d key ∧ s.doing d = .idle ∧ (s'.doing d).key = some key := by
  cases e with
  | elect c key =>
    by_cases same : d = c
    · subst same
      obtain ⟨idle, ⟨-, rfl⟩ | ⟨f, -, -, rfl⟩⟩ := elect_cases taken
      · exact .inr ⟨key, rfl, idle, by simp only [lead, Function.update_self, DoCall.key]⟩
      · exact .inr ⟨key, rfl, idle, by simp only [Function.update_self, DoCall.key]⟩
    · obtain ⟨-, ⟨-, rfl⟩ | ⟨f, -, -, rfl⟩⟩ := elect_cases taken
      · exact .inl (by simp only [lead, Function.update_of_ne same])
      · exact .inl (by simp only [Function.update_of_ne same])
  | join c =>
    obtain ⟨key, f, joining, -, ⟨-, rfl⟩ | ⟨-, rfl⟩⟩ := join_cases taken
    · exact .inl (view_update DoCall.key (by rw [joining]; rfl) d)
    · exact .inl (view_update DoCall.key (by rw [joining]; rfl) d)
  | call_back c outcome =>
    obtain ⟨key, f, result, calling, rfl⟩ := call_back_cases taken
    refine .inl (view_update DoCall.key ?_ d)
    rw [calling]
    cases outcome <;> rfl
  | lookup n key result =>
    obtain ⟨-, ⟨-, rfl⟩ | ⟨f, -, rfl⟩⟩ := lookup_cases taken
    · exact .inl rfl
    · exact .inl rfl
  | publish n =>
    obtain ⟨key, result, f, -, -, rfl⟩ := publish_cases taken
    exact .inl rfl
  | notify n outcome =>
    obtain ⟨key, result, f, c, rest, -, rfl⟩ := notify_cases outcome taken
    exact .inl rfl
  | erase n =>
    obtain ⟨key, result, f, -, rfl⟩ := erase_cases taken
    exact .inl rfl

/-- A notifyResult call keeps its key and its result from its lookup on. -/
theorem sends_cases {e : Event Call} (taken : s.step? e = some s') (m : Call) :
    (s'.notifying m).sends = (s.notifying m).sends ∨
      ∃ key result, e = .lookup m key result ∧ s.notifying m = .idle ∧
        (s'.notifying m).sends = some (key, result) := by
  cases e with
  | elect c key =>
    obtain ⟨-, ⟨-, rfl⟩ | ⟨f, -, -, rfl⟩⟩ := elect_cases taken
    · exact .inl rfl
    · exact .inl rfl
  | join c =>
    obtain ⟨key, f, -, -, ⟨-, rfl⟩ | ⟨-, rfl⟩⟩ := join_cases taken
    · exact .inl rfl
    · exact .inl rfl
  | call_back c outcome =>
    obtain ⟨key, f, result, -, rfl⟩ := call_back_cases taken
    exact .inl rfl
  | lookup n key result =>
    by_cases same : m = n
    · subst same
      obtain ⟨idle, ⟨-, rfl⟩ | ⟨f, -, rfl⟩⟩ := lookup_cases taken
      · exact .inr ⟨key, result, rfl, idle, by simp only [Function.update_self, NotifyCall.sends]⟩
      · exact .inr ⟨key, result, rfl, idle, by simp only [Function.update_self, NotifyCall.sends]⟩
    · obtain ⟨-, ⟨-, rfl⟩ | ⟨f, -, rfl⟩⟩ := lookup_cases taken
      · exact .inl (by simp only [Function.update_of_ne same])
      · exact .inl (by simp only [Function.update_of_ne same])
  | publish n =>
    obtain ⟨key, result, f, publishing, -, rfl⟩ := publish_cases taken
    exact .inl (view_update NotifyCall.sends (by rw [publishing]; rfl) m)
  | notify n outcome =>
    obtain ⟨key, result, f, c, rest, notifying, rfl⟩ := notify_cases outcome taken
    exact .inl (view_update NotifyCall.sends (by rw [notifying]; rfl) m)
  | erase n =>
    obtain ⟨key, result, f, notifying, rfl⟩ := erase_cases taken
    exact .inl (view_update NotifyCall.sends (by rw [notifying]; rfl) m)

/-- A notifyResult call that has returned takes no more steps. -/
theorem notifying_of_returned {e : Event Call} {found : Option Call}
    (returned : s.notifying n = .returned key result found) (taken : s.step? e = some s') :
    s'.notifying n = .returned key result found := by
  have other : ∀ {m : Call} {next : NotifyCall Call}, s.notifying m ≠ .returned key result found →
      Function.update s.notifying m next n = .returned key result found := by
    intro m next moving
    rw [Function.update_of_ne, returned]
    rintro rfl
    exact moving returned
  cases e with
  | elect c key =>
    obtain ⟨-, ⟨-, rfl⟩ | ⟨f, -, -, rfl⟩⟩ := elect_cases taken
    · exact returned
    · exact returned
  | join c =>
    obtain ⟨key, f, -, -, ⟨-, rfl⟩ | ⟨-, rfl⟩⟩ := join_cases taken
    · exact returned
    · exact returned
  | call_back c outcome =>
    obtain ⟨key, f, result, -, rfl⟩ := call_back_cases taken
    exact returned
  | lookup m key result =>
    obtain ⟨idle, ⟨-, rfl⟩ | ⟨f, -, rfl⟩⟩ := lookup_cases taken
    · exact other (by rw [idle]; nofun)
    · exact other (by rw [idle]; nofun)
  | publish m =>
    obtain ⟨key, result, f, publishing, -, rfl⟩ := publish_cases taken
    exact other (by rw [publishing]; nofun)
  | notify m outcome =>
    obtain ⟨key, result, f, c, rest, notifying, rfl⟩ := notify_cases outcome taken
    exact other (by rw [notifying]; nofun)
  | erase m =>
    obtain ⟨key, result, f, notifying, rfl⟩ := erase_cases taken
    exact other (by rw [notifying]; nofun)

end State

end FlightProxy.SingleFlight
