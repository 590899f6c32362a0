import FlightProxy.SingleFlight.Election

/-! # How an unready flight leaves the map

A leader's flight stays under its key, unready, until some notifyResult call publishes to it or runs
its final erase under the key. Callers do not take it out: whoever asks for the key joins it.
-/

namespace FlightProxy.SingleFlight.State

variable {Call : Type*}

/-- The map holds the flight under the key, and it is not ready. -/
def Keeps (s : State Call) (key : Bytes) (f : Call) : Prop :=
  s.flights_ key = some f ∧ (s.flight f).ready = false

/-- A notifyResult call for the key publishes to the flight, or erases the key. -/
def Releases (key : Bytes) (f : Call) (s : State Call) : Event Call → Prop
  | .publish n => ∃ result, s.notifying n = .publishing key result f
  | .erase n => ∃ result g, s.notifying n = .notifying key result g []
  | _ => False

variable [DecidableEq Call] {s s' t : State Call} {c n f : Call} {key : Bytes} {e : Event Call}
  {es : List (Event Call)}

/-- The map gains a flight only by the election of its leader. -/
theorem entry_cases (taken : s.step? e = some s') (present : s'.flights_ key = some f) :
    s.flights_ key = some f ∨ s.doing f = .idle := by
  cases e with
  | elect c key' =>
    obtain ⟨idle, ⟨-, rfl⟩ | ⟨g, -, -, rfl⟩⟩ := elect_cases taken
    · simp only [lead, Function.update_apply] at present
      split_ifs at present
      · obtain rfl := Option.some.inj present
        exact .inr idle
      · exact .inl present
    · exact .inl present
  | join c =>
    obtain ⟨key', g, -, -, ⟨-, rfl⟩ | ⟨-, rfl⟩⟩ := join_cases taken
    · exact .inl present
    · exact .inl present
  | call_back c outcome =>
    obtain ⟨key', g, result, -, rfl⟩ := call_back_cases taken
    exact .inl present
  | lookup n key' result =>
    obtain ⟨-, ⟨-, rfl⟩ | ⟨g, -, rfl⟩⟩ := lookup_cases taken
    · exact .inl present
    · exact .inl present
  | publish n =>
    obtain ⟨key', result, g, -, -, rfl⟩ := publish_cases taken
    exact .inl present
  | notify n outcome =>
    obtain ⟨key', result, g, c, rest, -, rfl⟩ := notify_cases outcome taken
    exact .inl present
  | erase n =>
    obtain ⟨key', result, g, -, rfl⟩ := erase_cases taken
    simp only [Function.update_apply] at present
    split_ifs at present
    exact .inl present

/-- A flight that has left the map, or is ready, does not come back. -/
theorem not_keeps_of_step (leads : s.doing f = .leader key) (gone : ¬ s.Keeps key f)
    (taken : s.step? e = some s') : ¬ s'.Keeps key f := by
  rintro ⟨present, unready⟩
  apply gone
  refine ⟨?_, Bool.eq_false_iff.mpr fun ready => ?_⟩
  · rcases entry_cases taken present with before | idle
    · exact before
    · rw [leads] at idle
      contradiction
  · rw [ready_persists leads ready taken] at unready
    contradiction

/-- One step takes the flight out, or makes it ready, exactly when it releases it. -/
theorem Keeps.step (kept : s.Keeps key f) (led : s.Led) (taken : s.step? e = some s') :
    ¬ s'.Keeps key f ↔ s.Releases key f e := by
  obtain ⟨present, unready⟩ := kept
  have leads := led.entry present
  cases e with
  | elect c key' =>
    refine iff_of_false (not_not_intro ?_) id
    obtain ⟨idle, ⟨replaceable, rfl⟩ | ⟨g, -, -, rfl⟩⟩ := elect_cases taken
    · have other : key ≠ key' := by
        rintro rfl
        rw [replaceable f present] at unready
        contradiction
      have distinct : f ≠ c := by
        rintro rfl
        rw [leads] at idle
        contradiction
      simp only [Keeps, lead]
      rw [Function.update_of_ne other, Function.update_of_ne distinct]
      exact ⟨present, unready⟩
    · exact ⟨present, unready⟩
  | join c =>
    refine iff_of_false (not_not_intro ?_) id
    obtain ⟨key', g, -, -, ⟨-, rfl⟩ | ⟨-, rfl⟩⟩ := join_cases taken
    · exact ⟨present, by rw [ready_acquire, unready]⟩
    · exact ⟨present, by rw [ready_enrol, unready]⟩
  | call_back c outcome =>
    refine iff_of_false (not_not_intro ?_) id
    obtain ⟨key', g, result, -, rfl⟩ := call_back_cases taken
    exact ⟨present, by rw [ready_release, unready]⟩
  | lookup n key' result =>
    refine iff_of_false (not_not_intro ?_) id
    obtain ⟨-, ⟨-, rfl⟩ | ⟨g, -, rfl⟩⟩ := lookup_cases taken
    · exact ⟨present, unready⟩
    · exact ⟨present, unready⟩
  | publish n =>
    obtain ⟨key', result, g, publishing, -, rfl⟩ := publish_cases taken
    by_cases same : f = g
    · subst same
      have led' := led.notifying (n := n) (by rw [publishing]; rfl)
      obtain rfl := DoCall.leader.inj (leads.symm.trans led')
      refine iff_of_true ?_ ⟨result, publishing⟩
      rintro ⟨-, still⟩
      simp only [Function.update_self, Flight.resolve] at still
      contradiction
    · refine iff_of_false (not_not_intro ⟨present, ?_⟩) ?_
      · simp only
        rw [Function.update_of_ne same, unready]
      · rintro ⟨result', publishing'⟩
        rw [publishing] at publishing'
        exact same (NotifyCall.publishing.inj publishing').2.2.symm
  | notify n outcome =>
    refine iff_of_false (not_not_intro ?_) id
    obtain ⟨key', result, g, c, rest, -, rfl⟩ := notify_cases outcome taken
    exact ⟨present, unready⟩
  | erase n =>
    obtain ⟨key', result, g, notifying, rfl⟩ := erase_cases taken
    by_cases same : key = key'
    · subst same
      refine iff_of_true ?_ ⟨result, g, notifying⟩
      rintro ⟨still, -⟩
      simp only [Function.update_self] at still
      contradiction
    · refine iff_of_false (not_not_intro ⟨?_, unready⟩) ?_
      · simp only
        rw [Function.update_of_ne same, present]
      · rintro ⟨result', g', notifying'⟩
        rw [notifying] at notifying'
        exact same (NotifyCall.notifying.inj notifying').1.symm

/-- While the flight is kept, whoever asks for its key joins it. -/
theorem Keeps.joined (kept : s.Keeps key f) (taken : s.elect c key = some s') :
    s'.doing c = .joining key f := by
  obtain ⟨-, ⟨replaceable, rfl⟩ | ⟨g, present, -, rfl⟩⟩ := elect_cases taken
  · have ready := replaceable f kept.1
    rw [kept.2] at ready
    contradiction
  · obtain rfl := Option.some.inj (kept.1.symm.trans present)
    exact Function.update_self ..

end FlightProxy.SingleFlight.State
