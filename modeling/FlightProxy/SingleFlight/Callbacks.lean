import FlightProxy.SingleFlight.Steps

/-! # Whose callbacks are run

A callback is enrolled, snapshot or run only for a call that joined the flight, so never for a
leader, whatever the callers do.
-/

namespace FlightProxy.SingleFlight

variable {Call : Type*}

/-- Past its last block. -/
def DoCall.done : DoCall Call → Bool
  | .leader _ | .waiter _ _ | .threw _ _ => true
  | .idle | .joining _ _ | .calling _ _ _ => false

/-- A call that found the flight ready, or enrolled in it, and has returned. -/
def DoCall.joined (f : Call) (d : DoCall Call) : Prop :=
  ∃ key, d = .waiter key f ∨ d = .threw key f

namespace State

variable [DecidableEq Call] {s s' : State Call} {c d n : Call} {e : Event Call}

/-- A call that is done stays where it is. -/
theorem doing_of_done (done : (s.doing d).done = true) (taken : s.step? e = some s') :
    s'.doing d = s.doing d := by
  have other : ∀ {c : Call} {next : DoCall Call}, (s.doing c).done = false →
      Function.update s.doing c next d = s.doing d := by
    intro c next undone
    apply Function.update_of_ne
    rintro rfl
    rw [done] at undone
    contradiction
  cases e with
  | elect c key =>
    obtain ⟨idle, ⟨-, rfl⟩ | ⟨f, -, -, rfl⟩⟩ := elect_cases taken
    · exact other (by rw [idle]; rfl)
    · exact other (by rw [idle]; rfl)
  | join c =>
    obtain ⟨key, f, joining, -, ⟨-, rfl⟩ | ⟨-, rfl⟩⟩ := join_cases taken
    · exact other (by rw [joining]; rfl)
    · exact other (by rw [joining]; rfl)
  | call_back c outcome =>
    obtain ⟨key, f, result, calling, rfl⟩ := call_back_cases taken
    exact other (by rw [calling]; rfl)
  | lookup n key result =>
    obtain ⟨-, ⟨-, rfl⟩ | ⟨f, -, rfl⟩⟩ := lookup_cases taken
    · rfl
    · rfl
  | publish n =>
    obtain ⟨key, result, f, -, -, rfl⟩ := publish_cases taken
    rfl
  | notify n outcome =>
    obtain ⟨key, result, f, c, rest, -, rfl⟩ := notify_cases outcome taken
    rfl
  | erase n =>
    obtain ⟨key, result, f, -, rfl⟩ := erase_cases taken
    rfl

/-- Callbacks belong to calls that wait for the flight, and were run for calls that joined one. -/
structure Enrolled (s : State Call) : Prop where
  callbacks : ∀ {c f}, c ∈ (s.flight f).callbacks → ∃ key, s.doing c = .waiter key f
  snapshot : ∀ {n key result f rest c}, s.notifying n = .notifying key result f rest → c ∈ rest →
    ∃ key, s.doing c = .waiter key f
  invoked : ∀ {c result}, (c, result) ∈ s.invoked → ∃ f, (s.doing c).joined f

omit [DecidableEq Call] in
theorem enrolled_init : (init : State Call).Enrolled :=
  ⟨fun member => absurd member List.not_mem_nil, fun notifying => by contradiction,
    fun member => absurd member List.not_mem_nil⟩

private theorem waiter_persists {key : Bytes} {f : Call} (waiter : s.doing d = .waiter key f)
    (taken : s.step? e = some s') : s'.doing d = .waiter key f :=
  (doing_of_done (by rw [waiter]; rfl) taken).trans waiter

private theorem joined_persists {f : Call} (joined : (s.doing d).joined f)
    (taken : s.step? e = some s') : (s'.doing d).joined f := by
  have same := doing_of_done (d := d) (by obtain ⟨key, at_ | at_⟩ := joined <;> rw [at_] <;> rfl) taken
  rwa [same]

/-- What a step keeps, when what it adds is accounted for. -/
private theorem Enrolled.keep (enrolled : s.Enrolled) (taken : s.step? e = some s')
    (callbacks : ∀ {c f}, c ∈ (s'.flight f).callbacks →
      c ∈ (s.flight f).callbacks ∨ ∃ key, s'.doing c = .waiter key f)
    (snapshot : ∀ {n key result f rest c}, s'.notifying n = .notifying key result f rest →
      c ∈ rest → (∃ m key result rest, s.notifying m = .notifying key result f rest ∧ c ∈ rest) ∨
        ∃ key, s'.doing c = .waiter key f)
    (invoked : ∀ {c result}, (c, result) ∈ s'.invoked →
      (c, result) ∈ s.invoked ∨ ∃ f, (s'.doing c).joined f) : s'.Enrolled := by
  constructor
  · intro c f member
    rcases callbacks member with before | now
    · obtain ⟨key, waiter⟩ := enrolled.callbacks before
      exact ⟨key, waiter_persists waiter taken⟩
    · exact now
  · intro n key result f rest c notifying member
    rcases snapshot notifying member with ⟨m, key', result', rest', before, member'⟩ | now
    · obtain ⟨key, waiter⟩ := enrolled.snapshot before member'
      exact ⟨key, waiter_persists waiter taken⟩
    · exact now
  · intro c result member
    rcases invoked member with before | now
    · obtain ⟨f, joined⟩ := enrolled.invoked before
      exact ⟨f, joined_persists joined taken⟩
    · exact now

theorem Enrolled.step (enrolled : s.Enrolled) (taken : s.step? e = some s') : s'.Enrolled := by
  have unnotified : ∀ {n : Call} {next : NotifyCall Call} {m : Call} {key result : Bytes} {f : Call}
      {rest : List Call} {c : Call}, (∀ key result f rest, next ≠ .notifying key result f rest) →
      Function.update s.notifying n next m = .notifying key result f rest → c ∈ rest →
        ∃ m key result rest, s.notifying m = .notifying key result f rest ∧ c ∈ rest := by
    intro n next m key result f rest c other notifying member
    rw [Function.update_apply] at notifying
    split_ifs at notifying
    · exact absurd notifying (other _ _ _ _)
    · exact ⟨m, key, result, rest, notifying, member⟩
  have taken' := taken
  cases e with
  | elect c key =>
    obtain ⟨idle, ⟨-, rfl⟩ | ⟨f, -, -, rfl⟩⟩ := elect_cases taken
    · refine enrolled.keep taken' ?_ (fun notifying member => .inl ⟨_, _, _, _, notifying, member⟩) .inl
      intro d f member
      simp only [lead, Function.update_apply] at member
      split_ifs at member
      · exact absurd member List.not_mem_nil
      · exact .inl member
    · exact enrolled.keep taken' .inl (fun notifying member => .inl ⟨_, _, _, _, notifying, member⟩) .inl
  | join c =>
    obtain ⟨key, f, joining, -, ⟨-, rfl⟩ | ⟨-, rfl⟩⟩ := join_cases taken
    · refine enrolled.keep taken' ?_ (fun notifying member => .inl ⟨_, _, _, _, notifying, member⟩) .inl
      intro d g member
      rw [callbacks_acquire] at member
      exact .inl member
    · refine enrolled.keep taken' ?_ (fun notifying member => .inl ⟨_, _, _, _, notifying, member⟩) .inl
      intro d g member
      simp only [Function.update_apply] at member
      split_ifs at member with here
      · subst here
        rcases List.mem_append.mp member with before | now
        · exact .inl before
        · obtain rfl := List.mem_singleton.mp now
          exact .inr ⟨key, Function.update_self ..⟩
      · exact .inl member
  | call_back c outcome =>
    obtain ⟨key, f, result, calling, rfl⟩ := call_back_cases taken
    refine enrolled.keep taken' ?_ (fun notifying member => .inl ⟨_, _, _, _, notifying, member⟩) ?_
    · intro d g member
      rw [callbacks_release] at member
      exact .inl member
    · intro d result' member
      rcases List.mem_append.mp member with before | now
      · exact .inl before
      · obtain ⟨rfl, rfl⟩ := Prod.mk.inj (List.mem_singleton.mp now)
        refine .inr ⟨f, key, ?_⟩
        simp only [Function.update_self]
        cases outcome
        · exact .inl rfl
        · exact .inr rfl
  | lookup n key result =>
    obtain ⟨-, ⟨-, rfl⟩ | ⟨f, -, rfl⟩⟩ := lookup_cases taken
    · exact enrolled.keep taken' .inl (fun at_ member => .inl (unnotified (by simp) at_ member)) .inl
    · exact enrolled.keep taken' .inl (fun at_ member => .inl (unnotified (by simp) at_ member)) .inl
  | publish n =>
    obtain ⟨key, result, f, publishing, -, rfl⟩ := publish_cases taken
    refine enrolled.keep taken' ?_ ?_ .inl
    · intro d g member
      refine .inl ?_
      rwa [view_update Flight.callbacks (by rfl) g] at member
    · intro m key' result' g rest d notifying member
      simp only [Function.update_apply] at notifying
      split_ifs at notifying
      · obtain ⟨-, -, rfl, rfl⟩ := NotifyCall.notifying.inj notifying
        exact .inr (enrolled.callbacks member)
      · exact .inl ⟨m, key', result', rest, notifying, member⟩
  | notify n outcome =>
    obtain ⟨key, result, f, c, rest, notifying, rfl⟩ := notify_cases outcome taken
    refine enrolled.keep taken' .inl ?_ ?_
    · intro m key' result' g rest' d at_ member
      simp only [Function.update_apply] at at_
      split_ifs at at_
      · obtain ⟨-, -, rfl, rfl⟩ := NotifyCall.notifying.inj at_
        exact .inl ⟨n, key, result, _, notifying, List.mem_cons_of_mem _ member⟩
      · exact .inl ⟨m, key', result', rest', at_, member⟩
    · intro d result' member
      rcases List.mem_append.mp member with before | now
      · exact .inl before
      · obtain ⟨rfl, rfl⟩ := Prod.mk.inj (List.mem_singleton.mp now)
        obtain ⟨key', waiter⟩ := enrolled.snapshot notifying List.mem_cons_self
        exact .inr ⟨f, key', .inl waiter⟩
  | erase n =>
    obtain ⟨key, result, f, -, rfl⟩ := erase_cases taken
    exact enrolled.keep taken' .inl (fun at_ member => .inl (unnotified (by simp) at_ member)) .inl

end State

end FlightProxy.SingleFlight
