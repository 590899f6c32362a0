import FlightProxy.SingleFlight.Callbacks
import Mathlib.Data.List.Nodup

/-! # A block can always be run

A flight's mutex is held across blocks only by a call that is about to run its direct callback, and
that block waits for nothing. So whenever a call is in progress some call can go on, and each has a
bounded number of blocks left to run.
-/

namespace FlightProxy.SingleFlight

/-- Updating one call lowers what is left of it, and of no other. -/
theorem left_update {Call β : Type*} [DecidableEq Call] (left : Call → β → ℕ) (values : Call → β)
    {c : Call} (next : β) (less : left c next < left c (values c)) :
    (∀ d, left d (Function.update values c next d) ≤ left d (values d)) ∧
      ∃ d, left d (Function.update values c next d) < left d (values d) := by
  refine ⟨fun d => ?_, c, ?_⟩
  · rw [Function.update_apply]
    split_ifs with here
    · rw [here]
      exact Nat.le_of_lt less
    · exact Nat.le_refl _
  · rwa [Function.update_self]

variable {Call : Type*}

/-- The blocks left to run of a doSingleFlight call in progress. -/
def DoCall.left : DoCall Call → ℕ
  | .joining _ _ => 2
  | .calling _ _ _ => 1
  | _ => 0

/-- The blocks left to run of a notifyResult call in progress, if no flight has more callbacks. -/
def NotifyCall.left (callbacks : ℕ) : NotifyCall Call → ℕ
  | .publishing _ _ _ => callbacks + 2
  | .notifying _ _ _ rest => rest.length + 1
  | _ => 0

namespace State

/-- Whoever holds a flight's mutex is about to run its callback, and no callback is enrolled twice. -/
structure Orderly (s : State Call) : Prop where
  held : ∀ {f c}, (s.flight f).mutex = some c → ∃ key result, s.doing c = .calling key f result
  nodup : ∀ f, (s.flight f).callbacks.Nodup
  snapshot : ∀ {n key result f rest}, s.notifying n = .notifying key result f rest → rest.Nodup

theorem orderly_init : (init : State Call).Orderly :=
  ⟨fun held => by contradiction, fun _ => List.nodup_nil, nofun⟩

variable [DecidableEq Call] {s s' : State Call} {c n f : Call} {e : Event Call}

/-- A step of a call that holds no mutex, which leaves the mutexes alone. -/
private theorem Orderly.moves (orderly : s.Orderly) {next : DoCall Call}
    (unheld : ∀ key f result, s.doing c ≠ .calling key f result) {d f : Call}
    (held : (s.flight f).mutex = some d) :
    ∃ key result, Function.update s.doing c next d = .calling key f result := by
  obtain ⟨key, result, calling⟩ := orderly.held held
  refine ⟨key, result, ?_⟩
  rw [Function.update_of_ne, calling]
  rintro rfl
  exact unheld _ _ _ calling

private theorem Orderly.snapshots (orderly : s.Orderly) {next : NotifyCall Call}
    (nodup : ∀ key result f rest, next = .notifying key result f rest → rest.Nodup) {m : Call}
    {key result : Bytes} {f : Call} {rest : List Call}
    (notifying : Function.update s.notifying n next m = .notifying key result f rest) : rest.Nodup := by
  rw [Function.update_apply] at notifying
  split_ifs at notifying
  · exact nodup _ _ _ _ notifying
  · exact orderly.snapshot notifying

theorem Orderly.step (orderly : s.Orderly) (enrolled : s.Enrolled) (taken : s.step? e = some s') :
    s'.Orderly := by
  cases e with
  | elect c key =>
    obtain ⟨idle, ⟨-, rfl⟩ | ⟨f, -, -, rfl⟩⟩ := elect_cases taken
    · refine ⟨?_, ?_, orderly.snapshot⟩
      · intro f d held
        simp only [lead, Function.update_apply] at held
        split_ifs at held
        exact orderly.moves (by simp [idle]) held
      · intro f
        simp only [lead, Function.update_apply]
        split_ifs
        · exact List.nodup_nil
        · exact orderly.nodup f
    · exact ⟨fun held => orderly.moves (by simp [idle]) held, orderly.nodup, orderly.snapshot⟩
  | join c =>
    obtain ⟨key, f, joining, free, ⟨-, rfl⟩ | ⟨-, rfl⟩⟩ := join_cases taken
    · refine ⟨?_, ?_, orderly.snapshot⟩
      · intro g d held
        simp only [Function.update_apply (f := s.flight)] at held
        split_ifs at held with here
        · subst here
          obtain rfl := Option.some.inj held
          exact ⟨key, _, Function.update_self ..⟩
        · exact orderly.moves (by simp [joining]) held
      · intro g
        rw [callbacks_acquire]
        exact orderly.nodup g
    · refine ⟨?_, ?_, orderly.snapshot⟩
      · intro g d held
        have held : (s.flight g).mutex = some d := by
          rwa [view_update Flight.mutex (by rfl) g] at held
        exact orderly.moves (by simp [joining]) held
      · intro g
        simp only [Function.update_apply]
        split_ifs with here
        · subst here
          apply List.Nodup.append (orderly.nodup g) (List.nodup_singleton c)
          rw [List.disjoint_singleton]
          intro member
          obtain ⟨key', waiter⟩ := enrolled.callbacks member
          cases joining.symm.trans waiter
        · exact orderly.nodup g
  | call_back c outcome =>
    obtain ⟨key, f, result, calling, rfl⟩ := call_back_cases taken
    refine ⟨?_, ?_, orderly.snapshot⟩
    · intro g d held
      simp only [Function.update_apply (f := s.flight)] at held
      split_ifs at held with here
      · contradiction
      · obtain ⟨key', result', calling'⟩ := orderly.held held
        refine ⟨key', result', ?_⟩
        simp only
        rw [Function.update_of_ne, calling']
        rintro rfl
        exact here (DoCall.calling.inj (calling'.symm.trans calling)).2.1
    · intro g
      rw [callbacks_release]
      exact orderly.nodup g
  | lookup n key result =>
    obtain ⟨-, ⟨-, rfl⟩ | ⟨f, -, rfl⟩⟩ := lookup_cases taken
    · exact ⟨orderly.held, orderly.nodup, orderly.snapshots (by simp)⟩
    · exact ⟨orderly.held, orderly.nodup, orderly.snapshots (by simp)⟩
  | publish n =>
    obtain ⟨key, result, f, -, -, rfl⟩ := publish_cases taken
    refine ⟨?_, ?_, orderly.snapshots ?_⟩
    · intro g d held
      rw [view_update Flight.mutex (by rfl) g] at held
      exact orderly.held held
    · intro g
      rw [view_update Flight.callbacks (by rfl) g]
      exact orderly.nodup g
    · intro key' result' f' rest same
      obtain ⟨-, -, -, rfl⟩ := NotifyCall.notifying.inj same
      exact orderly.nodup f
  | notify n outcome =>
    obtain ⟨key, result, f, c, rest, notifying, rfl⟩ := notify_cases outcome taken
    refine ⟨orderly.held, orderly.nodup, orderly.snapshots ?_⟩
    intro key' result' f' rest' same
    obtain ⟨-, -, -, rfl⟩ := NotifyCall.notifying.inj same
    exact (List.nodup_cons.mp (orderly.snapshot notifying)).2
  | erase n =>
    obtain ⟨key, result, f, -, rfl⟩ := erase_cases taken
    exact ⟨orderly.held, orderly.nodup, orderly.snapshots (by simp)⟩

/-- A block of a call in progress leaves it one block less, if no flight has more callbacks. -/
theorem left_of_step {callbacks : ℕ} (fits : ∀ f, (s.flight f).callbacks.length ≤ callbacks)
    (elections : ∀ c key, e ≠ .elect c key) (lookups : ∀ n key result, e ≠ .lookup n key result)
    (taken : s.step? e = some s') :
    (∀ c, (s'.doing c).left ≤ (s.doing c).left) ∧
      (∀ n, (s'.notifying n).left callbacks ≤ (s.notifying n).left callbacks) ∧
        ((∃ c, (s'.doing c).left < (s.doing c).left) ∨
          ∃ n, (s'.notifying n).left callbacks < (s.notifying n).left callbacks) := by
  cases e with
  | elect c key => exact absurd rfl (elections c key)
  | lookup n key result => exact absurd rfl (lookups n key result)
  | join c =>
    obtain ⟨key, f, joining, -, ⟨-, rfl⟩ | ⟨-, rfl⟩⟩ := join_cases taken
    · obtain ⟨others, some⟩ := left_update (c := c) (fun _ => DoCall.left) s.doing
        (.calling key f (s.flight f).result) (by
          rw [joining]
          exact Nat.one_lt_two)
      exact ⟨others, fun _ => Nat.le_refl _, .inl some⟩
    · obtain ⟨others, some⟩ := left_update (c := c) (fun _ => DoCall.left) s.doing (.waiter key f) (by
          rw [joining]
          exact Nat.two_pos)
      exact ⟨others, fun _ => Nat.le_refl _, .inl some⟩
  | call_back c outcome =>
    obtain ⟨key, f, result, calling, rfl⟩ := call_back_cases taken
    obtain ⟨others, some⟩ := left_update (c := c) (fun _ => DoCall.left) s.doing (.after key f outcome) (by
        rw [calling]
        cases outcome <;> exact Nat.one_pos)
    exact ⟨others, fun _ => Nat.le_refl _, .inl some⟩
  | publish n =>
    obtain ⟨key, result, f, publishing, -, rfl⟩ := publish_cases taken
    obtain ⟨others, some⟩ := left_update (c := n) (fun _ => NotifyCall.left callbacks) s.notifying
      (.notifying key result f (s.flight f).callbacks) (by
        rw [publishing]
        have := fits f
        simp only [NotifyCall.left]
        omega)
    exact ⟨fun _ => Nat.le_refl _, others, .inr some⟩
  | notify n outcome =>
    obtain ⟨key, result, f, c, rest, notifying, rfl⟩ := notify_cases outcome taken
    obtain ⟨others, some⟩ := left_update (c := n) (fun _ => NotifyCall.left callbacks) s.notifying
      (.notifying key result f rest) (by
        rw [notifying]
        simp [NotifyCall.left])
    exact ⟨fun _ => Nat.le_refl _, others, .inr some⟩
  | erase n =>
    obtain ⟨key, result, f, notifying, rfl⟩ := erase_cases taken
    obtain ⟨others, some⟩ := left_update (c := n) (fun _ => NotifyCall.left callbacks) s.notifying
      (.returned key result (some f)) (by
        rw [notifying]
        simp [NotifyCall.left])
    exact ⟨fun _ => Nat.le_refl _, others, .inr some⟩

omit [DecidableEq Call] in
/-- Unless a direct callback is about to run, no mutex is held. -/
theorem Orderly.free (orderly : s.Orderly) (quiet : ∀ c key f result, s.doing c ≠ .calling key f result)
    (f : Call) : (s.flight f).mutex = none := by
  by_contra held
  obtain ⟨c, held⟩ := Option.ne_none_iff_exists'.mp held
  obtain ⟨key, result, calling⟩ := orderly.held held
  exact quiet _ _ _ _ calling

/-- A call that waits for a mutex is not alone: some call can go on. -/
theorem Orderly.progress (orderly : s.Orderly)
    (some : (∃ c, 0 < (s.doing c).left) ∨ ∃ n callbacks, 0 < (s.notifying n).left callbacks) :
    ∃ e, (∀ c key, e ≠ .elect c key) ∧ (∀ n key result, e ≠ .lookup n key result) ∧
      s.step? e ≠ none := by
  by_cases calling : ∃ c key f result, s.doing c = .calling key f result
  · obtain ⟨c, key, f, result, calling⟩ := calling
    exact ⟨.call_back c .returned, by simp, by simp, by simp [step?, call_back, calling]⟩
  · push Not at calling
    have free := orderly.free calling
    rcases some with ⟨c, more⟩ | ⟨n, callbacks, more⟩
    · cases doing : s.doing c with
      | joining key f =>
        refine ⟨.join c, by simp, by simp, ?_⟩
        simp only [step?, join, doing, if_pos (free f)]
        split_ifs <;> exact Option.some_ne_none _
      | calling key f result => exact absurd doing (calling c key f result)
      | idle | leader | waiter | threw =>
        rw [doing] at more
        contradiction
    · cases notifying : s.notifying n with
      | publishing key result f =>
        exact ⟨.publish n, by simp, by simp, by simp [step?, publish, notifying, free f]⟩
      | notifying key result f rest =>
        cases rest with
        | nil => exact ⟨.erase n, by simp, by simp, by simp [step?, erase, notifying]⟩
        | cons c rest =>
          exact ⟨.notify n .returned, by simp, by simp, by simp [step?, notify, notifying]⟩
      | idle | returned =>
        rw [notifying] at more
        contradiction

end State

end FlightProxy.SingleFlight
