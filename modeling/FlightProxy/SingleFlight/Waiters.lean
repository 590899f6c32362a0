import FlightProxy.SingleFlight.Handshake

/-! # Where the callback of a waiter is

The callback of a call that waits has been run, is in the list of a flight that is not ready, or is in
what a notifier has still to run. No block loses it.
-/

namespace FlightProxy.SingleFlight.State

open Transition

variable {Call : Type*}

/-- The flight is not ready, and the callback of the call is in its list. -/
structure Enlisted (s : State Call) (c f : Call) : Prop where
  unready : (s.flight f).ready = false
  member : c ∈ (s.flight f).callbacks

/-- A notifier has still to run the callback of the call. -/
def Due (s : State Call) (c : Call) : Prop :=
  ∃ n key result f rest, s.notifying n = .notifying key result f rest ∧ c ∈ rest

/-- Nobody has lost the callback of a waiter. -/
def Pursued (s : State Call) : Prop := ∀ c key f, s.doing c = .waiter key f →
  (∃ result, (c, result) ∈ s.invoked) ∨ s.Enlisted c f ∨ s.Due c

theorem pursued_init : (init : State Call).Pursued := fun _ _ _ waits => by contradiction

variable [DecidableEq Call] {s s' : State Call} {c f : Call} {key : Bytes} {e : Event Call}

/-- The invocations of a block come after those before. -/
theorem invoked_mono (taken : s.step? e = some s') : s.invoked <+: s'.invoked := by
  cases e with
  | elect c key =>
    obtain ⟨-, ⟨-, rfl⟩ | ⟨f, -, -, rfl⟩⟩ := elect_cases taken
    · exact List.prefix_rfl
    · exact List.prefix_rfl
  | join c =>
    obtain ⟨key, f, -, -, ⟨-, rfl⟩ | ⟨-, rfl⟩⟩ := join_cases taken
    · exact List.prefix_rfl
    · exact List.prefix_rfl
  | call_back c outcome =>
    obtain ⟨key, f, result, -, rfl⟩ := call_back_cases taken
    exact List.prefix_append ..
  | lookup n key result =>
    obtain ⟨-, ⟨-, rfl⟩ | ⟨f, -, rfl⟩⟩ := lookup_cases taken
    · exact List.prefix_rfl
    · exact List.prefix_rfl
  | publish n =>
    obtain ⟨key, result, f, -, -, rfl⟩ := publish_cases taken
    exact List.prefix_rfl
  | notify n outcome =>
    obtain ⟨key, result, f, c, rest, -, rfl⟩ := notify_cases outcome taken
    exact List.prefix_append ..
  | erase n =>
    obtain ⟨key, result, f, -, rfl⟩ := erase_cases taken
    exact List.prefix_rfl

/-- A callback that is due stays so until it is run. -/
theorem Due.step (due : s.Due c) (taken : s.step? e = some s') :
    (∃ result, (c, result) ∈ s'.invoked) ∨ s'.Due c := by
  obtain ⟨n, key, result, f, rest, notifying, member⟩ := due
  have kept : ∀ {m : Call} {next : NotifyCall Call}, s.notifying m ≠ .notifying key result f rest →
      Function.update s.notifying m next n = .notifying key result f rest := by
    intro m next other
    rw [Function.update_of_ne, notifying]
    rintro rfl
    exact other notifying
  cases e with
  | elect c key =>
    obtain ⟨-, ⟨-, rfl⟩ | ⟨g, -, -, rfl⟩⟩ := elect_cases taken
    · exact .inr ⟨n, _, _, _, _, notifying, member⟩
    · exact .inr ⟨n, _, _, _, _, notifying, member⟩
  | join c =>
    obtain ⟨key', g, -, -, ⟨-, rfl⟩ | ⟨-, rfl⟩⟩ := join_cases taken
    · exact .inr ⟨n, _, _, _, _, notifying, member⟩
    · exact .inr ⟨n, _, _, _, _, notifying, member⟩
  | call_back c outcome =>
    obtain ⟨key', g, result', -, rfl⟩ := call_back_cases taken
    exact .inr ⟨n, _, _, _, _, notifying, member⟩
  | lookup m key' result' =>
    obtain ⟨idle, ⟨-, rfl⟩ | ⟨g, -, rfl⟩⟩ := lookup_cases taken
    · exact .inr ⟨n, _, _, _, _, kept (by rw [idle]; nofun), member⟩
    · exact .inr ⟨n, _, _, _, _, kept (by rw [idle]; nofun), member⟩
  | publish m =>
    obtain ⟨key', result', g, publishing, -, rfl⟩ := publish_cases taken
    exact .inr ⟨n, _, _, _, _, kept (by rw [publishing]; nofun), member⟩
  | notify m outcome =>
    obtain ⟨key', result', g, d, rest', running, rfl⟩ := notify_cases outcome taken
    by_cases same : m = n
    · subst same
      obtain ⟨rfl, rfl, rfl, rfl⟩ := NotifyCall.notifying.inj (notifying.symm.trans running)
      rcases List.mem_cons.mp member with rfl | later
      · exact .inl ⟨_, List.mem_append_right _ (List.mem_singleton_self _)⟩
      · exact .inr ⟨m, _, _, _, _, Function.update_self .., later⟩
    · exact .inr ⟨n, key, result, f, rest,
        (Function.update_of_ne (Ne.symm same) ..).trans notifying, member⟩
  | erase m =>
    obtain ⟨key', result', g, running, rfl⟩ := erase_cases taken
    refine .inr ⟨n, _, _, _, _, kept ?_, member⟩
    rw [running]
    intro same
    obtain ⟨-, -, -, rfl⟩ := NotifyCall.notifying.inj same
    exact absurd member List.not_mem_nil

/-- The list of a flight keeps its callbacks until it is ready, and they are then due. -/
theorem Enlisted.step (enlisted : s.Enlisted c f) (leads : s.doing f = .leader key)
    (taken : s.step? e = some s') : s'.Enlisted c f ∨ s'.Due c := by
  obtain ⟨unready, member⟩ := enlisted
  have fares := fares_of_step taken f
  generalize after : s'.flight f = flight at fares
  cases fares with
  | kept | released => exact .inl ⟨by rw [after]; exact unready, by rw [after]; exact member⟩
  | allocated key' idle =>
    rw [leads] at idle
    contradiction
  | enrolled d key' =>
    refine .inl ⟨by rw [after]; exact unready, ?_⟩
    rw [after]
    exact List.mem_append_left _ member
  | acquired d key' joining ready =>
    rw [ready] at unready
    contradiction
  | resolved n key' result publishing =>
    obtain ⟨key'', result', g, publishing', -, rfl⟩ := publish_cases taken
    obtain ⟨-, -, rfl⟩ := NotifyCall.publishing.inj (publishing.symm.trans publishing')
    exact .inr ⟨n, _, _, _, _, Function.update_self .., member⟩

/-- A flight that a call is enlisted in after a block had it in its list before, or it joins now. -/
theorem enlisted_cases (enlisted : s'.Enlisted c f) (taken : s.step? e = some s') :
    s.Enlisted c f ∨ ∃ key, e = .join c ∧ s.doing c = .joining key f ∧ (s.flight f).ready = false := by
  obtain ⟨unready, member⟩ := enlisted
  have fares := fares_of_step taken f
  generalize s'.flight f = flight at fares unready member
  cases fares with
  | kept | acquired | released => exact .inl ⟨unready, member⟩
  | allocated => exact absurd member List.not_mem_nil
  | enrolled d key joining =>
    rcases List.mem_append.mp member with before | now
    · exact .inl ⟨unready, before⟩
    · obtain rfl := List.mem_singleton.mp now
      exact .inr ⟨key, rfl, joining, unready⟩
  | resolved => contradiction

theorem Pursued.step (pursued : s.Pursued) (led : s.Led) (taken : s.step? e = some s') :
    s'.Pursued := by
  intro c key f waits
  have moves := moves_of_step taken c
  rw [waits] at moves
  generalize same : DoCall.waiter key f = next at moves
  cases moves with
  | kept =>
    rcases pursued c key f same.symm with ⟨result, ran⟩ | enlisted | due
    · exact .inl ⟨result, (invoked_mono taken).subset ran⟩
    · have leads := led.doing (c := c) (by rw [← same]; rfl)
      exact (enlisted.step leads taken).elim (.inr ∘ .inl) (.inr ∘ .inr)
    · exact (due.step taken).imp_right .inr
  | leads | joins | calls => contradiction
  | enrols key' g joining unready =>
    obtain ⟨-, rfl⟩ := DoCall.waiter.inj same
    obtain ⟨key'', g, joining', -, ⟨ready, -⟩ | ⟨-, rfl⟩⟩ := join_cases taken
    · obtain ⟨-, rfl⟩ := DoCall.joining.inj (joining.symm.trans joining')
      rw [unready] at ready
      contradiction
    · obtain ⟨-, rfl⟩ := DoCall.joining.inj (joining.symm.trans joining')
      refine .inr (.inl ⟨?_, ?_⟩)
      · simp only [Function.update_self]
        exact unready
      · simp only [Function.update_self]
        exact List.mem_append_right _ (List.mem_singleton_self _)
  | called outcome =>
    obtain ⟨key', g, result, -, rfl⟩ := call_back_cases taken
    exact .inl ⟨result, List.mem_append_right _ (List.mem_singleton_self _)⟩

end FlightProxy.SingleFlight.State
