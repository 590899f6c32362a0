import FlightProxy.SingleFlight.Custody

/-! # A leader's own notifyResult makes its flight ready

A leader's flight stays under its key until it is ready, unless a final erase takes it out before. So
the notifyResult call of the leader finds the flight, or the flight is ready already; when the call
has returned the flight is ready.
-/

namespace FlightProxy.SingleFlight.State

open Transition

variable {Call : Type*}

/-- A final erase takes the flight out of the map before it is ready. -/
def Strips (s : State Call) (key : Bytes) (f : Call) : Event Call → Prop
  | .erase n => s.Keeps key f ∧ ∃ result g, s.notifying n = .notifying key result g []
  | _ => False

/-- The flight is under its key or ready. -/
def Safe (s : State Call) (key : Bytes) (f : Call) : Prop :=
  s.flights_ key = some f ∨ (s.flight f).ready = true

/-- What the leader's own notifyResult call has come to, if it is for the leader's key. -/
def Attended (s : State Call) (key : Bytes) (f : Call) : Prop :=
  match s.notifying f with
  | .idle => True
  | .publishing key' _ g => key' = key → g = f ∨ (s.flight f).ready = true
  | .notifying key' .. | .returned key' .. => key' = key → (s.flight f).ready = true

variable [DecidableEq Call] {s s' t : State Call} {c n f : Call} {key result : Bytes} {e : Event Call}
  {es : List (Event Call)} {ok : State Call → Event Call → Prop}

theorem Safe.step (safe : s.Safe key f) (led : s.Led) (leads : s.doing f = .leader key)
    (spares : ¬ s.Strips key f e) (taken : s.step? e = some s') : s'.Safe key f := by
  cases ready : (s.flight f).ready with
  | true => exact .inr (ready_persists leads ready taken)
  | false =>
    have present : s.flights_ key = some f := safe.resolve_right (by rw [ready]; nofun)
    by_cases kept : s'.Keeps key f
    · exact .inl kept.1
    · have releases := (Keeps.step ⟨present, ready⟩ led taken).mp kept
      cases e with
      | publish n =>
        obtain ⟨key', result, g, -, -, rfl⟩ := publish_cases taken
        exact .inl present
      | erase n => exact absurd ⟨⟨present, ready⟩, releases⟩ spares
      | _ => exact releases.elim

/-- A leader's flight is under its key from its election on. -/
theorem safe_of_leads (safe : s.doing f = .leader key → s.Safe key f) (led : s.Led)
    (spares : ¬ s.Strips key f e) (taken : s.step? e = some s') (leads : s'.doing f = .leader key) :
    s'.Safe key f := by
  obtain ⟨c, key', rfl, -, -, rfl⟩ | kept := leader_cases taken
  · by_cases own : f = c
    · subst own
      simp only [lead, Function.update_self] at leads
      obtain rfl := DoCall.leader.inj leads
      exact .inl (Function.update_self ..)
    · simp only [lead] at leads
      rw [Function.update_of_ne own] at leads
      exact (safe leads).step led leads spares taken
  · have leads := (kept f key).mp leads
    exact (safe leads).step led leads spares taken

omit [DecidableEq Call] in
/-- The call stays where it is, and so does a flight that is ready. -/
private theorem Attended.keep (attended : s.Attended key f) (same : s'.notifying f = s.notifying f)
    (ready : (s.flight f).ready = true → (s'.flight f).ready = true) : s'.Attended key f := by
  unfold Attended at attended ⊢
  rw [same]
  split at attended
  · trivial
  · exact fun here => (attended here).imp_right ready
  · exact fun here => ready (attended here)
  · exact fun here => ready (attended here)

theorem Attended.step (attended : s.Attended key f) (safe : s.Safe key f)
    (leads : s.doing f = .leader key) (taken : s.step? e = some s') : s'.Attended key f := by
  have ready : (s.flight f).ready = true → (s'.flight f).ready = true :=
    fun ready => ready_persists leads ready taken
  cases e with
  | elect c key' =>
    obtain ⟨-, ⟨-, rfl⟩ | ⟨g, -, -, rfl⟩⟩ := elect_cases taken
    · exact attended.keep rfl ready
    · exact attended.keep rfl ready
  | join c =>
    obtain ⟨key', g, -, -, ⟨-, rfl⟩ | ⟨-, rfl⟩⟩ := join_cases taken
    · exact attended.keep rfl ready
    · exact attended.keep rfl ready
  | call_back c outcome =>
    obtain ⟨key', g, result, -, rfl⟩ := call_back_cases taken
    exact attended.keep rfl ready
  | lookup n key' result =>
    by_cases own : n = f
    · subst own
      obtain ⟨-, ⟨absent, rfl⟩ | ⟨g, found, rfl⟩⟩ := lookup_cases taken
      · simp only [Attended, Function.update_self]
        rintro rfl
        exact safe.resolve_left (by rw [absent]; nofun)
      · simp only [Attended, Function.update_self]
        rintro rfl
        refine safe.imp_left fun present => ?_
        exact Option.some.inj (found.symm.trans present)
    · obtain ⟨-, ⟨-, rfl⟩ | ⟨g, -, rfl⟩⟩ := lookup_cases taken
      · exact attended.keep (Function.update_of_ne (Ne.symm own) ..) ready
      · exact attended.keep (Function.update_of_ne (Ne.symm own) ..) ready
  | publish n =>
    obtain ⟨key', result, g, publishing, -, rfl⟩ := publish_cases taken
    by_cases own : n = f
    · subst own
      simp only [Attended, publishing] at attended
      simp only [Attended, Function.update_self]
      intro here
      rcases attended here with rfl | before
      · simp only [Function.update_self, Flight.resolve]
      · exact ready before
    · exact attended.keep (Function.update_of_ne (Ne.symm own) ..) ready
  | notify n outcome =>
    obtain ⟨key', result, g, c, rest, notifying, rfl⟩ := notify_cases outcome taken
    by_cases own : n = f
    · subst own
      simp only [Attended, notifying] at attended
      simpa only [Attended, Function.update_self] using attended
    · exact attended.keep (Function.update_of_ne (Ne.symm own) ..) ready
  | erase n =>
    obtain ⟨key', result, g, notifying, rfl⟩ := erase_cases taken
    by_cases own : n = f
    · subst own
      simp only [Attended, notifying] at attended
      simpa only [Attended, Function.update_self] using attended
    · exact attended.keep (Function.update_of_ne (Ne.symm own) ..) ready

end FlightProxy.SingleFlight.State
