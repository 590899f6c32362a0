import FlightProxy.Threads.Lifetime

/-! # The order of the locks

doSingleFlight takes a flight's mutex while it holds `flights_mutex_`, and nobody takes `flights_mutex_`
while holding a flight's. So a call that waits for a lock waits for one that can go on, or that waits for one
that can.
-/

namespace FlightProxy.Threads

open Transition Sync

variable {Call : Type*}

namespace Point

/-- The call has begun and has not returned. -/
def in_progress : Point Call → Bool
  | .idle | .leader _ | .left _ _ _ | .returned _ _ _ | .cleared => false
  | _ => true

/-- About to lock `flights_mutex_`. -/
def wants_flights : Point Call → Bool
  | .start _ | .notify _ _ | .notifying _ _ _ [] | .clear => true
  | _ => false

/-- About to lock the flight's mutex. -/
def wants : Point Call → Option Call
  | .found _ f | .joining _ f | .publishing _ _ f => some f
  | _ => none

variable {p : Point Call}

theorem wants_of_guards {f : Call} (guards : p.guards = some f) :
    p.in_progress = true ∧ p.wants_flights = false ∧ p.wants = none := by
  cases p <;> simp_all [Point.guards, in_progress, wants_flights, wants]

theorem wants_flights_of_inside (inside : p.in_flights = true) :
    p.in_progress = true ∧ p.wants_flights = false := by
  cases p <;> simp_all [in_flights, in_progress, wants_flights]

end Point

namespace State

variable [DecidableEq Call] {s : State Call} {c f : Call}

/-- The call can take its next step, where a callback that it runs may return. -/
def Proceeds (s : State Call) (c : Call) : Prop :=
  s.step? (.next c) ≠ none ∨ s.step? (.on_result c .returned) ≠ none

/-- A call in progress proceeds, if what it wants is free. -/
theorem proceeds_of_free (busy : (s.point c).in_progress = true)
    (flights : (s.point c).wants_flights = true → s.flights_mutex_ = none)
    (flight : ∀ f, (s.point c).wants = some f → (s.flight f).mutex = none) : s.Proceeds c := by
  cases here : s.point c with
  | idle | leader | left | returned | cleared => simp [here, Point.in_progress] at busy
  | start | notify | clear =>
    have free := flights (by rw [here]; rfl)
    left
    simp [step?, next, here, lock_flights, free]
  | found key f | joining key f | publishing key result f =>
    have free := flight f (by rw [here]; rfl)
    left
    simp [step?, next, here, lock, free]
  | notifying key result f callbacks =>
    cases callbacks with
    | nil =>
      have free := flights (by rw [here]; rfl)
      left
      simp [step?, next, here, lock_flights, free]
    | cons d rest =>
      right
      simp [step?, on_result, here]
  | calling key f result =>
    right
    simp [step?, on_result, here]
  | finding key | seeking key result =>
    left
    simp only [step?, next, here]
    split <;> exact Option.some_ne_none _
  | checking key f | joined key f =>
    left
    simp only [step?, next, here]
    split_ifs <;> exact Option.some_ne_none _
  | clearing =>
    left
    simp only [step?, next, here]
    split <;> exact Option.some_ne_none _
  | _ =>
    left
    simp [step?, next, here]

/-- The owner of a flight's mutex waits for nobody. -/
theorem Sound.owner_proceeds (sound : s.Sound) (locked : (s.flight f).mutex = some c) :
    s.Proceeds c := by
  obtain ⟨busy, flights, wants⟩ := Point.wants_of_guards ((sound.mutex f c).mp locked)
  apply proceeds_of_free busy
  · intro here
    rw [flights] at here
    contradiction
  · intro g here
    rw [wants] at here
    contradiction

/-- The owner of `flights_mutex_` waits at most for the owner of a flight's mutex. -/
theorem Sound.inside_proceeds (sound : s.Sound) (inside : (s.point c).in_flights = true) :
    ∃ d, s.Proceeds d := by
  obtain ⟨busy, flights⟩ := Point.wants_flights_of_inside inside
  by_cases waits : ∃ f d, (s.point c).wants = some f ∧ (s.flight f).mutex = some d
  · obtain ⟨f, d, -, locked⟩ := waits
    exact ⟨d, sound.owner_proceeds locked⟩
  · push Not at waits
    refine ⟨c, proceeds_of_free busy ?_ ?_⟩
    · intro here
      rw [flights] at here
      contradiction
    · intro f here
      exact Option.eq_none_iff_forall_ne_some.mpr fun d => waits f d here

/-- There is no deadlock: in every state that a run can reach, some call can go on if one is in
progress, and who holds a flight's mutex always can. -/
theorem deadlock_free_of_run {es : List (Event Call)}
    (run : Path step? always ({} : State Call) es s) :
    (∀ f c, (s.flight f).mutex = some c → s.Proceeds c) ∧
      ∀ c, (s.point c).in_progress = true → ∃ d, s.Proceeds d := by
  have sound := sound_of_run run
  refine ⟨fun f c => sound.owner_proceeds, fun c busy => ?_⟩
  by_cases taken : (s.point c).wants_flights = true ∧ s.flights_mutex_ ≠ none
  · obtain ⟨d, owner⟩ := Option.ne_none_iff_exists'.mp taken.2
    exact sound.inside_proceeds ((sound.flights_mutex_ d).mp owner)
  · by_cases waits : ∃ f d, (s.point c).wants = some f ∧ (s.flight f).mutex = some d
    · obtain ⟨f, d, -, locked⟩ := waits
      exact ⟨d, sound.owner_proceeds locked⟩
    · push Not at taken waits
      refine ⟨c, proceeds_of_free busy taken ?_⟩
      intro f here
      exact Option.eq_none_iff_forall_ne_some.mpr fun d => waits f d here

end State

/-- A third caller waits for `flights_mutex_`. -/
theorem deadlock_free_of_run_run : ∃ s : State ℕ, (s.point 3).in_progress = true ∧
    ¬ s.Proceeds 3 ∧ s.Proceeds 2 := by
  have run : ∃ s : State ℕ, Path State.step? always {} (supplanting ++ [.doSingleFlight 3 [0x71]]) s ∧
      s.point 3 = .start [0x71] ∧ s.flights_mutex_ = some 2 ∧ (s.flight 0).mutex = some 2 := by
    refine ⟨_, replay_eq_some_iff.mp rfl, ?_, ?_, ?_⟩ <;> rfl
  obtain ⟨s, path, waits, owner, locked⟩ := run
  refine ⟨s, by rw [waits]; rfl, ?_, (State.deadlock_free_of_run path).1 0 2 locked⟩
  simp [State.Proceeds, State.step?, State.next, State.on_result, waits, State.lock_flights, owner]

end FlightProxy.Threads
