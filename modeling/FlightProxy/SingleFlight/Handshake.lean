import FlightProxy.SingleFlight.Election

/-! # Joining and publishing one flight

A joiner finds the flight under `flights_mutex_` and enters it later, under the flight's own mutex. It
enrols if the flight is not ready then, and runs its callback itself if it is. Publishing sets
`ready` and takes the snapshot in one block, so nobody enrols behind a snapshot.
-/

namespace FlightProxy.SingleFlight

open Transition

variable {Call : Type*}

/-- Found a flight of another call, and has neither enrolled in it nor run its callback. -/
def DoCall.undecided : DoCall Call → ℕ
  | .joining .. | .calling .. => 1
  | .idle | .leader _ | .waiter .. | .threw .. => 0

/-- The result that a notifyResult call has published, and the flight. -/
def NotifyCall.gave : NotifyCall Call → Option (Bytes × Call)
  | .notifying _ result f _ | .returned _ result (some f) => some (result, f)
  | .idle | .publishing .. | .returned _ _ none => none

variable [DecidableEq Call]

/-- The callbacks that doSingleFlight ran itself for the call. -/
def Event.runs (c : Call) : Event Call → Bool
  | .call_back d _ => d = c
  | _ => false

/-- How often doSingleFlight ran the callback of the call itself. -/
def direct (c : Call) (es : List (Event Call)) : ℕ := es.countP (Event.runs c)

@[simp] theorem direct_append (c : Call) (es : List (Event Call)) (e : Event Call) :
    direct c (es ++ [e]) = direct c es + if e.runs c then 1 else 0 := by
  rw [direct, List.countP_append, List.countP_singleton, direct]

namespace State

/-- The call that a block enrols in the flight. -/
def enrols (s : State Call) (f : Call) : Event Call → List Call
  | .join c =>
    match s.doing c with
    | .joining _ g => if g = f ∧ (s.flight f).ready = false then [c] else []
    | _ => []
  | _ => []

/-- The calls that a run enrols in the flight, in order. -/
def enrolments (f : Call) : State Call → List (Event Call) → List Call
  | _, [] => []
  | s, e :: es => s.enrols f e ++ ((s.step? e).elim [] fun s' => enrolments f s' es)

variable {s s' t : State Call} {c d n f : Call} {key result : Bytes} {e : Event Call}
  {es es' : List (Event Call)} {ok : State Call → Event Call → Prop}

theorem enrolments_snoc (run : Path step? ok s es t) (e : Event Call) :
    enrolments f s (es ++ [e]) = enrolments f s es ++ t.enrols f e := by
  induction run with
  | nil s =>
    simp only [List.nil_append, enrolments]
    cases s.step? e with
    | none => exact List.append_nil _
    | some s' => exact List.append_nil _
  | cons _ taken _ ih =>
    simp only [List.cons_append, enrolments, taken, Option.elim_some, ih, List.append_assoc]

/-- What a block does to a flight. -/
inductive Fares (s : State Call) (f : Call) : Event Call → Flight Call → Prop
  | kept (e : Event Call) (aside : ∀ c key, e = .join c → s.doing c ≠ .joining key f) :
      Fares s f e (s.flight f)
  | allocated (key : Bytes) (idle : s.doing f = .idle) : Fares s f (.elect f key) {}
  | enrolled (c : Call) (key : Bytes) (joining : s.doing c = .joining key f)
      (unready : (s.flight f).ready = false) (free : (s.flight f).mutex = none) :
      Fares s f (.join c) ((s.flight f).enrol c)
  | acquired (c : Call) (key : Bytes) (joining : s.doing c = .joining key f)
      (ready : (s.flight f).ready = true) (free : (s.flight f).mutex = none) :
      Fares s f (.join c) ((s.flight f).acquire c)
  | released (c : Call) (outcome : Outcome) (key result : Bytes)
      (calling : s.doing c = .calling key f result) :
      Fares s f (.call_back c outcome) (s.flight f).release
  | resolved (n : Call) (key result : Bytes) (publishing : s.notifying n = .publishing key result f)
      (free : (s.flight f).mutex = none) : Fares s f (.publish n) ((s.flight f).resolve result)

theorem enrols_of_aside (aside : ∀ c key, e = .join c → s.doing c ≠ .joining key f) :
    s.enrols f e = [] := by
  unfold enrols
  split
  · next c =>
    split
    · next key g joining =>
      rw [if_neg]
      rintro ⟨rfl, -⟩
      exact aside c key rfl joining
    · rfl
  · rfl

theorem fares_of_step (taken : s.step? e = some s') (f : Call) : s.Fares f e (s'.flight f) := by
  have aside : ∀ {c key g}, s.doing c = .joining key g → f ≠ g →
      s.Fares f (.join c) (s.flight f) := by
    intro c key g joining other
    refine .kept _ ?_
    rintro d key' here joining'
    obtain rfl := Event.join.inj here
    exact other (DoCall.joining.inj (joining.symm.trans joining')).2.symm
  cases e with
  | elect c key =>
    obtain ⟨idle, ⟨-, rfl⟩ | ⟨g, -, -, rfl⟩⟩ := elect_cases taken
    · by_cases same : f = c
      · subst same
        simp only [lead, Function.update_self]
        exact .allocated key idle
      · simp only [lead]
        rw [Function.update_of_ne same]
        exact .kept _ (by simp)
    · exact .kept _ (by simp)
  | join c =>
    obtain ⟨key, g, joining, free, ⟨ready, rfl⟩ | ⟨unready, rfl⟩⟩ := join_cases taken
    · by_cases same : f = g
      · subst same
        simp only [Function.update_self]
        exact .acquired c key joining ready free
      · simp only
        rw [Function.update_of_ne same]
        exact aside joining same
    · by_cases same : f = g
      · subst same
        simp only [Function.update_self]
        exact .enrolled c key joining unready free
      · simp only
        rw [Function.update_of_ne same]
        exact aside joining same
  | call_back c outcome =>
    obtain ⟨key, g, result, calling, rfl⟩ := call_back_cases taken
    by_cases same : f = g
    · subst same
      simp only [Function.update_self]
      exact .released c outcome key result calling
    · simp only
      rw [Function.update_of_ne same]
      exact .kept _ (by simp)
  | lookup n key result =>
    obtain ⟨-, ⟨-, rfl⟩ | ⟨g, -, rfl⟩⟩ := lookup_cases taken
    · exact .kept _ (by simp)
    · exact .kept _ (by simp)
  | publish n =>
    obtain ⟨key, result, g, publishing, free, rfl⟩ := publish_cases taken
    by_cases same : f = g
    · subst same
      simp only [Function.update_self]
      exact .resolved n key result publishing free
    · simp only
      rw [Function.update_of_ne same]
      exact .kept _ (by simp)
  | notify n outcome =>
    obtain ⟨key, result, g, c, rest, -, rfl⟩ := notify_cases outcome taken
    exact .kept _ (by simp)
  | erase n =>
    obtain ⟨key, result, g, -, rfl⟩ := erase_cases taken
    exact .kept _ (by simp)

/-- What a block does to a doSingleFlight call. -/
inductive Moves (s : State Call) (c : Call) : Event Call → DoCall Call → Prop
  | kept (e : Event Call) (other : e.runs c = false) (silent : ∀ f, c ∉ s.enrols f e) :
      Moves s c e (s.doing c)
  | leads (key : Bytes) (idle : s.doing c = .idle) : Moves s c (.elect c key) (.leader key)
  | joins (key : Bytes) (f : Call) (idle : s.doing c = .idle) :
      Moves s c (.elect c key) (.joining key f)
  | calls (key : Bytes) (f : Call) (joining : s.doing c = .joining key f)
      (ready : (s.flight f).ready = true) :
      Moves s c (.join c) (.calling key f (s.flight f).result)
  | enrols (key : Bytes) (f : Call) (joining : s.doing c = .joining key f)
      (unready : (s.flight f).ready = false) : Moves s c (.join c) (.waiter key f)
  | called (outcome : Outcome) (key result : Bytes) (f : Call)
      (calling : s.doing c = .calling key f result) :
      Moves s c (.call_back c outcome) (.after key f outcome)

theorem moves_of_step (taken : s.step? e = some s') (c : Call) : s.Moves c e (s'.doing c) := by
  have other : ∀ {d : Call} {next : DoCall Call}, c ≠ d → e.runs c = false →
      (∀ f, c ∉ s.enrols f e) → s.Moves c e (Function.update s.doing d next c) := by
    intro d next distinct quiet silent
    rw [Function.update_of_ne distinct]
    exact .kept e quiet silent
  cases e with
  | elect d key =>
    obtain ⟨idle, ⟨-, rfl⟩ | ⟨f, -, -, rfl⟩⟩ := elect_cases taken
    · by_cases same : c = d
      · subst same
        simp only [lead, Function.update_self]
        exact .leads key idle
      · exact other same rfl fun _ => List.not_mem_nil
    · by_cases same : c = d
      · subst same
        simp only [Function.update_self]
        exact .joins key f idle
      · exact other same rfl fun _ => List.not_mem_nil
  | join d =>
    have silent : c ≠ d → ∀ f, c ∉ s.enrols f (.join d) := by
      intro distinct f member
      simp only [enrols] at member
      split at member
      · split_ifs at member
        · exact distinct (List.mem_singleton.mp member)
        · exact List.not_mem_nil member
      · exact List.not_mem_nil member
    obtain ⟨key, f, joining, -, ⟨ready, rfl⟩ | ⟨unready, rfl⟩⟩ := join_cases taken
    · by_cases same : c = d
      · subst same
        simp only [Function.update_self]
        exact .calls key f joining ready
      · exact other same rfl (silent same)
    · by_cases same : c = d
      · subst same
        simp only [Function.update_self]
        exact .enrols key f joining unready
      · exact other same rfl (silent same)
  | call_back d outcome =>
    obtain ⟨key, f, result, calling, rfl⟩ := call_back_cases taken
    by_cases same : c = d
    · subst same
      simp only [Function.update_self]
      exact .called outcome key result f calling
    · exact other same (by simp [Event.runs, Ne.symm same]) fun _ => List.not_mem_nil
  | lookup n key result =>
    obtain ⟨-, ⟨-, rfl⟩ | ⟨f, -, rfl⟩⟩ := lookup_cases taken
    · exact .kept _ rfl fun _ => List.not_mem_nil
    · exact .kept _ rfl fun _ => List.not_mem_nil
  | publish n =>
    obtain ⟨key, result, f, -, -, rfl⟩ := publish_cases taken
    exact .kept _ rfl fun _ => List.not_mem_nil
  | notify n outcome =>
    obtain ⟨key, result, f, d, rest, -, rfl⟩ := notify_cases outcome taken
    exact .kept _ rfl fun _ => List.not_mem_nil
  | erase n =>
    obtain ⟨key, result, f, -, rfl⟩ := erase_cases taken
    exact .kept _ rfl fun _ => List.not_mem_nil

/-- What has been published stays published. -/
theorem gave_persists {given : Bytes × Call} (gave : (s.notifying n).gave = some given)
    (taken : s.step? e = some s') : (s'.notifying n).gave = some given := by
  have along : ∀ {m : Call} {next : NotifyCall Call},
      ((s.notifying m).gave = none ∨ next.gave = (s.notifying m).gave) →
        (Function.update s.notifying m next n).gave = some given := by
    intro m next keeps
    rw [Function.update_apply]
    split_ifs with same
    · subst same
      rcases keeps with none | same
      · rw [none] at gave
        contradiction
      · rw [same, gave]
    · exact gave
  cases e with
  | elect c key =>
    obtain ⟨-, ⟨-, rfl⟩ | ⟨f, -, -, rfl⟩⟩ := elect_cases taken
    · exact gave
    · exact gave
  | join c =>
    obtain ⟨key, f, -, -, ⟨-, rfl⟩ | ⟨-, rfl⟩⟩ := join_cases taken
    · exact gave
    · exact gave
  | call_back c outcome =>
    obtain ⟨key, f, result, -, rfl⟩ := call_back_cases taken
    exact gave
  | lookup m key result =>
    obtain ⟨idle, ⟨-, rfl⟩ | ⟨f, -, rfl⟩⟩ := lookup_cases taken
    · exact along (.inl (by rw [idle]; rfl))
    · exact along (.inl (by rw [idle]; rfl))
  | publish m =>
    obtain ⟨key, result, f, publishing, -, rfl⟩ := publish_cases taken
    exact along (.inl (by rw [publishing]; rfl))
  | notify m outcome =>
    obtain ⟨key, result, f, c, rest, notifying, rfl⟩ := notify_cases outcome taken
    exact along (.inr (by rw [notifying]; rfl))
  | erase m =>
    obtain ⟨key, result, f, notifying, rfl⟩ := erase_cases taken
    exact along (.inr (by rw [notifying]; rfl))

/-- What every run keeps of the flights. -/
structure Joined (es : List (Event Call)) (s : State Call) : Prop where
  led : s.Led
  enrolled : s.Enrolled
  fresh : ∀ {f}, (∀ key, s.doing f ≠ .leader key) → s.flight f = {}
  waiters : ∀ f, (s.flight f).waiters = (s.flight f).callbacks.length
  callbacks : ∀ f, (s.flight f).callbacks = enrolments f .init es
  held : ∀ {c key f result}, s.doing c = .calling key f result →
    (s.flight f).mutex = some c ∧ (s.flight f).ready = true ∧ (s.flight f).result = result
  published : ∀ {f}, (s.flight f).ready = true → ∃ n, (s.notifying n).gave = some ((s.flight f).result, f)
  silent : ∀ {c}, (s.doing c).refers = none → direct c es = 0
  once : ∀ {c key f}, (s.doing c).refers = some (key, f) →
    (s.doing c).undecided + (s.flight f).callbacks.count c + direct c es = 1

theorem joined_init : (init : State Call).Joined [] := by
  refine ⟨led_init, enrolled_init, fun _ => rfl, fun _ => rfl, fun _ => rfl, ?_, ?_, fun _ => rfl, ?_⟩
  · intro c key f result calling
    contradiction
  · intro f ready
    contradiction
  · intro c key f refers
    contradiction

/-- A flight is allocated for its leader, and nobody else refers to it before. -/
private theorem Joined.fresh_step (joined : s.Joined es) (taken : s.step? e = some s')
    (unled : ∀ key, s'.doing f ≠ .leader key) : s'.flight f = {} := by
  have before : ∀ key, s.doing f ≠ .leader key :=
    fun key leads => unled key (leader_persists leads taken)
  have fares := fares_of_step taken f
  generalize s'.flight f = flight at fares
  cases fares with
  | kept _ aside => exact joined.fresh before
  | allocated key idle => rfl
  | enrolled c key joining | acquired c key joining =>
    exact absurd (joined.led.doing (by rw [joining]; rfl)) (before key)
  | released c outcome key result calling =>
    exact absurd (joined.led.doing (by rw [calling]; rfl)) (before key)
  | resolved n key result publishing =>
    exact absurd (joined.led.notifying (by rw [publishing]; rfl)) (before key)

private theorem waiters_step (waiters : (s.flight f).waiters = (s.flight f).callbacks.length)
    (taken : s.step? e = some s') : (s'.flight f).waiters = (s'.flight f).callbacks.length := by
  have fares := fares_of_step taken f
  generalize s'.flight f = flight at fares
  cases fares with
  | kept | acquired | released | resolved => exact waiters
  | allocated => rfl
  | enrolled c => simp [Flight.enrol, waiters]

/-- The list of a flight grows by the calls that enrol. -/
private theorem Joined.callbacks_step (joined : s.Joined es) (taken : s.step? e = some s') (f : Call) :
    (s'.flight f).callbacks = (s.flight f).callbacks ++ s.enrols f e := by
  have fares := fares_of_step taken f
  generalize s'.flight f = flight at fares
  cases fares with
  | kept _ aside => rw [enrols_of_aside aside, List.append_nil]
  | allocated key idle =>
    rw [joined.fresh (by simp [idle])]
    rfl
  | enrolled c key joining unready => simp [enrols, joining, unready, Flight.enrol]
  | acquired c key joining ready => simp [enrols, joining, ready, Flight.acquire]
  | released | resolved => exact (List.append_nil _).symm

/-- Whoever runs its callback itself holds the flight, which stays as it was found. -/
private theorem Joined.held_step (joined : s.Joined es) (taken : s.step? e = some s')
    (calling : s'.doing c = .calling key f result) :
    (s'.flight f).mutex = some c ∧ (s'.flight f).ready = true ∧ (s'.flight f).result = result := by
  have fares := fares_of_step taken f
  have moves := moves_of_step taken c
  generalize moved : s'.doing c = next at moves
  generalize s'.flight f = flight at fares
  rw [moved] at calling
  cases moves with
  | kept e other =>
    obtain ⟨mutex, ready, same⟩ := joined.held calling
    cases fares with
    | kept => exact ⟨mutex, ready, same⟩
    | allocated key' idle =>
      have leads := joined.led.doing (c := c) (by rw [calling]; rfl)
      rw [idle] at leads
      contradiction
    | enrolled d key' joining unready free | acquired d key' joining ready' free =>
      rw [mutex] at free
      contradiction
    | released d outcome key' result' calling' =>
      -- the mutex is held by one call only, which has not moved
      obtain rfl := Option.some.inj (mutex.symm.trans (joined.held calling').1)
      simp [Event.runs] at other
    | resolved n key' result' publishing free =>
      rw [mutex] at free
      contradiction
  | calls key' g joining ready =>
    obtain ⟨rfl, rfl, rfl⟩ := DoCall.calling.inj calling
    cases fares with
    | kept e aside => exact absurd joining (aside c _ rfl)
    | enrolled d key'' joining' unready =>
      rw [ready] at unready
      contradiction
    | acquired d key'' joining' => exact ⟨rfl, ready, rfl⟩
  | leads | joins | enrols => contradiction
  | called outcome key' result' g => cases outcome <;> contradiction

/-- A ready flight has the result of the call that published to it last. -/
private theorem Joined.published_step (joined : s.Joined es) (taken : s.step? e = some s')
    (ready : (s'.flight f).ready = true) :
    ∃ n, (s'.notifying n).gave = some ((s'.flight f).result, f) := by
  have kept : (s.flight f).ready = true → (s'.flight f).result = (s.flight f).result →
      ∃ n, (s'.notifying n).gave = some ((s'.flight f).result, f) := by
    intro ready same
    obtain ⟨n, gave⟩ := joined.published ready
    rw [same]
    exact ⟨n, gave_persists gave taken⟩
  have fares := fares_of_step taken f
  generalize s'.flight f = flight at fares ready kept
  cases fares with
  | kept | enrolled | acquired | released => exact kept ready rfl
  | allocated => contradiction
  | resolved n key result publishing =>
    obtain ⟨key', result', g, publishing', -, rfl⟩ := publish_cases taken
    obtain ⟨rfl, rfl, rfl⟩ := NotifyCall.publishing.inj (publishing.symm.trans publishing')
    refine ⟨n, ?_⟩
    simp only [Function.update_self]
    rfl

private theorem Joined.silent_step (joined : s.Joined es) (taken : s.step? e = some s')
    (unreferred : (s'.doing c).refers = none) : direct c (es ++ [e]) = 0 := by
  have moves := moves_of_step taken c
  generalize s'.doing c = next at moves unreferred
  rw [direct_append]
  cases moves with
  | kept _ other => simp [joined.silent unreferred, other]
  | leads key idle => simp [joined.silent (c := c) (by rw [idle]; rfl), Event.runs]
  | joins | calls | enrols => contradiction
  | called outcome => cases outcome <;> contradiction

/-- A joiner enrols, or runs its callback itself. -/
private theorem Joined.once_step (joined : s.Joined es) (taken : s.step? e = some s')
    (refers : (s'.doing c).refers = some (key, f)) :
    (s'.doing c).undecided + (s'.flight f).callbacks.count c + direct c (es ++ [e]) = 1 := by
  have moves := moves_of_step taken c
  rw [joined.callbacks_step taken, List.count_append, direct_append]
  generalize s'.doing c = next at moves refers ⊢
  cases moves with
  | kept _ other silent =>
    have before := joined.once refers
    rw [List.count_eq_zero_of_not_mem (silent f), other]
    exact before
  | leads => contradiction
  | joins key' g idle =>
    have outside : c ∉ (s.flight f).callbacks := by
      intro member
      obtain ⟨key'', waiter⟩ := joined.enrolled.callbacks member
      rw [idle] at waiter
      contradiction
    have none := joined.silent (c := c) (by rw [idle]; rfl)
    rw [List.count_eq_zero_of_not_mem outside, none]
    rfl
  | calls key' g joining ready =>
    obtain ⟨rfl, rfl⟩ := Prod.mk.inj (Option.some.inj refers)
    have before := joined.once (c := c) (by rw [joining]; rfl)
    rw [joining] at before
    have none : s.enrols g (.join c) = [] := by simp [enrols, joining, ready]
    rw [none]
    exact before
  | enrols key' g joining unready =>
    obtain ⟨rfl, rfl⟩ := Prod.mk.inj (Option.some.inj refers)
    have before := joined.once (c := c) (by rw [joining]; rfl)
    rw [joining] at before
    have one : s.enrols g (.join c) = [c] := by simp [enrols, joining, unready]
    rw [one, List.count_singleton_self]
    simp only [DoCall.undecided, Event.runs, Bool.false_eq_true, ↓reduceIte] at before ⊢
    omega
  | called outcome key' result g calling =>
    rw [DoCall.refers_after] at refers
    obtain ⟨rfl, rfl⟩ := Prod.mk.inj (Option.some.inj refers)
    have before := joined.once (c := c) (by rw [calling]; rfl)
    rw [calling] at before
    have after : (DoCall.after key' g outcome).undecided = 0 := by cases outcome <;> rfl
    have none : s.enrols g (.call_back c outcome) = [] := rfl
    rw [after, none, List.count_nil]
    simp only [DoCall.undecided, Event.runs, decide_true, ↓reduceIte] at before ⊢
    omega

theorem Joined.step (joined : s.Joined es) (run : Path step? ok .init es s)
    (taken : s.step? e = some s') : s'.Joined (es ++ [e]) where
  led := joined.led.step taken
  enrolled := joined.enrolled.step taken
  fresh unled := joined.fresh_step taken unled
  waiters f := waiters_step (joined.waiters f) taken
  callbacks f := by
    rw [joined.callbacks_step taken, joined.callbacks f, enrolments_snoc run]
  held calling := joined.held_step taken calling
  published ready := joined.published_step taken ready
  silent unreferred := joined.silent_step taken unreferred
  once refers := joined.once_step taken refers

theorem joined_of_run (run : Path step? ok .init es s) : s.Joined es := by
  have kept : Path step? ok .init es s ∧ s.Joined es := by
    refine run.records (I := fun es s => Path step? ok .init es s ∧ s.Joined es)
      ⟨.nil _, joined_init⟩ ?_
    rintro es s e s' ⟨run, joined⟩ allowed taken
    exact ⟨run.snoc allowed taken, joined.step run taken⟩
  exact kept.2

/-- Nobody enrols in a flight that is ready. -/
private theorem Joined.frozen_step (joined : s.Joined es) (ready : (s.flight f).ready = true)
    (taken : s.step? e = some s') :
    (s'.flight f).ready = true ∧ (s'.flight f).callbacks = (s.flight f).callbacks := by
  have leads : ∃ key, s.doing f = .leader key := by
    by_contra unled
    rw [not_exists] at unled
    rw [joined.fresh unled] at ready
    contradiction
  obtain ⟨key, leads⟩ := leads
  refine ⟨ready_persists leads ready taken, ?_⟩
  have fares := fares_of_step taken f
  generalize s'.flight f = flight at fares
  cases fares with
  | kept | acquired | released | resolved => rfl
  | allocated key' idle =>
    rw [leads] at idle
    contradiction
  | enrolled c key' joining unready =>
    rw [ready] at unready
    contradiction

theorem callbacks_of_ready (run : Path step? ok .init es s) (ready : (s.flight f).ready = true)
    (rest : Path step? ok s es' t) : (t.flight f).callbacks = (s.flight f).callbacks := by
  have kept := rest.records (I := fun es' t => Path step? ok .init (es ++ es') t ∧
    (t.flight f).ready = true ∧ (t.flight f).callbacks = (s.flight f).callbacks) ?_ ?_
  · exact kept.2.2
  · rw [List.append_nil]
    exact ⟨run, ready, rfl⟩
  · rintro es' u e u' ⟨run', ready, same⟩ allowed taken
    obtain ⟨ready', kept⟩ := (joined_of_run run').frozen_step ready taken
    rw [← List.append_assoc]
    exact ⟨run'.snoc allowed taken, ready', kept.trans same⟩

/-- What the joiners of a flight and the calls that publish to it may count on. -/
structure Handshake (es : List (Event Call)) (s : State Call) (f : Call) : Prop where
  waiters : (s.flight f).waiters = (s.flight f).callbacks.length
  callbacks : (s.flight f).callbacks = enrolments f .init es
  frozen : (s.flight f).ready = true → ∀ es' t, Path step? always s es' t →
    (t.flight f).callbacks = (s.flight f).callbacks
  /-- The snapshot holds all that are ever enrolled, before it or later. -/
  snapshot : ∀ n key result s', s.notifying n = .publishing key result f →
    s.step? (.publish n) = some s' →
      s'.notifying n = .notifying key result f (enrolments f .init es) ∧
        ∀ es' t, Path step? always s' es' t → (t.flight f).callbacks = enrolments f .init es
  /-- A joiner has still to enter, or enrolled, or runs or ran its callback itself. -/
  once : ∀ c key, (s.doing c).refers = some (key, f) →
    (s.doing c).undecided + (s.flight f).callbacks.count c + direct c es = 1
  enters : ∀ c key s', s.doing c = .joining key f → s.step? (.join c) = some s' →
    if (s.flight f).ready then s'.doing c = .calling key f (s.flight f).result
    else (s'.flight f).callbacks = (s.flight f).callbacks ++ [c]
  calls : ∀ c key result, s.doing c = .calling key f result → (s.flight f).ready = true ∧
    (∃ n, (s.notifying n).gave = some (result, f)) ∧
    ∀ outcome s', s.step? (.call_back c outcome) = some s' →
      s'.invoked = s.invoked ++ [(c, result)]

/-- In every run the handshake holds for every flight. -/
theorem handshake_of_run (run : Path step? always .init es s) (f : Call) : s.Handshake es f := by
  have joined := joined_of_run run
  refine ⟨joined.waiters f, joined.callbacks f, ?_, ?_, fun c key refers => joined.once refers, ?_, ?_⟩
  · intro ready es' t rest
    exact callbacks_of_ready run ready rest
  · intro n key result s' publishing taken
    have run' := run.snoc trivial taken
    obtain ⟨key', result', g, publishing', -, rfl⟩ := publish_cases taken
    obtain ⟨rfl, rfl, rfl⟩ := NotifyCall.publishing.inj (publishing.symm.trans publishing')
    rw [← joined.callbacks f]
    refine ⟨Function.update_self .., fun es' t rest => ?_⟩
    have kept := callbacks_of_ready run' (f := f) (by simp [Flight.resolve]) rest
    simpa [Flight.resolve] using kept
  · intro c key s' joining taken
    obtain ⟨key', g, joining', -, ⟨ready, rfl⟩ | ⟨unready, rfl⟩⟩ := join_cases taken
    · obtain ⟨rfl, rfl⟩ := DoCall.joining.inj (joining.symm.trans joining')
      rw [if_pos ready]
      exact Function.update_self ..
    · obtain ⟨rfl, rfl⟩ := DoCall.joining.inj (joining.symm.trans joining')
      rw [if_neg (by simp [unready])]
      simp [Flight.enrol]
  · intro c key result calling
    obtain ⟨-, ready, rfl⟩ := joined.held calling
    refine ⟨ready, joined.published ready, fun outcome s' taken => ?_⟩
    obtain ⟨key', g, result', calling', rfl⟩ := call_back_cases taken
    obtain ⟨-, -, rfl⟩ := DoCall.calling.inj (calling.symm.trans calling')
    rfl

end State

/-- One caller leads, one enrols before the result is published, and one enters after. -/
def oneEach : List (Event ℕ) :=
  [.elect 0 [0x71], .elect 1 [0x71], .elect 2 [0x71], .join 1, .lookup 0 [0x71] [0x61], .publish 0,
    .join 2]

theorem handshake_of_run_run : ∃ s : State ℕ, s.Handshake oneEach 0 ∧
    (s.flight 0).callbacks = [1] ∧ s.doing 2 = .calling [0x71] 0 [0x61] := by
  have run : ∃ s : State ℕ, Path State.step? always .init oneEach s ∧
      (s.flight 0).callbacks = [1] ∧ s.doing 2 = .calling [0x71] 0 [0x61] := by
    refine ⟨_, replay_eq_some_iff.mp rfl, ?_, ?_⟩ <;> rfl
  obtain ⟨s, path, callbacks, calling⟩ := run
  exact ⟨s, State.handshake_of_run path 0, callbacks, calling⟩

end FlightProxy.SingleFlight
