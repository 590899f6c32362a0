import FlightProxy.Main.Accepting
import FlightProxy.Transition.Progress
import Mathlib.Algebra.Order.BigOperators.Group.Finset
import Mathlib.Algebra.BigOperators.Ring.Finset
import Mathlib.Algebra.Group.Action.Defs

/-! # The way out

main waits for workers only, and a worker waits in `run()` only while no handler is queued and nobody
has stopped the io_context. The acceptor keeps that from being for ever, unless its accept is lost: then
the last workers wait, once the sessions are gone, for a signal. A worker that has been told to stop
finishes its handler and leaves; what is left to do then until main returns is counted.
-/

namespace FlightProxy.Main

open Transition

/-- The steps that a statement of the accept handler has before it; starting a session leaves the
completion of its first operation, and arming an accept leaves its completion. -/
def AcceptPoint.left : AcceptPoint → ℕ
  | .deciding _ => 7
  | .starting => 6
  | .again => 4
  | .testing => 3
  | .arming => 2

def WorkerPoint.left : WorkerPoint → ℕ
  | .unborn | .ended _ => 0
  | .running => 1
  | .handling => 2
  | .accepting p => p.left + 1

/-- A worker that is spawned has its own way out. -/
def MainPoint.left (n : ℕ) : MainPoint → ℕ
  | .constructing p => 3 * n + 9 + p.left
  | .installing => 3 * n + 9
  | .spawning k => 2 * (n - k) + n + 8
  | .joining k => n - k + 7
  | .storing => 6
  | .closing => 5
  | .resetting k => 3 - k + 1
  | .returned => 0

def Frame.left : Frame → ℕ
  | .checking => 6
  | .shutting => 5
  | .storing => 4
  | .closing => 3
  | .resetting => 2
  | .stopping => 1

/-- A signal handler that has come to stop the server goes on to stop the io_context. -/
def Frame.stops : Frame → Bool
  | .closing | .resetting | .stopping => true
  | .checking | .shutting | .storing => false

/-- No signal comes. -/
abbrev silent : State → Event → Prop := fun _ e => ∀ t, e ≠ .signal t

namespace State

def worker_left (s : State) (i : ℕ) : ℕ :=
  (s.worker i).left + ((s.frames (.worker i)).map Frame.left).sum

/-- What is left to do until main returns, where no signal comes. -/
def left (n : ℕ) (s : State) : ℕ :=
  s.main.left n + ((s.frames .main).map Frame.left).sum + ∑ i ∈ Finset.range n, s.worker_left i +
    s.armed + s.operations

/-- The signal handlers that have not returned. -/
def interruptions (n : ℕ) (s : State) : ℕ :=
  (s.frames .main).length + ∑ i ∈ Finset.range n, (s.frames (.worker i)).length

variable {n : ℕ} {s s' t : State} {e : Event} {es : List Event} {i : ℕ} {x : Option Place}

/-- One worker has gone on. -/
theorem sum_replaced {f g : ℕ → ℕ} (below : i < n) (others : ∀ j, j ≠ i → g j = f j) :
    ∑ j ∈ Finset.range n, g j + f i = ∑ j ∈ Finset.range n, f j + g i := by
  have member := Finset.mem_range.mpr below
  have same : ∑ j ∈ (Finset.range n).erase i, g j = ∑ j ∈ (Finset.range n).erase i, f j :=
    Finset.sum_congr rfl fun j here => others j (Finset.ne_of_mem_erase here)
  rw [← Finset.add_sum_erase _ g member, ← Finset.add_sum_erase _ f member, same]
  omega

theorem Turn.uses {p : AcceptPoint} {next : Option AcceptPoint} (turn : s.Turn p (s', next)) :
    s'.armed + s'.operations + (next.elim 0 AcceptPoint.left) < s.armed + s.operations + p.left := by
  cases turn with
  | stops p ends => rcases ends with rfl | rfl <;> simp [AcceptPoint.left]
  | _ =>
    simp [AcceptPoint.left]
    try omega

/-- Once the io_context has been stopped, a worker only finishes what it is doing. -/
theorem uses_of_worker (taken : s.step? n e = some s') (acts : e.worker? = some i)
    (stopped : s.stopped = true) :
    (s'.worker i).left + s'.armed + s'.operations < (s.worker i).left + s.armed + s.operations := by
  cases e with
  | worker j =>
    obtain rfl := Option.some.inj acts
    obtain ⟨-, taken⟩ := Option.ite_none_right_eq_some.mp taken
    unfold State.next_worker at taken
    cases here : s.worker j with
    | accepting p =>
      simp only [here] at taken
      have turn := s.turn_of_accept p
      cases went : s.accept p with
      | mk u next =>
        rw [went] at taken turn
        have uses := turn.uses
        cases next with
        | none =>
          obtain rfl := Option.some.inj taken
          simp only [move, Function.update_self, WorkerPoint.left, Option.elim] at uses ⊢
          omega
        | some q =>
          obtain rfl := Option.some.inj taken
          simp only [move, Function.update_self, WorkerPoint.left, Option.elim] at uses ⊢
          omega
    | running =>
      simp only [here] at taken
      split_ifs at taken
      obtain rfl := Option.some.inj taken
      simp [move, WorkerPoint.left]
    | unborn | handling | ended => simp [here] at taken
  | take j =>
    obtain ⟨-, taken⟩ := Option.ite_none_right_eq_some.mp taken
    unfold State.take at taken
    split at taken
    · simp [stopped] at taken
    · contradiction
  | handle j =>
    obtain ⟨-, taken⟩ := Option.ite_none_right_eq_some.mp taken
    obtain ⟨⟨-, going, -⟩, -⟩ := Option.ite_none_right_eq_some.mp taken
    rw [stopped] at going
    contradiction
  | finish j =>
    obtain rfl := Option.some.inj acts
    obtain ⟨-, taken⟩ := Option.ite_none_right_eq_some.mp taken
    obtain ⟨here, taken⟩ := Option.ite_none_right_eq_some.mp taken
    obtain rfl := Option.some.inj taken
    simp [move, here, WorkerPoint.left]
  | throws j =>
    obtain rfl := Option.some.inj acts
    obtain ⟨-, taken⟩ := Option.ite_none_right_eq_some.mp taken
    obtain ⟨here, taken⟩ := Option.ite_none_right_eq_some.mp taken
    obtain rfl := Option.some.inj taken
    rcases here with here | here <;> simp [move, here, WorkerPoint.left]
  | main | complete | ready | signal | handler => simp [Event.worker?] at acts

/-- A statement of main that starts no worker. -/
theorem Mains.uses (mains : s.Mains n s') (spawns : ∀ k, s.main = .spawning k → n ≤ k) :
    s'.worker = s.worker ∧
      s'.main.left n + s'.armed + s'.operations < s.main.left n + s.armed + s.operations := by
  cases mains with
  | goes here turn | constructed here turn =>
    have uses := turn.uses
    refine ⟨rfl, ?_⟩
    simp only [touch, here, MainPoint.left, Option.elim] at uses ⊢
    omega
  | spawns here below => exact absurd below (Nat.not_lt_of_le (spawns _ here))
  | installs here | spawned here | joins here | joined here | stores here | closes here
  | resets_io_context here | resets_work_guard here | resets_server here | returns here =>
    refine ⟨rfl, ?_⟩
    simp only [here, MainPoint.left]
    omega

theorem Handles.uses {t : Thread} (handles : s.Handles t s') :
    ((s'.frames t).map Frame.left).sum < ((s.frames t).map Frame.left).sum ∧
      (∀ t', t' ≠ t → s'.frames t' = s.frames t') ∧ s'.main = s.main ∧ s'.worker = s.worker ∧
      s'.armed = s.armed ∧ s'.operations = s.operations := by
  cases handles with
  | checks here | leaves here | shuts here | skips here | stores here | closes here | resets here
  | stops here =>
    refine ⟨?_, fun _ => goes_frames_of_ne, rfl, rfl, rfl, rfl⟩
    simp [here, Frame.left]

/-- Each step but a signal brings main closer to its return. -/
theorem left_of_step (sound : s.Sound n) (stopped : s.stopped = true) (quiet : silent s e)
    (taken : s.step? n e = some s') : s'.left n < s.left n := by
  cases acts : e.worker? with
  | some i =>
    have uses := uses_of_worker taken acts stopped
    obtain ⟨active, idle, p, leads, same⟩ := works_of_step taken acts
    have below := Nat.lt_of_lt_of_le (sound.not_joined active).2 sound.bounded
    have frames : s'.frames = s.frames := by rw [same]; rfl
    have main : s'.main = s.main := by rw [same]; rfl
    have others : ∀ j, j ≠ i → s'.worker_left j = s.worker_left j := by
      intro j other
      unfold worker_left
      rw [frames, same]
      simp [move, other]
    have replaced := sum_replaced below others
    simp only [left, main, frames]
    simp only [worker_left, frames] at replaced ⊢
    omega
  | none =>
    cases e with
    | main =>
      obtain ⟨idle, taken⟩ := Option.ite_none_right_eq_some.mp taken
      by_cases spawns : ∃ k, s.main = .spawning k ∧ k < n
      · obtain ⟨k, here, below⟩ := spawns
        unfold State.next_main at taken
        simp only [here, if_pos below] at taken
        obtain rfl := Option.some.inj taken
        have unborn := sound.unborn k (by rw [here]; exact Nat.le_refl k)
        have others : ∀ j, j ≠ k → (s.move k .running).worker_left j = s.worker_left j := by
          intro j other
          simp [worker_left, move, other]
        have replaced := sum_replaced below others
        have more : (s.move k .running).worker_left k = s.worker_left k + 1 := by
          simp [worker_left, move, unborn, WorkerPoint.left]
          omega
        have same : left n { s.move k .running with main := .spawning (k + 1) } =
          MainPoint.left n (.spawning (k + 1)) + ((s.frames .main).map Frame.left).sum +
            ∑ j ∈ Finset.range n, (s.move k .running).worker_left j + s.armed + s.operations := rfl
        rw [same, left, here]
        simp only [MainPoint.left]
        omega
      · have mains := mains_of_next taken
        have spawned : ∀ k, s.main = .spawning k → n ≤ k := by
          intro k here
          by_contra below
          exact spawns ⟨k, here, Nat.lt_of_not_le below⟩
        obtain ⟨worker, uses⟩ := mains.uses spawned
        simp only [left, worker_left, worker, mains.frames.1]
        omega
    | complete ec =>
      obtain ⟨⟨armed, -⟩, taken⟩ := Option.ite_none_right_eq_some.mp taken
      obtain rfl := Option.some.inj taken
      simp only [left, worker_left]
      omega
    | ready =>
      obtain ⟨pending, taken⟩ := Option.ite_none_right_eq_some.mp taken
      obtain rfl := Option.some.inj taken
      simp only [left, worker_left]
      omega
    | signal t => exact absurd rfl (quiet t)
    | handler t =>
      obtain ⟨uses, others, main, worker, armed, operations⟩ := (handles_of_handler taken).uses
      cases t with
      | main =>
        have same : ∀ j, s'.worker_left j = s.worker_left j := by
          intro j
          unfold worker_left
          rw [worker, others (.worker j) (by simp)]
        simp only [left, same, main, armed, operations]
        omega
      | worker i =>
        have framed : s.frames (.worker i) ≠ [] := by
          intro empty
          rw [empty] at uses
          simp at uses
        have active := sound.interrupted (.worker i) framed
        rw [interruptible_worker] at active
        have below := Nat.lt_of_lt_of_le (sound.not_joined active).2 sound.bounded
        have same : ∀ j, j ≠ i → s'.worker_left j = s.worker_left j := by
          intro j other
          unfold worker_left
          rw [worker, others (.worker j) (by simpa using other)]
        have replaced := sum_replaced below same
        simp only [left, main, armed, operations, others .main (by simp)]
        simp only [worker_left, worker] at replaced ⊢
        omega
    | worker | take | handle | finish | throws => simp [Event.worker?] at acts

theorem stopped_persists (taken : s.step? n e = some s') (stopped : s.stopped = true) :
    s'.stopped = true := by
  cases acts : e.worker? with
  | some i =>
    obtain ⟨-, -, p, -, same⟩ := works_of_step taken acts
    rw [same]
    exact stopped
  | none =>
    cases e with
    | main =>
      obtain ⟨-, taken⟩ := Option.ite_none_right_eq_some.mp taken
      cases mains_of_next taken <;> exact stopped
    | complete | ready | signal =>
      obtain ⟨-, taken⟩ := Option.ite_none_right_eq_some.mp taken
      obtain rfl := Option.some.inj taken
      exact stopped
    | handler t =>
      cases handles_of_handler taken with
      | stops => rfl
      | _ => exact stopped
    | worker | take | handle | finish | throws => simp [Event.worker?] at acts

theorem frames_left_le (frames : List Frame) : (frames.map Frame.left).sum ≤ 6 * frames.length := by
  induction frames with
  | nil => exact Nat.le_refl 0
  | cons f rest ih =>
    have most : f.left ≤ 6 := by cases f <;> simp [Frame.left]
    rw [List.map_cons, List.sum_cons, List.length_cons]
    omega

theorem left_le (located : ∃ x, s.Located x) :
    s.left n ≤ 11 * n + 17 + 6 * s.interruptions n + s.operations := by
  have accept (p : AcceptPoint) : p.left ≤ 7 := by cases p <;> simp [AcceptPoint.left]
  have main : s.main.left n ≤ 3 * n + 16 := by
    cases s.main with
    | constructing p =>
      have most := accept p
      simp only [MainPoint.left]
      omega
    | _ =>
      simp only [MainPoint.left]
      omega
  have armed : s.armed ≤ 1 := by
    obtain ⟨x, located⟩ := located
    rw [located.armed]
    split_ifs <;> simp
  have workers : ∑ i ∈ Finset.range n, s.worker_left i ≤
      ∑ i ∈ Finset.range n, (8 + 6 * (s.frames (.worker i)).length) := by
    apply Finset.sum_le_sum
    intro i _
    have frames := frames_left_le (s.frames (.worker i))
    have worker : (s.worker i).left ≤ 8 := by
      cases s.worker i with
      | accepting p => exact Nat.succ_le_succ (accept p)
      | _ => simp [WorkerPoint.left]
    unfold worker_left
    omega
  have frames := frames_left_le (s.frames .main)
  rw [Finset.sum_add_distrib, Finset.sum_const, Finset.card_range, smul_eq_mul, ← Finset.mul_sum]
    at workers
  unfold left interruptions
  omega

/-- Neither an accept nor an operation of a session is left, and main waits for a worker that waits in
`run()`. -/
structure Blocked (n : ℕ) (s : State) : Prop where
  unaccepted : s.Located none
  operations : s.operations = 0
  handlers : s.handlers = 0
  running : s.stopped = false
  waits : ∃ k, k < n ∧ s.main = .joining k ∧ s.worker k = .running

/-- Who is not at its end can go on, without another signal, unless it waits for a handler. -/
theorem blocked_of_rests (sound : s.Sound n) (located : s.Located x)
    (rests : Rests (step? n) silent s) :
    (∀ t, s.frames t = []) ∧ (s.main = .returned ∨ s.Blocked n) := by
  have rest (e : Event) (quiet : ∀ t, e ≠ .signal t) : s.step? n e = none := rests e quiet
  have idle : ∀ t, s.frames t = [] := by
    intro t
    have waits := rest (.handler t) (by simp)
    cases frames : s.frames t with
    | nil => rfl
    | cons f rest => cases f <;> simp [step?, State.handler, frames] at waits
  have unaccepting : ∀ i p, s.worker i ≠ .accepting p := by
    intro i p here
    have waits := rest (.worker i) (by simp)
    simp only [step?, idle, if_true, State.next_worker, here] at waits
    split at waits <;> contradiction
  have unhandling : ∀ i, s.worker i ≠ .handling := by
    intro i here
    have waits := rest (.finish i) (by simp)
    simp [step?, idle, State.finish, here] at waits
  refine ⟨idle, ?_⟩
  have waits := rest .main (by simp)
  simp only [step?, idle, if_true] at waits
  unfold State.next_main at waits
  cases here : s.main with
  | returned => exact .inl rfl
  | joining k =>
    simp only [here] at waits
    split_ifs at waits with below
    have running : s.worker k = .running := by
      cases worker : s.worker k with
      | running => rfl
      | unborn => exact absurd worker (sound.born k (by rw [here]; exact below))
      | ended threw => simp [worker] at waits
      | accepting p => exact absurd worker (unaccepting k p)
      | handling => exact absurd worker (unhandling k)
    have going : s.stopped = false := by
      have leaves := rest (.worker k) (by simp)
      simp only [step?, idle, if_true, State.next_worker, running] at leaves
      split_ifs at leaves with stays
      exact (Bool.or_eq_false_iff.mp (Bool.eq_false_iff.mpr stays)).1
    refine .inr ⟨?_, ?_, ?_, going, k, below, here, running⟩
    · cases x with
      | none => exact located
      | some z =>
        exfalso
        cases z with
        | armed =>
          have completes := rest (.complete true) (by simp)
          simp [step?, State.complete, located.armed] at completes
        | completed =>
          have takes := rest (.take k) (by simp)
          obtain ⟨ec, completed⟩ := List.length_eq_one_iff.mp located.completed
          simp [step?, idle, State.take, running, completed, going] at takes
        | main =>
          obtain ⟨p, constructing⟩ := located.main.mpr rfl
          rw [here] at constructing
          contradiction
        | worker i =>
          obtain ⟨p, accepting⟩ := (located.worker i).mpr rfl
          exact unaccepting i p accepting
    · have completes := rest .ready (by simp)
      simpa [step?, State.ready] using completes
    · have handles := rest (.handle k 0) (by simp)
      simpa [step?, idle, State.handle, running, going] using handles
  | constructing p =>
    simp only [here] at waits
    split at waits <;> contradiction
  | spawning k =>
    simp only [here] at waits
    split_ifs at waits
  | resetting k =>
    simp only [here] at waits
    rcases k with _ | _ | _ | k <;> contradiction
  | installing | storing | closing => simp [here] at waits

/-- When `accepting_` has been cleared, the io_context has been stopped or is about to be, or main has
shut the server down after its workers. -/
def Winding (s : State) : Prop := s.accepting_ = false →
  s.main.stored = true ∨ s.stopped = true ∨ ∃ t f, f ∈ s.frames t ∧ f.stops = true

theorem winding_init : ({} : State).Winding := fun closed => by contradiction

private theorem Winding.handles {t : Thread} (winding : s.Winding) (handles : s.Handles t s') :
    s'.Winding := by
  have going {u : State} {g : Frame} {rest : List Frame} (stops : g.stops = true) :
      (u.goes t (g :: rest)).Winding := fun _ =>
    .inr (.inr ⟨t, g, by rw [goes_frames]; exact List.mem_cons_self, stops⟩)
  have kept {f : Frame} {frames rest : List Frame} (here : s.frames t = f :: rest) (idle : f.stops = false)
      (below : ∀ g ∈ rest, g ∈ frames) : (s.goes t frames).Winding := by
    intro closed
    rcases winding closed with stored | stopped | ⟨t', g, inside, stops⟩
    · exact .inl stored
    · exact .inr (.inl stopped)
    · refine .inr (.inr ⟨t', g, ?_, stops⟩)
      by_cases other : t' = t
      · subst other
        rw [here] at inside
        rw [goes_frames]
        rcases List.mem_cons.mp inside with rfl | inside
        · rw [idle] at stops
          contradiction
        · exact below g inside
      · rwa [goes_frames_of_ne other]
  cases handles with
  | checks here => exact kept here rfl fun _ => List.mem_cons_of_mem _
  | leaves here => exact kept here rfl fun _ => id
  | shuts here | skips here => exact kept here rfl fun _ => List.mem_cons_of_mem _
  | stores here | closes here | resets here => exact going rfl
  | stops here => exact fun _ => .inr (.inl rfl)

theorem Winding.step (winding : s.Winding) (taken : s.step? n e = some s') : s'.Winding := by
  cases acts : e.worker? with
  | some i =>
    obtain ⟨-, -, p, -, same⟩ := works_of_step taken acts
    rw [same]
    exact winding
  | none =>
    cases e with
    | main =>
      obtain ⟨-, taken⟩ := Option.ite_none_right_eq_some.mp taken
      have mains := mains_of_next taken
      intro closed
      rw [mains.frames.1]
      cases mains with
      | stores here => exact .inl rfl
      | _ => simp_all [Winding, MainPoint.stored, touch, move]
    | complete | ready =>
      obtain ⟨-, taken⟩ := Option.ite_none_right_eq_some.mp taken
      obtain rfl := Option.some.inj taken
      exact winding
    | signal t =>
      obtain ⟨-, taken⟩ := Option.ite_none_right_eq_some.mp taken
      obtain rfl := Option.some.inj taken
      intro closed
      refine (winding closed).imp_right (Or.imp_right ?_)
      rintro ⟨t', f, inside, stops⟩
      refine ⟨t', f, ?_, stops⟩
      by_cases other : t' = t
      · subst other
        rw [goes_frames]
        exact List.mem_cons_of_mem _ inside
      · rwa [goes_frames_of_ne other]
    | handler t => exact winding.handles (handles_of_handler taken)
    | worker | take | handle | finish | throws => simp [Event.worker?] at acts

/-- Once the io_context has been stopped, main returns, and no later than what is left to do. -/
private theorem returns_of_stopped (sound : s.Sound n) (located : s.Located x) (stopped : s.stopped = true) :
    (∀ fs t, Path (step? n) silent s fs t → fs.length ≤ s.left n) ∧
      ∃ fs t, Path (step? n) silent s fs t ∧ t.main = .returned := by
  have preserved : ∀ (s : State) e s', (s.Sound n ∧ ∃ x, s.Located x) ∧ s.stopped = true → silent s e →
      s.step? n e = some s' → (s'.Sound n ∧ ∃ x, s'.Located x) ∧ s'.stopped = true := by
    rintro s e s' ⟨⟨sound, x, located⟩, stopped⟩ - taken
    obtain ⟨y, next, -⟩ := located.of_step sound taken
    exact ⟨⟨sound_of_step sound taken, y, next⟩, stopped_persists taken stopped⟩
  have uses : ∀ (s : State) e s', (s.Sound n ∧ ∃ x, s.Located x) ∧ s.stopped = true → silent s e →
      s.step? n e = some s' → s'.left n < s.left n := by
    rintro s e s' ⟨⟨sound, -⟩, stopped⟩ quiet taken
    exact left_of_step sound stopped quiet taken
  constructor
  · intro fs t path
    have used := path.length_le (I := fun s : State => (s.Sound n ∧ ∃ x, s.Located x) ∧ s.stopped = true)
      ⟨⟨sound, x, located⟩, stopped⟩ preserved uses
    omega
  · obtain ⟨fs, t, path, rests⟩ := exists_rest
      (I := fun s : State => (s.Sound n ∧ ∃ x, s.Located x) ∧ s.stopped = true)
      ⟨⟨sound, x, located⟩, stopped⟩ preserved uses
    obtain ⟨⟨sound, y, located⟩, stopped⟩ := path.preserves
      (I := fun s : State => (s.Sound n ∧ ∃ x, s.Located x) ∧ s.stopped = true)
      ⟨⟨sound, x, located⟩, stopped⟩ preserved
    refine ⟨fs, t, path, (blocked_of_rests sound located rests).2.resolve_right fun blocked => ?_⟩
    rw [blocked.running] at stopped
    contradiction

/-- A signal that interrupts main while it joins a worker stops the io_context. -/
private theorem stops_of_signal {k : ℕ} (sound : s.Sound n) (here : s.main = .joining k) :
    ∃ fs t, Path (step? n) always s (.signal .main :: fs) t ∧ t.stopped = true := by
  obtain ⟨io_context, work_guard, server, -⟩ := sound.globals
  rw [here] at io_context work_guard server
  obtain ⟨main, worker, frames, accepting_, is_open, armed, completed, operations, handlers, guard,
    stopped, g_io_context, g_work_guard, g_server, alive, started, fault⟩ := s
  simp only at here io_context work_guard server
  subst here io_context work_guard server
  exact ⟨List.replicate 6 (.handler .main), _, replay_eq_some_iff.mp rfl, rfl⟩

/-- Whoever interleaves with whom: where nothing can happen but a signal, main has returned, or the
accept was lost to an exception and a worker waits in `run()` with nothing left to wait for, until a
signal comes; and once a signal handler has stopped the io_context, main returns within a number of
steps that depends on the number of workers, of the signal handlers that are still running and of the
operations of the sessions. -/
theorem shutdown_of_run (run : Path (step? n) always {} es s) :
    (Rests (step? n) silent s → s.main = .returned ∨
      s.Blocked n ∧ Takes (step? n) always Drops {} es s ∧
        ∃ fs t, Path (step? n) always s (.signal .main :: fs) t ∧ t.main = .returned) ∧
      (s.stopped = true →
        (∀ fs t, Path (step? n) silent s fs t →
          fs.length ≤ 11 * n + 17 + 6 * s.interruptions n + s.operations) ∧
        ∃ fs t, Path (step? n) silent s fs t ∧ t.main = .returned) := by
  have sound := sound_of_run run
  obtain ⟨x, located⟩ := located_of_run run
  constructor
  · intro rests
    obtain ⟨idle, returned | blocked⟩ := blocked_of_rests sound located rests
    · exact .inl returned
    refine .inr ⟨blocked, dropped_of_run run ?_ blocked.unaccepted, ?_⟩
    · have winding := run.preserves winding_init fun _ _ _ winding _ taken => Winding.step winding taken
      obtain ⟨k, -, here, -⟩ := blocked.waits
      by_contra closed
      rcases winding (Bool.eq_false_iff.mpr closed) with stored | stopped | ⟨t, f, inside, -⟩
      · rw [here] at stored
        contradiction
      · rw [blocked.running] at stopped
        contradiction
      · rw [idle t] at inside
        contradiction
    · obtain ⟨k, -, here, -⟩ := blocked.waits
      obtain ⟨fs, u, path, stopped⟩ := stops_of_signal sound here
      obtain ⟨y, located'⟩ := located_of_run (run.append path)
      obtain ⟨gs, t, rest, returned⟩ :=
        (returns_of_stopped (sound_of_run (run.append path)) located' stopped).2
      exact ⟨fs ++ gs, t, path.append (rest.mono fun _ _ _ _ _ => trivial), returned⟩
  · intro stopped
    obtain ⟨bounded, returns⟩ := returns_of_stopped sound located stopped
    exact ⟨fun fs t path => (bounded fs t path).trans (left_le ⟨x, located⟩), returns⟩

end State

/-- One of two workers has started a session, whose handler is the last one; the other has lost the accept
to an exception. -/
def waiting : List Event :=
  accepting ++ [.throws 0, .ready, .handle 1 0, .finish 1, .main]

theorem shutdown_of_run_run :
    (∃ s, Path (State.step? 2) always {} waiting s ∧ Rests (State.step? 2) silent s ∧ s.Blocked 2) ∧
      ∃ s, Path (State.step? 1) always {} (interrupting.take 19) s ∧ s.stopped = true ∧
        s.main = .joining 0 ∧ ∃ fs t, Path (State.step? 1) silent s fs t ∧ t.main = .returned := by
  have blocked : ∃ s, Path (State.step? 2) always {} waiting s ∧ Rests (State.step? 2) silent s ∧
      s.main = .joining 1 := by
    refine ⟨_, replay_eq_some_iff.mp rfl, ?_, rfl⟩
    intro e quiet
    cases e with
    | main | complete | ready => rfl
    | worker i | take i | handle i | finish i | throws i => rcases i with _ | _ | i <;> rfl
    | signal t => exact absurd rfl (quiet t)
    | handler t => rcases t with _ | _ | _ | i <;> rfl
  have stopped : ∃ s, Path (State.step? 1) always {} (interrupting.take 19) s ∧ s.stopped = true ∧
      s.main = .joining 0 := by
    refine ⟨_, replay_eq_some_iff.mp rfl, ?_, ?_⟩ <;> rfl
  obtain ⟨s, path, rests, waits⟩ := blocked
  obtain ⟨u, path', stopped, waits'⟩ := stopped
  constructor
  · refine ⟨s, path, rests, (((State.shutdown_of_run path).1 rests).resolve_left ?_).1⟩
    rw [waits]
    exact MainPoint.noConfusion
  · exact ⟨u, path', stopped, waits', ((State.shutdown_of_run path').2 stopped).2⟩

end FlightProxy.Main
