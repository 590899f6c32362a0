import FlightProxy.Model.Main

/-! # Threads and globals, from the first statement of main to its return

main waits for each worker before it closes the server and resets the globals, and a worker that a
signal has interrupted has not ended. So the signal handler never meets what main has destroyed, on
whichever thread it runs and however it is itself interrupted.
-/

namespace FlightProxy.Main

open Transition

/-- Between its birth and its end. -/
def WorkerPoint.active : WorkerPoint → Bool
  | .unborn | .ended _ => false
  | _ => true

namespace MainPoint

/-- The globals and the signal handlers are there. -/
def installed : MainPoint → Bool
  | .constructing _ | .installing => false
  | _ => true

/-- How many workers have been born. -/
def spawned (n : ℕ) : MainPoint → ℕ
  | .constructing _ | .installing => 0
  | .spawning k => k
  | _ => n

/-- How many workers have been joined. -/
def joined (n : ℕ) : MainPoint → ℕ
  | .constructing _ | .installing | .spawning _ => 0
  | .joining k => k
  | _ => n

/-- No more than `k` of the globals are null. -/
def holds (k : ℕ) : MainPoint → Bool
  | .constructing _ | .installing | .returned => false
  | .resetting j => j ≤ k
  | _ => true

/-- shutdown has set `accepting_`. -/
def stored : MainPoint → Bool
  | .closing | .resetting _ | .returned => true
  | _ => false

/-- shutdown has closed the acceptor. -/
def closed : MainPoint → Bool
  | .resetting _ | .returned => true
  | _ => false

variable {m : MainPoint} {j k : ℕ}

theorem holds_mono (le : j ≤ k) (holds : m.holds j = true) : m.holds k = true := by
  cases m with
  | resetting i =>
    have below : i ≤ j := of_decide_eq_true holds
    exact decide_eq_true (Nat.le_trans below le)
  | constructing | installing | returned => contradiction
  | _ => rfl

theorem ne_returned_of_holds (holds : m.holds k = true) : m ≠ .returned := by
  rintro rfl
  contradiction

end MainPoint

/-- The worker whose statement or handler an event is. -/
def Event.worker? : Event → Option ℕ
  | .worker i | .take i | .handle i _ | .finish i | .throws i => some i
  | _ => none

namespace State

/-- What one statement of the accept handler does. -/
inductive Turn (s : State) : AcceptPoint → State × Option AcceptPoint → Prop
  | accepts (accepting : s.accepting_ = true) : Turn s (.deciding false) (s, some .starting)
  | skips (ec : Bool) : Turn s (.deciding ec) (s, some .again)
  | starts : Turn s .starting
      ({ s with started := s.started + 1, operations := s.operations + 1 }, some .again)
  | again (accepting : s.accepting_ = true) : Turn s .again (s, some .testing)
  | tests (accepting : s.accepting_ = true) : Turn s .testing (s, some .arming)
  | stops (p : AcceptPoint) (ends : p = .again ∨ p = .testing) (stopped : s.accepting_ = false) :
      Turn s p (s, none)
  | arms : Turn s .arming ({ s with armed := s.armed + 1 }, none)
  | aborts : Turn s .arming ({ s with completed := s.completed ++ [true] }, none)

/-- main goes on, with the accepts and the operations as in `s'`. -/
def touch (s s' : State) (main : MainPoint) : State := { s with
  main
  armed := s'.armed
  completed := s'.completed
  operations := s'.operations
  handlers := s'.handlers
  started := s'.started }

/-- What one statement of main does. -/
inductive Mains (n : ℕ) (s : State) : State → Prop
  | goes {p q : AcceptPoint} {s' : State} (here : s.main = .constructing p)
      (turn : s.Turn p (s', some q)) : Mains n s (s.touch s' (.constructing q))
  | constructed {p : AcceptPoint} {s' : State} (here : s.main = .constructing p)
      (turn : s.Turn p (s', none)) : Mains n s (s.touch s' .installing)
  | installs (here : s.main = .installing) : Mains n s { s with
      work_guard := true
      g_io_context := true
      g_work_guard := true
      g_server := true
      main := .spawning 0 }
  | spawns {k : ℕ} (here : s.main = .spawning k) (below : k < n) :
      Mains n s { s.move k .running with main := .spawning (k + 1) }
  | spawned {k : ℕ} (here : s.main = .spawning k) (above : n ≤ k) :
      Mains n s { s with main := .joining 0 }
  | joins {k : ℕ} {threw : Bool} (here : s.main = .joining k) (below : k < n)
      (ended : s.worker k = .ended threw) : Mains n s { s with main := .joining (k + 1) }
  | joined {k : ℕ} (here : s.main = .joining k) (above : n ≤ k) :
      Mains n s { s with main := .storing }
  | stores (here : s.main = .storing) : Mains n s { s with accepting_ := false, main := .closing }
  | closes (here : s.main = .closing) : Mains n s { s with is_open := false, main := .resetting 0 }
  | resets_io_context (here : s.main = .resetting 0) :
      Mains n s { s with g_io_context := false, main := .resetting 1 }
  | resets_work_guard (here : s.main = .resetting 1) :
      Mains n s { s with g_work_guard := false, main := .resetting 2 }
  | resets_server (here : s.main = .resetting 2) :
      Mains n s { s with g_server := false, main := .resetting 3 }
  | returns {k : ℕ} (here : s.main = .resetting k) (above : 3 ≤ k) :
      Mains n s { s with alive := false, main := .returned }

/-- Where a step of a worker may lead: to a new session while `accepting_` is set, and to its end when
its handler throws or nothing keeps it in `run()`. -/
def Leads (s : State) (e : Event) (i : ℕ) : WorkerPoint → Prop
  | .unborn => False
  | .accepting .starting => s.accepting_ = true
  | .ended true => e = .throws i
  | .ended false => s.stopped = true ∨ s.work_guard = false
  | _ => True

/-- What a worker does with one statement or handler: it moves, and may touch the accepts and the
operations. -/
structure Works (s : State) (e : Event) (i : ℕ) (s' : State) : Prop where
  active : (s.worker i).active = true
  idle : s.frames (.worker i) = []
  goes : ∃ p, s.Leads e i p ∧ s' = { s.move i p with
    armed := s'.armed
    completed := s'.completed
    operations := s'.operations
    handlers := s'.handlers
    started := s'.started }

/-- What one statement of the signal handler does. -/
inductive Handles (s : State) (t : Thread) : State → Prop
  | checks {rest : List Frame} (here : s.frames t = .checking :: rest)
      (io_context : s.g_io_context = true) : Handles s t (s.goes t (.shutting :: rest))
  | leaves {rest : List Frame} (here : s.frames t = .checking :: rest) : Handles s t (s.goes t rest)
  | shuts {rest : List Frame} (here : s.frames t = .shutting :: rest)
      (server : s.g_server = true) : Handles s t (s.goes t (.storing :: rest))
  | skips {rest : List Frame} (here : s.frames t = .shutting :: rest)
      (server : s.g_server = false) : Handles s t (s.goes t (.resetting :: rest))
  | stores {rest : List Frame} (here : s.frames t = .storing :: rest) :
      Handles s t ({ s.use s.g_server with accepting_ := false }.goes t (.closing :: rest))
  | closes {rest : List Frame} (here : s.frames t = .closing :: rest) :
      Handles s t ({ s.use s.g_server with is_open := false }.goes t (.resetting :: rest))
  | resets {rest : List Frame} (here : s.frames t = .resetting :: rest) :
      Handles s t ({ s.use s.g_work_guard with work_guard := false }.goes t (.stopping :: rest))
  | stops {rest : List Frame} (here : s.frames t = .stopping :: rest) :
      Handles s t ({ s.use s.g_io_context with stopped := true }.goes t rest)

/-- The globals are set from their installation until main resets them. -/
structure Globals (s : State) : Prop where
  io_context : s.g_io_context = s.main.holds 0
  work_guard : s.g_work_guard = s.main.holds 1
  server : s.g_server = s.main.holds 2
  alive : s.alive = decide (s.main ≠ .returned)

/-- The workers are born and joined in their order; a thread with a signal handler on it can be
interrupted, and the handler finds the globals that it has checked. -/
structure Sound (n : ℕ) (s : State) : Prop where
  constructing : ∀ p, s.main = .constructing p → p = .testing ∨ p = .arming
  bounded : s.main.spawned n ≤ n
  unborn : ∀ i, s.main.spawned n ≤ i → s.worker i = .unborn
  born : ∀ i, i < s.main.spawned n → s.worker i ≠ .unborn
  ended : ∀ i, i < s.main.joined n → ∃ threw, s.worker i = .ended threw
  interrupted : ∀ t, s.frames t ≠ [] → s.interruptible t = true
  globals : s.Globals
  checked : ∀ t f, f ∈ s.frames t → f ≠ .checking → s.main.holds 0 = true
  stored : s.main.stored = true → s.accepting_ = false
  closed : s.main.closed = true → s.is_open = false
  fault : s.fault = false

variable {n : ℕ} {s s' t : State} {e : Event} {p : AcceptPoint} {next : Option AcceptPoint}
  {es : List Event} {i : ℕ}

theorem turn_of_accept (s : State) (p : AcceptPoint) : s.Turn p (s.accept p) := by
  cases p with
  | deciding ec =>
    cases ec with
    | true => exact .skips true
    | false =>
      cases accepting : s.accepting_ with
      | true =>
        simp only [accept, accepting]
        exact .accepts accepting
      | false =>
        simp only [accept, accepting]
        exact .skips false
  | starting => exact .starts
  | again =>
    cases accepting : s.accepting_ with
    | true =>
      simp only [accept, accepting, if_true]
      exact .again accepting
    | false =>
      simp only [accept, accepting, Bool.false_eq_true, if_false]
      exact .stops .again (.inl rfl) accepting
  | testing =>
    cases accepting : s.accepting_ with
    | true =>
      simp only [accept, accepting, if_true]
      exact .tests accepting
    | false =>
      simp only [accept, accepting, Bool.false_eq_true, if_false]
      exact .stops .testing (.inr rfl) accepting
  | arming =>
    change s.Turn .arming (if s.is_open then _ else _, none)
    split_ifs with isOpen
    · exact .arms
    · exact .aborts

/-- A statement of the accept handler touches the accepts and the operations alone. -/
theorem Turn.frame (turn : s.Turn p (s', next)) : s' = { s with
    armed := s'.armed
    completed := s'.completed
    operations := s'.operations
    handlers := s'.handlers
    started := s'.started } := by
  cases turn <;> rfl

theorem mains_of_next (taken : s.next_main n = some s') : s.Mains n s' := by
  unfold next_main at taken
  cases here : s.main with
  | constructing p =>
    simp only [here] at taken
    have turn := s.turn_of_accept p
    cases went : s.accept p with
    | mk s' next =>
      rw [went] at taken turn
      cases next with
      | none =>
        obtain rfl := Option.some.inj taken
        have same : { s' with main := .installing } = s.touch s' .installing :=
          congrArg (fun u : State => { u with main := .installing }) turn.frame
        rw [same]
        exact .constructed here turn
      | some q =>
        obtain rfl := Option.some.inj taken
        have same : { s' with main := .constructing q } = s.touch s' (.constructing q) :=
          congrArg (fun u : State => { u with main := .constructing q }) turn.frame
        rw [same]
        exact .goes here turn
  | installing =>
    simp only [here] at taken
    obtain rfl := Option.some.inj taken
    exact .installs here
  | spawning k =>
    simp only [here] at taken
    split_ifs at taken with below
    · obtain rfl := Option.some.inj taken
      exact .spawns here below
    · obtain rfl := Option.some.inj taken
      exact .spawned here (Nat.le_of_not_lt below)
  | joining k =>
    simp only [here] at taken
    split_ifs at taken with below
    · cases worker : s.worker k with
      | ended threw =>
        rw [worker] at taken
        obtain rfl := Option.some.inj taken
        exact .joins here below worker
      | unborn | running | accepting | handling => simp [worker] at taken
    · obtain rfl := Option.some.inj taken
      exact .joined here (Nat.le_of_not_lt below)
  | storing =>
    simp only [here] at taken
    obtain rfl := Option.some.inj taken
    exact .stores here
  | closing =>
    simp only [here] at taken
    obtain rfl := Option.some.inj taken
    exact .closes here
  | resetting k =>
    simp only [here] at taken
    match k with
    | 0 =>
      obtain rfl := Option.some.inj taken
      exact .resets_io_context here
    | 1 =>
      obtain rfl := Option.some.inj taken
      exact .resets_work_guard here
    | 2 =>
      obtain rfl := Option.some.inj taken
      exact .resets_server here
    | k + 3 =>
      obtain rfl := Option.some.inj taken
      exact .returns here (Nat.le_add_left 3 k)
  | returned => simp [here] at taken

theorem works_of_next (idle : s.frames (.worker i) = []) (taken : s.next_worker i = some s') :
    s.Works (.worker i) i s' := by
  cases here : s.worker i with
  | accepting p =>
    simp only [next_worker, here] at taken
    have turn := s.turn_of_accept p
    cases went : s.accept p with
    | mk u next =>
      rw [went] at taken turn
      cases next with
      | none =>
        obtain rfl := Option.some.inj taken
        refine ⟨by rw [here]; rfl, idle, .running, trivial, ?_⟩
        exact congrArg (State.move · i .running) turn.frame
      | some q =>
        obtain rfl := Option.some.inj taken
        refine ⟨by rw [here]; rfl, idle, .accepting q, ?_, ?_⟩
        · cases turn with
          | accepts accepting => exact accepting
          | _ => trivial
        · exact congrArg (State.move · i (.accepting q)) turn.frame
  | running =>
    simp only [next_worker, here] at taken
    split_ifs at taken with leaves
    obtain rfl := Option.some.inj taken
    refine ⟨by rw [here]; rfl, idle, .ended false, ?_, rfl⟩
    rcases Bool.or_eq_true_iff.mp leaves with stopped | reset
    · exact .inl stopped
    · exact .inr (Bool.not_eq_true' _ ▸ reset)
  | unborn | handling | ended => simp [next_worker, here] at taken

theorem works_of_step (taken : s.step? n e = some s') (acts : e.worker? = some i) :
    s.Works e i s' := by
  cases e with
  | worker j =>
    obtain rfl := Option.some.inj acts
    obtain ⟨idle, taken⟩ := Option.ite_none_right_eq_some.mp taken
    exact works_of_next idle taken
  | take j =>
    obtain rfl := Option.some.inj acts
    obtain ⟨idle, taken⟩ := Option.ite_none_right_eq_some.mp taken
    unfold take at taken
    split at taken
    · rename_i ec rest here completed
      split_ifs at taken
      obtain rfl := Option.some.inj taken
      exact ⟨by rw [here]; rfl, idle, .accepting (.deciding ec), trivial, rfl⟩
    · contradiction
  | handle j =>
    obtain rfl := Option.some.inj acts
    obtain ⟨idle, taken⟩ := Option.ite_none_right_eq_some.mp taken
    obtain ⟨⟨here, -⟩, taken⟩ := Option.ite_none_right_eq_some.mp taken
    obtain rfl := Option.some.inj taken
    exact ⟨by rw [here]; rfl, idle, .handling, trivial, rfl⟩
  | finish j =>
    obtain rfl := Option.some.inj acts
    obtain ⟨idle, taken⟩ := Option.ite_none_right_eq_some.mp taken
    obtain ⟨here, taken⟩ := Option.ite_none_right_eq_some.mp taken
    obtain rfl := Option.some.inj taken
    exact ⟨by rw [here]; rfl, idle, .running, trivial, rfl⟩
  | throws j =>
    obtain rfl := Option.some.inj acts
    obtain ⟨idle, taken⟩ := Option.ite_none_right_eq_some.mp taken
    obtain ⟨here, taken⟩ := Option.ite_none_right_eq_some.mp taken
    obtain rfl := Option.some.inj taken
    refine ⟨?_, idle, .ended true, rfl, rfl⟩
    rcases here with here | here <;> rw [here] <;> rfl
  | main | complete | ready | signal | handler => simp [Event.worker?] at acts

theorem handles_of_handler {t : Thread} (taken : s.handler t = some s') : s.Handles t s' := by
  unfold handler at taken
  split at taken
  · rename_i rest here
    obtain rfl := Option.some.inj taken
    split_ifs with checked
    · exact .checks here (Bool.and_eq_true_iff.mp checked).1
    · exact .leaves here
  · rename_i rest here
    obtain rfl := Option.some.inj taken
    cases server : s.g_server with
    | true => exact .shuts here server
    | false => exact .skips here server
  · rename_i rest here
    obtain rfl := Option.some.inj taken
    exact .stores here
  · rename_i rest here
    obtain rfl := Option.some.inj taken
    exact .closes here
  · rename_i rest here
    obtain rfl := Option.some.inj taken
    exact .resets here
  · rename_i rest here
    obtain rfl := Option.some.inj taken
    exact .stops here
  · contradiction

@[simp] theorem interruptible_worker : s.interruptible (.worker i) = (s.worker i).active := by
  cases here : s.worker i <;> simp [interruptible, WorkerPoint.active, here]

theorem sound_init (n : ℕ) : ({} : State).Sound n where
  constructing _ here := .inl (MainPoint.constructing.inj here).symm
  bounded := Nat.zero_le n
  unborn _ _ := rfl
  born i below := absurd below (Nat.not_lt_zero i)
  ended i below := absurd below (Nat.not_lt_zero i)
  interrupted t frames := absurd rfl frames
  globals := ⟨rfl, rfl, rfl, rfl⟩
  checked t f inside := absurd inside List.not_mem_nil
  stored here := by contradiction
  closed here := by contradiction
  fault := rfl

/-- A worker that can be interrupted has not been joined. -/
theorem Sound.not_joined (sound : s.Sound n) (active : (s.worker i).active = true) :
    s.main.joined n ≤ i ∧ i < s.main.spawned n := by
  constructor
  · by_contra below
    obtain ⟨threw, ended⟩ := sound.ended i (Nat.lt_of_not_le below)
    rw [ended] at active
    contradiction
  · by_contra above
    rw [sound.unborn i (Nat.le_of_not_lt above)] at active
    contradiction

/-- While a signal handler is on a thread, main has not reset a global that the handler has checked. -/
theorem Mains.checked (mains : s.Mains n s') (sound : s.Sound n) (idle : s.frames .main = [])
    {t : Thread} {f : Frame} (inside : f ∈ s.frames t) (checked : f ≠ .checking) :
    s'.main.holds 0 = true := by
  have held := sound.checked t f inside checked
  cases t with
  | main =>
    rw [idle] at inside
    contradiction
  | worker i =>
    have active := sound.interrupted (.worker i) (List.ne_nil_of_mem inside)
    rw [interruptible_worker] at active
    obtain ⟨joined, spawned⟩ := sound.not_joined active
    cases mains with
    | resets_io_context here =>
      rw [here] at joined spawned
      exact absurd spawned (Nat.not_lt_of_le joined)
    | goes here | constructed here | installs here | resets_work_guard here | resets_server here =>
      simp [here, MainPoint.holds] at held
    | returns here above =>
      simp [here, MainPoint.holds] at held
      omega
    | _ => rfl

/-- Only the next worker is born, in the loop that starts the workers. -/
theorem Mains.workers (mains : s.Mains n s') (bounded : s.main.spawned n ≤ n) :
    s'.worker = s.worker ∧ s'.main.spawned n = s.main.spawned n ∨
      ∃ k, k < n ∧ s.main = .spawning k ∧ s'.main = .spawning (k + 1) ∧
        s'.worker = Function.update s.worker k .running := by
  cases mains with
  | spawns here below => exact .inr ⟨_, below, here, rfl, rfl⟩
  | spawned here above =>
    rw [here] at bounded
    refine .inl ⟨rfl, ?_⟩
    rw [here]
    exact Nat.le_antisymm above bounded
  | _ =>
    left
    simp_all [MainPoint.spawned, touch]

/-- main joins a worker that has ended. -/
theorem Mains.joins_ended (mains : s.Mains n s') (below : i < s'.main.joined n) :
    i < s.main.joined n ∨ ∃ threw, s.worker i = .ended threw := by
  cases mains with
  | joins here _ ended =>
    rcases Nat.lt_succ_iff_lt_or_eq.mp below with below | rfl
    · left
      rwa [here]
    · exact .inr ⟨_, ended⟩
  | joined here above =>
    left
    rw [here]
    exact Nat.lt_of_lt_of_le below above
  | _ =>
    left
    simp_all [MainPoint.joined, touch]

theorem Mains.frames (mains : s.Mains n s') : s'.frames = s.frames ∧ s'.fault = s.fault := by
  cases mains <;> exact ⟨rfl, rfl⟩

theorem Mains.globals (mains : s.Mains n s') (globals : s.Globals) : s'.Globals := by
  obtain ⟨io_context, work_guard, server, alive⟩ := globals
  cases mains with
  | returns here above =>
    rw [here] at io_context work_guard server
    refine ⟨io_context.trans ?_, work_guard.trans ?_, server.trans ?_, rfl⟩ <;>
      simp [MainPoint.holds] <;> omega
  | _ => constructor <;> simp_all [MainPoint.holds, touch, move]

theorem Sound.mains (sound : s.Sound n) (idle : s.frames .main = []) (mains : s.Mains n s') :
    s'.Sound n where
  constructing p here := by
    cases mains with
    | goes constructing turn =>
      obtain rfl := MainPoint.constructing.inj here
      rcases sound.constructing _ constructing with rfl | rfl <;> cases turn
      exact .inr rfl
    | _ => contradiction
  bounded := by
    rcases mains.workers sound.bounded with ⟨-, same⟩ | ⟨k, below, -, next, -⟩
    · rw [same]
      exact sound.bounded
    · rw [next]
      exact below
  unborn i above := by
    rcases mains.workers sound.bounded with ⟨workers, same⟩ | ⟨k, below, here, next, workers⟩
    · rw [workers]
      rw [same] at above
      exact sound.unborn i above
    · rw [next] at above
      have above : k < i := above
      rw [workers, Function.update_of_ne (Nat.ne_of_gt above)]
      apply sound.unborn i
      rw [here]
      exact Nat.le_of_lt above
  born i below' := by
    rcases mains.workers sound.bounded with ⟨workers, same⟩ | ⟨k, below, here, next, workers⟩
    · rw [workers]
      rw [same] at below'
      exact sound.born i below'
    · rw [next] at below'
      rcases Nat.lt_succ_iff_lt_or_eq.mp below' with below' | rfl
      · rw [workers, Function.update_of_ne (Nat.ne_of_lt below')]
        apply sound.born i
        rwa [here]
      · rw [workers, Function.update_self]
        simp
  ended i below' := by
    have ended : ∃ threw, s.worker i = .ended threw := by
      rcases mains.joins_ended below' with below | ended
      · exact sound.ended i below
      · exact ended
    rcases mains.workers sound.bounded with ⟨workers, -⟩ | ⟨k, -, -, next, -⟩
    · rwa [workers]
    · rw [next] at below'
      exact absurd below' (Nat.not_lt_zero i)
  interrupted t framed := by
    rw [mains.frames.1] at framed
    cases t with
    | main => exact absurd idle framed
    | worker i =>
      have active := sound.interrupted (.worker i) framed
      rw [interruptible_worker] at active ⊢
      rcases mains.workers sound.bounded with ⟨workers, -⟩ | ⟨k, -, here, -, workers⟩
      · rwa [workers]
      · have spawned := (sound.not_joined active).2
        rw [here] at spawned
        have spawned : i < k := spawned
        rwa [workers, Function.update_of_ne (Nat.ne_of_lt spawned)]
  globals := mains.globals sound.globals
  checked t f inside := by
    rw [mains.frames.1] at inside
    exact mains.checked sound idle inside
  stored := by
    have stored := sound.stored
    cases mains <;> simp_all [MainPoint.stored, touch, move]
  closed := by
    have closed := sound.closed
    cases mains <;> simp_all [MainPoint.closed, touch, move]
  fault := mains.frames.2.trans sound.fault

/-- A worker that moves is neither unborn nor joined, before or after. -/
theorem Sound.works (sound : s.Sound n) (works : s.Works e i s') : s'.Sound n := by
  obtain ⟨active, idle, p, leads, same⟩ := works
  obtain ⟨joined, spawned⟩ := sound.not_joined active
  rw [same]
  exact {
    constructing := sound.constructing
    bounded := sound.bounded
    unborn j above := by
      have other : j ≠ i := by
        rintro rfl
        exact absurd spawned (Nat.not_lt_of_le above)
      exact (Function.update_of_ne other _ _).trans (sound.unborn j above)
    born j below := by
      by_cases other : j = i
      · subst other
        change Function.update s.worker j p j ≠ .unborn
        rw [Function.update_self]
        rintro rfl
        exact leads
      · change Function.update s.worker i p j ≠ .unborn
        rw [Function.update_of_ne other]
        exact sound.born j below
    ended j below := by
      have other : j ≠ i := by
        rintro rfl
        exact absurd below (Nat.not_lt_of_le joined)
      obtain ⟨threw, ended⟩ := sound.ended j below
      exact ⟨threw, (Function.update_of_ne other _ _).trans ended⟩
    interrupted t framed := by
      have before := sound.interrupted t framed
      cases t with
      | main => exact before
      | worker j =>
        have other : j ≠ i := by
          rintro rfl
          exact framed idle
        rw [interruptible_worker] at before ⊢
        change (Function.update s.worker i p j).active = true
        rwa [Function.update_of_ne other]
    globals := ⟨sound.globals.io_context, sound.globals.work_guard, sound.globals.server,
      sound.globals.alive⟩
    checked := sound.checked
    stored := sound.stored
    closed := sound.closed
    fault := sound.fault }

@[simp] theorem goes_frames {t : Thread} {frames : List Frame} :
    (s.goes t frames).frames t = frames := by
  simp [goes]

theorem goes_frames_of_ne {t t' : Thread} {frames : List Frame} (other : t' ≠ t) :
    (s.goes t frames).frames t' = s.frames t' := by
  simp [goes, other]

/-- A thread gets a signal handler, or its handler goes on or returns. -/
theorem Sound.goes {t : Thread} {frames : List Frame} (sound : s.Sound n)
    (can : s.interruptible t = true)
    (checked : ∀ f ∈ frames, f ≠ .checking → s.main.holds 0 = true) : (s.goes t frames).Sound n where
  constructing := sound.constructing
  bounded := sound.bounded
  unborn := sound.unborn
  born := sound.born
  ended := sound.ended
  interrupted t' framed := by
    by_cases other : t' = t
    · subst other
      exact can
    · rw [goes_frames_of_ne other] at framed
      exact sound.interrupted t' framed
  globals := ⟨sound.globals.io_context, sound.globals.work_guard, sound.globals.server,
    sound.globals.alive⟩
  checked t' f inside passed := by
    by_cases other : t' = t
    · subst other
      rw [goes_frames] at inside
      exact checked f inside passed
    · rw [goes_frames_of_ne other] at inside
      exact sound.checked t' f inside passed
  stored := sound.stored
  closed := sound.closed
  fault := sound.fault

/-- Stopping the server, in any of its parts. -/
theorem Sound.stops (sound : s.Sound n) (u : State) (fault : u.fault = false)
    (accepting : s.accepting_ = false → u.accepting_ = false)
    (is_open : s.is_open = false → u.is_open = false) : State.Sound n { s with
      accepting_ := u.accepting_
      is_open := u.is_open
      work_guard := u.work_guard
      stopped := u.stopped
      fault := u.fault } where
  constructing := sound.constructing
  bounded := sound.bounded
  unborn := sound.unborn
  born := sound.born
  ended := sound.ended
  interrupted := sound.interrupted
  globals := ⟨sound.globals.io_context, sound.globals.work_guard, sound.globals.server,
    sound.globals.alive⟩
  checked := sound.checked
  stored here := accepting (sound.stored here)
  closed here := is_open (sound.closed here)
  fault := fault

/-- A global that the handler uses is there. -/
theorem Sound.use (sound : s.Sound n) (held : s.main.holds 0 = true) :
    (s.use s.g_io_context).fault = false ∧ (s.use s.g_work_guard).fault = false ∧
      (s.use s.g_server).fault = false := by
  have alive : s.alive = true :=
    sound.globals.alive.trans (decide_eq_true (MainPoint.ne_returned_of_holds held))
  simp [State.use, sound.fault, alive, sound.globals.io_context, sound.globals.work_guard,
    sound.globals.server, held, MainPoint.holds_mono (Nat.zero_le 1) held,
    MainPoint.holds_mono (Nat.zero_le 2) held]

theorem Sound.handles {t : Thread} (sound : s.Sound n) (handles : s.Handles t s') : s'.Sound n := by
  have can {f : Frame} {rest : List Frame} (here : s.frames t = f :: rest) :
      s.interruptible t = true := sound.interrupted t (by simp [here])
  have held {f : Frame} {rest : List Frame} (here : s.frames t = f :: rest) (passed : f ≠ .checking) :
      s.main.holds 0 = true := sound.checked t f (by simp [here]) passed
  have under {f : Frame} {rest : List Frame} (here : s.frames t = f :: rest) :
      ∀ g ∈ rest, g ≠ .checking → s.main.holds 0 = true := by
    intro g inside
    exact sound.checked t g (by simp [here, inside])
  cases handles with
  | checks here io_context =>
    have passed := sound.globals.io_context.symm.trans io_context
    exact sound.goes (can here) fun _ _ _ => passed
  | leaves here => exact sound.goes (can here) (under here)
  | shuts here | skips here =>
    have passed := held here (by simp)
    exact sound.goes (can here) fun _ _ _ => passed
  | stores here =>
    have passed := held here (by simp)
    have stops := sound.stops { s.use s.g_server with accepting_ := false } (sound.use passed).2.2
      (fun _ => rfl) id
    exact stops.goes (can here) fun _ _ _ => passed
  | closes here =>
    have passed := held here (by simp)
    have stops := sound.stops { s.use s.g_server with is_open := false } (sound.use passed).2.2
      id (fun _ => rfl)
    exact stops.goes (can here) fun _ _ _ => passed
  | resets here =>
    have passed := held here (by simp)
    have stops := sound.stops { s.use s.g_work_guard with work_guard := false }
      (sound.use passed).2.1 id id
    exact stops.goes (can here) fun _ _ _ => passed
  | stops here =>
    have passed := held here (by simp)
    have stops := sound.stops { s.use s.g_io_context with stopped := true } (sound.use passed).1 id id
    exact stops.goes (can here) (under here)

theorem sound_of_step (sound : s.Sound n) (taken : s.step? n e = some s') : s'.Sound n := by
  cases acts : e.worker? with
  | some i => exact sound.works (works_of_step taken acts)
  | none =>
    cases e with
    | main =>
      obtain ⟨idle, taken⟩ := Option.ite_none_right_eq_some.mp taken
      exact sound.mains idle (mains_of_next taken)
    | complete | ready =>
      obtain ⟨-, taken⟩ := Option.ite_none_right_eq_some.mp taken
      obtain rfl := Option.some.inj taken
      exact ⟨sound.constructing, sound.bounded, sound.unborn, sound.born, sound.ended, sound.interrupted,
        ⟨sound.globals.io_context, sound.globals.work_guard, sound.globals.server,
          sound.globals.alive⟩, sound.checked, sound.stored, sound.closed, sound.fault⟩
    | signal t =>
      obtain ⟨can, taken⟩ := Option.ite_none_right_eq_some.mp taken
      obtain rfl := Option.some.inj taken
      refine sound.goes can ?_
      intro f inside passed
      rcases List.mem_cons.mp inside with rfl | inside
      · contradiction
      · exact sound.checked t f inside passed
    | handler t => exact sound.handles (handles_of_handler taken)
    | worker | take | handle | finish | throws => simp [Event.worker?] at acts

theorem sound_of_run (run : Path (step? n) always {} es s) : s.Sound n :=
  run.preserves (sound_init n) fun _ _ _ sound _ => sound_of_step sound

/-- How a worker comes to its end. -/
theorem ended_of_step {threw : Bool} (taken : s.step? n e = some s')
    (ended : s'.worker i = .ended threw) : s.worker i = .ended threw ∨
      (s.worker i).active = true ∧ s.Leads e i (.ended threw) := by
  cases acts : e.worker? with
  | some j =>
    obtain ⟨active, -, p, leads, same⟩ := works_of_step taken acts
    rw [same] at ended
    have ended : Function.update s.worker j p i = .ended threw := ended
    by_cases other : i = j
    · subst other
      rw [Function.update_self] at ended
      exact .inr ⟨active, ended ▸ leads⟩
    · rw [Function.update_of_ne other] at ended
      exact .inl ended
  | none =>
    left
    cases e with
    | main =>
      obtain ⟨-, taken⟩ := Option.ite_none_right_eq_some.mp taken
      cases mains_of_next taken with
      | @spawns k =>
        have ended : Function.update s.worker k .running i = .ended threw := ended
        by_cases other : i = k
        · subst other
          rw [Function.update_self] at ended
          contradiction
        · rwa [Function.update_of_ne other] at ended
      | _ => exact ended
    | complete | ready =>
      obtain ⟨-, taken⟩ := Option.ite_none_right_eq_some.mp taken
      obtain rfl := Option.some.inj taken
      exact ended
    | signal t =>
      obtain ⟨-, taken⟩ := Option.ite_none_right_eq_some.mp taken
      obtain rfl := Option.some.inj taken
      exact ended
    | handler t =>
      cases handles_of_handler taken <;> exact ended
    | worker | take | handle | finish | throws => simp [Event.worker?] at acts

/-- A worker whose handler threw. -/
theorem throws_of_run (run : Path (step? n) always {} es s) :
    ∀ i, s.worker i = .ended true → .throws i ∈ es := by
  apply run.records
  · intro i ended
    contradiction
  · intro es s e s' known _ taken i ended
    rcases ended_of_step taken ended with ended | ⟨-, leads⟩
    · exact List.mem_append_left _ (known i ended)
    · obtain rfl : e = .throws i := leads
      exact List.mem_append_right _ List.mem_cons_self

theorem Sound.installed (sound : s.Sound n) (active : (s.worker i).active = true) :
    s.main.installed = true := by
  have below := (sound.not_joined active).2
  cases here : s.main with
  | constructing | installing =>
    rw [here] at below
    exact absurd below (Nat.not_lt_zero i)
  | _ => rfl

/-- No signal has come. -/
structure Quiet (s : State) : Prop where
  frames : ∀ t, s.frames t = []
  running : s.stopped = false
  guarded : s.main.installed = true → s.work_guard = true
  kept : ∀ i, s.worker i ≠ .ended false

theorem Quiet.of_step (quiet : s.Quiet) (sound : s.Sound n) (silent : ∀ t, e ≠ .signal t)
    (taken : s.step? n e = some s') : s'.Quiet := by
  have kept : ∀ i, s'.worker i ≠ .ended false := by
    intro i ended
    rcases ended_of_step taken ended with ended | ⟨active, stopped | reset⟩
    · exact quiet.kept i ended
    · rw [quiet.running] at stopped
      contradiction
    · rw [quiet.guarded (sound.installed active)] at reset
      contradiction
  cases acts : e.worker? with
  | some i =>
    obtain ⟨-, -, p, leads, same⟩ := works_of_step taken acts
    rw [same] at kept ⊢
    exact ⟨quiet.frames, quiet.running, quiet.guarded, kept⟩
  | none =>
    cases e with
    | main =>
      obtain ⟨-, taken⟩ := Option.ite_none_right_eq_some.mp taken
      have mains := mains_of_next taken
      refine ⟨fun t => ?_, ?_, ?_, kept⟩
      · rw [mains.frames.1]
        exact quiet.frames t
      · cases mains <;> exact quiet.running
      · have guarded := quiet.guarded
        cases mains <;> simp_all [MainPoint.installed, touch, move]
    | complete | ready =>
      obtain ⟨-, taken⟩ := Option.ite_none_right_eq_some.mp taken
      obtain rfl := Option.some.inj taken
      exact ⟨quiet.frames, quiet.running, quiet.guarded, kept⟩
    | signal t => exact absurd rfl (silent t)
    | handler t => cases handles_of_handler taken <;> simp_all [quiet.frames t]
    | worker | take | handle | finish | throws => simp [Event.worker?] at acts

/-- Without a signal nothing but an exception ends a worker. -/
theorem quiet_of_run (run : Path (step? n) always {} es s) (silent : ∀ t, .signal t ∉ es) :
    s.Quiet := by
  have silently : Path (step? n) (fun _ e => ∀ t, e ≠ .signal t) {} es s :=
    run.along.mono fun _ e _ here _ t same => silent t (same ▸ here.2)
  refine (silently.preserves (I := fun s => s.Quiet ∧ s.Sound n) ?_ ?_).1
  · exact ⟨⟨fun _ => rfl, rfl, fun _ => by contradiction, fun _ => by simp⟩, sound_init n⟩
  · intro s e s' ⟨quiet, sound⟩ silent taken
    exact ⟨quiet.of_step sound silent taken, sound_of_step sound taken⟩

/-- However main, the workers and the signal handlers interleave: no handler meets a pointer that is
null or an object that main has destroyed; main returns from a server that is closed, after each of its
workers; and it returns only after a signal, or when every worker has been ended by an exception. -/
theorem lifecycle_of_run (run : Path (step? n) always {} es s) :
    s.fault = false ∧
      (s.main = .returned →
        s.accepting_ = false ∧ s.is_open = false ∧
          (∀ i, i < n → ∃ threw, s.worker i = .ended threw) ∧
          ((∃ t, .signal t ∈ es) ∨ ∀ i, i < n → .throws i ∈ es)) := by
  have sound := sound_of_run run
  refine ⟨sound.fault, fun returned => ?_⟩
  have ended : ∀ i, i < n → ∃ threw, s.worker i = .ended threw := by
    intro i below
    apply sound.ended i
    rwa [returned]
  refine ⟨sound.stored (by rw [returned]; rfl), sound.closed (by rw [returned]; rfl), ended, ?_⟩
  by_cases signalled : ∃ t, .signal t ∈ es
  · exact .inl signalled
  · right
    intro i below
    have quiet := quiet_of_run run (not_exists.mp signalled)
    obtain ⟨threw, ended⟩ := ended i below
    cases threw with
    | false => exact absurd ended (quiet.kept i)
    | true => exact throws_of_run run i ended

end State

/-- One worker; a signal interrupts it, and another one its handler. -/
def interrupting : List Event :=
  [.main, .main, .main, .main, .main, .signal (.worker 0), .handler (.worker 0),
    .signal (.worker 0)] ++ List.replicate 11 (.handler (.worker 0)) ++
    [.worker 0] ++ List.replicate 8 .main

theorem lifecycle_of_run_run : ∃ s, Path (State.step? 1) always {} interrupting s ∧
    s.main = .returned ∧ s.worker 0 = .ended false ∧ s.fault = false := by
  have run : ∃ s, Path (State.step? 1) always {} interrupting s ∧ s.main = .returned ∧
      s.worker 0 = .ended false := by
    refine ⟨_, replay_eq_some_iff.mp rfl, ?_, ?_⟩ <;> rfl
  obtain ⟨s, path, returned, ended⟩ := run
  exact ⟨s, path, returned, ended, (State.lifecycle_of_run path).1⟩

end FlightProxy.Main
