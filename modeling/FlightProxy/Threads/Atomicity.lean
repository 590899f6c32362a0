import FlightProxy.Threads.Lifetime

/-! # The blocks of SingleFlight are atomic

A run of the threads, lock by lock, is a run of the blocks. Each block happens at one statement: an
election where the entry or `ready` is looked at, an enrolment where `ready` is looked at again, a
publication where the flight is made ready. Until the statements that follow it under the same locks
are done the map and the flight lag behind, which nobody can see. So what has been proved of the
blocks holds of the threads.
-/

namespace FlightProxy.Threads

open Transition Sync
open SingleFlight (DoCall NotifyCall Block)

variable {Call : Type*}

namespace Point

/-- The program point of doSingleFlight between its blocks. -/
def doing : Point Call → DoCall Call
  | .kept key f | .joining key f | .joined key f => .joining key f
  | .erased key _ | .replaced key _ _ | .renewed key _ _ | .made key _ | .inserted key _
  | .leading key _ | .leader key => .leader key
  | .calling key f result => .calling key f result
  | .called key f outcome | .leaving key f outcome | .left key f outcome => .after key f outcome
  | _ => .idle

/-- The program point of notifyResult between its blocks. -/
def notifies : Point Call → NotifyCall Call
  | .missed key result => .returned key result none
  | .sought key result f | .publishing key result f | .locked key result f => .publishing key result f
  | .published key result f callbacks | .notifying key result f callbacks =>
    .notifying key result f callbacks
  | .erasing key result f => .notifying key result f []
  | .wiped key result f | .retiring key result f => .returned key result (some f)
  | .returned key result flight => .returned key result flight
  | _ => .idle

/-- A direct callback is running. -/
def calls : Point Call → Bool
  | .calling _ _ _ => true
  | _ => false

/-- What the map has under the key as soon as the call is done with it. -/
def foresees (c : Call) (k : Bytes) (entry : Option Call) : Point Call → Option Call
  | .erased key _ => if k = key then some c else entry
  | .replaced key f _ | .made key f => if k = key then some f else entry
  | .clearing => none
  | _ => entry

theorem foresees_of_outside {p : Point Call} (c : Call) (k : Bytes) (entry : Option Call)
    (outside : p.in_flights = false) : p.foresees c k entry = entry := by
  cases p <;> first | rfl | contradiction

end Point

namespace State

/-- The state between blocks, with every block that has begun done. -/
def blocks (s : State Call) : SingleFlight.State Call where
  flights_ k := match s.flights_mutex_ with
    | some c => (s.point c).foresees c k (s.flights_.lookup k)
    | none => s.flights_.lookup k
  flight f :=
    { mutex := (s.flight f).mutex.filter fun c => (s.point c).calls
      result := (s.flight f).result
      ready := (s.flight f).ready
      waiters := (s.flight f).waiters
      callbacks := (s.flight f).callbacks }
  doing c := (s.point c).doing
  notifying c := (s.point c).notifies
  invoked := s.invoked

end State

variable {s s' t : State Call} {c d f g : Call} {key : Bytes} {p q : Point Call} {op : Op Call}

namespace State

/-! ## The parts of the state -/

theorem flights_of_inside (guards : Mutex.Guards s.flights_mutex_ fun c => (s.point c).in_flights = true)
    (inside : (s.point c).in_flights = true) (k : Bytes) :
    s.blocks.flights_ k = (s.point c).foresees c k (s.flights_.lookup k) := by
  simp only [blocks, (guards c).mpr inside]

theorem flights_of_free (free : s.flights_mutex_ = none) (k : Bytes) :
    s.blocks.flights_ k = s.flights_.lookup k := by
  simp only [blocks, free]

/-- The mutex of a flight is free between the blocks when its owner runs no callback. -/
theorem Sound.unowned (sound : s.Sound) (guards : (s.point c).guards = some f)
    (quiet : (s.point c).calls = false) : (s.blocks.flight f).mutex = none := by
  simp only [blocks]
  rw [(sound.mutex f c).mpr guards, Option.filter_some, quiet]
  rfl

theorem Sound.entry (sound : s.Sound) (inside : (s.point c).in_flights = true)
    (plain : ∀ k entry, (s.point c).foresees c k entry = entry) (k : Bytes) :
    s.blocks.flights_ k = s.flights_.lookup k := by
  rw [flights_of_inside sound.flights_mutex_ inside, plain]

variable [DecidableEq Call]

theorem blocks_doing (does : Does s c op t) :
    (t.move c q).blocks.doing = Function.update s.blocks.doing c q.doing := by
  funext d
  rw [Function.update_apply]
  split_ifs with same
  · rw [same]
    exact congrArg Point.doing (Function.update_self ..)
  · exact congrArg Point.doing (point_move_of_ne does.point same)

theorem blocks_notifying (does : Does s c op t) :
    (t.move c q).blocks.notifying = Function.update s.blocks.notifying c q.notifies := by
  funext d
  rw [Function.update_apply]
  split_ifs with same
  · rw [same]
    exact congrArg Point.notifies (Function.update_self ..)
  · exact congrArg Point.notifies (point_move_of_ne does.point same)

/-- The map after a step that ends where the mutex is held. -/
theorem Sound.flights_inside (sound : s.Sound) (goes : Goes c (s.point c) op q)
    (does : Does s c op t) (inside : q.in_flights = true) (k : Bytes) :
    (t.move c q).blocks.flights_ k = q.foresees c k (t.flights_.lookup k) := by
  have guards := sound.flights_mutex_step goes does
  have after := flights_of_inside (c := c) guards (by rwa [point_move_self]) k
  rwa [point_move_self] at after

/-- The map is as it was if the call foresees what it foresaw. -/
theorem Sound.flights_kept (sound : s.Sound) (goes : Goes c (s.point c) op q)
    (does : Does s c op t) (k : Bytes)
    (same : q.foresees c k (t.flights_.lookup k) = (s.point c).foresees c k (s.flights_.lookup k)) :
    (t.move c q).blocks.flights_ k = s.blocks.flights_ k := by
  have owner : (t.move c q).flights_mutex_ = _ := does.flights_mutex_
  have flags := goes.in_flights
  cases inside : q.in_flights with
  | true =>
    rw [sound.flights_inside goes does inside k, same]
    cases before : (s.point c).in_flights with
    | true => exact (flights_of_inside sound.flights_mutex_ before k).symm
    | false =>
      rw [inside, before] at flags
      cases does with
      | lock_flights free => rw [Point.foresees_of_outside c k _ before, flights_of_free free]
      | _ => simp at flags
  | false =>
    rw [Point.foresees_of_outside c k _ inside] at same
    cases before : (s.point c).in_flights with
    | true =>
      rw [flights_of_inside sound.flights_mutex_ before, ← same]
      apply flights_of_free
      rw [owner]
      rw [inside, before] at flags
      cases op with
      | unlock_flights | finish => rfl
      | _ => simp at flags
    | false =>
      rw [Point.foresees_of_outside c k _ before] at same
      have kept : (t.move c q).flights_mutex_ = s.flights_mutex_ := by
        rw [owner]
        rw [inside, before] at flags
        cases op with
        | lock_flights | unlock_flights | finish => simp at flags
        | _ => rfl
      cases holder : s.flights_mutex_ with
      | none =>
        rw [flights_of_free holder, flights_of_free (kept.trans holder)]
        exact same
      | some d =>
        have other : d ≠ c := by
          rintro rfl
          have here : (s.point d).in_flights = true := (sound.flights_mutex_ d).mp holder
          rw [before] at here
          contradiction
        simp only [blocks, kept, holder, point_move_of_ne does.point other]
        exact congrArg (fun entry => (s.point d).foresees d k entry) same

omit [DecidableEq Call] in
theorem flight_ext (owner : ((s.flight f).mutex.filter fun c => (s.point c).calls) =
      (s'.flight f).mutex.filter fun c => (s'.point c).calls)
    (content : (s.flight f).content = (s'.flight f).content) :
    s.blocks.flight f = s'.blocks.flight f := by
  simp only [Flight.content, Prod.mk.injEq] at content
  obtain ⟨result, ready, waiters, callbacks⟩ := content
  simp only [blocks]
  rw [owner, result, ready, waiters, callbacks]

/-- The owner of a mutex that no callback of the call runs under is seen as before. -/
theorem filter_kept (does : Does s c op t) {owner : Option Call}
    (apart : owner ≠ some c ∨ (s.point c).calls = false ∧ q.calls = false) :
    (owner.filter fun d => ((t.move c q).point d).calls) = owner.filter fun d => (s.point d).calls := by
  cases owner with
  | none => rfl
  | some d =>
    by_cases same : d = c
    · subst same
      obtain ⟨before, after⟩ := apart.resolve_left (by simp)
      rw [Option.filter_some, Option.filter_some, point_move_self, before, after]
    · rw [Option.filter_some, Option.filter_some, point_move_of_ne does.point same]

/-- A flight is as it was, if its content is, and no callback of the call runs under its mutex. -/
theorem Sound.flight_kept (sound : s.Sound) (goes : Goes c (s.point c) op q) (does : Does s c op t)
    (content : (t.flight f).content = (s.flight f).content)
    (apart : (s.point c).guards ≠ some f ∧ q.guards ≠ some f ∨
      (s.point c).calls = false ∧ q.calls = false) :
    (t.move c q).blocks.flight f = s.blocks.flight f := by
  have content' : ((t.move c q).flight f).content = (s.flight f).content := content
  apply flight_ext ?_ content'
  have kept : ((s.flight f).mutex.filter fun d => ((t.move c q).point d).calls) =
      (s.flight f).mutex.filter fun d => (s.point d).calls := by
    apply filter_kept does
    rcases apart with ⟨outside, -⟩ | quiet
    · left
      exact fun owner => outside ((sound.mutex f c).mp owner)
    · exact .inr quiet
  have flags := goes.guards
  change ((t.flight f).mutex.filter _) = _
  rw [does.mutex f]
  cases op with
  | lock g =>
    simp only
    split_ifs with same
    · subst same
      cases does with
      | lock _ free =>
        rw [free, Option.filter_some, point_move_self]
        rcases apart with ⟨-, outside⟩ | ⟨-, quiet⟩
        · exact absurd flags.2 outside
        · rw [quiet]
          rfl
    · exact kept
  | unlock g | keep g =>
    simp only
    split_ifs with same
    · subst same
      rw [(sound.mutex f c).mpr flags.1, Option.filter_some]
      rcases apart with ⟨outside, -⟩ | ⟨quiet, -⟩
      · exact absurd flags.1 outside
      · rw [quiet]
        rfl
    · exact kept
  | make key | replace g =>
    simp only
    split_ifs with same
    · rw [same, sound.fresh goes.pristine.1]
      rfl
    · exact kept
  | _ => exact kept

/-- Only an enrolment and a publication change what the mutex of a flight guards. -/
theorem Sound.content_kept (sound : s.Sound) (goes : Goes c (s.point c) op q) (does : Does s c op t)
    (enrols : ∀ g, op ≠ .enrol g) (resolves : ∀ g result callbacks, op ≠ .resolve g result callbacks)
    (f : Call) : (t.flight f).content = (s.flight f).content := by
  rw [does.content f]
  cases op with
  | enrol g => exact absurd rfl (enrols g)
  | resolve g result callbacks => exact absurd rfl (resolves g result callbacks)
  | make key | replace g =>
    simp only
    split_ifs with same
    · rw [same, sound.fresh goes.pristine.1]
      rfl
    · rfl
  | _ => rfl

theorem blocks_eq (does : Does s c op t) {flights_ : Bytes → Option Call}
    {flight : Call → SingleFlight.Flight Call} {invoked : List (Call × Bytes)}
    (entries : ∀ k, (t.move c q).blocks.flights_ k = flights_ k)
    (views : ∀ f, (t.move c q).blocks.flight f = flight f) (history : t.invoked = invoked) :
    (t.move c q).blocks = ⟨flights_, flight, Function.update s.blocks.doing c q.doing,
      Function.update s.blocks.notifying c q.notifies, invoked⟩ := by
  rw [← blocks_doing does, ← blocks_notifying does, ← funext entries, ← funext views, ← history]
  rfl

/-- A step of doSingleFlight. -/
theorem blocks_of_doing (does : Does s c op t) {flights_ : Bytes → Option Call}
    {flight : Call → SingleFlight.Flight Call} {invoked : List (Call × Bytes)}
    (notifies : q.notifies = (s.point c).notifies)
    (entries : ∀ k, (t.move c q).blocks.flights_ k = flights_ k)
    (views : ∀ f, (t.move c q).blocks.flight f = flight f) (history : t.invoked = invoked) :
    (t.move c q).blocks = ⟨flights_, flight, Function.update s.blocks.doing c q.doing,
      s.blocks.notifying, invoked⟩ := by
  have same : Function.update s.blocks.notifying c (s.point c).notifies = s.blocks.notifying :=
    Function.update_eq_self ..
  rw [blocks_eq does entries views history, notifies, same]

/-- A step of notifyResult. -/
theorem blocks_of_notifies (does : Does s c op t) {flights_ : Bytes → Option Call}
    {flight : Call → SingleFlight.Flight Call} {invoked : List (Call × Bytes)}
    (doing : q.doing = (s.point c).doing)
    (entries : ∀ k, (t.move c q).blocks.flights_ k = flights_ k)
    (views : ∀ f, (t.move c q).blocks.flight f = flight f) (history : t.invoked = invoked) :
    (t.move c q).blocks = ⟨flights_, flight, s.blocks.doing,
      Function.update s.blocks.notifying c q.notifies, invoked⟩ := by
  have same : Function.update s.blocks.doing c (s.point c).doing = s.blocks.doing :=
    Function.update_eq_self ..
  rw [blocks_eq does entries views history, doing, same]

/-- Most statements are not seen between the blocks. -/
theorem Sound.stutters (sound : s.Sound) (goes : Goes c (s.point c) op q) (does : Does s c op t)
    (doing : q.doing = (s.point c).doing) (notifies : q.notifies = (s.point c).notifies)
    (foresees : ∀ k, q.foresees c k (t.flights_.lookup k) =
      (s.point c).foresees c k (s.flights_.lookup k))
    (content : ∀ f, (t.flight f).content = (s.flight f).content)
    (quiet : (s.point c).calls = false ∧ q.calls = false) (invoked : t.invoked = s.invoked) :
    (t.move c q).blocks = s.blocks := by
  rw [blocks_of_doing does notifies (fun k => sound.flights_kept goes does k (foresees k))
    (fun f => sound.flight_kept goes does (content f) (.inr quiet)) invoked, doing]
  have same : Function.update s.blocks.doing c (s.point c).doing = s.blocks.doing :=
    Function.update_eq_self ..
  rw [same]
  rfl

/-- Under the mutex of a flight only that flight is changed. -/
theorem Sound.flight_changed (sound : s.Sound) (goes : Goes c (s.point c) op q) (does : Does s c op t)
    {v : SingleFlight.Flight Call} (before : (s.point c).guards = some f) (after : q.guards = some f)
    (content : ∀ g, g ≠ f → (t.flight g).content = (s.flight g).content)
    (value : (t.move c q).blocks.flight f = v) (g : Call) :
    (t.move c q).blocks.flight g = Function.update s.blocks.flight f v g := by
  by_cases same : g = f
  · rw [same, Function.update_self, value]
  · rw [Function.update_of_ne same]
    apply sound.flight_kept goes does (content g same)
    rw [before, after]
    simp [Ne.symm same]

/-- The owner of the mutex is seen while its callback runs. -/
theorem Sound.owner_after (sound : s.Sound) (goes : Goes c (s.point c) op q) (does : Does s c op t)
    (after : q.guards = some f) : ((t.move c q).blocks.flight f).mutex = if q.calls then some c else none := by
  have guards := sound.mutex_step goes does f c
  have inside : ((t.move c q).point c).guards = some f := by rw [point_move_self, after]
  have owner : ((t.move c q).flight f).mutex = some c := guards.mpr inside
  simp only [blocks]
  rw [owner, Option.filter_some, point_move_self]

/-- The election of a leader, at the statement that finds no flight or a ready one. -/
theorem Sound.leads (sound : s.Sound) (goes : Goes c (s.point c) op q) (does : Does s c op t)
    (pristine : (s.point c).pristine = some {}) (leads : q.doing = .leader key)
    (notifies : q.notifies = (s.point c).notifies) (inside : q.in_flights = true)
    (entry : ∀ k, s.blocks.flights_ k = s.flights_.lookup k)
    (foresees : ∀ k, q.foresees c k (t.flights_.lookup k) =
      if k = key then some c else s.flights_.lookup k)
    (content : ∀ f, (t.flight f).content = (s.flight f).content)
    (quiet : (s.point c).calls = false ∧ q.calls = false) (invoked : t.invoked = s.invoked) :
    (t.move c q).blocks = s.blocks.lead c key := by
  have entries : ∀ k, (t.move c q).blocks.flights_ k =
      Function.update s.blocks.flights_ key (some c) k := by
    intro k
    rw [sound.flights_inside goes does inside, foresees, Function.update_apply, entry]
  have fresh : s.blocks.flight c = {} := by
    simp only [blocks]
    rw [sound.fresh pristine]
    rfl
  have views : ∀ f, (t.move c q).blocks.flight f = Function.update s.blocks.flight c {} f := by
    intro f
    rw [sound.flight_kept goes does (content f) (.inr quiet), ← fresh, Function.update_eq_self]
  rw [blocks_of_doing does notifies entries views invoked, leads]
  rfl

/-! ## The statements at which the blocks happen -/

theorem Sound.elects_absent (sound : s.Sound) (here : s.point c = .finding key)
    (goes : Goes c (s.point c) (.make key) (.made key c)) (does : Does s c (.make key) t) :
    s.blocks.elect c key = some (t.move c (.made key c)).blocks := by
  have entry := sound.entry (c := c) (by rw [here]; rfl) (by rw [here]; exact fun _ _ => rfl)
  have foresees : ∀ k, (Point.made key c).foresees c k (t.flights_.lookup k) =
      if k = key then some c else s.flights_.lookup k := by
    intro k
    rw [does.lookup k]
    simp [Point.foresees, eq_comm]
  rw [sound.leads goes does (by rw [here]; rfl) rfl (congrArg Point.notifies here).symm rfl entry foresees
    (sound.content_kept goes does (by simp) (by simp)) (by rw [here]; exact ⟨rfl, rfl⟩) does.invoked]
  cases does with
  | make _ absent =>
    have idle : s.blocks.doing c = .idle := congrArg Point.doing here
    simp only [SingleFlight.State.elect, if_pos idle, (entry key).trans absent]

theorem Sound.elects_ready (sound : s.Sound) (here : s.point c = .checking key f)
    (goes : Goes c (s.point c) (.renew key f) (.erased key f)) (does : Does s c (.renew key f) t) :
    s.blocks.elect c key = some (t.move c (.erased key f)).blocks := by
  have entry := sound.entry (c := c) (by rw [here]; rfl) (by rw [here]; exact fun _ _ => rfl)
  have foresees : ∀ k, (Point.erased key f).foresees c k (t.flights_.lookup k) =
      if k = key then some c else s.flights_.lookup k := by
    intro k
    rw [does.lookup k]
    by_cases same : k = key <;> simp [Point.foresees, same]
  rw [sound.leads goes does (by rw [here]; rfl) rfl (congrArg Point.notifies here).symm rfl entry foresees
    (sound.content_kept goes does (by simp) (by simp)) (by rw [here]; exact ⟨rfl, rfl⟩) does.invoked]
  cases does with
  | renew _ _ ready =>
    have idle : s.blocks.doing c = .idle := congrArg Point.doing here
    have present : s.blocks.flights_ key = some f :=
      (entry key).trans (sound.expected (c := c) (by rw [here]; rfl))
    have unowned := sound.unowned (c := c) (f := f) (by rw [here]; rfl) (by rw [here]; rfl)
    have replaceable : (s.blocks.flight f).ready = true := ready
    simp only [SingleFlight.State.elect, if_pos idle, present, unowned, replaceable, if_true]

theorem Sound.elects_joining (sound : s.Sound) (here : s.point c = .checking key f)
    (goes : Goes c (s.point c) (.keep f) (.kept key f)) (does : Does s c (.keep f) t) :
    s.blocks.elect c key = some (t.move c (.kept key f)).blocks := by
  have entry := sound.entry (c := c) (by rw [here]; rfl) (by rw [here]; exact fun _ _ => rfl)
  have content := sound.content_kept goes does (by simp) (by simp)
  rw [blocks_of_doing (q := .kept key f) does (congrArg Point.notifies here).symm
    (fun k => sound.flights_kept goes does k (by rw [here, does.lookup k]; rfl))
    (fun g => sound.flight_kept goes does (content g) (.inr (by rw [here]; exact ⟨rfl, rfl⟩)))
    does.invoked]
  cases does with
  | keep _ unready =>
    have idle : s.blocks.doing c = .idle := congrArg Point.doing here
    have present : s.blocks.flights_ key = some f :=
      (entry key).trans (sound.expected (c := c) (by rw [here]; rfl))
    have unowned := sound.unowned (c := c) (f := f) (by rw [here]; rfl) (by rw [here]; rfl)
    have waits : (s.blocks.flight f).ready = false := unready
    simp only [SingleFlight.State.elect, if_pos idle, present, unowned, waits, if_true,
      Bool.false_eq_true, if_false]
    rfl

theorem Sound.joins_ready {result : Bytes} (sound : s.Sound) (here : s.point c = .joined key f)
    (goes : Goes c (s.point c) (.read f result) (.calling key f result))
    (does : Does s c (.read f result) t) :
    s.blocks.join c = some (t.move c (.calling key f result)).blocks := by
  have joining : s.blocks.doing c = .joining key f := congrArg Point.doing here
  have unowned := sound.unowned (c := c) (f := f) (by rw [here]; rfl) (by rw [here]; rfl)
  have content := sound.content_kept goes does (by simp) (by simp)
  have owner := sound.owner_after goes does rfl
  have value : (t.move c (.calling key f result)).blocks.flight f = (s.blocks.flight f).acquire c := by
    cases does with
    | read _ ready =>
      have same : (((s.use f).move c (.calling key f (s.flight f).result)).blocks.flight f) =
          { s.blocks.flight f with
            mutex := (((s.use f).move c (.calling key f (s.flight f).result)).blocks.flight f).mutex } := rfl
      rw [same, owner]
      rfl
  rw [blocks_of_doing (q := .calling key f result) does (congrArg Point.notifies here).symm
    (fun k => sound.flights_kept goes does k (by rw [here, does.lookup k]; rfl))
    (sound.flight_changed goes does (by rw [here]; rfl) rfl (fun g _ => content g) value) does.invoked]
  cases does with
  | read _ ready =>
    have set : (s.blocks.flight f).ready = true := ready
    simp only [SingleFlight.State.join, joining, unowned, set, if_true]
    rfl

theorem Sound.joins_unready (sound : s.Sound) (here : s.point c = .joined key f)
    (goes : Goes c (s.point c) (.enrol f) (.called key f .returned)) (does : Does s c (.enrol f) t) :
    s.blocks.join c = some (t.move c (.called key f .returned)).blocks := by
  have joining : s.blocks.doing c = .joining key f := congrArg Point.doing here
  have unowned := sound.unowned (c := c) (f := f) (by rw [here]; rfl) (by rw [here]; rfl)
  have content : ∀ g, g ≠ f → (t.flight g).content = (s.flight g).content := by
    intro g other
    rw [does.content g]
    exact if_neg other
  have owner := sound.owner_after goes does rfl
  have value : (t.move c (.called key f .returned)).blocks.flight f = (s.blocks.flight f).enrol c := by
    have enrolled := does.content f
    simp only [if_true, Flight.content, Prod.mk.injEq] at enrolled
    obtain ⟨result, ready, waiters, callbacks⟩ := enrolled
    have view : (t.move c (.called key f .returned)).blocks.flight f =
        ⟨((t.move c (.called key f .returned)).blocks.flight f).mutex, (t.flight f).result,
          (t.flight f).ready, (t.flight f).waiters, (t.flight f).callbacks⟩ := rfl
    rw [view, owner, result, ready, waiters, callbacks, SingleFlight.Flight.enrol, unowned]
    rfl
  rw [blocks_of_doing (q := .called key f .returned) does (congrArg Point.notifies here).symm
    (fun k => sound.flights_kept goes does k (by rw [here, does.lookup k]; rfl))
    (sound.flight_changed goes does (by rw [here]; rfl) rfl content value) does.invoked]
  cases does with
  | enrol _ unready =>
    have waits : (s.blocks.flight f).ready = false := unready
    simp only [SingleFlight.State.join, joining, unowned, waits, if_true, Bool.false_eq_true, if_false]
    rfl

theorem Sound.calls_back {result : Bytes} {outcome : SingleFlight.Outcome} (sound : s.Sound)
    (here : s.point c = .calling key f result)
    (goes : Goes c (s.point c) (.call_back c result) (.called key f outcome))
    (does : Does s c (.call_back c result) t) :
    s.blocks.call_back c outcome = some (t.move c (.called key f outcome)).blocks := by
  have calling : s.blocks.doing c = .calling key f result := congrArg Point.doing here
  have content := sound.content_kept goes does (by simp) (by simp)
  have owner := sound.owner_after goes does rfl
  have value : (t.move c (.called key f outcome)).blocks.flight f = (s.blocks.flight f).release := by
    have same := content f
    simp only [Flight.content, Prod.mk.injEq] at same
    obtain ⟨result, ready, waiters, callbacks⟩ := same
    have view : (t.move c (.called key f outcome)).blocks.flight f =
        ⟨((t.move c (.called key f outcome)).blocks.flight f).mutex, (t.flight f).result,
          (t.flight f).ready, (t.flight f).waiters, (t.flight f).callbacks⟩ := rfl
    rw [view, owner, result, ready, waiters, callbacks]
    rfl
  rw [blocks_of_doing (q := .called key f outcome) does (congrArg Point.notifies here).symm
    (fun k => sound.flights_kept goes does k (by rw [here, does.lookup k]; rfl))
    (sound.flight_changed goes does (by rw [here]; rfl) rfl (fun g _ => content g) value) does.invoked]
  simp only [SingleFlight.State.call_back, calling]
  rfl

theorem Sound.seeks {result : Bytes} {flight : Option Call} (sound : s.Sound)
    (here : s.point c = .seeking key result) (goes : Goes c (s.point c) op q) (does : Does s c op t)
    (quiet : ∀ f, (t.flight f).content = (s.flight f).content)
    (entries : ∀ k, t.flights_.lookup k = s.flights_.lookup k) (invoked : t.invoked = s.invoked)
    (present : s.flights_.lookup key = flight)
    (after : (q = .missed key result ∧ flight = none) ∨
      ∃ f, q = .sought key result f ∧ flight = some f) :
    s.blocks.lookup c key result = some (t.move c q).blocks := by
  have entry := sound.entry (c := c) (by rw [here]; rfl) (by rw [here]; exact fun _ _ => rfl)
  have idle : s.blocks.notifying c = .idle := congrArg Point.notifies here
  have plain : ∀ k entry, q.foresees c k entry = entry := by
    rcases after with ⟨rfl, -⟩ | ⟨f, rfl, -⟩ <;> exact fun _ _ => rfl
  have doing : q.doing = (s.point c).doing := by
    rw [here]
    rcases after with ⟨rfl, -⟩ | ⟨f, rfl, -⟩ <;> rfl
  have calls : (s.point c).calls = false ∧ q.calls = false := by
    rw [here]
    rcases after with ⟨rfl, -⟩ | ⟨f, rfl, -⟩ <;> exact ⟨rfl, rfl⟩
  rw [blocks_of_notifies does doing
    (fun k => sound.flights_kept goes does k (by rw [plain, here, entries]; rfl))
    (fun g => sound.flight_kept goes does (quiet g) (.inr calls)) invoked]
  simp only [SingleFlight.State.lookup, if_pos idle, entry key, present]
  rcases after with ⟨rfl, rfl⟩ | ⟨f, rfl, rfl⟩ <;> rfl

theorem Sound.publishes {result : Bytes} {callbacks : List Call} (sound : s.Sound)
    (here : s.point c = .locked key result f)
    (goes : Goes c (s.point c) (.resolve f result callbacks) (.published key result f callbacks))
    (does : Does s c (.resolve f result callbacks) t) :
    s.blocks.publish c = some (t.move c (.published key result f callbacks)).blocks := by
  have publishing : s.blocks.notifying c = .publishing key result f := congrArg Point.notifies here
  have unowned := sound.unowned (c := c) (f := f) (by rw [here]; rfl) (by rw [here]; rfl)
  have content : ∀ g, g ≠ f → (t.flight g).content = (s.flight g).content := by
    intro g other
    rw [does.content g]
    exact if_neg other
  have owner := sound.owner_after goes does rfl
  have value : (t.move c (.published key result f callbacks)).blocks.flight f =
      (s.blocks.flight f).resolve result := by
    have resolved := does.content f
    simp only [if_true, Flight.content, Prod.mk.injEq] at resolved
    obtain ⟨result', ready, waiters, callbacks'⟩ := resolved
    have view : (t.move c (.published key result f callbacks)).blocks.flight f =
        ⟨((t.move c (.published key result f callbacks)).blocks.flight f).mutex, (t.flight f).result,
          (t.flight f).ready, (t.flight f).waiters, (t.flight f).callbacks⟩ := rfl
    rw [view, owner, result', ready, waiters, callbacks', SingleFlight.Flight.resolve, unowned]
    rfl
  rw [blocks_of_notifies (q := .published key result f callbacks) does (congrArg Point.doing here).symm
    (fun k => sound.flights_kept goes does k (by rw [here, does.lookup k]; rfl))
    (sound.flight_changed goes does (by rw [here]; rfl) rfl content value) does.invoked]
  cases does with
  | resolve =>
    simp only [SingleFlight.State.publish, publishing, unowned, if_true]
    rfl

theorem Sound.notifies {result : Bytes} {rest : List Call} (sound : s.Sound)
    (here : s.point c = .notifying key result f (d :: rest))
    (goes : Goes c (s.point c) (.call_back d result) (.notifying key result f rest))
    (does : Does s c (.call_back d result) t) (outcome : SingleFlight.Outcome) :
    s.blocks.notify c outcome = some (t.move c (.notifying key result f rest)).blocks := by
  have notifying : s.blocks.notifying c = .notifying key result f (d :: rest) :=
    congrArg Point.notifies here
  have content := sound.content_kept goes does (by simp) (by simp)
  rw [blocks_of_notifies (q := .notifying key result f rest) does (congrArg Point.doing here).symm
    (fun k => sound.flights_kept goes does k (by rw [here, does.lookup k]; rfl))
    (fun g => sound.flight_kept goes does (content g) (.inr (by rw [here]; exact ⟨rfl, rfl⟩)))
    does.invoked]
  simp only [SingleFlight.State.notify, notifying]
  rfl

theorem Sound.erases {result : Bytes} (sound : s.Sound) (here : s.point c = .erasing key result f)
    (goes : Goes c (s.point c) (.erase key) (.wiped key result f)) (does : Does s c (.erase key) t) :
    s.blocks.erase c = some (t.move c (.wiped key result f)).blocks := by
  have entry := sound.entry (c := c) (by rw [here]; rfl) (by rw [here]; exact fun _ _ => rfl)
  have notifying : s.blocks.notifying c = .notifying key result f [] := congrArg Point.notifies here
  have content := sound.content_kept goes does (by simp) (by simp)
  have entries : ∀ k, (t.move c (.wiped key result f)).blocks.flights_ k =
      Function.update s.blocks.flights_ key none k := by
    intro k
    rw [sound.flights_inside goes does rfl, does.lookup k, Function.update_apply, entry]
    rfl
  rw [blocks_of_notifies (q := .wiped key result f) does (congrArg Point.doing here).symm entries
    (fun g => sound.flight_kept goes does (content g) (.inr (by rw [here]; exact ⟨rfl, rfl⟩)))
    does.invoked]
  simp only [SingleFlight.State.erase, notifying]
  rfl

theorem Sound.clears (sound : s.Sound) (here : s.point c = .clear)
    (goes : Goes c (s.point c) .lock_flights .clearing) (does : Does s c .lock_flights t) :
    s.blocks.clear = (t.move c .clearing).blocks := by
  have content := sound.content_kept goes does (by simp) (by simp)
  rw [blocks_of_doing (q := .clearing) does (congrArg Point.notifies here).symm
    (fun k => sound.flights_inside goes does rfl k)
    (fun g => sound.flight_kept goes does (content g) (.inr (by rw [here]; exact ⟨rfl, rfl⟩)))
    does.invoked]
  have same : Function.update s.blocks.doing c (Point.clearing : Point Call).doing = s.blocks.doing := by
    have idle : s.blocks.doing c = (Point.clearing : Point Call).doing :=
      (congrArg Point.doing here).trans rfl
    rw [← idle, Function.update_eq_self]
  rw [same]
  rfl

/-- A step is not seen between the blocks, or it is one block. -/
theorem Sound.simulates (sound : s.Sound) (goes : Goes c (s.point c) op q) (does : Does s c op t) :
    (t.move c q).blocks = s.blocks ∨ ∃ b, (b = .clear → (s.point c).clears = true) ∧
      s.blocks.block? b = some (t.move c q).blocks := by
  have edge := goes
  generalize here : s.point c = p at edge
  have lookup := does.lookup
  have invoked := does.invoked
  cases edge with
  | start | find | found | check | follow | replace | reassign | release | assign | lead | leader
  | join | leave | left | notify | seek | give_up | publish | enter | publish_done | close | wiped
  | retire | clear | clear_entry =>
    left
    apply sound.stutters goes does (congrArg Point.doing here).symm (congrArg Point.notifies here).symm
    · intro k
      rw [here, lookup k]
      simp [Point.foresees, eq_comm]
    · exact sound.content_kept goes does (by simp) (by simp)
    · rw [here]
      exact ⟨rfl, rfl⟩
    · exact invoked
  | clear_done =>
    left
    apply sound.stutters goes does (congrArg Point.doing here).symm (congrArg Point.notifies here).symm
    · intro k
      cases does with
      | finish empty =>
        have absent : s.flights_.lookup k = none := by
          rw [AList.lookup_eq_none, AList.mem_keys, empty]
          exact List.not_mem_nil
        rw [here]
        exact absent
    · exact sound.content_kept goes does (by simp) (by simp)
    · rw [here]
      exact ⟨rfl, rfl⟩
    · exact invoked
  | make key => exact .inr ⟨.call (.elect c key), by simp, sound.elects_absent here goes does⟩
  | renew key f => exact .inr ⟨.call (.elect c key), by simp, sound.elects_ready here goes does⟩
  | keep key f => exact .inr ⟨.call (.elect c key), by simp, sound.elects_joining here goes does⟩
  | read key f result => exact .inr ⟨.call (.join c), by simp, sound.joins_ready here goes does⟩
  | enrol key f => exact .inr ⟨.call (.join c), by simp, sound.joins_unready here goes does⟩
  | call_back key f result outcome =>
    exact .inr ⟨.call (.call_back c outcome), by simp, sound.calls_back here goes does⟩
  | miss key result =>
    refine .inr ⟨.call (.lookup c key result), by simp, ?_⟩
    have content := sound.content_kept goes does (by simp) (by simp)
    cases does with
    | miss _ absent =>
      exact sound.seeks here goes (.miss key absent) content (fun _ => rfl) rfl absent (.inl ⟨rfl, rfl⟩)
  | sought key result f =>
    refine .inr ⟨.call (.lookup c key result), by simp, ?_⟩
    have content := sound.content_kept goes does (by simp) (by simp)
    cases does with
    | share _ _ present =>
      exact sound.seeks here goes (.share key f present) content (fun _ => rfl) rfl present
        (.inr ⟨f, rfl, rfl⟩)
  | resolve key result f callbacks =>
    exact .inr ⟨.call (.publish c), by simp, sound.publishes here goes does⟩
  | turn key result f d rest =>
    exact .inr ⟨.call (.notify c .returned), by simp, sound.notifies here goes does .returned⟩
  | erase key result f => exact .inr ⟨.call (.erase c), by simp, sound.erases here goes does⟩
  | clear_lock =>
    exact .inr ⟨.clear, fun _ => rfl, congrArg some (sound.clears here goes does)⟩

/-! ## Runs -/

/-- Who is in clear has entered it. -/
theorem clears_step {e : Event Call} {entered : Prop} (enters : ∀ c, e = .clear c → entered)
    (before : ∀ c, (s.point c).clears = true → entered) (taken : s.step? e = some s')
    (clears : (s'.point c).clears = true) : entered := by
  have moved : ∀ {d op q t}, Goes d (s.point d) op q → Does s d op t → s' = t.move d q →
      s.point d ≠ .idle → entered := by
    rintro d op q t goes does rfl begun
    by_cases same : c = d
    · subst same
      rw [point_move_self, goes.clears begun] at clears
      exact before c clears
    · rw [point_move_of_ne does.point same] at clears
      exact before c clears
  have starts : ∀ {d q}, s' = s.move d q → q.clears = false → entered := by
    rintro d q rfl other
    simp only [move, Function.update_apply] at clears
    split_ifs at clears
    · rw [other] at clears
      contradiction
    · exact before c clears
  cases e with
  | doSingleFlight d key =>
    simp only [step?] at taken
    split_ifs at taken
    exact starts (Option.some.inj taken).symm rfl
  | notifyResult d key result =>
    simp only [step?] at taken
    split_ifs at taken
    exact starts (Option.some.inj taken).symm rfl
  | clear d => exact enters d rfl
  | next d =>
    obtain ⟨op, q, t, goes, does, same⟩ := goes_of_next taken
    apply moved goes does same
    intro idle
    simp [step?, next, idle] at taken
  | on_result d outcome =>
    obtain ⟨op, q, t, goes, does, same⟩ := goes_of_on_result taken
    apply moved goes does same
    intro idle
    simp [step?, on_result, idle] at taken

/-- A run of the threads, however they are interleaved, is a run of the blocks, with a block of clear
only if clear has been called; without one it is a run of doSingleFlight and notifyResult. -/
theorem atomic_of_run {es : List (Event Call)} (run : Path step? always ({} : State Call) es s) :
    (∃ bs, Path SingleFlight.State.block? (fun _ b => b = .clear → ∃ c, .clear c ∈ es) .init bs
      s.blocks) ∧
      ((∀ c, .clear c ∉ es) → ∃ bs, Path SingleFlight.State.step? always .init bs s.blocks) := by
  have invariant := run.along.strengthen (I := fun s => s.Sound ∧
      ∀ c, (s.point c).clears = true → ∃ k, .clear k ∈ es) ⟨sound_init, by simp [Point.clears]⟩ (by
    rintro s e s' ⟨sound, before⟩ ⟨-, member⟩ taken
    refine ⟨sound.step taken, fun c => clears_step ?_ before taken⟩
    rintro d rfl
    exact ⟨d, member⟩)
  have blocks : ∃ bs, Path SingleFlight.State.block? (fun _ b => b = .clear → ∃ c, .clear c ∈ es)
      .init bs s.blocks := by
    apply invariant.refines blocks
    rintro s e s' ⟨-, sound, before⟩ taken
    obtain ⟨c, op, q, t, goes, does, rfl⟩ := goes_of_step taken
    rcases sound.simulates goes does with same | ⟨b, clears, block⟩
    · exact .inl same
    · exact .inr ⟨b, fun here => before c (clears here), block⟩
  refine ⟨blocks, fun unclear => ?_⟩
  obtain ⟨bs, path⟩ := blocks
  refine ⟨bs.filterMap Block.event?, path.project id _ ?_ ?_⟩
  · rintro u b u' - block e label
    cases b with
    | call d =>
      obtain rfl := Option.some.inj label
      exact ⟨trivial, block⟩
    | clear => contradiction
  · rintro u b u' entered - label
    cases b with
    | call d => contradiction
    | clear =>
      obtain ⟨c, member⟩ := entered rfl
      exact absurd member (unclear c)

end State

/-- Between the blocks the new flight leads already, though the map has none yet. -/
theorem atomic_of_run_run : ∃ s : State ℕ, s.flights_.lookup [0x71] = none ∧
    s.blocks.flights_ [0x71] = some 2 ∧
      ∃ bs, Path SingleFlight.State.step? always .init bs s.blocks := by
  have run : ∃ s : State ℕ, Path State.step? always {} supplanting s ∧
      s.flights_.lookup [0x71] = none ∧ s.blocks.flights_ [0x71] = some 2 := by
    refine ⟨_, replay_eq_some_iff.mp rfl, ?_, ?_⟩ <;> rfl
  obtain ⟨s, path, absent, leads⟩ := run
  exact ⟨s, absent, leads, (State.atomic_of_run path).2 (by simp [supplanting])⟩

end FlightProxy.Threads
