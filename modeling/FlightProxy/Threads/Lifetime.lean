import FlightProxy.Threads.Steps
import FlightProxy.Sync.Mutex
import FlightProxy.Resource.Counted
import FlightProxy.Transition.Path

/-! # No flight is used after it is destroyed

doSingleFlight replaces a ready flight while it holds the flight's mutex, and drops the entry's
`shared_ptr` and its own before it unlocks. The flight outlives this, because the notifyResult call that
made it ready keeps a `shared_ptr` until it has erased the key, which it cannot do while `flights_mutex_` is
held.
-/

namespace FlightProxy.Threads

open Transition Sync Resource

variable {Call : Type*}

/-- A `shared_ptr` to a flight: in an entry of `flights_`, or a local of a call. -/
inductive Slot (Call : Type*)
  | entry (key : Bytes)
  | call (c : Call)
deriving DecidableEq, Repr

namespace State

/-- The flight that a `shared_ptr` points to, and the key. -/
def names (s : State Call) : Slot Call → Option (Bytes × Call)
  | .entry key => (s.flights_.lookup key).map (Prod.mk key)
  | .call c => (s.point c).named

/-- The flight that a `shared_ptr` points to. -/
def slots (s : State Call) (slot : Slot Call) : Option Call := (s.names slot).map Prod.snd

/-- The notifyResult call that has made the flight ready has not erased the key yet. -/
def Published (s : State Call) (key : Bytes) (f : Call) : Prop :=
  ∃ n, (s.point n).publishes = some (key, f)

/-- What every run keeps: the locks are held where the points say, every `shared_ptr` is counted, and
a ready flight that is in the map or is being replaced is still held by the call that made it ready. -/
structure Sound (s : State Call) : Prop where
  flights_mutex_ : Mutex.Guards s.flights_mutex_ fun c => (s.point c).in_flights = true
  mutex : ∀ f, Mutex.Guards (s.flight f).mutex fun c => (s.point c).guards = some f
  counted : Counted (fun f => (s.flight f).use_count) s.slots
  named : ∀ {slot key f}, s.names slot = some (key, f) → (s.point f).led = some key
  own : ∀ {c f}, (s.point c).led ≠ none → (s.point c).flight = some f → f = c
  fresh : ∀ {c v}, (s.point c).pristine = some v → s.flight c = v
  published : ∀ {key f}, s.flights_.lookup key = some f → (s.flight f).ready = true →
    s.Published key f
  replaced : ∀ {c key f}, (s.point c).replaces = some (key, f) → s.Published key f
  expected : ∀ {c key found}, (s.point c).expects = some (key, found) → s.flights_.lookup key = found
  faultless : s.fault = false

end State

variable {s s' t : State Call} {c d f g : Call} {key : Bytes} {p q : Point Call} {op : Op Call}
  {v : Flight Call}

namespace State

theorem slots_entry : s.slots (.entry key) = s.flights_.lookup key := by
  cases present : s.flights_.lookup key <;> simp [slots, names, present]

theorem slots_call : s.slots (.call c) = (s.point c).flight := rfl

theorem sound_init : ({} : State Call).Sound where
  flights_mutex_ := Mutex.guards_init.congr fun c => by simp [Point.in_flights]
  mutex f := Mutex.guards_init.congr fun c => by simp [Point.guards]
  counted := by
    have unnamed : ({} : State Call).slots = fun _ => none := by
      funext slot
      cases slot with
      | entry key => simp [slots, names]
      | call c => simp [slots, names, Point.named]
    rw [unnamed]
    exact Resource.counted_init
  named {slot key f} here := by
    cases slot with
    | entry key => simp [names] at here
    | call c => simp [names, Point.named] at here
  own {c f} led := absurd rfl led
  fresh {c v} pristine := by simpa [Point.pristine] using pristine
  published {key f} present := by simp at present
  replaced {c key f} replaces := by simp [Point.replaces] at replaces
  expected {c key found} expects := by simp [Point.expects] at expects
  faultless := rfl

/-- A flight that a `shared_ptr` points to has not been destroyed. -/
theorem Sound.alive (sound : s.Sound) {slot : Slot Call} (points : s.slots slot = some f) :
    0 < (s.flight f).use_count := sound.counted.pos points

/-- A flight that no other call can reach is pointed to by its own call, or by none. -/
theorem Sound.secluded (sound : s.Sound) (pristine : (s.point g).pristine = some v) {slot : Slot Call}
    (points : s.slots slot = some g) :
    slot = .call g ∧ v = { use_count := 1 } ∧ (s.point g).led ≠ none := by
  have same := sound.fresh pristine
  have alive := sound.alive points
  rcases Point.pristine_cases pristine with rfl | ⟨rfl, led, f, flight⟩
  · rw [same] at alive
    contradiction
  · obtain rfl := sound.own led flight
    have one : (s.flight f).use_count = 1 := by rw [same]
    exact ⟨sound.counted.eq_of_one one points flight, rfl, led⟩

theorem Published.holds (published : s.Published key f) : ∃ n,
    (s.point n).publishes = some (key, f) ∧ s.slots (.call n) = some f := by
  obtain ⟨n, publishes⟩ := published
  refine ⟨n, publishes, ?_⟩
  rw [slots_call, Point.flight, Point.flight_of_publishes publishes]
  rfl

/-- The owner of a flight's mutex has a `shared_ptr` to it, or the call that made it ready has. -/
theorem Sound.held (sound : s.Sound) (guards : (s.point c).guards = some f) : ∃ b,
    s.slots (.call b) = some f ∧ (b = c ∨ ∃ key, (s.point b).publishes = some (key, f)) := by
  rcases Point.flight_of_guards guards with points | ⟨key, replaces⟩
  · exact ⟨c, points, .inl rfl⟩
  · obtain ⟨n, publishes, points⟩ := (sound.replaced replaces).holds
    exact ⟨n, points, .inr ⟨key, publishes⟩⟩

theorem Sound.led_of_entry (sound : s.Sound) (present : s.flights_.lookup key = some f) :
    (s.point f).led = some key := by
  have names : s.names (.entry key) = some (key, f) := by simp [names, present]
  exact sound.named names

theorem Sound.led_of_call (sound : s.Sound) (named : (s.point c).named = some (key, f)) :
    (s.point f).led = some key := by
  have names : s.names (.call c) = some (key, f) := named
  exact sound.named names

/-- What a call uses is pointed to by itself, by an entry, or by the call that made it ready. -/
theorem Sound.uses (sound : s.Sound) (goes : Goes c (s.point c) op q) :
    match op with
    | .lock f | .keep f | .renew _ f | .drop f | .read f _ | .enrol f | .resolve f _ _ | .replace f =>
      s.slots (.call c) = some f
    | .unlock f => ∃ b, s.slots (.call b) = some f ∧
        (b = c ∨ ∃ key, (s.point b).publishes = some (key, f))
    | _ => True := by
  have uses := goes.uses
  cases op with
  | unlock f =>
    rcases uses with points | ⟨key, replaces⟩
    · exact ⟨c, points, .inl rfl⟩
    · obtain ⟨n, publishes, points⟩ := (sound.replaced replaces).holds
      exact ⟨n, points, .inr ⟨key, publishes⟩⟩
  | _ => exact uses

variable [DecidableEq Call]

theorem point_move_of_ne (point : t.point = s.point) (other : d ≠ c) :
    (t.move c q).point d = s.point d := by
  rw [move]
  simp only
  rw [Function.update_of_ne other, point]

theorem point_move_self : (t.move c q).point c = q := Function.update_self ..

/-! ## The locks -/

theorem Sound.flights_mutex_step (sound : s.Sound) (goes : Goes c (s.point c) op q)
    (does : Does s c op t) : Mutex.Guards (t.move c q).flights_mutex_
      fun d => ((t.move c q).point d).in_flights = true := by
  have others : ∀ d, d ≠ c →
      (((t.move c q).point d).in_flights = true ↔ (s.point d).in_flights = true) := by
    intro d other
    rw [point_move_of_ne does.point other]
  have owner : (t.move c q).flights_mutex_ = t.flights_mutex_ := rfl
  have flags := goes.in_flights
  rw [owner, does.flights_mutex_]
  cases op with
  | lock_flights =>
    cases does with
    | lock_flights free =>
      have idle := sound.flights_mutex_
      rw [free] at idle
      apply idle.lock ?_ others
      rw [point_move_self]
      exact flags.2
  | unlock_flights | finish =>
    apply sound.flights_mutex_.unlock flags.1 ?_ others
    rw [point_move_self, flags.2]
    exact Bool.false_ne_true
  | _ =>
    apply sound.flights_mutex_.congr
    intro d
    by_cases same : d = c
    · subst same
      rw [point_move_self]
      exact Eq.congr_left flags
    · exact others d same

theorem Sound.mutex_step (sound : s.Sound) (goes : Goes c (s.point c) op q)
    (does : Does s c op t) (f : Call) : Mutex.Guards ((t.move c q).flight f).mutex
      fun d => ((t.move c q).point d).guards = some f := by
  have others : ∀ d, d ≠ c →
      (((t.move c q).point d).guards = some f ↔ (s.point d).guards = some f) := by
    intro d other
    rw [point_move_of_ne does.point other]
  have kept : (q.guards = some f ↔ (s.point c).guards = some f) →
      ∀ d, ((t.move c q).point d).guards = some f ↔ (s.point d).guards = some f := by
    intro same d
    by_cases here : d = c
    · subst here
      rw [point_move_self, same]
    · exact others d here
  have owner : ((t.move c q).flight f).mutex = (t.flight f).mutex := rfl
  have flags := goes.guards
  rw [owner, does.mutex f]
  cases op with
  | lock g =>
    obtain ⟨before, after⟩ := flags
    simp only
    split_ifs with same
    · subst same
      cases does with
      | lock _ free =>
        have idle := sound.mutex f
        rw [free] at idle
        apply idle.lock ?_ others
        rw [point_move_self, after]
    · apply (sound.mutex f).congr (kept _)
      rw [before, after]
      simp [Ne.symm same]
  | unlock g | keep g =>
    obtain ⟨before, after⟩ := flags
    simp only
    split_ifs with same
    · subst same
      apply (sound.mutex f).unlock before ?_ others
      rw [point_move_self, after]
      exact (Option.some_ne_none f).symm
    · apply (sound.mutex f).congr (kept _)
      rw [before, after]
      simp [Ne.symm same]
  | make key | replace g =>
    have unlocked : (s.flight c).mutex = none := by
      rw [sound.fresh goes.pristine.1]
    simp only
    split_ifs with same
    · subst same
      rw [← unlocked]
      exact (sound.mutex f).congr (kept (by rw [flags]))
    · exact (sound.mutex f).congr (kept (by rw [flags]))
  | _ => exact (sound.mutex f).congr (kept (by rw [flags]))

/-! ## The counts -/

theorem counts_update {slots : Slot Call → Option Call} (same : v.use_count = (s.flight f).use_count)
    (counted : Counted (fun g => (s.flight g).use_count) slots) :
    Counted (fun g => (Function.update s.flight f v g).use_count) slots := by
  have counts : (fun g => (Function.update s.flight f v g).use_count) =
      fun g => (s.flight g).use_count := by
    funext g
    rw [Function.update_apply]
    split_ifs with here
    · rw [same, here]
    · rfl
  rwa [counts]

theorem counts_share : (fun g => ((s.share f).flight g).use_count) =
    Function.update (fun g => (s.flight g).use_count) f ((s.flight f).use_count + 1) := by
  funext g
  simp only [share, Function.update_apply]
  split_ifs <;> rfl

theorem counts_drop : (fun g => ((s.drop f).flight g).use_count) =
    Function.update (fun g => (s.flight g).use_count) f ((s.flight f).use_count - 1) := by
  funext g
  simp only [drop, Function.update_apply]
  split_ifs <;> rfl

theorem counts_make : (fun g => ((s.make c).flight g).use_count) =
    Function.update (fun g => (s.flight g).use_count) c 1 := by
  funext g
  simp only [make, Function.update_apply]
  split_ifs <;> rfl

theorem slots_move (point : t.point = s.point)
    (entries : ∀ k, t.flights_.lookup k = s.flights_.lookup k) :
    (t.move c q).slots = Function.update s.slots (.call c) q.flight := by
  funext slot
  rw [Function.update_apply]
  cases slot with
  | entry k =>
    rw [if_neg (by simp), slots_entry, slots_entry]
    exact entries k
  | call d =>
    rw [slots_call, slots_call]
    split_ifs with same
    · rw [Slot.call.inj same, point_move_self]
    · rw [point_move_of_ne point fun here => same (congrArg _ here)]

/-- Where the local `shared_ptr` stays, and an entry is changed. -/
theorem slots_move_entry (point : t.point = s.point) (same : q.flight = (s.point c).flight)
    {found : Option Call}
    (entries : ∀ k, t.flights_.lookup k = if k = key then found else s.flights_.lookup k) :
    (t.move c q).slots = Function.update s.slots (.entry key) found := by
  funext slot
  rw [Function.update_apply]
  cases slot with
  | entry k =>
    rw [slots_entry, slots_entry]
    refine (entries k).trans ?_
    simp
  | call d =>
    rw [slots_call, slots_call, if_neg (by simp)]
    by_cases here : d = c
    · rw [here, point_move_self, same]
    · rw [point_move_of_ne point here]

theorem counts_erase (counted : Counted (fun f => (s.flight f).use_count) s.slots) (key : Bytes) :
    Counted (fun f => ((s.erase key).flight f).use_count) (Function.update s.slots (.entry key) none) := by
  unfold erase
  split
  · next f present =>
    have counts := counts_drop (s := { s with flights_ := s.flights_.erase key }) (f := f)
    rw [counts]
    exact counted.release (slots_entry.trans present)
  · next absent =>
    rw [← absent, ← slots_entry, Function.update_eq_self]
    exact counted

theorem Sound.counted_step (sound : s.Sound) (goes : Goes c (s.point c) op q)
    (does : Does s c op t) :
    Counted (fun f => ((t.move c q).flight f).use_count) (t.move c q).slots := by
  have point := does.point
  have lookup := does.lookup
  have flags := goes.named
  have kept : (∀ k, t.flights_.lookup k = s.flights_.lookup k) → q.named = (s.point c).named →
      (t.move c q).slots = s.slots := by
    intro entries same
    rw [slots_move point entries, Point.flight, same]
    exact Function.update_eq_self ..
  change Counted (fun f => (t.flight f).use_count) _
  cases does with
  | skip | lock_flights | unlock_flights | finish | miss | read | call_back =>
    rw [kept lookup flags]
    exact sound.counted
  | lock f | unlock f | keep f | enrol f | resolve f =>
    rw [kept lookup flags]
    exact counts_update rfl sound.counted
  | share key f present =>
    rw [slots_move point lookup, counts_share, Point.flight, flags.2]
    exact sound.counted.refer (by rw [slots_call, Point.flight, flags.1]; rfl) f
  | make key absent =>
    have unmade : (s.flight c).use_count = 0 := by
      rw [sound.fresh goes.pristine.1]
    have refer := sound.counted.refer (k := .call c) (by rw [slots_call, Point.flight, flags.1]; rfl) c
    rw [unmade] at refer
    rw [slots_move point lookup, counts_make, Point.flight, flags.2]
    exact refer
  | replace f =>
    obtain ⟨key, before, after⟩ := flags
    have unmade : (s.flight c).use_count = 0 := by
      rw [sound.fresh goes.pristine.1]
    have points : s.slots (.call c) = some f := by
      rw [slots_call, Point.flight, before]
      rfl
    have other : f ≠ c := by
      rintro rfl
      have alive := sound.alive points
      omega
    have refer := (sound.counted.release points).refer (Function.update_self ..) c
    rw [Function.update_idem, Function.update_of_ne (Ne.symm other), unmade,
      Function.update_comm other] at refer
    have count : ((s.make c).flight f).use_count = (s.flight f).use_count := by
      rw [make]
      simp only
      rw [Function.update_of_ne other]
    rw [slots_move point lookup, counts_drop, counts_make, count, Point.flight, after]
    exact refer
  | renew key f ready =>
    rw [slots_move_entry point (by rw [Point.flight, flags, Point.flight]) lookup]
    exact counts_erase (s := s.use f) sound.counted key
  | erase key =>
    rw [slots_move_entry point (by rw [Point.flight, flags, Point.flight]) lookup]
    exact counts_erase sound.counted key
  | assign key f =>
    have absent : s.flights_.lookup key = none := sound.expected goes.vacant.1
    rw [slots_move_entry point (by rw [Point.flight, flags.2, Point.flight, flags.1]) lookup]
    have counts := counts_share (s := { s with flights_ := s.flights_.insert key f }) (f := f)
    simp only [assign, absent]
    rw [counts]
    exact sound.counted.refer (slots_entry.trans absent) f
  | drop f =>
    rw [slots_move point lookup, counts_drop, Point.flight, flags.2]
    exact sound.counted.release flags.1

/-! ## Keys and new flights -/

theorem led_move (goes : Goes c (s.point c) op q) (does : Does s c op t)
    (led : (s.point f).led = some key) : ((t.move c q).point f).led = some key := by
  by_cases same : f = c
  · subst same
    rw [point_move_self]
    exact goes.led led
  · rwa [point_move_of_ne does.point same]

theorem Sound.named_step (sound : s.Sound) (goes : Goes c (s.point c) op q) (does : Does s c op t)
    {slot : Slot Call} (names : (t.move c q).names slot = some (key, f)) :
    ((t.move c q).point f).led = some key := by
  have flags := goes.named
  have kept : ∀ {k g}, (s.point c).named = some (k, g) → (s.point g).led = some k :=
    fun named => sound.led_of_call named
  cases slot with
  | entry k =>
    obtain ⟨g, present, pair⟩ := Option.map_eq_some_iff.mp names
    obtain ⟨rfl, rfl⟩ := Prod.mk.inj pair
    have entries : (t.move c q).flights_.lookup k = t.flights_.lookup k := rfl
    rw [entries, does.lookup k] at present
    apply led_move goes does
    cases op with
    | renew key' _ | erase key' =>
      simp only at present
      split_ifs at present
      exact sound.led_of_entry present
    | assign key' f =>
      simp only at present
      split_ifs at present with same
      · obtain rfl := Option.some.inj present
        rw [same]
        exact kept flags.1
      · exact sound.led_of_entry present
    | _ => exact sound.led_of_entry present
  | call d =>
    by_cases same : d = c
    · subst same
      have named : q.named = some (key, f) := by
        rw [← names, State.names, point_move_self]
      cases op with
      | share key' g =>
        rw [flags.2] at named
        obtain ⟨rfl, rfl⟩ := Prod.mk.inj (Option.some.inj named)
        cases does with
        | share _ _ present => exact led_move goes (.share _ _ present) (sound.led_of_entry present)
      | make key' =>
        have led := goes.leads (.inl ⟨key', rfl⟩) named
        rw [flags.2] at named
        obtain ⟨rfl, rfl⟩ := Prod.mk.inj (Option.some.inj named)
        rwa [point_move_self]
      | replace g =>
        have led := goes.leads (.inr ⟨g, rfl⟩) named
        obtain ⟨key', -, after⟩ := flags
        rw [after] at named
        obtain ⟨rfl, rfl⟩ := Prod.mk.inj (Option.some.inj named)
        rwa [point_move_self]
      | assign key' g =>
        rw [flags.2] at named
        exact led_move goes does (kept (flags.1.trans named))
      | drop g =>
        rw [flags.2] at named
        contradiction
      | _ => exact led_move goes does (kept (flags.symm.trans named))
    · have named : (s.point d).named = some (key, f) := by
        rw [← names, State.names, point_move_of_ne does.point same]
      exact led_move goes does (sound.led_of_call named)

theorem Sound.own_step (sound : s.Sound) (goes : Goes c (s.point c) op q) (does : Does s c op t)
    (led : ((t.move c q).point d).led ≠ none) (flight : ((t.move c q).point d).flight = some f) :
    f = d := by
  by_cases same : d = c
  · subst same
    rw [point_move_self] at led flight
    exact goes.own (fun led f => sound.own led) led f flight
  · rw [point_move_of_ne does.point same] at led flight
    exact sound.own led flight

/-- Other calls do not reach a flight that is pristine, and its own only makes and inserts it. -/
theorem Sound.untouched (sound : s.Sound) (goes : Goes c (s.point c) op q) (does : Does s c op t)
    (pristine : (s.point g).pristine = some v) (apart : g ≠ c ∨ v = {})
    (makes : g = c → (∀ key, op ≠ .make key) ∧ ∀ f, op ≠ .replace f) : t.flight g = s.flight g := by
  have away : ∀ {slot}, s.slots slot = some g →
      slot = .call g ∧ g ≠ c ∧ (s.point g).publishes = none := by
    intro slot points
    obtain ⟨rfl, full, led⟩ := sound.secluded pristine points
    refine ⟨rfl, ?_, Point.publishes_of_led led⟩
    rcases apart with other | empty
    · exact other
    · have zero := congrArg Flight.use_count (empty.symm.trans full)
      contradiction
  have local_ : ∀ {f}, s.slots (.call c) = some f → g ≠ f := by
    rintro f points rfl
    obtain ⟨same, other, -⟩ := away points
    exact other (Slot.call.inj same).symm
  have entry : ∀ key, s.flights_.lookup key ≠ some g := by
    intro key present
    obtain ⟨same, -⟩ := away (slots_entry.trans present)
    contradiction
  have uses := sound.uses goes
  apply does.flight_of_ne
  cases op with
  | lock f | keep f | drop f | enrol f | resolve f => exact local_ uses
  | unlock f =>
    rintro rfl
    obtain ⟨b, points, rfl | ⟨key, publishes⟩⟩ := uses
    · exact local_ points rfl
    · obtain ⟨same, -, none⟩ := away points
      rw [Slot.call.inj same, none] at publishes
      contradiction
  | share key f =>
    rintro rfl
    cases does with
    | share _ _ present => exact entry key present
  | make key => exact fun same => (makes same).1 key rfl
  | replace f => exact ⟨fun same => (makes same).2 f rfl, local_ uses⟩
  | renew key f => exact entry key
  | erase key => exact entry key
  | assign key f =>
    have points : s.slots (.call c) = some f := by
      rw [slots_call, Point.flight, goes.named.1]
      rfl
    exact ⟨local_ points, entry key⟩
  | _ => trivial

theorem Sound.fresh_step (sound : s.Sound) (goes : Goes c (s.point c) op q) (does : Does s c op t)
    (pristine : ((t.move c q).point g).pristine = some v) : (t.move c q).flight g = v := by
  change t.flight g = v
  by_cases same : g = c
  · subst same
    rw [point_move_self] at pristine
    have flags := goes.pristine
    have kept : q.pristine = (s.point g).pristine ∧ (s.point g).pristine ≠ some { use_count := 1 } →
        (∀ key, op ≠ .make key) → (∀ f, op ≠ .replace f) → t.flight g = v := by
      rintro ⟨before, empty⟩ made replaced
      rw [before] at pristine
      have earlier : v = {} := by
        rcases Point.pristine_cases pristine with here | ⟨rfl, -⟩
        · exact here
        · exact absurd pristine empty
      rw [sound.untouched goes does pristine (.inr earlier) fun _ => ⟨made, replaced⟩]
      exact sound.fresh pristine
    cases op with
    | make key =>
      cases does with
      | make =>
        obtain rfl := Option.some.inj (flags.2.symm.trans pristine)
        exact Function.update_self ..
    | replace f =>
      obtain rfl := Option.some.inj (flags.2.symm.trans pristine)
      have points := sound.uses goes
      have other : g ≠ f := by
        rintro rfl
        have alive := sound.alive points
        rw [sound.fresh flags.1] at alive
        contradiction
      cases does with
      | replace =>
        simp only [drop, use, make]
        rw [Function.update_of_ne other, Function.update_self]
    | assign key f =>
      rw [flags.2] at pristine
      contradiction
    | _ => exact kept flags (by simp) (by simp)
  · rw [point_move_of_ne does.point same] at pristine
    rw [sound.untouched goes does pristine (.inl same) fun here => absurd here same]
    exact sound.fresh pristine

/-! ## Ready flights -/

/-- The call that made a flight ready holds it until it erases the key. -/
theorem Published.kept (published : s.Published key f) (goes : Goes c (s.point c) op q)
    (does : Does s c op t) (other : op ≠ .erase key) : (t.move c q).Published key f := by
  obtain ⟨n, publishes⟩ := published
  refine ⟨n, ?_⟩
  by_cases same : n = c
  · subst same
    rw [point_move_self]
    exact (goes.publishes publishes).resolve_right other
  · rwa [point_move_of_ne does.point same]

omit [DecidableEq Call] in
theorem ready_of_content {flight flight' : Flight Call} (same : flight.content = flight'.content) :
    flight.ready = flight'.ready := congrArg (fun content => content.2.1) same

theorem Sound.published_step (sound : s.Sound) (goes : Goes c (s.point c) op q)
    (does : Does s c op t) (present : (t.move c q).flights_.lookup key = some f)
    (ready : ((t.move c q).flight f).ready = true) : (t.move c q).Published key f := by
  have entries : (t.move c q).flights_.lookup key = t.flights_.lookup key := rfl
  rw [entries, does.lookup key] at present
  have content := does.content f
  change (t.flight f).ready = true at ready
  have kept : s.flights_.lookup key = some f → (t.flight f).content = (s.flight f).content →
      op ≠ .erase key → (t.move c q).Published key f := by
    intro before same other
    rw [ready_of_content same] at ready
    exact (sound.published before ready).kept goes does other
  cases op with
  | renew key' g =>
    simp only at present
    split_ifs at present
    exact kept present content (by simp)
  | erase key' =>
    simp only at present
    split_ifs at present with same
    exact kept present content (by simpa using Ne.symm same)
  | assign key' g =>
    simp only at present
    split_ifs at present with same
    · obtain rfl := Option.some.inj present
      have led : (s.point c).led ≠ none := by
        rw [goes.vacant.2]
        exact Option.some_ne_none key'
      have points : (s.point c).flight = some g := by
        rw [Point.flight, goes.named.1]
        rfl
      obtain rfl := sound.own led points
      rw [ready_of_content content, sound.fresh goes.pristine.1] at ready
      contradiction
    · exact kept present content (by simp)
  | make key' | replace g =>
    simp only at content
    split_ifs at content with same
    · have unready : (t.flight f).ready = false := congrArg (fun content => content.2.1) content
      rw [unready] at ready
      contradiction
    · exact kept present content (by simp)
  | enrol g =>
    simp only at content
    split_ifs at content with same
    · subst same
      have before : (s.flight f).ready = true := by
        rw [← ready]
        exact (congrArg (fun content => content.2.1) content).symm
      exact (sound.published present before).kept goes does (by simp)
    · exact kept present content (by simp)
  | resolve g result callbacks =>
    simp only at content
    split_ifs at content with same
    · subst same
      obtain ⟨key', named, publishes⟩ := goes.resolves
      obtain rfl : key' = key :=
        Option.some.inj ((sound.led_of_call named).symm.trans (sound.led_of_entry present))
      refine ⟨c, ?_⟩
      rw [point_move_self, publishes]
    · exact kept present content (by simp)
  | _ => exact kept present content (by simp)

theorem Sound.replaced_step (sound : s.Sound) (goes : Goes c (s.point c) op q)
    (does : Does s c op t) (replaces : ((t.move c q).point d).replaces = some (key, f)) :
    (t.move c q).Published key f := by
  by_cases same : d = c
  · subst same
    rw [point_move_self] at replaces
    rcases goes.replaces replaces with ⟨other, before⟩ | ⟨rfl, expects⟩
    · exact (sound.replaced before).kept goes does other
    · cases does with
      | renew _ _ ready =>
        exact (sound.published (sound.expected expects) ready).kept goes (.renew key f ready) (by simp)
  · rw [point_move_of_ne does.point same] at replaces
    apply (sound.replaced replaces).kept goes does
    rintro rfl
    exact same (sound.flights_mutex_.alone (Point.in_flights_of_replaces replaces) goes.inside)

theorem Sound.expected_step (sound : s.Sound) (goes : Goes c (s.point c) op q)
    (does : Does s c op t) {found : Option Call}
    (expects : ((t.move c q).point d).expects = some (key, found)) :
    (t.move c q).flights_.lookup key = found := by
  change t.flights_.lookup key = found
  have lookup := does.lookup key
  by_cases same : d = c
  · subst same
    rw [point_move_self] at expects
    rcases goes.expects expects with ⟨before, ⟨g, rfl⟩ | ⟨g, rfl⟩⟩ | ⟨g, rfl, rfl⟩ | ⟨rfl | ⟨g, rfl⟩, rfl⟩
    · exact lookup.trans (sound.expected before)
    · exact lookup.trans (sound.expected before)
    · cases does with
      | share _ _ present => exact present
    · cases does with
      | make _ absent => exact absent
    · simpa using lookup
  · rw [point_move_of_ne does.point same] at expects
    have outside : (s.point c).in_flights ≠ true := fun inside =>
      same (sound.flights_mutex_.alone (Point.in_flights_of_expects expects) inside)
    have inside := goes.inside
    cases op with
    | renew | erase | assign => exact absurd inside outside
    | _ => exact lookup.trans (sound.expected expects)

/-! ## No fault -/

omit [DecidableEq Call] in
theorem fault_use (alive : 0 < (s.flight f).use_count) : (s.use f).fault = s.fault := by
  simp [use, Nat.ne_of_gt alive]

theorem fault_drop (alive : 0 < (s.flight f).use_count)
    (another : (s.flight f).mutex = none ∨ 1 < (s.flight f).use_count) : (s.drop f).fault = s.fault := by
  simp only [drop, fault_use alive]
  rcases another with unlocked | more
  · simp [unlocked]
  · simp [Nat.ne_of_gt more]

theorem fault_erase (alive : ∀ f, s.flights_.lookup key = some f → 0 < (s.flight f).use_count ∧
    ((s.flight f).mutex = none ∨ 1 < (s.flight f).use_count)) : (s.erase key).fault = s.fault := by
  unfold erase
  split
  · next f present =>
    obtain ⟨counts, another⟩ := alive f present
    exact fault_drop (s := { s with flights_ := s.flights_.erase key }) counts another
  · rfl

omit [DecidableEq Call] in
/-- A `shared_ptr` other than the one that is dropped is left, or the mutex is not locked. -/
theorem Sound.another (sound : s.Sound) {slot : Slot Call} (points : s.slots slot = some f)
    (apart : ∀ b, s.slots (.call b) = some f → ((s.point b).guards = some f ∨
      ∃ key, (s.point b).publishes = some (key, f)) → slot ≠ .call b) :
    (s.flight f).mutex = none ∨ 1 < (s.flight f).use_count := by
  cases owner : (s.flight f).mutex with
  | none => exact .inl rfl
  | some a =>
    right
    have guards := (sound.mutex f a).mp owner
    obtain ⟨b, other, here⟩ := sound.held guards
    apply sound.counted.one_lt points other
    apply apart b other
    rcases here with rfl | publishes
    · exact .inl guards
    · exact .inr publishes

omit [DecidableEq Call] in
theorem Sound.entry_dropped (sound : s.Sound) (key : Bytes) (f : Call)
    (present : s.flights_.lookup key = some f) : 0 < (s.flight f).use_count ∧
      ((s.flight f).mutex = none ∨ 1 < (s.flight f).use_count) := by
  have points := slots_entry.trans present
  exact ⟨sound.alive points, sound.another points fun _ _ _ => by simp⟩

theorem Sound.faultless_step (sound : s.Sound) (goes : Goes c (s.point c) op q)
    (does : Does s c op t) : (t.move c q).fault = false := by
  change t.fault = false
  rw [← sound.faultless]
  have uses := sound.uses goes
  cases does with
  | lock f | keep f | enrol f | resolve f | read f => exact fault_use (sound.alive uses)
  | unlock f =>
    obtain ⟨b, points, -⟩ := uses
    exact fault_use (sound.alive points)
  | share key f present => exact fault_use (sound.alive (slots_entry.trans present))
  | renew key f ready =>
    rw [fault_erase (s := s.use f) (sound.entry_dropped key)]
    exact fault_use (sound.alive uses)
  | erase key => exact fault_erase (sound.entry_dropped key)
  | assign key f =>
    have absent : s.flights_.lookup key = none := sound.expected goes.vacant.1
    have points : s.slots (.call c) = some f := by
      rw [slots_call, Point.flight, goes.named.1]
      rfl
    simp only [assign, absent]
    exact fault_use (sound.alive points)
  | drop f =>
    obtain ⟨unguarded, unpublished⟩ := goes.drops
    apply fault_drop (sound.alive uses)
    apply sound.another uses
    rintro b - here same
    obtain rfl := Slot.call.inj same
    rcases here with guards | ⟨key, publishes⟩
    · rw [unguarded] at guards
      contradiction
    · rw [unpublished] at publishes
      contradiction
  | replace f =>
    obtain ⟨unpublished, key, replaces⟩ := goes.supplants
    obtain ⟨n, publishes, points⟩ := (sound.replaced replaces).holds
    have other : c ≠ n := by
      rintro rfl
      rw [unpublished] at publishes
      contradiction
    have more : 1 < (s.flight f).use_count :=
      sound.counted.one_lt uses points fun same => other (Slot.call.inj same)
    have unmade : f ≠ c := by
      rintro rfl
      rw [sound.fresh goes.pristine.1] at more
      contradiction
    have same : ((s.make c).flight f).use_count = (s.flight f).use_count := by
      rw [make]
      simp only
      rw [Function.update_of_ne unmade]
    rw [← same] at more
    exact fault_drop (s := s.make c) (by omega) (.inr more)
  | _ => rfl

theorem Sound.step {e : Event Call} (sound : s.Sound) (taken : s.step? e = some s') : s'.Sound := by
  obtain ⟨c, op, q, t, goes, does, rfl⟩ := goes_of_step taken
  constructor
  · exact sound.flights_mutex_step goes does
  · exact sound.mutex_step goes does
  · exact sound.counted_step goes does
  · exact sound.named_step goes does
  · exact sound.own_step goes does
  · exact sound.fresh_step goes does
  · exact sound.published_step goes does
  · exact sound.replaced_step goes does
  · exact sound.expected_step goes does
  · exact sound.faultless_step goes does

theorem sound_of_run {es : List (Event Call)} (run : Path step? always ({} : State Call) es s) :
    s.Sound := by
  apply run.preserves sound_init
  exact fun s e s' sound _ taken => sound.step taken

/-- However the threads are interleaved, no flight is used after it has been destroyed, and none is
destroyed while its mutex is locked. Each flight has as many `shared_ptr`s as it counts, so without
any it is gone; and one that is ready is in the map only until the call that made it ready erases it. -/
theorem faultless_of_run {es : List (Event Call)} (run : Path step? always ({} : State Call) es s) :
    s.fault = false ∧ Counted (fun f => (s.flight f).use_count) s.slots ∧
      (∀ f, (∀ slot, s.slots slot ≠ some f) → (s.flight f).use_count = 0) ∧
        ∀ {key f}, s.flights_.lookup key = some f → (s.flight f).ready = true →
          s.Published key f := by
  have sound := sound_of_run run
  exact ⟨sound.faultless, sound.counted, fun f => sound.counted.eq_zero, sound.published⟩

end State

/-- A leader's flight is made ready, and another caller replaces it. -/
def supplanting : List (Event ℕ) :=
  .doSingleFlight 0 [0x71] :: List.replicate 5 (.next 0) ++
    .notifyResult 1 [0x71] [0x5a] :: List.replicate 6 (.next 1) ++
      .doSingleFlight 2 [0x71] :: List.replicate 5 (.next 2)

/-- The new flight has taken the place of the old one, whose mutex is locked. -/
theorem faultless_of_run_run : ∃ s : State ℕ, s.point 2 = .replaced [0x71] 2 0 ∧
    (s.flight 0).mutex = some 2 ∧ (s.flight 0).use_count = 1 ∧ s.fault = false := by
  have run : ∃ s : State ℕ, Path State.step? always {} supplanting s ∧
      s.point 2 = .replaced [0x71] 2 0 ∧ (s.flight 0).mutex = some 2 ∧ (s.flight 0).use_count = 1 := by
    refine ⟨_, replay_eq_some_iff.mp rfl, ?_, ?_, ?_⟩ <;> rfl
  obtain ⟨s, path, point, locked, count⟩ := run
  exact ⟨s, point, locked, count, (State.faultless_of_run path).1⟩

end FlightProxy.Threads
