import FlightProxy.Model.Threads

/-! # The control flow of the calls

The statements of the three functions as a graph: which operation leads from which point to which. A
step follows an edge of the graph and does the operation, and the tables say where on the way the
locks and the local `shared_ptr` are held.
-/

namespace FlightProxy.Threads

variable {Call : Type*}

/-- What a call does between two points. -/
inductive Op (Call : Type*)
  | skip
  | lock_flights
  | unlock_flights
  /-- The map is empty, and is unlocked. -/
  | finish
  | lock (f : Call)
  | unlock (f : Call)
  /-- The flight is not ready, and is unlocked. -/
  | keep (f : Call)
  | share (key : Bytes) (f : Call)
  | miss (key : Bytes)
  | make (key : Bytes)
  /-- The flight is ready, and its key is erased. -/
  | renew (key : Bytes) (f : Call)
  | replace (f : Call)
  | erase (key : Bytes)
  | assign (key : Bytes) (f : Call)
  | drop (f : Call)
  | read (f : Call) (result : Bytes)
  | enrol (f : Call)
  | resolve (f : Call) (result : Bytes) (callbacks : List Call)
  | call_back (d : Call) (result : Bytes)

/-- The graph, for the call `c`. -/
inductive Goes (c : Call) : Point Call → Op Call → Point Call → Prop
  | start (key : Bytes) : Goes c .idle .skip (.start key)
  | find (key : Bytes) : Goes c (.start key) .lock_flights (.finding key)
  | found (key : Bytes) (f : Call) : Goes c (.finding key) (.share key f) (.found key f)
  | check (key : Bytes) (f : Call) : Goes c (.found key f) (.lock f) (.checking key f)
  | keep (key : Bytes) (f : Call) : Goes c (.checking key f) (.keep f) (.kept key f)
  | follow (key : Bytes) (f : Call) : Goes c (.kept key f) .unlock_flights (.joining key f)
  | renew (key : Bytes) (f : Call) : Goes c (.checking key f) (.renew key f) (.erased key f)
  | replace (key : Bytes) (f : Call) : Goes c (.erased key f) (.replace f) (.replaced key c f)
  | reassign (key : Bytes) (f old : Call) :
      Goes c (.replaced key f old) (.assign key f) (.renewed key f old)
  | release (key : Bytes) (f old : Call) : Goes c (.renewed key f old) (.unlock old) (.inserted key f)
  | make (key : Bytes) : Goes c (.finding key) (.make key) (.made key c)
  | assign (key : Bytes) (f : Call) : Goes c (.made key f) (.assign key f) (.inserted key f)
  | lead (key : Bytes) (f : Call) : Goes c (.inserted key f) .unlock_flights (.leading key f)
  | leader (key : Bytes) (f : Call) : Goes c (.leading key f) (.drop f) (.leader key)
  | join (key : Bytes) (f : Call) : Goes c (.joining key f) (.lock f) (.joined key f)
  | read (key : Bytes) (f : Call) (result : Bytes) :
      Goes c (.joined key f) (.read f result) (.calling key f result)
  | call_back (key : Bytes) (f : Call) (result : Bytes) (outcome : SingleFlight.Outcome) :
      Goes c (.calling key f result) (.call_back c result) (.called key f outcome)
  | enrol (key : Bytes) (f : Call) : Goes c (.joined key f) (.enrol f) (.called key f .returned)
  | leave (key : Bytes) (f : Call) (outcome : SingleFlight.Outcome) :
      Goes c (.called key f outcome) (.unlock f) (.leaving key f outcome)
  | left (key : Bytes) (f : Call) (outcome : SingleFlight.Outcome) :
      Goes c (.leaving key f outcome) (.drop f) (.left key f outcome)
  | notify (key result : Bytes) : Goes c .idle .skip (.notify key result)
  | seek (key result : Bytes) : Goes c (.notify key result) .lock_flights (.seeking key result)
  | miss (key result : Bytes) : Goes c (.seeking key result) (.miss key) (.missed key result)
  | give_up (key result : Bytes) :
      Goes c (.missed key result) .unlock_flights (.returned key result none)
  | sought (key result : Bytes) (f : Call) :
      Goes c (.seeking key result) (.share key f) (.sought key result f)
  | publish (key result : Bytes) (f : Call) :
      Goes c (.sought key result f) .unlock_flights (.publishing key result f)
  | enter (key result : Bytes) (f : Call) :
      Goes c (.publishing key result f) (.lock f) (.locked key result f)
  | resolve (key result : Bytes) (f : Call) (callbacks : List Call) :
      Goes c (.locked key result f) (.resolve f result callbacks) (.published key result f callbacks)
  | publish_done (key result : Bytes) (f : Call) (callbacks : List Call) :
      Goes c (.published key result f callbacks) (.unlock f) (.notifying key result f callbacks)
  | turn (key result : Bytes) (f d : Call) (rest : List Call) :
      Goes c (.notifying key result f (d :: rest)) (.call_back d result) (.notifying key result f rest)
  | close (key result : Bytes) (f : Call) :
      Goes c (.notifying key result f []) .lock_flights (.erasing key result f)
  | erase (key result : Bytes) (f : Call) :
      Goes c (.erasing key result f) (.erase key) (.wiped key result f)
  | wiped (key result : Bytes) (f : Call) :
      Goes c (.wiped key result f) .unlock_flights (.retiring key result f)
  | retire (key result : Bytes) (f : Call) :
      Goes c (.retiring key result f) (.drop f) (.returned key result (some f))
  | clear : Goes c .idle .skip .clear
  | clear_lock : Goes c .clear .lock_flights .clearing
  | clear_entry (key : Bytes) : Goes c .clearing (.erase key) .clearing
  | clear_done : Goes c .clearing .finish .cleared

/-! ## Tables -/

namespace Point

/-- `flights_mutex_` is held. -/
def in_flights : Point Call → Bool
  | .finding _ | .found _ _ | .checking _ _ | .kept _ _ | .erased _ _ | .replaced _ _ _
  | .renewed _ _ _ | .made _ _ | .inserted _ _ | .seeking _ _ | .missed _ _ | .sought _ _ _
  | .erasing _ _ _ | .wiped _ _ _ | .clearing => true
  | _ => false

/-- The flight whose mutex is held. -/
def guards : Point Call → Option Call
  | .checking _ f | .erased _ f | .replaced _ _ f | .renewed _ _ f | .joined _ f | .calling _ f _
  | .called _ f _ | .locked _ _ f | .published _ _ f _ => some f
  | _ => none

/-- The local `shared_ptr`, and the key. -/
def named : Point Call → Option (Bytes × Call)
  | .found key f | .checking key f | .kept key f | .erased key f | .replaced key f _
  | .renewed key f _ | .made key f | .inserted key f | .leading key f | .joining key f
  | .joined key f | .calling key f _ | .called key f _ | .leaving key f _ | .sought key _ f
  | .publishing key _ f | .locked key _ f | .published key _ f _ | .notifying key _ f _
  | .erasing key _ f | .wiped key _ f | .retiring key _ f => some (key, f)
  | _ => none

def flight (p : Point Call) : Option Call := p.named.map Prod.snd

/-- The key, once a new flight has been made for it. -/
def led : Point Call → Option Bytes
  | .replaced key _ _ | .renewed key _ _ | .made key _ | .inserted key _ | .leading key _
  | .leader key => some key
  | _ => none

/-- A flight that has been made ready, and whose key has yet to be erased. -/
def publishes : Point Call → Option (Bytes × Call)
  | .published key _ f _ | .notifying key _ f _ | .erasing key _ f => some (key, f)
  | _ => none

/-- A ready flight that a new one takes the place of. -/
def replaces : Point Call → Option (Bytes × Call)
  | .erased key f | .replaced key _ f | .renewed key _ f => some (key, f)
  | _ => none

/-- The call's own flight, as long as no other call can reach it. -/
def pristine : Point Call → Option (Flight Call)
  | .replaced _ _ _ | .made _ _ => some { use_count := 1 }
  | .renewed _ _ _ | .inserted _ _ | .leading _ _ | .leader _ => none
  | _ => some {}

/-- In clear. -/
def clears : Point Call → Bool
  | .clear | .clearing | .cleared => true
  | _ => false

/-- What the map is known to hold under the key. -/
def expects : Point Call → Option (Bytes × Option Call)
  | .found key f | .checking key f => some (key, some f)
  | .erased key _ | .replaced key _ _ | .made key _ => some (key, none)
  | _ => none

end Point

variable {c : Call} {p q : Point Call} {op : Op Call}

theorem Goes.in_flights : Goes c p op q →
    match op with
    | .lock_flights => p.in_flights = false ∧ q.in_flights = true
    | .unlock_flights | .finish => p.in_flights = true ∧ q.in_flights = false
    | _ => q.in_flights = p.in_flights := by
  intro goes
  cases goes <;> simp [Point.in_flights]

theorem Goes.guards : Goes c p op q →
    match op with
    | .lock f => p.guards = none ∧ q.guards = some f
    | .unlock f | .keep f => p.guards = some f ∧ q.guards = none
    | _ => q.guards = p.guards := by
  intro goes
  cases goes <;> simp [Point.guards]

theorem Goes.named : Goes c p op q →
    match op with
    | .share key f => p.named = none ∧ q.named = some (key, f)
    | .make key => p.named = none ∧ q.named = some (key, c)
    | .replace f => ∃ key, p.named = some (key, f) ∧ q.named = some (key, c)
    | .assign key f => p.named = some (key, f) ∧ q.named = some (key, f)
    | .drop f => p.flight = some f ∧ q.named = none
    | _ => q.named = p.named := by
  intro goes
  cases goes <;> simp [Point.named, Point.flight]

/-- What is used is the local flight, or the one that it takes the place of. -/
theorem Goes.uses : Goes c p op q →
    match op with
    | .lock f | .keep f | .renew _ f | .drop f | .read f _ | .enrol f | .resolve f _ _ | .replace f =>
      p.flight = some f
    | .unlock f => p.flight = some f ∨ ∃ key, p.replaces = some (key, f)
    | _ => True := by
  intro goes
  cases goes <;> simp [Point.named, Point.flight, Point.replaces]

theorem Goes.led {key : Bytes} (goes : Goes c p op q) (led : p.led = some key) :
    q.led = some key := by
  cases goes <;> simp_all [Point.led]

theorem Goes.leads {key : Bytes} {f : Call} (goes : Goes c p op q)
    (made : (∃ k, op = .make k) ∨ ∃ g, op = .replace g) (named : q.named = some (key, f)) :
    q.led = some key := by
  cases goes <;> simp_all [Point.named, Point.led]

theorem Goes.publishes {key : Bytes} {f : Call} (goes : Goes c p op q)
    (publishes : p.publishes = some (key, f)) : q.publishes = some (key, f) ∨ op = .erase key := by
  cases goes <;> simp_all [Point.publishes]

theorem Goes.replaces {key : Bytes} {f : Call} (goes : Goes c p op q)
    (replaces : q.replaces = some (key, f)) :
    (op ≠ .erase key ∧ p.replaces = some (key, f)) ∨
      op = .renew key f ∧ p.expects = some (key, some f) := by
  cases goes <;> simp_all [Point.replaces, Point.expects]

theorem Goes.expects {key : Bytes} {found : Option Call} (goes : Goes c p op q)
    (expects : q.expects = some (key, found)) :
    (p.expects = some (key, found) ∧ ((∃ f, op = .lock f) ∨ ∃ f, op = .replace f)) ∨
      (∃ f, op = .share key f ∧ found = some f) ∨
        (op = .make key ∨ ∃ f, op = .renew key f) ∧ found = none := by
  cases goes <;> simp_all [Point.expects]

/-- A new flight is put where the map has none. -/
theorem Goes.vacant {key : Bytes} {f : Call} : Goes c p (.assign key f) q →
    p.expects = some (key, none) ∧ p.led = some key := by
  intro goes
  cases goes <;> exact ⟨rfl, rfl⟩

/-- Who drops its `shared_ptr` holds no flight's mutex, and has made none ready that is in the map. -/
theorem Goes.drops {f : Call} : Goes c p (.drop f) q → p.guards = none ∧ p.publishes = none := by
  intro goes
  cases goes <;> exact ⟨rfl, rfl⟩

theorem Goes.supplants {f : Call} : Goes c p (.replace f) q →
    p.publishes = none ∧ ∃ key, p.replaces = some (key, f) := by
  intro goes
  cases goes with
  | replace key => exact ⟨rfl, key, rfl⟩

theorem Goes.resolves {result : Bytes} {f : Call} {callbacks : List Call} :
    Goes c p (.resolve f result callbacks) q →
      ∃ key, p.named = some (key, f) ∧ q.publishes = some (key, f) := by
  intro goes
  cases goes with
  | resolve key => exact ⟨key, rfl, rfl⟩

/-- The map is changed by the owner of its mutex only. -/
theorem Goes.inside : Goes c p op q →
    match op with
    | .renew _ _ | .erase _ | .assign _ _ => p.in_flights = true
    | _ => True := by
  intro goes
  cases goes <;> simp [Point.in_flights]

theorem Goes.clears (goes : Goes c p op q) (begun : p ≠ .idle) : q.clears = p.clears := by
  cases goes <;> simp_all [Point.clears]

theorem Goes.pristine : Goes c p op q →
    match op with
    | .make _ | .replace _ => p.pristine = some {} ∧ q.pristine = some { use_count := 1 }
    | .assign _ _ => p.pristine = some { use_count := 1 } ∧ q.pristine = none
    | _ => q.pristine = p.pristine ∧ p.pristine ≠ some { use_count := 1 } := by
  intro goes
  cases goes <;> simp [Point.pristine]

/-- The new flight is the call's own. -/
theorem Goes.own (goes : Goes c p op q) (own : p.led ≠ none → ∀ f, p.flight = some f → f = c) :
    q.led ≠ none → ∀ f, q.flight = some f → f = c := by
  cases goes <;> simp_all [Point.led, Point.flight, Point.named]

namespace Point

theorem in_flights_of_replaces {key : Bytes} {f : Call} (replaces : p.replaces = some (key, f)) :
    p.in_flights = true := by
  cases p <;> simp_all [Point.replaces, in_flights]

theorem in_flights_of_expects {key : Bytes} {found : Option Call}
    (expects : p.expects = some (key, found)) : p.in_flights = true := by
  cases p <;> simp_all [Point.expects, in_flights]

/-- Whoever holds a flight's mutex has a `shared_ptr` to it, or is replacing it. -/
theorem flight_of_guards {f : Call} (guards : p.guards = some f) :
    p.flight = some f ∨ ∃ key, p.replaces = some (key, f) := by
  cases p <;> simp_all [Point.guards, flight, named, Point.replaces]

theorem flight_of_publishes {key : Bytes} {f : Call} (publishes : p.publishes = some (key, f)) :
    p.named = some (key, f) := by
  cases p <;> simp_all [Point.publishes, named]

theorem publishes_of_led (led : p.led ≠ none) : p.publishes = none := by
  cases p <;> simp_all [Point.led, Point.publishes]

theorem pristine_cases {v : Flight Call} (pristine : p.pristine = some v) :
    v = {} ∨ v = { use_count := 1 } ∧ p.led ≠ none ∧ ∃ f, p.flight = some f := by
  cases p <;> simp_all [Point.pristine, Point.led, flight, named]

end Point

/-! ## Operations -/

variable [DecidableEq Call] {s s' t : State Call} {e : Event Call}

/-- The operation can be done in the first state, and leads to the second. -/
inductive Does (s : State Call) (c : Call) : Op Call → State Call → Prop
  | skip : Does s c .skip s
  | lock_flights (free : s.flights_mutex_ = none) :
      Does s c .lock_flights { s with flights_mutex_ := some c }
  | unlock_flights : Does s c .unlock_flights s.unlock_flights
  | finish (empty : s.flights_.keys = []) : Does s c .finish s.unlock_flights
  | lock (f : Call) (free : (s.flight f).mutex = none) :
      Does s c (.lock f) { s.use f with
        flight := Function.update s.flight f { s.flight f with mutex := some c } }
  | unlock (f : Call) : Does s c (.unlock f) (s.unlock f)
  | keep (f : Call) (unready : (s.flight f).ready = false) : Does s c (.keep f) (s.unlock f)
  | share (key : Bytes) (f : Call) (present : s.flights_.lookup key = some f) :
      Does s c (.share key f) (s.share f)
  | miss (key : Bytes) (absent : s.flights_.lookup key = none) : Does s c (.miss key) s
  | make (key : Bytes) (absent : s.flights_.lookup key = none) : Does s c (.make key) (s.make c)
  | renew (key : Bytes) (f : Call) (ready : (s.flight f).ready = true) :
      Does s c (.renew key f) ((s.use f).erase key)
  | replace (f : Call) : Does s c (.replace f) ((s.make c).drop f)
  | erase (key : Bytes) : Does s c (.erase key) (s.erase key)
  | assign (key : Bytes) (f : Call) : Does s c (.assign key f) (s.assign key f)
  | drop (f : Call) : Does s c (.drop f) (s.drop f)
  | read (f : Call) (ready : (s.flight f).ready = true) :
      Does s c (.read f (s.flight f).result) (s.use f)
  | enrol (f : Call) (unready : (s.flight f).ready = false) : Does s c (.enrol f) (s.enrol f c)
  | resolve (f : Call) (result : Bytes) :
      Does s c (.resolve f result (s.flight f).callbacks) (s.resolve f result)
  | call_back (d : Call) (result : Bytes) :
      Does s c (.call_back d result) { s with invoked := s.invoked ++ [(d, result)] }

theorem lock_flights_cases (taken : s.lock_flights c = some s') :
    Does s c .lock_flights s' := by
  simp only [State.lock_flights] at taken
  split_ifs at taken with free
  obtain rfl := Option.some.inj taken
  exact .lock_flights free

theorem lock_cases {f : Call} (taken : s.lock f c = some s') : Does s c (.lock f) s' := by
  simp only [State.lock] at taken
  split_ifs at taken with free
  obtain rfl := Option.some.inj taken
  exact .lock f free

theorem goes_of_on_result {outcome : SingleFlight.Outcome} (taken : s.on_result c outcome = some s') :
    ∃ op q t, Goes c (s.point c) op q ∧ Does s c op t ∧ s' = t.move c q := by
  simp only [State.on_result] at taken
  cases here : s.point c with
  | calling key f result =>
    simp only [here, Option.some.injEq] at taken
    exact ⟨_, _, _, .call_back key f result outcome, .call_back c result, taken.symm⟩
  | notifying key result f callbacks =>
    cases callbacks with
    | nil => simp [here] at taken
    | cons d rest =>
      simp only [here, Option.some.injEq] at taken
      exact ⟨_, _, _, .turn key result f d rest, .call_back d result, taken.symm⟩
  | _ => simp [here] at taken

theorem goes_of_next (taken : s.next c = some s') :
    ∃ op q t, Goes c (s.point c) op q ∧ Does s c op t ∧ s' = t.move c q := by
  simp only [State.next] at taken
  cases here : s.point c with
  | start key =>
    simp only [here, Option.map_eq_some_iff] at taken
    obtain ⟨t, locked, rfl⟩ := taken
    exact ⟨_, _, t, .find key, lock_flights_cases locked, rfl⟩
  | finding key =>
    cases present : s.flights_.lookup key with
    | some f =>
      simp only [here, present, Option.some.injEq] at taken
      exact ⟨_, _, _, .found key f, .share key f present, taken.symm⟩
    | none =>
      simp only [here, present, Option.some.injEq] at taken
      exact ⟨_, _, _, .make key, .make key present, taken.symm⟩
  | found key f =>
    simp only [here, Option.map_eq_some_iff] at taken
    obtain ⟨t, locked, rfl⟩ := taken
    exact ⟨_, _, t, .check key f, lock_cases locked, rfl⟩
  | checking key f =>
    cases ready : (s.flight f).ready with
    | true =>
      simp only [here, ready, if_true, Option.some.injEq] at taken
      exact ⟨_, _, _, .renew key f, .renew key f ready, taken.symm⟩
    | false =>
      simp only [here, ready, Bool.false_eq_true, if_false, Option.some.injEq] at taken
      exact ⟨_, _, _, .keep key f, .keep f ready, taken.symm⟩
  | kept key f =>
    simp only [here, Option.some.injEq] at taken
    exact ⟨_, _, _, .follow key f, .unlock_flights, taken.symm⟩
  | erased key f =>
    simp only [here, Option.some.injEq] at taken
    exact ⟨_, _, _, .replace key f, .replace f, taken.symm⟩
  | replaced key f old =>
    simp only [here, Option.some.injEq] at taken
    exact ⟨_, _, _, .reassign key f old, .assign key f, taken.symm⟩
  | renewed key f old =>
    simp only [here, Option.some.injEq] at taken
    exact ⟨_, _, _, .release key f old, .unlock old, taken.symm⟩
  | made key f =>
    simp only [here, Option.some.injEq] at taken
    exact ⟨_, _, _, .assign key f, .assign key f, taken.symm⟩
  | inserted key f =>
    simp only [here, Option.some.injEq] at taken
    exact ⟨_, _, _, .lead key f, .unlock_flights, taken.symm⟩
  | leading key f =>
    simp only [here, Option.some.injEq] at taken
    exact ⟨_, _, _, .leader key f, .drop f, taken.symm⟩
  | joining key f =>
    simp only [here, Option.map_eq_some_iff] at taken
    obtain ⟨t, locked, rfl⟩ := taken
    exact ⟨_, _, t, .join key f, lock_cases locked, rfl⟩
  | joined key f =>
    cases ready : (s.flight f).ready with
    | true =>
      simp only [here, ready, if_true, Option.some.injEq] at taken
      exact ⟨_, _, _, .read key f _, .read f ready, taken.symm⟩
    | false =>
      simp only [here, ready, Bool.false_eq_true, if_false, Option.some.injEq] at taken
      exact ⟨_, _, _, .enrol key f, .enrol f ready, taken.symm⟩
  | called key f outcome =>
    simp only [here, Option.some.injEq] at taken
    exact ⟨_, _, _, .leave key f outcome, .unlock f, taken.symm⟩
  | leaving key f outcome =>
    simp only [here, Option.some.injEq] at taken
    exact ⟨_, _, _, .left key f outcome, .drop f, taken.symm⟩
  | notify key result =>
    simp only [here, Option.map_eq_some_iff] at taken
    obtain ⟨t, locked, rfl⟩ := taken
    exact ⟨_, _, t, .seek key result, lock_flights_cases locked, rfl⟩
  | seeking key result =>
    cases present : s.flights_.lookup key with
    | some f =>
      simp only [here, present, Option.some.injEq] at taken
      exact ⟨_, _, _, .sought key result f, .share key f present, taken.symm⟩
    | none =>
      simp only [here, present, Option.some.injEq] at taken
      exact ⟨_, _, _, .miss key result, .miss key present, taken.symm⟩
  | missed key result =>
    simp only [here, Option.some.injEq] at taken
    exact ⟨_, _, _, .give_up key result, .unlock_flights, taken.symm⟩
  | sought key result f =>
    simp only [here, Option.some.injEq] at taken
    exact ⟨_, _, _, .publish key result f, .unlock_flights, taken.symm⟩
  | publishing key result f =>
    simp only [here, Option.map_eq_some_iff] at taken
    obtain ⟨t, locked, rfl⟩ := taken
    exact ⟨_, _, t, .enter key result f, lock_cases locked, rfl⟩
  | locked key result f =>
    simp only [here, Option.some.injEq] at taken
    exact ⟨_, _, _, .resolve key result f _, .resolve f result, taken.symm⟩
  | published key result f callbacks =>
    simp only [here, Option.some.injEq] at taken
    exact ⟨_, _, _, .publish_done key result f callbacks, .unlock f, taken.symm⟩
  | notifying key result f callbacks =>
    cases callbacks with
    | nil =>
      simp only [here, Option.map_eq_some_iff] at taken
      obtain ⟨t, locked, rfl⟩ := taken
      exact ⟨_, _, t, .close key result f, lock_flights_cases locked, rfl⟩
    | cons d rest => simp [here] at taken
  | erasing key result f =>
    simp only [here, Option.some.injEq] at taken
    exact ⟨_, _, _, .erase key result f, .erase key, taken.symm⟩
  | wiped key result f =>
    simp only [here, Option.some.injEq] at taken
    exact ⟨_, _, _, .wiped key result f, .unlock_flights, taken.symm⟩
  | retiring key result f =>
    simp only [here, Option.some.injEq] at taken
    exact ⟨_, _, _, .retire key result f, .drop f, taken.symm⟩
  | clear =>
    simp only [here, Option.map_eq_some_iff] at taken
    obtain ⟨t, locked, rfl⟩ := taken
    exact ⟨_, _, t, .clear_lock, lock_flights_cases locked, rfl⟩
  | clearing =>
    cases keys : s.flights_.keys with
    | nil =>
      simp only [here, keys, Option.some.injEq] at taken
      exact ⟨_, _, _, .clear_done, .finish keys, taken.symm⟩
    | cons key rest =>
      simp only [here, keys, Option.some.injEq] at taken
      exact ⟨_, _, _, .clear_entry key, .erase key, taken.symm⟩
  | idle | calling | leader | left | returned | cleared => simp [here] at taken

/-- A step of a call follows an edge of the graph. -/
theorem goes_of_step (taken : s.step? e = some s') : ∃ c op q t, Goes c (s.point c) op q ∧
    Does s c op t ∧ s' = t.move c q := by
  cases e with
  | doSingleFlight c key =>
    simp only [State.step?] at taken
    split_ifs at taken with idle
    obtain rfl := Option.some.inj taken
    exact ⟨c, _, _, _, idle ▸ .start key, .skip, rfl⟩
  | notifyResult c key result =>
    simp only [State.step?] at taken
    split_ifs at taken with idle
    obtain rfl := Option.some.inj taken
    exact ⟨c, _, _, _, idle ▸ .notify key result, .skip, rfl⟩
  | clear c =>
    simp only [State.step?] at taken
    split_ifs at taken with idle
    obtain rfl := Option.some.inj taken
    exact ⟨c, _, _, _, idle ▸ .clear, .skip, rfl⟩
  | next c => exact ⟨c, goes_of_next taken⟩
  | on_result c outcome => exact ⟨c, goes_of_on_result taken⟩

/-! ## What the operations leave as it is -/

/-- What the mutex of a flight guards. -/
def Flight.content (flight : Flight Call) : Bytes × Bool × ℕ × List Call :=
  (flight.result, flight.ready, flight.waiters, flight.callbacks)

section Erase

variable (s : State Call) (key : Bytes)

@[simp] theorem erase_point : (s.erase key).point = s.point := by
  unfold State.erase
  split <;> rfl

@[simp] theorem erase_flights_mutex_ : (s.erase key).flights_mutex_ = s.flights_mutex_ := by
  unfold State.erase
  split <;> rfl

@[simp] theorem erase_invoked : (s.erase key).invoked = s.invoked := by
  unfold State.erase
  split <;> rfl

theorem erase_lookup (k : Bytes) :
    (s.erase key).flights_.lookup k = if k = key then none else s.flights_.lookup k := by
  have erased : (s.flights_.erase key).lookup k = if k = key then none else s.flights_.lookup k := by
    split_ifs with same
    · rw [same, AList.lookup_erase]
    · exact AList.lookup_erase_ne same
  unfold State.erase
  split
  · exact erased
  · next absent =>
    split_ifs with same
    · rw [same, absent]
    · rfl

theorem drop_kept (f g : Call) : ((s.drop f).flight g).mutex = (s.flight g).mutex ∧
    ((s.drop f).flight g).content = (s.flight g).content := by
  simp only [State.drop, Function.update_apply]
  split_ifs with here
  · rw [here]
    exact ⟨rfl, rfl⟩
  · exact ⟨rfl, rfl⟩

theorem erase_kept (g : Call) : ((s.erase key).flight g).mutex = (s.flight g).mutex ∧
    ((s.erase key).flight g).content = (s.flight g).content := by
  unfold State.erase
  split
  · exact drop_kept { s with flights_ := s.flights_.erase key } _ g
  · exact ⟨rfl, rfl⟩

end Erase

theorem share_kept (s : State Call) (f g : Call) :
    ((s.share f).flight g).mutex = (s.flight g).mutex ∧
      ((s.share f).flight g).content = (s.flight g).content := by
  simp only [State.share, Function.update_apply]
  split_ifs with here
  · rw [here]
    exact ⟨rfl, rfl⟩
  · exact ⟨rfl, rfl⟩

section Assign

variable (s : State Call) (key : Bytes) (f : Call)

@[simp] theorem assign_point : (s.assign key f).point = s.point := by
  unfold State.assign
  split <;> rfl

@[simp] theorem assign_flights_mutex_ : (s.assign key f).flights_mutex_ = s.flights_mutex_ := by
  unfold State.assign
  split <;> rfl

@[simp] theorem assign_invoked : (s.assign key f).invoked = s.invoked := by
  unfold State.assign
  split <;> rfl

theorem assign_lookup (k : Bytes) :
    (s.assign key f).flights_.lookup k = if k = key then some f else s.flights_.lookup k := by
  have inserted : (s.flights_.insert key f).lookup k =
      if k = key then some f else s.flights_.lookup k := by
    split_ifs with same
    · rw [same, AList.lookup_insert]
    · exact AList.lookup_insert_ne same
  unfold State.assign
  split <;> exact inserted

theorem assign_kept (g : Call) : ((s.assign key f).flight g).mutex = (s.flight g).mutex ∧
    ((s.assign key f).flight g).content = (s.flight g).content := by
  have shared := share_kept { s with flights_ := s.flights_.insert key f } f g
  unfold State.assign
  split
  · next old _ =>
    obtain ⟨mutex, content⟩ := drop_kept ({ s with flights_ := s.flights_.insert key f }.share f) old g
    exact ⟨mutex.trans shared.1, content.trans shared.2⟩
  · exact shared

end Assign

namespace Does

theorem point (does : Does s c op t) : t.point = s.point := by
  cases does <;> simp [State.unlock_flights, State.use, State.unlock, State.make, State.share,
    State.drop, State.enrol, State.resolve]

theorem flights_mutex_ : Does s c op t → t.flights_mutex_ = match op with
    | .lock_flights => some c
    | .unlock_flights | .finish => none
    | _ => s.flights_mutex_ := by
  intro does
  cases does <;> simp [State.unlock_flights, State.use, State.unlock, State.make, State.share,
    State.drop, State.enrol, State.resolve]

theorem lookup (k : Bytes) : Does s c op t → t.flights_.lookup k = match op with
    | .renew key _ | .erase key => if k = key then none else s.flights_.lookup k
    | .assign key f => if k = key then some f else s.flights_.lookup k
    | _ => s.flights_.lookup k := by
  intro does
  cases does with
  | renew key f ready => exact erase_lookup (s.use f) key k
  | erase key => exact erase_lookup s key k
  | assign key f => exact assign_lookup s key f k
  | _ => rfl

theorem mutex (g : Call) : Does s c op t → (t.flight g).mutex = match op with
    | .lock f => if g = f then some c else (s.flight g).mutex
    | .unlock f | .keep f => if g = f then none else (s.flight g).mutex
    | .make _ | .replace _ => if g = c then none else (s.flight g).mutex
    | _ => (s.flight g).mutex := by
  intro does
  have updated : ∀ (f : Call) (v : Flight Call),
      (Function.update s.flight f v g).mutex = if g = f then v.mutex else (s.flight g).mutex := by
    intro f v
    rw [Function.update_apply]
    split_ifs <;> rfl
  have kept : ∀ (f : Call) (v : Flight Call), v.mutex = (s.flight f).mutex →
      (Function.update s.flight f v g).mutex = (s.flight g).mutex := by
    intro f v same
    rw [updated, same]
    split_ifs with here
    · rw [here]
    · rfl
  cases does with
  | lock f => exact updated f _
  | unlock f => exact updated f _
  | keep f => exact updated f _
  | make key => exact updated c _
  | share key f => exact (share_kept s f g).1
  | renew key f => exact (erase_kept (s.use f) key g).1
  | erase key => exact (erase_kept s key g).1
  | replace f => exact (drop_kept (s.make c) f g).1.trans (updated c _)
  | assign key f => exact (assign_kept s key f g).1
  | drop f => exact (drop_kept s f g).1
  | enrol f => exact kept f _ rfl
  | resolve f => exact kept f _ rfl
  | _ => rfl

theorem content (g : Call) : Does s c op t → (t.flight g).content = match op with
    | .make _ | .replace _ => if g = c then ([], false, 0, []) else (s.flight g).content
    | .enrol f => if g = f then ((s.flight f).result, (s.flight f).ready, (s.flight f).waiters + 1,
        (s.flight f).callbacks ++ [c]) else (s.flight g).content
    | .resolve f result _ => if g = f then (result, true, (s.flight f).waiters,
        (s.flight f).callbacks) else (s.flight g).content
    | _ => (s.flight g).content := by
  intro does
  have updated : ∀ (f : Call) (v : Flight Call),
      (Function.update s.flight f v g).content = if g = f then v.content else (s.flight g).content := by
    intro f v
    rw [Function.update_apply]
    split_ifs <;> rfl
  have kept : ∀ (f : Call) (v : Flight Call), v.content = (s.flight f).content →
      (Function.update s.flight f v g).content = (s.flight g).content := by
    intro f v same
    rw [updated, same]
    split_ifs with here
    · rw [here]
    · rfl
  cases does with
  | lock f => exact kept f _ rfl
  | unlock f => exact kept f _ rfl
  | keep f => exact kept f _ rfl
  | make key => exact updated c _
  | share key f => exact (share_kept s f g).2
  | renew key f => exact (erase_kept (s.use f) key g).2
  | erase key => exact (erase_kept s key g).2
  | replace f => exact (drop_kept (s.make c) f g).2.trans (updated c _)
  | assign key f => exact (assign_kept s key f g).2
  | drop f => exact (drop_kept s f g).2
  | enrol f => exact updated f _
  | resolve f => exact updated f _
  | _ => rfl

/-- Only the flight that an operation is about is changed. -/
theorem flight_of_ne {g : Call} : Does s c op t → (match op with
    | .lock f | .unlock f | .keep f | .share _ f | .drop f | .enrol f | .resolve f _ _ => g ≠ f
    | .make _ => g ≠ c
    | .replace f => g ≠ c ∧ g ≠ f
    | .renew key _ | .erase key => s.flights_.lookup key ≠ some g
    | .assign key f => g ≠ f ∧ s.flights_.lookup key ≠ some g
    | _ => True) → t.flight g = s.flight g := by
  intro does apart
  have erased : ∀ (u : State Call) (key : Bytes), u.flights_.lookup key ≠ some g →
      (u.erase key).flight g = u.flight g := by
    intro u key absent
    unfold State.erase
    split
    · next f present =>
      apply Function.update_of_ne
      rintro rfl
      exact absent present
    · rfl
  cases does with
  | lock f | unlock f | keep f | share key f | drop f | enrol f | resolve f =>
    exact Function.update_of_ne apart ..
  | make key => exact Function.update_of_ne apart ..
  | replace f =>
    simp only [State.drop, State.use, State.make]
    rw [Function.update_of_ne apart.2, Function.update_of_ne apart.1]
  | renew key f => exact erased (s.use f) key apart
  | erase key => exact erased s key apart
  | assign key f =>
    unfold State.assign
    split
    · next old present =>
      simp only [State.drop, State.share, State.use]
      rw [Function.update_of_ne, Function.update_of_ne apart.1]
      rintro rfl
      exact apart.2 present
    · exact Function.update_of_ne apart.1 ..
  | _ => rfl

theorem invoked : Does s c op t → t.invoked = match op with
    | .call_back d result => s.invoked ++ [(d, result)]
    | _ => s.invoked := by
  intro does
  cases does <;> simp [State.unlock_flights, State.use, State.unlock, State.make, State.share,
    State.drop, State.enrol, State.resolve]

end Does

end FlightProxy.Threads
