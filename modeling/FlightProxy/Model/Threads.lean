import FlightProxy.Model.SingleFlight
import Mathlib.Data.List.AList

/-! # SingleFlight, lock by lock

The functions of SingleFlight once more, with `flights_mutex_`, the mutex of each flight and the
`shared_ptr`s to the flights. A call goes from one program point to the next, and on the way takes or
releases one lock, makes, copies or drops a `shared_ptr`, or works on what the locks that it holds
guard. A flight is destroyed with its last `shared_ptr`. `fault` records that a destroyed flight has
been used, or that a flight has been destroyed while its mutex was locked.
-/

namespace FlightProxy

namespace SingleFlight

variable {Call : Type*}

/-- `clear()`, which is one block. -/
def State.clear (s : State Call) : State Call := { s with flights_ := fun _ => none }

/-- A block of any of the three functions. -/
inductive Block (Call : Type*)
  | call (e : Event Call)
  | clear
deriving DecidableEq, Repr

def Block.event? : Block Call → Option (Event Call)
  | .call e => some e
  | .clear => none

def State.block? [DecidableEq Call] (s : State Call) : Block Call → Option (State Call)
  | .call e => s.step? e
  | .clear => some s.clear

end SingleFlight

namespace Threads

variable {Call : Type*}

/-- `SingleFlight::Flight`, with the count of the `shared_ptr`s to it and the owner of its mutex. -/
structure Flight (Call : Type*) where
  use_count : ℕ := 0
  mutex : Option Call := none
  result : Bytes := []
  ready : Bool := false
  waiters : ℕ := 0
  callbacks : List Call := []
deriving DecidableEq, Repr

/-- The program point of a call, with its locals. -/
inductive Point (Call : Type*)
  | idle
  /-- doSingleFlight, before it locks `flights_mutex_`. -/
  | start (key : Bytes)
  | finding (key : Bytes)
  /-- `flight = it->second` is done. -/
  | found (key : Bytes) (flight : Call)
  /-- Both mutexes are locked. -/
  | checking (key : Bytes) (flight : Call)
  /-- The flight was not ready, and its mutex is unlocked again. -/
  | kept (key : Bytes) (flight : Call)
  /-- The flight was ready, and `flights_.erase(it)` is done. -/
  | erased (key : Bytes) (flight : Call)
  /-- `flight` is a new one, while the mutex of the `old` one is locked. -/
  | replaced (key : Bytes) (flight old : Call)
  | renewed (key : Bytes) (flight old : Call)
  /-- No flight was found, and `flight` is a new one. -/
  | made (key : Bytes) (flight : Call)
  | inserted (key : Bytes) (flight : Call)
  /-- `flights_mutex_` is unlocked. -/
  | leading (key : Bytes) (flight : Call)
  | leader (key : Bytes)
  | joining (key : Bytes) (flight : Call)
  | joined (key : Bytes) (flight : Call)
  /-- About to run `on_result(flight->result)`. -/
  | calling (key : Bytes) (flight : Call) (result : Bytes)
  /-- on_result has returned or thrown, or has been enrolled. -/
  | called (key : Bytes) (flight : Call) (outcome : SingleFlight.Outcome)
  /-- The flight's mutex is unlocked. -/
  | leaving (key : Bytes) (flight : Call) (outcome : SingleFlight.Outcome)
  | left (key : Bytes) (flight : Call) (outcome : SingleFlight.Outcome)
  /-- notifyResult, before it locks `flights_mutex_`. -/
  | notify (key result : Bytes)
  | seeking (key result : Bytes)
  /-- No flight was found. -/
  | missed (key result : Bytes)
  | sought (key result : Bytes) (flight : Call)
  /-- `flights_mutex_` is unlocked. -/
  | publishing (key result : Bytes) (flight : Call)
  | locked (key result : Bytes) (flight : Call)
  /-- The flight is ready, and its callbacks are copied. -/
  | published (key result : Bytes) (flight : Call) (callbacks : List Call)
  | notifying (key result : Bytes) (flight : Call) (callbacks : List Call)
  /-- `flights_mutex_` is locked again. -/
  | erasing (key result : Bytes) (flight : Call)
  | wiped (key result : Bytes) (flight : Call)
  | retiring (key result : Bytes) (flight : Call)
  | returned (key result : Bytes) (flight : Option Call)
  /-- clear, before it locks `flights_mutex_`. -/
  | clear
  | clearing
  | cleared
deriving DecidableEq, Repr

structure State (Call : Type*) where
  flights_mutex_ : Option Call := none
  flights_ : AList fun _ : Bytes => Call := ∅
  flight : Call → Flight Call := fun _ => {}
  point : Call → Point Call := fun _ => .idle
  invoked : List (Call × Bytes) := []
  fault : Bool := false

inductive Event (Call : Type*)
  | doSingleFlight (c : Call) (key : Bytes)
  | notifyResult (c : Call) (key result : Bytes)
  | clear (c : Call)
  /-- The call goes on to its next point. -/
  | next (c : Call)
  /-- A callback that the call runs returns or throws. -/
  | on_result (c : Call) (outcome : SingleFlight.Outcome)
deriving DecidableEq, Repr

variable [DecidableEq Call]

namespace State

def move (s : State Call) (c : Call) (next : Point Call) : State Call :=
  { s with point := Function.update s.point c next }

/-- A flight is used, which must not have been destroyed. -/
def use (s : State Call) (f : Call) : State Call :=
  { s with fault := s.fault || (s.flight f).use_count == 0 }

def lock_flights (s : State Call) (c : Call) : Option (State Call) :=
  if s.flights_mutex_ = none then some { s with flights_mutex_ := some c } else none

def unlock_flights (s : State Call) : State Call := { s with flights_mutex_ := none }

def lock (s : State Call) (f c : Call) : Option (State Call) :=
  if (s.flight f).mutex = none then
    some { s.use f with
      flight := Function.update s.flight f { s.flight f with mutex := some c } }
  else none

def unlock (s : State Call) (f : Call) : State Call :=
  { s.use f with flight := Function.update s.flight f { s.flight f with mutex := none } }

/-- `std::make_shared<Flight>()`. -/
def make (s : State Call) (c : Call) : State Call :=
  { s with flight := Function.update s.flight c { use_count := 1 } }

/-- A `shared_ptr` to the flight is copied. -/
def share (s : State Call) (f : Call) : State Call :=
  { s.use f with
    flight := Function.update s.flight f { s.flight f with use_count := (s.flight f).use_count + 1 } }

/-- A `shared_ptr` to the flight is dropped; the last one destroys it. -/
def drop (s : State Call) (f : Call) : State Call :=
  { s.use f with
    flight := Function.update s.flight f { s.flight f with use_count := (s.flight f).use_count - 1 }
    fault := (s.use f).fault || ((s.flight f).use_count == 1 && (s.flight f).mutex.isSome) }

/-- `flights_.erase(key)`. -/
def erase (s : State Call) (key : Bytes) : State Call :=
  match s.flights_.lookup key with
  | some f => { s with flights_ := s.flights_.erase key }.drop f
  | none => s

/-- `flights_[key] = flight`. -/
def assign (s : State Call) (key : Bytes) (f : Call) : State Call :=
  match s.flights_.lookup key with
  | some old => ({ s with flights_ := s.flights_.insert key f }.share f).drop old
  | none => { s with flights_ := s.flights_.insert key f }.share f

/-- `flight->waiters++; flight->callbacks.push_back(on_result)`. -/
def enrol (s : State Call) (f c : Call) : State Call :=
  { s.use f with
    flight := Function.update s.flight f { s.flight f with
      waiters := (s.flight f).waiters + 1
      callbacks := (s.flight f).callbacks ++ [c] } }

/-- `flight->result = result; flight->ready = true`. -/
def resolve (s : State Call) (f : Call) (result : Bytes) : State Call :=
  { s.use f with
    flight := Function.update s.flight f { s.flight f with result := result, ready := true } }

/-- The next statements of a call, up to a callback. -/
def next (s : State Call) (c : Call) : Option (State Call) :=
  match s.point c with
  | .start key => (s.lock_flights c).map fun t => t.move c (.finding key)
  | .finding key =>
    match s.flights_.lookup key with
    | some f => some ((s.share f).move c (.found key f))
    | none => some ((s.make c).move c (.made key c))
  | .found key f => (s.lock f c).map fun t => t.move c (.checking key f)
  | .checking key f =>
    if (s.flight f).ready then some (((s.use f).erase key).move c (.erased key f))
    else some ((s.unlock f).move c (.kept key f))
  | .kept key f => some (s.unlock_flights.move c (.joining key f))
  | .erased key f => some (((s.make c).drop f).move c (.replaced key c f))
  | .replaced key f old => some ((s.assign key f).move c (.renewed key f old))
  | .renewed key f old => some ((s.unlock old).move c (.inserted key f))
  | .made key f => some ((s.assign key f).move c (.inserted key f))
  | .inserted key f => some (s.unlock_flights.move c (.leading key f))
  | .leading key f => some ((s.drop f).move c (.leader key))
  | .joining key f => (s.lock f c).map fun t => t.move c (.joined key f)
  | .joined key f =>
    if (s.flight f).ready then some ((s.use f).move c (.calling key f (s.flight f).result))
    else some ((s.enrol f c).move c (.called key f .returned))
  | .called key f outcome => some ((s.unlock f).move c (.leaving key f outcome))
  | .leaving key f outcome => some ((s.drop f).move c (.left key f outcome))
  | .notify key result => (s.lock_flights c).map fun t => t.move c (.seeking key result)
  | .seeking key result =>
    match s.flights_.lookup key with
    | some f => some ((s.share f).move c (.sought key result f))
    | none => some (s.move c (.missed key result))
  | .missed key result => some (s.unlock_flights.move c (.returned key result none))
  | .sought key result f => some (s.unlock_flights.move c (.publishing key result f))
  | .publishing key result f => (s.lock f c).map fun t => t.move c (.locked key result f)
  | .locked key result f =>
    some ((s.resolve f result).move c (.published key result f (s.flight f).callbacks))
  | .published key result f callbacks =>
    some ((s.unlock f).move c (.notifying key result f callbacks))
  | .notifying key result f [] => (s.lock_flights c).map fun t => t.move c (.erasing key result f)
  | .erasing key result f => some ((s.erase key).move c (.wiped key result f))
  | .wiped key result f => some (s.unlock_flights.move c (.retiring key result f))
  | .retiring key result f => some ((s.drop f).move c (.returned key result (some f)))
  | .clear => (s.lock_flights c).map fun t => t.move c .clearing
  | .clearing =>
    match s.flights_.keys with
    | key :: _ => some ((s.erase key).move c .clearing)
    | [] => some (s.unlock_flights.move c .cleared)
  | _ => none

/-- Both the direct callback and one turn of the callback loop; the loop catches what is thrown. -/
def on_result (s : State Call) (c : Call) (outcome : SingleFlight.Outcome) : Option (State Call) :=
  match s.point c with
  | .calling key f result =>
    some ({ s with invoked := s.invoked ++ [(c, result)] }.move c (.called key f outcome))
  | .notifying key result f (d :: rest) =>
    some ({ s with invoked := s.invoked ++ [(d, result)] }.move c (.notifying key result f rest))
  | _ => none

def step? (s : State Call) : Event Call → Option (State Call)
  | .doSingleFlight c key => if s.point c = .idle then some (s.move c (.start key)) else none
  | .notifyResult c key result =>
    if s.point c = .idle then some (s.move c (.notify key result)) else none
  | .clear c => if s.point c = .idle then some (s.move c .clear) else none
  | .next c => s.next c
  | .on_result c outcome => s.on_result c outcome

end State

end Threads

end FlightProxy
