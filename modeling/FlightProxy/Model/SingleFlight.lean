import FlightProxy.Model.Wire
import FlightProxy.Transition.Path
import Mathlib.Logic.Function.Basic

/-! # SingleFlight: flights, calls and their atomic blocks

The state holds the map `flights_`, the `Flight` objects and the program point of every call in
progress. A flight is named by the doSingleFlight call that allocated it, since each call allocates
at most one. Every block under a mutex is one event, and every callback invocation is an event of
its own. A callback run directly by doSingleFlight runs under the flight's mutex, so the mutex is
kept in the flight and blocks that need it wait. `invoked` is the history of callback invocations.
-/

namespace FlightProxy

namespace SingleFlight

variable {Call : Type*}

/-- A callback either returns or throws a `std::exception`. -/
inductive Outcome
  | returned
  | threw
deriving DecidableEq, Repr

/-- `SingleFlight::Flight`; a callback is named by the call that passed it. -/
structure Flight (Call : Type*) where
  mutex : Option Call := none
  result : Bytes := []
  ready : Bool := false
  waiters : ℕ := 0
  callbacks : List Call := []
deriving DecidableEq, Repr

namespace Flight

def acquire (flight : Flight Call) (c : Call) : Flight Call := { flight with mutex := some c }

def release (flight : Flight Call) : Flight Call := { flight with mutex := none }

/-- `flight->waiters++; flight->callbacks.push_back(on_result)`. -/
def enrol (flight : Flight Call) (c : Call) : Flight Call :=
  { flight with waiters := flight.waiters + 1, callbacks := flight.callbacks ++ [c] }

/-- `flight->result = result; flight->ready = true`. -/
def resolve (flight : Flight Call) (result : Bytes) : Flight Call :=
  { flight with result := result, ready := true }

end Flight

/-- The program point of a doSingleFlight call, with its locals. -/
inductive DoCall (Call : Type*)
  | idle
  /-- Left the first block with another call's flight. -/
  | joining (key : Bytes) (flight : Call)
  /-- Holds the flight's mutex, about to run `on_result(flight->result)`. -/
  | calling (key : Bytes) (flight : Call) (result : Bytes)
  /-- Returned `Result::IS_LEADER`. -/
  | leader (key : Bytes)
  /-- Returned `Result::IS_WAITER`. -/
  | waiter (key : Bytes) (flight : Call)
  /-- Its own `on_result` threw out of doSingleFlight. -/
  | threw (key : Bytes) (flight : Call)
deriving DecidableEq, Repr

/-- An exception of `on_result` leaves doSingleFlight, since only notifyResult catches. -/
def DoCall.after (key : Bytes) (flight : Call) : Outcome → DoCall Call
  | .returned => .waiter key flight
  | .threw => .threw key flight

/-- The program point of a notifyResult call, with its locals. -/
inductive NotifyCall (Call : Type*)
  | idle
  /-- Found a flight under the key. -/
  | publishing (key result : Bytes) (flight : Call)
  /-- Published; `callbacks` are those of its snapshot still to be run. -/
  | notifying (key result : Bytes) (flight : Call) (callbacks : List Call)
  /-- Returned after publishing to `flight`, or without having found one. -/
  | returned (key result : Bytes) (flight : Option Call)
deriving DecidableEq, Repr

structure State (Call : Type*) where
  flights_ : Bytes → Option Call
  flight : Call → Flight Call
  doing : Call → DoCall Call
  notifying : Call → NotifyCall Call
  invoked : List (Call × Bytes)

/-- `SingleFlight() = default`, with no call in progress. -/
def State.init : State Call :=
  ⟨fun _ => none, fun _ => {}, fun _ => .idle, fun _ => .idle, []⟩

inductive Event (Call : Type*)
  /-- First block of `doSingleFlight(key, on_result)`. -/
  | elect (c : Call) (key : Bytes)
  /-- Second block of doSingleFlight, up to the direct callback. -/
  | join (c : Call)
  /-- `on_result(flight->result)`, and the release of the flight's mutex. -/
  | call_back (c : Call) (outcome : Outcome)
  /-- First block of `notifyResult(key, result)`. -/
  | lookup (n : Call) (key result : Bytes)
  /-- The block that sets `ready` and copies the callbacks. -/
  | publish (n : Call)
  /-- One turn of the callback loop. -/
  | notify (n : Call) (outcome : Outcome)
  /-- The block that erases the key. -/
  | erase (n : Call)
deriving DecidableEq, Repr

variable [DecidableEq Call]

namespace State

/-- `flights_[key] = std::make_shared<Flight>()`, and the call is told `IS_LEADER`. -/
def lead (s : State Call) (c : Call) (key : Bytes) : State Call :=
  { s with
    flights_ := Function.update s.flights_ key (some c)
    flight := Function.update s.flight c {}
    doing := Function.update s.doing c (.leader key) }

def elect (s : State Call) (c : Call) (key : Bytes) : Option (State Call) :=
  if s.doing c = .idle then
    match s.flights_ key with
    | some f =>
      if (s.flight f).mutex = none then
        if (s.flight f).ready then some (s.lead c key)
        else some { s with doing := Function.update s.doing c (.joining key f) }
      else none
    | none => some (s.lead c key)
  else none

def join (s : State Call) (c : Call) : Option (State Call) :=
  match s.doing c with
  | .joining key f =>
    if (s.flight f).mutex = none then
      if (s.flight f).ready then
        some { s with
          flight := Function.update s.flight f ((s.flight f).acquire c)
          doing := Function.update s.doing c (.calling key f (s.flight f).result) }
      else
        some { s with
          flight := Function.update s.flight f ((s.flight f).enrol c)
          doing := Function.update s.doing c (.waiter key f) }
    else none
  | _ => none

def call_back (s : State Call) (c : Call) (outcome : Outcome) : Option (State Call) :=
  match s.doing c with
  | .calling key f result =>
    some { s with
      flight := Function.update s.flight f (s.flight f).release
      doing := Function.update s.doing c (.after key f outcome)
      invoked := s.invoked ++ [(c, result)] }
  | _ => none

def lookup (s : State Call) (n : Call) (key result : Bytes) : Option (State Call) :=
  if s.notifying n = .idle then
    match s.flights_ key with
    | none => some { s with notifying := Function.update s.notifying n (.returned key result none) }
    | some f => some { s with notifying := Function.update s.notifying n (.publishing key result f) }
  else none

def publish (s : State Call) (n : Call) : Option (State Call) :=
  match s.notifying n with
  | .publishing key result f =>
    if (s.flight f).mutex = none then
      some { s with
        flight := Function.update s.flight f ((s.flight f).resolve result)
        notifying := Function.update s.notifying n
          (.notifying key result f (s.flight f).callbacks) }
    else none
  | _ => none

/-- A `std::exception` from the callback is caught, so the loop goes on either way. -/
def notify (s : State Call) (n : Call) (_outcome : Outcome) : Option (State Call) :=
  match s.notifying n with
  | .notifying key result f (c :: rest) =>
    some { s with
      notifying := Function.update s.notifying n (.notifying key result f rest)
      invoked := s.invoked ++ [(c, result)] }
  | _ => none

def erase (s : State Call) (n : Call) : Option (State Call) :=
  match s.notifying n with
  | .notifying key result f [] =>
    some { s with
      flights_ := Function.update s.flights_ key none
      notifying := Function.update s.notifying n (.returned key result (some f)) }
  | _ => none

def step? (s : State Call) : Event Call → Option (State Call)
  | .elect c key => s.elect c key
  | .join c => s.join c
  | .call_back c outcome => s.call_back c outcome
  | .lookup n key result => s.lookup n key result
  | .publish n => s.publish n
  | .notify n outcome => s.notify n outcome
  | .erase n => s.erase n

end State

end SingleFlight

end FlightProxy
