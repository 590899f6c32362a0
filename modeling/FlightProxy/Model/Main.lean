import FlightProxy.Transition.Path
import Mathlib.Logic.Function.Basic

/-! # The accept loop, the worker threads and the signal handler

The constructor of ProxyServer, its accept handler and shutdown, and main from there on. Each thread
executes its statements one at a time, and a signal may interrupt any thread between two of them, also in
the signal handler. A worker takes the handler of a completed accept or of a completed operation of a
session from the io_context, and waits where there is none; an exception of the handler leaves `run()`,
and ends the worker. Of a session only its operations are kept: starting it begins one, and each of its
handlers any number. What main makes and destroys is
there or not: `fault` records that the signal handler has used a null pointer or an object that main has
destroyed.
-/

namespace FlightProxy.Main

inductive Thread
  | main
  | worker (i : ℕ)
deriving DecidableEq, Repr

/-- The statements of the accept handler, and of do_accept, which it calls. -/
inductive AcceptPoint
  /-- `if (!ec && accepting_.load())`. -/
  | deciding (ec : Bool)
  /-- Making and starting the session. -/
  | starting
  /-- `if (accepting_.load()) do_accept()`. -/
  | again
  /-- do_accept, at `if (!accepting_.load())`. -/
  | testing
  /-- do_accept, at async_accept. -/
  | arming
deriving DecidableEq, Repr

inductive MainPoint
  /-- In the constructor of the server, which calls do_accept. -/
  | constructing (p : AcceptPoint)
  /-- The work guard, the globals and the signal handlers are next. -/
  | installing
  | spawning (k : ℕ)
  | joining (k : ℕ)
  /-- shutdown, at `accepting_.store(false)`. -/
  | storing
  | closing
  /-- `k` globals are null again. -/
  | resetting (k : ℕ)
  | returned
deriving DecidableEq, Repr

inductive WorkerPoint
  | unborn
  /-- In `io_context.run()`, between handlers. -/
  | running
  | accepting (p : AcceptPoint)
  /-- In the handler of a session. -/
  | handling
  | ended (threw : Bool)
deriving DecidableEq, Repr

/-- The statements of the signal handler, with those of shutdown. -/
inductive Frame
  | checking
  | shutting
  | storing
  | closing
  | resetting
  | stopping
deriving DecidableEq, Repr

structure State where
  main : MainPoint := .constructing .testing
  worker : ℕ → WorkerPoint := fun _ => .unborn
  /-- The signal handlers that interrupt each thread, the last one first. -/
  frames : Thread → List Frame := fun _ => []
  accepting_ : Bool := true
  /-- The acceptor is open. -/
  is_open : Bool := true
  /-- The accepts that wait for a connection. -/
  armed : ℕ := 0
  /-- The error codes of the accepts whose handlers can run. -/
  completed : List Bool := []
  /-- The operations of the sessions that have not completed. -/
  operations : ℕ := 0
  /-- The handlers of those that have, which no worker has taken. -/
  handlers : ℕ := 0
  work_guard : Bool := false
  stopped : Bool := false
  g_io_context : Bool := false
  g_work_guard : Bool := false
  g_server : Bool := false
  /-- The io_context, the server and the work guard have not been destroyed. -/
  alive : Bool := true
  /-- How many sessions have been started. -/
  started : ℕ := 0
  fault : Bool := false

inductive Event
  /-- The next statement of main. -/
  | main
  /-- The next statement of a worker's accept handler, or its return from `run()`. -/
  | worker (i : ℕ)
  /-- A worker takes a completed accept. -/
  | take (i : ℕ)
  /-- A worker takes the handler of a session, which begins `k` operations. -/
  | handle (i k : ℕ)
  /-- That handler returns. -/
  | finish (i : ℕ)
  /-- The handler that a worker runs throws a `std::exception`. -/
  | throws (i : ℕ)
  /-- An accept completes, with or without an error. -/
  | complete (ec : Bool)
  /-- An operation of a session completes. -/
  | ready
  | signal (t : Thread)
  /-- The next statement of the signal handler on a thread. -/
  | handler (t : Thread)
deriving DecidableEq, Repr

namespace State

/-- The next statement of the accept handler or do_accept, and the one after it. -/
def accept (s : State) : AcceptPoint → State × Option AcceptPoint
  | .deciding ec => (s, some (if !ec && s.accepting_ then .starting else .again))
  | .starting => ({ s with started := s.started + 1, operations := s.operations + 1 }, some .again)
  | .again => (s, if s.accepting_ then some .testing else none)
  | .testing => (s, if s.accepting_ then some .arming else none)
  | .arming =>
    -- an accept on a closed acceptor completes at once, with an error
    (if s.is_open then { s with armed := s.armed + 1 }
      else { s with completed := s.completed ++ [true] }, none)

def move (s : State) (i : ℕ) (p : WorkerPoint) : State :=
  { s with worker := Function.update s.worker i p }

/-- main returns when its locals have been destroyed. -/
def next_main (num_threads : ℕ) (s : State) : Option State :=
  match s.main with
  | .constructing p =>
    match s.accept p with
    | (s', some q) => some { s' with main := .constructing q }
    | (s', none) => some { s' with main := .installing }
  | .installing =>
    some { s with
      work_guard := true
      g_io_context := true
      g_work_guard := true
      g_server := true
      main := .spawning 0 }
  | .spawning k =>
    if k < num_threads then some { s.move k .running with main := .spawning (k + 1) }
    else some { s with main := .joining 0 }
  | .joining k =>
    if k < num_threads then
      match s.worker k with
      | .ended _ => some { s with main := .joining (k + 1) }
      | _ => none
    else some { s with main := .storing }
  | .storing => some { s with accepting_ := false, main := .closing }
  | .closing => some { s with is_open := false, main := .resetting 0 }
  | .resetting 0 => some { s with g_io_context := false, main := .resetting 1 }
  | .resetting 1 => some { s with g_work_guard := false, main := .resetting 2 }
  | .resetting 2 => some { s with g_server := false, main := .resetting 3 }
  | .resetting _ => some { s with alive := false, main := .returned }
  | .returned => none

def next_worker (s : State) (i : ℕ) : Option State :=
  match s.worker i with
  | .accepting p =>
    match s.accept p with
    | (s', some q) => some (s'.move i (.accepting q))
    | (s', none) => some (s'.move i .running)
  | .running => if s.stopped || !s.work_guard then some (s.move i (.ended false)) else none
  | _ => none

def take (s : State) (i : ℕ) : Option State :=
  match s.worker i, s.completed with
  | .running, ec :: rest =>
    if s.stopped then none
    else some ({ s with completed := rest }.move i (.accepting (.deciding ec)))
  | _, _ => none

def handle (s : State) (i k : ℕ) : Option State :=
  if s.worker i = .running ∧ s.stopped = false ∧ 0 < s.handlers then
    some ({ s with handlers := s.handlers - 1, operations := s.operations + k }.move i .handling)
  else none

def finish (s : State) (i : ℕ) : Option State :=
  if s.worker i = .handling then some (s.move i .running) else none

def throws (s : State) (i : ℕ) : Option State :=
  if s.worker i = .handling ∨ s.worker i = .accepting .starting then some (s.move i (.ended true))
  else none

def complete (s : State) (ec : Bool) : Option State :=
  if 0 < s.armed ∧ (s.is_open = true ∨ ec = true) then
    some { s with armed := s.armed - 1, completed := s.completed ++ [ec] }
  else none

def ready (s : State) : Option State :=
  if 0 < s.operations then
    some { s with operations := s.operations - 1, handlers := s.handlers + 1 }
  else none

/-- The signal handlers are installed, and the thread has not ended. -/
def interruptible (s : State) : Thread → Bool
  | .main =>
    match s.main with
    | .constructing _ | .installing => false
    | _ => true
  | .worker i =>
    match s.worker i with
    | .unborn | .ended _ => false
    | _ => true

def goes (s : State) (t : Thread) (frames : List Frame) : State :=
  { s with frames := Function.update s.frames t frames }

def signal (s : State) (t : Thread) : Option State :=
  if s.interruptible t then some (s.goes t (.checking :: s.frames t)) else none

/-- A global pointer is used. -/
def use (s : State) (pointer : Bool) : State :=
  { s with fault := s.fault || !(pointer && s.alive) }

def handler (s : State) (t : Thread) : Option State :=
  match s.frames t with
  | .checking :: rest =>
    some (s.goes t (if s.g_io_context && s.g_work_guard then .shutting :: rest else rest))
  | .shutting :: rest => some (s.goes t ((if s.g_server then .storing else .resetting) :: rest))
  | .storing :: rest =>
    some ({ s.use s.g_server with accepting_ := false }.goes t (.closing :: rest))
  | .closing :: rest =>
    some ({ s.use s.g_server with is_open := false }.goes t (.resetting :: rest))
  | .resetting :: rest =>
    some ({ s.use s.g_work_guard with work_guard := false }.goes t (.stopping :: rest))
  | .stopping :: rest => some ({ s.use s.g_io_context with stopped := true }.goes t rest)
  | [] => none

/-- A thread that a signal has interrupted waits for the handler. -/
def step? (num_threads : ℕ) (s : State) : Event → Option State
  | .main => if s.frames .main = [] then s.next_main num_threads else none
  | .worker i => if s.frames (.worker i) = [] then s.next_worker i else none
  | .take i => if s.frames (.worker i) = [] then s.take i else none
  | .handle i k => if s.frames (.worker i) = [] then s.handle i k else none
  | .finish i => if s.frames (.worker i) = [] then s.finish i else none
  | .throws i => if s.frames (.worker i) = [] then s.throws i else none
  | .complete ec => s.complete ec
  | .ready => s.ready
  | .signal t => s.signal t
  | .handler t => s.handler t

end State

end FlightProxy.Main
