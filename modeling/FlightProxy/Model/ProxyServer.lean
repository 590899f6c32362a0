import FlightProxy.Model.Session

/-! # ProxyServer: all sessions on one QueryCache

A call of doSingleFlight is named by its session and its number there; the call of
notifyFlightResult that settles it has the same name. A step is a handler of one session or a block
of the cache. The cache takes over where a handler stops at a call, a callback that it invokes runs
in the session that passed it, and the handler goes on once the call has returned. A callback kept
in a flight also keeps its session alive; `destroy` does not wait for that here, so the runs include
those of the program.
-/

namespace FlightProxy

open QueryCache (FlightResult)

namespace QueryCache.State

variable {Call : Type*}

/-- The answer of a doSingleFlight call that has returned. -/
def returned (s : State Call) (c : Call) : Option FlightResult :=
  match s.doing c with
  | .served _ _ => some .CACHE_HIT
  | .flying _ =>
    match s.singleflight_.doing c with
    | .leader _ => some .IS_LEADER
    | .waiter _ _ => some .IS_WAITER
    | _ => none
  | _ => none

/-- The call of notifyFlightResult has returned. -/
def settled (s : State Call) (n : Call) : Bool :=
  match s.singleflight_.notifying n with
  | .returned _ _ _ => true
  | _ => false

/-- The callback that a step invokes, and the value it gets. -/
def invokes (s : State Call) : Event Call → Option (Call × Bytes)
  | .call_back c _ =>
    match s.doing c with
    | .hit _ value => some (c, value)
    | _ => none
  | .flight (.call_back c _) =>
    match s.singleflight_.doing c with
    | .calling _ _ result => some (c, result)
    | _ => none
  | .flight (.notify n _) =>
    match s.singleflight_.notifying n with
    | .notifying _ result _ (c :: _) => some (c, result)
    | _ => none
  | _ => none

end QueryCache.State

structure ProxyServer where
  sessions : ℕ → Session
  cache : QueryCache.State (ℕ × ℕ)

namespace ProxyServer

/-- No connection has been accepted yet. -/
def init (store : Store) : ProxyServer := ⟨fun _ => {}, .init store⟩

inductive Event
  | session (i : ℕ) (e : SessionEvent)
  | cache (e : QueryCache.Event (ℕ × ℕ))
deriving DecidableEq, Repr

/-- A handler that stopped at a call goes on with what the call returned; callbacks are invoked by
the cache only. -/
def permits (p : ProxyServer) (i : ℕ) : SessionEvent → Bool
  | .flight_result result => p.cache.returned (i, (p.sessions i).calls - 1) = some result
  | .notify_returned =>
    match (p.sessions i).server_handler with
    | .notifying call _ _ => p.cache.settled (i, call)
    | .idle => false
  | .on_result _ _ => false
  | _ => true

/-- The cache is entered by the handler that stopped at the call, and on_result never throws. -/
def enters (p : ProxyServer) : QueryCache.Event (ℕ × ℕ) → Bool
  | .getL1_shared c query =>
    match (p.sessions c.1).client_handler with
    | .calling sql_query _ => query = sql_query ∧ c.2 = (p.sessions c.1).calls - 1
    | .idle => false
  | .putL1 n query result => (p.sessions n.1).server_handler = .notifying n.2 query result
  | .call_back _ outcome | .flight (.call_back _ outcome) | .flight (.notify _ outcome) =>
    outcome = .returned
  | _ => true

/-- A step of one session. -/
def act (p : ProxyServer) (i : ℕ) (e : SessionEvent) : Option ProxyServer :=
  ((p.sessions i).step? e).map fun s => { p with sessions := Function.update p.sessions i s }

/-- The callback runs in the session that passed it. -/
def deliver (p : ProxyServer) : Option ((ℕ × ℕ) × Bytes) → Option ProxyServer
  | some (c, value) => p.act c.1 (.on_result c.2 value)
  | none => some p

def step? (md5 : Bytes → Bytes) (p : ProxyServer) : Event → Option ProxyServer
  | .session i e => if p.permits i e then p.act i e else none
  | .cache e =>
    if p.enters e then
      (p.cache.step? md5 e).bind fun cache => { p with cache := cache }.deliver (p.cache.invokes e)
    else none

end ProxyServer

end FlightProxy
