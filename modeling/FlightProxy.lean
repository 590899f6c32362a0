import FlightProxy.SingleFlight.Delivery
import FlightProxy.L1.Linked
import FlightProxy.Model.QueryCache
import FlightProxy.SingleFlight.Election
import FlightProxy.L1.Roomy
import FlightProxy.QueryCache.Steps
import FlightProxy.QueryCache.ExecutedOnce
import FlightProxy.Model.Session
import FlightProxy.Segments.Place
import FlightProxy.Session.Bridge
import FlightProxy.Session.History
import FlightProxy.Session.Interception
import FlightProxy.Session.Conservation
import FlightProxy.Session.Lane
import FlightProxy.Framing.Split
import FlightProxy.Session.Attribution
import FlightProxy.Model.ProxyServer
import FlightProxy.ProxyServer.Steps
import FlightProxy.SingleFlight.Custody
import FlightProxy.ProxyServer.Abandonment
import FlightProxy.QueryCache.Calls
import FlightProxy.Session.Negotiation
import FlightProxy.Session.Tokens
import FlightProxy.Session.Modes
import FlightProxy.SingleFlight.Callbacks
import FlightProxy.Session.Buffers
import FlightProxy.ProxyServer.Calls
import FlightProxy.Session.Relay
import FlightProxy.ProxyServer.Relay
import FlightProxy.SingleFlight.Isolation
import FlightProxy.L1.Linearizable
import FlightProxy.Model.Stores
import FlightProxy.Stores.Steps
import FlightProxy.Stores.Agreement
import FlightProxy.Stores.Barrier
import FlightProxy.QueryCache.Provenance
import FlightProxy.ProxyServer.Notifications
import FlightProxy.QueryCache.LatestPut
import FlightProxy.Session.Lifetime
import FlightProxy.ProxyServer.ServedCached
import FlightProxy.Session.Balance
import FlightProxy.Session.ReplyOrder
import FlightProxy.ProxyServer.Replies
import FlightProxy.ProxyServer.Settlement
import FlightProxy.SingleFlight.Waiters
import FlightProxy.Session.Holding
import FlightProxy.Session.Serving
import FlightProxy.ProxyServer.Attendance
import FlightProxy.ProxyServer.Conservation
import FlightProxy.Session.AfterClose
import FlightProxy.L1.Capacity
import FlightProxy.L1.Inclusion
import FlightProxy.SingleFlight.Handshake
import FlightProxy.L1.Switch
import FlightProxy.QueryCache.Statistics
import FlightProxy.Model.Redis
import FlightProxy.Redis.Guarded
import FlightProxy.Redis.Exclusive
import FlightProxy.Session.Decoding
import FlightProxy.ProxyServer.Wholeness
import FlightProxy.QueryCache.Isolation
import FlightProxy.Transition.Unwinding
import FlightProxy.ProxyServer.Isolation
import FlightProxy.ProxyServer.Tenants
import FlightProxy.Model.RedisContext
import FlightProxy.Redis.Lifecycle
import FlightProxy.Model.Database
import FlightProxy.ProxyServer.Schedules
import FlightProxy.ProxyServer.Writes
import FlightProxy.ProxyServer.Elections
import FlightProxy.Transition.Progress
import FlightProxy.Memo.Machine
import FlightProxy.ProxyServer.Answers
import FlightProxy.Session.Receipts
import FlightProxy.ProxyServer.Receipts
import FlightProxy.ProxyServer.Transparency
import FlightProxy.SingleFlight.Progress
import FlightProxy.QueryCache.Progress
import FlightProxy.Model.Threads
import FlightProxy.Sync.Mutex
import FlightProxy.Resource.Counted
import FlightProxy.Threads.Steps
import FlightProxy.Threads.Lifetime
import FlightProxy.Threads.Atomicity
import FlightProxy.Threads.Progress
import FlightProxy.Model.Main
import FlightProxy.Main.Lifecycle
import FlightProxy.Main.Accepting
import FlightProxy.Main.Shutdown
import FlightProxy.Config.History
import FlightProxy.Model.Startup
import FlightProxy.Startup.Connections
