import FlightProxy.Model.Config
import FlightProxy.Model.L1
import FlightProxy.Model.RedisContext

/-! # From the configuration to the server

main until it starts its threads: what it takes from the configuration, and the conversions of the
ports on the way, which pass through a `short`.
-/

namespace FlightProxy

open RedisContext (Connection)

/-- What main has made of the configuration. -/
structure Startup (Call : Type*) where
  l1 : L1
  redis : RedisContext.State Call
  listen_address : String
  /-- The port of the acceptor's endpoint. -/
  port : UInt16
  db_host_ : String
  db_port_ : Int16
  num_threads : UInt32

namespace Startup

variable {Node : Type} {Call : Type*} [DecidableEq Call]

/-- The characters of a `std::string`. -/
def bytes (s : String) : Bytes := s.toUTF8.data.toList

/-- The setters that main calls on the cache, which has made its own attempt to connect before. -/
def configure (config : Config) (c : Call) (first second : Connection) :
    Option (RedisContext.State Call) :=
  if config.redis_enabled_ then
    (RedisContext.State.QueryCache first).setRedisConfig c (bytes config.redis_host_)
      config.redis_port_.toInt config.redis_timeout_ms_.toInt second
  else some (RedisContext.State.QueryCache first)

/-- `none` is `return 1`; `c` is the call of setRedisConfig. -/
def main (yaml : Config.Yaml Node) (loaded : Config.Loaded Node) (c : Call)
    (first second : Connection) : Option (Startup Call) :=
  let config := (Config.loadFromFile yaml loaded .init).2
  match (Config.loadFromFile yaml loaded .init).1 with
  | .error _ => none
  | .ok succeeded =>
    if !succeeded && !config.valid_ then none
    else (configure config c first second).map fun redis =>
      { l1 := (({} : L1).setL1MaxSize config.l1_max_size_.toNat).setL1Enabled config.l1_enabled_
        redis
        listen_address := config.listen_address_
        -- ProxyServer takes a `short`, the endpoint an `unsigned short`
        port := config.listen_port_.toInt16.toUInt16
        db_host_ := config.db_host_
        db_port_ := config.db_port_.toInt16
        num_threads := config.num_threads_ }

/-- What `std::to_string(db_port_)` prints for the resolver. -/
def service (s : Startup Call) : Int := s.db_port_.toInt

end Startup

end FlightProxy
