/-! # The configuration and how it is loaded

yaml-cpp is a parameter: what it finds under a key of a node, and what it makes of a scalar, each of
which may throw. A field that has been assigned keeps its value when a later one throws.
-/

namespace FlightProxy

namespace Config

/-- An exception, with its `what()`. -/
inductive Exception
  /-- A `YAML::Exception`. -/
  | yaml (what : String)
  /-- Another `std::exception`. -/
  | other (what : String)
deriving DecidableEq, Repr

def Exception.error_message : Exception → String
  | .yaml what => "YAML parse error: " ++ what
  | .other what => "Config error: " ++ what

/-- The part of yaml-cpp that is used. -/
structure Yaml (Node : Type) where
  /-- `node[key]`, if it is defined. -/
  get : Node → String → Except Exception (Option Node)
  as_unsigned_short : Node → Except Exception UInt16
  as_unsigned_int : Node → Except Exception UInt32
  as_size_t : Node → Except Exception UInt64
  as_int : Node → Except Exception Int32
  as_bool : Node → Except Exception Bool
  as_string : Node → Except Exception String

/-- What `YAML::LoadFile` or `YAML::Load` returns or throws. -/
inductive Loaded (Node : Type)
  | node (config : Node)
  /-- A `YAML::BadFile`, which is a `YAML::Exception`. -/
  | bad_file (what : String)
  | throws (e : Exception)
deriving DecidableEq, Repr

end Config

structure Config where
  listen_port_ : UInt16 := 6000
  listen_address_ : String := "0.0.0.0"
  num_threads_ : UInt32 := 4
  db_host_ : String := "127.0.0.1"
  db_port_ : UInt16 := 5432
  pool_min_size_ : UInt64 := 5
  pool_max_size_ : UInt64 := 20
  pool_idle_timeout_seconds_ : UInt64 := 300
  l1_max_size_ : UInt64 := 1000
  l1_enabled_ : Bool := true
  redis_enabled_ : Bool := false
  redis_host_ : String := "127.0.0.1"
  redis_port_ : Int32 := 6379
  redis_timeout_ms_ : Int32 := 1000
  log_level_ : String := "info"
  log_pattern_ : String := "[%Y-%m-%d %H:%M:%S.%e] [%^%l%$] %v"
  ssl_enabled_ : Bool := true
  valid_ : Bool := false
  error_message_ : String := ""
deriving DecidableEq, Repr

namespace Config

variable {Node : Type} {α : Type}

/-- Statements of parseYaml: they assign fields until one of them throws. -/
abbrev Parse := ExceptT Exception (StateM Config)

/-- `if (node[key]) { ... }`. -/
def within (yaml : Yaml Node) (node : Node) (key : String) (body : Node → Parse Unit) :
    Parse Unit := do
  match ← (yaml.get node key : Except _ _) with
  | some child => body child
  | none => pure ()

/-- `if (node[key]) { field = node[key].as<T>(); }`. -/
def field (yaml : Yaml Node) (node : Node) (key : String) (as : Node → Except Exception α)
    (assign : α → Config → Config) : Parse Unit :=
  within yaml node key fun child => do
    let value ← (as child : Except _ _)
    modify (assign value)

/-- The `try` block of parseYaml. -/
def fields (yaml : Yaml Node) (config : Node) : Parse Unit := do
  within yaml config "server" fun server => do
    field yaml server "listen_port" yaml.as_unsigned_short fun v c => { c with listen_port_ := v }
    field yaml server "listen_address" yaml.as_string fun v c => { c with listen_address_ := v }
    field yaml server "num_threads" yaml.as_unsigned_int fun v c => { c with num_threads_ := v }
  within yaml config "database" fun db => do
    field yaml db "host" yaml.as_string fun v c => { c with db_host_ := v }
    field yaml db "port" yaml.as_unsigned_short fun v c => { c with db_port_ := v }
    within yaml db "pool" fun pool => do
      field yaml pool "min_size" yaml.as_size_t fun v c => { c with pool_min_size_ := v }
      field yaml pool "max_size" yaml.as_size_t fun v c => { c with pool_max_size_ := v }
      field yaml pool "idle_timeout_seconds" yaml.as_size_t fun v c =>
        { c with pool_idle_timeout_seconds_ := v }
  within yaml config "cache" fun cache => do
    within yaml cache "l1" fun l1 => do
      field yaml l1 "max_size" yaml.as_size_t fun v c => { c with l1_max_size_ := v }
      field yaml l1 "enabled" yaml.as_bool fun v c => { c with l1_enabled_ := v }
    within yaml cache "l2" fun l2 =>
      within yaml l2 "redis" fun redis => do
        field yaml redis "enabled" yaml.as_bool fun v c => { c with redis_enabled_ := v }
        field yaml redis "host" yaml.as_string fun v c => { c with redis_host_ := v }
        field yaml redis "port" yaml.as_int fun v c => { c with redis_port_ := v }
        field yaml redis "timeout_ms" yaml.as_int fun v c => { c with redis_timeout_ms_ := v }
  within yaml config "logging" fun logging => do
    field yaml logging "level" yaml.as_string fun v c => { c with log_level_ := v }
    field yaml logging "pattern" yaml.as_string fun v c => { c with log_pattern_ := v }
  within yaml config "ssl" fun ssl =>
    field yaml ssl "enabled" yaml.as_bool fun v c => { c with ssl_enabled_ := v }

def fail (e : Exception) (c : Config) : Bool × Config :=
  (false, { c with error_message_ := e.error_message, valid_ := false })

def parseYaml (yaml : Yaml Node) (config : Node) (c : Config) : Bool × Config :=
  match (fields yaml config).run c with
  | (.ok (), c) => (true, { c with valid_ := true, error_message_ := "" })
  | (.error e, c) => fail e c

def setDefaults (c : Config) : Config := { c with valid_ := true }

/-- `Config()`. -/
def init : Config := setDefaults {}

/-- What a load does without a node; nothing catches another exception than yaml-cpp's. -/
def caught (e : Exception) (c : Config) : Except Exception Bool × Config :=
  match e with
  | .yaml what => (.ok false, (fail (.yaml what) c).2)
  | .other what => (.error (.other what), c)

def loadFromFile (yaml : Yaml Node) (loaded : Loaded Node) (c : Config) :
    Except Exception Bool × Config :=
  match loaded with
  | .node config => (.ok (parseYaml yaml config c).1, (parseYaml yaml config c).2)
  | .bad_file _ => (.ok true, setDefaults c)
  | .throws e => caught e c

def loadFromString (yaml : Yaml Node) (loaded : Loaded Node) (c : Config) :
    Except Exception Bool × Config :=
  match loaded with
  | .node config => (.ok (parseYaml yaml config c).1, (parseYaml yaml config c).2)
  | .bad_file what => caught (.yaml what) c
  | .throws e => caught e c

end Config

end FlightProxy
