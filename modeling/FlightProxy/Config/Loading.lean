import FlightProxy.Model.Config
import FlightProxy.Settings.Reading

/-! # What a document does to the configuration

The nested tests of parseYaml read the settings one after another, each under its path. So a document that
cannot be read at some setting has overwritten those before it and none after it, and the message is that
of the first exception.
-/

namespace FlightProxy.Config

open Settings

/-- What a document can set, in the order in which parseYaml does. -/
inductive Setting
  | listen_port
  | listen_address
  | num_threads
  | db_host
  | db_port
  | pool_min_size
  | pool_max_size
  | pool_idle_timeout_seconds
  | l1_max_size
  | l1_enabled
  | redis_enabled
  | redis_host
  | redis_port
  | redis_timeout_ms
  | log_level
  | log_pattern
  | ssl_enabled
deriving DecidableEq, Repr

namespace Setting

def Value : Setting → Type
  | .listen_port | .db_port => UInt16
  | .num_threads => UInt32
  | .pool_min_size | .pool_max_size | .pool_idle_timeout_seconds | .l1_max_size => UInt64
  | .redis_port | .redis_timeout_ms => Int32
  | .l1_enabled | .redis_enabled | .ssl_enabled => Bool
  | .listen_address | .db_host | .redis_host | .log_level | .log_pattern => String

def path : Setting → List String
  | .listen_port => ["server", "listen_port"]
  | .listen_address => ["server", "listen_address"]
  | .num_threads => ["server", "num_threads"]
  | .db_host => ["database", "host"]
  | .db_port => ["database", "port"]
  | .pool_min_size => ["database", "pool", "min_size"]
  | .pool_max_size => ["database", "pool", "max_size"]
  | .pool_idle_timeout_seconds => ["database", "pool", "idle_timeout_seconds"]
  | .l1_max_size => ["cache", "l1", "max_size"]
  | .l1_enabled => ["cache", "l1", "enabled"]
  | .redis_enabled => ["cache", "l2", "redis", "enabled"]
  | .redis_host => ["cache", "l2", "redis", "host"]
  | .redis_port => ["cache", "l2", "redis", "port"]
  | .redis_timeout_ms => ["cache", "l2", "redis", "timeout_ms"]
  | .log_level => ["logging", "level"]
  | .log_pattern => ["logging", "pattern"]
  | .ssl_enabled => ["ssl", "enabled"]

def order : List Setting :=
  [.listen_port, .listen_address, .num_threads, .db_host, .db_port, .pool_min_size, .pool_max_size,
    .pool_idle_timeout_seconds, .l1_max_size, .l1_enabled, .redis_enabled, .redis_host, .redis_port,
    .redis_timeout_ms, .log_level, .log_pattern, .ssl_enabled]

theorem nodup_order : order.Nodup := by decide

end Setting

def get (c : Config) : (k : Setting) → k.Value
  | .listen_port => c.listen_port_
  | .listen_address => c.listen_address_
  | .num_threads => c.num_threads_
  | .db_host => c.db_host_
  | .db_port => c.db_port_
  | .pool_min_size => c.pool_min_size_
  | .pool_max_size => c.pool_max_size_
  | .pool_idle_timeout_seconds => c.pool_idle_timeout_seconds_
  | .l1_max_size => c.l1_max_size_
  | .l1_enabled => c.l1_enabled_
  | .redis_enabled => c.redis_enabled_
  | .redis_host => c.redis_host_
  | .redis_port => c.redis_port_
  | .redis_timeout_ms => c.redis_timeout_ms_
  | .log_level => c.log_level_
  | .log_pattern => c.log_pattern_
  | .ssl_enabled => c.ssl_enabled_

def set : (k : Setting) → k.Value → Config → Config
  | .listen_port, v, c => { c with listen_port_ := v }
  | .listen_address, v, c => { c with listen_address_ := v }
  | .num_threads, v, c => { c with num_threads_ := v }
  | .db_host, v, c => { c with db_host_ := v }
  | .db_port, v, c => { c with db_port_ := v }
  | .pool_min_size, v, c => { c with pool_min_size_ := v }
  | .pool_max_size, v, c => { c with pool_max_size_ := v }
  | .pool_idle_timeout_seconds, v, c => { c with pool_idle_timeout_seconds_ := v }
  | .l1_max_size, v, c => { c with l1_max_size_ := v }
  | .l1_enabled, v, c => { c with l1_enabled_ := v }
  | .redis_enabled, v, c => { c with redis_enabled_ := v }
  | .redis_host, v, c => { c with redis_host_ := v }
  | .redis_port, v, c => { c with redis_port_ := v }
  | .redis_timeout_ms, v, c => { c with redis_timeout_ms_ := v }
  | .log_level, v, c => { c with log_level_ := v }
  | .log_pattern, v, c => { c with log_pattern_ := v }
  | .ssl_enabled, v, c => { c with ssl_enabled_ := v }

def settings : Fields Config Setting.Value where
  get := get
  set := set
  get_set k v c := by cases k <;> rfl
  get_set_of_ne {j k} v c other := by
    cases k <;> cases j <;> first | rfl | exact absurd rfl other

variable {Node : Type}

/-- `node.as<T>()`, with the type of the setting. -/
def Yaml.as (yaml : Yaml Node) : (k : Setting) → Node → Except Exception k.Value
  | .listen_port | .db_port => yaml.as_unsigned_short
  | .num_threads => yaml.as_unsigned_int
  | .pool_min_size | .pool_max_size | .pool_idle_timeout_seconds | .l1_max_size => yaml.as_size_t
  | .redis_port | .redis_timeout_ms => yaml.as_int
  | .l1_enabled | .redis_enabled | .ssl_enabled => yaml.as_bool
  | .listen_address | .db_host | .redis_host | .log_level | .log_pattern => yaml.as_string

/-- What a document has for a setting. -/
def Yaml.read (yaml : Yaml Node) (config : Node) (k : Setting) : Except Exception (Option k.Value) :=
  convert (yaml.as k) (look yaml.get config k.path)

/-- Reading settings one after another, each under a path from the same node. -/
def Yaml.readAll (yaml : Yaml Node) (node : Node) :
    List (List String × Setting) → Config → Except Exception Unit × Config
  | [], c => (.ok (), c)
  | (path, k) :: items, c =>
    match convert (yaml.as k) (look yaml.get node path) with
    | .error e => (.error e, c)
    | .ok value => yaml.readAll node items (settings.put k value c)

/-- The same settings, from a node further up. -/
def nest (key : String) (items : List (List String × Setting)) : List (List String × Setting) :=
  items.map fun item => (key :: item.1, item.2)

/-- Statements of parseYaml that read these settings. -/
def Reads (yaml : Yaml Node) (node : Node) (items : List (List String × Setting))
    (body : Parse Unit) : Prop :=
  ∀ c, body.run c = yaml.readAll node items c

variable {yaml : Yaml Node} {node config : Node} {key : String} {k : Setting} {body other : Parse Unit}
  {items later : List (List String × Setting)} {c : Config}

theorem Yaml.readAll_append : yaml.readAll node (items ++ later) c =
    match yaml.readAll node items c with
    | (.ok (), c) => yaml.readAll node later c
    | (.error e, c) => (.error e, c) := by
  induction items generalizing c with
  | nil => rfl
  | cons item items ih =>
    obtain ⟨path, k⟩ := item
    rw [List.cons_append]
    cases reads : convert (yaml.as k) (look yaml.get node path) with
    | error e => simp only [readAll, reads]
    | ok value => simp only [readAll, reads, ih]

theorem run_bind {α β : Type} (body : Parse α) (next : α → Parse β) (c : Config) :
    (body >>= next).run c = match body.run c with
      | (.ok a, c) => (next a).run c
      | (.error e, c) => (.error e, c) := by
  change (ExceptT.bind body next) c = match body c with
    | (.ok a, c) => next a c
    | (.error e, c) => (.error e, c)
  simp only [ExceptT.bind, ExceptT.mk, bind, StateT.bind]
  rcases body c with ⟨_ | _, _⟩ <;> rfl

theorem run_lift {α : Type} (e : Except Exception α) (c : Config) :
    (liftM e : Parse α).run c = (e, c) := by
  cases e <;> rfl

/-- Nothing is read below a node that is not defined. -/
theorem Yaml.readAll_nest_none (absent : yaml.get node key = .ok none) :
    yaml.readAll node (nest key items) c = (.ok (), c) := by
  induction items with
  | nil => rfl
  | cons item items ih =>
    obtain ⟨path, k⟩ := item
    simp only [nest, List.map_cons, readAll, look, absent, convert, Fields.put]
    exact ih

theorem Yaml.readAll_nest_some {child : Node} (found : yaml.get node key = .ok (some child)) :
    yaml.readAll node (nest key items) c = yaml.readAll child items c := by
  induction items generalizing c with
  | nil => rfl
  | cons item items ih =>
    obtain ⟨path, k⟩ := item
    simp only [nest, List.map_cons, readAll, look, found]
    cases convert (yaml.as k) (look yaml.get child path) with
    | error e => rfl
    | ok value => exact ih

/-- One statement after another. -/
theorem Reads.seq (first : Reads yaml node items body) (second : Reads yaml node later other) :
    Reads yaml node (items ++ later) (body >>= fun _ => other) := by
  intro c
  rw [Yaml.readAll_append, run_bind, first c]
  rcases yaml.readAll node items c with ⟨_ | _, c'⟩
  · rfl
  · exact second c'

theorem reads_within (yaml : Yaml Node) (node : Node) (key : String) {body : Node → Parse Unit} (nonempty : items ≠ [])
    (reads : ∀ child, Reads yaml child items (body child)) :
    Reads yaml node (nest key items) (within yaml node key body) := by
  intro c
  unfold within
  rw [run_bind, run_lift]
  cases found : yaml.get node key with
  | error e =>
    obtain ⟨⟨path, k⟩, items, rfl⟩ := List.exists_cons_of_ne_nil nonempty
    simp [nest, Yaml.readAll, look, found, convert]
  | ok child =>
    cases child with
    | none => exact (Yaml.readAll_nest_none found).symm
    | some child =>
      rw [Yaml.readAll_nest_some found]
      exact reads child c

theorem reads_field (key : String) (k : Setting) :
    Reads yaml node [([key], k)] (field yaml node key (yaml.as k) (set k)) := by
  refine reads_within yaml node key (List.cons_ne_nil ([], k) []) fun child c => ?_
  rw [run_bind, run_lift]
  simp only [Yaml.readAll, look, convert]
  cases yaml.as k child <;> rfl

/-- The settings of each section, under their names. -/
theorem reads_fields : Reads yaml config (Setting.order.map fun k => (k.path, k))
    (fields yaml config) := by
  have server := reads_within yaml config "server" (by simp) fun server =>
    (reads_field "listen_port" .listen_port).seq
      ((reads_field "listen_address" .listen_address).seq (reads_field "num_threads" .num_threads))
  have pool (db : Node) := reads_within yaml db "pool" (by simp) fun pool =>
    (reads_field "min_size" .pool_min_size).seq
      ((reads_field "max_size" .pool_max_size).seq
        (reads_field "idle_timeout_seconds" .pool_idle_timeout_seconds))
  have database := reads_within yaml config "database" (by simp) fun db =>
    (reads_field "host" .db_host).seq ((reads_field "port" .db_port).seq (pool db))
  have l1 (cache : Node) := reads_within yaml cache "l1" (by simp) fun l1 =>
    (reads_field "max_size" .l1_max_size).seq (reads_field "enabled" .l1_enabled)
  have redis (l2 : Node) := reads_within yaml l2 "redis" (by simp) fun redis =>
    (reads_field "enabled" .redis_enabled).seq
      ((reads_field "host" .redis_host).seq
        ((reads_field "port" .redis_port).seq (reads_field "timeout_ms" .redis_timeout_ms)))
  have l2 (cache : Node) := reads_within yaml cache "l2" (by simp [nest]) redis
  have cache := reads_within yaml config "cache" (by simp [nest]) fun cache =>
    (l1 cache).seq (l2 cache)
  have logging := reads_within yaml config "logging" (by simp) fun logging =>
    (reads_field "level" .log_level).seq (reads_field "pattern" .log_pattern)
  have ssl := reads_within yaml config "ssl" (by simp) fun ssl =>
    reads_field "enabled" .ssl_enabled
  exact server.seq (database.seq (cache.seq (logging.seq ssl)))

theorem Yaml.readAll_order {ks : List Setting} :
    yaml.readAll config (ks.map fun k => (k.path, k)) c = settings.readAll (yaml.read config) ks c := by
  induction ks generalizing c with
  | nil => rfl
  | cons k ks ih =>
    rw [List.map_cons]
    cases reads : yaml.read config k with
    | error e =>
      have reads' : convert (yaml.as k) (look yaml.get config k.path) = .error e := reads
      simp only [readAll, Fields.readAll, reads, reads']
    | ok value =>
      have reads' : convert (yaml.as k) (look yaml.get config k.path) = .ok value := reads
      simp only [readAll, Fields.readAll, reads, reads', ih]

/-- parseYaml reads the settings in their order. -/
theorem fields_run : (fields yaml config).run c = settings.readAll (yaml.read config) Setting.order c :=
  (reads_fields c).trans Yaml.readAll_order

/-- The outcome of a load is no setting. -/
@[simp] theorem get_with (c : Config) (k : Setting) (valid : Bool) (message : String) :
    get { c with valid_ := valid, error_message_ := message } k = c.get k := by
  cases k <;> rfl

theorem parseYaml_eq : parseYaml yaml config c =
    match settings.readAll (yaml.read config) Setting.order c with
    | (.ok (), c) => (true, { c with valid_ := true, error_message_ := "" })
    | (.error e, c) => fail e c := by
  rw [← fields_run]
  rfl

/-- A document whose settings can all be read sets those that it defines, clears the error and is
valid. Any other sets what it defines up to the first setting that cannot be read, in the order of the
source, and leaves that one and the later ones as they were; it is not valid, and the message is that of
the exception. -/
theorem parseYaml_spec (yaml : Yaml Node) (config : Node) (c : Config) :
    ∃ done rest, Setting.order = done ++ rest ∧
      (∀ k, k ∈ done → ∃ value, yaml.read config k = .ok value ∧
        (parseYaml yaml config c).2.get k = value.getD (c.get k)) ∧
      (∀ k, k ∉ done → (parseYaml yaml config c).2.get k = c.get k) ∧
      (rest = [] ∧ (parseYaml yaml config c).1 = true ∧ (parseYaml yaml config c).2.valid_ = true ∧
          (parseYaml yaml config c).2.error_message_ = "" ∨
        ∃ k later e, rest = k :: later ∧ yaml.read config k = .error e ∧
          (parseYaml yaml config c).1 = false ∧ (parseYaml yaml config c).2.valid_ = false ∧
          (parseYaml yaml config c).2.error_message_ = e.error_message) := by
  obtain ⟨done, rest, split, carried, kept, ends⟩ :=
    settings.readAll_spec (yaml.read config) Setting.nodup_order c
  refine ⟨done, rest, split, ?_⟩
  change ∀ k, k ∈ done → ∃ value, yaml.read config k = .ok value ∧
    get (settings.readAll (yaml.read config) Setting.order c).2 k = value.getD (c.get k) at carried
  change ∀ k, k ∉ done →
    get (settings.readAll (yaml.read config) Setting.order c).2 k = c.get k at kept
  rw [parseYaml_eq]
  cases ran : settings.readAll (yaml.read config) Setting.order c with
  | mk result c' =>
    rw [ran] at carried kept ends
    cases result with
    | ok =>
      rcases ends with ⟨rfl, -⟩ | ⟨k, later, e, -, -, failed⟩
      · refine ⟨?_, ?_, .inl ⟨rfl, rfl, rfl, rfl⟩⟩
        · simpa using carried
        · simpa using kept
      · contradiction
    | error e =>
      rcases ends with ⟨-, succeeded⟩ | ⟨k, later, e', rest, reads, failed⟩
      · contradiction
      · obtain rfl := Except.error.inj failed
        refine ⟨?_, ?_, .inr ⟨k, later, e, rest, reads, rfl, rfl, rfl⟩⟩
        · simpa [fail] using carried
        · simpa [fail] using kept

end FlightProxy.Config
