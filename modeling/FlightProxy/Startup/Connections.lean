import FlightProxy.Model.Startup
import FlightProxy.Config.History
import FlightProxy.Redis.Lifecycle

/-! # Where the process connects to

The constructor of the cache has no host to connect to, so the first connection is the one that main
asks for, and every later one repeats its address. A database port that does not fit into a `short`
reaches the resolver as a negative number; the port that the server listens on survives.
-/

namespace FlightProxy

open Redis Resource Transition
open RedisContext (Connection Address)

namespace RedisContext

variable {Call : Type*} {a : Address} {s t : State Call} {c : Call} {e : Event Call}
  {connection : Connection}

/-- Every attempt goes to this address; without a host there is none. -/
structure Bound (a : Address) (s : State Call) : Prop where
  address : s.address = a
  attempts : ∀ b handle, .acquire b handle ∈ s.log → b = a
  unreachable : a.host = [] → s.redis_ctx_ = none ∧ s.log = []

namespace Bound

/-- Nothing has been attempted yet. -/
theorem fresh (address : s.address = a) (absent : s.redis_ctx_ = none) (silent : s.log = []) :
    Bound a s := by
  refine ⟨address, ?_, fun _ => ⟨absent, silent⟩⟩
  intro b handle member
  rw [silent] at member
  contradiction

/-- What is done with a context is no attempt. -/
theorem call (bound : Bound a s) {action : Resource.Action Address Command} (reachable : a.host ≠ [])
    (quiet : ∀ b handle, action ≠ .acquire b handle) : Bound a (s.call action) := by
  refine ⟨bound.address, ?_, fun empty => absurd empty reachable⟩
  intro b handle member
  rcases List.mem_append.mp member with before | now
  · exact bound.attempts b handle before
  · exact absurd (List.mem_singleton.mp now).symm (quiet b handle)

theorem redisCommand (bound : Bound a s) (cmd : Command) (held : s.redis_ctx_ ≠ none) :
    Bound a (s.redisCommand cmd) := by
  refine bound.call ?_ (by simp)
  intro empty
  exact held (bound.unreachable empty).1

theorem redisFree (bound : Bound a s) : Bound a s.redisFree := by
  unfold State.redisFree
  split
  · next ctx here =>
    have reachable : a.host ≠ [] := by
      intro empty
      rw [(bound.unreachable empty).1] at here
      contradiction
    have quiet : ∀ b handle, (.release ctx : Resource.Action Address Command) ≠ .acquire b handle := by simp
    obtain ⟨address, attempts, -⟩ := bound.call reachable quiet
    exact ⟨address, attempts, fun empty => absurd empty reachable⟩
  · exact bound

theorem disconnectRedis (bound : Bound a s) : Bound a s.disconnectRedis :=
  ⟨bound.redisFree.address, bound.redisFree.attempts, bound.redisFree.unreachable⟩

theorem redisConnectWithTimeout (bound : Bound a s) (reachable : a.host ≠ [])
    (connection : Connection) : Bound a (s.redisConnectWithTimeout connection) := by
  have attempts (handle : Option ℕ) :
      ∀ b handle', .acquire b handle' ∈ (s.call (.acquire s.address handle)).log → b = a := by
    intro b handle' member
    rcases List.mem_append.mp member with before | now
    · exact bound.attempts b handle' before
    · obtain ⟨rfl, -⟩ := Resource.Action.acquire.inj (List.mem_singleton.mp now)
      exact bound.address
  cases connection <;> exact ⟨bound.address, attempts _, fun empty => absurd empty reachable⟩

theorem connectRedis (bound : Bound a s) (connection : Connection) :
    Bound a (s.connectRedis connection).2 := by
  unfold State.connectRedis
  split_ifs with empty
  · exact ⟨bound.address, bound.attempts, bound.unreachable⟩
  · have reachable : a.host ≠ [] := by
      rw [← bound.address]
      change s.redis_host_ ≠ []
      simpa using empty
    have attempted := bound.redisConnectWithTimeout reachable connection
    dsimp only
    split_ifs
    · have given := attempted.redisFree
      exact ⟨given.address, given.attempts, given.unreachable⟩
    · exact ⟨attempted.address, attempted.attempts, attempted.unreachable⟩

theorem retry (bound : Bound a s) (connection : Connection) (cmd : Command) :
    Bound a (s.retry connection cmd).2 := by
  have connected := bound.disconnectRedis.connectRedis connection
  unfold State.retry
  split
  next established after here =>
    rw [here] at connected
    split_ifs with again
    · rw [Bool.and_eq_true] at again
      exact connected.redisCommand cmd (Option.isSome_iff_ne_none.mp again.2)
    · exact connected

variable [DecidableEq Call]

theorem move (bound : Bound a s) (c : Call) (next : Point) : Bound a (s.move c next) :=
  ⟨bound.address, bound.attempts, bound.unreachable⟩

/-- No call but setRedisConfig changes the address. -/
theorem step (bound : Bound a s)
    (fixed : ∀ c host port timeout_ms connection, e ≠ .setRedisConfig c host port timeout_ms connection)
    (taken : s.step? e = some t) : Bound a t := by
  cases e with
  | setRedisConfig c host port timeout_ms connection => exact absurd rfl (fixed c host port timeout_ms connection)
  | getL2 c key reply =>
    simp only [State.step?, State.getL2] at taken
    split at taken
    · split_ifs at taken with absent
      · obtain rfl := Option.some.inj taken
        exact bound.move c _
      · simp only [Bool.or_eq_true, not_or, Option.isNone_iff_eq_none] at absent
        have sent := bound.redisCommand (.get (redis_key key)) absent.1
        split at taken <;> obtain rfl := Option.some.inj taken <;> exact sent.move c _
    · contradiction
  | reconnect c connection reply =>
    simp only [State.step?, State.reconnect] at taken
    split at taken
    · obtain rfl := Option.some.inj taken
      exact (bound.retry connection _).move c _
    · contradiction
  | putL2 c key result reply connection =>
    simp only [State.step?, State.putL2] at taken
    split at taken
    · split_ifs at taken with absent
      · obtain rfl := Option.some.inj taken
        exact bound.move c .done
      · simp only [Bool.or_eq_true, not_or, Option.isNone_iff_eq_none] at absent
        have sent := bound.redisCommand (.setex (redis_key key) result) absent.1
        split at taken
        · obtain rfl := Option.some.inj taken
          exact sent.move c .done
        · obtain rfl := Option.some.inj taken
          exact (sent.retry connection _).move c .done
    · contradiction
  | clear c =>
    simp only [State.step?, State.clear] at taken
    split at taken
    · obtain rfl := Option.some.inj taken
      exact bound.move c _
    · contradiction
  | flush c =>
    simp only [State.step?, State.flush] at taken
    split at taken
    · obtain rfl := Option.some.inj taken
      apply Bound.move
      split_ifs with there
      · exact bound.redisCommand .flushdb (Option.isSome_iff_ne_none.mp there)
      · exact bound
    · contradiction
  | destroy =>
    obtain rfl := Option.some.inj taken
    exact bound.disconnectRedis

end Bound

end RedisContext

namespace Startup

variable {Node : Type} {Call : Type*} [DecidableEq Call] {config : Config} {c : Call}
  {first second : Connection} {r : RedisContext.State Call}

/-- The address that the configuration asks for: none, if Redis is not enabled. -/
def address (config : Config) : Address :=
  if config.redis_enabled_ then
    { host := bytes config.redis_host_
      port := config.redis_port_.toInt
      tv_sec := config.redis_timeout_ms_.toInt.tdiv 1000
      tv_usec := config.redis_timeout_ms_.toInt.tmod 1000 * 1000 }
  else ⟨[], 6379, 1, 0⟩

theorem bound_of_configure (configured : configure config c first second = some r) :
    RedisContext.Bound (address config) r := by
  unfold configure at configured
  unfold address
  split_ifs at configured ⊢ with enabled
  · obtain rfl := Option.some.inj configured
    apply RedisContext.Bound.move
    apply RedisContext.Bound.connectRedis
    exact .fresh rfl rfl rfl
  · -- the cache's own attempt has found no host
    obtain rfl := Option.some.inj configured
    exact .fresh rfl rfl rfl

variable {yaml : Config.Yaml Node} {loaded : Config.Loaded Node} {s : Startup Call}

/-- What main has made of a configuration that it has loaded. -/
theorem main_cases (started : main yaml loaded c first second = some s) :
    ∃ config, config = (Config.loadFromFile yaml loaded .init).2 ∧ config.valid_ = true ∧
      configure config c first second = some s.redis ∧
      s.port = config.listen_port_.toInt16.toUInt16 ∧ s.db_port_ = config.db_port_.toInt16 := by
  refine ⟨_, rfl, ?_⟩
  unfold main at started
  dsimp only at started
  split at started
  · contradiction
  · next succeeded returned =>
    split_ifs at started with stops
    obtain ⟨r, configured, rfl⟩ := Option.map_eq_some_iff.mp started
    refine ⟨?_, configured, rfl, rfl⟩
    have valid := Config.Load.valid_of_run (l := .file loaded) returned
    cases succeeded with
    | true => exact valid
    | false =>
      change (Config.loadFromFile yaml loaded .init).2.valid_ = false at valid
      simp [valid] at stops

/-- A port as a `short`. -/
theorem toInt_toInt16 (port : UInt16) : port.toInt16.toInt =
    if port.toNat < 32768 then (port.toNat : Int) else port.toNat - 65536 := by
  have signed : port.toInt16.toInt = if 2 * port.toNat < 2 ^ 16 then (port.toNat : Int)
      else port.toNat - (2 ^ 16 : ℕ) := BitVec.toInt_eq_toNat_cond port.toBitVec
  rw [signed]
  split_ifs <;> omega

/-- main starts only with a valid configuration. It listens on the configured port, and asks for the
database under the configured port exactly if that is below 32768, and under a negative number
otherwise. In every run of the cache after that, Redis is contacted only if the configuration enables it
and names a host, and then under the configured address alone, with the timeout in seconds and
microseconds. -/
theorem connections_of_run (started : main yaml loaded c first second = some s)
    {es : List (RedisContext.Event Call)} {t : RedisContext.State Call}
    (run : Path RedisContext.State.step? (fun _ e => ∀ c host port timeout_ms connection,
      e ≠ .setRedisConfig c host port timeout_ms connection) s.redis es t) :
    ∃ config, config = (Config.loadFromFile yaml loaded .init).2 ∧ config.valid_ = true ∧
      s.port = config.listen_port_ ∧
      (s.service = config.db_port_.toNat ↔ config.db_port_.toNat < 32768) ∧
      (32768 ≤ config.db_port_.toNat → s.service < 0) ∧
      (config.redis_enabled_ = false ∨ bytes config.redis_host_ = [] → t.log = []) ∧
      ∀ b handle, .acquire b handle ∈ t.log → config.redis_enabled_ = true ∧
        b = { host := bytes config.redis_host_
              port := config.redis_port_.toInt
              tv_sec := config.redis_timeout_ms_.toInt.tdiv 1000
              tv_usec := config.redis_timeout_ms_.toInt.tmod 1000 * 1000 } := by
  obtain ⟨config, loads, valid, configured, port, db_port⟩ := main_cases started
  have bound := run.preserves (I := RedisContext.Bound (address config)) (bound_of_configure configured)
    fun _ _ _ bound fixed taken => bound.step fixed taken
  have service : s.service = if config.db_port_.toNat < 32768 then (config.db_port_.toNat : Int)
      else config.db_port_.toNat - 65536 := by
    rw [Startup.service, db_port, toInt_toInt16]
  have small := config.db_port_.toNat_lt
  refine ⟨config, loads, valid, port.trans (UInt16.toUInt16_toInt16 _), ?_, ?_, ?_, ?_⟩
  · rw [service]
    split_ifs <;> omega
  · intro large
    rw [service, if_neg (Nat.not_lt.mpr large)]
    omega
  · intro unreachable
    apply (bound.unreachable ?_).2
    unfold address
    split_ifs with enabled
    · rcases unreachable with disabled | empty
      · rw [enabled] at disabled
        contradiction
      · exact empty
    · rfl
  · intro b handle member
    have same := bound.attempts b handle member
    unfold address at same
    split_ifs at same with enabled
    · exact ⟨enabled, same⟩
    · have silent := (bound.unreachable (by rw [address, if_neg enabled])).2
      rw [silent] at member
      contradiction

/-- A node is its path, in a document with `database.port: 40000`, and with `enabled: true` and
`host: r` under `cache.l2.redis`. -/
def document : Config.Yaml (List String) where
  get path key := .ok (if path ++ [key] ∈ [["database"], ["database", "port"], ["cache"],
    ["cache", "l2"], ["cache", "l2", "redis"], ["cache", "l2", "redis", "enabled"],
    ["cache", "l2", "redis", "host"]] then some (path ++ [key]) else none)
  as_unsigned_short _ := .ok 40000
  as_unsigned_int _ := .error (.yaml "bad conversion")
  as_size_t _ := .error (.yaml "bad conversion")
  as_int _ := .error (.yaml "bad conversion")
  as_bool _ := .ok true
  as_string _ := .ok "r"

/-- A GET gets no reply, and its call connects again. -/
def reconnecting : List (RedisContext.Event ℕ) :=
  [.getL2 1 [0x61] none, .reconnect 1 .connected none]

/-- Both connections go to the configured host. -/
theorem connections_of_run_run : ∃ (s : Startup ℕ) (t : RedisContext.State ℕ),
    main document (.node []) 0 .null .connected = some s ∧ s.service < 0 ∧ acquired t.log = [0, 1] ∧
      ∀ b handle, .acquire b handle ∈ t.log → b = ⟨[0x72], 6379, 1, 0⟩ := by
  have started : ∃ (s : Startup ℕ) (t : RedisContext.State ℕ),
      main document (.node []) 0 .null .connected = some s ∧
      replay RedisContext.State.step? s.redis reconnecting = some t ∧
      acquired t.log = [0, 1] := by
    refine ⟨_, _, rfl, rfl, ?_⟩
    decide +kernel
  obtain ⟨s, t, started, ran, contexts⟩ := started
  have run : Path RedisContext.State.step? (fun _ e => ∀ c host port timeout_ms connection,
      e ≠ .setRedisConfig c host port timeout_ms connection) s.redis reconnecting t := by
    apply (replay_eq_some_iff.mp ran).along.mono
    rintro _ e _ ⟨-, member⟩ - c host port timeout_ms connection rfl
    simp [reconnecting] at member
  obtain ⟨config, rfl, -, -, -, large, -, attempts⟩ := connections_of_run started run
  refine ⟨s, t, started, large (by decide +kernel), contexts, fun b handle member => ?_⟩
  rw [(attempts b handle member).2]
  decide +kernel

end Startup

end FlightProxy
