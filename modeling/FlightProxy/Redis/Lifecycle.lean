import FlightProxy.Model.RedisContext
import FlightProxy.Transition.Path

/-! # The life of a context

`redis_ctx_` owns the one context that is not freed. connectRedis writes over it, but each of its
callers has given it up before, so nothing is lost; a call of getL2 that locks again finds the context
of that moment, which another call may have put there.
-/

namespace FlightProxy.RedisContext

open Redis Resource Transition

variable {Call : Type*}

namespace State

/-- `redis_ctx_` owns its context, and Redis is enabled while there is one. -/
structure Tracked (s : State Call) : Prop where
  owns : Owns s.log s.redis_ctx_ s.fresh
  enabled : s.redis_enabled_ = s.redis_ctx_.isSome

variable {s t : State Call} {c : Call} {e : Event Call} {connection : Connection}

theorem Tracked.redisCommand (tracked : s.Tracked) (cmd : Command) (some : s.redis_ctx_ ≠ none) :
    (s.redisCommand cmd).Tracked := by
  obtain ⟨owns, enabled⟩ := tracked
  refine ⟨?_, enabled⟩
  obtain ⟨ctx, here⟩ := Option.ne_none_iff_exists'.mp some
  simp only [State.redisCommand, call, here] at owns ⊢
  exact owns.use

@[simp] theorem redisFree_redis_ctx_ (s : State Call) : s.redisFree.redis_ctx_ = none := by
  unfold redisFree
  split
  · rfl
  · assumption

/-- Whatever the context was, it is given up. -/
theorem owns_redisFree (owns : Owns s.log s.redis_ctx_ s.fresh) :
    Owns s.redisFree.log none s.redisFree.fresh := by
  unfold redisFree
  split
  · next ctx here =>
    rw [here] at owns
    exact owns.release
  · next none =>
    rwa [none] at owns

@[simp] theorem disconnectRedis_redis_ctx_ (s : State Call) : s.disconnectRedis.redis_ctx_ = none :=
  s.redisFree_redis_ctx_

theorem Tracked.disconnectRedis (tracked : s.Tracked) : s.disconnectRedis.Tracked := by
  have given := owns_redisFree tracked.owns
  constructor
  · simpa only [State.disconnectRedis, redisFree_redis_ctx_] using given
  · simp only [State.disconnectRedis, redisFree_redis_ctx_, Option.isSome_none]

/-- A connection attempt without a context owns the one that it gets, if it does. -/
theorem owns_redisConnectWithTimeout (owns : Owns s.log none s.fresh) (connection : Connection) :
    Owns (s.redisConnectWithTimeout connection).log (s.redisConnectWithTimeout connection).redis_ctx_
      (s.redisConnectWithTimeout connection).fresh := by
  cases connection with
  | null => exact owns.refused
  | failed => exact owns.acquire
  | connected => exact owns.acquire

/-- connectRedis keeps track, if no context is there to be written over. -/
theorem Tracked.connectRedis (tracked : s.Tracked) (none : s.redis_ctx_ = none)
    (connection : Connection) : (s.connectRedis connection).2.Tracked := by
  obtain ⟨owns, enabled⟩ := tracked
  rw [none] at owns
  have connected := owns_redisConnectWithTimeout owns connection
  simp only [State.connectRedis]
  split_ifs with host refused
  · constructor
    · rwa [← none] at owns
    · rw [none]
      rfl
  · have given := owns_redisFree connected
    constructor
    · simpa only [redisFree_redis_ctx_] using given
    · simp only [redisFree_redis_ctx_, Option.isSome_none]
  · constructor
    · exact connected
    · simp only [Bool.or_eq_true, not_or, Option.isNone_iff_eq_none] at refused
      exact (Option.isSome_iff_ne_none.mpr refused.1).symm

/-- The second attempt is on the context of the new connection, if there is one. -/
theorem Tracked.retry (tracked : s.Tracked) (connection : Connection) (cmd : Command) :
    (s.retry connection cmd).2.Tracked := by
  have connected := tracked.disconnectRedis.connectRedis s.disconnectRedis_redis_ctx_ connection
  unfold State.retry
  split
  next established after here =>
    rw [here] at connected
    split_ifs with again
    · rw [Bool.and_eq_true] at again
      exact connected.redisCommand cmd (Option.isSome_iff_ne_none.mp again.2)
    · exact connected

variable [DecidableEq Call]

theorem Tracked.move (tracked : s.Tracked) (c : Call) (next : Point) : (s.move c next).Tracked :=
  ⟨tracked.owns, tracked.enabled⟩

theorem Tracked.step (tracked : s.Tracked) (taken : s.step? e = some t) : t.Tracked := by
  cases e with
  | setRedisConfig c host port timeout_ms connection =>
    simp only [step?, setRedisConfig] at taken
    split at taken
    · obtain rfl := Option.some.inj taken
      apply Tracked.move
      have configured : Tracked { s with
          redis_host_ := host, redis_port_ := port, redis_timeout_ms_ := timeout_ms } :=
        ⟨tracked.owns, tracked.enabled⟩
      split_ifs with there
      · exact configured.disconnectRedis.connectRedis (disconnectRedis_redis_ctx_ _) connection
      · exact configured.connectRedis (Option.not_isSome_iff_eq_none.mp there) connection
    · contradiction
  | getL2 c key reply =>
    simp only [step?, getL2] at taken
    split at taken
    · split_ifs at taken with absent
      · obtain rfl := Option.some.inj taken
        exact tracked.move c _
      · simp only [Bool.or_eq_true, not_or, Option.isNone_iff_eq_none] at absent
        have sent := tracked.redisCommand (.get (redis_key key)) absent.1
        split at taken
        · obtain rfl := Option.some.inj taken
          exact sent.move c _
        · obtain rfl := Option.some.inj taken
          exact sent.move c _
    · contradiction
  | reconnect c connection reply =>
    simp only [step?, reconnect] at taken
    split at taken
    · obtain rfl := Option.some.inj taken
      exact (tracked.retry connection _).move c _
    · contradiction
  | putL2 c key result reply connection =>
    simp only [step?, putL2] at taken
    split at taken
    · split_ifs at taken with absent
      · obtain rfl := Option.some.inj taken
        exact tracked.move c .done
      · simp only [Bool.or_eq_true, not_or, Option.isNone_iff_eq_none] at absent
        have sent := tracked.redisCommand (.setex (redis_key key) result) absent.1
        split at taken
        · obtain rfl := Option.some.inj taken
          exact sent.move c .done
        · obtain rfl := Option.some.inj taken
          exact (sent.retry connection _).move c .done
    · contradiction
  | clear c =>
    simp only [step?, clear] at taken
    split at taken
    · obtain rfl := Option.some.inj taken
      exact tracked.move c _
    · contradiction
  | flush c =>
    simp only [step?, flush] at taken
    split at taken
    · obtain rfl := Option.some.inj taken
      apply Tracked.move
      split_ifs with there
      · exact tracked.redisCommand .flushdb (Option.isSome_iff_ne_none.mp there)
      · exact tracked
    · contradiction
  | destroy =>
    obtain rfl := Option.some.inj taken
    exact tracked.disconnectRedis

omit [DecidableEq Call] in
theorem tracked_init (connection : Connection) : (QueryCache connection : State Call).Tracked := by
  have empty : ({} : State Call).Tracked := ⟨owns_nil, rfl⟩
  exact empty.connectRedis rfl connection

/-- After construction, between the blocks under `redis_mutex_`: Redis is enabled exactly while there
is a context; every context that hiredis has returned is the current one and not freed, or has been
freed once; and every command was issued on a context that had been returned and not freed. -/
theorem context_of_run (connection : Connection) {es : List (Event Call)}
    (run : Path step? always (QueryCache connection) es t) :
    (t.redis_enabled_ = true ↔ t.redis_ctx_ ≠ none) ∧
      (∀ ctx, t.redis_ctx_ = some ctx → ctx ∈ acquired t.log) ∧
      (∀ ctx ∈ acquired t.log, (t.redis_ctx_ = some ctx ∧ (released t.log).count ctx = 0) ∨
        (t.redis_ctx_ ≠ some ctx ∧ (released t.log).count ctx = 1)) ∧
      ∀ before handle cmd after, t.log = before ++ .use handle cmd :: after →
        ∃ ctx, handle = some ctx ∧ ctx ∈ acquired before ∧ ctx ∉ released before := by
  have tracked : t.Tracked := by
    apply run.preserves (I := Tracked) (tracked_init connection)
    intro s e s' tracked _ taken
    exact tracked.step taken
  refine ⟨?_, fun ctx here => (tracked.owns.current ctx here).1,
    fun ctx member => tracked.owns.held_or_released member, tracked.owns.valid⟩
  rw [tracked.enabled, Option.isSome_iff_ne_none]

/-- A GET gets no reply; before its call locks again, a SETEX gets none either and replaces the
context; the call of getL2 then replaces that one, after an attempt that fails. -/
def replaced : List (Event ℕ) :=
  [.setRedisConfig 0 [0x68] 6379 1000 .connected, .getL2 1 [0x61] none,
    .putL2 2 [0x62] [0x01] none .connected, .reconnect 1 .failed none,
    .setRedisConfig 3 [0x68] 6379 1000 .connected, .clear 4, .flush 4, .destroy]

/-- Four contexts, each freed once. -/
theorem context_of_run_run : ∃ t : State ℕ, acquired t.log = [0, 1, 2, 3] ∧ t.redis_ctx_ = none ∧
    ∀ ctx ∈ acquired t.log, (released t.log).count ctx = 1 := by
  have run : ∃ t : State ℕ, Path step? always (QueryCache .null) replaced t ∧
      acquired t.log = [0, 1, 2, 3] ∧ t.redis_ctx_ = none := by
    exact ⟨_, replay_eq_some_iff.mp rfl, by decide +kernel, by decide +kernel⟩
  obtain ⟨t, path, contexts, none⟩ := run
  obtain ⟨-, -, settled, -⟩ := context_of_run .null path
  refine ⟨t, contexts, none, fun ctx member => ?_⟩
  rcases settled ctx member with ⟨current, -⟩ | ⟨-, once⟩
  · rw [none] at current
    contradiction
  · exact once

end State

end FlightProxy.RedisContext
