import FlightProxy.Model.Redis
import FlightProxy.Transition.Path

/-! # What redis_mutex_ guards

The lock is held as the program points say, and `redis_ctx_` changes only under the lock in exclusive
mode. So a redisCommand in progress is on the context of that moment, and one under the lock in exclusive mode
is the only one.
-/

namespace FlightProxy.Redis

open Sync Transition

/-- The context of the redisCommand that the call is in or before. -/
def Point.ctx : Point → Option ℕ
  | .locked _ _ ctx | .waiting _ _ ctx => some ctx
  | _ => none

@[simp] theorem mode_result (cmd : Command) (reply : Option Reply) : (cmd.result reply).mode = none := by
  unfold Command.result
  split <;> rfl

@[simp] theorem ctx_result (cmd : Command) (reply : Option Reply) : (cmd.result reply).ctx = none := by
  unfold Command.result
  split <;> rfl

theorem mode_of_ctx {p : Point} {ctx : ℕ} (on : p.ctx = some ctx) : p.mode ≠ none := by
  cases p with
  | locked cmd again ctx => simp [Point.mode]
  | waiting cmd again ctx => simp [Point.mode]
  | _ => contradiction

variable {Call : Type*}

structure Guarded (s : State Call) : Prop where
  guards : s.redis_mutex_.Guards (Point.mode ∘ s.point)
  current : ∀ {c ctx}, (s.point c).ctx = some ctx → s.redis_ctx_ = some ctx

theorem guarded_init (redis : Bytes → Option Bytes) :
    Guarded ({ redis := redis } : State Call) :=
  ⟨SharedMutex.guards_init, fun on => by contradiction⟩

variable [DecidableEq Call] {s t : State Call} {e : Event Call} {c d : Call}
  {mutex : SharedMutex Call} {cmd : Command} {enabled connected : Bool} {ctx : ℕ} {kind : Mode}

/-- A step of a call keeps the agreement if the lock and the context follow it. -/
theorem Guarded.of_update (guarded : Guarded s) (c : Call) (next : Point)
    (points : t.point = Function.update s.point c next)
    (guards : t.redis_mutex_.Guards (Function.update (Point.mode ∘ s.point) c next.mode))
    (own : ∀ ctx, next.ctx = some ctx → t.redis_ctx_ = some ctx)
    (others : t.redis_ctx_ = s.redis_ctx_ ∨ ∀ d, d ≠ c → (s.point d).mode = none) : Guarded t := by
  constructor
  · rw [points, Function.comp_update]
    exact guards
  · intro d ctx on
    rw [points] at on
    by_cases same : d = c
    · subst same
      rw [Function.update_self] at on
      exact own ctx on
    · rw [Function.update_of_ne same] at on
      rcases others with kept | alone
      · rw [kept]
        exact guarded.current on
      · exact absurd (alone d same) (mode_of_ctx on)

/-- The call neither locks nor unlocks. -/
theorem Guarded.of_kept (guarded : Guarded s) (c : Call) (next : Point)
    (points : t.point = Function.update s.point c next)
    (mutex : t.redis_mutex_ = s.redis_mutex_) (kept : (s.point c).mode = next.mode)
    (own : ∀ ctx, next.ctx = some ctx → t.redis_ctx_ = some ctx)
    (others : t.redis_ctx_ = s.redis_ctx_ ∨ ∀ d, d ≠ c → (s.point d).mode = none) : Guarded t := by
  have same : Function.update (Point.mode ∘ s.point) c next.mode = Point.mode ∘ s.point := by
    rw [← kept]
    exact Function.update_eq_self c (Point.mode ∘ s.point)
  apply guarded.of_update c next points _ own others
  rw [mutex, same]
  exact guarded.guards

theorem Guarded.of_lock (guarded : Guarded s) (c : Call) (next : Point)
    (points : t.point = Function.update s.point c next)
    (outside : (s.point c).mode = none) (holds : next.mode = some kind)
    (entered : s.redis_mutex_.lock? c kind = some t.redis_mutex_)
    (own : ∀ ctx, next.ctx = some ctx → t.redis_ctx_ = some ctx)
    (others : t.redis_ctx_ = s.redis_ctx_ ∨ ∀ d, d ≠ c → (s.point d).mode = none) : Guarded t := by
  apply guarded.of_update c next points _ own others
  rw [holds]
  exact guarded.guards.lock outside entered

theorem Guarded.of_unlock (guarded : Guarded s) (c : Call) (next : Point)
    (points : t.point = Function.update s.point c next)
    (holds : (s.point c).mode = some kind) (outside : next.mode = none)
    (mutex : t.redis_mutex_ = s.redis_mutex_.unlock c kind)
    (others : t.redis_ctx_ = s.redis_ctx_ ∨ ∀ d, d ≠ c → (s.point d).mode = none) : Guarded t := by
  apply guarded.of_update c next points _ _ others
  · rw [mutex, outside]
    exact guarded.guards.unlock holds
  · intro ctx on
    exact absurd outside (mode_of_ctx on)

omit [DecidableEq Call] in
/-- While a call holds the lock in exclusive mode no other holds it. -/
theorem Guarded.alone (guarded : Guarded s) (holds : (s.point c).mode = some .unique) :
    ∀ d, d ≠ c → (s.point d).mode = none := by
  intro d other
  by_contra held
  exact other (guarded.guards.alone holds held)

omit [DecidableEq Call] in
theorem Guarded.free (guarded : Guarded s) (entered : s.redis_mutex_.lock? c .unique = some mutex) :
    ∀ d, d ≠ c → (s.point d).mode = none := fun d _ => guarded.guards.free entered d

theorem Guarded.enter (guarded : Guarded s) (outside : (s.point c).mode = none)
    (entered : s.enter c cmd enabled = some t) : Guarded t := by
  obtain ⟨mutex, lock, entered⟩ := Option.map_eq_some_iff.mp entered
  have returns : Guarded (s.move c (cmd.result none)) := by
    refine guarded.of_kept c (cmd.result none) rfl rfl ?_ ?_ (.inl rfl)
    · rw [outside, mode_result]
    · intro ctx on
      rw [ctx_result] at on
      contradiction
  cases current : s.redis_ctx_ with
  | none =>
    rw [current] at entered
    rw [← entered]
    exact returns
  | some ctx =>
    rw [current] at entered
    simp only at entered
    split_ifs at entered
    · rw [← entered]
      refine guarded.of_lock c (.locked cmd false ctx) rfl outside rfl lock ?_
        (.inl current.symm)
      intro other on
      exact on
    · rw [← entered]
      exact returns

theorem Guarded.retry {contexts : ℕ → Context} {again : Bool} (guarded : Guarded s)
    (holds : (s.point c).mode = some (cmd.mode again)) :
    Guarded ({ s with contexts := contexts }.retry c cmd again) := by
  have gives : (cmd.mode again) = .unique →
      Guarded ({ s with contexts := contexts }.leave c .unique (cmd.result none)) := by
    intro unique
    rw [unique] at holds
    exact guarded.of_unlock c (cmd.result none) rfl holds (mode_result cmd none) rfl (.inl rfl)
  cases cmd with
  | get redis_key =>
    cases again with
    | false => exact guarded.of_unlock c (.retrying redis_key) rfl holds rfl rfl (.inl rfl)
    | true => exact gives rfl
  | setex redis_key value =>
    cases again with
    | false =>
      exact guarded.of_kept c (.connecting (some (.setex redis_key value))) rfl rfl holds
        (fun ctx on => by contradiction) (.inr (guarded.alone holds))
    | true => exact gives rfl
  | flushdb => exact gives rfl

omit [DecidableEq Call] in
theorem connectRedis_point : (s.connectRedis connected).2.point = s.point := by
  unfold State.connectRedis
  split_ifs <;> rfl

omit [DecidableEq Call] in
theorem connectRedis_redis_mutex_ :
    (s.connectRedis connected).2.redis_mutex_ = s.redis_mutex_ := by
  unfold State.connectRedis
  split_ifs <;> rfl

theorem Guarded.connect (guarded : Guarded s) (taken : s.connect c connected = some t) :
    Guarded t := by
  have points : (s.connectRedis connected).2.point = s.point := connectRedis_point
  have mutex : (s.connectRedis connected).2.redis_mutex_ = s.redis_mutex_ :=
    connectRedis_redis_mutex_
  rw [State.connect] at taken
  cases waits : s.point c with
  | connecting failed =>
    have holds : (s.point c).mode = some .unique := by rw [waits]; rfl
    have alone := guarded.alone holds
    have gives : ∀ next : Point, next.mode = none →
        Guarded ((s.connectRedis connected).2.leave c .unique next) := by
      intro next outside
      refine guarded.of_unlock c next ?_ holds outside ?_ (.inr alone)
      · simp only [State.leave, State.move, points]
      · simp only [State.leave, State.move, mutex]
    rw [waits] at taken
    cases failed with
    | none =>
      obtain rfl := Option.some.inj taken
      exact gives .done rfl
    | some cmd =>
      simp only at taken
      split at taken
      · next after established =>
        split at taken
        · next ctx allocated =>
          obtain rfl := Option.some.inj taken
          rw [established] at points mutex
          have moved : after.point = s.point := points
          refine guarded.of_kept c (.locked cmd true ctx) ?_ mutex ?_ ?_ (.inr alone)
          · simp only [State.move, moved]
          · rw [holds]
            cases cmd <;> rfl
          · intro other on
            obtain rfl := Option.some.inj on
            exact allocated
        · obtain rfl := Option.some.inj taken
          rw [established] at gives
          exact gives _ (mode_result cmd none)
      · next after refused =>
        obtain rfl := Option.some.inj taken
        rw [refused] at gives
        exact gives _ (mode_result cmd none)
  | _ =>
    rw [waits] at taken
    contradiction

theorem Guarded.step (guarded : Guarded s) (taken : s.step? e = some t) : Guarded t := by
  cases e with
  | getL2 c key =>
    simp only [State.step?, State.getL2] at taken
    split at taken
    · next idle => exact guarded.enter (by rw [idle]; rfl) taken
    · contradiction
  | putL2 c key result =>
    simp only [State.step?, State.putL2] at taken
    split at taken
    · next idle => exact guarded.enter (by rw [idle]; rfl) taken
    · contradiction
  | clear c =>
    simp only [State.step?, State.clear] at taken
    split at taken
    · next idle =>
      obtain rfl := Option.some.inj taken
      refine guarded.of_kept c _ rfl rfl ?_ ?_ (.inl rfl)
      · rw [idle]
        split_ifs <;> rfl
      · intro ctx on
        split_ifs at on <;> contradiction
    · contradiction
  | flush c =>
    simp only [State.step?, State.flush] at taken
    split at taken
    · next flushing => exact guarded.enter (by rw [flushing]; rfl) taken
    · contradiction
  | setRedisConfig c host port timeout_ms =>
    simp only [State.step?, State.setRedisConfig] at taken
    split at taken
    · next idle =>
      obtain ⟨mutex, lock, rfl⟩ := Option.map_eq_some_iff.mp taken
      have outside : (s.point c).mode = none := by rw [idle]; rfl
      refine guarded.of_lock c (.connecting none) ?_ outside rfl ?_
        (fun ctx on => by contradiction) (.inr (guarded.free lock))
      · simp only [State.move]
        split_ifs <;> rfl
      · split_ifs <;> exact lock
    · contradiction
  | connect c connected => exact guarded.connect taken
  | send c =>
    simp only [State.step?, State.send] at taken
    split at taken
    · next cmd again ctx locked =>
      split_ifs at taken
      obtain rfl := Option.some.inj taken
      refine guarded.of_kept c (.waiting cmd again ctx) rfl rfl ?_ ?_ (.inl rfl)
      · rw [locked]
        rfl
      · intro other on
        obtain rfl := Option.some.inj on
        exact guarded.current (c := c) (by rw [locked]; rfl)
    · contradiction
  | receive c =>
    simp only [State.step?, State.receive] at taken
    split at taken
    · next cmd again ctx waiting =>
      split at taken
      · next reply replies _ _ =>
        obtain rfl := Option.some.inj taken
        have holds : (s.point c).mode = some (cmd.mode again) := by rw [waiting]; rfl
        exact guarded.of_unlock c (cmd.result (some reply)) rfl holds
          (mode_result cmd (some reply)) rfl (.inl rfl)
      · contradiction
    · contradiction
  | fail c =>
    simp only [State.step?, State.fail] at taken
    split at taken
    · next cmd again ctx locked =>
      obtain rfl := Option.some.inj taken
      exact guarded.retry (by rw [locked]; rfl)
    · next cmd again ctx waiting =>
      obtain rfl := Option.some.inj taken
      exact guarded.retry (by rw [waiting]; rfl)
    · contradiction
  | relock c =>
    simp only [State.step?, State.relock] at taken
    split at taken
    · next redis_key retrying =>
      obtain ⟨mutex, lock, rfl⟩ := Option.map_eq_some_iff.mp taken
      have outside : (s.point c).mode = none := by rw [retrying]; rfl
      exact guarded.of_lock c (.connecting (some (.get redis_key))) rfl outside rfl lock
        (fun ctx on => by contradiction) (.inr (guarded.free lock))
    · contradiction
  | serve ctx =>
    simp only [State.step?, State.serve] at taken
    split at taken
    · obtain rfl := Option.some.inj taken
      exact ⟨guarded.guards, guarded.current⟩
    · contradiction
  | alter redis_key value =>
    obtain rfl := Option.some.inj taken
    exact ⟨guarded.guards, guarded.current⟩

end FlightProxy.Redis
