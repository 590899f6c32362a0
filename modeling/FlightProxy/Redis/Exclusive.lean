import FlightProxy.Redis.Guarded
import Mathlib.Data.List.Infix

/-! # Replies of one's own

A context that has no error and on which no command waits has no command and no reply on its way. So a
single redisCommand takes the reply to its own command. In shared mode the lock lets a second one in
between, and then each may take the reply of the other.
-/

namespace FlightProxy.Redis

open Sync Transition

/-- The command whose reply the call waits for, and its context. -/
def Point.asks : Point → Option (Command × Bool × ℕ)
  | .waiting cmd again ctx => some (cmd, again, ctx)
  | _ => none

/-- The value a getL2 returned for its key. -/
def Point.found : Point → Option (Bytes × Bytes)
  | .got redis_key (some value) => some (redis_key, value)
  | _ => none

variable {Call : Type*}

/-- No getL2 calls redisCommand, under the lock in shared mode, while another such waits. -/
def Alone (s : State Call) : Event Call → Prop
  | .send c => (s.point c).mode = some .shared →
      ∀ d, (s.point d).asks ≠ none → (s.point d).mode ≠ some .shared
  | _ => True

/-- No two redisCommand calls on one context are in progress together. -/
def Exclusive (s : State Call) : Prop :=
  ∀ c d cmd cmd' again again' ctx, s.point c = .waiting cmd again ctx →
    s.point d = .waiting cmd' again' ctx → c = d

/-- Redis executes the GET of the call, and holds the value for its key. -/
def Reads (c : Call) (redis_key value : Bytes) (s : State Call) (e : Event Call) : Prop :=
  ∃ again ctx, e = .serve ctx ∧ s.point c = .waiting (.get redis_key) again ctx ∧
    s.redis redis_key = some value

variable [DecidableEq Call]

/-- What a step does to the contexts and to the calls in redisCommand. -/
inductive Effect (s t : State Call) : Event Call → Prop
  | aside (e : Event Call) (c : Call) (next : Point) : t.point = Function.update s.point c next →
      (s.point c).asks = none → next.asks = none → next.found = none →
      t.contexts = s.contexts → t.redis_ctx_ = s.redis_ctx_ ∨ t.redis_ctx_ = none → Effect s t e
  | connected (c : Call) (next : Point) (ctx : ℕ) : t.point = Function.update s.point c next →
      (s.point c).mode = some .unique → (s.point c).asks = none → next.asks = none →
      next.found = none → t.contexts ctx = {} → t.redis_ctx_ = some ctx →
      Effect s t (.connect c true)
  | sent (c : Call) (cmd : Command) (again : Bool) (ctx : ℕ) : s.point c = .locked cmd again ctx →
      t.point = Function.update s.point c (.waiting cmd again ctx) →
      (s.contexts ctx).err = false →
      t.contexts ctx = { s.contexts ctx with commands := (s.contexts ctx).commands ++ [cmd] } →
      t.redis_ctx_ = s.redis_ctx_ → Effect s t (.send c)
  | received (c : Call) (cmd : Command) (again : Bool) (ctx : ℕ) (reply : Reply)
      (replies : List Reply) : s.point c = .waiting cmd again ctx →
      t.point = Function.update s.point c (cmd.result (some reply)) →
      (s.contexts ctx).err = false → (s.contexts ctx).replies = reply :: replies →
      t.contexts ctx = { s.contexts ctx with replies := replies } →
      t.redis_ctx_ = s.redis_ctx_ → Effect s t (.receive c)
  | failed (c : Call) (next : Point) (ctx : ℕ) : (s.point c).ctx = some ctx →
      t.point = Function.update s.point c next → next.asks = none → next.found = none →
      (t.contexts ctx).err = true → t.redis_ctx_ = s.redis_ctx_ ∨ t.redis_ctx_ = none →
      Effect s t (.fail c)
  | served (ctx : ℕ) (cmd : Command) (commands : List Command) : t.point = s.point →
      (s.contexts ctx).commands = cmd :: commands →
      t.contexts = Function.update s.contexts ctx
        { s.contexts ctx with
          commands := commands
          replies := (s.contexts ctx).replies ++ [(exec s.redis cmd).1] } →
      t.redis_ctx_ = s.redis_ctx_ → Effect s t (.serve ctx)
  | altered (redis_key : Bytes) (value : Option Bytes) : t.point = s.point →
      t.contexts = s.contexts → t.redis_ctx_ = s.redis_ctx_ →
      Effect s t (.alter redis_key value)

variable {s t first : State Call} {e : Event Call} {es : List (Event Call)} {c d : Call}
  {cmd : Command} {again enabled connected : Bool} {ctx : ℕ} {redis_key value : Bytes}

theorem asks_result (cmd : Command) (reply : Option Reply) : (cmd.result reply).asks = none := by
  unfold Command.result
  split <;> rfl

theorem found_result_none (cmd : Command) : (cmd.result none).found = none := by
  cases cmd <;> rfl

theorem effect_of_enter (outside : (s.point c).asks = none)
    (entered : s.enter c cmd enabled = some t) : Effect s t e := by
  obtain ⟨mutex, lock, entered⟩ := Option.map_eq_some_iff.mp entered
  cases current : s.redis_ctx_ with
  | none =>
    rw [current] at entered
    rw [← entered]
    exact .aside e c (cmd.result none) rfl outside (asks_result cmd none) (found_result_none cmd) rfl
      (.inl rfl)
  | some ctx =>
    rw [current] at entered
    simp only at entered
    split_ifs at entered
    · rw [← entered]
      exact .aside e c (.locked cmd false ctx) rfl outside rfl rfl rfl (.inl current.symm)
    · rw [← entered]
      exact .aside e c (cmd.result none) rfl outside (asks_result cmd none) (found_result_none cmd)
        rfl (.inl rfl)

theorem effect_of_retry (on : (s.point c).ctx = some ctx) :
    Effect s ({ s with
      contexts := Function.update s.contexts ctx
        { s.contexts ctx with err := true } }.retry c cmd again) (.fail c) := by
  have marked : (Function.update s.contexts ctx
      { s.contexts ctx with err := true } ctx).err = true := by rw [Function.update_self]
  cases cmd with
  | get redis_key =>
    cases again with
    | false => exact .failed c (.retrying redis_key) ctx on rfl rfl rfl marked (.inl rfl)
    | true => exact .failed c (.got redis_key none) ctx on rfl rfl rfl marked (.inl rfl)
  | setex redis_key value =>
    cases again with
    | false =>
      exact .failed c (.connecting (some (.setex redis_key value))) ctx on rfl rfl rfl marked
        (.inr rfl)
    | true => exact .failed c .done ctx on rfl rfl rfl marked (.inl rfl)
  | flushdb => exact .failed c .done ctx on rfl rfl rfl marked (.inl rfl)

theorem effect_of_connect (taken : s.connect c connected = some t) :
    Effect s t (.connect c connected) := by
  rw [State.connect] at taken
  cases waits : s.point c with
  | connecting failed =>
    have holds : (s.point c).mode = some .unique := by rw [waits]; rfl
    have silent : (s.point c).asks = none := by rw [waits]; rfl
    rw [waits] at taken
    by_cases hostless : s.redis_host_.isEmpty = true
    · have refused : s.connectRedis connected = (false, { s with redis_enabled_ := false }) :=
        if_pos hostless
      rw [refused] at taken
      cases failed with
      | none =>
        obtain rfl := Option.some.inj taken
        exact .aside _ c .done rfl silent rfl rfl rfl (.inl rfl)
      | some cmd =>
        obtain rfl := Option.some.inj taken
        exact .aside _ c (cmd.result none) rfl silent (asks_result cmd none) (found_result_none cmd)
          rfl (.inl rfl)
    · cases connected with
      | true =>
        rw [State.connectRedis, if_neg hostless] at taken
        cases failed with
        | none =>
          obtain rfl := Option.some.inj taken
          exact .connected c .done s.fresh rfl holds silent rfl rfl (Function.update_self ..) rfl
        | some cmd =>
          obtain rfl := Option.some.inj taken
          exact .connected c (.locked cmd true s.fresh) s.fresh rfl holds silent rfl rfl
            (Function.update_self ..) rfl
      | false =>
        rw [State.connectRedis, if_neg hostless] at taken
        cases failed with
        | none =>
          obtain rfl := Option.some.inj taken
          exact .aside _ c .done rfl silent rfl rfl rfl (.inr rfl)
        | some cmd =>
          obtain rfl := Option.some.inj taken
          exact .aside _ c (cmd.result none) rfl silent (asks_result cmd none)
            (found_result_none cmd) rfl (.inr rfl)
  | _ =>
    rw [waits] at taken
    contradiction

theorem effect_of_step (taken : s.step? e = some t) : Effect s t e := by
  cases e with
  | getL2 c key =>
    simp only [State.step?, State.getL2] at taken
    split at taken
    · next idle => exact effect_of_enter (by rw [idle]; rfl) taken
    · contradiction
  | putL2 c key result =>
    simp only [State.step?, State.putL2] at taken
    split at taken
    · next idle => exact effect_of_enter (by rw [idle]; rfl) taken
    · contradiction
  | clear c =>
    simp only [State.step?, State.clear] at taken
    split at taken
    · next idle =>
      obtain rfl := Option.some.inj taken
      refine .aside _ c _ rfl (by rw [idle]; rfl) ?_ ?_ rfl (.inl rfl)
      · split_ifs <;> rfl
      · split_ifs <;> rfl
    · contradiction
  | flush c =>
    simp only [State.step?, State.flush] at taken
    split at taken
    · next flushing => exact effect_of_enter (by rw [flushing]; rfl) taken
    · contradiction
  | setRedisConfig c host port timeout_ms =>
    simp only [State.step?, State.setRedisConfig] at taken
    split at taken
    · next idle =>
      obtain ⟨mutex, lock, rfl⟩ := Option.map_eq_some_iff.mp taken
      split_ifs
      · exact .aside _ c (.connecting none) rfl (by rw [idle]; rfl) rfl rfl rfl (.inr rfl)
      · exact .aside _ c (.connecting none) rfl (by rw [idle]; rfl) rfl rfl rfl (.inl rfl)
    · contradiction
  | connect c connected => exact effect_of_connect taken
  | send c =>
    simp only [State.step?, State.send] at taken
    split at taken
    · next cmd again ctx locked =>
      split_ifs at taken with sound
      obtain rfl := Option.some.inj taken
      exact .sent c cmd again ctx locked rfl (Bool.not_eq_true _ ▸ sound) (Function.update_self ..) rfl
    · contradiction
  | receive c =>
    simp only [State.step?, State.receive] at taken
    split at taken
    · next cmd again ctx waiting =>
      split at taken
      · next reply replies sound queue =>
        obtain rfl := Option.some.inj taken
        exact .received c cmd again ctx reply replies waiting rfl sound queue
          (Function.update_self ..) rfl
      · contradiction
    · contradiction
  | fail c =>
    simp only [State.step?, State.fail] at taken
    split at taken
    · next cmd again ctx locked =>
      obtain rfl := Option.some.inj taken
      exact effect_of_retry (by rw [locked]; rfl)
    · next cmd again ctx waiting =>
      obtain rfl := Option.some.inj taken
      exact effect_of_retry (by rw [waiting]; rfl)
    · contradiction
  | relock c =>
    simp only [State.step?, State.relock] at taken
    split at taken
    · next redis_key retrying =>
      obtain ⟨mutex, lock, rfl⟩ := Option.map_eq_some_iff.mp taken
      exact .aside _ c (.connecting (some (.get redis_key))) rfl (by rw [retrying]; rfl) rfl rfl rfl
        (.inr rfl)
    · contradiction
  | serve ctx =>
    simp only [State.step?, State.serve] at taken
    split at taken
    · next cmd commands queue =>
      obtain rfl := Option.some.inj taken
      exact .served ctx cmd commands rfl queue rfl rfl
    · contradiction
  | alter redis_key value =>
    obtain rfl := Option.some.inj taken
    exact .altered redis_key value rfl rfl rfl

/-! ## A run -/

theorem mode_of_asks {p : Point} (asks : p.asks ≠ none) : p.mode ≠ none := by
  cases p with
  | waiting cmd again ctx => simp [Point.mode]
  | _ => simp [Point.asks] at asks

theorem ctx_of_asks {p : Point} (asks : p.asks = some (cmd, again, ctx)) : p.ctx = some ctx := by
  cases p with
  | waiting cmd' again' ctx' =>
    obtain ⟨rfl, rfl, rfl⟩ := Option.some.inj asks
    rfl
  | _ => contradiction

theorem exec_string {redis : Bytes → Option Bytes}
    (replied : (exec redis (.get redis_key)).1 = .string value) : redis redis_key = some value := by
  simp only [exec] at replied
  split at replied
  · next held =>
    obtain rfl := Reply.string.inj replied
    exact held
  · contradiction

theorem found_result {reply : Reply} (found : (cmd.result (some reply)).found = some (redis_key, value)) :
    cmd = .get redis_key ∧ reply = .string value := by
  cases cmd with
  | get k =>
    cases reply with
    | string v =>
      obtain ⟨rfl, rfl⟩ := Prod.mk.inj (Option.some.inj found)
      exact ⟨rfl, rfl⟩
    | nil => contradiction
    | status => contradiction
  | setex k v => contradiction
  | flushdb => contradiction

/-- What is on its way on the current context is the command of the one call that waits, or its
reply. -/
structure Clean (first : State Call) (es : List (Event Call)) (s : State Call) : Prop where
  path : Path State.step? always first es s
  guarded : Guarded s
  single : ∀ {c d}, (s.point c).asks ≠ none → (s.point d).asks ≠ none → c = d
  quiet : ∀ {ctx}, s.redis_ctx_ = some ctx → (s.contexts ctx).err = false →
    (∀ c, (s.point c).asks = none) →
      (s.contexts ctx).commands = [] ∧ (s.contexts ctx).replies = []
  asked : ∀ {c cmd again ctx}, (s.point c).asks = some (cmd, again, ctx) →
    (s.contexts ctx).err = false →
      (s.contexts ctx).commands = [cmd] ∧ (s.contexts ctx).replies = [] ∨
      ∃ reply, (s.contexts ctx).commands = [] ∧ (s.contexts ctx).replies = [reply] ∧
        ∀ redis_key value, cmd = .get redis_key → reply = .string value →
          Takes State.step? always (Reads c redis_key value) first es s
  held : ∀ {c redis_key value}, (s.point c).found = some (redis_key, value) →
    Takes State.step? always (Reads c redis_key value) first es s

theorem asks_of_update {next : Point} (points : t.point = Function.update s.point c next)
    (silent : next.asks = none) (asks : (t.point d).asks ≠ none) :
    d ≠ c ∧ t.point d = s.point d := by
  rw [points] at asks ⊢
  by_cases same : d = c
  · subst same
    rw [Function.update_self] at asks
    exact absurd silent asks
  · rw [Function.update_of_ne same]
    exact ⟨same, rfl⟩

theorem found_of_update {next : Point} (points : t.point = Function.update s.point c next)
    (silent : next.found = none) (found : (t.point d).found = some (redis_key, value)) :
    (s.point d).found = some (redis_key, value) := by
  rw [points] at found
  by_cases same : d = c
  · subst same
    rw [Function.update_self, silent] at found
    contradiction
  · rwa [Function.update_of_ne same] at found

theorem clean_init (redis : Bytes → Option Bytes) :
    Clean ({ redis := redis } : State Call) [] { redis := redis } := by
  constructor
  · exact .nil _
  · exact guarded_init redis
  · intro c d asks
    contradiction
  · intro ctx current
    contradiction
  · intro c cmd again ctx asks
    contradiction
  · intro c redis_key value found
    contradiction

/-- The call that sends a command is then the only one that waits. -/
theorem Clean.unasked (clean : Clean first es s) (alone : Alone s (.send c))
    (locked : s.point c = .locked cmd again ctx) (d : Call) : (s.point d).asks = none := by
  by_contra asks
  have other : c ≠ d := by
    rintro rfl
    rw [locked] at asks
    exact asks rfl
  have holds : (s.point c).mode ≠ none := by simp [locked, Point.mode]
  cases kind : (s.point d).mode with
  | none => exact mode_of_asks asks kind
  | some kind' =>
    cases kind' with
    | unique => exact other (clean.guarded.guards.alone kind holds)
    | shared =>
      cases own : (s.point c).mode with
      | none => exact holds own
      | some own' =>
        cases own' with
        | unique => exact other (clean.guarded.guards.alone own (mode_of_asks asks)).symm
        | shared => exact alone own d asks kind

theorem reads_later (taken : s.step? e = some t)
    (takes : Takes State.step? always (Reads c redis_key value) first es s) :
    Takes State.step? always (Reads c redis_key value) first (es ++ [e]) t :=
  Path.snoc_takes takes trivial taken

/-- A step after which no call waits anew, and a sound current context is as it was. -/
theorem Clean.kept (clean : Clean first es s) (taken : s.step? e = some t)
    (asks : ∀ {d}, (t.point d).asks ≠ none → t.point d = s.point d)
    (found : ∀ {d redis_key value}, (t.point d).found = some (redis_key, value) →
      (s.point d).found = some (redis_key, value))
    (same : ∀ {ctx}, t.redis_ctx_ = some ctx → (t.contexts ctx).err = false →
      s.redis_ctx_ = some ctx ∧ t.contexts ctx = s.contexts ctx ∧
        ((∀ d, (t.point d).asks = none) → ∀ d, (s.point d).asks = none)) :
    Clean first (es ++ [e]) t := by
  have guarded := clean.guarded.step taken
  constructor
  · exact clean.path.snoc trivial taken
  · exact guarded
  · intro c d waits waits'
    apply clean.single
    · rwa [← asks waits]
    · rwa [← asks waits']
  · intro ctx current sound free
    obtain ⟨current', contexts, unasked⟩ := same current sound
    rw [contexts] at sound ⊢
    exact clean.quiet current' sound (unasked free)
  · intro c cmd again ctx waits sound
    obtain ⟨-, contexts, -⟩ := same (guarded.current (ctx_of_asks waits)) sound
    rw [asks (waits ▸ Option.some_ne_none _)] at waits
    rw [contexts] at sound ⊢
    apply (clean.asked waits sound).imp_right
    rintro ⟨reply, commands, replies, reads⟩
    exact ⟨reply, commands, replies, fun k v get string => reads_later taken (reads k v get string)⟩
  · intro c redis_key value got
    exact reads_later taken (clean.held (found got))

/-- A step after which no call waits, and a sound current context has nothing on its way. -/
theorem Clean.emptied (clean : Clean first es s) (taken : s.step? e = some t)
    (unasked : ∀ d, (t.point d).asks = none)
    (empty : ∀ {ctx}, t.redis_ctx_ = some ctx → (t.contexts ctx).err = false →
      (t.contexts ctx).commands = [] ∧ (t.contexts ctx).replies = [])
    (held : ∀ {d redis_key value}, (t.point d).found = some (redis_key, value) →
      Takes State.step? always (Reads d redis_key value) first es s) :
    Clean first (es ++ [e]) t := by
  constructor
  · exact clean.path.snoc trivial taken
  · exact clean.guarded.step taken
  · intro c d waits
    exact absurd (unasked c) waits
  · intro ctx current sound _
    exact empty current sound
  · intro c cmd again ctx waits
    rw [unasked c] at waits
    contradiction
  · intro c redis_key value got
    exact reads_later taken (held got)

theorem Clean.sent (clean : Clean first es s) (alone : Alone s (.send c))
    (taken : s.step? (.send c) = some t) (locked : s.point c = .locked cmd again ctx)
    (points : t.point = Function.update s.point c (.waiting cmd again ctx))
    (sound : (s.contexts ctx).err = false)
    (contexts : t.contexts ctx =
      { s.contexts ctx with commands := (s.contexts ctx).commands ++ [cmd] }) :
    Clean first (es ++ [.send c]) t := by
  have unasked := clean.unasked alone locked
  have current : s.redis_ctx_ = some ctx := clean.guarded.current (c := c) (by rw [locked]; rfl)
  obtain ⟨commands, replies⟩ := clean.quiet current sound unasked
  have waits : t.point c = .waiting cmd again ctx := by rw [points, Function.update_self]
  have only : ∀ {d}, (t.point d).asks ≠ none → d = c := by
    intro d asks
    by_contra other
    rw [points, Function.update_of_ne other] at asks
    exact asks (unasked d)
  constructor
  · exact clean.path.snoc trivial taken
  · exact clean.guarded.step taken
  · intro d d' asks asks'
    rw [only asks, only asks']
  · intro ctx' _ _ free
    have asks := free c
    rw [waits] at asks
    contradiction
  · intro d cmd' again' ctx' asks _
    obtain rfl := only (asks ▸ Option.some_ne_none _)
    rw [waits] at asks
    obtain ⟨rfl, rfl, rfl⟩ := Option.some.inj asks
    rw [contexts, commands, replies]
    exact .inl ⟨rfl, rfl⟩
  · intro d redis_key value found
    exact reads_later taken (clean.held (found_of_update points rfl found))

theorem Clean.received {reply : Reply} {replies : List Reply} (clean : Clean first es s)
    (taken : s.step? (.receive c) = some t) (waiting : s.point c = .waiting cmd again ctx)
    (points : t.point = Function.update s.point c (cmd.result (some reply)))
    (sound : (s.contexts ctx).err = false) (queue : (s.contexts ctx).replies = reply :: replies)
    (contexts : t.contexts ctx = { s.contexts ctx with replies := replies })
    (current : t.redis_ctx_ = s.redis_ctx_) : Clean first (es ++ [.receive c]) t := by
  have asks : (s.point c).asks = some (cmd, again, ctx) := by rw [waiting]; rfl
  have own : (s.contexts ctx).commands = [] ∧ replies = [] ∧
      ∀ redis_key value, cmd = .get redis_key → reply = .string value →
        Takes State.step? always (Reads c redis_key value) first es s := by
    rcases clean.asked asks sound with ⟨-, empty⟩ | ⟨reply', commands, replied, reads⟩
    · rw [queue] at empty
      contradiction
    · rw [queue] at replied
      obtain ⟨rfl, rfl⟩ := List.cons.inj replied
      exact ⟨commands, rfl, reads⟩
  obtain ⟨commands, rfl, reads⟩ := own
  apply clean.emptied taken
  · intro d
    by_contra asks'
    obtain ⟨other, before⟩ := asks_of_update points (asks_result cmd (some reply)) asks'
    rw [before] at asks'
    exact other (clean.single asks' (asks ▸ Option.some_ne_none _))
  · intro ctx' now _
    have here : s.redis_ctx_ = some ctx := clean.guarded.current (c := c) (by rw [waiting]; rfl)
    rw [current, here] at now
    obtain rfl := Option.some.inj now
    rw [contexts]
    exact ⟨commands, rfl⟩
  · intro d redis_key value found
    by_cases same : d = c
    · subst same
      rw [points, Function.update_self] at found
      obtain ⟨get, string⟩ := found_result found
      exact reads redis_key value get string
    · rw [points, Function.update_of_ne same] at found
      exact clean.held found

theorem waiting_of_asks {p : Point} (asks : p.asks = some (cmd, again, ctx)) :
    p = .waiting cmd again ctx := by
  cases p with
  | waiting cmd' again' ctx' =>
    obtain ⟨rfl, rfl, rfl⟩ := Option.some.inj asks
    rfl
  | _ => contradiction

theorem Clean.served {commands : List Command} (clean : Clean first es s)
    (taken : s.step? (.serve ctx) = some t) (points : t.point = s.point)
    (queue : (s.contexts ctx).commands = cmd :: commands)
    (contexts : t.contexts = Function.update s.contexts ctx
      { s.contexts ctx with
        commands := commands
        replies := (s.contexts ctx).replies ++ [(exec s.redis cmd).1] })
    (current : t.redis_ctx_ = s.redis_ctx_) : Clean first (es ++ [.serve ctx]) t := by
  constructor
  · exact clean.path.snoc trivial taken
  · exact clean.guarded.step taken
  · rw [points]
    exact clean.single
  · intro ctx' now sound free
    rw [points] at free
    rw [current] at now
    by_cases same : ctx' = ctx
    · subst same
      rw [contexts, Function.update_self] at sound
      obtain ⟨empty, -⟩ := clean.quiet now sound free
      rw [queue] at empty
      contradiction
    · rw [contexts, Function.update_of_ne same] at sound ⊢
      exact clean.quiet now sound free
  · intro c cmd' again ctx' asks sound
    rw [points] at asks
    by_cases same : ctx' = ctx
    · subst same
      rw [contexts, Function.update_self] at sound ⊢
      rcases clean.asked asks sound with ⟨own, replies⟩ | ⟨reply, empty, -⟩
      · rw [queue] at own
        obtain ⟨rfl, rfl⟩ := List.cons.inj own
        refine .inr ⟨(exec s.redis cmd).1, rfl, by rw [replies]; rfl, ?_⟩
        rintro redis_key value rfl string
        exact clean.path.takes_snoc trivial taken
          ⟨again, ctx', rfl, waiting_of_asks asks, exec_string string⟩
      · rw [queue] at empty
        contradiction
    · rw [contexts, Function.update_of_ne same] at sound ⊢
      apply (clean.asked asks sound).imp_right
      rintro ⟨reply, commands, replies, reads⟩
      exact ⟨reply, commands, replies, fun k v get string => reads_later taken (reads k v get string)⟩
  · intro c redis_key value found
    rw [points] at found
    exact reads_later taken (clean.held found)

theorem Clean.step (clean : Clean first es s) (alone : Alone s e) (taken : s.step? e = some t) :
    Clean first (es ++ [e]) t := by
  cases effect_of_step taken with
  | aside e c next points silent silent' unfound contexts current =>
    apply clean.kept taken
    · exact fun asks => (asks_of_update points silent' asks).2
    · exact found_of_update points unfound
    · intro ctx now sound
      rcases current with same | left
      · refine ⟨same ▸ now, by rw [contexts], fun free d => ?_⟩
        by_cases own : d = c
        · rw [own, silent]
        · have unasked := free d
          rwa [points, Function.update_of_ne own] at unasked
      · rw [left] at now
        contradiction
  | connected c next ctx points holds silent silent' unfound contexts current =>
    apply clean.emptied taken
    · intro d
      by_contra asks
      obtain ⟨other, before⟩ := asks_of_update points silent' asks
      rw [before] at asks
      exact mode_of_asks asks (clean.guarded.alone holds d other)
    · intro ctx' now _
      obtain rfl := Option.some.inj (current.symm.trans now)
      rw [contexts]
      exact ⟨rfl, rfl⟩
    · exact fun found => clean.held (found_of_update points unfound found)
  | sent c cmd again ctx locked points sound contexts current =>
    exact clean.sent alone taken locked points sound contexts
  | received c cmd again ctx reply replies waiting points sound queue contexts current =>
    exact clean.received taken waiting points sound queue contexts current
  | failed c next ctx on points silent' unfound marked current =>
    apply clean.kept taken
    · exact fun asks => (asks_of_update points silent' asks).2
    · exact found_of_update points unfound
    · intro ctx' now sound
      have here : s.redis_ctx_ = some ctx := clean.guarded.current on
      rcases current with same | left
      · rw [same, here] at now
        obtain rfl := Option.some.inj now
        rw [marked] at sound
        contradiction
      · rw [left] at now
        contradiction
  | served ctx cmd commands points queue contexts current =>
    exact clean.served taken points queue contexts current
  | altered redis_key value points contexts current =>
    apply clean.kept taken
    · rw [points]
      exact fun _ => rfl
    · rw [points]
      exact id
    · intro ctx now _
      rw [points, contexts]
      exact ⟨current ▸ now, rfl, id⟩

theorem Clean.exclusive (clean : Clean first es s) : Exclusive s := by
  intro c d cmd cmd' again again' ctx waits waits'
  apply clean.single
  · simp [waits, Point.asks]
  · simp [waits', Point.asks]

/-- A getL2 that sends its command while another waits is then in redisCommand with it. -/
theorem Guarded.alone_of_exclusive (guarded : Guarded s) (taken : s.step? e = some t)
    (exclusive : Exclusive t) : Alone s e := by
  cases e with
  | send c =>
    intro shared d asks _
    simp only [State.step?, State.send] at taken
    split at taken
    · next cmd again ctx locked =>
      split_ifs at taken
      obtain rfl := Option.some.inj taken
      cases waits : s.point d with
      | waiting cmd' again' ctx' =>
        have other : d ≠ c := by
          rintro rfl
          rw [locked] at waits
          contradiction
        have here : s.redis_ctx_ = some ctx := guarded.current (c := c) (by rw [locked]; rfl)
        have there : s.redis_ctx_ = some ctx' := guarded.current (c := d) (by rw [waits]; rfl)
        obtain rfl := Option.some.inj (here.symm.trans there)
        refine other (exclusive d c cmd' cmd again' again ctx ?_ ?_)
        · simp only [State.move, Function.update_of_ne other, waits]
        · simp only [State.move, Function.update_self]
      | _ =>
        rw [waits] at asks
        exact absurd rfl asks
    · contradiction
  | _ => trivial

/-- A getL2 never sends its command while another waits under the lock exactly when no two commands are
ever in progress on one context; and then Redis has held every value that a getL2 returns for its key,
when it executed the GET of that call. -/
theorem exclusive_iff_alone (redis : Bytes → Option Bytes) (es : List (Event Call)) (t : State Call) :
    (Path State.step? (fun s e => ∀ t, s.step? e = some t → Exclusive t)
        { redis := redis } es t ↔ Path State.step? Alone { redis := redis } es t) ∧
      (Path State.step? Alone { redis := redis } es t →
        ∀ c key value, t.point c = .got (FlightProxy.redis_key key) (some value) →
          Takes State.step? always (Reads c (FlightProxy.redis_key key) value) { redis := redis } es t) := by
  have kept : ∀ (s : State Call) (e : Event Call) (s' : State Call),
      (∃ es, Clean { redis := redis } es s) → Alone s e → s.step? e = some s' →
        ∃ es, Clean { redis := redis } es s' := by
    rintro s e s' ⟨es, clean⟩ alone taken
    exact ⟨_, clean.step alone taken⟩
  constructor
  · constructor
    · intro exclusive
      have guarded := exclusive.strengthen (guarded_init redis)
        fun _ _ _ guarded _ taken => guarded.step taken
      exact guarded.mono fun s e s' ok taken => ok.2.alone_of_exclusive taken (ok.1 s' taken)
    · intro alone
      have clean := alone.strengthen ⟨[], clean_init redis⟩ kept
      apply clean.mono
      intro s e s' ok taken t taken'
      obtain ⟨es, clean⟩ := kept s e t ok.2 ok.1 taken'
      exact clean.exclusive
  · intro alone c key value got
    have clean : Clean { redis := redis } es t := by
      apply alone.records (I := fun es s => Clean { redis := redis } es s) (clean_init redis)
      exact fun es s e s' clean alone taken => clean.step alone taken
    apply clean.held
    rw [got]
    rfl

/-- Two getL2 calls under the shared lock: each sends its GET, Redis replies to both, and the second
takes the first reply. -/
def crossed : List (Event ℕ) :=
  [.setRedisConfig 0 [0x68] 6379 1000, .connect 0 true, .putL2 1 [0x61] [0x5a], .send 1, .serve 0,
    .receive 1, .getL2 2 [0x61], .getL2 3 [0x62], .send 2, .send 3, .serve 0, .serve 0, .receive 3]

/-- After `crossed` the call for one key has returned the value of another key; Redis has held none for
its own. -/
theorem not_exclusive : ¬ ∀ (es : List (Event ℕ)) (t : State ℕ), Path State.step? always {} es t →
    ∀ c key value, t.point c = .got (FlightProxy.redis_key key) (some value) →
      Takes State.step? always (fun s _ => s.redis (FlightProxy.redis_key key) = some value)
        {} es t := by
  intro own
  have run : ∃ t : State ℕ, Path State.step? always {} crossed t ∧
      t.point 3 = .got (FlightProxy.redis_key [0x62]) (some [0x5a]) := by
    refine ⟨_, replay_eq_some_iff.mp rfl, ?_⟩
    decide +kernel
  have absent : ∀ before ∈ crossed.inits, (replay State.step? ({} : State ℕ) before).all
      (fun s => (s.redis (FlightProxy.redis_key [0x62])).isNone) = true := by
    decide +kernel
  obtain ⟨t, path, got⟩ := run
  obtain ⟨before, e, after, s, split, prior, -, held⟩ := own _ t path 3 _ _ got
  have member : before ∈ crossed.inits := (List.mem_inits _ _).mpr ⟨_, split.symm⟩
  have none_held := absent before member
  rw [replay_eq_some_iff.mpr prior, Option.all_some, held] at none_held
  contradiction

/-- A getL2 finds what a putL2 has stored. -/
def stored : List (Event (Fin 4)) :=
  [.setRedisConfig 0 [0x68] 6379 1000, .connect 0 true, .putL2 1 [0x61] [0x5a], .send 1, .serve 0,
    .receive 1, .getL2 2 [0x61], .send 2, .serve 0, .receive 2]

/-- In `stored` Redis holds the value when it executes the GET. -/
theorem exclusive_iff_alone_run : ∃ t : State (Fin 4),
    Takes State.step? always (Reads 2 (FlightProxy.redis_key [0x61]) [0x5a]) {} stored t := by
  have run : ∃ t : State (Fin 4), Path State.step? Alone {} stored t ∧
      t.point 2 = .got (FlightProxy.redis_key [0x61]) (some [0x5a]) := by
    refine ⟨_, .cons trivial rfl (.cons trivial rfl (.cons trivial rfl
      (.cons (fun shared => by contradiction) rfl (.cons trivial rfl (.cons trivial rfl
      (.cons trivial rfl (.cons (fun _ => by decide +kernel) rfl (.cons trivial rfl
      (.cons trivial rfl (.nil _)))))))))), ?_⟩
    decide +kernel
  obtain ⟨t, alone, got⟩ := run
  exact ⟨t, (exclusive_iff_alone _ _ _).2 alone 2 _ _ got⟩

end FlightProxy.Redis
