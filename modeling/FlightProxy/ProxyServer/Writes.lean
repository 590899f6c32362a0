import FlightProxy.ProxyServer.Elections
import FlightProxy.ProxyServer.Tenants

/-! # Which writes reach the database

While the clients take turns, the database executes, in order and once each, the queries that lead, and
no other. A query that is answered from the cache is not executed, also when it is a write.
-/

namespace FlightProxy

open Transition

/-- Queries that change nothing where they stand may be left out. -/
theorem Database.direct_filter {σ α : Type*} {exec : Database σ} {db : σ} (keep : α → Bool)
    (text : α → Bytes) (queries : List α)
    (idle : ∀ first query second, queries = first ++ query :: second → keep query = false →
      (exec (exec.direct db (first.map text)) (text query)).1 = exec.direct db (first.map text)) :
    exec.direct db ((queries.filter keep).map text) = exec.direct db (queries.map text) := by
  induction queries using List.reverseRecOn with
  | nil => rfl
  | append_singleton queries query ih =>
    have earlier := ih fun first query' second split skipped =>
      idle first query' (second ++ [query]) (by rw [split]; simp) skipped
    rw [List.map_append, List.map_singleton, direct_concat, List.filter_append, List.map_append]
    cases kept : keep query with
    | true => rw [List.filter_singleton, kept, cond_true, List.map_singleton, direct_concat, earlier]
    | false =>
      rw [List.filter_singleton, kept, cond_false, List.map_nil, List.append_nil, earlier,
        idle queries query [] rfl kept]

namespace System

variable {σ : Type*} {md5 : Bytes → Bytes} {exec : Database σ} {store : Store} {db : σ}
  {s s' t : System σ} {e : Event} {es : List Event}

/-- In a run in which the clients take turns and all have been answered, a query has led or is a cache
hit, and the database has executed those that have led, once each and in the order in which the
clients sent them. It is as if the clients had sent all of them to the database itself, if the hits
would have changed nothing there. -/
theorem db_of_run (md5 : Bytes → Bytes) (exec : Database σ) (store : Store) (db : σ)
    (run : Path (step? md5 exec) Sequential (init store db) es t)
    (answered : ∀ i, (t.proxy.sessions i).Answered) :
    (∀ q ∈ schedule es, t.proxy.cache.returned q.1 = some .IS_LEADER ∨
        t.proxy.cache.returned q.1 = some .CACHE_HIT) ∧
      t.db = exec.direct db (((schedule es).filter fun q =>
        t.proxy.cache.returned q.1 = some .IS_LEADER).map Prod.snd) ∧
      ((∀ first q second, schedule es = first ++ q :: second →
          t.proxy.cache.returned q.1 = some .CACHE_HIT →
          (exec (exec.direct db (first.map Prod.snd)) q.2).1 = exec.direct db (first.map Prod.snd)) →
        t.db = exec.direct db ((schedule es).map Prod.snd)) := by
  have follows := follows_of_run run
  obtain ⟨-, decided, state⟩ := follows.phase.answered follows.accounted answered
  have leads_or_hits : ∀ q ∈ schedule es, t.proxy.cache.returned q.1 = some .IS_LEADER ∨
      t.proxy.cache.returned q.1 = some .CACHE_HIT := by
    intro q member
    obtain ⟨result, returned⟩ := Option.ne_none_iff_exists'.mp (decided q member)
    cases result with
    | CACHE_HIT => exact .inr returned
    | IS_LEADER => exact .inl returned
    | IS_WAITER => exact absurd returned (not_waiter_of_run run q.1)
  refine ⟨leads_or_hits, state, fun idle => ?_⟩
  rw [state]
  apply exec.direct_filter
  intro first q second split skipped
  apply idle first q second split
  have member : q ∈ schedule es := by
    rw [split]
    exact List.mem_append_right _ List.mem_cons_self
  exact (leads_or_hits q member).resolve_left (of_decide_eq_false skipped)

/-! ## A query sent twice -/

/-- A database of one number. -/
def register (next : ℕ → ℕ) : Database ℕ := fun n _ => (next n, [0x01])

/-- A client sends `q`. -/
def asks_q : Event := .proxy (.session 0 (.complete .client_read (.ok (ProxyServer.short_query 0x71))))

/-- It leads, and is executed and answered. -/
def leads_q : List Event :=
  (ProxyServer.misses 0 0 0x71).tail.map .proxy ++ [.execute 0] ++
    (ProxyServer.settles 0 0 0x71 0x01).map .proxy

/-- Sent again, it is a hit, and is answered too. -/
def hits_q : List Event :=
  (ProxyServer.hits 0 1 0x71).tail.map .proxy ++
    [.proxy (.session 0 (.complete (.response_write [0x01]) (.ok [])))]

/-- The client connects, and sends `q` twice. -/
def twice : List Event :=
  (ProxyServer.joins 0 0x61).map .proxy ++ asks_q :: (leads_q ++ asks_q :: hits_q)

example : schedule twice = [((0, 0), [0x71]), ((0, 1), [0x71])] := by decide +kernel

theorem sequential_of_silent (silent : e.asks = none) : s.Sequential e := by
  unfold Sequential
  split
  · next i data =>
    intro query
    have silent : (statement data).map (Prod.mk i) = none := silent
    rw [Option.map_eq_none_iff] at silent
    rw [← statement_isSome_iff, silent] at query
    contradiction
  · trivial

/-- The client of session 0 has been answered, and nothing is on its way to it. -/
def ready (s : System σ) : Bool :=
  !(s.proxy.sessions 0).is_destroying_ && decide ((s.proxy.sessions 0).current_query_ = []) &&
    decide ((s.proxy.sessions 0).client_handler = .idle) &&
      (s.proxy.sessions 0).pending.all fun op => !op.replies

/-- No session but session 0 takes part in the step. -/
def alone (s : System σ) : Event → Bool
  | .proxy (.session j _) | .execute j => j = 0
  | .proxy (.cache b) => (s.proxy.cache.invokes b).all fun call => call.1.1 = 0

/-- Its client sends nothing but `q`, and that when it is ready. -/
def waits (s : System σ) (e : Event) : Bool := e.asks.isNone || (decide (e = asks_q) && s.ready)

/-- The other sessions have not begun. -/
def Fresh (s : System σ) : Prop := ∀ j, j ≠ 0 → s.proxy.sessions j = {}

private theorem Fresh.step (fresh : s.Fresh) (alone : s.alone e = true)
    (taken : s.step? md5 exec e = some s') : s'.Fresh := by
  intro j other
  cases e with
  | execute k =>
    obtain ⟨sql, -, rfl⟩ := Option.map_eq_some_iff.mp taken
    exact fresh j other
  | proxy d =>
    obtain ⟨p, outbox, -, ran, rfl⟩ := proxy_cases taken
    rcases ProxyServer.turn_cases ran j with ⟨-, same⟩ | ⟨d', rfl, -⟩ | ⟨b, call, value, rfl, invoked, -⟩
    · exact same.trans (fresh j other)
    · simp [System.alone, other] at alone
    · simp [System.alone, invoked, other] at alone

private theorem Fresh.turns (fresh : s.Fresh) (waits : s.waits e = true) : s.Turns e := by
  simp only [System.waits, Bool.or_eq_true, Option.isNone_iff_eq_none, Bool.and_eq_true,
    decide_eq_true_eq] at waits
  rcases waits with silent | ⟨rfl, ready⟩
  · refine ⟨sequential_of_silent silent, fun i sql asks => ?_⟩
    rw [silent] at asks
    contradiction
  · simp only [System.ready, Bool.and_eq_true, Bool.not_eq_true', decide_eq_true_eq] at ready
    obtain ⟨⟨⟨alive, unled⟩, idle⟩, quiet⟩ := ready
    refine ⟨fun _ => ⟨⟨query_q, [0x71], by decide +kernel, by decide +kernel, by decide⟩, alive, ?_⟩, ?_⟩
    · intro j
      by_cases here : j = 0
      · rw [here]
        exact ⟨unled, .inl idle⟩
      · rw [fresh j here]
        exact ⟨rfl, .inl rfl⟩
    · rintro i sql asks op member
      obtain ⟨data, here, -⟩ := asks_cases asks
      obtain ⟨rfl, -⟩ := ProxyServer.Event.session.inj (Event.proxy.inj here)
      simpa using List.all_eq_true.mp quiet op member

/-- A run in which the client of session 0 is alone, and waits for each answer. -/
theorem turns_of_alone (ran : replay (fun s e => if s.alone e && s.waits e then step? md5 exec s e
      else none) (init store db) es = some s) :
    Path (step? md5 exec) Turns (init store db) es s ∧ s.Fresh := by
  have kept : ∀ s e s', Fresh s → (s.alone e && s.waits e) = true → step? md5 exec s e = some s' →
      Fresh s' := fun _ _ _ fresh guarded taken => fresh.step (Bool.and_eq_true_iff.mp guarded).1 taken
  have run := path_of_guarded ran
  have fresh : (init store db : System σ).Fresh := fun _ _ => rfl
  refine ⟨(run.strengthen fresh kept).mono ?_, run.preserves fresh kept⟩
  rintro s e - ⟨guarded, fresh⟩ -
  exact fresh.turns (Bool.and_eq_true_iff.mp guarded).2

/-- In `twice` the client waits for each answer, and at the end it has been answered. -/
def answers_twice (next : ℕ → ℕ) : Bool :=
  (replay (fun s e => if s.alone e && s.waits e then step? id (register next) s e else none)
    (init {} 0) twice).any fun t => t.ready && decide (t.db = next 0) &&
      decide (t.proxy.cache.returned (0, 0) = some .IS_LEADER) &&
        decide ((t.proxy.sessions 0).pending = [.server_read, .client_read])

theorem run_of_twice {next : ℕ → ℕ} (answers : answers_twice next = true) : ∃ t : System ℕ,
    Path (step? id (register next)) Turns (init {} 0) twice t ∧
      (∀ i, (t.proxy.sessions i).Answered) ∧ t.db = next 0 ∧
      t.proxy.cache.returned (0, 0) = some .IS_LEADER ∧ (t.proxy.sessions 0).Rests := by
  obtain ⟨t, ran, facts⟩ := (Option.any_eq_true _ _).mp answers
  simp only [ready, Bool.and_eq_true, Bool.not_eq_true', decide_eq_true_eq] at facts
  obtain ⟨⟨⟨⟨⟨⟨alive, unled⟩, idle⟩, -⟩, db⟩, leader⟩, pending⟩ := facts
  obtain ⟨run, fresh⟩ := turns_of_alone ran
  refine ⟨t, run, fun j => ?_, db, leader, alive, by rw [pending]; decide, by rw [pending]; decide⟩
  by_cases here : j = 0
  · rw [here]
    exact ⟨unled, .inl idle⟩
  · rw [fresh j here]
    exact ⟨rfl, .inl rfl⟩

/-- The second of two increments is answered from the cache, and the database does not see it. -/
theorem not_db_of_run : ¬ ∀ (σ : Type) (md5 : Bytes → Bytes) (exec : Database σ) (store : Store)
    (db : σ) (es : List Event) (t : System σ),
    (∀ db sql, 0 < (exec db sql).2.length ∧ (exec db sql).2.length ≤ 8192) →
      Path (step? md5 exec) Sequential (init store db) es t →
      (∀ i, (t.proxy.sessions i).Answered) →
        t.db = exec.direct db ((schedule es).map Prod.snd) := by
  intro direct
  obtain ⟨t, turns, answered, db, -⟩ := @run_of_twice Nat.succ (by decide +kernel)
  have run : Path (step? id (register Nat.succ)) Sequential (init {} 0) twice t :=
    turns.mono fun _ _ _ turns _ => turns.1
  have fits : ∀ db sql, 0 < (register Nat.succ db sql).2.length ∧
      (register Nat.succ db sql).2.length ≤ 8192 := fun _ _ => ⟨Nat.one_pos, Nat.succ_le_of_lt (by decide)⟩
  have same := direct ℕ id (register Nat.succ) {} 0 twice t fits run answered
  rw [db] at same
  revert same
  decide +kernel

/-- A query that sets the number is answered from the cache the second time, as if it had been
executed again. -/
theorem db_of_run_run : ∃ t : System ℕ,
    Path (step? id (register fun _ => 1)) Sequential (init {} 0) twice t ∧
      t.db = (register fun _ => 1).direct 0 [[0x71], [0x71]] := by
  obtain ⟨t, turns, answered, -, leader, -⟩ := @run_of_twice (fun _ => 1) (by decide +kernel)
  have run : Path (step? id (register fun _ => 1)) Sequential (init {} 0) twice t :=
    turns.mono fun _ _ _ turns _ => turns.1
  obtain ⟨-, -, direct⟩ := db_of_run id (register fun _ => 1) {} 0 run answered
  refine ⟨t, run, direct ?_⟩
  intro first q second split hit
  cases first with
  | nil =>
    have here : q = ((0, 0), [0x71]) := (List.cons.inj split).1.symm
    rw [here, leader] at hit
    contradiction
  | cons earlier first =>
    induction first using List.reverseRecOn with
    | nil => rfl
    | append_singleton first last =>
      rw [List.map_cons, List.map_append, ← List.cons_append, List.map_singleton,
        Database.direct_concat]
      rfl

end System

end FlightProxy
