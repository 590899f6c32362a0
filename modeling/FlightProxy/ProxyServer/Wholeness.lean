import FlightProxy.ProxyServer.Notifications
import FlightProxy.ProxyServer.Relay
import FlightProxy.QueryCache.Provenance
import FlightProxy.Session.Wholeness

/-! # Whole responses

What a session notifies is the first read of the response to the query that it leads. So it notifies
the whole response exactly when the network delivers that in one read; and when it does so for all
leaders, whatever is cached or handed over is a whole response.
-/

namespace FlightProxy

/-- What the server sends at the end of every response. -/
def ready_for_query (status : UInt8) : Bytes := [0x5a, 0x00, 0x00, 0x00, 0x05, status]

namespace Core

/-- What the session notifies is the whole response to the query of the call that leads. -/
structure Answers (answer : ℕ → Bytes → Bytes) (c : Core) : Prop where
  now : ∀ {k query value}, c.server_handler = .notifying k query value → value = answer k query
  past : ∀ {query value}, .notify query value ∈ c.log → ∃ k, value = answer k query

variable {c c' : Core} {e : SessionEvent} {answer : ℕ → Bytes → Bytes}

theorem answers_init : Answers answer ⟨.idle, .idle, [], 0, 0, []⟩ :=
  ⟨nofun, fun member => absurd member List.not_mem_nil⟩

/-- A step that leaves the server read's handler where it is, or idle, and notifies nothing. -/
theorem Answers.of_silent (answers : c.Answers answer) {news : List Action}
    (handler : c'.server_handler = c.server_handler ∨ c'.server_handler = .idle)
    (log : c'.log = c.log ++ news) (silent : ∀ query value, .notify query value ∉ news) :
    c'.Answers answer := by
  constructor
  · intro k query value notifying
    rcases handler with same | idle
    · exact answers.now (same.symm.trans notifying)
    · cases idle.symm.trans notifying
  · intro query value member
    rw [log] at member
    rcases List.mem_append.mp member with old | new
    · exact answers.past old
    · exact absurd new (silent query value)

theorem Answers.bridge (answers : c.Answers answer) (step : Bridge c e c')
    (whole : ∀ data, e = .complete .server_read (.ok data) → c.current_query_ ≠ [] →
      data = answer c.leading c.current_query_) : c'.Answers answer := by
  cases step with
  | quiet => exact answers
  | early e action early =>
    refine answers.of_silent (.inl rfl) rfl fun query value member => ?_
    rw [← List.mem_singleton.mp member] at early
    contradiction
  | passes | asks | answered | leads | delivers =>
    exact answers.of_silent (.inl rfl) rfl (by simp)
  | responds data relayed =>
    refine answers.of_silent (.inl rfl) rfl ?_
    cases relayed <;> simp
  | notified call query data relayed =>
    refine answers.of_silent (.inr rfl) rfl ?_
    cases relayed <;> simp
  | notifies data idle leading =>
    have here := whole data rfl leading
    constructor
    · intro k query value notifying
      obtain ⟨rfl, rfl, rfl⟩ := ServerHandler.notifying.inj notifying
      exact here
    · intro query value member
      rcases List.mem_append.mp member with old | new
      · exact answers.past old
      · simp only [List.mem_cons, reduceCtorEq, Action.notify.injEq, List.not_mem_nil, or_false,
          false_or] at new
        obtain ⟨rfl, rfl⟩ := new
        exact ⟨c.leading, here⟩

end Core

namespace ProxyServer

open Recency Transition
open QueryCache (hash_query)

/-- The client of the session sends nothing. -/
def Waiting (i : ℕ) (_ : ProxyServer) : Event → Prop
  | .session j d => j = i → Waits d
  | .cache _ => True

/-- The read of a session that leads and is not closed is the whole response to its query. -/
def Single (answer : ℕ × ℕ → Bytes → Bytes) (p : ProxyServer) : Event → Prop
  | .session i (.complete .server_read (.ok data)) =>
    (p.sessions i).is_destroying_ = false → (p.sessions i).current_query_ ≠ [] →
      data = answer (i, (p.sessions i).leading) (p.sessions i).current_query_
  | _ => True

/-- The value is the whole response to a query with the key. -/
def Whole (md5 : Bytes → Bytes) (answer : ℕ × ℕ → Bytes → Bytes) (key value : Bytes) : Prop :=
  ∃ c query, hash_query md5 query = key ∧ value = answer c query

/-- What a run keeps in which every leader reads its response at once. -/
structure Undivided (md5 : Bytes → Bytes) (answer : ℕ × ℕ → Bytes → Bytes) (p : ProxyServer) : Prop where
  sessions : ∀ i, (p.sessions i).core.Answers fun k => answer (i, k)
  genuine : p.cache.Genuine md5 (Whole md5 answer)

variable {md5 : Bytes → Bytes} {p p' a b t : ProxyServer} {e : Event} {es : List Event}
  {answer : ℕ × ℕ → Bytes → Bytes} {i : ℕ} {query data response : Bytes} {pieces : List Bytes}

theorem undivided_init (l1_max_size_ : ℕ) (l1_enabled_ redis_enabled_ : Bool) :
    (init { l1 := { l1_max_size_, l1_enabled_ }, redis_enabled_ }).Undivided md5 answer := by
  constructor
  · exact fun _ => Core.answers_init
  · exact QueryCache.State.genuine_init (L1.linked_empty l1_max_size_ l1_enabled_) rfl nofun

theorem Undivided.step (undivided : p.Undivided md5 answer) (single : p.Single answer e)
    (taken : p.step? md5 e = some p') : p'.Undivided md5 answer := by
  constructor
  · intro j
    rcases turn_cases taken j with ⟨-, same⟩ | ⟨d, rfl, -, ran, -⟩ | ⟨d, call, value, -, -, ran⟩
    · rw [same]
      exact undivided.sessions j
    · by_cases closed : ∃ data, d = .complete .server_read (.ok data) ∧
          (p.sessions j).is_destroying_ = true
      · obtain ⟨data, rfl, closed⟩ := closed
        have completed : (p.sessions j).complete .server_read (.ok data) = some (p'.sessions j) := ran
        rw [Session.core_of_closed closed completed]
        exact undivided.sessions j
      · apply (undivided.sessions j).bridge (Session.bridge_of_step ran)
        rintro data rfl leading
        apply single _ leading
        by_contra destroying
        exact closed ⟨data, rfl, Bool.not_eq_false _ ▸ destroying⟩
    · exact (undivided.sessions j).bridge (Session.bridge_of_step ran) nofun
  · cases e with
    | session j d =>
      rw [cache_of_session taken]
      exact undivided.genuine
    | cache d =>
      apply undivided.genuine.step _ (cache_of_cache taken)
      rintro n query result rfl
      obtain ⟨entered, -⟩ := cache_cases taken
      exact ⟨n, query, rfl, (undivided.sessions n.1).now (notifying_of_enters entered)⟩

/-- The first of several pieces is all of them exactly when it is the only one. -/
private theorem first_eq_flatten_iff {first : Bytes} {rest : List Bytes}
    (nonempty : ∀ piece ∈ first :: rest, piece ≠ []) (whole : (first :: rest).flatten = response) :
    first = response ↔ first :: rest = [response] := by
  rw [List.flatten_cons] at whole
  constructor
  · rintro rfl
    have empty : rest.flatten = [] := List.append_right_eq_self.mp whole
    cases rest with
    | nil => rfl
    | cons piece more =>
      obtain ⟨nothing, -⟩ := List.append_eq_nil_iff.mp empty
      exact absurd nothing (nonempty piece (by simp))
  · intro single
    exact (List.cons.inj single).1

/-- From the time when a session is told to lead a query, and while its client sends nothing more, the
server's response arrives in pieces. What the session notifies is then the whole response exactly when
there is one piece. And when the read of every leader is its whole response, every value that is
notified, cached or handed to a callback is a whole response, to a query with the key. -/
theorem whole_iff_single (md5 : Bytes → Bytes) :
    (∀ (i : ℕ) (query data response : Bytes) (pieces : List Bytes) (a b t : ProxyServer)
        (es : List Event),
      (a.sessions i).client_handler = .calling query data →
      (a.sessions i).server_handler = .idle →
      a.step? md5 (.session i (.flight_result .IS_LEADER)) = some b →
      Path (step? md5) (Waiting i) b es t →
      server_reads (tape i es) <+: pieces → (∀ piece ∈ pieces, piece ≠ []) →
      pieces.flatten = response →
        ∀ query' value, .notify query' value ∈
          (t.sessions i).log.drop (b.sessions i).log.length →
            query' = query ∧ (value = response ↔ pieces = [response])) ∧
      ∀ (answer : ℕ × ℕ → Bytes → Bytes) (l1_max_size_ : ℕ) (l1_enabled_ redis_enabled_ : Bool)
        (t : ProxyServer) (es : List Event),
        Path (step? md5) (Single answer)
          (init { l1 := { l1_max_size_, l1_enabled_ }, redis_enabled_ }) es t →
        (∀ i query value, .notify query value ∈ (t.sessions i).log →
          ∃ k, value = answer (i, k) query) ∧
        (∀ key value, lookup key t.cache.store.l1.contents = some value →
          Whole md5 answer key value) ∧
        (t.cache.store.redis_enabled_ = true → ∀ key value,
          t.cache.store.redis (redis_key key) = some value → Whole md5 answer key value) ∧
        ∀ d t' c value, t.step? md5 (.cache d) = some t' → t.cache.invokes d = some (c, value) →
          ∃ query, (t'.cache.doing c).query = some query ∧
            Whole md5 answer (hash_query md5 query) value := by
  constructor
  · intro i query data response pieces a b t es calling free told rest split nonempty whole
      query' value member
    obtain ⟨-, told'⟩ := own_step told
    have silent : ∃ ds, Path Session.step? (fun _ d => Waits d) (b.sessions i) ds (t.sessions i) ∧
        ds.filter own = tape i es := by
      apply session_path i rest
      rintro p e p' d waits taken (⟨rfl, -⟩ | ⟨c, call, value, rfl, rfl, -⟩)
      · exact waits rfl
      · trivial
    obtain ⟨ds, path, same⟩ := silent
    have since := Session.since_of_run calling free told' path
    obtain ⟨rfl, others, reads⟩ := since.notifies member
    have first : server_reads (tape i es) = value :: others := by
      rw [← reads, ← same, server_reads, server_reads]
      exact filterMap_own fun _ _ => rfl
    rw [first] at split
    obtain ⟨later, rfl⟩ := split
    exact ⟨rfl, first_eq_flatten_iff nonempty whole⟩
  · intro answer l1_max_size_ l1_enabled_ redis_enabled_ t es run
    have undivided : t.Undivided md5 answer := by
      apply run.preserves (I := fun p => p.Undivided md5 answer)
        (undivided_init l1_max_size_ l1_enabled_ redis_enabled_)
      intro p e p' undivided single taken
      exact undivided.step single taken
    refine ⟨fun i query value member => (undivided.sessions i).past member,
      fun key value bound => undivided.genuine.bound bound,
      fun enabled key value held => undivided.genuine.held enabled held, ?_⟩
    intro d t' c value taken invoked
    have moved := cache_of_cache taken
    apply (undivided.genuine.step _ moved).of_invokes undivided.genuine moved invoked
    rintro n query result rfl
    contradiction

/-- The client sends `q`, which leads. -/
def led : List Event :=
  Session.connected.map (.session 0) ++
    [.session 0 (.complete .client_read (.ok [0x51, 0x00, 0x00, 0x00, 0x06, 0x71, 0x00])),
      .cache (.getL1_shared (0, 0) [0x71]), .cache (.getL2 (0, 0) false),
      .cache (.flight (.elect (0, 0) (hash_query id [0x71])))]

/-- The query has been written to the server, and the server is read. -/
def read_of (data : Bytes) : List Event :=
  [.session 0 (.complete (.server_write [0x51, 0x00, 0x00, 0x00, 0x06, 0x71, 0x00]) (.ok [])),
    .session 0 (.complete .server_read (.ok data))]

/-- What comes back first is notified, a whole response or not. -/
private theorem run_of_read (type status : UInt8) :
    ∃ a b t : ProxyServer, Path (step? id) always (init {}) led a ∧
      (a.sessions 0).client_handler =
        .calling [0x71] [0x51, 0x00, 0x00, 0x00, 0x06, 0x71, 0x00] ∧
      (a.sessions 0).server_handler = .idle ∧
      a.step? id (.session 0 (.flight_result .IS_LEADER)) = some b ∧
      Path (step? id) (Waiting 0) b (read_of [type, 0x00, 0x00, 0x00, 0x05, status]) t ∧
      (t.sessions 0).log.drop (b.sessions 0).log.length =
        [.response [type, 0x00, 0x00, 0x00, 0x05, status],
          .notify [0x71] [type, 0x00, 0x00, 0x00, 0x05, status]] := by
  exact ⟨_, _, _, replay_eq_some_iff.mp rfl, rfl, rfl, rfl,
    .cons (fun _ => trivial) rfl (.cons (fun _ => trivial) rfl (.nil _)), rfl⟩

/-- A CommandComplete arrives first, the ReadyForQuery later, and the session notifies the former. -/
theorem not_whole : ¬ ∀ (md5 : Bytes → Bytes) (i : ℕ) (query data response : Bytes)
    (pieces : List Bytes) (store : Store) (a b t : ProxyServer) (es es' : List Event),
    Path (step? md5) always (init store) es a →
    (a.sessions i).client_handler = .calling query data →
    (a.sessions i).server_handler = .idle →
    a.step? md5 (.session i (.flight_result .IS_LEADER)) = some b →
    Path (step? md5) (Waiting i) b es' t →
    server_reads (tape i es') <+: pieces → (∀ piece ∈ pieces, piece ≠ [] ∧ piece.length ≤ 8192) →
    pieces.flatten = response → (∃ status, ready_for_query status <:+ response) →
      ∀ query' value, .notify query' value ∈
        (t.sessions i).log.drop (b.sessions i).log.length → value = response := by
  intro whole
  obtain ⟨a, b, t, before, calling, free, told, rest, log⟩ := run_of_read 0x43 0x00
  have split := whole id 0 _ _ _ [[0x43, 0x00, 0x00, 0x00, 0x05, 0x00], ready_for_query 0x49] {} a b t
    _ _ before calling free told rest ⟨[ready_for_query 0x49], rfl⟩ (by decide) rfl
    ⟨0x49, by decide⟩ [0x71] [0x43, 0x00, 0x00, 0x00, 0x05, 0x00] (by rw [log]; simp)
  contradiction

/-- The response arrives in one read, which is notified. -/
theorem whole_iff_single_run : ∃ (b t : ProxyServer) (value : Bytes), .notify [0x71] value ∈
    (t.sessions 0).log.drop (b.sessions 0).log.length ∧ value = ready_for_query 0x49 := by
  obtain ⟨a, b, t, -, calling, free, told, rest, log⟩ := run_of_read 0x5a 0x49
  have member : .notify [0x71] (ready_for_query 0x49) ∈
      (t.sessions 0).log.drop (b.sessions 0).log.length := by
    rw [log, ready_for_query]
    simp
  have whole := (whole_iff_single id).1 0 _ _ _ [ready_for_query 0x49] a b t _ calling free told rest
    ⟨[], rfl⟩ (by decide) rfl _ _ member
  exact ⟨b, t, _, member, whole.2.mpr rfl⟩

end ProxyServer

end FlightProxy
