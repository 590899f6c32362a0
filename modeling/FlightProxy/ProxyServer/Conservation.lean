import FlightProxy.ProxyServer.Attendance
import FlightProxy.ProxyServer.Relay
import FlightProxy.Session.Holding

/-! # No message of a client is lost

Every message of a client is written to the server, or is a Query that the client gets a result for,
as long as reads are taken for messages only where they are messages. The last read may be on its way;
when its call waits, somebody is at work on what it waits for.
-/

namespace FlightProxy

open Segments Transition

/-- The bytes of the completed writes of bridge_client_to_server. -/
def written (es : List SessionEvent) : Bytes :=
  es.flatMap fun
    | .complete (.server_write data) (.ok _) => data
    | _ => []

theorem written_eq (es : List SessionEvent) :
    (settled es).flatMap (fun read => read.2.sent) = written es := by
  suffices step : ∀ noted : Bytes × List (Bytes × Ending),
      (es.foldl settle noted).2.flatMap (fun read => read.2.sent) =
        noted.2.flatMap (fun read => read.2.sent) ++ written es from step ([], [])
  induction es with
  | nil => exact fun noted => (List.append_nil _).symm
  | cons e es ih =>
    intro noted
    have grows : (settle noted e).2.flatMap (fun read => read.2.sent) =
        noted.2.flatMap (fun read => read.2.sent) ++ written [e] := by
      cases e with
      | complete op completion =>
        cases completion with
        | ok data => cases op <;> simp [settle, written, Ending.sent]
        | error ec => cases op <;> exact (List.append_nil _).symm
      | _ => exact (List.append_nil _).symm
    rw [List.foldl_cons, ih, grows, List.append_assoc]
    congr 1
    exact (List.flatMap_append : ([e] ++ es).flatMap _ = _).symm

namespace ProxyServer

variable {md5 : Bytes → Bytes} {store : Store} {p p' : ProxyServer} {e : Event} {es : List Event}
  {messages : List Message} {i : ℕ}

/-- A call of the client waits in the flight. -/
def Waits (i : ℕ) (f : ℕ × ℕ) (p : ProxyServer) : Prop :=
  ∃ k, p.cache.singleflight_.Enlisted (i, k) f

/-- The client's session is careful with its reads, a call of it joins only flights that are attended,
and those that it waits in are not stripped and go on being served. -/
structure Careful (md5 : Bytes → Bytes) (messages : List Message) (i : ℕ) (p : ProxyServer)
    (e : Event) : Prop where
  own : ∀ d, p.Does i e d → (p.sessions i).Careful messages d
  joins : ∀ k key f, e = .cache (.flight (.join (i, k))) →
    p.cache.singleflight_.doing (i, k) = .joining key f →
      (p.cache.singleflight_.flight f).ready = false → ∃ query, p.Tends md5 query f
  spares : ∀ f query, p.Waits i f → p.Tends md5 query f → ¬ p.Strips md5 query f e
  heeds : ∀ f query d, p.Waits i f → p.Tends md5 query f → e = .session f.1 d →
    (∀ result, (p.sessions f.1).server_handler ≠ .notifying f.2 query result) →
      (p.sessions f.1).Heeds d

/-- The read is being written to the server, its result to the client, or it is with a call that is in
progress or waits for what somebody is at work on. -/
inductive Underway (md5 : Bytes → Bytes) (i : ℕ) (data : Bytes) (p : ProxyServer) : Prop
  | forwarding (present : .server_write data ∈ (p.sessions i).pending)
  | answering (reply : Bytes) (present : .response_write reply ∈ (p.sessions i).pending)
  | asking (query : Bytes) (calling : (p.sessions i).client_handler = .calling query data)
  | enlisted (k : ℕ) (f : ℕ × ℕ) (query : Bytes)
      (asked : (p.cache.doing (i, k)).query = intercept data)
      (enlisted : p.cache.singleflight_.Enlisted (i, k) f) (tends : p.Tends md5 query f)
  | due (k : ℕ) (asked : (p.cache.doing (i, k)).query = intercept data)
      (due : p.cache.singleflight_.Due (i, k))

/-- The client has got the result of a call for the text of the message, which was answered locally. -/
def Replied (i : ℕ) (m : Message) (reply : Bytes) (p : ProxyServer) : Prop :=
  ∃ call, .on_result call reply ∈ (p.sessions i).log ∧ p.cache.Answered (i, call) ∧
    (p.cache.doing (i, call)).query = m.text

/-- No message of the client is lost: all reads but one on its way have ended; every message is written
to the server as far as it has been read, or is a Query that has been answered; and the bytes written to
the server are the messages of the first kind, in order. -/
structure Conserved (md5 : Bytes → Bytes) (messages : List Message) (i : ℕ) (es : List Event)
    (p : ProxyServer) : Prop where
  split : ∃ rest, (reads (p.sessions i).log).map Prod.fst = (settled (tape i es)).map Prod.fst ++ rest ∧
    (rest = [] ∨ ∃ data, rest = [data] ∧ p.Underway md5 i data)
  safe : ∀ offset m, (offset, m) ∈ placed_messages messages →
    Forwarded (settled (tape i es)) offset m ∨
      ∃ reply, Answered (settled (tape i es)) offset m reply ∧ p.Replied i m reply
  decided : ∀ offset m, (offset, m) ∈ placed_messages messages →
    offset < ((settled (tape i es)).flatMap Prod.fst).length →
      (forwards (settled (tape i es)) offset = true ↔ Forwarded (settled (tape i es)) offset m)
  sent : written (tape i es) = (placed_messages messages).flatMap fun entry =>
    if forwards (settled (tape i es)) entry.1 then
      entry.2.encode.take (((settled (tape i es)).flatMap Prod.fst).length - entry.1) else []

/-- What a careful run keeps. -/
structure Conserving (md5 : Bytes → Bytes) (messages : List Message) (i : ℕ) (es : List Event)
    (p : ProxyServer) : Prop where
  accounted : p.Accounted md5
  coherent : p.Coherent md5
  consistent : ∀ j, (p.sessions j).Consistent
  single : (p.sessions i).Single
  recorded : (p.sessions i).core.Recorded
  tallied : Core.Tallied messages ((tape i es).foldl settle ([], [])) (p.sessions i).core
    (p.sessions i).pending
  ran : p.Ran i
  pursued : p.cache.singleflight_.Pursued
  asked : ∀ {k query}, (p.cache.doing (i, k)).query = some query →
    (texts (p.sessions i).log)[k]? = some query
  tends : ∀ f, p.Waits i f → ∃ query, p.Tends md5 query f

theorem conserving_init : (init store).Conserving md5 messages i [] :=
  ⟨accounted_init, coherent_init, fun _ => Session.consistent_init, Session.single_init,
    Core.recorded_init, Core.tallied_init, ran_init, SingleFlight.State.pursued_init,
    fun asked => by contradiction, fun _ waits => absurd waits.choose_spec.member List.not_mem_nil⟩

theorem tape_append (i : ℕ) (es es' : List Event) : tape i (es ++ es') = tape i es ++ tape i es' :=
  List.filterMap_append ..

private theorem tape_of_own (i : ℕ) (d : SessionEvent) : tape i [.session i d] = [d] := by
  simp [tape]

private theorem tape_of_other (other : ∀ d, e ≠ .session i d) : tape i [e] = [] := by
  cases e with
  | session j d =>
    have distinct : j ≠ i := by
      rintro rfl
      exact other d rfl
    simp [tape, distinct]
  | cache d => rfl

private theorem texts_of_step (taken : p.step? md5 e = some p') :
    texts (p.sessions i).log <+: texts (p'.sessions i).log := by
  rcases session_of_step taken i with same | ⟨d, ran⟩
  · rw [same]
  · obtain ⟨news, history⟩ := (Session.bridge_of_step ran).grows
    have log : (p'.sessions i).log = (p.sessions i).log ++ news := history
    rw [log, texts_append]
    exact List.prefix_append ..

/-- A call is for the text that its session handed over. -/
private theorem Conserving.asked_step (kept : p.Conserving md5 messages i es)
    (taken : p.step? md5 e = some p') {k : ℕ} {query : Bytes}
    (asked : (p'.cache.doing (i, k)).query = some query) :
    (texts (p'.sessions i).log)[k]? = some query := by
  have before : (texts (p.sessions i).log)[k]? = some query := by
    cases e with
    | session j d =>
      rw [cache_of_session taken] at asked
      exact kept.asked asked
    | cache d =>
      rcases query_cases kept.coherent.notifies taken i k with same | ⟨query', data, begun, calling, last⟩
      · exact kept.asked (same.symm.trans asked)
      · obtain rfl := Option.some.inj (asked.symm.trans begun)
        have recorded := kept.recorded.calling query data calling
        have here : (p.sessions i).core.calls - 1 = k := by
          have calls : (p.sessions i).core.calls = (p.sessions i).calls := rfl
          omega
        rwa [here] at recorded
  obtain ⟨more, grown⟩ := texts_of_step (i := i) taken
  rw [← grown, List.getElem?_append_left (List.getElem?_eq_some_iff.mp before).1, before]

/-- Whoever joins or waits in a flight finds it attended, and it goes on being attended. -/
private theorem Conserving.tends_step (kept : p.Conserving md5 messages i es)
    (careful : p.Careful md5 messages i e) (taken : p.step? md5 e = some p') {f : ℕ × ℕ}
    (waits : p'.Waits i f) : ∃ query, p'.Tends md5 query f := by
  obtain ⟨k, enlisted⟩ := waits
  have before : p.cache.singleflight_.Enlisted (i, k) f ∨ ∃ key, e = .cache (.flight (.join (i, k))) ∧
      p.cache.singleflight_.doing (i, k) = .joining key f ∧
        (p.cache.singleflight_.flight f).ready = false := by
    rcases singleflight_cases taken with ⟨d, rfl, block⟩ | ⟨-, same⟩
    · refine (SingleFlight.State.enlisted_cases enlisted block).imp_right ?_
      rintro ⟨key, rfl, joining, unready⟩
      exact ⟨key, rfl, joining, unready⟩
    · rw [same] at enlisted
      exact .inl enlisted
  rcases before with waits | ⟨key, rfl, joining, unready⟩
  · obtain ⟨query, tends⟩ := kept.tends f ⟨k, waits⟩
    exact ⟨query, tends.step kept.coherent (kept.consistent _) (careful.spares f query ⟨k, waits⟩ tends)
      (fun d => careful.heeds f query d ⟨k, waits⟩ tends) waits.unready taken⟩
  · obtain ⟨query, tends⟩ := careful.joins k key f rfl joining unready
    refine ⟨query, tends.step kept.coherent (kept.consistent _) ?_
      (fun d other => by contradiction) unready taken⟩
    rintro ⟨d, here, strips⟩
    obtain rfl := QueryCache.Event.flight.inj (Event.cache.inj here)
    exact strips

theorem Conserving.step (kept : p.Conserving md5 messages i es)
    (careful : p.Careful md5 messages i e) (taken : p.step? md5 e = some p') :
    p'.Conserving md5 messages i (es ++ [e]) := by
  have served : ∀ d, p.Does i e d → (p.sessions i).step? d = some (p'.sessions i) →
      (p.sessions i).core.Served d := by
    intro d does ran
    refine kept.accounted.served_of_fresh does ?_ taken ran
    rintro call value rfl
    exact (careful.own _ does).2.1
  have moved : (p'.sessions i).Single ∧ (p'.sessions i).core.Recorded ∧
      Core.Tallied messages ((tape i (es ++ [e])).foldl settle ([], [])) (p'.sessions i).core
        (p'.sessions i).pending := by
    rw [tape_append, List.foldl_append]
    have turn : ∀ d, p.Does i e d → (p.sessions i).step? d = some (p'.sessions i) →
        (tape i [e]).foldl settle ((tape i es).foldl settle ([], [])) =
          settle ((tape i es).foldl settle ([], [])) d → (p'.sessions i).Single ∧
        (p'.sessions i).core.Recorded ∧ Core.Tallied messages
          ((tape i [e]).foldl settle ((tape i es).foldl settle ([], []))) (p'.sessions i).core
          (p'.sessions i).pending := by
      intro d does ran same
      rw [same]
      exact ⟨kept.single.step (served d does ran) ran,
        kept.recorded.bridge (Session.bridge_of_step ran),
        Session.tallied_of_step kept.tallied kept.single kept.recorded (served d does ran)
          (careful.own d does) ran⟩
    rcases turn_cases taken i with ⟨other, same⟩ | ⟨d, rfl, permitted, ran, -⟩ |
      ⟨d, call, value, rfl, invoked, ran⟩
    · rw [tape_of_other other, same]
      exact ⟨kept.single, kept.recorded, kept.tallied⟩
    · exact turn d (.inl ⟨rfl, permitted⟩) ran (by rw [tape_of_own]; rfl)
    · exact turn _ (.inr ⟨d, call, value, rfl, rfl, invoked⟩) ran rfl
  refine ⟨kept.accounted.step taken, kept.coherent.step taken, ?_, moved.1, moved.2.1, moved.2.2, ?_, ?_,
    kept.asked_step taken, fun f => kept.tends_step careful taken⟩
  · intro j
    rcases session_of_step taken j with same | ⟨d, ran⟩
    · rw [same]
      exact kept.consistent j
    · exact (kept.consistent j).step ran
  · refine kept.ran.step (kept.consistent i) ?_ taken
    rintro d k value rfl invoked
    exact (careful.own _ (.inr ⟨d, k, value, rfl, rfl, invoked⟩)).1
  · intro c key f waits
    rcases singleflight_cases taken with ⟨d, -, block⟩ | ⟨-, same⟩
    · exact SingleFlight.State.Pursued.step kept.pursued kept.coherent.led block c key f waits
    · rw [same] at waits ⊢
      exact kept.pursued c key f waits

/-- A call that is answered locally is for the text that has its number. -/
private theorem Conserving.query_of_answered (kept : p.Conserving md5 messages i es) {k : ℕ}
    {text : Bytes} (answered : p.cache.Answered (i, k))
    (asked : (texts (p.sessions i).log)[k]? = some text) :
    (p.cache.doing (i, k)).query = some text := by
  have begun : ∃ query, (p.cache.doing (i, k)).query = some query := by
    rcases answered with hit | waiter
    · obtain ⟨query, value, served⟩ := QueryCache.State.returned_hit_iff.mp hit
      exact ⟨query, by rw [served]; rfl⟩
    · obtain ⟨query, key, f, flying, -⟩ := QueryCache.State.returned_waiter_iff.mp waiter
      exact ⟨query, by rw [flying]; rfl⟩
  obtain ⟨query, begun⟩ := begun
  rw [begun, ← asked]
  exact (kept.asked begun).symm

/-- The read that has not ended is on its way. -/
private theorem Conserving.underway (kept : p.Conserving md5 messages i es) {rest : List Bytes}
    (holding : Core.Holding messages (p.sessions i).core (p.sessions i).pending
      ((tape i es).foldl settle ([], [])).1 rest) :
    rest = [] ∨ ∃ data, rest = [data] ∧ p.Underway md5 i data := by
  cases holding with
  | free => exact .inl rfl
  | forwarding present => exact .inr ⟨_, rfl, .forwarding present⟩
  | answering reply present => exact .inr ⟨_, rfl, .answering reply present⟩
  | waiting k waits asked calling =>
    refine .inr ⟨_, rfl, ?_⟩
    obtain ⟨called, answered, undelivered⟩ := Core.mem_waiting.mp waits
    obtain ⟨text, asked, same⟩ := asked
    cases given : (verdicts (p.sessions i).log)[k]? with
    | none =>
      have beyond := List.getElem?_eq_none_iff.mp given
      have numbered := kept.single.numbered.calls
      cases handler : (p.sessions i).client_handler with
      | idle =>
        have idle : (p.sessions i).core.client_handler = .idle := handler
        rw [if_pos idle] at numbered
        exact absurd (Nat.lt_of_lt_of_le called (Nat.le_of_eq numbered)) (Nat.not_lt.mpr beyond)
      | calling query data =>
        obtain rfl := calling query data handler
        exact .asking query handler
    | some fate =>
      obtain rfl := answered fate given
      have answered := kept.accounted.told given
      rw [if_pos rfl] at answered
      have query := (kept.query_of_answered answered asked).trans same.symm
      rcases answered with hit | waiter
      · obtain ⟨query, value, served⟩ := QueryCache.State.returned_hit_iff.mp hit
        exact absurd (kept.ran.served served) undelivered
      · obtain ⟨-, key, f, -, waiter⟩ := QueryCache.State.returned_waiter_iff.mp waiter
        rcases kept.pursued _ key f waiter with ⟨result, invoked⟩ | enlisted | due
        · exact absurd (kept.ran.invoked invoked) undelivered
        · obtain ⟨query', tends⟩ := kept.tends f ⟨k, enlisted⟩
          exact .enlisted k f query' query enlisted tends
        · exact .due k query due

/-- In a run whose steps are careful, no message of the client is lost, whatever else the proxy does. -/
theorem conserved_of_careful (run : Path (step? md5) (Careful md5 messages i) (init store) es p)
    (stream : (reads (p.sessions i).log).flatMap Prod.fst <+: messages.flatMap Message.encode) :
    p.Conserved md5 messages i es := by
  have kept : p.Conserving md5 messages i es := by
    refine run.records (I := fun es p => p.Conserving md5 messages i es) conserving_init ?_
    exact fun _ _ _ _ kept careful taken => kept.step careful taken
  obtain ⟨rest, holding, split⟩ := kept.tallied.held
  have exact' : ∀ start data ending, (start, (data, ending)) ∈ placed_endings (settled (tape i es)) →
      Exact messages start data ending := kept.tallied.exact'
  have streamed : (settled (tape i es)).flatMap Prod.fst <+: messages.flatMap Message.encode := by
    refine List.IsPrefix.trans ⟨rest.flatten, ?_⟩ stream
    have parts := congrArg List.flatten split
    rw [List.flatten_append] at parts
    rw [List.flatMap_def, List.flatMap_def]
    exact parts.symm
  have nonempty : ∀ read ∈ settled (tape i es), read.1 ≠ [] := by
    intro read member
    have path : ∃ ds, Path Session.step? always ((init store).sessions i) ds (p.sessions i) ∧
        ds.filter own = tape i es := session_path i run fun _ _ _ _ _ _ _ => trivial
    obtain ⟨ds, path, -⟩ := path
    have present : read.1 ∈ (reads (p.sessions i).log).map Prod.fst := by
      have here : read.1 ∈ (settled (tape i es)).map Prod.fst ++ rest :=
        List.mem_append_left _ (List.mem_map_of_mem member)
      exact split ▸ here
    obtain ⟨read', member', same⟩ := List.mem_map.mp present
    rw [← same]
    exact (Session.reads_intercept path (List.nil_append _).symm read' member').1
  refine ⟨⟨rest, split, kept.underway holding⟩, ?_, ?_, ?_⟩
  · intro offset m at'
    refine (conserved_of_exact exact' at').imp_right ?_
    rintro ⟨reply, query, placed⟩
    refine ⟨reply, ⟨query, placed⟩, ?_⟩
    have ended : (m.encode, .answered reply) ∈ settled (tape i es) := by
      rw [← map_snd_place (fun read => read.1.length) 0 (settled (tape i es))]
      exact List.mem_map_of_mem placed
    obtain ⟨call, text, given, asked, same⟩ := kept.tallied.earned _ _ ended
    have delivered : call ∈ delivered (p.sessions i).log :=
      List.mem_filterMap.mpr ⟨_, given, rfl⟩
    have answered := kept.accounted.delivered delivered
    refine ⟨call, given, answered, ?_⟩
    obtain ⟨text', named⟩ := Option.ne_none_iff_exists'.mp query
    rw [kept.query_of_answered answered asked, ← same, named, intercept_encode named]
  · exact fun offset m at' begun => forwards_iff exact' nonempty at' begun
  · rw [← written_eq, sent_eq exact' streamed]

/-- The client asks `q` in a read of its own. -/
def asks_q : SessionEvent :=
  .complete .client_read (.ok [0x51, 0x00, 0x00, 0x00, 0x06, 0x71, 0x00])

/-- Its first query leads, is written to the server and answered, and the client gets the answer. -/
def led_q : List Event :=
  [.session 0 asks_q, .cache (.getL1_shared (0, 0) [0x71]), .cache (.getL2 (0, 0) false),
    .cache (.flight (.elect (0, 0) (QueryCache.hash_query id [0x71]))),
    .session 0 (.flight_result .IS_LEADER),
    .session 0 (.complete (.server_write [0x51, 0x00, 0x00, 0x00, 0x06, 0x71, 0x00]) (.ok [])),
    .session 0 (.complete .server_read (.ok [0x5a])),
    .cache (.putL1 (0, 0) [0x71] [0x5a]), .cache (.putL2 (0, 0) false),
    .cache (.flight (.lookup (0, 0) (QueryCache.hash_query id [0x71]) [0x5a])),
    .cache (.flight (.publish (0, 0))), .cache (.flight (.erase (0, 0))),
    .session 0 .notify_returned, .session 0 (.complete (.client_write [0x5a]) (.ok []))]

/-- The second query finds the answer in the cache, and the client gets it. -/
def cached_q : List Event :=
  [.cache (.getL1_shared (0, 1) [0x71]), .cache (.getL1_unique (0, 1)),
    .cache (.call_back (0, 1) .returned), .session 0 (.flight_result .CACHE_HIT),
    .session 0 (.complete (.response_write [0x5a]) (.ok []))]

/-- The second and the third query arrive in one read. -/
def pipelined : List Event :=
  Session.connected.map (.session 0) ++ led_q ++
    .session 0 (.complete .client_read (.ok [0x51, 0x00, 0x00, 0x00, 0x06, 0x71, 0x00,
      0x51, 0x00, 0x00, 0x00, 0x06, 0x71, 0x00])) :: cached_q

/-- The third query of `pipelined` is neither written to the server nor answered. -/
theorem not_conserved : ¬ ∀ (md5 : Bytes → Bytes) (store : Store) (messages : List Message) (i : ℕ)
    (es : List Event) (p : ProxyServer), Path (step? md5) always (init store) es p →
    (reads (p.sessions i).log).flatMap Prod.fst <+: messages.flatMap Message.encode →
      p.Conserved md5 messages i es := by
  intro conserved
  have run : ∃ p : ProxyServer, Path (step? id) always (init {}) pipelined p ∧
      reads (p.sessions 0).log = [([0x51, 0x00, 0x00, 0x00, 0x06, 0x71, 0x00], some [0x71]),
        ([0x51, 0x00, 0x00, 0x00, 0x06, 0x71, 0x00, 0x51, 0x00, 0x00, 0x00, 0x06, 0x71, 0x00],
          some [0x71])] :=
    ⟨_, replay_eq_some_iff.mp rfl, rfl⟩
  obtain ⟨p, path, reads⟩ := run
  have ended : settled (tape 0 pipelined) =
      [([0x51, 0x00, 0x00, 0x00, 0x06, 0x71, 0x00],
          .forwarded [0x51, 0x00, 0x00, 0x00, 0x06, 0x71, 0x00]),
        ([0x51, 0x00, 0x00, 0x00, 0x06, 0x71, 0x00, 0x51, 0x00, 0x00, 0x00, 0x06, 0x71, 0x00],
          .answered [0x5a])] := rfl
  have third : (14, query_q) ∈ placed_messages [query_q, query_q, query_q] :=
    .tail _ (.tail _ (.head _))
  rcases (conserved _ _ [query_q, query_q, query_q] 0 _ p path (by rw [reads]; exact List.prefix_rfl)).safe
    14 query_q third with forwarded | ⟨reply, ⟨-, placed⟩, -⟩
  · rw [ended] at forwarded
    have fated := forwarded 7 _ (.tail _ (.head _)) (by decide) (by decide)
    contradiction
  · rw [ended] at placed
    rcases placed with _ | ⟨_, _ | ⟨_, beyond⟩⟩
    contradiction

/-- The client's session is careful, and no call joins a flight. -/
structure Unjoined (messages : List Message) (i : ℕ) (p : ProxyServer) (e : Event) : Prop where
  own : ∀ d, p.Does i e d → (p.sessions i).Careful messages d
  joins : ∀ c, e ≠ .cache (.flight (.join c))

/-- Where no call joins a flight, it is enough that the client's own session is careful. -/
theorem careful_of_unjoined (run : Path (step? md5) (Unjoined messages i) (init store) es p) :
    Path (step? md5) (Careful md5 messages i) (init store) es p := by
  have alone := run.strengthen (I := fun p => ∀ f, (p.cache.singleflight_.flight f).callbacks = [])
    (fun _ => rfl) ?_
  · refine alone.mono ?_
    rintro p e p' ⟨unjoined, unlisted⟩ -
    have idle : ∀ f, ¬ p.Waits i f := by
      rintro f ⟨k, enlisted⟩
      have member := enlisted.member
      rw [unlisted] at member
      exact absurd member List.not_mem_nil
    exact ⟨unjoined.own, fun k _ _ here => absurd here (unjoined.joins (i, k)),
      fun f _ waits => absurd waits (idle f), fun f _ _ waits => absurd waits (idle f)⟩
  · intro p e p' unlisted unjoined taken f
    rcases singleflight_cases taken with ⟨d, rfl, block⟩ | ⟨-, same⟩
    · have fares := SingleFlight.State.fares_of_step block f
      generalize p'.cache.singleflight_.flight f = flight at fares
      cases fares with
      | enrolled c => exact absurd rfl (unjoined.joins c)
      | allocated => rfl
      | kept | acquired | released | resolved => exact unlisted f
    · rw [same]
      exact unlisted f

/-- A step of this kind is careful whatever the client's stream: it runs no callback, no read ends with
a failed write, and what goes to the server finds it reachable. -/
def quiet (p : ProxyServer) : Event → Bool
  | .session j (.complete .client_read (.ok data)) =>
    (intercept data).isSome || (p.sessions j).reaches_server
  | .session _ (.complete op (.error _)) => !op.ends_read
  | .session j (.flight_result .IS_LEADER) => (p.sessions j).reaches_server
  | .session _ (.on_result ..) => false
  | .session _ _ => true
  | .cache (.flight (.join _)) => false
  | .cache d => (p.cache.invokes d).isNone

theorem unjoined_of_quiet (still : p.quiet e = true) : p.Unjoined messages i e := by
  constructor
  · rintro d (⟨rfl, -⟩ | ⟨c, call, value, rfl, rfl, invoked⟩)
    · cases d with
      | complete op completion =>
        cases completion with
        | ok data =>
          cases op with
          | client_read =>
            intro _ unasked
            simpa [quiet, unasked] using still
          | _ => trivial
        | error ec => simpa [quiet, Session.Careful] using still
      | flight_result result =>
        cases result with
        | IS_LEADER => exact still
        | _ => trivial
      | on_result call value => contradiction
      | _ => trivial
    · cases c with
      | flight d =>
        cases d with
        | join c => contradiction
        | _ => simp [quiet, invoked] at still
      | _ => simp [quiet, invoked] at still
  · rintro c rfl
    contradiction

/-- A Sync message in two reads, a query that leads, and the same query again. -/
def conserving : List Event :=
  Session.connected.map (.session 0) ++
    [.session 0 (.complete .client_read (.ok [0x53, 0x00, 0x00])),
      .session 0 (.complete (.server_write [0x53, 0x00, 0x00]) (.ok [])),
      .session 0 (.complete .client_read (.ok [0x00, 0x04])),
      .session 0 (.complete (.server_write [0x00, 0x04]) (.ok []))] ++
    led_q ++ [.session 0 asks_q]

/-- The reads of `conserving` and the answer that is found in the cache have ended, three with their
writes to the server and the last with the answer. -/
theorem conserved_of_careful_run :
    ∃ p : ProxyServer, p.Conserved id [sync, query_q, query_q] 0 (conserving ++ cached_q) ∧
      settled (tape 0 (conserving ++ cached_q)) = [([0x53, 0x00, 0x00], .forwarded [0x53, 0x00, 0x00]),
        ([0x00, 0x04], .forwarded [0x00, 0x04]),
        ([0x51, 0x00, 0x00, 0x00, 0x06, 0x71, 0x00],
          .forwarded [0x51, 0x00, 0x00, 0x00, 0x06, 0x71, 0x00]),
        ([0x51, 0x00, 0x00, 0x00, 0x06, 0x71, 0x00], .answered [0x5a])] := by
  have run : ∃ before ready after : ProxyServer,
      Path (step? id) (fun p e => p.quiet e = true) (init {}) (conserving ++ cached_q.take 2) before ∧
      before.step? id (.cache (.call_back (0, 1) .returned)) = some ready ∧
      Path (step? id) (fun p e => p.quiet e = true) ready (cached_q.drop 3) after ∧
      before.cache.invokes (.call_back (0, 1) .returned) = some ((0, 1), [0x5a]) ∧
      (before.sessions 0).is_destroying_ = false ∧ delivered (before.sessions 0).log = [] ∧
      (reads (before.sessions 0).log).map Prod.fst = [[0x53, 0x00, 0x00], [0x00, 0x04],
        [0x51, 0x00, 0x00, 0x00, 0x06, 0x71, 0x00]] ++ [query_q.encode] ∧
      (reads (after.sessions 0).log).flatMap Prod.fst =
        [sync, query_q, query_q].flatMap Message.encode :=
    ⟨_, _, _, path_of_guarded rfl, rfl, path_of_guarded rfl, rfl, rfl, rfl, rfl, rfl⟩
  obtain ⟨before, ready, after, asked, called, left, invoked, alive, undelivered, last, stream⟩ := run
  have careful : before.Unjoined [sync, query_q, query_q] 0 (.cache (.call_back (0, 1) .returned)) := by
    refine ⟨?_, nofun⟩
    rintro d (⟨other, -⟩ | ⟨c, call, value, rfl, here, invoked'⟩)
    · contradiction
    · obtain rfl := Event.cache.inj here
      obtain ⟨same, -⟩ := Prod.mk.inj (Option.some.inj (invoked.symm.trans invoked'))
      obtain ⟨-, rfl⟩ := Prod.mk.inj same
      refine ⟨alive, undelivered ▸ List.not_mem_nil, _, query_q, last, ?_, by decide⟩
      exact .tail _ (.tail _ (.head _))
  have quiet : ∀ {p : ProxyServer} {e : Event} {p' : ProxyServer}, p.quiet e = true →
      p.step? id e = some p' → p.Unjoined [sync, query_q, query_q] 0 e :=
    fun still _ => unjoined_of_quiet still
  have path : Path (step? id) (Unjoined [sync, query_q, query_q] 0) (init {}) (conserving ++ cached_q)
      after := (asked.mono fun _ _ _ => quiet).append (.cons careful called (left.mono fun _ _ _ => quiet))
  exact ⟨after, conserved_of_careful (careful_of_unjoined path) (stream ▸ List.prefix_rfl), rfl⟩

end ProxyServer

end FlightProxy
