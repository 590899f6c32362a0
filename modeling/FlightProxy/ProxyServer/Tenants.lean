import FlightProxy.ProxyServer.Isolation
import FlightProxy.Session.History
import FlightProxy.Session.Negotiation

/-! # Tenants: what separates sessions is the cache key

A session belongs to the user and the database that its StartupMessage names. Nothing in the proxy
looks at them: results are kept and shared under the MD5 of the query alone. So a client is handed
what another session read from the server for a query with the same key, whoever that session
belongs to; and tenants that share no key, and do not evict each other's results, do not see each
other.
-/

namespace FlightProxy

open QueryCache (hash_query)

instance : DecidablePred looks_like_ssl_request := fun packet =>
  inferInstanceAs (Decidable (packet.length = 8 ∧ packet[4]? = some 0x04 ∧ packet[5]? = some 0xd2))

/-- The StartupMessage: the first packet of the client handed on that is no SSLRequest. -/
def startup_message (log : List Action) : Option Bytes :=
  (log.filterMap fun
    | .startup data | .read data _ => some data
    | _ => none).find? fun packet => ¬ looks_like_ssl_request packet

/-- A parameter of a StartupMessage, among its names and values in turn. -/
def parameter (name : Bytes) : List Bytes → Option Bytes
  | key :: value :: rest => if key = name then some value else parameter name rest
  | _ => none

/-- The user and the database; the database is named like the user if it is not given. -/
def user_database (packet : Bytes) : Option Bytes × Option Bytes :=
  let fields := (packet.drop 8).splitOn 0
  let user := parameter [0x75, 0x73, 0x65, 0x72] fields
  (user, (parameter [0x64, 0x61, 0x74, 0x61, 0x62, 0x61, 0x73, 0x65] fields).or user)

namespace Core

variable {c c' : Core} {e : SessionEvent}

/-- What the session notifies it has read from its server. -/
def Reads (c : Core) : Prop :=
  ∀ query value, .notify query value ∈ c.log → .response value ∈ c.log

theorem reads_init : Reads ⟨.idle, .idle, [], 0, 0, []⟩ := fun _ _ member => absurd member List.not_mem_nil

theorem Reads.bridge (reads : c.Reads) (step : Bridge c e c') : c'.Reads := by
  have aside : ∀ {news}, c'.log = c.log ++ news → (∀ query value, .notify query value ∉ news) →
      c'.Reads := by
    intro news log silent query value member
    rw [log] at member ⊢
    rcases List.mem_append.mp member with old | new
    · exact List.mem_append_left _ (reads query value old)
    · exact absurd new (silent query value)
  cases step with
  | quiet => exact reads
  | early e action early =>
    refine aside rfl fun query value member => ?_
    rw [← List.mem_singleton.mp member] at early
    contradiction
  | passes | asks | answered | leads | delivers => exact aside rfl (by simp)
  | responds data relayed => exact aside rfl (by cases relayed <;> simp)
  | notified call query data relayed => exact aside rfl (by cases relayed <;> simp)
  | notifies data idle leading =>
    intro query value member
    rcases List.mem_append.mp member with old | new
    · exact List.mem_append_left _ (reads query value old)
    · simp only [List.mem_cons, reduceCtorEq, Action.notify.injEq, List.not_mem_nil, or_false,
        false_or] at new
      obtain ⟨-, rfl⟩ := new
      exact List.mem_append_right _ List.mem_cons_self

end Core

namespace ProxyServer

open Transition

/-- Whom a session belongs to. -/
def tenant {τ : Type*} (names : Bytes → τ) (p : ProxyServer) (i : ℕ) : Option τ :=
  (startup_message (p.sessions i).log).map names

/-- The keys that a tenant's sessions ask for. -/
def Owns {τ : Type*} (md5 : Bytes → Bytes) (names : Bytes → τ) (es : List Event) (t : ProxyServer)
    (whose : Option τ) (key : Bytes) : Prop :=
  ∃ i query, (i, query) ∈ questions es ∧ t.tenant names i = whose ∧ hash_query md5 query = key

/-- No other session asks for a key that the tenant's sessions ask for. -/
def Apart {τ : Type*} (md5 : Bytes → Bytes) (names : Bytes → τ) (es : List Event) (t : ProxyServer)
    (whose : Option τ) : Prop :=
  ∀ j query, (j, query) ∈ questions es → Owns md5 names es t whose (hash_query md5 query) →
    t.tenant names j = whose

/-- A session has asked for the key, and has read the value from its server and notified it. -/
def Read (md5 : Bytes → Bytes) (es : List Event) (t : ProxyServer) (key value : Bytes) : Prop :=
  ∃ j query, (j, query) ∈ questions es ∧ hash_query md5 query = key ∧
    .notify query value ∈ (t.sessions j).log ∧ .response value ∈ (t.sessions j).log

/-- What a run keeps on the way to its end. -/
structure Supplied (md5 : Bytes → Bytes) (es : List Event) (t p : ProxyServer) : Prop where
  asking : p.Asking md5 fun i query => (i, query) ∈ questions es
  reads : ∀ i, (p.sessions i).core.Reads
  genuine : p.cache.Genuine md5 (Read md5 es t)
  answered : ∀ {i call value}, .on_result call value ∈ (p.sessions i).log →
    ∃ query, (p.cache.doing (i, call)).query = some query ∧ Read md5 es t (hash_query md5 query) value

variable {τ : Type*} {md5 : Bytes → Bytes} {names : Bytes → τ} {p p' t t' : ProxyServer} {e : Event}
  {es es' : List Event} {i : ℕ} {ok : ProxyServer → Event → Prop}

/-- Histories only grow. -/
theorem log_of_run (run : Path (step? md5) ok p es t) (i : ℕ) :
    (p.sessions i).log <+: (t.sessions i).log := by
  apply run.preserves (I := fun t => (p.sessions i).log <+: (t.sessions i).log) (List.prefix_refl _)
  intro q e q' before _ taken
  rcases session_of_step taken i with same | ⟨d, ran⟩
  · rwa [same]
  · obtain ⟨news, grown⟩ := (Session.bridge_of_step ran).grows
    have grown : (q'.sessions i).log = (q.sessions i).log ++ news := grown
    rw [grown]
    exact before.trans (List.prefix_append ..)

theorem supplied_init (l1_max_size_ : ℕ) (l1_enabled_ redis_enabled_ : Bool) :
    Supplied md5 es t (init { l1 := { l1_max_size_, l1_enabled_ }, redis_enabled_ }) := by
  refine ⟨asking_init, fun _ => Core.reads_init, ?_, fun member => absurd member List.not_mem_nil⟩
  exact QueryCache.State.genuine_init (L1.linked_empty l1_max_size_ l1_enabled_) rfl nofun

/-- A step adds to the results written to a client at most that of the callback it runs. -/
private theorem on_result_cases (taken : p.step? md5 e = some p') {call : ℕ} {value : Bytes}
    (member : .on_result call value ∈ (p'.sessions i).log) :
    .on_result call value ∈ (p.sessions i).log ∨
      ∃ d, e = .cache d ∧ p.cache.invokes d = some ((i, call), value) := by
  have turned : ∀ {d}, (p.sessions i).step? d = some (p'.sessions i) →
      .on_result call value ∈ (p.sessions i).log ∨ d = .on_result call value := by
    intro d ran
    have step := Session.bridge_of_step ran
    have member : .on_result call value ∈ (p'.sessions i).core.log := member
    generalize (p'.sessions i).core = c' at step member
    cases step with
    | quiet => exact .inl member
    | early e action early =>
      rcases List.mem_append.mp member with old | new
      · exact .inl old
      · rw [← List.mem_singleton.mp new] at early
        contradiction
    | delivers call' value' =>
      rcases List.mem_append.mp member with old | new
      · exact .inl old
      · obtain ⟨rfl, rfl⟩ := Action.on_result.inj (List.mem_singleton.mp new)
        exact .inr rfl
    | passes | asks | answered | leads | notifies =>
      rcases List.mem_append.mp member with old | new
      · exact .inl old
      · simp at new
    | responds data relayed | notified call' query data relayed =>
      rcases List.mem_append.mp member with old | new
      · exact .inl old
      · cases relayed <;> simp at new
  rcases turn_cases taken i with ⟨-, same⟩ | ⟨d, rfl, permitted, ran, -⟩ | ⟨d, call', value', rfl, invoked, ran⟩
  · rw [same] at member
    exact .inl member
  · rcases turned ran with old | rfl
    · exact .inl old
    · contradiction
  · rcases turned ran with old | here
    · exact .inl old
    · obtain ⟨rfl, rfl⟩ := SessionEvent.on_result.inj here
      exact .inr ⟨d, rfl, invoked⟩

theorem Supplied.step (supplied : Supplied md5 es t p) (member : e ∈ es)
    (later : ∀ i, (p.sessions i).log <+: (t.sessions i).log) (taken : p.step? md5 e = some p') :
    Supplied md5 es t p' := by
  obtain ⟨asking, reads, genuine, answered⟩ := supplied
  -- Whatever a step puts, its session has notified, so that it stands in the last history.
  have puts : ∀ d, e = .cache d → ∀ n query result, d = .putL1 n query result →
      Read md5 es t (hash_query md5 query) result := by
    rintro d rfl n query result rfl
    obtain ⟨entered, -⟩ := cache_cases taken
    have notifying := notifying_of_enters entered
    obtain ⟨-, notified, -⟩ := (asking.notifies.sessions n.1).now notifying
    exact ⟨n.1, query, (asking.sessions n.1).notifying notifying, rfl, (later n.1).subset notified,
      (later n.1).subset (reads n.1 query result notified)⟩
  have genuine' : p'.cache.Genuine md5 (Read md5 es t) := by
    cases e with
    | session i d =>
      rw [cache_of_session taken]
      exact genuine
    | cache d => exact genuine.step (puts d rfl) (cache_of_cache taken)
  refine ⟨asking.step (fun i query asks => List.mem_filterMap.mpr ⟨e, member, asks⟩) taken,
    fun i => ?_, genuine', ?_⟩
  · rcases session_of_step taken i with same | ⟨d, ran⟩
    · rw [same]
      exact reads i
    · exact (reads i).bridge (Session.bridge_of_step ran)
  · intro i call value member
    rcases on_result_cases taken member with old | ⟨d, rfl, invoked⟩
    · obtain ⟨query, asks, read⟩ := answered old
      refine ⟨query, ?_, read⟩
      cases e with
      | session j d => rwa [cache_of_session taken]
      | cache d => exact QueryCache.State.query_persists asks (cache_of_cache taken)
    · exact genuine'.of_invokes genuine (cache_of_cache taken) invoked

theorem Alike.asks {e' : Event} (alike : Alike e e') : e.asks = e'.asks := by
  cases e with
  | session i d =>
    cases e' with
    | session j d' =>
      cases d with
      | flight_result =>
        cases d' with
        | flight_result => rfl
        | _ =>
          obtain ⟨-, other⟩ : i = j ∧ _ = _ := alike
          contradiction
      | _ =>
        obtain ⟨rfl, rfl⟩ : i = j ∧ _ = _ := alike
        rfl
    | cache d' => exact absurd alike (by cases d <;> exact id)
  | cache d =>
    cases e' with
    | session j d' => exact absurd alike id
    | cache d' => rfl

theorem owner_of_asks {query : Bytes} (asks : e.asks = some (i, query)) : e.owner = i := by
  unfold Event.asks at asks
  split at asks
  · next j data =>
    obtain ⟨query', -, same⟩ := Option.map_eq_some_iff.mp asks
    exact (Prod.mk.inj same).1
  · contradiction

/-- Tapes that look alike to a tenant's sessions ask for the same keys on their behalf. -/
theorem owns_of_alike [DecidableEq τ] {whose : Option τ} {key : Bytes}
    (same : ∀ i, t.tenant names i = t'.tenant names i)
    (alike : List.Forall₂ Alike (es.filter fun e => t.tenant names e.owner = whose)
      (es'.filter fun e => t.tenant names e.owner = whose)) :
    Owns md5 names es t whose key ↔ Owns md5 names es' t' whose key := by
  have watched : ∀ {u : ProxyServer} {ds : List Event}, (∀ i, t.tenant names i = u.tenant names i) →
      (Owns md5 names ds u whose key ↔ ∃ i query,
        (i, query) ∈ questions (ds.filter fun e => t.tenant names e.owner = whose) ∧
          hash_query md5 query = key) := by
    intro u ds same
    constructor
    · rintro ⟨i, query, member, owns, hashed⟩
      obtain ⟨e, tape, asks⟩ := List.mem_filterMap.mp member
      have own : t.tenant names e.owner = whose := by rw [owner_of_asks asks, same, owns]
      have seen : e ∈ ds.filter fun e => t.tenant names e.owner = whose :=
        List.mem_filter.mpr ⟨tape, decide_eq_true own⟩
      exact ⟨i, query, List.mem_filterMap.mpr ⟨e, seen, asks⟩, hashed⟩
    · rintro ⟨i, query, member, hashed⟩
      obtain ⟨e, seen, asks⟩ := List.mem_filterMap.mp member
      obtain ⟨tape, own⟩ := List.mem_filter.mp seen
      have own := of_decide_eq_true own
      rw [owner_of_asks asks, same] at own
      exact ⟨i, query, List.mem_filterMap.mpr ⟨e, tape, asks⟩, own, hashed⟩
  have questions_eq : ∀ {ds ds' : List Event}, List.Forall₂ Alike ds ds' →
      questions ds = questions ds' := by
    intro ds ds' alike
    induction alike with
    | nil => rfl
    | cons like _ ih =>
      unfold questions at ih ⊢
      rw [List.filterMap_cons, List.filterMap_cons, like.asks, ih]
  rw [watched fun _ => rfl, watched same, questions_eq alike]

/-- The StartupMessage of a user. -/
def hello (user : UInt8) : Bytes :=
  [0x00, 0x00, 0x00, 0x10, 0x00, 0x03, 0x00, 0x00, 0x75, 0x73, 0x65, 0x72, 0x00, user, 0x00, 0x00]

example : user_database (hello 0x61) = (some [0x61], some [0x61]) := by decide +kernel

/-- A client of the user connects. -/
def joins (i : ℕ) (user : UInt8) : List Event :=
  [.session i .start, .session i (.complete (.resolve false) (.ok [])),
    .session i (.complete (.connect false) (.ok [])),
    .session i (.complete .read_client_startup (.ok (hello user))),
    .session i (.complete (.relay_to_server (hello user)) (.ok []))]

/-- A Query with a text of one byte. -/
def short_query (text : UInt8) : Bytes := [0x51, 0x00, 0x00, 0x00, 0x06, text, 0x00]

/-- The client sends it, it misses, and its session leads. -/
def misses (i call : ℕ) (text : UInt8) : List Event :=
  [.session i (.complete .client_read (.ok (short_query text))),
    .cache (.getL1_shared (i, call) [text]), .cache (.getL2 (i, call) false),
    .cache (.flight (.elect (i, call) (hash_query id [text]))),
    .session i (.flight_result .IS_LEADER)]

/-- The server answers, and the answer is notified and relayed. -/
def settles (i call : ℕ) (text answer : UInt8) : List Event :=
  [.session i (.complete (.server_write (short_query text)) (.ok [])),
    .session i (.complete .server_read (.ok [answer])), .cache (.putL1 (i, call) [text] [answer]),
    .cache (.putL2 (i, call) false),
    .cache (.flight (.lookup (i, call) (hash_query id [text]) [answer])),
    .cache (.flight (.publish (i, call))), .cache (.flight (.erase (i, call))),
    .session i .notify_returned, .session i (.complete (.client_write [answer]) (.ok []))]

/-- The client sends it, and L1 has the answer. -/
def hits (i call : ℕ) (text : UInt8) : List Event :=
  [.session i (.complete .client_read (.ok (short_query text))),
    .cache (.getL1_shared (i, call) [text]), .cache (.getL1_unique (i, call)),
    .cache (.call_back (i, call) .returned), .session i (.flight_result .CACHE_HIT)]

/-- The users `a` and `b` connect. -/
def joined : List Event := joins 0 0x61 ++ joins 1 0x62

/-- `b` asks for `r`. -/
def b_asks : List Event := joined ++ misses 1 0 0x72 ++ settles 1 0 0x72 0x02

/-- `a` asks for `q`. -/
def a_asks : List Event := misses 0 0 0x71 ++ settles 0 0 0x71 0x01

/-- What `b` does then. -/
def of_b : List Event := joins 1 0x62 ++ misses 1 0 0x72 ++ settles 1 0 0x72 0x02

def user_b : Option (Option Bytes × Option Bytes) := some (some [0x62], some [0x62])

private theorem apart_of_questions {whose : Option τ} (alone : ∀ asked ∈ questions es,
    ∀ other ∈ questions es, t.tenant names asked.1 = whose →
      hash_query md5 asked.2 = hash_query md5 other.2 → t.tenant names other.1 = whose) :
    Apart md5 names es t whose := by
  rintro j query member ⟨i, query', member', own, same⟩
  exact alone (i, query') member' (j, query) member own same

private theorem same_tenants (zero : t.tenant names 0 = t'.tenant names 0)
    (one : t.tenant names 1 = t'.tenant names 1) (none : ∀ i, (t.sessions (i + 2)).log = [])
    (none' : ∀ i, (t'.sessions (i + 2)).log = []) (i : ℕ) : t.tenant names i = t'.tenant names i := by
  match i with
  | 0 => exact zero
  | 1 => exact one
  | i + 2 => rw [tenant, tenant, none, none']

/-- L1 has room when the step puts. -/
def roomy (p : ProxyServer) : Event → Bool
  | .cache (.putL1 _ _ _) | .cache (.promote _) =>
    p.cache.store.l1.l1_list_.length < p.cache.store.l1.l1_max_size_
  | _ => true

private theorem spares_of_roomy {K : Bytes → Prop} (room : p.roomy e = true) : p.Spares md5 K e := by
  intro key _ drops
  cases e with
  | session i d => exact drops
  | cache d =>
    cases d with
    | putL1 n query result =>
      obtain ⟨-, -, full, -⟩ := drops
      exact absurd full (Nat.not_le.mpr (of_decide_eq_true room))
    | promote c =>
      obtain ⟨query, value, -, -, -, full, -⟩ := drops
      exact absurd full (Nat.not_le.mpr (of_decide_eq_true room))
    | _ => exact drops

end ProxyServer

end FlightProxy
