import FlightProxy.ProxyServer.Calls
import FlightProxy.Session.Buffers
import FlightProxy.Session.History
import FlightProxy.Session.Relay

/-! # What every session of the proxy keeps to

A run of the proxy is a run of each of its sessions, in which callbacks run for calls that are
answered locally. So what holds of the two loops of a session holds in the proxy.
-/

namespace FlightProxy.ProxyServer

open Transition

variable {md5 : Bytes → Bytes} {store : Store} {p p' : ProxyServer} {es : List Event}

/-- The steps of one session, without the callbacks that run in it. -/
def tape (i : ℕ) (es : List Event) : List SessionEvent :=
  es.filterMap fun
    | .session j e => if j = i then some e else none
    | .cache _ => none

/-- A step of the session itself. -/
def own : SessionEvent → Bool
  | .on_result _ _ => false
  | _ => true

/-- A run of the proxy is a run of each of its sessions. -/
theorem session_path {ok : ProxyServer → Event → Prop} {ok' : Session → SessionEvent → Prop} (i : ℕ)
    (run : Path (step? md5) ok p es p')
    (follows : ∀ p e p' d, ok p e → p.step? md5 e = some p' → p.Does i e d →
      ok' (p.sessions i) d) :
    ∃ ds, Path Session.step? ok' (p.sessions i) ds (p'.sessions i) ∧ ds.filter own = tape i es := by
  induction run with
  | nil p => exact ⟨[], .nil _, rfl⟩
  | @cons p mid p' e es allowed taken _ ih =>
    obtain ⟨ds, path, same⟩ := ih
    rcases turn_cases taken i with ⟨other, kept⟩ | ⟨d, rfl, permitted, ran, -⟩ |
      ⟨c, call, value, rfl, invoked, ran⟩
    · rw [kept] at path
      refine ⟨ds, path, same.trans ?_⟩
      cases e with
      | session j d =>
        have distinct : j ≠ i := by
          rintro rfl
          exact other d rfl
        simp [tape, distinct]
      | cache c => rfl
    · refine ⟨d :: ds, .cons (follows _ _ _ d allowed taken (.inl ⟨rfl, permitted⟩)) ran path, ?_⟩
      have owned : own d = true := by
        cases d <;> first | rfl | contradiction
      rw [List.filter_cons_of_pos owned, same]
      simp [tape]
    · refine ⟨.on_result call value :: ds, .cons ?_ ran path, same⟩
      exact follows _ _ _ _ allowed taken (.inr ⟨c, call, value, rfl, rfl, invoked⟩)

/-- Callbacks are on no projection of the tape to operations that completed. -/
theorem filterMap_own {α : Type*} {view : SessionEvent → Option α}
    (callback : ∀ call value, view (.on_result call value) = none) {ds : List SessionEvent} :
    (ds.filter own).filterMap view = ds.filterMap view := by
  rw [List.filterMap_filter]
  refine List.filterMap_congr fun d _ => ?_
  cases d with
  | on_result call value => exact (callback call value).symm
  | _ => rfl

/-! ## Buffers -/

/-- When no callback runs twice, each side of a session has one operation at most, and whoever
changes a buffer has it alone. -/
theorem exclusive_of_once (run : Path (step? md5) Once (init store) es p) (i : ℕ) :
    (p.sessions i).Exclusive ∧ ∀ e p', p.Once e → p.step? md5 e = some p' →
      p'.sessions i = p.sessions i ∨ ∃ d, (p.sessions i).step? d = some (p'.sessions i) ∧
        (p.sessions i).Undisturbed d (p'.sessions i) := by
  have kept : p.Accounted md5 ∧ (p.sessions i).Single ∧ (p.sessions i).Serial := by
    refine run.preserves (I := fun p => p.Accounted md5 ∧ (p.sessions i).Single ∧
      (p.sessions i).Serial) ⟨accounted_init, Session.single_init, Session.serial_init⟩ ?_
    rintro p e p' ⟨accounted, single, serial⟩ once taken
    refine ⟨accounted.step taken, ?_⟩
    rcases accounted.served once taken i with same | ⟨d, -, ran, served⟩
    · rw [same]
      exact ⟨single, serial⟩
    · exact ⟨single.step served ran, serial.step ran⟩
  obtain ⟨accounted, single, serial⟩ := kept
  refine ⟨.of_tokens single serial, fun e p' once taken => ?_⟩
  refine (accounted.served once taken i).imp_right ?_
  rintro ⟨d, -, ran, served⟩
  exact ⟨d, ran, .of_step single serial served ran⟩

/-- A client connects and asks `q`: the server's side reads, and the client's side waits for the
call. -/
theorem exclusive_of_once_run : ∃ p : ProxyServer,
    Path (step? id) Once (init {}) (Session.connected.map (.session 0) ++
      [.session 0 (.complete .client_read (.ok [0x51, 0x00, 0x00, 0x00, 0x06, 0x71, 0x00])),
        .cache (.getL1_shared (0, 0) [0x71])]) p ∧
      (p.sessions 0).pending = [.server_read] ∧ 0 ∈ (p.sessions 0).core.waiting ∧
        (p.sessions 0).Exclusive := by
  have run : ∃ p : ProxyServer, Path (step? id) Once (init {}) (Session.connected.map (.session 0) ++
      [.session 0 (.complete .client_read (.ok [0x51, 0x00, 0x00, 0x00, 0x06, 0x71, 0x00])),
        .cache (.getL1_shared (0, 0) [0x71])]) p ∧
      (p.sessions 0).pending = [.server_read] ∧ 0 ∈ (p.sessions 0).core.waiting := by
    refine ⟨_, .cons trivial rfl (.cons trivial rfl (.cons trivial rfl (.cons trivial rfl
      (.cons trivial rfl (.cons trivial rfl (.cons ?_ rfl (.nil _))))))), ?_, ?_⟩
    · intro c value invoked
      contradiction
    · rfl
    · decide +kernel
  obtain ⟨p, path, pending, waits⟩ := run
  exact ⟨p, path, pending, waits, (exclusive_of_once path 0).1⟩

/-! ## Relaying -/

/-- The callback of a call that is answered locally, or its return. -/
private theorem answered_or_own {i : ℕ} (accounted : p.Accounted md5) {e : Event}
    {d : SessionEvent} (taken : p.step? md5 e = some p') (unanswered : ∀ call, ¬ p'.cache.Answered (i, call))
    (step : p.Does i e d) :
    (∀ result, d = .flight_result result → result = .IS_LEADER) ∧
      ∀ call value, d ≠ .on_result call value := by
  rcases step with ⟨rfl, permitted⟩ | ⟨c, call, value, rfl, rfl, invoked⟩
  · constructor
    · rintro result rfl
      have returned : p.cache.returned (i, (p.sessions i).calls - 1) = some result := by
        simpa [permits] using permitted
      rw [← cache_of_session taken] at returned
      cases result with
      | CACHE_HIT => exact absurd (.inl returned) (unanswered _)
      | IS_WAITER => exact absurd (.inr returned) (unanswered _)
      | IS_LEADER => rfl
    · rintro call value rfl
      contradiction
  · exact absurd (accounted.answered taken invoked) (unanswered call)

/-- What a session has passed on lags behind what it has read by one read at most: always to the
client, and to the server if it asks for no SSL and no query of it is answered locally. -/
theorem lags_of_run (run : Path (step? md5) always (init store) es p) (i : ℕ) :
    Lags (client_writes (tape i es)) (server_reads (tape i es)) ∧
      ((∀ data, .complete .read_client_startup (.ok data) ∈ tape i es →
          ¬ looks_like_ssl_request data) →
        (∀ call, ¬ p.cache.Answered (i, call)) →
        Lags (server_writes (tape i es)) (client_reads (tape i es))) := by
  constructor
  · have taken : ∃ ds, Path Session.step? always ((init store).sessions i) ds (p.sessions i) ∧
        ds.filter own = tape i es := session_path i run fun _ _ _ _ _ _ _ => trivial
    obtain ⟨ds, path, same⟩ := taken
    have lags := Session.client_lags path
    rw [← same, client_writes, server_reads, filterMap_own fun _ _ => rfl, filterMap_own fun _ _ => rfl]
    exact lags
  · intro plain unanswered
    have persists : ∀ (p : ProxyServer) (e : Event) (p' : ProxyServer), (∃ call, p.cache.Answered (i, call)) → ((True ∧ e ∈ es) ∧
        p.Accounted md5) → p.step? md5 e = some p' → ∃ call, p'.cache.Answered (i, call) := by
      rintro p e p' ⟨call, answered⟩ - taken
      exact ⟨call, answered_of_step answered taken⟩
    have watched := (run.along.strengthen (I := fun p => p.Accounted md5) accounted_init
      fun _ _ _ accounted _ taken => accounted.step taken).avoid persists
        fun ⟨call, answered⟩ => unanswered call answered
    have leading : ∃ ds, Path Session.step? Session.Leading ((init store).sessions i) ds
        (p.sessions i) ∧ ds.filter own = tape i es := by
      refine session_path i watched.2 ?_
      rintro p e p' d ⟨⟨⟨-, member⟩, accounted⟩, unanswered⟩ taken step
      obtain ⟨leads, silent⟩ := answered_or_own accounted taken
        (fun call answered => unanswered p' taken ⟨call, answered⟩) step
      unfold Session.Leading
      split
      · next data =>
        rcases step with ⟨rfl, -⟩ | ⟨c, call, value, other, -⟩
        · exact plain data (List.mem_filterMap.mpr ⟨_, member, by simp⟩)
        · contradiction
      · exact leads _ rfl
      · exact silent _ _ rfl
      · trivial
    obtain ⟨ds, path, same⟩ := leading
    have lags := Session.server_lags path
    rw [← same, server_writes, client_reads, filterMap_own fun _ _ => rfl,
      filterMap_own fun _ _ => rfl]
    exact lags

/-- A client connects without SSL, and the server's first byte reaches it. -/
def greeted : List SessionEvent :=
  Session.connected ++
    [.complete .server_read (.ok [0x52]), .complete (.client_write [0x52]) (.ok [])]

theorem lags_of_run_run : ∃ p : ProxyServer,
    Path (step? id) always (init {}) (greeted.map (.session 0)) p ∧
      Lags [[0x52]] [[0x52]] ∧ Lags [Session.plain_startup] [Session.plain_startup] := by
  have run : ∃ p : ProxyServer, Path (step? id) always (init {}) (greeted.map (.session 0)) p ∧
      ∀ call, ¬ p.cache.Answered (0, call) := by
    refine ⟨_, replay_eq_some_iff.mp rfl, ?_⟩
    rintro call (hit | waiter)
    · contradiction
    · contradiction
  obtain ⟨p, path, unanswered⟩ := run
  obtain ⟨client, server⟩ := lags_of_run path 0
  refine ⟨p, path, client, server ?_ unanswered⟩
  intro data member
  have here : data = Session.plain_startup := by
    simpa [tape, greeted, Session.connected] using member
  rw [here, looks_like_ssl_request]
  decide

end FlightProxy.ProxyServer
