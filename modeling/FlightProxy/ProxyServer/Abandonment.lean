import FlightProxy.ProxyServer.Steps
import FlightProxy.QueryCache.Calls
import FlightProxy.Session.History
import FlightProxy.SingleFlight.Custody

/-! # What becomes of a flight whose leader stops serving

No branch in which a session stops serving calls into the cache, so the flight that it was leading
stays where it is. It is gone only when the notifyResult call of another leader of the same key got
to it before: by publishing to it, or by the final erase of the key.
-/

namespace FlightProxy

/-- The session stops serving: it runs close() or is destroyed, records the server's EOF, or leaves
a handler through a branch that arms nothing, on an expected SSL error or after the server's EOF. -/
def Session.Stops (s : Session) (e : SessionEvent) (s' : Session) : Prop :=
  (s.is_destroying_ = false ∧ s'.is_destroying_ = true) ∨
    (s.server_closed_ = false ∧ s'.server_closed_ = true) ∨
    (∃ op ec, e = .complete op (.error ec) ∧ is_expected_ssl_error ec = true ∧
      s.fail ec op = s.failed ec) ∨
    (s.server_closed_ = true ∧ ((∃ data, s'.log = s.log ++ [.bridged data .server_closed]) ∨
      ∃ data, e = .complete (.client_write data) (.ok [])))

namespace ProxyServer

open Transition
open QueryCache (hash_query)

variable {md5 : Bytes → Bytes} {store : Store} {p p' a b : ProxyServer} {c : ℕ × ℕ} {query : Bytes}
  {es₁ es₂ : List Event}

/-- With this step the session of a call stops serving, when it was told `IS_LEADER` for the query
and has not called notifyFlightResult for it. -/
structure Abandons (md5 : Bytes → Bytes) (query : Bytes) (c : ℕ × ℕ) (p p' : ProxyServer) :
    Prop where
  stops : ∃ e, p.step? md5 (.session c.1 e) = some p' ∧
    (p.sessions c.1).Stops e (p'.sessions c.1)
  leads : p'.cache.Leads md5 query c
  told : (p'.sessions c.1).client_handler = .idle ∨ c.2 + 1 < (p'.sessions c.1).calls
  silent : (∀ query' result, (p'.sessions c.1).server_handler ≠ .notifying c.2 query' result) ∧
    p'.cache.notifying c = .idle

/-- The map of flights holds the flight of the call, unready, under the key of the query. -/
def Keeps (md5 : Bytes → Bytes) (query : Bytes) (c : ℕ × ℕ) (p : ProxyServer) : Prop :=
  p.cache.singleflight_.Keeps (hash_query md5 query) c

/-- A notifyResult call of another leader publishes to the flight of the call, or erases the key of
the query. -/
def Releases (md5 : Bytes → Bytes) (query : Bytes) (c : ℕ × ℕ) (p : ProxyServer) (e : Event) :
    Prop :=
  ∃ n ≠ c,
    (e = .cache (.flight (.publish n)) ∧ ∃ result,
      p.cache.singleflight_.notifying n = .publishing (hash_query md5 query) result c) ∨
    (e = .cache (.flight (.erase n)) ∧ ∃ result g,
      p.cache.singleflight_.notifying n = .notifying (hash_query md5 query) result g [])

/-- References name leaders only, and the calls in `singleflight_` have entered it from here. -/
def Sound (md5 : Bytes → Bytes) (p : ProxyServer) : Prop :=
  p.cache.singleflight_.Led ∧ p.cache.Tied md5

theorem sound_init : (init store).Sound md5 :=
  ⟨SingleFlight.State.led_init, QueryCache.State.tied_init⟩

theorem Sound.step {e : Event} (sound : p.Sound md5) (taken : p.step? md5 e = some p') :
    p'.Sound md5 := by
  obtain ⟨led, tied⟩ := sound
  constructor
  · rcases singleflight_cases taken with ⟨d, -, block⟩ | ⟨-, same⟩
    · exact led.step block
    · rwa [same]
  · cases e with
    | session i e => rwa [cache_of_session taken]
    | cache d => exact tied.step (cache_of_cache taken)

/-- A call of notifyFlightResult that has begun stays begun. -/
theorem begun_of_step {e : Event} (begun : p.cache.notifying c ≠ .idle)
    (taken : p.step? md5 e = some p') : p'.cache.notifying c ≠ .idle := by
  cases e with
  | session i e => rwa [cache_of_session taken]
  | cache d =>
    rcases QueryCache.State.notifying_cases (cache_of_cache taken) c with
      same | ⟨-, kept | ⟨query, result, -, idle, -⟩⟩
    · rwa [same]
    · intro idle
      rw [idle] at kept
      cases state : p.cache.notifying c with
      | idle => exact begun state
      | pushing | publishing | flying =>
        rw [state] at kept
        contradiction
    · exact absurd idle begun

/-- The flight of a leader is lost exactly when the cache releases it, whatever the sessions do. -/
private theorem not_keeps_iff (run : Path (step? md5) always b es₂ p) (sound : b.Sound md5)
    (kept : b.Keeps md5 query c) :
    ¬ p.Keeps md5 query c ↔ Takes (step? md5) always (fun p e => ∃ d, e = .cache (.flight d) ∧
      p.cache.singleflight_.Releases (hash_query md5 query) c d) b es₂ p := by
  apply run.lost_iff (I := fun p => p.Sound md5 ∧
    p.cache.singleflight_.doing c = .leader (hash_query md5 query))
    ⟨sound, sound.1.entry kept.1⟩ kept
  · rintro p e p' ⟨sound, leads⟩ - taken
    refine ⟨sound.step taken, ?_⟩
    rcases singleflight_cases taken with ⟨d, -, block⟩ | ⟨-, same⟩
    · exact SingleFlight.State.leader_persists leads block
    · rwa [same]
  · rintro p e p' ⟨sound, -⟩ kept - taken
    simp only [Keeps] at kept ⊢
    rcases singleflight_cases taken with ⟨d, rfl, block⟩ | ⟨other, same⟩
    · rw [kept.step sound.1 block]
      constructor
      · exact fun releases => ⟨d, rfl, releases⟩
      · rintro ⟨d', here, releases⟩
        obtain rfl := QueryCache.Event.flight.inj (Event.cache.inj here)
        exact releases
    · rw [same]
      exact iff_of_false (not_not_intro kept) fun ⟨d, here, _⟩ => other d here
  · rintro p e p' ⟨-, leads⟩ gone - taken
    simp only [Keeps] at gone ⊢
    rcases singleflight_cases taken with ⟨d, -, block⟩ | ⟨-, same⟩
    · exact SingleFlight.State.not_keeps_of_step leads gone block
    · rwa [same]

/-- While a call has not notified, whoever releases its flight is another. -/
private theorem releases_iff {e : Event} (sound : a.Sound md5) (rest : Path (step? md5) always a es₁ p)
    (silent : p.cache.notifying c = .idle) :
    (∃ d, e = .cache (.flight d) ∧
      a.cache.singleflight_.Releases (hash_query md5 query) c d) ↔ a.Releases md5 query c e := by
  have other : ∀ {n key result}, (a.cache.singleflight_.notifying n).sends = some (key, result) →
      n ≠ c := by
    rintro n key result sends rfl
    obtain ⟨query, flying, -⟩ := sound.2.notifying sends
    have begun : a.cache.notifying n ≠ .idle := by simp [flying]
    exact rest.preserves (I := fun p => p.cache.notifying n ≠ .idle) begun
      (fun _ _ _ begun _ taken => begun_of_step begun taken) silent
  constructor
  · rintro ⟨d, rfl, releases⟩
    cases d with
    | publish n =>
      obtain ⟨result, publishing⟩ := releases
      exact ⟨n, other (by rw [publishing]; rfl), .inl ⟨rfl, result, publishing⟩⟩
    | erase n =>
      obtain ⟨result, g, notifying⟩ := releases
      exact ⟨n, other (by rw [notifying]; rfl), .inr ⟨rfl, result, g, notifying⟩⟩
    | _ => exact releases.elim
  · rintro ⟨n, -, ⟨rfl, result, publishing⟩ | ⟨rfl, result, g, notifying⟩⟩
    · exact ⟨_, rfl, result, publishing⟩
    · exact ⟨_, rfl, result, g, notifying⟩

/-- When a leader's session stops serving, its flight has been handed back exactly when some other
leader's notifyResult released it since the election; otherwise every later caller joins it. -/
theorem handed_back_iff (before : Path (step? md5) always (init store) es₁ a)
    (election : a.step? md5 (.cache (.flight (.elect c (hash_query md5 query)))) = some b)
    (elected : b.cache.singleflight_.doing c = .leader (hash_query md5 query))
    (serving : Path (step? md5) always b es₂ p) (abandons : Abandons md5 query c p p') :
    (¬ p'.Keeps md5 query c ↔ Takes (step? md5) always (Releases md5 query c) b es₂ p) ∧
      (p'.Keeps md5 query c → ∀ d q, p'.step? md5 (.cache (.flight (.elect d
        (hash_query md5 query)))) = some q →
          q.cache.singleflight_.doing d = .joining (hash_query md5 query) c) := by
  have sound : b.Sound md5 := (before.snoc trivial election).preserves sound_init
    fun _ _ _ sound _ taken => sound.step taken
  have kept : b.Keeps md5 query c := by
    obtain ⟨flights, block, -⟩ := QueryCache.State.flight_cases (cache_of_cache election)
    rcases singleflight_cases election with ⟨d, here, block⟩ | ⟨other, -⟩
    · obtain rfl := QueryCache.Event.flight.inj (Event.cache.inj here)
      obtain ⟨-, ⟨-, led⟩ | ⟨f, -, -, joined⟩⟩ := SingleFlight.State.elect_cases block
      · rw [Keeps, led]
        simp only [SingleFlight.State.Keeps, SingleFlight.State.lead, Function.update_self, and_self]
      · rw [joined] at elected
        simp only [Function.update_self] at elected
        contradiction
    · exact absurd rfl (other _)
  obtain ⟨e, stopped, -⟩ := abandons.stops
  have same : p'.cache = p.cache := cache_of_session stopped
  constructor
  · simp only [Keeps, same]
    rw [← Keeps, not_keeps_iff serving sound kept]
    have silent : p.cache.notifying c = .idle := by
      rw [← same]
      exact abandons.silent.2
    have others : ∀ {first e second mid}, Path (step? md5) always b first mid →
        Path (step? md5) always mid (e :: second) p →
        ((∃ d, e = .cache (.flight d) ∧
          mid.cache.singleflight_.Releases (hash_query md5 query) c d) ↔
            mid.Releases md5 query c e) := by
      intro first e second mid left right
      have sound := left.preserves sound fun _ _ _ sound _ taken => sound.step taken
      exact releases_iff sound right silent
    constructor
    · rintro ⟨first, e, second, mid, split, left, right, releases⟩
      exact ⟨first, e, second, mid, split, left, right, (others left right).mp releases⟩
    · rintro ⟨first, e, second, mid, split, left, right, releases⟩
      exact ⟨first, e, second, mid, split, left, right, (others left right).mpr releases⟩
  · intro kept d q taken
    rcases singleflight_cases taken with ⟨d', here, block⟩ | ⟨other, -⟩
    · obtain rfl := QueryCache.Event.flight.inj (Event.cache.inj here)
      exact SingleFlight.State.Keeps.joined kept block
    · exact absurd rfl (other _)

/-- A client connects and asks `q`, which misses the cache. -/
def asked : List Event :=
  Session.connected.map (.session 0) ++
    [.session 0 (.complete .client_read (.ok [0x51, 0x00, 0x00, 0x00, 0x06, 0x71, 0x00])),
      .cache (.getL1_shared (0, 0) [0x71]), .cache (.getL2 (0, 0) false)]

/-- It is elected and told so, and then its write to the server fails. -/
private theorem abandoned : ∃ a b p p' : ProxyServer,
    Path (step? id) always (init {}) asked a ∧
    a.step? id (.cache (.flight (.elect (0, 0) (hash_query id [0x71])))) = some b ∧
    b.cache.singleflight_.doing (0, 0) = .leader (hash_query id [0x71]) ∧
    Path (step? id) always b [.session 0 (.flight_result .IS_LEADER)] p ∧
    Abandons id [0x71] (0, 0) p p' ∧ p'.Keeps id [0x71] (0, 0) := by
  refine ⟨_, _, _, _, replay_eq_some_iff.mp rfl,
    rfl, rfl, .cons trivial rfl (.nil _), ⟨⟨.complete (.server_write
      [0x51, 0x00, 0x00, 0x00, 0x06, 0x71, 0x00]) (.error .other), rfl, .inl ⟨rfl, rfl⟩⟩,
      ⟨rfl, rfl⟩, .inl rfl, ?_, rfl⟩, rfl, rfl⟩
  intro query' result notifying
  contradiction

theorem not_handed_back : ¬ ∀ (md5 : Bytes → Bytes) (store : Store) (c : ℕ × ℕ) (query : Bytes)
    (es₁ es₂ : List Event) (a b p p' : ProxyServer), Path (step? md5) always (init store) es₁ a →
    a.step? md5 (.cache (.flight (.elect c (hash_query md5 query)))) = some b →
    b.cache.singleflight_.doing c = .leader (hash_query md5 query) →
    Path (step? md5) always b es₂ p → Abandons md5 query c p p' → ¬ p'.Keeps md5 query c := by
  intro handed
  obtain ⟨a, b, p, p', before, election, elected, serving, abandons, kept⟩ := abandoned
  exact handed id {} _ _ _ _ a b p p' before election elected serving abandons kept

/-- Nobody released the flight of that leader, so its key is blocked. -/
theorem handed_back_iff_run : ∃ b p : ProxyServer,
    ¬ Takes (step? id) always (Releases id [0x71] (0, 0)) b
      [.session 0 (.flight_result .IS_LEADER)] p := by
  obtain ⟨a, b, p, p', before, election, elected, serving, abandons, kept⟩ := abandoned
  refine ⟨b, p, fun released => ?_⟩
  exact (handed_back_iff before election elected serving abandons).1.mpr released kept

end ProxyServer

end FlightProxy
