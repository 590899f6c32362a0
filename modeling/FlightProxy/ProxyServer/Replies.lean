import FlightProxy.ProxyServer.Calls
import FlightProxy.Session.ReplyOrder

/-! # Replies in order, in the proxy

A callback runs in a session whenever the cache has a result, from a handler of any session. When it
finds the session's server loop at rest, with nothing more to come, replies are in order.
-/

namespace FlightProxy.ProxyServer

open Transition

variable {md5 : Bytes → Bytes} {store : Store} {server : Server} {p p' : ProxyServer} {i : ℕ}
  {es : List Event}

/-- What the session's server does in a step of the proxy. -/
def Replies (server : Server) (i : ℕ) (p : ProxyServer) (e : Event) : Prop :=
  ∀ d, p.Does i e d → (p.sessions i).Replies server d

/-- When a callback runs in the session. -/
def Spaced (server : Server) (i : ℕ) (p : ProxyServer) (e : Event) : Prop :=
  ∀ d, p.Does i e d → (p.sessions i).Spaced server d

/-- When no callback runs a second time, and callbacks run in a session only when it has written to
the client all that its server is to reply so far, the session's replies are in the order of its
requests, one write at a time. -/
theorem ordered_of_spaced (run : Path (step? md5)
    (fun p e => Replies server i p e ∧ p.Once e ∧ Spaced server i p e) (init store) es p) :
    (p.sessions i).Ordered server := by
  have kept : p.Accounted md5 ∧ (p.sessions i).Paced server := by
    refine run.preserves (I := fun p => p.Accounted md5 ∧ (p.sessions i).Paced server)
      ⟨accounted_init, Session.paced_init⟩ ?_
    rintro p e p' ⟨accounted, paced⟩ ⟨replies, once, spaced⟩ taken
    refine ⟨accounted.step taken, ?_⟩
    rcases accounted.served once taken i with same | ⟨d, does, ran, served⟩
    · rw [same]
      exact paced
    · exact paced.step served (replies d does) (spaced d does) ran
  exact kept.2.ordered

private theorem replies_of_own {d : SessionEvent} (replies : (p.sessions i).Replies server d) :
    Replies server i p (.session i d) := by
  rintro d' (⟨here, -⟩ | ⟨c, call, value, -, other, -⟩)
  · obtain ⟨-, rfl⟩ := Event.session.inj here
    exact replies
  · contradiction

private theorem replies_of_cache (c : QueryCache.Event (ℕ × ℕ)) : Replies server i p (.cache c) := by
  rintro d (⟨other, -⟩ | ⟨c', call, value, rfl, -, -⟩)
  · contradiction
  · trivial

private theorem spaced_of_own {d : SessionEvent} (other : ∀ call value, d ≠ .on_result call value) :
    Spaced server i p (.session i d) := by
  rintro d' (⟨here, -⟩ | ⟨c, call, value, -, callback, -⟩)
  · obtain ⟨-, rfl⟩ := Event.session.inj here
    cases d with
    | on_result call value => exact absurd rfl (other call value)
    | _ => trivial
  · contradiction

/-- A block of the cache that runs no callback. -/
private theorem once_of_silent {c : QueryCache.Event (ℕ × ℕ)} (none : p.cache.invokes c = none) :
    p.Once (.cache c) := by
  intro c' value invoked
  rw [none] at invoked
  contradiction

/-- A block of the cache that runs the callback of a call. -/
private theorem once_of_invokes {c : QueryCache.Event (ℕ × ℕ)} (call : ℕ × ℕ) (value : Bytes)
    (invoked : p.cache.invokes c = some (call, value))
    (first : call.2 ∉ delivered (p.sessions call.1).log) : p.Once (.cache c) := by
  intro call' value' invoked'
  obtain ⟨rfl, rfl⟩ := Prod.mk.inj (Option.some.inj (invoked.symm.trans invoked'))
  exact first

private theorem spaced_of_idle {c : QueryCache.Event (ℕ × ℕ)}
    (all : relayed (p.sessions i).log = server.output (p.sessions i).core.asked)
    (unrelaying : ∀ data, .client_write data ∉ (p.sessions i).pending) : Spaced server i p (.cache c) := by
  rintro d (⟨other, -⟩ | ⟨c', call, value, rfl, -, -⟩)
  · contradiction
  · exact fun _ => ⟨all, unrelaying⟩

private theorem spaced_of_silent {c : QueryCache.Event (ℕ × ℕ)} (none : p.cache.invokes c = none) :
    Spaced server i p (.cache c) := by
  rintro d (⟨other, -⟩ | ⟨c', call, value, rfl, here, invoked⟩)
  · contradiction
  · obtain rfl := Event.cache.inj here
    rw [none] at invoked
    contradiction

/-- L1 has a result for `r`. -/
def warm : Store := { l1 := ({} : L1).putL1 (QueryCache.hash_query id [0x72]) [0xff] }

/-- A client connects and the server greets it. -/
def welcomed : List SessionEvent :=
  Session.connected ++
    [.complete .server_read (.ok [0x00]), .complete (.client_write [0x00]) (.ok [])]

/-- The client sends `q`, which misses the cache, and the session leads it. -/
def leads_q : List Event :=
  [.session 0 (.complete .client_read (.ok [0x51, 0x00, 0x00, 0x00, 0x06, 0x71, 0x00])),
    .cache (.getL1_shared (0, 0) [0x71]), .cache (.getL2 (0, 0) false),
    .cache (.flight (.elect (0, 0) (QueryCache.hash_query id [0x71]))),
    .session 0 (.flight_result .IS_LEADER),
    .session 0 (.complete (.server_write [0x51, 0x00, 0x00, 0x00, 0x06, 0x71, 0x00]) (.ok []))]

/-- Then it sends `r`, which is a hit. -/
def hits_r (call : ℕ) : List Event :=
  [.session 0 (.complete .client_read (.ok [0x51, 0x00, 0x00, 0x00, 0x06, 0x72, 0x00])),
    .cache (.getL1_shared (0, call) [0x72]), .cache (.getL1_unique (0, call)),
    .cache (.call_back (0, call) .returned), .session 0 (.flight_result .CACHE_HIT)]

/-- The answer to `q` arrives, is notified and relayed. -/
def relays_q : List Event :=
  [.session 0 (.complete .server_read (.ok [0x01])), .cache (.putL1 (0, 0) [0x71] [0x01]),
    .cache (.putL2 (0, 0) false),
    .cache (.flight (.lookup (0, 0) (QueryCache.hash_query id [0x71]) [0x01])),
    .cache (.flight (.publish (0, 0))), .cache (.flight (.erase (0, 0))),
    .session 0 .notify_returned]

private theorem out_of_order : ∃ p : ProxyServer,
    Path (step? id) (fun p e => Replies Session.numbered 0 p e ∧ p.Once e) (init warm)
      (welcomed.map (.session 0) ++ (leads_q ++ (hits_r 1 ++ relays_q))) p ∧
    to_client (p.sessions 0).log = [0x00, 0xff, 0x01] ∧
    due Session.numbered (result_of (p.sessions 0).log) 0 (p.sessions 0).core.requests = [0x00, 0x01, 0xff] ∧
    (p.sessions 0).pending = [.response_write [0xff], .client_write [0x01]] := by
  refine ⟨_, .append (.cons ⟨replies_of_own trivial, trivial⟩ rfl
    (.cons ⟨replies_of_own trivial, trivial⟩ rfl (.cons ⟨replies_of_own trivial, trivial⟩ rfl
    (.cons ⟨replies_of_own trivial, trivial⟩ rfl (.cons ⟨replies_of_own trivial, trivial⟩ rfl
    (.cons ⟨replies_of_own ⟨[], by decide +kernel⟩, trivial⟩ rfl
    (.cons ⟨replies_of_own trivial, trivial⟩ rfl (.nil _))))))))
    (.append (.cons ⟨replies_of_own trivial, trivial⟩ rfl
      (.cons ⟨replies_of_cache _, once_of_silent rfl⟩ rfl
      (.cons ⟨replies_of_cache _, once_of_silent rfl⟩ rfl
      (.cons ⟨replies_of_cache _, once_of_silent rfl⟩ rfl
      (.cons ⟨replies_of_own trivial, trivial⟩ rfl
      (.cons ⟨replies_of_own trivial, trivial⟩ rfl (.nil _)))))))
    (.append (.cons ⟨replies_of_own trivial, trivial⟩ rfl
      (.cons ⟨replies_of_cache _, once_of_silent rfl⟩ rfl
      (.cons ⟨replies_of_cache _, once_of_silent rfl⟩ rfl
      (.cons ⟨replies_of_cache _, once_of_invokes (0, 1) [0xff] rfl (by decide +kernel)⟩ rfl
      (.cons ⟨replies_of_own trivial, trivial⟩ rfl (.nil _))))))
    (.cons ⟨replies_of_own ⟨[], by decide +kernel⟩, trivial⟩ rfl
      (.cons ⟨replies_of_cache _, once_of_silent rfl⟩ rfl
      (.cons ⟨replies_of_cache _, once_of_silent rfl⟩ rfl
      (.cons ⟨replies_of_cache _, once_of_silent rfl⟩ rfl
      (.cons ⟨replies_of_cache _, once_of_silent rfl⟩ rfl
      (.cons ⟨replies_of_cache _, once_of_silent rfl⟩ rfl
      (.cons ⟨replies_of_own trivial, trivial⟩ rfl (.nil _)))))))))), ?_, ?_, ?_⟩
  · decide +kernel
  · decide +kernel
  · decide +kernel

/-- The hit is written before the answer to the query before it, and a second write starts while it
is being written. -/
theorem not_ordered : ¬ ∀ (md5 : Bytes → Bytes) (store : Store) (server : Server) (i : ℕ)
    (es : List Event) (p : ProxyServer),
    Path (step? md5) (fun p e => Replies server i p e ∧ p.Once e) (init store) es p →
      (p.sessions i).Ordered server := by
  intro ordered
  obtain ⟨p, path, written, replies, pending⟩ := out_of_order
  have order := (ordered id warm Session.numbered 0 _ p path).order
  rw [written, replies] at order
  revert order
  decide

/-- A client is welcomed, and then its query is a hit. -/
theorem ordered_of_spaced_run : ∃ p : ProxyServer,
    Path (step? id) (fun p e => Replies Session.numbered 0 p e ∧ p.Once e ∧
      Spaced Session.numbered 0 p e) (init warm) (welcomed.map (.session 0) ++ hits_r 0) p ∧
    (p.sessions 0).Ordered Session.numbered := by
  have run : ∃ p : ProxyServer, Path (step? id) (fun p e => Replies Session.numbered 0 p e ∧ p.Once e ∧
      Spaced Session.numbered 0 p e) (init warm) (welcomed.map (.session 0) ++ hits_r 0) p := by
    refine ⟨_, .append (.cons ⟨replies_of_own trivial, trivial, spaced_of_own nofun⟩ rfl
      (.cons ⟨replies_of_own trivial, trivial, spaced_of_own nofun⟩ rfl
      (.cons ⟨replies_of_own trivial, trivial, spaced_of_own nofun⟩ rfl
      (.cons ⟨replies_of_own trivial, trivial, spaced_of_own nofun⟩ rfl
      (.cons ⟨replies_of_own trivial, trivial, spaced_of_own nofun⟩ rfl
      (.cons ⟨replies_of_own ⟨[], by decide +kernel⟩, trivial, spaced_of_own nofun⟩ rfl
      (.cons ⟨replies_of_own trivial, trivial, spaced_of_own nofun⟩ rfl (.nil _))))))))
      (.cons ⟨replies_of_own trivial, trivial, spaced_of_own nofun⟩ rfl
      (.cons ⟨replies_of_cache _, once_of_silent rfl, spaced_of_silent rfl⟩ rfl
      (.cons ⟨replies_of_cache _, once_of_silent rfl, spaced_of_silent rfl⟩ rfl
      (.cons ⟨replies_of_cache _, once_of_invokes (0, 0) [0xff] rfl (by decide +kernel),
        spaced_of_idle (by decide +kernel) nofun⟩ rfl
      (.cons ⟨replies_of_own trivial, trivial, spaced_of_own nofun⟩ rfl (.nil _))))))⟩
  obtain ⟨p, path⟩ := run
  exact ⟨p, path, ordered_of_spaced path⟩

end FlightProxy.ProxyServer
