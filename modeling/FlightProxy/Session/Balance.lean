import FlightProxy.Session.Replies

/-! # The account of a session's replies

Whoever has the token of the client's side, startup, a forwarded request or a call, decides who
replies next. So when a callback writes only where the server owes nothing, what has been written to
the client and what the server still owes are the replies to all requests, in order, and no two
writes to the client are in progress.
-/

namespace FlightProxy

namespace Core

variable {server : Server} {c c' : Core} {ops ops' : List Op} {e : SessionEvent} {news : List Action}

theorem count_requests : c.requests.count .server = c.asked := by
  rw [requests, asked]
  cases c.client_handler with
  | idle => simp
  | calling sql_query data => simp

/-- The account of a session's history, with a server that replies in order to what it is sent. -/
structure Balanced (server : Server) (c : Core) : Prop where
  calls : (booked c.log).1 = c.calls
  past : ∀ call ∈ delivered c.log, call < c.calls
  within : from_server c.log <+: server.output c.asked
  settled : Settled server c.log c.requests c.waiting

/-- Entries that write nothing to the client, and the requests they make. -/
private theorem Balanced.grows (balanced : c.Balanced server) (log : c'.log = c.log ++ news)
    (unwritten : ∀ action ∈ news, action.unwritten = true) (unread : responses news = [])
    (calls : (booked c'.log).1 = c'.calls) (more : c.calls ≤ c'.calls)
    (asked : server.output c.asked <+: server.output c'.asked)
    (settled : Settled server c.log c'.requests c'.waiting) : c'.Balanced server := by
  refine ⟨calls, ?_, ?_, ?_⟩
  · intro call member
    rw [log, delivered_append, (silent_of_unwritten unwritten).2.2, List.append_nil] at member
    exact Nat.lt_of_lt_of_le (balanced.past call member) more
  · rw [log, from_server_append, from_server, from_server, unread, List.flatten_nil, List.append_nil]
    exact balanced.within.trans asked
  · rw [log]
    exact settled.aside unwritten

/-- A request that goes to the server. -/
private theorem Balanced.forwards (balanced : c.Balanced server) (log : c'.log = c.log ++ news)
    (unwritten : ∀ action ∈ news, action.unwritten = true) (unread : responses news = [])
    (booked_all : booked c'.log = (c'.calls, (booked c.log).2 ++ [.server]))
    (more : c.calls ≤ c'.calls) (idle : c'.client_handler = .idle) (none : c'.waiting = ∅)
    (settled : Settled server c.log (booked c.log).2 ∅) : c'.Balanced server := by
  have requests : c'.requests = (booked c.log).2 ++ [.server] := by
    rw [Core.requests, booked_all, idle]
    exact List.append_nil _
  have asked : c'.asked = c.asked + 1 := by
    rw [← count_requests, requests, count_server, Core.asked]
  refine balanced.grows log unwritten unread (congrArg Prod.fst booked_all) more ?_ ?_
  · rw [asked]
    exact Server.output_prefix (Nat.le_succ _)
  · rw [requests, none]
    exact settled.forwards

/-- Entries that make no request. -/
private theorem Balanced.aside (balanced : c.Balanced server) (log : c'.log = c.log ++ news)
    (unwritten : ∀ action ∈ news, action.unwritten = true) (unread : responses news = [])
    (same : booked c'.log = booked c.log) (calls : c'.calls = c.calls)
    (handler : c'.client_handler = c.client_handler) (waiting : c'.waiting = c.waiting) :
    c'.Balanced server := by
  have requests : c'.requests = c.requests := by rw [Core.requests, Core.requests, same, handler, calls]
  have asked : c'.asked = c.asked := by rw [Core.asked, Core.asked, same]
  refine balanced.grows log unwritten unread ?_ (Nat.le_of_eq calls.symm) ?_ ?_
  · rw [same, calls]
    exact balanced.calls
  · rw [asked]
  · rw [requests, waiting]
    exact balanced.settled

private theorem requests_idle (idle : c.client_handler = .idle) : c.requests = (booked c.log).2 := by
  rw [requests, idle]
  exact List.append_nil _

/-- Startup sends the client's first packet to the server. -/
private theorem Balanced.startup {actions : List Action} (balanced : c.Balanced server)
    (early : ∀ action ∈ actions, action.early = true) (idle : c.client_handler = .idle)
    (none : c.waiting = ∅) : (c.record actions).Balanced server := by
  induction actions generalizing c with
  | nil =>
    have same : c.record [] = c := by rw [record, List.append_nil]
    rwa [same]
  | cons action actions ih =>
    have split : c.record (action :: actions) = (c.record [action]).record actions := by
      simp [record]
    have first := early action List.mem_cons_self
    have waits : (c.record [action]).waiting = ∅ := by
      have aside : ∀ other ∈ [action], other.aside = true := fun other member =>
        List.mem_singleton.mp member ▸ Action.aside_of_early first
      have log : (c.record [action]).log = c.log ++ [action] := rfl
      rw [waiting_congr log aside rfl, none]
    rw [split]
    refine ih ?_ (fun other member => early other (List.mem_cons_of_mem _ member)) idle waits
    cases action with
    | negotiate data | answer byte =>
      refine balanced.aside rfl (by simp [Action.unwritten]) rfl ?_ rfl rfl (waits.trans none.symm)
      exact booked_append
    | startup data =>
      have settled := balanced.settled
      rw [requests_idle idle, none] at settled
      refine balanced.forwards rfl (by simp [Action.unwritten]) rfl ?_ (Nat.le_refl _) idle waits settled
      rw [record, booked_append, ← balanced.calls]
      rfl
    | read | bridged | response | notify | on_result | relay => contradiction

/-- A read that is not a query. -/
private theorem Balanced.passes (balanced : c.Balanced server) (numbered : c.Numbered) (data : Bytes)
    (fate : Fate) (idle : c.client_handler = .idle) (unanswered : fate ≠ .answered)
    (unwaited : c.waiting = ∅) : (c.record [.read data none, .bridged data fate]).Balanced server := by
  obtain ⟨-, waiting⟩ := numbered.passes data fate idle
  have unwritten : ∀ action ∈ [Action.read data none, .bridged data fate],
      action.unwritten = true := by simp [Action.unwritten]
  have log : booked (c.record [.read data none, .bridged data fate]).log =
      book (booked c.log) (.bridged data fate) := by
    rw [record, booked_append]
    rfl
  cases fate with
  | forwarded =>
    have settled := balanced.settled
    rw [requests_idle idle, unwaited] at settled
    refine balanced.forwards rfl unwritten rfl ?_ (Nat.le_refl _) idle (waiting.trans unwaited) settled
    have next : book (booked c.log) (.bridged data .forwarded) =
        ((booked c.log).1, (booked c.log).2 ++ [.server]) := rfl
    rw [log, next, balanced.calls]
    rfl
  | server_closed | no_socket => exact balanced.aside rfl unwritten rfl log rfl rfl waiting
  | answered => exact absurd rfl unanswered

/-- A read that is a query. -/
private theorem Balanced.asks (balanced : c.Balanced server) (numbered : c.Numbered)
    {data sql_query : Bytes} (idle : c.client_handler = .idle) (none : c.waiting = ∅)
    (log : c'.log = c.log ++ [.read data (some sql_query)]) (calls : c'.calls = c.calls + 1)
    (handler : c'.client_handler = .calling sql_query data) : c'.Balanced server := by
  obtain ⟨numbered', grown⟩ := numbered.asks c' idle log calls handler
  have undelivered : c.calls ∉ delivered c.log := fun member =>
    Nat.lt_irrefl _ (balanced.past _ member)
  have last : c'.calls - 1 = c.calls := by rw [calls, Nat.add_sub_cancel]
  have waits : c'.waiting = {c.calls} := by
    rw [none, insert_empty_eq] at grown
    refine (Finset.subset_singleton_iff.mp grown).resolve_left ?_
    have member := numbered'.mem_waiting_of_calling handler (by
      rw [last, log, delivered_append]
      simpa [delivered] using undelivered)
    exact Finset.nonempty_iff_ne_empty.mp ⟨_, member⟩
  have booked_all : booked c'.log = (c'.calls, (booked c.log).2) := by
    rw [log, booked_append, calls, ← balanced.calls]
    rfl
  have requests : c'.requests = (booked c.log).2 ++ [.call c.calls] := by
    rw [Core.requests, booked_all, handler, last]
  have settled := balanced.settled
  rw [requests_idle idle, none] at settled
  refine balanced.grows log (by simp [Action.unwritten]) rfl (congrArg Prod.fst booked_all)
    (calls ▸ Nat.le_succ _) ?_ ?_
  · rw [asked, asked, booked_all]
  · rw [requests, waits]
    exact settled.asks undelivered

/-- A call that answers its read locally, or has. -/
private theorem Balanced.answered (balanced : c.Balanced server) (numbered : c.Numbered)
    {data sql_query : Bytes} (calling : c.client_handler = .calling sql_query data)
    (log : c'.log = c.log ++ [.bridged data .answered]) (calls : c'.calls = c.calls)
    (handler : c'.client_handler = .idle) : c'.Balanced server := by
  obtain ⟨-, waiting⟩ := numbered.settles c' calling log calls handler
  rw [if_pos rfl] at waiting
  have booked_all : booked c'.log = (c'.calls, (booked c.log).2 ++ [.call (c.calls - 1)]) := by
    rw [log, booked_append, calls, ← balanced.calls]
    rfl
  have requests : c'.requests = c.requests := by
    rw [requests_idle handler, booked_all, Core.requests, calling]
  refine balanced.grows log (by simp [Action.unwritten]) rfl (congrArg Prod.fst booked_all)
    (Nat.le_of_eq calls.symm) ?_ ?_
  · rw [← count_requests, ← count_requests, requests]
  · rw [requests, waiting]
    exact balanced.settled

/-- A call that makes the session leader. -/
private theorem Balanced.leads (balanced : c.Balanced server) (numbered : c.Numbered)
    {data sql_query : Bytes} {fate : Fate} (calling : c.client_handler = .calling sql_query data)
    (waits : c.waiting = {c.calls - 1}) (unanswered : fate ≠ .answered)
    (log : c'.log = c.log ++ [.bridged data fate]) (calls : c'.calls = c.calls)
    (handler : c'.client_handler = .idle) : c'.Balanced server := by
  obtain ⟨-, waiting⟩ := numbered.settles c' calling log calls handler
  rw [if_neg unanswered, waits, Finset.erase_singleton] at waiting
  have settled := balanced.settled
  rw [Core.requests, calling, waits] at settled
  have settled := settled.withdraws
  have next : booked c'.log = book (booked c.log) (.bridged data fate) := by
    rw [log, booked_append]
    rfl
  have unwritten : ∀ action ∈ [Action.bridged data fate], action.unwritten = true := by
    simp [Action.unwritten]
  have more : c.calls ≤ c'.calls := Nat.le_of_eq calls.symm
  cases fate with
  | forwarded =>
    refine balanced.forwards log unwritten rfl ?_ more handler waiting settled
    rw [next, calls, ← balanced.calls]
    rfl
  | server_closed | no_socket =>
    have same : booked c'.log = booked c.log := next
    refine balanced.grows log unwritten rfl ?_ more ?_ ?_
    · rw [same, calls]
      exact balanced.calls
    · rw [asked, asked, same]
    · rw [requests_idle handler, same, waiting]
      exact settled
  | answered => exact absurd rfl unanswered

/-- A callback that writes when the server owes nothing. -/
private theorem Balanced.delivers (balanced : c.Balanced server) (numbered : c.Numbered)
    {call : ℕ} (data : Bytes) (waits : c.waiting = {call})
    (owes_nothing : relayed c.log = server.output c.asked) :
    (c.record [.on_result call data]).Balanced server := by
  obtain ⟨-, waiting⟩ := numbered.delivers call data
  rw [waits, Finset.erase_singleton] at waiting
  have same : booked (c.record [.on_result call data]).log = booked c.log := by
    rw [record, booked_append]
    rfl
  have requests : (c.record [.on_result call data]).requests = c.requests := by
    rw [Core.requests, Core.requests, same]
    rfl
  have asked : (c.record [.on_result call data]).asked = c.asked := by rw [Core.asked, Core.asked, same]
  refine ⟨?_, ?_, ?_, ?_⟩
  · rw [same]
    exact balanced.calls
  · intro other member
    rw [record, delivered_append] at member
    rcases List.mem_append.mp member with earlier | last
    · exact balanced.past other earlier
    · obtain rfl := List.mem_singleton.mp last
      have here : other ∈ c.waiting := by
        rw [waits]
        exact Finset.mem_singleton_self _
      exact (mem_waiting.mp here).1
  · rw [asked, record, from_server_append]
    exact (List.append_nil _).symm ▸ balanced.within
  · rw [requests, waiting]
    have settled := balanced.settled
    rw [waits] at settled
    rw [← count_requests] at owes_nothing
    exact settled.delivers owes_nothing data

/-- A step of the server loop, which relays the next bytes if any. -/
private theorem Balanced.serves (balanced : c.Balanced server) (relays : Bool) (data : Bytes)
    (log : c'.log = c.log ++ news ++ if relays then [.relay data] else [])
    (unwritten : ∀ action ∈ news, action.unwritten = true) (silent : ∀ action ∈ news, action.aside = true)
    (unbooked : ∀ booked, news.foldl book booked = booked)
    (calls : c'.calls = c.calls) (handler : c'.client_handler = c.client_handler)
    (within : from_server c'.log <+: server.output c.asked)
    (next : relayed c.log ++ data <+: server.output c.asked) : c'.Balanced server := by
  have grown : c'.log = c.log ++ (news ++ if relays then [.relay data] else []) := by
    rw [log, List.append_assoc]
  have same : booked c'.log = booked c.log := by
    rw [grown, booked_append, List.foldl_append, unbooked]
    cases relays <;> rfl
  have requests : c'.requests = c.requests := by rw [Core.requests, Core.requests, same, handler, calls]
  have asked : c'.asked = c.asked := by rw [Core.asked, Core.asked, same]
  have waiting : c'.waiting = c.waiting := by
    refine waiting_congr grown (fun action member => ?_) calls
    rcases List.mem_append.mp member with early | last
    · exact silent action early
    · cases relays
      · contradiction
      · rw [List.mem_singleton.mp last]
        rfl
  obtain ⟨-, unrelayed, undelivered⟩ := silent_of_unwritten unwritten
  refine ⟨?_, ?_, ?_, ?_⟩
  · rw [same, calls]
    exact balanced.calls
  · intro call member
    rw [grown, delivered_append, delivered_append, undelivered, List.nil_append] at member
    rcases List.mem_append.mp member with earlier | last
    · exact calls ▸ balanced.past call earlier
    · cases relays <;> contradiction
  · rwa [asked]
  · rw [log, requests, waiting]
    have settled := balanced.settled.aside unwritten
    cases relays with
    | false => exact (List.append_nil _).symm ▸ settled
    | true =>
      refine settled.relays ?_
      rwa [relayed_append, unrelayed, List.append_nil, count_requests]

/-- Operations of both loops keep out of each other's way. -/
structure Apart (server : Server) (c : Core) (ops : List Op) : Prop where
  early : (∃ op ∈ ops, op.stage ≠ .bridging) → c.calls = 0
  hushed : ∀ {data}, .response_write data ∈ ops → from_server c.log = server.output c.asked ∧
    c.server_handler = .idle ∧ ∀ op ∈ ops, op.serverward = true → op.writes_client = false

/-- Operations may go, and ones that write nothing to the client may come. -/
private theorem Apart.rearm (apart : c.Apart server ops)
    (come : ∀ op ∈ ops', op ∈ ops ∨ (op.stage = .bridging ∧ op.writes_client = false))
    (calls : c'.calls = c.calls) (log : from_server c'.log = from_server c.log)
    (asked : c'.asked = c.asked) (handler : c'.server_handler = c.server_handler) :
    c'.Apart server ops' := by
  constructor
  · rintro ⟨op, present, startup⟩
    rcases come op present with before | ⟨bridging, -⟩
    · exact calls.trans (apart.early ⟨op, before, startup⟩)
    · exact absurd bridging startup
  · intro data present
    rcases come _ present with before | ⟨-, other⟩
    · obtain ⟨all, idle, quiet⟩ := apart.hushed before
      rw [log, asked, handler]
      refine ⟨all, idle, fun op member serverward => ?_⟩
      rcases come op member with earlier | ⟨-, quiet⟩
      · exact quiet op earlier serverward
      · exact quiet
    · contradiction

/-- While no result is being written, only startup has to be kept apart. -/
private theorem Apart.of_unwritten (early : (∃ op ∈ ops, op.stage ≠ .bridging) → c.calls = 0)
    (unwritten : ∀ data, .response_write data ∉ ops) : c.Apart server ops :=
  ⟨early, fun {data} present => absurd present (unwritten data)⟩

private theorem Apart.bridging (apart : c.Apart server ops)
    (come : ∀ op ∈ ops', op ∈ ops ∨ op.stage = .bridging) (calls : c'.calls = c.calls)
    (unwritten : ∀ data, .response_write data ∉ ops') : c'.Apart server ops' := by
  refine .of_unwritten ?_ unwritten
  rintro ⟨op, member, startup⟩
  rcases come op member with before | bridging
  · exact calls.trans (apart.early ⟨op, before, startup⟩)
  · exact absurd bridging startup

theorem clientward_of_stage {op : Op} (startup : op.stage ≠ .bridging) : op.clientward = true := by
  cases op <;> first | rfl | exact absurd rfl startup

theorem stage_of_startup {op : Op} (startup : op.bridges = false) : op.stage ≠ .bridging := by
  cases op <;> first | contradiction | simp [Op.stage]

/-- What a step may count on in a run of a session. -/
structure Due (server : Server) (c : Core) (ops : List Op) (e : SessionEvent) (ops' : List Op) :
    Prop where
  numbered : c.Numbered
  one : c.held ops ≤ 1
  served : c.Served e
  unstarted : e = .start → c.calls = 0 ∧ c.held ops = 0
  behind : relayed c.log <+: from_server c.log
  /-- The server loop reads when it has relayed everything before. -/
  reads : ∀ {data}, e = .complete .server_read (.ok data) → data ≠ [] ∧
    relayed c.log = from_server c.log ∧ from_server c.log ++ data <+: server.output c.asked
  notifying : ∀ {call query data}, c.server_handler = .notifying call query data →
    data ≠ [] ∧ from_server c.log = relayed c.log ++ data
  /-- A callback writes when the server owes nothing, and the server loop is not writing. -/
  spaced : ∀ {call result}, e = .on_result call result → ops' ≠ ops →
    relayed c.log = server.output c.asked ∧ ∀ data, .client_write data ∉ ops

private theorem Due.idle (holds : Due server c ops e ops') (none : c.calls = 0) :
    c.client_handler = .idle ∧ c.waiting = ∅ := by
  have calls := holds.numbered.calls
  rw [none] at calls
  constructor
  · by_contra busy
    rw [if_neg busy] at calls
    omega
  · ext call
    simp [mem_waiting, none]

theorem Balanced.turn (turn : Turn c ops e c' ops') (holds : Due server c ops e ops')
    (balanced : c.Balanced server) (apart : c.Apart server ops) : c'.Balanced server := by
  cases turn with
  | quiet | starts | ends | threw | begins | reads_client | reads_server => exact balanced
  | hands_on op data next actions present startup startup' early =>
    have stage := stage_of_startup startup
    obtain ⟨idle, none⟩ := holds.idle (apart.early ⟨op, present, stage⟩)
    exact balanced.startup early idle none
  | passes data fate present idle nonempty other unanswered =>
    exact balanced.passes holds.numbered data fate idle unanswered
      (alone_of_clientward holds.one present rfl).1
  | asks data sql_query present idle =>
    exact balanced.asks holds.numbered idle (alone_of_clientward holds.one present rfl).1 rfl rfl rfl
  | answered sql_query data result calling => exact balanced.answered holds.numbered calling rfl rfl rfl
  | leads sql_query data fate calling unanswered =>
    have waits := holds.numbered.mem_waiting_of_calling calling holds.served
    exact balanced.leads holds.numbered calling (alone_of_waiting holds.one waits).1 unanswered rfl rfl rfl
  | delivers call result called =>
    have waits := (alone_of_waiting holds.one holds.served).1
    exact balanced.delivers holds.numbered result waits (holds.spaced rfl (by simp)).1
  | responds data relayed idle none =>
    obtain ⟨-, all, next⟩ := holds.reads rfl
    have log : (c.record (.response data :: if relayed then [.relay data] else [])).log =
        c.log ++ [.response data] ++ if relayed then [.relay data] else [] := by
      rw [List.append_assoc]
      rfl
    refine balanced.serves relayed data log (by simp [Action.unwritten]) (by simp [Action.aside])
      (fun _ => rfl) rfl rfl ?_ (all ▸ next)
    have heard : from_server (c.record (.response data :: if relayed then [.relay data] else [])).log =
        from_server c.log ++ data := by
      rw [record, from_server_append]
      cases relayed <;> simp [from_server, responses]
    rwa [heard]
  | notifies data present idle leading =>
    obtain ⟨-, all, next⟩ := holds.reads rfl
    refine balanced.serves false [] (List.append_nil _).symm (by simp [Action.unwritten])
      (by simp [Action.aside]) (fun _ => rfl) rfl rfl ?_ ?_
    · have heard : from_server (c.log ++ [.response data, .notify c.current_query_ data]) =
          from_server c.log ++ data := by
        rw [from_server_append]
        simp [from_server, responses]
      exact heard ▸ next
    · rw [List.append_nil, all]
      exact balanced.within
  | notified call query data relayed notifying =>
    obtain ⟨-, all⟩ := holds.notifying notifying
    have log : c.log ++ (if relayed then [.relay data] else []) =
        c.log ++ [] ++ if relayed then [.relay data] else [] := by rw [List.append_nil]
    refine balanced.serves relayed data log (by simp) (by simp) (fun _ => rfl) rfl rfl ?_
      (all ▸ balanced.within)
    have heard : from_server (c.log ++ if relayed then [.relay data] else []) = from_server c.log := by
      rw [from_server_append]
      cases relayed <;> simp [from_server, responses]
    rw [heard]
    exact balanced.within

theorem Apart.turn (turn : Turn c ops e c' ops') (holds : Due server c ops e ops')
    (balanced : c.Balanced server) (apart : c.Apart server ops) : c'.Apart server ops' := by
  have kept : ∀ op other : Op, op ∈ ops.erase other → op ∈ ops := fun _ _ => List.mem_of_mem_erase
  -- an operation of the client's side ends, and no result is being written
  have unwritten : ∀ op ∈ ops, op.clientward = true → ∀ data, .response_write data ∉ ops.erase op := by
    intro op present clientward data member
    have other := (alone_of_clientward holds.one present clientward).2 _ member
    contradiction
  -- a read from the server arrives, and it owes something
  have owes : ∀ data, e = .complete .server_read (.ok data) → ∀ data, .response_write data ∉ ops := by
    intro data here other member
    obtain ⟨nonempty, -, more⟩ := holds.reads here
    have all := (apart.hushed member).1
    rw [← all] at more
    have short := more.length_le
    rw [List.length_append] at short
    exact nonempty (List.length_eq_zero_iff.mp (by omega))
  cases turn with
  | quiet => exact apart
  | starts =>
    obtain ⟨none, free⟩ := holds.unstarted rfl
    refine .of_unwritten (fun _ => none) fun data member => ?_
    rcases List.mem_append.mp member with before | now
    · have some : 0 < ops.countP Op.clientward := List.countP_pos_iff.mpr ⟨_, before, rfl⟩
      rw [held] at free
      omega
    · contradiction
  | ends op completion present =>
    exact apart.rearm (fun other member => .inl (kept _ _ member)) rfl rfl rfl rfl
  | threw => exact apart.rearm (fun other member => .inl (kept _ _ member)) rfl rfl rfl rfl
  | hands_on op data next actions present startup startup' early =>
    have stage := stage_of_startup startup
    refine .of_unwritten (fun _ => apart.early ⟨op, present, stage⟩) fun data member => ?_
    rcases List.mem_append.mp member with before | now
    · exact unwritten op present (clientward_of_stage stage) data before
    · rw [← List.mem_singleton.mp now] at startup'
      exact startup' rfl
  | begins op data loops present startup last once loop =>
    refine apart.rearm (fun other member => ?_) rfl rfl rfl rfl
    rcases List.mem_append.mp member with before | now
    · exact .inl (kept _ _ before)
    · rcases loop other now with rfl | rfl
      · exact .inr ⟨rfl, rfl⟩
      · exact .inr ⟨rfl, rfl⟩
  | reads_client op data present written =>
    refine apart.rearm (fun other member => ?_) rfl rfl rfl rfl
    rcases List.mem_append.mp member with before | now
    · exact .inl (kept _ _ before)
    · rw [List.mem_singleton.mp now]
      exact .inr ⟨rfl, rfl⟩
  | reads_server bytes data present =>
    refine apart.rearm (fun other member => ?_) rfl rfl rfl rfl
    rcases List.mem_append.mp member with before | now
    · exact .inl (kept _ _ before)
    · rw [List.mem_singleton.mp now]
      exact .inr ⟨rfl, rfl⟩
  | passes data fate present idle nonempty other unanswered =>
    refine apart.bridging (fun op member => ?_) rfl fun data' member => ?_
    · rcases List.mem_append.mp member with before | now
      · exact .inl (kept _ _ before)
      · split_ifs at now
        · exact .inr (List.mem_singleton.mp now ▸ rfl)
        · contradiction
    · rcases List.mem_append.mp member with before | now
      · exact unwritten _ present rfl data' before
      · split_ifs at now <;> simp at now
  | asks data sql_query present idle nonempty query =>
    refine .of_unwritten ?_ (unwritten _ present rfl)
    rintro ⟨op, member, startup⟩
    have other := (alone_of_clientward holds.one present rfl).2 op member
    rw [clientward_of_stage startup] at other
    contradiction
  | answered sql_query data result calling other =>
    refine apart.rearm (fun op member => .inl member) rfl ?_ ?_ rfl
    · rw [from_server_append]
      exact List.append_nil _
    · rw [asked, asked, booked_append]
      simp [book]
  | leads sql_query data fate calling unanswered =>
    have waits := holds.numbered.mem_waiting_of_calling calling holds.served
    obtain ⟨-, alone⟩ := alone_of_waiting holds.one waits
    refine apart.bridging (fun op member => ?_) rfl fun data' member => ?_
    · rcases List.mem_append.mp member with before | now
      · exact .inl before
      · split_ifs at now
        · exact .inr (List.mem_singleton.mp now ▸ rfl)
        · contradiction
    · rcases List.mem_append.mp member with before | now
      · have free := alone _ before
        contradiction
      · split_ifs at now <;> simp at now
  | delivers call result called =>
    obtain ⟨-, alone⟩ := alone_of_waiting holds.one holds.served
    obtain ⟨all, unrelaying⟩ := holds.spaced rfl (by simp)
    have heard : from_server c.log = server.output c.asked := by
      apply balanced.within.eq_of_length_le
      rw [← all]
      exact holds.behind.length_le
    constructor
    · rintro ⟨op, member, startup⟩
      rcases List.mem_append.mp member with before | now
      · exact apart.early ⟨op, before, startup⟩
      · rw [List.mem_singleton.mp now] at startup
        exact absurd rfl startup
    · intro data member
      refine ⟨?_, ?_, ?_⟩
      · have same : booked (c.record [.on_result call result]).log = booked c.log := booked_append
        rw [record, from_server_append, asked, ← record, same]
        exact (List.append_nil _).trans heard
      · cases handler : c.server_handler with
        | idle => exact handler
        | notifying call query data =>
          obtain ⟨nonempty, more⟩ := holds.notifying handler
          rw [heard, ← all] at more
          exact absurd (List.self_eq_append_right.mp more) nonempty
      · intro op member serverward
        rcases List.mem_append.mp member with before | now
        · have free := alone op before
          cases op with
          | server_read => rfl
          | client_write bytes => exact absurd before (unrelaying bytes)
          | _ => contradiction
        · rw [List.mem_singleton.mp now] at serverward
          contradiction
  | responds data relayed present idle none =>
    refine apart.bridging (fun op member => ?_) rfl fun data' member => ?_
    · rcases List.mem_append.mp member with before | now
      · exact .inl (kept _ _ before)
      · cases relayed
        · contradiction
        · exact .inr (List.mem_singleton.mp now ▸ rfl)
    · rcases List.mem_append.mp member with before | now
      · exact owes data rfl data' (kept _ _ before)
      · cases relayed <;> simp at now
  | notifies data present idle leading =>
    exact apart.bridging (fun op member => .inl (kept _ _ member)) rfl
      fun data' member => owes data rfl data' (kept _ _ member)
  | notified call query data relayed notifying =>
    refine apart.bridging (fun op member => ?_) rfl fun data' member => ?_
    · rcases List.mem_append.mp member with before | now
      · exact .inl before
      · cases relayed
        · contradiction
        · exact .inr (List.mem_singleton.mp now ▸ rfl)
    · rcases List.mem_append.mp member with before | now
      · have idle := (apart.hushed before).2.1
        rw [notifying] at idle
        contradiction
      · cases relayed <;> simp at now

end Core

end FlightProxy
