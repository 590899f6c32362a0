import FlightProxy.Session.Attribution
import FlightProxy.Session.Conservation
import FlightProxy.Session.Tokens

/-! # Which read the client's side holds

Every read but the last has ended with a write. The last one is with whoever has the token of the
client's side: a write to the server, a write of its result to the client, or the call for its text.
-/

namespace FlightProxy

open Segments

/-- The texts handed to doSingleFlight, by call number. -/
def texts (log : List Action) : List Bytes := (reads log).filterMap Prod.snd

@[simp] theorem texts_append (first second : List Action) :
    texts (first ++ second) = texts first ++ texts second := by
  rw [texts, reads_append, List.filterMap_append, texts, texts]

/-- A write with which a read ends. -/
def Op.ends_read : Op → Bool
  | .server_write _ | .response_write _ => true
  | _ => false

theorem reads_aside {news : List Action} (aside : ∀ action ∈ news, action.aside = true) :
    reads news = [] := by
  refine List.filterMap_eq_nil_iff.mpr fun action member => ?_
  have aside := aside action member
  cases action <;> first | rfl | contradiction

namespace Core

/-- A call is made for the text of its read. -/
structure Recorded (c : Core) : Prop where
  calls : (texts c.log).length = c.calls
  calling : ∀ sql_query data, c.client_handler = .calling sql_query data →
    (texts c.log)[c.calls - 1]? = some sql_query
  delivered : ∀ call ∈ delivered c.log, call < c.calls

theorem recorded_init : Recorded ⟨.idle, .idle, [], 0, 0, []⟩ :=
  ⟨rfl, nofun, fun _ member => absurd member List.not_mem_nil⟩

variable {c c' : Core} {ops ops' : List Op} {e : SessionEvent} {messages : List Message}
  {last data reply : Bytes} {rest : List Bytes} {noted : Bytes × List (Bytes × Ending)}

/-- Steps that hand nothing over. -/
private theorem Recorded.keep (recorded : c.Recorded) (news : List Action) (log : c'.log = c.log ++ news)
    (none : texts news = []) (calls : c'.calls = c.calls)
    (handler : c'.client_handler = c.client_handler ∨ c'.client_handler = .idle)
    (called : ∀ call ∈ FlightProxy.delivered news, call < c.calls) : c'.Recorded := by
  have same : texts c'.log = texts c.log := by rw [log, texts_append, none, List.append_nil]
  refine ⟨by rw [same, calls, recorded.calls], fun sql_query data calling => ?_, fun call member => ?_⟩
  · rcases handler with kept | idle
    · rw [same, calls]
      exact recorded.calling sql_query data (kept ▸ calling)
    · rw [idle] at calling
      contradiction
  · rw [log, delivered_append, List.mem_append] at member
    rw [calls]
    exact member.elim (recorded.delivered call) (called call)

theorem Recorded.bridge (recorded : c.Recorded) (step : Bridge c e c') : c'.Recorded := by
  -- entries that are not about the client's reads and their results
  have aside : ∀ news : List Action, c'.log = c.log ++ news →
      (∀ action ∈ news, action.aside = true) → c'.calls = c.calls →
      c'.client_handler = c.client_handler → c'.Recorded := by
    intro news log aside calls handler
    refine recorded.keep news log ?_ calls (.inl handler) ?_
    · rw [texts, reads_aside aside]
      rfl
    · rw [delivered_aside aside]
      exact fun _ member => absurd member List.not_mem_nil
  have undelivered : ∀ call ∈ ([] : List ℕ), call < c.calls :=
    fun _ member => absurd member List.not_mem_nil
  cases step with
  | quiet => exact recorded
  | early e action early =>
    exact aside [action] rfl (List.forall_mem_singleton.mpr (Action.aside_of_early early)) rfl rfl
  | asks data sql_query =>
    refine ⟨?_, fun sql_query' data' calling => ?_, fun call member => ?_⟩
    · simp only [texts_append, List.length_append, recorded.calls]
      rfl
    · obtain ⟨rfl, -⟩ := ClientHandler.calling.inj calling
      simp only [texts_append, ← recorded.calls, Nat.add_sub_cancel]
      exact List.getElem?_concat_length
    · rw [delivered_append, List.mem_append] at member
      exact Nat.lt_succ_of_lt (recorded.delivered call (member.resolve_right List.not_mem_nil))
  | passes => exact recorded.keep _ rfl rfl rfl (.inl rfl) undelivered
  | delivers call result called =>
    exact recorded.keep _ rfl rfl rfl (.inl rfl) (List.forall_mem_singleton.mpr called)
  | answered | leads => exact recorded.keep _ rfl rfl rfl (.inr rfl) undelivered
  | responds data relayed =>
    refine aside (.response data :: if relayed then [.relay data] else []) rfl ?_ rfl rfl
    cases relayed <;> simp [Action.aside]
  | notifies data =>
    exact aside [.response data, .notify c.current_query_ data] rfl (by simp [Action.aside]) rfl rfl
  | notified call query data relayed =>
    refine aside (if relayed then [.relay data] else []) rfl ?_ rfl rfl
    cases relayed <;> simp [Action.aside]

/-- The last read is a Query message at its place in the stream, and nothing else. -/
def LastIsQuery (messages : List Message) (c : Core) : Prop :=
  ∃ before m, (reads c.log).map Prod.fst = before ++ [m.encode] ∧
    (before.flatten.length, m) ∈ placed_messages messages ∧ m.text ≠ none

/-- The result has been given to a call for the text of the read. -/
def Earned (c : Core) (data reply : Bytes) : Prop :=
  ∃ call text, .on_result call reply ∈ c.log ∧ (texts c.log)[call]? = some text ∧
    intercept data = some text

theorem Earned.mono (earned : c.Earned data reply) {news : List Action}
    (log : c'.log = c.log ++ news) : c'.Earned data reply := by
  obtain ⟨call, text, given, asked, same⟩ := earned
  refine ⟨call, text, ?_, ?_, same⟩
  · rw [log]
    exact List.mem_append_left _ given
  · have inside := (List.getElem?_eq_some_iff.mp asked).1
    rw [log, texts_append, List.getElem?_append_left inside, asked]

/-- Who has the token of the client's side, and the read that is not done with. -/
inductive Holding (messages : List Message) (c : Core) (ops : List Op) (last : Bytes) :
    List Bytes → Prop
  | free (none : ∀ op ∈ ops, op.ends_read = false) (unasked : c.waiting = ∅) :
      Holding messages c ops last []
  | forwarding (present : .server_write last ∈ ops) : Holding messages c ops last [last]
  | answering (reply : Bytes) (present : .response_write reply ∈ ops)
      (whole : c.LastIsQuery messages) (earned : c.Earned last reply) :
      Holding messages c ops last [last]
  | waiting (call : ℕ) (waits : call ∈ c.waiting)
      (asked : ∃ text, (texts c.log)[call]? = some text ∧ intercept last = some text)
      (calling : ∀ sql_query data, c.client_handler = .calling sql_query data → data = last) :
      Holding messages c ops last [last]

/-- Two operations of the client's side are one. -/
theorem eq_of_clientward {op other : Op} (one : c.held ops ≤ 1) (present : op ∈ ops)
    (present' : other ∈ ops) (clientward : op.clientward = true)
    (clientward' : other.clientward = true) : other = op := by
  by_contra distinct
  have alone := (alone_of_clientward one present clientward).2 other
    ((List.mem_erase_of_ne distinct).mpr present')
  rw [clientward'] at alone
  contradiction

private theorem clientward_of_ends_read {op : Op} (ends : op.ends_read = true) :
    op.clientward = true := by
  cases op <;> first | rfl | contradiction

/-- What an operation of the client's side that is pending says about the read that is held. -/
private theorem Holding.of_pending (holding : Holding messages c ops last rest) {op : Op}
    (one : c.held ops ≤ 1) (present : op ∈ ops) (clientward : op.clientward = true) :
    (op.ends_read = false → rest = []) ∧
      (∀ data, op = .server_write data → rest = [last] ∧ data = last) ∧
      ∀ reply, op = .response_write reply → rest = [last] ∧ c.LastIsQuery messages ∧
        c.Earned last reply := by
  have alone := alone_of_clientward one present clientward
  cases holding with
  | free none unasked =>
    refine ⟨fun _ => rfl, ?_, ?_⟩
    · rintro data rfl
      exact absurd (none _ present) (by simp [Op.ends_read])
    · rintro reply rfl
      exact absurd (none _ present) (by simp [Op.ends_read])
  | forwarding present' =>
    obtain rfl := eq_of_clientward one present present' clientward rfl
    exact ⟨nofun, fun data same => ⟨rfl, (Op.server_write.inj same).symm⟩, nofun⟩
  | answering reply present' whole earned =>
    obtain rfl := eq_of_clientward one present present' clientward rfl
    refine ⟨nofun, nofun, fun reply' same => ?_⟩
    obtain rfl := Op.response_write.inj same
    exact ⟨rfl, whole, earned⟩
  | waiting call waits =>
    rw [alone.1] at waits
    exact absurd waits (Finset.notMem_empty _)

/-- While a call waits, the read is with it. -/
private theorem Holding.of_waiting (holding : Holding messages c ops last rest) {call : ℕ}
    (one : c.held ops ≤ 1) (waits : call ∈ c.waiting) : rest = [last] ∧
      (∃ text, (texts c.log)[call]? = some text ∧ intercept last = some text) ∧
      ∀ sql_query data, c.client_handler = .calling sql_query data → data = last := by
  obtain ⟨only, others⟩ := alone_of_waiting one waits
  cases holding with
  | free none unasked =>
    rw [unasked] at waits
    exact absurd waits (Finset.notMem_empty _)
  | forwarding present => exact absurd (others _ present) (by simp [Op.clientward])
  | answering reply present => exact absurd (others _ present) (by simp [Op.clientward])
  | waiting call' waits' asked calling =>
    rw [only] at waits'
    obtain rfl := Finset.mem_singleton.mp waits'
    exact ⟨rfl, asked, calling⟩

/-- Steps that leave the token of the client's side where it is, or move it through startup. -/
private theorem Holding.keep (holding : Holding messages c ops last rest) {news : List Action}
    (log : c'.log = c.log ++ news) (aside : ∀ action ∈ news, action.aside = true)
    (calls : c'.calls = c.calls) (handler : c'.client_handler = c.client_handler)
    (armed : ∀ op ∈ ops', op ∈ ops ∨ op.ends_read = false)
    (still : ∀ op ∈ ops, op.ends_read = true → op ∈ ops') : Holding messages c' ops' last rest := by
  have same : reads c'.log = reads c.log := by
    rw [log, reads_append, reads_aside aside, List.append_nil]
  have waiting : c'.waiting = c.waiting := waiting_congr log aside calls
  cases holding with
  | free none unasked =>
    exact .free (fun op member => (armed op member).elim (none op) id) (waiting.trans unasked)
  | forwarding present => exact .forwarding (still _ present rfl)
  | answering reply present whole earned =>
    refine .answering reply (still _ present rfl) ?_ (earned.mono log)
    rw [LastIsQuery, same]
    exact whole
  | waiting call waits asked calling =>
    refine .waiting call (waiting ▸ waits) ?_ ?_
    · rw [texts, same]
      exact asked
    · rw [handler]
      exact calling

/-! ## The account -/

/-- Every read has ended as it ought to, but for the one that is held. -/
structure Tallied (messages : List Message) (noted : Bytes × List (Bytes × Ending)) (c : Core)
    (ops : List Op) : Prop where
  held : ∃ rest, Holding messages c ops noted.1 rest ∧
    (reads c.log).map Prod.fst = noted.2.map Prod.fst ++ rest
  exact' : ∀ start data ending, (start, (data, ending)) ∈ placed_endings noted.2 →
    Exact messages start data ending
  earned : ∀ data reply, (data, .answered reply) ∈ noted.2 → c.Earned data reply

theorem tallied_init : Tallied messages ([], []) ⟨.idle, .idle, [], 0, 0, []⟩ [] := by
  refine ⟨⟨[], .free (fun _ member => absurd member List.not_mem_nil) rfl, rfl⟩, ?_, ?_⟩
  · exact fun _ _ _ placed => absurd placed List.not_mem_nil
  · exact fun _ _ member => absurd member List.not_mem_nil

/-- Steps with which no read begins or ends. -/
private theorem Tallied.keep (tallied : Tallied messages noted c ops) (news : List Action)
    (log : c'.log = c.log ++ news) (aside : ∀ action ∈ news, action.aside = true)
    (calls : c'.calls = c.calls) (handler : c'.client_handler = c.client_handler)
    (armed : ∀ op ∈ ops', op ∈ ops ∨ op.ends_read = false)
    (still : ∀ op ∈ ops, op.ends_read = true → op ∈ ops') (same : settle noted e = noted) :
    Tallied messages (settle noted e) c' ops' := by
  obtain ⟨rest, holding, split⟩ := tallied.held
  rw [same]
  refine ⟨⟨rest, holding.keep log aside calls handler armed still, ?_⟩, tallied.exact',
    fun data reply member => (tallied.earned data reply member).mono log⟩
  rw [log, reads_append, reads_aside aside, List.append_nil, split]

/-- The write with which the last read ends has completed. -/
private theorem Tallied.ended (tallied : Tallied messages noted c ops) (one : c.held ops ≤ 1)
    {op : Op} (present : op ∈ ops) (ends : op.ends_read = true) (carried : Bytes) {next : List Op}
    (armed : ∀ op ∈ next, op.ends_read = false) :
    Tallied messages (settle noted (.complete op (.ok carried))) c (ops.erase op ++ next) := by
  obtain ⟨rest, holding, split⟩ := tallied.held
  have clientward := clientward_of_ends_read ends
  obtain ⟨unasked, others⟩ := alone_of_clientward one present clientward
  obtain ⟨-, writes, replies⟩ := holding.of_pending one present clientward
  have free : Holding messages c (ops.erase op ++ next) noted.1 [] := by
    refine .free (fun other member => ?_) unasked
    rcases List.mem_append.mp member with before | now
    · refine Bool.eq_false_iff.mpr fun ends' => ?_
      exact Bool.false_ne_true ((others other before).symm.trans (clientward_of_ends_read ends'))
    · exact armed other now
  -- how the read ends, and what is known of its end
  have done : ∃ ending, settle noted (.complete op (.ok carried)) =
      (noted.1, noted.2 ++ [(noted.1, ending)]) ∧ rest = [noted.1] ∧
      Exact messages (noted.2.map Prod.fst).flatten.length noted.1 ending ∧
      ∀ reply, ending = .answered reply → c.Earned noted.1 reply := by
    cases op with
    | server_write data =>
      obtain ⟨held, rfl⟩ := writes data rfl
      exact ⟨.forwarded noted.1, rfl, held, .inl rfl, nofun⟩
    | response_write reply =>
      obtain ⟨held, ⟨before, m, whole, placed, query⟩, earned⟩ := replies reply rfl
      rw [split, held] at whole
      obtain ⟨rfl, same⟩ := List.append_inj' whole rfl
      obtain ⟨same, -⟩ := List.cons.inj same
      refine ⟨.answered reply, rfl, held, .inr ⟨reply, m, rfl, placed, query, same⟩, ?_⟩
      intro reply' here
      obtain rfl := Ending.answered.inj here
      exact earned
    | _ => contradiction
  obtain ⟨ending, noted', rfl, exact', earned⟩ := done
  rw [noted']
  refine ⟨⟨[], free, ?_⟩, ?_, ?_⟩
  · rw [split, List.map_append, List.append_nil]
    rfl
  · intro start data ending' placed
    rw [placed_endings, place_append, List.mem_append] at placed
    rcases placed with before | here
    · exact tallied.exact' start data ending' before
    · obtain ⟨rfl, rfl, rfl⟩ : start = 0 + extent (fun read : Bytes × Ending => read.1.length) noted.2 ∧
          data = noted.1 ∧ ending' = ending := by
        simpa [place] using here
      rw [extent_eq_length Prod.fst fun _ => rfl, Nat.zero_add, List.flatMap_def]
      exact exact'
  · intro data reply member
    rcases List.mem_append.mp member with before | here
    · exact tallied.earned data reply before
    · obtain ⟨rfl, same⟩ := Prod.mk.inj (List.mem_singleton.mp here)
      exact earned reply same.symm

/-- The client is read when no read is held. -/
private theorem Tallied.unheld (tallied : Tallied messages noted c ops) (one : c.held ops ≤ 1)
    (present : .client_read ∈ ops) : (reads c.log).map Prod.fst = noted.2.map Prod.fst := by
  obtain ⟨rest, holding, split⟩ := tallied.held
  obtain rfl := (holding.of_pending one present rfl).1 rfl
  rw [split, List.append_nil]

/-- The token moves on with the last read. -/
private theorem Tallied.hold (tallied : Tallied messages noted c ops) {news : List Action}
    (log : c'.log = c.log ++ news) {last : Bytes} (holding : Holding messages c' ops' last [last])
    (split : (reads c'.log).map Prod.fst = noted.2.map Prod.fst ++ [last]) :
    Tallied messages (last, noted.2) c' ops' :=
  ⟨⟨[last], holding, split⟩, tallied.exact',
    fun data reply member => (tallied.earned data reply member).mono log⟩

/-- When reads are forwarded or answered, the writes do not fail, and a callback runs for a read that
is a Query message and nothing else, the account stays tallied. -/
theorem Tallied.turn (turn : Turn c ops e c' ops') (tallied : Tallied messages noted c ops)
    (one : c.held ops ≤ 1) (numbered : c.Numbered) (recorded : c.Recorded)
    (served : c.Served e)
    (reaches : ∀ news, c'.log = c.log ++ news → ∀ data fate, .bridged data fate ∈ news →
      fate ≠ .answered → fate = .forwarded)
    (whole : ∀ call value, e = .on_result call value → c.LastIsQuery messages)
    (writes : ∀ op ec, e = .complete op (.error ec) → op.ends_read = false) :
    Tallied messages (settle noted e) c' ops' := by
  have nothing : c.log = c.log ++ [] := (List.append_nil _).symm
  have none_aside : ∀ action ∈ ([] : List Action), action.aside = true :=
    fun _ member => absurd member List.not_mem_nil
  -- operations that begin and end no read come and go
  have moves : ∀ (op : Op) (next : List Op), op.ends_read = false →
      (∀ other ∈ next, other.ends_read = false) →
      (∀ other ∈ ops.erase op ++ next, other ∈ ops ∨ other.ends_read = false) ∧
        ∀ other ∈ ops, other.ends_read = true → other ∈ ops.erase op ++ next := by
    intro op next goes comes
    constructor
    · intro other member
      rcases List.mem_append.mp member with before | now
      · exact .inl (List.mem_of_mem_erase before)
      · exact .inr (comes other now)
    · intro other member ends
      refine List.mem_append_left _ ((List.mem_erase_of_ne ?_).mpr member)
      rintro rfl
      rw [goes] at ends
      contradiction
  have read : ∀ {data : Bytes}, .client_read ∈ ops →
      Tallied messages (data, noted.2) c (ops.erase .client_read) := by
    intro data present
    obtain ⟨unasked, others⟩ := alone_of_clientward one present rfl
    refine ⟨⟨[], .free (fun other member => ?_) unasked, ?_⟩, tallied.exact', tallied.earned⟩
    · refine Bool.eq_false_iff.mpr fun ends => ?_
      exact Bool.false_ne_true ((others other member).symm.trans (clientward_of_ends_read ends))
    · rw [tallied.unheld one present, List.append_nil]
  cases turn with
  | quiet e own =>
    refine tallied.keep [] nothing none_aside rfl rfl (fun _ => .inl) (fun _ member _ => member) ?_
    cases e with
    | complete op completion => exact absurd rfl (own op completion)
    | _ => rfl
  | starts =>
    refine tallied.keep [] nothing none_aside rfl rfl ?_
      (fun _ member _ => List.mem_append_left _ member) rfl
    intro op member
    rcases List.mem_append.mp member with before | now
    · exact .inl before
    · obtain rfl := List.mem_singleton.mp now
      exact .inr rfl
  | ends op completion present =>
    have unarmed : ∀ op ∈ ([] : List Op), op.ends_read = false :=
      fun _ member => absurd member List.not_mem_nil
    cases completion with
    | ok data =>
      cases ends : op.ends_read with
      | true =>
        have ended := tallied.ended one present ends data unarmed
        rwa [List.append_nil] at ended
      | false =>
        by_cases reads : op = .client_read
        · subst reads
          exact read present
        · obtain ⟨armed, still⟩ := moves op [] ends unarmed
          rw [List.append_nil] at armed still
          refine tallied.keep [] nothing none_aside rfl rfl armed still ?_
          cases op <;> first | rfl | contradiction
    | error ec =>
      obtain ⟨armed, still⟩ := moves op [] (writes op ec rfl) unarmed
      rw [List.append_nil] at armed still
      refine tallied.keep [] nothing none_aside rfl rfl armed still ?_
      cases op <;> rfl
  | threw building =>
    obtain ⟨armed, still⟩ := moves .write_S [] rfl
      fun _ member => absurd member List.not_mem_nil
    rw [List.append_nil] at armed still
    exact tallied.keep [] nothing none_aside rfl rfl armed still rfl
  | hands_on op data next actions present startup startup' early =>
    have goes : op.ends_read = false := by cases op <;> first | rfl | contradiction
    have comes : next.ends_read = false := by
      cases next <;> first | rfl | exact absurd rfl startup'
    obtain ⟨armed, still⟩ := moves op [next] goes (List.forall_mem_singleton.mpr comes)
    refine tallied.keep actions rfl (fun action member => Action.aside_of_early (early action member)) rfl rfl
      armed still ?_
    cases op <;> first | rfl | contradiction
  | begins op data loops present startup bridges once loop =>
    have goes : op.ends_read = false := by cases op <;> first | rfl | exact absurd rfl startup
    obtain ⟨armed, still⟩ := moves op loops goes fun other member => by
      rcases loop other member with rfl | rfl <;> rfl
    refine tallied.keep [] nothing none_aside rfl rfl armed still ?_
    cases op <;> first | rfl | exact absurd rfl startup
  | reads_client op data present written =>
    refine tallied.ended one present ?_ data (List.forall_mem_singleton.mpr rfl)
    obtain ⟨bytes, rfl⟩ | ⟨bytes, rfl⟩ := written <;> rfl
  | reads_server bytes data present =>
    obtain ⟨armed, still⟩ := moves (.client_write bytes) [.server_read] rfl
      (List.forall_mem_singleton.mpr rfl)
    exact tallied.keep [] nothing none_aside rfl rfl armed still rfl
  | passes data fate present idle nonempty other unanswered =>
    obtain rfl := reaches _ rfl data fate (by simp) unanswered
    refine tallied.hold rfl (.forwarding ?_) ?_
    · exact List.mem_append_right _ (List.mem_singleton_self _)
    · simp only [record, reads_append, List.map_append, tallied.unheld one present]
      rfl
  | asks data sql_query present idle nonempty query =>
    have unread := tallied.unheld one present
    have asked : (texts (c.log ++ [Action.read data (some sql_query)]))[c.calls]? = some sql_query := by
      rw [texts_append, ← recorded.calls]
      exact List.getElem?_concat_length
    have waits : c.calls ∈ Core.waiting { c with
        client_handler := .calling sql_query data
        calls := c.calls + 1
        log := c.log ++ [.read data (some sql_query)] } := by
      refine (numbered.asks _ idle rfl rfl rfl).1.mem_waiting_of_calling rfl fun member => ?_
      rw [delivered_append, List.mem_append] at member
      exact Nat.lt_irrefl _ (recorded.delivered _ (member.resolve_right List.not_mem_nil))
    refine tallied.hold rfl (.waiting c.calls waits ⟨sql_query, asked, query⟩ ?_) ?_
    · intro sql_query' data' calling
      exact (ClientHandler.calling.inj calling).2.symm
    · simp only [reads_append, List.map_append, unread]
      rfl
  | answered sql_query data result calling other =>
    obtain ⟨rest, holding, split⟩ := tallied.held
    have same : reads (c.log ++ [Action.bridged data .answered]) = reads c.log :=
      (reads_append ..).trans (List.append_nil _)
    have waiting := (numbered.settles { c with
      client_handler := .idle
      log := c.log ++ [.bridged data .answered] } calling rfl rfl rfl).2.trans (if_pos rfl)
    rw [show settle noted (.flight_result result) = noted from rfl]
    refine ⟨⟨rest, ?_, by simpa only [same] using split⟩, tallied.exact',
      fun data reply member => (tallied.earned data reply member).mono rfl⟩
    cases holding with
    | free none unasked => exact .free none (waiting.trans unasked)
    | forwarding present => exact .forwarding present
    | answering reply present whole earned =>
      refine .answering reply present ?_ (earned.mono rfl)
      simpa only [LastIsQuery, same] using whole
    | waiting call waits asked =>
      refine .waiting call (waiting ▸ waits) ?_ fun _ _ calling' => by contradiction
      simpa only [texts, same] using asked
  | leads sql_query data fate calling unanswered =>
    obtain rfl := reaches _ rfl data fate (by simp) unanswered
    obtain ⟨rest, holding, split⟩ := tallied.held
    have waits := numbered.mem_waiting_of_calling calling served
    obtain ⟨rfl, -, same⟩ := holding.of_waiting one waits
    obtain rfl := same sql_query data calling
    refine tallied.hold rfl (.forwarding ?_) ?_
    · exact List.mem_append_right _ (List.mem_singleton_self _)
    · simp only [reads_append, List.map_append, split]
      exact List.append_nil _
  | delivers call result called =>
    obtain ⟨rest, holding, split⟩ := tallied.held
    obtain ⟨rfl, ⟨text, asked, same⟩, -⟩ := holding.of_waiting one served
    obtain ⟨before, m, last, placed, query⟩ := whole call result rfl
    refine tallied.hold rfl (.answering result ?_ ⟨before, m, ?_, placed, query⟩
      ⟨call, text, ?_, ?_, same⟩) ?_
    · exact List.mem_append_right _ (List.mem_singleton_self _)
    · simpa [record, reads] using last
    · exact List.mem_append_right _ (List.mem_singleton_self _)
    · simpa [record, texts, reads] using asked
    · simpa [record, reads] using split
  | responds data relayed present idle none =>
    obtain ⟨armed, still⟩ := moves .server_read (if relayed then [.client_write data] else []) rfl
      (by cases relayed <;> simp [Op.ends_read])
    refine tallied.keep (.response data :: if relayed then [.relay data] else []) rfl ?_ rfl rfl
      armed still rfl
    cases relayed <;> simp [Action.aside]
  | notifies data present idle leading =>
    obtain ⟨armed, still⟩ := moves .server_read [] rfl
      fun _ member => absurd member List.not_mem_nil
    rw [List.append_nil] at armed still
    exact tallied.keep [.response data, .notify c.current_query_ data] rfl
      (by simp [Action.aside]) rfl rfl armed still rfl
  | notified call query data relayed notifying =>
    refine tallied.keep (if relayed then [.relay data] else []) rfl ?_ rfl rfl ?_
      (fun _ member _ => List.mem_append_left _ member) rfl
    · cases relayed <;> simp [Action.aside]
    · intro op member
      rcases List.mem_append.mp member with before | now
      · exact .inl before
      · cases relayed with
        | true =>
          obtain rfl := List.mem_singleton.mp now
          exact .inr rfl
        | false => exact absurd now List.not_mem_nil

end Core

namespace Session

variable {s s' : Session} {e : SessionEvent} {messages : List Message}
  {noted : Bytes × List (Bytes × Ending)}

theorem forward_of_reaches (reaches : s.reaches_server = true) (data : Bytes) :
    s.forward data = (s.record (.bridged data .forwarded)).arm (.server_write data) := by
  simp only [reaches_server, Bool.and_eq_true, Bool.not_eq_true'] at reaches
  rw [forward, if_neg (Bool.eq_false_iff.mp reaches.1), if_pos reaches.2]

/-- What the history says of a read that is not a query. -/
private theorem log_client_read {data : Bytes} (reaches : s.reaches_server = true) (nonempty : data ≠ [])
    (other : intercept data = none) :
    (s.client_read data).log = s.log ++ [.read data none, .bridged data .forwarded] := by
  have interception := intercept_fill s.client_buffer_ data (List.length_pos_iff.mpr nonempty)
  rw [client_read]
  split_ifs with query
  · simp only at query
    rw [if_pos query, other] at interception
    contradiction
  · rw [forward_of_reaches (s := Session.record { s with
      client_buffer_ := fill s.client_buffer_ data } (.read data none)) reaches]
    exact List.append_assoc ..

/-- A read that goes to the server can be forwarded, no write with which a read ends fails, and a
callback runs for the first time, in a session that is not being destroyed and whose last read is a
Query message of the stream and nothing else. -/
def Careful (messages : List Message) (s : Session) : SessionEvent → Prop
  | .complete .client_read (.ok data) =>
    s.is_destroying_ = false → intercept data = none → s.reaches_server = true
  | .complete op (.error _) => op.ends_read = false
  | .flight_result .IS_LEADER => s.reaches_server = true
  | .on_result call _ =>
    s.is_destroying_ = false ∧ call ∉ delivered s.log ∧ s.core.LastIsQuery messages
  | _ => True

/-- Such a step leaves no read behind. -/
private theorem forwarded_of_careful (careful : s.Careful messages e) (taken : s.step? e = some s')
    {news : List Action} (history : s'.log = s.log ++ news) {data : Bytes} {fate : Fate}
    (bridged : .bridged data fate ∈ news) (unanswered : fate ≠ .answered) : fate = .forwarded := by
  have only : ∀ {actions : List Action}, s'.log = s.log ++ actions → .bridged data fate ∈ actions := by
    intro actions log
    rwa [← List.append_cancel_left (history.symm.trans log)]
  have step := bridge_of_step taken
  generalize core' : s'.core = c' at step
  have log : s'.log = c'.log := congrArg Core.log core'
  cases step with
  | quiet => exact absurd (only (log.trans (List.append_nil _).symm)) List.not_mem_nil
  | early e action early =>
    obtain rfl := List.mem_singleton.mp (only log)
    contradiction
  | asks | delivers | notifies =>
    have member := only log
    simp at member
  | answered =>
    have member := only log
    simp only [List.mem_singleton, Action.bridged.injEq] at member
    exact absurd member.2 unanswered
  | responds data relayed | notified call query data relayed =>
    have member := only log
    cases relayed <;> simp at member
  | passes data' fate' idle nonempty other =>
    have completed : s.complete .client_read (.ok data') = some s' := taken
    obtain ⟨-, -, delivered, after⟩ := complete_ok_cases completed
    cases alive : s.is_destroying_ with
    | true =>
      simp only [alive, if_true] at after
      rw [after] at log
      have none := List.append_cancel_left ((List.append_nil _).trans log)
      contradiction
    | false =>
      rw [if_neg (Bool.eq_false_iff.mp alive)] at after
      have member := only (by
        rw [after]
        exact log_client_read (s := { s with pending := s.pending.erase .client_read })
          (careful alive other) nonempty other)
      simp only [List.mem_cons, List.not_mem_nil, or_false, Action.bridged.injEq] at member
      exact (member.resolve_left nofun).2
  | leads sql_query data' fate' calling =>
    have calling : s.client_handler = .calling sql_query data' := calling
    simp only [step?, calling, Option.some.injEq] at taken
    have reaches : Session.reaches_server { s with
        client_handler := .idle, current_query_ := sql_query, leading := s.calls - 1 } = true := careful
    rw [flight_result, forward_of_reaches reaches] at taken
    have member := only (by rw [← taken]; rfl)
    simp only [List.mem_singleton, Action.bridged.injEq] at member
    exact member.2

/-- The account of a session stays tallied. -/
theorem tallied_of_step (tallied : Core.Tallied messages noted s.core s.pending)
    (single : s.Single) (recorded : s.core.Recorded) (served : s.core.Served e)
    (careful : s.Careful messages e) (taken : s.step? e = some s') :
    Core.Tallied messages (settle noted e) s'.core s'.pending := by
  have one : s.core.held s.pending ≤ 1 := by
    have tokens := single.one
    rw [Session.tokens] at tokens
    omega
  refine tallied.turn (turn_of_step taken) one single.numbered recorded served ?_ ?_ ?_
  · intro news log data fate member unanswered
    exact forwarded_of_careful careful taken log member unanswered
  · rintro call value rfl
    exact careful.2.2
  · rintro op ec rfl
    cases op <;> exact careful

/-- A callback writes to the client of a session that is not being destroyed. -/
theorem delivers_of_on_result {call : ℕ} {result : Bytes} (consistent : s.Consistent)
    (alive : s.is_destroying_ = false) (taken : s.step? (.on_result call result) = some s') :
    s'.log = s.log ++ [.on_result call result] ∧ s'.pending = s.pending ++ [.response_write result] := by
  have open' := Bool.eq_false_iff.mp alive
  have staged := consistent.resolve_left open'
  simp only [step?] at taken
  split_ifs at taken with called
  obtain rfl := Option.some.inj taken
  obtain ⟨mode, -⟩ := staged.bridging_of_busy (.inr (.inr (by omega)))
  rw [on_result, if_neg open']
  rcases mode with plain | tls
  · have off : Session.client_ssl { s with cached_response_ := result } = false := by
      simp [client_ssl, plain.ssl_enabled_]
    simp only [off, plain.client_socket_, Bool.false_eq_true, if_false, if_true]
    exact ⟨rfl, rfl⟩
  · have on : Session.client_ssl { s with cached_response_ := result } = true := by
      simp [client_ssl, tls.ssl_enabled_, tls.client_ssl_socket_]
    simp only [on, if_true]
    exact ⟨rfl, rfl⟩

end Session

end FlightProxy
