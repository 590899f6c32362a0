import FlightProxy.Session.Lane
import FlightProxy.Session.Turns
import Mathlib.Data.Finset.Card

/-! # The token of the client's side

Startup hands one token to the loop on the client's side: a read, then a write to the server, or a
call whose result is awaited and its write to the client. A call of doSingleFlight holds the token
from the read on, until it makes the session leader or its callback writes.
-/

namespace FlightProxy

/-- Operations of startup and of the loop on the client's side. -/
def Op.clientward : Op → Bool
  | .server_read | .client_write _ => false
  | _ => true

/-- What a history says about the fates of the calls so far, and whether another is in progress. -/
def judge : List Fate × Bool → Action → List Fate × Bool
  | (fates, _), .read _ intercepted => (fates, intercepted.isSome)
  | (fates, true), .bridged _ fate => (fates ++ [fate], false)
  | verdicts, _ => verdicts

/-- The fates of the reads handed to doSingleFlight, by call number. -/
def verdicts (log : List Action) : List Fate := (log.foldl judge ([], false)).1

/-- The calls whose callback has written to the client. -/
def delivered (log : List Action) : List ℕ :=
  log.filterMap fun
    | .on_result call _ => some call
    | _ => none

@[simp] theorem delivered_append (first second : List Action) :
    delivered (first ++ second) = delivered first ++ delivered second :=
  List.filterMap_append ..

/-- An entry that is not about the client's reads and their results. -/
def Action.aside : Action → Bool
  | .read _ _ | .bridged _ _ | .on_result _ _ => false
  | _ => true

theorem judge_aside {action : Action} (aside : action.aside = true) (judged : List Fate × Bool) :
    judge judged action = judged := by
  obtain ⟨fates, open_⟩ := judged
  cases open_ <;> cases action <;> first | rfl | contradiction

theorem foldl_judge_aside {news : List Action} (aside : ∀ action ∈ news, action.aside = true)
    (judged : List Fate × Bool) : news.foldl judge judged = judged := by
  induction news with
  | nil => rfl
  | cons action news ih =>
    rw [List.foldl_cons, judge_aside (aside action List.mem_cons_self)]
    exact ih fun other member => aside other (List.mem_cons_of_mem _ member)

theorem delivered_aside {news : List Action} (aside : ∀ action ∈ news, action.aside = true) :
    delivered news = [] := by
  refine List.filterMap_eq_nil_iff.mpr fun action member => ?_
  have aside := aside action member
  cases action <;> first | rfl | contradiction

theorem Action.aside_of_early {action : Action} (early : action.early = true) :
    action.aside = true := by
  cases action <;> first | rfl | contradiction

namespace Core

/-- The calls that hold the token: in progress or answered locally, and not delivered. -/
def waiting (c : Core) : Finset ℕ :=
  (Finset.range c.calls).filter fun call =>
    (∀ fate ∈ (verdicts c.log)[call]?, fate = .answered) ∧ call ∉ delivered c.log

theorem mem_waiting {c : Core} {call : ℕ} : call ∈ c.waiting ↔ call < c.calls ∧
    (∀ fate, (verdicts c.log)[call]? = some fate → fate = .answered) ∧
      call ∉ delivered c.log := by
  simp only [waiting, Finset.mem_filter, Finset.mem_range, Option.mem_def]

/-- Calls are numbered as their reads are: all but the one in progress have found their fate. -/
structure Numbered (c : Core) : Prop where
  calls : c.calls = (verdicts c.log).length + if c.client_handler = .idle then 0 else 1
  asking : (c.log.foldl judge ([], false)).2 = !decide (c.client_handler = .idle)

theorem numbered_init : Numbered ⟨.idle, .idle, [], 0, 0, []⟩ := ⟨rfl, rfl⟩

variable {c c' : Core} {news : List Action} {ops ops' : List Op} {e : SessionEvent}

private theorem foldl_judge (numbered : c.Numbered) : c.log.foldl judge ([], false) =
    (verdicts c.log, !decide (c.client_handler = .idle)) :=
  Prod.ext rfl numbered.asking

/-- Entries aside change nothing about the calls. -/
theorem Numbered.congr (numbered : c.Numbered) (log : c'.log = c.log ++ news)
    (aside : ∀ action ∈ news, action.aside = true) (calls : c'.calls = c.calls)
    (handler : c'.client_handler = c.client_handler) : c'.Numbered := by
  constructor
  · rw [calls, handler, verdicts, log, List.foldl_append, foldl_judge_aside aside]
    exact numbered.calls
  · rw [handler, log, List.foldl_append, foldl_judge_aside aside]
    exact numbered.asking

theorem waiting_congr (log : c'.log = c.log ++ news)
    (aside : ∀ action ∈ news, action.aside = true) (calls : c'.calls = c.calls) :
    c'.waiting = c.waiting := by
  ext call
  rw [mem_waiting, mem_waiting, calls, verdicts, log, List.foldl_append, foldl_judge_aside aside,
    delivered_append, delivered_aside aside, List.append_nil]
  rfl

private theorem range_cases {calls : ℕ} {fates : List Fate} (short : calls = fates.length + 1)
    (fate : Fate) (call : ℕ) : (fates ++ [fate])[call]? = fates[call]? ∨
      (call + 1 = calls ∧ (fates ++ [fate])[call]? = some fate ∧ fates[call]? = none) := by
  rcases Nat.lt_or_ge call fates.length with earlier | late
  · exact .inl (List.getElem?_append_left earlier)
  · rcases Nat.eq_or_lt_of_le late with rfl | later
    · exact .inr ⟨by omega, by simp, by simp⟩
    · left
      rw [List.getElem?_eq_none (by simp; omega), List.getElem?_eq_none (by omega)]

section

variable (numbered : c.Numbered)
include numbered

/-- A read that is not a query. -/
theorem Numbered.passes (data : Bytes) (fate : Fate) (idle : c.client_handler = .idle) :
    (c.record [.read data none, .bridged data fate]).Numbered ∧
      (c.record [.read data none, .bridged data fate]).waiting = c.waiting := by
  have judged : (c.log ++ [Action.read data none, .bridged data fate]).foldl judge ([], false) =
      (verdicts c.log, false) := by
    rw [List.foldl_append, foldl_judge numbered, idle]
    rfl
  refine ⟨⟨?_, ?_⟩, ?_⟩
  · rw [record, verdicts, judged]
    exact numbered.calls
  · rw [record, judged]
    simp [idle]
  · ext call
    rw [mem_waiting, mem_waiting, record, verdicts, judged, delivered_append]
    simp [delivered]

/-- A read that is a query takes the token into its call. -/
theorem Numbered.asks (c' : Core) {data sql_query : Bytes} (idle : c.client_handler = .idle)
    (log : c'.log = c.log ++ [.read data (some sql_query)]) (calls : c'.calls = c.calls + 1)
    (handler : c'.client_handler = .calling sql_query data) :
    c'.Numbered ∧ c'.waiting ⊆ insert c.calls c.waiting := by
  have judged : c'.log.foldl judge ([], false) = (verdicts c.log, true) := by
    rw [log, List.foldl_append, foldl_judge numbered, idle]
    rfl
  have unread : c.calls = (verdicts c.log).length := by
    rw [numbered.calls, if_pos idle, Nat.add_zero]
  refine ⟨⟨?_, ?_⟩, ?_⟩
  · rw [verdicts, judged, calls, handler, unread]
    simp
  · rw [judged, handler]
    simp
  · intro call waits
    obtain ⟨called, fates, undelivered⟩ := mem_waiting.mp waits
    rw [verdicts, judged] at fates
    rw [log, delivered_append, List.mem_append, not_or] at undelivered
    rcases Nat.lt_succ_iff_lt_or_eq.mp (calls ▸ called) with earlier | rfl
    · exact Finset.mem_insert_of_mem (mem_waiting.mpr ⟨earlier, fates, undelivered.1⟩)
    · exact Finset.mem_insert_self ..

/-- The fate of a call in progress: answered, it still waits, and otherwise no more. -/
theorem Numbered.settles (c' : Core) {data sql_query : Bytes} {fate : Fate}
    (calling : c.client_handler = .calling sql_query data)
    (log : c'.log = c.log ++ [.bridged data fate]) (calls : c'.calls = c.calls)
    (handler : c'.client_handler = .idle) :
    c'.Numbered ∧ c'.waiting = if fate = .answered then c.waiting else c.waiting.erase (c.calls - 1) := by
  have judged : c'.log.foldl judge ([], false) = (verdicts c.log ++ [fate], false) := by
    rw [log, List.foldl_append, foldl_judge numbered, calling]
    rfl
  have short : c.calls = (verdicts c.log).length + 1 := by
    rw [numbered.calls, calling]
    rfl
  refine ⟨⟨?_, ?_⟩, ?_⟩
  · rw [verdicts, judged, calls, handler, short]
    simp
  · rw [judged, handler]
    simp
  · have same : delivered c'.log = delivered c.log := by
      rw [log, delivered_append]
      exact List.append_nil _
    ext call
    split_ifs with answered
    · subst answered
      rw [mem_waiting, mem_waiting, calls, same, verdicts, judged]
      rcases range_cases short .answered call with kept | ⟨-, given, none⟩
      · rw [kept]
      · rw [given, none]
        simp
    · rw [Finset.mem_erase, mem_waiting, mem_waiting, calls, same, verdicts, judged]
      rcases range_cases short fate call with kept | ⟨last, given, none⟩
      · rw [kept]
        refine ⟨fun waits => ⟨?_, waits⟩, And.right⟩
        rintro rfl
        rw [List.getElem?_append_right (by omega)] at kept
        simp [short] at kept
      · rw [given]
        refine iff_of_false (fun waits => answered (waits.2.1 fate rfl)) fun waits => waits.1 ?_
        omega

/-- The write of a callback takes the token out of its call. -/
theorem Numbered.delivers (call : ℕ) (result : Bytes) :
    (c.record [.on_result call result]).Numbered ∧
      (c.record [.on_result call result]).waiting = c.waiting.erase call := by
  have judged : (c.log ++ [Action.on_result call result]).foldl judge ([], false) =
      c.log.foldl judge ([], false) := by
    rw [List.foldl_append, foldl_judge numbered]
    cases decide (c.client_handler = .idle) <;> rfl
  refine ⟨⟨?_, ?_⟩, ?_⟩
  · rw [record, verdicts, judged]
    exact numbered.calls
  · rw [record, judged]
    exact numbered.asking
  · ext other
    rw [Finset.mem_erase, mem_waiting, mem_waiting, record, verdicts, judged, delivered_append]
    simp only [delivered, List.filterMap_cons, List.filterMap_nil, List.mem_append,
      List.mem_singleton, not_or, verdicts]
    constructor
    · rintro ⟨called, fates, undelivered, distinct⟩
      exact ⟨distinct, called, fates, undelivered⟩
    · rintro ⟨distinct, called, fates, undelivered⟩
      exact ⟨called, fates, undelivered, distinct⟩

end

/-- The call in progress waits, unless its callback has been run. -/
theorem Numbered.mem_waiting_of_calling (numbered : c.Numbered) {data sql_query : Bytes}
    (calling : c.client_handler = .calling sql_query data)
    (undelivered : c.calls - 1 ∉ delivered c.log) : c.calls - 1 ∈ c.waiting := by
  have short := numbered.calls
  rw [calling, if_neg (by simp)] at short
  refine mem_waiting.mpr ⟨by omega, ?_, undelivered⟩
  intro fate given
  rw [List.getElem?_eq_none (by omega)] at given
  contradiction

/-- A callback runs for a call that waits, and no call of which it has run makes the session
leader. -/
def Served (c : Core) : SessionEvent → Prop
  | .on_result call _ => call ∈ c.waiting
  | .flight_result .IS_LEADER => c.calls - 1 ∉ delivered c.log
  | _ => True

/-- The tokens in the pending operations and in the calls. -/
def held (c : Core) (ops : List Op) : ℕ := ops.countP Op.clientward + c.waiting.card

theorem countP_erase_of_mem {op : Op} (present : op ∈ ops) (clientward : op.clientward = true) :
    (ops.erase op).countP Op.clientward + 1 = ops.countP Op.clientward := by
  have count := List.countP_erase Op.clientward ops op
  rw [if_pos ⟨present, clientward⟩] at count
  have some : 0 < ops.countP Op.clientward := List.countP_pos_iff.mpr ⟨op, present, clientward⟩
  omega

/-- Whoever holds the token holds it alone. -/
theorem alone_of_clientward {op : Op} (one : c.held ops ≤ 1) (present : op ∈ ops)
    (clientward : op.clientward = true) :
    c.waiting = ∅ ∧ ∀ other ∈ ops.erase op, other.clientward = false := by
  have count := countP_erase_of_mem present clientward
  rw [held] at one
  constructor
  · exact Finset.card_eq_zero.mp (by omega)
  · have none : (ops.erase op).countP Op.clientward = 0 := by omega
    exact fun other member => Bool.eq_false_iff.mpr (List.countP_eq_zero.mp none other member)

theorem alone_of_waiting {call : ℕ} (one : c.held ops ≤ 1) (waits : call ∈ c.waiting) :
    c.waiting = {call} ∧ ∀ op ∈ ops, op.clientward = false := by
  have some : 0 < c.waiting.card := Finset.card_pos.mpr ⟨call, waits⟩
  rw [held] at one
  constructor
  · obtain ⟨call', same⟩ := Finset.card_eq_one.mp (show c.waiting.card = 1 by omega)
    rw [same] at waits ⊢
    rw [Finset.mem_singleton.mp waits]
  · have none : ops.countP Op.clientward = 0 := by omega
    exact fun op member => Bool.eq_false_iff.mpr (List.countP_eq_zero.mp none op member)

private theorem countP_loops {loops : List Op} (once : loops.Nodup)
    (loop : ∀ next ∈ loops, next = .client_read ∨ next = .server_read) :
    loops.countP Op.clientward ≤ 1 := by
  have same : loops.countP Op.clientward = loops.count .client_read := by
    refine List.countP_congr fun next member => ?_
    rcases loop next member with rfl | rfl <;> simp [Op.clientward]
  rw [same]
  exact List.nodup_iff_count_le_one.mp once _

private theorem countP_one (op : Op) : [op].countP Op.clientward ≤ 1 := List.countP_le_length

/-- No step but the session's start takes a second token. -/
theorem Numbered.turn (turn : Turn c ops e c' ops') (numbered : c.Numbered) : c'.Numbered ∧
    (c.Served e → c'.held ops' ≤ c.held ops + if e = .start then 1 else 0) := by
  have erased : ∀ op : Op, (ops.erase op).countP Op.clientward ≤ ops.countP Op.clientward :=
    fun op => List.erase_sublist.countP_le
  -- what most turns are about: the pending operations, and entries aside
  have aside : ∀ news : List Action, c'.log = c.log ++ news →
      (∀ action ∈ news, action.aside = true) → c'.calls = c.calls →
      c'.client_handler = c.client_handler →
      ops'.countP Op.clientward ≤ ops.countP Op.clientward + (if e = .start then 1 else 0) →
      c'.Numbered ∧ (c.Served e → c'.held ops' ≤ c.held ops + if e = .start then 1 else 0) := by
    intro news log aside calls handler count
    refine ⟨numbered.congr log aside calls handler, fun _ => ?_⟩
    rw [held, held, waiting_congr log aside calls]
    omega
  have none : c.log = c.log ++ [] := (List.append_nil _).symm
  cases turn with
  | quiet e own => exact aside [] none (by simp) rfl rfl (Nat.le_add_right _ _)
  | starts =>
    refine aside [] none (by simp) rfl rfl ?_
    rw [List.countP_append, if_pos rfl]
    exact Nat.add_le_add_left (countP_one (.resolve false)) _
  | ends op completion present => exact aside [] none (by simp) rfl rfl (erased op)
  | threw building => exact aside [] none (by simp) rfl rfl (erased _)
  | hands_on op data next actions present startup startup' early =>
    refine aside actions rfl (fun action member => Action.aside_of_early (early action member)) rfl rfl ?_
    have one := countP_one next
    have erased := countP_erase_of_mem present (by cases op <;> first | rfl | contradiction)
    rw [List.countP_append]
    omega
  | begins op data loops present startup last once loop =>
    refine aside [] none (by simp) rfl rfl ?_
    have one := countP_loops once loop
    have erased := countP_erase_of_mem present (by cases op <;> first | rfl | contradiction)
    rw [List.countP_append]
    omega
  | reads_client op data present written =>
    refine aside [] none (by simp) rfl rfl ?_
    have one := countP_one .client_read
    have erased := countP_erase_of_mem present (by
      obtain ⟨bytes, rfl⟩ | ⟨bytes, rfl⟩ := written <;> rfl)
    rw [List.countP_append]
    omega
  | reads_server bytes data present =>
    refine aside [] none (by simp) rfl rfl ?_
    rw [List.countP_append]
    exact erased _
  | passes data fate present idle nonempty other unanswered =>
    obtain ⟨numbered', same⟩ := numbered.passes data fate idle
    refine ⟨numbered', fun served => ?_⟩
    have erased := countP_erase_of_mem present rfl
    rw [held, held, same, List.countP_append]
    split_ifs <;> simp [Op.clientward] <;> omega
  | asks data sql_query present idle nonempty query =>
    obtain ⟨numbered', more⟩ := numbered.asks { c with
      client_handler := .calling sql_query data
      calls := c.calls + 1
      log := c.log ++ [.read data (some sql_query)] } idle rfl rfl rfl
    refine ⟨numbered', fun served => ?_⟩
    have erased := countP_erase_of_mem present rfl
    have one := (Finset.card_le_card more).trans (Finset.card_insert_le _ _)
    rw [held, held]
    omega
  | answered sql_query data result calling other =>
    obtain ⟨numbered', same⟩ := numbered.settles { c with
      client_handler := .idle
      log := c.log ++ [.bridged data .answered] } calling rfl rfl rfl
    refine ⟨numbered', fun served => ?_⟩
    rw [held, held, same, if_pos rfl]
    exact Nat.le_add_right _ _
  | leads sql_query data fate calling unanswered =>
    obtain ⟨numbered', less⟩ := numbered.settles { c with
      client_handler := .idle
      current_query_ := sql_query
      leading := c.calls - 1
      log := c.log ++ [.bridged data fate] } calling rfl rfl rfl
    refine ⟨numbered', fun served => ?_⟩
    have card := Finset.card_erase_add_one (numbered.mem_waiting_of_calling calling served)
    rw [held, held, less, if_neg unanswered, List.countP_append]
    split_ifs <;> simp [Op.clientward] <;> omega
  | delivers call result called =>
    obtain ⟨numbered', less⟩ := numbered.delivers call result
    refine ⟨numbered', fun served => ?_⟩
    have card := Finset.card_erase_add_one served
    rw [held, held, less, List.countP_append]
    simp [Op.clientward]
    omega
  | responds data relayed present idle none =>
    refine aside (.response data :: if relayed then [.relay data] else []) rfl ?_ rfl rfl ?_
    · cases relayed <;> simp [Action.aside]
    · have fewer := erased .server_read
      rw [List.countP_append]
      cases relayed <;> simp [Op.clientward] <;> omega
  | notifies data present idle leading =>
    exact aside [.response data, .notify c.current_query_ data] rfl (by simp [Action.aside]) rfl rfl
      (erased _)
  | notified call query data relayed notifying =>
    refine aside (if relayed then [.relay data] else []) rfl ?_ rfl rfl ?_
    · cases relayed <;> simp [Action.aside]
    · rw [List.countP_append]
      cases relayed <;> simp [Op.clientward]

/-- The fate of a call is told when doSingleFlight returns, and stays. -/
theorem Numbered.verdict_cases (turn : Turn c ops e c' ops') (numbered : c.Numbered) (call : ℕ) :
    (verdicts c'.log)[call]? = (verdicts c.log)[call]? ∨ ∃ result fate, e = .flight_result result ∧
      call + 1 = c.calls ∧ (verdicts c'.log)[call]? = some fate ∧
        (fate = .answered ↔ result ≠ .IS_LEADER) := by
  have settles : ∀ (sql_query data : Bytes) (fate : Fate), c.client_handler = .calling sql_query data →
      (verdicts (c.log ++ [Action.bridged data fate]))[call]? = (verdicts c.log)[call]? ∨
        (call + 1 = c.calls ∧ (verdicts (c.log ++ [Action.bridged data fate]))[call]? = some fate) := by
    intro sql_query data fate calling
    have judged : verdicts (c.log ++ [Action.bridged data fate]) = verdicts c.log ++ [fate] := by
      rw [verdicts, List.foldl_append, foldl_judge numbered, calling]
      rfl
    have short : c.calls = (verdicts c.log).length + 1 := by
      rw [numbered.calls, calling]
      rfl
    rw [judged]
    exact (range_cases short fate call).imp_right fun last => ⟨last.1, last.2.1⟩
  have aside : ∀ news : List Action, c'.log = c.log ++ news →
      (∀ action ∈ news, action.aside = true) →
      (verdicts c'.log)[call]? = (verdicts c.log)[call]? := by
    intro news log aside
    rw [verdicts, log, List.foldl_append, foldl_judge_aside aside]
    rfl
  have none : c.log = c.log ++ [] := (List.append_nil _).symm
  cases turn with
  | quiet | starts | ends | threw | begins | reads_client | reads_server => exact .inl rfl
  | hands_on op data next actions present startup startup' early =>
    exact .inl (aside actions rfl fun action member => Action.aside_of_early (early action member))
  | passes data fate present idle nonempty other unanswered =>
    left
    rw [record, verdicts, List.foldl_append, foldl_judge numbered, idle]
    rfl
  | asks data sql_query present idle nonempty query =>
    left
    rw [verdicts, List.foldl_append, foldl_judge numbered, idle]
    rfl
  | answered sql_query data result calling other =>
    refine (settles sql_query data .answered calling).imp_right fun last => ?_
    exact ⟨result, .answered, rfl, last.1, last.2, iff_of_true rfl other⟩
  | leads sql_query data fate calling unanswered =>
    refine (settles sql_query data fate calling).imp_right fun last => ?_
    exact ⟨.IS_LEADER, fate, rfl, last.1, last.2, iff_of_false unanswered (by simp)⟩
  | delivers call' result called =>
    left
    rw [record, verdicts, List.foldl_append, foldl_judge numbered]
    cases decide (c.client_handler = .idle) <;> rfl
  | responds data relayed present idle none =>
    refine .inl (aside (.response data :: if relayed then [.relay data] else []) rfl ?_)
    cases relayed <;> simp [Action.aside]
  | notifies data present idle leading =>
    exact .inl (aside [.response data, .notify c.current_query_ data] rfl (by simp [Action.aside]))
  | notified call query data relayed notifying =>
    refine .inl (aside (if relayed then [.relay data] else []) rfl ?_)
    cases relayed <;> simp [Action.aside]

/-- Only a callback delivers, and only its own call. -/
theorem delivered_cases (turn : Turn c ops e c' ops') : delivered c'.log = delivered c.log ∨
    ∃ call result, e = .on_result call result ∧ delivered c'.log = delivered c.log ++ [call] := by
  have other : ∀ news : List Action, delivered news = [] →
      delivered (c.log ++ news) = delivered c.log := by
    intro news none
    rw [delivered_append, none, List.append_nil]
  cases turn with
  | quiet | starts | ends | threw | begins | reads_client | reads_server => exact .inl rfl
  | hands_on op data next actions present startup startup' early =>
    exact .inl (other actions (delivered_aside fun action member =>
      Action.aside_of_early (early action member)))
  | delivers call result called => exact .inr ⟨call, result, rfl, delivered_append ..⟩
  | passes | asks | answered | leads | notifies => exact .inl (other _ rfl)
  | responds data relayed | notified call query data relayed =>
    refine .inl (other _ ?_)
    cases relayed <;> rfl

end Core

namespace Session

variable {s s' : Session} {e : SessionEvent}

private theorem started_succeed (data : Bytes) (op : Op) :
    (s.succeed data op).started = s.started := by
  by_cases server : op = .server_read
  · subst server
    simp only [succeed, server_read]
    split_ifs
    · rfl
    · exact (adds_relay _ data).started
  · exact (adds_succeed s data server).started

/-- Only `start` starts a session. -/
theorem started_of_step (taken : s.step? e = some s') :
    (e = .start ∧ s.started = false ∧ s'.started = true) ∨
      (e ≠ .start ∧ s'.started = s.started) := by
  cases e with
  | start =>
    simp only [step?] at taken
    split_ifs at taken with started
    obtain rfl := Option.some.inj taken
    exact .inl ⟨rfl, Bool.eq_false_iff.mpr started, (adds_start _).started⟩
  | complete op completion =>
    have completed : s.complete op completion = some s' := taken
    obtain ⟨-, -, ⟨data, -, -, rfl⟩ | ⟨ec, -, rfl⟩⟩ := complete_cases completed
    · refine .inr ⟨by simp, ?_⟩
      simp only
      split_ifs
      · rfl
      · exact started_succeed data op
    · refine .inr ⟨by simp, ?_⟩
      simp only
      split_ifs
      · rfl
      · exact (fail_kept _ ec op).2.1
  | threw building =>
    simp only [step?, threw] at taken
    split_ifs at taken
    · obtain rfl := Option.some.inj taken
      exact .inr ⟨by simp, rfl⟩
    · obtain rfl := Option.some.inj taken
      refine .inr ⟨by simp, ?_⟩
      rw [(close_kept _).2]
      cases building <;> rfl
  | flight_result result =>
    simp only [step?] at taken
    split at taken
    · next sql_query data calling =>
      obtain rfl := Option.some.inj taken
      exact .inr ⟨by simp, (adds_flight_result s sql_query data result).started⟩
    · contradiction
  | on_result call result =>
    simp only [step?] at taken
    split_ifs at taken
    obtain rfl := Option.some.inj taken
    exact .inr ⟨by simp, (adds_on_result s call result).started⟩
  | notify_returned =>
    simp only [step?] at taken
    split at taken
    · next call query data notifying =>
      obtain rfl := Option.some.inj taken
      exact .inr ⟨by simp, (adds_relay _ data).started⟩
    · contradiction
  | destroy =>
    simp only [step?, destroy] at taken
    split_ifs at taken
    obtain rfl := Option.some.inj taken
    exact .inr ⟨by simp, rfl⟩

/-- The tokens of the client's side, of which a session that has not started has one. -/
def tokens (s : Session) : ℕ := s.core.held s.pending + if s.started then 0 else 1

/-- The client's side has one token at most. -/
structure Single (s : Session) : Prop where
  numbered : s.core.Numbered
  one : s.tokens ≤ 1

theorem single_init : Single {} := ⟨Core.numbered_init, Nat.le_refl 1⟩

theorem Single.step (single : s.Single) (served : s.core.Served e) (taken : s.step? e = some s') :
    s'.Single := by
  obtain ⟨numbered, held⟩ := single.numbered.turn (turn_of_step taken)
  replace held := held served
  refine ⟨numbered, Nat.le_trans ?_ single.one⟩
  rw [tokens, tokens]
  rcases started_of_step taken with ⟨rfl, unstarted, started⟩ | ⟨other, same⟩
  · rw [unstarted, started]
    simpa using held
  · rw [same]
    rw [if_neg other] at held
    omega

end Session

end FlightProxy
