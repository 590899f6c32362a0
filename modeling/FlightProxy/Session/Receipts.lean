import FlightProxy.Model.Database
import FlightProxy.Session.Holding
import FlightProxy.Transition.Ledger

/-! # What a client receives for its queries

The answer to a query reaches the client by the write of a callback, or by the write that follows the
notification of a response; other writes relay what the server says unasked. While one answer at a
time is on its way, the writes that complete are the answers in order, and an answer whose write fails
leaves a loop without its token.
-/

namespace FlightProxy

open Transition

/-- Whether the last response has been notified and its write has not ended, and the answers whose
writes have completed. -/
def receive : Bool × List Bytes → SessionEvent → Bool × List Bytes
  | (_, got), .notify_returned => (true, got)
  | (notified, got), .complete (.client_write data) (.ok _) =>
    (false, if notified then got ++ [data] else got)
  | (notified, got), .complete (.response_write data) (.ok _) => (notified, got ++ [data])
  | noted, _ => noted

/-- The answer that an operation writes to the client. -/
def Op.reply (notified : Bool) : Op → Option Bytes
  | .client_write data => if notified then some data else none
  | .response_write data => some data
  | _ => none

/-- The answers that are being written to the client. -/
def replying (notified : Bool) (ops : List Op) : List Bytes := ops.filterMap (Op.reply notified)

section

variable {notified : Bool} {ops : List Op} {op : Op}

@[simp] theorem replying_append (ops ops' : List Op) :
    replying notified (ops ++ ops') = replying notified ops ++ replying notified ops' :=
  List.filterMap_append ..

theorem reply_of_not_replies (other : op.replies = false) : op.reply notified = none := by
  cases op <;> first | rfl | contradiction

theorem replying_eq_nil (others : ∀ op ∈ ops, op.reply notified = none) : replying notified ops = [] :=
  List.filterMap_eq_nil_iff.mpr others

/-- What ends without being an answer changes nothing about the answers. -/
theorem replying_erase (other : op.reply notified = none) :
    replying notified (ops.erase op) = replying notified ops := by
  induction ops with
  | nil => rfl
  | cons head ops ih =>
    rw [List.erase_cons]
    split_ifs with same
    · rw [eq_of_beq same, replying, replying, List.filterMap_cons_none other]
    · rw [replying, replying, List.filterMap_cons, List.filterMap_cons, ← replying, ← replying, ih]

/-- The only answer on its way ends. -/
theorem replying_of_mem {data : Bytes} (few : (replying notified ops).length ≤ 1) (present : op ∈ ops)
    (answer : op.reply notified = some data) :
    replying notified ops = [data] ∧ replying notified (ops.erase op) = [] := by
  have perm := (List.perm_cons_erase present).filterMap (Op.reply notified)
  rw [List.filterMap_cons_some answer] at perm
  have length := perm.length_eq
  rw [List.length_cons] at length
  have rest : (ops.erase op).filterMap (Op.reply notified) = [] := by
    rw [← List.length_eq_zero_iff]
    rw [replying] at few
    omega
  rw [rest] at perm
  exact ⟨List.perm_singleton.mp perm, rest⟩

theorem replying_false_of_true (none : replying true ops = []) : replying false ops = [] := by
  refine replying_eq_nil fun op member => ?_
  have silent := List.filterMap_eq_nil_iff.mp none op member
  cases op <;> first | rfl | contradiction

end

/-- An operation stays pending until it ends. -/
theorem Turn.stays {c c' : Core} {ops ops' : List Op} {e : SessionEvent} (turn : Turn c ops e c' ops')
    {op : Op} (member : op ∈ ops) (bridging : op.stage = .bridging) :
    op ∈ ops' ∨ ∃ completion, e = .complete op completion := by
  have erased : ∀ (other : Op) (completion : Completion), op ∈ ops.erase other ∨
      ∃ completion', SessionEvent.complete other completion = .complete op completion' := by
    intro other completion
    by_cases same : op = other
    · rw [same]
      exact .inr ⟨completion, rfl⟩
    · exact .inl ((List.mem_erase_of_ne same).mpr member)
  cases turn with
  | quiet | answered => exact .inl member
  | starts | delivers | leads | notified => exact .inl (List.mem_append_left _ member)
  | threw building =>
    refine .inl ((List.mem_erase_of_ne ?_).mpr member)
    rintro rfl
    contradiction
  | ends | asks | notifies => exact erased ..
  | hands_on | begins | reads_client | reads_server | passes | responds =>
    exact (erased ..).imp_left (List.mem_append_left _)

namespace Session

variable {s s' : Session} {e : SessionEvent} {noted : Bool × List Bytes}

/-- An answer may not have reached the client: a loop has lost its token, or the session is closed. -/
def Cut (s : Session) : Prop := s.load = 0 ∨ s.tokens = 0 ∨ s.is_destroying_ = true

theorem tokens_of_step (single : s.Single) (served : s.core.Served e) (taken : s.step? e = some s') :
    s'.tokens ≤ s.tokens := by
  have held := (single.numbered.turn (turn_of_step taken)).2 served
  rw [tokens, tokens]
  rcases started_of_step taken with ⟨rfl, unstarted, started⟩ | ⟨other, same⟩
  · rw [unstarted, started]
    simpa using held
  · rw [same]
    rw [if_neg other] at held
    omega

theorem Cut.step (cut : s.Cut) (single : s.Single) (served : s.core.Served e)
    (taken : s.step? e = some s') : s'.Cut := by
  rcases cut with ended | lost | destroying
  · exact .inl (Nat.le_zero.mp (ended ▸ (eased_of_step taken).load))
  · exact .inr (.inl (Nat.le_zero.mp (lost ▸ tokens_of_step single served taken)))
  · exact .inr (.inr (destroying_of_step destroying taken))

/-- While a session waits on both sides, nothing is on its way to the client. -/
theorem Rests.uncut (rests : s.Rests) (serial : s.Serial) (single : s.Single) :
    ¬ s.Cut ∧ replying noted.1 s.pending = [] ∧ s.server_handler = .idle := by
  obtain ⟨others, idle, -⟩ := alone_of_pending serial rests.server rfl
  have held : s.core.held s.pending ≤ 1 := Nat.le_trans (Nat.le_add_right _ _) single.one
  refine ⟨?_, ?_, idle⟩
  · rintro (ended | lost | destroying)
    · have positive := load_pos_of_server_read rests.server
      omega
    · have some : 0 < s.pending.countP Op.clientward := List.countP_pos_iff.mpr ⟨_, rests.client, rfl⟩
      rw [tokens, Core.held] at lost
      omega
    · rw [rests.alive] at destroying
      contradiction
  · refine replying_eq_nil fun op member => ?_
    cases op with
    | client_write data =>
      have other := others _ ((List.mem_erase_of_ne Op.noConfusion).mpr member)
      contradiction
    | response_write data =>
      have same := Core.eq_of_clientward held rests.client member rfl rfl
      contradiction
    | _ => rfl

/-- The end of an operation ends no answer, or the only one on its way. -/
private theorem receive_complete {op : Op} {next : List Op} {completion : Completion} {cut : Prop}
    (few : (replying noted.1 s.pending).length ≤ 1) (present : op ∈ s.pending)
    (silent : ∀ op ∈ next, op.replies = false)
    (failed : ∀ ec data, completion = .error ec → op.reply noted.1 = some data → cut) :
    Receipt noted.2 (receive noted (.complete op completion)).2 (replying noted.1 s.pending)
      (replying (receive noted (.complete op completion)).1 (s.pending.erase op ++ next)) cut := by
  obtain ⟨notified, got⟩ := noted
  have nothing : ∀ notified, replying notified next = [] := fun notified =>
    replying_eq_nil fun op member => reply_of_not_replies (silent op member)
  rw [replying_append, nothing, List.append_nil]
  cases answer : op.reply notified with
  | none =>
    have same : receive (notified, got) (.complete op completion) = (notified, got) := by
      cases completion with
      | error ec => cases op <;> rfl
      | ok data =>
        cases op with
        | client_write bytes => cases notified <;> first | rfl | contradiction
        | response_write bytes => contradiction
        | _ => rfl
    rw [same]
    exact .stays rfl (replying_erase answer)
  | some data =>
    obtain ⟨only, rest⟩ := replying_of_mem few present answer
    cases completion with
    | error ec =>
      have same : receive (notified, got) (.complete op (.error ec)) = (notified, got) := by
        cases op <;> rfl
      rw [same]
      exact .lost data only rest rfl (failed ec data rfl answer)
    | ok carried =>
      cases op with
      | client_write bytes =>
        cases notified with
        | false => contradiction
        | true =>
          obtain rfl := Option.some.inj answer
          exact .arrives bytes only (replying_false_of_true rest) rfl
      | response_write bytes =>
        obtain rfl := Option.some.inj answer
        exact .arrives bytes only rest rfl
      | _ => contradiction

/-- A write to the client that ends with nothing armed is the end of the loop on the server's side. -/
private theorem load_of_ended {bytes : Bytes} (serial : s.Serial) (present : .client_write bytes ∈ s.pending)
    (started : s'.started = s.started) (core : s'.core = s.core)
    (pending : s'.pending = s.pending.erase (.client_write bytes)) : s'.load = 0 := by
  obtain ⟨others, idle, run⟩ := alone_of_pending serial present rfl
  have none : (s.pending.erase (.client_write bytes)).countP Op.serverward = 0 :=
    List.countP_eq_zero.mpr fun op member => by simp [others op member]
  have handler : s'.server_handler = s.server_handler := congrArg Core.server_handler core
  rw [load, pending, none, handler, idle, started, run]
  rfl

/-- A write of a callback that ends with nothing armed is the end of the loop on the client's side. -/
private theorem tokens_of_ended {bytes : Bytes} (single : s.Single)
    (present : .response_write bytes ∈ s.pending) (started : s'.started = s.started)
    (core : s'.core = s.core) (pending : s'.pending = s.pending.erase (.response_write bytes)) :
    s'.tokens = 0 := by
  have one := single.one
  obtain ⟨unasked, others⟩ := Core.alone_of_clientward (Nat.le_trans (Nat.le_add_right _ _) one) present rfl
  have none : (s.pending.erase (.response_write bytes)).countP Op.clientward = 0 :=
    List.countP_eq_zero.mpr fun op member => by simp [others op member]
  have some : 0 < s.pending.countP Op.clientward := List.countP_pos_iff.mpr ⟨_, present, rfl⟩
  rw [tokens, Core.held] at one ⊢
  rw [core, pending, none, unasked, started, Finset.card_empty]
  split_ifs at one ⊢
  · rfl
  · omega

/-- A response that has been notified is being written to the client, if its loop has the token. -/
def Marked (noted : Bool × List Bytes) (s : Session) : Prop :=
  noted.1 = true → s.load = 0 ∨ ∃ data, .client_write data ∈ s.pending

/-- A response that has been notified is written to the client, or the loop ends. -/
theorem notify_returned_cases {call : ℕ} {query data : Bytes} (serial : s.Serial)
    (notifying : s.server_handler = .notifying call query data)
    (taken : s.step? .notify_returned = some s') : s'.server_handler = .idle ∧
      (s'.pending = s.pending ++ [.client_write data] ∨ s'.pending = s.pending ∧ s'.load = 0) := by
  simp only [step?, notifying, Option.some.injEq] at taken
  subst taken
  have idle : Session.load { s with server_handler := .idle, current_query_ := [] } = 0 := by
    have one := serial.one
    rw [load, notifying, if_neg ServerHandler.noConfusion] at one
    simp only [load, if_true]
    omega
  have ended : ∀ {t}, Adds 0 { s with server_handler := .idle, current_query_ := [] } t → t.load = 0 :=
    fun adds => Nat.le_zero.mp (idle ▸ adds.load)
  rw [notify_returned, relay]
  split_ifs
  · exact ⟨rfl, .inr ⟨rfl, idle⟩⟩
  · exact ⟨rfl, .inl rfl⟩
  · exact ⟨rfl, .inl rfl⟩
  · exact ⟨(adds_close (n := 0) _).handler, .inr ⟨pending_close _, ended (adds_close _)⟩⟩

theorem Marked.step (marked : s.Marked noted) (serial : s.Serial) (taken : s.step? e = some s') :
    s'.Marked (receive noted e) := by
  have kept : noted.1 = true → s'.load = 0 ∨ (∃ data, .client_write data ∈ s'.pending) ∨
      ∃ data carried, e = .complete (.client_write data) (.ok carried) := by
    intro notified
    rcases marked notified with ended | ⟨data, present⟩
    · exact .inl (Nat.le_zero.mp (ended ▸ (eased_of_step taken).load))
    · have turn := turn_of_step taken
      rcases turn.stays present rfl with stays | ⟨completion, rfl⟩
      · exact .inr (.inl ⟨data, stays⟩)
      · cases completion with
        | ok carried => exact .inr (.inr ⟨data, carried, rfl⟩)
        | error ec =>
          left
          have started : s'.started = s.started :=
            ((started_of_step taken).resolve_left fun other => by simp at other).2
          generalize core : s'.core = c', pending : s'.pending = ops' at turn
          cases turn with
          | quiet e own => exact absurd rfl (own _ _)
          | ends => exact load_of_ended serial present started core pending
  intro notified
  cases e with
  | notify_returned =>
    cases handler : s.server_handler with
    | idle => simp [step?, handler] at taken
    | notifying call query data =>
      rcases (notify_returned_cases serial handler taken).2 with armed | ⟨-, ended⟩
      · rw [armed]
        exact .inr ⟨data, List.mem_append_right _ (List.mem_singleton_self _)⟩
      · exact .inl ended
  | complete op completion =>
    have before : noted.1 = true := by
      cases completion with
      | error ec => cases op <;> exact notified
      | ok carried => cases op <;> first | contradiction | exact notified
    rcases kept before with ended | stays | ⟨data, carried, here⟩
    · exact .inl ended
    · exact .inr stays
    · rw [here] at notified
      contradiction
  | _ =>
    rcases kept notified with ended | stays | ⟨data, carried, here⟩
    · exact .inl ended
    · exact .inr stays
    · contradiction

/-- A step that brings no answer leaves what is on its way to the client, or it arrives or is lost. -/
theorem receipt_of_step (serial : s.Serial) (single : s.Single) (marked : s.Marked noted)
    (few : (replying noted.1 s.pending).length ≤ 1) (called : ∀ call value, e ≠ .on_result call value)
    (returned : e ≠ .notify_returned) (taken : s.step? e = some s') :
    Receipt noted.2 (receive noted e).2 (replying noted.1 s.pending)
      (replying (receive noted e).1 s'.pending) s'.Cut := by
  -- an operation that ends well, and what follows it
  have ended : ∀ {op data} {next : List Op}, op ∈ s.pending → e = .complete op (.ok data) →
      s'.pending = s.pending.erase op ++ next → (∀ op ∈ next, op.replies = false) →
        Receipt noted.2 (receive noted e).2 (replying noted.1 s.pending)
          (replying (receive noted e).1 s'.pending) s'.Cut := by
    intro op data next present here pending silent
    rw [here, pending]
    exact receive_complete few present silent nofun
  have aside : ∀ {next : List Op}, receive noted e = noted → s'.pending = s.pending ++ next →
      (∀ op ∈ next, op.replies = false) → Receipt noted.2 (receive noted e).2
        (replying noted.1 s.pending) (replying (receive noted e).1 s'.pending) s'.Cut := by
    intro next same pending silent
    rw [same, pending, replying_append,
      replying_eq_nil fun op member => reply_of_not_replies (silent op member), List.append_nil]
    exact .stays rfl rfl
  have armed_if : ∀ {p : Prop} [Decidable p] {data : Bytes} (op : Op),
      op ∈ (if p then [Op.server_write data] else []) → op.replies = false := by
    intro p _ data op member
    split_ifs at member
    · obtain rfl := List.mem_singleton.mp member
      rfl
    · contradiction
  have turn := turn_of_step taken
  generalize core : s'.core = c', pending : s'.pending = ops' at turn
  rw [← pending]
  cases turn with
  | quiet e own =>
    refine @aside [] ?_ (pending.trans (List.append_nil _).symm) nofun
    cases e with
    | complete op completion => exact absurd rfl (own op completion)
    | notify_returned => contradiction
    | _ => rfl
  | starts => exact aside rfl pending (List.forall_mem_singleton.mpr rfl)
  | ends op completion present =>
    rw [pending, ← List.append_nil (s.pending.erase op)]
    refine receive_complete few present nofun ?_
    rintro ec data rfl answer
    have started : s'.started = s.started :=
      ((started_of_step taken).resolve_left fun other => by simp at other).2
    cases op with
    | client_write bytes => exact .inl (load_of_ended serial present started core pending)
    | response_write bytes => exact .inr (.inl (tokens_of_ended single present started core pending))
    | _ => contradiction
  | threw building =>
    rw [pending]
    exact .stays rfl (replying_erase rfl)
  | hands_on op data next actions present startup startup' =>
    refine ended present rfl pending (List.forall_mem_singleton.mpr ?_)
    cases next <;> first | rfl | exact absurd rfl startup'
  | begins op data loops present startup last once loop =>
    refine ended present rfl pending fun other member => ?_
    rcases loop other member with rfl | rfl <;> rfl
  | reads_client op data present => exact ended present rfl pending (List.forall_mem_singleton.mpr rfl)
  | reads_server bytes data present =>
    exact ended present rfl pending (List.forall_mem_singleton.mpr rfl)
  | passes data fate present => exact ended present rfl pending armed_if
  | asks data sql_query present =>
    exact ended present rfl (pending.trans (List.append_nil _).symm) nofun
  | answered => exact aside rfl (pending.trans (List.append_nil _).symm) nofun
  | leads => exact aside rfl pending armed_if
  | delivers call result => exact absurd rfl (called call result)
  | responds data relayed present idle none =>
    -- what is read is relayed unasked: the last notified response has been written
    obtain ⟨others, -, -⟩ := alone_of_pending serial present rfl
    have unmarked : noted.1 = false := by
      by_contra notified
      rcases marked (Bool.eq_true_of_not_eq_false notified) with ended | ⟨bytes, member⟩
      · have positive := load_pos_of_server_read present
        omega
      · have other := others _ ((List.mem_erase_of_ne (by nofun)).mpr member)
        contradiction
    have same : receive noted (.complete .server_read (.ok data)) = noted := rfl
    rw [same, pending, replying_append, replying_erase rfl, unmarked]
    cases relayed <;> exact .stays rfl (List.append_nil _)
  | notifies data present =>
    exact ended present rfl (pending.trans (List.append_nil _).symm) nofun
  | notified => contradiction

/-- A callback writes to the client, or finds the session closed. -/
theorem on_result_cases {call : ℕ} {result : Bytes} (consistent : s.Consistent)
    (taken : s.step? (.on_result call result) = some s') : s'.server_handler = s.server_handler ∧
      (s'.pending = s.pending ++ [.response_write result] ∨
        s'.pending = s.pending ∧ s'.is_destroying_ = true) := by
  cases destroying : s.is_destroying_ with
  | true =>
    simp only [step?] at taken
    split_ifs at taken
    obtain rfl := Option.some.inj taken
    rw [on_result, if_pos destroying]
    exact ⟨rfl, .inr ⟨rfl, destroying⟩⟩
  | false =>
    have same := (adds_on_result s call result).handler
    obtain ⟨-, armed⟩ := delivers_of_on_result consistent destroying taken
    simp only [step?] at taken
    split_ifs at taken
    obtain rfl := Option.some.inj taken
    exact ⟨same, .inl armed⟩

end Session

end FlightProxy
