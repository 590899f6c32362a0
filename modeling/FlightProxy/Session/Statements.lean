import FlightProxy.Model.Database
import FlightProxy.Session.Bridge

/-! # A query on its way to the database

A query that its session leads is forwarded, executed and read, one after another; nothing else that
the session does meanwhile reaches the database. What the database owes is the state after the query,
until it has executed it.
-/

namespace FlightProxy

open QueryCache (FlightResult)

/-- The server reads off a message the text that it carries. -/
theorem statement_encode (m : Message) : statement m.encode = m.text := by
  rw [statement, Message.head_encode, Message.drop_encode, Message.text]
  simp only [Option.some.injEq]

theorem statement_of_other {data : Bytes} (other : intercept data = none) : statement data = none := by
  unfold intercept at other
  split_ifs at other with query
  exact if_neg query

theorem statement_isSome_iff {data : Bytes} :
    (statement data).isSome = true ↔ data.head? = some query_type := by
  unfold statement
  split_ifs with query
  · exact iff_of_true rfl query
  · exact iff_of_false nofun query

@[simp] theorem statements_append (first second : List Action) :
    statements (first ++ second) = statements first ++ statements second :=
  List.filterMap_append ..

namespace Core

variable {σ : Type*} {exec : Database σ} {db x : σ} {c c' : Core} {e : SessionEvent}
  {r r' : Option FlightResult} {executed executed' : ℕ} {outbox outbox' : List Bytes}

/-- What the session reads off its server in a step, if it does. -/
def Fetches (c : Core) (outbox : List Bytes) (e : SessionEvent) (outbox' : List Bytes) : Prop :=
  match e with
  | .complete .server_read (.ok data) =>
    outbox = data :: outbox' ∨ outbox = [] ∧ outbox' = [] ∧ c.current_query_ = []
  | _ => outbox' = outbox

/-- The session leads no query, and its server has nothing to do or to say. -/
structure Open (c : Core) (executed : ℕ) (outbox : List Bytes) : Prop where
  unled : c.current_query_ = []
  server : c.server_handler = .idle
  done : executed = (statements c.log).length
  read : outbox = []
  asking : ∀ {sql data}, c.client_handler = .calling sql data → sql ≠ [] ∧ statement data = some sql

/-- A call that has returned without making the session lead. -/
def Local (r : Option FlightResult) : Prop := r = some .CACHE_HIT ∨ r = some .IS_WAITER

/-- No query of the session is on its way to the server. -/
structure Free (c : Core) (r : Option FlightResult) (executed : ℕ) (outbox : List Bytes) : Prop where
  open' : c.Open executed outbox
  free : c.client_handler = .idle ∨ Local r

/-- Where the query that the session leads is: sent, executed, read, or never to come. The state that
the database owes is the one after it. -/
inductive Led (exec : Database σ) (db x : σ) (c : Core) (executed : ℕ) (outbox : List Bytes) : Prop
  | sent (before : List Bytes) (sql : Bytes) (idle : c.server_handler = .idle)
      (last : statements c.log = before ++ [sql]) (done : executed = before.length)
      (read : outbox = []) (owes : x = (exec db sql).1)
  | executed (response : Bytes) (idle : c.server_handler = .idle)
      (done : executed = (statements c.log).length) (read : outbox = [response]) (owes : x = db)
  | notifying (data : Bytes) (notifying : c.server_handler = .notifying c.leading c.current_query_ data)
      (done : executed = (statements c.log).length) (read : outbox = []) (owes : x = db)
  | lost (idle : c.server_handler = .idle) (done : executed = (statements c.log).length)
      (read : outbox = [])

/-- The state that the database owes to a session that leads no query yet. -/
def owed (exec : Database σ) (db : σ) (c : Core) (r : Option FlightResult) : σ :=
  match c.client_handler, r with
  | .calling sql _, some .IS_LEADER => (exec db sql).1
  | _, _ => db

/-- Where the last query of the session is, and the state that the database owes. -/
inductive Stage (exec : Database σ) (db x : σ) (c : Core) (r : Option FlightResult) (executed : ℕ)
    (outbox : List Bytes) : Prop
  | unled (open' : c.Open executed outbox) (told : c.client_handler = .idle ∨ r ≠ none)
      (owes : x = c.owed exec db r)
  | led (idle : c.client_handler = .idle) (leads : c.current_query_ ≠ [])
      (progress : c.Led exec db x executed outbox)

/-- Only a read that is classified as a query makes a call. -/
theorem Bridge.calls_cases (step : Bridge c e c') : c'.calls = c.calls ∨
    ∃ data sql, e = .complete .client_read (.ok data) ∧ intercept data = some sql := by
  cases step with
  | asks data sql idle nonempty query => exact .inr ⟨data, sql, rfl, query⟩
  | _ => exact .inl rfl

/-- Two cores of a session that differ in its history only, and not in what it has forwarded. -/
structure Same (c c' : Core) : Prop where
  client : c'.client_handler = c.client_handler
  server : c'.server_handler = c.server_handler
  query : c'.current_query_ = c.current_query_
  leading : c'.leading = c.leading
  sent : statements c'.log = statements c.log

theorem Same.record {news : List Action} (silent : statements news = []) : c.Same (c.record news) := by
  refine ⟨rfl, rfl, rfl, rfl, ?_⟩
  rw [Core.record, statements_append, silent, List.append_nil]

theorem Same.owed_eq (same : c.Same c') : c'.owed exec db r = c.owed exec db r := by
  unfold owed
  rw [same.client]

theorem Open.same (open' : c.Open executed outbox) (same : c.Same c')
    (fetches : c.Fetches outbox e outbox') : c'.Open executed outbox' := by
  obtain ⟨unled, server, done, rfl, asking⟩ := open'
  refine ⟨same.query.trans unled, same.server.trans server, ?_, ?_, ?_⟩
  · rw [same.sent]
    exact done
  · unfold Fetches at fetches
    split at fetches
    · rcases fetches with more | ⟨-, none, -⟩
      · contradiction
      · exact none
    · exact fetches
  · intro sql data calling
    exact asking (same.client.symm.trans calling)

theorem Led.same (progress : c.Led exec db x executed outbox) (leads : c.current_query_ ≠ [])
    (same : c.Same c') (fetches : c.Fetches outbox e outbox') :
    c'.Led exec db x executed outbox' := by
  have fetched : outbox' = outbox ∨ ∃ data, outbox = data :: outbox' := by
    unfold Fetches at fetches
    split at fetches
    · rcases fetches with more | ⟨-, -, none⟩
      · exact .inr ⟨_, more⟩
      · exact absurd none leads
    · exact .inl fetches
  cases progress with
  | sent before sql idle last done read owes =>
    rcases fetched with rfl | ⟨data, more⟩
    · exact .sent before sql (same.server.trans idle) (same.sent.trans last) done read owes
    · rw [read] at more
      contradiction
  | executed response idle done read owes =>
    rcases fetched with rfl | ⟨data, more⟩
    · exact .executed response (same.server.trans idle) (by rw [same.sent]; exact done) read owes
    · rw [read] at more
      obtain ⟨-, rfl⟩ := List.cons.inj more
      exact .lost (same.server.trans idle) (by rw [same.sent]; exact done) rfl
  | notifying data notifying done read owes =>
    rcases fetched with rfl | ⟨data, more⟩
    · refine .notifying data ?_ (by rw [same.sent]; exact done) read owes
      rw [same.leading, same.query]
      exact same.server.trans notifying
    · rw [read] at more
      contradiction
  | lost idle done read =>
    rcases fetched with rfl | ⟨data, more⟩
    · exact .lost (same.server.trans idle) (by rw [same.sent]; exact done) read
    · rw [read] at more
      contradiction

theorem Stage.same (stage : c.Stage exec db x r executed outbox) (same : c.Same c')
    (fetches : c.Fetches outbox e outbox') : c'.Stage exec db x r executed outbox' := by
  cases stage with
  | unled open' told owes =>
    exact .unled (open'.same same fetches) (by rw [same.client]; exact told)
      (by rw [same.owed_eq]; exact owes)
  | led idle leads progress =>
    exact .led (same.client.trans idle) (by rw [same.query]; exact leads)
      (progress.same leads same fetches)

/-- What a step does to a session that leads no query, unless it asks: nothing, or its call returns
and has answered the query or made the session lead. -/
theorem Open.bridge (exec : Database σ) (db : σ) (open' : c.Open executed outbox)
    (step : Bridge c e c') (calls : c'.calls = c.calls) (fetches : c.Fetches outbox e outbox') :
    (c'.Open executed outbox' ∧ c'.client_handler = c.client_handler) ∨
      (∃ result, e = .flight_result result ∧ result ≠ .IS_LEADER ∧ c'.Open executed outbox' ∧
        c'.client_handler = .idle) ∨
      ∃ sql data, e = .flight_result .IS_LEADER ∧ c.client_handler = .calling sql data ∧
        c'.client_handler = .idle ∧ c'.current_query_ ≠ [] ∧
          c'.Led exec db (exec db sql).1 executed outbox' := by
  cases step with
  | quiet => exact .inl ⟨open'.same ⟨rfl, rfl, rfl, rfl, rfl⟩ fetches, rfl⟩
  | early e action early =>
    refine .inl ⟨open'.same (.record ?_) fetches, rfl⟩
    cases action <;> first | rfl | contradiction
  | passes data fate idle nonempty other =>
    refine .inl ⟨open'.same (.record ?_) fetches, rfl⟩
    cases fate <;> simp [statements, statement_of_other other]
  | asks => simp at calls
  | answered sql data result calling other =>
    obtain ⟨unled, server, done, read, -⟩ := open'
    obtain rfl : outbox' = outbox := fetches
    refine .inr (.inl ⟨result, rfl, other, ⟨unled, server, ?_, read, nofun⟩, rfl⟩)
    rw [done, statements_append]
    simp [statements]
  | leads sql data fate calling =>
    obtain ⟨unled, server, done, read, asking⟩ := open'
    obtain ⟨nonempty, text⟩ := asking calling
    obtain rfl : outbox' = outbox := fetches
    refine .inr (.inr ⟨sql, data, rfl, calling, rfl, nonempty, ?_⟩)
    by_cases forwarded : fate = .forwarded
    · subst forwarded
      refine .sent (statements c.log) sql server ?_ done read rfl
      rw [statements_append]
      simp [statements, text]
    · refine .lost server ?_ read
      rw [done, statements_append]
      cases fate <;> first | contradiction | simp [statements]
  | delivers => exact .inl ⟨open'.same (.record rfl) fetches, rfl⟩
  | responds data relayed =>
    refine .inl ⟨open'.same (.record ?_) fetches, rfl⟩
    cases relayed <;> rfl
  | notifies data idle leads => exact absurd open'.unled leads
  | notified call query data relayed notifying => cases open'.server.symm.trans notifying

theorem Free.bridge (free : c.Free r executed outbox) (step : Bridge c e c')
    (calls : c'.calls = c.calls) (told : ∀ result, e = .flight_result result → r = some result)
    (fetches : c.Fetches outbox e outbox') : c'.Free r executed outbox' := by
  rcases free.open'.bridge (fun _ _ => ((), [])) () step calls fetches with
    ⟨open', same⟩ | ⟨result, -, -, open', idle⟩ | ⟨sql, data, rfl, calling, -⟩
  · refine ⟨open', ?_⟩
    rw [same]
    exact free.free
  · exact ⟨open', .inl idle⟩
  · rcases free.free with idle | answered
    · cases idle.symm.trans calling
    · rw [told _ rfl] at answered
      rcases answered with hit | waiter <;> contradiction

theorem Free.owed_eq (free : c.Free r executed outbox) : c.owed exec db r = db := by
  unfold owed
  rcases free.free with idle | rfl | rfl
  · rw [idle]
  · split <;> first | contradiction | rfl
  · split <;> first | contradiction | rfl

/-- Until its next query, the database owes a session what it owed. -/
theorem Stage.bridge (stage : c.Stage exec db x r executed outbox) (step : Bridge c e c')
    (calls : c'.calls = c.calls) (told : ∀ result, e = .flight_result result → r = some result)
    (fetches : c.Fetches outbox e outbox') : c'.Stage exec db x r executed outbox' := by
  cases stage with
  | unled open' returned owes =>
    rcases open'.bridge exec db step calls fetches with
      ⟨open'', same⟩ | ⟨result, rfl, other, open'', idle⟩ | ⟨sql, data, rfl, calling, idle, leads, led⟩
    · refine .unled open'' (by rw [same]; exact returned) ?_
      rw [owes]
      unfold owed
      rw [same]
    · refine .unled open'' (.inl idle) ?_
      rw [owes]
      unfold owed
      rw [idle, told result rfl]
      split
      · next sql _ leads => exact absurd (Option.some.inj leads) other
      · rfl
    · refine .led idle leads ?_
      rw [owes]
      unfold owed
      rw [calling, told _ rfl]
      exact led
  | led idle leads progress =>
    cases step with
    | quiet => exact .led idle leads (progress.same leads ⟨rfl, rfl, rfl, rfl, rfl⟩ fetches)
    | early e action early =>
      refine .led idle leads (progress.same leads (.record ?_) fetches)
      cases action <;> first | rfl | contradiction
    | passes data fate _ nonempty other =>
      refine .led idle leads (progress.same leads (.record ?_) fetches)
      cases fate <;> simp [statements, statement_of_other other]
    | asks => simp at calls
    | answered sql data result calling => cases idle.symm.trans calling
    | leads sql data fate calling => cases idle.symm.trans calling
    | delivers => exact .led idle leads (progress.same leads (.record rfl) fetches)
    | responds data relayed _ none => exact absurd none leads
    | notifies data server =>
      refine .led idle leads ?_
      rcases fetches with read | ⟨-, -, none⟩
      · cases progress with
        | executed response idle done read' owes =>
          obtain ⟨-, rfl⟩ := List.cons.inj (read.symm.trans read')
          refine .notifying data rfl ?_ rfl owes
          rw [done, statements_append]
          simp [statements]
        | sent before sql idle last done read' => cases read.symm.trans read'
        | notifying data' notifying => cases server.symm.trans notifying
        | lost idle done read' => cases read.symm.trans read'
      · exact absurd none leads
    | notified call query data relayed notifying =>
      obtain rfl : outbox' = outbox := fetches
      cases progress with
      | notifying _ _ done read owes =>
        refine .unled ⟨rfl, rfl, ?_, read, ?_⟩ (.inl idle) ?_
        · rw [done, statements_append]
          cases relayed <;> simp [statements]
        · intro sql data' calling
          cases idle.symm.trans calling
        · unfold owed
          rw [idle, owes]
      | sent before sql server => cases server.symm.trans notifying
      | executed response server => cases server.symm.trans notifying
      | lost server => cases server.symm.trans notifying

/-- What the call returns later changes nothing for a session whose call has returned. -/
theorem Free.told (free : c.Free r executed outbox) (kept : ∀ result, r = some result → r' = some result) :
    c.Free r' executed outbox :=
  ⟨free.open', free.free.imp_right fun answered => answered.imp (kept _) (kept _)⟩

theorem Stage.told (stage : c.Stage exec db x r executed outbox)
    (kept : ∀ result, r = some result → r' = some result) : c.Stage exec db x r' executed outbox := by
  cases stage with
  | unled open' returned owes =>
    rcases returned with idle | some
    · refine .unled open' (.inl idle) ?_
      rw [owes]
      unfold owed
      rw [idle]
    · obtain ⟨result, same⟩ := Option.ne_none_iff_exists'.mp some
      rw [kept result same, ← same]
      exact .unled open' (.inr some) owes
  | led idle leads progress => exact .led idle leads progress

/-- A session that leads no query takes the next one. -/
theorem Open.asks (open' : c.Open executed outbox) {data sql : Bytes} (text : statement data = some sql)
    (nonempty : sql ≠ []) (asked : c' = { c with
      client_handler := .calling sql data, calls := c.calls + 1,
      log := c.log ++ [.read data (some sql)] }) : c'.Open executed outbox := by
  obtain ⟨unled, server, done, read, -⟩ := open'
  subst asked
  refine ⟨unled, server, ?_, read, ?_⟩
  · rw [done, statements_append]
    simp [statements]
  · intro sql' data' calling
    obtain ⟨rfl, rfl⟩ := ClientHandler.calling.inj calling
    exact ⟨nonempty, text⟩

/-- The session is at work on the call: its handler is in it, or it leads the query. -/
def Holds (c : Core) (call : ℕ) : Prop :=
  (c.current_query_ ≠ [] ∧ c.leading = call) ∨ (c.client_handler ≠ .idle ∧ call + 1 = c.calls)

/-- A call that leads is in hand until it has been notified. -/
theorem Open.holds (open' : c.Open executed outbox) (step : Bridge c e c') (calls : c'.calls = c.calls)
    {call : ℕ} (told : ∀ result, e = .flight_result result → call + 1 = c.calls → result = .IS_LEADER)
    (holds : c.Holds call) : c'.Holds call := by
  obtain ⟨busy, last⟩ := holds.resolve_left fun led => led.1 open'.unled
  cases step with
  | quiet | early | passes | delivers | responds => exact .inr ⟨busy, last⟩
  | asks => simp at calls
  | answered sql data result calling other => exact absurd (told result rfl last) other
  | leads sql data fate calling =>
    refine .inl ⟨(open'.asking calling).1, ?_⟩
    simp only
    omega
  | notifies data idle led => exact absurd open'.unled led
  | notified call' query data relayed notifying => cases open'.server.symm.trans notifying

theorem Led.holds (progress : c.Led exec db x executed outbox) (idle : c.client_handler = .idle)
    (step : Bridge c e c') (calls : c'.calls = c.calls) {call : ℕ} (holds : c.Holds call) :
    c'.Holds call ∨ ∃ query data, e = .notify_returned ∧ c.server_handler = .notifying call query data := by
  obtain ⟨leads, rfl⟩ := holds.resolve_right fun asking => asking.1 idle
  cases step with
  | quiet | early | passes | delivers | responds | notifies => exact .inl (.inl ⟨leads, rfl⟩)
  | asks => simp at calls
  | answered sql data result calling => cases idle.symm.trans calling
  | leads sql data fate calling => cases idle.symm.trans calling
  | notified call' query data relayed notifying =>
    right
    cases progress with
    | sent before sql server => cases server.symm.trans notifying
    | executed response server => cases server.symm.trans notifying
    | notifying data' here => exact ⟨_, data', rfl, here⟩
    | lost server => cases server.symm.trans notifying

theorem Free.stage (free : c.Free r executed outbox) : c.Stage exec db db r executed outbox := by
  refine .unled free.open' (free.free.imp_right ?_) free.owed_eq.symm
  rintro (rfl | rfl) <;> nofun

end Core

end FlightProxy
