import FlightProxy.Session.Relay

/-! # The first read of a response

A session that leads a query notifies the first read that it makes from the server, and no other. So
of a response that the network delivers in several reads it notifies the first piece.
-/

namespace FlightProxy

/-- The client sends nothing: it waits for the response to its query. -/
def Waits : SessionEvent → Prop
  | .complete .client_read (.ok _) => False
  | _ => True

namespace Session

variable {s s' : Session} {e : SessionEvent} {query data : Bytes} {base : List Action}
  {reads : List Bytes} {ds : List SessionEvent}

/-- A session since it leads the query: either it has notified nothing and still leads, and what it
has read it has read while it was closed, or it has notified its first read. -/
inductive Since (query : Bytes) (base : List Action) (s : Session) (reads : List Bytes) : Prop
  | leading (news : List Action) (idle : s.client_handler = .idle) (log : s.log = base ++ news)
      (free : s.server_handler = .idle) (led : s.current_query_ = query)
      (silent : ∀ query value, .notify query value ∉ news)
      (unread : reads = [] ∨ s.is_destroying_ = true ∨ query = [])
  | notified (news : List Action) (first : Bytes) (rest : List Bytes)
      (idle : s.client_handler = .idle) (log : s.log = base ++ news) (some : reads = first :: rest)
      (only : ∀ query' value, .notify query' value ∈ news → query' = query ∧ value = first)
      (settled : s.current_query_ = [] ∨ s.server_handler ≠ .idle)

/-- The session notifies what it reads first. -/
theorem Since.notifies (since : Since query base s reads) {query' value : Bytes}
    (member : .notify query' value ∈ s.log.drop base.length) :
    query' = query ∧ ∃ rest, reads = value :: rest := by
  cases since with
  | leading news idle log free led silent unread =>
    rw [log, List.drop_left] at member
    exact absurd member (silent query' value)
  | notified news first rest idle log some only settled =>
    rw [log, List.drop_left] at member
    obtain ⟨rfl, rfl⟩ := only query' value member
    exact ⟨rfl, rest, some⟩

/-- A session begins to lead when the handler of its read is told so. -/
theorem since_of_told (calling : s.client_handler = .calling query data)
    (free : s.server_handler = .idle) (told : s.step? (.flight_result .IS_LEADER) = some s') :
    Since query s'.log s' [] := by
  simp only [step?, calling] at told
  obtain rfl := Option.some.inj told
  obtain ⟨fate, -, after⟩ := core_forward { s with
    client_handler := .idle, current_query_ := query, leading := s.calls - 1 } data
  have idle := congrArg Core.client_handler after
  have free' := congrArg Core.server_handler after
  have led := congrArg Core.current_query_ after
  exact .leading [] idle (List.append_nil _).symm (free'.trans free) led
    (fun _ _ => List.not_mem_nil) (.inl rfl)

/-- A step that is no read from the server adds nothing to what has been read. -/
theorem server_reads_snoc_of_other (other : ∀ data, e ≠ .complete .server_read (.ok data)) :
    server_reads (ds ++ [e]) = server_reads ds := by
  rw [server_reads_append]
  have unread : server_reads [e] = [] := by
    apply List.filterMap_cons_none
    split
    · next data => exact absurd rfl (other data)
    · rfl
  rw [unread, List.append_nil]

/-- A step by which a session neither reads from the server nor notifies. -/
theorem Since.other (since : Since query base s reads) (waits : Waits e)
    (other : ∀ data, e ≠ .complete .server_read (.ok data)) (taken : s.step? e = some s') :
    Since query base s' reads := by
  have step := bridge_of_step taken
  have destroying := fun closed => destroying_of_step (s := s) closed taken
  -- Whatever the step adds to the history, it is no notification.
  have kept : ∃ more, s'.log = s.log ++ more ∧ (∀ query value, .notify query value ∉ more) ∧
      s'.client_handler = .idle ∧ (s'.server_handler = s.server_handler ∧
        s'.current_query_ = s.current_query_ ∨
          s.server_handler ≠ .idle ∧ s'.current_query_ = []) := by
    have idle : s.client_handler = .idle := by
      cases since with
      | leading news idle => exact idle
      | notified news first rest idle => exact idle
    generalize core' : s'.core = c' at step
    have result : ∃ more, c'.log = s.log ++ more ∧ (∀ query value, .notify query value ∉ more) ∧
        c'.client_handler = .idle ∧ (c'.server_handler = s.server_handler ∧
          c'.current_query_ = s.current_query_ ∨
            s.server_handler ≠ .idle ∧ c'.current_query_ = []) := by
      cases step with
      | quiet =>
        exact ⟨[], (List.append_nil _).symm, fun _ _ => List.not_mem_nil, idle, .inl ⟨rfl, rfl⟩⟩
      | early e action early =>
        refine ⟨[action], rfl, fun query value member => ?_, idle, .inl ⟨rfl, rfl⟩⟩
        rw [← List.mem_singleton.mp member] at early
        contradiction
      | passes | asks => exact absurd waits id
      | answered query data result calling | leads query data fate calling =>
        cases idle.symm.trans calling
      | delivers call result called => exact ⟨_, rfl, by simp, idle, .inl ⟨rfl, rfl⟩⟩
      | responds data | notifies data => exact absurd rfl (other data)
      | notified call query data relayed notifying =>
        refine ⟨_, rfl, ?_, idle, .inr ⟨?_, rfl⟩⟩
        · cases relayed <;> simp
        · intro free
          cases free.symm.trans notifying
    rw [← core'] at result
    exact result
  obtain ⟨more, log', silent', idle', moved⟩ := kept
  cases since with
  | leading news idle log free led silent unread =>
    rcases moved with ⟨free', led'⟩ | ⟨busy, -⟩
    · refine .leading (news ++ more) idle' ?_ (free'.trans free) (led'.trans led) ?_
        (unread.imp_right (.imp_left destroying))
      · rw [log', log, List.append_assoc]
      · intro query value member
        rcases List.mem_append.mp member with old | new
        · exact silent query value old
        · exact silent' query value new
    · exact absurd free busy
  | notified news first rest idle log some only settled =>
    refine .notified (news ++ more) first rest idle' ?_ some ?_ ?_
    · rw [log', log, List.append_assoc]
    · intro query value member
      rcases List.mem_append.mp member with old | new
      · exact only query value old
      · exact absurd new (silent' query value)
    · rcases moved with ⟨free', led'⟩ | ⟨-, empty⟩
      · rw [free', led']
        exact settled
      · exact .inl empty

theorem core_server_read_of_led (led : s.current_query_ ≠ []) (data : Bytes) :
    (s.server_read data).core = { s.core with
      server_handler := .notifying s.leading s.current_query_ data
      log := s.log ++ [.response data, .notify s.current_query_ data] } := by
  have leads : (Session.record { s with server_buffer_ := fill s.server_buffer_ data }
      (.response data)).current_query_ ≠ [] := led
  rw [server_read, if_pos leads]
  simp only [record, core, List.append_assoc, List.cons_append, List.nil_append]

theorem core_server_read_of_unled (unled : s.current_query_ = []) (data : Bytes) :
    ∃ relayed : Bool, (s.server_read data).core =
      s.core.record (.response data :: if relayed then [.relay data] else []) := by
  have leads : ¬ (Session.record { s with server_buffer_ := fill s.server_buffer_ data }
      (.response data)).current_query_ ≠ [] := not_not_intro unled
  rw [server_read, if_neg leads]
  obtain ⟨relayed, after⟩ := core_relay (Session.record { s with
    server_buffer_ := fill s.server_buffer_ data } (.response data)) data
  refine ⟨relayed, after.trans ?_⟩
  simp only [record, core, Core.record, List.append_assoc, List.cons_append, List.nil_append]

/-- A read from the server is notified if it is the first. -/
theorem Since.read (since : Since query base s reads)
    (taken : s.step? (.complete .server_read (.ok data)) = some s') :
    Since query base s' (reads ++ [data]) := by
  have completed : s.complete .server_read (.ok data) = some s' := taken
  obtain ⟨-, free', -, after⟩ := complete_ok_cases completed
  have unbusy : s.server_handler = .idle := by simpa [Session.free] using free'
  by_cases closed : s.is_destroying_ = true
  · -- In a closed session the read is dropped.
    have closed' := destroying_of_step closed taken
    have after := after.trans (if_pos closed)
    cases since with
    | leading news idle log free led silent unread =>
      rw [after] at closed' ⊢
      exact .leading news idle log free led silent (.inr (.inl closed'))
    | notified news first rest idle log some only settled =>
      rw [after]
      refine .notified news first (rest ++ [data]) idle log ?_ only settled
      rw [some, List.cons_append]
  · have after := after.trans (if_neg closed)
    have unled : s.current_query_ = [] → ∃ more, s'.log = s.log ++ more ∧
        (∀ query value, .notify query value ∉ more) ∧ s'.client_handler = s.client_handler ∧
          s'.server_handler = s.server_handler ∧ s'.current_query_ = s.current_query_ := by
      intro unled
      obtain ⟨relayed, core'⟩ := core_server_read_of_unled
        (s := { s with pending := s.pending.erase .server_read }) unled data
      have read : s'.core = _ := (congrArg core after).trans core'
      have silent : ∀ query value, Action.notify query value ∉
          Action.response data :: if relayed then [.relay data] else [] := by
        cases relayed <;> simp
      exact ⟨_, congrArg Core.log read, silent, congrArg Core.client_handler read,
        congrArg Core.server_handler read, congrArg Core.current_query_ read⟩
    cases since with
    | leading news idle log free led silent unread =>
      by_cases empty : query = []
      · obtain ⟨more, log', silent', idle', free'', led'⟩ := unled (led.trans empty)
        refine .leading (news ++ more) (idle'.trans idle) ?_ (free''.trans free) (led'.trans led) ?_
          (.inr (.inr empty))
        · rw [log', log, List.append_assoc]
        · intro query value member
          rcases List.mem_append.mp member with old | new
          · exact silent query value old
          · exact silent' query value new
      · have first : reads = [] := by
          rcases unread with none | destroyed | text
          · exact none
          · exact absurd destroyed closed
          · exact absurd text empty
        have core' := core_server_read_of_led
          (s := { s with pending := s.pending.erase .server_read }) (led ▸ empty) data
        have read : s'.core = _ := (congrArg core after).trans core'
        refine .notified (news ++ [.response data, .notify query data]) data []
          ((congrArg Core.client_handler read).trans idle) ?_ ?_ ?_ (.inr ?_)
        · have log' : s'.log = s.log ++ [.response data, .notify s.current_query_ data] :=
            congrArg Core.log read
          rw [log', log, led, List.append_assoc]
        · rw [first]
          rfl
        · intro query' value member
          rcases List.mem_append.mp member with old | new
          · exact absurd old (silent query' value)
          · simp only [List.mem_cons, reduceCtorEq, Action.notify.injEq, List.not_mem_nil, or_false,
              false_or] at new
            exact new
        · have handler : s'.server_handler = .notifying s.leading s.current_query_ data :=
            congrArg Core.server_handler read
          rw [handler]
          exact ServerHandler.noConfusion
    | notified news first rest idle log some only settled =>
      have empty : s.current_query_ = [] := settled.resolve_right (not_not_intro unbusy)
      obtain ⟨more, log', silent', idle', -, led'⟩ := unled empty
      refine .notified (news ++ more) first (rest ++ [data]) (idle'.trans idle) ?_ ?_ ?_
        (.inl (led'.trans empty))
      · rw [log', log, List.append_assoc]
      · rw [some, List.cons_append]
      · intro query value member
        rcases List.mem_append.mp member with old | new
        · exact only query value old
        · exact absurd new (silent' query value)

/-- While the client waits, what the session notifies is its first read, under the query it leads. -/
theorem since_of_run (calling : s.client_handler = .calling query data)
    (free : s.server_handler = .idle) (told : s.step? (.flight_result .IS_LEADER) = some s')
    {t : Session} (rest : Transition.Path step? (fun _ e => Waits e) s' ds t) :
    Since query s'.log t (server_reads ds) := by
  apply rest.records (I := fun ds t => Since query s'.log t (server_reads ds))
    (since_of_told calling free told)
  intro ds u e u' since waits taken
  by_cases read : ∃ data, e = .complete .server_read (.ok data)
  · obtain ⟨data, rfl⟩ := read
    rw [server_reads_append]
    exact since.read taken
  · rw [server_reads_snoc_of_other fun data here => read ⟨data, here⟩]
    exact since.other waits (fun data here => read ⟨data, here⟩) taken

end Session

end FlightProxy
