import FlightProxy.Session.History

/-! # What a session notifies, and when

A call that leads is notified once, by the server read's handler, which stays in notifyFlightResult
until the result is put and published. So the result is put before the handler relays the read.
-/

namespace FlightProxy

open Transition
open scoped List

/-- Two entries stand in this order in an extended list if they did before, or the second is new. -/
theorem pair_append {α : Type*} {first second : α} {list news : List α}
    (pair : [first, second] <+ list ++ news) : [first, second] <+ list ∨ second ∈ news := by
  obtain ⟨before, after, split, left, right⟩ := List.sublist_append_iff.mp pair
  rcases List.eq_nil_or_concat after with rfl | ⟨rest, last, rfl⟩
  · rw [List.append_nil] at split
    exact .inl (split ▸ left)
  · right
    have final := congrArg List.getLast? split
    rw [List.concat_eq_append, ← List.append_assoc, List.getLast?_concat] at final
    obtain rfl := Option.some.inj final
    exact right.subset (by simp)

namespace Core

variable {c c' : Core} {e : SessionEvent} {sent sent' : ℕ → Option (Bytes × Bytes)}
  {query value data : Bytes}

/-- The number of calls that have returned. -/
def returned (c : Core) : ℕ := c.calls - if c.client_handler = .idle then 0 else 1

/-- What the calls of notifyFlightResult have put agrees with the session's own history. -/
structure Notifies (c : Core) (sent : ℕ → Option (Bytes × Bytes)) : Prop where
  asking : c.client_handler ≠ .idle → 0 < c.calls
  past : ∀ {k}, sent k ≠ none → k < c.returned
  known : ∀ {k query value}, sent k = some (query, value) → .notify query value ∈ c.log
  now : ∀ {k query value}, c.server_handler = .notifying k query value →
    k < c.returned ∧ .notify query value ∈ c.log ∧ ∀ sent', sent k = some sent' → sent' = (query, value)
  next : c.current_query_ ≠ [] → c.server_handler = .idle →
    c.leading < c.returned ∧ sent c.leading = none
  put : ∀ {query value}, .notify query value ∈ c.log →
    (∃ k, c.server_handler = .notifying k query value) ∨ ∃ k, sent k = some (query, value)
  relayed : ∀ {query value data}, [.notify query value, .relay data] <+ c.log →
    ∃ k, sent k = some (query, value)

theorem notifies_init : Notifies ⟨.idle, .idle, [], 0, 0, []⟩ fun _ => none := by
  refine ⟨fun calling => absurd rfl calling, fun some => absurd rfl some, nofun, nofun,
    fun leads => absurd rfl leads, fun member => absurd member List.not_mem_nil, ?_⟩
  intro query value data pair
  simp at pair

/-- An entry about neither a notification nor a relay. -/
def clientside : Action → Bool
  | .notify _ _ | .relay _ => false
  | _ => true

/-- A step that notifies and relays nothing. -/
private theorem Notifies.aside (notifies : c.Notifies sent) {news : List Action}
    (log : c'.log = c.log ++ news) (aside : ∀ action ∈ news, clientside action = true)
    (handler : c'.server_handler = c.server_handler) (asking : c'.client_handler ≠ .idle → 0 < c'.calls)
    (returned : c.returned ≤ c'.returned)
    (next : c'.current_query_ ≠ [] → c.server_handler = .idle →
      c'.leading < c'.returned ∧ sent c'.leading = none) : c'.Notifies sent := by
  have old : ∀ {query value}, .notify query value ∈ c'.log → .notify query value ∈ c.log := by
    intro query value member
    rw [log] at member
    rcases List.mem_append.mp member with before | now
    · exact before
    · exact absurd (aside _ now) nofun
  have kept : ∀ {action}, action ∈ c.log → action ∈ c'.log := by
    intro action member
    rw [log]
    exact List.mem_append_left _ member
  refine ⟨asking, fun some => Nat.lt_of_lt_of_le (notifies.past some) returned,
    fun here => kept (notifies.known here), ?_, ?_, ?_, ?_⟩
  · intro k query value notifying
    obtain ⟨within, member, agrees⟩ := notifies.now (handler.symm.trans notifying)
    exact ⟨Nat.lt_of_lt_of_le within returned, kept member, agrees⟩
  · intro leads idle
    exact next leads (handler.symm.trans idle)
  · intro query value member
    rw [handler]
    exact notifies.put (old member)
  · intro query value data pair
    rw [log] at pair
    rcases pair_append pair with before | now
    · exact notifies.relayed before
    · exact absurd (aside _ now) nofun

/-- A step of the server read's handler. -/
private theorem Notifies.serverside (notifies : c.Notifies sent) {news : List Action}
    (log : c'.log = c.log ++ news) (client : c'.client_handler = c.client_handler)
    (calls : c'.calls = c.calls)
    (now : ∀ {k query value}, c'.server_handler = .notifying k query value →
      k < c.returned ∧ .notify query value ∈ c'.log ∧
        ∀ sent', sent k = some sent' → sent' = (query, value))
    (next : c'.current_query_ ≠ [] → c'.server_handler = .idle →
      c'.leading < c.returned ∧ sent c'.leading = none)
    (put : ∀ {query value}, .notify query value ∈ c'.log →
      (∃ k, c'.server_handler = .notifying k query value) ∨ ∃ k, sent k = some (query, value))
    (relayed : ∀ {data}, .relay data ∈ news → c'.server_handler = .idle) : c'.Notifies sent := by
  have returned : c'.returned = c.returned := by rw [Core.returned, Core.returned, client, calls]
  refine ⟨?_, ?_, ?_, ?_, ?_, put, ?_⟩
  · rw [client, calls]
    exact notifies.asking
  · rw [returned]
    exact notifies.past
  · intro k query value here
    rw [log]
    exact List.mem_append_left _ (notifies.known here)
  · rw [returned]
    exact now
  · rw [returned]
    exact next
  · intro query value data pair
    rcases put (pair.subset List.mem_cons_self) with ⟨k, notifying⟩ | done
    · rw [log] at pair
      rcases pair_append pair with before | last
      · exact notifies.relayed before
      · rw [relayed last] at notifying
        contradiction
    · exact done

/-- A step of the session, which returns from notifyFlightResult only once that has put. -/
theorem Notifies.bridge (notifies : c.Notifies sent) (step : Bridge c e c')
    (settled : e = .notify_returned → ∀ k query value, c.server_handler = .notifying k query value →
      sent k ≠ none) : c'.Notifies sent := by
  cases step with
  | quiet e => exact notifies
  | early e action early =>
    refine notifies.aside rfl ?_ rfl notifies.asking (Nat.le_refl _) notifies.next
    intro entry member
    rw [List.mem_singleton.mp member]
    cases action <;> first | rfl | contradiction
  | passes data fate idle nonempty other unanswered =>
    exact notifies.aside rfl (by simp [clientside]) rfl notifies.asking (Nat.le_refl _) notifies.next
  | asks data sql_query idle nonempty query =>
    have same : c.returned = c.calls := by rw [Core.returned, if_pos idle, Nat.sub_zero]
    refine notifies.aside rfl (by simp [clientside]) rfl (fun _ => Nat.succ_pos _) ?_ ?_
    · rw [same]
      exact Nat.le_refl _
    · intro leads free
      obtain ⟨within, silent⟩ := notifies.next leads free
      exact ⟨same ▸ within, silent⟩
  | answered sql_query data result calling other =>
    have fewer : c.returned ≤ c.calls := Nat.sub_le ..
    refine notifies.aside rfl (by simp [clientside]) rfl (fun busy => absurd rfl busy) fewer ?_
    intro leads free
    obtain ⟨within, silent⟩ := notifies.next leads free
    exact ⟨Nat.lt_of_lt_of_le within fewer, silent⟩
  | leads sql_query data fate calling unanswered =>
    have busy : c.client_handler ≠ .idle := by simp [calling]
    have before : c.returned = c.calls - 1 := by rw [Core.returned, if_neg busy]
    have positive := notifies.asking busy
    refine notifies.aside rfl (by simp [clientside]) rfl (fun busy => absurd rfl busy)
      (Nat.sub_le ..) ?_
    intro leads free
    refine ⟨Nat.sub_lt positive Nat.one_pos, ?_⟩
    by_contra some
    have within := notifies.past some
    rw [before] at within
    exact Nat.lt_irrefl _ within
  | delivers call result called =>
    exact notifies.aside rfl (by simp [clientside]) rfl notifies.asking (Nat.le_refl _) notifies.next
  | responds data relayed idle none =>
    refine notifies.serverside rfl rfl rfl ?_ (fun leads => absurd none leads) ?_ (fun _ => idle)
    · intro k query value notifying
      exact absurd (idle.symm.trans notifying) nofun
    · intro query value member
      rcases List.mem_append.mp member with before | now
      · exact notifies.put before
      · cases relayed <;> simp at now
  | notifies data idle leading =>
    obtain ⟨within, silent⟩ := notifies.next leading idle
    refine notifies.serverside rfl rfl rfl ?_ nofun ?_ (by simp)
    · intro k query value notifying
      obtain ⟨rfl, rfl, rfl⟩ := ServerHandler.notifying.inj notifying
      refine ⟨within, by simp, ?_⟩
      intro sent' some
      rw [silent] at some
      contradiction
    · intro query value member
      rcases List.mem_append.mp member with before | now
      · rcases notifies.put before with ⟨k, notifying⟩ | done
        · rw [idle] at notifying
          contradiction
        · exact .inr done
      · simp only [List.mem_cons, reduceCtorEq, Action.notify.injEq, List.not_mem_nil, or_false,
          false_or] at now
        obtain ⟨rfl, rfl⟩ := now
        exact .inl ⟨_, rfl⟩
  | notified call query data relayed notifying =>
    refine notifies.serverside rfl rfl rfl nofun (fun leads => absurd rfl leads) ?_ (fun _ => rfl)
    intro query' value member
    rcases List.mem_append.mp member with before | now
    · rcases notifies.put before with ⟨k, notifying'⟩ | done
      · obtain ⟨sent', some⟩ := Option.ne_none_iff_exists'.mp (settled rfl k query' value notifying')
        rw [(notifies.now notifying').2.2 sent' some] at some
        exact .inr ⟨k, some⟩
      · exact .inr done
    · cases relayed <;> simp at now

/-- A call of notifyFlightResult begins: the one that the server read's handler is in. -/
theorem Notifies.begins (notifies : c.Notifies sent) {call : ℕ} (query value : Bytes)
    (handler : c.server_handler = .notifying call query value)
    (grows : ∀ k, sent' k = if k = call then some (query, value) else sent k) : c.Notifies sent' := by
  obtain ⟨within, member, agrees⟩ := notifies.now handler
  have kept : ∀ {k query' value'}, sent k = some (query', value') →
      sent' k = some (query', value') := by
    intro k query' value' some
    rw [grows]
    split_ifs with here
    · subst here
      rw [agrees _ some]
    · exact some
  refine ⟨notifies.asking, ?_, ?_, ?_, ?_, ?_, ?_⟩
  · intro k some
    rw [grows] at some
    split_ifs at some with here
    · exact here ▸ within
    · exact notifies.past some
  · intro k query' value' some
    rw [grows] at some
    split_ifs at some with here
    · obtain ⟨rfl, rfl⟩ := Prod.mk.inj (Option.some.inj some)
      exact member
    · exact notifies.known some
  · intro k query' value' notifying
    obtain ⟨rfl, rfl, rfl⟩ := ServerHandler.notifying.inj (handler.symm.trans notifying)
    refine ⟨within, member, ?_⟩
    intro pair some
    rw [grows, if_pos rfl] at some
    exact (Option.some.inj some).symm
  · intro _ idle
    exact absurd (handler.symm.trans idle) nofun
  · intro query' value' logged
    rcases notifies.put logged with notifying | ⟨k, some⟩
    · exact .inl notifying
    · exact .inr ⟨k, kept some⟩
  · intro query' value' data pair
    obtain ⟨k, some⟩ := notifies.relayed pair
    exact ⟨k, kept some⟩

end Core

end FlightProxy
