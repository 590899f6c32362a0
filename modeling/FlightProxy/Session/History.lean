import FlightProxy.Session.Bridge

/-! # What the history of a session records

Projections of the history, and what a step appends to them.
-/

namespace FlightProxy

open Transition

/-- The reads of bridge_client_to_server, each with the text it hands to doSingleFlight. -/
def reads (log : List Action) : List (Bytes × Option Bytes) :=
  log.filterMap fun
    | .read data intercepted => some (data, intercepted)
    | _ => none

/-- The reads of bridge_server_to_client. -/
def responses (log : List Action) : List Bytes :=
  log.filterMap fun
    | .response data => some data
    | _ => none

/-- The calls of notifyFlightResult. -/
def notified (log : List Action) : List (Bytes × Bytes) :=
  log.filterMap fun
    | .notify query result => some (query, result)
    | _ => none

section

variable (first second : List Action)

@[simp] theorem reads_append : reads (first ++ second) = reads first ++ reads second :=
  List.filterMap_append ..

@[simp] theorem responses_append : responses (first ++ second) = responses first ++ responses second :=
  List.filterMap_append ..

end

namespace Core

variable {c c' : Core} {e : SessionEvent}

/-- What a step appends to the history. -/
theorem Bridge.grows (step : Bridge c e c') : ∃ news, c'.log = c.log ++ news := by
  cases step with
  | quiet e => exact ⟨[], (List.append_nil _).symm⟩
  | _ => exact ⟨_, rfl⟩

/-- Entries about startup are none of the reads, responses and notifications. -/
theorem early_projections {action : Action} (early : action.early = true) :
    reads [action] = [] ∧ responses [action] = [] ∧ notified [action] = [] := by
  cases action with
  | negotiate | answer | startup => exact ⟨rfl, rfl, rfl⟩
  | _ => contradiction

/-- Every read is recorded with its own interception. -/
theorem Bridge.reads_intercept (step : Bridge c e c') {news : List Action}
    (history : c'.log = c.log ++ news) :
    ∀ read ∈ reads news, read.1 ≠ [] ∧ read.2 = intercept read.1 := by
  have appended : ∀ {more : List Action}, c'.log = c.log ++ more → news = more := fun same =>
    List.append_cancel_left (history.symm.trans same)
  intro read member
  cases step with
  | quiet e =>
    rw [appended (List.append_nil _).symm] at member
    contradiction
  | early e action early =>
    rw [appended rfl, (early_projections early).1] at member
    contradiction
  | passes data fate idle nonempty other unanswered =>
    rw [appended rfl] at member
    obtain rfl := List.mem_singleton.mp member
    exact ⟨nonempty, other.symm⟩
  | asks data sql_query idle nonempty query =>
    rw [appended rfl] at member
    obtain rfl := List.mem_singleton.mp member
    exact ⟨nonempty, query.symm⟩
  | responds data relayed | notified call query data relayed =>
    rw [appended rfl] at member
    cases relayed <;> contradiction
  | answered | leads | delivers | notifies =>
    rw [appended rfl] at member
    contradiction

end Core

namespace Session

variable {s t : Session} {es : List SessionEvent} {ok : Session → SessionEvent → Prop}
  {news : List Action}

/-- What every step appends meets a condition, so what a run appends does. -/
theorem news_of_run {P : List Action → Prop} (empty : P [])
    (append : ∀ first second, P first → P second → P (first ++ second))
    (step : ∀ s e s' news, step? s e = some s' → s'.log = s.log ++ news → P news)
    (run : Path step? ok s es t) (history : t.log = s.log ++ news) : P news := by
  have grown : ∃ news, t.log = s.log ++ news ∧ P news := by
    refine run.preserves (I := fun t => ∃ news, t.log = s.log ++ news ∧ P news)
      ⟨[], (List.append_nil _).symm, empty⟩ ?_
    rintro u e u' ⟨before, history, holds⟩ - taken
    obtain ⟨more, appended⟩ := (bridge_of_step taken).grows
    refine ⟨before ++ more, ?_, append _ _ holds (step u e u' more taken appended)⟩
    rw [← List.append_assoc, ← history]
    exact appended
  obtain ⟨news', history', holds⟩ := grown
  rwa [List.append_cancel_left (history.symm.trans history')]

/-- The reads of a run are recorded with their own interception. -/
theorem reads_intercept (run : Path step? ok s es t) (history : t.log = s.log ++ news) :
    ∀ read ∈ reads news, read.1 ≠ [] ∧ read.2 = intercept read.1 := by
  refine news_of_run (P := fun news => ∀ read ∈ reads news, read.1 ≠ [] ∧ read.2 = intercept read.1)
    ?_ ?_ ?_ run history
  · intro read member
    contradiction
  · intro first second left right read member
    rw [reads_append, List.mem_append] at member
    rcases member with member | member
    · exact left read member
    · exact right read member
  · intro s e s' news taken history
    exact (bridge_of_step taken).reads_intercept history

/-- The packet of a client that does not ask for SSL. -/
def plain_startup : Bytes := [0x00, 0x00, 0x00, 0x08, 0x00, 0x03, 0x00, 0x00]

/-- A plain client connects, and both loops of the bridge start. -/
def connected : List SessionEvent :=
  [.start, .complete (.resolve false) (.ok []), .complete (.connect false) (.ok []),
    .complete .read_client_startup (.ok plain_startup),
    .complete (.relay_to_server plain_startup) (.ok [])]

end Session

end FlightProxy
