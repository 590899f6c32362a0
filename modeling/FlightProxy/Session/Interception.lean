import FlightProxy.Segments.Place
import FlightProxy.Session.History

/-! # Which texts a session intercepts

bridge_client_to_server looks at a read, not at a message: the first byte decides whether the read
is a query, and the bytes from offset 5 are its text. A read and a message that start at the same
place of the stream agree on the text as far as the read goes.
-/

namespace FlightProxy

open Segments Transition

/-- The texts handed to doSingleFlight, each with the offset of its read. -/
def handed (news : List Action) : List (ℕ × Bytes) :=
  select Prod.snd (place (fun read => read.1.length) 0 (reads news))

/-- The texts of the Query messages, each with the offset of its message. -/
def queries (messages : List Message) : List (ℕ × Bytes) :=
  select Message.text (place (fun m => m.encode.length) 0 messages)

/-- Reads that begin with `'Q'` are at the start of a Query message and hold its whole text, and
every Query message is at the start of a read. -/
structure Aligned (news : List Action) (messages : List Message) : Prop where
  starts : ∀ {offset read}, (offset, read) ∈ place (fun read => read.1.length) 0 (reads news) →
    read.1.head? = some query_type → ∃ m text,
      (offset, m) ∈ place (fun m => m.encode.length) 0 messages ∧ m.text = some text ∧
        text.length ≤ read.1.length - 5
  found : ∀ {offset m text}, (offset, m) ∈ place (fun m => m.encode.length) 0 messages →
    m.text = some text → ∃ read, (offset, read) ∈ place (fun read => read.1.length) 0 (reads news)

theorem takeWhile_text {text rest : Bytes} (clean : (0 : UInt8) ∉ text) (n : ℕ) :
    ((text ++ 0 :: rest).take n).takeWhile (· ≠ 0) = text.take n := by
  have kept : ∀ byte ∈ text.take n, decide (byte ≠ 0) = true := by
    intro byte member
    apply decide_eq_true
    rintro rfl
    exact clean (List.mem_of_mem_take member)
  rw [List.take_append, List.takeWhile_append_of_pos kept]
  cases n - text.length with
  | zero => simp
  | succ n => simp

/-- A read at the start of a Query message is classified as a query; its text is cut where the read
ends. -/
theorem intercept_eq {data stream : Bytes} {m : Message} {text : Bytes} (named : m.text = some text)
    (nonempty : data ≠ []) (reading : data = stream.take data.length)
    (message : m.encode = stream.take m.encode.length) :
    data.head? = some query_type ∧ intercept data = some (text.take (data.length - 5)) := by
  obtain ⟨query, body, clean⟩ := Message.body_of_text named
  have whole : stream = m.encode ++ stream.drop m.encode.length := by
    rw [message, List.length_take_of_le, List.take_append_drop]
    have bound := congrArg List.length message
    rw [List.length_take] at bound
    omega
  have head : data.head? = some query_type := by
    have positive := List.length_pos_iff.mpr nonempty
    rw [reading, List.head?_take, if_neg (by omega), whole, ← query]
    rfl
  refine ⟨head, ?_⟩
  have tail : data.drop 5 = (text ++ 0 :: stream.drop m.encode.length).take (data.length - 5) := by
    have dropped : stream.drop 5 = text ++ 0 :: stream.drop m.encode.length := by
      conv_lhs => rw [whole]
      rw [List.drop_append_of_le_length (by rw [Message.length_encode]; omega), Message.drop_encode, body]
      simp
    conv_lhs => rw [reading]
    rw [List.drop_take, dropped]
  rw [intercept, if_pos head, tail, takeWhile_text clean]

/-- A whole Query message hands its text over. -/
theorem intercept_encode {m : Message} {text : Bytes} (named : m.text = some text) :
    intercept m.encode = some text := by
  obtain ⟨-, cut⟩ := intercept_eq named m.encode_ne_nil (List.take_length).symm (List.take_length).symm
  obtain ⟨-, body, -⟩ := Message.body_of_text named
  rw [cut, Message.length_encode, body, List.take_of_length_le (by simp)]

variable {news : List Action} {messages : List Message}

/-- A read and a Query message at one offset of a stream. -/
private theorem intercept_of_place {data text : Bytes} {intercepted : Option Bytes} {m : Message}
    {offset : ℕ} (stream : (reads news).flatMap Prod.fst = messages.flatMap Message.encode)
    (read : (offset, (data, intercepted)) ∈ place (fun read => read.1.length) 0 (reads news))
    (placed : (offset, m) ∈ place (fun m => m.encode.length) 0 messages)
    (named : m.text = some text) (nonempty : data ≠ []) :
    data.head? = some query_type ∧ intercept data = some (text.take (data.length - 5)) := by
  have reading := take_drop_of_mem_place Prod.fst (fun _ => rfl) read [] rfl
  have message := take_drop_of_mem_place Message.encode (fun _ => rfl) placed [] rfl
  rw [List.nil_append, stream] at reading
  exact intercept_eq named nonempty reading.symm message.symm

/-- On any stream of messages, however it is split into reads, the session hands over the texts of
the Query messages, each at its place, exactly when the reads are aligned with them; the texts are
then those of the messages, in order. -/
theorem handed_eq_queries_iff {s t : Session} {es : List SessionEvent}
    (run : Path Session.step? always s es t) (history : t.log = s.log ++ news)
    (stream : (reads news).flatMap Prod.fst = messages.flatMap Message.encode) :
    (handed news = queries messages ↔ Aligned news messages) ∧
      (Aligned news messages →
        (reads news).filterMap Prod.snd = messages.filterMap Message.text) := by
  have recorded := Session.reads_intercept run history
  have member : ∀ {offset : ℕ} {data : Bytes} {intercepted : Option Bytes},
      (offset, (data, intercepted)) ∈ place (fun read => read.1.length) 0 (reads news) →
        data ≠ [] ∧ intercepted = intercept data := by
    intro offset data intercepted placed
    refine recorded (data, intercepted) ?_
    rw [← map_snd_place (fun read => read.1.length) 0 (reads news)]
    exact List.mem_map_of_mem placed
  have same : handed news = queries messages ↔ Aligned news messages := by
    rw [handed, queries, select_eq_iff
      (fun read placed => List.length_pos_iff.mpr (recorded read placed).1)
      (fun m _ => List.length_pos_iff.mpr m.encode_ne_nil)]
    constructor
    · rintro ⟨forth, back⟩
      refine ⟨?_, ?_⟩
      · rintro offset ⟨data, intercepted⟩ placed head
        obtain ⟨nonempty, rfl⟩ := member placed
        obtain ⟨m, at', named⟩ := forth offset _ _ placed (if_pos head)
        obtain ⟨-, cut⟩ := intercept_of_place stream placed at' named nonempty
        rw [intercept, if_pos head] at cut
        have whole := congrArg List.length (Option.some.inj cut)
        rw [List.length_take] at whole
        refine ⟨m, _, at', named, ?_⟩
        simp only
        omega
      · intro offset m text placed named
        obtain ⟨read, at', -⟩ := back offset m text placed named
        exact ⟨read, at'⟩
    · rintro ⟨starts, found⟩
      refine ⟨?_, ?_⟩
      · rintro offset ⟨data, intercepted⟩ text placed handed
        obtain ⟨nonempty, rfl⟩ := member placed
        have head : data.head? = some query_type := by
          by_contra other
          rw [intercept, if_neg other] at handed
          contradiction
        obtain ⟨m, text', at', named, whole⟩ := starts placed head
        obtain ⟨-, cut⟩ := intercept_of_place stream placed at' named nonempty
        rw [List.take_of_length_le whole] at cut
        exact ⟨m, at', named.trans (cut.symm.trans handed)⟩
      · intro offset m text placed named
        obtain ⟨⟨data, intercepted⟩, at'⟩ := found placed named
        obtain ⟨nonempty, rfl⟩ := member at'
        obtain ⟨head, cut⟩ := intercept_of_place stream at' placed named nonempty
        obtain ⟨m', text', placed', named', whole⟩ := starts at' head
        have positive : 0 < m.encode.length := List.length_pos_iff.mpr m.encode_ne_nil
        have positive' : 0 < m'.encode.length := List.length_pos_iff.mpr m'.encode_ne_nil
        obtain ⟨-, rfl⟩ := eq_of_mem_place offset placed placed' (le_refl offset) (by omega)
          (le_refl offset) (by omega)
        obtain rfl := Option.some.inj (named.symm.trans named')
        rw [List.take_of_length_le whole] at cut
        exact ⟨_, at', cut⟩
  refine ⟨same, ?_⟩
  intro aligned
  have texts := congrArg (List.map Prod.snd) (same.mpr aligned)
  rwa [handed, queries, map_snd_select, map_snd_select] at texts

/-- The Query message with text `q`. -/
def query_q : Message :=
  ⟨query_type, [0x71, 0x00], by decide, fun _ => ⟨[0x71], rfl, by decide⟩⟩

/-- The message `query_q` arrives in two reads, the first of which ends before the text. -/
def cut_query : List SessionEvent :=
  [.complete .client_read (.ok [0x51, 0x00, 0x00, 0x00, 0x06]), .flight_result .IS_LEADER,
    .complete (.server_write [0x51, 0x00, 0x00, 0x00, 0x06]) (.ok []),
    .complete .client_read (.ok [0x71, 0x00])]

/-- The text handed over in `cut_query` is empty, and that of the message is not. -/
theorem not_handed_eq_queries :
    ¬ ∀ (start es : List SessionEvent) (s t : Session) (news : List Action)
      (messages : List Message), Path Session.step? always {} start s →
      Path Session.step? always s es t → t.log = s.log ++ news →
      (reads news).flatMap Prod.fst = messages.flatMap Message.encode →
        (reads news).filterMap Prod.snd = messages.filterMap Message.text := by
  intro faithful
  have run : ∃ s t : Session, Path Session.step? always {} Session.connected s ∧
      Path Session.step? always s cut_query t ∧
      t.log = s.log ++ [.read [0x51, 0x00, 0x00, 0x00, 0x06] (some []),
        .bridged [0x51, 0x00, 0x00, 0x00, 0x06] .forwarded, .read [0x71, 0x00] none,
        .bridged [0x71, 0x00] .forwarded] :=
    ⟨_, _, replay_eq_some_iff.mp rfl, replay_eq_some_iff.mp rfl, rfl⟩
  obtain ⟨s, t, start, path, history⟩ := run
  exact absurd (faithful _ _ s t _ [query_q] start path history rfl) (by decide)

/-- A Sync message. -/
def sync : Message := ⟨0x53, [], by decide, fun query => absurd query (by decide)⟩

/-- The Query message with text `r`. -/
def query_r : Message :=
  ⟨query_type, [0x72, 0x00], by decide, fun _ => ⟨[0x72], rfl, by decide⟩⟩

/-- A Sync message in two reads, a query whose NUL comes in a read of its own, and a query followed by
a Sync message. -/
def scattered : List SessionEvent :=
  [.complete .client_read (.ok [0x53, 0x00, 0x00]),
    .complete (.server_write [0x53, 0x00, 0x00]) (.ok []),
    .complete .client_read (.ok [0x00, 0x04]),
    .complete (.server_write [0x00, 0x04]) (.ok []),
    .complete .client_read (.ok [0x51, 0x00, 0x00, 0x00, 0x06, 0x71]),
    .flight_result .IS_LEADER,
    .complete (.server_write [0x51, 0x00, 0x00, 0x00, 0x06, 0x71]) (.ok []),
    .complete .client_read (.ok [0x00]),
    .complete (.server_write [0x00]) (.ok []),
    .complete .client_read (.ok [0x51, 0x00, 0x00, 0x00, 0x06, 0x72, 0x00, 0x53, 0x00, 0x00, 0x00, 0x04])]

/-- The texts of two queries among four messages in five reads are handed over whole. -/
theorem handed_eq_queries_run :
    ∃ news, handed news = [(5, [0x71]), (12, [0x72])] ∧
      handed news = queries [sync, query_q, query_r, sync] := by
  have run : ∃ s t : Session, Path Session.step? always {} Session.connected s ∧
      Path Session.step? always s scattered t ∧
      t.log = s.log ++ [.read [0x53, 0x00, 0x00] none, .bridged [0x53, 0x00, 0x00] .forwarded,
        .read [0x00, 0x04] none, .bridged [0x00, 0x04] .forwarded,
        .read [0x51, 0x00, 0x00, 0x00, 0x06, 0x71] (some [0x71]),
        .bridged [0x51, 0x00, 0x00, 0x00, 0x06, 0x71] .forwarded,
        .read [0x00] none, .bridged [0x00] .forwarded,
        .read [0x51, 0x00, 0x00, 0x00, 0x06, 0x72, 0x00, 0x53, 0x00, 0x00, 0x00, 0x04]
          (some [0x72])] :=
    ⟨_, _, replay_eq_some_iff.mp rfl, replay_eq_some_iff.mp rfl, rfl⟩
  obtain ⟨s, t, -, path, history⟩ := run
  refine ⟨_, rfl, (handed_eq_queries_iff path history rfl).1.mpr ⟨?_, ?_⟩⟩
  · intro offset read placed head
    rcases placed with _ | ⟨_, _ | ⟨_, _ | ⟨_, _ | ⟨_, _ | ⟨_, beyond⟩⟩⟩⟩⟩
    · exact absurd head (by decide)
    · exact absurd head (by decide)
    · exact ⟨query_q, [0x71], .tail _ (.head _), rfl, by decide⟩
    · exact absurd head (by decide)
    · exact ⟨query_r, [0x72], .tail _ (.tail _ (.head _)), rfl, by decide⟩
    · contradiction
  · intro offset m text placed named
    rcases placed with _ | ⟨_, _ | ⟨_, _ | ⟨_, _ | ⟨_, beyond⟩⟩⟩⟩
    · exact absurd (named.symm.trans (rfl : sync.text = none)) (Option.some_ne_none _)
    · exact ⟨_, .tail _ (.tail _ (.head _))⟩
    · exact ⟨_, .tail _ (.tail _ (.tail _ (.tail _ (.head _))))⟩
    · exact absurd (named.symm.trans (rfl : sync.text = none)) (Option.some_ne_none _)
    · contradiction

end FlightProxy
