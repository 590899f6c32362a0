import FlightProxy.Session.Interception

/-! # What becomes of the client's messages

A read ends with a write: its bytes to the server, or the result of its query to the client. A
message is safe when every read it touches ends with a write of the read's own bytes to the server, or
when the session answers it itself and the read carries nothing else.
-/

namespace FlightProxy

open Segments

/-- The write with which a client read ends. -/
inductive Ending
  /-- These bytes have been written to the server. -/
  | forwarded (data : Bytes)
  /-- This result has been written to the client. -/
  | answered (reply : Bytes)
deriving DecidableEq, Repr

def Ending.is_forwarded : Ending → Bool
  | .forwarded _ => true
  | .answered _ => false

/-- The bytes that have been written to the server. -/
def Ending.sent : Ending → Bytes
  | .forwarded data => data
  | .answered _ => []

/-- Takes note of the last read, and of the write with which it ends. -/
def settle : Bytes × List (Bytes × Ending) → SessionEvent → Bytes × List (Bytes × Ending)
  | (_, settled), .complete .client_read (.ok data) => (data, settled)
  | (last, settled), .complete (.server_write data) (.ok _) =>
    (last, settled ++ [(last, .forwarded data)])
  | (last, settled), .complete (.response_write reply) (.ok _) =>
    (last, settled ++ [(last, .answered reply)])
  | noted, _ => noted

/-- The client reads that are done with, each with the completed write that ended it. -/
def settled (es : List SessionEvent) : List (Bytes × Ending) := (es.foldl settle ([], [])).2

def placed_endings (settled : List (Bytes × Ending)) : List (ℕ × Bytes × Ending) :=
  place (fun read => read.1.length) 0 settled

def placed_messages (messages : List Message) : List (ℕ × Message) :=
  place (fun m => m.encode.length) 0 messages

/-- Whether the byte at a position of the stream was in a read that was forwarded. -/
def forwards (settled : List (Bytes × Ending)) (position : ℕ) : Bool :=
  (placed_endings settled).any fun read =>
    read.1 ≤ position && position < read.1 + read.2.1.length && read.2.2.is_forwarded

/-- Every read that holds a byte of the message has been written to the server as it is. -/
def Forwarded (settled : List (Bytes × Ending)) (offset : ℕ) (m : Message) : Prop :=
  ∀ start read, (start, read) ∈ placed_endings settled → start < offset + m.encode.length →
    offset < start + read.1.length → read.2 = .forwarded read.1

/-- The message is a Query whose read holds nothing else and has ended with a reply to the client. -/
def Answered (settled : List (Bytes × Ending)) (offset : ℕ) (m : Message) (reply : Bytes) : Prop :=
  m.text ≠ none ∧ (offset, (m.encode, .answered reply)) ∈ placed_endings settled

/-- A read that is not forwarded is answered, and is a Query message and nothing else. -/
def Exact (messages : List Message) (start : ℕ) (data : Bytes) (ending : Ending) : Prop :=
  ending = .forwarded data ∨ ∃ reply m, ending = .answered reply ∧
    (start, m) ∈ placed_messages messages ∧ m.text ≠ none ∧ data = m.encode

section

variable {settled : List (Bytes × Ending)} {messages : List Message}
  (exact' : ∀ start data ending, (start, (data, ending)) ∈ placed_endings settled →
    Exact messages start data ending)

include exact' in
/-- No message of the stream is lost. -/
theorem conserved_of_exact {offset : ℕ} {m : Message}
    (at' : (offset, m) ∈ placed_messages messages) :
    Forwarded settled offset m ∨ ∃ reply, Answered settled offset m reply := by
  by_cases touched : Forwarded settled offset m
  · exact .inl touched
  simp only [Forwarded, not_forall] at touched
  obtain ⟨start, ⟨data, ending⟩, placed, before, after, unforwarded⟩ := touched
  obtain forwarded | ⟨reply, m', rfl, at'', query, rfl⟩ := exact' start data ending placed
  · exact absurd forwarded unforwarded
  simp only at after
  have same : offset = start ∧ m = m' := by
    rcases Nat.le_total offset start with low | low
    · refine eq_of_mem_place start at' at'' low before (le_refl _) ?_
      exact Nat.lt_add_of_pos_right (List.length_pos_iff.mpr m'.encode_ne_nil)
    · refine eq_of_mem_place offset at' at'' (le_refl _) ?_ low after
      exact Nat.lt_add_of_pos_right (List.length_pos_iff.mpr m.encode_ne_nil)
  obtain ⟨rfl, rfl⟩ := same
  exact .inr ⟨reply, query, placed⟩

private theorem forwards_eq {start position : ℕ} {data : Bytes} {ending : Ending}
    (placed : (start, (data, ending)) ∈ placed_endings settled) (low : start ≤ position)
    (high : position < start + data.length) : forwards settled position = ending.is_forwarded := by
  rw [Bool.eq_iff_iff, forwards, List.any_eq_true]
  constructor
  · rintro ⟨⟨start', data', ending'⟩, placed', within⟩
    simp only [Bool.and_eq_true, decide_eq_true_eq] at within
    obtain ⟨-, same⟩ := eq_of_mem_place position placed placed' low high within.1.1 within.1.2
    rw [(Prod.mk.inj same).2, within.2]
  · intro forwarded
    exact ⟨_, placed, by simp [low, high, forwarded]⟩

/-- No read that is done with goes further than all of them together. -/
private theorem forwards_beyond {position : ℕ}
    (beyond : (settled.flatMap Prod.fst).length ≤ position) : forwards settled position = false := by
  refine Bool.eq_false_iff.mpr fun kept => ?_
  rw [forwards, List.any_eq_true] at kept
  obtain ⟨⟨start, data, ending⟩, placed, within⟩ := kept
  simp only [Bool.and_eq_true, decide_eq_true_eq] at within
  have inside := end_le_of_mem_place placed
  rw [extent_eq_length Prod.fst fun _ => rfl] at inside
  simp only at inside
  omega

private theorem exists_read {position : ℕ} (inside : position < (settled.flatMap Prod.fst).length) :
    ∃ start data ending, (start, (data, ending)) ∈ placed_endings settled ∧ start ≤ position ∧
      position < start + data.length := by
  have sized := @extent_eq_length _ _ (fun read : Bytes × Ending => read.1.length) settled Prod.fst
    fun _ => rfl
  rw [← sized] at inside
  obtain ⟨start, ⟨data, ending⟩, placed, within⟩ := exists_mem_place
    (fun read : Bytes × Ending => read.1.length) settled position (Nat.zero_le _) (by omega)
  exact ⟨start, data, ending, placed, within⟩

include exact' in
/-- A read that is not forwarded holds the whole of every message it touches. -/
private theorem forwards_of_touched {offset position start : ℕ} {m : Message} {data : Bytes}
    {ending : Ending} (at' : (offset, m) ∈ placed_messages messages)
    (placed : (start, (data, ending)) ∈ placed_endings settled)
    (unforwarded : ending.is_forwarded = false)
    (low : offset ≤ position) (high : position < offset + m.encode.length)
    (low' : start ≤ position) (high' : position < start + data.length) :
    ∀ other, offset ≤ other → other < offset + m.encode.length → forwards settled other = false := by
  obtain rfl | ⟨reply, m', rfl, at'', -, rfl⟩ := exact' start data ending placed
  · contradiction
  obtain ⟨rfl, rfl⟩ := eq_of_mem_place position at' at'' low high low' high'
  intro other low high
  exact forwards_eq placed low high

include exact' in
/-- What is done with of a message is forwarded, or none of it is. -/
private theorem forwards_uniform {offset : ℕ} {m : Message}
    (at' : (offset, m) ∈ placed_messages messages) {position : ℕ} (low : offset ≤ position)
    (high : position < offset + m.encode.length)
    (inside : position < (settled.flatMap Prod.fst).length) :
    forwards settled position = forwards settled offset := by
  have first : offset < offset + m.encode.length := by omega
  obtain ⟨start, data, ending, placed, low', high'⟩ := exists_read inside
  obtain ⟨start', data', ending', placed', low'', high''⟩ :=
    @exists_read settled offset (by omega)
  cases forwarded : ending.is_forwarded with
  | true =>
    cases forwarded' : ending'.is_forwarded with
    | true => rw [forwards_eq placed low' high', forwards_eq placed' low'' high'', forwarded, forwarded']
    | false =>
      have none := forwards_of_touched exact' at' placed' forwarded' (le_refl _) first low'' high''
      rw [none position low high, none offset (le_refl _) first]
  | false =>
    have none := forwards_of_touched exact' at' placed forwarded low high low' high'
    rw [none position low high, none offset (le_refl _) first]

include exact' in
/-- The first byte of a message that has been read tells whether the message is forwarded. -/
theorem forwards_iff (nonempty : ∀ read ∈ settled, read.1 ≠ []) {offset : ℕ} {m : Message}
    (at' : (offset, m) ∈ placed_messages messages)
    (begun : offset < (settled.flatMap Prod.fst).length) :
    forwards settled offset = true ↔ Forwarded settled offset m := by
  have first : offset < offset + m.encode.length :=
    Nat.lt_add_of_pos_right (List.length_pos_iff.mpr m.encode_ne_nil)
  constructor
  · rintro kept start ⟨data, ending⟩ placed before after
    have positive : 0 < data.length := by
      refine List.length_pos_iff.mpr (nonempty (data, ending) ?_)
      rw [← map_snd_place (fun read => read.1.length) 0 settled]
      exact List.mem_map_of_mem placed
    simp only at after
    -- the read and the message share the later of their first bytes
    have shared : ∃ position, offset ≤ position ∧ position < offset + m.encode.length ∧
        start ≤ position ∧ position < start + data.length := by
      rcases Nat.le_total offset start with low | low
      · exact ⟨start, low, before, le_refl _, by omega⟩
      · exact ⟨offset, le_refl _, first, low, after⟩
    obtain ⟨position, low, high, low', high'⟩ := shared
    have inside := end_le_of_mem_place placed
    rw [extent_eq_length Prod.fst fun _ => rfl] at inside
    simp only at inside
    rw [← forwards_uniform exact' at' low high (by omega), forwards_eq placed low' high'] at kept
    obtain rfl | ⟨reply, m', rfl, -⟩ := exact' start data ending placed
    · rfl
    · contradiction
  · intro forwarded
    obtain ⟨start, data, ending, placed, low, high⟩ := exists_read begun
    have ended : ending = .forwarded data := forwarded start (data, ending) placed (by omega) high
    rw [forwards_eq placed low high, ended]
    rfl

include exact' in
/-- What has been written to the server is what the stream holds at the forwarded positions. -/
private theorem sent_eq_keep :
    settled.flatMap (fun read => read.2.sent) =
      keep (forwards settled) 0 (settled.flatMap Prod.fst) := by
  have sized : ∀ read : Bytes × Ending, read.1.length = (Prod.fst read).length := fun _ => rfl
  rw [keep_flatMap sized]
  conv_lhs => rw [← map_snd_place (fun read : Bytes × Ending => read.1.length) 0 settled]
  rw [List.flatMap_map]
  refine List.flatMap_congr ?_
  rintro ⟨start, data, ending⟩ placed
  rw [keep_of_uniform fun position low high => forwards_eq placed low high]
  obtain rfl | ⟨reply, m, rfl, -⟩ := exact' start data ending placed
  · rfl
  · rfl

include exact' in
/-- What has been written to the server is the forwarded messages, each whole, once and in order, the
last of them as far as it has been read. -/
theorem sent_eq
    (stream : settled.flatMap Prod.fst <+: messages.flatMap Message.encode) :
    settled.flatMap (fun read => read.2.sent) = (placed_messages messages).flatMap fun entry =>
      if forwards settled entry.1 then
        entry.2.encode.take ((settled.flatMap Prod.fst).length - entry.1) else [] := by
  have beyond : ∀ rest : Bytes, keep (forwards settled) 0 (settled.flatMap Prod.fst ++ rest) =
      keep (forwards settled) 0 (settled.flatMap Prod.fst) := by
    intro rest
    have none : keep (forwards settled) (0 + (settled.flatMap Prod.fst).length) rest =
        if false then rest else [] :=
      keep_of_uniform fun position low _ => forwards_beyond (by omega)
    rw [keep_append, none]
    exact List.append_nil _
  obtain ⟨rest, whole⟩ := stream
  rw [sent_eq_keep exact', ← beyond rest, whole, keep_flatMap fun _ => rfl]
  refine List.flatMap_congr ?_
  rintro ⟨offset, m⟩ at'
  simp only
  split_ifs with kept
  · refine keep_of_prefix ?_ fun position _ beyond => forwards_beyond beyond
    intro position low high inside
    exact (forwards_uniform exact' at' low high inside).trans kept
  · have none : keep (forwards settled) offset m.encode = if false then m.encode else [] := by
      refine keep_of_uniform fun position low high => ?_
      by_cases inside : position < (settled.flatMap Prod.fst).length
      · rw [forwards_uniform exact' at' low high inside]
        exact Bool.eq_false_iff.mpr kept
      · exact forwards_beyond (Nat.le_of_not_lt inside)
    exact none

end

end FlightProxy
