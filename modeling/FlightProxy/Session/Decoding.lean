import FlightProxy.Model.Session
import Mathlib.Data.List.TakeWhile

/-! # The text of a query

extract_sql_query with the pointers of its loop, as offsets into the buffer. The loop moves its own end
to the first NUL it meets, so what lies beyond the read, or beyond the NUL, is never looked at.
-/

namespace FlightProxy.Decoding

/-- Where the loop leaves `query_end`, from `p` on. -/
def scan (buffer : Bytes) (query_end p : ℕ) : ℕ :=
  if p < query_end then
    if buffer[p]? = some 0 then p else scan buffer query_end (p + 1)
  else query_end
termination_by query_end - p

/-- `Session::extract_sql_query`. -/
def extract_sql_query (buffer : Bytes) (length : ℕ) : Bytes :=
  if length < 5 then []
  else
    let query_start := 5
    let query_end := scan buffer length query_start
    if query_end ≤ query_start then [] else (buffer.take query_end).drop query_start

/-- A Query message with the bytes of its length field, and what follows it in the buffer. -/
def query_message (lengths s t : Bytes) : Bytes := query_type :: lengths ++ s ++ 0 :: t

variable {buffer buffer' lengths lengths' s s' t t' : Bytes} {length length' query_end p : ℕ}

theorem le_scan (inside : p ≤ query_end) : p ≤ scan buffer query_end p := by
  induction p using scan.induct buffer query_end with
  | case1 p before here =>
    rw [scan, if_pos before, if_pos here]
  | case2 p before other ih =>
    rw [scan, if_pos before, if_neg other]
    exact Nat.le_of_succ_le (ih before)
  | case3 p past =>
    rw [scan, if_neg past]
    exact inside

/-- The bytes that the loop passes are those up to the first NUL. -/
theorem drop_take_scan (bound : query_end ≤ buffer.length) (p : ℕ) :
    (buffer.take (scan buffer query_end p)).drop p =
      ((buffer.take query_end).drop p).takeWhile (· ≠ 0) := by
  induction p using scan.induct buffer query_end with
  | case1 p before here =>
    have shorter : p < (buffer.take query_end).length := by
      rw [List.length_take]
      omega
    have byte : (buffer.take query_end)[p] = 0 := by
      rw [List.getElem_take]
      exact (List.getElem?_eq_some_iff.mp here).2
    have passed : (buffer.take p).length ≤ p := List.length_take_le p buffer
    rw [scan, if_pos before, if_pos here, List.drop_eq_getElem_cons shorter, byte,
      List.drop_eq_nil_of_le passed]
    rfl
  | case2 p before other ih =>
    have later : p + 1 ≤ scan buffer query_end (p + 1) := le_scan before
    have inside : p < buffer.length := Nat.lt_of_lt_of_le before bound
    have shorter : p < (buffer.take query_end).length := by
      rw [List.length_take]
      omega
    have shorter' : p < (buffer.take (scan buffer query_end (p + 1))).length := by
      rw [List.length_take]
      omega
    have byte : buffer[p] ≠ 0 := by
      intro nul
      exact other (List.getElem?_eq_some_iff.mpr ⟨inside, nul⟩)
    rw [scan, if_pos before, if_neg other, List.drop_eq_getElem_cons shorter,
      List.drop_eq_getElem_cons shorter', List.getElem_take, List.getElem_take, ih,
      List.takeWhile_cons_of_pos (by simpa using byte)]
  | case3 p past =>
    have short : (buffer.take query_end).length ≤ p := by
      rw [List.length_take]
      omega
    rw [scan, if_neg past, List.drop_eq_nil_of_le short]
    rfl

/-- The loop finds what the bytes of the read hold from offset 5 up to a NUL. -/
theorem extract_sql_query_eq (bound : length ≤ buffer.length) :
    extract_sql_query buffer length = ((buffer.take length).drop 5).takeWhile (· ≠ 0) := by
  rw [extract_sql_query]
  split_ifs with short
  · have empty : (buffer.take length).length ≤ 5 := by
      rw [List.length_take]
      omega
    rw [List.drop_eq_nil_of_le empty]
    rfl
  · rw [← drop_take_scan bound]
    simp only
    split_ifs with empty
    · have none_left : (buffer.take (scan buffer length 5)).length ≤ 5 := by
        rw [List.length_take]
        omega
      rw [List.drop_eq_nil_of_le none_left]
    · rfl

/-- The handlers of the session use the same text. -/
theorem session_extract_sql_query_eq (bound : length ≤ buffer.length) :
    Session.extract_sql_query buffer length = extract_sql_query buffer length := by
  rw [extract_sql_query_eq bound, Session.extract_sql_query]
  split_ifs with short
  · have empty : (buffer.take length).length ≤ 5 := by
      rw [List.length_take]
      omega
    rw [List.drop_eq_nil_of_le empty]
    rfl
  · rfl

theorem notMem_takeWhile (bytes : Bytes) : 0 ∉ bytes.takeWhile (· ≠ 0) := by
  intro member
  have nonzero := List.mem_takeWhile_imp member
  simp at nonzero

theorem takeWhile_append_nul (free : 0 ∉ s) (t : Bytes) :
    (s ++ 0 :: t).takeWhile (· ≠ 0) = s := by
  have all : ∀ byte ∈ s, decide (byte ≠ 0) = true := by
    intro byte member
    apply decide_eq_true
    rintro rfl
    exact free member
  rw [List.takeWhile_append_of_pos all, List.takeWhile_cons_of_neg (by simp), List.append_nil]

/-- A Query message gives its text. -/
theorem extract_query_message (field : lengths.length = 4) (free : 0 ∉ s)
    (covers : 5 + s.length < length) (bound : length ≤ (query_message lengths s t).length) :
    extract_sql_query (query_message lengths s t) length = s := by
  have header : (query_type :: lengths).length = 5 := by rw [List.length_cons, field]
  have front : (query_message lengths s t).take length =
      (query_type :: lengths) ++ (s ++ 0 :: t.take (length - (6 + s.length))) := by
    rw [query_message, List.append_assoc, List.take_append, header, List.take_of_length_le
      (by rw [header]; omega), List.take_append, List.take_of_length_le (by omega)]
    obtain ⟨more, same⟩ := Nat.exists_eq_add_of_lt covers
    have rest : length - 5 - s.length = (length - (6 + s.length)) + 1 := by omega
    rw [rest, List.take_succ_cons]
  rw [extract_sql_query_eq bound, front, ← header, List.drop_left, takeWhile_append_nul free]

/-- On Query messages whose NUL has been read the text is the one that was sent, so that texts are told
apart; and on any buffer the text is the longest run without NUL from offset 5 within the read, which
depends on nothing behind it. -/
theorem extract_sql_query_spec :
    (∀ lengths s t length, lengths.length = 4 → 0 ∉ s → 5 + s.length < length →
      length ≤ (query_message lengths s t).length →
        extract_sql_query (query_message lengths s t) length = s) ∧
      (∀ lengths s t length lengths' s' t' length', lengths.length = 4 → 0 ∉ s →
        5 + s.length < length → length ≤ (query_message lengths s t).length →
        lengths'.length = 4 → 0 ∉ s' → 5 + s'.length < length' →
        length' ≤ (query_message lengths' s' t').length →
          (s = s' ↔ extract_sql_query (query_message lengths s t) length =
            extract_sql_query (query_message lengths' s' t') length')) ∧
      ∀ buffer length, length ≤ buffer.length →
        (∀ buffer' : Bytes, buffer'.take length = buffer.take length →
          extract_sql_query buffer' length = extract_sql_query buffer length) ∧
        0 ∉ extract_sql_query buffer length ∧
        extract_sql_query buffer length <+: (buffer.take length).drop 5 ∧
        (∀ run, run <+: (buffer.take length).drop 5 → 0 ∉ run →
          run <+: extract_sql_query buffer length) ∧
        (length ≤ 5 → extract_sql_query buffer length = []) := by
  refine ⟨?_, ?_, ?_⟩
  · intro lengths s t length field free covers bound
    exact extract_query_message field free covers bound
  · intro lengths s t length lengths' s' t' length' field free covers bound field' free' covers' bound'
    rw [extract_query_message field free covers bound,
      extract_query_message field' free' covers' bound']
  · intro buffer length bound
    rw [extract_sql_query_eq bound]
    refine ⟨?_, notMem_takeWhile _, List.takeWhile_prefix _, ?_, ?_⟩
    · intro buffer' same
      have bound' : length ≤ buffer'.length := by
        have lengths := congrArg List.length same
        rw [List.length_take, List.length_take] at lengths
        omega
      rw [extract_sql_query_eq bound', same]
    · rintro run ⟨rest, split⟩ free
      rw [← split]
      have all : ∀ byte ∈ run, decide (byte ≠ 0) = true := by
        intro byte member
        apply decide_eq_true
        rintro rfl
        exact free member
      rw [List.takeWhile_append_of_pos all]
      exact List.prefix_append run _
    · intro short
      have empty : (buffer.take length).length ≤ 5 := by
        rw [List.length_take]
        omega
      rw [List.drop_eq_nil_of_le empty]
      rfl

end FlightProxy.Decoding
