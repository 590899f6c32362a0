import Mathlib.Data.List.Basic
import Mathlib.Algebra.Group.Nat.Defs

/-! # Byte strings and frontend messages

A frontend message is a type byte, a 4-byte big-endian length that counts itself and the body, and
the body. The body of a Query message is its text and one NUL.
-/

namespace FlightProxy

/-- A `std::string`, or the contents of a `std::vector<char>`. -/
abbrev Bytes := List UInt8

/-- The type byte of a Query message, `'Q'`. -/
def query_type : UInt8 := 0x51

/-- Four bytes in network order. -/
def be32 (n : ℕ) : Bytes :=
  [UInt8.ofNat (n / 2 ^ 24), UInt8.ofNat (n / 2 ^ 16), UInt8.ofNat (n / 2 ^ 8), UInt8.ofNat n]

/-- A well-formed frontend message after startup. -/
structure Message where
  type : UInt8
  body : Bytes
  /-- The length field is a signed 32-bit integer. -/
  fits : body.length + 4 < 2 ^ 31
  query : type = query_type → ∃ text, body = text ++ [0] ∧ (0 : UInt8) ∉ text

namespace Message

def encode (m : Message) : Bytes := m.type :: be32 (m.body.length + 4) ++ m.body

/-- The SQL text of a Query message. -/
def text (m : Message) : Option Bytes :=
  if m.type = query_type then some m.body.dropLast else none

@[simp] theorem length_encode (m : Message) : m.encode.length = m.body.length + 5 := by
  simp [encode, be32]

theorem head_encode (m : Message) : m.encode.head? = some m.type := rfl

theorem drop_encode (m : Message) : m.encode.drop 5 = m.body := rfl

theorem encode_ne_nil (m : Message) : m.encode ≠ [] := List.cons_ne_nil _ _

/-- A Query message's body is its text and one NUL, which the text is free of. -/
theorem body_of_text {m : Message} {text : Bytes} (named : m.text = some text) :
    m.type = query_type ∧ m.body = text ++ [0] ∧ (0 : UInt8) ∉ text := by
  unfold Message.text at named
  split_ifs at named with query
  obtain ⟨text', body, clean⟩ := m.query query
  obtain rfl := Option.some.inj named
  rw [body, List.dropLast_concat]
  exact ⟨query, rfl, clean⟩

end Message

end FlightProxy
