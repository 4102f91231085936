/-
  Reading UTF-8. The first byte of a character fixes how many bytes follow and, for a few leads, a
  narrower range for the first of them; every later byte is between 0x80 and 0xBF. Bytes that are
  not UTF-8 are refused at the first character that cannot be completed.

  `unifyLineEnds` makes every line end a single line feed, as texts read from files have it.
-/

namespace TopDown.Text

namespace Utf8

inductive Reason where
  | invalidStart
  | invalidContinuation
  | unexpectedEnd
  deriving DecidableEq

def Reason.text : Reason → String
  | invalidStart => "invalid start byte"
  | invalidContinuation => "invalid continuation byte"
  | unexpectedEnd => "unexpected end of data"

/-- Bytes that make no character: the offset and value of the first, and how many they are. -/
structure Fault where
  offset : Nat
  first : Nat
  count : Nat
  reason : Reason
  deriving DecidableEq

/-- Bytes still owed by a character, and the range of the next one. -/
structure Owed where
  count : Nat
  low : Nat
  high : Nat
  deriving DecidableEq

/-- What a first byte stands for: the bits it carries and the bytes it owes. -/
def lead? (b : Nat) : Option (Nat × Owed) :=
  if b < 0x80 then some (b, ⟨0, 0, 0⟩)
  else if b < 0xC2 then none
  else if b < 0xE0 then some (b - 0xC0, ⟨1, 0x80, 0xBF⟩)
  else if b = 0xE0 then some (0, ⟨2, 0xA0, 0xBF⟩)
  else if b = 0xED then some (0xD, ⟨2, 0x80, 0x9F⟩)
  else if b < 0xF0 then some (b - 0xE0, ⟨2, 0x80, 0xBF⟩)
  else if b = 0xF0 then some (0, ⟨3, 0x90, 0xBF⟩)
  else if b < 0xF4 then some (b - 0xF0, ⟨3, 0x80, 0xBF⟩)
  else if b = 0xF4 then some (4, ⟨3, 0x80, 0x8F⟩)
  else none

/-- Reads the bytes that a character still owes. Gives its code point, or why it cannot be
completed and how many bytes were read before. -/
def readTails : (count low high : Nat) → (bits : Nat) → List UInt8 → Except (Reason × Nat) Nat
  | 0, _, _, bits, _ => .ok bits
  | _ + 1, _, _, _, [] => .error (.unexpectedEnd, 0)
  | count + 1, low, high, bits, b :: rest =>
    if low ≤ b.toNat ∧ b.toNat ≤ high then
      match readTails count 0x80 0xBF (bits * 64 + b.toNat % 64) rest with
      | .error (reason, n) => .error (reason, n + 1)
      | .ok code => .ok code
    else .error (.invalidContinuation, 0)

/-- Reads all characters; `offset` is the number of bytes before. -/
def decodeFrom (offset : Nat) : List UInt8 → Except Fault (List Char)
  | [] => .ok []
  | b :: rest =>
    match lead? b.toNat with
    | none => .error ⟨offset, b.toNat, 1, .invalidStart⟩
    | some (bits, owed) =>
      match readTails owed.count owed.low owed.high bits rest with
      | .error (reason, n) => .error ⟨offset, b.toNat, n + 1, reason⟩
      | .ok code =>
        match decodeFrom (offset + 1 + owed.count) (rest.drop owed.count) with
        | .error fault => .error fault
        | .ok chars => .ok (Char.ofNat code :: chars)
termination_by bytes => bytes.length
decreasing_by rw [List.length_drop, List.length_cons]; omega

def decode (bytes : List UInt8) : Except Fault (List Char) :=
  decodeFrom 0 bytes

end Utf8

/-- Every carriage return, alone or before a line feed, becomes one line feed. -/
def unifyLineEnds : List Char → List Char
  | [] => []
  | '\r' :: '\n' :: rest => '\n' :: unifyLineEnds rest
  | c :: rest => (if c = '\r' then '\n' else c) :: unifyLineEnds rest

end TopDown.Text
