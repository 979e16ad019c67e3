import Ratchet.Error
import Ratchet.Procedure
import Ratchet.Wire.Varint

/-!
# Reading off the front of a byte string

A cursor is a byte string and a position in it; everything before the position
has been read. A reader is a procedure on a cursor that gives a value or a fault.

A fixed-length reader that fails leaves the cursor where it was. A variable
number is read byte by byte, so when it fails the bytes it looked at have been
read: at most five.
-/

set_option autoImplicit false

namespace Ratchet

/-- A byte string and how much of it has been read. -/
structure Cursor where
  data : Bytes
  position : Nat
deriving DecidableEq

/-- What reads a value off a cursor. -/
abbrev Reader (α : Type) := Procedure Cursor ReadFault α

namespace Cursor

/-- The cursor before the first byte. -/
def start (data : Bytes) : Cursor := ⟨data, 0⟩

/-- What has not been read. -/
def remaining (cursor : Cursor) : Bytes := cursor.data.drop cursor.position

/-- The cursor after `count` more bytes. -/
def advance (cursor : Cursor) (count : Nat) : Cursor :=
  { cursor with position := cursor.position + count }

end Cursor

namespace Reader

/-- Reads one byte. -/
def byte : Reader UInt8 := do
  let cursor ← get
  match cursor.remaining with
  | [] => throw .missingByte
  | value :: _ =>
    set (cursor.advance 1)
    return value

/-- Reads `count` bytes. -/
def bytes (count : Nat) : Reader Bytes := do
  let cursor ← get
  if cursor.position + count ≤ cursor.data.length then
    set (cursor.advance count)
    return cursor.remaining.take count
  else throw .missingBytes

/-- Reads `n` bytes as a byte string of length `n`. -/
def octets (n : Nat) : Reader (Octets n) := do
  match Octets.ofList? (← bytes n) with
  | some value => return value
  | none => throw .missingBytes

/-- Reads a public key. -/
def publicKey : Reader PublicKey := PublicKey.mk <$> octets 32

/-- Reads what is left of a variable number after the groups below `shift`, whose value is `low`. -/
def varintFrom : (more : Nat) → (shift low : UInt32) → Reader UInt32
  | 0, _, _ => throw .numberTooLong
  | more + 1, shift, low => do
    let value ← byte
    let bits := (value &&& 0x7F).toUInt32
    if shift = 28 ∧ 0x0F < bits then throw .numberOverflow
    let sum := low ||| (bits <<< shift)
    if value &&& 0x80 = 0 then return sum
    varintFrom more (shift + 7) sum

/-- Reads a variable number. -/
def varint : Reader UInt32 := varintFrom 5 0 0

/-- Everything that has not been read. -/
def rest : Reader Bytes := do
  return (← get).remaining

end Reader

end Ratchet
