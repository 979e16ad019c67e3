import Ratchet.Octets.Basic

/-!
# Hexadecimal text

`Hex.encode` writes a byte as two lower-case digits, high half first.
`Hex.decode` reads such text back and takes capital digits too.

The reader looks at the text as UTF-8 bytes. An odd number of them is the first
thing it refuses; after that it names the first byte that is no digit, and where
it stands. That byte is shown as the character with its number, in quotes, and
`Hex.quoted` says how a character without a shape of its own is written.
-/

set_option autoImplicit false

namespace Ratchet

/-- Why a text is not hexadecimal. -/
inductive HexFault where
  /-- The text has an odd number of bytes. -/
  | oddLength
  /-- The byte at this position is no hexadecimal digit. -/
  | badDigit (byte : UInt8) (position : Nat)
deriving DecidableEq, Repr

namespace Hex

/-! ## Writing -/

/-- The lower-case digit of a number below sixteen. -/
def digit (value : UInt8) : Char :=
  if value < 10 then Char.ofNat (48 + value.toNat) else Char.ofNat (87 + value.toNat)

/-- The two digits of a byte, high half first. -/
def pair (byte : UInt8) : List Char := [digit (byte >>> 4), digit (byte &&& 0x0F)]

/-- The bytes in lower-case hexadecimal digits. -/
def encode (bytes : Bytes) : String := String.ofList (bytes.flatMap pair)

/-! ## Reading -/

/-- The value of a hexadecimal digit of either case, given as its ASCII code. -/
def value? (code : UInt8) : Option UInt8 :=
  if 48 ≤ code ∧ code ≤ 57 then some (code - 48)
  else if 97 ≤ code ∧ code ≤ 102 then some (code - 87)
  else if 65 ≤ code ∧ code ≤ 70 then some (code - 55)
  else none

/-- Reads digits two by two; `position` is where the first of them stands in the whole text. -/
def decodeFrom (position : Nat) : Bytes → Except HexFault Bytes
  | high :: low :: rest =>
    match value? high, value? low with
    | none, _ => .error (.badDigit high position)
    | some _, none => .error (.badDigit low (position + 1))
    | some upper, some lower => do
      let bytes ← decodeFrom (position + 2) rest
      return (upper <<< 4 ||| lower) :: bytes
  | [_] => .error .oddLength
  | [] => .ok []

/-- The bytes that a hexadecimal text stands for. -/
def decode (text : String) : Except HexFault Bytes :=
  let codes := text.toUTF8.toList
  if codes.length % 2 = 1 then .error .oddLength else decodeFrom 0 codes

/-! ## Showing a refused byte -/

/-- The lower-case hexadecimal digits of a byte, without a leading zero. -/
def shortest (byte : UInt8) : List Char :=
  if byte < 16 then [digit byte] else pair byte

/-- A character without a shape of its own: a control, the no-break space or the soft hyphen. -/
def unprintable (byte : UInt8) : Bool :=
  byte < 0x20 || (0x7F ≤ byte && byte ≤ 0xA0) || byte = 0xAD

/-- The character with the byte's number, in single quotes and escaped where it would not show. -/
def quoted (byte : UInt8) : String :=
  let shown : List Char :=
    if byte = 0 then ['\\', '0']
    else if byte = 9 then ['\\', 't']
    else if byte = 10 then ['\\', 'n']
    else if byte = 13 then ['\\', 'r']
    else if byte = 39 then ['\\', '\'']
    else if byte = 92 then ['\\', '\\']
    else if unprintable byte then ['\\', 'u', '\x7b'] ++ shortest byte ++ ['\x7d']
    else [Char.ofNat byte.toNat]
  String.ofList (['\''] ++ shown ++ ['\''])

end Hex

/-- The text of a hexadecimal fault. -/
def HexFault.message : HexFault → String
  | .oddLength => "Odd number of digits"
  | .badDigit byte position => s!"Invalid character {Hex.quoted byte} at position {position}"

end Ratchet
