import Ratchet.Octets.Basic

/-!
# Numbers of variable length

A 32-bit number is written in groups of seven bits, the lowest first, one to a
byte, and the highest bit of a byte says that more groups follow. Small numbers
take one byte and none takes more than five.
-/

set_option autoImplicit false

namespace Ratchet

namespace Varint

/-- Writes a number in at most `more + 1` groups. -/
def groups : (more : Nat) → UInt32 → Bytes
  | 0, value => [value.toUInt8]
  | more + 1, value =>
    if value < 0x80 then [value.toUInt8]
    else ((value &&& 0x7F).toUInt8 ||| 0x80) :: groups more (value >>> 7)

/-- The bytes of a number. -/
def encode (value : UInt32) : Bytes := groups 4 value

/-- The bytes of several numbers, one after another. -/
def encodeAll (values : List UInt32) : Bytes := values.flatMap encode

end Varint

end Ratchet
