import Ratchet.Error

/-!
# Reading addresses

A user is read from 64 hexadecimal digits of either case. A UUID is read in four
forms, with digits of either case: five groups joined by hyphens, the same in
braces, the same behind `urn:uuid:`, or 32 digits. Which texts are UUIDs is not
for the program to say, it leaves that to a library; these forms are assumed of
it. An address is cut at its first colon, and a fault of the user wins over a
fault of the device.
-/

set_option autoImplicit false

namespace Ratchet

/-- The user named by an identity key in hexadecimal digits. -/
def UserId.parse (text : String) : Except KeyFault UserId :=
  match Hex.decode text with
  | .error fault => .error (.notHex fault)
  | .ok bytes => (PublicKey.ofBytes bytes).map UserId.mk

namespace DeviceId

/-- The sixteen bytes of 32 digits. -/
def ofDigits? (codes : Bytes) : Option DeviceId :=
  match Hex.decodeFrom 0 codes with
  | .ok bytes => (Octets.ofList? bytes).map DeviceId.mk
  | .error _ => none

/-- The digits of five groups of 8, 4, 4, 4 and 12 that are joined by hyphens. -/
def digitsOfGroups? (codes : Bytes) : Option Bytes :=
  if codes.length = 36 ∧ [8, 13, 18, 23].all (fun place => codes[place]? = some 45) then
    some (codes.take 8 ++ (codes.drop 9).take 4 ++ (codes.drop 14).take 4 ++
      (codes.drop 19).take 4 ++ codes.drop 24)
  else none

/-- A letter's lower-case code; every other code stays. -/
def lowerCase (code : UInt8) : UInt8 := if 65 ≤ code ∧ code ≤ 90 then code + 32 else code

/-- What stands in the braces or behind `urn:uuid:`, if the length is that of groups so wrapped. -/
def unwrap (codes : Bytes) : Bytes :=
  if codes.length = 38 ∧ codes.head? = some 123 ∧ codes.getLast? = some 125 then
    (codes.drop 1).dropLast
  -- That the library takes the prefix in either case is assumed, like the forms themselves.
  else if codes.length = 45 ∧ (codes.take 9).map lowerCase = "urn:uuid:".toUTF8.toList then
    codes.drop 9
  else codes

/-- The device named by a UUID in any of the four forms. -/
def parse? (text : String) : Option DeviceId :=
  let codes := text.toUTF8.toList
  if codes.length = 32 then ofDigits? codes
  else (digitsOfGroups? (unwrap codes)).bind ofDigits?

/-- The device named by a UUID, or the fault of the text that names none. -/
def parse (text : String) : Except SessionError DeviceId :=
  match parse? text with
  | some device => .ok device
  | none => .error (.invalidAddress (.badDevice text))

end DeviceId

namespace Address

/-- The address that a text names. -/
def parse (text : String) : Except SessionError Address :=
  match text.toList.span (· ≠ ':') with
  | (_, []) => .error (.invalidAddress (.missingColon text))
  | (front, _ :: back) =>
    match UserId.parse (String.ofList front) with
    | .error fault => .error (.invalidKey fault)
    | .ok user => (DeviceId.parse (String.ofList back)).map (Address.mk user)

end Address

end Ratchet
