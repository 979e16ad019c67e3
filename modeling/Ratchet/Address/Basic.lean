import Ratchet.Key

/-!
# Addresses

A user is known by an identity key, and a device of a user by a UUID; an
address names both. It is written as the key in hexadecimal digits, a colon, and
the UUID in lower-case digits with hyphens.
-/

set_option autoImplicit false

namespace Ratchet

/-- A user, named by the identity key. -/
structure UserId where
  identityKey : PublicKey
deriving DecidableEq, Inhabited

/-- A device, named by the sixteen bytes of a UUID. -/
structure DeviceId where
  uuid : Octets 16
deriving DecidableEq, Inhabited

/-- A device of a user. -/
structure Address where
  user : UserId
  device : DeviceId
deriving DecidableEq, Inhabited

namespace UserId

/-- The identity key in hexadecimal digits. -/
def toText (user : UserId) : String := user.identityKey.toHex

end UserId

namespace DeviceId

/-- The UUID in five groups of digits. -/
def toText (device : DeviceId) : String :=
  let group (start count : Nat) : String :=
    Hex.encode ((device.uuid.toList.drop start).take count)
  String.intercalate "-" [group 0 4, group 4 2, group 6 2, group 8 2, group 10 6]

/-- The random UUID of these bytes: the last comes first, and version and variant are marked. -/
def ofRandom (random : Octets 16) : DeviceId :=
  let bytes := random.toList.reverse
  let marked := bytes.mapIdx fun index byte =>
    if index = 6 then (byte &&& 0x0F) ||| 0x40
    else if index = 8 then (byte &&& 0x3F) ||| 0x80
    else byte
  ⟨marked, by simp [marked, bytes]⟩

end DeviceId

namespace Address

/-- The identity key of the user. -/
def identityKey (address : Address) : PublicKey := address.user.identityKey

/-- The text of an address. -/
def toText (address : Address) : String := address.user.toText ++ ":" ++ address.device.toText

/-- Addresses are ordered by user and then by device. -/
def precedes (first second : Address) : Bool :=
  if first.user = second.user then
    second.device.uuid.toList ≥ first.device.uuid.toList
  else first.identityKey.toBytes < second.identityKey.toBytes

end Address

end Ratchet
