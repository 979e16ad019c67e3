import Ratchet.Error

/-!
# Versions

The first byte of a message holds the version of the message in its high half
and the version its sender speaks in its low half. Only messages of the current
version are read; older and newer ones are refused, each with its own failure.
-/

set_option autoImplicit false

namespace Ratchet

/-- The first byte of a message of this version; a version above fifteen loses its high bits. -/
def versionByte (version : UInt8) : UInt8 := (version <<< 4) ||| Limits.currentVersion

/-- The version of a message with this first byte. -/
def versionOfByte (byte : UInt8) : Except SessionError UInt8 :=
  let version := byte >>> 4
  if Limits.currentVersion < version then .error (.unknownVersion version)
  else if version < Limits.currentVersion then .error (.legacyVersion version)
  else .ok version

/-- The key derivation that a version uses. -/
def Kdf.ofVersion : UInt8 → Except SessionError Kdf
  | 2 => .ok .v2
  | 3 => .ok .v3
  | version => .error (.unknownVersion version)

end Ratchet
