import Ratchet.Key

/-!
# Prekeys

A party publishes a bundle: its identity key, a signed prekey with the
signature, and perhaps a one-time prekey. It keeps the private halves as
records under the numbers in the bundle. A bundle that arrives may lack fields
that a bundle one makes always has.
-/

set_option autoImplicit false

namespace Ratchet

/-- A key pair that starts one session. -/
structure OneTimePrekey where
  id : UInt32
  pair : KeyPair
deriving DecidableEq

/-- A key pair that starts any number of sessions, signed by the identity. -/
structure SignedPrekey where
  id : UInt32
  timestamp : UInt64
  pair : KeyPair
  signature : Bytes
deriving DecidableEq

/-- What a party publishes so that others can start sessions with it. -/
structure PrekeyBundle where
  oneTimeId : Option UInt32
  oneTimeKey : Option PublicKey
  signedId : UInt32
  signedKey : Option PublicKey
  signature : Bytes
  identityKey : PublicKey
deriving DecidableEq

/-- The bundle with a signed prekey and perhaps a one-time prekey. -/
def PrekeyBundle.make (oneTime : Option (UInt32 × PublicKey)) (signedId : UInt32)
    (signedKey : PublicKey) (signature : Bytes) (identityKey : PublicKey) : PrekeyBundle where
  oneTimeId := oneTime.map Prod.fst
  oneTimeKey := oneTime.map Prod.snd
  signedId := signedId
  signedKey := some signedKey
  signature := signature
  identityKey := identityKey

end Ratchet
