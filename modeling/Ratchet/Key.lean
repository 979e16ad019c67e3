import Ratchet.Octets.Hex

/-!
# Keys

Public and private keys are 32 bytes each, and a key pair is both halves. Any
32 bytes are a key; whether the public half of a pair belongs to the private
one is for the maker of the pair to know. A private key is never shown.

A key is read from a byte string of its length, and every other length is
refused with a fault that says what was expected.
-/

set_option autoImplicit false

namespace Ratchet

/-- The half of a key pair that others may see. -/
structure PublicKey where
  octets : Octets 32
deriving DecidableEq, Inhabited

/-- The half of a key pair that only its owner has. -/
structure PrivateKey where
  octets : Octets 32
deriving DecidableEq, Inhabited

/-- A public key and a private key. -/
structure KeyPair where
  publicKey : PublicKey
  privateKey : PrivateKey
deriving DecidableEq, Inhabited

/-- Why bytes or text are not a key. -/
inductive KeyFault where
  /-- A public key of another length. -/
  | badLength (length : Nat)
  /-- A private key of another length. -/
  | badPrivateLength (length : Nat)
  /-- A key pair of another length. -/
  | badPairLength (length : Nat)
  /-- A text that is not hexadecimal. -/
  | notHex (fault : HexFault)
deriving DecidableEq, Repr

/-- The text of a key fault. -/
def KeyFault.message : KeyFault → String
  | .badLength length => s!"Bad key length: {length}"
  | .badPrivateLength length => s!"Bad private key length: {length}"
  | .badPairLength length => s!"Bad key pair length: {length}"
  | .notHex fault => s!"identity key is not hex: {fault.message}"

namespace PublicKey

/-- The bytes of the key. -/
def toBytes (key : PublicKey) : Bytes := key.octets.toList

/-- The key with these bytes. -/
def ofBytes (bytes : Bytes) : Except KeyFault PublicKey :=
  match Octets.ofList? bytes with
  | some octets => .ok ⟨octets⟩
  | none => .error (.badLength bytes.length)

/-- The key in hexadecimal digits. -/
def toHex (key : PublicKey) : String := Hex.encode key.toBytes

/-- The key as it appears in a description. -/
def describe (key : PublicKey) : String := s!"PublicKey({key.toHex})"

/-- Keys are ordered as their bytes are. -/
instance : LT PublicKey := ⟨fun first second => first.octets < second.octets⟩

instance (first second : PublicKey) : Decidable (first < second) :=
  inferInstanceAs (Decidable (first.octets < second.octets))

@[simp]
theorem length_toBytes (key : PublicKey) : key.toBytes.length = 32 := key.octets.length_toList

theorem ofBytes_toBytes (key : PublicKey) : ofBytes key.toBytes = .ok key := by
  simp [ofBytes, toBytes]

end PublicKey

namespace PrivateKey

/-- The bytes of the key. -/
def toBytes (key : PrivateKey) : Bytes := key.octets.toList

/-- The key with these bytes. -/
def ofBytes (bytes : Bytes) : Except KeyFault PrivateKey :=
  match Octets.ofList? bytes with
  | some octets => .ok ⟨octets⟩
  | none => .error (.badPrivateLength bytes.length)

/-- What a description says of a private key: nothing. -/
def describe (_ : PrivateKey) : String := "PrivateKey(<redacted>)"

end PrivateKey

namespace KeyPair

/-- The pair whose public key comes first in these bytes. -/
def ofBytes (bytes : Bytes) : Except KeyFault KeyPair :=
  match (Octets.ofList? bytes : Option (Octets (32 + 32))) with
  | some halves => .ok ⟨⟨halves.take⟩, ⟨halves.drop⟩⟩
  | none => .error (.badPairLength bytes.length)

/-- The pair as it appears in a description. -/
def describe (pair : KeyPair) : String :=
  "KeyPair \x7b public_key: " ++ pair.publicKey.describe ++ ", private_key: " ++
    pair.privateKey.describe ++ " \x7d"

end KeyPair

end Ratchet
