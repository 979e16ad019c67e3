import Ratchet.Curve.Montgomery
import Ratchet.Curve.Scalar
import Ratchet.Hash.Sha512

/-!
# Signatures by agreement keys

XEdDSA: signatures made with the same private keys that agree on secrets.
Signing and verifying are written over `Group`, which lists what they need of a
curve: points that can be added, negated, multiplied and written in 32 bytes,
and the way from a public key to one of its two points.

A signature is a point `R` and a number `s` in 32 bytes each. The signer uses
the point of its public key whose sign bit is clear. The verifier reads the
requested sign from the highest bit of the second half, refuses a number of
more than 253 bits below that, reduces it by the group order, and compares the
point `s B - h A` with the bytes of `R`.
-/

set_option autoImplicit false

namespace Ratchet

namespace Curve

/-- A group of points as signatures see it. -/
structure Group where
  /-- The points. -/
  Point : Type
  /-- The point all signers multiply. -/
  base : Point
  /-- The sum of two points. -/
  add : Point → Point → Point
  /-- The opposite of a point. -/
  neg : Point → Point
  /-- The multiple of a point. -/
  multiply : Nat → Point → Point
  /-- The point in 32 bytes, its sign in the highest bit. -/
  compress : Point → Octets 32
  /-- The point of a public key with the requested sign. -/
  ofPublicKey : Octets 32 → (negative : Bool) → Option Point

namespace Signature

/-- What the first hash of a signature starts with, so that it differs from every other use. -/
def nonceLabel : Bytes := 0xFE :: List.replicate 31 0xFF

/-- The sign of a compressed point. -/
def isNegative (point : Octets 32) : Bool := Nat.pow 2 255 ≤ point.toNat

/-- A compressed point with the sign bit cleared. -/
def clearSign (point : Octets 32) : Octets 32 := Octets.ofNat 32 (point.toNat % Nat.pow 2 255)

/-- The challenge that binds the signer and the message to the point of the signature. -/
def challenge (nonce signer : Octets 32) (message : Bytes) : Scalar :=
  Scalar.ofOctets (sha512 (nonce.toList ++ signer.toList ++ message))

/-- The multiplier of a private key whose point has a clear sign bit, and that point. -/
def signer (group : Group) (secret : Octets 32) : Scalar × Octets 32 :=
  let scalar := Scalar.ofNat (clamp secret)
  let point := group.compress (group.multiply scalar.val group.base)
  (if isNegative point then -scalar else scalar, clearSign point)

/-- Signs a message; the 64 random bytes keep the nonce from ever repeating. -/
def sign (group : Group) (secret : Octets 32) (message : Bytes) (random : Octets 64) : Octets 64 :=
  let (scalar, point) := signer group secret
  let nonce : Scalar :=
    Scalar.ofOctets (sha512 (nonceLabel ++ scalar.toOctets.toList ++ message ++ random.toList))
  let noncePoint := group.compress (group.multiply nonce.val group.base)
  let answer := nonce + challenge noncePoint point message * scalar
  noncePoint.append answer.toOctets

/-- Whether a point and a number with a sign on top of it are a signature by this public key. -/
def accepts (group : Group) (key : Octets 32) (message : Bytes) (noncePoint half : Octets 32) :
    Bool :=
  let number := half.toNat % Nat.pow 2 255
  if number < Nat.pow 2 253 then
    match group.ofPublicKey key (isNegative half) with
    | none => false
    | some point =>
      let scalar := challenge noncePoint (group.compress point) message
      let expected :=
        group.add (group.multiply (Scalar.ofNat number).val group.base)
          (group.multiply scalar.val (group.neg point))
      group.compress expected = noncePoint
  else false

/-- Whether these bytes are a signature of the message by this public key. -/
def verify (group : Group) (key : Octets 32) (message signature : Bytes) : Bool :=
  match (Octets.ofList? signature : Option (Octets (32 + 32))) with
  | none => false
  | some halves => accepts group key message halves.take halves.drop

end Signature

end Curve

end Ratchet
