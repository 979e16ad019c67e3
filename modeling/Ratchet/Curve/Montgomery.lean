import Ratchet.Curve.Field

/-!
# Agreement on a curve

X25519 (RFC 7748). A public key is the first coordinate of a point on the
Montgomery curve `v ^ 2 = u ^ 3 + 486662 u ^ 2 + u`, and a private key is a
number by which points are multiplied. Only first coordinates are needed: the
ladder keeps those of `m P` and `(m + 1) P` and reads the number digit by digit.

Any 32 bytes are a private key. They are brought into the range of usable
numbers (`clamp`) each time they multiply, and are kept as they are otherwise.
-/

set_option autoImplicit false

namespace Ratchet

namespace Curve

/-- A multiple of eight between `2 ^ 254` and `2 ^ 255`, made from any 32 bytes. -/
def clamp (secret : Octets 32) : Nat :=
  Nat.pow 2 254 + secret.toNat % Nat.pow 2 254 / 8 * 8

namespace Montgomery

/-- A first coordinate as a fraction; the point at infinity has the denominator zero. -/
structure Fraction where
  numerator : FieldElement
  denominator : FieldElement

/-- The multiples `m P` and `(m + 1) P` of a point. -/
structure Rung where
  low : Fraction
  high : Fraction

/-- The double of a point. -/
def Fraction.double (point : Fraction) : Fraction :=
  let sum := point.numerator + point.denominator
  let difference := point.numerator - point.denominator
  let squareSum := sum * sum
  let squareDifference := difference * difference
  let gap := squareSum - squareDifference
  ⟨squareSum * squareDifference, gap * (squareSum + 121665 * gap)⟩

/-- The sum of two points whose difference has the first coordinate `u`. -/
def Fraction.addApart (u : FieldElement) (first second : Fraction) : Fraction :=
  let crossed :=
    (second.numerator - second.denominator) * (first.numerator + first.denominator)
  let straight :=
    (second.numerator + second.denominator) * (first.numerator - first.denominator)
  let sum := crossed + straight
  let difference := crossed - straight
  ⟨sum * sum, u * (difference * difference)⟩

/-- From `m P` to `2 m P`, or to `(2 m + 1) P` if the next digit is one. -/
def Rung.next (u : FieldElement) (rung : Rung) (digit : Nat) : Rung :=
  let between := rung.low.addApart u rung.high
  if digit = 1 then ⟨between, rung.high.double⟩ else ⟨rung.low.double, between⟩

/-- The rung of a number of at most `bits` binary digits. -/
def ladder (u : FieldElement) : (bits number : Nat) → Rung
  | 0, _ => ⟨⟨1, 0⟩, ⟨u, 1⟩⟩
  | bits + 1, number => (ladder u bits (number / 2)).next u (number % 2)

/-- The first coordinate of the multiple of a point by a number below `2 ^ 255`. -/
def multiply (number : Nat) (u : FieldElement) : FieldElement :=
  let point := (ladder u 255 number).low
  point.numerator * point.denominator.inverse

end Montgomery

/-- What a private key and a public key agree on. -/
def agree (secret peer : Octets 32) : Octets 32 :=
  (Montgomery.multiply (clamp secret) (.ofOctets peer)).toOctets

/-- The public key of a private key: its multiple of the point with first coordinate nine. -/
def publicKey (secret : Octets 32) : Octets 32 :=
  (Montgomery.multiply (clamp secret) 9).toOctets

end Curve

end Ratchet
