import Ratchet.Curve.Signature

/-!
# The twisted Edwards curve

The points of `-x ^ 2 + y ^ 2 = 1 + d x ^ 2 y ^ 2`, which correspond to those of
the Montgomery curve by `y = (u - 1) / (u + 1)`. A point is kept as `X : Y : Z : T`
with `x = X / Z`, `y = Y / Z` and `x y = T / Z`; the addition formula has no
exceptions, so it doubles points too.

A point is written as `y` with the sign of `x` in the highest bit. To go from a
Montgomery coordinate to a point, `x` is found as a square root with the
requested sign; there is none for `u = -1` and for points of the twist.
-/

set_option autoImplicit false

namespace Ratchet

namespace Curve

namespace Edwards

/-- The constant `d` of the curve. -/
def curveConstant : FieldElement := -(121665 * FieldElement.inverse 121666)

/-- Twice the constant of the curve. -/
def twiceConstant : FieldElement := 2 * curveConstant

/-- A point in extended coordinates. -/
structure Point where
  x : FieldElement
  y : FieldElement
  z : FieldElement
  t : FieldElement

namespace Point

/-- The point with these coordinates. -/
def ofAffine (x y : FieldElement) : Point := ⟨x, y, 1, x * y⟩

/-- The neutral point. -/
def zero : Point := ofAffine 0 1

/-- The sum of two points. -/
def add (first second : Point) : Point :=
  let a := (first.y - first.x) * (second.y - second.x)
  let b := (first.y + first.x) * (second.y + second.x)
  let c := first.t * twiceConstant * second.t
  let d := 2 * (first.z * second.z)
  let e := b - a
  let f := d - c
  let g := d + c
  let h := b + a
  ⟨e * f, g * h, f * g, e * h⟩

/-- The opposite of a point. -/
def neg (point : Point) : Point := ⟨-point.x, point.y, point.z, -point.t⟩

/-- The multiple by a number of at most `bits` binary digits. -/
def multiplyBits (point : Point) : (bits number : Nat) → Point
  | 0, _ => zero
  | bits + 1, number =>
    let half := multiplyBits point bits (number / 2)
    let twice := half.add half
    if number % 2 = 1 then twice.add point else twice

/-- The multiple by a number below `2 ^ 256`. -/
def multiply (number : Nat) (point : Point) : Point := point.multiplyBits 256 number

/-- The point in 32 bytes. -/
def compress (point : Point) : Octets 32 :=
  let inverse := point.z.inverse
  let x := point.x * inverse
  let y := point.y * inverse
  Octets.ofNat 32 (y.val + if x.isNegative then Nat.pow 2 255 else 0)

/-- The point with this second coordinate and sign, if there is one. -/
def ofHeight? (y : FieldElement) (negative : Bool) : Option Point :=
  let square := (y * y - 1) * (curveConstant * (y * y) + 1).inverse
  match square.squareRoot? with
  | none => none
  | some root => some (ofAffine (root.withSign negative) y)

/-- The point of a Montgomery coordinate with this sign, if there is one. -/
def ofPublicKey (key : Octets 32) (negative : Bool) : Option Point :=
  let u := FieldElement.ofOctets key
  if u + 1 = 0 then none else ofHeight? ((u - 1) * (u + 1).inverse) negative

/-- The base point: the one of height `4 / 5` whose sign is clear. -/
def base : Point :=
  ofAffine
    (Fin.ofNat fieldPrime
      15112221349535400772501151409588531511454012693041857206046113283949847762202)
    (4 * FieldElement.inverse 5)

end Point

/-- The curve as signatures see it. -/
def group : Group where
  Point := Point
  base := Point.base
  add := Point.add
  neg := Point.neg
  multiply := Point.multiply
  compress := Point.compress
  ofPublicKey := Point.ofPublicKey

end Edwards

end Curve

end Ratchet
