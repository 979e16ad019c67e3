import Ratchet.Octets.Integer

/-!
# The field of the curve

Numbers modulo the prime `2 ^ 255 - 19`. A field element is read from 32 bytes,
least significant first, with the highest bit ignored and numbers from the prime
on reduced; it is written as the smallest number of its class, so writing and
reading back changes nothing (`ofOctets_toOctets`).

Powers are taken by repeated squaring, inverses and square roots as powers:
`x ^ (p - 2)` is the inverse, and `x ^ ((p + 3) / 8)` is, up to a factor whose
square is `-1`, a square root where there is one.
-/

set_option autoImplicit false

namespace Ratchet

namespace Curve

/-- The number of elements of the field. -/
def fieldPrime : Nat := Nat.pow 2 255 - 19

theorem fieldPrime_pos : 0 < fieldPrime := by decide

-- with the zero that `Fin` takes
instance : @NeZero Nat .ofOfNat0 fieldPrime := ⟨Nat.ne_of_gt fieldPrime_pos⟩

/-- An element of the field. -/
abbrev FieldElement := Fin fieldPrime

namespace FieldElement

/-- The power with an exponent of at most `bits` binary digits. -/
def power (element : FieldElement) : (bits exponent : Nat) → FieldElement
  | 0, _ => 1
  | bits + 1, exponent =>
    let half := power element bits (exponent / 2)
    if exponent % 2 = 1 then half * half * element else half * half

/-- The inverse; zero for zero. -/
def inverse (element : FieldElement) : FieldElement := element.power 255 (fieldPrime - 2)

/-- An element whose square is `-1`. -/
def rootOfMinusOne : FieldElement := power 2 255 ((fieldPrime - 1) / 4)

/-- A square root, where there is one. -/
def squareRoot? (square : FieldElement) : Option FieldElement :=
  let candidate := square.power 255 ((fieldPrime + 3) / 8)
  if candidate * candidate = square then some candidate
  else
    let other := candidate * rootOfMinusOne
    if other * other = square then some other else none

/-- Half of the nonzero elements count as negative: those whose smallest number is odd. -/
def isNegative (element : FieldElement) : Bool := element.val % 2 = 1

/-- The element with the same square and the requested sign; zero has only one sign. -/
def withSign (element : FieldElement) (negative : Bool) : FieldElement :=
  if element.isNegative = negative then element else -element

/-- The element read from 32 bytes, without the highest bit. -/
def ofOctets (octets : Octets 32) : FieldElement :=
  Fin.ofNat fieldPrime (octets.toNat % Nat.pow 2 255)

/-- The element in 32 bytes. -/
def toOctets (element : FieldElement) : Octets 32 := Octets.ofNat 32 element.val

theorem ofOctets_toOctets (element : FieldElement) : ofOctets element.toOctets = element := by
  have bound : element.val < Nat.pow 2 255 := Nat.lt_of_lt_of_le element.isLt (by decide)
  have whole : element.val % Nat.pow 256 32 = element.val :=
    Nat.mod_eq_of_lt (Nat.lt_of_lt_of_le bound (by decide))
  apply Fin.ext
  simp only [ofOctets, toOctets, Octets.toNat_ofNat, whole, Nat.mod_eq_of_lt bound, Fin.val_ofNat,
    Nat.mod_eq_of_lt element.isLt]

end FieldElement

end Curve

end Ratchet
