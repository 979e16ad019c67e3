import Ratchet.Curve.Field

/-!
# Multipliers

Numbers modulo the prime order of the curve's base point. Hash values of 64
bytes and numbers of 32 bytes are reduced to multipliers, and a multiplier is
written in 32 bytes, least significant first.
-/

set_option autoImplicit false

namespace Ratchet

namespace Curve

/-- The order of the base point. -/
def groupOrder : Nat := Nat.pow 2 252 + 27742317777372353535851937790883648493

theorem groupOrder_pos : 0 < groupOrder := by decide

instance : @NeZero Nat .ofOfNat0 groupOrder := ⟨Nat.ne_of_gt groupOrder_pos⟩

/-- A number modulo the order of the base point. -/
abbrev Scalar := Fin groupOrder

namespace Scalar

/-- The multiplier that a number is reduced to. -/
def ofNat (number : Nat) : Scalar := Fin.ofNat groupOrder number

/-- The multiplier that the number in these bytes is reduced to. -/
def ofOctets {n : Nat} (octets : Octets n) : Scalar := ofNat octets.toNat

/-- The multiplier in 32 bytes. -/
def toOctets (scalar : Scalar) : Octets 32 := Octets.ofNat 32 scalar.val

end Scalar

end Curve

end Ratchet
