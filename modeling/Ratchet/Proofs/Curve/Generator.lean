import Mathlib.GroupTheory.OrderOfElement
import Ratchet.Proofs.Curve.Coordinates

/-!
# The base point

The base point has prime order (`addOrderOf_generator`), so a multiple of it depends
on the number only modulo the order, and the operations on multipliers are those on
multiples (`add_nsmul_generator`, `mul_nsmul_generator`, `neg_nsmul_generator`).

The public point of a private key is the multiple by the number that the key is
brought to. This number is eight times one that is positive and below the order, so
the order divides no small multiple of it, and both coordinates of a public point
differ from those of the neutral point (`publicPoint_x_ne_zero`,
`publicPoint_y_ne_one`).
-/

set_option autoImplicit false

namespace Ratchet

namespace Curve

namespace Edwards

open FieldElement

/-- The base point. -/
def generator : curve.Point where
  x := Point.base.x.residue
  y := Point.base.y.residue
  equation := by
    have onCurve : Point.base.y * Point.base.y - Point.base.x * Point.base.x =
        1 + curveConstant * (Point.base.x * Point.base.x) * (Point.base.y * Point.base.y) := by
      decide +kernel
    have residues := congrArg residue onCurve
    simp only [residue_sub, residue_mul, residue_add, residue_one, residue_curveConstant]
      at residues
    linear_combination residues

theorem denotes_base : Point.base.Denotes generator :=
  Point.denotes_ofAffine rfl rfl

theorem groupOrder_nsmul_generator : groupOrder • generator = 0 := by
  have bytes : (Point.base.multiply groupOrder).compress = Point.zero.compress := by
    decide +kernel
  rwa [(denotes_base.multiply (by decide)).compress, Point.denotes_zero.compress, written_inj]
    at bytes

theorem generator_x_ne_zero : generator.x ≠ 0 := by
  have proper : Point.base.x ≠ 0 := by decide +kernel
  intro zero
  exact proper (residue_inj.mp (zero.trans residue_zero.symm))

theorem generator_ne_zero : generator ≠ 0 := by
  intro zero
  apply generator_x_ne_zero
  rw [zero, CompleteCurve.zero_x]

/-- **The base point has the order by which multipliers are reduced.** -/
theorem addOrderOf_generator : addOrderOf generator = groupOrder :=
  have : Fact groupOrder.Prime := ⟨groupOrder_prime⟩
  addOrderOf_eq_prime groupOrder_nsmul_generator generator_ne_zero

/-! ## Multiples -/

theorem nsmul_generator_eq_iff {first second : Nat} :
    first • generator = second • generator ↔ first ≡ second [MOD groupOrder] := by
  rw [nsmul_eq_nsmul_iff_modEq, addOrderOf_generator]

theorem nsmul_generator_eq_zero_iff {number : Nat} :
    number • generator = 0 ↔ groupOrder ∣ number := by
  rw [← addOrderOf_dvd_iff_nsmul_eq_zero, addOrderOf_generator]

theorem ofNat_nsmul_generator (number : Nat) :
    (Scalar.ofNat number).val • generator = number • generator :=
  nsmul_generator_eq_iff.mpr (Nat.mod_modEq number groupOrder)

theorem add_nsmul_generator (first second : Scalar) :
    (first + second).val • generator = first.val • generator + second.val • generator := by
  rw [← add_nsmul, nsmul_generator_eq_iff, Fin.val_add]
  exact Nat.mod_modEq _ _

theorem mul_nsmul_generator (first second : Scalar) :
    (first * second).val • generator = first.val • second.val • generator := by
  rw [smul_smul, nsmul_generator_eq_iff, Fin.val_mul]
  exact Nat.mod_modEq _ _

theorem neg_nsmul_generator (scalar : Scalar) :
    (-scalar).val • generator = -(scalar.val • generator) := by
  have cancels : (-scalar).val + scalar.val ≡ 0 [MOD groupOrder] := by
    rw [← Fin.val_zero groupOrder, ← neg_add_cancel scalar, Fin.val_add]
    exact (Nat.mod_modEq _ _).symm
  rw [eq_neg_iff_add_eq_zero, ← add_nsmul, ← zero_nsmul generator, nsmul_generator_eq_iff]
  exact cancels

/-! ## Public points -/

/-- The point of a private key. -/
def publicPoint (secret : Octets 32) : curve.Point := clamp secret • generator

theorem clamp_eq (secret : Octets 32) :
    ∃ number, clamp secret = 8 * number ∧ 0 < number ∧ number < groupOrder := by
  refine ⟨Nat.pow 2 251 + secret.toNat % Nat.pow 2 254 / 8, ?_, ?_, ?_⟩
  · have power : Nat.pow 2 254 = 8 * Nat.pow 2 251 := by decide
    rw [clamp, power]
    omega
  · exact Nat.add_pos_left (by decide) _
  · have bound : secret.toNat % Nat.pow 2 254 < Nat.pow 2 254 := Nat.mod_lt _ (by decide)
    have power : Nat.pow 2 254 = 8 * Nat.pow 2 251 := by decide
    have order : 2 * Nat.pow 2 251 ≤ groupOrder := by decide
    omega

theorem clamp_lt (secret : Octets 32) : clamp secret < 2 ^ 255 := by
  have bound : secret.toNat % Nat.pow 2 254 < Nat.pow 2 254 := Nat.mod_lt _ (by decide)
  rw [clamp]
  simp only [Nat.pow_eq] at *
  omega

theorem not_groupOrder_dvd_mul_clamp (secret : Octets 32) {factor : Nat} (positive : 0 < factor)
    (small : factor < groupOrder) : ¬groupOrder ∣ factor * clamp secret := by
  obtain ⟨number, whole, numberPositive, numberSmall⟩ := clamp_eq secret
  rw [whole, groupOrder_prime.dvd_mul, groupOrder_prime.dvd_mul]
  rintro (divides | divides | divides)
  · exact Nat.not_dvd_of_pos_of_lt positive small divides
  · exact Nat.not_dvd_of_pos_of_lt (by decide) (by decide) divides
  · exact Nat.not_dvd_of_pos_of_lt numberPositive numberSmall divides

theorem publicPoint_x_ne_zero (secret : Octets 32) : (publicPoint secret).x ≠ 0 := by
  intro zero
  have twice := CompleteCurve.Point.two_nsmul_eq_zero zero
  rw [publicPoint, smul_smul, nsmul_generator_eq_zero_iff] at twice
  exact not_groupOrder_dvd_mul_clamp secret (by decide) (by decide) twice

theorem publicPoint_y_ne_one (secret : Octets 32) : (publicPoint secret).y ≠ 1 := by
  intro top
  apply CompleteCurve.Point.sq_y_ne_one (publicPoint_x_ne_zero secret)
  rw [top, one_pow]

end Edwards

end Curve

end Ratchet
