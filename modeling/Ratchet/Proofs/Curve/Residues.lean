import Mathlib.FieldTheory.Finite.Basic
import Mathlib.NumberTheory.LegendreSymbol.Basic
import Ratchet.Proofs.Curve.Primality

/-!
# Field elements as residues

A field element stands for a residue class modulo the prime (`FieldElement.residue`),
and the residue classes modulo a prime are a field. The operations on field
elements are those of the classes, powers and inverses included.

The search for a square root finds one exactly where there is one
(`FieldElement.exists_squareRoot?`, `FieldElement.residue_of_squareRoot?`), and of
two opposite field elements other than zero one counts as negative
(`FieldElement.isNegative_neg`).
-/

set_option autoImplicit false

namespace Ratchet

namespace Curve

instance : Fact fieldPrime.Prime := ⟨fieldPrime_prime⟩

namespace FieldElement

/-- The residue class of a field element. -/
def residue (element : FieldElement) : ZMod fieldPrime := (element.val : Nat)

theorem residue_inj {first second : FieldElement} :
    first.residue = second.residue ↔ first = second := by
  rw [residue, residue, ZMod.natCast_eq_natCast_iff', Nat.mod_eq_of_lt first.isLt,
    Nat.mod_eq_of_lt second.isLt, Fin.val_inj]

/-- The field element of a residue class. -/
def ofResidue (residue : ZMod fieldPrime) : FieldElement := ⟨residue.val, residue.val_lt⟩

@[simp]
theorem residue_ofResidue (number : ZMod fieldPrime) : (ofResidue number).residue = number :=
  ZMod.natCast_rightInverse number

@[simp]
theorem residue_ofNat (number : Nat) : residue (Fin.ofNat fieldPrime number) = number := by
  simp [residue]

@[simp]
theorem residue_zero : residue 0 = 0 := by
  simp [residue]

@[simp]
theorem residue_one : residue 1 = 1 := by
  have one : residue (Fin.ofNat fieldPrime 1) = ((1 : Nat) : ZMod fieldPrime) := residue_ofNat 1
  rwa [Nat.cast_one] at one

theorem residue_numeral (number : Nat) [number.AtLeastTwo] :
    residue (OfNat.ofNat number) = OfNat.ofNat number :=
  (residue_ofNat (OfNat.ofNat number)).trans Nat.cast_ofNat

@[simp]
theorem residue_add (first second : FieldElement) :
    (first + second).residue = first.residue + second.residue := by
  simp [residue, Fin.val_add]

@[simp]
theorem residue_mul (first second : FieldElement) :
    (first * second).residue = first.residue * second.residue := by
  simp [residue, Fin.val_mul]

@[simp]
theorem residue_sub (first second : FieldElement) :
    (first - second).residue = first.residue - second.residue := by
  have below := second.isLt.le
  simp [residue, Fin.sub_def, Nat.cast_sub below]
  ring

@[simp]
theorem residue_neg (element : FieldElement) : (-element).residue = -element.residue := by
  have below := element.isLt.le
  simp [residue, Fin.neg_def, Nat.cast_sub below]

/-! ## Powers -/

theorem residue_power (element : FieldElement) {bits exponent : Nat}
    (small : exponent < 2 ^ bits) :
    (element.power bits exponent).residue = element.residue ^ exponent := by
  induction bits generalizing exponent with
  | zero =>
      have none : exponent = 0 := by simpa using small
      rw [none, pow_zero]
      exact residue_one
  | succ bits ih =>
      have half := ih (half_lt_two_pow small)
      simp only [power]
      split
      · rename_i odd
        have split : exponent = exponent / 2 + exponent / 2 + 1 := by omega
        conv_rhs => rw [split, pow_succ, pow_add]
        rw [residue_mul, residue_mul, half]
      · rename_i even
        have split : exponent = exponent / 2 + exponent / 2 := by omega
        conv_rhs => rw [split, pow_add]
        rw [residue_mul, half]

@[simp]
theorem residue_inverse (element : FieldElement) : element.inverse.residue = element.residue⁻¹ := by
  have power : element.inverse.residue = element.residue ^ (fieldPrime - 2) :=
    residue_power element (by decide)
  rw [power]
  by_cases zero : element.residue = 0
  · rw [zero, inv_zero, zero_pow (by decide)]
  · have whole := ZMod.pow_card_sub_one_eq_one zero
    have split : fieldPrime - 1 = fieldPrime - 2 + 1 := by decide
    rw [split, pow_succ] at whole
    exact eq_inv_of_mul_eq_one_left whole

/-! ## Square roots -/

theorem rootOfMinusOne_mul_self : rootOfMinusOne * rootOfMinusOne = -1 := by decide +kernel

theorem residue_of_squareRoot? {square root : FieldElement}
    (found : square.squareRoot? = some root) : root.residue ^ 2 = square.residue := by
  rw [sq, ← residue_mul, residue_inj]
  simp only [squareRoot?] at found
  split at found
  · rename_i first
    rw [← Option.some.inj found]
    exact first
  · split at found
    · rename_i second
      rw [← Option.some.inj found]
      exact second
    · cases found

/-- A square root is found where there is one. -/
theorem exists_squareRoot? {square : FieldElement} (isSquare : IsSquare square.residue) :
    ∃ root, square.squareRoot? = some root := by
  have candidate : ((square.power 255 ((fieldPrime + 3) / 8)).residue) =
      square.residue ^ ((fieldPrime + 3) / 8) := residue_power square (by decide)
  -- the candidate is a root up to a factor whose square is one
  have sign : ∃ unit : ZMod fieldPrime, unit * unit = 1 ∧
      square.residue ^ ((fieldPrime + 3) / 8) * square.residue ^ ((fieldPrime + 3) / 8) =
        unit * square.residue := by
    by_cases zero : square.residue = 0
    · refine ⟨1, one_mul 1, ?_⟩
      rw [zero, zero_pow (by decide), mul_zero, mul_zero]
    · refine ⟨square.residue ^ ((fieldPrime - 1) / 4), ?_, ?_⟩
      · have half : (fieldPrime - 1) / 4 + (fieldPrime - 1) / 4 = fieldPrime / 2 := by decide
        rw [← pow_add, half]
        exact (ZMod.euler_criterion fieldPrime zero).mp isSquare
      · have quarter : (fieldPrime + 3) / 8 + (fieldPrime + 3) / 8 = (fieldPrime - 1) / 4 + 1 := by
          decide
        rw [← pow_add, quarter, pow_succ]
  obtain ⟨unit, units, candidateSquare⟩ := sign
  rw [← candidate] at candidateSquare
  simp only [squareRoot?]
  split
  · exact ⟨_, rfl⟩
  · rename_i first
    split
    · exact ⟨_, rfl⟩
    · rename_i second
      exfalso
      rcases mul_self_eq_one_iff.mp units with rfl | rfl
      · apply first
        rw [← residue_inj, residue_mul, candidateSquare, one_mul]
      · apply second
        rw [← residue_inj]
        have root := congrArg residue rootOfMinusOne_mul_self
        simp only [residue_mul, residue_neg, residue_one] at root ⊢
        linear_combination rootOfMinusOne.residue ^ 2 * candidateSquare - square.residue * root

/-! ## Signs -/

/-- Of two opposite elements other than zero one counts as negative. -/
theorem isNegative_neg {element : FieldElement} (nonzero : element ≠ 0) :
    (-element).isNegative = !element.isNegative := by
  have positive : element.val ≠ 0 := fun zero => nonzero (Fin.ext zero)
  have below := element.isLt
  have opposite : (-element).val = fieldPrime - element.val := by
    rw [Fin.neg_def]
    exact Nat.mod_eq_of_lt (by omega)
  have odd : fieldPrime % 2 = 1 := by decide
  simp only [isNegative, opposite]
  rcases Nat.mod_two_eq_zero_or_one element.val with even | other
  · have parity : (fieldPrime - element.val) % 2 = 1 := by omega
    simp [even, parity]
  · have parity : (fieldPrime - element.val) % 2 = 0 := by omega
    simp [other, parity]

theorem withSign_eq (element : FieldElement) (negative : Bool) :
    element.withSign negative = element ∨ element.withSign negative = -element := by
  simp only [withSign]
  split
  · exact .inl rfl
  · exact .inr rfl

theorem isNegative_withSign {element : FieldElement} (nonzero : element ≠ 0) (negative : Bool) :
    (element.withSign negative).isNegative = negative := by
  simp only [withSign]
  split
  · assumption
  · rename_i other
    rw [isNegative_neg nonzero]
    exact Bool.not_eq.mpr other

end FieldElement

end Curve

end Ratchet
