import Ratchet.Proofs.Curve.Generator

/-!
# Agreement as multiplication of points

A point of the Montgomery curve is known here by its first coordinate
`(1 + y) / (1 - y)` alone, kept as a fraction (`Montgomery.Fraction.Denotes`). The
double of a fraction stands for the double of the point, and the sum of two
fractions for the sum of the points if their difference is known and neither the
difference nor its double is zero (`Montgomery.Fraction.Denotes.addApart`).

So a rung of the ladder stands for two neighbouring multiples
(`Montgomery.Rung.Denotes.ladder`): the public key of a private key is the
coordinate of its public point, and agreement multiplies that point by the
other private key (`residue_publicKey`, `residue_agree`). It does not matter whose
key comes first (`agree_publicKey_comm`).
-/

set_option autoImplicit false

namespace Ratchet

namespace Curve

open FieldElement

namespace CompleteCurve

variable {F : Type} [Field F] {curve : CompleteCurve F}

/-- The first coordinate of the point on the Montgomery curve. -/
def Point.coordinate (point : curve.Point) : F := (1 + point.y) / (1 - point.y)

/-- The heights of a sum and a difference, from those of the two points. -/
theorem heights_apart (first second : curve.Point) :
    (first.y + second.y) ^ 2 * ((1 - (first + second).y) * (1 - (second - first).y)) =
      (second.y - first.y) ^ 2 * ((1 + (first + second).y) * (1 + (second - first).y)) := by
  have high := one_sub_shift_ne_zero first second
  have wide := one_add_shift_ne_zero first second
  have opposite : 1 - shift second (-first) = 1 + shift first second := by
    simp only [shift, neg_x, neg_y]
    ring
  rw [sub_eq_add_neg second first, add_y, add_y, opposite]
  simp only [along, neg_x, neg_y]
  field_simp
  simp only [shift]
  linear_combination 4 * first.y * second.y *
    ((second.y ^ 2 - 1) * first.equation +
      first.x ^ 2 * (1 + curve.constant * first.y ^ 2) * second.equation)

/-- The difference of two points of height zero has height `1` or `-1`. -/
theorem height_sub_of_zero {first second : curve.Point} (firstZero : first.y = 0)
    (secondZero : second.y = 0) : (second - first).y ^ 2 = 1 := by
  have squares := first.equation
  have others := second.equation
  rw [sub_eq_add_neg second first, add_y]
  simp only [along, shift, neg_x, neg_y, firstZero, secondZero] at *
  simp only [mul_zero, zero_add, sub_zero, div_one]
  linear_combination -second.x ^ 2 * squares + others

end CompleteCurve

namespace Montgomery

/-! ## Fractions -/

/-- A fraction stands for the first coordinate of this point. -/
def Fraction.Denotes (fraction : Fraction) (point : Edwards.curve.Point) : Prop :=
  ∃ scale ≠ 0, fraction.numerator.residue = scale * (1 + point.y) ∧
    fraction.denominator.residue = scale * (1 - point.y)

namespace Fraction.Denotes

variable {fraction other : Fraction} {point more : Edwards.curve.Point}

theorem of_mul_eq (proportional :
      fraction.numerator.residue * (1 - point.y) = fraction.denominator.residue * (1 + point.y))
    (proper : ¬(fraction.numerator.residue = 0 ∧ fraction.denominator.residue = 0)) :
    fraction.Denotes point := by
  have two := Edwards.curve.two_ne_zero
  have numerator : fraction.numerator.residue =
      (fraction.numerator.residue + fraction.denominator.residue) / 2 * (1 + point.y) := by
    field_simp
    linear_combination proportional
  have denominator : fraction.denominator.residue =
      (fraction.numerator.residue + fraction.denominator.residue) / 2 * (1 - point.y) := by
    field_simp
    linear_combination -proportional
  refine ⟨_, fun zero => proper ⟨?_, ?_⟩, numerator, denominator⟩
  · rw [numerator, zero, zero_mul]
  · rw [denominator, zero, zero_mul]

theorem infinity : Fraction.Denotes ⟨1, 0⟩ 0 := by
  apply of_mul_eq
  · rw [residue_zero, CompleteCurve.zero_y, sub_self, mul_zero, zero_mul]
  · rw [residue_one]
    exact fun zero => one_ne_zero zero.1

theorem of_coordinate {u : FieldElement} (apart : u.residue = point.coordinate)
    (proper : point.y ^ 2 ≠ 1) : Fraction.Denotes ⟨u, 1⟩ point := by
  have regular : 1 - point.y ≠ 0 := by
    intro zero
    apply proper
    linear_combination -(1 + point.y) * zero
  apply of_mul_eq
  · rw [residue_one, apart, CompleteCurve.Point.coordinate, div_mul_cancel₀ _ regular, one_mul]
  · rw [residue_one]
    exact fun zero => one_ne_zero zero.2

theorem coordinate (denotes : fraction.Denotes point) :
    (fraction.numerator * fraction.denominator.inverse).residue = point.coordinate := by
  obtain ⟨scale, nonzero, numerator, denominator⟩ := denotes
  rw [residue_mul, residue_inverse, numerator, denominator, ← div_eq_mul_inv,
    mul_div_mul_left _ _ nonzero]
  rfl

theorem constant_mul : Edwards.curve.constant * 121666 = -121665 := by
  have product : Edwards.curveConstant * 121666 = -121665 := by decide +kernel
  have residues := congrArg residue product
  rwa [residue_mul, residue_neg, residue_numeral 121666, residue_numeral 121665] at residues

theorem double (denotes : fraction.Denotes point) : fraction.double.Denotes (2 • point) := by
  obtain ⟨scale, nonzero, numerator, denominator⟩ := denotes
  have high := CompleteCurve.one_sub_shift_ne_zero point point
  have constant := constant_mul
  have two := Edwards.curve.two_ne_zero
  have number : residue 121665 = 121665 := residue_numeral 121665
  have squares : (1 + point.x ^ 2) * (1 + 121665 * (1 - point.y ^ 2)) = point.y ^ 2 := by
    linear_combination (-121666) * point.equation - point.x ^ 2 * point.y ^ 2 * constant
  have steep : (1 : ZMod fieldPrime) + 121665 * (1 - point.y ^ 2) ≠ 0 := by
    have factor : (121666 : ZMod fieldPrime) ≠ 0 := by decide +kernel
    have split : (1 : ZMod fieldPrime) + 121665 * (1 - point.y ^ 2) =
        121666 * (1 + Edwards.curve.constant * point.y ^ 2) := by
      linear_combination -point.y ^ 2 * constant
    rw [split]
    exact mul_ne_zero factor (CompleteCurve.one_add_constant_mul_sq_ne_zero _ point.y)
  -- the two terms of the double, over the common denominator
  have lower : (1 + (point + point).y) * (1 - CompleteCurve.shift point point) =
      2 * (1 + point.x ^ 2) := by
    rw [CompleteCurve.add_y, add_mul, div_mul_cancel₀ _ high]
    simp only [CompleteCurve.along, CompleteCurve.shift]
    linear_combination point.equation
  have upper : (1 - (point + point).y) * (1 - CompleteCurve.shift point point) =
      2 * (1 - point.y ^ 2) := by
    rw [CompleteCurve.add_y, sub_mul, div_mul_cancel₀ _ high]
    simp only [CompleteCurve.along, CompleteCurve.shift]
    linear_combination point.equation
  rw [two_nsmul]
  refine ⟨8 * scale ^ 4 * (1 - CompleteCurve.shift point point) *
    (1 + 121665 * (1 - point.y ^ 2)), ?_, ?_, ?_⟩
  · have eight : (8 : ZMod fieldPrime) ≠ 0 := by decide +kernel
    exact mul_ne_zero (mul_ne_zero (mul_ne_zero eight (pow_ne_zero 4 nonzero)) high) steep
  · simp only [Fraction.double, residue_mul, residue_add, residue_sub, numerator, denominator]
    linear_combination (-16) * scale ^ 4 * squares -
      8 * scale ^ 4 * (1 + 121665 * (1 - point.y ^ 2)) * lower
  · simp only [Fraction.double, residue_mul, residue_add, residue_sub, numerator, denominator,
      number]
    linear_combination -8 * scale ^ 4 * (1 + 121665 * (1 - point.y ^ 2)) * upper

/-- Where the difference of two points and its double are not zero, fractions can be added. -/
theorem addApart {u : FieldElement} (first : fraction.Denotes point) (second : other.Denotes more)
    (apart : u.residue = (more - point).coordinate) (proper : (more - point).y ^ 2 ≠ 1) :
    (fraction.addApart u other).Denotes (point + more) := by
  obtain ⟨scale, nonzero, numerator, denominator⟩ := first
  obtain ⟨otherScale, otherNonzero, otherNumerator, otherDenominator⟩ := second
  have two := Edwards.curve.two_ne_zero
  have regular : 1 - (more - point).y ≠ 0 := by
    intro zero
    apply proper
    linear_combination -(1 + (more - point).y) * zero
  have straight : 1 + (more - point).y ≠ 0 := by
    intro zero
    apply proper
    linear_combination -(1 - (more - point).y) * zero
  have sum : (fraction.addApart u other).numerator.residue =
      (4 * scale * otherScale * (point.y + more.y)) ^ 2 := by
    simp only [Fraction.addApart, residue_mul, residue_add, residue_sub, numerator, denominator,
      otherNumerator, otherDenominator]
    ring
  have difference : (fraction.addApart u other).denominator.residue =
      (more - point).coordinate * (4 * scale * otherScale * (more.y - point.y)) ^ 2 := by
    simp only [Fraction.addApart, residue_mul, residue_add, residue_sub, numerator, denominator,
      otherNumerator, otherDenominator, apart]
    ring
  apply of_mul_eq
  · have heights := CompleteCurve.heights_apart point more
    rw [sum, difference, CompleteCurve.Point.coordinate]
    field_simp
    linear_combination 16 * heights
  · rintro ⟨noSum, noDifference⟩
    have four : (4 : ZMod fieldPrime) ≠ 0 := by decide +kernel
    have scales : 4 * scale * otherScale ≠ 0 := mul_ne_zero (mul_ne_zero four nonzero) otherNonzero
    have coordinate : (more - point).coordinate ≠ 0 := div_ne_zero straight regular
    rw [sum, sq_eq_zero_iff] at noSum
    rw [difference, mul_eq_zero_iff_left coordinate, sq_eq_zero_iff] at noDifference
    have opposite := (mul_eq_zero_iff_left scales).mp noSum
    have same := (mul_eq_zero_iff_left scales).mp noDifference
    have zero : point.y = 0 := by
      refine (mul_eq_zero_iff_left two).mp ?_
      linear_combination opposite - same
    have otherZero : more.y = 0 := by linear_combination opposite - zero
    exact proper (CompleteCurve.height_sub_of_zero zero otherZero)

end Fraction.Denotes

/-! ## Rungs -/

/-- A rung stands for two neighbouring multiples of a point. -/
structure Rung.Denotes (rung : Rung) (point : Edwards.curve.Point) (number : Nat) : Prop where
  low : rung.low.Denotes (number • point)
  high : rung.high.Denotes ((number + 1) • point)

section

variable {u : FieldElement} {point : Edwards.curve.Point} {rung : Rung} {number : Nat}

theorem Rung.Denotes.next (denotes : rung.Denotes point number)
    (coordinate : u.residue = point.coordinate) (proper : point.y ^ 2 ≠ 1) {digit : Nat}
    (binary : digit < 2) : (rung.next u digit).Denotes point (2 * number + digit) := by
  have gap : (number + 1) • point - number • point = point := by
    rw [succ_nsmul, add_sub_cancel_left]
  have between : (rung.low.addApart u rung.high).Denotes ((2 * number + 1) • point) := by
    have sum := denotes.low.addApart denotes.high (by rwa [gap]) (by rwa [gap])
    rwa [← add_nsmul, ← add_assoc, ← two_mul] at sum
  simp only [Rung.next]
  split
  · rename_i one
    subst one
    have above := denotes.high.double
    rw [smul_smul] at above
    exact ⟨between, above⟩
  · obtain rfl : digit = 0 := by omega
    have below := denotes.low.double
    rw [smul_smul] at below
    exact ⟨below, between⟩

theorem Rung.Denotes.ladder (coordinate : u.residue = point.coordinate)
    (proper : point.y ^ 2 ≠ 1) {bits number : Nat} (small : number < 2 ^ bits) :
    (ladder u bits number).Denotes point number := by
  induction bits generalizing number with
  | zero =>
      have none : number = 0 := by simpa using small
      rw [none]
      refine ⟨?_, ?_⟩
      · rw [zero_nsmul]
        exact Fraction.Denotes.infinity
      · rw [zero_add, one_nsmul]
        exact Fraction.Denotes.of_coordinate coordinate proper
  | succ bits ih =>
      have next := (ih (half_lt_two_pow small)).next coordinate proper (Nat.mod_lt number two_pos)
      rwa [Nat.div_add_mod] at next

theorem residue_multiply (coordinate : u.residue = point.coordinate)
    (proper : point.y ^ 2 ≠ 1) (small : number < 2 ^ 255) :
    (multiply number u).residue = (number • point).coordinate :=
  (Rung.Denotes.ladder coordinate proper small).low.coordinate

end

end Montgomery

/-! ## Keys -/

open Edwards

theorem coordinate_generator : residue 9 = generator.coordinate := by
  have height : 9 * (1 - Point.base.y) = 1 + Point.base.y := by decide +kernel
  have residues := congrArg residue height
  have proper : generator.y ≠ 1 := by
    intro top
    apply CompleteCurve.Point.sq_y_ne_one generator_x_ne_zero
    rw [top, one_pow]
  rw [CompleteCurve.Point.coordinate, eq_div_iff (sub_ne_zero.mpr proper.symm)]
  simp only [residue_mul, residue_sub, residue_add, residue_one] at residues
  exact residues

/-- **The public key of a private key is the coordinate of its public point.** -/
theorem residue_publicKey (secret : Octets 32) :
    (ofOctets (publicKey secret)).residue = (publicPoint secret).coordinate := by
  rw [publicKey, ofOctets_toOctets]
  exact Montgomery.residue_multiply coordinate_generator
    (CompleteCurve.Point.sq_y_ne_one generator_x_ne_zero) (clamp_lt secret)

/-- **Agreement multiplies the public point of the other party.** -/
theorem residue_agree (secret other : Octets 32) :
    (ofOctets (agree secret (publicKey other))).residue =
      (clamp secret • publicPoint other).coordinate := by
  rw [agree, ofOctets_toOctets]
  exact Montgomery.residue_multiply (residue_publicKey other)
    (CompleteCurve.Point.sq_y_ne_one (publicPoint_x_ne_zero other)) (clamp_lt secret)

/-- **Two parties agree on the same secret.** -/
theorem agree_publicKey_comm (first second : Octets 32) :
    agree first (publicKey second) = agree second (publicKey first) := by
  have canonical (secret peer : Octets 32) :
      agree secret peer = (ofOctets (agree secret peer)).toOctets := by
    rw [agree, ofOctets_toOctets]
  have same : ofOctets (agree first (publicKey second)) =
      ofOctets (agree second (publicKey first)) := by
    rw [← residue_inj, residue_agree, residue_agree, publicPoint, publicPoint, smul_comm]
  rw [canonical first, canonical second, same]

end Curve

end Ratchet
