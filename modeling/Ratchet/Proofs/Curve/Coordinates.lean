import Ratchet.Curve.Edwards
import Ratchet.Proofs.Curve.Addition
import Ratchet.Proofs.Curve.Residues

/-!
# Extended coordinates

Extended coordinates stand for a point of the curve (`Point.Denotes`), and what is
done to them is done to the point: sums, opposites and multiples of coordinates
stand for sums, opposites and multiples (`Point.Denotes.add`, `Point.Denotes.neg`,
`Point.Denotes.multiply`).

The 32 bytes of a point do not depend on the coordinates that stand for it
(`Point.Denotes.compress`). They determine the point (`written_inj`), and of two
opposite points they differ in the highest bit (`isNegative_written_neg`,
`clearSign_written_neg`).
-/

set_option autoImplicit false

namespace Ratchet

namespace Curve

namespace Edwards

open FieldElement

/-! ## The curve -/

theorem not_isSquare_curveConstant : ¬IsSquare curveConstant.residue := by
  have power : curveConstant.power 255 (fieldPrime / 2) = -1 := by decide +kernel
  have residues := congrArg residue power
  rw [residue_power curveConstant (by decide), residue_neg, residue_one] at residues
  have different : (-1 : ZMod fieldPrime) ≠ 1 := by decide +kernel
  have nonzero : curveConstant.residue ≠ 0 := by
    intro zero
    rw [zero, zero_pow (by decide), eq_comm, neg_eq_zero] at residues
    exact one_ne_zero residues
  rw [ZMod.euler_criterion fieldPrime nonzero, residues]
  exact different

/-- The curve of the signatures. -/
def curve : CompleteCurve (ZMod fieldPrime) where
  constant := curveConstant.residue
  root := rootOfMinusOne.residue
  two_ne_zero := by decide +kernel
  root_mul_root := by
    rw [← residue_mul, rootOfMinusOne_mul_self, residue_neg, residue_one]
  not_isSquare := not_isSquare_curveConstant

theorem residue_curveConstant : curveConstant.residue = curve.constant := rfl

theorem residue_twiceConstant : twiceConstant.residue = 2 * curve.constant := by
  rw [twiceConstant, residue_mul, residue_numeral, residue_curveConstant]

/-! ## Coordinates of points -/

/-- Extended coordinates stand for this point. -/
structure Point.Denotes (point : Point) (meant : curve.Point) : Prop where
  z_ne_zero : point.z.residue ≠ 0
  x_eq : point.x.residue = meant.x * point.z.residue
  y_eq : point.y.residue = meant.y * point.z.residue
  t_eq : point.t.residue = meant.x * meant.y * point.z.residue

namespace Point

theorem denotes_ofAffine {x y : FieldElement} {meant : curve.Point} (first : meant.x = x.residue)
    (second : meant.y = y.residue) : (ofAffine x y).Denotes meant where
  z_ne_zero := by
    rw [ofAffine, residue_one]
    exact one_ne_zero
  x_eq := by rw [ofAffine, residue_one, mul_one, first]
  y_eq := by rw [ofAffine, residue_one, mul_one, second]
  t_eq := by rw [ofAffine, residue_one, mul_one, residue_mul, first, second]

theorem denotes_zero : zero.Denotes 0 :=
  denotes_ofAffine residue_zero.symm residue_one.symm

namespace Denotes

variable {point other : Point} {meant more : curve.Point}

theorem neg (denotes : point.Denotes meant) : point.neg.Denotes (-meant) where
  z_ne_zero := denotes.z_ne_zero
  x_eq := by rw [Point.neg, residue_neg, denotes.x_eq, CompleteCurve.neg_x, neg_mul]
  y_eq := denotes.y_eq
  t_eq := by
    rw [Point.neg, residue_neg, denotes.t_eq, CompleteCurve.neg_x, CompleteCurve.neg_y, neg_mul,
      neg_mul]

theorem add (first : point.Denotes meant) (second : other.Denotes more) :
    (point.add other).Denotes (meant + more) := by
  have wide := CompleteCurve.one_add_shift_ne_zero meant more
  have high := CompleteCurve.one_sub_shift_ne_zero meant more
  have scale : 2 * (point.z.residue * other.z.residue) ≠ 0 :=
    mul_ne_zero curve.two_ne_zero (mul_ne_zero first.z_ne_zero second.z_ne_zero)
  generalize size : 2 * (point.z.residue * other.z.residue) = unit at scale
  have two : residue 2 = 2 := residue_numeral 2
  -- the four factors of the coordinates
  have e : ((point.y + point.x) * (other.y + other.x) -
      (point.y - point.x) * (other.y - other.x)).residue =
        CompleteCurve.across meant more * unit := by
    simp only [residue_sub, residue_mul, residue_add, first.x_eq, first.y_eq, second.x_eq,
      second.y_eq, CompleteCurve.across, ← size]
    ring
  have f : (2 * (point.z * other.z) - point.t * twiceConstant * other.t).residue =
      (1 - CompleteCurve.shift meant more) * unit := by
    simp only [residue_sub, residue_mul, two, first.t_eq, second.t_eq,
      residue_twiceConstant, CompleteCurve.shift, ← size]
    ring
  have g : (2 * (point.z * other.z) + point.t * twiceConstant * other.t).residue =
      (1 + CompleteCurve.shift meant more) * unit := by
    simp only [residue_add, residue_mul, two, first.t_eq, second.t_eq,
      residue_twiceConstant, CompleteCurve.shift, ← size]
    ring
  have h : ((point.y + point.x) * (other.y + other.x) +
      (point.y - point.x) * (other.y - other.x)).residue =
        CompleteCurve.along meant more * unit := by
    simp only [residue_sub, residue_mul, residue_add, first.x_eq, first.y_eq, second.x_eq,
      second.y_eq, CompleteCurve.along, ← size]
    ring
  simp only [Point.add]
  refine ⟨?_, ?_, ?_, ?_⟩
  · rw [residue_mul, f, g]
    exact mul_ne_zero (mul_ne_zero high scale) (mul_ne_zero wide scale)
  · rw [residue_mul, residue_mul, e, f, g, CompleteCurve.add_x]
    field_simp
  · rw [residue_mul, residue_mul, f, g, h, CompleteCurve.add_y]
    field_simp
  · rw [residue_mul, residue_mul, e, f, g, h, CompleteCurve.add_x, CompleteCurve.add_y]
    field_simp

theorem multiplyBits (denotes : point.Denotes meant) {bits number : Nat}
    (small : number < 2 ^ bits) : (point.multiplyBits bits number).Denotes (number • meant) := by
  induction bits generalizing number with
  | zero =>
      have none : number = 0 := by simpa using small
      rw [none, zero_nsmul]
      exact denotes_zero
  | succ bits ih =>
      have half := ih (half_lt_two_pow small)
      simp only [Point.multiplyBits]
      split
      · have split : number = number / 2 + number / 2 + 1 := by omega
        rw [split, add_nsmul, add_nsmul, one_nsmul, ← split]
        exact (half.add half).add denotes
      · have split : number = number / 2 + number / 2 := by omega
        rw [split, add_nsmul, ← split]
        exact half.add half

theorem multiply (denotes : point.Denotes meant) {number : Nat} (small : number < 2 ^ 256) :
    (point.multiply number).Denotes (number • meant) :=
  denotes.multiplyBits small

end Denotes

end Point

/-! ## The bytes of points -/

/-- The first coordinate of a point counts as negative. -/
def isNegative (point : curve.Point) : Bool := (ofResidue point.x).isNegative

/-- The bytes of a point. -/
def written (point : curve.Point) : Octets 32 :=
  Octets.ofNat 32 ((ofResidue point.y).val + if isNegative point then Nat.pow 2 255 else 0)

theorem Point.Denotes.compress {point : Point} {meant : curve.Point}
    (denotes : point.Denotes meant) : point.compress = written meant := by
  have first : point.x * point.z.inverse = ofResidue meant.x := by
    rw [← residue_inj, residue_ofResidue, residue_mul, residue_inverse, denotes.x_eq,
      mul_inv_cancel_right₀ denotes.z_ne_zero]
  have second : point.y * point.z.inverse = ofResidue meant.y := by
    rw [← residue_inj, residue_ofResidue, residue_mul, residue_inverse, denotes.y_eq,
      mul_inv_cancel_right₀ denotes.z_ne_zero]
  simp only [Point.compress, first, second]
  rfl

theorem toNat_written (point : curve.Point) :
    (written point).toNat =
      (ofResidue point.y).val + if isNegative point then Nat.pow 2 255 else 0 := by
  have below := (ofResidue point.y).isLt
  have bound : fieldPrime ≤ Nat.pow 2 255 := by decide
  rw [written, Octets.toNat_ofNat]
  apply Nat.mod_eq_of_lt
  split <;> simp only [Nat.pow_eq] at * <;> omega

theorem isNegative_neg {point : curve.Point} (nonzero : point.x ≠ 0) :
    isNegative (-point) = !isNegative point := by
  have opposite : ofResidue (-point).x = -ofResidue point.x := by
    rw [← residue_inj, residue_neg, residue_ofResidue, residue_ofResidue, CompleteCurve.neg_x]
  rw [isNegative, isNegative, opposite]
  apply FieldElement.isNegative_neg
  intro zero
  apply nonzero
  rw [← residue_ofResidue point.x, zero, residue_zero]

theorem isNegative_written (point : curve.Point) :
    Signature.isNegative (written point) = isNegative point := by
  have below := (ofResidue point.y).isLt
  have bound : fieldPrime ≤ Nat.pow 2 255 := by decide
  rw [Signature.isNegative, toNat_written]
  cases isNegative point
  · simp only [Bool.false_eq_true, if_false, decide_eq_false_iff_not]
    omega
  · simp

theorem clearSign_written (point : curve.Point) :
    Signature.clearSign (written point) = Octets.ofNat 32 (ofResidue point.y).val := by
  have below : (ofResidue point.y).val < Nat.pow 2 255 :=
    lt_of_lt_of_le (ofResidue point.y).isLt (by decide)
  have cleared : (written point).toNat % Nat.pow 2 255 = (ofResidue point.y).val := by
    rw [toNat_written]
    split
    · rw [Nat.add_mod_right, Nat.mod_eq_of_lt below]
    · rw [Nat.add_zero, Nat.mod_eq_of_lt below]
  rw [Signature.clearSign, cleared]

theorem clearSign_written_neg (point : curve.Point) :
    Signature.clearSign (written (-point)) = Signature.clearSign (written point) := by
  rw [clearSign_written, clearSign_written, CompleteCurve.neg_y]

theorem clearSign_written_of_not {point : curve.Point} (positive : isNegative point = false) :
    Signature.clearSign (written point) = written point := by
  rw [clearSign_written, written, positive]
  rfl

/-- Points of the same height and the same sign are equal. -/
theorem eq_of_y_eq {first second : curve.Point} (height : first.y = second.y)
    (sign : isNegative first = isNegative second) : first = second := by
  rcases CompleteCurve.Point.eq_or_eq_neg height with same | opposite
  · exact same
  · by_cases zero : second.x = 0
    · rw [opposite]
      exact CompleteCurve.Point.ext (by rw [CompleteCurve.neg_x, zero, neg_zero]) rfl
    · rw [opposite, isNegative_neg zero] at sign
      exact absurd sign (Bool.not_ne_self _)

/-- **The bytes of a point determine it.** -/
theorem written_inj {first second : curve.Point} :
    written first = written second ↔ first = second := by
  refine ⟨fun same => ?_, fun same => same ▸ rfl⟩
  have sign : isNegative first = isNegative second := by
    rw [← isNegative_written, same, isNegative_written]
  have heights : (ofResidue first.y).val = (ofResidue second.y).val := by
    have numbers := congrArg Octets.toNat same
    rw [toNat_written, toNat_written, sign] at numbers
    exact Nat.add_right_cancel numbers
  refine eq_of_y_eq ?_ sign
  rw [← residue_ofResidue first.y, Fin.ext heights, residue_ofResidue]

/-! ## Points by height and by public key -/

/-- The square of the first coordinate, from the second one. -/
def squareAt (y : ZMod fieldPrime) : ZMod fieldPrime :=
  (y * y - 1) * (curve.constant * (y * y) + 1)⁻¹

theorem residue_squareAt (y : FieldElement) :
    ((y * y - 1) * (curveConstant * (y * y) + 1).inverse).residue = squareAt y.residue := by
  simp only [residue_mul, residue_sub, residue_add, residue_inverse, residue_one,
    residue_curveConstant, squareAt]

theorem sq_x_eq_squareAt (point : curve.Point) : point.x ^ 2 = squareAt point.y := by
  rw [point.sq_x, squareAt, div_eq_mul_inv]
  ring

theorem exists_point {x y : ZMod fieldPrime} (square : x ^ 2 = squareAt y) :
    ∃ point : curve.Point, point.x = x ∧ point.y = y := by
  have nonzero : curve.constant * (y * y) + 1 ≠ 0 := by
    intro zero
    apply CompleteCurve.one_add_constant_mul_sq_ne_zero curve y
    linear_combination zero
  rw [squareAt, eq_mul_inv_iff_mul_eq₀ nonzero] at square
  exact ⟨⟨x, y, by linear_combination -square⟩, rfl, rfl⟩

namespace Point

theorem ofHeight?_eq_map (y : FieldElement) (negative : Bool) :
    ofHeight? y negative =
      (squareRoot? ((y * y - 1) * (curveConstant * (y * y) + 1).inverse)).map fun root =>
        ofAffine (root.withSign negative) y := by
  unfold ofHeight?
  dsimp only
  generalize squareRoot? ((y * y - 1) * (curveConstant * (y * y) + 1).inverse) = root
  cases root with
  | none => rfl
  | some root => rfl

/-- What is found at a height stands for a point of this height and sign. -/
theorem exists_denotes_of_ofHeight? {y : FieldElement} {negative : Bool} {point : Point}
    (found : ofHeight? y negative = some point) :
    ∃ meant : curve.Point, point.Denotes meant ∧ meant.y = y.residue ∧
      (meant.x ≠ 0 → isNegative meant = negative) := by
  rw [ofHeight?_eq_map, Option.map_eq_some_iff] at found
  obtain ⟨root, foundRoot, rfl⟩ := found
  have square := residue_of_squareRoot? foundRoot
  rw [residue_squareAt] at square
  have signed : (root.withSign negative).residue ^ 2 = squareAt y.residue := by
    rcases withSign_eq root negative with same | opposite
    · rw [same, square]
    · rw [opposite, residue_neg, neg_sq, square]
  obtain ⟨meant, first, second⟩ := exists_point signed
  refine ⟨meant, denotes_ofAffine first second, second, fun nonzero => ?_⟩
  have whole : ofResidue meant.x = root.withSign negative := by
    rw [← residue_inj, residue_ofResidue, first]
  have rootNonzero : root ≠ 0 := by
    rintro rfl
    apply nonzero
    rcases withSign_eq 0 negative with same | opposite
    · rw [first, same, residue_zero]
    · rw [first, opposite, residue_neg, residue_zero, neg_zero]
  rw [isNegative, whole, isNegative_withSign rootNonzero]

/-- At the height of a point something is found. -/
theorem exists_ofHeight? (point : curve.Point) {y : FieldElement} (height : y.residue = point.y)
    (negative : Bool) : ∃ found, ofHeight? y negative = some found := by
  have square : IsSquare ((y * y - 1) * (curveConstant * (y * y) + 1).inverse).residue := by
    rw [residue_squareAt, height, ← sq_x_eq_squareAt]
    exact IsSquare.sq point.x
  obtain ⟨root, foundRoot⟩ := exists_squareRoot? square
  exact ⟨_, by rw [ofHeight?_eq_map, foundRoot, Option.map_some]⟩

/-- What is found for a public key stands for a point. -/
theorem exists_denotes_of_ofPublicKey {key : Octets 32} {negative : Bool} {point : Point}
    (found : ofPublicKey key negative = some point) : ∃ meant, point.Denotes meant := by
  simp only [ofPublicKey] at found
  split at found
  · cases found
  · obtain ⟨meant, denotes, -⟩ := exists_denotes_of_ofHeight? found
    exact ⟨meant, denotes⟩

/-- For the public key of a point, the point or its opposite is found. -/
theorem exists_ofPublicKey {key : Octets 32} {point : curve.Point} (proper : point.y ≠ 1)
    (coordinate : (ofOctets key).residue = (1 + point.y) / (1 - point.y)) (negative : Bool) :
    ∃ found meant, ofPublicKey key negative = some found ∧ found.Denotes meant ∧
      meant.y = point.y ∧ (meant.x ≠ 0 → isNegative meant = negative) := by
  have denominator : 1 - point.y ≠ 0 := sub_ne_zero.mpr proper.symm
  have successor : (ofOctets key + 1).residue = 2 / (1 - point.y) := by
    rw [residue_add, residue_one, coordinate]
    field_simp
    ring
  have successorNonzero : (ofOctets key + 1).residue ≠ 0 := by
    rw [successor]
    exact div_ne_zero curve.two_ne_zero denominator
  have height : ((ofOctets key - 1) * (ofOctets key + 1).inverse).residue = point.y := by
    have two := curve.two_ne_zero
    rw [residue_mul, residue_inverse, successor, residue_sub, residue_one, coordinate]
    field_simp
    ring
  obtain ⟨found, foundAt⟩ := exists_ofHeight? point height negative
  obtain ⟨meant, denotes, second, sign⟩ := exists_denotes_of_ofHeight? foundAt
  refine ⟨found, meant, ?_, denotes, second.trans height, sign⟩
  have regular : ofOctets key + 1 ≠ 0 := by
    intro zero
    rw [zero, residue_zero] at successorNonzero
    exact successorNonzero rfl
  simp only [ofPublicKey, if_neg regular, foundAt]

end Point

end Edwards

end Curve

end Ratchet
