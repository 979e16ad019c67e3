import Mathlib.Algebra.Field.Basic
import Mathlib.Algebra.Group.Even
import Mathlib.Tactic.FieldSimp
import Mathlib.Tactic.LinearCombination
import Mathlib.Tactic.Ring

/-!
# The group of an Edwards curve

The points of `-x ^ 2 + y ^ 2 = 1 + d x ^ 2 y ^ 2` over a field where `-1` has a
square root and `d` has none. The coordinates of a sum are fractions whose
denominators are never zero (`CompleteCurve.one_add_shift_ne_zero`,
`CompleteCurve.one_sub_shift_ne_zero`): if `d x₁ x₂ y₁ y₂` were `1` or `-1`, the
equations of the two points would make `d` a square. So addition has no
exceptions, and the points are a commutative group.

A sum of three points has fractions for coordinates too, and associativity says
that two of them are equal. Their cross products differ by a combination of the
equations of the three points (`CompleteCurve.cross_x`, `CompleteCurve.cross_y`).
-/

set_option autoImplicit false

namespace Ratchet

namespace Curve

/-- A curve `-x ^ 2 + y ^ 2 = 1 + d x ^ 2 y ^ 2` on which addition has no exceptions. -/
structure CompleteCurve (F : Type) [Field F] where
  /-- The number `d`. -/
  constant : F
  /-- A square root of `-1`. -/
  root : F
  two_ne_zero : (2 : F) ≠ 0
  root_mul_root : root * root = -1
  not_isSquare : ¬IsSquare constant

namespace CompleteCurve

variable {F : Type} [Field F]

/-- A point of the curve. -/
@[ext]
structure Point (curve : CompleteCurve F) where
  x : F
  y : F
  equation : y ^ 2 - x ^ 2 = 1 + curve.constant * x ^ 2 * y ^ 2

variable {curve : CompleteCurve F}

/-- The numerator of the first coordinate of a sum. -/
def across (first second : curve.Point) : F := first.x * second.y + second.x * first.y

/-- The numerator of the second coordinate of a sum. -/
def along (first second : curve.Point) : F := first.y * second.y + first.x * second.x

/-- By how much the denominators of a sum differ from one. -/
def shift (first second : curve.Point) : F :=
  curve.constant * first.x * second.x * first.y * second.y

theorem across_comm (first second : curve.Point) : across first second = across second first := by
  simp only [across]
  ring

theorem along_comm (first second : curve.Point) : along first second = along second first := by
  simp only [along]
  ring

theorem shift_comm (first second : curve.Point) : shift first second = shift second first := by
  simp only [shift]
  ring

/-! ## Denominators -/

theorem isSquare_of_eq {a b c : F} (nonzero : b ≠ 0) (other : c ≠ 0)
    (equal : a ^ 2 = curve.constant * b ^ 2 * c ^ 2) : IsSquare curve.constant := by
  refine ⟨a / (b * c), ?_⟩
  field_simp
  linear_combination -equal

theorem shift_ne (first second : curve.Point) (unit : F) (squares : unit ^ 2 = 1) :
    shift first second ≠ unit := by
  intro same
  have unitNonzero : unit ≠ 0 := by
    rintro rfl
    simp at squares
  simp only [shift] at same
  have nonzero : first.x * first.y ≠ 0 := by
    intro zero
    apply unitNonzero
    linear_combination -same + curve.constant * second.x * second.y * zero
  -- a line through the origin that misses the second point would make the constant a square
  have vanishes : ∀ sign : F, sign ^ 2 = 1 → curve.root * second.x + sign * second.y = 0 := by
    intro sign signed
    by_contra other
    refine curve.not_isSquare (isSquare_of_eq nonzero other
      (a := curve.root * first.x + sign * unit * first.y) ?_)
    linear_combination
      (first.x ^ 2 - curve.constant * first.x ^ 2 * first.y ^ 2 * second.x ^ 2) *
          curve.root_mul_root -
        (2 * curve.root * sign * first.x * first.y + unit +
          curve.constant * first.x * second.x * first.y * second.y) * same +
        (unit ^ 2 * first.y ^ 2 -
          curve.constant * first.x ^ 2 * first.y ^ 2 * second.y ^ 2) * signed +
        (first.y ^ 2 - 1) * squares + first.equation -
        curve.constant * first.x ^ 2 * first.y ^ 2 * second.equation
  have height : second.y = 0 := by
    have twice : (2 : F) * second.y = 0 := by
      linear_combination vanishes 1 (by ring) - vanishes (-1) (by ring)
    exact (mul_eq_zero.mp twice).resolve_left curve.two_ne_zero
  apply unitNonzero
  rw [← same, height, mul_zero]

theorem one_add_shift_ne_zero (first second : curve.Point) : 1 + shift first second ≠ 0 := by
  intro zero
  refine shift_ne first second (-1) (by ring) ?_
  linear_combination zero

theorem one_sub_shift_ne_zero (first second : curve.Point) : 1 - shift first second ≠ 0 := by
  intro zero
  refine shift_ne first second 1 (by ring) ?_
  linear_combination -zero

/-! ## Sums -/

theorem equation_div {d a b wide high : F} (wideNonzero : wide ≠ 0) (highNonzero : high ≠ 0)
    (equation : b ^ 2 * wide ^ 2 - a ^ 2 * high ^ 2 = wide ^ 2 * high ^ 2 + d * a ^ 2 * b ^ 2) :
    (b / high) ^ 2 - (a / wide) ^ 2 = 1 + d * (a / wide) ^ 2 * (b / high) ^ 2 := by
  field_simp
  linear_combination equation

theorem sum_equation (first second : curve.Point) :
    along first second ^ 2 * (1 + shift first second) ^ 2 -
        across first second ^ 2 * (1 - shift first second) ^ 2 =
      (1 + shift first second) ^ 2 * (1 - shift first second) ^ 2 +
        curve.constant * across first second ^ 2 * along first second ^ 2 := by
  have factored : along first second ^ 2 * (1 + shift first second) ^ 2 -
      across first second ^ 2 * (1 - shift first second) ^ 2 -
      curve.constant * across first second ^ 2 * along first second ^ 2 =
        ((first.y ^ 2 - first.x ^ 2) - curve.constant * first.x ^ 2 * first.y ^ 2 *
          (second.y ^ 2 - second.x ^ 2)) *
        ((second.y ^ 2 - second.x ^ 2) - curve.constant * second.x ^ 2 * second.y ^ 2 *
          (first.y ^ 2 - first.x ^ 2)) := by
    simp only [along, across, shift]
    ring
  rw [first.equation, second.equation] at factored
  simp only [shift] at factored ⊢
  linear_combination factored

instance : Zero curve.Point := ⟨⟨0, 1, by ring⟩⟩

instance : Neg curve.Point := ⟨fun point => ⟨-point.x, point.y, by
  linear_combination point.equation⟩⟩

instance : Add curve.Point := ⟨fun first second => {
  x := across first second / (1 + shift first second)
  y := along first second / (1 - shift first second)
  equation := equation_div (one_add_shift_ne_zero first second)
    (one_sub_shift_ne_zero first second) (sum_equation first second) }⟩

@[simp] theorem zero_x : (0 : curve.Point).x = 0 := rfl

@[simp] theorem zero_y : (0 : curve.Point).y = 1 := rfl

@[simp] theorem neg_x (point : curve.Point) : (-point).x = -point.x := rfl

@[simp] theorem neg_y (point : curve.Point) : (-point).y = point.y := rfl

theorem add_x (first second : curve.Point) :
    (first + second).x = across first second / (1 + shift first second) := rfl

theorem add_y (first second : curve.Point) :
    (first + second).y = along first second / (1 - shift first second) := rfl

theorem sum_comm (first second : curve.Point) : first + second = second + first :=
  Point.ext
    (by rw [add_x, add_x, across_comm, shift_comm])
    (by rw [add_y, add_y, along_comm, shift_comm])

/-! ## Associativity -/

/-- The numerator of the first coordinate of a sum of three points. -/
def acrossThree (first second third : curve.Point) : F :=
  across first second * (1 - shift first second) * third.y +
    third.x * along first second * (1 + shift first second)

/-- The numerator of the second coordinate of a sum of three points. -/
def alongThree (first second third : curve.Point) : F :=
  along first second * (1 + shift first second) * third.y +
    third.x * across first second * (1 - shift first second)

/-- What the denominators of a sum of three points have in common. -/
def bulk (first second : curve.Point) : F :=
  1 - (first.y ^ 2 - first.x ^ 2 - 1) * (second.y ^ 2 - second.x ^ 2 - 1)

/-- By how much the denominators of a sum of three points differ from what they have in common. -/
def shiftThree (first second third : curve.Point) : F :=
  curve.constant * across first second * third.x * along first second * third.y

theorem bulk_eq (first second : curve.Point) :
    (1 + shift first second) * (1 - shift first second) = bulk first second := by
  simp only [shift, bulk]
  linear_combination (second.y ^ 2 - second.x ^ 2 - 1) * first.equation +
    curve.constant * first.x ^ 2 * first.y ^ 2 * second.equation

theorem cross_x (first second third : curve.Point) :
    acrossThree first second third * (bulk second third + shiftThree second third first) =
      acrossThree second third first * (bulk first second + shiftThree first second third) := by
  simp only [acrossThree, shiftThree, bulk, across, along, shift]
  linear_combination
    curve.constant * second.x * second.y * (second.x * third.y + third.x * second.y) *
        (second.y * third.y + second.x * third.x) *
        (first.x * (second.y * third.y - second.x * third.x) +
          first.y * (second.x * third.y - second.y * third.x)) * first.equation +
      (first.x * (second.y * third.y + second.x * third.x) +
        first.y * (second.x * third.y + third.x * second.y)) *
        ((third.x ^ 2 - third.y ^ 2) - (first.x ^ 2 - first.y ^ 2)) * second.equation -
      curve.constant * second.x * second.y * (first.x * second.y + second.x * first.y) *
        (first.y * second.y + first.x * second.x) *
        (third.x * (first.y * second.y - first.x * second.x) +
          third.y * (second.x * first.y - second.y * first.x)) * third.equation

theorem cross_y (first second third : curve.Point) :
    alongThree first second third * (bulk second third - shiftThree second third first) =
      alongThree second third first * (bulk first second - shiftThree first second third) := by
  simp only [alongThree, shiftThree, bulk, across, along, shift]
  linear_combination
    curve.constant * second.x * second.y * (second.x * third.y + third.x * second.y) *
        (second.y * third.y + second.x * third.x) *
        (first.x * (second.x * third.y - second.y * third.x) +
          first.y * (second.y * third.y - second.x * third.x)) * first.equation +
      (first.x * (second.x * third.y + third.x * second.y) +
        first.y * (second.y * third.y + second.x * third.x)) *
        ((third.x ^ 2 - third.y ^ 2) - (first.x ^ 2 - first.y ^ 2)) * second.equation -
      curve.constant * second.x * second.y * (first.x * second.y + second.x * first.y) *
        (first.y * second.y + first.x * second.x) *
        (third.x * (second.x * first.y - second.y * first.x) +
          third.y * (first.y * second.y - first.x * second.x)) * third.equation

section

variable (first second third : curve.Point)

theorem bulk_ne_zero : bulk first second ≠ 0 := by
  rw [← bulk_eq]
  exact mul_ne_zero (one_add_shift_ne_zero first second) (one_sub_shift_ne_zero first second)

theorem shift_add :
    shift (first + second) third = shiftThree first second third / bulk first second := by
  have wide := one_add_shift_ne_zero first second
  have high := one_sub_shift_ne_zero first second
  rw [← bulk_eq]
  simp only [shift, add_x, add_y, shiftThree] at *
  field_simp

theorem across_add :
    across (first + second) third = acrossThree first second third / bulk first second := by
  have wide := one_add_shift_ne_zero first second
  have high := one_sub_shift_ne_zero first second
  rw [← bulk_eq]
  simp only [across, add_x, add_y, acrossThree]
  field_simp

theorem along_add :
    along (first + second) third = alongThree first second third / bulk first second := by
  have wide := one_add_shift_ne_zero first second
  have high := one_sub_shift_ne_zero first second
  rw [← bulk_eq]
  simp only [along, add_x, add_y, alongThree]
  field_simp

theorem bulk_add_shiftThree_ne_zero : bulk first second + shiftThree first second third ≠ 0 := by
  have nonzero := bulk_ne_zero first second
  have wide := one_add_shift_ne_zero (first + second) third
  rw [shift_add] at wide
  have scaled := mul_ne_zero nonzero wide
  rwa [mul_add, mul_one, mul_div_cancel₀ _ nonzero] at scaled

theorem bulk_sub_shiftThree_ne_zero : bulk first second - shiftThree first second third ≠ 0 := by
  have nonzero := bulk_ne_zero first second
  have high := one_sub_shift_ne_zero (first + second) third
  rw [shift_add] at high
  have scaled := mul_ne_zero nonzero high
  rwa [mul_sub, mul_one, mul_div_cancel₀ _ nonzero] at scaled

theorem add_add_x :
    (first + second + third).x =
      acrossThree first second third / (bulk first second + shiftThree first second third) := by
  have nonzero := bulk_ne_zero first second
  rw [add_x, across_add, shift_add, one_add_div nonzero, div_div_div_cancel_right₀ nonzero]

theorem add_add_y :
    (first + second + third).y =
      alongThree first second third / (bulk first second - shiftThree first second third) := by
  have nonzero := bulk_ne_zero first second
  rw [add_y, along_add, shift_add, one_sub_div nonzero, div_div_div_cancel_right₀ nonzero]

theorem sum_assoc : first + second + third = first + (second + third) := by
  rw [sum_comm first (second + third)]
  refine Point.ext ?_ ?_
  · rw [add_add_x, add_add_x, div_eq_div_iff (bulk_add_shiftThree_ne_zero first second third)
      (bulk_add_shiftThree_ne_zero second third first)]
    exact cross_x first second third
  · rw [add_add_y, add_add_y, div_eq_div_iff (bulk_sub_shiftThree_ne_zero first second third)
      (bulk_sub_shiftThree_ne_zero second third first)]
    exact cross_y first second third

end

theorem zero_sum (point : curve.Point) : 0 + point = point := by
  refine Point.ext ?_ ?_
  · simp [add_x, across, shift]
  · simp [add_y, along, shift]

theorem neg_sum (point : curve.Point) : -point + point = 0 := by
  refine Point.ext ?_ ?_
  · rw [add_x, zero_x, div_eq_zero_iff]
    left
    simp only [across, neg_x, neg_y]
    ring
  · rw [add_y, zero_y, div_eq_one_iff_eq (one_sub_shift_ne_zero _ _)]
    simp only [along, shift, neg_x, neg_y]
    linear_combination point.equation

/-- **The points of the curve are a commutative group.** -/
instance : AddCommGroup curve.Point where
  add_assoc := sum_assoc
  zero_add := zero_sum
  add_zero point := by rw [sum_comm, zero_sum]
  neg_add_cancel := neg_sum
  add_comm := sum_comm
  nsmul := nsmulRec
  zsmul := zsmulRec

/-! ## Points by their coordinates -/

theorem one_add_constant_mul_sq_ne_zero (curve : CompleteCurve F) (y : F) :
    1 + curve.constant * y ^ 2 ≠ 0 := by
  intro zero
  have nonzero : y ≠ 0 := by
    rintro rfl
    simp at zero
  refine curve.not_isSquare ⟨curve.root / y, ?_⟩
  field_simp
  linear_combination zero - curve.root_mul_root

/-- The second coordinate determines the square of the first. -/
theorem Point.sq_x (point : curve.Point) :
    point.x ^ 2 = (point.y ^ 2 - 1) / (1 + curve.constant * point.y ^ 2) := by
  rw [eq_div_iff (one_add_constant_mul_sq_ne_zero curve point.y)]
  linear_combination -point.equation

/-- Points of the same height are equal or opposite. -/
theorem Point.eq_or_eq_neg {first second : curve.Point} (same : first.y = second.y) :
    first = second ∨ first = -second := by
  have squares : first.x ^ 2 = second.x ^ 2 := by rw [first.sq_x, second.sq_x, same]
  rcases sq_eq_sq_iff_eq_or_eq_neg.mp squares with equal | opposite
  · exact .inl (Point.ext equal same)
  · exact .inr (Point.ext opposite same)

/-- Where the first coordinate is zero, twice the point is zero. -/
theorem Point.two_nsmul_eq_zero {point : curve.Point} (zero : point.x = 0) : 2 • point = 0 := by
  have self : point = -point := Point.ext (by rw [neg_x, zero, neg_zero]) rfl
  rw [two_nsmul]
  nth_rewrite 1 [self]
  exact neg_add_cancel point

theorem Point.sq_y_ne_one {point : curve.Point} (nonzero : point.x ≠ 0) : point.y ^ 2 ≠ 1 := by
  intro one
  have square := point.sq_x
  rw [one, sub_self, zero_div, sq_eq_zero_iff] at square
  exact nonzero square

end CompleteCurve

end Curve

end Ratchet
