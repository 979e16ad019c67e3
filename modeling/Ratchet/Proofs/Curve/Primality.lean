import Mathlib.NumberTheory.LucasPrimality
import Mathlib.Tactic.NormNum.Prime
import Ratchet.Curve.Scalar

/-!
# The two primes of the curve

The number of elements of the field and the order of the base point are primes
(`fieldPrime_prime`, `groupOrder_prime`).

A number `n` is prime if some base has the order `n - 1` modulo `n`: its power
with the exponent `n - 1` is one, and no power with an exponent `(n - 1) / q` is,
for the primes `q` that divide `n - 1`. So a prime is shown by such a base and
the factors of `n - 1`, and the large ones among these in the same way
(`PrimeStep`). The steps that lead to a prime are checked one after another by
computing the powers (`PrimeStep.checkAll`).
-/

set_option autoImplicit false

namespace Ratchet

namespace Curve

theorem half_lt_two_pow {bits number : Nat} (small : number < 2 ^ (bits + 1)) :
    number / 2 < 2 ^ bits := by
  rw [pow_succ] at small
  omega

/-- The remainder of a power with an exponent of at most `bits` binary digits. -/
def powerMod (modulus base : Nat) : (bits exponent : Nat) → Nat
  | 0, _ => 1 % modulus
  | bits + 1, exponent =>
    let half := powerMod modulus base bits (exponent / 2)
    if exponent % 2 = 1 then half * half * base % modulus else half * half % modulus

theorem powerMod_eq (modulus base : Nat) {bits exponent : Nat} (small : exponent < 2 ^ bits) :
    powerMod modulus base bits exponent = base ^ exponent % modulus := by
  induction bits generalizing exponent with
  | zero =>
      have none : exponent = 0 := by simpa using small
      rw [none, pow_zero]
      rfl
  | succ bits ih =>
      have twice : base ^ (exponent / 2) * base ^ (exponent / 2) = base ^ (2 * (exponent / 2)) := by
        rw [← pow_add, two_mul]
      simp only [powerMod, ih (half_lt_two_pow small)]
      split
      · rename_i odd
        have split : exponent = 2 * (exponent / 2) + 1 := by omega
        conv_rhs => rw [split, pow_succ, ← twice]
        simp only [Nat.mul_mod, Nat.mod_mod]
      · rename_i even
        have split : exponent = 2 * (exponent / 2) := by omega
        conv_rhs => rw [split, ← twice]
        simp only [Nat.mul_mod, Nat.mod_mod]

/-- What shows that a number is prime once the primes are known that divide the number before. -/
structure PrimeStep where
  number : Nat
  base : Nat
  /-- The prime factors of `number - 1`, as often as they divide it. -/
  factors : List Nat

namespace PrimeStep

/-- The base has the right order, if the factors are among the known primes. -/
def check (known : List Nat) (step : PrimeStep) : Bool :=
  1 < step.number && step.number ≤ Nat.pow 2 256 &&
    step.factors.all (known.contains ·) && step.factors.prod == step.number - 1 &&
    powerMod step.number step.base 256 (step.number - 1) == 1 &&
    step.factors.all fun factor =>
      powerMod step.number step.base 256 ((step.number - 1) / factor) != 1

/-- Each step is right, given the numbers of those before. -/
def checkAll (known : List Nat) : List PrimeStep → Bool
  | [] => true
  | step :: rest => step.check known && checkAll (step.number :: known) rest

variable {known : List Nat}

theorem prime_of_check {step : PrimeStep} (primes : ∀ number ∈ known, number.Prime)
    (checked : step.check known = true) : step.number.Prime := by
  simp only [check, Bool.and_eq_true, decide_eq_true_eq, List.all_eq_true, beq_iff_eq, bne_iff_ne,
    List.contains_iff_mem] at checked
  obtain ⟨⟨⟨⟨⟨large, small⟩, listed⟩, product⟩, whole⟩, parts⟩ := checked
  have one_iff : ∀ exponent ≤ step.number - 1,
      (step.base : ZMod step.number) ^ exponent = 1 ↔
        powerMod step.number step.base 256 exponent = 1 := by
    intro exponent below
    rw [powerMod_eq _ _ (by rw [Nat.pow_eq] at small; omega), ← Nat.cast_pow, ← Nat.cast_one,
      ZMod.natCast_eq_natCast_iff', Nat.mod_eq_of_lt large]
  refine lucas_primality step.number step.base ((one_iff _ le_rfl).mpr whole) ?_
  intro prime isPrime divides
  rw [← product] at divides
  obtain ⟨factor, member, dividesFactor⟩ := (isPrime.prime.dvd_prod_iff).mp divides
  have same : prime = factor :=
    (Nat.prime_dvd_prime_iff_eq isPrime (primes factor (listed factor member))).mp dividesFactor
  rw [same, ne_eq, one_iff _ (Nat.div_le_self _ _)]
  exact parts factor member

theorem prime_of_checkAll {steps : List PrimeStep} (primes : ∀ number ∈ known, number.Prime)
    (checked : checkAll known steps = true) : ∀ number ∈ steps.map (·.number), number.Prime := by
  induction steps generalizing known with
  | nil => exact fun _ member => nomatch member
  | cons step rest ih =>
      simp only [checkAll, Bool.and_eq_true] at checked
      have prime := prime_of_check primes checked.1
      have later := ih (List.forall_mem_cons.mpr ⟨prime, primes⟩) checked.2
      exact List.forall_mem_cons.mpr ⟨prime, later⟩

end PrimeStep

/-! ## The steps -/

/-- The primes that need no steps. -/
def smallPrimes : List Nat :=
  [2, 3, 5, 7, 11, 13, 19, 23, 31, 41, 43, 47, 73, 97, 103, 107, 127, 223, 269, 307, 353, 419, 991,
    1361, 1723, 2437, 2551, 2851, 3727, 3797, 4153, 5879, 30703, 34123, 57467, 65147, 75707, 82163,
    132049, 132667, 137849]

theorem prime_of_mem_smallPrimes : ∀ number ∈ smallPrimes, number.Prime := by
  simp only [smallPrimes, List.forall_mem_cons]
  norm_num

/-- The steps to the number of elements of the field. -/
def fieldSteps : List PrimeStep :=
  [⟨1923133, 2, [2, 2, 3, 43, 3727]⟩,
    ⟨430751, 17, [2, 5, 5, 5, 1723]⟩,
    ⟨31757755568855353, 10, [2, 2, 2, 3, 31, 107, 223, 4153, 430751]⟩,
    ⟨569003, 2, [2, 7, 97, 419]⟩,
    ⟨2773320623, 5, [2, 2437, 569003]⟩,
    ⟨72106336199, 7, [2, 13, 2773320623]⟩,
    ⟨8574133, 2, [2, 2, 3, 7, 103, 991]⟩,
    ⟨1919519569386763, 2, [2, 3, 7, 19, 47, 47, 127, 8574133]⟩,
    ⟨75445702479781427272750846543864801, 7,
      [2, 2, 2, 2, 2, 3, 3, 5, 5, 75707, 72106336199, 1919519569386763]⟩,
    ⟨74058212732561358302231226437062788676166966415465897661863160754340907, 2,
      [2, 3, 353, 57467, 132049, 1923133, 31757755568855353,
        75445702479781427272750846543864801]⟩,
    ⟨fieldPrime, 2,
      [2, 2, 3, 65147, 74058212732561358302231226437062788676166966415465897661863160754340907]⟩]

/-- The steps to the order of the base point. -/
def orderSteps : List PrimeStep :=
  [⟨409477, 2, [2, 2, 3, 34123]⟩,
    ⟨14741173, 2, [2, 2, 3, 3, 409477]⟩,
    ⟨58964693, 2, [2, 2, 14741173]⟩,
    ⟨3044861653679985063343, 5, [2, 3, 11, 30703, 82163, 132667, 137849]⟩,
    ⟨198211423230930754013084525763697, 5,
      [2, 2, 2, 2, 3, 23, 58964693, 3044861653679985063343]⟩,
    ⟨292386187, 2, [2, 3, 3, 3, 3, 307, 5879]⟩,
    ⟨213441916511, 13, [2, 5, 73, 292386187]⟩,
    ⟨531581, 2, [2, 2, 5, 7, 3797]⟩,
    ⟨1224481, 13, [2, 2, 2, 2, 2, 3, 5, 2551]⟩,
    ⟨1257559732178653, 2, [2, 2, 3, 7, 23, 531581, 1224481]⟩,
    ⟨4434155615661930479, 17, [2, 41, 43, 1257559732178653]⟩,
    ⟨172054593956031949258510691, 2, [2, 5, 1361, 2851, 4434155615661930479]⟩,
    ⟨19757330305831588566944191468367130476339, 2,
      [2, 269, 213441916511, 172054593956031949258510691]⟩,
    ⟨276602624281642239937218680557139826668747, 2,
      [2, 7, 19757330305831588566944191468367130476339]⟩,
    ⟨groupOrder, 2,
      [2, 2, 3, 11, 198211423230930754013084525763697,
        276602624281642239937218680557139826668747]⟩]

/-- **The field has a prime number of elements.** -/
theorem fieldPrime_prime : fieldPrime.Prime :=
  have checked : PrimeStep.checkAll smallPrimes fieldSteps = true := by decide +kernel
  PrimeStep.prime_of_checkAll prime_of_mem_smallPrimes checked _ (by simp [fieldSteps])

/-- **The base point has a prime order.** -/
theorem groupOrder_prime : groupOrder.Prime :=
  have checked : PrimeStep.checkAll smallPrimes orderSteps = true := by decide +kernel
  PrimeStep.prime_of_checkAll prime_of_mem_smallPrimes checked _ (by simp [orderSteps])

end Curve

end Ratchet
