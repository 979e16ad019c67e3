import Mathlib.Data.Nat.Bitwise
import Ratchet.Proofs.Curve.Signing

/-!
# Second halves of a signature

The verifier reads the second half of a signature as a number, without the highest
bit, and multiplies the base point by it. As the order of the base point is known,
the equation of the verifier says of this number only what it is modulo the order.
So besides an accepted second half, exactly those with the same highest bit are
accepted whose next two bits are clear and whose numbers are congruent to it.

The order is an odd prime, hence no power of two is a multiple of it, and flipping
a bit always leads to another residue (`flip_not_modEq`).
-/

set_option autoImplicit false

namespace Ratchet

namespace Curve

open Edwards

/-! ## Bits of a number -/

/-- Flipping a bit of a number adds or takes away a power of two. -/
theorem xor_two_pow (number bit : Nat) :
    number ^^^ 2 ^ bit = number + 2 ^ bit ∨ (number ^^^ 2 ^ bit) + 2 ^ bit = number := by
  have low : (number ^^^ 2 ^ bit) % 2 ^ bit = number % 2 ^ bit := by
    rw [Nat.xor_mod_two_pow, Nat.mod_self, Nat.xor_zero]
  have high : (number ^^^ 2 ^ bit) / 2 ^ bit = number / 2 ^ bit ^^^ 1 := by
    rw [Nat.xor_div_two_pow, Nat.div_self (Nat.two_pow_pos bit)]
  rw [← Nat.div_add_mod (number ^^^ 2 ^ bit) (2 ^ bit), low, high]
  rcases Nat.even_or_odd (number / 2 ^ bit) with even | odd
  · left
    rw [Nat.xor_one_of_even even, Nat.mul_add_one, Nat.add_right_comm, Nat.div_add_mod]
  · right
    have positive : 1 ≤ number / 2 ^ bit := odd.pos
    rw [Nat.xor_one_of_odd odd, Nat.add_right_comm, ← Nat.mul_add_one, Nat.sub_add_cancel positive,
      Nat.div_add_mod]

/-- No power of two is a multiple of the order. -/
theorem not_groupOrder_dvd_two_pow (bit : Nat) : ¬groupOrder ∣ 2 ^ bit := by
  intro divides
  have two := groupOrder_prime.dvd_of_dvd_pow divides
  exact absurd (Nat.le_of_dvd two_pos two) (by decide)

theorem add_two_pow_not_modEq (number bit : Nat) :
    ¬number + 2 ^ bit ≡ number [MOD groupOrder] := by
  intro congruent
  have zero : 2 ^ bit ≡ 0 [MOD groupOrder] := Nat.ModEq.add_left_cancel' number congruent
  exact not_groupOrder_dvd_two_pow bit (Nat.modEq_zero_iff_dvd.mp zero)

theorem xor_two_pow_not_modEq (number bit : Nat) :
    ¬number ^^^ 2 ^ bit ≡ number [MOD groupOrder] := by
  rcases xor_two_pow number bit with more | less
  · rw [more]
    exact add_two_pow_not_modEq number bit
  · intro congruent
    apply add_two_pow_not_modEq (number ^^^ 2 ^ bit) bit
    rw [less]
    exact congruent.symm

theorem lt_iff_testBit (number : Nat) :
    number % Nat.pow 2 255 < Nat.pow 2 253 ↔
      number.testBit 253 = false ∧ number.testBit 254 = false := by
  simp only [Nat.testBit_eq_decide_div_mod_eq, decide_eq_false_iff_not, Nat.pow_eq]
  omega

namespace Signature

theorem isNegative_eq_testBit (half : Octets 32) : isNegative half = half.toNat.testBit 255 := by
  have bound := half.toNat_lt
  simp only [isNegative, Nat.testBit_eq_decide_div_mod_eq, decide_eq_decide, Nat.pow_eq] at *
  omega

theorem exists_ofPublicKey_of_accepts {key noncePoint half : Octets 32} {message : Bytes}
    (accepted : accepts Edwards.group key message noncePoint half = true) :
    ∃ found, Point.ofPublicKey key (isNegative half) = some found := by
  simp only [accepts] at accepted
  split at accepted
  · split at accepted
    · cases accepted
    · rename_i found foundAt
      exact ⟨found, foundAt⟩
  · cases accepted

/-- What the verifier demands of other second halves of an accepted signature. -/
theorem accepts_other_half {key noncePoint half other : Octets 32} {message : Bytes}
    (accepted : accepts Edwards.group key message noncePoint half = true)
    (sign : isNegative other = isNegative half) :
    accepts Edwards.group key message noncePoint other = true ↔
      other.toNat % Nat.pow 2 255 < Nat.pow 2 253 ∧
        other.toNat % Nat.pow 2 255 ≡ half.toNat % Nat.pow 2 255 [MOD groupOrder] := by
  obtain ⟨found, foundAt⟩ := exists_ofPublicKey_of_accepts accepted
  obtain ⟨point, denotes⟩ := Point.exists_denotes_of_ofPublicKey foundAt
  obtain ⟨-, equation⟩ := (accepts_eq_true_iff foundAt denotes).mp accepted
  rw [← sign] at foundAt
  rw [accepts_eq_true_iff foundAt denotes]
  generalize (challenge noncePoint (written point) message).val = scalar at equation ⊢
  rw [← equation, written_inj, sub_left_inj, nsmul_generator_eq_iff]

/-- A second half with one bit flipped. -/
def flip (half : Octets 32) (bit : Nat) : Octets 32 := Octets.ofNat 32 (half.toNat ^^^ 2 ^ bit)

theorem toNat_flip (half : Octets 32) {bit : Nat} (inside : bit < 256) :
    (flip half bit).toNat = half.toNat ^^^ 2 ^ bit := by
  have bound : half.toNat < 2 ^ 256 := half.toNat_lt
  have flipped := Nat.xor_lt_two_pow bound (Nat.pow_lt_pow_right one_lt_two inside)
  rw [flip, Octets.toNat_ofNat]
  exact Nat.mod_eq_of_lt flipped

theorem accepts_flip {key noncePoint half : Octets 32} {message : Bytes} {bit : Nat}
    (accepted : accepts Edwards.group key message noncePoint half = true) (inside : bit < 255) :
    accepts Edwards.group key message noncePoint (flip half bit) = false := by
  have number := toNat_flip half (lt_trans inside (Nat.lt_succ_self 255))
  have sign : isNegative (flip half bit) = isNegative half := by
    rw [isNegative_eq_testBit, isNegative_eq_testBit, number, Nat.testBit_xor,
      Nat.testBit_two_pow_of_ne inside.ne, Bool.xor_false]
  rw [← Bool.not_eq_true, accepts_other_half accepted sign, number]
  rintro ⟨-, congruent⟩
  have whole : 2 ^ bit % Nat.pow 2 255 = 2 ^ bit :=
    Nat.mod_eq_of_lt (Nat.pow_lt_pow_right one_lt_two inside)
  rw [Nat.pow_eq, Nat.xor_mod_two_pow, ← Nat.pow_eq, whole] at congruent
  exact xor_two_pow_not_modEq _ bit congruent

end Signature

end Curve

namespace Suite

/-- **Which other second halves of an accepted signature are accepted.** The same highest bit
goes with another two clear bits and a congruent number, and no bit below the highest can be
flipped. -/
theorem classic_verify_other_half {key : PublicKey} {message : Bytes} {nonce half : Octets 32}
    (accepted : Suite.classic.verify key message (nonce.toList ++ half.toList) = true) :
    (∀ other : Octets 32, other.toNat.testBit 255 = half.toNat.testBit 255 →
      (Suite.classic.verify key message (nonce.toList ++ other.toList) = true ↔
        (other.toNat.testBit 253 = false ∧ other.toNat.testBit 254 = false) ∧
          other.toNat % 2 ^ 255 ≡ half.toNat % 2 ^ 255 [MOD Curve.groupOrder])) ∧
    ∀ bit < 255,
      Suite.classic.verify key message
        (nonce.toList ++ (Curve.Signature.flip half bit).toList) = false := by
  simp only [Suite.classic, Curve.Signature.verify_append] at accepted ⊢
  refine ⟨fun other sign => ?_, fun bit inside => Curve.Signature.accepts_flip accepted inside⟩
  rw [← Curve.Signature.isNegative_eq_testBit, ← Curve.Signature.isNegative_eq_testBit] at sign
  rw [Curve.Signature.accepts_other_half accepted sign, Curve.lt_iff_testBit]
  exact Iff.rfl

/-- The point of a signature of the empty message by the private key of zeros. -/
def sampleNonce : Octets 32 :=
  .ofNat 32 40488118181682687547192142787120030204670382947557547401863456536067938904428

/-- The second half of this signature. -/
def sampleHalf : Octets 32 :=
  .ofNat 32 4893729717798819232655337946211295045477474566991224392106309940745222127549

/-- The public key of this signature. -/
def sampleSigner : PublicKey := Suite.classic.publicKey ⟨.replicate 32 0⟩

theorem classic_verify_sampleHalf :
    Suite.classic.verify sampleSigner [] (sampleNonce.toList ++ sampleHalf.toList) = true ∧
      Suite.classic.verify sampleSigner []
        (sampleNonce.toList ++
          (Octets.ofNat 32 (sampleHalf.toNat + Curve.groupOrder)).toList) = true ∧
      Suite.classic.verify sampleSigner []
        (sampleNonce.toList ++ (Curve.Signature.flip sampleHalf 252).toList) = false := by
  have accepted : Suite.classic.verify sampleSigner []
      (sampleNonce.toList ++ sampleHalf.toList) = true := by decide +kernel
  obtain ⟨congruent, flipped⟩ := classic_verify_other_half accepted
  refine ⟨accepted, ?_, flipped 252 (by decide)⟩
  rw [congruent _ (by decide +kernel)]
  exact ⟨by decide +kernel, by decide +kernel⟩

end Suite

end Ratchet
