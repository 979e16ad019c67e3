import Ratchet.Proofs.Curve.Ladder
import Ratchet.Suite

/-!
# Signing and verifying

Signer and verifier go from the same private key to a point in different ways. The
signer multiplies the base point and takes the opposite multiplier where the sign
of the point is set; the verifier finds a point of the requested sign at the height
that belongs to the public key. Both come to the point with a clear sign
(`Signature.exists_signer`, `Signature.exists_ofPublicKey_publicKey`), so they put
the same bytes into the challenge and every signature is accepted
(`Suite.classic_verify_sign`).

What the verifier accepts is an equation between points
(`Signature.accepts_eq_true_iff`).
-/

set_option autoImplicit false

namespace Ratchet

namespace Curve

open Edwards

namespace Signature

theorem verify_append (group : Group) (key : Octets 32) (message : Bytes)
    (noncePoint half : Octets 32) :
    verify group key message (noncePoint.toList ++ half.toList) =
      accepts group key message noncePoint half := by
  rw [verify, ← Octets.toList_append, Octets.ofList?_toList]
  simp only [Octets.take_append, Octets.drop_append]

theorem compress_multiply_base (scalar : Scalar) :
    Edwards.group.compress (Edwards.group.multiply scalar.val Edwards.group.base) =
      written (scalar.val • generator) := by
  have small : scalar.val < 2 ^ 256 := lt_trans scalar.isLt (by decide)
  exact (denotes_base.multiply small).compress

/-! ## The signer -/

/-- The signer uses the point at the height of its public key whose sign is clear. -/
theorem exists_signer (secret : Octets 32) :
    ∃ point : curve.Point, point.y = (publicPoint secret).y ∧ Edwards.isNegative point = false ∧
      (signer Edwards.group secret).1.val • generator = point ∧
      (signer Edwards.group secret).2 = written point := by
  have whole : (Scalar.ofNat (clamp secret)).val • generator = publicPoint secret :=
    ofNat_nsmul_generator (clamp secret)
  simp only [signer, compress_multiply_base, whole, isNegative_written]
  cases sign : Edwards.isNegative (publicPoint secret) with
  | false => exact ⟨publicPoint secret, rfl, sign, whole, clearSign_written_of_not sign⟩
  | true =>
      have opposite : Edwards.isNegative (-publicPoint secret) = false := by
        rw [isNegative_neg (publicPoint_x_ne_zero secret), sign, Bool.not_true]
      refine ⟨-publicPoint secret, rfl, opposite, ?_, ?_⟩
      · rw [if_pos rfl, neg_nsmul_generator, whole]
      · rw [← clearSign_written_neg, clearSign_written_of_not opposite]

/-- A signature is a multiple of the base point and the answer to the challenge. -/
theorem exists_sign (secret : Octets 32) (message : Bytes) (random : Octets 64) :
    ∃ nonce : Scalar,
      sign Edwards.group secret message random =
        (written (nonce.val • generator)).append
          (nonce + challenge (written (nonce.val • generator)) (signer Edwards.group secret).2
            message * (signer Edwards.group secret).1).toOctets := by
  simp only [sign, compress_multiply_base]
  exact ⟨_, rfl⟩

theorem toNat_toOctets (scalar : Scalar) : scalar.toOctets.toNat = scalar.val := by
  rw [Scalar.toOctets, Octets.toNat_ofNat]
  exact Nat.mod_eq_of_lt (lt_trans scalar.isLt (by decide))

/-- The bytes of a multiplier have no sign. -/
theorem isNegative_toOctets (scalar : Scalar) : isNegative scalar.toOctets = false := by
  have small : scalar.val < Nat.pow 2 255 := lt_trans scalar.isLt (by decide)
  rw [isNegative, toNat_toOctets, decide_eq_false_iff_not, not_le]
  exact small

/-! ## The verifier -/

/-- For a public key the verifier finds the point at its height with the requested sign. -/
theorem exists_ofPublicKey_publicKey (secret : Octets 32) (negative : Bool) :
    ∃ (found : Edwards.Point) (point : curve.Point),
      Point.ofPublicKey (publicKey secret) negative = some found ∧
      found.Denotes point ∧ point.y = (publicPoint secret).y ∧
      Edwards.isNegative point = negative := by
  obtain ⟨found, point, foundAt, denotes, height, sign⟩ :=
    Point.exists_ofPublicKey (publicPoint_y_ne_one secret) (residue_publicKey secret) negative
  have nonzero : point.x ≠ 0 := by
    have other := publicPoint_x_ne_zero secret
    rcases CompleteCurve.Point.eq_or_eq_neg height with same | opposite
    · rwa [same]
    · rwa [opposite, CompleteCurve.neg_x, neg_ne_zero]
  exact ⟨found, point, foundAt, denotes, height, sign nonzero⟩

/-- **A signature is accepted where its point is what the equation of the verifier gives.** -/
theorem accepts_eq_true_iff {key noncePoint half : Octets 32} {message : Bytes}
    {found : Edwards.Point} {point : curve.Point}
    (foundAt : Point.ofPublicKey key (isNegative half) = some found)
    (denotes : found.Denotes point) :
    accepts Edwards.group key message noncePoint half = true ↔
      half.toNat % Nat.pow 2 255 < Nat.pow 2 253 ∧
        written ((half.toNat % Nat.pow 2 255) • generator -
          (challenge noncePoint (written point) message).val • point) = noncePoint := by
  have foundHere : Edwards.group.ofPublicKey key (isNegative half) = some found := foundAt
  have bytes : Edwards.group.compress found = written point := denotes.compress
  have small (scalar : Scalar) : scalar.val < 2 ^ 256 := lt_trans scalar.isLt (by decide)
  have expected (number : Nat) (scalar : Scalar) :
      Edwards.group.compress (Edwards.group.add
        (Edwards.group.multiply (Scalar.ofNat number).val Edwards.group.base)
        (Edwards.group.multiply scalar.val (Edwards.group.neg found))) =
          written (number • generator - scalar.val • point) := by
    rw [sub_eq_add_neg, ← neg_nsmul, ← ofNat_nsmul_generator]
    exact ((denotes_base.multiply (small _)).add (denotes.neg.multiply (small _))).compress
  simp only [accepts, foundHere, bytes, expected]
  split
  · rename_i below
    rw [decide_eq_true_iff, and_iff_right below]
  · rename_i above
    simp only [Bool.false_eq_true, above, false_and]

/-- The equation of the verifier holds for what the signer answers. -/
theorem verify_sign (secret : Octets 32) (message : Bytes) (random : Octets 64) :
    verify Edwards.group (publicKey secret) message
      (sign Edwards.group secret message random).toList = true := by
  obtain ⟨point, height, sign, multiple, bytes⟩ := exists_signer secret
  obtain ⟨found, other, foundAt, denotes, otherHeight, otherSign⟩ :=
    exists_ofPublicKey_publicKey secret false
  obtain rfl : other = point :=
    eq_of_y_eq (otherHeight.trans height.symm) (otherSign.trans sign.symm)
  obtain ⟨nonce, signed⟩ := exists_sign secret message random
  rw [signed, bytes, Octets.toList_append, verify_append]
  generalize answer : nonce + challenge (written (nonce.val • generator)) (written other) message *
    (signer Edwards.group secret).1 = half
  have number : half.toOctets.toNat % Nat.pow 2 255 = half.val := by
    rw [toNat_toOctets]
    exact Nat.mod_eq_of_lt (lt_trans half.isLt (by decide))
  have foundHere :
      Point.ofPublicKey (publicKey secret) (isNegative half.toOctets) = some found := by
    rw [isNegative_toOctets]
    exact foundAt
  rw [accepts_eq_true_iff foundHere denotes, number]
  refine ⟨lt_trans half.isLt (by decide), ?_⟩
  rw [← answer, add_nsmul_generator, mul_nsmul_generator, multiple, add_sub_cancel_right]

end Signature

end Curve

/-- **Every signature of the classic suite is a signature by the public key of the private key
that made it.** -/
theorem Suite.classic_verify_sign (secret : PrivateKey) (message : Bytes) (random : Octets 64) :
    Suite.classic.verify (Suite.classic.publicKey secret) message
      (Suite.classic.sign secret message random).toList = true := by
  simp only [Suite.classic]
  exact Curve.Signature.verify_sign secret.octets message random

end Ratchet
