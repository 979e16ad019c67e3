import Mathlib.Data.Finite.Prod
import Mathlib.Data.Fintype.EquivFin
import Ratchet.Proofs.Cipher.Inverse

/-!
# Which bodies are ciphertexts

There are finitely many blocks, so what undoes the encryption of every block is
also undone by it (`Permutation.encrypt_decrypt`), and chaining keeps both
directions. A padding is taken off exactly where there is one
(`unpad?_eq_some_iff`).

So a byte string is the encrypted form of at most one message, exactly those that
are some message's are decrypted, and each of the others is refused for its length
or for what it decrypts to (`decryptBody_bijective`).
-/

set_option autoImplicit false

namespace Ratchet

namespace Cipher

/-! ## Blocks -/

/-- A byte is one of 256. -/
theorem finite_byte : Finite UInt8 :=
  Finite.of_injective UInt8.toFin fun _ _ same => UInt8.toFin_inj.mp same

/-- A block is sixteen bytes. -/
theorem finite_block : Finite Block := by
  have := finite_byte
  have column : Finite Column :=
    Finite.of_injective (fun column => (column.top, column.second, column.third, column.bottom))
      fun first second same => by
        cases first
        cases second
        cases same
        rfl
  refine Finite.of_injective (fun block => (block.first, block.second, block.third, block.fourth))
    fun first second same => ?_
  cases first
  cases second
  cases same
  rfl

/-- What undoes the encryption of blocks is undone by it. -/
theorem Permutation.encrypt_decrypt (permutation : Permutation)
    (inverse : ∀ block, permutation.decrypt (permutation.encrypt block) = block) (block : Block) :
    permutation.encrypt (permutation.decrypt block) = block := by
  have left : Function.LeftInverse permutation.decrypt permutation.encrypt := inverse
  have := finite_block
  have onto : Function.Surjective permutation.encrypt :=
    Finite.injective_iff_surjective.mp left.injective
  exact left.rightInverse_of_surjective onto block

/-! ## Padding -/

/-- The bytes are a message and, behind it, from one to sixteen bytes, each of which says how
many they are. -/
structure Padded (bytes message : Bytes) (count : Nat) : Prop where
  positive : 0 < count
  within : count ≤ 16
  bytes_eq : bytes = message ++ List.replicate count (UInt8.ofNat count)

/-- A padding is taken off exactly where there is one. -/
theorem unpad?_eq_some_iff {bytes message : Bytes} :
    unpad? bytes = some message ↔ ∃ count, Padded bytes message count := by
  constructor
  · intro taken
    obtain ⟨count, positive, bounded, whole⟩ := eq_append_of_unpad? taken
    exact ⟨count, positive, bounded, whole⟩
  · rintro ⟨count, positive, bounded, rfl⟩
    exact unpad?_append positive bounded

/-! ## Chained blocks -/

section

variable {permutation : Permutation} (vector : Block)

/-- What the blocks of a ciphertext decrypt to, before a padding is looked for. -/
def unchain (permutation : Permutation) (vector : Block) (ciphertext : Bytes) : Bytes :=
  Block.join (decryptBlocks permutation vector (Block.split ciphertext))

theorem length_unchain {ciphertext : Bytes} (whole : 16 ∣ ciphertext.length) :
    (unchain permutation vector ciphertext).length = ciphertext.length := by
  rw [unchain, Block.length_join, length_decryptBlocks, Block.length_split,
    Nat.mul_div_cancel' whole]

theorem decrypt_of_partial {ciphertext : Bytes}
    (partly : ciphertext.length = 0 ∨ ¬16 ∣ ciphertext.length) :
    decrypt permutation vector ciphertext = .error (.partialBlock ciphertext.length) := by
  rw [Nat.dvd_iff_mod_eq_zero] at partly
  exact if_pos partly

theorem decrypt_of_whole {ciphertext : Bytes} (filled : ciphertext.length ≠ 0)
    (whole : 16 ∣ ciphertext.length) :
    decrypt permutation vector ciphertext =
      match unpad? (unchain permutation vector ciphertext) with
      | some message => .ok message
      | none => .error .badPadding := by
  rw [Nat.dvd_iff_mod_eq_zero] at whole
  exact if_neg (not_or.mpr ⟨filled, not_not.mpr whole⟩)

/-- A ciphertext decrypts to the message whose encrypted form it is, and to no other. -/
theorem decrypt_eq_ok_iff
    (inverse : ∀ block, permutation.decrypt (permutation.encrypt block) = block)
    {ciphertext message : Bytes} :
    decrypt permutation vector ciphertext = .ok message ↔
      ciphertext = encrypt permutation vector message := by
  constructor
  · intro decrypted
    by_cases partly : ciphertext.length = 0 ∨ ¬16 ∣ ciphertext.length
    · rw [decrypt_of_partial vector partly] at decrypted
      cases decrypted
    obtain ⟨filled, whole⟩ := not_or.mp partly
    have whole := not_not.mp whole
    rw [decrypt_of_whole vector filled whole] at decrypted
    cases found : unpad? (unchain permutation vector ciphertext) with
    | none =>
        rw [found] at decrypted
        cases decrypted
    | some text =>
        rw [found] at decrypted
        cases decrypted
        have length : (unchain permutation vector ciphertext).length = ciphertext.length :=
          length_unchain vector whole
        have padded : unchain permutation vector ciphertext = pad message :=
          eq_pad_of_unpad? (by rw [length]; exact Nat.mod_eq_zero_of_dvd whole) found
        rw [encrypt, ← padded, unchain, Block.split_join,
          encryptBlocks_decryptBlocks (permutation.encrypt_decrypt inverse), Block.join_split whole]
  · rintro rfl
    exact decrypt_encrypt inverse vector message

/-- Whole blocks are refused exactly when what they decrypt to is not padded. -/
theorem decrypt_eq_badPadding_iff {ciphertext : Bytes} :
    decrypt permutation vector ciphertext = .error .badPadding ↔
      (ciphertext.length ≠ 0 ∧ 16 ∣ ciphertext.length) ∧
        ∀ message count, ¬Padded (unchain permutation vector ciphertext) message count := by
  by_cases partly : ciphertext.length = 0 ∨ ¬16 ∣ ciphertext.length
  · rw [decrypt_of_partial vector partly]
    refine iff_of_false (fun same => ?_) fun ⟨⟨filled, whole⟩, _⟩ => partly.elim filled (· whole)
    cases same
  obtain ⟨filled, whole⟩ := not_or.mp partly
  have whole := not_not.mp whole
  rw [decrypt_of_whole vector filled whole, and_iff_right ⟨filled, whole⟩]
  cases found : unpad? (unchain permutation vector ciphertext) with
  | none =>
      refine iff_of_true rfl fun message count padded => ?_
      rw [unpad?_eq_some_iff.mpr ⟨count, padded⟩] at found
      cases found
  | some message =>
      obtain ⟨count, padded⟩ := unpad?_eq_some_iff.mp found
      refine iff_of_false (fun same => ?_) fun none => none message count padded
      cases same

end

end Cipher

/-- What the blocks of a body decrypt to, before a padding is looked for. -/
def unchainBody (key : Octets 32) (vector : Octets 16) (body : Bytes) : Bytes :=
  Cipher.unchain (Cipher.aes256 key) (Cipher.Block.ofBytes vector.toList) body

/-- **Bodies and messages correspond.** A body decrypts to a message exactly if it is the
encrypted form of the message, which no other message has and which fills up the last block or
one block more. Every other body is refused: for its length, if it is empty or ends inside a block,
and otherwise because what its blocks decrypt to does not end in a padding. -/
theorem decryptBody_bijective (key : Octets 32) (vector : Octets 16) :
    (∀ body message, decryptBody key vector body = .ok message ↔
      body = encryptBody key vector message) ∧
    Function.Injective (encryptBody key vector) ∧
    (∀ message, (encryptBody key vector message).length = 16 * (message.length / 16 + 1)) ∧
    (∀ body : Bytes, body.length = 0 ∨ ¬16 ∣ body.length →
      decryptBody key vector body = .error (.partialBlock body.length)) ∧
    ∀ body, decryptBody key vector body = .error .badPadding ↔
      (body.length ≠ 0 ∧ 16 ∣ body.length) ∧
        ∀ message count, ¬Cipher.Padded (unchainBody key vector body) message count := by
  have inverse := (Cipher.RoundKeys.ofKey key).decrypt_encrypt
  refine ⟨fun body message => Cipher.decrypt_eq_ok_iff _ inverse, fun first second same => ?_,
    Cipher.length_encrypt _ _, fun body => Cipher.decrypt_of_partial _,
    fun body => Cipher.decrypt_eq_badPadding_iff _⟩
  have decrypted := decryptBody_encryptBody key vector first
  rw [same, decryptBody_encryptBody] at decrypted
  exact (Except.ok.inj decrypted).symm

end Ratchet
