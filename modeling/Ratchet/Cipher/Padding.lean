import Ratchet.Cipher.Block

/-!
# Padding to whole blocks

A message is filled up to whole blocks of sixteen bytes with as many bytes as
are missing, each of which says how many there are; a message of whole blocks
gets one more block. Taking the padding off checks all of it: the last byte
must be a number from one to sixteen, and that many last bytes must equal it.

Padding can always be taken off again (`unpad?_pad`), and nothing else can be
taken off (`eq_pad_of_unpad?`).
-/

set_option autoImplicit false

namespace Ratchet

namespace Cipher

/-- How many bytes are missing to the next whole block; never none. -/
def missing (message : Bytes) : Nat := 16 - message.length % 16

/-- The message filled up to whole blocks. -/
def pad (message : Bytes) : Bytes :=
  message ++ List.replicate (missing message) (UInt8.ofNat (missing message))

/-- The message under a padding, when the padding is well formed. -/
def unpad? (padded : Bytes) : Option Bytes :=
  match padded.getLast? with
  | none => none
  | some last =>
    let count := last.toNat
    let kept := padded.length - count
    if 0 < count ∧ count ≤ 16 ∧ padded.drop kept = List.replicate count last then
      some (padded.take kept)
    else none

theorem missing_pos (message : Bytes) : 0 < missing message := by
  unfold missing
  omega

theorem missing_le (message : Bytes) : missing message ≤ 16 := by
  unfold missing
  omega

theorem length_pad (message : Bytes) :
    (pad message).length = 16 * (message.length / 16 + 1) := by
  simp only [pad, missing, List.length_append, List.length_replicate]
  omega

/-- A padding of any length comes off. -/
theorem unpad?_append {message : Bytes} {count : Nat} (positive : 0 < count)
    (bounded : count ≤ 16) :
    unpad? (message ++ List.replicate count (UInt8.ofNat count)) = some message := by
  have number : (UInt8.ofNat count).toNat = count := by
    rw [UInt8.toNat_ofNat']
    omega
  have last : (message ++ List.replicate count (UInt8.ofNat count)).getLast? =
      some (UInt8.ofNat count) := by
    rw [List.getLast?_append, List.getLast?_replicate, if_neg (by omega)]
    rfl
  have kept : (message ++ List.replicate count (UInt8.ofNat count)).length - count =
      message.length := by
    rw [List.length_append, List.length_replicate, Nat.add_sub_cancel]
  simp only [unpad?, last, number, kept]
  rw [List.drop_left, List.take_left, if_pos ⟨positive, bounded, rfl⟩]

/-- Nothing else comes off. -/
theorem eq_append_of_unpad? {padded message : Bytes} (taken : unpad? padded = some message) :
    ∃ count, 0 < count ∧ count ≤ 16 ∧
      padded = message ++ List.replicate count (UInt8.ofNat count) := by
  unfold unpad? at taken
  split at taken
  · cases taken
  · rename_i last found
    dsimp only at taken
    split at taken
    · rename_i conditions
      obtain ⟨positive, bounded, tail⟩ := conditions
      cases taken
      refine ⟨last.toNat, positive, bounded, ?_⟩
      rw [UInt8.ofNat_toNat, ← tail, List.take_append_drop]
    · cases taken

/-- The padding comes off again. -/
theorem unpad?_pad (message : Bytes) : unpad? (pad message) = some message :=
  unpad?_append (missing_pos message) (missing_le message)

/-- Only padded messages of whole blocks have a padding to take off. -/
theorem eq_pad_of_unpad? {padded message : Bytes} (whole : padded.length % 16 = 0)
    (taken : unpad? padded = some message) : padded = pad message := by
  obtain ⟨count, positive, bounded, rfl⟩ := eq_append_of_unpad? taken
  rw [List.length_append, List.length_replicate] at whole
  have missed : missing message = count := by
    unfold missing
    omega
  rw [pad, missed]

end Cipher

end Ratchet
