import Ratchet.Proofs.Wire.Reading

/-!
# How numbers are written

Groups of seven bits, the lowest first, all marked but the last, are a number
(`Varint.Groups`). A number of 32 bits may be written in any such way that takes
five groups at most, so small numbers have several forms (`Varint.Spells`); the
one that is written is among them (`Varint.spells_encode`).

A number is read in each of its forms (`Reader.takes_varint_of_spells`), and what
is read is the form of a number (`Reader.gives_varint`). Both are statements about
the groups that are still to come, given the bits that have been read.
-/

set_option autoImplicit false

namespace Ratchet

namespace Varint

/-- The number in groups of seven bits, the lowest first, and all but the last marked. -/
inductive Groups : Bytes → Nat → Prop where
  | last {byte : UInt8} (unmarked : byte < 0x80) : Groups [byte] byte.toNat
  | more {byte : UInt8} {rest : Bytes} {high : Nat} (marked : 0x80 ≤ byte)
      (others : Groups rest high) : Groups (byte :: rest) (byte.toNat - 128 + 128 * high)

/-- The bytes are a form of the number, not necessarily the shortest. -/
structure Spells (bytes : Bytes) (value : UInt32) : Prop where
  groups : Groups bytes value.toNat
  short : bytes.length ≤ 5

theorem Groups.length_pos {bytes : Bytes} {number : Nat} (groups : Groups bytes number) :
    0 < bytes.length := by
  cases groups with
  | last _ => exact Nat.one_pos
  | more _ _ => exact Nat.succ_pos _

/-! ## Single groups -/

theorem low_bits (byte : UInt8) : (byte &&& 0x7F).toUInt32.toNat = byte.toNat % 128 := by
  rw [UInt8.toNat_toUInt32, UInt8.toNat_and]
  exact Nat.and_two_pow_sub_one_eq_mod byte.toNat 7

theorem low_bits_lt (byte : UInt8) : (byte &&& 0x7F).toUInt32.toNat < 128 := by
  rw [low_bits]
  exact Nat.mod_lt _ (by decide)

theorem low_bits_of_unmarked {byte : UInt8} (unmarked : byte < 0x80) :
    (byte &&& 0x7F).toUInt32.toNat = byte.toNat := by
  rw [low_bits]
  exact Nat.mod_eq_of_lt (UInt8.lt_iff_toNat_lt.mp unmarked)

theorem low_bits_of_marked {byte : UInt8} (marked : 0x80 ≤ byte) :
    (byte &&& 0x7F).toUInt32.toNat = byte.toNat - 128 := by
  have above : 128 ≤ byte.toNat := UInt8.le_iff_toNat_le.mp marked
  have within := byte.toNat_lt
  rw [low_bits]
  omega

/-- The highest bit is the mark. -/
theorem mark_eq_zero_iff : ∀ byte : UInt8, byte &&& 0x80 = 0 ↔ byte < 0x80 :=
  forall_byte (by decide +kernel)

/-- A group goes behind the bits that are there. -/
theorem toNat_or_group {low bits shift : UInt32} (within : shift.toNat < 32)
    (below : low.toNat < 2 ^ shift.toNat) (fits : 2 ^ shift.toNat * bits.toNat < 2 ^ 32) :
    (low ||| (bits <<< shift)).toNat = low.toNat + 2 ^ shift.toNat * bits.toNat := by
  have shifted : bits.toNat <<< shift.toNat % 2 ^ 32 = bits.toNat <<< shift.toNat := by
    rw [Nat.shiftLeft_eq, Nat.mul_comm]
    exact Nat.mod_eq_of_lt fits
  rw [UInt32.toNat_or, UInt32.toNat_shiftLeft, Nat.mod_eq_of_lt within, shifted, Nat.or_comm,
    ← Nat.shiftLeft_add_eq_or_of_lt below, Nat.shiftLeft_eq, Nat.mul_comm, Nat.add_comm]

/-! ## The form that is written -/

theorem toNat_or_mark : ∀ byte : UInt8, byte < 0x80 → (byte ||| 0x80).toNat = byte.toNat + 128 :=
  forall_byte (by decide +kernel)

/-- The lowest seven bits are a byte. -/
theorem toNat_lowest (value : UInt32) :
    (value &&& 0x7F).toUInt8.toNat = value.toNat % 128 := by
  have masked : value.toNat &&& 127 = value.toNat % 128 :=
    Nat.and_two_pow_sub_one_eq_mod value.toNat 7
  rw [UInt32.toNat_toUInt8, UInt32.toNat_and]
  show (value.toNat &&& 127) % 2 ^ 8 = _
  rw [masked]
  exact Nat.mod_eq_of_lt (by omega)

theorem groups_singleton {value : UInt32} (small : value.toNat < 128) :
    Groups [value.toUInt8] value.toNat := by
  have same : value.toUInt8.toNat = value.toNat := by
    rw [UInt32.toNat_toUInt8]
    exact Nat.mod_eq_of_lt (by omega)
  rw [← same]
  refine .last (UInt8.lt_iff_toNat_lt.mpr ?_)
  rw [same]
  exact small

theorem groups_groups {more : Nat} {value : UInt32} (fits : value.toNat < 2 ^ (7 * more + 7)) :
    Groups (groups more value) value.toNat ∧ (groups more value).length ≤ more + 1 := by
  induction more generalizing value with
  | zero => exact ⟨groups_singleton fits, Nat.le_refl 1⟩
  | succ more ih =>
      rw [groups]
      split
      · rename_i small
        exact ⟨groups_singleton (UInt32.lt_iff_toNat_lt.mp small), Nat.succ_pos _⟩
      · have byte : (value &&& 0x7F).toUInt8 < 0x80 := by
          rw [UInt8.lt_iff_toNat_lt, toNat_lowest]
          exact Nat.mod_lt _ (by decide)
        have marked := toNat_or_mark _ byte
        have high : (value >>> 7).toNat = value.toNat / 128 := by
          rw [UInt32.toNat_shiftRight]
          exact Nat.shiftRight_eq_div_pow value.toNat 7
        have rest : (value >>> 7).toNat < 2 ^ (7 * more + 7) := by
          rw [high]
          refine Nat.div_lt_of_lt_mul (fits.trans_eq ?_)
          rw [← Nat.pow_add 2 7]
          congr 1
          omega
        obtain ⟨others, short⟩ := ih rest
        refine ⟨?_, Nat.succ_le_succ short⟩
        have whole : value.toNat = ((value &&& 0x7F).toUInt8 ||| 0x80).toNat - 128 +
            128 * (value >>> 7).toNat := by
          rw [marked, toNat_lowest, high]
          omega
        rw [whole]
        refine .more (UInt8.le_iff_toNat_le.mpr ?_) others
        rw [marked]
        exact Nat.le_add_left _ _

theorem spells_encode (value : UInt32) : Spells (encode value) value := by
  have small : value.toNat < 2 ^ (7 * 4 + 7) :=
    Nat.lt_of_lt_of_le value.toNat_lt (by decide : 2 ^ 32 ≤ 2 ^ 35)
  obtain ⟨groups, short⟩ := groups_groups small
  exact ⟨groups, short⟩

end Varint

namespace Reader

open Varint

/-! ## One group -/

/-- A group fits behind the bits that are there unless it is the fifth and too large. -/
theorem group_fits_iff {shift bits : UInt32} {more : Nat} (left : shift.toNat + 7 * more = 28)
    (small : bits.toNat < 128) :
    2 ^ shift.toNat * bits.toNat < 2 ^ 32 ↔ ¬ (shift = 28 ∧ 0x0F < bits) := by
  have fifth : shift = 28 ↔ shift.toNat = 28 := UInt32.toNat_inj.symm
  have large : 0x0F < bits ↔ 15 < bits.toNat := UInt32.lt_iff_toNat_lt
  rw [fifth, large]
  by_cases last : shift.toNat = 28
  · rw [last]
    omega
  · have earlier : shift.toNat ≤ 21 := by omega
    have bound : 2 ^ shift.toNat * bits.toNat ≤ 2 ^ 21 * 127 :=
      Nat.mul_le_mul (Nat.pow_le_pow_right (by decide) earlier) (by omega)
    refine iff_of_true (Nat.lt_of_le_of_lt bound (by decide : 2 ^ 21 * 127 < 2 ^ 32)) ?_
    rintro ⟨same, _⟩
    exact last same

/-- With another group there are seven bits more. -/
theorem group_below {low shift bits : Nat} (below : low < 2 ^ shift) (small : bits < 128) :
    low + 2 ^ shift * bits < 2 ^ (shift + 7) := by
  have room : 2 ^ shift * (bits + 1) ≤ 2 ^ shift * 128 := Nat.mul_le_mul_left _ small
  rw [Nat.mul_succ] at room
  rw [Nat.pow_add]
  omega

theorem toNat_next {shift : UInt32} {more : Nat} (left : shift.toNat + 7 * more = 28) :
    (shift + 7).toNat = shift.toNat + 7 := by
  rw [UInt32.toNat_add]
  exact Nat.mod_eq_of_lt (by omega : shift.toNat + 7 < 2 ^ 32)

/-! ## Reading -/

/-- Groups that come next are read onto the bits that are there. -/
theorem takes_varintFrom {bytes : Bytes} {high : Nat} (groups : Groups bytes high) {more : Nat}
    (short : bytes.length ≤ more) {shift low result : UInt32}
    (left : shift.toNat + 7 * more = 35) (below : low.toNat < 2 ^ shift.toNat)
    (sum : result.toNat = low.toNat + 2 ^ shift.toNat * high) :
    Takes (varintFrom more shift low) bytes result := by
  have bounded := result.toNat_lt
  induction groups generalizing more shift low with
  | @last byte unmarked =>
      obtain ⟨more, rfl⟩ := Nat.exists_eq_add_of_le' (show 1 ≤ more from short)
      have left : shift.toNat + 7 * more = 28 := by omega
      have value := low_bits_of_unmarked unmarked
      have fits : 2 ^ shift.toNat * (byte &&& 0x7F).toUInt32.toNat < 2 ^ 32 := by
        rw [value]
        omega
      have whole : low ||| ((byte &&& 0x7F).toUInt32 <<< shift) = result := by
        rw [← UInt32.toNat_inj, toNat_or_group (by omega) below fits, value, sum]
      rw [← List.append_nil [byte]]
      refine (takes_byte byte).bind ?_
      rw [if_neg ((group_fits_iff left (low_bits_lt byte)).mp fits),
        if_pos ((mark_eq_zero_iff byte).mpr unmarked), whole]
      exact takes_pure result
  | @more byte rest high marked others ih =>
      obtain ⟨more, rfl⟩ := Nat.exists_eq_add_of_le' (Nat.one_le_of_lt short)
      have left : shift.toNat + 7 * more = 28 := by omega
      have next := toNat_next left
      have value := low_bits_of_marked marked
      rw [← value, Nat.mul_add, ← Nat.add_assoc] at sum
      have fits : 2 ^ shift.toNat * (byte &&& 0x7F).toUInt32.toNat < 2 ^ 32 := by omega
      have grown := toNat_or_group (by omega) below fits
      rw [← List.singleton_append]
      refine (takes_byte byte).bind ?_
      rw [if_neg ((group_fits_iff left (low_bits_lt byte)).mp fits),
        if_neg fun unmarked => UInt8.not_lt.mpr marked ((mark_eq_zero_iff byte).mp unmarked)]
      refine ih (Nat.le_of_succ_le_succ short) (by omega) ?_ ?_
      · rw [grown, next]
        exact group_below below (low_bits_lt byte)
      · rw [grown, next, sum, Nat.pow_add, Nat.mul_assoc]

/-- What is read onto the bits that are there are groups. -/
theorem gives_varintFrom {more : Nat} {shift low : UInt32} (left : shift.toNat + 7 * more = 35)
    (below : low.toNat < 2 ^ shift.toNat) :
    Gives (varintFrom more shift low) fun bytes result =>
      bytes.length ≤ more ∧ ∃ high, Groups bytes high ∧
        result.toNat = low.toNat + 2 ^ shift.toNat * high := by
  induction more generalizing shift low with
  | zero =>
      intro cursor result last ran
      cases ran
  | succ more ih =>
      intro cursor result last ran
      have left : shift.toNat + 7 * more = 28 := by omega
      obtain ⟨byte, middle, first, others⟩ := Procedure.run_bind_eq_ok ran
      obtain ⟨_, moved, next, rfl⟩ := gives_byte _ _ _ first
      dsimp only at others
      by_cases large : shift = 28 ∧ 0x0F < (byte &&& 0x7F).toUInt32
      · rw [if_pos large] at others
        cases others
      rw [if_neg large] at others
      have fits := (group_fits_iff left (low_bits_lt byte)).mpr large
      have grown := toNat_or_group (by omega) below fits
      by_cases unmarked : byte &&& 0x80 = 0
      · have last := (mark_eq_zero_iff byte).mp unmarked
        rw [if_pos unmarked] at others
        cases others
        refine ⟨[byte], moved, next, Nat.succ_pos _, byte.toNat, .last last, ?_⟩
        rw [grown, low_bits_of_unmarked last]
      · have marked : 0x80 ≤ byte :=
          UInt8.not_lt.mp fun small => unmarked ((mark_eq_zero_iff byte).mpr small)
        rw [if_neg unmarked] at others
        have further := toNat_next left
        have wider : (low ||| ((byte &&& 0x7F).toUInt32 <<< shift)).toNat <
            2 ^ (shift + 7).toNat := by
          rw [grown, further]
          exact group_below below (low_bits_lt byte)
        obtain ⟨bytes, movedOn, behind, short, high, groups, sum⟩ :=
          ih (by omega) wider _ _ _ others
        refine ⟨byte :: bytes, ?_, ?_, Nat.succ_le_succ short, _, .more marked groups, ?_⟩
        · rw [movedOn, moved, Cursor.advance_advance, Nat.add_comm]
          rfl
        · rw [next, behind]
          rfl
        · rw [sum, grown, further, low_bits_of_marked marked, Nat.pow_add, Nat.mul_add,
            Nat.mul_assoc, Nat.add_assoc]

/-- A number is read in each of its forms. -/
theorem takes_varint_of_spells {bytes : Bytes} {value : UInt32} (spells : Spells bytes value) :
    Takes varint bytes value :=
  takes_varintFrom spells.groups spells.short rfl (by decide) (by simp)

/-- A number is read as it was written. -/
theorem takes_varint (value : UInt32) : Takes varint (Varint.encode value) value :=
  takes_varint_of_spells (spells_encode value)

theorem bounded_varintFrom (more : Nat) (shift low : UInt32) :
    Bounded (varintFrom more shift low) := by
  induction more generalizing shift low with
  | zero => exact bounded_throw _
  | succ more ih =>
      refine bounded_byte.bind fun value => ?_
      dsimp only
      split
      · exact bounded_throw _
      · split
        · exact bounded_pure _
        · exact ih _ _

theorem bounded_varint : Bounded varint := bounded_varintFrom 5 0 0

/-- What is read is a form of the number. -/
theorem gives_varint : Gives varint Spells := by
  intro cursor value last ran
  obtain ⟨bytes, moved, next, short, high, groups, sum⟩ :=
    gives_varintFrom rfl (by decide) cursor value last ran
  refine ⟨bytes, moved, next, ?_, short⟩
  rw [sum]
  simpa using groups

end Reader

end Ratchet
