import Ratchet.Proofs.Wire.Varint
import Ratchet.Wire.Message

/-!
# Sequences of numbers

A numeral is at most four marked bytes and one without a mark (`Varint.Numeral`).
It stands for the number in its groups of seven bits, and this fits in 32 bits
unless the numeral is of five bytes and the last of them above fifteen
(`Varint.Numeral.number_lt_iff`). Exactly the numerals whose number fits are read
(`Reader.run_varint_eq_ok_iff`), and the one that is written for a number is the
shortest of those that stand for it (`Varint.length_encode_le`).

Whatever follows numbers that were written one after another, they are read one
after another, and what follows them is left (`Reader.takes_varints`). A number
that cannot be read is a fault of the message's form; at most five bytes have
then been looked at, and nothing behind them plays a part
(`Reader.moves_varint`, `Reader.run_varint_congr`).
-/

set_option autoImplicit false

namespace Ratchet

namespace Varint

/-! ## Numerals -/

/-- The number whose groups of seven bits, the lowest first, stand in these bytes. -/
def weight : Bytes → Nat
  | [] => 0
  | byte :: rest => byte.toNat % 128 + 128 * weight rest

/-- At most four marked bytes, and a byte without a mark. -/
structure Numeral where
  marked : Bytes
  last : UInt8
  few : marked.length ≤ 4
  all_marked : ∀ byte ∈ marked, 0x80 ≤ byte
  unmarked : last < 0x80

namespace Numeral

/-- The bytes of the numeral. -/
def bytes (numeral : Numeral) : Bytes := numeral.marked ++ [numeral.last]

/-- The number for which the numeral stands. -/
def number (numeral : Numeral) : Nat := weight numeral.bytes

end Numeral

theorem weight_lt (bytes : Bytes) : weight bytes < 2 ^ (7 * bytes.length) := by
  induction bytes with
  | nil => exact Nat.one_pos
  | cons byte rest ih =>
      have low := Nat.mod_lt byte.toNat (by decide : 0 < 128)
      rw [weight, List.length_cons, Nat.mul_succ, Nat.pow_add]
      omega

theorem weight_append_singleton (marked : Bytes) {last : UInt8} (unmarked : last < 0x80) :
    weight (marked ++ [last]) = weight marked + 2 ^ (7 * marked.length) * last.toNat := by
  induction marked with
  | nil =>
      have small : last.toNat < 128 := UInt8.lt_iff_toNat_lt.mp unmarked
      simp only [List.nil_append, weight, List.length_nil, Nat.mod_eq_of_lt small, Nat.mul_zero,
        Nat.add_zero, Nat.zero_add, Nat.pow_zero, Nat.one_mul]
  | cons byte rest ih =>
      rw [List.cons_append, weight, ih, weight, List.length_cons, Nat.mul_succ, Nat.pow_add,
        Nat.mul_add, ← Nat.mul_assoc, Nat.mul_comm 128 (2 ^ _), Nat.add_assoc]

/-- Groups are marked bytes and an unmarked one. -/
theorem Groups.split {bytes : Bytes} {number : Nat} (groups : Groups bytes number) :
    ∃ marked last, bytes = marked ++ [last] ∧ (∀ byte ∈ marked, (0x80 : UInt8) ≤ byte) ∧
      last < 0x80 ∧ number = weight bytes := by
  induction groups with
  | @last byte unmarked =>
      refine ⟨[], byte, rfl, fun _ member => ?_, unmarked, ?_⟩
      · cases member
      · exact (Nat.mod_eq_of_lt (UInt8.lt_iff_toNat_lt.mp unmarked)).symm
  | @more byte rest high marked others ih =>
      obtain ⟨before, last, rfl, all, unmarked, rfl⟩ := ih
      refine ⟨byte :: before, last, rfl, List.forall_mem_cons.mpr ⟨marked, all⟩, unmarked, ?_⟩
      rw [weight, ← low_bits, low_bits_of_marked marked]

/-- Marked bytes and an unmarked one are groups. -/
theorem groups_append {marked : Bytes} {last : UInt8}
    (all : ∀ byte ∈ marked, (0x80 : UInt8) ≤ byte) (unmarked : last < 0x80) :
    Groups (marked ++ [last]) (weight (marked ++ [last])) := by
  induction marked with
  | nil =>
      have small : last.toNat % 128 = last.toNat :=
        Nat.mod_eq_of_lt (UInt8.lt_iff_toNat_lt.mp unmarked)
      rw [List.nil_append, weight, weight, small]
      exact .last unmarked
  | cons byte rest ih =>
      obtain ⟨first, others⟩ := List.forall_mem_cons.mp all
      rw [List.cons_append, weight, ← low_bits, low_bits_of_marked first]
      exact .more first (ih others)

/-- The numerals that stand for a number of 32 bits are the forms of this number. -/
theorem spells_iff {bytes : Bytes} {value : UInt32} :
    Spells bytes value ↔ ∃ numeral : Numeral, numeral.bytes = bytes ∧
      numeral.number = value.toNat := by
  constructor
  · intro spells
    obtain ⟨marked, last, rfl, all, unmarked, number⟩ := spells.groups.split
    have short := spells.short
    rw [List.length_append, List.length_singleton] at short
    exact ⟨⟨marked, last, Nat.le_of_succ_le_succ short, all, unmarked⟩, rfl, number.symm⟩
  · rintro ⟨numeral, rfl, number⟩
    refine ⟨?_, ?_⟩
    · rw [← number]
      exact groups_append numeral.all_marked numeral.unmarked
    · rw [Numeral.bytes, List.length_append, List.length_singleton]
      exact Nat.succ_le_succ numeral.few

/-- A number does not fit only if the fifth byte is too large. -/
theorem Numeral.number_lt_iff (numeral : Numeral) :
    numeral.number < 2 ^ 32 ↔ (numeral.marked.length = 4 → numeral.last ≤ 0x0F) := by
  have few := numeral.few
  have small : numeral.last.toNat < 128 := UInt8.lt_iff_toNat_lt.mp numeral.unmarked
  have low := weight_lt numeral.marked
  have bound : numeral.last ≤ 0x0F ↔ numeral.last.toNat ≤ 15 := UInt8.le_iff_toNat_le
  rw [number, bytes, weight_append_singleton _ numeral.unmarked, bound]
  by_cases fifth : numeral.marked.length = 4
  · rw [fifth] at low ⊢
    omega
  · have earlier : 7 * numeral.marked.length ≤ 21 := by omega
    have room : 2 ^ (7 * numeral.marked.length) ≤ 2 ^ 21 :=
      Nat.pow_le_pow_right (by decide) earlier
    have high : 2 ^ (7 * numeral.marked.length) * numeral.last.toNat ≤ 2 ^ 21 * 127 :=
      Nat.mul_le_mul room (Nat.le_of_lt_succ small)
    exact iff_of_true (by omega) fun same => absurd same fifth

/-! ## The shortest numeral -/

theorem length_groups_le {more : Nat} {value : UInt32} {bytes : Bytes}
    (form : Groups bytes value.toNat) : (groups more value).length ≤ bytes.length := by
  induction more generalizing value bytes with
  | zero => exact form.length_pos
  | succ more ih =>
      rw [groups]
      split
      · exact form.length_pos
      · rename_i large
        have large : 128 ≤ value.toNat := UInt32.le_iff_toNat_le.mp (UInt32.not_lt.mp large)
        generalize number : value.toNat = total at form large
        cases form with
        | last unmarked =>
            have small := UInt8.lt_iff_toNat_lt.mp unmarked
            exact absurd large (Nat.not_le.mpr small)
        | @more byte rest high marked others =>
            have within := byte.toNat_lt
            have shifted : (value >>> 7).toNat = high := by
              rw [UInt32.toNat_shiftRight]
              refine (Nat.shiftRight_eq_div_pow value.toNat 7).trans ?_
              rw [number]
              omega
            refine Nat.succ_le_succ (ih ?_)
            rw [shifted]
            exact others

/-- No form of a number is shorter than the one that is written. -/
theorem length_encode_le {bytes : Bytes} {value : UInt32} (spells : Spells bytes value) :
    (encode value).length ≤ bytes.length :=
  length_groups_le spells.groups

theorem length_encode_pos (value : UInt32) : 0 < (encode value).length :=
  (spells_encode value).groups.length_pos

end Varint

namespace Reader

open Varint

/-! ## What is read -/

/-- A number is read exactly off a numeral for it, of which nothing is left. -/
theorem run_varint_eq_ok_iff {cursor next : Cursor} {value : UInt32} :
    varint.run cursor = (.ok value, next) ↔
      ∃ (numeral : Numeral) (behind : Bytes), cursor.remaining = numeral.bytes ++ behind ∧
        numeral.number = value.toNat ∧ next = cursor.advance numeral.bytes.length := by
  constructor
  · intro ran
    obtain ⟨bytes, moved, rest, spells⟩ := gives_varint _ _ _ ran
    obtain ⟨numeral, rfl, number⟩ := spells_iff.mp spells
    exact ⟨numeral, _, rest, number, moved⟩
  · rintro ⟨numeral, behind, rest, number, rfl⟩
    exact takes_varint_of_spells (spells_iff.mpr ⟨numeral, rfl, number⟩) cursor behind rest

/-- Reads this many numbers. -/
def varints : (count : Nat) → Reader (List UInt32)
  | 0 => return []
  | count + 1 => do
    let value ← varint
    let others ← varints count
    return value :: others

/-- Numbers that were written one after another are read one after another. -/
theorem takes_varints (values : List UInt32) :
    Takes (varints values.length) (encodeAll values) values := by
  induction values with
  | nil => exact takes_pure []
  | cons value others ih =>
      have parts : encodeAll (value :: others) = encode value ++ (encodeAll others ++ []) := by
        rw [List.append_nil]
        rfl
      rw [parts]
      exact (takes_varint value).bind (ih.bind (takes_pure _))

/-! ## How far is read -/

theorem run_byte_of_nil {cursor : Cursor} (nothing : cursor.remaining = []) :
    byte.run cursor = (.error .missingByte, cursor) := by
  simp only [byte]
  rw [Procedure.run_bind, Procedure.run_get]
  dsimp only
  rw [nothing]
  rfl

/-- Reading groups passes no more bytes than there may be groups, and none that is not there. -/
theorem moves_varintFrom (more : Nat) (shift low : UInt32) (cursor : Cursor) :
    ∃ count ≤ more, count ≤ cursor.remaining.length ∧
      ((varintFrom more shift low).run cursor).2 = cursor.advance count := by
  induction more generalizing shift low cursor with
  | zero => exact ⟨0, Nat.le_refl 0, Nat.zero_le _, rfl⟩
  | succ more ih =>
      cases rest : cursor.remaining with
      | nil =>
          refine ⟨0, Nat.zero_le _, Nat.le_refl 0, ?_⟩
          rw [varintFrom, Procedure.run_bind_of_error (run_byte_of_nil rest)]
          rfl
      | cons value others =>
          have one : 1 ≤ (value :: others).length := Nat.succ_pos _
          rw [varintFrom, Procedure.run_bind_of_ok (takes_byte value cursor others rest)]
          dsimp only
          split
          · exact ⟨1, Nat.succ_pos _, one, rfl⟩
          split
          · exact ⟨1, Nat.succ_pos _, one, rfl⟩
          obtain ⟨count, short, within, moved⟩ := ih (shift + 7)
            (low ||| ((value &&& 0x7F).toUInt32 <<< shift)) (cursor.advance [value].length)
          rw [Cursor.remaining_advance, rest] at within
          refine ⟨count + 1, Nat.succ_le_succ short, Nat.succ_le_succ within, ?_⟩
          rw [moved, Cursor.advance_advance, Nat.add_comm]
          rfl

theorem moves_varint (cursor : Cursor) :
    ∃ count ≤ 5, count ≤ cursor.remaining.length ∧
      (varint.run cursor).2 = cursor.advance count :=
  moves_varintFrom 5 0 0 cursor

/-- The outcome depends on no more bytes than there may be groups. -/
theorem run_varintFrom_congr (more : Nat) (shift low : UInt32) {first second : Cursor}
    (same : first.remaining.take more = second.remaining.take more) :
    ((varintFrom more shift low).run first).1 = ((varintFrom more shift low).run second).1 := by
  induction more generalizing shift low first second with
  | zero => rfl
  | succ more ih =>
      cases rest : first.remaining with
      | nil =>
          have nothing : second.remaining = [] := by
            rw [rest, List.take_nil, eq_comm, List.take_eq_nil_iff] at same
            exact same.resolve_left (Nat.succ_ne_zero more)
          rw [varintFrom, Procedure.run_bind, Procedure.run_bind, run_byte_of_nil rest,
            run_byte_of_nil nothing]
      | cons value others =>
          cases further : second.remaining with
          | nil =>
              rw [rest, further] at same
              cases same
          | cons value' others' =>
              rw [rest, further, List.take_succ_cons, List.take_succ_cons] at same
              obtain ⟨rfl, alike⟩ := List.cons.inj same
              have behind : (first.advance [value].length).remaining.take more =
                  (second.advance [value].length).remaining.take more := by
                rw [Cursor.remaining_advance, Cursor.remaining_advance, rest, further]
                exact alike
              rw [varintFrom, Procedure.run_bind, Procedure.run_bind,
                takes_byte value first others rest, takes_byte value second others' further]
              dsimp only
              split
              · rfl
              split
              · rfl
              exact ih _ _ behind

theorem run_varint_congr {first second : Cursor}
    (same : first.remaining.take 5 = second.remaining.take 5) :
    (varint.run first).1 = (varint.run second).1 :=
  run_varintFrom_congr 5 0 0 same

/-- **Numbers are a prefix code.** Numbers that are written one after another are read one after
another, whatever follows, and that is left. A number is written in one to five bytes, and in no
more than any of its forms has. A number is read where a numeral for it comes next, and this is a
numeral whose fifth byte, if it has one, is at most fifteen; exactly the numeral is read.
Everything else is refused as a malformed message, after at most five of the bytes that there are,
and what is behind the fifth byte never decides. -/
theorem varint_decodes :
    (∀ (values : List UInt32) (behind : Bytes), ∃ next,
      (varints values.length).run (Cursor.start (encodeAll values ++ behind)) = (.ok values, next) ∧
        next.remaining = behind) ∧
    (∀ value : UInt32, 1 ≤ (encode value).length ∧ (encode value).length ≤ 5 ∧
      ∀ bytes, Spells bytes value → (encode value).length ≤ bytes.length) ∧
    (∀ (cursor next : Cursor) (value : UInt32), varint.run cursor = (.ok value, next) ↔
      ∃ (numeral : Numeral) (behind : Bytes), cursor.remaining = numeral.bytes ++ behind ∧
        numeral.number = value.toNat ∧ next = cursor.advance numeral.bytes.length) ∧
    (∀ cursor : Cursor,
      (¬∃ (numeral : Numeral) (behind : Bytes), cursor.remaining = numeral.bytes ++ behind ∧
        numeral.number < 2 ^ 32) →
      ∃ (failure : SessionError) (count : Nat), failure.kind = .invalidMessage ∧
        count ≤ 5 ∧ count ≤ cursor.remaining.length ∧
        (MessageReader.field .field varint).run cursor = (.error failure, cursor.advance count)) ∧
    (∀ numeral : Numeral,
      numeral.number < 2 ^ 32 ↔ (numeral.marked.length = 4 → numeral.last ≤ 0x0F)) ∧
    ∀ first second : Cursor, first.remaining.take 5 = second.remaining.take 5 →
      (varint.run first).1 = (varint.run second).1 := by
  refine ⟨fun values behind => ?_, fun value => ?_, fun _ _ _ => run_varint_eq_ok_iff,
    fun cursor other => ?_, Numeral.number_lt_iff, fun _ _ => run_varint_congr⟩
  · refine ⟨_, takes_varints values _ behind rfl, ?_⟩
    rw [Cursor.remaining_advance, Cursor.remaining_start, List.drop_left]
  · exact ⟨length_encode_pos value, (spells_encode value).short, fun _ => length_encode_le⟩
  · obtain ⟨count, few, within, moved⟩ := moves_varint cursor
    cases ran : varint.run cursor with
    | mk outcome next =>
        rw [ran] at moved
        cases outcome with
        | ok value =>
            obtain ⟨numeral, behind, rest, number, _⟩ := run_varint_eq_ok_iff.mp ran
            exact absurd ⟨numeral, behind, rest, number.trans_lt value.toNat_lt⟩ other
        | error fault =>
            refine ⟨.invalidMessage (.field fault), count, rfl, few, within, ?_⟩
            rw [MessageReader.field, Procedure.run_explain, ran]
            dsimp only at moved ⊢
            rw [moved]
            rfl

end Reader

end Ratchet
