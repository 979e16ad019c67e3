import Ratchet.Proofs.Wire.Varint

/-!
# Cursors on a machine

A machine keeps the position of a cursor in a word of 64 bits, and cuts pieces out of the bytes
instead of dropping what is in front of them. Two more things may then go wrong: a sum of words
may be no word, and a piece may not be there. Neither is a refusal, the machine stops
(`Halt.trap`). Its readers check the one sum whose second part is anybody's
(`WordReader.limit?`). The step over a single byte is not checked, nor is any piece; they are
sound because the position is within the bytes, and for no other reason.

A reader on words keeps to a reader (`WordReader.KeepsTo`) if, from within bytes whose number is
a word, it has the same outcome and gets as far; so the machine never stops. Readers in sequence
do if each of them does, since the former of them leaves the cursor within the bytes
(`WordReader.KeepsTo.bind`).
-/

set_option autoImplicit false

namespace Ratchet

/-- A byte string and, in a word, how much of it has been read. -/
structure WordCursor where
  data : Bytes
  position : UInt64
deriving DecidableEq

/-- Why a machine gives no value. -/
inductive Halt (ε : Type) where
  /-- What the machine does is refused. -/
  | fault (reason : ε)
  /-- A sum is no word, or a piece is not there. -/
  | trap
deriving DecidableEq, Repr

namespace Halt

variable {ε δ α : Type}

/-- Another account of the faults. -/
def map (account : ε → δ) : Halt ε → Halt δ
  | .fault reason => .fault (account reason)
  | .trap => .trap

/-- The value, without which the machine stops. -/
def demand : Option α → Except (Halt ε) α
  | none => .error .trap
  | some value => .ok value

end Halt

/-- What reads a value off a cursor on words. -/
abbrev WordReader (α : Type) := Procedure WordCursor (Halt ReadFault) α

/-- The cursor, its position being put in a word. -/
def Cursor.toWords (cursor : Cursor) : WordCursor :=
  ⟨cursor.data, UInt64.ofNat cursor.position⟩

namespace WordReader

variable {α β : Type}

/-! ## Words -/

/-- The sum of two words, if this is a word. -/
def sum? (first second : UInt64) : Option UInt64 :=
  if first.toNat + second.toNat < UInt64.size then some (first + second) else none

/-- The position `count` bytes on, if it is in the data. -/
def limit? (cursor : WordCursor) (count : UInt64) : Option UInt64 :=
  (sum? cursor.position count).filter (· ≤ UInt64.ofNat cursor.data.length)

/-- The piece from one position to another, if they are in the data and in this order. -/
def slice? (data : Bytes) (first last : UInt64) : Option Bytes :=
  if first ≤ last ∧ last.toNat ≤ data.length then
    some ((data.drop first.toNat).take (last - first).toNat)
  else none

theorem sum?_ofNat {first second : Nat} (fits : first + second < UInt64.size) :
    sum? (UInt64.ofNat first) (UInt64.ofNat second) = some (UInt64.ofNat (first + second)) := by
  have firstFits : first < UInt64.size := Nat.lt_of_le_of_lt (Nat.le_add_right _ _) fits
  have secondFits : second < UInt64.size := Nat.lt_of_le_of_lt (Nat.le_add_left _ _) fits
  rw [sum?, UInt64.toNat_ofNat_of_lt' firstFits, UInt64.toNat_ofNat_of_lt' secondFits,
    if_pos fits, UInt64.ofNat_add]

/-- The check finds out whether so many bytes are left, also where the sum is no word. -/
theorem limit?_toWords {cursor : Cursor} (within : cursor.position ≤ cursor.data.length)
    (fits : cursor.data.length < UInt64.size) (count : UInt64) :
    limit? cursor.toWords count =
      if cursor.position + count.toNat ≤ cursor.data.length then
        some (UInt64.ofNat (cursor.position + count.toNat))
      else none := by
  have positionFits : cursor.position < UInt64.size := Nat.lt_of_le_of_lt within fits
  rw [limit?]
  dsimp only [Cursor.toWords]
  by_cases sumFits : cursor.position + count.toNat < UInt64.size
  · have sum := sum?_ofNat sumFits
    rw [UInt64.ofNat_toNat] at sum
    rw [sum, Option.filter_some]
    simp only [decide_eq_true_eq, UInt64.ofNat_le_iff_le sumFits fits]
  · have beyond : ¬ cursor.position + count.toNat ≤ cursor.data.length := by
      intro room
      exact sumFits (Nat.lt_of_le_of_lt room fits)
    rw [sum?, UInt64.toNat_ofNat_of_lt' positionFits, if_neg sumFits, if_neg beyond]
    rfl

theorem slice?_ofNat {data : Bytes} {first last : Nat} (ordered : first ≤ last)
    (within : last ≤ data.length) (fits : data.length < UInt64.size) :
    slice? data (UInt64.ofNat first) (UInt64.ofNat last) =
      some ((data.drop first).take (last - first)) := by
  have lastFits : last < UInt64.size := Nat.lt_of_le_of_lt within fits
  have firstFits : first < UInt64.size := Nat.lt_of_le_of_lt ordered lastFits
  have inOrder : UInt64.ofNat first ≤ UInt64.ofNat last :=
    (UInt64.ofNat_le_iff_le firstFits lastFits).mpr ordered
  rw [slice?, UInt64.toNat_sub_of_le _ _ inOrder, UInt64.toNat_ofNat_of_lt' firstFits,
    UInt64.toNat_ofNat_of_lt' lastFits, if_pos ⟨inOrder, within⟩]

/-! ## Readers -/

/-- Reads one byte. -/
def byte : WordReader UInt8 := do
  let cursor ← get
  match cursor.data[cursor.position.toNat]? with
  | none => throw (.fault .missingByte)
  | some value =>
    let next ← Procedure.ofExcept (Halt.demand (sum? cursor.position 1))
    set { cursor with position := next }
    return value

/-- Reads `count` bytes. -/
def bytes (count : UInt64) : WordReader Bytes := do
  let cursor ← get
  match limit? cursor count with
  | none => throw (.fault .missingBytes)
  | some last =>
    let taken ← Procedure.ofExcept (Halt.demand (slice? cursor.data cursor.position last))
    set { cursor with position := last }
    return taken

/-- Reads `n` bytes as a byte string of length `n`. -/
def octets (n : Nat) : WordReader (Octets n) := do
  match Octets.ofList? (← bytes (UInt64.ofNat n)) with
  | some value => return value
  | none => throw (.fault .missingBytes)

/-- Reads a public key. -/
def publicKey : WordReader PublicKey := PublicKey.mk <$> octets 32

/-- Reads what is left of a variable number after the groups below `shift`, whose value is `low`. -/
def varintFrom : (more : Nat) → (shift low : UInt32) → WordReader UInt32
  | 0, _, _ => throw (.fault .numberTooLong)
  | more + 1, shift, low => do
    let value ← byte
    let bits := (value &&& 0x7F).toUInt32
    if shift = 28 ∧ 0x0F < bits then throw (.fault .numberOverflow)
    let sum := low ||| (bits <<< shift)
    if value &&& 0x80 = 0 then return sum
    varintFrom more (shift + 7) sum

/-- Reads a variable number. -/
def varint : WordReader UInt32 := varintFrom 5 0 0

/-- Everything that has not been read. -/
def rest : WordReader Bytes := do
  let cursor ← get
  Procedure.ofExcept
    (Halt.demand (slice? cursor.data cursor.position (UInt64.ofNat cursor.data.length)))

/-! ## Keeping to a reader -/

section

variable {ε δ : Type}

/-- From within bytes whose number is a word, the machine does what the reader does. -/
def KeepsTo (machine : Procedure WordCursor (Halt ε) α) (reader : Procedure Cursor ε α) : Prop :=
  ∀ cursor : Cursor, cursor.position ≤ cursor.data.length → cursor.data.length < UInt64.size →
    machine.run cursor.toWords =
      ((reader.run cursor).1.mapError .fault, (reader.run cursor).2.toWords)

theorem KeepsTo.not_trap {machine : Procedure WordCursor (Halt ε) α} {reader : Procedure Cursor ε α}
    (keeps : KeepsTo machine reader) {cursor : Cursor}
    (within : cursor.position ≤ cursor.data.length) (fits : cursor.data.length < UInt64.size) :
    (machine.run cursor.toWords).1 ≠ .error .trap := by
  rw [keeps cursor within fits]
  intro stops
  cases outcome : (reader.run cursor).1 with
  | error fault =>
      rw [outcome] at stops
      cases stops
  | ok value =>
      rw [outcome] at stops
      cases stops

theorem keepsTo_pure (value : α) :
    KeepsTo (pure value) (pure value : Procedure Cursor ε α) :=
  fun _ _ _ => rfl

theorem keepsTo_throw (fault : ε) :
    KeepsTo (throw (.fault fault)) (throw fault : Procedure Cursor ε α) :=
  fun _ _ _ => rfl

theorem keepsTo_ofExcept (outcome : Except ε α) :
    KeepsTo (.ofExcept (outcome.mapError .fault)) (.ofExcept outcome) :=
  fun _ _ _ => rfl

theorem KeepsTo.bind {first : Procedure WordCursor (Halt ε) α}
    {second : α → Procedure WordCursor (Halt ε) β} {former : Procedure Cursor ε α}
    {latter : α → Procedure Cursor ε β} (keeps : KeepsTo first former)
    (bounded : Reader.Bounded former)
    (continues : ∀ value, KeepsTo (second value) (latter value)) :
    KeepsTo (first >>= second) (former >>= latter) := by
  intro cursor within fits
  have reached := bounded cursor within
  have same := keeps cursor within fits
  rw [Procedure.run_bind, Procedure.run_bind, same]
  cases ran : former.run cursor with
  | mk outcome next =>
      rw [ran] at reached
      cases outcome with
      | error fault => rfl
      | ok value =>
          rw [← reached.data_eq] at fits
          exact continues value next reached.within fits

theorem KeepsTo.map {machine : Procedure WordCursor (Halt ε) α} {reader : Procedure Cursor ε α}
    (keeps : KeepsTo machine reader) (function : α → β) :
    KeepsTo (function <$> machine) (function <$> reader) := by
  intro cursor within fits
  rw [Procedure.run_map, Procedure.run_map, keeps cursor within fits]
  cases ran : reader.run cursor with
  | mk outcome next => cases outcome <;> rfl

theorem KeepsTo.explain {machine : Procedure WordCursor (Halt ε) α} {reader : Procedure Cursor ε α}
    (keeps : KeepsTo machine reader) (account : ε → δ) :
    KeepsTo (machine.explain (Halt.map account)) (reader.explain account) := by
  intro cursor within fits
  rw [Procedure.run_explain, Procedure.run_explain, keeps cursor within fits]
  cases (reader.run cursor).1 <;> rfl

end

/-- The step over a byte is a word, since the byte is there. -/
theorem keepsTo_byte : KeepsTo byte Reader.byte := by
  intro cursor within fits
  have positionFits : cursor.position < UInt64.size := Nat.lt_of_le_of_lt within fits
  have first : cursor.data[cursor.position]? = cursor.remaining.head? :=
    List.head?_drop.symm
  simp only [byte, Reader.byte]
  rw [Procedure.run_bind, Procedure.run_bind, Procedure.run_get, Procedure.run_get]
  dsimp only [Cursor.toWords]
  rw [UInt64.toNat_ofNat_of_lt' positionFits, first]
  cases rest : cursor.remaining with
  | nil => rfl
  | cons value others =>
      have length := congrArg List.length rest
      rw [Cursor.remaining, List.length_drop, List.length_cons] at length
      have sum := sum?_ofNat (show cursor.position + 1 < UInt64.size by omega)
      dsimp only [List.head?_cons]
      rw [show (1 : UInt64) = UInt64.ofNat 1 from rfl, sum]
      rfl

/-- A sum that is no word is refused like one beyond the end. -/
theorem keepsTo_bytes (count : UInt64) : KeepsTo (bytes count) (Reader.bytes count.toNat) := by
  intro cursor within fits
  have limit := limit?_toWords within fits count
  simp only [bytes, Reader.bytes]
  rw [Procedure.run_bind, Procedure.run_bind, Procedure.run_get, Procedure.run_get]
  dsimp only
  by_cases room : cursor.position + count.toNat ≤ cursor.data.length
  · have piece := slice?_ofNat (Nat.le_add_right cursor.position count.toNat) room fits
    rw [Nat.add_sub_cancel_left] at piece
    rw [if_pos room] at limit
    rw [limit, if_pos room]
    dsimp only [Cursor.toWords]
    rw [piece]
    rfl
  · rw [if_neg room] at limit
    rw [limit, if_neg room]
    rfl

theorem keepsTo_octets {n : Nat} (small : n < UInt64.size) :
    KeepsTo (octets n) (Reader.octets n) := by
  have taken := keepsTo_bytes (UInt64.ofNat n)
  rw [UInt64.toNat_ofNat_of_lt' small] at taken
  refine taken.bind (Reader.bounded_bytes n) fun value => ?_
  cases (Octets.ofList? value : Option (Octets n)) with
  | none => exact keepsTo_throw _
  | some octets => exact keepsTo_pure octets

theorem keepsTo_publicKey : KeepsTo publicKey Reader.publicKey :=
  (keepsTo_octets (by decide)).map PublicKey.mk

theorem keepsTo_varintFrom (more : Nat) (shift low : UInt32) :
    KeepsTo (varintFrom more shift low) (Reader.varintFrom more shift low) := by
  induction more generalizing shift low with
  | zero => exact keepsTo_throw _
  | succ more ih =>
      refine keepsTo_byte.bind Reader.bounded_byte fun value => ?_
      dsimp only
      split
      · exact keepsTo_throw _
      · split
        · exact keepsTo_pure _
        · exact ih _ _

theorem keepsTo_varint : KeepsTo varint Reader.varint := keepsTo_varintFrom 5 0 0

theorem keepsTo_rest : KeepsTo rest Reader.rest := by
  intro cursor within fits
  have piece := slice?_ofNat within (Nat.le_refl cursor.data.length) fits
  rw [List.take_of_length_le (Nat.le_of_eq List.length_drop)] at piece
  simp only [rest]
  rw [Procedure.run_bind, Procedure.run_get]
  dsimp only [Cursor.toWords]
  rw [piece]
  rfl

end WordReader

end Ratchet
