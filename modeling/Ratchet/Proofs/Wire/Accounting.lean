import Ratchet.Proofs.Wire.Machine
import Ratchet.Proofs.Wire.Numeral

/-!
# Asking a cursor for one item after another

A cursor is asked for items, and is asked on after a refusal (`Cursor.after`). Which items, and
how many bytes, is for anyone to say.

An item is read off exactly the bytes that are passed for it (`Reader.Item.gives`). An item of a
fixed size is read just when there are that many bytes, and nothing is passed when it is refused
(`Reader.Item.sized`); a refused number has passed the bytes that were looked at, five at most
(`Reader.moves_varint`). So the cursor never leaves its bytes (`Cursor.reaches_after`), however
large the numbers that it is asked with. The cursor of a machine then never leaves them either,
and this is all that its unchecked sums and its pieces depend on (`Cursor.toWords_after`).

The account of the moment at which a run stands is `Cursor.accounted_after`.
-/

set_option autoImplicit false

namespace Ratchet

namespace Reader

variable {α β : Type}

/-! ## Readers of a fixed size -/

/-- Reads this many bytes where there are so many, and otherwise stays where it is. -/
def Sized (reader : Reader α) (size : Nat) : Prop :=
  ∀ cursor : Cursor,
    (cursor.position + size ≤ cursor.data.length →
      ∃ value, reader.run cursor = (.ok value, cursor.advance size)) ∧
    (cursor.data.length < cursor.position + size →
      ∃ fault, reader.run cursor = (.error fault, cursor))

theorem Sized.map {reader : Reader α} {size : Nat} (sized : Sized reader size)
    (function : α → β) : Sized (function <$> reader) size := by
  intro cursor
  obtain ⟨enough, short⟩ := sized cursor
  constructor
  · intro room
    obtain ⟨value, ran⟩ := enough room
    exact ⟨function value, by rw [Procedure.run_map, ran]⟩
  · intro lacking
    obtain ⟨fault, ran⟩ := short lacking
    exact ⟨fault, by rw [Procedure.run_map, ran]⟩

theorem sized_byte : Sized byte 1 := by
  intro cursor
  cases rest : cursor.remaining with
  | nil =>
      have atEnd : cursor.data.length ≤ cursor.position := List.drop_eq_nil_iff.mp rest
      constructor
      · intro room
        exact absurd room (Nat.not_le.mpr (Nat.lt_succ_of_le atEnd))
      · intro _
        exact ⟨_, run_byte_of_nil rest⟩
  | cons value others =>
      have length := congrArg List.length rest
      rw [Cursor.remaining, List.length_drop, List.length_cons] at length
      constructor
      · intro _
        exact ⟨value, takes_byte value cursor others rest⟩
      · intro lacking
        omega

theorem sized_bytes (count : Nat) : Sized (bytes count) count := by
  intro cursor
  simp only [bytes]
  rw [Procedure.run_bind, Procedure.run_get]
  dsimp only
  constructor
  · intro room
    rw [if_pos room]
    exact ⟨_, rfl⟩
  · intro lacking
    rw [if_neg (Nat.not_le.mpr lacking)]
    exact ⟨_, rfl⟩

theorem sized_octets (n : Nat) : Sized (octets n) n := by
  intro cursor
  obtain ⟨enough, short⟩ := sized_bytes n cursor
  constructor
  · intro room
    obtain ⟨taken, ran⟩ := enough room
    obtain ⟨_, _, _, _, length⟩ := gives_bytes n _ _ _ ran
    have whole : Octets.ofList? taken = some ⟨taken, length⟩ := Octets.ofList?_eq_some_iff.mpr rfl
    refine ⟨⟨taken, length⟩, ?_⟩
    rw [octets, Procedure.run_bind_of_ok ran]
    rw [whole]
    rfl
  · intro lacking
    obtain ⟨fault, ran⟩ := short lacking
    exact ⟨fault, Procedure.run_bind_of_error ran⟩

theorem sized_publicKey : Sized publicKey 32 := (sized_octets 32).map PublicKey.mk

/-! ## Items -/

/-- What can be asked of a cursor. -/
inductive Item where
  | byte
  | varint
  | publicKey
  | bytes (count : UInt64)
deriving DecidableEq, Repr

namespace Item

/-- What an item is read as. -/
def Value : Item → Type
  | byte => UInt8
  | varint => UInt32
  | publicKey => PublicKey
  | bytes _ => Bytes

/-- Reads the item. -/
def reader : (item : Item) → Reader item.Value
  | byte => Reader.byte
  | varint => Reader.varint
  | publicKey => Reader.publicKey
  | bytes count => Reader.bytes count.toNat

/-- Reads the item on a machine. -/
def wordReader : (item : Item) → WordReader item.Value
  | byte => WordReader.byte
  | varint => WordReader.varint
  | publicKey => WordReader.publicKey
  | bytes count => WordReader.bytes count

/-- The number of its bytes, for an item that always has as many. -/
def size? : Item → Option Nat
  | byte => some 1
  | varint => none
  | publicKey => some 32
  | bytes count => some count.toNat

/-- The bytes in which the item has this value. -/
def Form : (item : Item) → Bytes → item.Value → Prop
  | byte => fun bytes value => bytes = [value]
  | varint => Varint.Spells
  | publicKey => fun bytes value => bytes = value.toBytes
  | bytes count => fun bytes value => bytes = value ∧ value.length = count.toNat

variable (item : Item)

theorem bounded : Bounded item.reader := by
  cases item with
  | byte => exact bounded_byte
  | varint => exact bounded_varint
  | publicKey => exact bounded_publicKey
  | bytes count => exact bounded_bytes count.toNat

theorem gives : Gives item.reader item.Form := by
  cases item with
  | byte => exact gives_byte
  | varint => exact gives_varint
  | publicKey => exact gives_publicKey
  | bytes count => exact gives_bytes count.toNat

/-- An item of a fixed size is read just when there are that many bytes. -/
theorem sized {size : Nat} (fixed : item.size? = some size) : Sized item.reader size := by
  cases item with
  | byte =>
      cases fixed
      exact sized_byte
  | varint => cases fixed
  | publicKey =>
      cases fixed
      exact sized_publicKey
  | bytes count =>
      cases fixed
      exact sized_bytes count.toNat

theorem keepsTo : WordReader.KeepsTo item.wordReader item.reader := by
  cases item with
  | byte => exact WordReader.keepsTo_byte
  | varint => exact WordReader.keepsTo_varint
  | publicKey => exact WordReader.keepsTo_publicKey
  | bytes count => exact WordReader.keepsTo_bytes count

end Item

end Reader

/-! ## Items one after another -/

namespace WordCursor

/-- The cursor before the first byte. -/
def start (data : Bytes) : WordCursor := ⟨data, 0⟩

/-- The cursor after these items were asked for, refused or not. -/
def after (cursor : WordCursor) (items : List Reader.Item) : WordCursor :=
  items.foldl (fun cursor item => (item.wordReader.run cursor).2) cursor

end WordCursor

namespace Cursor

/-- The cursor after these items were asked for, refused or not. -/
def after (cursor : Cursor) (items : List Reader.Item) : Cursor :=
  items.foldl (fun cursor item => (item.reader.run cursor).2) cursor

/-- The bytes from a cursor to another one that is further on. -/
def upTo (former latter : Cursor) : Bytes :=
  former.remaining.take (latter.position - former.position)

theorem upTo_advance {cursor : Cursor} {bytes behind : Bytes}
    (next : cursor.remaining = bytes ++ behind) :
    cursor.upTo (cursor.advance bytes.length) = bytes := by
  rw [upTo, next]
  dsimp only [advance]
  rw [Nat.add_sub_cancel_left, List.take_left]

/-- Whatever is asked of a cursor, it stays within the bytes and does not go back. -/
theorem reaches_after {cursor : Cursor} (within : cursor.position ≤ cursor.data.length)
    (items : List Reader.Item) : cursor.Reaches (cursor.after items) := by
  induction items generalizing cursor with
  | nil => exact ⟨rfl, Nat.le_refl _, within⟩
  | cons item others ih =>
      have reached := item.bounded cursor within
      exact reached.trans (ih reached.within)

/-- The machine's cursor comes to the same position. -/
theorem toWords_after {cursor : Cursor} (within : cursor.position ≤ cursor.data.length)
    (fits : cursor.data.length < UInt64.size) (items : List Reader.Item) :
    cursor.toWords.after items = (cursor.after items).toWords := by
  induction items generalizing cursor with
  | nil => rfl
  | cons item others ih =>
      have reached := item.bounded cursor within
      have same := item.keepsTo cursor within fits
      rw [← reached.data_eq] at fits
      have further := ih reached.within fits
      rw [WordCursor.after, List.foldl_cons, same]
      exact further

/-- **A cursor stays within its bytes, and accounts for all that it passes.** Let anything have
been asked of a cursor that was before the first byte, any number of times, refused or not. Then
it is within the same bytes, and what is left of them is all that is behind its position; and it
will not go back, whatever else is asked. An item that is read is the bytes between the position
before and the position after. An item of a fixed size is read if there are that many bytes, and
passes these; otherwise it is refused and passes none. A variable number passes five bytes at most,
read or refused, and only bytes that are there. A machine with words of 64 bits has come to the
same position, and does the same for any item and for the bytes that are left, so it never adds
beyond a word and never cuts a piece that is not there. -/
theorem accounted_after (data : Bytes) (items : List Reader.Item) (cursor : Cursor)
    (reached : (start data).after items = cursor) :
    (cursor.data = data ∧ cursor.position ≤ data.length ∧
      Reader.rest.run cursor = (.ok (data.drop cursor.position), cursor)) ∧
    (∀ further : List Reader.Item, cursor.position ≤ (cursor.after further).position) ∧
    (∀ (item : Reader.Item) (value : item.Value) (next : Cursor),
      item.reader.run cursor = (.ok value, next) → item.Form (cursor.upTo next) value) ∧
    (∀ (item : Reader.Item) (size : Nat), item.size? = some size →
      (cursor.position + size ≤ data.length →
        ∃ value, item.reader.run cursor = (.ok value, cursor.advance size)) ∧
      (data.length < cursor.position + size →
        ∃ fault, item.reader.run cursor = (.error fault, cursor))) ∧
    (∃ count ≤ 5, cursor.position + count ≤ data.length ∧
      (Reader.varint.run cursor).2 = cursor.advance count) ∧
    (data.length < UInt64.size →
      (WordCursor.start data).after items = cursor.toWords ∧
      cursor.toWords.position.toNat = cursor.position ∧
      WordReader.rest.run cursor.toWords = (.ok (data.drop cursor.position), cursor.toWords) ∧
      ∀ item : Reader.Item, item.wordReader.run cursor.toWords =
          ((item.reader.run cursor).1.mapError .fault, (item.reader.run cursor).2.toWords) ∧
        (item.wordReader.run cursor.toWords).1 ≠ .error .trap) := by
  subst reached
  have origin : (start data).position ≤ (start data).data.length := Nat.zero_le _
  have reaches := reaches_after origin items
  have same : ((start data).after items).data = data := reaches.data_eq
  have inside := reaches.within
  have within := inside
  rw [same] at within
  have left : Reader.rest.run ((start data).after items) =
      (.ok (data.drop ((start data).after items).position), (start data).after items) := by
    rw [Reader.run_rest, remaining, same]
  refine ⟨⟨same, within, left⟩, fun further => (reaches_after inside further).forward, ?_, ?_, ?_,
    ?_⟩
  · intro item value next ran
    obtain ⟨bytes, rfl, rest, form⟩ := item.gives _ _ _ ran
    rwa [upTo_advance rest]
  · intro item size fixed
    have sized := item.sized fixed ((start data).after items)
    rwa [same] at sized
  · obtain ⟨count, few, there, moved⟩ := Reader.moves_varint ((start data).after items)
    rw [remaining, List.length_drop, same] at there
    exact ⟨count, few, by omega, moved⟩
  · intro fits
    have narrow := fits
    rw [← same] at narrow
    refine ⟨toWords_after origin fits items,
      UInt64.toNat_ofNat_of_lt' (Nat.lt_of_le_of_lt within fits), ?_, fun item => ?_⟩
    · rw [WordReader.keepsTo_rest _ inside narrow, left]
      rfl
    · exact ⟨item.keepsTo _ inside narrow, (item.keepsTo).not_trap inside narrow⟩

/-- Two of three bytes are read, and then as many as a word can ask for are refused. -/
theorem accounted_after_refusal :
    (start [1, 2, 3]).after [.bytes 2, .bytes 0xFFFFFFFFFFFFFFFF] = ⟨[1, 2, 3], 2⟩ ∧
    (∃ fault, (Reader.Item.bytes 0xFFFFFFFFFFFFFFFF).reader.run ⟨[1, 2, 3], 2⟩ =
      (.error fault, ⟨[1, 2, 3], 2⟩)) ∧
    (Reader.Item.bytes 0xFFFFFFFFFFFFFFFF).wordReader.run ⟨[1, 2, 3], 2⟩ =
      (.error (.fault .missingBytes), ⟨[1, 2, 3], 2⟩) ∧
    ∃ value, Reader.Item.byte.reader.run ⟨[1, 2, 3], 2⟩ = (.ok value, ⟨[1, 2, 3], 3⟩) := by
  have came : (start [1, 2, 3]).after [.bytes 2, .bytes 0xFFFFFFFFFFFFFFFF] =
      ⟨[1, 2, 3], 2⟩ := by decide
  obtain ⟨_, _, _, sized, _, words⟩ := accounted_after [1, 2, 3] _ _ came
  obtain ⟨_, _, _, keeps⟩ := words (by decide)
  refine ⟨came, (sized (.bytes 0xFFFFFFFFFFFFFFFF) _ rfl).2 (by decide), ?_, ?_⟩
  · exact (keeps (.bytes 0xFFFFFFFFFFFFFFFF)).1
  · exact (sized .byte _ rfl).1 (by decide)

end Cursor

end Ratchet
