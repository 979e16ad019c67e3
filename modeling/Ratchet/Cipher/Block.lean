import Ratchet.Octets.Basic

/-!
# Cipher blocks

A cipher block is sixteen bytes in four columns of four, filled column by
column. `Block.ofBytes` cuts the first sixteen bytes off a byte string,
`Block.toBytes` writes them back, and `Block.split` cuts a byte string into as
many blocks as it holds whole. `Permutation` is what a block cipher is under one
key: a way to replace a block and a way back.
-/

set_option autoImplicit false

namespace Ratchet

namespace Cipher

/-- Four bytes, top row first. -/
structure Column where
  top : UInt8
  second : UInt8
  third : UInt8
  bottom : UInt8
deriving DecidableEq, Repr

/-- Sixteen bytes in four columns. -/
structure Block where
  first : Column
  second : Column
  third : Column
  fourth : Column
deriving DecidableEq, Repr

/-- What a block cipher does under one key, and how it is undone. -/
structure Permutation where
  encrypt : Block → Block
  decrypt : Block → Block

/-! ## Bytewise operations -/

/-- The bitwise sum of two columns. -/
def Column.xor (left right : Column) : Column :=
  ⟨left.top ^^^ right.top, left.second ^^^ right.second, left.third ^^^ right.third,
   left.bottom ^^^ right.bottom⟩

/-- One replacement for every byte of a column. -/
def Column.map (replace : UInt8 → UInt8) (column : Column) : Column :=
  ⟨replace column.top, replace column.second, replace column.third, replace column.bottom⟩

/-- The bitwise sum of two blocks. -/
def Block.xor (left right : Block) : Block :=
  ⟨left.first.xor right.first, left.second.xor right.second, left.third.xor right.third,
   left.fourth.xor right.fourth⟩

/-- One replacement for every column of a block. -/
def Block.map (replace : Column → Column) (block : Block) : Block :=
  ⟨replace block.first, replace block.second, replace block.third, replace block.fourth⟩

/-- Adding the same column twice changes nothing. -/
@[simp]
theorem Column.xor_xor_cancel (left right : Column) : (left.xor right).xor right = left := by
  simp only [Column.xor, UInt8.xor_assoc, UInt8.xor_self, UInt8.xor_zero]

/-- Adding the same block twice changes nothing. -/
@[simp]
theorem Block.xor_xor_cancel (left right : Block) : (left.xor right).xor right = left := by
  simp [Block.xor]

/-! ## Blocks and bytes -/

/-- The first four bytes as a column, with zeros for those that are missing. -/
def Column.ofBytes : Bytes → Column
  | top :: second :: third :: bottom :: _ => ⟨top, second, third, bottom⟩
  | _ => ⟨0, 0, 0, 0⟩

/-- The bytes of a column. -/
def Column.toBytes (column : Column) : Bytes :=
  [column.top, column.second, column.third, column.bottom]

/-- The first sixteen bytes as a block. -/
def Block.ofBytes (bytes : Bytes) : Block :=
  ⟨.ofBytes bytes, .ofBytes (bytes.drop 4), .ofBytes (bytes.drop 8), .ofBytes (bytes.drop 12)⟩

/-- The bytes of a block, column by column. -/
def Block.toBytes (block : Block) : Bytes :=
  block.first.toBytes ++ (block.second.toBytes ++ (block.third.toBytes ++ block.fourth.toBytes))

@[simp]
theorem Block.length_toBytes (block : Block) : block.toBytes.length = 16 := rfl

/-- Cutting a written block off the front of a byte string gives that block. -/
@[simp]
theorem Block.ofBytes_toBytes_append (block : Block) (rest : Bytes) :
    Block.ofBytes (block.toBytes ++ rest) = block := rfl

/-- The first `count` blocks of a byte string. -/
def Block.cut : (count : Nat) → Bytes → List Block
  | 0, _ => []
  | count + 1, bytes => Block.ofBytes bytes :: Block.cut count (bytes.drop 16)

/-- The whole blocks of a byte string. -/
def Block.split (bytes : Bytes) : List Block := Block.cut (bytes.length / 16) bytes

/-- The bytes of several blocks. -/
def Block.join (blocks : List Block) : Bytes := blocks.flatMap Block.toBytes

@[simp]
theorem Block.length_join (blocks : List Block) :
    (Block.join blocks).length = 16 * blocks.length := by
  induction blocks with
  | nil => rfl
  | cons block rest hypothesis =>
    simp only [join, List.flatMap_cons, List.length_append, length_toBytes, List.length_cons]
      at hypothesis ⊢
    omega

/-- Blocks that are written out and cut again are the same blocks. -/
@[simp]
theorem Block.split_join (blocks : List Block) : Block.split (Block.join blocks) = blocks := by
  induction blocks with
  | nil => rfl
  | cons block rest hypothesis =>
    have count : (16 * rest.length + 16) / 16 = rest.length + 1 := by omega
    have same : rest.length = 16 * rest.length / 16 := by omega
    have dropped : (block.toBytes ++ rest.flatMap Block.toBytes).drop 16 =
        rest.flatMap Block.toBytes := rfl
    simp only [split, length_join] at hypothesis
    simp only [split, length_join, List.length_cons, Nat.mul_add, Nat.mul_one, count, cut]
    simp only [join, List.flatMap_cons, ofBytes_toBytes_append, dropped] at hypothesis ⊢
    rw [← same] at hypothesis
    rw [hypothesis]

end Cipher

end Ratchet
