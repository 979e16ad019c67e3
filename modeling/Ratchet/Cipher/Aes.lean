import Ratchet.Cipher.Substitution

/-!
# The block cipher

AES with a key of 256 bits (FIPS 197). A block is added to a round key and then
sent through fourteen rounds; a round replaces every byte, turns the rows,
mixes every column (the last round does not) and adds the next round key.
Decryption takes each of those steps back in the opposite order, and each step
stands here next to the one that undoes it.
-/

set_option autoImplicit false

namespace Ratchet

namespace Cipher

/-! ## Mixing columns -/

/-- The product of a byte and `x` in the field of 256 elements. -/
def double (byte : UInt8) : UInt8 := (byte <<< 1) ^^^ (if byte < 0x80 then 0 else 0x1B)

/-- The product of a byte and `x + 1`. -/
def triple (byte : UInt8) : UInt8 := double byte ^^^ byte

/-- Multiplies a column by the polynomial with the coefficients 3, 1, 1, 2. -/
def Column.mix (column : Column) : Column :=
  let ⟨a, b, c, d⟩ := column
  ⟨double a ^^^ triple b ^^^ c ^^^ d, a ^^^ double b ^^^ triple c ^^^ d,
   a ^^^ b ^^^ double c ^^^ triple d, triple a ^^^ b ^^^ c ^^^ double d⟩

/-- The product of a byte and 9, that is `x ^ 3 + 1`. -/
def ninefold (byte : UInt8) : UInt8 := double (double (double byte)) ^^^ byte

/-- The product of a byte and 11, that is `x ^ 3 + x + 1`. -/
def elevenfold (byte : UInt8) : UInt8 := double (double (double byte) ^^^ byte) ^^^ byte

/-- The product of a byte and 13, that is `x ^ 3 + x ^ 2 + 1`. -/
def thirteenfold (byte : UInt8) : UInt8 := double (double (double byte ^^^ byte)) ^^^ byte

/-- The product of a byte and 14, that is `x ^ 3 + x ^ 2 + x`. -/
def fourteenfold (byte : UInt8) : UInt8 := double (double (double byte ^^^ byte) ^^^ byte)

/-- Multiplies a column by the polynomial with the coefficients 11, 13, 9, 14. -/
def Column.unmix (column : Column) : Column :=
  let ⟨a, b, c, d⟩ := column
  ⟨fourteenfold a ^^^ elevenfold b ^^^ thirteenfold c ^^^ ninefold d,
   ninefold a ^^^ fourteenfold b ^^^ elevenfold c ^^^ thirteenfold d,
   thirteenfold a ^^^ ninefold b ^^^ fourteenfold c ^^^ elevenfold d,
   elevenfold a ^^^ thirteenfold b ^^^ ninefold c ^^^ fourteenfold d⟩

/-! ## Turning rows -/

/-- Turns each row left by its number, the top row being row zero. -/
def Block.turn (block : Block) : Block :=
  let ⟨p, q, r, s⟩ := block
  ⟨⟨p.top, q.second, r.third, s.bottom⟩, ⟨q.top, r.second, s.third, p.bottom⟩,
   ⟨r.top, s.second, p.third, q.bottom⟩, ⟨s.top, p.second, q.third, r.bottom⟩⟩

/-- Turns each row right by its number. -/
def Block.unturn (block : Block) : Block :=
  let ⟨p, q, r, s⟩ := block
  ⟨⟨p.top, s.second, r.third, q.bottom⟩, ⟨q.top, p.second, s.third, r.bottom⟩,
   ⟨r.top, q.second, p.third, s.bottom⟩, ⟨s.top, r.second, q.third, p.bottom⟩⟩

@[simp]
theorem Block.unturn_turn (block : Block) : block.turn.unturn = block := rfl

@[simp]
theorem Block.turn_unturn (block : Block) : block.unturn.turn = block := rfl

/-! ## Rounds -/

/-- A middle round. -/
def Block.round (block key : Block) : Block :=
  ((block.map (Column.map replace)).turn.map Column.mix).xor key

/-- A middle round taken back. -/
def Block.unround (key block : Block) : Block :=
  ((block.xor key).map Column.unmix).unturn.map (Column.map restore)

/-- The last round, which does not mix. -/
def Block.lastRound (block key : Block) : Block :=
  (block.map (Column.map replace)).turn.xor key

/-- The last round taken back. -/
def Block.unlastRound (key block : Block) : Block :=
  (block.xor key).unturn.map (Column.map restore)

/-! ## Round keys -/

/-- The key before the first round, those of the middle rounds, and that of the last round. -/
structure RoundKeys where
  first : Block
  middle : List Block
  last : Block

/-- The columns that follow: each is the sum of the one above it in the block and the one before. -/
def Block.follow (block : Block) (before : Column) : Block :=
  let p := block.first.xor before
  let q := block.second.xor p
  let r := block.third.xor q
  ⟨p, q, r, block.fourth.xor r⟩

/-- The column turned up by one, replaced, and marked with the round's constant. -/
def Column.stir (constant : UInt8) (column : Column) : Column :=
  ⟨replace column.second ^^^ constant, replace column.third, replace column.bottom,
   replace column.top⟩

/-- The middle keys from the second half of a key pair on, and the last key after them. -/
def laterKeys : (count : Nat) → (constant : UInt8) → (even odd : Block) → List Block × Block
  | 0, constant, even, odd => ([odd], even.follow (odd.fourth.stir constant))
  | count + 1, constant, even, odd =>
    let nextEven := even.follow (odd.fourth.stir constant)
    let nextOdd := odd.follow (nextEven.fourth.map replace)
    let (middle, last) := laterKeys count (double constant) nextEven nextOdd
    (odd :: nextEven :: middle, last)

/-- The fifteen round keys of a key of 256 bits. -/
def RoundKeys.ofKey (key : Octets 32) : RoundKeys :=
  let even := Block.ofBytes key.toList
  let odd := Block.ofBytes (key.toList.drop 16)
  let (middle, last) := laterKeys 6 1 even odd
  ⟨even, middle, last⟩

/-! ## The cipher -/

/-- Encrypts a block under round keys. -/
def RoundKeys.encrypt (keys : RoundKeys) (block : Block) : Block :=
  (keys.middle.foldl Block.round (block.xor keys.first)).lastRound keys.last

/-- Decrypts a block under round keys. -/
def RoundKeys.decrypt (keys : RoundKeys) (block : Block) : Block :=
  (keys.middle.foldr Block.unround (Block.unlastRound keys.last block)).xor keys.first

/-- The block cipher under a key of 256 bits. -/
def aes256 (key : Octets 32) : Permutation :=
  let keys := RoundKeys.ofKey key
  ⟨keys.encrypt, keys.decrypt⟩

end Cipher

end Ratchet
