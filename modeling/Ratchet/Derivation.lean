import Ratchet.Hash.Hmac

/-!
# Key derivation

HKDF over SHA-256 in the two versions of the protocol. Both condense the input
under a salt into one key (`Kdf.extract`) and stretch that key block by block,
where each block is the keyed hash of the block before it, the label and a block
number (`Kdf.blocks`). The versions differ in the first block number: version 2
counts from zero and version 3, which is RFC 5869, from one.

A block number is one byte, so at most 255 blocks can be asked for. The length of
an output is a word of 64 bits, and each version checks it in its own way.
Version 2 counts the blocks, refuses if they are too many, and makes room for the
output then (`Kdf.stretch`). Version 3 makes room for the output first, and the
library that is to fill it refuses if that is too long (`Kdf.fill`). A buffer has
a greatest length, and whoever asks for more room than that is not refused: the
call stops there and does not return (`Kdf.makeRoom`). That memory may run out
before is left out.

A short output has exactly the length that was asked for (`Kdf.output`, whose type
says so).
-/

set_option autoImplicit false

namespace Ratchet

/-- The versions of key derivation. -/
inductive Kdf where
  | v2
  | v3
deriving DecidableEq, Repr

/-- Why there is no key material. -/
inductive DerivationFault where
  /-- More than 255 blocks were counted. -/
  | outputTooLong (length : UInt64)
  /-- More bytes were asked of the library than 255 blocks have. -/
  | tooManyBlocks
  /-- There is no room for so many bytes. This is no refusal: the call does not return. -/
  | capacityOverflow
deriving DecidableEq, Repr

/-- The text of a derivation fault. -/
def DerivationFault.message : DerivationFault → String
  | .outputTooLong length => s!"output too long: {length}"
  | .tooManyBlocks => "invalid number of blocks, too large output"
  | .capacityOverflow => "capacity overflow"

namespace Kdf

/-- The name of the version. -/
def name : Kdf → String
  | .v2 => "V2"
  | .v3 => "V3"

/-- The number of the first block. -/
def firstBlock : Kdf → UInt8
  | .v2 => 0
  | .v3 => 1

/-- The greatest length of a buffer: half of the addresses, less one. -/
def maxBuffer : UInt64 := 0x7FFFFFFFFFFFFFFF

/-- Condenses the input into one key; without a salt, under 32 zero bytes. -/
def extract (salt : Option Bytes) (input : Bytes) : Octets 32 :=
  hmac (salt.getD (List.replicate 32 0)) input

/-- The next `count` blocks; `previous` is the block before them, `number` that of the first. -/
def blocks (key : Octets 32) (label : Bytes) : (count : Nat) → (previous : Bytes) → UInt8 → Bytes
  | 0, _, _ => []
  | count + 1, previous, number =>
    let block := (hmac key.toList (previous ++ label ++ [number])).toList
    block ++ blocks key label count block (number + 1)

@[simp]
theorem length_blocks (key : Octets 32) (label : Bytes) (count : Nat) (previous : Bytes)
    (number : UInt8) : (blocks key label count previous number).length = 32 * count := by
  induction count generalizing previous number with
  | zero => rfl
  | succ count hypothesis =>
    simp only [blocks, List.length_append, Octets.length_toList, hypothesis]
    omega

/-- Stretches a key to `length` bytes, numbering the blocks from `number`. -/
def expand (key : Octets 32) (label : Bytes) (length : Nat) (number : UInt8) : Octets length where
  toList := (blocks key label ((length + 31) / 32) [] number).take length
  length_toList := by
    simp only [List.length_take, length_blocks]
    omega

/-- Key material of a given length. -/
def output (kdf : Kdf) (input : Bytes) (salt : Option Bytes) (label : Bytes) (length : Nat) :
    Octets length :=
  expand (extract salt input) label length kdf.firstBlock

/-- Makes room for so many bytes. -/
def makeRoom (length : UInt64) : Except DerivationFault Unit :=
  if length ≤ maxBuffer then .ok () else .error .capacityOverflow

/-- How many blocks an output takes. The sum starts again from zero where it is no word. -/
def blockCount (length : UInt64) : UInt64 := (length + 32 - 1) / 32

/-- Counts the blocks of an output, makes room for it and stretches the key to it, numbering the
blocks from `number`. -/
def stretch (key : Octets 32) (label : Bytes) (length : UInt64) (number : UInt8) :
    Except DerivationFault Bytes := do
  if 255 < blockCount length then throw (.outputTooLong length)
  makeRoom length
  return (blocks key label (blockCount length).toNat [] number).take length.toNat

/-- Makes room for an output and lets the library fill it, which takes at most 255 times the size
of a block. -/
def fill (key : Octets 32) (label : Bytes) (length : UInt64) : Except DerivationFault Bytes := do
  makeRoom length
  if 32 * 255 < length then throw .tooManyBlocks
  return (expand key label length.toNat 1).toList

/-- Key material of a given length. -/
def derive (kdf : Kdf) (input : Bytes) (salt : Option Bytes) (label : Bytes) (length : UInt64) :
    Except DerivationFault Bytes :=
  match kdf with
  | .v2 => stretch (extract salt input) label length 0
  | .v3 => fill (extract salt input) label length

end Kdf

end Ratchet
