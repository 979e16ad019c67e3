import Ratchet.Cipher.Padding

/-!
# Chained blocks

Cipher block chaining over any permutation of blocks: each block of the padded
message is added to the encrypted block before it, the first one to an
initialisation vector, and then encrypted. Decryption refuses a ciphertext that
is empty or not of whole blocks before it looks at the key, and a wrong padding
after it.

If the permutation's two directions undo each other, so do these
(`decryptBlocks_encryptBlocks`, `encryptBlocks_decryptBlocks`).
-/

set_option autoImplicit false

namespace Ratchet

/-- Why a ciphertext cannot be decrypted. -/
inductive CipherFault where
  /-- The ciphertext is empty or ends inside a block. -/
  | partialBlock (length : Nat)
  /-- The padding is not well formed. -/
  | badPadding
deriving DecidableEq, Repr

/-- The text of a cipher fault. -/
def CipherFault.message : CipherFault → String
  | .partialBlock length =>
    s!"ciphertext length {length} is not a positive multiple of the block size"
  | .badPadding => "bad padding"

namespace Cipher

/-- Encrypts blocks one after another; `previous` is the encrypted block before them. -/
def encryptBlocks (permutation : Permutation) (previous : Block) : List Block → List Block
  | [] => []
  | block :: rest =>
    let encrypted := permutation.encrypt (block.xor previous)
    encrypted :: encryptBlocks permutation encrypted rest

/-- Decrypts blocks one after another; `previous` is the encrypted block before them. -/
def decryptBlocks (permutation : Permutation) (previous : Block) : List Block → List Block
  | [] => []
  | encrypted :: rest =>
    (permutation.decrypt encrypted).xor previous :: decryptBlocks permutation encrypted rest

@[simp]
theorem length_encryptBlocks (permutation : Permutation) (previous : Block) (blocks : List Block) :
    (encryptBlocks permutation previous blocks).length = blocks.length := by
  induction blocks generalizing previous with
  | nil => rfl
  | cons block rest hypothesis => simp [encryptBlocks, hypothesis]

@[simp]
theorem length_decryptBlocks (permutation : Permutation) (previous : Block) (blocks : List Block) :
    (decryptBlocks permutation previous blocks).length = blocks.length := by
  induction blocks generalizing previous with
  | nil => rfl
  | cons block rest hypothesis => simp [decryptBlocks, hypothesis]

/-- Decryption undoes encryption, if it does so block by block. -/
theorem decryptBlocks_encryptBlocks {permutation : Permutation}
    (inverse : ∀ block, permutation.decrypt (permutation.encrypt block) = block)
    (previous : Block) (blocks : List Block) :
    decryptBlocks permutation previous (encryptBlocks permutation previous blocks) = blocks := by
  induction blocks generalizing previous with
  | nil => rfl
  | cons block rest hypothesis => simp [encryptBlocks, decryptBlocks, inverse, hypothesis]

/-- Encryption undoes decryption, if it does so block by block. -/
theorem encryptBlocks_decryptBlocks {permutation : Permutation}
    (inverse : ∀ block, permutation.encrypt (permutation.decrypt block) = block)
    (previous : Block) (blocks : List Block) :
    encryptBlocks permutation previous (decryptBlocks permutation previous blocks) = blocks := by
  induction blocks generalizing previous with
  | nil => rfl
  | cons block rest hypothesis => simp [encryptBlocks, decryptBlocks, inverse, hypothesis]

/-- The encrypted form of a message of any length. -/
def encrypt (permutation : Permutation) (vector : Block) (message : Bytes) : Bytes :=
  Block.join (encryptBlocks permutation vector (Block.split (pad message)))

/-- The message behind a ciphertext, or why there is none. -/
def decrypt (permutation : Permutation) (vector : Block) (ciphertext : Bytes) :
    Except CipherFault Bytes :=
  if ciphertext.length = 0 ∨ ciphertext.length % 16 ≠ 0 then
    .error (.partialBlock ciphertext.length)
  else
    match unpad? (Block.join (decryptBlocks permutation vector (Block.split ciphertext))) with
    | some message => .ok message
    | none => .error .badPadding

end Cipher

end Ratchet
