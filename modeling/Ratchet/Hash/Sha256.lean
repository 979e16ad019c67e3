import Ratchet.Octets.Integer

/-!
# SHA-256

The hash function of FIPS 180-4 that works on 32-bit words: the message is
padded to whole blocks of 64 bytes, each block is stretched to 64 words, and
those words are mixed into eight chaining words one after another. The hash
value is the eight words after the last block.
-/

set_option autoImplicit false

namespace Ratchet

namespace Sha256

/-! ## Constants -/

/-- The first 32 bits of the fractional parts of the cube roots of the first 64 primes. -/
def roundConstants : List UInt32 :=
  [
    0x428a2f98, 0x71374491, 0xb5c0fbcf, 0xe9b5dba5, 0x3956c25b, 0x59f111f1,
    0x923f82a4, 0xab1c5ed5, 0xd807aa98, 0x12835b01, 0x243185be, 0x550c7dc3,
    0x72be5d74, 0x80deb1fe, 0x9bdc06a7, 0xc19bf174, 0xe49b69c1, 0xefbe4786,
    0x0fc19dc6, 0x240ca1cc, 0x2de92c6f, 0x4a7484aa, 0x5cb0a9dc, 0x76f988da,
    0x983e5152, 0xa831c66d, 0xb00327c8, 0xbf597fc7, 0xc6e00bf3, 0xd5a79147,
    0x06ca6351, 0x14292967, 0x27b70a85, 0x2e1b2138, 0x4d2c6dfc, 0x53380d13,
    0x650a7354, 0x766a0abb, 0x81c2c92e, 0x92722c85, 0xa2bfe8a1, 0xa81a664b,
    0xc24b8b70, 0xc76c51a3, 0xd192e819, 0xd6990624, 0xf40e3585, 0x106aa070,
    0x19a4c116, 0x1e376c08, 0x2748774c, 0x34b0bcb5, 0x391c0cb3, 0x4ed8aa4a,
    0x5b9cca4f, 0x682e6ff3, 0x748f82ee, 0x78a5636f, 0x84c87814, 0x8cc70208,
    0x90befffa, 0xa4506ceb, 0xbef9a3f7, 0xc67178f2]

/-- The eight chaining words. -/
structure Chaining where
  a : UInt32
  b : UInt32
  c : UInt32
  d : UInt32
  e : UInt32
  f : UInt32
  g : UInt32
  h : UInt32

/-- The first 32 bits of the fractional parts of the square roots of the first eight primes. -/
def initial : Chaining :=
  ⟨0x6a09e667, 0xbb67ae85, 0x3c6ef372, 0xa54ff53a,
   0x510e527f, 0x9b05688c, 0x1f83d9ab, 0x5be0cd19⟩

/-! ## One block -/

/-- A word turned right by `amount` places. -/
def rotateRight (word amount : UInt32) : UInt32 :=
  (word >>> amount) ||| (word <<< (32 - amount))

/-- The mixing of an early word of the stretched block into a later one. -/
def smallSigmaZero (word : UInt32) : UInt32 :=
  rotateRight word 7 ^^^ rotateRight word 18 ^^^ (word >>> 3)

/-- The mixing of a recent word of the stretched block into a later one. -/
def smallSigmaOne (word : UInt32) : UInt32 :=
  rotateRight word 17 ^^^ rotateRight word 19 ^^^ (word >>> 10)

/-- Puts `count` more words before some, latest first; each is a sum of four of the last sixteen. -/
def prolong : (count : Nat) → (latest : List UInt32) → List UInt32
  | 0, latest => latest
  | count + 1, latest =>
    let next := smallSigmaOne (latest.getD 1 0) + latest.getD 6 0 +
      smallSigmaZero (latest.getD 14 0) + latest.getD 15 0
    prolong count (next :: latest)

/-- The 64 words of a block: its own sixteen, then each a sum of four before it. -/
def stretch (block : List UInt32) : List UInt32 := (prolong 48 block.reverse).reverse

/-- One round: two words are renewed and the others move down. -/
def Chaining.round (chaining : Chaining) (constant word : UInt32) : Chaining :=
  let ⟨a, b, c, d, e, f, g, h⟩ := chaining
  let choice := (e &&& f) ^^^ ((~~~e) &&& g)
  let majority := (a &&& b) ^^^ (a &&& c) ^^^ (b &&& c)
  let low := h + (rotateRight e 6 ^^^ rotateRight e 11 ^^^ rotateRight e 25) +
    choice + constant + word
  let high := (rotateRight a 2 ^^^ rotateRight a 13 ^^^ rotateRight a 22) + majority
  ⟨low + high, a, b, c, d + low, e, f, g⟩

/-- The word-by-word sum of two states. -/
def Chaining.add (first second : Chaining) : Chaining :=
  ⟨first.a + second.a, first.b + second.b, first.c + second.c, first.d + second.d,
   first.e + second.e, first.f + second.f, first.g + second.g, first.h + second.h⟩

/-- Mixes words into the state in order, each with its constant. -/
def Chaining.mix (chaining : Chaining) : (constants words : List UInt32) → Chaining
  | constant :: constants, word :: words => (chaining.round constant word).mix constants words
  | _, _ => chaining

/-- The state after one more block. -/
def Chaining.absorb (chaining : Chaining) (block : List UInt32) : Chaining :=
  chaining.add (chaining.mix roundConstants (stretch block))

/-! ## Messages -/

/-- The message, a one bit, zeros up to a whole number of blocks, and the length in bits. -/
def pad (message : Bytes) : Bytes :=
  message ++ 0x80 :: List.replicate ((119 - message.length % 64) % 64) 0 ++
    bigEndian 8 (8 * message.length)

/-- The words of some bytes, most significant byte first. -/
def words : Bytes → List UInt32
  | a :: b :: c :: d :: rest =>
    ((a.toUInt32 <<< 24) ||| (b.toUInt32 <<< 16) ||| (c.toUInt32 <<< 8) ||| d.toUInt32) ::
      words rest
  | _ => []

/-- Absorbs this many blocks of a padded message. -/
def Chaining.absorbAll : (count : Nat) → Chaining → Bytes → Chaining
  | 0, chaining, _ => chaining
  | count + 1, chaining, bytes =>
    absorbAll count (chaining.absorb (words (bytes.take 64))) (bytes.drop 64)

/-- The bytes of a word, most significant first. -/
def bytesOf (word : UInt32) : Octets 4 :=
  ⟨[(word >>> 24).toUInt8, (word >>> 16).toUInt8, (word >>> 8).toUInt8, word.toUInt8], rfl⟩

/-- The bytes of the eight words. -/
def Chaining.toOctets (chaining : Chaining) : Octets 32 :=
  (((bytesOf chaining.a).append (bytesOf chaining.b)).append
    ((bytesOf chaining.c).append (bytesOf chaining.d))).append
  (((bytesOf chaining.e).append (bytesOf chaining.f)).append
    ((bytesOf chaining.g).append (bytesOf chaining.h)))

end Sha256

/-- The SHA-256 hash value of a message. -/
def sha256 (message : Bytes) : Octets 32 :=
  let padded := Sha256.pad message
  (Sha256.initial.absorbAll (padded.length / 64) padded).toOctets

end Ratchet
