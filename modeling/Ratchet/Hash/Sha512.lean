import Ratchet.Octets.Integer

/-!
# SHA-512

The hash function of FIPS 180-4 that works on 64-bit words: the message is
padded to whole blocks of 128 bytes, each block is stretched to 80 words, and
those words are mixed into eight chaining words one after another. The hash
value is the eight words after the last block.
-/

set_option autoImplicit false

namespace Ratchet

namespace Sha512

/-! ## Constants -/

/-- The first 64 bits of the fractional parts of the cube roots of the first 80 primes. -/
def roundConstants : List UInt64 :=
  [
    0x428a2f98d728ae22, 0x7137449123ef65cd, 0xb5c0fbcfec4d3b2f, 0xe9b5dba58189dbbc,
    0x3956c25bf348b538, 0x59f111f1b605d019, 0x923f82a4af194f9b, 0xab1c5ed5da6d8118,
    0xd807aa98a3030242, 0x12835b0145706fbe, 0x243185be4ee4b28c, 0x550c7dc3d5ffb4e2,
    0x72be5d74f27b896f, 0x80deb1fe3b1696b1, 0x9bdc06a725c71235, 0xc19bf174cf692694,
    0xe49b69c19ef14ad2, 0xefbe4786384f25e3, 0x0fc19dc68b8cd5b5, 0x240ca1cc77ac9c65,
    0x2de92c6f592b0275, 0x4a7484aa6ea6e483, 0x5cb0a9dcbd41fbd4, 0x76f988da831153b5,
    0x983e5152ee66dfab, 0xa831c66d2db43210, 0xb00327c898fb213f, 0xbf597fc7beef0ee4,
    0xc6e00bf33da88fc2, 0xd5a79147930aa725, 0x06ca6351e003826f, 0x142929670a0e6e70,
    0x27b70a8546d22ffc, 0x2e1b21385c26c926, 0x4d2c6dfc5ac42aed, 0x53380d139d95b3df,
    0x650a73548baf63de, 0x766a0abb3c77b2a8, 0x81c2c92e47edaee6, 0x92722c851482353b,
    0xa2bfe8a14cf10364, 0xa81a664bbc423001, 0xc24b8b70d0f89791, 0xc76c51a30654be30,
    0xd192e819d6ef5218, 0xd69906245565a910, 0xf40e35855771202a, 0x106aa07032bbd1b8,
    0x19a4c116b8d2d0c8, 0x1e376c085141ab53, 0x2748774cdf8eeb99, 0x34b0bcb5e19b48a8,
    0x391c0cb3c5c95a63, 0x4ed8aa4ae3418acb, 0x5b9cca4f7763e373, 0x682e6ff3d6b2b8a3,
    0x748f82ee5defb2fc, 0x78a5636f43172f60, 0x84c87814a1f0ab72, 0x8cc702081a6439ec,
    0x90befffa23631e28, 0xa4506cebde82bde9, 0xbef9a3f7b2c67915, 0xc67178f2e372532b,
    0xca273eceea26619c, 0xd186b8c721c0c207, 0xeada7dd6cde0eb1e, 0xf57d4f7fee6ed178,
    0x06f067aa72176fba, 0x0a637dc5a2c898a6, 0x113f9804bef90dae, 0x1b710b35131c471b,
    0x28db77f523047d84, 0x32caab7b40c72493, 0x3c9ebe0a15c9bebc, 0x431d67c49c100d4c,
    0x4cc5d4becb3e42b6, 0x597f299cfc657e2a, 0x5fcb6fab3ad6faec, 0x6c44198c4a475817]

/-- The eight chaining words. -/
structure Chaining where
  a : UInt64
  b : UInt64
  c : UInt64
  d : UInt64
  e : UInt64
  f : UInt64
  g : UInt64
  h : UInt64

/-- The first 64 bits of the fractional parts of the square roots of the first eight primes. -/
def initial : Chaining :=
  ⟨0x6a09e667f3bcc908, 0xbb67ae8584caa73b, 0x3c6ef372fe94f82b, 0xa54ff53a5f1d36f1,
   0x510e527fade682d1, 0x9b05688c2b3e6c1f, 0x1f83d9abfb41bd6b, 0x5be0cd19137e2179⟩

/-! ## One block -/

/-- A word turned right by `amount` places. -/
def rotateRight (word amount : UInt64) : UInt64 :=
  (word >>> amount) ||| (word <<< (64 - amount))

/-- The mixing of an early word of the stretched block into a later one. -/
def smallSigmaZero (word : UInt64) : UInt64 :=
  rotateRight word 1 ^^^ rotateRight word 8 ^^^ (word >>> 7)

/-- The mixing of a recent word of the stretched block into a later one. -/
def smallSigmaOne (word : UInt64) : UInt64 :=
  rotateRight word 19 ^^^ rotateRight word 61 ^^^ (word >>> 6)

/-- Puts `count` more words before some, latest first; each is a sum of four of the last sixteen. -/
def prolong : (count : Nat) → (latest : List UInt64) → List UInt64
  | 0, latest => latest
  | count + 1, latest =>
    let next := smallSigmaOne (latest.getD 1 0) + latest.getD 6 0 +
      smallSigmaZero (latest.getD 14 0) + latest.getD 15 0
    prolong count (next :: latest)

/-- The 80 words of a block: its own sixteen, then each a sum of four before it. -/
def stretch (block : List UInt64) : List UInt64 := (prolong 64 block.reverse).reverse

/-- One round: two words are renewed and the others move down. -/
def Chaining.round (chaining : Chaining) (constant word : UInt64) : Chaining :=
  let ⟨a, b, c, d, e, f, g, h⟩ := chaining
  let choice := (e &&& f) ^^^ ((~~~e) &&& g)
  let majority := (a &&& b) ^^^ (a &&& c) ^^^ (b &&& c)
  let low := h + (rotateRight e 14 ^^^ rotateRight e 18 ^^^ rotateRight e 41) +
    choice + constant + word
  let high := (rotateRight a 28 ^^^ rotateRight a 34 ^^^ rotateRight a 39) + majority
  ⟨low + high, a, b, c, d + low, e, f, g⟩

/-- The word-by-word sum of two states. -/
def Chaining.add (first second : Chaining) : Chaining :=
  ⟨first.a + second.a, first.b + second.b, first.c + second.c, first.d + second.d,
   first.e + second.e, first.f + second.f, first.g + second.g, first.h + second.h⟩

/-- Mixes words into the state in order, each with its constant. -/
def Chaining.mix (chaining : Chaining) : (constants words : List UInt64) → Chaining
  | constant :: constants, word :: words => (chaining.round constant word).mix constants words
  | _, _ => chaining

/-- The state after one more block. -/
def Chaining.absorb (chaining : Chaining) (block : List UInt64) : Chaining :=
  chaining.add (chaining.mix roundConstants (stretch block))

/-! ## Messages -/

/-- The message, a one bit, zeros up to a whole number of blocks, and the length in bits. -/
def pad (message : Bytes) : Bytes :=
  message ++ 0x80 :: List.replicate ((239 - message.length % 128) % 128) 0 ++
    bigEndian 16 (8 * message.length)

/-- The words of some bytes, most significant byte first. -/
def words : Bytes → List UInt64
  | a :: b :: c :: d :: e :: f :: g :: h :: rest =>
    ((a.toUInt64 <<< 56) ||| (b.toUInt64 <<< 48) ||| (c.toUInt64 <<< 40) ||| (d.toUInt64 <<< 32) |||
      (e.toUInt64 <<< 24) ||| (f.toUInt64 <<< 16) ||| (g.toUInt64 <<< 8) ||| h.toUInt64) ::
      words rest
  | _ => []

/-- Absorbs this many blocks of a padded message. -/
def Chaining.absorbAll : (count : Nat) → Chaining → Bytes → Chaining
  | 0, chaining, _ => chaining
  | count + 1, chaining, bytes =>
    absorbAll count (chaining.absorb (words (bytes.take 128))) (bytes.drop 128)

/-- The bytes of a word, most significant first. -/
def bytesOf (word : UInt64) : Octets 8 :=
  ⟨[(word >>> 56).toUInt8, (word >>> 48).toUInt8, (word >>> 40).toUInt8, (word >>> 32).toUInt8,
    (word >>> 24).toUInt8, (word >>> 16).toUInt8, (word >>> 8).toUInt8, word.toUInt8], rfl⟩

/-- The bytes of the eight words. -/
def Chaining.toOctets (chaining : Chaining) : Octets 64 :=
  (((bytesOf chaining.a).append (bytesOf chaining.b)).append
    ((bytesOf chaining.c).append (bytesOf chaining.d))).append
  (((bytesOf chaining.e).append (bytesOf chaining.f)).append
    ((bytesOf chaining.g).append (bytesOf chaining.h)))

end Sha512

/-- The SHA-512 hash value of a message. -/
def sha512 (message : Bytes) : Octets 64 :=
  let padded := Sha512.pad message
  (Sha512.initial.absorbAll (padded.length / 128) padded).toOctets

end Ratchet
