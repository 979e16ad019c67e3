import Ratchet.Hash.Sha256

/-!
# Random bytes

A source of random bytes is either a stock of them, which runs out, or a seed
that is stretched without end: block `i` of a stretched seed is the hash value
of the seed and the number `i`, and the blocks follow each other without gaps.
Taking more than a stock holds takes nothing.
-/

set_option autoImplicit false

namespace Ratchet

/-- A source of random bytes. -/
inductive Entropy where
  /-- A stock of bytes. -/
  | stock (bytes : Bytes)
  /-- A seed, and how many bytes of its stream are used up. -/
  | seeded (seed : Bytes) (used : Nat)
deriving DecidableEq

namespace Entropy

/-- A block of the stream of a seed. -/
def block (seed : Bytes) (number : Nat) : Octets 32 := sha256 (seed ++ littleEndian 8 number)

/-- The bytes of `count` blocks of the stream of a seed, from this one on. -/
def blocks (seed : Bytes) (first : Nat) : (count : Nat) → Bytes
  | 0 => []
  | count + 1 => (block seed first).toList ++ blocks seed (first + 1) count

/-- Part of the stream of a seed. -/
def stream (seed : Bytes) (start count : Nat) : Bytes :=
  ((blocks seed (start / 32) (count / 32 + 2)).drop (start % 32)).take count

/-- The next `n` bytes, and the source after them. -/
def take? (source : Entropy) (n : Nat) : Option (Octets n × Entropy) :=
  match source with
  | .stock bytes => (Octets.ofList? (bytes.take n)).map fun taken => (taken, .stock (bytes.drop n))
  | .seeded seed used =>
    (Octets.ofList? (stream seed used n)).map fun taken => (taken, .seeded seed (used + n))

end Entropy

end Ratchet
