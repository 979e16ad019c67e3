import Ratchet.Derivation
import Ratchet.Key

/-!
# Chains of keys

A chain key is worth one message: it gives the keys of the message at its index
and the chain key after it, and from neither can it be found again. The chain
ends at the largest index, behind which there is no next key (`ChainKey.next?`).

A root key and a shared secret give the next root key and the first chain key
of a new chain.

`ChainKey.walk` passes several positions at once, and collects their keys in
order.
-/

set_option autoImplicit false

namespace Ratchet

/-- The keys of one message. -/
structure MessageKeys where
  cipherKey : Octets 32
  macKey : Octets 32
  vector : Octets 16
  counter : UInt32
deriving DecidableEq

/-- A position in a chain of keys. -/
structure ChainKey where
  kdf : Kdf
  key : Octets 32
  index : UInt32
deriving DecidableEq

/-- What new chains are made from. -/
structure RootKey where
  kdf : Kdf
  key : Octets 32
deriving DecidableEq

namespace MessageKeys

/-- The keys as they appear in a description. -/
def describe (keys : MessageKeys) : String :=
  "MessageKeys \x7b counter: " ++ toString keys.counter ++ ", .. \x7d"

end MessageKeys

namespace ChainKey

/-- What the keys of a message are stretched with. -/
def messageLabel : Bytes := "WhisperMessageKeys".toUTF8.toList

/-- The keys of the message at this position. -/
def messageKeys (chain : ChainKey) : MessageKeys :=
  let input := (hmac chain.key.toList [1]).toList
  let material : Octets (32 + (32 + 16)) := chain.kdf.output input none messageLabel 80
  ⟨material.take, material.drop.take, material.drop.drop, chain.index⟩

/-- The next position; the index after the largest is zero, so callers ask `next?`. -/
def step (chain : ChainKey) : ChainKey :=
  { chain with key := hmac chain.key.toList [2], index := chain.index + 1 }

/-- The next position, if there is one. -/
def next? (chain : ChainKey) : Option ChainKey :=
  if chain.index = 0xFFFFFFFF then none else some chain.step

/-- The keys of the next `count` messages, and the position after them. -/
def walk : (count : Nat) → ChainKey → List MessageKeys × ChainKey
  | 0, chain => ([], chain)
  | count + 1, chain =>
    let (keys, final) := walk count chain.step
    (chain.messageKeys :: keys, final)

/-- The chain key as it appears in a description. -/
def describe (chain : ChainKey) : String :=
  "ChainKey \x7b kdf: " ++ chain.kdf.name ++ ", index: " ++ toString chain.index ++ ", .. \x7d"

end ChainKey

namespace RootKey

/-- What a root key is stretched with. -/
def ratchetLabel : Bytes := "WhisperRatchet".toUTF8.toList

/-- The root key and the chain that follow when both sides know a new shared secret. -/
def turn (root : RootKey) (secret : Octets 32) : RootKey × ChainKey :=
  let material : Octets (32 + 32) :=
    root.kdf.output secret.toList (some root.key.toList) ratchetLabel 64
  (⟨root.kdf, material.take⟩, ⟨root.kdf, material.drop, 0⟩)

/-- The root key as it appears in a description. -/
def describe (root : RootKey) : String :=
  "RootKey \x7b kdf: " ++ root.kdf.name ++ ", .. \x7d"

end RootKey

end Ratchet
