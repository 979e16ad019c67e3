import Ratchet.Hash.Sha256

/-!
# Keyed hashing

HMAC over SHA-256 (RFC 2104): the message is hashed behind the key masked with
one constant, and that hash value again behind the key masked with another. A
key of more than one block is replaced by its hash value, and a shorter one is
filled up with zeros, so appending zeros to a short key changes nothing.
-/

set_option autoImplicit false

namespace Ratchet

namespace Hmac

/-- The key as one block of 64 bytes. -/
def blockKey (key : Bytes) : Bytes :=
  let short := if key.length ≤ 64 then key else (sha256 key).toList
  short ++ List.replicate (64 - short.length) 0

end Hmac

/-- The HMAC-SHA-256 value of a message under a key of any length. -/
def hmac (key message : Bytes) : Octets 32 :=
  let block := Hmac.blockKey key
  let inner := sha256 (block.map (· ^^^ 0x36) ++ message)
  sha256 (block.map (· ^^^ 0x5C) ++ inner.toList)

end Ratchet
