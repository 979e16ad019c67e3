import Ratchet.Cipher.Aes
import Ratchet.Cipher.Chained

/-!
# The message cipher

Message bodies are encrypted with AES under a key of 256 bits in chained
blocks, with the padding that says its own length.
-/

set_option autoImplicit false

namespace Ratchet

/-- Encrypts a message of any length under a key and an initialisation vector. -/
def encryptBody (key : Octets 32) (vector : Octets 16) (message : Bytes) : Bytes :=
  Cipher.encrypt (Cipher.aes256 key) (Cipher.Block.ofBytes vector.toList) message

/-- Decrypts a body under a key and an initialisation vector. -/
def decryptBody (key : Octets 32) (vector : Octets 16) (body : Bytes) :
    Except CipherFault Bytes :=
  Cipher.decrypt (Cipher.aes256 key) (Cipher.Block.ofBytes vector.toList) body

end Ratchet
