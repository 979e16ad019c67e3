import Ratchet.Chain
import Ratchet.Curve.Edwards
import Ratchet.Entropy
import Ratchet.Error
import Ratchet.Procedure

/-!
# Suites of primitives

A suite is what the protocol needs of public-key cryptography: the public half
of a private key, agreement on a secret, signing and verifying. The classic
suite agrees over Curve25519 and signs with the same keys.

Using a suite takes a `Supply`: random bytes, and allowances that say how often
a primitive may still be used, as with a key service that can become
unavailable. An `Attempt` is a procedure on a supply: what it has taken stays
taken when it fails later.
-/

set_option autoImplicit false

namespace Ratchet

/-- The public-key primitives of the protocol. -/
structure Suite where
  /-- The number that names the suite. -/
  id : UInt16
  /-- The public half of a private key. -/
  publicKey : PrivateKey → PublicKey
  /-- What a private key and another party's public key agree on. -/
  agree : PrivateKey → PublicKey → Octets 32
  /-- The signature of a message, made with these random bytes. -/
  sign : PrivateKey → Bytes → Octets 64 → Octets 64
  /-- Whether these bytes are a signature of a message. -/
  verify : PublicKey → (message signature : Bytes) → Bool

/-- X25519 agreement, and XEdDSA signatures with the same keys. -/
def Suite.classic : Suite where
  id := Limits.classicSuite
  publicKey secret := ⟨Curve.publicKey secret.octets⟩
  agree secret key := Curve.agree secret.octets key.octets
  sign secret message random :=
    Curve.Signature.sign Curve.Edwards.group secret.octets message random
  verify key message signature :=
    Curve.Signature.verify Curve.Edwards.group key.octets message signature

/-! ## Supplies -/

/-- How often a primitive may still be used, and what is said when it may not. -/
inductive Allowance where
  | unlimited
  | limited (uses : Nat) (refusal : String)
deriving DecidableEq

/-- The allowance after one more use. -/
def Allowance.spend : Allowance → Except String Allowance
  | .unlimited => .ok .unlimited
  | .limited 0 refusal => .error refusal
  | .limited (uses + 1) refusal => .ok (.limited uses refusal)

/-- What using a suite takes. -/
structure Supply where
  entropy : Entropy
  generation : Allowance := .unlimited
  agreement : Allowance := .unlimited
  verification : Allowance := .unlimited
deriving DecidableEq

/-- A computation that takes from a supply and may fail. -/
abbrev Attempt (α : Type) := Procedure Supply SessionError α

namespace Attempt

/-- Random bytes, or the given failure where the source has too few. -/
def random (n : Nat) (failure : SessionError) : Attempt (Octets n) := do
  let supply ← get
  match supply.entropy.take? n with
  | none => throw failure
  | some (bytes, entropy) =>
    set { supply with entropy }
    return bytes

end Attempt

namespace Suite

variable (suite : Suite)

/-- A new key pair, whose private half is 32 random bytes as they are. -/
def generate : Attempt KeyPair := do
  let supply ← get
  match supply.generation.spend with
  | .error refusal => throw (.primitive (.keyGeneration refusal))
  | .ok generation =>
    set { supply with generation }
    let secret ← Attempt.random 32 (.primitive (.keyGeneration "entropy exhausted"))
    return ⟨suite.publicKey ⟨secret⟩, ⟨secret⟩⟩

/-- Agrees on a secret. -/
def agreeOn (secret : PrivateKey) (key : PublicKey) : Attempt (Octets 32) := do
  let supply ← get
  match supply.agreement.spend with
  | .error refusal => throw (.primitive (.agreement refusal))
  | .ok agreement =>
    set { supply with agreement }
    return suite.agree secret key

/-- Signs a message with 64 random bytes. -/
def signMessage (secret : PrivateKey) (message : Bytes) : Attempt (Octets 64) := do
  let random ← Attempt.random 64 (.primitive (.signing "entropy exhausted"))
  return suite.sign secret message random

/-- Verifies a signature; where that is no longer allowed, nothing is a signature. -/
def isSignature (key : PublicKey) (message signature : Bytes) : Attempt Bool := do
  let supply ← get
  match supply.verification.spend with
  | .error _ => return false
  | .ok verification =>
    set { supply with verification }
    return suite.verify key message signature

/-- The root key and the chain that follow an agreement between our pair and their key. -/
def turn (root : RootKey) (theirs : PublicKey) (ours : KeyPair) : Attempt (RootKey × ChainKey) := do
  return root.turn (← suite.agreeOn ours.privateKey theirs)

end Suite

end Ratchet
