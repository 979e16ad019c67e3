import Ratchet.Session.Basic
import Ratchet.Suite

/-!
# Starting a session

Extended triple Diffie-Hellman. The initiator combines its identity and a fresh
base key with the responder's identity, signed prekey and perhaps one-time
prekey, and the responder does the same with the other halves, so that both
derive one root key and one chain. The initiator receives on that chain and at
once makes another one to send on; the responder sends on it.

Two parties that start at the same moment and know each other's keys let the
order of their base keys decide who is the initiator.
-/

set_option autoImplicit false

namespace Ratchet

/-- What the initiator of a session knows. -/
structure InitiatorTerms where
  ourIdentity : KeyPair
  ourBase : KeyPair
  theirIdentity : PublicKey
  theirSignedPrekey : PublicKey
  theirOneTimePrekey : Option PublicKey
  theirRatchet : PublicKey

/-- What the responder of a session knows. -/
structure ResponderTerms where
  ourIdentity : KeyPair
  ourSignedPrekey : KeyPair
  ourOneTimePrekey : Option KeyPair
  ourRatchet : KeyPair
  theirIdentity : PublicKey
  theirBase : PublicKey

/-- What each of two parties knows that start at the same moment. -/
structure SymmetricTerms where
  ourBase : KeyPair
  ourRatchet : KeyPair
  ourIdentity : KeyPair
  theirBase : PublicKey
  theirRatchet : PublicKey
  theirIdentity : PublicKey

namespace Handshake

/-- What the agreed secrets follow, so that no secret of another use has this form. -/
def preamble : Bytes := List.replicate 32 0xFF

/-- What the first keys are stretched with. -/
def label : Bytes := "WhisperText".toUTF8.toList

/-- The first root key and the first chain of a session with these agreed secrets. -/
def derive (secrets : List (Octets 32)) : RootKey × ChainKey :=
  let material : Octets (32 + 32) :=
    Kdf.v3.output (preamble ++ secrets.flatMap Octets.toList) none label 64
  (⟨.v3, material.take⟩, ⟨.v3, material.drop, 0⟩)

/-- Agrees on one more secret if there is a one-time prekey. -/
def agreeOneTime {α : Type} (agree : α → Attempt (Octets 32)) :
    Option α → Attempt (List (Octets 32))
  | none => return []
  | some oneTime => return [← agree oneTime]

end Handshake

namespace Session

variable (suite : Suite)

/-- The initiator's side of a new session. -/
def initiate (terms : InitiatorTerms) : Attempt Session := do
  let first ← suite.agreeOn terms.ourIdentity.privateKey terms.theirSignedPrekey
  let second ← suite.agreeOn terms.ourBase.privateKey terms.theirIdentity
  let third ← suite.agreeOn terms.ourBase.privateKey terms.theirSignedPrekey
  let fourth ←
    Handshake.agreeOneTime (suite.agreeOn terms.ourBase.privateKey) terms.theirOneTimePrekey
  let (root, receiving) := Handshake.derive ([first, second, third] ++ fourth)
  let ratchet ← suite.generate
  let (root, sending) ← suite.turn root terms.theirRatchet ratchet
  return {
    storedVersion := Limits.currentVersion
    localIdentity := terms.ourIdentity.publicKey
    remoteIdentity := terms.theirIdentity
    root
    sending := some ⟨ratchet, sending⟩
    receiving := [⟨terms.theirRatchet, receiving, []⟩]
    initiatorBase := some terms.ourBase.publicKey }

/-- The responder's side of a new session. -/
def respond (terms : ResponderTerms) : Attempt Session := do
  let first ← suite.agreeOn terms.ourSignedPrekey.privateKey terms.theirIdentity
  let second ← suite.agreeOn terms.ourIdentity.privateKey terms.theirBase
  let third ← suite.agreeOn terms.ourSignedPrekey.privateKey terms.theirBase
  let fourth ←
    Handshake.agreeOneTime (fun pair => suite.agreeOn pair.privateKey terms.theirBase)
      terms.ourOneTimePrekey
  let (root, sending) := Handshake.derive ([first, second, third] ++ fourth)
  return {
    storedVersion := Limits.currentVersion
    localIdentity := terms.ourIdentity.publicKey
    remoteIdentity := terms.theirIdentity
    root
    sending := some ⟨terms.ourRatchet, sending⟩
    initiatorBase := some terms.theirBase }

end Session

namespace SymmetricTerms

/-- The party with the smaller base key is the initiator. -/
def weInitiate (terms : SymmetricTerms) : Bool := terms.ourBase.publicKey < terms.theirBase

/-- The terms of the initiator, the peer's base key being its signed prekey. -/
def initiator (terms : SymmetricTerms) : InitiatorTerms where
  ourIdentity := terms.ourIdentity
  ourBase := terms.ourBase
  theirIdentity := terms.theirIdentity
  theirSignedPrekey := terms.theirBase
  theirOneTimePrekey := none
  theirRatchet := terms.theirRatchet

/-- The terms of the responder, its base key being its signed prekey. -/
def responder (terms : SymmetricTerms) : ResponderTerms where
  ourIdentity := terms.ourIdentity
  ourSignedPrekey := terms.ourBase
  ourOneTimePrekey := none
  ourRatchet := terms.ourRatchet
  theirIdentity := terms.theirIdentity
  theirBase := terms.theirBase

end SymmetricTerms

/-- One side of a session that both parties start at the same moment. -/
def Session.exchange (suite : Suite) (terms : SymmetricTerms) : Attempt Session :=
  if terms.weInitiate then Session.initiate suite terms.initiator
  else Session.respond suite terms.responder

end Ratchet
