import Ratchet.Operation

/-!
# Publishing a bundle

A party that wants to be written to makes prekeys, signs the one that may be
used more than once, keeps the private halves in its store and hands out the
rest as a bundle.
-/

set_option autoImplicit false

namespace Ratchet

/-- Makes prekeys under these numbers, keeps them, and returns their bundle. -/
def publish {ς : Type} [ProtocolStore ς] (suite : Suite) (signedId : UInt32) (timestamp : UInt64)
    (oneTimeId : Option UInt32) : Operation ς PrekeyBundle := do
  let identity ← Operation.ask ProtocolStore.identity
  let signed ← Operation.attempt suite.generate
  let signature ← Operation.attempt
    (suite.signMessage identity.privateKey signed.publicKey.toBytes)
  Operation.change
    (ProtocolStore.storeSigned · signedId ⟨signedId, timestamp, signed, signature.toList⟩)
  let oneTime ← oneTimeId.mapM fun id => do
    let pair ← Operation.attempt suite.generate
    Operation.change (ProtocolStore.storeOneTime · id ⟨id, pair⟩)
    return (id, pair.publicKey)
  return .make oneTime signedId signed.publicKey signature.toList identity.publicKey

end Ratchet
