/-!
# The numbers the protocol fixes

Sizes and bounds that hold for every session. They are part of the protocol or
of the promise how much a peer can make us store, and cannot be chosen anew
while sessions exist (`Limits.refusal`).
-/

set_option autoImplicit false

namespace Ratchet

namespace Limits

/-- The message version that is spoken. -/
def currentVersion : UInt8 := 3

/-- The length of a public key. -/
def publicKeySize : Nat := 32

/-- The length of a signature. -/
def signatureSize : Nat := 64

/-- The length of the message authentication code that travels with a message. -/
def macLength : Nat := 8

/-- The number that names the suite of agreement and signatures over Curve25519. -/
def classicSuite : UInt16 := 1

/-- How many receiving chains a session keeps. -/
def receivingChains : Nat := 5

/-- How many keys of skipped messages a receiving chain keeps. -/
def skippedKeys : Nat := 2000

/-- How far ahead of its chain a message may be. -/
def futureMessages : Nat := 2000

/-- How many sessions a record keeps beside the current one. -/
def archivedSessions : Nat := 40

/-- What an attempt to choose other numbers is told. -/
def refusal : String := "Config already initialized"

end Limits

end Ratchet
