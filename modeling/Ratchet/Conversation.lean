import Ratchet.Operation
import Ratchet.Record.Receiving
import Ratchet.Session.Handshake

/-!
# Conversations

What a party does with the device at one address: it starts a session from a
bundle, encrypts texts and decrypts messages. Every operation loads the record
of the address, works on the copy, and writes to the store as the last thing it
does, so that whatever fails before leaves the store as it was.

A text is handed to the caller's receiver before the record is written. If the
receiver fails, nothing is written, and the message can be decrypted again.
-/

set_option autoImplicit false

namespace Ratchet

namespace Conversation

variable {ς : Type} [ProtocolStore ς] (suite : Suite) (peer : Address)

/-- Fails unless the identity is trusted at the address. -/
def requireTrust (key : PublicKey) (direction : Direction) : Operation ς Unit := do
  if ← Operation.ask (ProtocolStore.isTrusted · peer key direction) then return
  throw (.untrustedIdentity peer)

/-- The record of the address, if there is one. -/
def record? : Operation ς (Option SessionRecord) :=
  Operation.ask (ProtocolStore.loadRecord · peer)

/-- The record of the address. -/
def record : Operation ς SessionRecord := do
  match ← record? peer with
  | some record => return record
  | none => throw (.noSession peer)

/-- The record of the address, or one without sessions. -/
def recordOrFresh : Operation ς SessionRecord := do
  return (← record? peer).getD .fresh

/-- Writes the record of the address. -/
def keep (record : SessionRecord) : Operation ς Unit :=
  Operation.change (ProtocolStore.storeRecord · peer record)

/-- The current session of a record. -/
def currentOf (record : SessionRecord) : Operation ς Session :=
  match record.current with
  | some session => return session
  | none => throw (.noSession peer)

/-! ## Starting a session -/

/-- The one-time prekey of a bundle, whose number and key must come together. -/
def oneTimeOf (bundle : PrekeyBundle) : Except SessionError (Option (UInt32 × PublicKey)) :=
  match bundle.oneTimeId, bundle.oneTimeKey with
  | some id, some key => .ok (some (id, key))
  | none, none => .ok none
  | _, _ => .error (.invalidBundle .loneOneTimeField)

/-- Starts a session from a bundle and makes it current. -/
def start (bundle : PrekeyBundle) : Operation ς Unit := do
  if bundle.identityKey ≠ peer.identityKey then
    throw (.invalidBundle .identityMismatch)
  requireTrust peer bundle.identityKey .sending
  let some signedKey := bundle.signedKey | throw (.invalidBundle .missingSignedPrekey)
  let genuine ← Operation.attempt
    (suite.isSignature bundle.identityKey signedKey.toBytes bundle.signature)
  unless genuine do throw (.invalidBundle .badSignature)
  let oneTime ← Operation.ask fun _ => oneTimeOf bundle
  let base ← Operation.attempt suite.generate
  let identity ← Operation.ask ProtocolStore.identity
  let session ← Operation.attempt <| Session.initiate suite {
    ourIdentity := identity
    ourBase := base
    theirIdentity := bundle.identityKey
    theirSignedPrekey := signedKey
    theirOneTimePrekey := oneTime.map Prod.snd
    theirRatchet := signedKey }
  let pending : PendingPrekey := ⟨oneTime.map Prod.fst, bundle.signedId, base.publicKey⟩
  let record ← recordOrFresh peer
  keep peer (record.promote { session with pendingPrekey := some pending })

/-- The signed prekey under this number. -/
def signedPrekey (id : UInt32) : Operation ς SignedPrekey := do
  match ← Operation.ask (ProtocolStore.loadSigned · id) with
  | some prekey => return prekey
  | none => throw (.unknownPrekey id)

/-- The one-time prekey under this number. -/
def oneTimePrekey (id : UInt32) : Operation ς OneTimePrekey := do
  match ← Operation.ask (ProtocolStore.loadOneTime · id) with
  | some prekey => return prekey
  | none => throw (.unknownPrekey id)

/-- Adds the session that a prekey message asks for, unless the record has it.
The number is that of the one-time prekey that the new session has used up. -/
def answer (record : SessionRecord) (message : PrekeyMessage) :
    Operation ς (Option UInt32 × SessionRecord) := do
  requireTrust peer peer.identityKey .receiving
  if record.hasSession message.version message.baseKey then
    return (none, record)
  let signed ← signedPrekey message.signedId
  let oneTime ← message.oneTimeId.mapM oneTimePrekey
  let identity ← Operation.ask ProtocolStore.identity
  let session ← Operation.attempt <| Session.respond suite {
    ourIdentity := identity
    ourSignedPrekey := signed.pair
    ourOneTimePrekey := oneTime.map OneTimePrekey.pair
    ourRatchet := signed.pair
    theirIdentity := peer.identityKey
    theirBase := message.baseKey }
  return (message.oneTimeId, record.promote session)

/-! ## Messages -/

/-- Encrypts a text in the current session. -/
def encrypt (plaintext : Bytes) : Operation ς Message := do
  let record ← record peer
  let session ← currentOf peer record
  let (message, session) ← Operation.ask fun _ => session.encrypt plaintext
  requireTrust peer session.remoteIdentity .sending
  keep peer (record.setCurrent session)
  return message

/-- Decrypts a prekey message, starting the session it asks for if need be. -/
def decryptPrekey (message : PrekeyMessage) (receiver : Bytes → Except SessionError Unit) :
    Operation ς Bytes := do
  let record ← recordOrFresh peer
  let (used, record) ← answer suite peer record message
  let (plaintext, record) ← Operation.attempt (record.decrypt suite peer message.message)
  Operation.release receiver plaintext
  keep peer record
  if let some id := used then
    Operation.change (ProtocolStore.removeOneTime · id)
  return plaintext

/-- Decrypts a message of a session that exists. -/
def decryptRatchet (message : RatchetMessage) (receiver : Bytes → Except SessionError Unit) :
    Operation ς Bytes := do
  let record ← record peer
  let (plaintext, record) ← Operation.attempt (record.decrypt suite peer message)
  let session ← currentOf peer record
  requireTrust peer session.remoteIdentity .receiving
  Operation.release receiver plaintext
  keep peer record
  return plaintext

/-- Decrypts a message of either type. -/
def decrypt (message : Message) (receiver : Bytes → Except SessionError Unit) :
    Operation ς Bytes :=
  match message with
  | .ratchet message => decryptRatchet suite peer message receiver
  | .prekey message => decryptPrekey suite peer message receiver

/-! ## Questions -/

/-- The version of the current session. -/
def version : Operation ς UInt8 := do
  return (← currentOf peer (← record peer)).version

/-- The identity of the peer in the current session, if there is one. -/
def remoteIdentity? : Operation ς (Option PublicKey) := do
  return (← record? peer).bind fun record => record.current.map (·.remoteIdentity)

end Conversation

end Ratchet
