import Ratchet.Cipher.Message
import Ratchet.Session.Basic
import Ratchet.Suite
import Ratchet.Wire.Message

/-!
# Sending and receiving in one session

Each message has keys of its own. The sender takes them from its chain and
steps on (`Session.encrypt`). The receiver finds the chain of the message's
ratchet key, or turns the ratchet if the key is new: the rest of the previous
chain is kept for messages that are late, and a new root, a new receiving chain
and a new sending chain are made (`Session.turn`).

In a chain, a message at or beyond the chain's position moves it on, and the
keys of what is skipped are kept; a message before the position uses up its
kept keys, or is a duplicate (`ReceivingChain.keysAt`).

Both functions return the session after the message. When they fail there is
none, and the session before is still the session.
-/

set_option autoImplicit false

namespace Ratchet

namespace ReceivingChain

/-- Moves the chain on to a counter that is ahead, but not too far, and keeps the keys between. -/
def skipTo (chain : ReceivingChain) (counter : UInt32) : ReceivingChain :=
  if counter ≤ chain.chain.index then chain
  else
    let gap := (counter - chain.chain.index).toNat
    if Limits.futureMessages < gap then chain
    else
      let (keys, position) := chain.chain.walk gap
      { chain with chain := position }.store keys

/-- The keys of the message with this counter, and the chain without them. -/
def keysAt (chain : ReceivingChain) (counter : UInt32) :
    Except SessionError (MessageKeys × ReceivingChain) :=
  let index := chain.chain.index
  if counter < index then
    match chain.take? counter with
    | some result => .ok result
    | none => .error (.duplicateMessage index counter)
  else
    let gap := (counter - index).toNat
    if Limits.futureMessages < gap then .error (.invalidMessage .tooFarAhead)
    else
      let (keys, position) := chain.chain.walk gap
      match position.next? with
      | none => .error (.invalidState .chainOverflow)
      | some next => .ok (position.messageKeys, { chain with chain := next }.store keys)

end ReceivingChain

namespace Session

/-! ## Sending -/

/-- The message as it goes out: wrapped for as long as the peer has not answered. -/
def wrap (session : Session) (message : RatchetMessage) : Message :=
  match session.pendingPrekey with
  | none => .ratchet message
  | some pending =>
    .prekey (.make session.version pending.oneTimeId pending.signedId pending.baseKey message)

/-- The message with this text at the position of the sending chain. -/
def sealed (session : Session) (sending : SendingChain) (plaintext : Bytes) : RatchetMessage :=
  let keys := sending.chain.messageKeys
  .make session.version keys.macKey sending.ratchet.publicKey sending.chain.index
    session.previousCounter (encryptBody keys.cipherKey keys.vector plaintext)
    session.localIdentity session.remoteIdentity

/-- Encrypts a text as the next message of a session. -/
def encrypt (session : Session) (plaintext : Bytes) : Except SessionError (Message × Session) :=
  match session.sending with
  | none => .error (.invalidState .noSendingChain)
  | some sending =>
    match sending.chain.next? with
    | none => .error (.invalidState .chainOverflow)
    | some next =>
      .ok (session.wrap (session.sealed sending plaintext),
        { session with sending := some { sending with chain := next } })

/-! ## Receiving -/

/-- Keeps the keys of the messages that are still missing on the peer's previous chain. -/
def closeLatest (session : Session) (previousCounter : UInt32) : Session :=
  match session.latestChain? with
  | none => session
  | some chain =>
    session.updateReceiving chain.ratchetKey fun _ => chain.skipTo previousCounter

/-- The new receiving chain of a ratchet key that was not known, and the session around it. -/
def turn (suite : Suite) (session : Session) (sending : SendingChain) (message : RatchetMessage) :
    Attempt (ReceivingChain × Session) := do
  let (root, receiving) ← suite.turn session.root message.ratchetKey sending.ratchet
  let ours ← suite.generate
  let (root, chain) ← suite.turn root message.ratchetKey ours
  return (⟨message.ratchetKey, receiving, []⟩,
    { session.closeLatest message.previousCounter with
      root
      previousCounter := sending.chain.index
      sending := some ⟨ours, chain⟩ })

/-- The receiving chain of a message, and the session around it. -/
def chainOf (suite : Suite) (session : Session) (sending : SendingChain)
    (message : RatchetMessage) : Attempt (ReceivingChain × Session) :=
  match session.receivingChain? message.ratchetKey with
  | some chain => return (chain, session)
  | none => session.turn suite sending message

/-- The text of a message under its keys, once they authenticate it. -/
def reveal (session : Session) (keys : MessageKeys) (message : RatchetMessage) :
    Except SessionError Bytes :=
  if message.verify session.remoteIdentity session.localIdentity keys.macKey then
    (decryptBody keys.cipherKey keys.vector message.body).mapError (.invalidMessage ∘ .body)
  else .error (.invalidMessage .badMac)

/-- Decrypts a message of a session. -/
def decrypt (suite : Suite) (session : Session) (message : RatchetMessage) :
    Attempt (Bytes × Session) :=
  match session.sending with
  | none => throw (.invalidMessage .uninitialized)
  | some sending => do
    if message.version ≠ session.version then
      throw (.invalidMessage (.versionMismatch message.version session.version))
    let (chain, around) ← session.chainOf suite sending message
    let (keys, chain) ← Procedure.ofExcept (chain.keysAt message.counter)
    let plaintext ← Procedure.ofExcept (session.reveal keys message)
    return (plaintext, { around.putReceiving chain with pendingPrekey := none })

end Session

end Ratchet
