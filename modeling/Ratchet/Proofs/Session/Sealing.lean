import Ratchet.Proofs.Chain.Tracing
import Ratchet.Proofs.Cipher.Inverse
import Ratchet.Proofs.Session.Handshakes

/-!
# What is sealed is opened

A message that was made under some keys is authentic under them
(`RatchetMessage.verify_make`), and between two sessions with each other's
identities its text comes out again (`Session.reveal_sealed`). So a receiving
chain that traces the sender's chain, and still awaits the sender's position,
gives the text and makes the corresponding move of its progress
(`Session.receive_sealed`). So does the chain that a session opens for the first message
with a new ratchet key (`Session.run_decrypt_sealed_of_new`).
-/

set_option autoImplicit false

namespace Ratchet

namespace RatchetMessage

theorem length_mac (macKey : Octets 32) (sender receiver : PublicKey) (content : Bytes) :
    (mac macKey sender receiver content).length = Limits.macLength := by
  rw [mac, List.length_take, Octets.length_toList]
  rfl

/-- A message is authentic under the key it was made with. -/
theorem verify_make (version : UInt8) (macKey : Octets 32) (ratchetKey : PublicKey)
    (counter previousCounter : UInt32) (body : Bytes) (sender receiver : PublicKey) :
    (make version macKey ratchetKey counter previousCounter body sender receiver).verify
      sender receiver macKey = true := by
  unfold make verify
  dsimp only
  have split : ∀ content : Bytes, (content ++ mac macKey sender receiver content).length -
      Limits.macLength = content.length := by
    intro content
    rw [List.length_append, length_mac, Nat.add_sub_cancel]
  rw [split, List.take_left, List.drop_left, decide_eq_true_iff]

end RatchetMessage

namespace Session

/-- What is wrapped is still the message. -/
theorem inner_wrap (session : Session) (message : RatchetMessage) :
    (session.wrap message).inner = message := by
  simp only [wrap]
  cases session.pendingPrekey <;> rfl

/-- The text of a sealed message comes out under the keys it was sealed with. -/
theorem reveal_sealed {sender receiver : Session}
    (source : receiver.remoteIdentity = sender.localIdentity)
    (target : receiver.localIdentity = sender.remoteIdentity) (sending : SendingChain)
    (plaintext : Bytes) :
    receiver.reveal sending.chain.messageKeys (sender.sealed sending plaintext) =
      .ok plaintext := by
  unfold reveal Session.sealed
  rw [source, target, if_pos (RatchetMessage.verify_make _ _ _ _ _ _ _ _)]
  show Except.mapError _ (decryptBody _ _ (encryptBody _ _ plaintext)) = _
  rw [decryptBody_encryptBody]
  rfl

/-- A chain that traces the sender's chain gives the text of a message it awaits. -/
theorem receive_sealed {sender receiver : Session}
    (source : receiver.remoteIdentity = sender.localIdentity)
    (target : receiver.localIdentity = sender.remoteIdentity)
    {origin : ChainKey} (starts : origin.index = 0) {progress next : Progress}
    (sound : progress.Sound) {sending : SendingChain} {count : Nat} (fits : count < 2 ^ 32)
    (position : sending.chain = origin.ahead count)
    (admitted : progress.receive (.ofNat count) = .ok next) (around : Session)
    (ratchetKey : PublicKey) (plaintext : Bytes) :
    receiver.receive around (.tracing ratchetKey origin progress)
        (sender.sealed sending plaintext) =
      .ok (plaintext, { around.putReceiving (.tracing ratchetKey origin next) with
        pendingPrekey := none }) := by
  have counter : (sender.sealed sending plaintext).counter = .ofNat count := by
    show sending.chain.index = _
    rw [position, ChainKey.index_ahead starts]
  have keys : origin.keysOf (UInt32.ofNat count).toNat = sending.chain.messageKeys := by
    rw [UInt32.toNat_ofNat_of_lt' fits, ChainKey.keysOf, position]
  simp only [receive]
  rw [counter, ReceivingChain.keysAt_tracing ratchetKey starts sound, admitted, keys]
  show (receiver.reveal sending.chain.messageKeys (sender.sealed sending plaintext)).bind _ = _
  rw [reveal_sealed source target]
  rfl

/-- A session decrypts a message that its chain of the sender's ratchet key awaits. -/
theorem run_decrypt_sealed (suite : Suite) {sender receiver : Session}
    (source : receiver.remoteIdentity = sender.localIdentity)
    (target : receiver.localIdentity = sender.remoteIdentity)
    (speaks : sender.version = receiver.version) (answers : receiver.sending.isSome)
    {origin : ChainKey} (starts : origin.index = 0) {progress next : Progress}
    (sound : progress.Sound) {sending : SendingChain} {count : Nat} (fits : count < 2 ^ 32)
    (position : sending.chain = origin.ahead count)
    (admitted : progress.receive (.ofNat count) = .ok next)
    (known : receiver.receivingChain? sending.ratchet.publicKey =
      some (.tracing sending.ratchet.publicKey origin progress))
    (plaintext : Bytes) (supply : Supply) :
    (receiver.decrypt suite (sender.sealed sending plaintext)).run supply =
      (.ok (plaintext,
        { receiver.putReceiving (.tracing sending.ratchet.publicKey origin next) with
          pendingPrekey := none }), supply) := by
  obtain ⟨answering, sends⟩ := Option.isSome_iff_exists.mp answers
  have version : (sender.sealed sending plaintext).version = receiver.version := speaks
  have found : receiver.receivingChain? (sender.sealed sending plaintext).ratchetKey = some _ :=
    known
  rw [run_decrypt_known suite sends version found,
    receive_sealed source target starts sound fits position admitted]

/-- A session turns around the first message on the chain that it then opens. -/
theorem run_decrypt_sealed_of_new (suite : Suite) {sender receiver : Session}
    (source : receiver.remoteIdentity = sender.localIdentity)
    (target : receiver.localIdentity = sender.remoteIdentity)
    (speaks : sender.version = receiver.version) {sending : SendingChain}
    (sends : receiver.sending = some sending) {theirs : KeyPair}
    (new : receiver.receivingChain? theirs.publicKey = none) {supply : Supply} {pairs : Nat}
    (lasts : supply.Lasts (pairs + 1)) (plaintext : Bytes) :
    let opened := receiver.opened suite sending theirs.publicKey
    let answer := sender.sealed ⟨theirs, opened.chain⟩ plaintext
    ∃ ours later, suite.generate.run supply = (.ok ours, later) ∧
      (receiver.decrypt suite answer).run supply =
        (.ok (plaintext, { (receiver.turned suite sending answer ours).putReceiving
          (.tracing theirs.publicKey opened.chain ⟨1, Progress.start.keeping 0⟩) with
          pendingPrekey := none }), later) := by
  intro opened answer
  have version : answer.version = receiver.version := speaks
  have absent : receiver.receivingChain? answer.ratchetKey = none := new
  obtain ⟨ours, later, generated, _, turns⟩ :=
    run_decrypt_new_of_lasts suite lasts sends version absent
  have admitted : Progress.start.receive (.ofNat 0) = .ok ⟨1, Progress.start.keeping 0⟩ := rfl
  have revealed : receiver.receive (receiver.turned suite sending answer ours)
      (.tracing theirs.publicKey opened.chain .start) answer = _ :=
    receive_sealed source target rfl .start (by decide) rfl admitted _ theirs.publicKey plaintext
  rw [ReceivingChain.tracing_start] at revealed
  exact ⟨ours, later, generated, turns.trans (congrArg (·, later) revealed)⟩

end Session

end Ratchet
