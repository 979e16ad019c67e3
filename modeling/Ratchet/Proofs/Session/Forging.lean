import Ratchet.Proofs.Session.Calls
import Ratchet.Proofs.Wire.Message

/-!
# Messages with another authentication code

The fields of a message can be read by anybody, and sent again with another code behind them
(`RatchetMessage.withCode`). Such a message is read off its bytes like the message that it
was made from (`RatchetMessage.parse_withCode`), and it is authentic under the keys of that
message with one code only, the one that was there (`RatchetMessage.verify_withCode`).

So a session that would decrypt a message refuses it with any other code. This is found
out as late as can be, when the session has turned around the message if its ratchet key is
new and has passed the messages before it, and with the supply used up that the message
takes (`Session.run_decrypt_withCode`). Nothing of that is kept
(`Session.call_withCode`).
-/

set_option autoImplicit false

namespace Ratchet

namespace RatchetMessage

/-- The authentication code: the last bytes of the message. -/
def code (message : RatchetMessage) : Bytes :=
  message.serialized.drop (message.serialized.length - Limits.macLength)

/-- The message with another code. -/
def withCode (message : RatchetMessage) (code : Octets Limits.macLength) : RatchetMessage :=
  { message with
    serialized := message.serialized.take (message.serialized.length - Limits.macLength) ++
      code.toList }

/-- Of all codes that a message could have, the one that it has is authentic. -/
theorem verify_withCode {message : RatchetMessage} {sender receiver : PublicKey}
    {macKey : Octets 32} (authentic : message.verify sender receiver macKey = true)
    (code : Octets Limits.macLength) :
    (message.withCode code).verify sender receiver macKey = true ↔ message.code = code.toList := by
  have cut : ∀ content : Bytes, (content ++ code.toList).length - Limits.macLength =
      content.length := by
    intro content
    rw [List.length_append, code.length_toList, Nat.add_sub_cancel]
  simp only [verify, decide_eq_true_eq] at authentic ⊢
  simp only [withCode, RatchetMessage.code, cut, List.take_left, List.drop_left, authentic]

/-- A message that is read off its bytes is read with any code. -/
theorem parse_withCode {message : RatchetMessage}
    (readable : parse message.serialized = .ok message) (code : Octets Limits.macLength) :
    parse (message.withCode code).serialized = .ok (message.withCode code) := by
  obtain ⟨parts, bytes, rfl⟩ := exists_parts_of_parse readable
  have front : parts.bytes.take (parts.bytes.length - Limits.macLength) =
      parts.first :: parts.fieldBytes := by
    rw [Parts.bytes, ← List.cons_append, List.length_append, parts.code.length_toList,
      Nat.add_sub_cancel, List.take_left]
  have altered : parts.message.withCode code = { parts with code := code : Parts }.message := by
    simp only [withCode, Parts.message]
    rw [front]
    rfl
  rw [altered]
  exact parse_bytes { parts with code := code }

/-- A code that is not the one of the message. -/
def otherCode (message : RatchetMessage) : Octets Limits.macLength :=
  if message.code = (Octets.replicate Limits.macLength 0).toList then .replicate _ 1
  else .replicate _ 0

theorem otherCode_ne (message : RatchetMessage) : message.code ≠ message.otherCode.toList := by
  rw [otherCode]
  split
  · rename_i zeros
    rw [zeros]
    decide
  · assumption

/-- The message with a code that is not its own. -/
def forged (message : RatchetMessage) : RatchetMessage := message.withCode message.otherCode

end RatchetMessage

namespace Session

variable (suite : Suite) {session next : Session} {message : RatchetMessage} {plaintext : Bytes}
  {supply later : Supply}

/-- **A message that would be decrypted is refused with any other code.** -/
theorem run_decrypt_withCode
    (decrypted : (session.decrypt suite message).run supply = (.ok (plaintext, next), later))
    {code : Octets Limits.macLength} (other : message.code ≠ code.toList) :
    (session.decrypt suite (message.withCode code)).run supply =
      (.error (.invalidMessage .badMac), later) := by
  obtain ⟨speaks, sending, sends⟩ := speaks_of_run_decrypt suite decrypted
  have sameChain : session.chainOf suite sending (message.withCode code) =
      session.chainOf suite sending message := rfl
  rw [run_decrypt suite sends speaks] at decrypted
  rw [run_decrypt suite sends (show (message.withCode code).version = _ from speaks), sameChain]
  rcases found : (session.chainOf suite sending message).run supply with
    ⟨failure | ⟨chain, around⟩, left⟩
  · rw [found] at decrypted
    cases decrypted
  · rw [found] at decrypted
    obtain ⟨received, rfl⟩ := Prod.mk.inj decrypted
    obtain ⟨keys, rest, given, opens, _⟩ := receive_eq_ok received
    have refused : (message.withCode code).verify session.remoteIdentity session.localIdentity
        keys.macKey = false := by
      rw [Bool.eq_false_iff, ne_eq, RatchetMessage.verify_withCode (verify_of_reveal opens)]
      exact other
    exact congrArg (·, _)
      (receive_eq_badMac session (message.withCode code) given refused around)

/-- The session stays as it is. -/
theorem call_withCode
    (decrypted : (session.decrypt suite message).run supply = (.ok (plaintext, next), later))
    {code : Octets Limits.macLength} (other : message.code ≠ code.toList) :
    session.call suite (.decrypt (message.withCode code) supply) = session := by
  simp only [call]
  rw [run_decrypt_withCode suite decrypted other]

end Session

end Ratchet
