import Ratchet.Proofs.Session.Sealing
import Ratchet.Proofs.Wire.Grammar

/-!
# Messages on the wire

What is made from the fields of a message of the current version has parts, with
every number in its shortest form. So such a message is read off its bytes with
the same fields (`RatchetMessage.parse_make`, `PrekeyMessage.parse_make`), what a
session sends is read as it was sent (`Message.parse_wrap_sealed`), and every
message of the current version survives the wire (`Message.read_as_made`). Every
message that is read is of the current version (`Message.version_of_parse`).
-/

set_option autoImplicit false

namespace Ratchet

theorem versionByte_current : versionByte Limits.currentVersion >>> 4 = Limits.currentVersion := by
  decide

namespace RatchetMessage

theorem version_of_parse {bytes : Bytes} {message : RatchetMessage}
    (parsed : parse bytes = .ok message) : message.version = Limits.currentVersion := by
  obtain ⟨parts, _, rfl⟩ := exists_parts_of_parse parsed
  rfl

/-- The parts of a message that is made from its fields. -/
def Parts.made (macKey : Octets 32) (ratchetKey : PublicKey) (counter previousCounter : UInt32)
    (body : Bytes) (sender receiver : PublicKey) : Parts where
  first := versionByte Limits.currentVersion
  ratchetKey := ratchetKey
  counter := .shortest counter
  previousCounter := .shortest previousCounter
  body := body
  code := ⟨_, length_mac macKey sender receiver
    (content Limits.currentVersion ratchetKey counter previousCounter body)⟩
  current := versionByte_current

/-- A message of the current version is read as it was made. -/
theorem parse_make (macKey : Octets 32) (ratchetKey : PublicKey) (counter previousCounter : UInt32)
    (body : Bytes) (sender receiver : PublicKey) :
    let message := make Limits.currentVersion macKey ratchetKey counter previousCounter body
      sender receiver
    parse message.serialized = .ok message :=
  parse_bytes (.made macKey ratchetKey counter previousCounter body sender receiver)

theorem parse_sealed {session : Session} (version : session.version = Limits.currentVersion)
    (sending : SendingChain) (plaintext : Bytes) :
    parse (session.sealed sending plaintext).serialized =
      .ok (session.sealed sending plaintext) := by
  simp only [Session.sealed]
  rw [version]
  exact parse_make _ _ _ _ _ _ _

end RatchetMessage

namespace PrekeyMessage

theorem version_of_parse {bytes : Bytes} {message : PrekeyMessage}
    (parsed : parse bytes = .ok message) : message.version = Limits.currentVersion := by
  obtain ⟨parts, _, rfl⟩ := exists_parts_of_parse parsed
  rfl

/-- The envelope that is made from its fields. -/
def Envelope.made (oneTimeId : Option UInt32) (signedId : UInt32) (baseKey : PublicKey) :
    Envelope where
  first := versionByte Limits.currentVersion
  oneTimeId := oneTimeId.map .shortest
  signedId := .shortest signedId
  baseKey := baseKey
  current := versionByte_current

theorem bytes_made (oneTimeId : Option UInt32) (signedId : UInt32) (baseKey : PublicKey) :
    (Envelope.made oneTimeId signedId baseKey).bytes =
      header Limits.currentVersion oneTimeId signedId baseKey := by
  cases oneTimeId <;> rfl

/-- A message of the current version is read as it was made. -/
theorem parse_make (oneTimeId : Option UInt32) (signedId : UInt32) (baseKey : PublicKey)
    {wrapped : RatchetMessage} (readable : RatchetMessage.parse wrapped.serialized = .ok wrapped) :
    let message := make Limits.currentVersion oneTimeId signedId baseKey wrapped
    parse message.serialized = .ok message := by
  have read := parse_append (.made oneTimeId signedId baseKey) wrapped.serialized
  rw [bytes_made, readable] at read
  refine read.trans ?_
  cases oneTimeId <;> rfl

end PrekeyMessage

namespace Message

theorem version_of_parse {type : MessageType} {bytes : Bytes} {message : PrekeyMessage}
    (parsed : parse type bytes = .ok (.prekey message)) :
    message.version = Limits.currentVersion := by
  cases type with
  | ratchet =>
      simp only [parse] at parsed
      cases read : RatchetMessage.parse bytes with
      | error failure =>
          rw [read] at parsed
          cases parsed
      | ok other =>
          rw [read] at parsed
          cases parsed
  | prekey =>
      simp only [parse] at parsed
      cases read : PrekeyMessage.parse bytes with
      | error failure =>
          rw [read] at parsed
          cases parsed
      | ok other =>
          rw [read] at parsed
          cases parsed
          exact PrekeyMessage.version_of_parse read

/-- **What a session sends is read as it was sent**, if the session speaks the current version. -/
theorem parse_wrap_sealed {session : Session} (version : session.version = Limits.currentVersion)
    (sending : SendingChain) (plaintext : Bytes) :
    let message := session.wrap (session.sealed sending plaintext)
    parse message.type message.serialized = .ok message := by
  have readable := RatchetMessage.parse_sealed version sending plaintext
  simp only [Session.wrap]
  cases session.pendingPrekey with
  | none => exact congrArg (Except.map Message.ratchet) readable
  | some pending =>
      dsimp only
      rw [version]
      exact congrArg (Except.map Message.prekey) (PrekeyMessage.parse_make _ _ _ readable)

/-- **Messages of the current version are read as they were made**: a ratchet message from any
fields, which is then still authentic, its wrapping with any fields, and so whatever a session of
this version sends. -/
theorem read_as_made :
    (∀ (macKey : Octets 32) (ratchetKey : PublicKey) (counter previousCounter : UInt32)
      (body : Bytes) (sender receiver : PublicKey),
      let message := RatchetMessage.make Limits.currentVersion macKey ratchetKey counter
        previousCounter body sender receiver
      (∃ read, RatchetMessage.parse message.serialized = .ok read ∧ read = message ∧
        read.verify sender receiver macKey = true) ∧
      ∀ (oneTimeId : Option UInt32) (signedId : UInt32) (baseKey : PublicKey),
        let wrapped := PrekeyMessage.make Limits.currentVersion oneTimeId signedId baseKey message
        PrekeyMessage.parse wrapped.serialized = .ok wrapped) ∧
    ∀ (session next : Session) (plaintext : Bytes) (message : Message),
      session.version = Limits.currentVersion →
      session.encrypt plaintext = .ok (message, next) →
      parse message.type message.serialized = .ok message := by
  refine ⟨?_, ?_⟩
  · intro macKey ratchetKey counter previousCounter body sender receiver message
    have read : RatchetMessage.parse message.serialized = .ok message :=
      RatchetMessage.parse_make macKey ratchetKey counter previousCounter body sender receiver
    have authentic := RatchetMessage.verify_make Limits.currentVersion macKey ratchetKey counter
      previousCounter body sender receiver
    refine ⟨⟨message, read, rfl, authentic⟩, ?_⟩
    intro oneTimeId signedId baseKey
    exact PrekeyMessage.parse_make oneTimeId signedId baseKey read
  · intro session next plaintext message version encrypted
    obtain ⟨sending, _, _, _, rfl, _⟩ := Session.encrypt_eq_ok encrypted
    exact parse_wrap_sealed version sending plaintext

end Message

end Ratchet
