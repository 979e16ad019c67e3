import Ratchet.Proofs.Conversation.Establishing
import Ratchet.Proofs.Conversation.Requests

/-!
# Messages that are delivered

What becomes of a message that is delivered in its bytes. If the record has its
session, the message is decrypted as the record decrypts it
(`Conversation.run_deliver_recorded`). If not, and the prekeys that it names are
there, it is decrypted in the session that it asks for
(`Conversation.run_deliver_asking`). In every other case the delivery fails
(`Conversation.deliver_eq_ok`), and so leaves the store as it was
(`Conversation.atomic_deliver`).
-/

set_option autoImplicit false

namespace Ratchet

namespace Conversation

variable {suite : Suite} {peer : Address} {context later : Context MemoryStore}
  {message : Message} {text : Bytes} {left : Supply}

/-- A message of a session that the record has is decrypted as the record decrypts it. -/
theorem run_deliver_recorded {record latter : SessionRecord} {current : Session}
    (readable : Message.parse message.type message.serialized = .ok message)
    (loaded : context.store.loadRecord peer = .ok (some record))
    (trusts : context.store.trusts peer.identityKey = true)
    (known : ∀ prekey, message = .prekey prekey →
      record.hasSession prekey.version prekey.baseKey = true)
    (decrypted : (record.decrypt suite peer message.inner).run context.supply =
      (.ok (text, latter), left))
    (stands : latter.current = some current)
    (theirs : current.remoteIdentity = peer.identityKey) :
    (deliver suite peer message).run context =
      (.ok text, ⟨context.store.storeRecord peer latter, left, text :: context.released⟩) := by
  rw [deliver, run_receive readable]
  cases message with
  | ratchet message =>
      exact run_decryptRatchet suite peer loaded decrypted stands (theirs ▸ trusts) rfl
  | prekey message =>
      exact run_decryptPrekey suite peer loaded
        (run_answer_known suite peer trusts (known message rfl)) decrypted rfl

/-- A prekey message is decrypted in the session that it asks for, if this takes it. -/
theorem run_deliver_asking {message : PrekeyMessage} {stored : Option SessionRecord}
    {next : Session} (readable : Message.parse .prekey message.serialized = .ok (.prekey message))
    (loaded : context.store.loadRecord peer = .ok stored)
    (trusts : context.store.trusts peer.identityKey = true)
    (unknown : (stored.getD .fresh).hasSession message.version message.baseKey = false)
    {signed : SignedPrekey} (hasSigned : context.store.signedPrekeys.find? message.signedId =
      some signed)
    {oneTime : Option OneTimePrekey}
    (hasOneTime : Option.Rel (fun id prekey => context.store.oneTimePrekeys.find? id = some prekey)
      message.oneTimeId oneTime)
    {pairs : Nat} (lasts : context.supply.Lasts pairs)
    (decrypted : ((Session.responded suite
      (terms peer message context.store.identity signed oneTime)).decrypt suite
        message.message).run context.supply = (.ok (text, next), left)) :
    (deliver suite peer (.prekey message)).run context =
      (.ok text,
        ⟨(context.store.storeRecord peer
          ((stored.getD .fresh).promote next)).withoutOneTime message.oneTimeId, left,
          text :: context.released⟩) := by
  show (receive suite peer .prekey message.serialized _).run _ = _
  rw [run_receive readable]
  exact run_decryptPrekey suite peer loaded
    (run_answer_new suite peer trusts unknown hasSigned hasOneTime lasts)
    (SessionRecord.run_decrypt_current suite peer rfl decrypted) rfl

/-- Only a message that a session authenticates, or that asks for a session, is decrypted, the
first unless it would have to ask. -/
theorem deliver_eq_ok
    (readable : Message.parse message.type message.serialized = .ok message)
    (succeeds : (deliver suite peer message).run context = (.ok text, later)) :
    ∃ stored, context.store.loadRecord peer = .ok stored ∧
      ((∀ prekey, message = .prekey prekey →
          (stored.getD .fresh).hasSession prekey.version prekey.baseKey = true) ∧
          (∃ session ∈ (stored.getD .fresh).sessions, session.Authenticates suite message.inner) ∨
        ∃ prekey session, message = .prekey prekey ∧
          (stored.getD .fresh).hasSession prekey.version prekey.baseKey = false ∧
          Asks suite peer context.store prekey session) := by
  rw [deliver, run_receive readable] at succeeds
  cases message with
  | ratchet message =>
      obtain ⟨record, latter, loaded, received, _⟩ := decryptRatchet_eq_ok suite peer succeeds
      obtain ⟨session, member, _, _, receives, _⟩ := received.listed suite
      refine ⟨some record, loaded, .inl ⟨fun prekey wraps => ?_, session, member,
        receives.authenticates suite⟩⟩
      cases wraps
  | prekey message =>
      obtain ⟨stored, latter, _, loaded, _, outcome⟩ := decryptPrekey_eq_ok suite peer succeeds
      refine ⟨stored, loaded, ?_⟩
      rcases outcome with ⟨known, received, _⟩ | ⟨unknown, session, asked, _, _⟩
      · obtain ⟨session, member, _, _, receives, _⟩ := received.listed suite
        refine .inl ⟨fun prekey wraps => ?_, session, member, receives.authenticates suite⟩
        obtain rfl := Message.prekey.inj wraps
        exact known
      · exact .inr ⟨message, session, rfl, unknown, asked⟩

/-- A delivery that fails leaves the store as it was. -/
theorem atomic_deliver (suite : Suite) (peer : Address) (message : Message) :
    (deliver suite peer message : Operation MemoryStore _).Atomic := by
  refine (Operation.reads_ask _).bind_atomic fun parsed => ?_
  cases parsed with
  | ratchet message => exact atomic_decryptRatchet suite peer message _
  | prekey message => exact atomic_decryptPrekey suite peer message _

end Conversation

end Ratchet
