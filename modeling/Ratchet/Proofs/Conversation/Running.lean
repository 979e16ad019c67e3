import Ratchet.Proofs.Conversation.Outcomes

/-!
# When requests succeed

What each request does where nothing stands in its way: the record is there, the
identities are trusted, and the supply lasts. These are the converses of what is
known of requests that succeed: starting makes the initiator's session current
(`Conversation.run_start`), encrypting updates the current session
(`Conversation.run_encrypt`), and a message that the record decrypts is decrypted
(`Conversation.run_decryptRatchet`, `Conversation.run_decryptPrekey`), after the
session that a prekey message asks for was made (`Conversation.run_answer_new`).
-/

set_option autoImplicit false

namespace Ratchet

/-- A current session that receives a message is updated in its place. -/
theorem SessionRecord.run_decrypt_current (suite : Suite) (address : Address)
    {record : SessionRecord} {session next : Session} {message : RatchetMessage}
    {plaintext : Bytes} {supply later : Supply} (stands : record.current = some session)
    (decrypted : (session.decrypt suite message).run supply = (.ok (plaintext, next), later)) :
    (record.decrypt suite address message).run supply =
      (.ok (plaintext, record.setCurrent next), later) := by
  simp only [decrypt, candidates]
  rw [stands]
  show (tryEach suite address message ((session, record.setCurrent) :: _) []).run supply = _
  simp only [tryEach]
  rw [Procedure.run_bind, Procedure.run_observe, decrypted]
  rfl

/-- A signature can be checked any number of times. -/
theorem Suite.run_isSignature_of_unlimited (suite : Suite) {supply : Supply}
    (verifies : supply.verification = .unlimited) (key : PublicKey) (message signature : Bytes) :
    (suite.isSignature key message signature).run supply =
      (.ok (suite.verify key message signature), supply) := by
  cases supply
  cases verifies
  rfl

namespace Conversation

variable (suite : Suite) (peer : Address) {context : Context MemoryStore}

/-! ## Single steps -/

theorem run_requireTrust {key : PublicKey} (trusts : context.store.trusts key = true)
    (direction : Direction) :
    (requireTrust peer key direction : Operation MemoryStore _).run context =
      (.ok ⟨⟩, context) := by
  have answer : ProtocolStore.isTrusted context.store peer key direction = .ok true :=
    congrArg Except.ok trusts
  simp only [requireTrust]
  rw [Procedure.run_bind_of_ok (Operation.run_ask_of_ok answer)]
  rfl

theorem run_record {record : SessionRecord}
    (loaded : context.store.loadRecord peer = .ok (some record)) :
    (Conversation.record peer).run context = (.ok record, context) := by
  have answer : ProtocolStore.loadRecord context.store peer = .ok (some record) := loaded
  simp only [Conversation.record, record?]
  rw [Procedure.run_bind_of_ok (Operation.run_ask_of_ok answer)]
  rfl

theorem run_recordOrFresh {stored : Option SessionRecord}
    (loaded : context.store.loadRecord peer = .ok stored) :
    (recordOrFresh peer).run context = (.ok (stored.getD .fresh), context) := by
  have answer : ProtocolStore.loadRecord context.store peer = .ok stored := loaded
  simp only [recordOrFresh, record?]
  rw [Procedure.run_bind_of_ok (Operation.run_ask_of_ok answer)]
  rfl

theorem run_currentOf {record : SessionRecord} {session : Session}
    (stands : record.current = some session) :
    (currentOf peer record : Operation MemoryStore _).run context = (.ok session, context) := by
  simp only [currentOf]
  rw [stands]
  rfl

theorem run_keep (record : SessionRecord) :
    (keep peer record).run context =
      (.ok ⟨⟩, { context with store := context.store.storeRecord peer record }) :=
  Operation.run_change _ _

omit peer in
theorem run_signedPrekey {id : UInt32} {prekey : SignedPrekey}
    (found : context.store.signedPrekeys.find? id = some prekey) :
    (signedPrekey id).run context = (.ok prekey, context) := by
  have answer : ProtocolStore.loadSigned context.store id = .ok (some prekey) :=
    congrArg Except.ok found
  simp only [signedPrekey]
  rw [Procedure.run_bind_of_ok (Operation.run_ask_of_ok answer)]
  rfl

omit peer in
theorem run_mapM_oneTimePrekey {id : Option UInt32} {prekey : Option OneTimePrekey}
    (found : Option.Rel (fun id prekey => context.store.oneTimePrekeys.find? id = some prekey)
      id prekey) :
    (id.mapM oneTimePrekey : Operation MemoryStore _).run context = (.ok prekey, context) := by
  cases found with
  | none => rfl
  | @some id prekey there =>
      have answer : ProtocolStore.loadOneTime context.store id = .ok (some prekey) :=
        congrArg Except.ok there
      rw [Option.mapM_some, Procedure.run_map]
      simp only [oneTimePrekey]
      rw [Procedure.run_bind_of_ok (Operation.run_ask_of_ok answer)]
      rfl

/-! ## Sending -/

/-- The current session encrypts the text. -/
theorem run_encrypt {record : SessionRecord} {session next : Session} {plaintext : Bytes}
    {message : Message} (loaded : context.store.loadRecord peer = .ok (some record))
    (stands : record.current = some session)
    (encrypted : session.encrypt plaintext = .ok (message, next))
    (trusts : context.store.trusts next.remoteIdentity = true) :
    (encrypt peer plaintext).run context =
      (.ok message,
        { context with store := context.store.storeRecord peer (record.setCurrent next) }) := by
  simp only [encrypt]
  rw [Procedure.run_bind_of_ok (run_record peer loaded)]
  rw [Procedure.run_bind_of_ok (run_currentOf peer stands)]
  rw [Procedure.run_bind_of_ok (Operation.run_ask_of_ok encrypted)]
  rw [Procedure.run_bind_of_ok (run_requireTrust peer trusts _)]
  rw [Procedure.run_bind_of_ok (run_keep peer _)]
  rfl

/-- The session is started and made current. -/
theorem run_start {bundle : PrekeyBundle} {signedKey : PublicKey}
    {oneTime : Option (UInt32 × PublicKey)} {stored : Option SessionRecord}
    (addressed : bundle.identityKey = peer.identityKey)
    (trusts : context.store.trusts peer.identityKey = true)
    (offered : bundle.signedKey = some signedKey) (together : oneTimeOf bundle = .ok oneTime)
    (signed : suite.verify peer.identityKey signedKey.toBytes bundle.signature = true)
    (loaded : context.store.loadRecord peer = .ok stored)
    (verifies : context.supply.verification = .unlimited) (lasts : context.supply.Lasts 2)
    {base : KeyPair} {rest : Supply} (first : suite.generate.run context.supply = (.ok base, rest))
    {ratchet : KeyPair} {last : Supply}
    (second : suite.generate.run rest = (.ok ratchet, last)) :
    (start suite peer bundle).run context =
      (.ok ⟨⟩, { context with
        supply := last
        store := context.store.storeRecord peer ((stored.getD .fresh).promote
          (opening suite
            (bundleTerms context.store.identity base peer.identityKey signedKey
              (oneTime.map Prod.snd))
            ratchet (oneTime.map Prod.fst) bundle.signedId)) }) := by
  have genuine : (suite.isSignature peer.identityKey signedKey.toBytes bundle.signature).run
      context.supply = (.ok true, context.supply) := by
    rw [suite.run_isSignature_of_unlimited verifies, signed]
  obtain ⟨_, _, generated, restLasts⟩ := suite.run_generate_of_lasts lasts
  rw [first] at generated
  cases generated
  obtain ⟨_, _, generated, _, initiated⟩ := Session.run_initiate_of_lasts suite restLasts
    (bundleTerms context.store.identity base peer.identityKey signedKey (oneTime.map Prod.snd))
  rw [second] at generated
  cases generated
  simp only [start, Procedure.throw_bind]
  rw [if_neg (not_not_intro addressed), addressed,
    Procedure.run_bind_of_ok (run_requireTrust peer trusts _), offered]
  dsimp only
  rw [Procedure.run_bind_of_ok (Operation.run_attempt_of_ok genuine)]
  rw [if_pos rfl, Procedure.run_bind_of_ok (Operation.run_ask_of_ok together)]
  rw [Procedure.run_bind_of_ok (Operation.run_attempt_of_ok first)]
  rw [Procedure.run_bind, Operation.run_ask]
  show (Procedure.run (Operation.attempt (Session.initiate suite (bundleTerms context.store.identity
    base peer.identityKey signedKey (oneTime.map Prod.snd))) >>= _) _) = _
  have loads : (recordOrFresh peer).run { context with supply := last } =
      (.ok (stored.getD .fresh), { context with supply := last }) := run_recordOrFresh peer loaded
  rw [Procedure.run_bind_of_ok (Operation.run_attempt_of_ok initiated)]
  rw [Procedure.run_bind_of_ok loads]
  exact run_keep peer _

/-! ## Receiving -/

/-- A message that the record decrypts is decrypted. -/
theorem run_decryptRatchet {record latter : SessionRecord} {current : Session}
    {message : RatchetMessage} {receiver : Bytes → Except SessionError Unit} {plaintext : Bytes}
    {later : Supply} (loaded : context.store.loadRecord peer = .ok (some record))
    (decrypted : (record.decrypt suite peer message).run context.supply =
      (.ok (plaintext, latter), later))
    (stands : latter.current = some current)
    (trusts : context.store.trusts current.remoteIdentity = true)
    (accepts : receiver plaintext = .ok ()) :
    (decryptRatchet suite peer message receiver).run context =
      (.ok plaintext,
        ⟨context.store.storeRecord peer latter, later, plaintext :: context.released⟩) := by
  have trustsLater : ({ context with supply := later } : Context MemoryStore).store.trusts
      current.remoteIdentity = true := trusts
  simp only [decryptRatchet]
  rw [Procedure.run_bind_of_ok (run_record peer loaded)]
  rw [Procedure.run_bind_of_ok (Operation.run_attempt_of_ok decrypted)]
  rw [Procedure.run_bind_of_ok (run_currentOf peer stands)]
  rw [Procedure.run_bind_of_ok (run_requireTrust peer trustsLater _)]
  rw [Procedure.run_bind_of_ok (Operation.run_release_of_ok accepts)]
  rw [Procedure.run_bind_of_ok (run_keep peer _)]
  rfl

/-- Where the record has the session, there is nothing to answer. -/
theorem run_answer_known {record : SessionRecord} {message : PrekeyMessage}
    (trusts : context.store.trusts peer.identityKey = true)
    (known : record.hasSession message.version message.baseKey = true) :
    (answer suite peer record message).run context = (.ok (none, record), context) := by
  simp only [answer]
  rw [Procedure.run_bind_of_ok (run_requireTrust peer trusts _)]
  rw [if_pos known]
  rfl

/-- Where it does not, the session is made from the prekeys that the message names. -/
theorem run_answer_new {record : SessionRecord} {message : PrekeyMessage} {pairs : Nat}
    (trusts : context.store.trusts peer.identityKey = true)
    (unknown : record.hasSession message.version message.baseKey = false)
    {signed : SignedPrekey} (hasSigned : context.store.signedPrekeys.find? message.signedId =
      some signed)
    {oneTime : Option OneTimePrekey}
    (hasOneTime : Option.Rel (fun id prekey => context.store.oneTimePrekeys.find? id = some prekey)
      message.oneTimeId oneTime)
    (lasts : context.supply.Lasts pairs) :
    (answer suite peer record message).run context =
      (.ok (message.oneTimeId, record.promote (Session.responded suite
        (terms peer message context.store.identity signed oneTime))), context) := by
  simp only [answer]
  rw [Procedure.run_bind_of_ok (run_requireTrust peer trusts _)]
  rw [if_neg (Bool.eq_false_iff.mp unknown),
    Procedure.run_bind_of_ok (run_signedPrekey hasSigned)]
  rw [Procedure.run_bind_of_ok (run_mapM_oneTimePrekey hasOneTime)]
  rw [Procedure.run_bind, Operation.run_ask]
  show (Procedure.run (Operation.attempt (Session.respond suite
    (terms peer message context.store.identity signed oneTime)) >>= _) _) = _
  rw [Procedure.run_bind_of_ok
    (Operation.run_attempt_of_ok (Session.run_respond_of_lasts suite lasts _))]
  rfl

/-- A prekey message is decrypted if the record decrypts it, after the session it asks
for was made, whose one-time prekey is removed. -/
theorem run_decryptPrekey {stored : Option SessionRecord} {prepared latter : SessionRecord}
    {used : Option UInt32} {message : PrekeyMessage} {receiver : Bytes → Except SessionError Unit}
    {plaintext : Bytes} {later : Supply} (loaded : context.store.loadRecord peer = .ok stored)
    (answered : (answer suite peer (stored.getD .fresh) message).run context =
      (.ok (used, prepared), context))
    (decrypted : (prepared.decrypt suite peer message.message).run context.supply =
      (.ok (plaintext, latter), later))
    (accepts : receiver plaintext = .ok ()) :
    (decryptPrekey suite peer message receiver).run context =
      (.ok plaintext, ⟨(context.store.storeRecord peer latter).withoutOneTime used, later,
        plaintext :: context.released⟩) := by
  simp only [decryptPrekey]
  rw [Procedure.run_bind_of_ok (run_recordOrFresh peer loaded)]
  rw [Procedure.run_bind_of_ok answered]
  rw [Procedure.run_bind_of_ok (Operation.run_attempt_of_ok decrypted)]
  rw [Procedure.run_bind_of_ok (Operation.run_release_of_ok accepts)]
  rw [Procedure.run_bind_of_ok (run_keep peer _)]
  cases used <;> rfl

end Conversation

end Ratchet
