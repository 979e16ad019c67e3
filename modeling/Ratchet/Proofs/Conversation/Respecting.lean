import Ratchet.Proofs.Conversation.Requests
import Ratchet.Proofs.Operation.SideBySide

/-!
# What conversations look at

Of a store in memory, a conversation with an address sees the identity, the
prekeys, the record of the address, and whether the identities are trusted that
the address and the sessions of this record have. On stores that agree in these
(`Conversation.Sees`), every request is answered alike and does the same
(`Conversation.respects_serve`).

The record may have a property that nothing a conversation does to a record takes
from it (`Conversation.Upkeep`). Then the identities of its sessions need be looked
at for records with this property only.
-/

set_option autoImplicit false

namespace Ratchet

namespace Conversation

variable (suite : Suite) (peer : Address)

/-- Nothing that a conversation does to a record takes the property from it. -/
structure Upkeep (ours : PublicKey) (proper : SessionRecord → Prop) : Prop where
  fresh : proper .fresh
  initiated : ∀ {record : SessionRecord} {terms : InitiatorTerms} {ratchet : KeyPair}
    {pending : PendingPrekey}, proper record → terms.ourIdentity.publicKey = ours →
    terms.theirIdentity = peer.identityKey →
    proper (record.promote
      { Session.initiated suite terms ratchet with pendingPrekey := some pending })
  responded : ∀ {record : SessionRecord} {terms : ResponderTerms}, proper record →
    terms.ourIdentity.publicKey = ours → terms.theirIdentity = peer.identityKey →
    proper (record.promote (Session.responded suite terms))
  encrypted : ∀ {record : SessionRecord} {session next : Session} {plaintext : Bytes}
    {message : Message}, proper record → record.current = some session →
    session.encrypt plaintext = .ok (message, next) → proper (record.setCurrent next)
  received : ∀ {record later : SessionRecord} {message : RatchetMessage} {plaintext : Bytes},
    proper record → record.Received suite message plaintext later → proper later

/-- Related stores are the same to the conversation, and stay related when it writes a record with
the property or removes a prekey. -/
structure Sees (ours : PublicKey) (proper : SessionRecord → Prop)
    (related : MemoryStore → MemoryStore → Prop) : Prop where
  identity_eq : ∀ {first second}, related first second → first.identity = second.identity
  ours_eq : ∀ {first second}, related first second → first.identity.publicKey = ours
  signed_eq : ∀ {first second} (id : UInt32), related first second →
    first.signedPrekeys.find? id = second.signedPrekeys.find? id
  oneTime_eq : ∀ {first second} (id : UInt32), related first second →
    first.oneTimePrekeys.find? id = second.oneTimePrekeys.find? id
  record_eq : ∀ {first second}, related first second →
    first.loadRecord peer = second.loadRecord peer
  loads : ∀ {first second record}, related first second →
    first.loadRecord peer = .ok (some record) → proper record
  trusts_eq : ∀ {first second}, related first second →
    first.trusts peer.identityKey = second.trusts peer.identityKey
  owner_eq : ∀ {first second record session}, related first second → proper record →
    record.current = some session →
    first.trusts session.remoteIdentity = second.trusts session.remoteIdentity
  keeps : ∀ {first second record}, related first second → proper record →
    related (first.storeRecord peer record) (second.storeRecord peer record)
  removes : ∀ {first second} (id : UInt32), related first second →
    related { first with oneTimePrekeys := first.oneTimePrekeys.erase id }
      { second with oneTimePrekeys := second.oneTimePrekeys.erase id }

variable {suite peer} {ours : PublicKey} {proper : SessionRecord → Prop}
  {related : MemoryStore → MemoryStore → Prop}

/-- Trust is required alike in an identity that related stores trust alike. -/
theorem respects_requireTrust {key : PublicKey} (direction : Direction)
    (same : ∀ first second, related first second → first.trusts key = second.trusts key) :
    (requireTrust peer key direction).Respects related fun _ => True := by
  refine (Operation.respects_ask (fun first second stores => ?_)
    fun _ _ _ _ _ => trivial).bind fun trusted _ => ?_
  · exact congrArg Except.ok (same first second stores)
  · cases trusted with
    | true => exact Operation.respects_pure trivial
    | false => exact Operation.respects_throw _

section

variable (sees : Sees peer ours proper related)
include sees

theorem respects_record? :
    (record? peer).Respects related fun stored => ∀ record ∈ stored, proper record := by
  refine Operation.respects_ask (fun _ _ stores => sees.record_eq stores) ?_
  intro first second stored stores loaded record member
  rw [Option.mem_def.mp member] at loaded
  exact sees.loads stores loaded

theorem respects_record : (record peer).Respects related proper := by
  refine (respects_record? sees).bind fun stored holds => ?_
  cases stored with
  | some record => exact Operation.respects_pure (holds record rfl)
  | none => exact Operation.respects_throw _

theorem respects_recordOrFresh (fresh : proper .fresh) :
    (recordOrFresh peer).Respects related proper := by
  refine (respects_record? sees).bind fun stored holds => Operation.respects_pure ?_
  cases stored with
  | some record => exact holds record rfl
  | none => exact fresh

theorem respects_identity :
    (Operation.ask ProtocolStore.identity : Operation MemoryStore KeyPair).Respects related
      fun identity => identity.publicKey = ours := by
  refine Operation.respects_ask (fun _ _ stores => congrArg Except.ok (sees.identity_eq stores)) ?_
  intro first second identity stores own
  cases own
  exact sees.ours_eq stores

theorem respects_signedPrekey (id : UInt32) :
    (signedPrekey id).Respects related fun _ => True := by
  refine (Operation.respects_ask (fun _ _ stores => ?_) fun _ _ _ _ _ => trivial).bind
    fun found _ => ?_
  · exact congrArg Except.ok (sees.signed_eq id stores)
  · cases found with
    | some prekey => exact Operation.respects_pure trivial
    | none => exact Operation.respects_throw _

theorem respects_oneTimePrekey (id : UInt32) :
    (oneTimePrekey id).Respects related fun _ => True := by
  refine (Operation.respects_ask (fun _ _ stores => ?_) fun _ _ _ _ _ => trivial).bind
    fun found _ => ?_
  · exact congrArg Except.ok (sees.oneTime_eq id stores)
  · cases found with
    | some prekey => exact Operation.respects_pure trivial
    | none => exact Operation.respects_throw _

theorem respects_keep {record : SessionRecord} (holds : proper record) :
    (keep peer record).Respects related fun _ => True :=
  Operation.respects_change fun _ _ stores => sees.keeps stores holds

end

theorem respects_currentOf (record : SessionRecord) :
    (currentOf peer record).Respects related fun session => record.current = some session := by
  simp only [currentOf]
  cases record.current with
  | some session => exact Operation.respects_pure rfl
  | none => exact Operation.respects_throw _

variable (sees : Sees peer ours proper related) (upkeep : Upkeep suite peer ours proper)
include sees upkeep

theorem respects_start (bundle : PrekeyBundle) :
    (start suite peer bundle).Respects related fun _ => True := by
  simp only [start, Procedure.throw_bind]
  split
  · exact Operation.respects_throw _
  · rename_i sameIdentity
    have named : bundle.identityKey = peer.identityKey := not_ne_iff.mp sameIdentity
    rw [named]
    refine (respects_requireTrust _ fun _ _ stores => sees.trusts_eq stores).bind fun _ _ => ?_
    split
    · refine (Operation.respects_attempt fun _ _ _ _ => trivial).bind fun genuine _ => ?_
      split
      · refine (Operation.respects_ask (fun _ _ _ => rfl) fun _ _ _ _ _ => trivial).bind
          fun oneTime _ => ?_
        refine (Operation.respects_attempt fun _ _ _ _ => trivial).bind fun base _ => ?_
        refine (respects_identity sees).bind fun identity own => ?_
        refine (Operation.respects_attempt fun _ _ _ made =>
          Session.initiate_eq_ok suite made).bind fun session made => ?_
        refine (respects_recordOrFresh sees upkeep.fresh).bind fun record holds => ?_
        obtain ⟨ratchet, _, rfl⟩ := made
        exact respects_keep sees (upkeep.initiated holds own rfl)
      · exact Operation.respects_throw _
    · exact Operation.respects_throw _

theorem respects_answer {record : SessionRecord} (holds : proper record) (message : PrekeyMessage) :
    (answer suite peer record message).Respects related fun result => proper result.2 := by
  have oneTimes : (message.oneTimeId.mapM oneTimePrekey : Operation MemoryStore _).Respects related
      fun _ => True := by
    cases message.oneTimeId with
    | none => exact Operation.respects_pure trivial
    | some id => exact (respects_oneTimePrekey sees id).map some
  refine (respects_requireTrust _ fun _ _ stores => sees.trusts_eq stores).bind fun _ _ => ?_
  split
  · exact Operation.respects_pure holds
  · refine (respects_signedPrekey sees _).bind fun signed _ => ?_
    refine oneTimes.bind fun oneTime _ => ?_
    refine (respects_identity sees).bind fun identity own => ?_
    refine (Operation.respects_attempt fun _ _ _ made =>
      Session.respond_eq_ok suite made).bind fun session made => Operation.respects_pure ?_
    rw [made]
    exact upkeep.responded holds own rfl

omit sees in
theorem respects_decryptRecord {record : SessionRecord} (holds : proper record)
    (message : RatchetMessage) :
    (Operation.attempt (record.decrypt suite peer message) : Operation MemoryStore _).Respects
      related fun result => proper result.2 :=
  Operation.respects_attempt fun _ _ _ decrypted =>
    upkeep.received holds (SessionRecord.received_of_run_decrypt suite decrypted)

theorem respects_encrypt (plaintext : Bytes) :
    (encrypt peer plaintext).Respects related fun _ => True := by
  simp only [encrypt]
  refine (respects_record sees).bind fun record holds => ?_
  refine (respects_currentOf record).bind fun session stands => ?_
  have seals : (Operation.ask fun _ => session.encrypt plaintext : Operation MemoryStore _).Respects
      related fun result => proper (record.setCurrent result.2) :=
    Operation.respects_ask (fun _ _ _ => rfl) fun _ _ _ _ encrypted =>
      upkeep.encrypted holds stands encrypted
  refine seals.bind fun result kept => ?_
  refine (respects_requireTrust _ fun _ _ stores => sees.owner_eq stores kept rfl).bind
    fun _ _ => ?_
  exact (respects_keep sees kept).bind fun _ _ => Operation.respects_pure trivial

theorem respects_decryptRatchet (message : RatchetMessage)
    (receiver : Bytes → Except SessionError Unit) :
    (decryptRatchet suite peer message receiver).Respects related fun _ => True := by
  simp only [decryptRatchet]
  refine (respects_record sees).bind fun record holds => ?_
  refine (respects_decryptRecord upkeep holds message).bind fun result kept => ?_
  refine (respects_currentOf result.2).bind fun session stands => ?_
  refine (respects_requireTrust _ fun _ _ stores => sees.owner_eq stores kept stands).bind
    fun _ _ => ?_
  refine (Operation.respects_release _ _).bind fun _ _ => ?_
  exact (respects_keep sees kept).bind fun _ _ => Operation.respects_pure trivial

theorem respects_decryptPrekey (message : PrekeyMessage)
    (receiver : Bytes → Except SessionError Unit) :
    (decryptPrekey suite peer message receiver).Respects related fun _ => True := by
  simp only [decryptPrekey]
  refine (respects_recordOrFresh sees upkeep.fresh).bind fun record holds => ?_
  refine (respects_answer sees upkeep holds message).bind fun answered prepared => ?_
  refine (respects_decryptRecord upkeep prepared message.message).bind fun result kept => ?_
  refine (Operation.respects_release _ _).bind fun _ _ => ?_
  refine (respects_keep sees kept).bind fun _ _ => ?_
  split
  · refine (Operation.respects_change fun _ _ stores => sees.removes _ stores).bind fun _ _ => ?_
    exact Operation.respects_pure trivial
  · exact Operation.respects_pure trivial

/-- **Stores that are the same to a conversation are served alike.** -/
theorem respects_serve (request : Request) :
    (request.serve suite peer).Respects related fun _ => True := by
  cases request with
  | start bundle => exact (respects_start sees upkeep bundle).map _
  | encrypt plaintext => exact (respects_encrypt sees upkeep plaintext).map _
  | decrypt message receiver =>
      cases message with
      | ratchet message => exact (respects_decryptRatchet sees upkeep message receiver).map _
      | prekey message => exact (respects_decryptPrekey sees upkeep message receiver).map _

end Conversation

end Ratchet
