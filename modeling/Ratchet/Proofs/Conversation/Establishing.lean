import Mathlib.Data.List.Perm.Subperm
import Ratchet.Proofs.Conversation.Running
import Ratchet.Proofs.Dialogue.Delivery
import Ratchet.Proofs.Session.Streaming
import Ratchet.Proofs.Store.Records
import Ratchet.Proofs.Wire.Message

/-!
# A session is established by any of its first messages

One party publishes a bundle of its prekeys (`Offer`), and another one starts a
session from it and sends messages, all of which carry what the first party needs
to make its side of the session. Whichever of them arrives first makes it, and
uses up the one-time prekey; the others find it in the record.

So any of the messages arrive, in any order, and what they have done to the
store of the first party in the end is to add this one session
(`Conversation.established_by_any_message`).
-/

set_option autoImplicit false

namespace Ratchet

/-- A bundle of prekeys that are in the store of a party, with a signature that is genuine. -/
structure Offer (suite : Suite) (store : MemoryStore) where
  signedId : UInt32
  signed : SignedPrekey
  oneTime : Option (UInt32 × OneTimePrekey)
  signature : Bytes
  hasSigned : store.signedPrekeys.find? signedId = some signed
  hasOneTime : ∀ entry ∈ oneTime, store.oneTimePrekeys.find? entry.1 = some entry.2
  genuine : suite.verify store.identity.publicKey signed.pair.publicKey.toBytes signature = true

namespace Offer

variable {suite : Suite} {store : MemoryStore} (offer : Offer suite store)

/-- What others see of the offer. -/
def bundle : PrekeyBundle :=
  .make (offer.oneTime.map fun entry => (entry.1, entry.2.pair.publicKey)) offer.signedId
    offer.signed.pair.publicKey offer.signature store.identity.publicKey

/-- The pairs behind the offer. -/
def pairs : List KeyPair :=
  [store.identity, offer.signed.pair] ++ (offer.oneTime.map fun entry => entry.2.pair).toList

end Offer

/-- Two parties who know each other by their identity keys and trust each other. -/
structure Acquainted (ours theirs : MemoryStore) (toTheirs toOurs : Address) : Prop where
  forth : toTheirs.identityKey = theirs.identity.publicKey
  back : toOurs.identityKey = ours.identity.publicKey
  trusts : ours.trusts theirs.identity.publicKey = true
  trusted : theirs.trusts ours.identity.publicKey = true

/-- The record of an address, and that its stored form is a byte string that fits in memory. -/
structure MemoryStore.Has (store : MemoryStore) (address : Address)
    (stored : Option SessionRecord) : Prop where
  loads : store.loadRecord address = .ok stored
  fits : ∀ bytes ∈ store.records.find? address, bytes.length < 2 ^ 63

namespace Conversation

/-- Receives the bytes of a message. -/
def receive {ς : Type} [ProtocolStore ς] (suite : Suite) (peer : Address) (type : MessageType)
    (bytes : Bytes) (receiver : Bytes → Except SessionError Unit) : Operation ς Bytes := do
  let message ← Operation.ask fun _ => Message.parse type bytes
  decrypt suite peer message receiver

/-- Delivers a message as it is serialized, to someone who takes every text. -/
def deliver {ς : Type} [ProtocolStore ς] (suite : Suite) (peer : Address) (message : Message) :
    Operation ς Bytes :=
  receive suite peer message.type message.serialized fun _ => .ok ()

/-- Starts a session from a bundle and encrypts texts in it. -/
def startAndSend {ς : Type} [ProtocolStore ς] (suite : Suite) (peer : Address)
    (bundle : PrekeyBundle) (texts : List Bytes) : Operation ς (List Message) := do
  start suite peer bundle
  texts.mapM (encrypt peer)

/-! ## Sending -/

section

variable {peer : Address} {session : Session} {ratchet : KeyPair} {origin : ChainKey}

/-- A record with room for one more session can be stored with it. -/
theorem length_encode_promote_lt {store : MemoryStore} {stored : Option SessionRecord}
    (has : store.Has peer stored) {next : Session} (compact : next.Compact) :
    (Layout.record.encode ((stored.getD .fresh).promote next)).length < 2 ^ 64 := by
  have added := SessionRecord.length_encode_promote_le (stored.getD .fresh) next
  have small := compact.within.length_encode_lt
  have former : (Layout.record.encode (stored.getD .fresh)).length < 2 ^ 63 := by
    cases stored with
    | none => decide
    | some record =>
        obtain ⟨bytes, found, shorter⟩ := MemoryStore.length_encode_of_loadRecord has.loads
        exact shorter.trans_lt (has.fits bytes found)
  omega

/-- A session that sends goes along its chain, one message for each text. -/
theorem run_mapM_encrypt (peer : Address) (session : Session) (ratchet : KeyPair)
    (starts : origin.index = 0) (store : MemoryStore) (supply : Supply) (released : List Bytes)
    {former : SessionRecord}
    (trusts : store.trusts session.remoteIdentity = true)
    (short : ∀ sent, (Layout.record.encode
      (former.promote (session.having ratchet origin sent))).length < 2 ^ 64)
    (texts : List Bytes) (sent : Nat) (fits : sent + texts.length < 2 ^ 32) :
    (texts.mapM (encrypt peer)).run
        ⟨store.storeRecord peer (former.promote (session.having ratchet origin sent)), supply,
          released⟩ =
      (.ok (session.letters ratchet origin sent texts),
        ⟨store.storeRecord peer
            (former.promote (session.having ratchet origin (sent + texts.length))),
          supply, released⟩) := by
  induction texts generalizing sent with
  | nil => rfl
  | cons text rest ih =>
      rw [List.length_cons] at fits
      have encrypted : (session.having ratchet origin sent).encrypt text =
          .ok (session.letter ratchet origin sent text,
            session.having ratchet origin (sent + 1)) :=
        Session.encrypt_having starts (by omega) text
      let now : Context MemoryStore :=
        ⟨store.storeRecord peer (former.promote (session.having ratchet origin sent)), supply,
          released⟩
      have loads : now.store.loadRecord peer =
          .ok (some (former.promote (session.having ratchet origin sent))) :=
        MemoryStore.loadRecord_storeRecord (short sent)
      have trustsNow : now.store.trusts
          (session.having ratchet origin (sent + 1)).remoteIdentity = true := trusts
      rw [List.mapM_cons, Procedure.run_bind_of_ok (run_encrypt peer loads rfl encrypted trustsNow)]
      show Procedure.run (_ >>= _) (⟨(store.storeRecord peer _).storeRecord peer
        (former.promote (session.having ratchet origin (sent + 1))), supply, released⟩ :
          Context MemoryStore) = _
      rw [MemoryStore.storeRecord_storeRecord, Procedure.run_bind_of_ok (ih _ (by omega)),
        List.length_cons, Nat.add_right_comm sent 1]
      rfl

end

/-! ## Receiving -/

/-- A session that waits for its first answer wraps its messages, and they are read as such. -/
theorem letter_eq_prekey {session : Session} (speaks : session.version = Limits.currentVersion)
    {pending : PendingPrekey} (pends : session.pendingPrekey = some pending) (ratchet : KeyPair)
    (origin : ChainKey) (number : Nat) (text : Bytes) :
    ∃ message, session.letter ratchet origin number text = .prekey message ∧
      Message.parse .prekey message.serialized = .ok (.prekey message) ∧
      message.version = Limits.currentVersion ∧ message.oneTimeId = pending.oneTimeId ∧
      message.signedId = pending.signedId ∧ message.baseKey = pending.baseKey ∧
      message.message = (session.letter ratchet origin number text).inner := by
  have readable : Message.parse (session.letter ratchet origin number text).type
      (session.letter ratchet origin number text).serialized =
      .ok (session.letter ratchet origin number text) :=
    Message.parse_wrap_sealed speaks ⟨ratchet, origin.ahead number⟩ text
  simp only [Session.letter, Session.wrap, Session.having] at readable ⊢
  rw [pends] at readable ⊢
  exact ⟨_, rfl, readable, speaks, rfl, rfl, rfl, rfl⟩

/-- Bytes that are read as a message are decrypted as this message. -/
theorem run_receive {suite : Suite} {peer : Address} {type : MessageType} {bytes : Bytes}
    {message : Message} (readable : Message.parse type bytes = .ok message)
    (receiver : Bytes → Except SessionError Unit) (context : Context MemoryStore) :
    (receive suite peer type bytes receiver).run context =
      (decrypt suite peer message receiver).run context := by
  simp only [receive]
  rw [Procedure.run_bind_of_ok (Operation.run_ask_of_ok readable)]

section

variable {suite : Suite} {peer : Address} {sender receiver : Session} {ratchet : KeyPair}
  {origin : ChainKey} {base : PublicKey} {progress : Progress} {store : MemoryStore}
  {former : SessionRecord} {used : Option UInt32}

/-- The store with one more session in a record, and without the prekey it has used up. -/
def established (store : MemoryStore) (peer : Address) (former : SessionRecord)
    (used : Option UInt32) (session : Session) : MemoryStore :=
  (store.storeRecord peer (former.promote session)).withoutOneTime used

theorem loadRecord_established
    (short : (Layout.record.encode (former.promote receiver)).length < 2 ^ 64) :
    (established store peer former used receiver).loadRecord peer =
      .ok (some (former.promote receiver)) := by
  have loads : (store.storeRecord peer (former.promote receiver)).loadRecord peer = _ :=
    MemoryStore.loadRecord_storeRecord short
  cases used <;> exact loads

/-- Updating the session is establishing its update. -/
theorem storeRecord_established (next : Session) :
    (established store peer former used receiver).storeRecord peer (former.promote next) =
      established store peer former used next := by
  have twice := MemoryStore.storeRecord_storeRecord store peer (former.promote receiver)
    (former.promote next)
  cases used with
  | none => exact twice
  | some id => exact congrArg (MemoryStore.withoutOneTime · (some id)) twice

theorem trusts_established (session : Session) (key : PublicKey) :
    (established store peer former used session).trusts key = store.trusts key := by
  cases used <;> rfl

/-- A receiver takes a message that it awaits out of the store, and is kept in its place. -/
theorem run_deliver_known (suite : Suite)
    (hears : receiver.Hears sender ratchet origin base progress)
    (speaks : sender.version = Limits.currentVersion) (starts : origin.index = 0)
    {pending : PendingPrekey} (pends : sender.pendingPrekey = some pending)
    (named : pending.baseKey = base) (trusts : store.trusts peer.identityKey = true)
    (short : (Layout.record.encode (former.promote receiver)).length < 2 ^ 64)
    {number : Nat} (near : number ≤ Limits.skippedKeys) (awaited : progress.Awaits number)
    (text : Bytes) (supply : Supply) (released : List Bytes) :
    ∃ next after,
      (deliver suite peer (sender.letter ratchet origin number text)).run
          ⟨established store peer former used receiver, supply, released⟩ =
        (.ok text, ⟨established store peer former used next, supply, text :: released⟩) ∧
      next.Hears sender ratchet origin base after ∧
      ∀ other, other ≠ number → progress.Awaits other → after.Awaits other := by
  obtain ⟨next, after, decrypted, hearsNext, others⟩ :=
    hears.run_decrypt suite speaks starts near awaited text supply
  refine ⟨next, after, ?_, hearsNext, others⟩
  obtain ⟨message, same, readable, version, _, _, baseKey, inner⟩ :=
    letter_eq_prekey speaks pends ratchet origin number text
  rw [same]
  show (receive suite peer .prekey message.serialized _).run _ = _
  rw [run_receive readable]
  show (decryptPrekey suite peer message _).run _ = _
  have known : (former.promote receiver).hasSession message.version message.baseKey = true := by
    refine List.any_eq_true.mpr ⟨receiver, List.mem_cons_self, ?_⟩
    rw [version, baseKey, hears.version, hears.named, named]
    simp
  let now : Context MemoryStore := ⟨established store peer former used receiver, supply, released⟩
  have loads : now.store.loadRecord peer = .ok (some (former.promote receiver)) :=
    loadRecord_established short
  have trustsNow : now.store.trusts peer.identityKey = true :=
    (trusts_established receiver _).trans trusts
  rw [← inner] at decrypted
  rw [run_decryptPrekey suite peer loads (run_answer_known suite peer trustsNow known)
    (SessionRecord.run_decrypt_current suite peer rfl decrypted) rfl]
  exact congrArg (fun store => (Except.ok text, (⟨store, supply, text :: released⟩ :
    Context MemoryStore))) (storeRecord_established next)

/-- Whichever message comes first makes the session and is received in it. -/
theorem run_deliver_first {stored : Option SessionRecord}
    (loads : store.loadRecord peer = .ok stored)
    (speaks : sender.version = Limits.currentVersion) (starts : origin.index = 0)
    {pending : PendingPrekey} (pends : sender.pendingPrekey = some pending)
    (trusts : store.trusts peer.identityKey = true)
    (unknown : (stored.getD .fresh).hasSession Limits.currentVersion pending.baseKey = false)
    {signed : SignedPrekey} (hasSigned : store.signedPrekeys.find? pending.signedId = some signed)
    {oneTime : Option OneTimePrekey}
    (hasOneTime : Option.Rel (fun id prekey => store.oneTimePrekeys.find? id = some prekey)
      pending.oneTimeId oneTime)
    (source : peer.identityKey = sender.localIdentity)
    (target : store.identity.publicKey = sender.remoteIdentity)
    (agreed : ((Session.responded suite ⟨store.identity, signed.pair,
      oneTime.map OneTimePrekey.pair, signed.pair, peer.identityKey, pending.baseKey⟩).root.turn
        (suite.agree signed.pair.privateKey ratchet.publicKey)).2 = origin)
    {number : Nat} (near : number ≤ Limits.skippedKeys) (text : Bytes) {supply : Supply}
    {pairs : Nat} (lasts : supply.Lasts (pairs + 1)) (released : List Bytes) :
    ∃ next after later,
      (deliver suite peer (sender.letter ratchet origin number text)).run
          ⟨store, supply, released⟩ =
        (.ok text, ⟨established store peer (stored.getD .fresh) pending.oneTimeId next, later,
          text :: released⟩) ∧
      next.Hears sender ratchet origin pending.baseKey after ∧
      ∀ other, other ≠ number → after.Awaits other := by
  obtain ⟨message, same, readable, version, oneTimeId, signedId, baseKey, inner⟩ :=
    letter_eq_prekey speaks pends ratchet origin number text
  obtain ⟨next, after, later, decrypted, hears, others⟩ :=
    Session.run_decrypt_first suite speaks starts source target agreed near text lasts
  refine ⟨next, after, later, ?_, hears, others⟩
  rw [same]
  show (receive suite peer .prekey message.serialized _).run _ = _
  rw [run_receive readable]
  show (decryptPrekey suite peer message _).run _ = _
  let now : Context MemoryStore := ⟨store, supply, released⟩
  have loadsNow : now.store.loadRecord peer = .ok stored := loads
  have trustsNow : now.store.trusts peer.identityKey = true := trusts
  rw [← version, ← baseKey] at unknown
  rw [← signedId] at hasSigned
  have answered := run_answer_new suite peer trustsNow unknown hasSigned
    (by rw [oneTimeId]; exact hasOneTime) lasts
  rw [← inner] at decrypted
  rw [Conversation.terms, baseKey] at answered
  rw [run_decryptPrekey suite peer loadsNow answered
    (SessionRecord.run_decrypt_current suite peer rfl decrypted) rfl, oneTimeId]
  rfl

/-- Any messages that are awaited are taken, in any order. -/
theorem run_mapM_deliver (speaks : sender.version = Limits.currentVersion)
    (starts : origin.index = 0) {pending : PendingPrekey}
    (pends : sender.pendingPrekey = some pending) (named : pending.baseKey = base)
    (trusts : store.trusts peer.identityKey = true)
    (short : ∀ session : Session, session.Compact →
      (Layout.record.encode (former.promote session)).length < 2 ^ 64)
    {chosen : List (Message × Bytes)}
    (distinct : (chosen.map fun sent => sent.1.inner.counter.toNat).Nodup)
    (sent : ∀ each ∈ chosen, ∃ number, number ≤ Limits.skippedKeys ∧
      progress.Awaits number ∧ each.1 = sender.letter ratchet origin number each.2)
    (hears : receiver.Hears sender ratchet origin base progress) (supply : Supply)
    (released : List Bytes) :
    ∃ next later,
      (chosen.mapM fun each => deliver suite peer each.1).run
          ⟨established store peer former used receiver, supply, released⟩ =
        (.ok (chosen.map Prod.snd), ⟨established store peer former used next, supply, later⟩) ∧
      next.initiatorBase = some base := by
  induction chosen generalizing receiver progress released with
  | nil => exact ⟨receiver, released, rfl, hears.named⟩
  | cons first rest ih =>
      obtain ⟨now, others⟩ := List.forall_mem_cons.mp sent
      obtain ⟨number, near, awaited, is⟩ := now
      rw [List.map_cons, List.nodup_cons] at distinct
      obtain ⟨next, after, delivered, hearsNext, stillAwaited⟩ :=
        run_deliver_known suite hears speaks starts pends named trusts
          (short receiver hears.compact) near awaited first.2 supply released
      have later : ∀ each ∈ rest, ∃ number, number ≤ Limits.skippedKeys ∧
          after.Awaits number ∧ each.1 = sender.letter ratchet origin number each.2 := by
        intro each member
        obtain ⟨other, otherNear, otherAwaited, otherIs⟩ := others each member
        refine ⟨other, otherNear, stillAwaited other ?_ otherAwaited, otherIs⟩
        rintro rfl
        refine distinct.1 (List.mem_map.mpr ⟨each, member, ?_⟩)
        have fits : other < 2 ^ 32 := otherNear.trans_lt (by decide)
        rw [otherIs, is, Session.counter_letter starts fits, Session.counter_letter starts fits]
      obtain ⟨final, handed, finished, finalNamed⟩ := ih distinct.2 later hearsNext
        (first.2 :: released)
      refine ⟨final, handed, ?_, finalNamed⟩
      rw [List.mapM_cons, is, Procedure.run_bind_of_ok delivered]
      rw [Procedure.run_bind_of_ok finished]
      rfl

end

/-! ## The main result -/

section

variable {suite : Suite} {alice bob : MemoryStore} {toBob toAlice : Address}

/-- What the initiator of a session from the offer knows. -/
def initiatorTerms (offer : Offer suite bob) (identity base : KeyPair) : InitiatorTerms :=
  bundleTerms identity base bob.identity.publicKey offer.signed.pair.publicKey
    (offer.oneTime.map fun entry => entry.2.pair.publicKey)

/-- What the party that made the offer knows, once it is told of the base key. -/
def responderTerms (offer : Offer suite bob) (theirIdentity theirBase : PublicKey) :
    ResponderTerms where
  ourIdentity := bob.identity
  ourSignedPrekey := offer.signed.pair
  ourOneTimePrekey := offer.oneTime.map fun entry => entry.2.pair
  ourRatchet := offer.signed.pair
  theirIdentity := theirIdentity
  theirBase := theirBase

/-- Nobody brings other pairs to the handshake than these. -/
theorem pairs_subset (offer : Offer suite bob) (identity base : KeyPair) :
    (initiatorTerms offer identity base).pairs ++
        (responderTerms offer identity.publicKey base.publicKey).pairs ⊆
      identity :: base :: offer.pairs := by
  intro pair member
  simp only [InitiatorTerms.pairs, ResponderTerms.pairs, initiatorTerms, bundleTerms,
    responderTerms, Offer.pairs, List.cons_append, List.nil_append, List.mem_cons] at member ⊢
  tauto

/-- Whoever starts a session from an offer and whoever made it know the same. -/
theorem terms_match (offer : Offer suite bob) {identity base : KeyPair}
    (paired : ∀ pair ∈ identity :: base :: offer.pairs,
      pair.publicKey = suite.publicKey pair.privateKey) :
    TermsMatch suite (initiatorTerms offer identity base)
      (responderTerms offer identity.publicKey base.publicKey) where
  wellFormed pair member := paired pair (pairs_subset offer identity base member)
  identity := rfl
  signedPrekey := rfl
  oneTimePrekey := by
    simp only [initiatorTerms, bundleTerms, responderTerms, Option.map_map]
    rfl
  ratchet := rfl
  initiatorIdentity := rfl
  initiatorBase := rfl

/-- The chain of the initiator's first messages. -/
def firstChain (offer : Offer suite bob) (identity base ratchet : KeyPair) : ChainKey :=
  ((Handshake.derive ((initiatorTerms offer identity base).secrets suite)).1.turn
    (suite.agree ratchet.privateKey offer.signed.pair.publicKey)).2

/-- The initiator's session. -/
def starter (offer : Offer suite bob) (identity base ratchet : KeyPair) : Session :=
  opening suite (initiatorTerms offer identity base) ratchet offer.bundle.oneTimeId
    offer.bundle.signedId

theorem compact_starter_having (offer : Offer suite bob) (identity base ratchet : KeyPair)
    (sent : Nat) :
    ((starter offer identity base ratchet).having ratchet
      (firstChain offer identity base ratchet) sent).Compact :=
  (Session.compact_initiated suite (initiatorTerms offer identity base) ratchet).congr rfl

/-- The other party makes the same chain for these messages. -/
theorem firstChain_eq (offer : Offer suite bob) {identity base ratchet : KeyPair}
    (paired : ∀ pair ∈ ratchet :: identity :: base :: offer.pairs,
      pair.publicKey = suite.publicKey pair.privateKey)
    (commutes : suite.CommutesOn
      ((ratchet :: identity :: base :: offer.pairs).map (·.privateKey))) :
    ((Session.responded suite (responderTerms offer identity.publicKey base.publicKey)).root.turn
        (suite.agree offer.signed.pair.privateKey ratchet.publicKey)).2 =
      firstChain offer identity base ratchet := by
  have signed : offer.signed.pair ∈ ratchet :: identity :: base :: offer.pairs := by
    simp [Offer.pairs]
  have agreed := commutes.agree_eq (paired ratchet List.mem_cons_self) (paired _ signed)
    (List.mem_map_of_mem List.mem_cons_self) (List.mem_map_of_mem signed)
  have secrets := (terms_match offer fun pair member =>
    paired pair (List.mem_cons_of_mem _ member)).secrets_eq (commutes.mono
      (List.map_subset _ (List.Subset.trans (pairs_subset offer identity base)
        (List.subset_cons_self _ _))))
  rw [firstChain, secrets, agreed]
  rfl

/-- Whoever starts a session from an offer can send at once. -/
theorem run_startAndSend (acquainted : Acquainted alice bob toBob toAlice)
    (offer : Offer suite bob) {stored : Option SessionRecord} (has : alice.Has toBob stored)
    {supply rest last : Supply} (verifies : supply.verification = .unlimited)
    (lasts : supply.Lasts 2) {base ratchet : KeyPair}
    (first : suite.generate.run supply = (.ok base, rest))
    (second : suite.generate.run rest = (.ok ratchet, last)) {texts : List Bytes}
    (few : texts.length ≤ 2001) :
    ∃ later, (startAndSend suite toBob offer.bundle texts).run { store := alice, supply } =
      (.ok ((starter offer alice.identity base ratchet).letters ratchet
        (firstChain offer alice.identity base ratchet) 0 texts), later) := by
  let sender := starter offer alice.identity base ratchet
  let origin := firstChain offer alice.identity base ratchet
  have together : oneTimeOf offer.bundle =
      .ok (offer.oneTime.map fun entry => (entry.1, entry.2.pair.publicKey)) := by
    simp only [oneTimeOf, Offer.bundle, PrekeyBundle.make]
    cases offer.oneTime <;> rfl
  have trusts : alice.trusts toBob.identityKey = true := by
    rw [acquainted.forth]
    exact acquainted.trusts
  have genuine : suite.verify toBob.identityKey offer.signed.pair.publicKey.toBytes
      offer.bundle.signature = true := by
    rw [acquainted.forth]
    exact offer.genuine
  let now : Context MemoryStore := { store := alice, supply }
  have trustsNow : now.store.trusts toBob.identityKey = true := trusts
  have same : opening suite (bundleTerms alice.identity base toBob.identityKey
      offer.signed.pair.publicKey ((offer.oneTime.map fun entry =>
        (entry.1, entry.2.pair.publicKey)).map Prod.snd)) ratchet
      ((offer.oneTime.map fun entry => (entry.1, entry.2.pair.publicKey)).map Prod.fst)
      offer.bundle.signedId = sender.having ratchet origin 0 := by
    rw [acquainted.forth, Option.map_map]
    rfl
  have short : ∀ sent, (Layout.record.encode
      ((stored.getD .fresh).promote (sender.having ratchet origin sent))).length < 2 ^ 64 :=
    fun sent => length_encode_promote_lt has (compact_starter_having offer _ base ratchet sent)
  have trustsSender : alice.trusts sender.remoteIdentity = true := acquainted.trusts
  have started : (start suite toBob offer.bundle).run now =
      (.ok ⟨⟩, ⟨alice.storeRecord toBob ((stored.getD .fresh).promote
        (sender.having ratchet origin 0)), last, []⟩) := by
    rw [← same]
    exact run_start suite toBob acquainted.forth.symm trustsNow rfl together genuine has.loads
      verifies lasts first second
  have sends := run_mapM_encrypt toBob sender ratchet rfl alice last [] trustsSender short texts 0
    (by omega)
  refine ⟨⟨alice.storeRecord toBob ((stored.getD .fresh).promote
    (sender.having ratchet origin (0 + texts.length))), last, []⟩, ?_⟩
  simp only [startAndSend]
  rw [Procedure.run_bind_of_ok started]
  exact sends

/-- The one-time prekey of an offer is in the store. -/
theorem rel_oneTime (offer : Offer suite bob) :
    Option.Rel (fun id prekey => bob.oneTimePrekeys.find? id = some prekey)
      offer.bundle.oneTimeId (offer.oneTime.map Prod.snd) := by
  simp only [Offer.bundle, PrekeyBundle.make]
  cases offered : offer.oneTime with
  | none => exact .none
  | some entry => exact .some (offer.hasOneTime entry offered)

/-- Whoever made the offer takes any messages of the session, in any order. -/
theorem run_mapM_deliver_first (acquainted : Acquainted alice bob toBob toAlice)
    (offer : Offer suite bob) {stored : Option SessionRecord} (has : bob.Has toAlice stored)
    {base ratchet : KeyPair}
    (paired : ∀ pair ∈ ratchet :: alice.identity :: base :: offer.pairs,
      pair.publicKey = suite.publicKey pair.privateKey)
    (commutes : suite.CommutesOn
      ((ratchet :: alice.identity :: base :: offer.pairs).map (·.privateKey)))
    (unknown : (stored.getD .fresh).hasSession Limits.currentVersion base.publicKey = false)
    {first : Message × Bytes} {rest : List (Message × Bytes)}
    (distinct : ((first :: rest).map fun sent => sent.1.inner.counter.toNat).Nodup)
    (sent : ∀ each ∈ first :: rest, ∃ number, number ≤ Limits.skippedKeys ∧
      each.1 = (starter offer alice.identity base ratchet).letter ratchet
        (firstChain offer alice.identity base ratchet) number each.2)
    {supply : Supply} (lasts : supply.Lasts 1) :
    ∃ session ending,
      ((first :: rest).mapM fun each => deliver suite toAlice each.1).run
        { store := bob, supply } = (.ok ((first :: rest).map Prod.snd), ending) ∧
      session.initiatorBase = some base.publicKey ∧
      ending.store = established bob toAlice (stored.getD .fresh) offer.bundle.oneTimeId
        session := by
  let sender := starter offer alice.identity base ratchet
  let origin := firstChain offer alice.identity base ratchet
  obtain ⟨now, others⟩ := List.forall_mem_cons.mp sent
  obtain ⟨number, near, is⟩ := now
  rw [List.map_cons, List.nodup_cons] at distinct
  have trusts : bob.trusts toAlice.identityKey = true := by
    rw [acquainted.back]
    exact acquainted.trusted
  have agreed : ((Session.responded suite ⟨bob.identity, offer.signed.pair,
      (offer.oneTime.map Prod.snd).map OneTimePrekey.pair, offer.signed.pair, toAlice.identityKey,
        base.publicKey⟩).root.turn
        (suite.agree offer.signed.pair.privateKey ratchet.publicKey)).2 = origin := by
    rw [acquainted.back, Option.map_map]
    exact firstChain_eq offer paired commutes
  have speaks : sender.version = Limits.currentVersion := rfl
  have starts : origin.index = 0 := rfl
  have pends : sender.pendingPrekey =
      some ⟨offer.bundle.oneTimeId, offer.bundle.signedId, base.publicKey⟩ := rfl
  obtain ⟨next, after, later, delivered, hears, awaited⟩ := run_deliver_first has.loads speaks
    starts pends trusts unknown offer.hasSigned (rel_oneTime offer) acquainted.back rfl agreed near
    first.2 lasts []
  have left : ∀ each ∈ rest, ∃ number, number ≤ Limits.skippedKeys ∧ after.Awaits number ∧
      each.1 = sender.letter ratchet origin number each.2 := by
    intro each member
    obtain ⟨other, otherNear, otherIs⟩ := others each member
    refine ⟨other, otherNear, awaited other ?_, otherIs⟩
    rintro rfl
    refine distinct.1 (List.mem_map.mpr ⟨each, member, ?_⟩)
    have fits : other < 2 ^ 32 := otherNear.trans_lt (by decide)
    rw [otherIs, is, Session.counter_letter rfl fits, Session.counter_letter rfl fits]
  obtain ⟨session, released, finished, named⟩ := run_mapM_deliver speaks starts pends rfl trusts
    (fun _ compact => length_encode_promote_lt has compact) distinct.2 left hears later [first.2]
  refine ⟨session, ⟨established bob toAlice (stored.getD .fresh) offer.bundle.oneTimeId session,
    later, released⟩, ?_, named, rfl⟩
  rw [List.mapM_cons, is, Procedure.run_bind_of_ok delivered]
  rw [Procedure.run_bind_of_ok finished]
  rfl

/-- **A session is established by any of its first messages.** When someone has started a
session from an offer and sent up to 2001 texts in it, each message carries the numbers of the
offer and the same base key, and any of the messages, in any order, give their texts to the
party that made the offer. Its store then has one more session, that of the base key, which
the first of the messages has made, and has no longer the one-time prekey. -/
theorem established_by_any_message (acquainted : Acquainted alice bob toBob toAlice)
    (offer : Offer suite bob) {aliceStored bobStored : Option SessionRecord}
    (aliceHas : alice.Has toBob aliceStored) (bobHas : bob.Has toAlice bobStored)
    {supply rest last : Supply} (verifies : supply.verification = .unlimited)
    (lasts : supply.Lasts 2) {base ratchet : KeyPair}
    (first : suite.generate.run supply = (.ok base, rest))
    (second : suite.generate.run rest = (.ok ratchet, last))
    (paired : ∀ pair ∈ alice.identity :: offer.pairs,
      pair.publicKey = suite.publicKey pair.privateKey)
    (commutes : suite.CommutesOn
      ((ratchet :: alice.identity :: base :: offer.pairs).map (·.privateKey)))
    (unknown : (bobStored.getD .fresh).hasSession Limits.currentVersion base.publicKey = false)
    {texts : List Bytes} (few : texts.length ≤ 2001) :
    ∃ messages later,
      (startAndSend suite toBob offer.bundle texts).run { store := alice, supply } =
        (.ok messages, later) ∧
      messages.length = texts.length ∧
      (∀ message ∈ messages, ∃ prekey, message = .prekey prekey ∧
        prekey.oneTimeId = offer.bundle.oneTimeId ∧ prekey.signedId = offer.bundle.signedId ∧
        prekey.baseKey = base.publicKey) ∧
      ∀ chosen : List (Message × Bytes), chosen.Subperm (messages.zip texts) →
        ∀ supply : Supply, supply.Lasts 1 →
          ∃ ending, (chosen.mapM fun sent => deliver suite toAlice sent.1).run
              { store := bob, supply } = (.ok (chosen.map Prod.snd), ending) ∧
            (chosen ≠ [] → ∃ session, session.initiatorBase = some base.publicKey ∧
              ending.store = (bob.storeRecord toAlice ((bobStored.getD .fresh).promote
                session)).withoutOneTime offer.bundle.oneTimeId) := by
  let sender := starter offer alice.identity base ratchet
  let origin := firstChain offer alice.identity base ratchet
  obtain ⟨later, sends⟩ :=
    run_startAndSend acquainted offer aliceHas verifies lasts first second few
  refine ⟨_, later, sends, Session.length_letters 0 texts, ?_, ?_⟩
  · intro message member
    obtain ⟨number, text, rfl⟩ := Session.exists_eq_letter_of_mem member
    have speaks : sender.version = Limits.currentVersion := rfl
    have pends : sender.pendingPrekey =
        some ⟨offer.bundle.oneTimeId, offer.bundle.signedId, base.publicKey⟩ := rfl
    obtain ⟨prekey, same, _, _, oneTimeId, signedId, baseKey, _⟩ :=
      letter_eq_prekey speaks pends ratchet origin number text
    exact ⟨prekey, same, oneTimeId, signedId, baseKey⟩
  · intro chosen among supply lasts
    obtain ⟨those, arranged, sublist⟩ := among
    cases chosen with
    | nil => exact ⟨_, rfl, fun none => absurd rfl none⟩
    | cons one others =>
        have all : ∀ pair ∈ ratchet :: alice.identity :: base :: offer.pairs,
            pair.publicKey = suite.publicKey pair.privateKey := by
          intro pair member
          simp only [List.mem_cons] at member
          rcases member with rfl | rfl | rfl | member
          · exact suite.generate_eq_ok second
          · exact paired _ List.mem_cons_self
          · exact suite.generate_eq_ok first
          · exact paired _ (List.mem_cons_of_mem _ member)
        have distinct : ((one :: others).map fun sent => sent.1.inner.counter.toNat).Nodup := by
          have numbered : (((sender.letters ratchet origin 0 texts).zip texts).map
              fun sent => sent.1.inner.counter.toNat).Nodup :=
            Session.nodup_counters rfl (by omega)
          exact (arranged.map _).nodup_iff.mp (numbered.sublist (sublist.map _))
        have sent : ∀ each ∈ one :: others, ∃ number, number ≤ Limits.skippedKeys ∧
            each.1 = sender.letter ratchet origin number each.2 := by
          intro each member
          obtain ⟨number, _, below, same⟩ := Session.eq_letter_of_mem_zip
            (sublist.subset (arranged.mem_iff.mpr member))
          have limit : Limits.skippedKeys = 2000 := rfl
          exact ⟨number, by omega, same⟩
        obtain ⟨session, ending, delivered, named, store⟩ :=
          run_mapM_deliver_first acquainted offer bobHas all commutes unknown distinct sent lasts
        exact ⟨ending, delivered, fun _ => ⟨session, named, store⟩⟩

end

/-! ## The second message comes first -/

section

open Dialogue

def sampleAlice : MemoryStore := .ofIdentity (samplePair 0)

/-- A party that uses one pair for everything. -/
def sampleBob : MemoryStore :=
  { MemoryStore.ofIdentity (samplePair 3) with
    oneTimePrekeys := Table.empty.insert 6 ⟨6, samplePair 3⟩
    signedPrekeys := Table.empty.insert 1 ⟨1, 0, samplePair 3, []⟩ }

def sampleOffer : Offer Suite.classic sampleBob where
  signedId := 1
  signed := ⟨1, 0, samplePair 3, []⟩
  oneTime := some (6, ⟨6, samplePair 3⟩)
  signature :=
    (Suite.classic.sign (sampleSecret 3) (samplePair 3).publicKey.toBytes default).toList
  hasSigned := by decide +kernel
  hasOneTime := by decide +kernel
  genuine := by decide +kernel

/-- Where a party with this pair is found. -/
def sampleAddress (byte : UInt8) : Address := ⟨⟨(samplePair byte).publicKey⟩, default⟩

def sampleSupplies : Supply where
  entropy := .stock (List.replicate 32 1 ++ List.replicate 32 2)

theorem commutes_offer :
    Suite.classic.CommutesOn [sampleSecret 3, sampleSecret 0, sampleSecret 1, sampleSecret 2] :=
  Suite.commutes_classic.commutesOn _

theorem acquainted_samples :
    Acquainted sampleAlice sampleBob (sampleAddress 3) (sampleAddress 0) :=
  ⟨rfl, rfl, rfl, rfl⟩

theorem paired_offer : ∀ pair ∈ sampleAlice.identity :: sampleOffer.pairs,
    pair.publicKey = Suite.classic.publicKey pair.privateKey := by
  intro pair member
  simp only [sampleOffer, Offer.pairs, List.cons_append, List.nil_append, List.mem_cons,
    Option.map_some, Option.toList_some, List.not_mem_nil, or_false] at member
  rcases member with rfl | rfl | rfl | rfl <;> rfl

/-- A store without records has none for any address. -/
theorem has_none {store : MemoryStore} (empty : store.records = .empty) (address : Address) :
    store.Has address none := by
  have absent : store.records.find? address = none := by
    rw [empty]
    rfl
  refine ⟨MemoryStore.loadRecord_of_find?_none absent, fun bytes found => ?_⟩
  rw [absent] at found
  cases found

/-- The second of two messages makes the session, and the first one is still taken. -/
theorem established_by_second_message :
    ∃ first second later,
      (startAndSend Suite.classic (sampleAddress 3) sampleOffer.bundle [[1], [2]]).run
        { store := sampleAlice, supply := sampleSupplies } = (.ok [first, second], later) ∧
      ∃ ending, ([(second, [2]), (first, [1])].mapM fun sent =>
          deliver Suite.classic (sampleAddress 0) sent.1).run
            { store := sampleBob, supply := sampleSupply 4 } = (.ok [[2], [1]], ending) ∧
        ∃ session, session.initiatorBase = some (samplePair 1).publicKey ∧
          ending.store = (sampleBob.storeRecord (sampleAddress 0)
            (SessionRecord.fresh.promote session)).withoutOneTime (some 6) := by
  have lasts : sampleSupplies.Lasts 2 := ⟨rfl, rfl, Entropy.lasts_stock (by decide)⟩
  have firstPair : Suite.classic.generate.run sampleSupplies =
      (.ok (samplePair 1), { entropy := .stock (List.replicate 32 2) }) := rfl
  have secondPair : Suite.classic.generate.run { entropy := .stock (List.replicate 32 2) } =
      (.ok (samplePair 2), { entropy := .stock [] }) := rfl
  have fewer : (samplePair 2 :: sampleAlice.identity :: samplePair 1 ::
      sampleOffer.pairs).map (·.privateKey) ⊆
      [sampleSecret 3, sampleSecret 0, sampleSecret 1, sampleSecret 2] := by
    simp [sampleAlice, sampleBob, sampleOffer, Offer.pairs, samplePair, MemoryStore.ofIdentity]
  have few : ([[1], [2]] : List Bytes).length ≤ 2001 := by decide
  obtain ⟨messages, later, sends, length, _, takes⟩ := established_by_any_message
    acquainted_samples sampleOffer (has_none rfl _) (has_none rfl _) rfl lasts firstPair secondPair
    paired_offer (commutes_offer.mono fewer) rfl few
  obtain ⟨first, second, rfl⟩ := List.length_eq_two.mp length
  have swapped : ([(second, [2]), (first, [1])] : List (Message × Bytes)).Subperm
      ([first, second].zip [[1], [2]]) := (List.Perm.swap _ _ _).subperm
  obtain ⟨ending, delivered, established⟩ := takes _ swapped _ (lasts_sample 4)
  exact ⟨first, second, later, sends, ending, delivered, established (List.cons_ne_nil _ _)⟩

end

end Conversation

end Ratchet
