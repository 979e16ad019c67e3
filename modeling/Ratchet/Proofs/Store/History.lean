import Ratchet.Proofs.Conversation.Outcomes
import Ratchet.Proofs.Conversation.Requests
import Ratchet.Proofs.Record.Tidiness
import Ratchet.Proofs.Store.Records
import Ratchet.Proofs.Wire.Message

/-!
# What a store has been through

The owner of a store starts sessions from bundles, encrypts texts, and receives
bytes, which may be anything and come from anyone; keeps and removes prekeys; and
trusts identities or stops trusting them (`Deed`). Every deed turns a store into
a store, since a request that fails leaves it as it was.

Whatever happens, each record in the store is proper (`SessionRecord.Proper`):
there is a current session, the archive keeps to its limit, every session belongs
to the store's identity and that of the address, and no two sessions have the
same base key. This needs only that a base key that is generated is not that of
a session the record has (`Deed.Fresh`); the base keys and identities that others
put in their messages may be chosen at will
(`MemoryStore.proper_after`).
-/

set_option autoImplicit false

namespace Ratchet

/-- What the owner of a store can do. -/
inductive Deed where
  | start (peer : Address) (bundle : PrekeyBundle) (supply : Supply)
  | encrypt (peer : Address) (plaintext : Bytes) (supply : Supply)
  /-- What is no message of the type is thrown away. -/
  | receive (peer : Address) (type : MessageType) (bytes : Bytes)
      (receiver : Bytes → Except SessionError Unit) (supply : Supply)
  | storeOneTime (id : UInt32) (prekey : OneTimePrekey)
  | removeOneTime (id : UInt32)
  | storeSigned (id : UInt32) (prekey : SignedPrekey)
  | removeSigned (id : UInt32)
  | trust (key : PublicKey)
  | distrust (key : PublicKey)

/-- A record as it is kept for an address: a current session, not too many others, all of
them between these identities, and no two with the same base key. -/
structure SessionRecord.Proper (record : SessionRecord) (ours theirs : PublicKey) : Prop where
  current : record.current.isSome
  few : record.archived.length ≤ Limits.archivedSessions
  belong : ∀ session ∈ record.sessions, session.Belongs ours theirs
  named : (record.sessions.map (·.initiatorBase)).Nodup

namespace MemoryStore

variable (suite : Suite)

/-- The store after a request, whatever comes of it. -/
def serve (store : MemoryStore) (peer : Address) (request : Request) (supply : Supply) :
    MemoryStore :=
  ((request.serve suite peer).run { store, supply }).2.store

/-- The store after a deed. -/
def perform (store : MemoryStore) : Deed → MemoryStore
  | .start peer bundle supply => store.serve suite peer (.start bundle) supply
  | .encrypt peer plaintext supply => store.serve suite peer (.encrypt plaintext) supply
  | .receive peer type bytes receiver supply =>
    match Message.parse type bytes with
    | .ok message => store.serve suite peer (.decrypt message receiver) supply
    | .error _ => store
  | .storeOneTime id prekey =>
    { store with oneTimePrekeys := store.oneTimePrekeys.insert id prekey }
  | .removeOneTime id => { store with oneTimePrekeys := store.oneTimePrekeys.erase id }
  | .storeSigned id prekey => { store with signedPrekeys := store.signedPrekeys.insert id prekey }
  | .removeSigned id => { store with signedPrekeys := store.signedPrekeys.erase id }
  | .trust key => store.trust key
  | .distrust key => store.distrust key

/-- The store after any number of deeds. -/
def after (store : MemoryStore) (deeds : List Deed) : MemoryStore :=
  deeds.foldl (perform suite) store

end MemoryStore

/-- A base key that is generated for a session is not that of a session in the record. -/
def Deed.Fresh (suite : Suite) (store : MemoryStore) : Deed → Prop
  | .start peer bundle supply =>
    ∀ record ∈ (store.loadRecord peer).toOption.join,
      ((Conversation.start suite peer bundle).run { store, supply }).1.toOption = some ⟨⟩ →
      ∀ base ∈ (suite.generate.run supply).1.toOption,
        some base.publicKey ∉ record.sessions.map (·.initiatorBase)
  | _ => True

namespace MemoryStore

variable (suite : Suite)

/-- Every base key that is generated is fresh at its time. -/
def FreshAlong (store : MemoryStore) : List Deed → Prop
  | [] => True
  | deed :: rest => deed.Fresh suite store ∧ (store.perform suite deed).FreshAlong rest

/-- Every record is stored in its form, has a current session, and is tidy. -/
def Orderly (store : MemoryStore) : Prop :=
  ∀ address bytes, store.records.find? address = some bytes →
    ∃ record, bytes = Layout.record.encode record ∧ record.current.isSome ∧
      record.Tidy store.identity.publicKey address.identityKey

variable {store later : MemoryStore}

theorem orderly_iff : store.Orderly ↔ store.Keeps fun ours theirs record =>
    record.current.isSome ∧ record.Tidy ours theirs := Iff.rfl

/-- Whether a store is orderly depends on its records and the identity alone. -/
theorem Orderly.congr (orderly : store.Orderly) (identity : later.identity = store.identity)
    (records : later.records = store.records) : later.Orderly :=
  orderly_iff.mpr ((orderly_iff.mp orderly).congr identity records)

theorem orderly_of_empty (empty : store.records = .empty) : store.Orderly :=
  orderly_iff.mpr (keeps_of_empty empty)

theorem Orderly.storeRecord (orderly : store.Orderly) {peer : Address} {record : SessionRecord}
    (current : record.current.isSome)
    (tidy : record.Tidy store.identity.publicKey peer.identityKey) :
    (store.storeRecord peer record).Orderly :=
  orderly_iff.mpr ((orderly_iff.mp orderly).storeRecord ⟨current, tidy⟩)

/-- What is loaded is tidy, and what is not there is fresh. -/
theorem Orderly.tidy_of_loadRecord (orderly : store.Orderly) {peer : Address}
    {stored : Option SessionRecord} (loaded : store.loadRecord peer = .ok stored) :
    (stored.getD .fresh).Tidy store.identity.publicKey peer.identityKey ∧
      ∀ record ∈ stored, record.current.isSome := by
  have kept := (orderly_iff.mp orderly).of_loadRecord
    (fun holds => holds.2.toOwned.length_encode_lt) loaded
  refine ⟨?_, fun record member => (kept record member).1⟩
  cases stored with
  | none => exact SessionRecord.tidy_fresh
  | some record => exact (kept record rfl).2

/-! ## One request -/

section

variable {context ending : Context MemoryStore} {peer : Address}

theorem Orderly.start (orderly : store.Orderly) {bundle : PrekeyBundle} {supply : Supply}
    (fresh : Deed.Fresh suite store (.start peer bundle supply))
    (started : (Conversation.start suite peer bundle).run { store, supply } =
      (.ok ⟨⟩, ending)) :
    ending.store.Orderly := by
  obtain ⟨base, signedKey, oneTime, ratchet, stored, _, _, _, generated, loaded, stores⟩ :=
    Conversation.start_eq_ok suite peer started
  obtain ⟨tidy, _⟩ := orderly.tidy_of_loadRecord loaded
  have new : ∀ other ∈ (stored.getD .fresh).sessions,
      other.initiatorBase ≠ some base.publicKey := by
    cases stored with
    | none => exact fun _ member => absurd member List.not_mem_nil
    | some record =>
        have apart := fresh record (by rw [loaded]; rfl) (by rw [started]; rfl) base
          (by rw [generated]; rfl)
        exact fun other member same => apart (List.mem_map.mpr ⟨other, member, same⟩)
  rw [stores]
  refine orderly.storeRecord rfl (tidy.promote ?_ ?_ new)
  · exact { Session.belongs_initiated suite _ ratchet with }
  · exact (Session.compact_initiated suite (Conversation.bundleTerms store.identity base
      peer.identityKey signedKey (oneTime.map Prod.snd)) ratchet).congr rfl

theorem Orderly.encrypt (orderly : context.store.Orderly) {plaintext : Bytes} {message : Message}
    (encrypted : (Conversation.encrypt peer plaintext).run context = (.ok message, ending)) :
    ending.store.Orderly := by
  obtain ⟨record, session, next, loaded, stands, sealed, stores⟩ :=
    Conversation.encrypt_eq_ok peer encrypted
  obtain ⟨tidy, _⟩ := orderly.tidy_of_loadRecord loaded
  have member := SessionRecord.mem_of_current stands
  rw [stores]
  refine orderly.storeRecord rfl (SessionRecord.Tidy.setCurrent tidy stands ?_ ?_ ?_)
  · exact (tidy.belong session member).encrypt sealed
  · exact (tidy.compact session member).encrypt sealed
  · exact Session.initiatorBase_of_encrypt sealed

theorem Orderly.decryptRatchet (orderly : context.store.Orderly) {message : RatchetMessage}
    {receiver : Bytes → Except SessionError Unit} {plaintext : Bytes}
    (decrypted : (Conversation.decryptRatchet suite peer message receiver).run context =
      (.ok plaintext, ending)) :
    ending.store.Orderly := by
  obtain ⟨record, latter, loaded, received, stores⟩ :=
    Conversation.decryptRatchet_eq_ok suite peer decrypted
  obtain ⟨tidy, _⟩ := orderly.tidy_of_loadRecord loaded
  obtain ⟨_, _, next, current, _⟩ := received.listed suite
  rw [stores]
  exact orderly.storeRecord (by rw [current]; rfl) (tidy.received received)

theorem Orderly.decryptPrekey (orderly : context.store.Orderly) {message : PrekeyMessage}
    (version : message.version = Limits.currentVersion)
    {receiver : Bytes → Except SessionError Unit} {plaintext : Bytes}
    (decrypted : (Conversation.decryptPrekey suite peer message receiver).run context =
      (.ok plaintext, ending)) :
    ending.store.Orderly := by
  obtain ⟨stored, latter, kept, loaded, writes, outcome⟩ :=
    Conversation.decryptPrekey_eq_ok suite peer decrypted
  obtain ⟨tidy, _⟩ := orderly.tidy_of_loadRecord loaded
  cases writes
  have stays : ∀ former : SessionRecord,
      former.Tidy context.store.identity.publicKey peer.identityKey →
      former.Received suite message.message plaintext latter →
      (context.store.storeRecord peer latter).Orderly := by
    intro former tidy received
    obtain ⟨_, _, next, current, _⟩ := received.listed suite
    exact orderly.storeRecord (by rw [current]; rfl) (tidy.received received)
  rcases outcome with ⟨_, received, same⟩ | ⟨unknown, session, asked, received, ends⟩
  · rw [same]
    exact stays _ tidy received
  · have base := asked.initiatorBase_eq suite peer
    obtain ⟨identity, signed, oneTime, own, _, _, rfl⟩ := asked
    cases own
    rw [version] at unknown
    have promoted := tidy.promote (Session.belongs_responded suite _)
      (Session.compact_responded suite _) (base ▸ tidy.ne_of_hasSession unknown)
    have written := stays _ promoted received
    cases named : message.oneTimeId with
    | none =>
        rw [named] at ends
        rw [ends]
        exact written
    | some id =>
        rw [named] at ends
        rw [← Except.ok.inj ends]
        exact written.congr rfl rfl

end

/-! ## Any number of deeds -/

/-- A request keeps the store orderly if its success does. -/
theorem Orderly.serve (orderly : store.Orderly) {peer : Address} {request : Request}
    {supply : Supply}
    (succeeds : ∀ reply ending, (request.serve suite peer).run { store, supply } =
      (.ok reply, ending) → ending.store.Orderly) :
    (store.serve suite peer request supply).Orderly := by
  simp only [MemoryStore.serve]
  cases ran : (request.serve suite peer).run { store, supply } with
  | mk outcome ending =>
      cases outcome with
      | ok reply => exact succeeds reply ending ran
      | error failure =>
          have unchanged := (Conversation.atomic_serve suite peer request).store_eq _ _ _ ran
          dsimp only at unchanged ⊢
          rw [unchanged]
          exact orderly

/-- **Every deed keeps the store orderly.** -/
theorem Orderly.perform (orderly : store.Orderly) {deed : Deed} (fresh : deed.Fresh suite store) :
    (store.perform suite deed).Orderly := by
  cases deed with
  | start peer bundle supply =>
      refine orderly.serve suite fun reply ending ran => ?_
      obtain ⟨_, started, _⟩ := Procedure.run_map_eq_ok ran
      exact Orderly.start suite orderly fresh started
  | encrypt peer plaintext supply =>
      refine orderly.serve suite fun reply ending ran => ?_
      obtain ⟨_, encrypted, _⟩ := Procedure.run_map_eq_ok ran
      exact Orderly.encrypt orderly encrypted
  | receive peer type bytes receiver supply =>
      simp only [MemoryStore.perform]
      cases parsed : Message.parse type bytes with
      | error failure => exact orderly
      | ok message =>
          refine orderly.serve suite fun reply ending ran => ?_
          obtain ⟨_, decrypted, _⟩ := Procedure.run_map_eq_ok ran
          cases message with
          | ratchet message => exact Orderly.decryptRatchet suite orderly decrypted
          | prekey message =>
              exact Orderly.decryptPrekey suite orderly (Message.version_of_parse parsed) decrypted
  | _ => exact orderly.congr rfl rfl

theorem Orderly.after (orderly : store.Orderly) {deeds : List Deed}
    (fresh : store.FreshAlong suite deeds) : (store.after suite deeds).Orderly := by
  induction deeds generalizing store with
  | nil => exact orderly
  | cons deed rest ih => exact ih (orderly.perform suite fresh.1) fresh.2

/-- **In a store that began without records, every record is proper**, whatever its owner
has done and been sent, if base keys were fresh when they were generated. -/
theorem proper_after {start : MemoryStore} (empty : start.records = .empty) {deeds : List Deed}
    (fresh : start.FreshAlong suite deeds) (peer : Address) :
    let store := start.after suite deeds
    ∃ stored, store.loadRecord peer = .ok stored ∧
      ∀ record ∈ stored, record.Proper store.identity.publicKey peer.identityKey := by
  intro store
  have orderly := (orderly_of_empty empty).after suite fresh
  cases found : store.records.find? peer with
  | none => exact ⟨none, loadRecord_of_find?_none found, fun _ member => nomatch member⟩
  | some bytes =>
      obtain ⟨record, rfl, current, tidy⟩ := orderly peer bytes found
      refine ⟨some record, loadRecord_of_find? tidy.toOwned.length_encode_lt found,
        fun _ member => ?_⟩
      cases member
      exact ⟨current, tidy.few, tidy.belong, tidy.named⟩

/-! ## Two sessions with one party -/

/-- The party's identity, which is its signed prekey too. -/
def samplePrekey : KeyPair := ⟨Suite.classic.publicKey default, default⟩

def samplePeer : Address := ⟨⟨samplePrekey.publicKey⟩, default⟩

def sampleBundle : PrekeyBundle :=
  let key := samplePrekey.publicKey
  .make none 1 key (Suite.classic.sign default key.toBytes default).toList key

def sampleSupply (byte : UInt8) : Supply where
  entropy := .stock (List.replicate 64 byte)

def sampleStart (byte : UInt8) : Deed := .start samplePeer sampleBundle (sampleSupply byte)

def sampleStore : MemoryStore := .ofIdentity samplePrekey

/-- The base keys of the sessions with the party. -/
def sampleBases (store : MemoryStore) : Option (List (Option PublicKey)) :=
  (store.loadRecord samplePeer).toOption.join.map fun record =>
    record.sessions.map (·.initiatorBase)

/-- The base key that is generated with a supply. -/
def sampleBase (byte : UInt8) : Option PublicKey :=
  (Suite.classic.generate.run (sampleSupply byte)).1.toOption.map (·.publicKey)

theorem bases_sample :
    sampleBases (sampleStore.perform Suite.classic (sampleStart 1)) = some [sampleBase 1] ∧
      sampleBases (sampleStore.after Suite.classic [sampleStart 1, sampleStart 2]) =
        some [sampleBase 2, sampleBase 1] ∧
      sampleBase 2 ≠ sampleBase 1 := by
  decide +kernel

theorem fresh_sample : sampleStore.FreshAlong Suite.classic [sampleStart 1, sampleStart 2] := by
  have none : Deed.Fresh Suite.classic sampleStore (sampleStart 1) := by
    intro record member
    cases member
  refine ⟨none, ?_, trivial⟩
  intro record member _ base generated listed
  obtain ⟨bases, _, different⟩ := bases_sample
  have same : sampleBase 2 = some base.publicKey := by
    rw [sampleBase, Option.mem_def.mp generated, Option.map_some]
  rw [sampleBases, Option.mem_def.mp member, Option.map_some] at bases
  rw [Option.some.inj bases, List.mem_singleton, ← same] at listed
  exact different listed

/-- Both sessions are in the record, and the record is proper. -/
theorem proper_after_two_starts :
    ∃ record, (sampleStore.after Suite.classic [sampleStart 1, sampleStart 2]).loadRecord
        samplePeer = .ok (some record) ∧
      record.sessions.length = 2 ∧
      record.Proper (sampleStore.after Suite.classic
        [sampleStart 1, sampleStart 2]).identity.publicKey samplePeer.identityKey := by
  obtain ⟨stored, loaded, proper⟩ := proper_after Suite.classic rfl fresh_sample samplePeer
  obtain ⟨_, bases, _⟩ := bases_sample
  rw [sampleBases, loaded] at bases
  cases stored with
  | none => cases bases
  | some record =>
      change some (record.sessions.map (·.initiatorBase)) = _ at bases
      have both := congrArg List.length (Option.some.inj bases)
      rw [List.length_map] at both
      exact ⟨record, loaded, both, proper record (Option.mem_some_self record)⟩

end MemoryStore

end Ratchet
