import Ratchet.Proofs.Conversation.Outcomes
import Ratchet.Proofs.Conversation.Respecting

/-!
# Addresses do not interfere

A request that succeeds at an address writes the record of this address. A prekey
message for which the record has no session yet takes the one-time prekey that it names
(`Request.spends`). Nothing else becomes of the store (`MemoryStore.Becomes`): not of the
records of other addresses, the other one-time prekeys, the signed prekeys, the identity,
or whom the store trusts.

Nor does a request look at anything else. Of two stores that differ only in the records of
other addresses (`MemoryStore.Alike`), both give the same reply or fail alike, and the
same becomes of both (`MemoryStore.requests_isolated`).
-/

set_option autoImplicit false

namespace Ratchet

/-- The one-time prekey that a request takes if it succeeds: the one that a prekey message names,
if the record has no session with its version and its base key. -/
def Request.spends (record : SessionRecord) : Request → Option UInt32
  | .decrypt (.prekey message) _ =>
    if record.hasSession message.version message.baseKey then none else message.oneTimeId
  | _ => none

namespace MemoryStore

/-- All that becomes of a store when the record of an address is written, and a one-time prekey
taken or not. -/
structure Becomes (store later : MemoryStore) (peer : Address) (record : SessionRecord)
    (spent : Option UInt32) : Prop where
  identity : later.identity = store.identity
  distrusted : later.distrusted = store.distrusted
  signed : later.signedPrekeys = store.signedPrekeys
  written : later.records.find? peer = some (Layout.record.encode record)
  others : ∀ address, address ≠ peer → later.records.find? address = store.records.find? address
  taken : ∀ id, spent = some id →
    (store.oneTimePrekeys.find? id).isSome ∧ later.oneTimePrekeys.find? id = none
  left : ∀ id, spent ≠ some id → later.oneTimePrekeys.find? id = store.oneTimePrekeys.find? id

/-- The stores differ in the records of other addresses only. -/
structure Alike (peer : Address) (first second : MemoryStore) : Prop where
  identity : first.identity = second.identity
  trusts : ∀ key, first.trusts key = second.trusts key
  signed : ∀ id, first.signedPrekeys.find? id = second.signedPrekeys.find? id
  oneTime : ∀ id, first.oneTimePrekeys.find? id = second.oneTimePrekeys.find? id
  record : first.records.find? peer = second.records.find? peer

/-! ## What becomes of a store -/

section

variable {store : MemoryStore} {peer : Address} {record : SessionRecord} {spent : Option UInt32}

/-- Writing a record and removing a prekey that is there does this and nothing else. -/
theorem becomes_storeRecord
    (stocked : ∀ id, spent = some id → (store.oneTimePrekeys.find? id).isSome) :
    store.Becomes ((store.storeRecord peer record).withoutOneTime spent) peer record spent := by
  have kept : ((store.storeRecord peer record).withoutOneTime spent).records =
        (store.storeRecord peer record).records ∧
      ((store.storeRecord peer record).withoutOneTime spent).identity = store.identity ∧
      ((store.storeRecord peer record).withoutOneTime spent).distrusted = store.distrusted ∧
      ((store.storeRecord peer record).withoutOneTime spent).signedPrekeys =
        store.signedPrekeys := by
    cases spent <;> exact ⟨rfl, rfl, rfl, rfl⟩
  obtain ⟨records, identity, distrusted, signed⟩ := kept
  refine ⟨identity, distrusted, signed, ?_, ?_, ?_, ?_⟩
  · rw [records, storeRecord, Table.find?_insert, if_pos rfl]
  · intro address other
    rw [records, storeRecord, Table.find?_insert, if_neg other]
  · intro id takes
    refine ⟨stocked id takes, ?_⟩
    subst takes
    rw [withoutOneTime, Table.find?_erase, if_pos rfl]
  · intro id other
    cases spent with
    | none => rfl
    | some taken =>
        have different : id ≠ taken := fun same => other (congrArg some same.symm)
        rw [withoutOneTime, Table.find?_erase, if_neg different]
        rfl

theorem becomes_written : store.Becomes (store.storeRecord peer record) peer record none :=
  @becomes_storeRecord store peer record none fun _ takes => nomatch takes

end

/-- The number of a one-time prekey that is taken from the store is gone. -/
theorem eq_withoutOneTime {store later : MemoryStore} {number : Option UInt32}
    (ends : match number with
      | none => later = store
      | some id => ProtocolStore.removeOneTime store id = .ok later) :
    later = store.withoutOneTime number := by
  cases number with
  | none => exact ends
  | some id => exact (Except.ok.inj ends).symm

variable (suite : Suite) {peer : Address}

/-- A prekey message writes the record, and takes a one-time prekey that the store has. -/
theorem becomes_decryptPrekey {context later : Context MemoryStore} {message : PrekeyMessage}
    {receiver : Bytes → Except SessionError Unit} {plaintext : Bytes}
    (succeeds : (Conversation.decryptPrekey suite peer message receiver).run context =
      (.ok plaintext, later)) :
    ∃ stored latter, context.store.loadRecord peer = .ok stored ∧
      context.store.Becomes later.store peer latter
        (Request.spends (stored.getD .fresh) (.decrypt (.prekey message) receiver)) := by
  obtain ⟨stored, latter, kept, loaded, writes, outcome⟩ :=
    Conversation.decryptPrekey_eq_ok suite peer succeeds
  cases writes
  refine ⟨stored, latter, loaded, ?_⟩
  simp only [Request.spends]
  rcases outcome with ⟨known, _, same⟩ | ⟨unknown, session, asked, _, ends⟩
  · rw [if_pos known, same]
    exact becomes_written
  · rw [if_neg (Bool.eq_false_iff.mp unknown), eq_withoutOneTime ends]
    obtain ⟨_, _, oneTime, _, _, stocks, _⟩ := asked
    refine becomes_storeRecord fun id named => ?_
    rw [named] at stocks
    obtain ⟨found⟩ := stocks
    rw [Except.ok.inj found]
    rfl

/-- **A request that succeeds writes one record** and takes what it spends, and nothing else becomes
of the store. -/
theorem becomes_serve {context later : Context MemoryStore} {request : Request} {reply : Reply}
    (succeeds : (request.serve suite peer).run context = (.ok reply, later)) :
    ∃ stored latter, context.store.loadRecord peer = .ok stored ∧
      context.store.Becomes later.store peer latter (request.spends (stored.getD .fresh)) := by
  cases request with
  | start bundle =>
      obtain ⟨_, started, _⟩ := Procedure.run_map_eq_ok succeeds
      obtain ⟨_, _, _, _, stored, _, _, _, _, loaded, stores⟩ :=
        Conversation.start_eq_ok suite peer started
      rw [stores]
      exact ⟨stored, _, loaded, becomes_written⟩
  | encrypt plaintext =>
      obtain ⟨_, encrypted, _⟩ := Procedure.run_map_eq_ok succeeds
      obtain ⟨record, _, _, loaded, _, _, stores⟩ := Conversation.encrypt_eq_ok peer encrypted
      rw [stores]
      exact ⟨some record, _, loaded, becomes_written⟩
  | decrypt message receiver =>
      obtain ⟨_, decrypted, _⟩ := Procedure.run_map_eq_ok succeeds
      cases message with
      | ratchet message =>
          obtain ⟨record, latter, loaded, _, stores⟩ :=
            Conversation.decryptRatchet_eq_ok suite peer decrypted
          rw [stores]
          exact ⟨some record, latter, loaded, becomes_written⟩
      | prekey message => exact becomes_decryptPrekey suite decrypted

/-! ## Stores that differ elsewhere -/

namespace Alike

variable {first second firstLater secondLater : MemoryStore}

/-- Records at other addresses may be written. -/
theorem storeRecord_of_ne {other : Address} (different : other ≠ peer) (store : MemoryStore)
    (record : SessionRecord) : store.Alike peer (store.storeRecord other record) where
  identity := rfl
  trusts _ := rfl
  signed _ := rfl
  oneTime _ := rfl
  record := by rw [storeRecord, Table.find?_insert, if_neg (Ne.symm different)]

/-- A conversation with an address does not see the records of others. -/
theorem sees (peer : Address) (ours : PublicKey) :
    Conversation.Sees peer ours (fun _ => True)
      fun first second => first.Alike peer second ∧ first.identity.publicKey = ours where
  identity_eq stores := stores.1.identity
  ours_eq stores := stores.2
  signed_eq id stores := stores.1.signed id
  oneTime_eq id stores := stores.1.oneTime id
  record_eq stores := by
    show MemoryStore.loadRecord _ _ = MemoryStore.loadRecord _ _
    rw [MemoryStore.loadRecord, MemoryStore.loadRecord, stores.1.record]
  loads _ _ := trivial
  trusts_eq stores := stores.1.trusts _
  owner_eq stores _ _ := stores.1.trusts _
  keeps {first second record} stores _ := by
    refine ⟨⟨stores.1.identity, stores.1.trusts, stores.1.signed, stores.1.oneTime, ?_⟩, stores.2⟩
    simp only [MemoryStore.storeRecord, Table.find?_insert, if_pos]
  removes {first second} id stores := by
    refine ⟨⟨stores.1.identity, stores.1.trusts, stores.1.signed, fun other => ?_,
      stores.1.record⟩, stores.2⟩
    simp only [Table.find?_erase, stores.1.oneTime]

/-- Stores that differ elsewhere serve a request alike, and differ elsewhere after it. -/
theorem serve (alike : first.Alike peer second) (request : Request) (supply : Supply) :
    let ran (store : MemoryStore) := (request.serve suite peer).run { store, supply }
    (ran first).1 = (ran second).1 ∧ (ran first).2.store.Alike peer (ran second).2.store ∧
      (ran first).2.supply = (ran second).2.supply ∧
      (ran first).2.released = (ran second).2.released := by
  intro ran
  have upkeep : Conversation.Upkeep suite peer first.identity.publicKey fun _ => True :=
    ⟨trivial, fun _ _ _ => trivial, fun _ _ _ => trivial, fun _ _ _ => trivial, fun _ _ => trivial⟩
  have respects := Conversation.respects_serve (sees peer first.identity.publicKey) upkeep request
  obtain ⟨same, after, _⟩ :=
    respects { store := first, supply } { store := second, supply } ⟨⟨alike, rfl⟩, rfl, rfl⟩
  exact ⟨same, after.store.1, after.supply, after.released⟩

/-- What becomes of the one becomes of the other, if nothing becomes of the other elsewhere. -/
theorem becomes (alike : first.Alike peer second) (after : firstLater.Alike peer secondLater)
    {record other : SessionRecord} {spent taken : Option UInt32}
    (becomes : first.Becomes firstLater peer record spent)
    (elsewhere : second.Becomes secondLater peer other taken) :
    second.Becomes secondLater peer record spent where
  identity := elsewhere.identity
  distrusted := elsewhere.distrusted
  signed := elsewhere.signed
  written := after.record.symm.trans becomes.written
  others := elsewhere.others
  taken id takes := by
    rw [← alike.oneTime, ← after.oneTime]
    exact becomes.taken id takes
  left id other := by
    rw [← alike.oneTime, ← after.oneTime]
    exact becomes.left id other

end Alike

/-- **Requests keep to their address.** A request that succeeds writes the record of its address and
takes the one-time prekey that it spends by the record as it was, and a request that fails does
nothing; nothing else becomes of the store. In a store that differs in the records of other
addresses it has the same outcome, from the same supply, and the same becomes of that store. -/
theorem requests_isolated (store : MemoryStore) (peer : Address) (request : Request)
    (supply : Supply) :
    let ran (store : MemoryStore) := (request.serve suite peer).run { store, supply }
    (∀ reply, (ran store).1 = .ok reply →
      ∃ stored latter, store.loadRecord peer = .ok stored ∧
        store.Becomes (ran store).2.store peer latter (request.spends (stored.getD .fresh)) ∧
        ∀ other, store.Alike peer other →
          other.Becomes (ran other).2.store peer latter (request.spends (stored.getD .fresh))) ∧
    (∀ failure, (ran store).1 = .error failure → (ran store).2.store = store) ∧
    ∀ other, store.Alike peer other →
      (ran other).1 = (ran store).1 ∧ (ran other).2.supply = (ran store).2.supply ∧
        (ran other).2.released = (ran store).2.released := by
  intro ran
  refine ⟨fun reply succeeds => ?_, fun failure fails => ?_, fun other alike => ?_⟩
  · obtain ⟨stored, latter, loaded, becomes⟩ := becomes_serve suite (Prod.ext succeeds rfl)
    refine ⟨stored, latter, loaded, becomes, fun other alike => ?_⟩
    obtain ⟨same, after, _⟩ := alike.serve suite request supply
    obtain ⟨_, _, _, elsewhere⟩ := becomes_serve suite (Prod.ext (same.symm.trans succeeds) rfl)
    exact alike.becomes after becomes elsewhere
  · exact (Conversation.atomic_serve suite peer request).store_eq _ failure _ (Prod.ext fails rfl)
  · obtain ⟨same, _, supplies, released⟩ := alike.serve suite request supply
    exact ⟨same.symm, supplies.symm, released.symm⟩

/-- A message in another wrapping takes the prekey that the wrapping names, and writes the same
record, whether or not the store has a record of another address. -/
theorem rewrapped_isolated :
    let context := Conversation.rewrappedContext (.ofSession Conversation.formerSession)
    let other := context.store.storeRecord ⟨⟨Conversation.rewrapped.baseKey⟩, default⟩
      (.ofSession Conversation.formerSession)
    let request := Request.decrypt (.prekey Conversation.rewrapped) fun _ => .ok ()
    let ran (store : MemoryStore) :=
      (request.serve Suite.classic default).run { store, supply := context.supply }
    (ran context.store).1 = .ok (.decrypted [1, 2, 3]) ∧
      (ran other).1 = .ok (.decrypted [1, 2, 3]) ∧
      ∃ latter, context.store.Becomes (ran context.store).2.store default latter (some 6) ∧
        other.Becomes (ran other).2.store default latter (some 6) := by
  intro context other request ran
  have alike : context.store.Alike default other :=
    Alike.storeRecord_of_ne (by decide) context.store _
  have opens := Conversation.decryptRewrapped_eq_ok
  have decrypts : (ran context.store).1 = .ok (.decrypted [1, 2, 3]) := by
    have serves : ran context.store = (Reply.decrypted <$> Conversation.decryptPrekey Suite.classic
        default Conversation.rewrapped fun _ => .ok ()).run context := rfl
    rw [serves, Procedure.run_map]
    rw [Conversation.decryptRewrapped] at opens
    cases decrypted : (Conversation.decryptPrekey Suite.classic default Conversation.rewrapped
        fun _ => .ok ()).run context with
    | mk outcome later =>
        rw [decrypted] at opens
        cases outcome with
        | error failure => cases opens
        | ok plaintext =>
            cases opens
            rfl
  have loads : (context.store.loadRecord default).toOption =
      some (some (.ofSession Conversation.formerSession)) := by decide +kernel
  obtain ⟨isolated, _, sees⟩ :=
    requests_isolated Suite.classic context.store default request context.supply
  obtain ⟨stored, latter, loaded, becomes, elsewhere⟩ := isolated _ decrypts
  rw [loaded] at loads
  cases loads
  have unknown : (SessionRecord.ofSession Conversation.formerSession).hasSession
      Conversation.rewrapped.version Conversation.rewrapped.baseKey = false := by decide
  have spends : request.spends (.ofSession Conversation.formerSession) = some 6 := by
    simp only [request, Request.spends]
    rw [if_neg (Bool.eq_false_iff.mp unknown)]
    rfl
  rw [Option.getD_some, spends] at becomes elsewhere
  -- what is left is about any such stores, and must not be evaluated on these
  clear_value context request other
  exact ⟨decrypts, (sees other alike).1.trans decrypts, latter, becomes, elsewhere other alike⟩

end MemoryStore

end Ratchet
