import Ratchet.Proofs.Conversation.Establishing
import Ratchet.Proofs.Layout.Restoring

/-!
# Which bundles start a session

A bundle is admissible at an address if it is that of the identity there, the
identity is trusted, the signed prekey is there and signed, and a one-time prekey has
both a number and a key (`Conversation.Admissible`). Each of the checks has its own
failure, and a bundle that is not admissible gives that of the first check it does
not pass (`Conversation.Refused`), after which nothing has changed
(`Conversation.run_start_of_refused`).

An admissible bundle starts the initiator's session for exactly its keys. The record
of the address is read and written in its stored form, and what was read is written
so that it can be read again (`SessionRecord.Storable.promote`).
-/

set_option autoImplicit false

namespace Ratchet

/-! ## Storable records -/

namespace SessionRecord

theorem storable_fresh : fresh.Storable :=
  ⟨Nat.two_pow_pos 64, fun _ member => nomatch member⟩

theorem Storable.promote {record : SessionRecord} (storable : record.Storable) {session : Session}
    (next : session.Storable) : (record.promote session).Storable := by
  obtain ⟨counted, all⟩ := storable
  refine ⟨?_, fun other member => ?_⟩
  · simp only [SessionRecord.promote, archiveCurrent]
    cases record.current with
    | none => exact counted
    | some current => exact (List.length_take_le _ _).trans_lt (by decide)
  · rcases List.mem_cons.mp ((record.sessions_promote_sublist session).subset member) with
      rfl | former
    · exact next
    · exact all other former

end SessionRecord

namespace MemoryStore

variable {store : MemoryStore} {address : Address}

/-- What is loaded can be stored. -/
theorem storable_of_loadRecord {stored : Option SessionRecord}
    (loaded : store.loadRecord address = .ok stored) : (stored.getD .fresh).Storable := by
  simp only [loadRecord] at loaded
  cases found : store.records.find? address with
  | none =>
      rw [found] at loaded
      cases loaded
      exact SessionRecord.storable_fresh
  | some bytes =>
      rw [found] at loaded
      change (some <$> Layout.record.load bytes : Except SessionError _) = _ at loaded
      cases read : Layout.record.load bytes with
      | error failure =>
          rw [read] at loaded
          cases loaded
      | ok record =>
          rw [read] at loaded
          cases loaded
          exact (Layout.restores_record.of_load read).1

theorem loadRecord_storeRecord_of_storable {record : SessionRecord} (storable : record.Storable) :
    (store.storeRecord address record).loadRecord address = .ok (some record) := by
  have read := Layout.restores_record.load_encode_append storable []
  rw [List.append_nil] at read
  refine loadRecord_of_load ?_ read
  simp only [storeRecord, Table.find?_insert, if_pos]

end MemoryStore

namespace Conversation

/-! ## The checks -/

/-- A bundle passes every check at an address. -/
structure Admissible (suite : Suite) (store : MemoryStore) (peer : Address)
    (bundle : PrekeyBundle) : Prop where
  addressed : bundle.identityKey = peer.identityKey
  trusted : store.trusts bundle.identityKey = true
  signed : ∃ signedKey, bundle.signedKey = some signedKey ∧
    suite.verify bundle.identityKey signedKey.toBytes bundle.signature = true
  together : bundle.oneTimeId.isSome = bundle.oneTimeKey.isSome

section

variable (suite : Suite) (store : MemoryStore) (peer : Address) (bundle : PrekeyBundle)

/-- The first check that a bundle does not pass, and the failure it gives. -/
inductive Refused : SessionError → Prop
  | otherIdentity (different : bundle.identityKey ≠ peer.identityKey) :
    Refused (.invalidBundle .identityMismatch)
  | distrusted (addressed : bundle.identityKey = peer.identityKey)
    (distrusts : store.trusts bundle.identityKey = false) :
    Refused (.untrustedIdentity peer)
  | unsigned (addressed : bundle.identityKey = peer.identityKey)
    (trusts : store.trusts bundle.identityKey = true) (missing : bundle.signedKey = none) :
    Refused (.invalidBundle .missingSignedPrekey)
  | forged (addressed : bundle.identityKey = peer.identityKey)
    (trusts : store.trusts bundle.identityKey = true) {signedKey : PublicKey}
    (offered : bundle.signedKey = some signedKey)
    (fails : suite.verify bundle.identityKey signedKey.toBytes bundle.signature = false) :
    Refused (.invalidBundle .badSignature)
  | lone (addressed : bundle.identityKey = peer.identityKey)
    (trusts : store.trusts bundle.identityKey = true) {signedKey : PublicKey}
    (offered : bundle.signedKey = some signedKey)
    (genuine : suite.verify bundle.identityKey signedKey.toBytes bundle.signature = true)
    (apart : bundle.oneTimeId.isSome ≠ bundle.oneTimeKey.isSome) :
    Refused (.invalidBundle .loneOneTimeField)

/-- A bundle that is not admissible is refused by some check. -/
theorem admissible_or_refused :
    Admissible suite store peer bundle ∨ ∃ failure, Refused suite store peer bundle failure := by
  by_cases addressed : bundle.identityKey = peer.identityKey
  swap
  · exact .inr ⟨_, .otherIdentity addressed⟩
  cases trusts : store.trusts bundle.identityKey with
  | false => exact .inr ⟨_, .distrusted addressed trusts⟩
  | true =>
      cases offered : bundle.signedKey with
      | none => exact .inr ⟨_, .unsigned addressed trusts offered⟩
      | some signedKey =>
          cases genuine : suite.verify bundle.identityKey signedKey.toBytes bundle.signature with
          | false => exact .inr ⟨_, .forged addressed trusts offered genuine⟩
          | true =>
              by_cases together : bundle.oneTimeId.isSome = bundle.oneTimeKey.isSome
              · exact .inl ⟨addressed, trusts, ⟨signedKey, offered, genuine⟩, together⟩
              · exact .inr ⟨_, .lone addressed trusts offered genuine together⟩

end

/-- The one-time prekey of a bundle has the number and the key of the bundle. -/
theorem exists_oneTimeOf {bundle : PrekeyBundle}
    (together : bundle.oneTimeId.isSome = bundle.oneTimeKey.isSome) :
    ∃ oneTime, oneTimeOf bundle = .ok oneTime ∧ oneTime.map Prod.fst = bundle.oneTimeId ∧
      oneTime.map Prod.snd = bundle.oneTimeKey := by
  unfold oneTimeOf
  cases id : bundle.oneTimeId <;> cases key : bundle.oneTimeKey
  · exact ⟨none, rfl, rfl, rfl⟩
  · rw [id, key] at together
    cases together
  · rw [id, key] at together
    cases together
  · exact ⟨some _, rfl, rfl, rfl⟩

theorem oneTimeOf_of_apart {bundle : PrekeyBundle}
    (apart : bundle.oneTimeId.isSome ≠ bundle.oneTimeKey.isSome) :
    oneTimeOf bundle = .error (.invalidBundle .loneOneTimeField) := by
  unfold oneTimeOf
  cases id : bundle.oneTimeId <;> cases key : bundle.oneTimeKey
  · exact absurd (by rw [id, key]; rfl) apart
  · rfl
  · rfl
  · exact absurd (by rw [id, key]; rfl) apart

section

variable {suite : Suite} {peer : Address} {bundle : PrekeyBundle} {context : Context MemoryStore}

/-- A bundle that is refused gives its failure, and nothing has changed. -/
theorem run_start_of_refused {failure : SessionError}
    (refused : Refused suite context.store peer bundle failure)
    (verifies : context.supply.verification = .unlimited) :
    (start suite peer bundle).run context = (.error failure, context) := by
  simp only [start, Procedure.throw_bind]
  cases refused with
  | otherIdentity different =>
      rw [if_pos different]
      rfl
  | distrusted addressed distrusts =>
      rw [if_neg (not_not_intro addressed)]
      exact Procedure.run_bind_of_error
        (run_requireTrust_of_distrusts peer (congrArg Except.ok distrusts))
  | unsigned addressed trusts missing =>
      rw [if_neg (not_not_intro addressed),
        Procedure.run_bind_of_ok (run_requireTrust peer trusts _), missing]
      rfl
  | @forged addressed trusts signedKey offered fails =>
      rw [if_neg (not_not_intro addressed),
        Procedure.run_bind_of_ok (run_requireTrust peer trusts _), offered]
      dsimp only
      rw [Procedure.run_bind, Operation.run_attempt, suite.run_isSignature_of_unlimited verifies,
        fails]
      rfl
  | @lone addressed trusts signedKey offered genuine apart =>
      rw [if_neg (not_not_intro addressed),
        Procedure.run_bind_of_ok (run_requireTrust peer trusts _), offered]
      dsimp only
      rw [Procedure.run_bind, Operation.run_attempt, suite.run_isSignature_of_unlimited verifies,
        genuine]
      dsimp only
      rw [if_pos rfl, Procedure.run_bind, Operation.run_ask, oneTimeOf_of_apart apart]

/-! ## The session -/

/-- The initiator's session for the keys of a bundle, made with the next two pairs of the supply,
of which this is the first. -/
def Opens (suite : Suite) (context : Context MemoryStore) (bundle : PrekeyBundle) (base : KeyPair)
    (session : Session) : Prop :=
  ∃ signedKey rest last, bundle.signedKey = some signedKey ∧
    suite.generate.run context.supply = (.ok base, rest) ∧
    (Session.initiate suite (bundleTerms context.store.identity base bundle.identityKey signedKey
      bundle.oneTimeKey)).run rest = (.ok session, last)

/-- The session with what goes along with its messages until the peer answers. -/
def announced (bundle : PrekeyBundle) (base : KeyPair) (session : Session) : Session :=
  { session with pendingPrekey := some ⟨bundle.oneTimeId, bundle.signedId, base.publicKey⟩ }

/-- An admissible bundle starts its session, which is made current. -/
theorem run_start_of_admissible (admissible : Admissible suite context.store peer bundle)
    {stored : Option SessionRecord} (loaded : context.store.loadRecord peer = .ok stored)
    (verifies : context.supply.verification = .unlimited) (lasts : context.supply.Lasts 2) :
    ∃ base session last, Opens suite context bundle base session ∧
      session.initiatorBase = some base.publicKey ∧ (announced bundle base session).Storable ∧
      (start suite peer bundle).run context =
        (.ok ⟨⟩, { context with
          supply := last
          store := context.store.storeRecord peer
            ((stored.getD .fresh).promote (announced bundle base session)) }) := by
  obtain ⟨addressed, trusted, ⟨signedKey, offered, genuine⟩, together⟩ := admissible
  obtain ⟨oneTime, found, ids, keys⟩ := exists_oneTimeOf together
  obtain ⟨base, rest, first, restLasts⟩ := suite.run_generate_of_lasts lasts
  obtain ⟨ratchet, last, second, _, initiated⟩ := Session.run_initiate_of_lasts suite restLasts
    (bundleTerms context.store.identity base bundle.identityKey signedKey bundle.oneTimeKey)
  rw [addressed] at trusted genuine
  have started := run_start suite peer addressed trusted offered found genuine loaded verifies
    lasts first second
  rw [ids, keys, ← addressed] at started
  refine ⟨base, _, last, ⟨signedKey, rest, last, offered, first, initiated⟩, rfl, ?_, started⟩
  refine ⟨Nat.one_lt_two_pow (by decide), fun chain member => ?_⟩
  rw [List.mem_singleton.mp member]
  exact Nat.two_pow_pos 64

theorem admissible_of_run_start (verifies : context.supply.verification = .unlimited)
    {later : Context MemoryStore}
    (succeeds : (start suite peer bundle).run context = (.ok ⟨⟩, later)) :
    Admissible suite context.store peer bundle := by
  rcases admissible_or_refused suite context.store peer bundle with
    admissible | ⟨reason, refused⟩
  · exact admissible
  · rw [run_start_of_refused refused verifies] at succeeds
    cases succeeds

theorem refused_of_run_start {stored : Option SessionRecord}
    (loaded : context.store.loadRecord peer = .ok stored)
    (verifies : context.supply.verification = .unlimited) (lasts : context.supply.Lasts 2)
    {failure : SessionError} {later : Context MemoryStore}
    (fails : (start suite peer bundle).run context = (.error failure, later)) :
    Refused suite context.store peer bundle failure := by
  rcases admissible_or_refused suite context.store peer bundle with
    admissible | ⟨reason, refused⟩
  · obtain ⟨_, _, _, _, _, _, run⟩ := run_start_of_admissible admissible loaded verifies lasts
    rw [run] at fails
    cases fails
  · rw [run_start_of_refused refused verifies] at fails
    cases fails
    exact refused

/-- **A bundle starts a session exactly when it is admissible.** It fails with the failure of the
first check it does not pass. When it succeeds, the record that is stored has the
initiator's session for the keys of the bundle as the current one, marked with the numbers of the
bundle and the base key; a session that was current heads the archive, which is cut to its
limit, and without one the archive stays as it was. -/
theorem start_succeeds_iff_admissible {stored : Option SessionRecord}
    (loaded : context.store.loadRecord peer = .ok stored)
    (verifies : context.supply.verification = .unlimited) (lasts : context.supply.Lasts 2) :
    ((∃ later, (start suite peer bundle).run context = (.ok ⟨⟩, later)) ↔
        Admissible suite context.store peer bundle) ∧
      (∀ failure, (∃ later, (start suite peer bundle).run context = (.error failure, later)) ↔
        Refused suite context.store peer bundle failure) ∧
      ∀ later, (start suite peer bundle).run context = (.ok ⟨⟩, later) →
        ∃ base session record, Opens suite context bundle base session ∧
          later.store = context.store.storeRecord peer record ∧
          later.store.loadRecord peer = .ok (some record) ∧
          record.current = some { session with
            pendingPrekey := some ⟨bundle.oneTimeId, bundle.signedId, base.publicKey⟩ } ∧
          session.initiatorBase = some base.publicKey ∧
          (∀ former, (stored.getD .fresh).current = some former →
            record.archived = (former :: (stored.getD .fresh).archived).take
              Limits.archivedSessions) ∧
          ((stored.getD .fresh).current = none →
            record.archived = (stored.getD .fresh).archived) := by
  refine ⟨⟨fun ⟨_, succeeds⟩ => admissible_of_run_start verifies succeeds, fun admissible => ?_⟩,
    fun failure => ⟨fun ⟨_, fails⟩ => refused_of_run_start loaded verifies lasts fails,
      fun refused => ⟨context, run_start_of_refused refused verifies⟩⟩, fun later succeeds => ?_⟩
  · obtain ⟨_, _, _, _, _, _, run⟩ := run_start_of_admissible admissible loaded verifies lasts
    exact ⟨_, run⟩
  · have admissible := admissible_of_run_start verifies succeeds
    obtain ⟨base, session, last, opens, named, storable, run⟩ :=
      run_start_of_admissible admissible loaded verifies lasts
    rw [run] at succeeds
    cases succeeds
    refine ⟨base, session, (stored.getD .fresh).promote (announced bundle base session), opens,
      rfl, ?_, rfl, named, fun former stands => ?_, fun none => ?_⟩
    · exact MemoryStore.loadRecord_storeRecord_of_storable
        ((MemoryStore.storable_of_loadRecord loaded).promote storable)
    · simp only [SessionRecord.promote, SessionRecord.archiveCurrent, stands]
    · simp only [SessionRecord.promote, SessionRecord.archiveCurrent, none]

end

/-! ## Archives that are full and more than full -/

/-- Sessions that differ in a number. -/
def samplePast (number : Nat) : Session where
  storedVersion := 3
  localIdentity := default
  remoteIdentity := default
  root := ⟨.v3, default⟩
  previousCounter := .ofNat number

/-- A record without a current session, whose archive is over its limit. -/
def sampleLongArchive : SessionRecord := ⟨none, (List.range 41).map samplePast⟩

/-- A record with a current session and a full archive. -/
def sampleFullArchive : SessionRecord := ⟨some (samplePast 40), (List.range 40).map samplePast⟩

/-- The store of a party that has this record of the party that made the offer. -/
def sampleHolding (record : SessionRecord) : Context MemoryStore where
  store := sampleAlice.storeRecord (sampleAddress 3) record
  supply := sampleSupplies

theorem admissible_sample (record : SessionRecord) :
    Admissible Suite.classic (sampleHolding record).store (sampleAddress 3)
      sampleOffer.bundle where
  addressed := rfl
  trusted := rfl
  signed := ⟨_, rfl, sampleOffer.genuine⟩
  together := rfl

theorem lasts_sampleSupplies : sampleSupplies.Lasts 2 :=
  ⟨rfl, rfl, Entropy.lasts_stock (by decide)⟩

theorem storable_samplePast (number : Nat) : (samplePast number).Storable :=
  ⟨Nat.two_pow_pos 64, fun _ member => nomatch member⟩

theorem loads_sampleLongArchive :
    (sampleHolding sampleLongArchive).store.loadRecord (sampleAddress 3) =
      .ok (some sampleLongArchive) := by
  refine MemoryStore.loadRecord_storeRecord_of_storable ⟨by decide, fun session member => ?_⟩
  obtain ⟨number, _, rfl⟩ := List.mem_map.mp member
  exact storable_samplePast number

theorem loads_sampleFullArchive :
    (sampleHolding sampleFullArchive).store.loadRecord (sampleAddress 3) =
      .ok (some sampleFullArchive) := by
  refine MemoryStore.loadRecord_storeRecord_of_storable ⟨by decide, fun session member => ?_⟩
  rcases List.mem_cons.mp member with rfl | member
  · exact storable_samplePast 40
  · obtain ⟨number, _, rfl⟩ := List.mem_map.mp member
    exact storable_samplePast number

/-- The last session of a full archive makes room for the one that was current. -/
theorem start_with_full_archive :
    ∃ later record, (start Suite.classic (sampleAddress 3) sampleOffer.bundle).run
        (sampleHolding sampleFullArchive) = (.ok ⟨⟩, later) ∧
      later.store.loadRecord (sampleAddress 3) = .ok (some record) ∧
      record.archived = samplePast 40 :: (List.range 39).map samplePast := by
  obtain ⟨succeeds, -, ends⟩ := @start_succeeds_iff_admissible Suite.classic (sampleAddress 3)
    sampleOffer.bundle _ _ loads_sampleFullArchive rfl lasts_sampleSupplies
  obtain ⟨later, run⟩ := succeeds.mpr (admissible_sample _)
  obtain ⟨_, _, record, _, _, loads, _, _, archived, _⟩ := ends later run
  exact ⟨later, record, run, loads, archived _ rfl⟩

/-- Where no session was current, an archive that is over its limit is not cut. -/
theorem start_with_long_archive :
    ∃ later record, (start Suite.classic (sampleAddress 3) sampleOffer.bundle).run
        (sampleHolding sampleLongArchive) = (.ok ⟨⟩, later) ∧
      later.store.loadRecord (sampleAddress 3) = .ok (some record) ∧
      record.archived ≠ (sampleLongArchive.current.toList ++ sampleLongArchive.archived).take
        Limits.archivedSessions := by
  obtain ⟨base, session, last, _, _, storable, run⟩ := run_start_of_admissible
    (admissible_sample _) loads_sampleLongArchive rfl lasts_sampleSupplies
  have promoted := (MemoryStore.storable_of_loadRecord loads_sampleLongArchive).promote storable
  refine ⟨_, _, run, MemoryStore.loadRecord_storeRecord_of_storable promoted, fun same => ?_⟩
  have lengths : (41 : Nat) = 40 := congrArg List.length same
  cases lengths

end Conversation

end Ratchet
