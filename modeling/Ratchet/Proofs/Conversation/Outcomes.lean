import Ratchet.Proofs.Conversation.Prekeys
import Ratchet.Proofs.Operation.Effects

/-!
# What a request that succeeds has done

Each request that succeeds has loaded the record of the address and written it
once. Starting a session makes the new session current
(`Conversation.start_eq_ok`), encrypting updates the current session
(`Conversation.encrypt_eq_ok`), and decrypting writes the record as it comes out
of the message (`Conversation.decryptRatchet_eq_ok`, and for prekey messages
`Conversation.decryptPrekey_eq_ok`).
-/

set_option autoImplicit false

namespace Ratchet

/-- Checking a signature takes nothing that generating needs. -/
theorem Suite.run_isSignature (suite : Suite) (key : PublicKey) (message signature : Bytes)
    (supply : Supply) :
    ∃ genuine verification, (suite.isSignature key message signature).run supply =
      (.ok genuine, { supply with verification }) := by
  simp only [isSignature]
  rw [Procedure.run_bind, Procedure.run_get]
  dsimp only
  cases supply.verification.spend with
  | error refusal => exact ⟨false, supply.verification, rfl⟩
  | ok verification => exact ⟨_, verification, rfl⟩

/-- How many signatures may still be checked does not matter for generating. -/
theorem Suite.run_generate_verification (suite : Suite) (supply : Supply)
    (verification : Allowance) :
    (suite.generate.run { supply with verification }).1 = (suite.generate.run supply).1 := by
  have entropy : ({ supply with verification } : Supply).entropy = supply.entropy := rfl
  exact (suite.run_generate_congr entropy rfl).1

namespace Conversation

section

variable {ς : Type} [ProtocolStore ς] (peer : Address) {context later : Context ς}

theorem record_eq_ok {found : SessionRecord}
    (loaded : (record peer).run context = (.ok found, later)) :
    ProtocolStore.loadRecord context.store peer = .ok (some found) ∧ later = context := by
  simp only [record, record?] at loaded
  obtain ⟨stored, asked, returned⟩ := Operation.run_ask_bind_eq_ok loaded
  cases stored with
  | none => cases returned
  | some record =>
      cases returned
      exact ⟨asked, rfl⟩

omit [ProtocolStore ς] in
theorem currentOf_eq_ok {record : SessionRecord} {session : Session}
    (found : (currentOf peer record).run context = (.ok session, later)) :
    record.current = some session ∧ later = context := by
  simp only [currentOf] at found
  cases stands : record.current with
  | none =>
      rw [stands] at found
      cases found
  | some current =>
      rw [stands] at found
      cases found
      exact ⟨rfl, rfl⟩

end

variable (suite : Suite) (peer : Address) {context later : Context MemoryStore}

theorem keep_eq_ok {record : SessionRecord}
    (kept : (keep peer record).run context = (.ok ⟨⟩, later)) :
    later.store = context.store.storeRecord peer record := by
  have stored := Operation.change_eq_ok kept
  exact (Except.ok.inj stored).symm

/-- When a text is encrypted, the current session has encrypted it and is updated. -/
theorem encrypt_eq_ok {plaintext : Bytes} {message : Message}
    (succeeds : (encrypt peer plaintext).run context = (.ok message, later)) :
    ∃ record session next, context.store.loadRecord peer = .ok (some record) ∧
      record.current = some session ∧ session.encrypt plaintext = .ok (message, next) ∧
      later.store = context.store.storeRecord peer (record.setCurrent next) := by
  simp only [encrypt] at succeeds
  obtain ⟨record, _, loads, afterLoad⟩ := Procedure.run_bind_eq_ok succeeds
  obtain ⟨loaded, rfl⟩ := record_eq_ok peer loads
  obtain ⟨session, _, selects, afterSelect⟩ := Procedure.run_bind_eq_ok afterLoad
  obtain ⟨stands, rfl⟩ := currentOf_eq_ok peer selects
  obtain ⟨⟨sealed, next⟩, encrypted, afterSeal⟩ := Operation.run_ask_bind_eq_ok afterSelect
  obtain ⟨_, _, trusts, afterTrust⟩ := Procedure.run_bind_eq_ok afterSeal
  obtain ⟨_, rfl⟩ := requireTrust_eq_ok peer trusts
  obtain ⟨_, written, writes, done⟩ := Procedure.run_bind_eq_ok afterTrust
  cases done
  exact ⟨record, session, next, loaded, stands, encrypted, keep_eq_ok peer writes⟩

/-- When a message of a session is decrypted, the record is written as it comes out of it. -/
theorem decryptRatchet_eq_ok {message : RatchetMessage}
    {receiver : Bytes → Except SessionError Unit} {plaintext : Bytes}
    (succeeds : (decryptRatchet suite peer message receiver).run context =
      (.ok plaintext, later)) :
    ∃ record latter, context.store.loadRecord peer = .ok (some record) ∧
      record.Received suite message plaintext latter ∧
      later.store = context.store.storeRecord peer latter := by
  simp only [decryptRatchet] at succeeds
  obtain ⟨record, _, loads, afterLoad⟩ := Procedure.run_bind_eq_ok succeeds
  obtain ⟨loaded, rfl⟩ := record_eq_ok peer loads
  obtain ⟨⟨text, latter⟩, _, decrypted, afterText⟩ := Operation.run_attempt_bind_eq_ok afterLoad
  have received := SessionRecord.received_of_run_decrypt suite decrypted
  obtain ⟨session, _, selects, afterSelect⟩ := Procedure.run_bind_eq_ok afterText
  obtain ⟨_, rfl⟩ := currentOf_eq_ok peer selects
  obtain ⟨_, _, trusts, afterTrust⟩ := Procedure.run_bind_eq_ok afterSelect
  obtain ⟨_, rfl⟩ := requireTrust_eq_ok peer trusts
  obtain ⟨_, _, releases, afterRelease⟩ := Procedure.run_bind_eq_ok afterTrust
  rw [Operation.run_release, Prod.mk.injEq] at releases
  obtain ⟨_, rfl⟩ := releases
  obtain ⟨_, written, writes, done⟩ := Procedure.run_bind_eq_ok afterRelease
  cases done
  have stored := keep_eq_ok peer writes
  exact ⟨record, latter, loaded, received, stored⟩

/-- What the initiator knows who starts a session from a bundle. -/
def bundleTerms (identity base : KeyPair) (theirIdentity signedKey : PublicKey)
    (oneTimeKey : Option PublicKey) : InitiatorTerms where
  ourIdentity := identity
  ourBase := base
  theirIdentity := theirIdentity
  theirSignedPrekey := signedKey
  theirOneTimePrekey := oneTimeKey
  theirRatchet := signedKey

/-- The initiator's session, which tells the peer what it was made with. -/
def opening (terms : InitiatorTerms) (ratchet : KeyPair) (oneTimeId : Option UInt32)
    (signedId : UInt32) : Session :=
  { Session.initiated suite terms ratchet with
    pendingPrekey := some ⟨oneTimeId, signedId, terms.ourBase.publicKey⟩ }

/-- When a session is started, it is the initiator's, made with a base key that was
generated first, and it is made current. -/
theorem start_eq_ok {bundle : PrekeyBundle}
    (succeeds : (start suite peer bundle).run context = (.ok ⟨⟩, later)) :
    ∃ base signedKey oneTime ratchet stored,
      bundle.identityKey = peer.identityKey ∧ bundle.signedKey = some signedKey ∧
      oneTimeOf bundle = .ok oneTime ∧ (suite.generate.run context.supply).1 = .ok base ∧
      context.store.loadRecord peer = .ok stored ∧
      later.store = context.store.storeRecord peer ((stored.getD .fresh).promote
        (opening suite
          (bundleTerms context.store.identity base peer.identityKey signedKey
            (oneTime.map Prod.snd))
          ratchet (oneTime.map Prod.fst) bundle.signedId)) := by
  simp only [start, Procedure.throw_bind] at succeeds
  split at succeeds
  · cases succeeds
  rename_i sameIdentity
  obtain ⟨_, trusted, trusts, afterTrust⟩ := Procedure.run_bind_eq_ok succeeds
  obtain ⟨_, rfl⟩ := requireTrust_eq_ok peer trusts
  cases offered : bundle.signedKey with
  | none =>
      rw [offered] at afterTrust
      cases afterTrust
  | some signedKey =>
      rw [offered] at afterTrust
      dsimp only at afterTrust
      obtain ⟨genuine, _, verifies, afterVerify⟩ := Procedure.run_bind_eq_ok afterTrust
      obtain ⟨answer, verification, checked⟩ := suite.run_isSignature bundle.identityKey
        signedKey.toBytes bundle.signature trusted.supply
      rw [Operation.run_attempt, checked, Prod.mk.injEq] at verifies
      obtain ⟨_, rfl⟩ := verifies
      split at afterVerify
      swap
      · cases afterVerify
      obtain ⟨oneTime, together, afterAsk⟩ := Operation.run_ask_bind_eq_ok afterVerify
      obtain ⟨base, _, generated, afterBase⟩ := Operation.run_attempt_bind_eq_ok afterAsk
      have drawn := (suite.run_generate_verification _ verification).symm.trans
        (congrArg Prod.fst generated)
      obtain ⟨identity, own, afterIdentity⟩ := Operation.run_ask_bind_eq_ok afterBase
      cases own
      obtain ⟨session, _, made, afterSession⟩ := Operation.run_attempt_bind_eq_ok afterIdentity
      obtain ⟨ratchet, _, rfl⟩ := Session.initiate_eq_ok suite made
      obtain ⟨record, _, loads, keeps⟩ := Procedure.run_bind_eq_ok afterSession
      obtain ⟨⟨stored, loaded, rfl⟩, rfl⟩ := recordOrFresh_eq_ok peer loads
      have kept := keep_eq_ok peer keeps
      have named : bundle.identityKey = peer.identityKey := not_ne_iff.mp sameIdentity
      rw [named] at kept
      exact ⟨base, signedKey, oneTime, ratchet, stored, named, rfl, together, drawn, loaded, kept⟩

end Conversation

end Ratchet
