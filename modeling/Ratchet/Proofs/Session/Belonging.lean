import Ratchet.Proofs.Layout.Size
import Ratchet.Proofs.Session.Invariant

/-!
# Whose a session is

A session belongs to the pair of identities it was made for, speaks the current
version, can send, and is named by the base key of its initiator
(`Session.Belongs`). Nothing that a session is sent says whose it is, so neither
encrypting nor receiving changes any of this.

A session also stays compact (`Session.Compact`): its chains have distinct
ratchet keys and keep to the limits of the protocol.
-/

set_option autoImplicit false

namespace Ratchet

namespace ReceivingChain

variable {chain next : ReceivingChain}

/-- Storing keys keeps no more of them than the limit. -/
theorem length_skipped_store_le (bounded : chain.skipped.length ≤ Limits.skippedKeys)
    (keys : List MessageKeys) : (chain.store keys).skipped.length ≤ Limits.skippedKeys := by
  unfold store
  split
  · exact bounded
  · dsimp only
    exact length_lastOf_le _ _

/-- No message makes a chain keep more keys than the limit. -/
theorem Moves.length_skipped_le (moves : chain.Moves next)
    (bounded : chain.skipped.length ≤ Limits.skippedKeys) :
    next.skipped.length ≤ Limits.skippedKeys := by
  cases moves with
  | stays => exact bounded
  | closes counter =>
      simp only [skipTo]
      split
      · exact bounded
      · split
        · exact bounded
        · refine length_skipped_store_le ?_ _
          exact bounded
  | @gives counter keys next given =>
      simp only [keysAt] at given
      split at given
      · split at given
        · rename_i result taken
          cases given
          obtain ⟨_, _, same⟩ := Option.map_eq_some_iff.mp taken
          cases same
          exact List.length_eraseP_le.trans bounded
        · cases given
      · split at given
        · cases given
        · split at given
          · cases given
          · cases given
            refine length_skipped_store_le ?_ _
            exact bounded

end ReceivingChain

namespace Session

variable (suite : Suite)

/-- Whose a session is, and that it is in use between the two. -/
structure Belongs (session : Session) (ours theirs : PublicKey) : Prop where
  version : session.version = Limits.currentVersion
  localIdentity : session.localIdentity = ours
  remoteIdentity : session.remoteIdentity = theirs
  sends : session.sending.isSome
  named : session.initiatorBase.isSome

/-- What bounds the stored form of a session. -/
structure Compact (session : Session) : Prop where
  distinct : session.Distinct
  within : session.Within

/-- The stored form is bounded by the receiving chains alone. -/
theorem Compact.congr {session next : Session} (compact : session.Compact)
    (same : next.receiving = session.receiving) : next.Compact where
  distinct := by
    rw [Distinct, same]
    exact compact.distinct
  within := by
    refine ⟨?_, ?_⟩
    · rw [same]
      exact compact.within.chains
    · rw [same]
      exact compact.within.keys

/-! ## New sessions -/

theorem belongs_initiated (terms : InitiatorTerms) (ratchet : KeyPair) :
    (initiated suite terms ratchet).Belongs terms.ourIdentity.publicKey terms.theirIdentity :=
  ⟨rfl, rfl, rfl, rfl, rfl⟩

theorem belongs_responded (terms : ResponderTerms) :
    (responded suite terms).Belongs terms.ourIdentity.publicKey terms.theirIdentity :=
  ⟨rfl, rfl, rfl, rfl, rfl⟩

theorem compact_initiated (terms : InitiatorTerms) (ratchet : KeyPair) :
    (initiated suite terms ratchet).Compact := by
  refine ⟨List.nodup_singleton _, (by decide : 1 ≤ Limits.receivingChains), ?_⟩
  intro chain member
  cases List.mem_singleton.mp member
  exact Nat.zero_le _

theorem compact_responded (terms : ResponderTerms) : (responded suite terms).Compact :=
  ⟨List.nodup_nil, Nat.zero_le _, fun _ member => absurd member List.not_mem_nil⟩

/-! ## Receiving -/

section

variable {session next : Session} {message : RatchetMessage} {plaintext : Bytes}

/-- Receiving changes neither the version nor whose the session is. -/
theorem Received.owners_eq (received : Received suite session message plaintext next) :
    next.storedVersion = session.storedVersion ∧ next.localIdentity = session.localIdentity ∧
      next.remoteIdentity = session.remoteIdentity := by
  cases received with
  | known found given opens =>
      rw [putReceiving_eq]
      exact ⟨rfl, rfl, rfl⟩
  | new sends absent given opens =>
      rw [putReceiving_eq, turned, closeLatest_eq]
      exact ⟨rfl, rfl, rfl⟩

theorem Received.belongs {ours theirs : PublicKey}
    (received : Received suite session message plaintext next)
    (belongs : session.Belongs ours theirs) : next.Belongs ours theirs := by
  obtain ⟨version, localIdentity, remoteIdentity⟩ := received.owners_eq suite
  refine ⟨?_, ?_, ?_, received.sends suite belongs.sends, ?_⟩
  · rw [← belongs.version, Session.version, Session.version, version]
  · rw [localIdentity, belongs.localIdentity]
  · rw [remoteIdentity, belongs.remoteIdentity]
  · rw [received.initiatorBase_eq suite]
    exact belongs.named

theorem Received.compact (received : Received suite session message plaintext next)
    (compact : session.Compact) : next.Compact := by
  refine ⟨received.distinct suite compact.distinct,
    received.few suite compact.distinct compact.within.chains, ?_⟩
  intro chain member
  obtain ⟨before, moves, old | ⟨_, sending, _, rfl⟩⟩ :=
    received.moves suite compact.distinct chain member
  · exact moves.length_skipped_le (compact.within.keys before old)
  · exact moves.length_skipped_le (Nat.zero_le _)

end

/-! ## Encrypting -/

section

variable {session next : Session} {plaintext : Bytes} {message : Message}

theorem Belongs.encrypt {ours theirs : PublicKey} (belongs : session.Belongs ours theirs)
    (encrypted : session.encrypt plaintext = .ok (message, next)) : next.Belongs ours theirs := by
  obtain ⟨sending, position, _, _, _, rfl⟩ := encrypt_eq_ok encrypted
  exact { belongs with sends := rfl }

theorem Compact.encrypt (compact : session.Compact)
    (encrypted : session.encrypt plaintext = .ok (message, next)) : next.Compact := by
  obtain ⟨sending, position, _, _, _, rfl⟩ := encrypt_eq_ok encrypted
  exact compact.congr rfl

/-- Encrypting does not change who started the session. -/
theorem initiatorBase_of_encrypt (encrypted : session.encrypt plaintext = .ok (message, next)) :
    next.initiatorBase = session.initiatorBase := by
  obtain ⟨sending, position, _, _, _, rfl⟩ := encrypt_eq_ok encrypted
  rfl

end

end Session

end Ratchet
