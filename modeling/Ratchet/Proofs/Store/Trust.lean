import Ratchet.Proofs.Conversation.Respecting
import Ratchet.Proofs.Store.History

/-!
# Trust

The sessions in the record of an address belong to the identity of the address,
whatever has been done and sent (`MemoryStore.Owned.after`), so every check of trust
in a conversation with the address is a check of trust in this identity.

While the identity is distrusted, every request at the address is refused: it
fails, the store stays as it is, and no text is handed out
(`MemoryStore.refused_serve`). To requests at other addresses it makes no
difference (`MemoryStore.serve_distrusting`). So when the identity is trusted
again, the store is as if it had never been distrusted
(`MemoryStore.trust_enforced`).
-/

set_option autoImplicit false

namespace Ratchet

/-- Nothing that a conversation does to a record takes it from its owners. -/
theorem SessionRecord.upkeep_owned (suite : Suite) (peer : Address) (ours : PublicKey) :
    Conversation.Upkeep suite peer ours fun record => record.Owned ours peer.identityKey where
  fresh := owned_fresh
  initiated {_ terms ratchet _} owned own theirs := by
    subst own
    rw [← theirs] at owned ⊢
    exact owned.promote { Session.belongs_initiated suite terms ratchet with }
      ((Session.compact_initiated suite terms ratchet).congr rfl)
  responded owned own theirs := by
    subst own
    rw [← theirs] at owned ⊢
    exact owned.promote (Session.belongs_responded suite _) (Session.compact_responded suite _)
  encrypted owned stands encrypted := owned.encrypt stands encrypted
  received owned received := owned.received received

namespace MemoryStore

variable (suite : Suite)

/-- The sessions in every record belong to the store's identity and that of the address. -/
def Owned (store : MemoryStore) : Prop :=
  store.Keeps fun ours theirs record => record.Owned ours theirs

/-- The stores are the same but for the identities they distrust, and every record is owned. -/
structure DifferInTrust (former latter : List PublicKey) (ours : PublicKey)
    (first second : MemoryStore) : Prop where
  first_eq : first = { second with distrusted := former }
  latter_eq : second.distrusted = latter
  ours_eq : second.identity.publicKey = ours
  owned : second.Owned

section

variable {former latter : List PublicKey} {ours : PublicKey} {peer : Address}

theorem Owned.of_loadRecord {store : MemoryStore} (owned : store.Owned) {record : SessionRecord}
    (loaded : store.loadRecord peer = .ok (some record)) :
    record.Owned store.identity.publicKey peer.identityKey :=
  Keeps.of_loadRecord owned SessionRecord.Owned.length_encode_lt loaded record rfl

/-- Which other identities are distrusted is not seen in a conversation. -/
theorem sees_trust (same : former.contains peer.identityKey = latter.contains peer.identityKey) :
    Conversation.Sees peer ours (fun record => record.Owned ours peer.identityKey)
      (DifferInTrust former latter ours) := by
  have trusts_eq : ∀ {first second : MemoryStore}, DifferInTrust former latter ours first second →
      first.trusts peer.identityKey = second.trusts peer.identityKey := by
    intro first second stores
    simp only [trusts]
    rw [stores.latter_eq, ← same, stores.first_eq]
  exact {
    identity_eq := fun stores => by rw [stores.first_eq]
    ours_eq := fun stores => by
      rw [stores.first_eq]
      exact stores.ours_eq
    signed_eq := fun id stores => by rw [stores.first_eq]
    oneTime_eq := fun id stores => by rw [stores.first_eq]
    record_eq := fun stores => by
      rw [stores.first_eq]
      rfl
    loads := fun stores loaded => by
      rw [stores.first_eq] at loaded
      rw [← stores.ours_eq]
      exact stores.owned.of_loadRecord loaded
    trusts_eq := trusts_eq
    owner_eq := fun stores owned stands => by
      rw [owned.remoteIdentity_eq stands]
      exact trusts_eq stores
    keeps := fun stores owned => by
      obtain ⟨rfl, rfl, rfl, all⟩ := stores
      exact ⟨rfl, rfl, rfl, Keeps.storeRecord all owned⟩
    removes := fun id stores => by
      obtain ⟨rfl, rfl, rfl, all⟩ := stores
      exact ⟨rfl, rfl, rfl, Keeps.congr all rfl rfl⟩ }

end

/-- **Requests depend on trust in the identity of their address alone.** A store that distrusts
other identities, but agrees in this one, serves the request alike. -/
theorem serve_distrusting {store : MemoryStore} (owned : store.Owned) {former : List PublicKey}
    {peer : Address}
    (same : former.contains peer.identityKey = store.distrusted.contains peer.identityKey)
    (request : Request) (supply : Supply) :
    let first := (request.serve suite peer).run
      { store := { store with distrusted := former }, supply }
    let second := (request.serve suite peer).run { store, supply }
    first.1 = second.1 ∧ Context.Related
      (DifferInTrust former store.distrusted store.identity.publicKey) first.2 second.2 := by
  have respects := Conversation.respects_serve (sees_trust same)
    (SessionRecord.upkeep_owned suite peer store.identity.publicKey) request
  have stores : DifferInTrust former store.distrusted store.identity.publicKey
      { store with distrusted := former } store := ⟨rfl, rfl, rfl, owned⟩
  have contexts : Context.Related (DifferInTrust former store.distrusted store.identity.publicKey)
      { store := { store with distrusted := former }, supply } { store, supply } :=
    ⟨stores, rfl, rfl⟩
  obtain ⟨outcome, after, _⟩ := respects _ _ contexts
  exact ⟨outcome, after⟩

/-! ## Whose the records are -/

/-- A request leaves the records with their owners, and changes nothing in whom the store trusts. -/
theorem Owned.serve {store : MemoryStore} (owned : store.Owned) (peer : Address)
    (request : Request) (supply : Supply) :
    (store.serve suite peer request supply).Owned ∧
      (store.serve suite peer request supply).distrusted = store.distrusted := by
  have same : store.distrusted.contains peer.identityKey =
    store.distrusted.contains peer.identityKey := rfl
  obtain ⟨_, contexts⟩ := serve_distrusting suite owned same request supply
  exact ⟨contexts.store.owned, contexts.store.latter_eq⟩

/-- **Every deed leaves the records with their owners.** -/
theorem Owned.perform {store : MemoryStore} (owned : store.Owned) (deed : Deed) :
    (store.perform suite deed).Owned := by
  cases deed with
  | start peer bundle supply => exact (owned.serve suite peer _ supply).1
  | encrypt peer plaintext supply => exact (owned.serve suite peer _ supply).1
  | receive peer type bytes receiver supply =>
      simp only [MemoryStore.perform]
      cases Message.parse type bytes with
      | error failure => exact owned
      | ok message => exact (owned.serve suite peer _ supply).1
  | _ => exact Keeps.congr owned rfl rfl

theorem Owned.after {store : MemoryStore} (owned : store.Owned) (deeds : List Deed) :
    (store.after suite deeds).Owned := by
  induction deeds generalizing store with
  | nil => exact owned
  | cons deed rest ih => exact ih (owned.perform suite deed)

end MemoryStore

/-! ## While an identity is distrusted -/

namespace Conversation

variable (suite : Suite) {peer : Address} {context : Context MemoryStore}

theorem refused_requireTrust {key : PublicKey} (distrusts : context.store.trusts key = false)
    (direction : Direction) : (requireTrust peer key direction).RefusedIn context := by
  have answer : ProtocolStore.isTrusted context.store peer key direction = .ok false :=
    congrArg Except.ok distrusts
  exact ⟨.untrustedIdentity peer, context, run_requireTrust_of_distrusts peer answer, rfl, rfl⟩

theorem silent_record : (record peer : Operation MemoryStore _).Silent := by
  refine (Operation.silent_ask _).bind fun stored => ?_
  cases stored with
  | some record => exact Operation.silent_pure record
  | none => exact Operation.silent_throw _

theorem silent_recordOrFresh : (recordOrFresh peer : Operation MemoryStore _).Silent :=
  (Operation.silent_ask _).bind fun _ => Operation.silent_pure _

theorem silent_currentOf (record : SessionRecord) :
    (currentOf peer record : Operation MemoryStore _).Silent := by
  simp only [currentOf]
  cases record.current with
  | some session => exact Operation.silent_pure session
  | none => exact Operation.silent_throw _

section

variable (distrusts : context.store.trusts peer.identityKey = false)
include distrusts

theorem refused_start (bundle : PrekeyBundle) :
    (start suite peer bundle : Operation MemoryStore _).RefusedIn context := by
  simp only [start, Procedure.throw_bind]
  split
  · exact Operation.refused_throw _ context
  · rename_i sameIdentity
    have named : bundle.identityKey = peer.identityKey := not_ne_iff.mp sameIdentity
    rw [named]
    exact (refused_requireTrust distrusts _).bind _

theorem refused_decryptPrekey (message : PrekeyMessage)
    (receiver : Bytes → Except SessionError Unit) :
    (decryptPrekey suite peer message receiver : Operation MemoryStore _).RefusedIn context := by
  simp only [decryptPrekey]
  refine silent_recordOrFresh.bind_refused fun record later loads => ?_
  obtain ⟨_, rfl⟩ := recordOrFresh_eq_ok peer loads
  refine Operation.RefusedIn.bind ?_ _
  exact (refused_requireTrust distrusts _).bind _

variable (owned : context.store.Owned)
include owned

theorem refused_encrypt (plaintext : Bytes) :
    (encrypt peer plaintext : Operation MemoryStore _).RefusedIn context := by
  simp only [encrypt]
  refine silent_record.bind_refused fun record later loads => ?_
  obtain ⟨loaded, rfl⟩ := record_eq_ok peer loads
  refine (silent_currentOf record).bind_refused fun session later selects => ?_
  obtain ⟨stands, rfl⟩ := currentOf_eq_ok peer selects
  refine (Operation.silent_ask _).bind_refused fun sealed later seals => ?_
  rw [Operation.run_ask, Prod.mk.injEq] at seals
  obtain ⟨encrypted, rfl⟩ := seals
  have updated := (owned.of_loadRecord loaded).encrypt stands encrypted
  refine Operation.RefusedIn.bind (refused_requireTrust ?_ _) _
  rw [updated.remoteIdentity_eq rfl]
  exact distrusts

theorem refused_decryptRatchet (message : RatchetMessage)
    (receiver : Bytes → Except SessionError Unit) :
    (decryptRatchet suite peer message receiver : Operation MemoryStore _).RefusedIn context := by
  simp only [decryptRatchet]
  refine silent_record.bind_refused fun record later loads => ?_
  obtain ⟨loaded, rfl⟩ := record_eq_ok peer loads
  refine (Operation.silent_attempt _).bind_refused fun result later decrypts => ?_
  rw [Operation.run_attempt, Prod.mk.injEq] at decrypts
  obtain ⟨decrypted, rfl⟩ := decrypts
  have updated := (owned.of_loadRecord loaded).received
    (SessionRecord.received_of_run_decrypt suite (Prod.ext decrypted rfl))
  refine (silent_currentOf result.2).bind_refused fun session later selects => ?_
  obtain ⟨stands, rfl⟩ := currentOf_eq_ok peer selects
  refine Operation.RefusedIn.bind (refused_requireTrust ?_ _) _
  rw [updated.remoteIdentity_eq stands]
  exact distrusts

/-- **While the identity of an address is distrusted, every request at the address is refused.** -/
theorem refused_serve (request : Request) :
    (request.serve suite peer : Operation MemoryStore _).RefusedIn context := by
  cases request with
  | start bundle => exact (refused_start suite distrusts bundle).map _
  | encrypt plaintext => exact (refused_encrypt distrusts owned plaintext).map _
  | decrypt message receiver =>
      cases message with
      | ratchet message =>
          exact (refused_decryptRatchet suite distrusts owned message receiver).map _
      | prekey message => exact (refused_decryptPrekey suite distrusts message receiver).map _

end

end Conversation

/-! ## When it is trusted again -/

/-- Whether a deed distrusts the identity, or is a request at an address of it. -/
def Deed.concerns (key : PublicKey) : Deed → Bool
  | .start peer _ _ => peer.identityKey = key
  | .encrypt peer _ _ => peer.identityKey = key
  | .receive peer _ _ _ _ => peer.identityKey = key
  | .distrust other => other = key
  | _ => false

namespace MemoryStore

variable (suite : Suite) {store : MemoryStore} {key : PublicKey}

/-! ### Trust in several identities -/

theorem trusts_iff : store.trusts key = true ↔ key ∉ store.distrusted := by
  simp only [trusts, Bool.not_eq_true', List.contains_eq_mem, decide_eq_false_iff_not]

theorem trusts_trust_of_ne {other : PublicKey} (different : other ≠ key) :
    (store.trust key).trusts other = store.trusts other := by
  rw [Bool.eq_iff_iff, trusts_iff, trusts_iff]
  simp [trust, different]

theorem trusts_distrust_of_ne {other : PublicKey} (different : other ≠ key) :
    (store.distrust key).trusts other = store.trusts other := by
  rw [Bool.eq_iff_iff, trusts_iff, trusts_iff]
  simp [distrust, different]

theorem trusts_distrust_self (store : MemoryStore) (key : PublicKey) :
    (store.distrust key).trusts key = false := by
  simp [trusts, distrust]

theorem trust_distrust_self (store : MemoryStore) (key : PublicKey) :
    (store.distrust key).trust key = store.trust key := by
  simp [trust, distrust]

/-- Trusting an identity that is trusted changes nothing. -/
theorem trust_of_trusts (trusts : store.trusts key = true) : store.trust key = store := by
  have unlisted : store.distrusted.filter (· ≠ key) = store.distrusted := by
    refine List.filter_eq_self.mpr fun other member => decide_eq_true ?_
    rintro rfl
    exact trusts_iff.mp trusts member
  rw [trust, unlisted]

theorem trust_trust_comm (store : MemoryStore) (first second : PublicKey) :
    (store.trust first).trust second = (store.trust second).trust first := by
  simp only [trust, List.filter_filter, Bool.and_comm]

theorem trust_distrust_comm (store : MemoryStore) {first second : PublicKey}
    (different : first ≠ second) :
    (store.distrust first).trust second = (store.trust second).distrust first := by
  simp [trust, distrust, different, List.filter_filter, Bool.and_comm]

/-! ### One deed -/

/-- A request at an address of a distrusted identity leaves the store as it is. -/
theorem serve_of_distrusted (owned : store.Owned) {peer : Address} (named : peer.identityKey = key)
    (distrusts : store.trusts key = false) (request : Request) (supply : Supply) :
    store.serve suite peer request supply = store := by
  subst named
  have refused : (request.serve suite peer).RefusedIn (⟨store, supply, []⟩ : Context MemoryStore) :=
    Conversation.refused_serve suite distrusts owned request
  obtain ⟨failure, later, ran, unchanged, _⟩ := refused
  rw [MemoryStore.serve, ran]
  exact unchanged

/-- To a request at another address it makes no difference whether an identity is trusted again
before or after it. -/
theorem trust_serve (owned : store.Owned) {peer : Address} (other : peer.identityKey ≠ key)
    (request : Request) (supply : Supply) :
    (store.serve suite peer request supply).trust key =
      (store.trust key).serve suite peer request supply := by
  have same : store.distrusted.contains peer.identityKey =
      (store.trust key).distrusted.contains peer.identityKey := by
    exact (Bool.not_inj (trusts_trust_of_ne other)).symm
  have trusting : (store.trust key).Owned := Keeps.congr owned rfl rfl
  obtain ⟨_, contexts⟩ := serve_distrusting suite trusting same request supply
  have first_eq : store.serve suite peer request supply =
      { (store.trust key).serve suite peer request supply with distrusted := store.distrusted } :=
    contexts.store.first_eq
  have latter_eq : ((store.trust key).serve suite peer request supply).distrusted =
      (store.trust key).distrusted := contexts.store.latter_eq
  rw [first_eq]
  refine Eq.trans ?_ (congrArg (fun distrusted =>
    { (store.trust key).serve suite peer request supply with distrusted }) latter_eq.symm)
  rfl

/-- A request leaves an identity distrusted. At the addresses of the identity it does nothing, and
at other addresses it does what it would do if the identity were trusted. -/
theorem trust_serve_cases (owned : store.Owned) (distrusts : store.trusts key = false)
    (peer : Address) (request : Request) (supply : Supply) :
    (store.serve suite peer request supply).trusts key = false ∧
      (peer.identityKey = key →
        (store.serve suite peer request supply).trust key = store.trust key) ∧
      (peer.identityKey ≠ key → (store.serve suite peer request supply).trust key =
        (store.trust key).serve suite peer request supply) := by
  by_cases named : peer.identityKey = key
  · rw [serve_of_distrusted suite owned named distrusts request supply]
    exact ⟨distrusts, fun _ => rfl, fun other => absurd named other⟩
  · refine ⟨?_, fun same => absurd same named,
      fun _ => trust_serve suite owned named request supply⟩
    rw [← distrusts, trusts, (owned.serve suite peer request supply).2]
    rfl

/-- **While an identity is distrusted, what concerns it does nothing**, and to other deeds it makes
no difference. -/
theorem trust_perform (owned : store.Owned) (distrusts : store.trusts key = false) {deed : Deed}
    (remains : deed ≠ .trust key) :
    (store.perform suite deed).trusts key = false ∧
      (deed.concerns key = true → (store.perform suite deed).trust key = store.trust key) ∧
      (deed.concerns key = false →
        (store.perform suite deed).trust key = (store.trust key).perform suite deed) := by
  have serve : ∀ (peer : Address) (request : Request) (supply : Supply),
      (store.serve suite peer request supply).trusts key = false ∧
        (decide (peer.identityKey = key) = true →
          (store.serve suite peer request supply).trust key = store.trust key) ∧
        (decide (peer.identityKey = key) = false →
          (store.serve suite peer request supply).trust key =
            (store.trust key).serve suite peer request supply) := by
    intro peer request supply
    rw [decide_eq_true_iff, decide_eq_false_iff_not]
    exact trust_serve_cases suite owned distrusts peer request supply
  cases deed with
  | start peer bundle supply => exact serve peer _ supply
  | encrypt peer plaintext supply => exact serve peer _ supply
  | receive peer type bytes receiver supply =>
      simp only [MemoryStore.perform]
      cases Message.parse type bytes with
      | error failure => exact ⟨distrusts, fun _ => rfl, fun _ => rfl⟩
      | ok message => exact serve peer _ supply
  | trust other =>
      have different : key ≠ other := fun same => remains (same ▸ rfl)
      exact ⟨(trusts_trust_of_ne different).trans distrusts,
        fun concerns => absurd concerns Bool.false_ne_true,
        fun _ => trust_trust_comm store other key⟩
  | distrust other =>
      by_cases same : other = key
      · subst same
        exact ⟨trusts_distrust_self store other, fun _ => trust_distrust_self store other,
          fun other => absurd rfl (of_decide_eq_false other)⟩
      · exact ⟨(trusts_distrust_of_ne (Ne.symm same)).trans distrusts,
          fun concerns => absurd (of_decide_eq_true concerns) same,
          fun _ => trust_distrust_comm store same⟩
  | _ => exact ⟨distrusts, fun concerns => absurd concerns Bool.false_ne_true, fun _ => rfl⟩

/-! ### Any number of deeds -/

/-- However long an identity is distrusted, what concerns it in the meantime does nothing. -/
theorem trust_after (owned : store.Owned) (distrusts : store.trusts key = false)
    {during : List Deed} (remains : .trust key ∉ during) :
    (store.after suite during).trust key =
      (store.trust key).after suite (during.filter fun deed => !deed.concerns key) := by
  induction during generalizing store with
  | nil => rfl
  | cons deed rest ih =>
      rw [List.mem_cons, not_or] at remains
      obtain ⟨distrustsNext, ignored, done⟩ :=
        trust_perform suite owned distrusts (Ne.symm remains.1)
      have further : ((store.perform suite deed).after suite rest).trust key = _ :=
        ih (owned.perform suite deed) distrustsNext remains.2
      refine further.trans ?_
      cases concerns : deed.concerns key with
      | true => rw [ignored concerns, List.filter_cons_of_neg (by simp [concerns])]
      | false =>
          rw [done concerns, List.filter_cons_of_pos (by simp [concerns])]
          rfl

/-- **Trust is enforced, and leaves no trace.** In a store that began without records, and while it
distrusts the identity of an address, every request at the address fails, leaves the store as it
is, and hands out no text. If it trusts an identity, stops trusting it for any number of deeds, and
trusts it again, then it is the store that would be there if it had never stopped and the requests
at the addresses of the identity had not been made. -/
theorem trust_enforced {start : MemoryStore} (empty : start.records = .empty) (deeds : List Deed)
    (key : PublicKey) :
    let store := start.after suite deeds
    (store.trusts key = false → ∀ (peer : Address) (request : Request) (supply : Supply),
      peer.identityKey = key →
      ∃ failure later, (request.serve suite peer).run { store, supply } = (.error failure, later) ∧
        later.store = store ∧ later.released = []) ∧
    (store.trusts key = true → ∀ during : List Deed, .trust key ∉ during →
      ((store.distrust key).after suite during).trust key =
        store.after suite (during.filter fun deed => !deed.concerns key)) := by
  intro store
  have owned : store.Owned := Owned.after suite (keeps_of_empty empty) deeds
  refine ⟨?_, ?_⟩
  · intro distrusts peer request supply named
    subst named
    exact Conversation.refused_serve suite distrusts owned request
  · intro trusts during remains
    have distrusting : (store.distrust key).Owned := Keeps.congr owned rfl rfl
    have same : (store.distrust key).trust key = store := by
      rw [trust_distrust_self, trust_of_trusts trusts]
    rw [trust_after suite distrusting (trusts_distrust_self store key) remains, same]

/-- A session is started, its peer is distrusted, a text and a second start are refused, and the
peer is trusted again: the session is there as it was. -/
theorem trust_enforced_with_session :
    let store := sampleStore.perform Suite.classic (sampleStart 1)
    let key := samplePeer.identityKey
    sampleBases store = some [sampleBase 1] ∧
    (∀ supply, ∃ failure later,
      (Request.serve Suite.classic samplePeer (.encrypt [1])).run
        { store := store.distrust key, supply } = (.error failure, later) ∧
      later.store = store.distrust key ∧ later.released = []) ∧
    ((store.distrust key).after Suite.classic
      [.encrypt samplePeer [1] (sampleSupply 2), sampleStart 2]).trust key = store := by
  intro store key
  have empty : sampleStore.records = .empty := rfl
  obtain ⟨refuses, _⟩ := trust_enforced Suite.classic empty [sampleStart 1, .distrust key] key
  obtain ⟨_, restores⟩ := trust_enforced Suite.classic empty [sampleStart 1] key
  have initial : sampleStore.Owned := keeps_of_empty empty
  have trusts : store.trusts key = true := by
    have unchanged : store.distrusted = [] :=
      (initial.serve Suite.classic samplePeer (.start sampleBundle) (sampleSupply 1)).2
    rw [trusts_iff, unchanged]
    exact List.not_mem_nil
  let during := [.encrypt samplePeer [1] (sampleSupply 2), sampleStart 2]
  have all : during.filter (fun deed => !deed.concerns key) = [] := by
    simp [during, Deed.concerns, sampleStart, key]
  have restored := restores trusts during (by simp [during, sampleStart])
  rw [all] at restored
  exact ⟨bases_sample.1,
    fun supply => refuses (trusts_distrust_self store key) samplePeer (.encrypt [1]) supply rfl,
    restored⟩

end MemoryStore

end Ratchet
