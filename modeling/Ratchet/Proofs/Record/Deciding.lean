import Ratchet.Conversation
import Ratchet.Proofs.Record.Trying
import Ratchet.Proofs.Session.Sealing

/-!
# Which attempt decides about a message

A record tries its sessions in order. Those before the one that decides refuse the
message one after another, each as it was stored before the message came; only
the supply is passed on from one attempt to the next
(`Session.RefuseInTurn`). The first session that does not merely refuse decides: a
text is returned and the update of this session becomes current, and any other
failure is returned as it is (`SessionRecord.Decided`).

This relation is exactly what decrypting with a record computes
(`SessionRecord.decided_by_first_unrefused`). All other sessions come out as they
were and in their order, because the new record is the update before the old
list without the entry that decided. A session never says that there is no
session, so only an empty record does, and a conversation whose record does not
decrypt a message stores nothing.
-/

set_option autoImplicit false

namespace Ratchet

/-! ## How one session fails -/

/-- A failure that decrypting a message in a session can have. -/
inductive RatchetMessage.Fails (message : RatchetMessage) : SessionError → Prop where
  /-- The session refuses. -/
  | refused (fault : MessageFault) : Fails message (.invalidMessage fault)
  /-- The message has been received already. -/
  | duplicate (index : UInt32) : Fails message (.duplicateMessage index message.counter)
  /-- The chain has no position after the message. -/
  | overflow : Fails message (.invalidState .chainOverflow)
  /-- A primitive gave no result. -/
  | primitive (error : PrimitiveError) : Fails message (.primitive error)

theorem RatchetMessage.Fails.kind_ne {message : RatchetMessage} {failure : SessionError}
    (fails : message.Fails failure) : failure.kind ≠ .noSession := by
  cases fails <;> exact ErrorKind.noConfusion

/-- A failure of the class of refusals is the refusal of one session. -/
theorem RatchetMessage.Fails.refused_of_kind {message : RatchetMessage} {failure : SessionError}
    (fails : message.Fails failure) (refused : failure.kind = .invalidMessage) :
    ∃ fault, failure = .invalidMessage fault := by
  cases fails with
  | refused fault => exact ⟨fault, rfl⟩
  | duplicate index => cases refused
  | overflow => cases refused
  | primitive error => cases refused

namespace Session

variable {suite : Suite} {message : RatchetMessage}

/-- A chain fails to give keys that are spent, too far ahead or without a position after them. -/
theorem fails_of_keysAt {chain : ReceivingChain} {failure : SessionError}
    (fails : chain.keysAt message.counter = .error failure) : message.Fails failure := by
  simp only [ReceivingChain.keysAt] at fails
  split at fails
  · split at fails
    · cases fails
    · cases fails
      exact .duplicate _
  · split at fails
    · cases fails
      exact .refused _
    · split at fails
      · cases fails
        exact .overflow
      · cases fails

/-- A message whose text is not revealed is refused. -/
theorem refused_of_reveal {session : Session} {keys : MessageKeys} {failure : SessionError}
    (hidden : session.reveal keys message = .error failure) :
    ∃ fault, failure = .invalidMessage fault := by
  simp only [reveal] at hidden
  split at hidden
  · cases decrypted : decryptBody keys.cipherKey keys.vector message.body with
    | ok text =>
        rw [decrypted] at hidden
        cases hidden
    | error fault =>
        rw [decrypted] at hidden
        cases hidden
        exact ⟨_, rfl⟩
  · cases hidden
    exact ⟨_, rfl⟩

theorem fails_of_receive {session around : Session} {chain : ReceivingChain}
    {failure : SessionError} (fails : session.receive around chain message = .error failure) :
    message.Fails failure := by
  simp only [receive] at fails
  cases given : chain.keysAt message.counter with
  | error reason =>
      rw [given] at fails
      cases fails
      exact fails_of_keysAt given
  | ok result =>
      rw [given] at fails
      change (session.reveal result.1 message).bind _ = _ at fails
      cases revealed : session.reveal result.1 message with
      | error reason =>
          rw [revealed] at fails
          cases fails
          obtain ⟨fault, rfl⟩ := refused_of_reveal revealed
          exact .refused fault
      | ok text =>
          rw [revealed] at fails
          cases fails

/-- **A session fails to decrypt a message in one of four ways.** -/
theorem fails_of_run_decrypt {session : Session} {supply later : Supply} {failure : SessionError}
    (fails : (session.decrypt suite message).run supply = (.error failure, later)) :
    message.Fails failure := by
  cases sends : session.sending with
  | none =>
      simp only [decrypt] at fails
      rw [sends, Procedure.run_throw] at fails
      cases fails
      exact .refused _
  | some sending =>
      by_cases speaks : message.version = session.version
      · cases found : session.receivingChain? message.ratchetKey with
        | some chain =>
            rw [run_decrypt_known suite sends speaks found, Prod.mk.injEq] at fails
            exact fails_of_receive fails.1
        | none =>
            rcases run_decrypt_new suite sends speaks found supply with
              ⟨ours, left, run, _⟩ | ⟨error, left, run⟩
            · rw [run, Prod.mk.injEq] at fails
              exact fails_of_receive fails.1
            · rw [run] at fails
              cases fails
              exact .primitive error
      · simp only [decrypt] at fails
        rw [sends] at fails
        dsimp only at fails
        rw [if_pos speaks, Procedure.run_bind, Procedure.run_throw] at fails
        cases fails
        exact .refused _

/-! ## Attempts in turn -/

theorem RefuseInTurn.length_eq {sessions : List Session} {supply later : Supply}
    {faults : List MessageFault}
    (refuse : RefuseInTurn suite message sessions supply faults later) :
    faults.length = sessions.length := by
  induction refuse with
  | nil supply => rfl
  | cons refuses others ih => exact congrArg (· + 1) ih

/-- Either all sessions refuse in turn, or one is the first that does not. -/
theorem refuseInTurn_or_decides (suite : Suite) (message : RatchetMessage)
    (sessions : List Session) (supply : Supply) :
    (∃ faults later, RefuseInTurn suite message sessions supply faults later) ∨
    ∃ index session faults met outcome later, sessions[index]? = some session ∧
      RefuseInTurn suite message (sessions.take index) supply faults met ∧
      (session.decrypt suite message).run met = (outcome, later) ∧
      ∀ failure, outcome = .error failure → failure.kind ≠ .invalidMessage := by
  induction sessions generalizing supply with
  | nil => exact .inl ⟨[], supply, .nil supply⟩
  | cons session sessions ih =>
      rcases run : (session.decrypt suite message).run supply with ⟨outcome, met⟩
      by_cases refuses : ∃ fault, outcome = .error (.invalidMessage fault)
      · obtain ⟨fault, rfl⟩ := refuses
        rcases ih met with
          ⟨faults, later, others⟩ |
          ⟨index, decider, faults, left, outcome, later, listed, others, decides⟩
        · exact .inl ⟨fault :: faults, later, .cons run others⟩
        · exact .inr ⟨index + 1, decider, fault :: faults, left, outcome, later, listed,
            .cons run others, decides⟩
      · refine .inr ⟨0, session, [], supply, outcome, met, rfl, .nil supply, run, ?_⟩
        rintro failure rfl kind
        obtain ⟨fault, rfl⟩ := (fails_of_run_decrypt run).refused_of_kind kind
        exact refuses ⟨fault, rfl⟩

end Session

namespace SessionRecord

variable (suite : Suite) (address : Address)

/-- How a record with this supply decides about a message, and the supply after it. -/
inductive Decided (record : SessionRecord) (message : RatchetMessage) (supply : Supply) :
    Except SessionError (Bytes × SessionRecord) → Supply → Prop where
  /-- There is no session. -/
  | missing (empty : record.sessions = []) :
      Decided record message supply (.error (.noSession address)) supply
  /-- All sessions refuse. -/
  | refused {faults : List MessageFault} {later : Supply} (present : record.sessions ≠ [])
      (refuse : Session.RefuseInTurn suite message record.sessions supply faults later) :
      Decided record message supply (.error (.noMatchingSession faults)) later
  /-- The sessions before this one refuse, and this one decrypts the message. -/
  | opened {index : Nat} {session next : Session} {faults : List MessageFault}
      {met later : Supply} {plaintext : Bytes} (listed : record.sessions[index]? = some session)
      (earlier : Session.RefuseInTurn suite message (record.sessions.take index) supply faults met)
      (opens : (session.decrypt suite message).run met = (.ok (plaintext, next), later)) :
      Decided record message supply
        (.ok (plaintext, ⟨some next, record.sessions.eraseIdx index⟩)) later
  /-- The sessions before this one refuse, and this one has a failure of another class. -/
  | failed {index : Nat} {session : Session} {faults : List MessageFault} {met later : Supply}
      {failure : SessionError} (listed : record.sessions[index]? = some session)
      (earlier : Session.RefuseInTurn suite message (record.sessions.take index) supply faults met)
      (fails : (session.decrypt suite message).run met = (.error failure, later))
      (decides : failure.kind ≠ .invalidMessage) :
      Decided record message supply (.error failure) later

section

variable {record : SessionRecord} {message : RatchetMessage} {supply : Supply}

/-- One of the four cases applies. -/
theorem exists_decided (record : SessionRecord) (message : RatchetMessage) (supply : Supply) :
    ∃ outcome later, record.Decided suite address message supply outcome later := by
  rcases Session.refuseInTurn_or_decides suite message record.sessions supply with
    ⟨faults, later, refuse⟩ |
    ⟨index, session, faults, met, outcome, later, listed, earlier, run, decides⟩
  · by_cases empty : record.sessions = []
    · exact ⟨_, _, .missing empty⟩
    · exact ⟨_, _, .refused empty refuse⟩
  · cases outcome with
    | ok result => exact ⟨_, _, .opened listed earlier run⟩
    | error failure => exact ⟨_, _, .failed listed earlier run (decides failure rfl)⟩

/-- Only an empty record has no session for the message. -/
theorem Decided.noSession_iff {outcome : Except SessionError (Bytes × SessionRecord)}
    {later : Supply} (decided : record.Decided suite address message supply outcome later) :
    (∃ failure, outcome = .error failure ∧ failure.kind = .noSession) ↔ record.sessions = [] := by
  cases decided with
  | missing empty => exact iff_of_true ⟨_, rfl, rfl⟩ empty
  | refused present refuse =>
      refine iff_of_false ?_ present
      rintro ⟨failure, same, kind⟩
      cases same
      cases kind
  | opened listed earlier opens =>
      refine iff_of_false ?_ (List.ne_nil_of_mem (List.mem_of_getElem? listed))
      rintro ⟨failure, same, kind⟩
      cases same
  | failed listed earlier fails decides =>
      refine iff_of_false ?_ (List.ne_nil_of_mem (List.mem_of_getElem? listed))
      rintro ⟨failure, same, kind⟩
      cases same
      exact (Session.fails_of_run_decrypt fails).kind_ne kind

end

/-! ## What trying computes -/

theorem run_tryEach_nil {message : RatchetMessage} {supply : Supply}
    {refusals : List MessageFault} (present : refusals ≠ []) :
    (tryEach suite address message [] refusals).run supply =
      (.error (.noMatchingSession refusals), supply) := by
  cases refusals with
  | nil => exact absurd rfl present
  | cons fault faults => rfl

section

variable {record : SessionRecord} (few : record.archived.length ≤ Limits.archivedSessions)
include few

/-- An update of the session at an index goes before all others, and these stay in order. -/
theorem keep_eq {index : Nat} {session : Session} {keep : Session → SessionRecord}
    (candidate : record.candidates[index]? = some (session, keep)) (next : Session) :
    keep next = ⟨some next, record.sessions.eraseIdx index⟩ := by
  have archived {position : Nat}
      (listed : (record.archived.mapIdx fun index session =>
        (session, record.promoteArchived index))[position]? = some (session, keep)) :
      keep next = ⟨some next, record.current.toList ++ record.archived.eraseIdx position⟩ := by
    rw [List.getElem?_mapIdx] at listed
    obtain ⟨there, found, same⟩ := Option.map_eq_some_iff.mp listed
    cases same
    exact promoteArchived_of_lt few (List.getElem?_eq_some_iff.mp found).1 next
  simp only [candidates] at candidate
  simp only [sessions]
  cases stands : record.current with
  | none =>
      rw [stands] at candidate archived
      exact archived candidate
  | some current =>
      rw [stands] at candidate archived
      cases index with
      | zero =>
          cases candidate
          rfl
      | succ position => exact archived candidate

/-- Each of the four cases is what decrypting computes. -/
theorem Decided.run_eq {message : RatchetMessage} {supply later : Supply}
    {outcome : Except SessionError (Bytes × SessionRecord)}
    (decided : record.Decided suite address message supply outcome later) :
    (record.decrypt suite address message).run supply = (outcome, later) := by
  have split {index : Nat} {session : Session} (listed : record.sessions[index]? = some session) :
      ∃ keep, record.candidates = record.candidates.take index ++
          (session, keep) :: record.candidates.drop (index + 1) ∧
        (record.candidates.take index).map Prod.fst = record.sessions.take index ∧
        ∀ next, keep next = ⟨some next, record.sessions.eraseIdx index⟩ := by
    rw [← map_fst_candidates, List.getElem?_map] at listed
    obtain ⟨⟨_, keep⟩, candidate, rfl⟩ := Option.map_eq_some_iff.mp listed
    refine ⟨keep, ?_, ?_, keep_eq few candidate⟩
    · obtain ⟨bound, entry⟩ := List.getElem?_eq_some_iff.mp candidate
      rw [← entry, List.getElem_cons_drop, List.take_append_drop]
    · rw [List.map_take, map_fst_candidates]
  simp only [SessionRecord.decrypt]
  cases decided with
  | missing empty =>
      rw [← map_fst_candidates, List.map_eq_nil_iff] at empty
      rw [empty]
      rfl
  | @refused faults later present refuse =>
      have reasons : faults ≠ [] := by
        intro none
        have length := refuse.length_eq
        rw [none] at length
        exact present (List.length_eq_zero_iff.mp length.symm)
      rw [← map_fst_candidates] at refuse
      rw [← List.append_nil record.candidates, run_tryEach_append suite address refuse,
        List.nil_append, run_tryEach_nil suite address reasons]
  | opened listed earlier opens =>
      obtain ⟨keep, candidates, before, kept⟩ := split listed
      rw [← before] at earlier
      rw [candidates, run_tryEach_append suite address earlier,
        run_tryEach_cons_ok suite address opens, kept]
  | failed listed earlier fails decides =>
      obtain ⟨keep, candidates, before, _⟩ := split listed
      rw [← before] at earlier
      rw [candidates, run_tryEach_append suite address earlier,
        run_tryEach_cons_error suite address fails decides]

/-- Decrypting with a record is deciding about the message. -/
theorem run_decrypt_iff {message : RatchetMessage} {supply later : Supply}
    {outcome : Except SessionError (Bytes × SessionRecord)} :
    (record.decrypt suite address message).run supply = (outcome, later) ↔
      record.Decided suite address message supply outcome later := by
  constructor
  · intro run
    obtain ⟨decision, left, decided⟩ := exists_decided suite address record message supply
    rw [decided.run_eq suite address few, Prod.mk.injEq] at run
    obtain ⟨rfl, rfl⟩ := run
    exact decided
  · exact fun decided => decided.run_eq suite address few

end

end SessionRecord

namespace Conversation

/-- When the record does not decrypt a message, the conversation stores nothing. -/
theorem run_decryptRatchet_of_error {ς : Type} [ProtocolStore ς] (suite : Suite) (peer : Address)
    {context : Context ς} {record : SessionRecord} {message : RatchetMessage}
    {failure : SessionError} {later : Supply}
    (stored : ProtocolStore.loadRecord context.store peer = .ok (some record))
    (fails : (record.decrypt suite peer message).run context.supply = (.error failure, later))
    (receiver : Bytes → Except SessionError Unit) :
    (decryptRatchet suite peer message receiver).run context =
      (.error failure, { context with supply := later }) := by
  have loaded : (Conversation.record peer).run context = (.ok record, context) := by
    simp only [Conversation.record, record?]
    rw [Procedure.run_bind_of_ok (Operation.run_ask_of_ok stored)]
    rfl
  simp only [decryptRatchet]
  rw [Procedure.run_bind_of_ok loaded]
  rw [Procedure.run_bind, Operation.run_attempt, fails]

end Conversation

namespace SessionRecord

/-- **The first session that does not merely refuse a message decides about it.** The
outcome and the new record are as in `Decided`, only an empty record has no
session for a message, and after a failure the stored record is as it was. -/
theorem decided_by_first_unrefused (suite : Suite) (address : Address) {record : SessionRecord}
    (few : record.archived.length ≤ Limits.archivedSessions) (message : RatchetMessage)
    (supply : Supply) :
    (∀ outcome later, (record.decrypt suite address message).run supply = (outcome, later) ↔
      record.Decided suite address message supply outcome later) ∧
    ((∃ failure later,
        (record.decrypt suite address message).run supply = (.error failure, later) ∧
        failure.kind = .noSession) ↔
      record.current = none ∧ record.archived = []) ∧
    ∀ failure later,
      (record.decrypt suite address message).run supply = (.error failure, later) →
      ∀ {ς : Type} [ProtocolStore ς] (context : Context ς)
        (receiver : Bytes → Except SessionError Unit),
        ProtocolStore.loadRecord context.store address = .ok (some record) →
        context.supply = supply →
        (Conversation.decryptRatchet suite address message receiver).run context =
          (.error failure, { context with supply := later }) := by
  refine ⟨fun outcome later => run_decrypt_iff suite address few, ?_, ?_⟩
  · have empty : record.sessions = [] ↔ record.current = none ∧ record.archived = [] := by
      rw [sessions, List.append_eq_nil_iff, Option.toList_eq_nil_iff]
    obtain ⟨outcome, later, decided⟩ := exists_decided suite address record message supply
    rw [← empty, ← decided.noSession_iff, decided.run_eq suite address few]
    constructor
    · rintro ⟨failure, left, same, kind⟩
      exact ⟨failure, (Prod.mk.inj same).1, kind⟩
    · rintro ⟨failure, rfl, kind⟩
      exact ⟨failure, later, rfl, kind⟩
  · intro failure later fails ς _ context receiver stored same
    rw [← same] at fails
    exact Conversation.run_decryptRatchet_of_error suite address stored fails receiver

/-- A session that was archived and keeps the keys of a message. -/
def sampleArchived : Session where
  storedVersion := 3
  localIdentity := default
  remoteIdentity := default
  root := ⟨.v3, default⟩
  receiving := [⟨default, ⟨.v3, default, 4⟩, [⟨default, default, default, 1⟩]⟩]
  sending := some ⟨default, ⟨.v3, default, 0⟩⟩

/-- A newer session with the same device, which knows another ratchet key and keeps other keys. -/
def sampleCurrent : Session :=
  { sampleArchived with
    receiving := [⟨⟨.replicate 32 9⟩, ⟨.v3, default, 2⟩, [⟨default, default, default, 0⟩]⟩] }

/-- The message, of which the newer session cannot know that it is not on a new chain. -/
def sampleLate : RatchetMessage :=
  .make 3 default default 1 3 (encryptBody default default [1, 2, 3]) default default

/-- Under the keys that the newer session then finds, the message is not authentic. -/
theorem forged_sampleLate :
    ∃ keys left, (sampleCurrent.opened Suite.classic ⟨default, ⟨.v3, default, 0⟩⟩
        default).keysAt 1 = .ok (keys, left) ∧
      sampleLate.verify default default keys.macKey = false := by
  have checked : (((sampleCurrent.opened Suite.classic ⟨default, ⟨.v3, default, 0⟩⟩
      default).keysAt 1).map fun given =>
        sampleLate.verify default default given.1.macKey).toOption = some false := by
    decide +kernel
  cases given : (sampleCurrent.opened Suite.classic ⟨default, ⟨.v3, default, 0⟩⟩
      default).keysAt 1 with
  | error failure =>
      rw [given] at checked
      cases checked
  | ok result =>
      rw [given] at checked
      exact ⟨result.1, result.2, rfl, Option.some.inj checked⟩

/-- The archived session has the keys, and has used them up afterwards. -/
theorem run_decrypt_sampleLate (supply : Supply) :
    ∃ next, (sampleArchived.decrypt Suite.classic sampleLate).run supply =
        (.ok ([1, 2, 3], next), supply) ∧
      next.receiving.map (·.skipped) = [[]] := by
  let keys : MessageKeys := ⟨default, default, default, 1⟩
  let chain : ReceivingChain := ⟨default, ⟨.v3, default, 4⟩, [keys]⟩
  have known : sampleArchived.receivingChain? sampleLate.ratchetKey = some chain := rfl
  have given : chain.keysAt sampleLate.counter = .ok (keys, { chain with skipped := [] }) := rfl
  have authentic : sampleLate.verify sampleArchived.remoteIdentity sampleArchived.localIdentity
      default = true :=
    RatchetMessage.verify_make 3 default default 1 3 (encryptBody default default [1, 2, 3])
      default default
  have revealed : sampleArchived.reveal keys sampleLate = .ok [1, 2, 3] := by
    unfold Session.reveal
    rw [if_pos authentic]
    show Except.mapError _ (decryptBody _ _ (encryptBody _ _ [1, 2, 3])) = _
    rw [decryptBody_encryptBody]
    rfl
  rw [Session.run_decrypt_known Suite.classic rfl rfl known]
  simp only [Session.receive]
  rw [given]
  show ∃ next, ((sampleArchived.reveal keys sampleLate).bind _, supply) = _ ∧ _
  rw [revealed]
  exact ⟨_, rfl, rfl⟩

/-- The current session turns around the message, having closed its chain, and refuses it then. The
archived one has the keys; and the current one is archived as it was before. -/
theorem archived_session_decides :
    ∃ next later,
      (sampleCurrent.decrypt Suite.classic sampleLate).run (.zeros 1) =
        (.error (.invalidMessage .badMac), later) ∧
      ((⟨some sampleCurrent, [sampleArchived]⟩ : SessionRecord).decrypt Suite.classic default
        sampleLate).run (.zeros 1) = (.ok ([1, 2, 3], ⟨some next, [sampleCurrent]⟩), later) ∧
      next.receiving.map (·.skipped) = [[]] := by
  have unknown : sampleCurrent.receivingChain? sampleLate.ratchetKey = none := rfl
  obtain ⟨ours, later, _, _, turns⟩ := Session.run_decrypt_new_of_lasts Suite.classic
    (Supply.lasts_zeros 1) rfl rfl unknown
  obtain ⟨keys, left, given, forged⟩ := forged_sampleLate
  have refuses : (sampleCurrent.decrypt Suite.classic sampleLate).run (.zeros 1) =
      (.error (.invalidMessage .badMac), later) :=
    turns.trans (congrArg (·, later)
      (Session.receive_eq_badMac sampleCurrent sampleLate given forged _))
  obtain ⟨next, opens, used⟩ := run_decrypt_sampleLate later
  have few : (⟨some sampleCurrent, [sampleArchived]⟩ : SessionRecord).archived.length ≤
      Limits.archivedSessions := by decide
  have decided := decided_by_first_unrefused Suite.classic default few sampleLate (.zeros 1)
  have listed : (⟨some sampleCurrent, [sampleArchived]⟩ : SessionRecord).sessions[1]? =
      some sampleArchived := rfl
  exact ⟨next, later, refuses,
    (decided.1 _ _).mpr (.opened listed (.cons refuses (.nil _)) opens), used⟩

end SessionRecord

end Ratchet
