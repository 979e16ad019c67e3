import Ratchet.Proofs.Session.Decrypting
import Ratchet.Record.Receiving

/-!
# Which session of a record receives a message

The sessions of a record are tried in order, and one receives the message only
after all before it have merely refused it (`SessionRecord.run_tryEach_eq_ok`).
So a record comes out of a message it decrypts in one of two ways
(`SessionRecord.Received`): its current session has received the message, or
the current session has refused, an archived one has received it and is current
now.
-/

set_option autoImplicit false

namespace Ratchet

/-- Sessions refuse a message one after another, each with the supply that the one
before has left. -/
inductive Session.RefuseInTurn (suite : Suite) (message : RatchetMessage) :
    List Session → Supply → List MessageFault → Supply → Prop where
  | nil (supply : Supply) : RefuseInTurn suite message [] supply [] supply
  | cons {session : Session} {sessions : List Session} {supply met later : Supply}
      {fault : MessageFault} {faults : List MessageFault}
      (refuses : (session.decrypt suite message).run supply = (.error (.invalidMessage fault), met))
      (others : RefuseInTurn suite message sessions met faults later) :
      RefuseInTurn suite message (session :: sessions) supply (fault :: faults) later

namespace SessionRecord

/-! ## The sessions of a record -/

section

variable {record : SessionRecord} {session : Session}

theorem sessions_of_current (stands : record.current = some session) :
    record.sessions = session :: record.archived := by
  rw [sessions, stands]
  rfl

theorem mem_of_current (stands : record.current = some session) : session ∈ record.sessions := by
  rw [sessions_of_current stands]
  exact List.mem_cons_self

theorem mem_of_archived {index : Nat} (listed : record.archived[index]? = some session) :
    session ∈ record.sessions :=
  List.mem_append_right _ (List.mem_of_getElem? listed)

/-- An archived session, and the others behind it. -/
theorem perm_of_archived {index : Nat} (listed : record.archived[index]? = some session) :
    record.sessions.Perm
      (session :: (record.current.toList ++ record.archived.eraseIdx index)) := by
  obtain ⟨bound, rfl⟩ := List.getElem?_eq_some_iff.mp listed
  exact ((List.getElem_cons_eraseIdx_perm bound).symm.append_left _).trans List.perm_middle

end

/-! ## What becomes of the archive -/

/-- A new session drives no other into the archive than those that were there. -/
theorem archived_promote_subset (record : SessionRecord) (session : Session) :
    (record.promote session).archived ⊆ record.sessions := by
  simp only [promote, archiveCurrent, sessions]
  cases record.current with
  | none => exact List.subset_append_right _ _
  | some current => exact List.take_subset _ _

/-- The current session is archived as the newest when an archived one takes its place. -/
theorem archived_promoteArchived {record : SessionRecord} {current : Session}
    (stands : record.current = some current) (index : Nat) (session : Session) :
    (record.promoteArchived index session).archived =
      current :: (record.archived.eraseIdx index).take (Limits.archivedSessions - 1) := by
  simp only [promoteArchived, promote, archiveCurrent]
  rw [stands]
  rfl

theorem archived_promoteArchived_subset (record : SessionRecord) (index : Nat)
    (session : Session) : (record.promoteArchived index session).archived ⊆ record.sessions := by
  have fewer : ({ record with archived := record.archived.eraseIdx index } : SessionRecord).sessions
      ⊆ record.sessions :=
    ((List.Sublist.refl _).append (List.eraseIdx_sublist _ _)).subset
  exact List.Subset.trans (archived_promote_subset _ session) fewer

/-! ## Changes of a record within its limit -/

section

variable {record : SessionRecord} (few : record.archived.length ≤ Limits.archivedSessions)
include few

theorem archiveCurrent_eq : record.archiveCurrent =
    ⟨none, (record.current.toList ++ record.archived).take Limits.archivedSessions⟩ := by
  obtain ⟨current, archived⟩ := record
  cases current with
  | none => exact congrArg (SessionRecord.mk none) (List.take_of_length_le few).symm
  | some current => rfl

theorem promote_eq (session : Session) : record.promote session =
    ⟨some session, (record.current.toList ++ record.archived).take Limits.archivedSessions⟩ := by
  rw [promote, archiveCurrent_eq few]

theorem promoteArchived_eq (index : Nat) (session : Session) :
    record.promoteArchived index session = ⟨some session,
      (record.current.toList ++ record.archived.eraseIdx index).take Limits.archivedSessions⟩ := by
  have fewer : ({ record with archived := record.archived.eraseIdx index } :
      SessionRecord).archived.length ≤ Limits.archivedSessions :=
    (List.eraseIdx_sublist _ _).length_le.trans few
  exact promote_eq fewer session

/-- When an archived session becomes current, there is room for the one that was. -/
theorem promoteArchived_of_lt {index : Nat} (bound : index < record.archived.length)
    (next : Session) :
    record.promoteArchived index next =
      ⟨some next, record.current.toList ++ record.archived.eraseIdx index⟩ := by
  have room : (record.current.toList ++ record.archived.eraseIdx index).length ≤
      Limits.archivedSessions := by
    have one : record.current.toList.length ≤ 1 := Option.length_toList_le
    have erased := List.length_eraseIdx_of_lt bound
    rw [List.length_append]
    omega
  rw [promoteArchived_eq few, List.take_of_length_le room]

end

/-! ## Trying each session -/

variable (suite : Suite)

section

variable (address : Address) {message : RatchetMessage} {supply met later : Supply}
  {candidates passed : List (Session × (Session → SessionRecord))} {refusals : List MessageFault}

/-- The attempts of sessions that refuse leave only their reasons and the supply. -/
theorem run_tryEach_append {faults : List MessageFault}
    (refuse : Session.RefuseInTurn suite message (passed.map Prod.fst) supply faults met) :
    (tryEach suite address message (passed ++ candidates) refusals).run supply =
      (tryEach suite address message candidates (refusals ++ faults)).run met := by
  induction passed generalizing supply faults refusals with
  | nil =>
      cases refuse
      rw [List.nil_append, List.append_nil]
  | cons candidate passed ih =>
      cases refuse with
      | @cons _ _ _ left _ fault others refuses rest =>
          rw [List.cons_append]
          simp only [tryEach]
          rw [Procedure.run_bind, Procedure.run_observe, refuses]
          dsimp only
          rw [ih rest, List.append_assoc, List.singleton_append]

theorem run_tryEach_cons_ok {session next : Session} {keep : Session → SessionRecord}
    {plaintext : Bytes}
    (opens : (session.decrypt suite message).run supply = (.ok (plaintext, next), later)) :
    (tryEach suite address message ((session, keep) :: candidates) refusals).run supply =
      (.ok (plaintext, keep next), later) := by
  simp only [tryEach]
  rw [Procedure.run_bind, Procedure.run_observe, opens]
  rfl

theorem run_tryEach_cons_error {session : Session} {keep : Session → SessionRecord}
    {failure : SessionError}
    (fails : (session.decrypt suite message).run supply = (.error failure, later))
    (decides : failure.kind ≠ .invalidMessage) :
    (tryEach suite address message ((session, keep) :: candidates) refusals).run supply =
      (.error failure, later) := by
  simp only [tryEach]
  rw [Procedure.run_bind, Procedure.run_observe, fails]
  cases failure <;> first | rfl | exact absurd rfl decides

end

/-- The sessions are tried until one does not refuse. -/
theorem run_tryEach_eq_ok {address : Address} {message : RatchetMessage}
    {candidates : List (Session × (Session → SessionRecord))} {refusals : List MessageFault}
    {supply later : Supply} {plaintext : Bytes} {latter : SessionRecord}
    (succeeds : (tryEach suite address message candidates refusals).run supply =
      (.ok (plaintext, latter), later)) :
    ∃ passed session keep rest next, candidates = passed ++ (session, keep) :: rest ∧
      (∀ candidate ∈ passed, candidate.1.Refuses suite message) ∧
      Session.Received suite session message plaintext next ∧ latter = keep next := by
  induction candidates generalizing refusals supply with
  | nil => cases refusals <;> cases succeeds
  | cons candidate rest ih =>
      obtain ⟨session, keep⟩ := candidate
      simp only [tryEach] at succeeds
      rw [Procedure.run_bind, Procedure.run_observe] at succeeds
      dsimp only at succeeds
      cases tried : (session.decrypt suite message).run supply with
      | mk outcome left =>
          rw [tried] at succeeds
          cases outcome with
          | ok result =>
              obtain ⟨text, next⟩ := result
              cases succeeds
              exact ⟨[], session, keep, rest, next, rfl, by simp,
                Session.received_of_run_decrypt suite tried, rfl⟩
          | error failure =>
              cases failure with
              | invalidMessage fault =>
                  obtain ⟨passed, receiver, put, others, next, listed, refused, received, made⟩ :=
                    ih succeeds
                  refine ⟨(session, keep) :: passed, receiver, put, others, next, ?_, ?_, received,
                    made⟩
                  · rw [listed, List.cons_append]
                  · intro candidate member
                    rcases List.mem_cons.mp member with rfl | earlier
                    · exact ⟨supply, left, fault, tried⟩
                    · exact refused candidate earlier
              | _ => cases succeeds

/-- How a record comes out of a message that it decrypts. -/
inductive Received (former : SessionRecord) (message : RatchetMessage) (plaintext : Bytes) :
    SessionRecord → Prop where
  /-- The current session has received the message. -/
  | current {session next : Session} (stands : former.current = some session)
      (receives : Session.Received suite session message plaintext next) :
      Received former message plaintext (former.setCurrent next)
  /-- An archived session has received it after those before it refused. -/
  | archived {index : Nat} {session next : Session}
      (refused : ∀ session ∈ former.current, session.Refuses suite message)
      (earlier : ∀ session ∈ former.archived.take index, session.Refuses suite message)
      (listed : former.archived[index]? = some session)
      (receives : Session.Received suite session message plaintext next) :
      Received former message plaintext (former.promoteArchived index next)

/-- The archived sessions in the order of trial. -/
theorem archived_of_candidates {former : SessionRecord}
    {passed rest : List (Session × (Session → SessionRecord))} {session : Session}
    {keep : Session → SessionRecord}
    (listed :
      former.archived.mapIdx (fun index session => (session, former.promoteArchived index)) =
        passed ++ (session, keep) :: rest) :
    former.archived[passed.length]? = some session ∧ keep = former.promoteArchived passed.length ∧
      passed.map Prod.fst = former.archived.take passed.length := by
  have found := congrArg (·[passed.length]?) listed
  simp only [List.getElem?_mapIdx, List.getElem?_append_right (Nat.le_refl _), Nat.sub_self,
    List.getElem?_cons_zero, Option.map_eq_some_iff, Prod.mk.injEq] at found
  obtain ⟨archived, there, rfl, rfl⟩ := found
  refine ⟨there, rfl, ?_⟩
  have all : (former.archived.mapIdx
      fun index session => (session, former.promoteArchived index)).map Prod.fst =
      former.archived :=
    List.ext_getElem (by simp) fun index _ _ => by simp
  rw [← all, listed, List.map_append, List.take_append_of_le_length (List.length_map _).ge,
    List.take_of_length_le (List.length_map _).le]

/-- **A record that decrypts a message does so with its first session that does
not refuse, and this session becomes current.** -/
theorem received_of_run_decrypt {address : Address} {former latter : SessionRecord}
    {message : RatchetMessage} {plaintext : Bytes} {supply later : Supply}
    (succeeds : (former.decrypt suite address message).run supply =
      (.ok (plaintext, latter), later)) :
    former.Received suite message plaintext latter := by
  obtain ⟨passed, session, keep, rest, next, listed, refused, received, rfl⟩ :=
    run_tryEach_eq_ok suite succeeds
  simp only [candidates] at listed
  cases stands : former.current with
  | none =>
      rw [stands] at listed
      obtain ⟨there, rfl, earlier⟩ := archived_of_candidates listed
      refine .archived (by simp [stands]) ?_ there received
      rw [← earlier]
      exact List.forall_mem_map.mpr refused
  | some current =>
      rw [stands] at listed
      cases passed with
      | nil =>
          obtain ⟨rfl, rfl⟩ := Prod.mk.inj (List.cons.inj listed).1
          exact .current stands received
      | cons first passed =>
          obtain ⟨rfl, others⟩ := List.cons.inj listed
          obtain ⟨currentRefused, refused⟩ := List.forall_mem_cons.mp refused
          obtain ⟨there, rfl, earlier⟩ := archived_of_candidates others
          refine .archived ?_ ?_ there received
          · rw [stands]
            intro session same
            cases same
            exact currentRefused
          · rw [← earlier]
            exact List.forall_mem_map.mpr refused

/-- The session that is current then was in the record before, and so were the archived ones. -/
theorem Received.listed {former latter : SessionRecord} {message : RatchetMessage}
    {plaintext : Bytes} (received : former.Received suite message plaintext latter) :
    ∃ session ∈ former.sessions, ∃ next, latter.current = some next ∧
      Session.Received suite session message plaintext next ∧
      latter.archived ⊆ former.sessions := by
  cases received with
  | @current session next stands receives =>
      exact ⟨session, mem_of_current stands, next, rfl, receives, List.subset_append_right _ _⟩
  | @archived index session next refused earlier listed receives =>
      exact ⟨session, mem_of_archived listed, next, rfl, receives,
        archived_promoteArchived_subset former index next⟩

end SessionRecord

end Ratchet
