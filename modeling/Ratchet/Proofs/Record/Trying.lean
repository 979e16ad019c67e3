import Ratchet.Proofs.Chain.Tracing
import Ratchet.Proofs.Record.Tidiness
import Ratchet.Proofs.Session.Handshakes

/-!
# A record finds the session of a message

A session to which a message does not belong declines it: whatever the supply,
as long as it lasts, the session merely refuses and has used up one pair at most
(`Session.Declines`). So it is with a session that does not know the ratchet key
of the message and does not authenticate it (`Session.declines_of_unknown`).

When all other sessions decline, a record decrypts a message in the session that
takes it, wherever this session is. The update of this session is installed: it
is current, and every other session is as it was
(`SessionRecord.run_decrypt_of_declines`).
-/

set_option autoImplicit false

namespace Ratchet

/-- The only entry of a list that answers is found. -/
theorem find?_eq_some_of_unique {α : Type} {entries : List α} {entry : α} {p : α → Bool}
    (member : entry ∈ entries) (answers : p entry = true)
    (unique : ∀ other ∈ entries, p other = true → other = entry) :
    entries.find? p = some entry := by
  obtain ⟨other, found⟩ :=
    Option.isSome_iff_exists.mp (List.find?_isSome.mpr ⟨entry, member, answers⟩)
  rw [found, unique other (List.mem_of_find?_eq_some found) (List.find?_some found)]

/-! ## Supplies that last longer -/

theorem Entropy.Lasts.of_succ {source : Entropy} {pairs : Nat} (lasts : source.Lasts (pairs + 1)) :
    source.Lasts pairs := by
  induction pairs generalizing source with
  | zero => trivial
  | succ pairs ih =>
      obtain ⟨taken, rest, took, restLasts⟩ := lasts
      exact ⟨taken, rest, took, ih restLasts⟩

theorem Supply.Lasts.mono {supply : Supply} {fewer pairs : Nat} (lasts : supply.Lasts pairs)
    (le : fewer ≤ pairs) : supply.Lasts fewer := by
  induction le with
  | refl => exact lasts
  | step _ ih => exact ih ⟨lasts.agreement, lasts.generation, lasts.entropy.of_succ⟩

namespace Session

variable (suite : Suite)

/-- The session merely refuses the message, with whatever supply that lasts. -/
def Declines (session : Session) (message : RatchetMessage) : Prop :=
  ∀ (supply : Supply) (pairs : Nat), supply.Lasts (pairs + 1) →
    ∃ fault later, (session.decrypt suite message).run supply =
      (.error (.invalidMessage fault), later) ∧ later.Lasts pairs

/-- A fresh chain gives the keys of every message that is not too far ahead. -/
theorem keysAt_opened (session : Session) (sending : SendingChain) (message : RatchetMessage)
    (near : message.counter.toNat ≤ Limits.skippedKeys) :
    ∃ keys left, (session.opened suite sending message.ratchetKey).keysAt message.counter =
      .ok (keys, left) := by
  obtain ⟨next, received, _⟩ :=
    Progress.Sound.start.receive_of_awaits near (.inl (Nat.zero_le message.counter.toNat))
  let origin := (session.root.turn
    (suite.agree sending.ratchet.privateKey message.ratchetKey)).2
  have fresh : session.opened suite sending message.ratchetKey =
      .tracing message.ratchetKey origin .start := by
    rw [ReceivingChain.tracing_start]
    rfl
  have starts : origin.index = 0 := rfl
  rw [fresh, ReceivingChain.keysAt_tracing _ starts .start, received]
  exact ⟨_, _, rfl⟩

/-- A session declines a message on a ratchet key that it does not know, unless it
authenticates the message. -/
theorem declines_of_unknown {session : Session} {sending : SendingChain} {message : RatchetMessage}
    (sends : session.sending = some sending) (speaks : message.version = session.version)
    (unknown : session.receivingChain? message.ratchetKey = none)
    (near : message.counter.toNat ≤ Limits.skippedKeys)
    (foreign : ¬ session.Authenticates suite message) : session.Declines suite message := by
  intro supply pairs lasts
  obtain ⟨ours, later, _, laterLasts, run⟩ :=
    run_decrypt_new_of_lasts suite lasts sends speaks unknown
  obtain ⟨keys, left, given⟩ := session.keysAt_opened suite sending message near
  have fails : message.verify session.remoteIdentity session.localIdentity keys.macKey = false := by
    rw [Bool.eq_false_iff]
    intro authentic
    exact foreign ⟨_, keys, left, .inr ⟨unknown, sending, sends, rfl⟩, given, authentic⟩
  refine ⟨.badMac, later, ?_, laterLasts⟩
  rw [run, receive_eq_badMac _ _ given fails]

end Session

namespace SessionRecord

/-! ## Installing a session -/

/-- The session with a base key. -/
def session? (record : SessionRecord) (base : PublicKey) : Option Session :=
  record.sessions.find? (·.initiatorBase = some base)

/-- The session is in the record after, and every session of another base key is as before. -/
def Installs (former latter : SessionRecord) (session : Session) : Prop :=
  ∀ other, other ∈ latter.sessions ↔
    other = session ∨ other ∈ former.sessions ∧ other.initiatorBase ≠ session.initiatorBase

section

variable {record latter : SessionRecord} {session next : Session}

theorem session?_eq_some_iff (named : (record.sessions.map (·.initiatorBase)).Nodup)
    {base : PublicKey} :
    record.session? base = some session ↔
      session ∈ record.sessions ∧ session.initiatorBase = some base := by
  constructor
  · intro found
    have answers := List.find?_some found
    exact ⟨List.mem_of_find?_eq_some found, of_decide_eq_true answers⟩
  · rintro ⟨member, same⟩
    refine find?_eq_some_of_unique member (decide_eq_true same) fun other listed answers => ?_
    exact List.inj_on_of_nodup_map named listed member ((of_decide_eq_true answers).trans same.symm)

/-- What is installed is found, and what was found under other base keys is found as before. -/
theorem Installs.session?_eq (installs : record.Installs latter session)
    (named : (record.sessions.map (·.initiatorBase)).Nodup)
    (namedLatter : (latter.sessions.map (·.initiatorBase)).Nodup) (base : PublicKey) :
    latter.session? base =
      if session.initiatorBase = some base then some session else record.session? base := by
  ext other
  rw [session?_eq_some_iff namedLatter, installs other]
  by_cases own : session.initiatorBase = some base
  · rw [if_pos own, Option.some_inj]
    refine ⟨?_, fun same => ⟨.inl same.symm, same ▸ own⟩⟩
    rintro ⟨rfl | ⟨_, different⟩, same⟩
    · rfl
    · exact absurd (same.trans own.symm) different
  · rw [if_neg own, session?_eq_some_iff named]
    refine ⟨?_, fun ⟨member, same⟩ => ⟨.inr ⟨member, fun equal => own (equal ▸ same)⟩, same⟩⟩
    rintro ⟨rfl | ⟨member, _⟩, same⟩
    · exact absurd same own
    · exact ⟨member, same⟩

/-- An update that takes the place of its session is installed. -/
theorem installs_of_perm (named : (record.sessions.map (·.initiatorBase)).Nodup)
    {others : List Session} (splits : record.sessions.Perm (session :: others))
    (takes : latter.sessions.Perm (next :: others))
    (same : next.initiatorBase = session.initiatorBase) : record.Installs latter next := by
  have apart := (splits.map (·.initiatorBase)).nodup_iff.mp named
  rw [List.map_cons, List.nodup_cons] at apart
  intro other
  rw [takes.mem_iff, splits.mem_iff, List.mem_cons, List.mem_cons, same]
  refine or_congr_right ⟨fun member => ⟨.inr member, fun equal => ?_⟩, ?_⟩
  · exact apart.1 (List.mem_map.mpr ⟨other, member, equal⟩)
  · rintro ⟨rfl | member, different⟩
    · exact absurd rfl different
    · exact member

/-- The current session takes its update. -/
theorem installs_setCurrent (named : (record.sessions.map (·.initiatorBase)).Nodup)
    (stands : record.current = some session)
    (same : next.initiatorBase = session.initiatorBase) :
    record.Installs (record.setCurrent next) next :=
  installs_of_perm named (.of_eq (sessions_of_current stands)) (.refl _) same

/-- Where there is room, nothing is forgotten when a session becomes current. -/
theorem sessions_promote (room : record.sessions.length ≤ Limits.archivedSessions)
    (session : Session) : (record.promote session).sessions = session :: record.sessions := by
  simp only [promote, archiveCurrent, sessions] at room ⊢
  cases stands : record.current with
  | none => rfl
  | some current =>
      rw [stands] at room
      exact congrArg (session :: ·) (List.take_of_length_le room)

/-- An archived session takes its update and becomes current. -/
theorem installs_promoteArchived (named : (record.sessions.map (·.initiatorBase)).Nodup)
    (few : record.archived.length ≤ Limits.archivedSessions) {index : Nat}
    (listed : record.archived[index]? = some session)
    (same : next.initiatorBase = session.initiatorBase) :
    record.Installs (record.promoteArchived index next) next := by
  have bound := (List.getElem?_eq_some_iff.mp listed).1
  refine installs_of_perm named (perm_of_archived listed) ?_ same
  rw [promoteArchived_of_lt few bound]
  exact .refl _

/-- A session whose base key is new is added to the others. -/
theorem installs_promote (room : record.sessions.length ≤ Limits.archivedSessions)
    (new : ∀ other ∈ record.sessions, other.initiatorBase ≠ session.initiatorBase) :
    record.Installs (record.promote session) session := by
  intro other
  rw [sessions_promote room, List.mem_cons]
  exact or_congr_right ⟨fun member => ⟨member, new other member⟩, And.left⟩

end

/-! ## Trying each session -/

variable (suite : Suite)

/-- Sessions that decline a message refuse it in turn. -/
theorem refuseInTurn_of_declines {message : RatchetMessage} {sessions : List Session}
    (declines : ∀ session ∈ sessions, session.Declines suite message) {supply : Supply}
    (lasts : supply.Lasts (sessions.length + 1)) :
    ∃ faults met, Session.RefuseInTurn suite message sessions supply faults met ∧
      met.Lasts 1 := by
  induction sessions generalizing supply with
  | nil => exact ⟨[], supply, .nil supply, lasts⟩
  | cons session sessions ih =>
      obtain ⟨first, others⟩ := List.forall_mem_cons.mp declines
      obtain ⟨fault, left, refused, leftLasts⟩ := first supply (sessions.length + 1) lasts
      obtain ⟨faults, met, refuse, metLasts⟩ := ih others leftLasts
      exact ⟨fault :: faults, met, .cons refused refuse, metLasts⟩

/-- The sessions before the one that takes the message decline it. -/
theorem run_tryEach_of_declines {address : Address} {message : RatchetMessage} {session : Session}
    (takes : ∀ supply : Supply, supply.Lasts 1 →
      ∃ result later, (session.decrypt suite message).run supply = (.ok result, later))
    (keep : Session → SessionRecord) (rest : List (Session × (Session → SessionRecord)))
    {passed : List (Session × (Session → SessionRecord))}
    (declines : ∀ candidate ∈ passed, candidate.1.Declines suite message)
    (refusals : List MessageFault) {supply : Supply} (lasts : supply.Lasts (passed.length + 1)) :
    ∃ used plaintext next later, used.Lasts 1 ∧
      (session.decrypt suite message).run used = (.ok (plaintext, next), later) ∧
      (tryEach suite address message (passed ++ (session, keep) :: rest) refusals).run supply =
        (.ok (plaintext, keep next), later) := by
  rw [← List.length_map Prod.fst] at lasts
  obtain ⟨faults, used, refuse, usedLasts⟩ :=
    refuseInTurn_of_declines suite (List.forall_mem_map.mpr declines) lasts
  obtain ⟨⟨plaintext, next⟩, later, taken⟩ := takes used usedLasts
  refine ⟨used, plaintext, next, later, usedLasts, taken, ?_⟩
  rw [run_tryEach_append suite address refuse, run_tryEach_cons_ok suite address taken]

/-- The sessions are tried in their order. -/
theorem map_fst_candidates (record : SessionRecord) :
    record.candidates.map Prod.fst = record.sessions := by
  have archived : (record.archived.mapIdx
      fun index session => (session, record.promoteArchived index)).map Prod.fst =
      record.archived :=
    List.ext_getElem (by simp) fun index _ _ => by simp
  rw [candidates, List.map_append, archived, List.map_map]
  exact congrArg (· ++ _) (List.map_id _)

/-- Whatever session takes a message, its update is installed. -/
theorem installs_of_mem_candidates {record : SessionRecord} {session next : Session}
    {keep : Session → SessionRecord} (named : (record.sessions.map (·.initiatorBase)).Nodup)
    (few : record.archived.length ≤ Limits.archivedSessions)
    (same : next.initiatorBase = session.initiatorBase)
    (candidate : (session, keep) ∈ record.candidates) :
    (keep next).current = some next ∧ record.Installs (keep next) next := by
  rcases List.mem_append.mp candidate with stands | archived
  · obtain ⟨current, member, made⟩ := List.mem_map.mp stands
    cases made
    exact ⟨rfl, installs_setCurrent named (Option.mem_toList.mp member) same⟩
  · obtain ⟨index, bound, made⟩ := List.mem_mapIdx.mp archived
    cases made
    exact ⟨rfl, installs_promoteArchived named few (List.getElem?_eq_getElem bound) same⟩

/-- **A record decrypts a message in the session that takes it**, if all sessions before
this one decline. -/
theorem run_decrypt_of_declines {record : SessionRecord} (address : Address)
    {message : RatchetMessage} {session : Session}
    (named : (record.sessions.map (·.initiatorBase)).Nodup)
    (few : record.archived.length ≤ Limits.archivedSessions) {earlier later : List Session}
    (split : record.sessions = earlier ++ session :: later)
    (declines : ∀ other ∈ earlier, other.Declines suite message)
    (takes : ∀ supply : Supply, supply.Lasts 1 →
      ∃ result later, (session.decrypt suite message).run supply = (.ok result, later))
    {supply : Supply} (lasts : supply.Lasts (Limits.archivedSessions + 1)) :
    ∃ used plaintext next left latter, used.Lasts 1 ∧
      (session.decrypt suite message).run used = (.ok (plaintext, next), left) ∧
      (record.decrypt suite address message).run supply = (.ok (plaintext, latter), left) ∧
      latter.current = some next ∧ record.Installs latter next := by
  have short : earlier.length + 1 ≤ Limits.archivedSessions + 1 := by
    have length := congrArg List.length split
    have one : record.current.toList.length ≤ 1 := Option.length_toList_le
    rw [sessions, List.length_append, List.length_append, List.length_cons] at length
    omega
  obtain ⟨passed, others, candidates, rfl, restMapped⟩ :=
    List.map_eq_append_iff.mp ((map_fst_candidates record).trans split)
  obtain ⟨⟨_, keep⟩, rest, rfl, rfl, _⟩ := List.map_eq_cons_iff.mp restMapped
  rw [List.length_map] at short
  obtain ⟨used, plaintext, next, left, usedLasts, taken, run⟩ :=
    run_tryEach_of_declines suite takes keep rest (List.forall_mem_map.mp declines) []
      (lasts.mono short)
  have same := (Session.received_of_run_decrypt suite taken).initiatorBase_eq
  obtain ⟨current, installs⟩ := installs_of_mem_candidates named few same (candidates ▸
    List.mem_append_right _ List.mem_cons_self)
  refine ⟨used, plaintext, next, left, keep next, usedLasts, taken, ?_, current, installs⟩
  rw [SessionRecord.decrypt, candidates]
  exact run

end SessionRecord

end Ratchet
