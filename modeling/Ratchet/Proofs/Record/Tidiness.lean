import Ratchet.Proofs.Record.Receiving
import Ratchet.Proofs.Session.Belonging

/-!
# Tidy records

The sessions of a record belong together when they are bounded and all belong to
one pair of identities (`SessionRecord.Owned`). It stays so when a session of
these identities becomes current, or an update takes the place of a session,
wherever the update is put (`SessionRecord.Owned.adding`); receiving a message is
such an update (`SessionRecord.Owned.received`). Such a record has at most 41
sessions, each of them compact, and so its stored form is short
(`SessionRecord.Owned.length_encode_lt`).

A record is tidy when besides no two sessions were started with the same base key
(`SessionRecord.Tidy`). A new session keeps it so if its base key is new
(`SessionRecord.Tidy.promote`), and an update of a session that is there does
(`SessionRecord.Tidy.update`).
-/

set_option autoImplicit false

namespace Ratchet

namespace SessionRecord

/-- The sessions are bounded, and all belong to this pair of identities. -/
structure Owned (record : SessionRecord) (ours theirs : PublicKey) : Prop where
  few : record.archived.length ≤ Limits.archivedSessions
  belong : ∀ session ∈ record.sessions, session.Belongs ours theirs
  compact : ∀ session ∈ record.sessions, session.Compact

/-- The sessions belong together, are bounded, and are named by distinct base keys. -/
structure Tidy (record : SessionRecord) (ours theirs : PublicKey) : Prop extends
    record.Owned ours theirs where
  named : (record.sessions.map (·.initiatorBase)).Nodup

variable {record later : SessionRecord} {ours theirs : PublicKey} {session next : Session}

/-! ## Whose the sessions are -/

theorem owned_fresh : fresh.Owned ours theirs where
  few := Nat.zero_le _
  belong _ member := absurd member List.not_mem_nil
  compact _ member := absurd member List.not_mem_nil

/-- The current session of an owned record has the peer's identity. -/
theorem Owned.remoteIdentity_eq (owned : record.Owned ours theirs)
    (stands : record.current = some session) : session.remoteIdentity = theirs :=
  (owned.belong session (mem_of_current stands)).remoteIdentity

/-- A session of the same identities may be added, or take the place of another. -/
theorem Owned.adding (owned : record.Owned ours theirs)
    (added : later.sessions ⊆ next :: record.sessions)
    (few : later.archived.length ≤ Limits.archivedSessions) (belongs : next.Belongs ours theirs)
    (compact : next.Compact) : later.Owned ours theirs where
  few := few
  belong other member := by
    rcases List.mem_cons.mp (added member) with rfl | old
    · exact belongs
    · exact owned.belong other old
  compact other member := by
    rcases List.mem_cons.mp (added member) with rfl | old
    · exact compact
    · exact owned.compact other old

theorem Owned.promote (owned : record.Owned ours theirs) (belongs : session.Belongs ours theirs)
    (compact : session.Compact) : (record.promote session).Owned ours theirs :=
  owned.adding (sessions_promote_sublist record session).subset
    (length_archived_promote_le owned.few session) belongs compact

theorem Owned.setCurrent (owned : record.Owned ours theirs) (belongs : next.Belongs ours theirs)
    (compact : next.Compact) : (record.setCurrent next).Owned ours theirs :=
  owned.adding (List.cons_subset_cons next (List.subset_append_right _ _)) owned.few belongs compact

theorem Owned.promoteArchived (owned : record.Owned ours theirs) (index : Nat)
    (belongs : next.Belongs ours theirs) (compact : next.Compact) :
    (record.promoteArchived index next).Owned ours theirs := by
  have left : ({ record with archived := record.archived.eraseIdx index } : SessionRecord).Owned
      ours theirs :=
    { few := (List.eraseIdx_sublist _ _).length_le.trans owned.few
      belong := fun other member =>
        owned.belong other (((List.eraseIdx_sublist _ _).append_left _).subset member)
      compact := fun other member =>
        owned.compact other (((List.eraseIdx_sublist _ _).append_left _).subset member) }
  exact left.promote belongs compact

theorem Owned.encrypt (owned : record.Owned ours theirs) (stands : record.current = some session)
    {plaintext : Bytes} {message : Message}
    (encrypted : session.encrypt plaintext = .ok (message, next)) :
    (record.setCurrent next).Owned ours theirs := by
  have member := mem_of_current stands
  exact owned.setCurrent ((owned.belong session member).encrypt encrypted)
    ((owned.compact session member).encrypt encrypted)

/-- **A record that receives a message stays with its owners.** -/
theorem Owned.received {suite : Suite} {message : RatchetMessage} {plaintext : Bytes}
    (owned : record.Owned ours theirs) (received : record.Received suite message plaintext later) :
    later.Owned ours theirs := by
  cases received with
  | @current session next stands receives =>
      have member := mem_of_current stands
      exact owned.setCurrent (receives.belongs suite (owned.belong session member))
        (receives.compact suite (owned.compact session member))
  | @archived index session next refused earlier listed receives =>
      have member := mem_of_archived listed
      exact owned.promoteArchived index (receives.belongs suite (owned.belong session member))
        (receives.compact suite (owned.compact session member))

/-- The stored form of a record whose sessions belong together is short. -/
theorem Owned.length_encode_lt (owned : record.Owned ours theirs) :
    (Layout.record.encode record).length < 2 ^ 64 := by
  have short := length_encode_le fun other member =>
    (owned.compact other member).within.length_encode_lt.le
  have few : record.sessions.length ≤ 1 + 40 := by
    rw [sessions, List.length_append]
    refine Nat.add_le_add ?_ owned.few
    cases record.current with
    | none => exact Nat.zero_le _
    | some current => exact le_rfl
  omega

/-! ## How the sessions are named -/

theorem tidy_fresh : fresh.Tidy ours theirs := ⟨owned_fresh, List.nodup_nil⟩

/-- A session whose base key is new can become current. -/
theorem Tidy.promote (tidy : record.Tidy ours theirs) (belongs : session.Belongs ours theirs)
    (compact : session.Compact)
    (new : ∀ other ∈ record.sessions, other.initiatorBase ≠ session.initiatorBase) :
    (record.promote session).Tidy ours theirs := by
  refine ⟨tidy.toOwned.promote belongs compact, ?_⟩
  refine List.Nodup.sublist ((sessions_promote_sublist record session).map _) ?_
  rw [List.map_cons, List.nodup_cons]
  refine ⟨fun listed => ?_, tidy.named⟩
  obtain ⟨other, member, same⟩ := List.mem_map.mp listed
  exact new other member same

/-- An update of a session takes its place, and leaves the others or forgets some. -/
theorem Tidy.update (tidy : record.Tidy ours theirs) {others : List Session}
    (splits : record.sessions.Perm (session :: others))
    (takes : later.sessions.Sublist (next :: others)) (owned : later.Owned ours theirs)
    (same : next.initiatorBase = session.initiatorBase) : later.Tidy ours theirs := by
  refine ⟨owned, List.Nodup.sublist (takes.map _) ?_⟩
  rw [List.map_cons, same, ← List.map_cons]
  exact (splits.map _).nodup_iff.mp tidy.named

theorem Tidy.setCurrent (tidy : record.Tidy ours theirs) (stands : record.current = some session)
    (belongs : next.Belongs ours theirs) (compact : next.Compact)
    (same : next.initiatorBase = session.initiatorBase) :
    (record.setCurrent next).Tidy ours theirs :=
  tidy.update (.of_eq (sessions_of_current stands)) (.refl _)
    (tidy.toOwned.setCurrent belongs compact) same

theorem Tidy.promoteArchived (tidy : record.Tidy ours theirs) {index : Nat}
    (listed : record.archived[index]? = some session) (belongs : next.Belongs ours theirs)
    (compact : next.Compact) (same : next.initiatorBase = session.initiatorBase) :
    (record.promoteArchived index next).Tidy ours theirs :=
  tidy.update (perm_of_archived listed) (sessions_promote_sublist _ next)
    (tidy.toOwned.promoteArchived index belongs compact) same

/-- **A record that receives a message stays tidy.** -/
theorem Tidy.received {suite : Suite} {message : RatchetMessage} {plaintext : Bytes}
    (tidy : record.Tidy ours theirs) (received : record.Received suite message plaintext later) :
    later.Tidy ours theirs := by
  cases received with
  | @current session next stands receives =>
      have member := mem_of_current stands
      exact tidy.setCurrent stands (receives.belongs suite (tidy.belong session member))
        (receives.compact suite (tidy.compact session member)) (receives.initiatorBase_eq suite)
  | @archived index session next refused earlier listed receives =>
      have member := mem_of_archived listed
      exact tidy.promoteArchived listed (receives.belongs suite (tidy.belong session member))
        (receives.compact suite (tidy.compact session member)) (receives.initiatorBase_eq suite)

/-- A session is known by its base key alone. -/
theorem Tidy.hasSession_iff (tidy : record.Tidy ours theirs) {baseKey : PublicKey} :
    record.hasSession Limits.currentVersion baseKey = true ↔
      ∃ session ∈ record.sessions, session.initiatorBase = some baseKey := by
  rw [hasSession, List.any_eq_true]
  refine exists_congr fun session => and_congr_right fun member => ?_
  rw [(tidy.belong session member).version]
  simp

/-- Where the record has no session of a base key in the current version, it has none at all. -/
theorem Tidy.ne_of_hasSession (tidy : record.Tidy ours theirs) {baseKey : PublicKey}
    (unknown : record.hasSession Limits.currentVersion baseKey = false) :
    ∀ other ∈ record.sessions, other.initiatorBase ≠ some baseKey := by
  intro other member same
  have known := tidy.hasSession_iff.mpr ⟨other, member, same⟩
  rw [unknown] at known
  cases known

end SessionRecord

end Ratchet
