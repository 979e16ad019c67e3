import Ratchet.Session.Basic

/-!
# Records

A record holds all sessions with one device: the current one, and archived ones
with the most recently current first. A new session pushes the current one into
the archive; an archived session that is used again leaves the archive before
it becomes current, so it is never there twice. The archive has a limit beyond
which the oldest sessions are forgotten.
-/

set_option autoImplicit false

namespace Ratchet

/-- All sessions with one device. -/
structure SessionRecord where
  current : Option Session := none
  /-- Most recently current first. -/
  archived : List Session := []
deriving DecidableEq

namespace SessionRecord

/-- A record without sessions. -/
def fresh : SessionRecord := {}

/-- The record of one session. -/
def ofSession (session : Session) : SessionRecord := { current := some session }

/-- Whether there is no session at all. -/
def isFresh (record : SessionRecord) : Bool := record.current.isNone && record.archived.isEmpty

/-- All sessions, most recently current first. -/
def sessions (record : SessionRecord) : List Session := record.current.toList ++ record.archived

/-- Whether there is a session of this version that was started with this base key. -/
def hasSession (record : SessionRecord) (version : UInt8) (baseKey : PublicKey) : Bool :=
  record.sessions.any fun session =>
    session.version = version && session.initiatorBase = some baseKey

/-- Puts an update in the place of the current session. -/
def setCurrent (record : SessionRecord) (session : Session) : SessionRecord :=
  { record with current := some session }

/-- Moves the current session, if there is one, into the archive. -/
def archiveCurrent (record : SessionRecord) : SessionRecord :=
  match record.current with
  | none => record
  | some session =>
    { current := none, archived := (session :: record.archived).take Limits.archivedSessions }

/-- Makes a session current and archives the one that was. -/
def promote (record : SessionRecord) (session : Session) : SessionRecord :=
  { record.archiveCurrent with current := some session }

/-- Makes an update of the archived session at this index current. -/
def promoteArchived (record : SessionRecord) (index : Nat) (session : Session) : SessionRecord :=
  { record with archived := record.archived.eraseIdx index }.promote session

/-- A session that becomes current is added, and nothing else is. -/
theorem sessions_promote_sublist (record : SessionRecord) (session : Session) :
    (record.promote session).sessions.Sublist (session :: record.sessions) := by
  simp only [promote, archiveCurrent, sessions]
  cases record.current with
  | none => exact .refl _
  | some current => exact (List.take_sublist _ _).cons_cons session

/-- The archive keeps to its limit when a session becomes current. -/
theorem length_archived_promote_le {record : SessionRecord}
    (few : record.archived.length ≤ Limits.archivedSessions) (session : Session) :
    (record.promote session).archived.length ≤ Limits.archivedSessions := by
  simp only [promote, archiveCurrent]
  cases record.current with
  | none => exact few
  | some current => exact List.length_take_le _ _

end SessionRecord

end Ratchet
