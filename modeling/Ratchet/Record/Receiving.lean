import Ratchet.Record.Basic
import Ratchet.Session.Messaging

/-!
# Receiving with a record

A message may belong to any session of a record. The current session is tried
first and then each archived one in order, every one as it was stored. The first
attempt that does not merely refuse the message decides: a text makes the
session that gave it current, and any other failure is the outcome. When all
sessions refuse, their reasons are reported together.
-/

set_option autoImplicit false

namespace Ratchet

namespace SessionRecord

/-- The sessions in the order of trial, each with what its update makes of the record. -/
def candidates (record : SessionRecord) : List (Session × (Session → SessionRecord)) :=
  (record.current.toList.map fun session => (session, record.setCurrent)) ++
    record.archived.mapIdx fun index session => (session, record.promoteArchived index)

/-- Tries sessions in order; `refusals` are the reasons of those that were tried before. -/
def tryEach (suite : Suite) (address : Address) (message : RatchetMessage) :
    List (Session × (Session → SessionRecord)) → (refusals : List MessageFault) →
      Attempt (Bytes × SessionRecord)
  | [], [] => throw (.noSession address)
  | [], refusals => throw (.noMatchingSession refusals)
  | (session, keep) :: rest, refusals => do
    match ← Procedure.observe (session.decrypt suite message) with
    | .ok (plaintext, updated) => return (plaintext, keep updated)
    | .error (.invalidMessage fault) => tryEach suite address message rest (refusals ++ [fault])
    | .error failure => throw failure

/-- Decrypts a message with the session it belongs to. -/
def decrypt (suite : Suite) (address : Address) (record : SessionRecord)
    (message : RatchetMessage) : Attempt (Bytes × SessionRecord) :=
  tryEach suite address message record.candidates []

end SessionRecord

end Ratchet
