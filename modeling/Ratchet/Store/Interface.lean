import Ratchet.Error
import Ratchet.Prekey
import Ratchet.Record.Basic

/-!
# What a store does

A store keeps a party's identity, its prekeys and its session records, and says
which identities are trusted. Sessions are kept with any store that offers
these operations; each of them may fail, and one that changes the store returns
the store after the change.
-/

set_option autoImplicit false

namespace Ratchet

/-- Whether trust is asked for in order to send or to receive. -/
inductive Direction where
  | sending
  | receiving
deriving DecidableEq, Repr

/-- A place where identities, prekeys and records are kept. -/
class ProtocolStore (ς : Type) where
  /-- The identity of the party that owns the store. -/
  identity : ς → Except SessionError KeyPair
  /-- Whether an identity may be used with an address. -/
  isTrusted : ς → Address → PublicKey → Direction → Except SessionError Bool
  /-- The one-time prekey under this number. -/
  loadOneTime : ς → UInt32 → Except SessionError (Option OneTimePrekey)
  /-- Keeps a one-time prekey under this number. -/
  storeOneTime : ς → UInt32 → OneTimePrekey → Except SessionError ς
  /-- Whether there is a one-time prekey under this number. -/
  containsOneTime : ς → UInt32 → Except SessionError Bool
  /-- Forgets the one-time prekey under this number. -/
  removeOneTime : ς → UInt32 → Except SessionError ς
  /-- The signed prekey under this number. -/
  loadSigned : ς → UInt32 → Except SessionError (Option SignedPrekey)
  /-- All signed prekeys, by their own numbers. -/
  loadAllSigned : ς → Except SessionError (List SignedPrekey)
  /-- Keeps a signed prekey under this number. -/
  storeSigned : ς → UInt32 → SignedPrekey → Except SessionError ς
  /-- Whether there is a signed prekey under this number. -/
  containsSigned : ς → UInt32 → Except SessionError Bool
  /-- Forgets the signed prekey under this number. -/
  removeSigned : ς → UInt32 → Except SessionError ς
  /-- The record of an address. -/
  loadRecord : ς → Address → Except SessionError (Option SessionRecord)
  /-- Keeps the record of an address. -/
  storeRecord : ς → Address → SessionRecord → Except SessionError ς
  /-- Whether there is a record of an address. -/
  containsRecord : ς → Address → Except SessionError Bool
  /-- Forgets the record of an address. -/
  deleteRecord : ς → Address → Except SessionError ς
  /-- Forgets the records of all devices of a user. -/
  deleteUser : ς → UserId → Except SessionError ς

end Ratchet
