import Ratchet.Layout.Protocol
import Ratchet.Store.Interface
import Ratchet.Store.Table

/-!
# A store in memory

Everything is kept in tables, and records in their stored form, so that a
record that is loaded is a copy and changes to it are not seen by the store. An
identity is trusted unless it was distrusted. Only loading a record can fail,
when its bytes are no record.
-/

set_option autoImplicit false

namespace Ratchet

/-- A store that keeps everything in memory. -/
structure MemoryStore where
  identity : KeyPair
  distrusted : List PublicKey := []
  oneTimePrekeys : Table UInt32 OneTimePrekey := .empty
  signedPrekeys : Table UInt32 SignedPrekey := .empty
  /-- The stored form of each record. -/
  records : Table Address Bytes := .empty
deriving DecidableEq

namespace MemoryStore

/-- The store of a party with this identity and nothing else. -/
def ofIdentity (identity : KeyPair) : MemoryStore := { identity }

/-- Stops trusting an identity. -/
def distrust (store : MemoryStore) (key : PublicKey) : MemoryStore :=
  { store with distrusted := key :: store.distrusted.filter (· ≠ key) }

/-- Trusts an identity again. -/
def trust (store : MemoryStore) (key : PublicKey) : MemoryStore :=
  { store with distrusted := store.distrusted.filter (· ≠ key) }

/-- Whether an identity is trusted. -/
def trusts (store : MemoryStore) (key : PublicKey) : Bool := !store.distrusted.contains key

/-- The record of an address, if its stored form can be read. -/
def loadRecord (store : MemoryStore) (address : Address) :
    Except SessionError (Option SessionRecord) :=
  (store.records.find? address).mapM Layout.record.load

/-- Keeps the stored form of a record. -/
def storeRecord (store : MemoryStore) (address : Address) (record : SessionRecord) : MemoryStore :=
  { store with records := store.records.insert address (Layout.record.encode record) }

/-- All signed prekeys, by their own numbers. -/
def allSigned (store : MemoryStore) : List SignedPrekey :=
  store.signedPrekeys.values.mergeSort fun first second => first.id ≤ second.id

instance : ProtocolStore MemoryStore where
  identity store := .ok store.identity
  isTrusted store _ key _ := .ok (store.trusts key)
  loadOneTime store id := .ok (store.oneTimePrekeys.find? id)
  storeOneTime store id prekey :=
    .ok { store with oneTimePrekeys := store.oneTimePrekeys.insert id prekey }
  containsOneTime store id := .ok (store.oneTimePrekeys.contains id)
  removeOneTime store id := .ok { store with oneTimePrekeys := store.oneTimePrekeys.erase id }
  loadSigned store id := .ok (store.signedPrekeys.find? id)
  loadAllSigned store := .ok store.allSigned
  storeSigned store id prekey :=
    .ok { store with signedPrekeys := store.signedPrekeys.insert id prekey }
  containsSigned store id := .ok (store.signedPrekeys.contains id)
  removeSigned store id := .ok { store with signedPrekeys := store.signedPrekeys.erase id }
  loadRecord := loadRecord
  storeRecord store address record := .ok (store.storeRecord address record)
  containsRecord store address := .ok (store.records.contains address)
  deleteRecord store address := .ok { store with records := store.records.erase address }
  deleteUser store user :=
    .ok { store with records := store.records.filterKeys (·.user ≠ user) }

end MemoryStore

end Ratchet
