import Ratchet.Layout.Stored
import Ratchet.Proofs.Layout.Size
import Ratchet.Store.Memory

/-!
# Records in a store

A record that is stored is loaded as it was, as long as its stored form is no
longer than a length in eight bytes can say (`MemoryStore.loadRecord_storeRecord`).
What is loaded is no longer than the bytes it was loaded from
(`MemoryStore.length_encode_of_loadRecord`).

So records that are stored with a property, which may depend on the identities of
the store and of the address, are loaded with the property
(`MemoryStore.Keeps.of_loadRecord`).
-/

set_option autoImplicit false

namespace Ratchet

namespace MemoryStore

variable {store : MemoryStore} {address : Address} {record : SessionRecord}

/-- What the bytes at an address are read as is loaded from it. -/
theorem loadRecord_of_load {bytes : Bytes} (found : store.records.find? address = some bytes)
    (read : Layout.record.load bytes = .ok record) :
    store.loadRecord address = .ok (some record) := by
  simp only [loadRecord, found]
  show (some <$> Layout.record.load bytes : Except SessionError _) = _
  rw [read]
  rfl

/-- A record is loaded as it was stored. -/
theorem loadRecord_of_find? (short : (Layout.record.encode record).length < 2 ^ 64)
    (found : store.records.find? address = some (Layout.record.encode record)) :
    store.loadRecord address = .ok (some record) := by
  have read := Layout.lawful_record.decode_encode_append record [] short
  rw [List.append_nil] at read
  refine loadRecord_of_load found ?_
  simp only [Layout.load, Layout.read?, read]
  rfl

theorem loadRecord_storeRecord (short : (Layout.record.encode record).length < 2 ^ 64) :
    (store.storeRecord address record).loadRecord address = .ok (some record) := by
  refine loadRecord_of_find? short ?_
  simp only [storeRecord, Table.find?_insert, if_pos]

/-- Storing twice is storing the second record. -/
theorem storeRecord_storeRecord (store : MemoryStore) (address : Address)
    (first second : SessionRecord) :
    (store.storeRecord address first).storeRecord address second =
      store.storeRecord address second := by
  simp only [storeRecord]
  congr 1
  simp [Table.insert, Table.erase, Table.filterKeys]

/-- Where there are no bytes, there is no record. -/
theorem loadRecord_of_find?_none (absent : store.records.find? address = none) :
    store.loadRecord address = .ok none := by
  simp only [loadRecord, absent]
  rfl

/-- What is loaded takes no more bytes than it was loaded from. -/
theorem length_encode_of_loadRecord (loaded : store.loadRecord address = .ok (some record)) :
    ∃ bytes, store.records.find? address = some bytes ∧
      (Layout.record.encode record).length ≤ bytes.length := by
  simp only [loadRecord] at loaded
  cases found : store.records.find? address with
  | none =>
      rw [found] at loaded
      cases loaded
  | some bytes =>
      rw [found] at loaded
      change (some <$> Layout.record.load bytes : Except SessionError _) = _ at loaded
      simp only [Layout.load, Layout.read?] at loaded
      cases read : Layout.record.decode bytes with
      | none =>
          rw [read] at loaded
          cases loaded
      | some result =>
          rw [read] at loaded
          cases loaded
          refine ⟨bytes, rfl, ?_⟩
          rw [Layout.lawful_record.eq_encode_append _ _ _ read, List.length_append]
          exact Nat.le_add_right _ _

/-! ## Properties of all records -/

/-- Every record is stored in its form, and has the property for the identities of the store and
of the address. -/
def Keeps (store : MemoryStore) (property : PublicKey → PublicKey → SessionRecord → Prop) : Prop :=
  ∀ address bytes, store.records.find? address = some bytes →
    ∃ record, bytes = Layout.record.encode record ∧
      property store.identity.publicKey address.identityKey record

variable {property : PublicKey → PublicKey → SessionRecord → Prop} {later : MemoryStore}

/-- What a store keeps depends on its records and the identity alone. -/
theorem Keeps.congr (keeps : store.Keeps property) (identity : later.identity = store.identity)
    (records : later.records = store.records) : later.Keeps property := by
  intro address bytes found
  rw [identity]
  exact keeps address bytes (records ▸ found)

theorem keeps_of_empty (empty : store.records = .empty) : store.Keeps property := by
  intro address bytes found
  rw [empty] at found
  cases found

theorem Keeps.storeRecord (keeps : store.Keeps property) {peer : Address}
    (holds : property store.identity.publicKey peer.identityKey record) :
    (store.storeRecord peer record).Keeps property := by
  intro address bytes found
  rw [MemoryStore.storeRecord, Table.find?_insert] at found
  split at found
  · rename_i same
    cases found
    subst same
    exact ⟨record, rfl, holds⟩
  · exact keeps address bytes found

/-- What is loaded has the property, if it makes the stored form short. -/
theorem Keeps.of_loadRecord (keeps : store.Keeps property)
    (short : ∀ {ours theirs record}, property ours theirs record →
      (Layout.record.encode record).length < 2 ^ 64)
    {peer : Address} {stored : Option SessionRecord} (loaded : store.loadRecord peer = .ok stored) :
    ∀ record ∈ stored, property store.identity.publicKey peer.identityKey record := by
  cases found : store.records.find? peer with
  | none =>
      rw [loadRecord_of_find?_none found] at loaded
      cases loaded
      exact fun _ member => nomatch member
  | some bytes =>
      obtain ⟨record, rfl, holds⟩ := keeps peer bytes found
      rw [loadRecord_of_find? (short holds) found] at loaded
      cases loaded
      intro other member
      cases member
      exact holds

end MemoryStore

end Ratchet
