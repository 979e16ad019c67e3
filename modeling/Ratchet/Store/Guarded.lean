import Ratchet.Store.Interface

/-!
# A store behind a guard

A guard stands in front of a store. It can make single operations fail with a
given reason before they do anything, as when the medium under the store is not
available, and it can refuse trust in one direction.
-/

set_option autoImplicit false

namespace Ratchet

/-- The operations of a store that a guard can make fail. -/
inductive StoreOperation where
  | identity
  | isTrusted
  | loadOneTime
  | storeOneTime
  | removeOneTime
  | loadSigned
  | loadRecord
  | storeRecord
deriving DecidableEq, Repr

/-- A store with a guard in front of it. -/
structure GuardedStore (ς : Type) where
  store : ς
  /-- The operations that fail, with the reason they give. -/
  failing : List (StoreOperation × String) := []
  /-- The direction in which nobody is trusted. -/
  refused : Option Direction := none

namespace GuardedStore

variable {ς : Type}

/-- The outcome of an operation, unless the guard makes it fail. -/
def guarded {α : Type} (store : GuardedStore ς) (operation : StoreOperation)
    (outcome : ς → Except SessionError α) : Except SessionError α :=
  match store.failing.lookup operation with
  | some reason => .error (.storage reason)
  | none => outcome store.store

/-- The store behind the guard, changed. -/
def changed (store : GuardedStore ς) (outcome : ς → Except SessionError ς) :
    Except SessionError (GuardedStore ς) :=
  (outcome store.store).map fun inner => { store with store := inner }

/-- The store behind the guard, changed unless the guard makes the change fail. -/
def guardedChange (store : GuardedStore ς) (operation : StoreOperation)
    (outcome : ς → Except SessionError ς) : Except SessionError (GuardedStore ς) :=
  (store.guarded operation outcome).map fun inner => { store with store := inner }

open ProtocolStore in
instance [ProtocolStore ς] : ProtocolStore (GuardedStore ς) where
  identity store := store.guarded .identity identity
  isTrusted store address key direction :=
    store.guarded .isTrusted fun inner =>
      if store.refused = some direction then .ok false else isTrusted inner address key direction
  loadOneTime store id := store.guarded .loadOneTime (loadOneTime · id)
  storeOneTime store id prekey := store.guardedChange .storeOneTime (storeOneTime · id prekey)
  containsOneTime store id := containsOneTime store.store id
  removeOneTime store id := store.guardedChange .removeOneTime (removeOneTime · id)
  loadSigned store id := store.guarded .loadSigned (loadSigned · id)
  loadAllSigned store := loadAllSigned store.store
  storeSigned store id prekey := store.changed (storeSigned · id prekey)
  containsSigned store id := containsSigned store.store id
  removeSigned store id := store.changed (removeSigned · id)
  loadRecord store address := store.guarded .loadRecord (loadRecord · address)
  storeRecord store address record :=
    store.guardedChange .storeRecord (storeRecord · address record)
  containsRecord store address := containsRecord store.store address
  deleteRecord store address := store.changed (deleteRecord · address)
  deleteUser store user := store.changed (deleteUser · user)

end GuardedStore

end Ratchet
