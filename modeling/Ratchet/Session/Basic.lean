import Ratchet.Chain
import Ratchet.Limits

/-!
# Sessions

A session is what one party remembers of a conversation with one device: both
identities, the root key, the chain it sends on, the chains it receives on with
the newest last, and what is pending until the first answer.

A receiving chain belongs to a ratchet key of the peer. Keys of messages that
were skipped are kept in it, oldest first, up to a limit beyond which the oldest
are forgotten. A session that was read from a store may hold two chains with the
same ratchet key; then the first of them is meant.
-/

set_option autoImplicit false

namespace Ratchet

/-- The chain a party sends on, and the key pair it was made with. -/
structure SendingChain where
  ratchet : KeyPair
  chain : ChainKey
deriving DecidableEq

/-- A chain a party receives on, and the peer's key it was made with. -/
structure ReceivingChain where
  ratchetKey : PublicKey
  chain : ChainKey
  skipped : List MessageKeys
deriving DecidableEq

/-- What goes with every message until the peer answers. -/
structure PendingPrekey where
  oneTimeId : Option UInt32
  signedId : UInt32
  baseKey : PublicKey
deriving DecidableEq

/-- The key pairs of an exchange that has been started and not answered. -/
structure PendingExchange where
  sequence : UInt32
  base : KeyPair
  ratchet : KeyPair
  identity : KeyPair
deriving DecidableEq

/-- One party's side of a conversation with one device. -/
structure Session where
  storedVersion : UInt8
  localIdentity : PublicKey
  remoteIdentity : PublicKey
  root : RootKey
  /-- How many messages were sent on the sending chain before the present one. -/
  previousCounter : UInt32 := 0
  sending : Option SendingChain := none
  /-- Newest last. -/
  receiving : List ReceivingChain := []
  pendingExchange : Option PendingExchange := none
  pendingPrekey : Option PendingPrekey := none
  /-- The base key of the party that started the session; it names the session. -/
  initiatorBase : Option PublicKey := none
deriving DecidableEq

/-- Changes the first element that has a property. -/
def updateFirst {α : Type} (property : α → Bool) (change : α → α) : List α → List α
  | [] => []
  | first :: rest =>
    if property first then change first :: rest else first :: updateFirst property change rest

/-- The last elements of a list, at most `count` of them. -/
def lastOf {α : Type} (count : Nat) (list : List α) : List α := list.drop (list.length - count)

namespace ReceivingChain

/-- Keeps the keys of skipped messages and forgets the oldest beyond the limit. -/
def store (chain : ReceivingChain) (keys : List MessageKeys) : ReceivingChain :=
  if keys.isEmpty then chain
  else { chain with skipped := lastOf Limits.skippedKeys (chain.skipped ++ keys) }

/-- Whether the keys of this message are kept. -/
def holds (chain : ReceivingChain) (counter : UInt32) : Bool :=
  chain.skipped.any (·.counter = counter)

/-- Takes the keys of this message out, if they are kept. -/
def take? (chain : ReceivingChain) (counter : UInt32) : Option (MessageKeys × ReceivingChain) :=
  (chain.skipped.find? (·.counter = counter)).map fun keys =>
    (keys, { chain with skipped := chain.skipped.eraseP (·.counter = counter) })

end ReceivingChain

namespace Session

/-- The version of a session's messages; zero stands for two. -/
def version (session : Session) : UInt8 :=
  if session.storedVersion = 0 then 2 else session.storedVersion

/-- The receiving chain of a ratchet key. -/
def receivingChain? (session : Session) (ratchetKey : PublicKey) : Option ReceivingChain :=
  session.receiving.find? (·.ratchetKey = ratchetKey)

/-- The peer's newest ratchet key. -/
def latestRatchetKey? (session : Session) : Option PublicKey :=
  session.receiving.getLast?.map (·.ratchetKey)

/-- The receiving chain of the peer's newest ratchet key. -/
def latestChain? (session : Session) : Option ReceivingChain :=
  session.latestRatchetKey?.bind session.receivingChain?

/-- Changes the receiving chain of a ratchet key. -/
def updateReceiving (session : Session) (ratchetKey : PublicKey)
    (change : ReceivingChain → ReceivingChain) : Session :=
  { session with receiving := updateFirst (·.ratchetKey = ratchetKey) change session.receiving }

/-- Adds a receiving chain as the newest, and forgets the oldest beyond the limit. -/
def addReceiving (session : Session) (chain : ReceivingChain) : Session :=
  { session with receiving := lastOf Limits.receivingChains (session.receiving ++ [chain]) }

/-- Puts a chain in the place of the one with its ratchet key, or adds it if there is none. -/
def putReceiving (session : Session) (chain : ReceivingChain) : Session :=
  match session.receivingChain? chain.ratchetKey with
  | some _ => session.updateReceiving chain.ratchetKey fun _ => chain
  | none => session.addReceiving chain

end Session

end Ratchet
