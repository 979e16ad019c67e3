import Ratchet.Error
import Ratchet.Layout.Basic
import Ratchet.Prekey
import Ratchet.Record.Basic

/-!
# The stored form of sessions and keys

The layout of every type that outlives a run of the program: keys, chains,
sessions and their records, prekeys, bundles and addresses. Fields are stored in
the order in which they are listed here, with nothing between them, and reading
applies no limit: a record that holds more than the protocol would keep is read
as it is.
-/

set_option autoImplicit false

namespace Ratchet

namespace Layout

/-- The value stored in a byte string, or the failure of bytes that hold none. -/
def load {α : Type} (layout : Layout α) (bytes : Bytes) : Except SessionError α :=
  match layout.read? bytes with
  | some value => .ok value
  | none => .error .malformed

/-! ## Keys and chains -/

/-- A public key. -/
def publicKey : Layout PublicKey := (octets 32).via PublicKey.mk PublicKey.octets

/-- A private key. -/
def privateKey : Layout PrivateKey := (octets 32).via PrivateKey.mk PrivateKey.octets

/-- A key pair. -/
def keyPair : Layout KeyPair :=
  (publicKey.pair privateKey).via (fun (publicKey, privateKey) => ⟨publicKey, privateKey⟩)
    fun pair => (pair.publicKey, pair.privateKey)

/-- A version of key derivation, as a number of 32 bits: zero or one. -/
def kdf : Layout Kdf where
  encode
    | .v2 => word.encode 0
    | .v3 => word.encode 1
  decode bytes :=
    match word.decode bytes with
    | some (0, rest) => some (.v2, rest)
    | some (1, rest) => some (.v3, rest)
    | _ => none

/-- A chain key. -/
def chainKey : Layout ChainKey :=
  (kdf.pair ((octets 32).pair word)).via (fun (kdf, key, index) => ⟨kdf, key, index⟩)
    fun chain => (chain.kdf, chain.key, chain.index)

/-- A root key. -/
def rootKey : Layout RootKey :=
  (kdf.pair (octets 32)).via (fun (kdf, key) => ⟨kdf, key⟩) fun root => (root.kdf, root.key)

/-- The keys of one message. -/
def messageKeys : Layout MessageKeys :=
  ((octets 32).pair ((octets 32).pair ((octets 16).pair word))).via
    (fun (cipherKey, macKey, vector, counter) => ⟨cipherKey, macKey, vector, counter⟩)
    fun keys => (keys.cipherKey, keys.macKey, keys.vector, keys.counter)

/-! ## Sessions -/

/-- A sending chain. -/
def sendingChain : Layout SendingChain :=
  (keyPair.pair chainKey).via (fun (ratchet, chain) => ⟨ratchet, chain⟩)
    fun sending => (sending.ratchet, sending.chain)

/-- A receiving chain. -/
def receivingChain : Layout ReceivingChain :=
  (publicKey.pair (chainKey.pair messageKeys.list)).via
    (fun (ratchetKey, chain, skipped) => ⟨ratchetKey, chain, skipped⟩)
    fun receiving => (receiving.ratchetKey, receiving.chain, receiving.skipped)

/-- What is pending until the peer answers a first message. -/
def pendingPrekey : Layout PendingPrekey :=
  (word.option.pair (word.pair publicKey)).via
    (fun (oneTimeId, signedId, baseKey) => ⟨oneTimeId, signedId, baseKey⟩)
    fun pending => (pending.oneTimeId, pending.signedId, pending.baseKey)

/-- What is pending until the peer answers an exchange. -/
def pendingExchange : Layout PendingExchange :=
  (word.pair (keyPair.pair (keyPair.pair keyPair))).via
    (fun (sequence, base, ratchet, identity) => ⟨sequence, base, ratchet, identity⟩)
    fun pending => (pending.sequence, pending.base, pending.ratchet, pending.identity)

/-- A session. -/
def session : Layout Session :=
  (byte.pair (publicKey.pair (publicKey.pair (rootKey.pair (word.pair (sendingChain.option.pair
    (receivingChain.list.pair (pendingExchange.option.pair (pendingPrekey.option.pair
      publicKey.option))))))))).via
    (fun (storedVersion, localIdentity, remoteIdentity, root, previousCounter, sending, receiving,
        pendingExchange, pendingPrekey, initiatorBase) =>
      { storedVersion, localIdentity, remoteIdentity, root, previousCounter, sending, receiving,
        pendingExchange, pendingPrekey, initiatorBase })
    fun session =>
      (session.storedVersion, session.localIdentity, session.remoteIdentity, session.root,
        session.previousCounter, session.sending, session.receiving, session.pendingExchange,
        session.pendingPrekey, session.initiatorBase)

/-- All sessions with one device. -/
def record : Layout SessionRecord :=
  (session.option.pair session.list).via (fun (current, archived) => ⟨current, archived⟩)
    fun record => (record.current, record.archived)

/-! ## Prekeys and addresses -/

/-- A one-time prekey. -/
def oneTimePrekey : Layout OneTimePrekey :=
  (word.pair keyPair).via (fun (id, pair) => ⟨id, pair⟩) fun prekey => (prekey.id, prekey.pair)

/-- A signed prekey. -/
def signedPrekey : Layout SignedPrekey :=
  (word.pair (long.pair (keyPair.pair bytes))).via
    (fun (id, timestamp, pair, signature) => ⟨id, timestamp, pair, signature⟩)
    fun prekey => (prekey.id, prekey.timestamp, prekey.pair, prekey.signature)

/-- A bundle. -/
def bundle : Layout PrekeyBundle :=
  (word.option.pair (publicKey.option.pair (word.pair (publicKey.option.pair
    (bytes.pair publicKey))))).via
    (fun (oneTimeId, oneTimeKey, signedId, signedKey, signature, identityKey) =>
      ⟨oneTimeId, oneTimeKey, signedId, signedKey, signature, identityKey⟩)
    fun bundle =>
      (bundle.oneTimeId, bundle.oneTimeKey, bundle.signedId, bundle.signedKey, bundle.signature,
        bundle.identityKey)

/-- A UUID behind its length in eight bytes, which is always sixteen. -/
def uuid : Layout (Octets 16) where
  encode value := littleEndian 8 16 ++ value.toList
  decode stored :=
    match long.decode stored with
    | some (16, rest) => (octets 16).decode rest
    | _ => none

/-- An address. -/
def address : Layout Address :=
  (publicKey.pair uuid).via (fun (key, uuid) => ⟨⟨key⟩, ⟨uuid⟩⟩)
    fun address => (address.user.identityKey, address.device.uuid)

end Layout

end Ratchet
