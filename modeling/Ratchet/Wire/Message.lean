import Ratchet.Hash.Hmac
import Ratchet.Version
import Ratchet.Wire.Cursor

/-!
# Messages

A ratchet message is a version byte, the sender's ratchet key, the message's
number in its chain, the number of messages in the chain before, the encrypted
body, and the first eight bytes of an authentication code over the two
identities and everything before it.

A prekey message wraps a ratchet message for a peer who has no session yet: a
version byte, a flag byte that says whether a one-time prekey was used, the
numbers of the prekeys, and the base key. The wrapping is not authenticated by
itself.

Both keep the bytes they were read from or written to, since those are what the
authentication code covers.
-/

set_option autoImplicit false

namespace Ratchet

/-- A message under the keys of a session. -/
structure RatchetMessage where
  version : UInt8
  ratchetKey : PublicKey
  counter : UInt32
  previousCounter : UInt32
  body : Bytes
  serialized : Bytes
deriving DecidableEq

/-- A ratchet message with what the receiver needs to make the session. -/
structure PrekeyMessage where
  version : UInt8
  oneTimeId : Option UInt32
  signedId : UInt32
  baseKey : PublicKey
  message : RatchetMessage
  serialized : Bytes
deriving DecidableEq

/-- The two types of messages. -/
inductive MessageType where
  | ratchet
  | prekey
deriving DecidableEq, Repr

/-- What one party sends to another. -/
inductive Message where
  | ratchet (message : RatchetMessage)
  | prekey (message : PrekeyMessage)
deriving DecidableEq

/-- Reads the fields of a message. -/
abbrev MessageReader (α : Type) := Procedure Cursor SessionError α

namespace MessageReader

/-- Reads a field, a fault being explained as a fault of the message. -/
def field {α : Type} (explain : ReadFault → MessageFault) (reader : Reader α) : MessageReader α :=
  reader.explain (.invalidMessage ∘ explain)

/-- The value read off a byte string. -/
def read {α : Type} (reader : MessageReader α) (bytes : Bytes) : Except SessionError α :=
  (reader.run (Cursor.start bytes)).1

end MessageReader

namespace RatchetMessage

/-- The fewest bytes a message can have. -/
def minimumLength : Nat := 1 + Limits.publicKeySize + 2 + Limits.macLength

/-- Everything that comes before the authentication code. -/
def content (version : UInt8) (ratchetKey : PublicKey) (counter previousCounter : UInt32)
    (body : Bytes) : Bytes :=
  versionByte version ::
    (ratchetKey.toBytes ++ (Varint.encode counter ++ (Varint.encode previousCounter ++ body)))

/-- The authentication code of some content from one identity to another. -/
def mac (macKey : Octets 32) (sender receiver : PublicKey) (content : Bytes) : Bytes :=
  (hmac macKey.toList (sender.toBytes ++ (receiver.toBytes ++ content))).toList.take
    Limits.macLength

/-- The message with these fields, authenticated. -/
def make (version : UInt8) (macKey : Octets 32) (ratchetKey : PublicKey)
    (counter previousCounter : UInt32) (body : Bytes) (sender receiver : PublicKey) :
    RatchetMessage :=
  let content := content version ratchetKey counter previousCounter body
  { version, ratchetKey, counter, previousCounter, body,
    serialized := content ++ mac macKey sender receiver content }

/-- Whether the authentication code fits. -/
def verify (message : RatchetMessage) (sender receiver : PublicKey) (macKey : Octets 32) : Bool :=
  let split := message.serialized.length - Limits.macLength
  mac macKey sender receiver (message.serialized.take split) = message.serialized.drop split

/-- Reads the fields between the version byte and the authentication code. -/
def fields : MessageReader (PublicKey × UInt32 × UInt32 × Bytes) := do
  let ratchetKey ← MessageReader.field .key Reader.publicKey
  let counter ← MessageReader.field .field Reader.varint
  let previousCounter ← MessageReader.field .field Reader.varint
  let body ← MessageReader.field .field Reader.rest
  return (ratchetKey, counter, previousCounter, body)

/-- The message in these bytes. -/
def parse (bytes : Bytes) : Except SessionError RatchetMessage :=
  match bytes with
  | [] => .error (.invalidMessage .empty)
  | first :: rest => do
    let version ← versionOfByte first
    if bytes.length < minimumLength then
      .error (.invalidMessage (.tooShort bytes.length))
    else
      let (ratchetKey, counter, previousCounter, body) ←
        fields.read (rest.take (rest.length - Limits.macLength))
      return { version, ratchetKey, counter, previousCounter, body, serialized := bytes }

end RatchetMessage

namespace PrekeyMessage

/-- The flag that says that a one-time prekey was used. -/
def oneTimeFlag : UInt8 := 1

/-- The number of a one-time prekey behind the flag byte. -/
def encodeOneTimeId : Option UInt32 → Bytes
  | none => [0]
  | some id => oneTimeFlag :: Varint.encode id

/-- Everything that comes before the wrapped message. -/
def header (version : UInt8) (oneTimeId : Option UInt32) (signedId : UInt32)
    (baseKey : PublicKey) : Bytes :=
  versionByte version ::
    (encodeOneTimeId oneTimeId ++ (Varint.encode signedId ++ baseKey.toBytes))

/-- The wrapping of a message with these fields. -/
def make (version : UInt8) (oneTimeId : Option UInt32) (signedId : UInt32) (baseKey : PublicKey)
    (message : RatchetMessage) : PrekeyMessage :=
  { version, oneTimeId, signedId, baseKey, message,
    serialized := header version oneTimeId signedId baseKey ++ message.serialized }

/-- Reads a flag byte and what it announces. -/
def readOneTimeId : MessageReader (Option UInt32) := do
  let flags ← MessageReader.field .field Reader.byte
  if flags &&& ~~~oneTimeFlag ≠ 0 then throw (.invalidMessage (.unknownFlags flags))
  if flags = 0 then return none
  return some (← MessageReader.field .field Reader.varint)

/-- Reads the fields up to the wrapped message, and the bytes of that. -/
def fields : MessageReader (UInt8 × Option UInt32 × UInt32 × PublicKey × Bytes) := do
  let version ← Procedure.ofExcept (versionOfByte (← MessageReader.field .field Reader.byte))
  let oneTimeId ← readOneTimeId
  let signedId ← MessageReader.field .field Reader.varint
  let baseKey ← MessageReader.field .key Reader.publicKey
  let wrapped ← MessageReader.field .field Reader.rest
  return (version, oneTimeId, signedId, baseKey, wrapped)

/-- The message in these bytes. -/
def parse (bytes : Bytes) : Except SessionError PrekeyMessage := do
  let (version, oneTimeId, signedId, baseKey, wrapped) ← fields.read bytes
  let message ← RatchetMessage.parse wrapped
  return { version, oneTimeId, signedId, baseKey, message, serialized := bytes }

end PrekeyMessage

namespace Message

/-- The type of a message. -/
def type : Message → MessageType
  | .ratchet _ => .ratchet
  | .prekey _ => .prekey

/-- The bytes of a message. -/
def serialized : Message → Bytes
  | .ratchet message => message.serialized
  | .prekey message => message.serialized

/-- The message of this type in these bytes. -/
def parse : MessageType → Bytes → Except SessionError Message
  | .ratchet, bytes => (RatchetMessage.parse bytes).map .ratchet
  | .prekey, bytes => (PrekeyMessage.parse bytes).map .prekey

/-- The message under the keys of the session, unwrapped if need be. -/
def inner : Message → RatchetMessage
  | .ratchet message => message
  | .prekey message => message.message

end Message

end Ratchet
