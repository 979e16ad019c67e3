import Ratchet.Address.Basic
import Ratchet.Derivation
import Ratchet.Cipher.Chained
import Ratchet.Limits

/-!
# What can go wrong

Every failure of the library is a cause: a fault of the bytes that were read, of
a key, of an address, of a bundle, of a session, of a store or of a primitive.
`SessionError.kind` sorts the causes into the classes that callers tell apart,
and `SessionError.message` is the text of a cause, which begins with the words
of its class.
-/

set_option autoImplicit false

namespace Ratchet

/-- Why a value cannot be read off the front of a byte string. -/
inductive ReadFault where
  /-- There is no byte left. -/
  | missingByte
  /-- There are fewer bytes left than were asked for. -/
  | missingBytes
  /-- The number does not fit in 32 bits. -/
  | numberOverflow
  /-- The number goes on after its fifth byte. -/
  | numberTooLong
deriving DecidableEq, Repr

/-- The text of a read fault. -/
def ReadFault.message : ReadFault → String
  | .missingByte => "truncated message: expected more byte"
  | .missingBytes => "truncated message: expected more bytes"
  | .numberOverflow => "varint overflows u32"
  | .numberTooLong => "varint too long"

/-- What is wrong with a message: with its form, or with it as a message of this session. -/
inductive MessageFault where
  /-- There are no bytes at all. -/
  | empty
  /-- There are fewer bytes than any message has. -/
  | tooShort (length : Nat)
  /-- A field cannot be read. -/
  | field (fault : ReadFault)
  /-- A key cannot be read. -/
  | key (fault : ReadFault)
  /-- A flag is set that has no meaning. -/
  | unknownFlags (flags : UInt8)
  /-- The session cannot receive yet. -/
  | uninitialized
  /-- The message is of another version than the session. -/
  | versionMismatch (message session : UInt8)
  /-- The message is too far ahead of its chain. -/
  | tooFarAhead
  /-- The authentication code does not fit. -/
  | badMac
  /-- The body cannot be decrypted. -/
  | body (fault : CipherFault)
deriving DecidableEq, Repr

/-- The text of a message fault. -/
def MessageFault.message : MessageFault → String
  | .empty => "empty message"
  | .tooShort length => s!"message too short: {length} bytes"
  | .field fault => fault.message
  | .key fault => s!"Invalid message: {fault.message}"
  | .unknownFlags flags => "unknown flags: 0x" ++ Hex.encode [flags]
  | .uninitialized => "Uninitialized session"
  | .versionMismatch message session =>
    s!"Message version {message}, but session version {session}"
  | .tooFarAhead => s!"Over {Limits.futureMessages} messages into the future"
  | .badMac => "Bad MAC"
  | .body fault => s!"Cipher failure: {fault.message}"

/-- What is wrong with a text that should name an address. -/
inductive AddressFault where
  /-- There is no colon. -/
  | missingColon (text : String)
  /-- The part that names the device is no UUID. -/
  | badDevice (text : String)
deriving DecidableEq, Repr

/-- The text of an address fault. -/
def AddressFault.message : AddressFault → String
  | .missingColon text => s!"missing ':' in '{text}'"
  | .badDevice text => s!"bad device id '{text}': not a UUID"

/-- Why no session can be started from a bundle. -/
inductive BundleFault where
  /-- The bundle is of another user than the address. -/
  | identityMismatch
  /-- There is no signed prekey. -/
  | missingSignedPrekey
  /-- The signed prekey is not signed by the identity. -/
  | badSignature
  /-- A one-time prekey has a number or a key, but not both. -/
  | loneOneTimeField
deriving DecidableEq, Repr

/-- The text of a bundle fault. -/
def BundleFault.message : BundleFault → String
  | .identityMismatch => "bundle identity does not match the address"
  | .missingSignedPrekey => "No signed prekey"
  | .badSignature => "Invalid signature on signed prekey"
  | .loneOneTimeField => "one-time prekey id and key must come together"

/-- Why a session cannot take a step. -/
inductive StateFault where
  /-- There is no sending chain. -/
  | noSendingChain
  /-- A chain has no position left. -/
  | chainOverflow
deriving DecidableEq, Repr

/-- The text of a state fault. -/
def StateFault.message : StateFault → String
  | .noSendingChain => "session has no sender chain"
  | .chainOverflow => "chain index overflow"

/-- Why a primitive gave no result. -/
inductive PrimitiveError where
  | keyGeneration (reason : String)
  | signing (reason : String)
  | agreement (reason : String)
  | derivation (fault : DerivationFault)
  | cipher (fault : CipherFault)
deriving DecidableEq, Repr

/-- The text of a failure of a primitive. -/
def PrimitiveError.message : PrimitiveError → String
  | .keyGeneration reason => s!"Failed to generate keys: {reason}"
  | .signing reason => s!"Signing failed: {reason}"
  | .agreement reason => s!"Key agreement failed: {reason}"
  | .derivation fault => s!"Key derivation failed: {fault.message}"
  | .cipher fault => s!"Cipher failure: {fault.message}"

/-- Why an operation on sessions failed. -/
inductive SessionError where
  /-- Bytes or text that should be a key are none. -/
  | invalidKey (fault : KeyFault)
  /-- A bundle starts no session. -/
  | invalidBundle (fault : BundleFault)
  /-- There is no prekey of this number. -/
  | unknownPrekey (id : UInt32)
  /-- A message is refused. -/
  | invalidMessage (fault : MessageFault)
  /-- No session of a record takes the message; each gave its own reason. -/
  | noMatchingSession (attempts : List MessageFault)
  /-- A version from the future. -/
  | unknownVersion (version : UInt8)
  /-- A version from the past. -/
  | legacyVersion (version : UInt8)
  /-- The message has been received already. -/
  | duplicateMessage (index counter : UInt32)
  /-- There is no session with this address. -/
  | noSession (address : Address)
  /-- The identity at this address is not trusted. -/
  | untrustedIdentity (address : Address)
  /-- A text names no address. -/
  | invalidAddress (fault : AddressFault)
  /-- A session cannot take a step. -/
  | invalidState (fault : StateFault)
  /-- A store refused. -/
  | storage (reason : String)
  /-- Stored bytes are no value of the expected type. -/
  | malformed
  /-- A primitive gave no result. -/
  | primitive (error : PrimitiveError)
deriving DecidableEq

/-- The classes of failures that callers tell apart. -/
inductive ErrorKind where
  | invalidKey
  | invalidKeyId
  | invalidMessage
  | invalidVersion
  | legacyMessage
  | duplicateMessage
  | noSession
  | untrustedIdentity
  | invalidAddress
  | invalidState
  | storage
  | serialization
  | crypto
deriving DecidableEq, Repr

namespace SessionError

/-- The class of a failure. -/
def kind : SessionError → ErrorKind
  | .invalidKey _ => .invalidKey
  | .invalidBundle _ => .invalidKey
  | .unknownPrekey _ => .invalidKeyId
  | .invalidMessage _ => .invalidMessage
  | .noMatchingSession _ => .invalidMessage
  | .unknownVersion _ => .invalidVersion
  | .legacyVersion _ => .legacyMessage
  | .duplicateMessage _ _ => .duplicateMessage
  | .noSession _ => .noSession
  | .untrustedIdentity _ => .untrustedIdentity
  | .invalidAddress _ => .invalidAddress
  | .invalidState _ => .invalidState
  | .storage _ => .storage
  | .malformed => .serialization
  | .primitive _ => .crypto

/-- The text of a failure. -/
def message : SessionError → String
  | .invalidKey fault => s!"Invalid key: {fault.message}"
  | .invalidBundle fault => s!"Invalid key: {fault.message}"
  | .unknownPrekey id => s!"No such prekey: {id}"
  | .invalidMessage fault => s!"Invalid message: {fault.message}"
  | .noMatchingSession attempts =>
    "Invalid message: No valid sessions: " ++
      String.intercalate "; " (attempts.map MessageFault.message)
  | .unknownVersion version => s!"Unknown message version: {version}"
  | .legacyVersion version => s!"Legacy message version: {version}"
  | .duplicateMessage index counter =>
    s!"Duplicate message: chain index {index}, counter {counter}"
  | .noSession address => s!"No session for {address.toText}"
  | .untrustedIdentity address => s!"Untrusted identity for {address.toText}"
  | .invalidAddress fault => s!"Invalid address: {fault.message}"
  | .invalidState fault => s!"Invalid session state: {fault.message}"
  | .storage reason => s!"Storage error: {reason}"
  | .malformed => "Serialization error"
  | .primitive error => s!"Cryptography error: {error.message}"

end SessionError

end Ratchet
