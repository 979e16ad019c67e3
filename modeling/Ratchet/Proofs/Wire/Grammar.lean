import Ratchet.Proofs.Wire.Varint
import Ratchet.Wire.Message

/-!
# The grammar of messages

A ratchet message is a byte with the current version in its high half, a key, two
numbers in any of their forms, a body of any length, and eight bytes of
authentication code (`RatchetMessage.Parts`). A prekey message is an envelope
(`PrekeyMessage.Envelope`) and a ratchet message behind it (`PrekeyMessage.Parts`).

The parsers read exactly these parts off exactly these bytes, and the parts of a
message are unique. Another version in the first byte of a message, or of the
message in an envelope, is reported as such, and everything else is refused as
malformed (`RatchetMessage.recognises`, `PrekeyMessage.recognises`).
-/

set_option autoImplicit false

namespace Ratchet

/-- A number together with one of its forms. -/
structure Varint.Form where
  bytes : Bytes
  value : UInt32
  spells : Varint.Spells bytes value

/-- The form in which a number is written. -/
def Varint.Form.shortest (value : UInt32) : Varint.Form :=
  ⟨Varint.encode value, value, Varint.spells_encode value⟩

/-- No form of a number is the beginning of another form. -/
theorem Varint.Form.append_inj {first second : Varint.Form} {behindFirst behindSecond : Bytes}
    (same : first.bytes ++ behindFirst = second.bytes ++ behindSecond) :
    first = second ∧ behindFirst = behindSecond := by
  obtain ⟨bytes, values, behind⟩ := (Reader.takes_varint_of_spells first.spells).unique
    (Reader.takes_varint_of_spells second.spells) same
  cases first
  cases second
  cases bytes
  cases values
  exact ⟨rfl, behind⟩

/-- No key is the beginning of another key. -/
theorem PublicKey.append_inj {first second : PublicKey} {behindFirst behindSecond : Bytes}
    (same : first.toBytes ++ behindFirst = second.toBytes ++ behindSecond) :
    first = second ∧ behindFirst = behindSecond := by
  obtain ⟨_, keys, behind⟩ :=
    (Reader.takes_publicKey first).unique (Reader.takes_publicKey second) same
  exact ⟨keys, behind⟩

/-- The high half of the first byte is another version than the current one, and this is how
that is reported. -/
inductive OtherVersion : Bytes → SessionError → Prop where
  | newer {first : UInt8} {rest : Bytes} (above : Limits.currentVersion < first >>> 4) :
      OtherVersion (first :: rest) (.unknownVersion (first >>> 4))
  | older {first : UInt8} {rest : Bytes} (below : first >>> 4 < Limits.currentVersion) :
      OtherVersion (first :: rest) (.legacyVersion (first >>> 4))

/-- The parser gives the values of exactly the byte strings that have parts, and of no byte string
in two ways. The other byte strings are refused, those of another version for their version and
the rest for their form. -/
structure Recognises {Parts Value : Type} (parse : Bytes → Except SessionError Value)
    (bytes : Parts → Bytes) (value : Parts → Value) (other : Bytes → SessionError → Prop) :
    Prop where
  unique : Function.Injective bytes
  accepts : ∀ input result,
    parse input = .ok result ↔ ∃ parts, bytes parts = input ∧ value parts = result
  refuses_version : ∀ input failure, other input failure → parse input = .error failure
  refuses : ∀ input failure, parse input = .error failure →
    other input failure ∨ ∃ fault, failure = .invalidMessage fault

/-! ## Versions -/

theorem versionOfByte_of_current {first : UInt8} (current : first >>> 4 = Limits.currentVersion) :
    versionOfByte first = .ok Limits.currentVersion := by
  simp only [versionOfByte]
  rw [current]
  rfl

theorem versionOfByte_of_other {first : UInt8} {rest : Bytes} {failure : SessionError}
    (other : OtherVersion (first :: rest) failure) : versionOfByte first = .error failure := by
  cases other with
  | newer above => exact if_pos above
  | older below => exact (if_neg (UInt8.lt_asymm below)).trans (if_pos below)

/-- The first byte of a message is of the current version or of another. -/
theorem current_or_other (first : UInt8) (rest : Bytes) :
    first >>> 4 = Limits.currentVersion ∨ ∃ failure, OtherVersion (first :: rest) failure := by
  by_cases above : Limits.currentVersion < first >>> 4
  · exact .inr ⟨_, .newer above⟩
  by_cases below : first >>> 4 < Limits.currentVersion
  · exact .inr ⟨_, .older below⟩
  exact .inl (UInt8.le_antisymm (UInt8.not_lt.mp above) (UInt8.not_lt.mp below))

/-! ## Faults of the form -/

namespace MessageReader

variable {α β : Type}

theorem read_eq_ok {reader : MessageReader α} {bytes : Bytes} {value : α}
    (read : reader.read bytes = .ok value) :
    ∃ last, reader.run (Cursor.start bytes) = (.ok value, last) :=
  ⟨_, Prod.ext read rfl⟩

theorem read_eq_error {reader : MessageReader α} {bytes : Bytes} {failure : SessionError}
    (read : reader.read bytes = .error failure) :
    ∃ last, reader.run (Cursor.start bytes) = (.error failure, last) :=
  ⟨_, Prod.ext read rfl⟩

/-- Where the reader fails, the form of the message is at fault. -/
def Blames (reader : MessageReader α) : Prop :=
  ∀ cursor failure next, reader.run cursor = (.error failure, next) →
    ∃ fault, failure = .invalidMessage fault

theorem blames_pure (value : α) : Blames (pure value) := by
  intro cursor failure next ran
  cases ran

theorem blames_throw (fault : MessageFault) :
    Blames (throw (.invalidMessage fault) : MessageReader α) := by
  intro cursor failure next ran
  cases ran
  exact ⟨fault, rfl⟩

theorem blames_field (explain : ReadFault → MessageFault) (reader : Reader α) :
    Blames (field explain reader) := by
  intro cursor failure next ran
  rw [field, Procedure.run_explain] at ran
  cases read : (reader.run cursor).1 with
  | error fault =>
      rw [read] at ran
      cases ran
      exact ⟨explain fault, rfl⟩
  | ok value =>
      rw [read] at ran
      cases ran

theorem Blames.bind {first : MessageReader α} {second : α → MessageReader β}
    (blames : Blames first) (continues : ∀ value, Blames (second value)) :
    Blames (first >>= second) := by
  intro cursor failure next ran
  rcases Procedure.run_bind_eq_error ran with failed | ⟨value, middle, _, failed⟩
  · exact blames cursor failure next failed
  · exact continues value middle failure next failed

theorem Blames.map {reader : MessageReader α} (blames : Blames reader) (function : α → β) :
    Blames (function <$> reader) :=
  blames.bind fun value => blames_pure (function value)

end MessageReader

/-! ## Ratchet messages -/

namespace RatchetMessage

/-- The parts of a message. -/
structure Parts where
  /-- The byte with the version, whose low half may be anything. -/
  first : UInt8
  ratchetKey : PublicKey
  counter : Varint.Form
  previousCounter : Varint.Form
  body : Bytes
  code : Octets Limits.macLength
  current : first >>> 4 = Limits.currentVersion

namespace Parts

/-- What stands between the version and the authentication code. -/
def fieldBytes (parts : Parts) : Bytes :=
  parts.ratchetKey.toBytes ++ (parts.counter.bytes ++ (parts.previousCounter.bytes ++ parts.body))

/-- The parts, one after another. -/
def bytes (parts : Parts) : Bytes := parts.first :: (parts.fieldBytes ++ parts.code.toList)

/-- The message that has these parts. -/
def message (parts : Parts) : RatchetMessage where
  version := Limits.currentVersion
  ratchetKey := parts.ratchetKey
  counter := parts.counter.value
  previousCounter := parts.previousCounter.value
  body := parts.body
  serialized := parts.bytes

/-- A byte string has the parts of a message in one way at most. -/
theorem bytes_injective : Function.Injective bytes := by
  intro first second same
  obtain ⟨versions, rest⟩ := List.cons.inj same
  obtain ⟨fields, codes⟩ := List.append_inj' rest
    (first.code.length_toList.trans second.code.length_toList.symm)
  obtain ⟨keys, numbers⟩ := PublicKey.append_inj fields
  obtain ⟨counters, others⟩ := Varint.Form.append_inj numbers
  obtain ⟨previous, bodies⟩ := Varint.Form.append_inj others
  cases first
  cases second
  cases versions
  cases keys
  cases counters
  cases previous
  cases bodies
  cases Octets.ext codes
  rfl

/-- The shortest forms of the numbers make the shortest message. -/
theorem minimumLength_le (parts : Parts) : minimumLength ≤ parts.bytes.length := by
  have key : parts.ratchetKey.toBytes.length = 32 := parts.ratchetKey.length_toBytes
  have first := parts.counter.spells.groups.length_pos
  have second := parts.previousCounter.spells.groups.length_pos
  have code : parts.code.toList.length = 8 := parts.code.length_toList
  have least : minimumLength = 43 := rfl
  simp only [bytes, fieldBytes, List.length_cons, List.length_append]
  omega

end Parts

/-! ### The fields -/

theorem takesAll_fields (parts : Parts) :
    Reader.TakesAll fields parts.fieldBytes
      (parts.ratchetKey, parts.counter.value, parts.previousCounter.value, parts.body) := by
  refine ((Reader.takes_publicKey parts.ratchetKey).explain _).bind_all ?_
  refine ((Reader.takes_varint_of_spells parts.counter.spells).explain _).bind_all ?_
  refine ((Reader.takes_varint_of_spells parts.previousCounter.spells).explain _).bind_all ?_
  exact Reader.takesAll_rest _ _ parts.body

/-- What the fields are read off is the key, forms of the numbers and the body. -/
theorem run_fields_eq_ok {cursor last : Cursor} {ratchetKey : PublicKey}
    {counter previousCounter : UInt32} {body : Bytes}
    (ran : fields.run cursor = (.ok (ratchetKey, counter, previousCounter, body), last)) :
    ∃ first second : Varint.Form, first.value = counter ∧ second.value = previousCounter ∧
      cursor.remaining = ratchetKey.toBytes ++ (first.bytes ++ (second.bytes ++ body)) := by
  obtain ⟨key, afterKey, ranKey, ran⟩ := Procedure.run_bind_eq_ok ran
  obtain ⟨number, afterNumber, ranNumber, ran⟩ := Procedure.run_bind_eq_ok ran
  obtain ⟨previous, afterPrevious, ranPrevious, ran⟩ := Procedure.run_bind_eq_ok ran
  cases ran
  obtain ⟨_, _, keyNext, rfl⟩ := Reader.gives_publicKey.explain _ _ _ _ ranKey
  obtain ⟨first, _, numberNext, spells⟩ := Reader.gives_varint.explain _ _ _ _ ranNumber
  obtain ⟨second, _, previousNext, spellsPrevious⟩ :=
    Reader.gives_varint.explain _ _ _ _ ranPrevious
  refine ⟨⟨first, _, spells⟩, ⟨second, _, spellsPrevious⟩, rfl, rfl, ?_⟩
  rw [keyNext, numberNext, previousNext]

theorem blames_fields : MessageReader.Blames fields := by
  refine (MessageReader.blames_field _ _).bind fun ratchetKey => ?_
  refine (MessageReader.blames_field _ _).bind fun counter => ?_
  refine (MessageReader.blames_field _ _).bind fun previousCounter => ?_
  exact (MessageReader.blames_field _ _).map _

theorem bounded_fields : Reader.Bounded fields := by
  refine (Reader.bounded_publicKey.explain _).bind fun ratchetKey => ?_
  refine (Reader.bounded_varint.explain _).bind fun counter => ?_
  refine (Reader.bounded_varint.explain _).bind fun previousCounter => ?_
  exact (Reader.bounded_rest.explain _).bind fun body => Reader.bounded_pure _

/-! ### The message -/

/-- A byte string of the current version that is shorter than every message is refused for its
length, before it is cut into fields and authentication code. -/
theorem parse_of_short {first : UInt8} {rest : Bytes}
    (current : first >>> 4 = Limits.currentVersion)
    (short : (first :: rest).length < minimumLength) :
    parse (first :: rest) = .error (.invalidMessage (.tooShort (first :: rest).length)) := by
  simp only [parse]
  rw [versionOfByte_of_current current]
  exact if_pos short

/-- The fields of a byte string of the current version are read off what stands before the
authentication code. -/
theorem parse_of_long {first : UInt8} {rest : Bytes}
    (current : first >>> 4 = Limits.currentVersion)
    (long : ¬ (first :: rest).length < minimumLength) :
    parse (first :: rest) =
      (fields.read (rest.take (rest.length - Limits.macLength))).map
        fun (ratchetKey, counter, previousCounter, body) =>
          ⟨Limits.currentVersion, ratchetKey, counter, previousCounter, body, first :: rest⟩ := by
  simp only [parse]
  rw [versionOfByte_of_current current]
  refine (if_neg long).trans ?_
  cases fields.read (rest.take (rest.length - Limits.macLength)) <;> rfl

theorem parse_bytes (parts : Parts) : parse parts.bytes = .ok parts.message := by
  have cut : (parts.fieldBytes ++ parts.code.toList).take
      ((parts.fieldBytes ++ parts.code.toList).length - Limits.macLength) = parts.fieldBytes := by
    rw [List.length_append, parts.code.length_toList, Nat.add_sub_cancel, List.take_left]
  rw [Parts.bytes, parse_of_long parts.current (Nat.not_lt.mpr parts.minimumLength_le), cut,
    MessageReader.read, takesAll_fields parts _ (Cursor.remaining_start _)]
  rfl

theorem parse_of_other {bytes : Bytes} {failure : SessionError}
    (other : OtherVersion bytes failure) : parse bytes = .error failure := by
  cases bytes with
  | nil => cases other
  | cons first rest =>
      simp only [parse]
      rw [versionOfByte_of_other other]
      rfl

/-- A byte string is too short, of another version, or has fields in front of an authentication
code. -/
theorem parse_cases (bytes : Bytes) :
    (∃ fault, parse bytes = .error (.invalidMessage fault)) ∨
      (∃ failure, OtherVersion bytes failure) ∨
      ∃ (first : UInt8) (fieldBytes : Bytes) (code : Octets Limits.macLength),
        first >>> 4 = Limits.currentVersion ∧ bytes = first :: (fieldBytes ++ code.toList) ∧
        parse bytes = (fields.read fieldBytes).map
          fun (ratchetKey, counter, previousCounter, body) =>
            ⟨Limits.currentVersion, ratchetKey, counter, previousCounter, body, bytes⟩ := by
  cases bytes with
  | nil => exact .inl ⟨_, rfl⟩
  | cons first rest =>
      rcases current_or_other first rest with current | other
      · by_cases short : (first :: rest).length < minimumLength
        · exact .inl ⟨_, parse_of_short current short⟩
        have code : (rest.drop (rest.length - Limits.macLength)).length = Limits.macLength := by
          have least : minimumLength = 43 := rfl
          have eight : Limits.macLength = 8 := rfl
          rw [List.length_cons] at short
          rw [List.length_drop]
          omega
        refine .inr (.inr ⟨first, _, ⟨_, code⟩, current, ?_, parse_of_long current short⟩)
        rw [List.take_append_drop]
      · exact .inr (.inl other)

/-- What is read has parts. -/
theorem exists_parts_of_parse {bytes : Bytes} {message : RatchetMessage}
    (parsed : parse bytes = .ok message) :
    ∃ parts : Parts, parts.bytes = bytes ∧ parts.message = message := by
  rcases parse_cases bytes with ⟨fault, short⟩ | ⟨failure, other⟩ |
    ⟨first, fieldBytes, code, current, rfl, long⟩
  · rw [short] at parsed
    cases parsed
  · rw [parse_of_other other] at parsed
    cases parsed
  · rw [long] at parsed
    cases read : fields.read fieldBytes with
    | error failure =>
        rw [read] at parsed
        cases parsed
    | ok value =>
        rw [read] at parsed
        cases parsed
        obtain ⟨last, ran⟩ := MessageReader.read_eq_ok read
        obtain ⟨ratchetKey, _, _, body⟩ := value
        obtain ⟨counter, previousCounter, rfl, rfl, whole⟩ := run_fields_eq_ok ran
        rw [Cursor.remaining_start] at whole
        subst whole
        exact ⟨⟨first, ratchetKey, counter, previousCounter, body, code, current⟩, rfl, rfl⟩

/-- What is refused is of another version or malformed. -/
theorem other_or_fault_of_parse {bytes : Bytes} {failure : SessionError}
    (parsed : parse bytes = .error failure) :
    OtherVersion bytes failure ∨ ∃ fault, failure = .invalidMessage fault := by
  rcases parse_cases bytes with ⟨fault, short⟩ | ⟨reason, other⟩ |
    ⟨first, fieldBytes, code, current, rfl, long⟩
  · rw [short] at parsed
    cases parsed
    exact .inr ⟨fault, rfl⟩
  · rw [parse_of_other other] at parsed
    cases parsed
    exact .inl other
  · rw [long] at parsed
    cases read : fields.read fieldBytes with
    | ok value =>
        rw [read] at parsed
        cases parsed
    | error reason =>
        rw [read] at parsed
        cases parsed
        obtain ⟨last, ran⟩ := MessageReader.read_eq_error read
        exact .inr (blames_fields _ _ _ ran)

theorem recognises : Recognises parse Parts.bytes Parts.message OtherVersion where
  unique := Parts.bytes_injective
  accepts bytes message := by
    refine ⟨exists_parts_of_parse, ?_⟩
    rintro ⟨parts, rfl, rfl⟩
    exact parse_bytes parts
  refuses_version _ _ := parse_of_other
  refuses _ _ := other_or_fault_of_parse

end RatchetMessage

/-! ## Prekey messages -/

namespace PrekeyMessage

/-- What stands before the wrapped message. -/
structure Envelope where
  /-- The byte with the version, whose low half may be anything. -/
  first : UInt8
  oneTimeId : Option Varint.Form
  signedId : Varint.Form
  baseKey : PublicKey
  current : first >>> 4 = Limits.currentVersion

namespace Envelope

/-- The flag byte, and the number that it announces. -/
def oneTimeBytes : Option Varint.Form → Bytes
  | none => [0]
  | some id => 1 :: id.bytes

/-- The parts of the envelope, one after another. -/
def bytes (envelope : Envelope) : Bytes :=
  envelope.first ::
    (oneTimeBytes envelope.oneTimeId ++ (envelope.signedId.bytes ++ envelope.baseKey.toBytes))

theorem oneTimeBytes_append_inj {first second : Option Varint.Form}
    {behindFirst behindSecond : Bytes}
    (same : oneTimeBytes first ++ behindFirst = oneTimeBytes second ++ behindSecond) :
    first = second ∧ behindFirst = behindSecond := by
  cases first with
  | none =>
      cases second with
      | none => exact ⟨rfl, List.append_cancel_left same⟩
      | some id => exact absurd (List.cons.inj same).1 (by decide)
  | some id =>
      cases second with
      | none => exact absurd (List.cons.inj same).1 (by decide)
      | some other =>
          obtain ⟨ids, behind⟩ := Varint.Form.append_inj (List.cons.inj same).2
          exact ⟨congrArg some ids, behind⟩

/-- No envelope is the beginning of another envelope. -/
theorem append_inj {first second : Envelope} {behindFirst behindSecond : Bytes}
    (same : first.bytes ++ behindFirst = second.bytes ++ behindSecond) :
    first = second ∧ behindFirst = behindSecond := by
  simp only [bytes, List.cons_append, List.append_assoc] at same
  obtain ⟨versions, rest⟩ := List.cons.inj same
  obtain ⟨oneTimeIds, numbers⟩ := oneTimeBytes_append_inj rest
  obtain ⟨signedIds, keys⟩ := Varint.Form.append_inj numbers
  obtain ⟨baseKeys, behind⟩ := PublicKey.append_inj keys
  cases first
  cases second
  cases versions
  cases oneTimeIds
  cases signedIds
  cases baseKeys
  exact ⟨rfl, behind⟩

/-- What is read of the envelope when this is behind it. -/
def fields (envelope : Envelope) (wrapped : Bytes) :
    UInt8 × Option UInt32 × UInt32 × PublicKey × Bytes :=
  (Limits.currentVersion, envelope.oneTimeId.map Varint.Form.value, envelope.signedId.value,
    envelope.baseKey, wrapped)

end Envelope

/-- The parts of a message. -/
structure Parts where
  envelope : Envelope
  wrapped : RatchetMessage.Parts

namespace Parts

/-- The parts, one after another. -/
def bytes (parts : Parts) : Bytes := parts.envelope.bytes ++ parts.wrapped.bytes

/-- The message that has these parts. -/
def message (parts : Parts) : PrekeyMessage where
  version := Limits.currentVersion
  oneTimeId := parts.envelope.oneTimeId.map Varint.Form.value
  signedId := parts.envelope.signedId.value
  baseKey := parts.envelope.baseKey
  message := parts.wrapped.message
  serialized := parts.bytes

end Parts

/-- The message is of another version, or it is in an envelope and what is in there is of another
version. -/
inductive OtherVersion : Bytes → SessionError → Prop where
  | outer {bytes : Bytes} {failure : SessionError} (other : Ratchet.OtherVersion bytes failure) :
      OtherVersion bytes failure
  | wrapped (envelope : Envelope) {bytes : Bytes} {failure : SessionError}
      (other : Ratchet.OtherVersion bytes failure) : OtherVersion (envelope.bytes ++ bytes) failure

/-! ### The envelope -/

theorem takes_oneTimeId (oneTimeId : Option Varint.Form) :
    Reader.Takes readOneTimeId (Envelope.oneTimeBytes oneTimeId)
      (oneTimeId.map Varint.Form.value) := by
  cases oneTimeId with
  | none =>
      rw [← List.append_nil (Envelope.oneTimeBytes none)]
      refine Reader.Takes.bind ((Reader.takes_byte 0).explain _) ?_
      exact Reader.takes_pure none
  | some id =>
      refine Reader.Takes.bind ((Reader.takes_byte oneTimeFlag).explain _) ?_
      exact Reader.Takes.map ((Reader.takes_varint_of_spells id.spells).explain _) some

/-- The only flags are zero and the one that announces a number. -/
theorem flags_eq : ∀ flags : UInt8, flags &&& ~~~oneTimeFlag = 0 → flags = 0 ∨ flags = 1 :=
  forall_byte (by decide +kernel)

/-- What is read is a flag byte and what it announces. -/
theorem gives_oneTimeId : Reader.Gives readOneTimeId fun bytes value =>
    ∃ id : Option Varint.Form, bytes = Envelope.oneTimeBytes id ∧
      id.map Varint.Form.value = value := by
  intro cursor value last ran
  obtain ⟨flags, middle, ranFlags, ran⟩ := Procedure.run_bind_eq_ok ran
  obtain ⟨_, moved, next, rfl⟩ := Reader.gives_byte.explain _ _ _ _ ranFlags
  by_cases unknown : flags &&& ~~~oneTimeFlag ≠ 0
  · rw [if_pos unknown] at ran
    cases ran
  rw [if_neg unknown] at ran
  by_cases zero : flags = 0
  · subst zero
    cases ran
    exact ⟨_, moved, next, none, rfl, rfl⟩
  · rcases flags_eq flags (not_not.mp unknown) with none | rfl
    · exact absurd none zero
    rw [if_neg zero] at ran
    obtain ⟨number, behind, ranNumber, ran⟩ := Procedure.run_bind_eq_ok ran
    cases ran
    obtain ⟨bytes, movedOn, rest, spells⟩ := Reader.gives_varint.explain _ _ _ _ ranNumber
    refine ⟨1 :: bytes, ?_, ?_, some ⟨bytes, number, spells⟩, rfl, rfl⟩
    · rw [movedOn, moved, Cursor.advance_advance, Nat.add_comm]
      rfl
    · rw [next, rest]
      rfl

theorem takesAll_fields (envelope : Envelope) (wrapped : Bytes) :
    Reader.TakesAll fields (envelope.bytes ++ wrapped) (envelope.fields wrapped) := by
  have bytes : envelope.bytes ++ wrapped = [envelope.first] ++ ([] ++
      (Envelope.oneTimeBytes envelope.oneTimeId ++ (envelope.signedId.bytes ++
        (envelope.baseKey.toBytes ++ wrapped)))) := by
    simp only [Envelope.bytes, List.cons_append, List.nil_append, List.append_assoc]
  rw [bytes]
  refine ((Reader.takes_byte envelope.first).explain _).bind_all ?_
  rw [versionOfByte_of_current envelope.current]
  refine (Reader.takes_pure Limits.currentVersion).bind_all ?_
  refine (takes_oneTimeId envelope.oneTimeId).bind_all ?_
  refine ((Reader.takes_varint_of_spells envelope.signedId.spells).explain _).bind_all ?_
  refine ((Reader.takes_publicKey envelope.baseKey).explain _).bind_all ?_
  exact Reader.takesAll_rest _ _ wrapped

/-- What is read of the envelope is an envelope. -/
theorem run_fields_eq_ok {cursor last : Cursor}
    {value : UInt8 × Option UInt32 × UInt32 × PublicKey × Bytes}
    (ran : fields.run cursor = (.ok value, last)) :
    ∃ (envelope : Envelope) (wrapped : Bytes),
      cursor.remaining = envelope.bytes ++ wrapped ∧ value = envelope.fields wrapped := by
  obtain ⟨first, afterFirst, ranFirst, ran⟩ := Procedure.run_bind_eq_ok ran
  obtain ⟨version, afterVersion, ranVersion, ran⟩ := Procedure.run_bind_eq_ok ran
  obtain ⟨oneTimeId, afterOneTime, ranOneTime, ran⟩ := Procedure.run_bind_eq_ok ran
  obtain ⟨signedId, afterSigned, ranSigned, ran⟩ := Procedure.run_bind_eq_ok ran
  obtain ⟨baseKey, afterBase, ranBase, ran⟩ := Procedure.run_bind_eq_ok ran
  cases ran
  rw [Procedure.run_ofExcept, Prod.mk.injEq] at ranVersion
  obtain ⟨versioned, rfl⟩ := ranVersion
  obtain ⟨_, _, firstNext, rfl⟩ := Reader.gives_byte.explain _ _ _ _ ranFirst
  obtain ⟨_, _, oneTimeNext, oneTime, rfl, rfl⟩ := gives_oneTimeId _ _ _ ranOneTime
  obtain ⟨signed, _, signedNext, spells⟩ := Reader.gives_varint.explain _ _ _ _ ranSigned
  obtain ⟨_, _, baseNext, rfl⟩ := Reader.gives_publicKey.explain _ _ _ _ ranBase
  rcases current_or_other first [] with current | ⟨failure, other⟩
  · rw [versionOfByte_of_current current] at versioned
    cases versioned
    refine ⟨⟨first, oneTime, ⟨signed, signedId, spells⟩, baseKey, current⟩, last.remaining, ?_, rfl⟩
    rw [firstNext, oneTimeNext, signedNext, baseNext]
    simp only [Envelope.bytes, List.cons_append, List.nil_append, List.append_assoc]
  · rw [versionOfByte_of_other other] at versioned
    cases versioned

theorem blames_oneTimeId : MessageReader.Blames readOneTimeId := by
  refine (MessageReader.blames_field _ _).bind fun flags => ?_
  dsimp only
  split
  · exact MessageReader.blames_throw _
  · split
    · exact MessageReader.blames_pure _
    · exact (MessageReader.blames_field _ _).map _

theorem bounded_oneTimeId : Reader.Bounded readOneTimeId := by
  refine (Reader.bounded_byte.explain _).bind fun flags => ?_
  dsimp only
  split
  · exact Reader.bounded_throw _
  · split
    · exact Reader.bounded_pure _
    · exact (Reader.bounded_varint.explain _).map _

theorem bounded_fields : Reader.Bounded fields := by
  refine (Reader.bounded_byte.explain _).bind fun first => ?_
  refine (Reader.bounded_ofExcept _).bind fun version => ?_
  refine bounded_oneTimeId.bind fun oneTimeId => ?_
  refine (Reader.bounded_varint.explain _).bind fun signedId => ?_
  refine (Reader.bounded_publicKey.explain _).bind fun baseKey => ?_
  exact (Reader.bounded_rest.explain _).bind fun wrapped => Reader.bounded_pure _

/-- Where the envelope cannot be read, its form is at fault or it is of another version. -/
theorem run_fields_eq_error {bytes : Bytes} {failure : SessionError} {last : Cursor}
    (ran : fields.run (Cursor.start bytes) = (.error failure, last)) :
    Ratchet.OtherVersion bytes failure ∨ ∃ fault, failure = .invalidMessage fault := by
  rcases Procedure.run_bind_eq_error ran with failed | ⟨first, afterFirst, ranFirst, ranRest⟩
  · exact .inr (MessageReader.blames_field _ _ _ _ _ failed)
  obtain ⟨_, _, firstNext, rfl⟩ := Reader.gives_byte.explain _ _ _ _ ranFirst
  rw [Cursor.remaining_start] at firstNext
  subst firstNext
  rcases Procedure.run_bind_eq_error ranRest with failed | ⟨version, afterVersion, _, ranFields⟩
  · rcases current_or_other first afterFirst.remaining with current | ⟨reason, other⟩
    · rw [versionOfByte_of_current current] at failed
      cases failed
    · rw [versionOfByte_of_other other] at failed
      cases failed
      exact .inl other
  · refine .inr (MessageReader.Blames.bind blames_oneTimeId (fun oneTimeId => ?_) _ _ _ ranFields)
    refine (MessageReader.blames_field _ _).bind fun signedId => ?_
    refine (MessageReader.blames_field _ _).bind fun baseKey => ?_
    exact (MessageReader.blames_field _ _).map _

theorem read_fields_of_other {bytes : Bytes} {failure : SessionError}
    (other : Ratchet.OtherVersion bytes failure) : fields.read bytes = .error failure := by
  cases bytes with
  | nil => cases other
  | cons first rest =>
      have taken := (Reader.takes_byte first).explain (SessionError.invalidMessage ∘ .field)
        (Cursor.start (first :: rest)) rest rfl
      rw [MessageReader.read, fields, MessageReader.field, Procedure.run_bind_of_ok taken]
      rw [Procedure.run_bind, versionOfByte_of_other other]
      rfl

/-! ### The message -/

theorem parse_append (envelope : Envelope) (wrapped : Bytes) :
    parse (envelope.bytes ++ wrapped) = (RatchetMessage.parse wrapped).map fun message =>
      ⟨Limits.currentVersion, envelope.oneTimeId.map Varint.Form.value, envelope.signedId.value,
        envelope.baseKey, message, envelope.bytes ++ wrapped⟩ := by
  simp only [parse]
  rw [MessageReader.read, takesAll_fields envelope wrapped _ (Cursor.remaining_start _)]
  show (RatchetMessage.parse wrapped).bind _ = _
  cases RatchetMessage.parse wrapped <;> rfl

theorem parse_bytes (parts : Parts) : parse parts.bytes = .ok parts.message := by
  rw [Parts.bytes, parse_append, RatchetMessage.parse_bytes]
  rfl

theorem parse_of_other {bytes : Bytes} {failure : SessionError}
    (other : OtherVersion bytes failure) : parse bytes = .error failure := by
  cases other with
  | outer other =>
      simp only [parse]
      rw [read_fields_of_other other]
      rfl
  | wrapped envelope other =>
      rw [parse_append, RatchetMessage.parse_of_other other]
      rfl

/-- A byte string has an envelope or is refused. -/
theorem parse_cases (bytes : Bytes) :
    (∃ (envelope : Envelope) (wrapped : Bytes), bytes = envelope.bytes ++ wrapped) ∨
      ∃ failure, parse bytes = .error failure ∧
        (Ratchet.OtherVersion bytes failure ∨ ∃ fault, failure = .invalidMessage fault) := by
  cases read : fields.read bytes with
  | ok value =>
      obtain ⟨last, ran⟩ := MessageReader.read_eq_ok read
      obtain ⟨envelope, wrapped, whole, _⟩ := run_fields_eq_ok ran
      exact .inl ⟨envelope, wrapped, whole⟩
  | error failure =>
      obtain ⟨last, ran⟩ := MessageReader.read_eq_error read
      refine .inr ⟨failure, ?_, run_fields_eq_error ran⟩
      simp only [parse]
      rw [read]
      rfl

/-- What is read has parts. -/
theorem exists_parts_of_parse {bytes : Bytes} {message : PrekeyMessage}
    (parsed : parse bytes = .ok message) :
    ∃ parts : Parts, parts.bytes = bytes ∧ parts.message = message := by
  rcases parse_cases bytes with ⟨envelope, wrapped, rfl⟩ | ⟨failure, refused, _⟩
  · rw [parse_append] at parsed
    cases inner : RatchetMessage.parse wrapped with
    | error failure =>
        rw [inner] at parsed
        cases parsed
    | ok value =>
        rw [inner] at parsed
        cases parsed
        obtain ⟨parts, rfl, rfl⟩ := RatchetMessage.exists_parts_of_parse inner
        exact ⟨⟨envelope, parts⟩, rfl, rfl⟩
  · rw [refused] at parsed
    cases parsed

/-- What is refused is of another version or malformed. -/
theorem other_or_fault_of_parse {bytes : Bytes} {failure : SessionError}
    (parsed : parse bytes = .error failure) :
    OtherVersion bytes failure ∨ ∃ fault, failure = .invalidMessage fault := by
  rcases parse_cases bytes with ⟨envelope, wrapped, rfl⟩ | ⟨reason, refused, account⟩
  · rw [parse_append] at parsed
    cases inner : RatchetMessage.parse wrapped with
    | ok value =>
        rw [inner] at parsed
        cases parsed
    | error reason =>
        rw [inner] at parsed
        cases parsed
        exact (RatchetMessage.other_or_fault_of_parse inner).imp_left (.wrapped envelope)
  · rw [refused] at parsed
    cases parsed
    exact account.imp_left .outer

/-- A byte string has the parts of a message in one way at most. -/
theorem Parts.bytes_injective : Function.Injective Parts.bytes := by
  intro first second same
  obtain ⟨envelopes, inner⟩ := Envelope.append_inj same
  cases first
  cases second
  cases envelopes
  cases RatchetMessage.Parts.bytes_injective inner
  rfl

theorem recognises : Recognises parse Parts.bytes Parts.message OtherVersion where
  unique := Parts.bytes_injective
  accepts bytes message := by
    refine ⟨exists_parts_of_parse, ?_⟩
    rintro ⟨parts, rfl, rfl⟩
    exact parse_bytes parts
  refuses_version _ _ := parse_of_other
  refuses _ _ := other_or_fault_of_parse

end PrekeyMessage

end Ratchet
