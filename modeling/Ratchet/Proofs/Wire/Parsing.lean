import Ratchet.Proofs.Wire.Grammar
import Ratchet.Proofs.Wire.Machine

/-!
# Parsing on a machine

A message is cut before it is read: the fields are between the version byte and the
authentication code. Where the code begins is computed from the number of bytes, and
a machine that computes it in words of 64 bits, and cuts the fields out as a piece,
stops if the difference is below zero or the piece is not there (`Halt.trap`).

Before the cut a message that is too short is refused, so a machine that parses
bytes whose number is a word does what the parsers do, and never stops
(`RatchetMessage.parseWords_eq`, `PrekeyMessage.parseWords_eq`). The parsers accept
exactly their grammar (`parsers_recognise`).
-/

set_option autoImplicit false

namespace Ratchet

/-- Reads the fields of a message off a cursor on words. -/
abbrev WordMessageReader (α : Type) := Procedure WordCursor (Halt SessionError) α

namespace WordMessageReader

/-- Reads a field, a fault being explained as a fault of the message. -/
def field {α : Type} (explain : ReadFault → MessageFault) (machine : WordReader α) :
    WordMessageReader α :=
  machine.explain (Halt.map (.invalidMessage ∘ explain))

/-- The value read off a byte string. -/
def read {α : Type} (machine : WordMessageReader α) (bytes : Bytes) :
    Except (Halt SessionError) α :=
  (machine.run ⟨bytes, 0⟩).1

end WordMessageReader

namespace WordReader

open WordMessageReader

/-- The difference of two words, if it is not below zero. -/
def difference? (first second : UInt64) : Option UInt64 :=
  if second ≤ first then some (first - second) else none

theorem difference?_ofNat {first second : Nat} (ordered : second ≤ first)
    (fits : first < UInt64.size) :
    difference? (UInt64.ofNat first) (UInt64.ofNat second) =
      some (UInt64.ofNat (first - second)) := by
  have secondFits : second < UInt64.size := Nat.lt_of_le_of_lt ordered fits
  have inOrder : UInt64.ofNat second ≤ UInt64.ofNat first :=
    (UInt64.ofNat_le_iff_le secondFits fits).mpr ordered
  rw [difference?, if_pos inOrder, Option.some.injEq, ← UInt64.toNat_inj,
    UInt64.toNat_sub_of_le _ _ inOrder, UInt64.toNat_ofNat_of_lt' fits,
    UInt64.toNat_ofNat_of_lt' secondFits,
    UInt64.toNat_ofNat_of_lt' (Nat.lt_of_le_of_lt (Nat.sub_le first second) fits)]

theorem KeepsTo.field {α : Type} {machine : WordReader α} {reader : Reader α}
    (keeps : KeepsTo machine reader) (explain : ReadFault → MessageFault) :
    KeepsTo (WordMessageReader.field explain machine) (MessageReader.field explain reader) :=
  keeps.explain _

theorem KeepsTo.read_eq {α : Type} {machine : WordMessageReader α} {reader : MessageReader α}
    (keeps : KeepsTo machine reader) {bytes : Bytes} (fits : bytes.length < UInt64.size) :
    machine.read bytes = (reader.read bytes).mapError .fault :=
  congrArg Prod.fst (keeps (Cursor.start bytes) (Nat.zero_le _) fits)

end WordReader

open WordReader

/-! ## Ratchet messages -/

namespace RatchetMessage

/-- Reads the fields between the version byte and the authentication code. -/
def wordFields : WordMessageReader (PublicKey × UInt32 × UInt32 × Bytes) := do
  let ratchetKey ← WordMessageReader.field .key WordReader.publicKey
  let counter ← WordMessageReader.field .field WordReader.varint
  let previousCounter ← WordMessageReader.field .field WordReader.varint
  let body ← WordMessageReader.field .field WordReader.rest
  return (ratchetKey, counter, previousCounter, body)

/-- The message in these bytes, if the machine does not stop at the cut. -/
def parseWords (bytes : Bytes) : Except (Halt SessionError) RatchetMessage :=
  match bytes with
  | [] => .error (.fault (.invalidMessage .empty))
  | first :: _ => do
    let version ← (versionOfByte first).mapError .fault
    let length := UInt64.ofNat bytes.length
    if length < UInt64.ofNat minimumLength then
      .error (.fault (.invalidMessage (.tooShort bytes.length)))
    else
      let last ← Halt.demand (difference? length (UInt64.ofNat Limits.macLength))
      let front ← Halt.demand (slice? bytes 1 last)
      let (ratchetKey, counter, previousCounter, body) ← wordFields.read front
      return { version, ratchetKey, counter, previousCounter, body, serialized := bytes }

theorem keepsTo_wordFields : KeepsTo wordFields fields := by
  refine (keepsTo_publicKey.field _).bind (Reader.bounded_publicKey.explain _) fun ratchetKey => ?_
  refine (keepsTo_varint.field _).bind (Reader.bounded_varint.explain _) fun counter => ?_
  refine (keepsTo_varint.field _).bind (Reader.bounded_varint.explain _) fun previousCounter => ?_
  refine (keepsTo_rest.field _).bind (Reader.bounded_rest.explain _) fun body => ?_
  exact keepsTo_pure _

/-- The fields are the piece from the second byte to the authentication code. -/
theorem parseWords_of_long {first : UInt8} {rest : Bytes}
    (fits : (first :: rest).length < UInt64.size)
    (current : first >>> 4 = Limits.currentVersion)
    (long : ¬ (first :: rest).length < minimumLength) :
    parseWords (first :: rest) =
      (wordFields.read (rest.take (rest.length - Limits.macLength))).map
        fun (ratchetKey, counter, previousCounter, body) =>
          ⟨Limits.currentVersion, ratchetKey, counter, previousCounter, body, first :: rest⟩ := by
  have least : Limits.macLength + 1 ≤ minimumLength := by decide
  have room : Limits.macLength ≤ (first :: rest).length := by omega
  have enough : 1 ≤ (first :: rest).length - Limits.macLength := by omega
  have words : ¬ UInt64.ofNat (first :: rest).length < UInt64.ofNat minimumLength := by
    rw [UInt64.ofNat_lt_iff_lt fits (by decide)]
    exact long
  have last := difference?_ofNat room fits
  have piece := slice?_ofNat enough (Nat.sub_le (first :: rest).length Limits.macLength) fits
  have count : (first :: rest).length - Limits.macLength - 1 = rest.length - Limits.macLength := by
    rw [List.length_cons]
    omega
  rw [count] at piece
  simp only [parseWords]
  rw [versionOfByte_of_current current]
  refine (if_neg words).trans ?_
  rw [last]
  show (Halt.demand (slice? (first :: rest) (UInt64.ofNat 1) _) >>= _) = _
  rw [piece]
  show (wordFields.read (rest.take (rest.length - Limits.macLength)) >>= _) = _
  cases wordFields.read (rest.take (rest.length - Limits.macLength)) <;> rfl

/-- **The machine parses as the parser does.** -/
theorem parseWords_eq {bytes : Bytes} (fits : bytes.length < UInt64.size) :
    parseWords bytes = (parse bytes).mapError .fault := by
  cases bytes with
  | nil => rfl
  | cons first rest =>
      rcases current_or_other first rest with current | ⟨failure, other⟩
      · by_cases short : (first :: rest).length < minimumLength
        · have words : UInt64.ofNat (first :: rest).length < UInt64.ofNat minimumLength := by
            rw [UInt64.ofNat_lt_iff_lt fits (by decide)]
            exact short
          rw [parse_of_short current short]
          simp only [parseWords]
          rw [versionOfByte_of_current current]
          exact if_pos words
        · have inside : (rest.take (rest.length - Limits.macLength)).length < UInt64.size := by
            have cut := List.length_take_le (rest.length - Limits.macLength) rest
            rw [List.length_cons] at fits
            omega
          rw [parseWords_of_long fits current short, parse_of_long current short,
            keepsTo_wordFields.read_eq inside]
          cases fields.read (rest.take (rest.length - Limits.macLength)) <;> rfl
      · rw [parse_of_other other]
        simp only [parseWords]
        rw [versionOfByte_of_other other]
        rfl

end RatchetMessage

/-! ## Prekey messages -/

namespace PrekeyMessage

/-- Reads a flag byte and what it announces. -/
def readOneTimeIdWords : WordMessageReader (Option UInt32) := do
  let flags ← WordMessageReader.field .field WordReader.byte
  if flags &&& ~~~oneTimeFlag ≠ 0 then throw (.fault (.invalidMessage (.unknownFlags flags)))
  if flags = 0 then return none
  return some (← WordMessageReader.field .field WordReader.varint)

/-- Reads the fields up to the wrapped message, and the bytes of that. -/
def wordFields : WordMessageReader (UInt8 × Option UInt32 × UInt32 × PublicKey × Bytes) := do
  let first ← WordMessageReader.field .field WordReader.byte
  let version ← Procedure.ofExcept ((versionOfByte first).mapError .fault)
  let oneTimeId ← readOneTimeIdWords
  let signedId ← WordMessageReader.field .field WordReader.varint
  let baseKey ← WordMessageReader.field .key WordReader.publicKey
  let wrapped ← WordMessageReader.field .field WordReader.rest
  return (version, oneTimeId, signedId, baseKey, wrapped)

/-- The message in these bytes, if the machine does not stop at the cut of the wrapped one. -/
def parseWords (bytes : Bytes) : Except (Halt SessionError) PrekeyMessage := do
  let (version, oneTimeId, signedId, baseKey, wrapped) ← wordFields.read bytes
  let message ← RatchetMessage.parseWords wrapped
  return { version, oneTimeId, signedId, baseKey, message, serialized := bytes }

theorem keepsTo_oneTimeId : KeepsTo readOneTimeIdWords readOneTimeId := by
  refine (keepsTo_byte.field _).bind (Reader.bounded_byte.explain _) fun flags => ?_
  dsimp only
  split
  · exact keepsTo_throw _
  · split
    · exact keepsTo_pure _
    · exact (keepsTo_varint.field _).map _

theorem keepsTo_wordFields : KeepsTo wordFields fields := by
  refine (keepsTo_byte.field _).bind (Reader.bounded_byte.explain _) fun first => ?_
  refine (keepsTo_ofExcept _).bind (Reader.bounded_ofExcept _) fun version => ?_
  refine keepsTo_oneTimeId.bind bounded_oneTimeId fun oneTimeId => ?_
  refine (keepsTo_varint.field _).bind (Reader.bounded_varint.explain _) fun signedId => ?_
  refine (keepsTo_publicKey.field _).bind (Reader.bounded_publicKey.explain _) fun baseKey => ?_
  refine (keepsTo_rest.field _).bind (Reader.bounded_rest.explain _) fun wrapped => ?_
  exact keepsTo_pure _

/-- **The machine parses as the parser does.** -/
theorem parseWords_eq {bytes : Bytes} (fits : bytes.length < UInt64.size) :
    parseWords bytes = (parse bytes).mapError .fault := by
  simp only [parseWords, parse]
  rw [keepsTo_wordFields.read_eq fits]
  cases read : fields.read bytes with
  | error failure => rfl
  | ok value =>
      obtain ⟨last, ran⟩ := MessageReader.read_eq_ok read
      obtain ⟨envelope, wrapped, whole, rfl⟩ := run_fields_eq_ok ran
      rw [Cursor.remaining_start] at whole
      have inside : wrapped.length < UInt64.size := by
        refine Nat.lt_of_le_of_lt ?_ fits
        rw [whole, List.length_append]
        exact Nat.le_add_left _ _
      show (RatchetMessage.parseWords wrapped >>= _) =
        Except.mapError _ (RatchetMessage.parse wrapped >>= _)
      rw [RatchetMessage.parseWords_eq inside]
      cases RatchetMessage.parse wrapped <;> rfl

end PrekeyMessage

/-- **The parsers accept exactly their grammar**, and no reader gets beyond the end of its bytes. A
byte string of the current version is cut into fields and authentication code only if it has room
for both. So a machine that keeps lengths in words of 64 bits, and stops where a difference is
below zero or a piece is not there, never stops and parses alike. -/
theorem parsers_recognise :
    Recognises RatchetMessage.parse RatchetMessage.Parts.bytes RatchetMessage.Parts.message
      OtherVersion ∧
    Recognises PrekeyMessage.parse PrekeyMessage.Parts.bytes PrekeyMessage.Parts.message
      PrekeyMessage.OtherVersion ∧
    Reader.Bounded RatchetMessage.fields ∧ Reader.Bounded PrekeyMessage.fields ∧
    (∀ (first : UInt8) (rest : Bytes), first >>> 4 = Limits.currentVersion →
      (first :: rest).length < RatchetMessage.minimumLength →
      RatchetMessage.parse (first :: rest) =
        .error (.invalidMessage (.tooShort (first :: rest).length))) ∧
    ∀ bytes : Bytes, bytes.length < UInt64.size →
      RatchetMessage.parseWords bytes = (RatchetMessage.parse bytes).mapError .fault ∧
      PrekeyMessage.parseWords bytes = (PrekeyMessage.parse bytes).mapError .fault :=
  ⟨RatchetMessage.recognises, PrekeyMessage.recognises, RatchetMessage.bounded_fields,
    PrekeyMessage.bounded_fields, fun _ _ => RatchetMessage.parse_of_short,
    fun _ fits => ⟨RatchetMessage.parseWords_eq fits, PrekeyMessage.parseWords_eq fits⟩⟩

end Ratchet
