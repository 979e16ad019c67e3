import Mathlib.Data.List.Basic
import Ratchet.Octets.Hex

/-!
# Texts of hexadecimal digits

A reader of hexadecimal text sees bytes, and a text is made of characters. An
ASCII character is one byte (`codes_of_ascii`), and every other character has a
byte that is no ASCII character (`exists_large_code`). So where ASCII characters
are looked for, the bytes seen as characters are as good as the text
(`map_codes_eq_iff`).

A text is read as some bytes exactly if in lower case it is what is written for
these bytes (`Hex.decode_eq_ok_iff`). What is written for some bytes is, in either
case, exactly twice as many digits (`Hex.exists_written_iff`).
-/

set_option autoImplicit false

namespace Ratchet

/-! ## Characters and bytes -/

theorem toList_loop (array : ByteArray) (start : Nat) (front : Bytes) :
    ByteArray.toList.loop array start front = front.reverse ++ array.data.toList.drop start := by
  fun_induction ByteArray.toList.loop array start front with
  | case1 start front inside ih =>
      have within : start < array.data.toList.length := inside
      have byte : array.get! start = array.data.toList[start] :=
        getElem!_pos array.data start within
      rw [ih, List.reverse_cons, List.append_assoc, List.drop_eq_getElem_cons within, byte]
      rfl
  | case2 start front outside =>
      have behind : array.data.toList.length ≤ start := Nat.le_of_not_lt outside
      rw [List.drop_eq_nil_of_le behind, List.append_nil]

/-- The bytes of a text are those of its characters. -/
theorem codes_eq (text : String) :
    text.toUTF8.toList = text.toList.flatMap String.utf8EncodeChar := by
  have bytes : text.toUTF8 = (text.toList.flatMap String.utf8EncodeChar).toByteArray :=
    String.utf8Encode_toList.symm
  rw [ByteArray.toList, toList_loop, bytes, List.toList_data_toByteArray]
  rfl

/-- A property of every ASCII character, checked character by character. -/
theorem forall_ascii (property : Char → Prop)
    (holds : ∀ number : Fin 128, property (Char.ofNat number)) {character : Char}
    (ascii : character.toNat < 128) : property character := by
  have checked := holds ⟨character.toNat, ascii⟩
  rwa [Char.ofNat_toNat] at checked

theorem ofUInt8_toUInt8 {character : Char} (ascii : character.toNat < 128) :
    Char.ofUInt8 character.toUInt8 = character :=
  forall_ascii (fun character => Char.ofUInt8 character.toUInt8 = character)
    (by decide +kernel) ascii

theorem map_ofUInt8_toUInt8 {characters : List Char}
    (ascii : ∀ character ∈ characters, character.toNat < 128) :
    (characters.map Char.toUInt8).map Char.ofUInt8 = characters := by
  have back : ∀ character ∈ characters, (Char.ofUInt8 ∘ Char.toUInt8) character = id character :=
    fun character member => ofUInt8_toUInt8 (ascii character member)
  rw [List.map_map, List.map_congr_left back, List.map_id]

/-- The text of ASCII characters has a byte for each of them. -/
theorem codes_of_ascii {text : String} (ascii : ∀ character ∈ text.toList, character.toNat < 128) :
    text.toUTF8.toList = text.toList.map Char.toUInt8 := by
  have single : ∀ character ∈ text.toList,
      String.utf8EncodeChar character = [character.toUInt8] := by
    intro character member
    apply String.utf8EncodeChar_eq_singleton
    rw [Char.utf8Size_eq_one_iff, UInt32.le_iff_toNat_le]
    exact Nat.le_of_lt_succ (ascii character member)
  rw [codes_eq, List.flatMap_congr single]
  exact List.flatMap_pure_eq_map _ _

/-- A character that is not ASCII has a byte that is none. -/
theorem exists_large_code {character : Char} (large : ¬character.toNat < 128) :
    ∃ code ∈ String.utf8EncodeChar character, ¬code.toNat < 128 := by
  have marked : ∀ low < 64, ¬(UInt8.ofNat (low + 128)).toNat < 128 := by
    intro low bound
    rw [UInt8.toNat_ofNat']
    omega
  have last : ¬(UInt8.ofNat (character.toNat % 64 + 128)).toNat < 128 :=
    marked _ (Nat.mod_lt _ (by decide))
  refine ⟨UInt8.ofNat (character.toNat % 64 + 128), ?_, last⟩
  have beyond : ¬character.val.toNat ≤ 127 := fun small => large (Nat.lt_succ_of_le small)
  -- In two, three or four bytes, the last one has the low bits of the character, marked.
  rw [String.utf8EncodeChar.eq_1, if_neg beyond]
  split
  · exact List.mem_cons_of_mem _ (List.mem_singleton_self _)
  split
  · exact List.mem_cons_of_mem _ (List.mem_cons_of_mem _ (List.mem_singleton_self _))
  · exact List.mem_cons_of_mem _
      (List.mem_cons_of_mem _ (List.mem_cons_of_mem _ (List.mem_singleton_self _)))

/-- A text whose bytes are ASCII characters is made of these. -/
theorem ascii_of_codes {text : String} (small : ∀ code ∈ text.toUTF8.toList, code.toNat < 128) :
    ∀ character ∈ text.toList, character.toNat < 128 := by
  intro character member
  by_contra large
  obtain ⟨code, among, beyond⟩ := exists_large_code large
  apply beyond
  apply small
  rw [codes_eq]
  exact List.mem_flatMap.mpr ⟨character, member, among⟩

/-- A byte seen as a character, and back. -/
theorem toUInt8_ofUInt8 : ∀ code : UInt8, (Char.ofUInt8 code).toUInt8 = code :=
  forall_byte (by decide +kernel)

theorem toNat_ofUInt8 : ∀ code : UInt8, (Char.ofUInt8 code).toNat = code.toNat :=
  forall_byte (by decide +kernel)

/-- The bytes of a text are some ASCII characters exactly if the text is made of these. -/
theorem map_codes_eq_iff {text : String} {characters : List Char}
    (ascii : ∀ character ∈ characters, character.toNat < 128) :
    text.toUTF8.toList.map Char.ofUInt8 = characters ↔ text.toList = characters := by
  have agree (asciiToo : ∀ character ∈ text.toList, character.toNat < 128) :
      text.toUTF8.toList.map Char.ofUInt8 = text.toList := by
    rw [codes_of_ascii asciiToo, map_ofUInt8_toUInt8 asciiToo]
  constructor
  · intro same
    rw [← same]
    refine (agree (ascii_of_codes fun code member => ?_)).symm
    rw [← toNat_ofUInt8]
    exact ascii _ (same ▸ List.mem_map_of_mem member)
  · rintro rfl
    exact agree ascii

namespace Hex

/-! ## Digits -/

/-- The character is a hexadecimal digit of either case. -/
def IsDigit (character : Char) : Prop :=
  ('0' ≤ character ∧ character ≤ '9') ∨ ('a' ≤ character ∧ character ≤ 'f') ∨
    ('A' ≤ character ∧ character ≤ 'F')

instance : DecidablePred IsDigit := fun _ => inferInstanceAs (Decidable (_ ∨ _))

/-- The character with this code, in lower case. -/
def lower (code : UInt8) : Char := (Char.ofUInt8 code).toLower

theorem value?_lower : ∀ code : UInt8, value? (lower code).toUInt8 = value? code :=
  forall_byte (by decide +kernel)

theorem digit_of_value? : ∀ code : UInt8, ∀ value ∈ value? code,
    value < 16 ∧ lower code = digit value :=
  forall_byte (by decide +kernel)

theorem value?_digit : ∀ value : UInt8, value < 16 → value? (digit value).toUInt8 = some value :=
  forall_byte (by decide +kernel)

/-- A byte is a digit exactly if in lower case it is what is written for its value. -/
theorem value?_eq_some_iff {code value : UInt8} :
    value? code = some value ↔ value < 16 ∧ lower code = digit value := by
  constructor
  · exact digit_of_value? code value
  · rintro ⟨small, written⟩
    rw [← value?_lower, written]
    exact value?_digit value small

theorem halves : ∀ byte : UInt8,
    byte >>> 4 < 16 ∧ byte &&& 0x0F < 16 ∧ (byte >>> 4) <<< 4 ||| (byte &&& 0x0F) = byte :=
  forall_byte (by decide +kernel)

theorem halves_join : ∀ upper lower : Fin 16,
    pair (UInt8.ofNat upper <<< 4 ||| UInt8.ofNat lower) =
      [digit (UInt8.ofNat upper), digit (UInt8.ofNat lower)] := by
  decide +kernel

/-- A byte is written as its two halves. -/
theorem pair_join {upper lower : UInt8} (small : upper < 16) (smaller : lower < 16) :
    pair (upper <<< 4 ||| lower) = [digit upper, digit lower] := by
  have joined := halves_join ⟨upper.toNat, UInt8.lt_iff_toNat_lt.mp small⟩
    ⟨lower.toNat, UInt8.lt_iff_toNat_lt.mp smaller⟩
  rwa [UInt8.ofNat_toNat, UInt8.ofNat_toNat] at joined

theorem ascii_digit : ∀ value : UInt8, value < 16 → (digit value).toNat < 128 :=
  forall_byte (by decide +kernel)

theorem toLower_digit : ∀ value : UInt8, value < 16 → (digit value).toLower = digit value :=
  forall_byte (by decide +kernel)

/-- Only ASCII characters are ASCII in lower case. -/
theorem ascii_of_toLower {character : Char} (ascii : character.toLower.toNat < 128) :
    character.toNat < 128 := by
  unfold Char.toLower at ascii
  split at ascii
  · rename_i capital
    exact Nat.lt_of_le_of_lt (UInt32.le_iff_toNat_le.mp capital.2) (by decide)
  · exact ascii

theorem IsDigit.ascii {character : Char} (isDigit : IsDigit character) :
    character.toNat < 128 := by
  rcases isDigit with ⟨_, below⟩ | ⟨_, below⟩ | ⟨_, below⟩ <;>
  · rw [Char.le_def, UInt32.le_iff_toNat_le] at below
    exact Nat.lt_of_le_of_lt below (by decide)

theorem lower_toUInt8 {character : Char} (ascii : character.toNat < 128) :
    lower character.toUInt8 = character.toLower := by
  rw [lower, ofUInt8_toUInt8 ascii]

/-- A character is a digit exactly if in lower case it is what is written for some value. -/
theorem isDigit_iff {character : Char} :
    IsDigit character ↔ ∃ value, value < 16 ∧ character.toLower = digit value := by
  constructor
  · intro isDigit
    have read : (value? character.toUInt8).isSome = true :=
      forall_ascii (fun character =>
        IsDigit character → (value? character.toUInt8).isSome = true)
        (by decide +kernel) isDigit.ascii isDigit
    obtain ⟨value, found⟩ := Option.isSome_iff_exists.mp read
    obtain ⟨small, written⟩ := value?_eq_some_iff.mp found
    rw [lower_toUInt8 isDigit.ascii] at written
    exact ⟨value, small, written⟩
  · rintro ⟨value, small, written⟩
    have ascii : character.toNat < 128 := by
      apply ascii_of_toLower
      rw [written]
      exact ascii_digit value small
    have read : value? character.toUInt8 = some value := by
      rw [value?_eq_some_iff, lower_toUInt8 ascii]
      exact ⟨small, written⟩
    exact forall_ascii (fun character =>
      (value? character.toUInt8).isSome = true → IsDigit character)
      (by decide +kernel) ascii (read ▸ rfl)

/-! ## Digits two by two -/

theorem length_flatMap_pair (bytes : Bytes) : (bytes.flatMap pair).length = 2 * bytes.length := by
  induction bytes with
  | nil => rfl
  | cons byte rest ih =>
      rw [List.flatMap_cons, List.length_append, ih, List.length_cons, Nat.mul_succ, Nat.add_comm]
      rfl

theorem mem_pair {character : Char} {byte : UInt8} (member : character ∈ pair byte) :
    ∃ value, value < 16 ∧ character = digit value := by
  obtain ⟨small, smaller, _⟩ := halves byte
  rcases List.mem_cons.mp member with rfl | member
  · exact ⟨_, small, rfl⟩
  · exact ⟨_, smaller, List.mem_singleton.mp member⟩

/-- What is written is in lower case. -/
theorem map_toLower_flatMap_pair (bytes : Bytes) :
    (bytes.flatMap pair).map Char.toLower = bytes.flatMap pair := by
  have lowered : ∀ character ∈ bytes.flatMap pair, character.toLower = id character := by
    intro character member
    obtain ⟨byte, _, half⟩ := List.mem_flatMap.mp member
    obtain ⟨value, small, rfl⟩ := mem_pair half
    exact toLower_digit value small
  rw [List.map_congr_left lowered, List.map_id]

/-- What in lower case is written for some bytes is made of digits. -/
theorem isDigit_of_written {digits : List Char} {bytes : Bytes}
    (written : digits.map Char.toLower = bytes.flatMap pair) :
    ∀ character ∈ digits, IsDigit character := by
  intro character member
  have among := List.mem_map_of_mem (f := Char.toLower) member
  rw [written] at among
  obtain ⟨byte, _, half⟩ := List.mem_flatMap.mp among
  exact isDigit_iff.mpr (mem_pair half)

/-- Every even number of digits is in lower case what is written for some bytes. -/
theorem exists_written {digits : List Char} {count : Nat} (length : digits.length = 2 * count)
    (all : ∀ character ∈ digits, IsDigit character) :
    ∃ bytes : Bytes, digits.map Char.toLower = bytes.flatMap pair := by
  induction count generalizing digits with
  | zero =>
      rw [List.eq_nil_of_length_eq_zero length]
      exact ⟨[], rfl⟩
  | succ count ih =>
      match digits, length with
      | first :: second :: rest, length =>
        obtain ⟨isDigit, all⟩ := List.forall_mem_cons.mp all
        obtain ⟨isDigitToo, all⟩ := List.forall_mem_cons.mp all
        obtain ⟨upper, small, high⟩ := isDigit_iff.mp isDigit
        obtain ⟨lower, smaller, low⟩ := isDigit_iff.mp isDigitToo
        have fewer : rest.length = 2 * count := Nat.succ.inj (Nat.succ.inj length)
        obtain ⟨bytes, written⟩ := ih fewer all
        refine ⟨(upper <<< 4 ||| lower) :: bytes, ?_⟩
        rw [List.flatMap_cons, pair_join small smaller, List.map_cons, List.map_cons, high, low,
          written]
        rfl

/-- Twice as many characters are in lower case what is written for some bytes exactly if they are
digits. -/
theorem exists_written_iff {digits : List Char} {count : Nat} :
    (∃ bytes : Octets count, digits.map Char.toLower = bytes.toList.flatMap pair) ↔
      digits.length = 2 * count ∧ ∀ character ∈ digits, IsDigit character := by
  constructor
  · rintro ⟨bytes, written⟩
    have lengths := congrArg List.length written
    rw [List.length_map, length_flatMap_pair, bytes.length_toList] at lengths
    exact ⟨lengths, isDigit_of_written written⟩
  · rintro ⟨length, all⟩
    obtain ⟨bytes, written⟩ := exists_written length all
    have lengths := congrArg List.length written
    rw [List.length_map, length_flatMap_pair, length] at lengths
    exact ⟨⟨bytes, (Nat.mul_left_cancel (by decide) lengths).symm⟩, written⟩

/-- Codes are read exactly if in lower case they are what is written for the result. -/
theorem decodeFrom_eq_ok_iff {position : Nat} {codes bytes : Bytes} :
    decodeFrom position codes = .ok bytes ↔ codes.map lower = bytes.flatMap pair := by
  constructor
  · intro read
    fun_induction decodeFrom position codes generalizing bytes with
    | case1 position high low rest bad => cases read
    | case2 position high low rest upper first bad => cases read
    | case3 position high low rest upper under second first ih =>
        obtain ⟨small, highDigit⟩ := value?_eq_some_iff.mp first
        obtain ⟨smaller, lowDigit⟩ := value?_eq_some_iff.mp second
        cases others : decodeFrom (position + 2) rest with
        | error fault =>
            rw [others] at read
            cases read
        | ok remaining =>
            rw [others] at read
            cases read
            rw [List.flatMap_cons, pair_join small smaller, ← ih others, List.map_cons,
              List.map_cons, highDigit, lowDigit]
            rfl
    | case4 => cases read
    | case5 => cases read; rfl
  · intro written
    induction bytes generalizing position codes with
    | nil =>
        rw [List.flatMap_nil, List.map_eq_nil_iff] at written
        rw [written]
        rfl
    | cons byte rest ih =>
        obtain ⟨small, smaller, joined⟩ := halves byte
        match codes, written with
        | high :: low :: others, written =>
          obtain ⟨highDigit, written⟩ := List.cons.inj written
          obtain ⟨lowDigit, written⟩ := List.cons.inj written
          have first := value?_eq_some_iff.mpr ⟨small, highDigit⟩
          have second := value?_eq_some_iff.mpr ⟨smaller, lowDigit⟩
          have remaining : decodeFrom (position + 2) others = .ok rest := ih written
          rw [decodeFrom, first, second]
          change (do return _ :: (← decodeFrom (position + 2) others)) = _
          rw [remaining, joined]
          rfl
        | [_], written => nomatch (List.cons.inj written).2

/-- What in lower case is written for some bytes is ASCII. -/
theorem ascii_of_written {digits : List Char} {bytes : Bytes}
    (written : digits.map Char.toLower = bytes.flatMap pair) :
    ∀ character ∈ digits, character.toNat < 128 :=
  fun character member => (isDigit_of_written written character member).ascii

/-- A text is read exactly if in lower case it is what is written for the result. -/
theorem decode_eq_ok_iff {text : String} {bytes : Bytes} :
    decode text = .ok bytes ↔ text.toList.map Char.toLower = bytes.flatMap pair := by
  have onCodes : decode text = .ok bytes ↔
      (text.toUTF8.toList.map Char.ofUInt8).map Char.toLower = bytes.flatMap pair := by
    rw [List.map_map]
    simp only [decode]
    split
    · rename_i odd
      refine iff_of_false nofun fun written => ?_
      have lengths := congrArg List.length written
      rw [List.length_map, length_flatMap_pair] at lengths
      rw [lengths, Nat.mul_mod_right] at odd
      cases odd
    · exact decodeFrom_eq_ok_iff
  rw [onCodes]
  constructor
  · intro written
    rw [(map_codes_eq_iff (ascii_of_written written)).mp rfl]
    exact written
  · intro written
    rw [(map_codes_eq_iff (ascii_of_written written)).mpr rfl]
    exact written

end Hex

end Ratchet
