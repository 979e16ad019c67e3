import Mathlib.Data.List.TakeDrop
import Mathlib.Data.List.TakeWhile
import Ratchet.Proofs.Address.Forms

/-!
# The spellings of an address

An address may be spelled in many ways (`Address.Spelling`): the digits of its
user and of its device are of either case, and the device has four forms. No digit
is a colon, so the first colon of a spelling is the one behind the user, also where
the device brings colons of its own.

Every text that is read is a spelling (`Address.exists_spelling`), every spelling is
read, and what is then written for the address is the spelling in lower case with
hyphens (`Address.exists_parse_text`). Of two faults the user's is told
(`Address.exists_parse_eq_invalidKey`).
-/

set_option autoImplicit false

namespace Ratchet

/-! ## Users -/

namespace UserId

/-- The characters are 64 hexadecimal digits. -/
def Written (characters : List Char) : Prop :=
  characters.length = 64 ∧ ∀ character ∈ characters, Hex.IsDigit character

/-- A text names a user exactly if in lower case it is what is written for the key. -/
theorem parse_eq_ok_iff {text : String} {user : UserId} :
    parse text = .ok user ↔
      text.toList.map Char.toLower = user.identityKey.toBytes.flatMap Hex.pair := by
  rw [← Hex.decode_eq_ok_iff]
  unfold parse
  constructor
  · intro read
    split at read
    case h_1 => cases read
    case h_2 bytes decoded =>
      rw [decoded]
      unfold PublicKey.ofBytes at read
      split at read
      case h_1 octets found =>
        cases read
        exact congrArg Except.ok (Octets.ofList?_eq_some_iff.mp found)
      case h_2 => cases read
  · intro decoded
    rw [decoded]
    exact congrArg (Except.map UserId.mk) user.identityKey.ofBytes_toBytes

/-- 64 digits name a user, who is written as these in lower case. -/
theorem exists_parse {characters : List Char} (written : Written characters) :
    ∃ user, parse (String.ofList characters) = .ok user ∧
      user.toText.toList = characters.map Char.toLower := by
  have length : characters.length = 2 * 32 := written.1
  obtain ⟨octets, digits⟩ := Hex.exists_written_iff.mpr ⟨length, written.2⟩
  refine ⟨⟨⟨octets⟩⟩, parse_eq_ok_iff.mpr ?_, String.toList_ofList.trans digits.symm⟩
  rwa [String.toList_ofList]

/-- Characters name a user exactly if they are 64 digits. -/
theorem exists_parse_iff {characters : List Char} :
    (∃ user, parse (String.ofList characters) = .ok user) ↔ Written characters := by
  constructor
  · rintro ⟨user, read⟩
    have digits := parse_eq_ok_iff.mp read
    rw [String.toList_ofList] at digits
    exact Hex.exists_written_iff.mp ⟨user.identityKey.octets, digits⟩
  · intro written
    obtain ⟨user, read, _⟩ := exists_parse written
    exact ⟨user, read⟩

theorem parse_toText (user : UserId) : parse user.toText = .ok user := by
  rw [parse_eq_ok_iff, toText, PublicKey.toHex, Hex.encode, String.toList_ofList,
    Hex.map_toLower_flatMap_pair]

theorem written_toText (user : UserId) : Written user.toText.toList := by
  rw [← exists_parse_iff, String.ofList_toList]
  exact ⟨user, user.parse_toText⟩

/-- No digit is a colon. -/
theorem Written.colon_notMem {characters : List Char} (written : Written characters) :
    ':' ∉ characters := by
  intro member
  have digit := written.2 ':' member
  revert digit
  decide

end UserId

namespace Address

/-! ## The colon -/

theorem parse_of_notMem {text : String} (missing : ':' ∉ text.toList) :
    parse text = .error (.invalidAddress (.missingColon text)) := by
  have before : ∀ character ∈ text.toList, decide (character ≠ ':') = true :=
    fun character member => decide_eq_true fun colon => missing (colon ▸ member)
  have whole : text.toList.span (· ≠ ':') = (text.toList, []) := by
    rw [List.span_eq_takeWhile_dropWhile, List.takeWhile_eq_self_iff.mpr before,
      List.dropWhile_eq_nil_iff.mpr before]
  unfold parse
  rw [whole]

/-- A text is cut at its first colon. -/
theorem span_append {user device : List Char} (first : ':' ∉ user) :
    (String.ofList (user ++ ':' :: device)).toList.span (· ≠ ':') = (user, ':' :: device) := by
  have before : ∀ character ∈ user, decide (character ≠ ':') = true :=
    fun character member => decide_eq_true fun colon => first (colon ▸ member)
  rw [String.toList_ofList, List.span_eq_takeWhile_dropWhile,
    List.takeWhile_append_of_pos before, List.dropWhile_append_of_pos before]
  simp

theorem parse_append_of_error {user device : List Char} (first : ':' ∉ user) {fault : KeyFault}
    (refused : UserId.parse (String.ofList user) = .error fault) :
    parse (String.ofList (user ++ ':' :: device)) = .error (.invalidKey fault) := by
  simp only [parse, span_append first, refused]

theorem parse_append_of_ok {user device : List Char} (first : ':' ∉ user) {found : UserId}
    (read : UserId.parse (String.ofList user) = .ok found) :
    parse (String.ofList (user ++ ':' :: device)) =
      (DeviceId.parse (String.ofList device)).map (Address.mk found) := by
  simp only [parse, span_append first, read]

/-- A text has no colon or is cut at its first. -/
theorem notMem_or_exists_append (text : String) :
    ':' ∉ text.toList ∨
      ∃ user device, ':' ∉ user ∧ text = String.ofList (user ++ ':' :: device) := by
  by_cases colon : ':' ∈ text.toList
  · obtain ⟨user, device, whole, first⟩ := List.eq_append_cons_of_mem colon
    exact .inr ⟨user, device, first, whole ▸ String.ofList_toList.symm⟩
  · exact .inl colon

/-! ## Spellings -/

/-- A text that names an address, in its parts. -/
structure Spelling where
  user : List Char
  form : DeviceId.Form
  groups : DeviceId.Groups Char
  user_written : UserId.Written user
  groups_digits : ∀ character ∈ groups.digits, Hex.IsDigit character

namespace Spelling

/-- The user, a colon and the device. -/
def text (spelling : Spelling) : String :=
  String.ofList (spelling.user ++ ':' :: spelling.form.around spelling.groups)

/-- The same digits in lower case, those of the device with hyphens. -/
def canonical (spelling : Spelling) : String :=
  String.ofList (spelling.user.map Char.toLower ++
    ':' :: DeviceId.Form.hyphenated.around (spelling.groups.map Char.toLower))

end Spelling

/-- An address is written as its user, a colon and its device. -/
theorem toText_eq (address : Address) :
    address.toText =
      String.ofList (address.user.toText.toList ++ ':' :: address.device.toText.toList) := by
  have colon : ":".toList = [':'] := rfl
  rw [← String.toList_inj, toText, String.toList_append, String.toList_append, colon,
    List.append_assoc, List.singleton_append, String.toList_ofList]

/-- What is written for an address is read as the address. -/
theorem parse_toText (address : Address) : parse address.toText = .ok address := by
  have read : UserId.parse (String.ofList address.user.toText.toList) = .ok address.user := by
    rw [String.ofList_toList, address.user.parse_toText]
  rw [toText_eq, parse_append_of_ok address.user.written_toText.colon_notMem read,
    String.ofList_toList, DeviceId.parse, address.device.parse?_toText]
  rfl

/-- A spelling is read, and what is then written is the spelling in lower case. -/
theorem exists_parse_text (spelling : Spelling) :
    ∃ address, parse spelling.text = .ok address ∧ address.toText = spelling.canonical := by
  obtain ⟨user, userRead, userText⟩ := UserId.exists_parse spelling.user_written
  obtain ⟨device, deviceRead, deviceText⟩ :=
    DeviceId.exists_parse? spelling.form spelling.groups_digits
  refine ⟨⟨user, device⟩, ?_, ?_⟩
  · rw [Spelling.text, parse_append_of_ok spelling.user_written.colon_notMem userRead,
      DeviceId.parse, deviceRead]
    rfl
  · rw [toText_eq, userText, deviceText]
    rfl

/-- A text whose user is none is refused for the user, whatever the device. -/
theorem exists_parse_eq_invalidKey {user : List Char} (first : ':' ∉ user)
    (bad : ¬UserId.Written user) :
    ∃ fault, ∀ device,
      parse (String.ofList (user ++ ':' :: device)) = .error (.invalidKey fault) := by
  cases read : UserId.parse (String.ofList user) with
  | ok found =>
      exact absurd (UserId.exists_parse_iff.mp ⟨found, read⟩) bad
  | error fault => exact ⟨fault, fun device => parse_append_of_error first read⟩

/-- A text whose user is one is refused for a device that is none. -/
theorem parse_eq_badDevice {user device : List Char} (good : UserId.Written user)
    (bad : ¬DeviceId.Written device) :
    parse (String.ofList (user ++ ':' :: device)) =
      .error (.invalidAddress (.badDevice (String.ofList device))) := by
  obtain ⟨found, read, _⟩ := UserId.exists_parse good
  have unread : DeviceId.parse? (String.ofList device) = none := by
    rw [Option.eq_none_iff_forall_ne_some]
    exact fun device read => bad (DeviceId.exists_parse?_iff.mp ⟨device, read⟩)
  rw [parse_append_of_ok good.colon_notMem read, DeviceId.parse, unread]
  rfl

/-- A text that is read is a spelling. -/
theorem exists_spelling {text : String} {address : Address} (read : parse text = .ok address) :
    ∃ spelling : Spelling, spelling.text = text := by
  rcases notMem_or_exists_append text with missing | ⟨user, device, first, rfl⟩
  · rw [parse_of_notMem missing] at read
    cases read
  by_cases goodUser : UserId.Written user
  · by_cases goodDevice : DeviceId.Written device
    · obtain ⟨form, groups, rfl, all⟩ := goodDevice
      exact ⟨⟨user, form, groups, goodUser, all⟩, rfl⟩
    · rw [parse_eq_badDevice goodUser goodDevice] at read
      cases read
  · obtain ⟨fault, refused⟩ := exists_parse_eq_invalidKey first goodUser
    rw [refused device] at read
    cases read

/-- **Recognition of addresses.** What is written for an address is read as the address. A text is
read exactly if it is a spelling, and the address is then written as the spelling in lower case
with hyphens, which is read as the same address. So two texts name one address exactly if what is
written for what they name is the same. A text without a colon is no address; one whose user is
none is refused for the user, whatever the device; one whose user is one and whose device is none
is refused for the device. -/
theorem parse_recognises :
    (∀ address : Address, parse address.toText = .ok address) ∧
      (∀ text : String, (∃ address, parse text = .ok address) ↔
        ∃ spelling : Spelling, spelling.text = text) ∧
      (∀ (spelling : Spelling) (address : Address), parse spelling.text = .ok address →
        address.toText = spelling.canonical ∧ parse spelling.canonical = .ok address) ∧
      (∀ (first second : String) (one other : Address),
        parse first = .ok one → parse second = .ok other →
          (one = other ↔ one.toText = other.toText)) ∧
      (∀ text : String, ':' ∉ text.toList →
        parse text = .error (.invalidAddress (.missingColon text))) ∧
      (∀ user : List Char, ':' ∉ user → ¬UserId.Written user →
        ∃ fault, ∀ device,
          parse (String.ofList (user ++ ':' :: device)) = .error (.invalidKey fault)) ∧
      ∀ user device : List Char, UserId.Written user → ¬DeviceId.Written device →
        parse (String.ofList (user ++ ':' :: device)) =
          .error (.invalidAddress (.badDevice (String.ofList device))) := by
  refine ⟨parse_toText, fun text => ⟨?_, ?_⟩, fun spelling address read => ?_,
    fun first second one other _ _ => ⟨congrArg toText, fun same => ?_⟩,
    fun _ => parse_of_notMem, fun _ => exists_parse_eq_invalidKey, fun _ _ => parse_eq_badDevice⟩
  · rintro ⟨address, read⟩
    exact exists_spelling read
  · rintro ⟨spelling, rfl⟩
    obtain ⟨address, read, _⟩ := exists_parse_text spelling
    exact ⟨address, read⟩
  · obtain ⟨found, readToo, written⟩ := exists_parse_text spelling
    cases read.symm.trans readToo
    exact ⟨written, written ▸ parse_toText address⟩
  · have read := parse_toText other
    rw [← same, parse_toText one] at read
    exact Except.ok.inj read

end Address

end Ratchet
