import Mathlib.Data.List.Basic
import Ratchet.Address.Parse
import Ratchet.Proofs.Octets.Digits

/-!
# The forms of a UUID

The 32 digits of a UUID are five groups (`DeviceId.Groups`). There are four ways to
write the groups: one behind the other, with hyphens between them, so and in
braces, and so and behind `urn:uuid:` (`DeviceId.Form`).

A text names a device exactly if it is some groups in some form and the digits in
lower case are those that are written for the device
(`DeviceId.parse?_eq_some_iff`). The form is lost: a device is written as its own
groups in lower case with hyphens (`DeviceId.toList_toText`).
-/

set_option autoImplicit false

namespace Ratchet

namespace DeviceId

/-! ## Groups -/

/-- Five groups of 8, 4, 4, 4 and 12. -/
@[ext]
structure Groups (α : Type) where
  first : List α
  second : List α
  third : List α
  fourth : List α
  fifth : List α
  length_first : first.length = 8
  length_second : second.length = 4
  length_third : third.length = 4
  length_fourth : fourth.length = 4
  length_fifth : fifth.length = 12

namespace Groups

variable {α β : Type}

/-- The groups one behind the other. -/
def digits (groups : Groups α) : List α :=
  groups.first ++ groups.second ++ groups.third ++ groups.fourth ++ groups.fifth

/-- The groups with a mark between each and the next. -/
def joined (mark : α) (groups : Groups α) : List α :=
  groups.first ++ mark :: (groups.second ++ mark :: (groups.third ++ mark ::
    (groups.fourth ++ mark :: groups.fifth)))

/-- The groups, each digit changed in the same way. -/
def map (change : α → β) (groups : Groups α) : Groups β where
  first := groups.first.map change
  second := groups.second.map change
  third := groups.third.map change
  fourth := groups.fourth.map change
  fifth := groups.fifth.map change
  length_first := by rw [List.length_map, groups.length_first]
  length_second := by rw [List.length_map, groups.length_second]
  length_third := by rw [List.length_map, groups.length_third]
  length_fourth := by rw [List.length_map, groups.length_fourth]
  length_fifth := by rw [List.length_map, groups.length_fifth]

theorem length_digits (groups : Groups α) : groups.digits.length = 32 := by
  simp only [digits, List.length_append, groups.length_first, groups.length_second,
    groups.length_third, groups.length_fourth, groups.length_fifth]

theorem length_joined (mark : α) (groups : Groups α) : (groups.joined mark).length = 36 := by
  simp only [joined, List.length_append, List.length_cons, groups.length_first,
    groups.length_second, groups.length_third, groups.length_fourth, groups.length_fifth]

theorem digits_map (change : α → β) (groups : Groups α) :
    (groups.map change).digits = groups.digits.map change := by
  simp only [digits, map, List.map_append]

theorem joined_map (change : α → β) (mark : α) (groups : Groups α) :
    (groups.map change).joined (change mark) = (groups.joined mark).map change := by
  simp only [joined, map, List.map_append, List.map_cons]

theorem mem_joined {element mark : α} {groups : Groups α} :
    element ∈ groups.joined mark ↔ element = mark ∨ element ∈ groups.digits := by
  simp only [joined, digits, List.mem_append, List.mem_cons]
  tauto

/-- Groups are known by their digits. -/
theorem eq_of_digits {groups others : Groups α} (same : groups.digits = others.digits) :
    groups = others := by
  obtain ⟨same, fifth⟩ :=
    List.append_inj' same (groups.length_fifth.trans others.length_fifth.symm)
  obtain ⟨same, fourth⟩ :=
    List.append_inj' same (groups.length_fourth.trans others.length_fourth.symm)
  obtain ⟨same, third⟩ :=
    List.append_inj' same (groups.length_third.trans others.length_third.symm)
  obtain ⟨first, second⟩ :=
    List.append_inj' same (groups.length_second.trans others.length_second.symm)
  exact Groups.ext first second third fourth fifth

/-- Any 32 digits are five groups. -/
theorem exists_digits {digits : List α} (length : digits.length = 32) :
    ∃ groups : Groups α, groups.digits = digits := by
  let groups : Groups α :=
    { first := digits.take 8
      second := (digits.drop 8).take 4
      third := (digits.drop 12).take 4
      fourth := (digits.drop 16).take 4
      fifth := digits.drop 20
      length_first := by simp [length]
      length_second := by simp [length]
      length_third := by simp [length]
      length_fourth := by simp [length]
      length_fifth := by simp [length] }
  refine ⟨groups, ?_⟩
  simp only [groups, Groups.digits, ← List.take_add, List.take_append_drop]

end Groups

/-! ## Forms -/

/-- A way to write groups of digits. -/
inductive Form where
  /-- The groups one behind the other. -/
  | plain
  /-- Hyphens between the groups. -/
  | hyphenated
  /-- Hyphens between the groups, and braces around. -/
  | braced
  /-- Hyphens between the groups, and in front `urn:uuid:` with letters of either case. -/
  | named (front : List Char) (announced : front.map Char.toLower = "urn:uuid:".toList)

/-- The groups as they are written in this form. -/
def Form.around (groups : Groups Char) : Form → List Char
  | .plain => groups.digits
  | .hyphenated => groups.joined '-'
  | .braced => '\x7b' :: (groups.joined '-' ++ ['\x7d'])
  | .named front _ => front ++ groups.joined '-'

theorem ascii_announcement : ∀ letter ∈ "urn:uuid:".toList, letter.toNat < 128 := by
  have checked : "urn:uuid:".toList.all (fun letter => letter.toNat < 128) = true := by decide
  exact fun letter member => of_decide_eq_true (List.all_eq_true.mp checked letter member)

/-- Around ASCII digits a form puts ASCII characters only. -/
theorem Form.ascii_around {groups : Groups Char} (form : Form)
    (ascii : ∀ character ∈ groups.digits, character.toNat < 128) :
    ∀ character ∈ form.around groups, character.toNat < 128 := by
  have joined : ∀ character ∈ groups.joined '-', character.toNat < 128 := by
    intro character member
    rcases Groups.mem_joined.mp member with rfl | digit
    · decide
    · exact ascii character digit
  cases form with
  | plain => exact ascii
  | hyphenated => exact joined
  | braced =>
      exact List.forall_mem_cons.mpr ⟨by decide,
        List.forall_mem_append.mpr ⟨joined, List.forall_mem_singleton.mpr (by decide)⟩⟩
  | named front announced =>
      refine List.forall_mem_append.mpr ⟨fun character member => ?_, joined⟩
      apply Hex.ascii_of_toLower
      apply ascii_announcement
      rw [← announced]
      exact List.mem_map_of_mem member

/-! ## Cutting at the hyphens -/

/-- A part of known length that starts at some place and ends at a mark. -/
theorem drop_eq_append_iff {α : Type} {list front back : List α} {mark : α} (start : Nat)
    {count : Nat} (length : front.length = count) :
    list.drop start = front ++ mark :: back ↔
      (list.drop start).take count = front ∧ list[start + count]? = some mark ∧
        list.drop (start + count + 1) = back := by
  constructor
  · intro starts
    rw [Nat.add_assoc, ← List.drop_drop, ← List.getElem?_drop, starts, ← length]
    simp
  · rintro ⟨part, stands, rest⟩
    obtain ⟨inside, here⟩ := List.getElem?_eq_some_iff.mp stands
    rw [← part, ← rest, ← here, ← List.drop_eq_getElem_cons inside, ← List.drop_drop,
      List.take_append_drop]

/-- Groups are found in a byte string exactly if they are joined by hyphens there. -/
theorem digitsOfGroups?_eq_some_iff {codes digits : Bytes} :
    digitsOfGroups? codes = some digits ↔
      ∃ groups : Groups UInt8, groups.joined 45 = codes ∧ groups.digits = digits := by
  unfold digitsOfGroups?
  constructor
  · intro found
    split at found
    case isFalse => cases found
    case isTrue fitting =>
      obtain ⟨length, hyphens⟩ := fitting
      have hyphen : ∀ place ∈ [8, 13, 18, 23], codes[place]? = some 45 :=
        fun place among => of_decide_eq_true (List.all_eq_true.mp hyphens place among)
      let groups : Groups UInt8 :=
        { first := codes.take 8
          second := (codes.drop 9).take 4
          third := (codes.drop 14).take 4
          fourth := (codes.drop 19).take 4
          fifth := codes.drop 24
          length_first := by simp [length]
          length_second := by simp [length]
          length_third := by simp [length]
          length_fourth := by simp [length]
          length_fifth := by simp [length] }
      have fourth := (drop_eq_append_iff 19 groups.length_fourth).mpr
        ⟨rfl, hyphen 23 (by decide), rfl⟩
      have third := (drop_eq_append_iff 14 groups.length_third).mpr
        ⟨rfl, hyphen 18 (by decide), fourth⟩
      have second := (drop_eq_append_iff 9 groups.length_second).mpr
        ⟨rfl, hyphen 13 (by decide), third⟩
      have first := (drop_eq_append_iff 0 groups.length_first).mpr
        ⟨rfl, hyphen 8 (by decide), second⟩
      exact ⟨groups, first.symm, Option.some.inj found⟩
  · rintro ⟨groups, rfl, rfl⟩
    have length := groups.length_joined 45
    have starts : (groups.joined 45).drop 0 = groups.joined 45 := rfl
    obtain ⟨first, afterFirst, starts⟩ := (drop_eq_append_iff 0 groups.length_first).mp starts
    obtain ⟨second, afterSecond, starts⟩ := (drop_eq_append_iff 9 groups.length_second).mp starts
    obtain ⟨third, afterThird, starts⟩ := (drop_eq_append_iff 14 groups.length_third).mp starts
    obtain ⟨fourth, afterFourth, fifth⟩ := (drop_eq_append_iff 19 groups.length_fourth).mp starts
    have hyphens : [8, 13, 18, 23].all
        (fun place => (groups.joined 45)[place]? = some 45) = true := by
      simp only [List.all_cons, List.all_nil, Bool.and_true, Bool.and_eq_true, decide_eq_true_eq]
      exact ⟨afterFirst, afterSecond, afterThird, afterFourth⟩
    rw [if_pos ⟨length, hyphens⟩, Groups.digits, ← first, ← second, ← third, ← fourth, ← fifth]
    rfl

theorem map_announcement :
    "urn:uuid:".toUTF8.toList.map Char.ofUInt8 = "urn:uuid:".toList :=
  (map_codes_eq_iff ascii_announcement).mpr rfl

/-- What is unwrapped stood bare, in braces or behind `urn:uuid:`. -/
theorem unwrap_eq_iff {codes inner : Bytes} (length : inner.length = 36) :
    unwrap codes = inner ↔
      codes = inner ∨ codes = 123 :: (inner ++ [125]) ∨
        ∃ front, front.map lowerCase = "urn:uuid:".toUTF8.toList ∧ codes = front ++ inner := by
  unfold unwrap
  constructor
  · intro unwrapped
    split at unwrapped
    case isTrue braces =>
      obtain ⟨length, opening, closing⟩ := braces
      match codes, length, opening, closing with
      | _ :: second :: rest, _, rfl, closing =>
        have closed : (second :: rest).dropLast ++ [125] = second :: rest :=
          List.dropLast_append_getLast? 125 (List.getLast?_cons_cons ▸ closing)
        refine .inr (.inl ?_)
        rw [← unwrapped, List.drop_one, List.tail_cons, closed]
    split at unwrapped
    case isTrue announced =>
      refine .inr (.inr ⟨codes.take 9, announced.2, ?_⟩)
      rw [← unwrapped, List.take_append_drop]
    case isFalse => exact .inl unwrapped
  · rintro (rfl | rfl | ⟨front, announced, rfl⟩)
    · have bare : ¬codes.length = 38 ∧ ¬codes.length = 45 := by
        rw [length]
        decide
      rw [if_neg fun braces => bare.1 braces.1, if_neg fun named => bare.2 named.1]
    · have wrapped : (123 :: (inner ++ [125])).length = 38 := by
        rw [List.length_cons, List.length_append, length]
        rfl
      have closing : (123 :: inner ++ [125]).getLast? = some 125 := List.getLast?_concat
      rw [if_pos ⟨wrapped, rfl, closing⟩]
      exact List.dropLast_concat
    · have short : front.length = 9 := by
        rw [← List.length_map lowerCase, announced, ← List.length_map Char.ofUInt8,
          map_announcement]
        decide
      have wrapped : (front ++ inner).length = 45 := by
        rw [List.length_append, short, length]
      have behind : ((front ++ inner).take 9).map lowerCase = "urn:uuid:".toUTF8.toList := by
        rw [List.take_left' short, announced]
      rw [if_neg fun braces => absurd (wrapped.symm.trans braces.1) (by decide),
        if_pos ⟨wrapped, behind⟩, List.drop_left' short]

/-! ## Reading -/

theorem ofUInt8_injective : Function.Injective Char.ofUInt8 :=
  Function.LeftInverse.injective toUInt8_ofUInt8

theorem ofUInt8_lowerCase : ∀ code : UInt8,
    Char.ofUInt8 (lowerCase code) = (Char.ofUInt8 code).toLower :=
  forall_byte (by decide +kernel)

/-- Bytes announce a UUID exactly if they do so as characters. -/
theorem map_lowerCase_eq_iff {front : Bytes} :
    front.map lowerCase = "urn:uuid:".toUTF8.toList ↔
      (front.map Char.ofUInt8).map Char.toLower = "urn:uuid:".toList := by
  have lowered : (front.map Char.ofUInt8).map Char.toLower =
      (front.map lowerCase).map Char.ofUInt8 := by
    rw [List.map_map, List.map_map]
    exact List.map_congr_left fun code _ => (ofUInt8_lowerCase code).symm
  rw [lowered, ← map_announcement, ofUInt8_injective.list_map.eq_iff]

/-- The digits of a UUID in any of the four forms. -/
def digitsOf? (codes : Bytes) : Option Bytes :=
  if codes.length = 32 then some codes else digitsOfGroups? (unwrap codes)

theorem parse?_eq_bind (text : String) :
    parse? text = (digitsOf? text.toUTF8.toList).bind ofDigits? := by
  simp only [parse?, digitsOf?]
  split
  · rfl
  · rfl

/-- Groups that are unwrapped are found. -/
theorem digitsOf?_of_unwrap {codes : Bytes} {groups : Groups UInt8}
    (unwrapped : unwrap codes = groups.joined 45) : digitsOf? codes = some groups.digits := by
  have bare : codes.length = 32 → unwrap codes = codes := fun short => by simp [unwrap, short]
  have long : codes.length ≠ 32 := fun short => by
    have lengths := groups.length_joined 45
    rw [← unwrapped, bare short, short] at lengths
    cases lengths
  rw [digitsOf?, if_neg long]
  exact digitsOfGroups?_eq_some_iff.mpr ⟨groups, unwrapped.symm, rfl⟩

theorem hyphenated_around (groups : Groups UInt8) :
    Form.hyphenated.around (groups.map Char.ofUInt8) =
      (groups.joined 45).map Char.ofUInt8 :=
  groups.joined_map Char.ofUInt8 45

theorem braced_around (groups : Groups UInt8) :
    Form.braced.around (groups.map Char.ofUInt8) =
      (123 :: (groups.joined 45 ++ [125])).map Char.ofUInt8 := by
  rw [List.map_cons, List.map_append, ← hyphenated_around]
  rfl

theorem named_around (front : Bytes) (groups : Groups UInt8)
    (announced : (front.map Char.ofUInt8).map Char.toLower = "urn:uuid:".toList) :
    (Form.named (front.map Char.ofUInt8) announced).around (groups.map Char.ofUInt8) =
      (front ++ groups.joined 45).map Char.ofUInt8 := by
  rw [List.map_append, ← hyphenated_around]
  rfl

/-- Digits are found in a byte string exactly if they are groups and it is some form of these. -/
theorem digitsOf?_eq_some_iff {codes digits : Bytes} :
    digitsOf? codes = some digits ↔
      ∃ (form : Form) (groups : Groups Char),
        form.around groups = codes.map Char.ofUInt8 ∧ groups.digits = digits.map Char.ofUInt8 := by
  constructor
  · intro found
    unfold digitsOf? at found
    split at found
    case isTrue length =>
      cases found
      obtain ⟨groups, same⟩ := Groups.exists_digits ((List.length_map Char.ofUInt8).trans length)
      exact ⟨.plain, groups, same, same⟩
    case isFalse =>
      obtain ⟨groups, unwrapped, rfl⟩ := digitsOfGroups?_eq_some_iff.mp found
      have same := groups.digits_map Char.ofUInt8
      rcases (unwrap_eq_iff (groups.length_joined 45)).mp unwrapped.symm with
        rfl | rfl | ⟨front, announced, rfl⟩
      · exact ⟨.hyphenated, _, hyphenated_around groups, same⟩
      · exact ⟨.braced, _, braced_around groups, same⟩
      · exact ⟨.named _ (map_lowerCase_eq_iff.mp announced), _, named_around front groups _, same⟩
  · rintro ⟨form, _, written, same⟩
    have length : digits.length = 32 := by
      rw [← List.length_map Char.ofUInt8, ← same, Groups.length_digits]
    obtain ⟨groups, rfl⟩ := Groups.exists_digits length
    obtain rfl := Groups.eq_of_digits (same.trans (groups.digits_map _).symm)
    have unwraps : unwrap codes = groups.joined 45 ↔ _ := unwrap_eq_iff (groups.length_joined 45)
    cases form with
    | plain =>
        have whole := ofUInt8_injective.list_map ((groups.digits_map _).symm.trans written)
        rw [← whole, digitsOf?, if_pos groups.length_digits]
    | hyphenated =>
        have whole := ofUInt8_injective.list_map ((hyphenated_around groups).symm.trans written)
        exact digitsOf?_of_unwrap (unwraps.mpr (.inl whole.symm))
    | braced =>
        have whole := ofUInt8_injective.list_map ((braced_around groups).symm.trans written)
        exact digitsOf?_of_unwrap (unwraps.mpr (.inr (.inl whole.symm)))
    | named _ announced =>
        obtain ⟨front, _, _, rfl, _⟩ := List.map_eq_append_iff.mp written.symm
        have whole := ofUInt8_injective.list_map
          ((named_around front groups announced).symm.trans written)
        exact digitsOf?_of_unwrap
          (unwraps.mpr (.inr (.inr ⟨front, map_lowerCase_eq_iff.mpr announced, whole.symm⟩)))

theorem ofDigits?_eq_some_iff {digits : Bytes} {device : DeviceId} :
    ofDigits? digits = some device ↔
      (digits.map Char.ofUInt8).map Char.toLower = device.uuid.toList.flatMap Hex.pair := by
  rw [List.map_map]
  unfold ofDigits?
  constructor
  · intro read
    split at read
    case h_1 bytes decoded =>
      obtain ⟨octets, same, rfl⟩ := Option.map_eq_some_iff.mp read
      rw [Octets.ofList?_eq_some_iff.mp same] at decoded
      exact Hex.decodeFrom_eq_ok_iff.mp decoded
    case h_2 => cases read
  · intro written
    have decoded : Hex.decodeFrom 0 digits = .ok device.uuid.toList :=
      Hex.decodeFrom_eq_ok_iff.mpr written
    rw [decoded]
    exact congrArg (Option.map DeviceId.mk) device.uuid.ofList?_toList

/-- **Reading a device.** A text names a device exactly if it is some form of groups whose digits
in lower case are those that are written for the device. -/
theorem parse?_eq_some_iff {text : String} {device : DeviceId} :
    parse? text = some device ↔
      ∃ (form : Form) (groups : Groups Char), form.around groups = text.toList ∧
        groups.digits.map Char.toLower = device.uuid.toList.flatMap Hex.pair := by
  rw [parse?_eq_bind, Option.bind_eq_some_iff]
  constructor
  · rintro ⟨digits, found, read⟩
    obtain ⟨form, groups, written, same⟩ := digitsOf?_eq_some_iff.mp found
    rw [ofDigits?_eq_some_iff, ← same] at read
    have ascii := form.ascii_around (Hex.ascii_of_written read)
    exact ⟨form, groups, ((map_codes_eq_iff ascii).mp written.symm).symm, read⟩
  · rintro ⟨form, groups, written, read⟩
    have ascii := Hex.ascii_of_written read
    have codes := (map_codes_eq_iff (form.ascii_around ascii)).mpr written.symm
    have back := map_ofUInt8_toUInt8 ascii
    refine ⟨groups.digits.map Char.toUInt8, ?_, ?_⟩
    · exact digitsOf?_eq_some_iff.mpr ⟨form, groups, codes.symm, back.symm⟩
    · rw [ofDigits?_eq_some_iff, back, read]

/-! ## Writing -/

/-- The digits of `count` bytes of a device. -/
def digitsFrom (device : DeviceId) (start count : Nat) : List Char :=
  ((device.uuid.toList.drop start).take count).flatMap Hex.pair

theorem length_digitsFrom (device : DeviceId) {start count : Nat} (inside : start + count ≤ 16) :
    (device.digitsFrom start count).length = 2 * count := by
  have enough : count ≤ device.uuid.toList.length - start := by
    rw [device.uuid.length_toList]
    exact Nat.le_sub_of_add_le' inside
  rw [digitsFrom, Hex.length_flatMap_pair, List.length_take_of_le (by rwa [List.length_drop])]

/-- The digits of a device in groups. -/
def groups (device : DeviceId) : Groups Char where
  first := device.digitsFrom 0 4
  second := device.digitsFrom 4 2
  third := device.digitsFrom 6 2
  fourth := device.digitsFrom 8 2
  fifth := device.digitsFrom 10 6
  length_first := device.length_digitsFrom (by decide)
  length_second := device.length_digitsFrom (by decide)
  length_third := device.length_digitsFrom (by decide)
  length_fourth := device.length_digitsFrom (by decide)
  length_fifth := device.length_digitsFrom (by decide)

theorem digits_groups (device : DeviceId) :
    device.groups.digits = device.uuid.toList.flatMap Hex.pair := by
  have whole : device.uuid.toList.take 16 = device.uuid.toList :=
    List.take_of_length_le (Nat.le_of_eq device.uuid.length_toList)
  simp only [Groups.digits, groups, digitsFrom, List.drop_zero, ← List.flatMap_append,
    ← List.take_add]
  rw [whole]

/-- A device is written as its groups with hyphens. -/
theorem toList_toText (device : DeviceId) :
    device.toText.toList = Form.hyphenated.around device.groups := by
  simp only [toText, String.toList_intercalate, List.map_cons, List.map_nil, Hex.encode,
    String.toList_ofList, List.intercalate_cons_cons, List.intercalate_singleton, List.append_assoc]
  rfl

/-- What is written for a device is read as the device. -/
theorem parse?_toText (device : DeviceId) : parse? device.toText = some device := by
  refine parse?_eq_some_iff.mpr ⟨.hyphenated, device.groups, device.toList_toText.symm, ?_⟩
  rw [digits_groups, Hex.map_toLower_flatMap_pair]

/-! ## The texts that name a device -/

/-- The characters are groups of digits in one of the four forms. -/
def Written (characters : List Char) : Prop :=
  ∃ (form : Form) (groups : Groups Char),
    form.around groups = characters ∧ ∀ character ∈ groups.digits, Hex.IsDigit character

/-- Groups of digits are read in every form, and written in lower case with hyphens. -/
theorem exists_parse? {groups : Groups Char} (form : Form)
    (all : ∀ character ∈ groups.digits, Hex.IsDigit character) :
    ∃ device, parse? (String.ofList (form.around groups)) = some device ∧
      device.toText.toList = Form.hyphenated.around (groups.map Char.toLower) := by
  have length : groups.digits.length = 2 * 16 := groups.length_digits
  obtain ⟨bytes, read⟩ := Hex.exists_written_iff.mpr ⟨length, all⟩
  have same : groups.map Char.toLower = DeviceId.groups ⟨bytes⟩ := by
    apply Groups.eq_of_digits
    rw [Groups.digits_map, read, digits_groups]
  refine ⟨⟨bytes⟩, parse?_eq_some_iff.mpr ⟨form, groups, String.toList_ofList.symm, read⟩, ?_⟩
  rw [toList_toText, same]

/-- Characters name a device exactly if they are groups of digits in one of the four forms. -/
theorem exists_parse?_iff {characters : List Char} :
    (∃ device, parse? (String.ofList characters) = some device) ↔ Written characters := by
  constructor
  · rintro ⟨device, read⟩
    obtain ⟨form, groups, written, digits⟩ := parse?_eq_some_iff.mp read
    rw [String.toList_ofList] at written
    exact ⟨form, groups, written, Hex.isDigit_of_written digits⟩
  · rintro ⟨form, groups, rfl, all⟩
    obtain ⟨device, read, _⟩ := exists_parse? form all
    exact ⟨device, read⟩

end DeviceId

end Ratchet
