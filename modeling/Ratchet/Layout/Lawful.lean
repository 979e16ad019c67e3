import Ratchet.Layout.Basic

/-!
# Lawful layouts

The building blocks are lawful, and putting lawful layouts together gives lawful
layouts. For a sequence this rests on two facts: as many values are read as were
written (`Layout.decodeMany_flatMap_append`), and there are never more values
than bytes (`Layout.length_le_length_flatMap`), so a sequence in fewer than
`2 ^ 64` bytes has a length that fits.
-/

set_option autoImplicit false

namespace Ratchet

namespace Layout

variable {α β : Type}

/-! ## Fixed lengths -/

theorem lawful_octets {n : Nat} (positive : 0 < n) : (octets n).Lawful where
  encode_ne_nil value empty := by
    have length := value.length_toList
    have none : value.toList = [] := empty
    rw [none] at length
    simp at length
    omega
  decode_encode_append value rest _ := by
    simp [octets]
  eq_encode_append bytes value rest read := by
    simp only [octets, Option.map_eq_some_iff, Octets.ofList?_eq_some_iff, Prod.mk.injEq] at read
    obtain ⟨found, taken, rfl, rfl⟩ := read
    have whole : bytes.take n ++ bytes.drop n = bytes := List.take_append_drop n bytes
    rw [taken] at whole
    exact whole.symm

theorem lawful_via {layout : Layout α} {forth : α → β} {back : β → α} (lawful : layout.Lawful)
    (forth_back : ∀ value, forth (back value) = value)
    (back_forth : ∀ value, back (forth value) = value) :
    (layout.via forth back).Lawful where
  encode_ne_nil value := lawful.encode_ne_nil (back value)
  decode_encode_append value rest short := by
    simp [via, lawful.decode_encode_append (back value) rest short, forth_back]
  eq_encode_append bytes value rest read := by
    simp only [via, Option.map_eq_some_iff, Prod.mk.injEq] at read
    obtain ⟨⟨found, _⟩, inner, rfl, rfl⟩ := read
    simp [via, back_forth, lawful.eq_encode_append _ _ _ inner]

theorem lawful_byte : byte.Lawful where
  encode_ne_nil value := by simp [byte]
  decode_encode_append value rest _ := rfl
  eq_encode_append bytes value rest read := by
    cases bytes with
    | nil => simp [byte] at read
    | cons first later =>
      simp only [byte, Option.some.injEq, Prod.mk.injEq] at read
      obtain ⟨rfl, rfl⟩ := read
      rfl

theorem lawful_word : word.Lawful := by
  apply lawful_via (lawful_octets (by decide))
  · intro value
    apply UInt32.toNat_inj.1
    have bound := value.toNat_lt
    rw [Octets.toNat_ofNat, Nat.pow_eq, UInt32.toNat_ofNat']
    omega
  · intro value
    have bound := value.toNat_lt
    rw [UInt32.toNat_ofNat', Nat.mod_eq_of_lt (by omega), Octets.ofNat_toNat]

theorem lawful_long : long.Lawful := by
  apply lawful_via (lawful_octets (by decide))
  · intro value
    apply UInt64.toNat_inj.1
    have bound := value.toNat_lt
    rw [Octets.toNat_ofNat, Nat.pow_eq, UInt64.toNat_ofNat']
    omega
  · intro value
    have bound := value.toNat_lt
    rw [UInt64.toNat_ofNat', Nat.mod_eq_of_lt (by omega), Octets.ofNat_toNat]

/-! ## Pairs and missing values -/

theorem lawful_pair {first : Layout α} {second : Layout β} (front : first.Lawful)
    (back : second.Lawful) : (first.pair second).Lawful where
  encode_ne_nil value := by
    simp [pair, front.encode_ne_nil]
  decode_encode_append value rest short := by
    simp only [pair, List.length_append] at short
    simp only [pair, List.append_assoc]
    rw [front.decode_encode_append _ _ (by omega)]
    simp only [Option.bind_eq_bind, Option.bind_some]
    rw [back.decode_encode_append _ _ (by omega)]
    rfl
  eq_encode_append bytes value rest read := by
    simp only [pair, Option.bind_eq_bind, Option.bind_eq_some_iff, Option.pure_def,
      Option.some.injEq, Prod.mk.injEq] at read
    obtain ⟨⟨left, middle⟩, readLeft, ⟨right, last⟩, readRight, rfl, rfl⟩ := read
    dsimp only at readRight ⊢
    rw [front.eq_encode_append _ _ _ readLeft, back.eq_encode_append _ _ _ readRight]
    simp [pair]

theorem lawful_option {layout : Layout α} (lawful : layout.Lawful) : layout.option.Lawful where
  encode_ne_nil value := by cases value <;> simp [option]
  decode_encode_append value rest short := by
    cases value with
    | none => rfl
    | some value =>
      simp only [option, List.length_cons] at short
      simp [option, lawful.decode_encode_append value rest (by omega)]
  eq_encode_append bytes value rest read := by
    simp only [option] at read
    split at read
    · cases read
      rfl
    · simp only [Option.map_eq_some_iff, Prod.mk.injEq] at read
      obtain ⟨⟨found, last⟩, inner, rfl, rfl⟩ := read
      simp [option, lawful.eq_encode_append _ _ _ inner]
    · cases read

/-! ## Sequences -/

/-- Values that each take a byte are no more than the bytes they take. -/
theorem length_le_length_flatMap {layout : Layout α} (lawful : layout.Lawful)
    (values : List α) : values.length ≤ (values.flatMap layout.encode).length := by
  induction values with
  | nil => simp
  | cons value values hypothesis =>
    have positive := List.length_pos_iff.2 (lawful.encode_ne_nil value)
    simp only [List.flatMap_cons, List.length_append, List.length_cons]
    omega

/-- Values that were written one after another are read back. -/
theorem decodeMany_flatMap_append {layout : Layout α} (lawful : layout.Lawful) (values : List α)
    (rest : Bytes) (short : (values.flatMap layout.encode).length < Nat.pow 2 64) :
    layout.decodeMany values.length (values.flatMap layout.encode ++ rest) =
      some (values, rest) := by
  induction values with
  | nil => rfl
  | cons value values hypothesis =>
    simp only [List.flatMap_cons, List.length_append] at short
    simp only [List.flatMap_cons, List.length_cons, List.append_assoc, decodeMany]
    rw [lawful.decode_encode_append _ _ (by omega)]
    simp [hypothesis (by omega)]

/-- Values that are read one after another are what would be written, and as many as were asked. -/
theorem eq_flatMap_append_of_decodeMany {layout : Layout α} (lawful : layout.Lawful)
    (count : Nat) (bytes : Bytes) (values : List α) (rest : Bytes)
    (read : layout.decodeMany count bytes = some (values, rest)) :
    values.length = count ∧ bytes = values.flatMap layout.encode ++ rest := by
  induction count generalizing bytes values with
  | zero =>
    simp only [decodeMany, Option.some.injEq, Prod.mk.injEq] at read
    obtain ⟨rfl, rfl⟩ := read
    exact ⟨rfl, rfl⟩
  | succ count hypothesis =>
    simp only [decodeMany, Option.bind_eq_bind, Option.bind_eq_some_iff, Option.pure_def,
      Option.some.injEq, Prod.mk.injEq] at read
    obtain ⟨⟨value, middle⟩, front, ⟨later, last⟩, back, rfl, rfl⟩ := read
    dsimp only at back
    obtain ⟨rfl, whole⟩ := hypothesis _ _ back
    dsimp only at whole ⊢
    rw [lawful.eq_encode_append _ _ _ front, whole]
    simp

/-- A length that fits in eight bytes is read back. -/
theorem long_decode_littleEndian (count : Nat) (short : count < Nat.pow 2 64) (rest : Bytes) :
    long.decode (littleEndian 8 count ++ rest) = some (.ofNat count, rest) := by
  have stored : littleEndian 8 count = long.encode (.ofNat count) := by
    show littleEndian 8 count = littleEndian 8 (UInt64.ofNat count).toNat
    rw [UInt64.toNat_ofNat', Nat.mod_eq_of_lt short]
  rw [stored]
  exact lawful_long.decode_encode_append _ rest (by simp [long, via, octets])

/-- A length that is read is what would be written. -/
theorem eq_littleEndian_append {bytes : Bytes} {count : UInt64} {rest : Bytes}
    (read : long.decode bytes = some (count, rest)) :
    bytes = littleEndian 8 count.toNat ++ rest :=
  lawful_long.eq_encode_append _ _ _ read

theorem lawful_list {layout : Layout α} (lawful : layout.Lawful) : layout.list.Lawful where
  encode_ne_nil values empty := by
    have length : (layout.list.encode values).length = 0 := by rw [empty]; rfl
    simp [list] at length
  decode_encode_append values rest short := by
    simp only [list, List.length_append, length_littleEndian] at short
    have bound := length_le_length_flatMap lawful values
    simp only [list, List.append_assoc]
    rw [long_decode_littleEndian _ (by omega)]
    simp only [Option.bind_eq_bind, Option.bind_some, UInt64.toNat_ofNat', ← Nat.pow_eq]
    rw [Nat.mod_eq_of_lt (by omega)]
    exact decodeMany_flatMap_append lawful values rest (by omega)
  eq_encode_append bytes values rest read := by
    simp only [list, Option.bind_eq_bind, Option.bind_eq_some_iff] at read
    obtain ⟨⟨count, middle⟩, front, back⟩ := read
    dsimp only at back
    obtain ⟨length, whole⟩ := eq_flatMap_append_of_decodeMany lawful _ _ _ _ back
    simp [list, eq_littleEndian_append front, whole, length]

theorem lawful_bytes : bytes.Lawful where
  encode_ne_nil value empty := by
    have length : (bytes.encode value).length = 0 := by rw [empty]; rfl
    simp [bytes] at length
  decode_encode_append value rest short := by
    simp only [bytes, List.length_append, length_littleEndian] at short
    simp only [bytes, List.append_assoc]
    rw [long_decode_littleEndian _ (by omega)]
    simp only [Option.bind_eq_bind, Option.bind_some, UInt64.toNat_ofNat', ← Nat.pow_eq]
    rw [Nat.mod_eq_of_lt (by omega)]
    simp
  eq_encode_append stored value rest read := by
    simp only [bytes, Option.bind_eq_bind, Option.bind_eq_some_iff] at read
    obtain ⟨⟨count, middle⟩, front, back⟩ := read
    split at back
    · rename_i fits
      simp only [Option.pure_def, Option.some.injEq, Prod.mk.injEq] at back
      obtain ⟨rfl, rfl⟩ := back
      simp [bytes, eq_littleEndian_append front, Nat.min_eq_left fits]
    · cases back

end Layout

end Ratchet
