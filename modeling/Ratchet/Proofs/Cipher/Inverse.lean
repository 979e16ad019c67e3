import Ratchet.Cipher.Message

/-!
# Decryption undoes encryption

Each step of the block cipher is undone by the step beside it. The only one of
which this is not plain is the mixing of columns: doubling is additive
(`double_xor`), so mixing and unmixing are sums of repeated doublings of the
four bytes, and in the product of the two polynomials all but one of these
cancel (`Column.unmix_mix`). The rounds are undone one after another
(`RoundKeys.decrypt_encrypt`), then the chained blocks and the padding, so a
body decrypts to the text it was made of (`decryptBody_encryptBody`).
-/

set_option autoImplicit false

namespace Ratchet

namespace Cipher

/-! ## Doubling -/

/-- The reduction in a doubling depends on the highest bit alone. -/
theorem double_eq : ∀ byte : UInt8, double byte = (byte <<< 1) ^^^ (byte >>> 7 * (0x1B : UInt8)) :=
  forall_byte (by decide +kernel)

theorem shiftRight_seven : ∀ byte : UInt8, byte >>> 7 = 0 ∨ byte >>> 7 = 1 :=
  forall_byte (by decide +kernel)

theorem xor_xor_xor_comm (first second third fourth : UInt8) :
    (first ^^^ second) ^^^ (third ^^^ fourth) = (first ^^^ third) ^^^ (second ^^^ fourth) := by
  rw [UInt8.xor_assoc, UInt8.xor_assoc, ← UInt8.xor_assoc second, UInt8.xor_comm second,
    UInt8.xor_assoc third]

/-- Doubling is additive. -/
theorem double_xor (left right : UInt8) :
    double (left ^^^ right) = double left ^^^ double right := by
  have reduced : ((left >>> 7) ^^^ (right >>> 7)) * (0x1B : UInt8) =
      (left >>> 7 * (0x1B : UInt8)) ^^^ (right >>> 7 * (0x1B : UInt8)) := by
    rcases shiftRight_seven left with first | first <;>
      rcases shiftRight_seven right with second | second <;>
      · rw [first, second]
        rfl
  rw [double_eq, double_eq, double_eq, UInt8.shiftLeft_xor, UInt8.shiftRight_xor, reduced,
    xor_xor_xor_comm]

theorem ninefold_xor (left right : UInt8) :
    ninefold (left ^^^ right) = ninefold left ^^^ ninefold right := by
  simp only [ninefold, double_xor, xor_xor_xor_comm]

theorem elevenfold_xor (left right : UInt8) :
    elevenfold (left ^^^ right) = elevenfold left ^^^ elevenfold right := by
  simp only [elevenfold, double_xor, xor_xor_xor_comm]

theorem thirteenfold_xor (left right : UInt8) :
    thirteenfold (left ^^^ right) = thirteenfold left ^^^ thirteenfold right := by
  simp only [thirteenfold, double_xor, xor_xor_xor_comm]

theorem fourteenfold_xor (left right : UInt8) :
    fourteenfold (left ^^^ right) = fourteenfold left ^^^ fourteenfold right := by
  simp only [fourteenfold, double_xor, xor_xor_xor_comm]

/-! ## The steps of a round -/

/-- The coefficients of the product of the two polynomials. -/
theorem product_one : ∀ byte, fourteenfold (double byte) ^^^ elevenfold byte ^^^
    thirteenfold byte ^^^ ninefold (triple byte) = byte :=
  forall_byte (by decide +kernel)

theorem product_x : ∀ byte, fourteenfold (triple byte) ^^^ elevenfold (double byte) ^^^
    thirteenfold byte ^^^ ninefold byte = 0 :=
  forall_byte (by decide +kernel)

theorem product_x_squared : ∀ byte, fourteenfold byte ^^^ elevenfold (triple byte) ^^^
    thirteenfold (double byte) ^^^ ninefold byte = 0 :=
  forall_byte (by decide +kernel)

theorem product_x_cubed : ∀ byte, fourteenfold byte ^^^ elevenfold byte ^^^
    thirteenfold (triple byte) ^^^ ninefold (double byte) = 0 :=
  forall_byte (by decide +kernel)

/-- One byte of a column that was mixed and unmixed; the other bytes are the same
with the column turned. -/
theorem unmix_mix_byte (a b c d : UInt8) :
    fourteenfold (double a ^^^ triple b ^^^ c ^^^ d) ^^^
      elevenfold (a ^^^ double b ^^^ triple c ^^^ d) ^^^
      thirteenfold (a ^^^ b ^^^ double c ^^^ triple d) ^^^
      ninefold (triple a ^^^ b ^^^ c ^^^ double d) = a := by
  simp only [fourteenfold_xor, elevenfold_xor, thirteenfold_xor, ninefold_xor]
  calc _ = (fourteenfold (double a) ^^^ elevenfold a ^^^ thirteenfold a ^^^ ninefold (triple a)) ^^^
        (fourteenfold (triple b) ^^^ elevenfold (double b) ^^^ thirteenfold b ^^^ ninefold b) ^^^
        (fourteenfold c ^^^ elevenfold (triple c) ^^^ thirteenfold (double c) ^^^ ninefold c) ^^^
        (fourteenfold d ^^^ elevenfold d ^^^ thirteenfold (triple d) ^^^ ninefold (double d)) := by
        ac_rfl
    _ = a := by
        rw [product_one, product_x, product_x_squared, product_x_cubed, UInt8.xor_zero,
          UInt8.xor_zero, UInt8.xor_zero]

/-- The two polynomials are inverse to each other. -/
@[simp]
theorem Column.unmix_mix (column : Column) : column.mix.unmix = column := by
  obtain ⟨a, b, c, d⟩ := column
  simp only [mix, unmix, Column.mk.injEq]
  refine ⟨unmix_mix_byte a b c d, ?_, ?_, ?_⟩
  · refine Eq.trans ?_ (unmix_mix_byte b c d a)
    ac_rfl
  · refine Eq.trans ?_ (unmix_mix_byte c d a b)
    ac_rfl
  · refine Eq.trans ?_ (unmix_mix_byte d a b c)
    ac_rfl

@[simp]
theorem Block.map_map (first second : Column → Column) (block : Block) :
    (block.map first).map second = block.map fun column => second (first column) := rfl

theorem Block.map_of_forall {change : Column → Column} (same : ∀ column, change column = column)
    (block : Block) : block.map change = block := by
  simp only [map, same]

theorem Column.restore_replace (column : Column) :
    (column.map replace).map restore = column := by
  simp only [map, Cipher.restore_replace]

/-- A middle round taken back. -/
theorem Block.unround_round (block key : Block) : Block.unround key (block.round key) = block := by
  simp only [unround, round]
  rw [xor_xor_cancel, map_map, map_of_forall Column.unmix_mix, unturn_turn, map_map,
    map_of_forall Column.restore_replace]

/-- The last round taken back. -/
theorem Block.unlastRound_lastRound (block key : Block) :
    Block.unlastRound key (block.lastRound key) = block := by
  simp only [unlastRound, lastRound]
  rw [xor_xor_cancel, unturn_turn, map_map, map_of_forall Column.restore_replace]

/-! ## The cipher -/

/-- The middle rounds taken back, the last one first. -/
theorem foldr_unround_foldl_round (keys : List Block) (block : Block) :
    keys.foldr Block.unround (keys.foldl Block.round block) = block := by
  induction keys generalizing block with
  | nil => rfl
  | cons key rest ih =>
      rw [List.foldl_cons, List.foldr_cons, ih, Block.unround_round]

theorem RoundKeys.decrypt_encrypt (keys : RoundKeys) (block : Block) :
    keys.decrypt (keys.encrypt block) = block := by
  simp only [decrypt, encrypt]
  rw [Block.unlastRound_lastRound, foldr_unround_foldl_round, Block.xor_xor_cancel]

/-! ## Messages -/

/-- Four bytes are the bytes of their column. -/
theorem Column.toBytes_ofBytes {bytes : Bytes} (enough : 4 ≤ bytes.length) :
    (Column.ofBytes bytes).toBytes = bytes.take 4 := by
  match bytes, enough with
  | _ :: _ :: _ :: _ :: _, _ => rfl

/-- Sixteen bytes are the bytes of their block. -/
theorem Block.toBytes_ofBytes {bytes : Bytes} (enough : 16 ≤ bytes.length) :
    (Block.ofBytes bytes).toBytes = bytes.take 16 := by
  simp only [ofBytes, toBytes]
  rw [Column.toBytes_ofBytes (by omega), Column.toBytes_ofBytes (by rw [List.length_drop]; omega),
    Column.toBytes_ofBytes (by rw [List.length_drop]; omega),
    Column.toBytes_ofBytes (by rw [List.length_drop]; omega)]
  have joined : ∀ start count, start + count ≤ 16 →
      bytes.take start ++ (bytes.drop start).take count = bytes.take (start + count) :=
    fun start count _ => List.take_add.symm
  rw [← List.append_assoc, joined 4 4 (by omega), ← List.append_assoc, joined 8 4 (by omega),
    joined 12 4 (by omega)]

/-- Whole blocks that are cut and written out are the same bytes. -/
theorem Block.join_cut (count : Nat) {bytes : Bytes} (whole : bytes.length = 16 * count) :
    Block.join (Block.cut count bytes) = bytes := by
  induction count generalizing bytes with
  | zero => exact (List.eq_nil_of_length_eq_zero whole).symm
  | succ count ih =>
      have rest : Block.join (Block.cut count (bytes.drop 16)) = bytes.drop 16 :=
        ih (by rw [List.length_drop]; omega)
      rw [cut, join, List.flatMap_cons, toBytes_ofBytes (by omega)]
      rw [join] at rest
      rw [rest, List.take_append_drop]

theorem Block.join_split {bytes : Bytes} (whole : 16 ∣ bytes.length) :
    Block.join (Block.split bytes) = bytes :=
  Block.join_cut _ (Nat.mul_div_cancel' whole).symm

theorem Block.length_split (bytes : Bytes) : (Block.split bytes).length = bytes.length / 16 := by
  have cut : ∀ (count : Nat) (bytes : Bytes), (Block.cut count bytes).length = count := by
    intro count
    induction count with
    | zero => exact fun _ => rfl
    | succ count ih => exact fun bytes => congrArg (· + 1) (ih _)
  exact cut _ _

theorem whole_pad (message : Bytes) : 16 ∣ (pad message).length :=
  ⟨_, length_pad message⟩

/-- The encrypted form of a message has one block more than the message fills. -/
theorem length_encrypt (permutation : Permutation) (vector : Block) (message : Bytes) :
    (encrypt permutation vector message).length = 16 * (message.length / 16 + 1) := by
  rw [encrypt, Block.length_join, length_encryptBlocks, Block.length_split, length_pad,
    Nat.mul_div_cancel_left _ (by decide)]

/-- A text comes back out of its encrypted form. -/
theorem decrypt_encrypt {permutation : Permutation}
    (inverse : ∀ block, permutation.decrypt (permutation.encrypt block) = block)
    (vector : Block) (message : Bytes) :
    decrypt permutation vector (encrypt permutation vector message) = .ok message := by
  have whole : ¬((encrypt permutation vector message).length = 0 ∨
      (encrypt permutation vector message).length % 16 ≠ 0) := by
    rw [length_encrypt]
    omega
  rw [decrypt, if_neg whole, encrypt, Block.split_join, decryptBlocks_encryptBlocks inverse,
    Block.join_split (whole_pad message), unpad?_pad]

end Cipher

/-- **A body decrypts to the text it was made of.** -/
theorem decryptBody_encryptBody (key : Octets 32) (vector : Octets 16) (message : Bytes) :
    decryptBody key vector (encryptBody key vector message) = .ok message :=
  Cipher.decrypt_encrypt (Cipher.RoundKeys.ofKey key).decrypt_encrypt _ message

end Ratchet
