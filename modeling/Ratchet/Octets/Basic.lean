/-!
# Byte strings and byte strings of a fixed length

A byte string is a list of bytes. Keys, hash values, message authentication
codes and initialisation vectors have a length that never varies, and
`Octets n` is the type of the byte strings of length `n`: a function that
returns one has proved the length, and a function that takes one need not ask.

Two of them are equal exactly when their bytes are (`Octets.ext`), and reading a
byte string as one of length `n` succeeds exactly when it has that length
(`Octets.ofList?_eq_some_iff`).

There are 256 bytes, so a property of every byte can be checked byte by byte
(`forall_byte`).
-/

set_option autoImplicit false

namespace Ratchet

/-- A byte string, first byte first. -/
abbrev Bytes := List UInt8

/-- A property of every byte, checked byte by byte. -/
theorem forall_byte {property : UInt8 → Prop}
    (holds : ∀ number : Fin 256, property (UInt8.ofFin number)) (byte : UInt8) : property byte :=
  holds byte.toFin

/-- A byte string of exactly `n` bytes. -/
structure Octets (n : Nat) where
  /-- The bytes, first byte first. -/
  toList : Bytes
  /-- There are `n` of them. -/
  length_toList : toList.length = n

namespace Octets

variable {n m : Nat}

attribute [simp] length_toList

/-- Equality of the bytes is equality. -/
@[ext]
theorem ext : ∀ {first second : Octets n}, first.toList = second.toList → first = second
  | ⟨_, _⟩, ⟨_, _⟩, rfl => rfl

theorem toList_inj {first second : Octets n} : first.toList = second.toList ↔ first = second :=
  ⟨ext, fun equal => equal ▸ rfl⟩

instance : DecidableEq (Octets n) := fun first second =>
  decidable_of_iff (first.toList = second.toList) toList_inj

/-! ## Reading a byte string -/

/-- The byte string as one of length `n`, when it has that length. -/
def ofList? (bytes : Bytes) : Option (Octets n) :=
  if length : bytes.length = n then some ⟨bytes, length⟩ else none

theorem ofList?_eq_some_iff {bytes : Bytes} {octets : Octets n} :
    ofList? bytes = some octets ↔ bytes = octets.toList := by
  unfold ofList?
  constructor
  · intro read
    split at read
    · cases read
      rfl
    · cases read
  · rintro rfl
    simp

@[simp]
theorem ofList?_toList (octets : Octets n) : ofList? octets.toList = some octets :=
  ofList?_eq_some_iff.2 rfl

/-! ## Making and cutting -/

/-- The byte string that repeats one byte `n` times. -/
def replicate (n : Nat) (byte : UInt8) : Octets n :=
  ⟨List.replicate n byte, List.length_replicate⟩

@[simp]
theorem toList_replicate (byte : UInt8) :
    (replicate n byte).toList = List.replicate n byte := rfl

instance : Inhabited (Octets n) := ⟨replicate n 0⟩

/-- The first `m` bytes of a byte string of length `m + n`. -/
def take (octets : Octets (m + n)) : Octets m :=
  ⟨octets.toList.take m, by simp⟩

/-- What follows the first `m` bytes of a byte string of length `m + n`. -/
def drop (octets : Octets (m + n)) : Octets n :=
  ⟨octets.toList.drop m, by simp⟩

@[simp]
theorem toList_take (octets : Octets (m + n)) : octets.take.toList = octets.toList.take m := rfl

@[simp]
theorem toList_drop (octets : Octets (m + n)) : octets.drop.toList = octets.toList.drop m := rfl

/-- One byte string behind another. -/
def append (first : Octets m) (second : Octets n) : Octets (m + n) :=
  ⟨first.toList ++ second.toList, by simp⟩

@[simp]
theorem toList_append (first : Octets m) (second : Octets n) :
    (first.append second).toList = first.toList ++ second.toList := rfl

@[simp]
theorem take_append (first : Octets m) (second : Octets n) :
    (first.append second).take = first :=
  ext (by simp)

@[simp]
theorem drop_append (first : Octets m) (second : Octets n) :
    (first.append second).drop = second :=
  ext (by simp)

/-! ## Order -/

/-- Byte strings of one length are ordered as their bytes are, the first difference deciding. -/
instance : LT (Octets n) := ⟨fun first second => first.toList < second.toList⟩

instance (first second : Octets n) : Decidable (first < second) :=
  inferInstanceAs (Decidable (first.toList < second.toList))

end Octets

end Ratchet
