import Ratchet.Octets.Integer

/-!
# Stored forms

A layout says how values of a type are stored: how one is written, and how one
is read off the front of a byte string together with what follows. Numbers are
stored least significant byte first in their full width, a missing value as a
zero byte and a present one behind a one, and a sequence behind its length in
eight bytes.

A layout is lawful when writing and reading undo each other (`Layout.Lawful`):
what was written is read back whatever follows it, and what can be read is
exactly what would be written. Since a length takes eight bytes, only what was
written in fewer than `2 ^ 64` bytes is sure to be read back. A lawful layout
takes at least one byte for every value, so that this bounds every sequence in
the value too.
-/

set_option autoImplicit false

namespace Ratchet

/-- How values of a type are stored. -/
structure Layout (α : Type) where
  /-- The stored form of a value. -/
  encode : α → Bytes
  /-- The value at the front of a byte string, and what follows it. -/
  decode : Bytes → Option (α × Bytes)

namespace Layout

variable {α β : Type}

/-- Writing and reading undo each other. -/
structure Lawful (layout : Layout α) : Prop where
  /-- Every value takes at least one byte. -/
  encode_ne_nil : ∀ value, layout.encode value ≠ []
  /-- What was written in fewer than `2 ^ 64` bytes is read back, whatever follows. -/
  decode_encode_append : ∀ value rest, (layout.encode value).length < Nat.pow 2 64 →
    layout.decode (layout.encode value ++ rest) = some (value, rest)
  /-- What can be read is what would be written. -/
  eq_encode_append : ∀ bytes value rest,
    layout.decode bytes = some (value, rest) → bytes = layout.encode value ++ rest

/-- The value stored at the front of a byte string; what follows it is ignored. -/
def read? (layout : Layout α) (bytes : Bytes) : Option α := (layout.decode bytes).map Prod.fst

/-! ## Building blocks -/

/-- Byte strings of a fixed length, as they are. -/
def octets (n : Nat) : Layout (Octets n) where
  encode value := value.toList
  decode bytes := (Octets.ofList? (bytes.take n)).map fun value => (value, bytes.drop n)

/-- A layout carried over to a type whose values correspond to those of the first. -/
def via (layout : Layout α) (forth : α → β) (back : β → α) : Layout β where
  encode value := layout.encode (back value)
  decode bytes := (layout.decode bytes).map fun (value, rest) => (forth value, rest)

/-- One byte. -/
def byte : Layout UInt8 where
  encode value := [value]
  decode
    | [] => none
    | value :: rest => some (value, rest)

/-- A number of 32 bits in four bytes. -/
def word : Layout UInt32 :=
  (octets 4).via (fun value => UInt32.ofNat value.toNat) fun value => Octets.ofNat 4 value.toNat

/-- A number of 64 bits in eight bytes. -/
def long : Layout UInt64 :=
  (octets 8).via (fun value => UInt64.ofNat value.toNat) fun value => Octets.ofNat 8 value.toNat

/-- Two values, one after the other. -/
def pair (first : Layout α) (second : Layout β) : Layout (α × β) where
  encode value := first.encode value.1 ++ second.encode value.2
  decode bytes := do
    let (left, rest) ← first.decode bytes
    let (right, rest) ← second.decode rest
    return ((left, right), rest)

/-- A value that may be missing. -/
def option (layout : Layout α) : Layout (Option α) where
  encode
    | none => [0]
    | some value => 1 :: layout.encode value
  decode
    | 0 :: rest => some (none, rest)
    | 1 :: rest => (layout.decode rest).map fun (value, rest) => (some value, rest)
    | _ => none

/-- Reads this many values, one after another. -/
def decodeMany (layout : Layout α) : (count : Nat) → Bytes → Option (List α × Bytes)
  | 0, bytes => some ([], bytes)
  | count + 1, bytes => do
    let (value, rest) ← layout.decode bytes
    let (values, rest) ← decodeMany layout count rest
    return (value :: values, rest)

/-- A sequence of values behind its length. -/
def list (layout : Layout α) : Layout (List α) where
  encode values := littleEndian 8 values.length ++ values.flatMap layout.encode
  decode bytes := do
    let (count, rest) ← long.decode bytes
    layout.decodeMany count.toNat rest

/-- A byte string behind its length. -/
def bytes : Layout Bytes where
  encode value := littleEndian 8 value.length ++ value
  decode stored := do
    let (count, rest) ← long.decode stored
    if count.toNat ≤ rest.length then return (rest.take count.toNat, rest.drop count.toNat)
    else none

end Layout

end Ratchet
