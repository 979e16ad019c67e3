import Mathlib.Algebra.Group.Nat.Defs
import Mathlib.Order.Basic
import Ratchet.Wire.Cursor

/-!
# What is written is read

A reader takes some bytes for a value if it reads this value, and nothing behind
the bytes, wherever they come next (`Reader.Takes`). Readers in sequence take
what each of them takes, in sequence (`Reader.Takes.bind`); the last of them may
take all that is left (`Reader.TakesAll`).

Conversely, a reader gives values of a form if it has read bytes of this form
whenever it gives a value (`Reader.Gives`). A reader that takes the bytes of a form
and gives values of this form accepts exactly the form.

Whatever they are given, readers stay within the bytes (`Reader.Bounded`).
-/

set_option autoImplicit false

namespace Ratchet

namespace Cursor

theorem remaining_start (data : Bytes) : (start data).remaining = data := rfl

theorem remaining_advance (cursor : Cursor) (count : Nat) :
    (cursor.advance count).remaining = cursor.remaining.drop count := by
  simp only [remaining, advance, List.drop_drop]

theorem advance_advance (cursor : Cursor) (first second : Nat) :
    (cursor.advance first).advance second = cursor.advance (first + second) := by
  simp only [advance, Nat.add_assoc]

/-- The latter cursor is further on in the same bytes, and not beyond their end. -/
structure Reaches (former latter : Cursor) : Prop where
  data_eq : latter.data = former.data
  forward : former.position ≤ latter.position
  within : latter.position ≤ latter.data.length

theorem Reaches.trans {first second third : Cursor} (reaches : first.Reaches second)
    (further : second.Reaches third) : first.Reaches third where
  data_eq := further.data_eq.trans reaches.data_eq
  forward := Nat.le_trans reaches.forward further.forward
  within := further.within

end Cursor

namespace Reader

variable {ε δ α β : Type}

/-- Where these bytes come next, exactly they are read, and for this value. -/
def Takes (reader : Procedure Cursor ε α) (bytes : Bytes) (value : α) : Prop :=
  ∀ (cursor : Cursor) (behind : Bytes), cursor.remaining = bytes ++ behind →
    reader.run cursor = (.ok value, cursor.advance bytes.length)

theorem takes_pure (value : α) : Takes (pure value : Procedure Cursor ε α) [] value :=
  fun _ _ _ => rfl

theorem Takes.bind {first : Procedure Cursor ε α} {second : α → Procedure Cursor ε β}
    {front back : Bytes} {value : α} {result : β} (takes : Takes first front value)
    (continues : Takes (second value) back result) :
    Takes (first >>= second) (front ++ back) result := by
  intro cursor behind next
  rw [List.append_assoc] at next
  have rest : (cursor.advance front.length).remaining = back ++ behind := by
    rw [Cursor.remaining_advance, next, List.drop_left]
  rw [Procedure.run_bind_of_ok (takes cursor _ next)]
  rw [continues _ _ rest, Cursor.advance_advance, List.length_append]

theorem Takes.map {reader : Procedure Cursor ε α} {bytes : Bytes} {value : α}
    (takes : Takes reader bytes value) (function : α → β) :
    Takes (function <$> reader) bytes (function value) := by
  intro cursor behind next
  rw [Procedure.run_map, takes cursor behind next]

theorem Takes.explain {reader : Procedure Cursor ε α} {bytes : Bytes} {value : α}
    (takes : Takes reader bytes value) (account : ε → δ) :
    Takes (reader.explain account) bytes value := by
  intro cursor behind next
  rw [Procedure.run_explain, takes cursor behind next]
  rfl

/-- Where these bytes are all there is left, the value is read. -/
def TakesAll (reader : Procedure Cursor ε α) (bytes : Bytes) (value : α) : Prop :=
  ∀ cursor : Cursor, cursor.remaining = bytes → (reader.run cursor).1 = .ok value

theorem Takes.bind_all {first : Procedure Cursor ε α} {second : α → Procedure Cursor ε β}
    {front back : Bytes} {value : α} {result : β} (takes : Takes first front value)
    (continues : TakesAll (second value) back result) :
    TakesAll (first >>= second) (front ++ back) result := by
  intro cursor next
  have rest : (cursor.advance front.length).remaining = back := by
    rw [Cursor.remaining_advance, next, List.drop_left]
  rw [Procedure.run_bind_of_ok (takes cursor back next)]
  exact continues _ rest

/-- Of two beginnings of the same bytes that a reader takes, none is longer than the other. -/
theorem Takes.unique {reader : Procedure Cursor ε α} {first second behindFirst behindSecond : Bytes}
    {value other : α} (takes : Takes reader first value) (takesOther : Takes reader second other)
    (same : first ++ behindFirst = second ++ behindSecond) :
    first = second ∧ value = other ∧ behindFirst = behindSecond := by
  have once := takes (Cursor.start _) behindFirst rfl
  have again := takesOther (Cursor.start _) behindSecond same
  rw [once, Prod.mk.injEq, Except.ok.injEq] at again
  obtain ⟨values, moved⟩ := again
  have length : first.length = second.length := Nat.add_left_cancel (Cursor.mk.inj moved).2
  obtain ⟨front, back⟩ := List.append_inj same length
  exact ⟨front, values, back⟩

/-- What is left is read to its end. -/
theorem takesAll_rest (account : ReadFault → ε) (finish : Bytes → α) (bytes : Bytes) :
    TakesAll (do return finish (← rest.explain account)) bytes (finish bytes) := by
  rintro cursor rfl
  rfl

/-- Whenever a value is given, bytes of this form for it have been read. -/
def Gives (reader : Procedure Cursor ε α) (form : Bytes → α → Prop) : Prop :=
  ∀ cursor value next, reader.run cursor = (.ok value, next) →
    ∃ bytes, next = cursor.advance bytes.length ∧ cursor.remaining = bytes ++ next.remaining ∧
      form bytes value

theorem Gives.explain {reader : Procedure Cursor ε α} {form : Bytes → α → Prop}
    (gives : Gives reader form) (account : ε → δ) : Gives (reader.explain account) form := by
  intro cursor value next ran
  rw [Procedure.run_explain] at ran
  cases read : reader.run cursor with
  | mk outcome last =>
      rw [read] at ran
      cases outcome with
      | error fault => cases ran
      | ok given =>
          cases ran
          exact gives _ _ _ read

/-- From within its bytes, the reader gets no further than to their end. -/
def Bounded (reader : Procedure Cursor ε α) : Prop :=
  ∀ cursor : Cursor, cursor.position ≤ cursor.data.length → cursor.Reaches (reader.run cursor).2

theorem bounded_pure (value : α) : Bounded (pure value : Procedure Cursor ε α) :=
  fun _ within => ⟨rfl, Nat.le_refl _, within⟩

theorem bounded_throw (failure : ε) : Bounded (throw failure : Procedure Cursor ε α) :=
  fun _ within => ⟨rfl, Nat.le_refl _, within⟩

theorem bounded_ofExcept (outcome : Except ε α) :
    Bounded (Procedure.ofExcept outcome : Procedure Cursor ε α) :=
  fun _ within => ⟨rfl, Nat.le_refl _, within⟩

theorem Bounded.bind {first : Procedure Cursor ε α} {second : α → Procedure Cursor ε β}
    (bounded : Bounded first) (continues : ∀ value, Bounded (second value)) :
    Bounded (first >>= second) := by
  intro cursor within
  have reached := bounded cursor within
  rw [Procedure.run_bind]
  cases ran : first.run cursor with
  | mk outcome next =>
      rw [ran] at reached
      cases outcome with
      | error failure => exact reached
      | ok value => exact reached.trans (continues value next reached.within)

theorem Bounded.map {reader : Procedure Cursor ε α} (bounded : Bounded reader)
    (function : α → β) : Bounded (function <$> reader) := by
  intro cursor within
  have reached := bounded cursor within
  rw [Procedure.run_map]
  cases ran : reader.run cursor with
  | mk outcome next =>
      rw [ran] at reached
      cases outcome <;> exact reached

theorem Bounded.explain {reader : Procedure Cursor ε α} (bounded : Bounded reader)
    (account : ε → δ) : Bounded (reader.explain account) :=
  bounded

/-! ## Bytes -/

theorem takes_byte (value : UInt8) : Takes byte [value] value := by
  intro cursor behind next
  simp only [byte]
  rw [Procedure.run_bind, Procedure.run_get]
  dsimp only
  rw [next]
  rfl

theorem gives_byte : Gives byte fun bytes value => bytes = [value] := by
  intro cursor value next ran
  simp only [byte] at ran
  rw [Procedure.run_bind, Procedure.run_get] at ran
  dsimp only at ran
  cases rest : cursor.remaining with
  | nil =>
      rw [rest] at ran
      cases ran
  | cons first others =>
      rw [rest] at ran
      cases ran
      refine ⟨[value], rfl, ?_, rfl⟩
      rw [Cursor.remaining_advance, rest]
      rfl

theorem bounded_byte : Bounded byte := by
  intro cursor within
  simp only [byte]
  rw [Procedure.run_bind, Procedure.run_get]
  dsimp only
  cases rest : cursor.remaining with
  | nil => exact ⟨rfl, Nat.le_refl _, within⟩
  | cons first others =>
      have length := congrArg List.length rest
      rw [Cursor.remaining, List.length_drop, List.length_cons] at length
      exact ⟨rfl, Nat.le_succ _, by show cursor.position + 1 ≤ cursor.data.length; omega⟩

theorem takes_bytes {value : Bytes} (some : 0 < value.length) :
    Takes (bytes value.length) value value := by
  intro cursor behind next
  have fits : cursor.position + value.length ≤ cursor.data.length := by
    have length := congrArg List.length next
    rw [Cursor.remaining, List.length_drop, List.length_append] at length
    omega
  simp only [bytes]
  rw [Procedure.run_bind, Procedure.run_get]
  dsimp only
  rw [if_pos fits, next, List.take_left]
  rfl

theorem gives_bytes (count : Nat) :
    Gives (bytes count) fun bytes value => bytes = value ∧ value.length = count := by
  intro cursor value next ran
  simp only [bytes] at ran
  rw [Procedure.run_bind, Procedure.run_get] at ran
  dsimp only at ran
  split at ran
  · rename_i fits
    cases ran
    have length : (cursor.remaining.take count).length = count := by
      rw [List.length_take, Cursor.remaining, List.length_drop]
      omega
    refine ⟨_, ?_, ?_, rfl, length⟩
    · rw [length]
    · rw [Cursor.remaining_advance, List.take_append_drop]
  · cases ran

theorem bounded_bytes (count : Nat) : Bounded (bytes count) := by
  intro cursor within
  simp only [bytes]
  rw [Procedure.run_bind, Procedure.run_get]
  dsimp only
  split
  · rename_i fits
    exact ⟨rfl, Nat.le_add_right _ _, fits⟩
  · exact ⟨rfl, Nat.le_refl _, within⟩

theorem takes_octets {n : Nat} (some : 0 < n) (value : Octets n) :
    Takes (octets n) value.toList value := by
  have taken : Takes (bytes n) value.toList value.toList := by
    have whole := takes_bytes (some.trans_eq value.length_toList.symm)
    rwa [value.length_toList] at whole
  rw [← List.append_nil value.toList]
  refine taken.bind ?_
  rw [Octets.ofList?_toList]
  exact takes_pure value

theorem gives_octets (n : Nat) : Gives (octets n) fun bytes value => bytes = value.toList := by
  intro cursor value next ran
  obtain ⟨read, _, first, rest⟩ := Procedure.run_bind_eq_ok ran
  obtain ⟨taken, moved, behind, rfl, _⟩ := gives_bytes n _ _ _ first
  cases fits : (Octets.ofList? taken : Option (Octets n)) with
  | none =>
      rw [fits] at rest
      cases rest
  | some octets =>
      rw [fits] at rest
      cases rest
      exact ⟨taken, moved, behind, Octets.ofList?_eq_some_iff.mp fits⟩

theorem bounded_octets (n : Nat) : Bounded (octets n) := by
  refine (bounded_bytes n).bind fun taken => ?_
  cases (Octets.ofList? taken : Option (Octets n)) with
  | none => exact bounded_throw _
  | some octets => exact bounded_pure octets

theorem takes_publicKey (key : PublicKey) : Takes publicKey key.toBytes key :=
  (takes_octets (by decide) key.octets).map PublicKey.mk

theorem gives_publicKey : Gives publicKey fun bytes value => bytes = value.toBytes := by
  intro cursor value next ran
  obtain ⟨octets, read, rfl⟩ := Procedure.run_map_eq_ok ran
  exact gives_octets 32 _ _ _ read

theorem bounded_publicKey : Bounded publicKey := (bounded_octets 32).map PublicKey.mk

theorem run_rest (cursor : Cursor) : rest.run cursor = (.ok cursor.remaining, cursor) := rfl

theorem bounded_rest : Bounded rest := fun _ within => ⟨rfl, Nat.le_refl _, within⟩

end Reader

end Ratchet
