import Ratchet.Layout.Stored
import Ratchet.Proofs.Layout.Size

/-!
# What is stored is restored

A lawful layout is sure to read back what was written in fewer than `2 ^ 64`
bytes. How long the whole is does not matter, though: what can go wrong is that a
sequence has more elements than eight bytes can count. So a value is storable
when each of its sequences can be counted, which is so for everything that fits
in a memory, and a layout restores the storable values and gives no others
(`Layout.Restores`). This passes from the parts of a value to the whole; a part
without sequences has a bounded length, and is storable in any case.

A storable value is read back whatever follows it, and what can be read was
written so. Therefore nothing that was written begins with anything else that can
be read, and a value that was cut short is no value
(`Layout.Restores.load_of_prefix`). All this holds of each kind of value that is
kept from one run to the next (`Durable.loads_as_stored`).
-/

set_option autoImplicit false

namespace Ratchet

namespace Layout

variable {α β : Type}

/-- The layout reads back the storable values, whatever follows, and gives no others. -/
structure Restores (layout : Layout α) (storable : α → Prop) : Prop where
  lawful : layout.Lawful
  decode_encode_append : ∀ value rest, storable value →
    layout.decode (layout.encode value ++ rest) = some (value, rest)
  storable_of_decode : ∀ bytes value rest,
    layout.decode bytes = some (value, rest) → storable value

/-! ## Putting layouts together -/

/-- Where stored forms are bounded, every value is storable. -/
theorem restores_of_atMost {layout : Layout α} {limit : Nat} (lawful : layout.Lawful)
    (bounded : layout.AtMost limit) (short : limit < 2 ^ 64) :
    layout.Restores fun _ => True where
  lawful := lawful
  decode_encode_append value rest _ :=
    lawful.decode_encode_append value rest ((bounded value).trans_lt short)
  storable_of_decode _ _ _ _ := trivial

theorem Restores.via {layout : Layout α} {storable : α → Prop} {wanted : β → Prop}
    {forth : α → β} {back : β → α} (restores : layout.Restores storable)
    (forth_back : ∀ value, forth (back value) = value)
    (back_forth : ∀ value, back (forth value) = value)
    (same : ∀ value, wanted value ↔ storable (back value)) :
    (layout.via forth back).Restores wanted where
  lawful := lawful_via restores.lawful forth_back back_forth
  decode_encode_append value rest wants := by
    simp [Layout.via, restores.decode_encode_append (back value) rest ((same value).mp wants),
      forth_back]
  storable_of_decode bytes value rest read := by
    simp only [Layout.via, Option.map_eq_some_iff, Prod.mk.injEq] at read
    obtain ⟨⟨found, later⟩, inner, rfl, rfl⟩ := read
    rw [same, back_forth]
    exact restores.storable_of_decode _ _ _ inner

theorem Restores.pair {first : Layout α} {second : Layout β} {front : α → Prop} {back : β → Prop}
    (restoresFirst : first.Restores front) (restoresSecond : second.Restores back) :
    (first.pair second).Restores fun value => front value.1 ∧ back value.2 where
  lawful := lawful_pair restoresFirst.lawful restoresSecond.lawful
  decode_encode_append value rest storable := by
    simp only [Layout.pair, List.append_assoc]
    rw [restoresFirst.decode_encode_append _ _ storable.1]
    simp only [Option.bind_eq_bind, Option.bind_some]
    rw [restoresSecond.decode_encode_append _ _ storable.2]
    rfl
  storable_of_decode bytes value rest read := by
    simp only [Layout.pair, Option.bind_eq_bind, Option.bind_eq_some_iff, Option.pure_def,
      Option.some.injEq, Prod.mk.injEq] at read
    obtain ⟨⟨left, middle⟩, readLeft, ⟨right, last⟩, readRight, rfl, rfl⟩ := read
    exact ⟨restoresFirst.storable_of_decode _ _ _ readLeft,
      restoresSecond.storable_of_decode _ _ _ readRight⟩

theorem Restores.option {layout : Layout α} {storable : α → Prop}
    (restores : layout.Restores storable) :
    layout.option.Restores fun value => ∀ present ∈ value, storable present where
  lawful := lawful_option restores.lawful
  decode_encode_append value rest all := by
    cases value with
    | none => rfl
    | some value =>
        simp [Layout.option, restores.decode_encode_append value rest (all value rfl)]
  storable_of_decode bytes value rest read := by
    intro present is
    cases is
    simp only [Layout.option] at read
    split at read
    · cases read
    · simp only [Option.map_eq_some_iff, Prod.mk.injEq, Option.some.injEq] at read
      obtain ⟨⟨found, last⟩, inner, rfl, rfl⟩ := read
      exact restores.storable_of_decode _ _ _ inner
    · cases read

/-- Storable values that were written one after another are read back. -/
theorem Restores.decodeMany_flatMap_append {layout : Layout α} {storable : α → Prop}
    (restores : layout.Restores storable) (values : List α) (rest : Bytes)
    (all : ∀ value ∈ values, storable value) :
    layout.decodeMany values.length (values.flatMap layout.encode ++ rest) =
      some (values, rest) := by
  induction values with
  | nil => rfl
  | cons value values ih =>
      obtain ⟨first, others⟩ := List.forall_mem_cons.mp all
      simp only [List.flatMap_cons, List.length_cons, List.append_assoc, decodeMany]
      rw [restores.decode_encode_append _ _ first]
      simp [ih others]

/-- Values that are read one after another are storable. -/
theorem Restores.storable_of_decodeMany {layout : Layout α} {storable : α → Prop}
    (restores : layout.Restores storable) {count : Nat} {bytes rest : Bytes} {values : List α}
    (read : layout.decodeMany count bytes = some (values, rest)) :
    ∀ value ∈ values, storable value := by
  induction count generalizing bytes values with
  | zero =>
      simp only [decodeMany, Option.some.injEq, Prod.mk.injEq] at read
      obtain ⟨rfl, rfl⟩ := read
      intro value member
      cases member
  | succ count ih =>
      simp only [decodeMany, Option.bind_eq_bind, Option.bind_eq_some_iff, Option.pure_def,
        Option.some.injEq, Prod.mk.injEq] at read
      obtain ⟨⟨value, middle⟩, front, ⟨later, last⟩, back, rfl, rfl⟩ := read
      exact List.forall_mem_cons.mpr ⟨restores.storable_of_decode _ _ _ front, ih back⟩

theorem Restores.list {layout : Layout α} {storable : α → Prop}
    (restores : layout.Restores storable) :
    layout.list.Restores fun values =>
      values.length < 2 ^ 64 ∧ ∀ value ∈ values, storable value where
  lawful := lawful_list restores.lawful
  decode_encode_append values rest counted := by
    simp only [Layout.list, List.append_assoc]
    rw [long_decode_littleEndian _ counted.1]
    simp only [Option.bind_eq_bind, Option.bind_some, UInt64.toNat_ofNat']
    rw [Nat.mod_eq_of_lt counted.1]
    exact restores.decodeMany_flatMap_append values rest counted.2
  storable_of_decode bytes values rest read := by
    simp only [Layout.list, Option.bind_eq_bind, Option.bind_eq_some_iff] at read
    obtain ⟨⟨count, middle⟩, _, back⟩ := read
    obtain ⟨length, _⟩ := eq_flatMap_append_of_decodeMany restores.lawful _ _ _ _ back
    exact ⟨length.trans_lt count.toNat_lt, restores.storable_of_decodeMany back⟩

theorem restores_bytes : bytes.Restores fun value => value.length < 2 ^ 64 where
  lawful := lawful_bytes
  decode_encode_append value rest counted := by
    simp only [bytes, List.append_assoc]
    rw [long_decode_littleEndian _ counted]
    simp only [Option.bind_eq_bind, Option.bind_some, UInt64.toNat_ofNat']
    rw [Nat.mod_eq_of_lt counted]
    simp
  storable_of_decode stored value rest read := by
    simp only [bytes, Option.bind_eq_bind, Option.bind_eq_some_iff] at read
    obtain ⟨⟨count, middle⟩, _, back⟩ := read
    split at back
    · simp only [Option.pure_def, Option.some.injEq, Prod.mk.injEq] at back
      obtain ⟨rfl, rfl⟩ := back
      exact (List.length_take_le _ _).trans_lt count.toNat_lt
    · cases back

/-! ## What follows and what is cut off -/

section

variable {layout : Layout α} {storable : α → Prop} (restores : layout.Restores storable)
include restores

/-- What can be read is read in the same way whatever follows. -/
theorem Restores.decode_append {bytes rest : Bytes} {value : α}
    (read : layout.decode bytes = some (value, rest)) (more : Bytes) :
    layout.decode (bytes ++ more) = some (value, rest ++ more) := by
  have counted := restores.storable_of_decode _ _ _ read
  rw [restores.lawful.eq_encode_append _ _ _ read, List.append_assoc]
  exact restores.decode_encode_append value (rest ++ more) counted

/-- Nothing can be read from a stored form that was cut short. -/
theorem Restores.decode_of_prefix {value : α} (counted : storable value) {part : Bytes}
    (initial : part <+: layout.encode value) (cut : part ≠ layout.encode value) :
    layout.decode part = none := by
  obtain ⟨lost, whole⟩ := initial
  rw [Option.eq_none_iff_forall_not_mem]
  rintro ⟨other, rest⟩ read
  -- a reading of the part is a reading of the whole, which leaves nothing over
  have again := restores.decode_append read lost
  have once := restores.decode_encode_append value [] counted
  rw [List.append_nil, ← whole, again] at once
  have nothing : rest ++ lost = [] := congrArg Prod.snd (Option.some.inj once)
  rw [(List.append_eq_nil_iff.mp nothing).2, List.append_nil] at whole
  exact cut whole

omit restores in
theorem load_eq_ok_iff {bytes : Bytes} {value : α} :
    layout.load bytes = .ok value ↔ ∃ rest, layout.decode bytes = some (value, rest) := by
  simp only [load, read?]
  cases layout.decode bytes with
  | none => simp
  | some found => simp [Prod.ext_iff]

theorem Restores.load_encode_append {value : α} (counted : storable value) (rest : Bytes) :
    layout.load (layout.encode value ++ rest) = .ok value :=
  load_eq_ok_iff.mpr ⟨rest, restores.decode_encode_append value rest counted⟩

theorem Restores.load_of_prefix {value : α} (counted : storable value) {part : Bytes}
    (initial : part <+: layout.encode value) (cut : part ≠ layout.encode value) :
    layout.load part = .error .malformed := by
  simp only [load, read?]
  rw [restores.decode_of_prefix counted initial cut]
  rfl

/-- What is loaded is storable, and was stored at the front. -/
theorem Restores.of_load {bytes : Bytes} {value : α} (loaded : layout.load bytes = .ok value) :
    storable value ∧ layout.encode value <+: bytes := by
  obtain ⟨rest, read⟩ := load_eq_ok_iff.mp loaded
  refine ⟨restores.storable_of_decode _ _ _ read, ?_⟩
  rw [restores.lawful.eq_encode_append _ _ _ read]
  exact List.prefix_append _ _

end

end Layout

/-! ## Storable sessions, records and prekeys -/

/-- The skipped keys can be counted in eight bytes. -/
def ReceivingChain.Storable (chain : ReceivingChain) : Prop := chain.skipped.length < 2 ^ 64

/-- The receiving chains, and the keys in each, can be counted in eight bytes. -/
def Session.Storable (session : Session) : Prop :=
  session.receiving.length < 2 ^ 64 ∧ ∀ chain ∈ session.receiving, chain.Storable

/-- The archived sessions can be counted in eight bytes, and every session is storable. -/
def SessionRecord.Storable (record : SessionRecord) : Prop :=
  record.archived.length < 2 ^ 64 ∧ ∀ session ∈ record.sessions, session.Storable

namespace Layout

theorem restores_publicKey : publicKey.Restores fun _ => True :=
  restores_of_atMost lawful_publicKey atMost_publicKey (by decide)

theorem restores_keyPair : keyPair.Restores fun _ => True :=
  restores_of_atMost lawful_keyPair atMost_keyPair (by decide)

theorem restores_word : word.Restores fun _ => True :=
  restores_of_atMost lawful_word atMost_word (by decide)

theorem restores_long : long.Restores fun _ => True :=
  restores_of_atMost lawful_long atMost_long (by decide)

theorem restores_receivingChain : receivingChain.Restores ReceivingChain.Storable := by
  have position := restores_of_atMost lawful_chainKey atMost_chainKey (by decide)
  have skipped := (restores_of_atMost lawful_messageKeys atMost_messageKeys (by decide)).list
  refine (restores_publicKey.pair (position.pair skipped)).via (fun _ => rfl) (fun _ => rfl) ?_
  intro chain
  simp [ReceivingChain.Storable]

theorem restores_session : session.Restores Session.Storable := by
  have version := restores_of_atMost lawful_byte atMost_byte (by decide)
  have root := restores_of_atMost lawful_rootKey atMost_rootKey (by decide)
  have sending := restores_of_atMost (lawful_option lawful_sendingChain)
    atMost_sendingChain.option (by decide)
  have exchange := restores_of_atMost (lawful_option lawful_pendingExchange)
    atMost_pendingExchange.option (by decide)
  have prekey := restores_of_atMost (lawful_option lawful_pendingPrekey)
    atMost_pendingPrekey.option (by decide)
  have base := restores_of_atMost (lawful_option lawful_publicKey)
    atMost_publicKey.option (by decide)
  refine (version.pair (restores_publicKey.pair (restores_publicKey.pair (root.pair
    (restores_word.pair (sending.pair (restores_receivingChain.list.pair (exchange.pair
      (prekey.pair base))))))))).via (fun _ => rfl) (fun _ => rfl) ?_
  intro session
  simp [Session.Storable]

theorem restores_record : record.Restores SessionRecord.Storable := by
  refine (restores_session.option.pair restores_session.list).via (fun _ => rfl) (fun _ => rfl) ?_
  intro record
  simp only [SessionRecord.Storable, SessionRecord.sessions, List.forall_mem_append,
    Option.mem_toList]
  exact and_left_comm

theorem restores_signedPrekey :
    signedPrekey.Restores fun prekey => prekey.signature.length < 2 ^ 64 := by
  refine (restores_word.pair (restores_long.pair (restores_keyPair.pair restores_bytes))).via
    (fun _ => rfl) (fun _ => rfl) ?_
  intro prekey
  simp

theorem restores_bundle : bundle.Restores fun bundle => bundle.signature.length < 2 ^ 64 := by
  have id := restores_of_atMost (lawful_option lawful_word) atMost_word.option (by decide)
  have key := restores_of_atMost (lawful_option lawful_publicKey)
    atMost_publicKey.option (by decide)
  refine (id.pair (key.pair (restores_word.pair (key.pair
    (restores_bytes.pair restores_publicKey))))).via (fun _ => rfl) (fun _ => rfl) ?_
  intro bundle
  simp

end Layout

/-! ## All that is kept -/

/-- The kinds of values that outlive a run. -/
inductive Durable where
  | record
  | session
  | oneTimePrekey
  | signedPrekey
  | bundle
  | address

namespace Durable

/-- The values of a kind. -/
def Value : Durable → Type
  | .record => SessionRecord
  | .session => Session
  | .oneTimePrekey => OneTimePrekey
  | .signedPrekey => SignedPrekey
  | .bundle => PrekeyBundle
  | .address => Address

/-- How the values of a kind are stored. -/
def layout : (kind : Durable) → Layout kind.Value
  | .record => Layout.record
  | .session => Layout.session
  | .oneTimePrekey => Layout.oneTimePrekey
  | .signedPrekey => Layout.signedPrekey
  | .bundle => Layout.bundle
  | .address => Layout.address

/-- Every sequence in the value can be counted in eight bytes, as any that fits in a memory can. -/
def Storable : (kind : Durable) → kind.Value → Prop
  | .record => SessionRecord.Storable
  | .session => Session.Storable
  | .oneTimePrekey => fun _ => True
  | .signedPrekey => fun prekey => prekey.signature.length < 2 ^ 64
  | .bundle => fun bundle => bundle.signature.length < 2 ^ 64
  | .address => fun _ => True

theorem restores (kind : Durable) : kind.layout.Restores kind.Storable := by
  cases kind with
  | record => exact Layout.restores_record
  | session => exact Layout.restores_session
  | oneTimePrekey =>
      exact Layout.restores_of_atMost Layout.lawful_oneTimePrekey Layout.atMost_oneTimePrekey
        (by decide)
  | signedPrekey => exact Layout.restores_signedPrekey
  | bundle => exact Layout.restores_bundle
  | address =>
      exact Layout.restores_of_atMost Layout.lawful_address Layout.atMost_address (by decide)

/-- **What is stored is loaded as it was, and in no other way.** A value is loaded
from its stored form whatever follows, and from no part of its stored form; and
whatever bytes a value is loaded from begin with its stored form. -/
theorem loads_as_stored (kind : Durable) :
    (∀ value, kind.Storable value →
      (∀ rest, kind.layout.load (kind.layout.encode value ++ rest) = .ok value) ∧
      ∀ part, part <+: kind.layout.encode value → part ≠ kind.layout.encode value →
        kind.layout.load part = .error .malformed) ∧
    ∀ bytes value, kind.layout.load bytes = .ok value →
      kind.Storable value ∧ kind.layout.encode value <+: bytes := by
  have restores := kind.restores
  refine ⟨fun value storable => ⟨fun rest => ?_, fun part initial cut => ?_⟩, ?_⟩
  · exact restores.load_encode_append storable rest
  · exact restores.load_of_prefix storable initial cut
  · exact fun bytes value loaded => restores.of_load loaded

/-- A record with a skipped key in its current session, and another session behind it. -/
theorem record_of_two_sessions_loads :
    let session : Session := {
      storedVersion := 3
      localIdentity := default
      remoteIdentity := default
      root := ⟨.v3, default⟩
      receiving := [⟨default, ⟨.v3, default, 2⟩, [⟨default, default, default, 1⟩]⟩] }
    let record : SessionRecord := ⟨some session, [{ session with receiving := [] }]⟩
    record.Storable ∧
      (∀ rest, Layout.record.load (Layout.record.encode record ++ rest) = .ok record) ∧
      ∀ part, part <+: Layout.record.encode record → part ≠ Layout.record.encode record →
        Layout.record.load part = .error .malformed := by
  intro session record
  have storable : record.Storable := by
    simp [record, session, SessionRecord.Storable, SessionRecord.sessions, Session.Storable,
      ReceivingChain.Storable]
  exact ⟨storable, (loads_as_stored .record).1 record storable⟩

end Durable

end Ratchet
