import Mathlib.Algebra.Group.Action.Defs
import Mathlib.Algebra.Order.BigOperators.Group.List
import Mathlib.Algebra.Order.Ring.Nat
import Ratchet.Layout.Protocol

/-!
# How long stored forms are

Most stored forms have a length that is bounded once and for all
(`Layout.AtMost`); only sequences grow with their values. So a session takes as
many bytes as its receiving chains make it take, and one that keeps to the limits
of the protocol (`Session.Within`) takes less than `2 ^ 20`
(`Session.Within.length_encode_lt`).

A record takes nine bytes more than its sessions (`Layout.length_encode_record`),
and making a session current adds no more than the session
(`SessionRecord.length_encode_promote_le`).
-/

set_option autoImplicit false

namespace Ratchet

namespace Layout

variable {α β : Type}

/-- No value takes more bytes than this. -/
def AtMost (layout : Layout α) (limit : Nat) : Prop :=
  ∀ value, (layout.encode value).length ≤ limit

/-! ## Building blocks -/

theorem atMost_octets (n : Nat) : (octets n).AtMost n := fun value => value.length_toList.le

theorem AtMost.via {layout : Layout α} {limit : Nat} (bounded : layout.AtMost limit)
    (forth : α → β) (back : β → α) : (layout.via forth back).AtMost limit :=
  fun value => bounded (back value)

theorem atMost_byte : byte.AtMost 1 := fun _ => le_rfl

theorem atMost_word : word.AtMost 4 := (atMost_octets 4).via _ _

theorem atMost_long : long.AtMost 8 := (atMost_octets 8).via _ _

theorem AtMost.pair {first : Layout α} {second : Layout β} {front back : Nat}
    (frontBounded : first.AtMost front) (backBounded : second.AtMost back) :
    (first.pair second).AtMost (front + back) := by
  intro value
  show (first.encode value.1 ++ second.encode value.2).length ≤ front + back
  rw [List.length_append]
  exact Nat.add_le_add (frontBounded value.1) (backBounded value.2)

theorem AtMost.option {layout : Layout α} {limit : Nat} (bounded : layout.AtMost limit) :
    layout.option.AtMost (limit + 1) := by
  intro value
  cases value with
  | none => exact Nat.le_add_left 1 limit
  | some value => exact Nat.succ_le_succ (bounded value)

/-- A sequence takes eight bytes more than its values. -/
theorem length_encode_list (layout : Layout α) (values : List α) :
    (layout.list.encode values).length =
      8 + (values.map fun value => (layout.encode value).length).sum := by
  show (littleEndian 8 values.length ++ values.flatMap layout.encode).length = _
  rw [List.length_append, length_littleEndian, List.length_flatMap]

/-- Sizes that are bounded one by one are bounded together. -/
theorem sum_map_le {values : List α} {size : α → Nat} {limit : Nat}
    (bounded : ∀ value ∈ values, size value ≤ limit) :
    (values.map size).sum ≤ values.length * limit := by
  have total := List.sum_le_card_nsmul (values.map size) limit (List.forall_mem_map.mpr bounded)
  rwa [List.length_map, smul_eq_mul] at total

/-- A sequence is no longer than its number of values allows. -/
theorem length_encode_list_le {layout : Layout α} {limit : Nat} {values : List α}
    (bounded : ∀ value ∈ values, (layout.encode value).length ≤ limit) :
    (layout.list.encode values).length ≤ 8 + values.length * limit := by
  rw [length_encode_list]
  exact Nat.add_le_add_left (sum_map_le bounded) 8

/-! ## Keys, chains and sessions -/

theorem atMost_publicKey : publicKey.AtMost 32 := (atMost_octets 32).via _ _

theorem atMost_keyPair : keyPair.AtMost 64 :=
  (atMost_publicKey.pair ((atMost_octets 32).via _ _)).via _ _

theorem atMost_kdf : kdf.AtMost 4 := by
  intro value
  cases value <;> exact atMost_word _

theorem atMost_chainKey : chainKey.AtMost 40 :=
  (atMost_kdf.pair ((atMost_octets 32).pair atMost_word)).via _ _

theorem atMost_rootKey : rootKey.AtMost 36 := (atMost_kdf.pair (atMost_octets 32)).via _ _

theorem atMost_messageKeys : messageKeys.AtMost 84 :=
  ((atMost_octets 32).pair ((atMost_octets 32).pair ((atMost_octets 16).pair atMost_word))).via _ _

theorem atMost_sendingChain : sendingChain.AtMost 104 :=
  (atMost_keyPair.pair atMost_chainKey).via _ _

theorem atMost_pendingPrekey : pendingPrekey.AtMost 41 :=
  (atMost_word.option.pair (atMost_word.pair atMost_publicKey)).via _ _

theorem atMost_pendingExchange : pendingExchange.AtMost 196 :=
  (atMost_word.pair (atMost_keyPair.pair (atMost_keyPair.pair atMost_keyPair))).via _ _

theorem atMost_oneTimePrekey : oneTimePrekey.AtMost 68 := (atMost_word.pair atMost_keyPair).via _ _

theorem atMost_uuid : uuid.AtMost 24 := by
  intro value
  show (littleEndian 8 16 ++ value.toList).length ≤ 24
  rw [List.length_append, length_littleEndian, value.length_toList]

theorem atMost_address : address.AtMost 56 := (atMost_publicKey.pair atMost_uuid).via _ _

/-- A receiving chain takes 84 bytes for each skipped message. -/
theorem length_encode_receivingChain_le (chain : ReceivingChain) :
    (receivingChain.encode chain).length ≤ 80 + chain.skipped.length * 84 := by
  show (publicKey.encode chain.ratchetKey ++
    (chainKey.encode chain.chain ++ messageKeys.list.encode chain.skipped)).length ≤ _
  have key := atMost_publicKey chain.ratchetKey
  have position := atMost_chainKey chain.chain
  have skipped : (messageKeys.list.encode chain.skipped).length ≤ 8 + chain.skipped.length * 84 :=
    length_encode_list_le fun keys _ => atMost_messageKeys keys
  rw [List.length_append, List.length_append]
  omega

/-- Beside its receiving chains a session takes no more than 482 bytes. -/
theorem length_encode_session_le (value : Session) :
    (session.encode value).length ≤ 482 + (receivingChain.list.encode value.receiving).length := by
  show (byte.encode value.storedVersion ++ (publicKey.encode value.localIdentity ++
    (publicKey.encode value.remoteIdentity ++ (rootKey.encode value.root ++
      (word.encode value.previousCounter ++ (sendingChain.option.encode value.sending ++
        (receivingChain.list.encode value.receiving ++
          (pendingExchange.option.encode value.pendingExchange ++
            (pendingPrekey.option.encode value.pendingPrekey ++
              publicKey.option.encode value.initiatorBase))))))))).length ≤ _
  have version := atMost_byte value.storedVersion
  have ours := atMost_publicKey value.localIdentity
  have theirs := atMost_publicKey value.remoteIdentity
  have root := atMost_rootKey value.root
  have previous := atMost_word value.previousCounter
  have sending := atMost_sendingChain.option value.sending
  have exchange := atMost_pendingExchange.option value.pendingExchange
  have prekey := atMost_pendingPrekey.option value.pendingPrekey
  have base := atMost_publicKey.option value.initiatorBase
  simp only [List.length_append]
  omega

/-- A record takes nine bytes more than its sessions. -/
theorem length_encode_record (value : SessionRecord) :
    (record.encode value).length =
      9 + (value.sessions.map fun each => (session.encode each).length).sum := by
  show (session.option.encode value.current ++ session.list.encode value.archived).length = _
  rw [List.length_append, length_encode_list, SessionRecord.sessions, List.map_append,
    List.sum_append]
  cases value.current with
  | none =>
      show 1 + _ = 9 + (0 + _)
      omega
  | some current =>
      show (1 :: session.encode current).length + _ = 9 + ((session.encode current).length + 0 + _)
      rw [List.length_cons]
      omega

end Layout

/-- The session keeps to the limits of the protocol. -/
structure Session.Within (session : Session) : Prop where
  chains : session.receiving.length ≤ Limits.receivingChains
  keys : ∀ chain ∈ session.receiving, chain.skipped.length ≤ Limits.skippedKeys

/-- A session within the limits takes less than a mebibyte. -/
theorem Session.Within.length_encode_lt {session : Session} (within : session.Within) :
    (Layout.session.encode session).length < 2 ^ 20 := by
  have each : ∀ chain ∈ session.receiving,
      (Layout.receivingChain.encode chain).length ≤ 80 + 2000 * 84 := by
    intro chain member
    have keys : chain.skipped.length ≤ 2000 := within.keys chain member
    exact (Layout.length_encode_receivingChain_le chain).trans (by omega)
  have few : session.receiving.length ≤ 5 := within.chains
  have chains := Layout.length_encode_list_le each
  have whole := Layout.length_encode_session_le session
  omega

namespace SessionRecord

/-- A record of sessions that each take less than so many bytes. -/
theorem length_encode_le {record : SessionRecord} {limit : Nat}
    (bounded : ∀ session ∈ record.sessions, (Layout.session.encode session).length ≤ limit) :
    (Layout.record.encode record).length ≤ 9 + record.sessions.length * limit := by
  rw [Layout.length_encode_record]
  exact Nat.add_le_add_left (Layout.sum_map_le bounded) 9

/-- A session that becomes current makes the record longer by itself at most. -/
theorem length_encode_promote_le (record : SessionRecord) (session : Session) :
    (Layout.record.encode (record.promote session)).length ≤
      (Layout.record.encode record).length + (Layout.session.encode session).length := by
  rw [Layout.length_encode_record, Layout.length_encode_record]
  have total := ((sessions_promote_sublist record session).map
    fun each => (Layout.session.encode each).length).sum_le_sum fun _ _ => Nat.zero_le _
  rw [List.map_cons, List.sum_cons] at total
  omega

end SessionRecord

end Ratchet
