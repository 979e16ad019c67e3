import Ratchet.Proofs.Chain.Passing

/-!
# Accounts of a receiving chain

A counter that a chain has passed is used by the message that was received with it, kept,
or lost, because there was no room for its keys any more. A chain balances with lists of
what was used and what was lost when each counter before its index is in one of the
three places, and once there, and no other counter is anywhere (`ReceivingChain.Balanced`).

Passing a message keeps the balance if what it pushes out is written down as lost
(`ReceivingChain.Balanced.pass`), and so do any number of them. Giving the keys of a
message keeps it if the counter is written down as used
(`ReceivingChain.Balanced.of_keysAt`).

Each loss is written down with the chain as it stood at that moment. The chain was full
then, and all that it kept was newer (`ReceivingChain.Loss.Forced`).
-/

set_option autoImplicit false

namespace Ratchet

/-- One counter more is below the next index. -/
theorem ChainKey.below_step {chain : ChainKey} (fits : chain.index.toNat + 1 < 2 ^ 32)
    (counter : UInt32) :
    (if counter < chain.step.index then 1 else 0) =
      (if counter < chain.index then 1 else 0) + [chain.index].count counter := by
  have index := toNat_index_step fits
  by_cases here : chain.index = counter
  · have below : counter < chain.step.index := by
      rw [UInt32.lt_iff_toNat_lt, index, here]
      exact Nat.lt_succ_self _
    have notBelow : ¬ counter < chain.index := by
      rw [here]
      exact UInt32.lt_irrefl counter
    rw [if_pos below, if_neg notBelow, here, List.count_singleton_self]
  · have same : counter < chain.step.index ↔ counter < chain.index := by
      rw [← UInt32.toNat_inj] at here
      rw [UInt32.lt_iff_toNat_lt, UInt32.lt_iff_toNat_lt, index]
      omega
    have elsewhere : [chain.index].count counter = 0 :=
      List.count_eq_zero.mpr fun member => here (List.mem_singleton.mp member).symm
    rw [if_congr same rfl rfl, elsewhere, Nat.add_zero]

namespace ReceivingChain

/-! ## What is lost -/

/-- The keys that are pushed out when the next message is passed. -/
def pushedOut (chain : ReceivingChain) : List MessageKeys :=
  let keys := chain.skipped ++ [chain.chain.messageKeys]
  keys.take (keys.length - Limits.skippedKeys)

/-- Keys that were pushed out, and the chain as it stood then. -/
structure Loss where
  keys : MessageKeys
  moment : ReceivingChain

/-- What is lost when a number of messages are passed, oldest first. -/
def losses : (count : Nat) → ReceivingChain → List Loss
  | 0, _ => []
  | count + 1, chain =>
    (chain.pushedOut.map fun keys => ⟨keys, chain.pass⟩) ++ losses count chain.pass

/-- What is pushed out and what is kept is what was kept, and the message that is passed. -/
theorem pushedOut_append (chain : ReceivingChain) :
    chain.pushedOut ++ chain.pass.skipped = chain.skipped ++ [chain.chain.messageKeys] := by
  rw [pushedOut, skipped_pass]
  exact take_append_lastOf _ _

/-- A loss happens when some number of messages have been passed. -/
theorem mem_losses {count : Nat} {chain : ReceivingChain} {loss : Loss}
    (lost : loss ∈ chain.losses count) :
    ∃ passed, passed < count ∧ loss.keys ∈ (pass^[passed] chain).pushedOut ∧
      loss.moment = (pass^[passed] chain).pass := by
  induction count generalizing chain with
  | zero => cases lost
  | succ count ih =>
      rw [losses, List.mem_append] at lost
      rcases lost with first | later
      · obtain ⟨keys, member, rfl⟩ := List.mem_map.mp first
        exact ⟨0, Nat.succ_pos count, member, rfl⟩
      · obtain ⟨passed, below, member, moment⟩ := ih later
        exact ⟨passed + 1, Nat.succ_lt_succ below, member, moment⟩

/-- The chain was full when the keys were lost, and all that it kept was newer. -/
structure Loss.Forced (loss : Loss) : Prop where
  full : loss.moment.skipped.length = Limits.skippedKeys
  newer : ∀ keys ∈ loss.moment.skipped, loss.keys.counter < keys.counter

/-- Where counters ascend, keys are pushed out only by newer ones. -/
theorem forced_of_mem_pushedOut {chain : ReceivingChain}
    (ascending : (chain.skipped.map (·.counter)).Pairwise (· < ·))
    (behind : ∀ keys ∈ chain.skipped, keys.counter < chain.chain.index) {keys : MessageKeys}
    (member : keys ∈ chain.pushedOut) : Loss.Forced ⟨keys, chain.pass⟩ := by
  have parts := chain.pushedOut_append
  have some : 0 < chain.pushedOut.length := List.length_pos_of_mem member
  constructor
  · have lengths := congrArg List.length parts
    have kept := length_lastOf_le Limits.skippedKeys (chain.skipped ++ [chain.chain.messageKeys])
    rw [← skipped_pass] at kept
    rw [pushedOut, List.length_take, List.length_append, List.length_singleton] at some
    rw [List.length_append, List.length_append, List.length_singleton, pushedOut,
      List.length_take, List.length_append, List.length_singleton] at lengths
    show chain.pass.skipped.length = _
    omega
  · intro newer kept
    have sorted : (chain.skipped ++ [chain.chain.messageKeys]).Pairwise
        fun first second => first.counter < second.counter := by
      rw [List.pairwise_append]
      refine ⟨List.pairwise_map.mp ascending, List.pairwise_singleton _ _, ?_⟩
      intro old oldMember last lastMember
      rw [List.mem_singleton.mp lastMember]
      exact behind old oldMember
    rw [← parts, List.pairwise_append] at sorted
    exact sorted.2.2 keys member newer kept

/-! ## The balance -/

/-- Each counter before the index of the chain was used, is kept, or was lost, once in all;
and no other counter. -/
def Balanced (chain : ReceivingChain) (used : List UInt32) (lost : List Loss) : Prop :=
  ∀ counter, used.count counter + (chain.skipped.map (·.counter)).count counter +
    (lost.map (·.keys.counter)).count counter = if counter < chain.chain.index then 1 else 0

theorem balanced_new {ratchetKey : PublicKey} {origin : ChainKey} (starts : origin.index = 0) :
    Balanced ⟨ratchetKey, origin, []⟩ [] [] := by
  intro counter
  have none : ¬ counter < origin.index := by
    rw [starts]
    exact UInt32.not_lt_zero
  rw [if_neg none]
  rfl

section

variable {chain next : ReceivingChain} {used : List UInt32} {lost : List Loss}

/-- **Passing a message keeps the balance**, what it pushes out being lost. -/
theorem Balanced.pass (balanced : chain.Balanced used lost)
    (fits : chain.chain.index.toNat + 1 < 2 ^ 32) :
    chain.pass.Balanced used (lost ++ chain.pushedOut.map fun keys => ⟨keys, chain.pass⟩) := by
  intro counter
  have before := balanced counter
  have parts := congrArg (fun keys => (keys.map (·.counter)).count counter) chain.pushedOut_append
  have passed : chain.chain.messageKeys.counter = chain.chain.index := rfl
  simp only [List.map_append, List.count_append, List.map_singleton, passed] at parts
  have passes := ChainKey.below_step fits counter
  rw [List.map_append, List.count_append, List.map_map]
  simp only [Function.comp_def]
  show _ = if counter < chain.chain.step.index then 1 else 0
  omega

/-- Any number of messages can be passed, as long as the index does not wrap. -/
theorem Balanced.passing (balanced : chain.Balanced used lost) {count : Nat}
    (fits : chain.chain.index.toNat + count < 2 ^ 32) :
    (ReceivingChain.pass^[count] chain).Balanced used (lost ++ chain.losses count) := by
  induction count generalizing chain lost with
  | zero =>
      rw [losses, List.append_nil]
      exact balanced
  | succ count ih =>
      have index : chain.pass.chain.index.toNat = chain.chain.index.toNat + 1 :=
        ChainKey.toNat_index_step (by omega)
      have passed := ih (balanced.pass (by omega)) (by omega)
      rw [List.append_assoc] at passed
      exact passed

/-- Stepping over a counter keeps the balance if the counter has been used. -/
theorem Balanced.steps (balanced : chain.Balanced used lost)
    (fits : chain.chain.index.toNat + 1 < 2 ^ 32) :
    Balanced { chain with chain := chain.chain.step } (used ++ [chain.chain.index]) lost := by
  intro counter
  have before := balanced counter
  have passes := ChainKey.below_step fits counter
  rw [List.count_append]
  dsimp only
  omega

/-- Taking keys out keeps the balance if their counter has been used. -/
theorem Balanced.takes (balanced : chain.Balanced used lost) {counter : UInt32}
    {keys : MessageKeys} (taken : chain.take? counter = some (keys, next)) :
    next.Balanced (used ++ [counter]) lost := by
  obtain ⟨found, finds, same⟩ := Option.map_eq_some_iff.mp taken
  cases same
  obtain ⟨has, front, back, split, others⟩ := List.find?_eq_some_iff_append.mp finds
  have erased : chain.skipped.eraseP (·.counter = counter) = front ++ back := by
    have here : (keys :: back).eraseP (·.counter = counter) = back :=
      List.eraseP_cons_of_pos has
    rw [split, List.eraseP_append_right, here]
    intro other member
    rw [Bool.not_eq_true]
    exact (Bool.not_eq_true' _).mp (others other member)
  intro other
  have before := balanced other
  rw [split, List.map_append, List.map_cons, of_decide_eq_true has, List.count_append,
    List.count_cons] at before
  rw [List.count_append]
  dsimp only
  rw [erased, List.map_append, List.count_append, List.count_singleton]
  omega

/-- **Giving the keys of a message keeps the balance**, the message being used and what it
pushes out being lost. -/
theorem Balanced.of_keysAt (balanced : chain.Balanced used lost) {counter : UInt32}
    {keys : MessageKeys} (given : chain.keysAt counter = .ok (keys, next)) :
    next.Balanced (used ++ [counter])
      (lost ++ chain.losses (counter.toNat - chain.chain.index.toNat)) := by
  rcases keysAt_cases given with ⟨before, taken⟩ | ⟨ahead, _, fits, _, rfl⟩
  · have none : counter.toNat - chain.chain.index.toNat = 0 :=
      Nat.sub_eq_zero_of_le (Nat.le_of_lt (UInt32.lt_iff_toNat_lt.mp before))
    rw [none, losses, List.append_nil]
    exact balanced.takes taken
  · have above := Nat.add_sub_cancel' (UInt32.le_iff_toNat_le.mp ahead)
    have passed := balanced.passing (above.trans_lt counter.toNat_lt)
    have index := toNat_index_passing above.le
    rw [above, UInt32.toNat_inj] at index
    rw [← index] at fits
    have stepped := passed.steps fits
    rw [index] at stepped
    exact stepped

/-- Closing a chain keeps the balance. -/
theorem Balanced.skipTo (balanced : chain.Balanced used lost) (counter : UInt32) :
    (chain.skipTo counter).Balanced used (lost ++
      chain.losses ((chain.skipTo counter).chain.index.toNat - chain.chain.index.toNat)) := by
  rw [index_skipTo, skipTo_eq]
  split
  · rename_i goes
    have above := Nat.add_sub_cancel' (Nat.le_of_lt (UInt32.lt_iff_toNat_lt.mp goes.1))
    exact balanced.passing (above.trans_lt counter.toNat_lt)
  · rw [Nat.sub_self, losses, List.append_nil]
    exact balanced

end

end ReceivingChain

end Ratchet
