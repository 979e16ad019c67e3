import Ratchet.Proofs.Chain.Position
import Ratchet.Proofs.Chain.Progress
import Ratchet.Session.Messaging

/-!
# Passing messages one by one

A receiving chain goes on by passing one message after another: the keys of the
message are kept, the oldest kept keys are forgotten if there are too many, and the
position moves on (`ReceivingChain.pass`). Closing a chain passes the messages up to
the counter, or none at all (`ReceivingChain.skipTo_eq`), and a message that is ahead
is received behind the ones that are passed (`ReceivingChain.keysAt_cases`). The index
never wraps on the way (`ReceivingChain.toNat_index_passing`).

So neither needs more than machine arithmetic and a bounded loop. Both can be done
with every difference of counters checked and with a number of rounds that a loop may
not exceed (`ReceivingChain.skipWithin`, `ReceivingChain.keysWithin`). Whatever a chain
is like and whatever counters it is given, no difference is negative, and as many
rounds are enough as a message may be ahead
(`ReceivingChain.skipWithin_eq`, `ReceivingChain.keysWithin_eq`).
-/

set_option autoImplicit false

namespace Ratchet

namespace ReceivingChain

/-! ## One message -/

/-- The chain behind the next message, whose keys are kept; the oldest keys are forgotten beyond
the limit. -/
def pass (chain : ReceivingChain) : ReceivingChain where
  ratchetKey := chain.ratchetKey
  chain := chain.chain.step
  skipped := lastOf Limits.skippedKeys (chain.skipped ++ [chain.chain.messageKeys])

theorem skipped_pass (chain : ReceivingChain) :
    chain.pass.skipped =
      lastOf Limits.skippedKeys (chain.skipped ++ [chain.chain.messageKeys]) := by
  simp only [pass]

theorem chain_iterate_pass (chain : ReceivingChain) (count : Nat) :
    (pass^[count] chain).chain = chain.chain.ahead count := by
  induction count with
  | zero => rfl
  | succ count ih =>
      rw [Function.iterate_succ_apply', ChainKey.ahead_succ, ← ih]
      rfl

/-- The first of several keys can be stored before the others. -/
theorem store_cons (chain : ReceivingChain) (keys : MessageKeys) (rest : List MessageKeys) :
    chain.store (keys :: rest) =
      { chain with skipped := lastOf Limits.skippedKeys (chain.skipped ++ [keys]) }.store rest := by
  rw [store, List.isEmpty_cons, if_neg Bool.false_ne_true]
  cases rest with
  | nil => rw [store, List.isEmpty_nil, if_pos rfl]
  | cons second rest =>
      rw [store, List.isEmpty_cons, if_neg Bool.false_ne_true, lastOf_lastOf_append,
        List.append_assoc, List.singleton_append]

/-- Where a chain stands does not matter for storing keys. -/
theorem store_at (chain : ReceivingChain) (position : ChainKey) (keys : List MessageKeys) :
    { chain with chain := position }.store keys =
      { chain.store keys with chain := position } := by
  cases keys with
  | nil => rfl
  | cons first rest => simp only [store, List.isEmpty_cons, Bool.false_eq_true, if_false]

/-- Storing the keys of the next messages together is passing these messages. -/
theorem store_walk_eq (chain : ReceivingChain) (count : Nat) :
    { chain with chain := (chain.chain.walk count).2 }.store (chain.chain.walk count).1 =
      pass^[count] chain := by
  induction count generalizing chain with
  | zero => rfl
  | succ count ih =>
      rw [Function.iterate_succ_apply, ← ih chain.pass, ChainKey.walk, store_cons]
      simp only [pass]

/-- The index of a chain that passes messages below a counter has not wrapped. -/
theorem toNat_index_passing {chain : ReceivingChain} {counter : UInt32} {count : Nat}
    (below : chain.chain.index.toNat + count ≤ counter.toNat) :
    (pass^[count] chain).chain.index.toNat = chain.chain.index.toNat + count := by
  have small := counter.toNat_lt
  rw [chain_iterate_pass]
  exact ChainKey.toNat_index_ahead_of_lt (by omega)

/-! ## Up to a counter -/

/-- Closing a chain passes the messages up to the counter, or none if they are too many. -/
theorem skipTo_eq (chain : ReceivingChain) (counter : UInt32) :
    chain.skipTo counter =
      if chain.chain.index < counter ∧
          counter.toNat - chain.chain.index.toNat ≤ Limits.futureMessages then
        pass^[counter.toNat - chain.chain.index.toNat] chain
      else chain := by
  simp only [skipTo]
  by_cases passed : counter ≤ chain.chain.index
  · have notAhead : ¬ chain.chain.index < counter := UInt32.not_lt.mpr passed
    rw [if_pos passed, if_neg fun both => notAhead both.1]
  · have ahead : chain.chain.index < counter := UInt32.not_le.mp passed
    rw [if_neg passed, UInt32.toNat_sub_of_le _ _ (UInt32.le_of_lt ahead)]
    by_cases far : Limits.futureMessages < counter.toNat - chain.chain.index.toNat
    · rw [if_pos far, if_neg fun both => Nat.not_le.mpr far both.2]
    · rw [if_neg far, if_pos ⟨ahead, Nat.not_lt.mp far⟩]
      exact store_walk_eq chain _

/-- The keys of a message that is ahead are those behind the messages that are passed. -/
theorem keysAt_of_le {chain : ReceivingChain} {counter : UInt32}
    (ahead : chain.chain.index ≤ counter) :
    chain.keysAt counter =
      if Limits.futureMessages < counter.toNat - chain.chain.index.toNat then
        .error (.invalidMessage .tooFarAhead)
      else
        let reached := pass^[counter.toNat - chain.chain.index.toNat] chain
        match reached.chain.next? with
        | none => .error (.invalidState .chainOverflow)
        | some next => .ok (reached.chain.messageKeys, { reached with chain := next }) := by
  have stored := store_walk_eq chain (counter.toNat - chain.chain.index.toNat)
  rw [store_at] at stored
  rw [keysAt, if_neg (UInt32.not_lt.mpr ahead), UInt32.toNat_sub_of_le _ _ ahead, ← stored]
  dsimp only
  split
  · rfl
  · cases (chain.chain.walk (counter.toNat - chain.chain.index.toNat)).2.next? with
    | none => rfl
    | some next =>
        dsimp only
        rw [store_at]

/-- The keys of a message come out of the kept ones, or those of the messages before it are kept. -/
theorem keysAt_cases {chain next : ReceivingChain} {counter : UInt32} {keys : MessageKeys}
    (given : chain.keysAt counter = .ok (keys, next)) :
    (counter < chain.chain.index ∧ chain.take? counter = some (keys, next)) ∨
    (chain.chain.index ≤ counter ∧
      counter.toNat - chain.chain.index.toNat ≤ Limits.futureMessages ∧
      counter.toNat + 1 < 2 ^ 32 ∧
      let reached := pass^[counter.toNat - chain.chain.index.toNat] chain
      keys = reached.chain.messageKeys ∧ next = { reached with chain := reached.chain.step }) := by
  by_cases before : counter < chain.chain.index
  · rw [keysAt, if_pos before] at given
    cases taken : chain.take? counter with
    | none =>
        rw [taken] at given
        cases given
    | some result =>
        rw [taken] at given
        cases given
        exact .inl ⟨before, rfl⟩
  · have ahead : chain.chain.index ≤ counter := UInt32.not_lt.mp before
    have above := Nat.add_sub_cancel' (UInt32.le_iff_toNat_le.mp ahead)
    rw [keysAt_of_le ahead] at given
    split at given
    · cases given
    · rename_i near
      dsimp only at given
      cases follows : (pass^[counter.toNat - chain.chain.index.toNat] chain).chain.next? with
      | none =>
          rw [follows] at given
          cases given
      | some later =>
          rw [follows] at given
          cases given
          obtain ⟨rfl, fits⟩ := ChainKey.next?_eq_some follows
          rw [toNat_index_passing above.le, above] at fits
          exact .inr ⟨ahead, Nat.not_lt.mp near, fits, rfl, rfl⟩

/-- Where a chain stands that has been closed. -/
theorem index_skipTo (chain : ReceivingChain) (counter : UInt32) :
    (chain.skipTo counter).chain.index =
      if chain.chain.index < counter ∧
          counter.toNat - chain.chain.index.toNat ≤ Limits.futureMessages then counter
      else chain.chain.index := by
  rw [skipTo_eq]
  split
  · rename_i goes
    have above := Nat.add_sub_cancel' (Nat.le_of_lt (UInt32.lt_iff_toNat_lt.mp goes.1))
    apply UInt32.toNat_inj.mp
    rw [toNat_index_passing above.le, above]
  · rfl

/-- Where a chain stands that has given the keys of a message: behind the message, if it was not
there before. -/
theorem toNat_index_of_keysAt {chain next : ReceivingChain} {counter : UInt32}
    {keys : MessageKeys} (given : chain.keysAt counter = .ok (keys, next)) :
    counter.toNat + 1 < 2 ^ 32 ∧
      next.chain.index.toNat = max chain.chain.index.toNat (counter.toNat + 1) := by
  rcases keysAt_cases given with ⟨before, taken⟩ | ⟨ahead, _, fits, _, rfl⟩
  · obtain ⟨_, _, same⟩ := Option.map_eq_some_iff.mp taken
    cases same
    have small := chain.chain.index.toNat_lt
    have passed := Nat.succ_le_of_lt (UInt32.lt_iff_toNat_lt.mp before)
    exact ⟨Nat.lt_of_le_of_lt passed small, (Nat.max_eq_left passed).symm⟩
  · have above := Nat.add_sub_cancel' (UInt32.le_iff_toNat_le.mp ahead)
    have reached := toNat_index_passing above.le
    rw [above] at reached
    refine ⟨fits, ?_⟩
    show (pass^[counter.toNat - chain.chain.index.toNat] chain).chain.step.index.toNat = _
    rw [ChainKey.toNat_index_step (reached.symm ▸ fits : _ + 1 < 2 ^ 32), reached]
    exact (Nat.max_eq_right ((UInt32.le_iff_toNat_le.mp ahead).trans (Nat.le_succ _))).symm

end ReceivingChain

/-! ## With checked arithmetic and bounded loops -/

/-- Why a computation with checked arithmetic and bounded loops gives nothing. -/
inductive Lapse where
  /-- A difference of counters is negative. -/
  | negative
  /-- A loop has gone round as often as it may, and is not done. -/
  | exhausted
  /-- What the session reports. -/
  | failure (error : SessionError)

theorem Lapse.ok_bind {α β : Type} (value : α) (next : α → Except Lapse β) :
    ((Except.ok value : Except Lapse α) >>= next) = next value := rfl

/-- The difference of two counters, if it is not negative. -/
def difference (larger smaller : UInt32) : Except Lapse UInt32 :=
  if smaller ≤ larger then .ok (larger - smaller) else .error .negative

theorem difference_of_le {larger smaller : UInt32} (ordered : smaller ≤ larger) :
    difference larger smaller = .ok (larger - smaller) := if_pos ordered

namespace ChainKey

/-- The next position, the index being checked. -/
def follow (chain : ChainKey) : Except Lapse ChainKey :=
  match chain.next? with
  | some next => .ok next
  | none => .error (.failure (.invalidState .chainOverflow))

theorem follow_of_lt {chain : ChainKey} (fits : chain.index.toNat + 1 < 2 ^ 32) :
    chain.follow = .ok chain.step := by
  rw [follow, next?_of_lt fits]

end ChainKey

namespace ReceivingChain

/-- Passes messages for as long as the position is before the counter. -/
def passUpTo (counter : UInt32) : (rounds : Nat) → ReceivingChain → Except Lapse ReceivingChain
  | 0, chain => if chain.chain.index < counter then .error .exhausted else .ok chain
  | rounds + 1, chain =>
    if chain.chain.index < counter then do
      let position ← chain.chain.follow
      passUpTo counter rounds { chain.pass with chain := position }
    else .ok chain

/-- Closes a chain in so many rounds. -/
def skipWithin (rounds : Nat) (chain : ReceivingChain) (counter : UInt32) :
    Except Lapse ReceivingChain :=
  if counter ≤ chain.chain.index then .ok chain
  else do
    let gap ← difference counter chain.chain.index
    if Limits.futureMessages < gap.toNat then return chain
    chain.passUpTo counter rounds

/-- Gives the keys of a message in so many rounds. -/
def keysWithin (rounds : Nat) (chain : ReceivingChain) (counter : UInt32) :
    Except Lapse (MessageKeys × ReceivingChain) :=
  if counter < chain.chain.index then
    match chain.take? counter with
    | some result => .ok result
    | none => .error (.failure (.duplicateMessage chain.chain.index counter))
  else do
    let gap ← difference counter chain.chain.index
    if Limits.futureMessages < gap.toNat then
      throw (.failure (.invalidMessage .tooFarAhead))
    let reached ← chain.passUpTo counter rounds
    let next ← reached.chain.follow
    return (reached.chain.messageKeys, { reached with chain := next })

/-- **Enough rounds for the messages that lie between pass exactly these**, and no index wraps. -/
theorem passUpTo_eq {counter : UInt32} {rounds : Nat} {chain : ReceivingChain}
    (near : counter.toNat - chain.chain.index.toNat ≤ rounds) :
    chain.passUpTo counter rounds =
      .ok (pass^[counter.toNat - chain.chain.index.toNat] chain) := by
  induction rounds generalizing chain with
  | zero =>
      have reached : ¬ chain.chain.index < counter := by
        rw [UInt32.lt_iff_toNat_lt]
        omega
      rw [passUpTo, if_neg reached, Nat.le_zero.mp near]
      rfl
  | succ rounds ih =>
      rw [passUpTo]
      by_cases ahead : chain.chain.index < counter
      · have lower := UInt32.lt_iff_toNat_lt.mp ahead
        have small := counter.toNat_lt
        have index : chain.pass.chain.index.toNat = chain.chain.index.toNat + 1 :=
          ChainKey.toNat_index_step (by omega)
        have between : counter.toNat - chain.chain.index.toNat =
            counter.toNat - chain.pass.chain.index.toNat + 1 := by omega
        have onward : { chain.pass with chain := chain.chain.step } = chain.pass := by
          simp only [pass]
        rw [if_pos ahead, ChainKey.follow_of_lt (by omega), Lapse.ok_bind, between,
          Function.iterate_succ_apply, onward]
        exact ih (by omega)
      · have reached : counter.toNat - chain.chain.index.toNat = 0 := by
          rw [UInt32.lt_iff_toNat_lt] at ahead
          omega
        rw [if_neg ahead, reached]
        rfl

/-- **Closing a chain takes no more rounds than a message may be ahead.** -/
theorem skipWithin_eq (chain : ReceivingChain) (counter : UInt32) :
    chain.skipWithin Limits.futureMessages counter = .ok (chain.skipTo counter) := by
  rw [skipWithin, skipTo_eq]
  by_cases passed : counter ≤ chain.chain.index
  · have notAhead : ¬ chain.chain.index < counter := UInt32.not_lt.mpr passed
    rw [if_pos passed, if_neg fun both => notAhead both.1]
  · have ahead : chain.chain.index < counter := UInt32.not_le.mp passed
    have ordered := UInt32.le_of_lt ahead
    rw [if_neg passed, difference_of_le ordered, Lapse.ok_bind,
      UInt32.toNat_sub_of_le _ _ ordered]
    by_cases far : Limits.futureMessages < counter.toNat - chain.chain.index.toNat
    · rw [if_pos far, if_neg fun both => Nat.not_le.mpr far both.2]
      rfl
    · have near := Nat.not_lt.mp far
      rw [if_neg far, if_pos ⟨ahead, near⟩]
      exact passUpTo_eq near

/-- **So does finding the keys of a message**, whether they are found or not. -/
theorem keysWithin_eq (chain : ReceivingChain) (counter : UInt32) :
    chain.keysWithin Limits.futureMessages counter =
      (chain.keysAt counter).mapError .failure := by
  rw [keysWithin]
  by_cases before : counter < chain.chain.index
  · rw [keysAt, if_pos before, if_pos before]
    cases chain.take? counter <;> rfl
  · have ordered : chain.chain.index ≤ counter := UInt32.not_lt.mp before
    rw [keysAt_of_le ordered, if_neg before, difference_of_le ordered, Lapse.ok_bind,
      UInt32.toNat_sub_of_le _ _ ordered]
    split
    · rfl
    · rename_i near
      rw [passUpTo_eq (Nat.not_lt.mp near), Lapse.ok_bind, ChainKey.follow]
      dsimp only
      cases (pass^[counter.toNat - chain.chain.index.toNat] chain).chain.next? <;> rfl

end ReceivingChain

end Ratchet
