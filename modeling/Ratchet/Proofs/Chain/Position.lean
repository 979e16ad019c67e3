import Mathlib.Algebra.Group.Nat.Defs
import Mathlib.Logic.Function.Iterate
import Ratchet.Chain

/-!
# Positions of a chain

A chain is its first position and the steps behind it. The position after
`count` steps is `ChainKey.ahead`, and the message with counter `counter` in a
chain that begins at zero has the keys `ChainKey.keysOf`. Walking over several
positions collects exactly these keys (`ChainKey.walk_ahead`).

The index of a position is one word, so a chain has an end. `ChainKey.advance?`
takes steps only where there is a next position, and agrees with `ahead` on the
whole length of a chain (`ChainKey.advance?_eq_ahead`).
-/

set_option autoImplicit false

namespace Ratchet

namespace ChainKey

/-- The position `count` steps behind this one. -/
def ahead (origin : ChainKey) (count : Nat) : ChainKey := step^[count] origin

/-- The keys of a message in the chain that begins here. -/
def keysOf (origin : ChainKey) (counter : Nat) : MessageKeys := (origin.ahead counter).messageKeys

/-- The position `count` steps behind this one, if the chain is that long. -/
def advance? (origin : ChainKey) : (count : Nat) → Option ChainKey
  | 0 => some origin
  | count + 1 => (origin.advance? count).bind next?

@[simp]
theorem ahead_zero (origin : ChainKey) : origin.ahead 0 = origin := rfl

theorem ahead_succ (origin : ChainKey) (count : Nat) :
    origin.ahead (count + 1) = (origin.ahead count).step :=
  Function.iterate_succ_apply' step count origin

theorem step_ahead (origin : ChainKey) (count : Nat) :
    origin.step.ahead count = origin.ahead (count + 1) :=
  (Function.iterate_succ_apply step count origin).symm

theorem ahead_ahead (origin : ChainKey) (first second : Nat) :
    (origin.ahead first).ahead second = origin.ahead (first + second) := by
  rw [ahead, ahead, ahead, ← Function.iterate_add_apply, Nat.add_comm]

/-! ## The index of a position -/

theorem toNat_index_step {chain : ChainKey} (fits : chain.index.toNat + 1 < 2 ^ 32) :
    chain.step.index.toNat = chain.index.toNat + 1 := by
  show (chain.index + 1).toNat = _
  rw [UInt32.toNat_add]
  exact Nat.mod_eq_of_lt fits

theorem toNat_index_ahead_of_lt {chain : ChainKey} {count : Nat}
    (fits : chain.index.toNat + count < 2 ^ 32) :
    (chain.ahead count).index.toNat = chain.index.toNat + count := by
  induction count with
  | zero => rfl
  | succ count ih =>
      have before := ih (by omega)
      rw [ahead_succ, toNat_index_step (by omega), before]
      rfl

theorem next?_of_lt {chain : ChainKey} (fits : chain.index.toNat + 1 < 2 ^ 32) :
    chain.next? = some chain.step := by
  have differs : chain.index ≠ 0xFFFFFFFF := by
    intro last
    rw [last] at fits
    exact absurd fits (by decide)
  rw [next?, if_neg differs]

/-- Where there is a next position, it is one step ahead and its index has not wrapped. -/
theorem next?_eq_some {chain next : ChainKey} (follows : chain.next? = some next) :
    next = chain.step ∧ chain.index.toNat + 1 < 2 ^ 32 := by
  simp only [next?] at follows
  split at follows
  · cases follows
  · rename_i differs
    cases follows
    refine ⟨rfl, ?_⟩
    have small := chain.index.toNat_lt
    have notLast : chain.index.toNat ≠ 2 ^ 32 - 1 := by
      intro last
      exact differs (UInt32.toNat_inj.mp last)
    omega

/-! ## Chains that begin at zero -/

theorem index_ahead {origin : ChainKey} (starts : origin.index = 0) (count : Nat) :
    (origin.ahead count).index = UInt32.ofNat count := by
  induction count with
  | zero => exact starts
  | succ count ih =>
      rw [ahead_succ]
      show (origin.ahead count).index + 1 = _
      rw [ih, UInt32.ofNat_add]
      rfl

theorem toNat_index_ahead {origin : ChainKey} (starts : origin.index = 0) {count : Nat}
    (fits : count < 2 ^ 32) : (origin.ahead count).index.toNat = count := by
  rw [index_ahead starts, UInt32.toNat_ofNat_of_lt' fits]

theorem counter_keysOf {origin : ChainKey} (starts : origin.index = 0) (counter : Nat) :
    (origin.keysOf counter).counter = UInt32.ofNat counter :=
  index_ahead starts counter

theorem counter_keysOf_eq_iff {origin : ChainKey} (starts : origin.index = 0) {number : Nat}
    (fits : number < 2 ^ 32) {counter : UInt32} :
    (origin.keysOf number).counter = counter ↔ number = counter.toNat := by
  rw [counter_keysOf starts, ← UInt32.toNat_inj, UInt32.toNat_ofNat_of_lt' fits]

/-- Each position but the last is followed by another one. -/
theorem next?_ahead {origin : ChainKey} (starts : origin.index = 0) {count : Nat}
    (fits : count + 1 < 2 ^ 32) : (origin.ahead count).next? = some (origin.ahead (count + 1)) := by
  have short : (origin.ahead count).index.toNat + 1 < 2 ^ 32 := by
    rw [toNat_index_ahead starts (by omega)]
    exact fits
  rw [next?_of_lt short, ahead_succ]

theorem next?_ahead_last {origin : ChainKey} (starts : origin.index = 0) {count : Nat}
    (last : count + 1 = 2 ^ 32) : (origin.ahead count).next? = none := by
  have same : (origin.ahead count).index = 0xFFFFFFFF := by
    rw [index_ahead starts, show count = 0xFFFFFFFF by omega]
    rfl
  rw [next?, if_pos same]

/-- Stepping on from a position of a chain gives the later positions of the chain. -/
theorem advance?_ahead {origin : ChainKey} (starts : origin.index = 0) {reached count : Nat}
    (fits : reached + count < 2 ^ 32) :
    (origin.ahead reached).advance? count = some (origin.ahead (reached + count)) := by
  induction count with
  | zero => rfl
  | succ count ih =>
      rw [advance?, ih (by omega)]
      exact next?_ahead starts fits

theorem advance?_eq_ahead {origin : ChainKey} (starts : origin.index = 0) {count : Nat}
    (fits : count < 2 ^ 32) : origin.advance? count = some (origin.ahead count) := by
  have advanced := advance?_ahead starts (by omega : 0 + count < 2 ^ 32)
  rw [Nat.zero_add] at advanced
  exact advanced

/-! ## Walking -/

theorem walk_eq (chain : ChainKey) (count : Nat) :
    chain.walk count =
      ((List.range count).map fun passed => (chain.ahead passed).messageKeys,
        chain.ahead count) := by
  induction count generalizing chain with
  | zero => rfl
  | succ count ih =>
      rw [walk, ih chain.step, List.range_succ_eq_map]
      simp only [List.map_cons, List.map_map, Function.comp_def, step_ahead, ahead_zero]

/-- Walking collects the keys of the counters it passes, in order. -/
theorem walk_ahead (origin : ChainKey) (reached count : Nat) :
    (origin.ahead reached).walk count =
      ((List.range' reached count).map origin.keysOf, origin.ahead (reached + count)) := by
  rw [walk_eq, ahead_ahead, List.range'_eq_map_range, List.map_map]
  simp only [ahead_ahead, Function.comp_def, keysOf]

end ChainKey

end Ratchet
