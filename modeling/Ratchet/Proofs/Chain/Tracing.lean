import Ratchet.Proofs.Chain.Position
import Ratchet.Proofs.Chain.Progress
import Ratchet.Session.Messaging

/-!
# Receiving chains as progress along a chain

A receiving chain that began with some chain key is its progress along the
positions of that key (`ReceivingChain.tracing`). What the chain does is what
its progress does: closing it is `Progress.skipTo`
(`ReceivingChain.skipTo_tracing`), and the keys of a message are those of its
counter, given out exactly when `Progress.receive` admits the counter
(`ReceivingChain.keysAt_tracing`).
-/

set_option autoImplicit false

namespace Ratchet

namespace ReceivingChain

/-- The chain with this progress along the positions of a chain key. -/
def tracing (ratchetKey : PublicKey) (origin : ChainKey) (progress : Progress) :
    ReceivingChain where
  ratchetKey := ratchetKey
  chain := origin.ahead progress.reached
  skipped := progress.kept.map origin.keysOf

theorem tracing_start (ratchetKey : PublicKey) (origin : ChainKey) :
    tracing ratchetKey origin .start = ⟨ratchetKey, origin, []⟩ := rfl

theorem store_eq (chain : ReceivingChain) (keys : List MessageKeys)
    (bounded : chain.skipped.length ≤ Limits.skippedKeys) :
    chain.store keys =
      { chain with skipped := lastOf Limits.skippedKeys (chain.skipped ++ keys) } := by
  simp only [store]
  split
  · rename_i nothing
    rw [List.isEmpty_iff] at nothing
    rw [nothing, List.append_nil, lastOf_of_length_le bounded]
  · rfl

/-! ## Looking keys up by counter -/

theorem find?_keysOf {origin : ChainKey} (starts : origin.index = 0) (counter : UInt32)
    {numbers : List Nat} (fit : ∀ number ∈ numbers, number < 2 ^ 32) :
    (numbers.map origin.keysOf).find? (·.counter = counter) =
      if counter.toNat ∈ numbers then some (origin.keysOf counter.toNat) else none := by
  induction numbers with
  | nil => rfl
  | cons number rest ih =>
      have here : (origin.keysOf number).counter = counter ↔ number = counter.toNat :=
        ChainKey.counter_keysOf_eq_iff starts (fit number List.mem_cons_self)
      have there := ih fun other member => fit other (List.mem_cons_of_mem _ member)
      by_cases same : number = counter.toNat
      · simp [← same, here.2 same]
      · simp [here, same, Ne.symm same, there]

theorem eraseP_keysOf {origin : ChainKey} (starts : origin.index = 0) (counter : UInt32)
    {numbers : List Nat} (fit : ∀ number ∈ numbers, number < 2 ^ 32) :
    (numbers.map origin.keysOf).eraseP (·.counter = counter) =
      (numbers.erase counter.toNat).map origin.keysOf := by
  induction numbers with
  | nil => rfl
  | cons number rest ih =>
      have here : (origin.keysOf number).counter = counter ↔ number = counter.toNat :=
        ChainKey.counter_keysOf_eq_iff starts (fit number List.mem_cons_self)
      have there := ih fun other member => fit other (List.mem_cons_of_mem _ member)
      by_cases same : number = counter.toNat
      · simp [← same, here.2 same]
      · simp [here, same, there]

/-! ## What a chain does is what its progress does -/

section

variable {origin : ChainKey} {progress : Progress} (ratchetKey : PublicKey)

/-- Walking on from the reached position and keeping what is passed. -/
theorem store_walk_tracing (origin : ChainKey) (sound : progress.Sound) (position : ChainKey)
    (target : Nat) : { tracing ratchetKey origin progress with chain := position }.store
        ((origin.ahead progress.reached).walk (target - progress.reached)).1 =
      ⟨ratchetKey, position, (progress.keeping target).map origin.keysOf⟩ := by
  rw [store_eq, ChainKey.walk_ahead]
  · unfold Progress.keeping
    rw [map_lastOf, List.map_append]
    rfl
  · rw [tracing, List.length_map]
    exact sound.bounded

variable (starts : origin.index = 0) (sound : progress.Sound)
include starts sound

theorem toNat_index_tracing :
    (tracing ratchetKey origin progress).chain.index.toNat = progress.reached :=
  ChainKey.toNat_index_ahead starts sound.fits

theorem toNat_gap_tracing {counter : UInt32} (ahead : progress.reached ≤ counter.toNat) :
    (counter - (tracing ratchetKey origin progress).chain.index).toNat =
      counter.toNat - progress.reached := by
  have index := toNat_index_tracing ratchetKey starts sound
  rw [UInt32.toNat_sub_of_le, index]
  rw [UInt32.le_iff_toNat_le, index]
  exact ahead

/-- Closing a chain closes its progress. -/
theorem skipTo_tracing (counter : UInt32) :
    (tracing ratchetKey origin progress).skipTo counter =
      tracing ratchetKey origin (progress.skipTo counter) := by
  have index := toNat_index_tracing ratchetKey starts sound
  simp only [skipTo, Progress.skipTo]
  simp only [UInt32.le_iff_toNat_le, index]
  by_cases passed : counter.toNat ≤ progress.reached
  · rw [if_pos passed, if_pos passed]
  · have ahead : progress.reached ≤ counter.toNat := by omega
    rw [if_neg passed, if_neg passed]
    simp only [toNat_gap_tracing ratchetKey starts sound ahead]
    by_cases far : Limits.futureMessages < counter.toNat - progress.reached
    · rw [if_pos far, if_pos far]
    · rw [if_neg far, if_neg far]
      have stored := store_walk_tracing ratchetKey origin sound
        (origin.ahead counter.toNat) counter.toNat
      rw [ChainKey.walk_ahead] at stored
      show { tracing ratchetKey origin progress with
        chain := ((origin.ahead progress.reached).walk (counter.toNat - progress.reached)).2 }.store
          ((origin.ahead progress.reached).walk (counter.toNat - progress.reached)).1 = _
      rw [ChainKey.walk_ahead, Nat.add_sub_cancel' ahead]
      exact stored

/-- The kept keys of a counter are found exactly when the counter is kept. -/
theorem take?_tracing (counter : UInt32) :
    (tracing ratchetKey origin progress).take? counter =
      if counter.toNat ∈ progress.kept then
        some (origin.keysOf counter.toNat,
          tracing ratchetKey origin { progress with kept := progress.kept.erase counter.toNat })
      else none := by
  have fit : ∀ kept ∈ progress.kept, kept < 2 ^ 32 :=
    fun kept member => (sound.behind kept member).trans sound.fits
  have found := find?_keysOf starts counter fit
  have erased := eraseP_keysOf starts counter fit
  simp only [take?, tracing]
  simp only [found, erased]
  split <;> rfl

/-- The keys of a message are those of its counter, given out when the progress admits it. -/
theorem keysAt_tracing (counter : UInt32) :
    (tracing ratchetKey origin progress).keysAt counter =
      (progress.receive counter).map fun next =>
        (origin.keysOf counter.toNat, tracing ratchetKey origin next) := by
  have index := toNat_index_tracing ratchetKey starts sound
  simp only [keysAt, Progress.receive]
  simp only [UInt32.lt_iff_toNat_lt, index, take?_tracing ratchetKey starts sound]
  by_cases before : counter.toNat < progress.reached
  · rw [if_pos before, if_pos before]
    by_cases kept : counter.toNat ∈ progress.kept
    · simp only [if_pos kept]
      rfl
    · simp only [if_neg kept]
      show _ = Except.error (SessionError.duplicateMessage (.ofNat progress.reached) counter)
      rw [← ChainKey.index_ahead starts]
      rfl
  · have ahead : progress.reached ≤ counter.toNat := by omega
    rw [if_neg before, if_neg before]
    simp only [toNat_gap_tracing ratchetKey starts sound ahead]
    by_cases far : Limits.futureMessages < counter.toNat - progress.reached
    · rw [if_pos far, if_pos far]
      rfl
    · rw [if_neg far, if_neg far]
      have position : ((tracing ratchetKey origin progress).chain.walk
          (counter.toNat - progress.reached)).2 = origin.ahead counter.toNat := by
        show ((origin.ahead progress.reached).walk _).2 = _
        rw [ChainKey.walk_ahead, Nat.add_sub_cancel' ahead]
      simp only [position]
      by_cases last : counter.toNat + 1 = 2 ^ 32
      · rw [ChainKey.next?_ahead_last starts last, if_pos last]
        rfl
      · have small := counter.toNat_lt
        rw [ChainKey.next?_ahead starts (by omega), if_neg last]
        have stored := store_walk_tracing ratchetKey origin sound
          (origin.ahead (counter.toNat + 1)) counter.toNat
        exact congrArg (fun chain => Except.ok (origin.keysOf counter.toNat, chain)) stored

end

end ReceivingChain

end Ratchet
