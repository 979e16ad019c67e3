import Mathlib.Algebra.Group.Nat.Defs
import Mathlib.Data.List.Infix
import Mathlib.Data.List.Perm.Subperm
import Ratchet.Error
import Ratchet.Session.Basic

/-!
# How far a receiving chain has come

Which messages a receiving chain can still read is a matter of counters alone:
the position it has reached, and the counters behind it whose keys are kept.
This is its `Progress`. It moves when the chain is closed by the peer
(`Progress.skipTo`) and when a message is received (`Progress.receive`).

The kept counters ascend, lie behind the position, and are not too many
(`Progress.Sound`); every move keeps this. A counter is awaited while its
message can still be received. A received counter is awaited no longer
(`Progress.not_awaits_of_receive`), and no move makes a counter awaited again
(`Progress.awaits_of_skipTo`, `Progress.awaits_of_receive`).

A chain forgets kept counters only when it has no room for them. As long as it
does (`Progress.RoomFor`), and so always in a short chain, a counter that is awaited
is received, and no other stops being awaited (`Progress.RoomFor.awaits_iff`).
-/

set_option autoImplicit false

namespace Ratchet

/-! ## The last elements of a list -/

theorem lastOf_sublist {α : Type} (count : Nat) (list : List α) :
    (lastOf count list).Sublist list :=
  List.drop_sublist _ _

theorem length_lastOf_le {α : Type} (count : Nat) (list : List α) :
    (lastOf count list).length ≤ count := by
  simp only [lastOf, List.length_drop]
  omega

theorem lastOf_of_length_le {α : Type} {count : Nat} {list : List α}
    (short : list.length ≤ count) : lastOf count list = list := by
  rw [lastOf, Nat.sub_eq_zero_of_le short, List.drop_zero]

theorem map_lastOf {α β : Type} (count : Nat) (list : List α) (function : α → β) :
    (lastOf count list).map function = lastOf count (list.map function) := by
  simp only [lastOf, List.map_drop, List.length_map]

/-- Forgetting early what would be forgotten anyway changes nothing. -/
theorem lastOf_lastOf_append {α : Type} (count : Nat) (list tail : List α) :
    lastOf count (lastOf count list ++ tail) = lastOf count (list ++ tail) := by
  simp only [lastOf, List.drop_append, List.drop_drop, List.length_drop, List.length_append]
  congr 2 <;> omega

/-- Of a list that is not longer than allowed, one more element drives out at most the first. -/
theorem lastOf_append_singleton {α : Type} {count : Nat} {list : List α}
    (few : list.length ≤ count) (positive : 0 < count) (last : α) :
    lastOf count (list ++ [last]) =
      (if list.length = count then list.tail else list) ++ [last] := by
  by_cases full : list.length = count
  · have length : (list ++ [last]).length - count = 1 := by
      rw [List.length_append, List.length_singleton]
      omega
    have some : 1 ≤ list.length := by omega
    rw [if_pos full, lastOf, length, List.drop_append_of_le_length some, List.drop_one]
  · have short : (list ++ [last]).length ≤ count := by
      rw [List.length_append, List.length_singleton]
      omega
    rw [if_neg full, lastOf_of_length_le short]

/-- The elements before the last ones are the rest of a list. -/
theorem take_append_lastOf {α : Type} (count : Nat) (list : List α) :
    list.take (list.length - count) ++ lastOf count list = list :=
  List.take_append_drop _ _

/-- The end of a list is among the last elements, if there are enough of them. -/
theorem mem_lastOf_append {α : Type} {count : Nat} {list tail : List α} {item : α}
    (few : tail.length ≤ count) (member : item ∈ tail) : item ∈ lastOf count (list ++ tail) := by
  rw [lastOf, List.drop_append_of_le_length]
  · exact List.mem_append_right _ member
  · rw [List.length_append]
    omega

/-! ## Progress -/

/-- The position a receiving chain has reached, and the counters whose keys it keeps. -/
structure Progress where
  reached : Nat
  /-- Oldest first. -/
  kept : List Nat
deriving DecidableEq

namespace Progress

/-- A chain of which nothing has been received. -/
def start : Progress := ⟨0, []⟩

/-- The counters that are kept when the chain goes on to `target`. -/
@[irreducible]
def keeping (progress : Progress) (target : Nat) : List Nat :=
  lastOf Limits.skippedKeys
    (progress.kept ++ List.range' progress.reached (target - progress.reached))

/-- Goes on to a counter that is ahead, but not too far. -/
def skipTo (progress : Progress) (counter : UInt32) : Progress :=
  if counter.toNat ≤ progress.reached then progress
  else if Limits.futureMessages < counter.toNat - progress.reached then progress
  else ⟨counter.toNat, progress.keeping counter.toNat⟩

/-- The progress after the message with this counter. -/
def receive (progress : Progress) (counter : UInt32) : Except SessionError Progress :=
  if counter.toNat < progress.reached then
    if counter.toNat ∈ progress.kept then
      .ok { progress with kept := progress.kept.erase counter.toNat }
    else .error (.duplicateMessage (.ofNat progress.reached) counter)
  else if Limits.futureMessages < counter.toNat - progress.reached then
    .error (.invalidMessage .tooFarAhead)
  else if counter.toNat + 1 = 2 ^ 32 then .error (.invalidState .chainOverflow)
  else .ok ⟨counter.toNat + 1, progress.keeping counter.toNat⟩

/-- The message with this counter can still be received. -/
def Awaits (progress : Progress) (counter : Nat) : Prop :=
  progress.reached ≤ counter ∨ counter ∈ progress.kept

/-- The kept counters ascend, lie behind the position, and are not too many. -/
structure Sound (progress : Progress) : Prop where
  fits : progress.reached < 2 ^ 32
  ascending : progress.kept.Pairwise (· < ·)
  behind : ∀ counter ∈ progress.kept, counter < progress.reached
  bounded : progress.kept.length ≤ Limits.skippedKeys

theorem Sound.start : start.Sound where
  fits := by decide
  ascending := .nil
  behind := by simp [Progress.start]
  bounded := Nat.zero_le _

theorem mem_keeping {progress : Progress} {target counter : Nat}
    (member : counter ∈ progress.keeping target) :
    counter ∈ progress.kept ∨ progress.reached ≤ counter ∧ counter < target := by
  unfold keeping at member
  have listed := (lastOf_sublist _ _).subset member
  rw [List.mem_append, List.mem_range'_1] at listed
  rcases listed with old | ⟨above, below⟩
  · exact .inl old
  · exact .inr ⟨above, by omega⟩

theorem Sound.ascending_keeping {progress : Progress} (sound : progress.Sound) (target : Nat) :
    (progress.keeping target).Pairwise (· < ·) := by
  unfold keeping
  refine List.Pairwise.sublist (lastOf_sublist _ _) ?_
  rw [List.pairwise_append]
  refine ⟨sound.ascending, List.pairwise_lt_range', ?_⟩
  intro old oldMember new newMember
  rw [List.mem_range'_1] at newMember
  exact (sound.behind old oldMember).trans_le newMember.1

theorem Sound.behind_keeping {progress : Progress} (sound : progress.Sound) {target : Nat}
    (ahead : progress.reached ≤ target) :
    ∀ counter ∈ progress.keeping target, counter < target := by
  intro counter member
  rcases mem_keeping member with old | ⟨_, below⟩
  · exact (sound.behind counter old).trans_le ahead
  · exact below

/-- A chain that passes as many messages as it keeps forgets all that it kept before. -/
theorem keeping_of_far {progress : Progress} {target : Nat}
    (far : target - progress.reached = Limits.skippedKeys) :
    progress.keeping target = List.range' progress.reached Limits.skippedKeys := by
  unfold keeping
  rw [far, lastOf, List.length_append, List.length_range', Nat.add_sub_cancel, List.drop_left]

theorem length_keeping_le (progress : Progress) (target : Nat) :
    (progress.keeping target).length ≤ Limits.skippedKeys := by
  unfold keeping
  exact length_lastOf_le _ _

theorem Sound.skipTo {progress : Progress} (sound : progress.Sound) (counter : UInt32) :
    (progress.skipTo counter).Sound := by
  simp only [Progress.skipTo]
  split
  · exact sound
  · split
    · exact sound
    · exact {
        fits := counter.toNat_lt
        ascending := sound.ascending_keeping _
        behind := sound.behind_keeping (by omega)
        bounded := length_keeping_le _ _ }

/-- What a received message does to progress: its kept counter is used up, or
the chain goes on beyond it. -/
theorem receive_cases {progress next : Progress} {counter : UInt32}
    (received : progress.receive counter = .ok next) :
    (counter.toNat < progress.reached ∧ counter.toNat ∈ progress.kept ∧
      next = { progress with kept := progress.kept.erase counter.toNat }) ∨
    (progress.reached ≤ counter.toNat ∧ counter.toNat + 1 < 2 ^ 32 ∧
      counter.toNat - progress.reached ≤ Limits.futureMessages ∧
      next = ⟨counter.toNat + 1, progress.keeping counter.toNat⟩) := by
  have small := counter.toNat_lt
  simp only [receive] at received
  split at received
  · rename_i before
    split at received
    · rename_i kept
      cases received
      exact .inl ⟨before, kept, rfl⟩
    · cases received
  · rename_i notBefore
    split at received
    · cases received
    · rename_i near
      split at received
      · cases received
      · cases received
        exact .inr ⟨by omega, by omega, by omega, rfl⟩

theorem Sound.receive {progress next : Progress} (sound : progress.Sound) {counter : UInt32}
    (received : progress.receive counter = .ok next) : next.Sound := by
  rcases receive_cases received with ⟨_, _, rfl⟩ | ⟨ahead, fits, _, rfl⟩
  · exact {
      fits := sound.fits
      ascending := sound.ascending.sublist List.erase_sublist
      behind := fun counter member => sound.behind counter (List.mem_of_mem_erase member)
      bounded := (List.length_erase_le).trans sound.bounded }
  · exact {
      fits := fits
      ascending := sound.ascending_keeping _
      behind := fun other member =>
        (sound.behind_keeping ahead other member).trans (Nat.lt_succ_self _)
      bounded := length_keeping_le _ _ }

/-- A received counter is awaited no longer. -/
theorem not_awaits_of_receive {progress next : Progress} (sound : progress.Sound)
    {counter : UInt32} (received : progress.receive counter = .ok next) :
    ¬ next.Awaits counter.toNat := by
  rcases receive_cases received with ⟨before, _, rfl⟩ | ⟨ahead, _, _, rfl⟩
  · rintro (above | kept)
    · exact absurd before (Nat.not_lt.mpr above)
    · have distinct : progress.kept.Nodup := sound.ascending.imp Nat.ne_of_lt
      exact distinct.not_mem_erase kept
  · rintro (above | kept)
    · exact absurd above (Nat.not_succ_le_self _)
    · rcases mem_keeping kept with old | ⟨_, below⟩
      · exact absurd (sound.behind _ old) (Nat.not_lt.mpr ahead)
      · exact Nat.lt_irrefl _ below

/-- What is not awaited will never be. -/
theorem awaits_of_skipTo {progress : Progress} {limit : UInt32} {counter : Nat}
    (awaited : (progress.skipTo limit).Awaits counter) : progress.Awaits counter := by
  simp only [Progress.skipTo] at awaited
  split at awaited
  · exact awaited
  · split at awaited
    · exact awaited
    · rcases awaited with above | kept
      · change limit.toNat ≤ counter at above
        exact .inl (by omega)
      · rcases mem_keeping kept with old | ⟨above, _⟩
        · exact .inr old
        · exact .inl above

theorem awaits_of_receive {progress next : Progress} {counter : UInt32}
    (received : progress.receive counter = .ok next) {other : Nat}
    (awaited : next.Awaits other) : progress.Awaits other := by
  rcases receive_cases received with ⟨_, _, rfl⟩ | ⟨ahead, _, _, rfl⟩
  · rcases awaited with above | kept
    · exact .inl above
    · exact .inr (List.mem_of_mem_erase kept)
  · rcases awaited with above | kept
    · change counter.toNat + 1 ≤ other at above
      exact .inl (by omega)
    · rcases mem_keeping kept with old | ⟨above, _⟩
      · exact .inr old
      · exact .inl above

/-- A counter that is not awaited is refused as a duplicate. -/
theorem receive_of_not_awaits {progress : Progress} {counter : UInt32}
    (done : ¬ progress.Awaits counter.toNat) :
    progress.receive counter = .error (.duplicateMessage (.ofNat progress.reached) counter) := by
  rw [Awaits, not_or, Nat.not_le] at done
  rw [receive, if_pos done.1, if_neg done.2]

theorem reached_skipTo_le (progress : Progress) (limit : UInt32) :
    (progress.skipTo limit).reached ≤ max progress.reached limit.toNat := by
  simp only [skipTo]
  split
  · exact Nat.le_max_left _ _
  · split
    · exact Nat.le_max_left _ _
    · exact Nat.le_max_right _ _

theorem reached_of_receive {progress next : Progress} {counter : UInt32}
    (received : progress.receive counter = .ok next) :
    next.reached = max progress.reached (counter.toNat + 1) := by
  rcases receive_cases received with ⟨passed, _, rfl⟩ | ⟨ahead, _, _, rfl⟩
  · exact (Nat.max_eq_left (Nat.succ_le_of_lt passed)).symm
  · exact (Nat.max_eq_right (ahead.trans (Nat.le_succ _))).symm

/-! ## Chains with room forget nothing -/

/-- The chain can go on to this counter and keep the keys of all that it passes. -/
def RoomFor (progress : Progress) (counter : Nat) : Prop :=
  progress.kept.length + (counter - progress.reached) ≤ Limits.skippedKeys

section

variable {progress next : Progress} {counter : UInt32}

theorem RoomFor.keeping_eq {target : Nat} (room : progress.RoomFor target) :
    progress.keeping target =
      progress.kept ++ List.range' progress.reached (target - progress.reached) := by
  unfold keeping
  apply lastOf_of_length_le
  rw [List.length_append, List.length_range']
  exact room

/-- What is awaited is kept when the chain goes on beyond it. -/
theorem RoomFor.mem_keeping {target other : Nat} (room : progress.RoomFor target)
    (awaited : progress.Awaits other) (passed : other < target) :
    other ∈ progress.keeping target := by
  rw [room.keeping_eq, List.mem_append, List.mem_range'_1]
  rcases awaited with above | kept
  · exact .inr ⟨above, by omega⟩
  · exact .inl kept

/-- What is awaited is received, if the chain has a position after it. -/
theorem RoomFor.exists_receive (room : progress.RoomFor counter.toNat)
    (awaited : progress.Awaits counter.toNat) (fits : counter.toNat + 1 < 2 ^ 32) :
    ∃ next, progress.receive counter = .ok next := by
  simp only [Progress.receive]
  by_cases passed : counter.toNat < progress.reached
  · have kept : counter.toNat ∈ progress.kept :=
      awaited.resolve_left (Nat.not_le.mpr passed)
    rw [if_pos passed, if_pos kept]
    exact ⟨_, rfl⟩
  · have near : ¬ Limits.futureMessages < counter.toNat - progress.reached := by
      have gap : counter.toNat - progress.reached ≤ Limits.skippedKeys :=
        (Nat.le_add_left _ _).trans room
      exact Nat.not_lt.mpr gap
    rw [if_neg passed, if_neg near, if_neg (Nat.ne_of_lt fits)]
    exact ⟨_, rfl⟩

/-- **Receiving a counter strikes it from those that are awaited, and no other.** -/
theorem RoomFor.awaits_iff (room : progress.RoomFor counter.toNat) (sound : progress.Sound)
    (received : progress.receive counter = .ok next) (other : Nat) :
    next.Awaits other ↔ progress.Awaits other ∧ other ≠ counter.toNat := by
  constructor
  · intro awaited
    refine ⟨awaits_of_receive received awaited, ?_⟩
    rintro rfl
    exact not_awaits_of_receive sound received awaited
  · rintro ⟨awaited, different⟩
    rcases receive_cases received with ⟨_, _, rfl⟩ | ⟨ahead, _, _, rfl⟩
    · exact awaited.imp_right (List.mem_erase_of_ne different).mpr
    · rcases Nat.lt_or_gt_of_ne different with passed | beyond
      · exact .inr (room.mem_keeping awaited passed)
      · exact .inl beyond

/-- There is still room when a counter has been received for which there was. -/
theorem RoomFor.receive {other : Nat} (roomOther : progress.RoomFor other)
    (room : progress.RoomFor counter.toNat) (received : progress.receive counter = .ok next) :
    next.RoomFor other := by
  rcases receive_cases received with ⟨_, _, rfl⟩ | ⟨ahead, _, _, rfl⟩
  · have fewer : (progress.kept.erase counter.toNat).length ≤ progress.kept.length :=
      List.length_erase_le
    simp only [RoomFor] at roomOther ⊢
    omega
  · have more : (progress.keeping counter.toNat).length =
        progress.kept.length + (counter.toNat - progress.reached) := by
      rw [room.keeping_eq, List.length_append, List.length_range']
    simp only [RoomFor] at room roomOther ⊢
    omega

end

/-! ## Short chains have room -/

/-- No more counters are kept than were passed. -/
theorem Sound.length_kept_le {progress : Progress} (sound : progress.Sound) :
    progress.kept.length ≤ progress.reached := by
  have distinct : progress.kept.Nodup := sound.ascending.imp Nat.ne_of_lt
  have passed : progress.kept ⊆ List.range progress.reached :=
    fun counter member => List.mem_range.mpr (sound.behind counter member)
  have fewer := (List.subperm_of_subset distinct passed).length_le
  rwa [List.length_range] at fewer

theorem Sound.roomFor_of_short {progress : Progress} (sound : progress.Sound) {counter : Nat}
    (short : counter ≤ Limits.skippedKeys) : progress.RoomFor counter := by
  have kept := sound.length_kept_le
  have bounded := sound.bounded
  simp only [RoomFor]
  omega

/-- Closing a short chain leaves everything awaited that was. -/
theorem Sound.awaits_skipTo {progress : Progress} (sound : progress.Sound) {limit : UInt32}
    (short : limit.toNat ≤ Limits.skippedKeys) {counter : Nat}
    (awaited : progress.Awaits counter) : (progress.skipTo limit).Awaits counter := by
  simp only [Progress.skipTo]
  split
  · exact awaited
  · split
    · exact awaited
    · by_cases passed : counter < limit.toNat
      · exact .inr ((sound.roomFor_of_short short).mem_keeping awaited passed)
      · exact .inl (Nat.not_lt.mp passed)

/-- In a short chain an awaited message is received, and everything else stays awaited. -/
theorem Sound.receive_of_awaits {progress : Progress} (sound : progress.Sound) {counter : UInt32}
    (short : counter.toNat ≤ Limits.skippedKeys) (awaited : progress.Awaits counter.toNat) :
    ∃ next, progress.receive counter = .ok next ∧
      ∀ other, other ≠ counter.toNat → progress.Awaits other → next.Awaits other := by
  have room := sound.roomFor_of_short short
  have fits : counter.toNat + 1 < 2 ^ 32 :=
    (Nat.succ_le_succ short).trans_lt (by decide : Limits.skippedKeys + 1 < 2 ^ 32)
  obtain ⟨next, received⟩ := room.exists_receive awaited fits
  exact ⟨next, received, fun other different stillAwaited =>
    (room.awaits_iff sound received other).mpr ⟨stillAwaited, different⟩⟩

end Progress

end Ratchet
