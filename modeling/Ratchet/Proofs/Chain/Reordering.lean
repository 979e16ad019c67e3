import Mathlib.Data.List.Sort
import Ratchet.Proofs.Chain.Progress

/-!
# The order of messages in a chain

As long as a chain has room for all keys that it passes (`Progress.RoomFor`), its
progress is known from two things: how far the chain has come, and which
counters it awaits (`Progress.Sound.eq_of_awaits`). Receiving a counter makes the
chain come at least one beyond it, and strikes this counter from those that are
awaited and no other (`Progress.RoomFor.awaits_iff`). Neither depends on when it
happens, so two counters that are received one after the other are received the
other way round as well, with the same progress in the end
(`Progress.receive_swap`).
-/

set_option autoImplicit false

namespace Ratchet

namespace Progress

theorem Sound.mem_kept_iff {progress : Progress} (sound : progress.Sound) (counter : Nat) :
    counter ∈ progress.kept ↔ progress.Awaits counter ∧ counter < progress.reached := by
  constructor
  · intro kept
    exact ⟨.inr kept, sound.behind counter kept⟩
  · rintro ⟨above | kept, passed⟩
    · exact absurd passed (Nat.not_lt.mpr above)
    · exact kept

/-- Progress is how far a chain has come and what it awaits. -/
theorem Sound.eq_of_awaits {first second : Progress} (sound : first.Sound)
    (soundSecond : second.Sound) (reached : first.reached = second.reached)
    (awaits : ∀ counter, first.Awaits counter ↔ second.Awaits counter) : first = second := by
  have kept : first.kept = second.kept := by
    apply sound.ascending.eq_of_mem_iff soundSecond.ascending
    intro counter
    rw [sound.mem_kept_iff, soundSecond.mem_kept_iff, awaits counter, reached]
  cases first
  cases second
  cases reached
  cases kept
  rfl

/-- Only what is awaited is received, and only with a position after it. -/
theorem Sound.awaits_of_received {progress next : Progress} {counter : UInt32}
    (sound : progress.Sound) (received : progress.receive counter = .ok next) :
    progress.Awaits counter.toNat ∧ counter.toNat + 1 < 2 ^ 32 := by
  rcases receive_cases received with ⟨passed, kept, _⟩ | ⟨ahead, fits, _, _⟩
  · exact ⟨.inr kept, (Nat.succ_le_of_lt passed).trans_lt sound.fits⟩
  · exact ⟨.inl ahead, fits⟩

/-- **Two counters that are received are received in either order.** -/
theorem receive_swap {progress next final : Progress} {counter later : UInt32}
    (sound : progress.Sound) (room : progress.RoomFor counter.toNat)
    (roomLater : progress.RoomFor later.toNat)
    (received : progress.receive counter = .ok next)
    (receivedLater : next.receive later = .ok final) :
    ∃ first, progress.receive later = .ok first ∧ first.receive counter = .ok final := by
  have soundNext := sound.receive received
  have roomNext := roomLater.receive room received
  obtain ⟨awaits, fits⟩ := sound.awaits_of_received received
  obtain ⟨awaitsLater, fitsLater⟩ := soundNext.awaits_of_received receivedLater
  obtain ⟨awaitedLater, different⟩ := (room.awaits_iff sound received _).mp awaitsLater
  obtain ⟨first, receivedFirst⟩ := roomLater.exists_receive awaitedLater fitsLater
  have soundFirst := sound.receive receivedFirst
  have roomFirst := room.receive roomLater receivedFirst
  have awaitsFirst : first.Awaits counter.toNat :=
    (roomLater.awaits_iff sound receivedFirst _).mpr ⟨awaits, different.symm⟩
  obtain ⟨last, receivedLast⟩ := roomFirst.exists_receive awaitsFirst fits
  have same : last = final := by
    apply (soundFirst.receive receivedLast).eq_of_awaits (soundNext.receive receivedLater)
    · rw [reached_of_receive receivedLast, reached_of_receive receivedFirst,
        reached_of_receive receivedLater, reached_of_receive received, Nat.max_right_comm]
    · intro other
      rw [roomFirst.awaits_iff soundFirst receivedLast, roomLater.awaits_iff sound receivedFirst,
        roomNext.awaits_iff soundNext receivedLater, room.awaits_iff sound received,
        and_right_comm]
  exact ⟨first, receivedFirst, same ▸ receivedLast⟩

end Progress

end Ratchet
