import Ratchet.Proofs.Dialogue.Invariant

/-!
# Receiving in a dialogue

A letter is on a rung that its receiver has a chain of, on the next rung above
the receiver, or on a rung whose chain the receiver has forgotten. In the first
case the chain gives the text and goes on (`Party.Stands.run_decrypt_recent`,
`Track.advance`). In the second the receiver closes the rung two below and steps
up two rungs (`Party.Stands.run_decrypt_next`, `Track.turn`). In the third
nothing is promised, and in a regular dialogue the letter is refused.
-/

set_option autoImplicit false

namespace Ratchet

/-- The track after a letter on a rung whose chain was there. -/
def Track.advance (track : Track) (rung : Nat) (next : Progress) : Track :=
  { track with progress := Function.update track.progress rung next }

/-- The track after a letter on the next rung above its receiver. -/
def Track.turn (track : Track) (side : Side) (next : Progress) : Track :=
  { track with
    top := Function.update track.top side (track.top side + 2)
    progress := Function.update
      (Ladder.closed track.progress (track.top side) (.ofNat (track.before (track.top side + 1))))
      (track.top side + 1) next }

@[simp]
theorem Track.progress_advance_self (track : Track) (rung : Nat) (next : Progress) :
    (track.advance rung next).progress rung = next :=
  Function.update_self _ _ _

theorem Track.progress_advance_of_ne (track : Track) {rung other : Nat} (different : other ≠ rung)
    (next : Progress) : (track.advance rung next).progress other = track.progress other :=
  Function.update_of_ne different _ _

@[simp]
theorem Track.top_turn_self (track : Track) (side : Side) (next : Progress) :
    (track.turn side next).top side = track.top side + 2 :=
  Function.update_self _ _ _

theorem Track.top_turn_of_ne (track : Track) {side other : Side} (different : other ≠ side)
    (next : Progress) : (track.turn side next).top other = track.top other :=
  Function.update_of_ne different _ _

@[simp]
theorem Track.progress_turn_self (track : Track) (side : Side) (next : Progress) :
    (track.turn side next).progress (track.top side + 1) = next :=
  Function.update_self _ _ _

/-- The rung below the one that was left is closed. -/
theorem Track.progress_turn_below (track : Track) {side : Side} {rung : Nat}
    (below : rung + 1 = track.top side) (next : Progress) :
    (track.turn side next).progress rung =
      (track.progress rung).skipTo (.ofNat (track.before (track.top side + 1))) := by
  refine (Function.update_of_ne (by omega) _ _).trans ?_
  rw [← below]
  exact Function.update_self _ _ _

theorem Track.progress_turn_of_ne (track : Track) {side : Side} {rung : Nat}
    (notAbove : rung ≠ track.top side + 1) (notBelow : rung + 1 ≠ track.top side)
    (next : Progress) : (track.turn side next).progress rung = track.progress rung :=
  (Function.update_of_ne notAbove _ _).trans (Ladder.closed_of_ne notBelow _)

section

variable {ladder : Ladder} {identity : Side → PublicKey} {track : Track} {party : Party}
  {side : Side}

/-! ## A rung whose chain is there -/

/-- The party that receives keeps standing on its rung. -/
theorem Party.Stands.advance_self (stands : party.Stands ladder identity track side)
    (apart : ladder.Apart (track.top side)) {rung : Nat}
    (member : rung ∈ Ladder.recent (track.top side)) (next : Progress) :
    Party.Stands ladder identity (track.advance rung next) side
      ⟨{ party.session.putReceiving (.tracing (ladder.key rung) (ladder.chain rung) next) with
        pendingPrekey := none }, party.heard⟩ := by
  have fields := party.session.putReceiving_eq
    (.tracing (ladder.key rung) (ladder.chain rung) next)
  exact {
    version := (congrArg Session.storedVersion fields).trans stands.version
    localIdentity := (congrArg Session.localIdentity fields).trans stands.localIdentity
    remoteIdentity := (congrArg Session.remoteIdentity fields).trans stands.remoteIdentity
    root := (congrArg Session.root fields).trans stands.root
    previous := (congrArg Session.previousCounter fields).trans stands.previous
    sending := (congrArg Session.sending fields).trans stands.sending
    receiving := Ladder.receiving_putReceiving_known apart stands.receiving member next
    heard := stands.heard }

/-- The party that does not receive has nothing to do with the rung. -/
theorem Party.Stands.advance_other (stands : party.Stands ladder identity track side)
    {rung : Nat} (own : rung % 2 = track.top side % 2) (next : Progress) :
    party.Stands ladder identity (track.advance rung next) side where
  version := stands.version
  localIdentity := stands.localIdentity
  remoteIdentity := stands.remoteIdentity
  root := stands.root
  previous := stands.previous
  sending := stands.sending
  receiving := by
    refine stands.receiving.trans (Ladder.chains_congr fun other parity => ?_).symm
    exact track.progress_advance_of_ne (fun same => parity (by rw [same, own])) next
  heard := stands.heard

variable {letter : Letter} {rung counter : Nat}

/-- A letter is of its receiver's version, and on the key of its rung. -/
theorem Party.Stands.version_eq (stands : party.Stands ladder identity track side)
    (posted : letter.Posted ladder identity track rung counter) :
    letter.message.inner.version = party.session.version ∧
      letter.message.inner.ratchetKey = ladder.key rung := by
  obtain ⟨sender, version, _, _, _, made⟩ := posted.sealed
  rw [made]
  refine ⟨?_, rfl⟩
  show sender.version = party.session.version
  simp only [Session.version]
  rw [version, stands.version]

/-- A letter on a rung whose chain is there gives its text. -/
theorem Party.Stands.run_decrypt_recent
    (stands : party.Stands ladder identity track letter.sender.other)
    (starts : ladder.first.2.index = 0) (apart : ladder.Apart (track.top letter.sender.other))
    (sound : (track.progress rung).Sound) (short : track.sent rung ≤ 2000)
    (posted : letter.Posted ladder identity track rung counter)
    (member : rung ∈ Ladder.recent (track.top letter.sender.other)) {next : Progress}
    (received : (track.progress rung).receive (.ofNat counter) = .ok next) (supply : Supply) :
    (party.session.decrypt ladder.suite letter.message.inner).run supply =
      (.ok (letter.text,
        { party.session.putReceiving (.tracing (ladder.key rung) (ladder.chain rung) next) with
          pendingPrekey := none }), supply) := by
  obtain ⟨speaks, key⟩ := stands.version_eq posted
  have known := Ladder.receivingChain?_of_mem apart stands.receiving member
  rw [← key] at known
  rw [Session.run_decrypt_known ladder.suite stands.sending speaks known]
  obtain ⟨sender, _, ours, theirs, _, made⟩ := posted.sealed
  have fits : counter < 2 ^ 32 := by
    have counted := posted.counted
    omega
  rw [made]
  refine congrArg (·, supply) (Session.receive_sealed ?_ ?_ (Ladder.index_chain starts rung) sound
    fits rfl received party.session _ letter.text)
  · rw [stands.remoteIdentity, ours, Side.other_other]
  · rw [stands.localIdentity, theirs]

/-! ## The next rung -/

/-- What a session makes of the key of the next rung, before any letter on it. -/
theorem Party.Stands.opened_eq (stands : party.Stands ladder identity track side) :
    party.session.opened ladder.suite (track.sending ladder side)
        (ladder.key (track.top side + 1)) =
      .tracing (ladder.key (track.top side + 1)) (ladder.chain (track.top side + 1)) .start := by
  rw [ReceivingChain.tracing_start, Session.opened, stands.root]
  rfl

/-- The chains of a session that has turned are those before, the latest closed. -/
theorem Party.Stands.receiving_turned (stands : party.Stands ladder identity track side)
    (starts : ladder.first.2.index = 0) (apart : ladder.Apart (track.top side))
    (sound : ∀ rung, (track.progress rung).Sound) (sending : SendingChain)
    (message : RatchetMessage) (ours : KeyPair) :
    (party.session.turned ladder.suite sending message ours).receiving =
      ladder.chains (Ladder.closed track.progress (track.top side) message.previousCounter)
        (track.top side) :=
  Ladder.receiving_closeLatest starts sound apart stands.receiving message.previousCounter

/-- The party that receives stands two rungs higher. -/
theorem Party.Stands.turn_self (stands : party.Stands ladder identity track side)
    (starts : ladder.first.2.index = 0) (apart : ladder.Apart (track.top side + 1))
    (sound : ∀ rung, (track.progress rung).Sound)
    (commutes : ladder.suite.agree (ladder.pair (track.top side + 2)).privateKey
        (ladder.key (track.top side + 1)) =
      ladder.suite.agree (ladder.pair (track.top side + 1)).privateKey
        (ladder.key (track.top side + 2)))
    (unsent : track.sent (track.top side + 2) = 0) {message : RatchetMessage}
    (key : message.ratchetKey = ladder.key (track.top side + 1))
    (previous : message.previousCounter = .ofNat (track.before (track.top side + 1)))
    (next : Progress) :
    Party.Stands ladder identity (track.turn side next) side
      ⟨{ (party.session.turned ladder.suite (track.sending ladder side) message
            (ladder.pair (track.top side + 2))).putReceiving
          (.tracing (ladder.key (track.top side + 1)) (ladder.chain (track.top side + 1)) next) with
        pendingPrekey := none },
        party.heard ++ [message.ratchetKey]⟩ := by
  set turned := party.session.turned ladder.suite (track.sending ladder side) message
    (ladder.pair (track.top side + 2))
  have fields := turned.putReceiving_eq
    (.tracing (ladder.key (track.top side + 1)) (ladder.chain (track.top side + 1)) next)
  have closed := party.session.closeLatest_eq message.previousCounter
  have top := track.top_turn_self side next
  have receives := stands.receiving_turned starts (apart.mono (Nat.le_succ _)) sound
    (track.sending ladder side) message (ladder.pair (track.top side + 2))
  have new : turned.receivingChain? (ladder.key (track.top side + 1)) = none := by
    refine Ladder.receivingChain?_of_not_mem receives apart (Nat.le_succ _) le_rfl fun member => ?_
    exact absurd (Ladder.below_of_recent member).1 (by omega)
  have turnedRung : (party.session.root.turn
      (ladder.suite.agree (ladder.pair (track.top side)).privateKey message.ratchetKey)).1.turn
        (ladder.suite.agree (ladder.pair (track.top side + 2)).privateKey message.ratchetKey) =
      ladder.rung (track.top side + 2) := by
    rw [key, commutes, stands.root]
    rfl
  refine {
    version := ?_, localIdentity := ?_, remoteIdentity := ?_, root := ?_, previous := ?_,
    sending := ?_, receiving := ?_, heard := ?_ }
  · refine (congrArg Session.storedVersion fields).trans ?_
    exact (congrArg Session.storedVersion closed).trans stands.version
  · refine (congrArg Session.localIdentity fields).trans ?_
    exact (congrArg Session.localIdentity closed).trans stands.localIdentity
  · refine (congrArg Session.remoteIdentity fields).trans ?_
    exact (congrArg Session.remoteIdentity closed).trans stands.remoteIdentity
  · rw [top]
    exact (congrArg Session.root fields).trans (congrArg Prod.fst turnedRung)
  · rw [top]
    refine (congrArg Session.previousCounter fields).trans ?_
    exact ChainKey.index_ahead (Ladder.index_chain starts _) _
  · refine (congrArg Session.sending fields).trans ?_
    refine (congrArg (fun pair => some (⟨_, pair.2⟩ : SendingChain)) turnedRung).trans ?_
    have sends : (track.turn side next).sending ladder side =
        ladder.sendingAt (track.top side + 2) (track.sent (track.top side + 2)) := by
      rw [Track.sending, top]
      rfl
    rw [sends, unsent]
    rfl
  · rw [top]
    refine (Ladder.receiving_putReceiving_next receives next new).trans ?_
    rw [previous]
    rfl
  · rw [top, Ladder.below, List.map_append, ← stands.heard, key]
    rfl

/-- The other party keeps standing where it does. -/
theorem Party.Stands.turn_other {receiver : Side}
    (stands : party.Stands ladder identity track side) (other : side = receiver.other)
    (parities : ∀ side, track.top side % 2 = side.parity) (next : Progress) :
    party.Stands ladder identity (track.turn receiver next) side := by
  have different : side ≠ receiver := other ▸ receiver.other_ne
  have top := track.top_turn_of_ne different next
  have parity := parities side
  have receiverParity := parities receiver
  have one := other ▸ receiver.parity_other
  refine {
    version := stands.version, localIdentity := stands.localIdentity,
    remoteIdentity := stands.remoteIdentity, root := ?_, previous := ?_, sending := ?_,
    receiving := ?_, heard := ?_ }
  · rw [top]
    exact stands.root
  · rw [top]
    exact stands.previous
  · rw [Track.sending, top]
    exact stands.sending
  · rw [top]
    refine stands.receiving.trans (Ladder.chains_congr fun rung apart => ?_).symm
    exact track.progress_turn_of_ne (by omega) (by omega) next
  · rw [top]
    exact stands.heard

/-- A letter on the next rung gives its text. -/
theorem Party.Stands.run_decrypt_next
    (stands : party.Stands ladder identity track letter.sender.other)
    (starts : ladder.first.2.index = 0)
    (apart : ladder.Apart (track.top letter.sender.other + 1))
    (short : track.sent rung ≤ 2000) (posted : letter.Posted ladder identity track rung counter)
    (above : rung = track.top letter.sender.other + 1) {next : Progress}
    (received : Progress.start.receive (.ofNat counter) = .ok next) {supply : Supply}
    (lasts : supply.Lasts 1) :
    ∃ ours later, (party.session.decrypt ladder.suite letter.message.inner).run supply =
        (.ok (letter.text,
          { (party.session.turned ladder.suite (track.sending ladder letter.sender.other)
              letter.message.inner ours).putReceiving
              (.tracing (ladder.key rung) (ladder.chain rung) next) with
            pendingPrekey := none }), later) ∧
      ours.publicKey = ladder.suite.publicKey ours.privateKey := by
  obtain ⟨speaks, key⟩ := stands.version_eq posted
  have new : party.session.receivingChain? letter.message.inner.ratchetKey = none := by
    rw [key]
    refine Ladder.receivingChain?_of_not_mem stands.receiving apart (Nat.le_succ _) above.le
      fun member => ?_
    exact absurd (Ladder.below_of_recent member).1 (by omega)
  obtain ⟨ours, later, generated, _, run⟩ := Session.run_decrypt_new_of_lasts
    ladder.suite lasts stands.sending speaks new
  refine ⟨ours, later, ?_, ladder.suite.generate_eq_ok generated⟩
  rw [run, key, above, stands.opened_eq, ← above]
  obtain ⟨sender, _, ourIdentity, theirIdentity, _, made⟩ := posted.sealed
  have fits : counter < 2 ^ 32 := by
    have counted := posted.counted
    omega
  rw [made]
  refine congrArg (·, later) (Session.receive_sealed ?_ ?_ (Ladder.index_chain starts rung) .start
    fits rfl received _ _ letter.text)
  · rw [stands.remoteIdentity, ourIdentity, Side.other_other]
  · rw [stands.localIdentity, theirIdentity]

end

end Ratchet
