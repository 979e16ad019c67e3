import Ratchet.Proofs.Dialogue.Ladder
import Ratchet.Proofs.Dialogue.Run
import Ratchet.Proofs.Session.Sealing

/-!
# What holds in a dialogue

Both parties stand on the ladder, the initiator on odd rungs and the responder
on even ones, and never more than one rung apart. How many letters were sent on
each rung, how far the other party has come in receiving on it, and where each
letter belongs is a `Track` of the dialogue; `Dialogue.Tracked` says that the
sessions, the letters and the reports are as the track has them.

The heart of it is that a letter that was not handed over yet is still awaited
on its rung. Sending adds an awaited letter (`Dialogue.Tracked.send`). Handing a
letter over receives exactly this one, and when its rung is new, the rung two
below is closed at the number of letters that were sent on it, which leaves all
of them awaited (`Dialogue.Tracked.hand`).
-/

set_option autoImplicit false

namespace Ratchet

namespace Side

/-- Whether the rungs of a side are even or odd. -/
def parity : Side → Nat
  | .initiator => 1
  | .responder => 0

@[simp]
theorem other_other (side : Side) : side.other.other = side := by
  cases side <;> rfl

theorem other_ne (side : Side) : side.other ≠ side := by
  cases side <;> decide

theorem eq_or_eq_other (first second : Side) : first = second ∨ first = second.other := by
  cases first <;> cases second <;> decide

theorem parity_other (side : Side) : side.other.parity + side.parity = 1 := by
  cases side <;> rfl

end Side

/-- Where everything is in a dialogue. -/
structure Track where
  /-- The rung a side stands on. -/
  top : Side → Nat
  /-- How many letters were sent on a rung. -/
  sent : Nat → Nat
  /-- How far the other side has come in receiving on a rung. -/
  progress : Nat → Progress
  /-- The rung and the counter of each letter. -/
  place : Nat → Nat × Nat

namespace Track

/-- The highest rung anyone stands on. -/
def height (track : Track) : Nat := max (track.top .initiator) (track.top .responder)

/-- The chain a side sends on. -/
def sending (track : Track) (ladder : Ladder) (side : Side) : SendingChain :=
  ladder.sendingAt (track.top side) (track.sent (track.top side))

/-- How many letters their sender had sent on its rung before. -/
def before (track : Track) : Nat → Nat
  | 0 => 0
  | 1 => 0
  | rung + 2 => track.sent rung

theorem top_le_height (track : Track) (side : Side) : track.top side ≤ track.height := by
  cases side
  · exact Nat.le_max_left _ _
  · exact Nat.le_max_right _ _

theorem before_congr {track other : Track} {rung : Nat}
    (same : ∀ lower, rung = lower + 2 → other.sent lower = track.sent lower) :
    other.before rung = track.before rung := by
  match rung, same with
  | 0, _ => rfl
  | 1, _ => rfl
  | rung + 2, same => exact same rung rfl

end Track

section

variable (ladder : Ladder) (identity : Side → PublicKey) (track : Track)

/-- The party is on its rung, with the chains below. -/
structure Party.Stands (side : Side) (party : Party) : Prop where
  version : party.session.storedVersion = 3
  localIdentity : party.session.localIdentity = identity side
  remoteIdentity : party.session.remoteIdentity = identity side.other
  root : party.session.root = ladder.root (track.top side)
  previous : party.session.previousCounter = .ofNat (track.before (track.top side))
  sending : party.session.sending = some (track.sending ladder side)
  receiving : party.session.receiving = ladder.chains track.progress (track.top side)
  heard : party.heard = (Ladder.below (track.top side)).map ladder.key

/-- The letter was sent from a rung with a counter. -/
structure Letter.Posted (letter : Letter) (rung counter : Nat) : Prop where
  parity : rung % 2 = letter.sender.parity
  stood : rung ≤ track.top letter.sender
  counted : counter < track.sent rung
  sealed : ∃ session : Session, session.storedVersion = 3 ∧
    session.localIdentity = identity letter.sender ∧
    session.remoteIdentity = identity letter.sender.other ∧
    session.previousCounter = .ofNat (track.before rung) ∧
    letter.message.inner =
      session.sealed (ladder.sendingAt rung counter) letter.text

/-- The dialogue is as the track has it. -/
structure Dialogue.Tracked (dialogue : Dialogue) : Prop where
  stands : ∀ side, (dialogue.party side).Stands ladder identity track side
  parity : ∀ side, track.top side % 2 = side.parity
  near : ∀ side, track.top side ≤ track.top side.other + 1
  ratchets : dialogue.ratchets = (List.range (track.height + 1)).map ladder.pair
  paired : ∀ rung, rung ≤ track.height →
    ladder.key rung = ladder.suite.publicKey (ladder.pair rung).privateKey
  sound : ∀ rung, (track.progress rung).Sound
  reached : ∀ rung, (track.progress rung).reached ≤ track.sent rung
  unheard : ∀ side rung, rung % 2 ≠ side.parity → track.top side < rung →
    track.progress rung = .start
  unsent : ∀ rung, track.height < rung → track.sent rung = 0
  counted : ∀ rung, track.sent rung ≤ (dialogue.lettersOn (ladder.key rung)).length
  posted : ∀ (number : Nat) (letter : Letter), dialogue.letters[number]? = some letter →
    letter.Posted ladder identity track (track.place number).1 (track.place number).2
  apart : ∀ first second, first < dialogue.letters.length → second < dialogue.letters.length →
    track.place first = track.place second → first = second
  awaited : ∀ number, number < dialogue.letters.length →
    number ∉ dialogue.reports.map (·.number) →
    (track.progress (track.place number).1).Awaits (track.place number).2
  delivered : ∀ report ∈ dialogue.reports, report.late = false →
    ∃ letter, dialogue.letters[report.number]? = some letter ∧ report.outcome = .ok letter.text

end

namespace Dialogue

section

variable {ladder : Ladder} {identity : Side → PublicKey} {track : Track} {dialogue : Dialogue}

theorem Tracked.sent_le (tracked : dialogue.Tracked ladder identity track)
    (regular : dialogue.Regular) (rung : Nat) : track.sent rung ≤ 2000 :=
  (tracked.counted rung).trans (regular.short _)

/-- In a regular dialogue the rungs have different keys. -/
theorem Tracked.keys_apart (tracked : dialogue.Tracked ladder identity track)
    (regular : dialogue.Regular) : ladder.Apart track.height := by
  have distinct := regular.distinct
  rw [tracked.ratchets, List.map_map] at distinct
  intro first second firstLe secondLe same
  exact List.inj_on_of_nodup_map distinct (List.mem_range.mpr (Nat.lt_succ_of_le firstLe))
    (List.mem_range.mpr (Nat.lt_succ_of_le secondLe)) same

end

end Dialogue

/-! ## Sending -/

/-- The track after one more letter, which gets this number. -/
def Track.send (track : Track) (sender : Side) (number : Nat) : Track :=
  { track with
    sent := Function.update track.sent (track.top sender) (track.sent (track.top sender) + 1)
    place := Function.update track.place number (track.top sender, track.sent (track.top sender)) }

section

variable {ladder : Ladder} {identity : Side → PublicKey} {track : Track}

@[simp]
theorem Track.sent_send_self (track : Track) (sender : Side) (number : Nat) :
    (track.send sender number).sent (track.top sender) = track.sent (track.top sender) + 1 :=
  Function.update_self _ _ _

theorem Track.sent_send_of_ne {sender : Side} {rung : Nat} (different : rung ≠ track.top sender)
    (number : Nat) : (track.send sender number).sent rung = track.sent rung :=
  Function.update_of_ne different _ _

theorem Track.place_send_self (track : Track) (sender : Side) (number : Nat) :
    (track.send sender number).place number = (track.top sender, track.sent (track.top sender)) :=
  Function.update_self _ _ _

theorem Track.place_send_of_ne {number other : Nat} (different : other ≠ number)
    (track : Track) (sender : Side) : (track.send sender number).place other = track.place other :=
  Function.update_of_ne different _ _

theorem Track.le_sent_send (track : Track) (sender : Side) (number rung : Nat) :
    track.sent rung ≤ (track.send sender number).sent rung := by
  by_cases same : rung = track.top sender
  · rw [same, sent_send_self]
    exact Nat.le_succ _
  · rw [sent_send_of_ne same]

/-- Only the rung that is sent on counts one letter more, and no one counts it as
the rung before theirs. -/
theorem Track.before_send {sender side : Side} {number rung : Nat}
    (parities : ∀ side, track.top side % 2 = side.parity) (parity : rung % 2 = side.parity)
    (stood : rung ≤ track.top side) :
    (track.send sender number).before rung = track.before rung := by
  refine before_congr fun lower below => sent_send_of_ne (fun same => ?_) number
  have senderParity := parities sender
  rcases Side.eq_or_eq_other side sender with rfl | rfl
  · omega
  · have one := Side.parity_other sender
    omega

theorem Letter.Posted.send {letter : Letter} {rung counter number : Nat} {sender : Side}
    (posted : letter.Posted ladder identity track rung counter)
    (parities : ∀ side, track.top side % 2 = side.parity) :
    letter.Posted ladder identity (track.send sender number) rung counter where
  parity := posted.parity
  stood := posted.stood
  counted := posted.counted.trans_le (track.le_sent_send sender number rung)
  sealed := by
    obtain ⟨session, version, ours, theirs, previous, made⟩ := posted.sealed
    refine ⟨session, version, ours, theirs, ?_, made⟩
    rw [previous, Track.before_send parities posted.parity posted.stood]

/-- A party that is not sending stands as before. -/
theorem Party.Stands.send_other {party : Party} {sender side : Side} {number : Nat}
    (stands : party.Stands ladder identity track side) (different : side ≠ sender)
    (parities : ∀ side, track.top side % 2 = side.parity) :
    party.Stands ladder identity (track.send sender number) side where
  version := stands.version
  localIdentity := stands.localIdentity
  remoteIdentity := stands.remoteIdentity
  root := stands.root
  previous := by
    rw [stands.previous]
    exact congrArg UInt32.ofNat (Track.before_send parities (parities side) le_rfl).symm
  sending := by
    have apart : track.top side ≠ track.top sender := by
      intro same
      have parity := parities side
      have senderParity := parities sender
      obtain rfl := (Side.eq_or_eq_other side sender).resolve_left different
      have one := Side.parity_other sender
      omega
    show _ = some (⟨_, (ladder.chain (track.top side)).ahead
      ((track.send sender number).sent (track.top side))⟩ : SendingChain)
    rw [stands.sending, Track.sent_send_of_ne apart]
    rfl
  receiving := stands.receiving
  heard := stands.heard

/-- The sender steps on in its chain. -/
theorem Party.Stands.send_self {party : Party} {sender : Side} {number : Nat}
    (stands : party.Stands ladder identity track sender)
    (parities : ∀ side, track.top side % 2 = side.parity) :
    Party.Stands ladder identity (track.send sender number) sender
      { party with session := { party.session with
        sending := some (ladder.sendingAt (track.top sender)
          (track.sent (track.top sender) + 1)) } } where
  version := stands.version
  localIdentity := stands.localIdentity
  remoteIdentity := stands.remoteIdentity
  root := stands.root
  previous := by
    refine stands.previous.trans ?_
    exact congrArg UInt32.ofNat (Track.before_send parities (parities sender) le_rfl).symm
  sending := by
    show _ = some (⟨_, (ladder.chain (track.top sender)).ahead
      ((track.send sender number).sent (track.top sender))⟩ : SendingChain)
    rw [Track.sent_send_self]
    rfl
  receiving := stands.receiving
  heard := stands.heard

/-- A party that stands on the ladder can send. -/
theorem Party.Stands.encrypt_eq_ok {party : Party} {sender : Side}
    (stands : party.Stands ladder identity track sender) (starts : ladder.first.2.index = 0)
    (short : track.sent (track.top sender) ≤ 2000) (text : Bytes) :
    party.session.encrypt text =
      .ok (party.session.wrap (party.session.sealed (track.sending ladder sender) text),
        { party.session with
          sending := some (ladder.sendingAt (track.top sender)
            (track.sent (track.top sender) + 1)) }) := by
  have fits : track.sent (track.top sender) + 1 < 2 ^ 32 := by omega
  have follows : (track.sending ladder sender).chain.next? = some _ :=
    ChainKey.next?_ahead (Ladder.index_chain starts (track.top sender)) fits
  simp only [Session.encrypt]
  rw [stands.sending]
  dsimp only
  rw [follows]
  rfl

/-- The letter that is sent is posted in its place. -/
theorem Party.Stands.posted {party : Party} (letter : Letter)
    (stands : party.Stands ladder identity track letter.sender)
    (parities : ∀ side, track.top side % 2 = side.parity)
    (made : letter.message.inner =
      party.session.sealed (track.sending ladder letter.sender) letter.text) (number : Nat) :
    letter.Posted ladder identity (track.send letter.sender number) (track.top letter.sender)
      (track.sent (track.top letter.sender)) where
  parity := parities letter.sender
  stood := le_rfl
  counted := by
    rw [Track.sent_send_self]
    exact Nat.lt_succ_self _
  sealed := by
    refine ⟨party.session, stands.version, stands.localIdentity, stands.remoteIdentity, ?_, made⟩
    rw [stands.previous, Track.before_send parities (parities letter.sender) le_rfl]

namespace Dialogue

variable {dialogue : Dialogue}

/-- A letter that is sent is added to the letters, and its sender steps on. -/
theorem Tracked.send_eq (tracked : dialogue.Tracked ladder identity track)
    (starts : ladder.first.2.index = 0) (regular : dialogue.Regular) (sender : Side)
    (text : Bytes) :
    ∃ message : Message,
      message.inner =
        (dialogue.party sender).session.sealed (track.sending ladder sender) text ∧
      dialogue.send sender text =
        { dialogue with
          party := Function.update dialogue.party sender
            { dialogue.party sender with session := { (dialogue.party sender).session with
              sending := some (ladder.sendingAt (track.top sender)
                (track.sent (track.top sender) + 1)) } }
          letters := dialogue.letters ++ [⟨sender, text, message⟩] } := by
  refine ⟨_, Session.inner_wrap (dialogue.party sender).session _, ?_⟩
  simp only [Dialogue.send]
  rw [(tracked.stands sender).encrypt_eq_ok starts (tracked.sent_le regular _)]

/-- No letter has the place that the next one will get. -/
theorem Tracked.place_ne (tracked : dialogue.Tracked ladder identity track) (sender : Side)
    {number : Nat} (old : number < dialogue.letters.length) :
    track.place number ≠ (track.top sender, track.sent (track.top sender)) := by
  intro same
  have counted := (tracked.posted number _ (List.getElem?_eq_getElem old)).counted
  rw [same] at counted
  exact lt_irrefl _ counted

/-- One more letter on the rung of its sender is counted there. -/
theorem Tracked.counted_send (tracked : dialogue.Tracked ladder identity track) (letter : Letter)
    (key : letter.message.inner.ratchetKey = ladder.key (track.top letter.sender))
    (number rung : Nat) :
    (track.send letter.sender number).sent rung ≤ ((dialogue.letters ++ [letter]).filter
      (·.message.inner.ratchetKey = ladder.key rung)).length := by
  have counted := tracked.counted rung
  simp only [lettersOn] at counted
  rw [List.filter_append, List.length_append]
  by_cases same : rung = track.top letter.sender
  · rw [same] at counted ⊢
    have one : ([letter].filter
        (·.message.inner.ratchetKey = ladder.key (track.top letter.sender))).length = 1 := by
      simp [key]
    rw [Track.sent_send_self, one]
    exact Nat.add_le_add_right counted 1
  · rw [Track.sent_send_of_ne same]
    exact counted.trans (Nat.le_add_right _ _)

/-- The places of letters stay apart when one more letter is sent. -/
theorem Tracked.apart_send (tracked : dialogue.Tracked ladder identity track) (sender : Side)
    {first second : Nat} (firstSmall : first ≤ dialogue.letters.length)
    (secondSmall : second ≤ dialogue.letters.length)
    (same : (track.send sender dialogue.letters.length).place first =
      (track.send sender dialogue.letters.length).place second) : first = second := by
  rcases firstSmall.lt_or_eq with firstOld | rfl <;>
    rcases secondSmall.lt_or_eq with secondOld | rfl
  · rw [Track.place_send_of_ne firstOld.ne, Track.place_send_of_ne secondOld.ne] at same
    exact tracked.apart first second firstOld secondOld same
  · rw [Track.place_send_of_ne firstOld.ne, Track.place_send_self] at same
    exact absurd same (tracked.place_ne sender firstOld)
  · rw [Track.place_send_self, Track.place_send_of_ne secondOld.ne] at same
    exact absurd same.symm (tracked.place_ne sender secondOld)
  · rfl

/-- **Sending adds an awaited letter.** -/
theorem Tracked.send (tracked : dialogue.Tracked ladder identity track)
    (starts : ladder.first.2.index = 0) (regular : dialogue.Regular) (sender : Side)
    (text : Bytes) :
    (dialogue.send sender text).Tracked ladder identity
      (track.send sender dialogue.letters.length) := by
  obtain ⟨message, made, sent⟩ := tracked.send_eq starts regular sender text
  rw [sent]
  have parities := tracked.parity
  have small : ∀ {number},
      number < (dialogue.letters ++ [(⟨sender, text, message⟩ : Letter)]).length →
      number ≤ dialogue.letters.length := by
    intro number there
    rw [List.length_append, List.length_singleton] at there
    exact Nat.lt_succ_iff.mp there
  refine {
    stands := ?_, parity := parities, near := tracked.near, ratchets := tracked.ratchets,
    paired := tracked.paired, sound := tracked.sound, reached := ?_, unheard := tracked.unheard,
    unsent := ?_, counted := ?_, posted := ?_, apart := ?_, awaited := ?_, delivered := ?_ }
  · intro side
    by_cases same : side = sender
    · subst same
      show Party.Stands _ _ _ _ (Function.update dialogue.party side _ side)
      rw [Function.update_self]
      exact (tracked.stands side).send_self parities
    · show Party.Stands _ _ _ _ (Function.update dialogue.party sender _ side)
      rw [Function.update_of_ne same]
      exact (tracked.stands side).send_other same parities
  · intro rung
    exact (tracked.reached rung).trans (track.le_sent_send sender _ rung)
  · intro rung above
    have different : rung ≠ track.top sender := ((track.top_le_height sender).trans_lt above).ne'
    rw [Track.sent_send_of_ne different]
    exact tracked.unsent rung above
  · have key : message.inner.ratchetKey = ladder.key (track.top sender) :=
      congrArg RatchetMessage.ratchetKey made
    exact tracked.counted_send ⟨sender, text, message⟩ key dialogue.letters.length
  · intro number letter found
    rcases (small (List.getElem?_eq_some_iff.mp found).1).lt_or_eq with old | rfl
    · rw [List.getElem?_append_left old] at found
      rw [Track.place_send_of_ne old.ne]
      exact (tracked.posted number letter found).send parities
    · rw [List.getElem?_concat_length] at found
      cases found
      rw [Track.place_send_self]
      exact Party.Stands.posted ⟨sender, text, message⟩ (tracked.stands sender) parities made _
  · exact fun first second firstSmall secondSmall =>
      tracked.apart_send sender (small firstSmall) (small secondSmall)
  · intro number there undelivered
    rcases (small there).lt_or_eq with old | rfl
    · rw [Track.place_send_of_ne old.ne]
      exact tracked.awaited number old undelivered
    · rw [Track.place_send_self]
      exact .inl (tracked.reached (track.top sender))
  · intro report member inTime
    obtain ⟨letter, found, outcome⟩ := tracked.delivered report member inTime
    have old := (List.getElem?_eq_some_iff.mp found).1
    exact ⟨letter, (List.getElem?_append_left old).trans found, outcome⟩

end Dialogue

end

end Ratchet
