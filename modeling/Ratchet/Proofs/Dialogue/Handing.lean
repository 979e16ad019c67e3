import Ratchet.Proofs.Dialogue.Receiving

/-!
# Handing letters over

Handing a letter over keeps a dialogue on its track: the letter is received, or
it is late and refused, and every other letter that was awaited still is. What
all cases have in common is `Dialogue.Tracked.handed`; the cases themselves are
a letter on a rung whose chain is there (`Dialogue.Tracked.hand_recent`), on the
next rung (`Dialogue.Tracked.hand_next`), and on a rung that was forgotten
(`Dialogue.Tracked.hand_forgotten`).
-/

set_option autoImplicit false

namespace Ratchet

/-- A move of the track that leaves all letters in their places. -/
structure Track.Moves (track next : Track) : Prop where
  sent : next.sent = track.sent
  place : next.place = track.place
  tops : ∀ side, track.top side ≤ next.top side

theorem Track.Moves.height_le {track next : Track} (moves : track.Moves next) :
    track.height ≤ next.height := by
  have initiator := moves.tops .initiator
  have responder := moves.tops .responder
  simp only [height]
  omega

/-- Receiving on a rung has gone on: it has come no further than what was sent,
and what was awaited still is, unless it was taken. -/
structure Progress.GoesOn (before after : Progress) (sent : Nat) (taken : Nat → Prop) : Prop where
  sound : after.Sound
  reached : after.reached ≤ sent
  awaited : ∀ counter, ¬ taken counter → before.Awaits counter → after.Awaits counter

theorem Track.moves_advance (track : Track) (rung : Nat) (next : Progress) :
    track.Moves (track.advance rung next) :=
  ⟨rfl, rfl, fun _ => le_rfl⟩

theorem Track.moves_turn (track : Track) (side : Side) (next : Progress) :
    track.Moves (track.turn side next) := by
  refine ⟨rfl, rfl, fun other => ?_⟩
  by_cases same : other = side
  · rw [same, top_turn_self]
    exact Nat.le_add_right _ 2
  · rw [top_turn_of_ne _ same]

variable {ladder : Ladder} {identity : Side → PublicKey} {track : Track} {dialogue : Dialogue}

theorem Letter.Posted.moves {next : Track} {letter : Letter} {rung counter : Nat}
    (posted : letter.Posted ladder identity track rung counter) (moves : track.Moves next) :
    letter.Posted ladder identity next rung counter where
  parity := posted.parity
  stood := posted.stood.trans (moves.tops _)
  counted := by
    rw [moves.sent]
    exact posted.counted
  sealed := by
    obtain ⟨session, version, ours, theirs, previous, made⟩ := posted.sealed
    refine ⟨session, version, ours, theirs, ?_, made⟩
    rw [previous, Track.before_congr fun lower _ => congrFun moves.sent lower]

/-- A letter says how many letters its sender had sent on the rung before. -/
theorem Letter.Posted.previousCounter_eq {letter : Letter} {rung counter : Nat}
    (posted : letter.Posted ladder identity track rung counter) :
    letter.message.inner.previousCounter = .ofNat (track.before rung) := by
  obtain ⟨session, _, _, _, previous, made⟩ := posted.sealed
  rw [made, ← previous]
  rfl

namespace Dialogue

/-- Where nothing happens, receiving stays as it is. -/
theorem Tracked.goesOn_self (tracked : dialogue.Tracked ladder identity track) (rung : Nat)
    (taken : Nat → Prop) :
    (track.progress rung).GoesOn (track.progress rung) (track.sent rung) taken :=
  ⟨tracked.sound rung, tracked.reached rung, fun _ _ awaited => awaited⟩

/-- Closing a rung at the number of letters that were sent on it loses none of them. -/
theorem Tracked.goesOn_skipTo (tracked : dialogue.Tracked ladder identity track)
    (regular : dialogue.Regular) (rung : Nat) (taken : Nat → Prop) :
    (track.progress rung).GoesOn ((track.progress rung).skipTo (.ofNat (track.sent rung)))
      (track.sent rung) taken := by
  have limit : (UInt32.ofNat (track.sent rung)).toNat ≤ track.sent rung := by
    rw [UInt32.toNat_ofNat']
    exact Nat.mod_le _ _
  refine ⟨(tracked.sound rung).skipTo _, ?_, fun counter _ awaited => ?_⟩
  · have skipped := (track.progress rung).reached_skipTo_le (.ofNat (track.sent rung))
    have reached := tracked.reached rung
    omega
  · exact (tracked.sound rung).awaits_skipTo (limit.trans (tracked.sent_le regular rung)) awaited

/-- The case-independent part: a letter was handed over, and every other awaited
letter still is. -/
theorem Tracked.handed (tracked : dialogue.Tracked ladder identity track) {next : Track}
    (moves : track.Moves next) {after : Dialogue} (report : Report) {letter : Letter}
    (found : dialogue.letters[report.number]? = some letter)
    (outcome : report.late = false → report.outcome = .ok letter.text)
    (letters : after.letters = dialogue.letters)
    (reports : after.reports = dialogue.reports ++ [report])
    (stands : ∀ side, (after.party side).Stands ladder identity next side)
    (parity : ∀ side, next.top side % 2 = side.parity)
    (near : ∀ side, next.top side ≤ next.top side.other + 1)
    (ratchets : after.ratchets = (List.range (next.height + 1)).map ladder.pair)
    (paired : ∀ rung, rung ≤ next.height →
      ladder.key rung = ladder.suite.publicKey (ladder.pair rung).privateKey)
    (goesOn : ∀ rung, (track.progress rung).GoesOn (next.progress rung) (track.sent rung)
      fun counter => (rung, counter) = track.place report.number)
    (unheard : ∀ side rung, rung % 2 ≠ side.parity → next.top side < rung →
      next.progress rung = .start) :
    after.Tracked ladder identity next where
  stands := stands
  parity := parity
  near := near
  ratchets := ratchets
  paired := paired
  sound rung := (goesOn rung).sound
  reached rung := by
    rw [moves.sent]
    exact (goesOn rung).reached
  unheard := unheard
  unsent rung above := by
    rw [moves.sent]
    exact tracked.unsent rung (moves.height_le.trans_lt above)
  counted := by
    simp only [lettersOn]
    rw [moves.sent, letters]
    exact tracked.counted
  posted number posted found := by
    rw [letters] at found
    rw [moves.place]
    exact (tracked.posted number posted found).moves moves
  apart := by
    rw [letters, moves.place]
    exact tracked.apart
  awaited number small undelivered := by
    rw [letters] at small
    rw [reports, List.map_append, List.mem_append, not_or] at undelivered
    rw [moves.place]
    refine (goesOn _).awaited _ (fun same => undelivered.2 ?_)
      (tracked.awaited number small undelivered.1)
    have handed := (List.getElem?_eq_some_iff.mp found).1
    exact List.mem_singleton.mpr (tracked.apart number report.number small handed same)
  delivered other member inTime := by
    rw [letters]
    rw [reports, List.mem_append] at member
    rcases member with old | new
    · exact tracked.delivered other old inTime
    · cases List.mem_singleton.mp new
      exact ⟨letter, found, outcome inTime⟩

/-! ## A rung whose chain is there -/

variable {number : Nat} {letter : Letter} {supply : Supply}

/-- Where the letter is, and that it can be received there. -/
theorem Tracked.receivable (tracked : dialogue.Tracked ladder identity track)
    (regular : dialogue.Regular) (found : dialogue.letters[number]? = some letter)
    (undelivered : number ∉ dialogue.reports.map (·.number)) :
    ∃ rung counter next, letter.Posted ladder identity track rung counter ∧
      (track.progress rung).receive (.ofNat counter) = .ok next ∧
      (track.progress rung).GoesOn next (track.sent rung)
        fun other => (rung, other) = track.place number := by
  have posted := tracked.posted number letter found
  have awaited := tracked.awaited number (List.getElem?_eq_some_iff.mp found).1 undelivered
  set rung := (track.place number).1
  set counter := (track.place number).2
  have short := tracked.sent_le regular rung
  have counted := posted.counted
  have fits : counter < 2 ^ 32 := by omega
  have toNat : (UInt32.ofNat counter).toNat = counter := UInt32.toNat_ofNat_of_lt' fits
  have small : (UInt32.ofNat counter).toNat ≤ Limits.skippedKeys := by
    have limit : Limits.skippedKeys = 2000 := rfl
    omega
  rw [← toNat] at awaited
  obtain ⟨next, received, others⟩ := (tracked.sound rung).receive_of_awaits small awaited
  refine ⟨rung, counter, next, posted, received, (tracked.sound rung).receive received, ?_, ?_⟩
  · have reached := tracked.reached rung
    have nextReached := (Progress.reached_of_receive received).le
    omega
  · intro other apart
    refine others other fun same => apart ?_
    rw [same, toNat]

/-- What a letter on a rung whose chain is there does to the dialogue. -/
theorem Tracked.hand_recent_eq (tracked : dialogue.Tracked ladder identity track)
    (starts : ladder.first.2.index = 0) (regular : dialogue.Regular) {rung counter : Nat}
    {next : Progress} (posted : letter.Posted ladder identity track rung counter)
    (received : (track.progress rung).receive (.ofNat counter) = .ok next)
    (member : rung ∈ Ladder.recent (track.top letter.sender.other)) (supply : Supply) :
    dialogue.hand ladder.suite number letter supply =
      { dialogue with
        party := Function.update dialogue.party letter.sender.other
          ⟨{ (dialogue.party letter.sender.other).session.putReceiving
              (.tracing (ladder.key rung) (ladder.chain rung) next) with pendingPrekey := none },
            (dialogue.party letter.sender.other).heard⟩
        reports := dialogue.reports ++ [⟨number, false, .ok letter.text⟩] } := by
  have stands := tracked.stands letter.sender.other
  have apart := (tracked.keys_apart regular).mono (track.top_le_height letter.sender.other)
  have run := stands.run_decrypt_recent starts apart (tracked.sound rung)
    (tracked.sent_le regular rung) posted member received supply
  have known := Ladder.receivingChain?_of_mem apart stands.receiving member
  rw [← (stands.version_eq posted).2] at known
  simp only [hand]
  rw [run]
  simp only [Party.received, Party.turnedTo, Party.late]
  rw [known, List.append_nil]
  rfl

/-- **A letter on a rung whose chain is there is received.** -/
theorem Tracked.hand_recent (tracked : dialogue.Tracked ladder identity track)
    (starts : ladder.first.2.index = 0) (regular : dialogue.Regular)
    (found : dialogue.letters[number]? = some letter) {rung counter : Nat} {next : Progress}
    (posted : letter.Posted ladder identity track rung counter)
    (received : (track.progress rung).receive (.ofNat counter) = .ok next)
    (goesOn : (track.progress rung).GoesOn next (track.sent rung)
      fun other => (rung, other) = track.place number)
    (member : rung ∈ Ladder.recent (track.top letter.sender.other)) (supply : Supply) :
    (dialogue.hand ladder.suite number letter supply).Tracked ladder identity
      (track.advance rung next) := by
  rw [tracked.hand_recent_eq starts regular posted received member supply]
  set receiver := letter.sender.other
  have lower := (Ladder.below_of_recent member).1
  refine tracked.handed (track.moves_advance rung next) ⟨number, false, .ok letter.text⟩ found
    (fun _ => rfl) rfl rfl ?_ tracked.parity tracked.near tracked.ratchets tracked.paired ?_ ?_
  · intro side
    by_cases same : side = receiver
    · subst same
      show Party.Stands _ _ _ _ (Function.update dialogue.party receiver _ receiver)
      have apart := (tracked.keys_apart regular).mono (track.top_le_height receiver)
      rw [Function.update_self]
      exact (tracked.stands receiver).advance_self apart member next
    · show Party.Stands _ _ _ _ (Function.update dialogue.party receiver _ side)
      rw [Function.update_of_ne same]
      refine (tracked.stands side).advance_other ?_ next
      obtain rfl := (Side.eq_or_eq_other side receiver).resolve_left same
      rw [Side.other_other, posted.parity, tracked.parity]
  · intro other
    by_cases same : other = rung
    · rw [same, Track.progress_advance_self]
      exact goesOn
    · rw [Track.progress_advance_of_ne _ same]
      exact tracked.goesOn_self other _
  · intro side other parity above
    have different : other ≠ rung := by
      rintro rfl
      rcases Side.eq_or_eq_other side receiver with rfl | rfl
      · exact absurd lower above.not_gt
      · rw [Side.other_other] at parity
        exact parity posted.parity
    rw [Track.progress_advance_of_ne _ different]
    exact tracked.unheard side other parity above

/-! ## The next rung -/

/-- The party above and the party below stand on the two highest rungs. -/
theorem height_turn {receiver : Side}
    (above : track.top receiver.other = track.top receiver + 1) (next : Progress) :
    track.height = track.top receiver + 1 ∧
      (track.turn receiver next).height = track.top receiver + 2 := by
  have other := track.top_turn_of_ne receiver.other_ne next
  have self := track.top_turn_self receiver next
  simp only [Track.height]
  cases receiver
  · exact ⟨by rw [Side.other] at above; omega, by rw [Side.other] at above other; omega⟩
  · exact ⟨by rw [Side.other] at above; omega, by rw [Side.other] at above other; omega⟩

/-- A party that steps up skips a rung of the other's. -/
theorem parity_turn (parity : ∀ side, track.top side % 2 = side.parity) (receiver : Side)
    (next : Progress) (side : Side) :
    (track.turn receiver next).top side % 2 = side.parity := by
  by_cases same : side = receiver
  · rw [same, Track.top_turn_self, Nat.add_mod_right]
    exact parity receiver
  · rw [track.top_turn_of_ne same]
    exact parity side

/-- The party below steps up to the rung above the other's. -/
theorem near_turn {receiver : Side} (above : track.top receiver.other = track.top receiver + 1)
    (next : Progress) (side : Side) :
    (track.turn receiver next).top side ≤ (track.turn receiver next).top side.other + 1 := by
  have other := track.top_turn_of_ne receiver.other_ne next
  have self := track.top_turn_self receiver next
  rcases Side.eq_or_eq_other side receiver with rfl | rfl
  · omega
  · rw [receiver.other_other]
    omega

/-- The pair that the party turns to is the next of the ladder. -/
theorem Tracked.ratchets_turn (tracked : dialogue.Tracked ladder identity track)
    {receiver : Side} (above : track.top receiver.other = track.top receiver + 1)
    (next : Progress) :
    dialogue.ratchets ++ [ladder.pair (track.top receiver + 2)] =
      (List.range ((track.turn receiver next).height + 1)).map ladder.pair := by
  obtain ⟨height, nextHeight⟩ := height_turn above next
  have grown : List.range (track.top receiver + 2 + 1) =
      List.range (track.top receiver + 1 + 1) ++ [track.top receiver + 2] := List.range_succ
  rw [nextHeight, tracked.ratchets, height, grown, List.map_append]
  rfl

/-- What is above the rung that a party steps up to was not heard yet. -/
theorem Tracked.unheard_turn (tracked : dialogue.Tracked ladder identity track)
    (receiver : Side) (next : Progress) {side : Side} {rung : Nat}
    (parity : rung % 2 ≠ side.parity) (higher : (track.turn receiver next).top side < rung)
    (above : track.top receiver.other = track.top receiver + 1) :
    (track.turn receiver next).progress rung = .start := by
  have climbed := (track.moves_turn receiver next).tops side
  have far : rung ≠ track.top receiver + 1 ∧ rung + 1 ≠ track.top receiver := by
    rcases Side.eq_or_eq_other side receiver with rfl | rfl
    · rw [track.top_turn_self] at higher
      omega
    · omega
  rw [Track.progress_turn_of_ne _ far.1 far.2]
  exact tracked.unheard side rung parity (climbed.trans_lt higher)

/-- When a party steps up, receiving goes on on the new rung and on the one that
is closed, and stays as it is on the others. -/
theorem Tracked.goesOn_turn (tracked : dialogue.Tracked ladder identity track)
    (regular : dialogue.Regular) {side : Side} {next : Progress} {taken : Nat → Nat → Prop}
    (goesOn : (track.progress (track.top side + 1)).GoesOn next (track.sent (track.top side + 1))
      (taken (track.top side + 1))) (rung : Nat) :
    (track.progress rung).GoesOn ((track.turn side next).progress rung) (track.sent rung)
      (taken rung) := by
  by_cases isNext : rung = track.top side + 1
  · rw [isNext, Track.progress_turn_self]
    exact goesOn
  · by_cases isClosed : rung + 1 = track.top side
    · have sent : track.before (track.top side + 1) = track.sent rung := by
        rw [← isClosed]
        rfl
      rw [Track.progress_turn_below _ isClosed, sent]
      exact tracked.goesOn_skipTo regular rung _
    · rw [Track.progress_turn_of_ne _ isNext isClosed]
      exact tracked.goesOn_self rung _

/-- What a letter on the next rung does to the dialogue. -/
theorem Tracked.hand_next_eq (tracked : dialogue.Tracked ladder identity track)
    (starts : ladder.first.2.index = 0) (regular : dialogue.Regular) {rung counter : Nat}
    {next : Progress} (posted : letter.Posted ladder identity track rung counter)
    (received : Progress.start.receive (.ofNat counter) = .ok next)
    (above : rung = track.top letter.sender.other + 1) (lasts : supply.Lasts 1) :
    ∃ ours, dialogue.hand ladder.suite number letter supply =
        { dialogue with
          party := Function.update dialogue.party letter.sender.other
            ⟨{ ((dialogue.party letter.sender.other).session.turned ladder.suite
                (track.sending ladder letter.sender.other)
                letter.message.inner ours).putReceiving
                  (.tracing (ladder.key rung) (ladder.chain rung) next) with
                pendingPrekey := none },
              (dialogue.party letter.sender.other).heard ++ [letter.message.inner.ratchetKey]⟩
          reports := dialogue.reports ++ [⟨number, false, .ok letter.text⟩]
          ratchets := dialogue.ratchets ++ [ours] } ∧
      ours.publicKey = ladder.suite.publicKey ours.privateKey := by
  set receiver := letter.sender.other
  have stands := tracked.stands receiver
  have senderTop : rung ≤ track.height := posted.stood.trans (track.top_le_height _)
  have apart := (tracked.keys_apart regular).mono senderTop
  obtain ⟨ours, later, run, paired⟩ := stands.run_decrypt_next starts (above ▸ apart)
    (tracked.sent_le regular rung) posted above received lasts
  have absent : rung ∉ Ladder.recent (track.top receiver) :=
    fun member => absurd (Ladder.below_of_recent member).1 (by omega)
  have new := Ladder.receivingChain?_of_not_mem stands.receiving apart (by omega) le_rfl absent
  have unheard : ladder.key rung ∉ (dialogue.party receiver).heard := by
    rw [stands.heard, List.mem_map]
    rintro ⟨lower, member, same⟩
    have lowerLt := (Ladder.mem_below.mp member).1
    exact absurd (apart lower rung (by omega) le_rfl same) (by omega)
  rw [← (stands.version_eq posted).2] at new unheard
  refine ⟨ours, ?_, paired⟩
  simp only [hand]
  rw [run]
  have turnedSends := (dialogue.party receiver).session.ratchet_turned ladder.suite
    (track.sending ladder receiver) letter.message.inner ours
    (.tracing (ladder.key rung) (ladder.chain rung) next)
  simp only [Party.received, Party.turnedTo, Party.late] at turnedSends ⊢
  rw [new, turnedSends, decide_eq_false unheard]
  rfl

/-- **A letter on the next rung is received, and the receiver steps up.** -/
theorem Tracked.hand_next (tracked : dialogue.Tracked ladder identity track)
    (starts : ladder.first.2.index = 0) (regular : dialogue.Regular)
    (found : dialogue.letters[number]? = some letter) {rung counter : Nat} {next : Progress}
    (posted : letter.Posted ladder identity track rung counter)
    (received : (track.progress rung).receive (.ofNat counter) = .ok next)
    (goesOn : (track.progress rung).GoesOn next (track.sent rung)
      fun other => (rung, other) = track.place number)
    (above : rung = track.top letter.sender.other + 1) (lasts : supply.Lasts 1)
    (climbs : ∀ index pair, (dialogue.hand ladder.suite number letter supply).ratchets[index]? =
      some pair → ladder.pair index = pair)
    (commutes : ladder.suite.CommutesOn
      ((dialogue.hand ladder.suite number letter supply).ratchets.map (·.privateKey))) :
    (dialogue.hand ladder.suite number letter supply).Tracked ladder identity
      (track.turn letter.sender.other next) := by
  set receiver := letter.sender.other
  have senderTop : track.top receiver.other = track.top receiver + 1 := by
    have near := tracked.near letter.sender
    have stood := posted.stood
    rw [show receiver.other = letter.sender from letter.sender.other_other]
    exact le_antisymm near (above ▸ stood)
  have receiverParity := tracked.parity receiver
  have one := receiver.parity_other
  have rungParity := posted.parity
  have unheard : track.progress rung = .start := by
    refine tracked.unheard receiver rung ?_ (by omega)
    omega
  obtain ⟨ours, handed, paired⟩ :=
    tracked.hand_next_eq starts regular posted (unheard ▸ received) above lasts
  obtain ⟨height, nextHeight⟩ := height_turn senderTop next
  rw [handed] at climbs commutes ⊢
  -- the generated pair is the next rung of the ladder
  have length : dialogue.ratchets.length = track.top receiver + 2 := by
    rw [tracked.ratchets, List.length_map, List.length_range, height]
  have oursEq : ladder.pair (track.top receiver + 2) = ours := by
    refine climbs _ ours ?_
    dsimp only
    rw [← length, List.getElem?_concat_length]
  subst oursEq above
  -- both parties agree on the secret of the two highest rungs
  have lowerMember : ladder.pair (track.top receiver + 1) ∈ dialogue.ratchets := by
    rw [tracked.ratchets, height]
    exact List.mem_map_of_mem (List.mem_range.mpr (Nat.lt_succ_self _))
  have agreed := commutes.agree_eq paired (tracked.paired _ height.ge)
    (List.mem_map_of_mem (List.mem_append_right _ (List.mem_singleton_self _)))
    (List.mem_map_of_mem (List.mem_append_left _ lowerMember))
  refine tracked.handed (track.moves_turn receiver next) ⟨number, false, .ok letter.text⟩ found
    (fun _ => rfl) rfl rfl ?_ (parity_turn tracked.parity receiver next)
    (near_turn senderTop next) (tracked.ratchets_turn senderTop next) ?_
    (tracked.goesOn_turn regular goesOn) ?_
  · intro side
    rcases Side.eq_or_eq_other side receiver with rfl | rfl
    · have stands := tracked.stands receiver
      show Party.Stands _ _ _ _ (Function.update dialogue.party receiver _ receiver)
      rw [Function.update_self]
      exact stands.turn_self starts ((tracked.keys_apart regular).mono height.ge) tracked.sound
        agreed (tracked.unsent _ (by omega)) (stands.version_eq posted).2
        posted.previousCounter_eq next
    · show Party.Stands _ _ _ _ (Function.update dialogue.party receiver _ receiver.other)
      rw [Function.update_of_ne receiver.other_ne]
      exact (tracked.stands receiver.other).turn_other rfl tracked.parity next
  · intro other otherLe
    rw [nextHeight] at otherLe
    rcases otherLe.lt_or_eq with lower | rfl
    · exact tracked.paired other (by omega)
    · exact paired
  · intro side other parity higher
    exact tracked.unheard_turn receiver next parity higher senderTop

/-! ## A rung that was forgotten -/

/-- What a late letter that is refused does to the dialogue. -/
theorem Tracked.hand_forgotten_eq (tracked : dialogue.Tracked ladder identity track)
    (before : dialogue.Regular)
    (refuses : (dialogue.hand ladder.suite number letter supply).RefusesLate) {rung counter : Nat}
    (posted : letter.Posted ladder identity track rung counter)
    (lower : rung < track.top letter.sender.other)
    (forgotten : rung ∉ Ladder.recent (track.top letter.sender.other)) :
    ∃ failure, dialogue.hand ladder.suite number letter supply =
      { dialogue with reports := dialogue.reports ++ [⟨number, true, .error failure⟩] } := by
  have stands := tracked.stands letter.sender.other
  have apart := (tracked.keys_apart before).mono (track.top_le_height letter.sender.other)
  have new := Ladder.receivingChain?_of_not_mem stands.receiving apart le_rfl lower.le forgotten
  have heard : ladder.key rung ∈ (dialogue.party letter.sender.other).heard := by
    have one := letter.sender.parity_other
    have parity := tracked.parity letter.sender.other
    have rungParity := posted.parity
    rw [stands.heard]
    exact List.mem_map_of_mem (Ladder.mem_below.mpr ⟨lower, by omega⟩)
  rw [← (stands.version_eq posted).2] at new heard
  have late : (dialogue.party letter.sender.other).late letter.message.inner.ratchetKey = true := by
    simp only [Party.late]
    rw [new, decide_eq_true heard]
    rfl
  obtain ⟨_, outcome⟩ :=
    refuses _ (List.mem_append_right _ (List.mem_singleton_self _)) late
  dsimp only at outcome
  cases result : (((dialogue.party letter.sender.other).session.decrypt ladder.suite
    letter.message.inner).run supply).1 with
  | ok value =>
      rw [result] at outcome
      cases outcome
  | error failure =>
      refine ⟨failure, ?_⟩
      simp only [hand]
      rw [result, late]
      simp only [Party.received, Party.turnedTo]
      rw [Function.update_eq_self, List.append_nil]
      rfl

/-- **A late letter that is refused changes neither party.** -/
theorem Tracked.hand_forgotten (tracked : dialogue.Tracked ladder identity track)
    (before : dialogue.Regular)
    (refuses : (dialogue.hand ladder.suite number letter supply).RefusesLate)
    (found : dialogue.letters[number]? = some letter) {rung counter : Nat}
    (posted : letter.Posted ladder identity track rung counter)
    (lower : rung < track.top letter.sender.other)
    (forgotten : rung ∉ Ladder.recent (track.top letter.sender.other)) :
    (dialogue.hand ladder.suite number letter supply).Tracked ladder identity track := by
  obtain ⟨failure, handed⟩ := tracked.hand_forgotten_eq before refuses posted lower forgotten
  rw [handed]
  have moves : track.Moves track := ⟨rfl, rfl, fun _ => le_rfl⟩
  refine tracked.handed moves ⟨number, true, .error failure⟩ found (fun inTime => ?_) rfl rfl
    tracked.stands tracked.parity tracked.near tracked.ratchets tracked.paired
    (fun rung => tracked.goesOn_self rung _) tracked.unheard
  cases inTime

/-- **Handing a letter over keeps a dialogue on its track.** -/
theorem Tracked.hand (tracked : dialogue.Tracked ladder identity track)
    (starts : ladder.first.2.index = 0)
    (regular : (dialogue.hand ladder.suite number letter supply).Regular)
    (refuses : (dialogue.hand ladder.suite number letter supply).RefusesLate)
    (found : dialogue.letters[number]? = some letter)
    (undelivered : number ∉ dialogue.reports.map (·.number)) (lasts : supply.Lasts 1)
    (climbs : ∀ index pair, (dialogue.hand ladder.suite number letter supply).ratchets[index]? =
      some pair → ladder.pair index = pair)
    (commutes : ladder.suite.CommutesOn
      ((dialogue.hand ladder.suite number letter supply).ratchets.map (·.privateKey))) :
    ∃ next, (dialogue.hand ladder.suite number letter supply).Tracked ladder identity next := by
  have before : dialogue.Regular := regular.of_extends
    ⟨List.prefix_rfl, List.prefix_append _ _, List.prefix_append _ _⟩
  obtain ⟨rung, counter, next, posted, received, goesOn⟩ :=
    tracked.receivable before found undelivered
  by_cases member : rung ∈ Ladder.recent (track.top letter.sender.other)
  · exact ⟨_, tracked.hand_recent starts before found posted received goesOn member supply⟩
  · by_cases lower : rung < track.top letter.sender.other
    · exact ⟨track, tracked.hand_forgotten before refuses found posted lower member⟩
    · have above : rung = track.top letter.sender.other + 1 := by
        have near := tracked.near letter.sender
        have stood := posted.stood
        have one := letter.sender.parity_other
        have parity := tracked.parity letter.sender.other
        have rungParity := posted.parity
        omega
      exact ⟨_, tracked.hand_next starts before found posted received goesOn above lasts climbs
        commutes⟩

end Dialogue

end Ratchet
