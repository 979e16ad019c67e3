import Ratchet.Proofs.Dialogue.Delivery
import Ratchet.Proofs.Session.Handshakes

/-!
# Dialogues whose pairs are not known beforehand

A ladder names the pairs of all rungs, also of those that nobody has reached. What
is tracked depends on the reached ones alone (`Dialogue.Tracked.congr`), so a
dialogue can be followed step by step, the ladder being continued by whatever
pair is made next: `Dialogue.Climbs` says that some ladder and some track fit.

Starting, sending and handing letters over keep a dialogue so
(`Dialogue.climbs_start`, `Dialogue.Climbs.send`, `Dialogue.Climbs.hand`), and a
party decrypts every letter that is not late (`Dialogue.Climbs.run_decrypt`).
-/

set_option autoImplicit false

namespace Ratchet

/-- The ladders are the same up to this rung. -/
structure Ladder.Agrees (ladder other : Ladder) (top : Nat) : Prop where
  suite : other.suite = ladder.suite
  first : other.first = ladder.first
  pair : ∀ rung, rung ≤ top → other.pair rung = ladder.pair rung

namespace Ladder.Agrees

variable {ladder other : Ladder} {top rung : Nat} (agrees : ladder.Agrees other top)
  (reached : rung ≤ top)
include agrees reached

theorem key_eq : other.key rung = ladder.key rung :=
  congrArg KeyPair.publicKey (agrees.pair rung reached)

theorem rung_eq : other.rung rung = ladder.rung rung := by
  induction rung with
  | zero => exact agrees.first
  | succ lower ih =>
      have below : lower ≤ top := (Nat.le_succ lower).trans reached
      simp only [Ladder.rung]
      rw [ih below, agrees.suite, agrees.pair lower below, agrees.pair (lower + 1) reached]

theorem root_eq : other.root rung = ladder.root rung :=
  congrArg Prod.fst (agrees.rung_eq reached)

theorem chain_eq : other.chain rung = ladder.chain rung :=
  congrArg Prod.snd (agrees.rung_eq reached)

theorem sendingAt_eq (sent : Nat) : other.sendingAt rung sent = ladder.sendingAt rung sent := by
  rw [sendingAt, sendingAt, agrees.pair rung reached, agrees.chain_eq reached]

theorem chains_eq (progress : Nat → Progress) :
    other.chains progress rung = ladder.chains progress rung := by
  refine List.map_congr_left fun lower member => ?_
  have below := (below_of_recent member).1.le.trans reached
  rw [chainAt, chainAt, agrees.key_eq below, agrees.chain_eq below]

theorem map_below_eq : (below rung).map other.key = (below rung).map ladder.key :=
  List.map_congr_left fun _ member => agrees.key_eq ((mem_below.mp member).1.le.trans reached)

end Ladder.Agrees

section

variable {ladder other : Ladder} {identity : Side → PublicKey} {track : Track}

theorem Party.Stands.congr {side : Side} {party : Party}
    (stands : party.Stands ladder identity track side)
    (agrees : ladder.Agrees other track.height) : party.Stands other identity track side := by
  have reached := track.top_le_height side
  refine {
    version := stands.version, localIdentity := stands.localIdentity,
    remoteIdentity := stands.remoteIdentity, root := ?_, previous := stands.previous,
    sending := ?_, receiving := ?_, heard := ?_ }
  · rw [agrees.root_eq reached]
    exact stands.root
  · rw [Track.sending, agrees.sendingAt_eq reached]
    exact stands.sending
  · rw [agrees.chains_eq reached]
    exact stands.receiving
  · rw [agrees.map_below_eq reached]
    exact stands.heard

theorem Letter.Posted.congr {letter : Letter} {rung counter : Nat}
    (posted : letter.Posted ladder identity track rung counter)
    (agrees : ladder.Agrees other track.height) :
    letter.Posted other identity track rung counter where
  parity := posted.parity
  stood := posted.stood
  counted := posted.counted
  sealed := by
    rw [agrees.sendingAt_eq (posted.stood.trans (track.top_le_height _))]
    exact posted.sealed

namespace Dialogue

variable {dialogue : Dialogue}

/-- **What is tracked depends on the rungs that were reached.** -/
theorem Tracked.congr (tracked : dialogue.Tracked ladder identity track)
    (agrees : ladder.Agrees other track.height) : dialogue.Tracked other identity track := by
  refine { tracked with
    stands := fun side => (tracked.stands side).congr agrees
    ratchets := ?_, paired := ?_, counted := ?_
    posted := fun number letter found => (tracked.posted number letter found).congr agrees }
  · rw [tracked.ratchets]
    refine List.map_congr_left fun rung member => (agrees.pair rung ?_).symm
    exact Nat.le_of_lt_succ (List.mem_range.mp member)
  · intro rung reached
    rw [agrees.key_eq reached, agrees.suite, agrees.pair rung reached]
    exact tracked.paired rung reached
  · intro rung
    by_cases reached : rung ≤ track.height
    · rw [agrees.key_eq reached]
      exact tracked.counted rung
    · rw [tracked.unsent rung (Nat.not_le.mp reached)]
      exact Nat.zero_le _

/-- Some ladder and some track fit the dialogue. -/
def Climbs (suite : Suite) (identity : Side → PublicKey) (dialogue : Dialogue) : Prop :=
  ∃ (ladder : Ladder) (track : Track), ladder.suite = suite ∧ ladder.first.2.index = 0 ∧
    dialogue.Tracked ladder identity track

variable {suite : Suite}

/-! ## Steps -/

/-- What the initiator's session tells the peer with every message does not matter. -/
theorem climbs_start {initiator : InitiatorTerms} {responder : ResponderTerms} {ratchet : KeyPair}
    (matching : TermsMatch suite initiator responder)
    (paired : ratchet.publicKey = suite.publicKey ratchet.privateKey)
    (commutes : suite.CommutesOn
      ((initiator.pairs ++ responder.pairs ++ [ratchet]).map (·.privateKey)))
    (pendingPrekey : Option PendingPrekey) :
    (start { Session.initiated suite initiator ratchet with pendingPrekey }
      (Session.responded suite responder)).Climbs suite (identities initiator responder) := by
  let pair : Nat → KeyPair
    | 0 => responder.ourRatchet
    | _ => ratchet
  have lowest : pair 0 = responder.ourRatchet := rfl
  have tracked := tracked_start matching paired commutes lowest rfl
  refine ⟨.between suite responder pair, .start, rfl, rfl, { tracked with stands := ?_ }⟩
  intro side
  cases side with
  | initiator => exact { tracked.stands .initiator with }
  | responder => exact tracked.stands .responder

theorem Climbs.send (climbs : dialogue.Climbs suite identity) (regular : dialogue.Regular)
    (sender : Side) (text : Bytes) : (dialogue.send sender text).Climbs suite identity := by
  obtain ⟨ladder, track, rfl, starts, tracked⟩ := climbs
  exact ⟨ladder, _, rfl, starts, tracked.send starts regular sender text⟩

/-- Handing a letter over reaches one rung more at most, and the ladder goes on with its pair. -/
theorem Climbs.hand (climbs : dialogue.Climbs suite identity) {number : Nat} {letter : Letter}
    {supply : Supply} (regular : (dialogue.hand suite number letter supply).Regular)
    (refuses : (dialogue.hand suite number letter supply).RefusesLate)
    (found : dialogue.letters[number]? = some letter)
    (undelivered : number ∉ dialogue.reports.map (·.number)) (lasts : supply.Lasts 1)
    (commutes : suite.CommutesOn
      ((dialogue.hand suite number letter supply).ratchets.map (·.privateKey))) :
    (dialogue.hand suite number letter supply).Climbs suite identity := by
  obtain ⟨ladder, track, rfl, starts, tracked⟩ := climbs
  let pair : Nat → KeyPair := fun rung =>
    ((dialogue.hand ladder.suite number letter supply).ratchets[rung]?).getD default
  have agrees : ladder.Agrees ⟨ladder.suite, ladder.first, pair⟩ track.height := by
    refine ⟨rfl, rfl, fun rung reached => ?_⟩
    have listed : dialogue.ratchets[rung]? = some (ladder.pair rung) := by
      rw [tracked.ratchets, List.getElem?_map, List.getElem?_range (Nat.lt_succ_of_le reached)]
      rfl
    have short := (List.getElem?_eq_some_iff.mp listed).1
    show (((dialogue.ratchets ++ _)[rung]?).getD default : KeyPair) = ladder.pair rung
    rw [List.getElem?_append_left short, listed, Option.getD_some]
  have climbs : ∀ index made,
      (dialogue.hand ladder.suite number letter supply).ratchets[index]? = some made →
        pair index = made := by
    intro index made there
    show ((dialogue.hand ladder.suite number letter supply).ratchets[index]?).getD default = made
    rw [there, Option.getD_some]
  obtain ⟨next, trackedNext⟩ :=
    (tracked.congr agrees).hand starts regular refuses found undelivered lasts climbs commutes
  exact ⟨⟨ladder.suite, ladder.first, pair⟩, next, rfl, starts, trackedNext⟩

/-! ## What a party makes of a letter -/

/-- **A party decrypts every letter that was not handed to it and is not late.** -/
theorem Climbs.run_decrypt (climbs : dialogue.Climbs suite identity) (regular : dialogue.Regular)
    {number : Nat} {letter : Letter} (found : dialogue.letters[number]? = some letter)
    (undelivered : number ∉ dialogue.reports.map (·.number))
    (inTime : (dialogue.party letter.sender.other).late letter.message.inner.ratchetKey = false)
    {supply : Supply} (lasts : supply.Lasts 1) :
    ∃ next later, ((dialogue.party letter.sender.other).session.decrypt suite
      letter.message.inner).run supply = (.ok (letter.text, next), later) := by
  obtain ⟨ladder, track, rfl, starts, tracked⟩ := climbs
  obtain ⟨rung, counter, next, posted, received, _⟩ :=
    tracked.receivable regular found undelivered
  have stands := tracked.stands letter.sender.other
  have short := tracked.sent_le regular rung
  have apart := tracked.keys_apart regular
  have receiverApart := apart.mono (track.top_le_height letter.sender.other)
  have reached := posted.stood.trans (track.top_le_height _)
  have one := letter.sender.parity_other
  have parity := tracked.parity letter.sender.other
  have rungParity := posted.parity
  by_cases member : rung ∈ Ladder.recent (track.top letter.sender.other)
  · exact ⟨_, _, stands.run_decrypt_recent starts receiverApart (tracked.sound rung) short posted
      member received supply⟩
  · -- the chain is not there, and it is not one that was forgotten
    have above : track.top letter.sender.other < rung := by
      by_contra below
      have lower : rung < track.top letter.sender.other := by omega
      have heard : ladder.key rung ∈ (dialogue.party letter.sender.other).heard := by
        rw [stands.heard]
        exact List.mem_map_of_mem (Ladder.mem_below.mpr ⟨lower, by omega⟩)
      have absent := Ladder.receivingChain?_of_not_mem stands.receiving receiverApart le_rfl
        lower.le member
      rw [← (stands.version_eq posted).2] at heard absent
      simp only [Party.late] at inTime
      rw [absent, decide_eq_true heard] at inTime
      cases inTime
    have near := tracked.near letter.sender
    have stood := posted.stood
    have next : rung = track.top letter.sender.other + 1 := by omega
    have unheard := tracked.unheard letter.sender.other rung (by omega) above
    obtain ⟨ours, later, run, _⟩ := stands.run_decrypt_next starts
      (next ▸ apart.mono reached) short posted next (unheard ▸ received) lasts
    exact ⟨_, later, run⟩

/-- Letters are of the current version, and their counters stay within the limit. -/
theorem Climbs.inner_eq (climbs : dialogue.Climbs suite identity) (regular : dialogue.Regular)
    {number : Nat} {letter : Letter} (found : dialogue.letters[number]? = some letter) :
    letter.message.inner.version = Limits.currentVersion ∧
      letter.message.inner.counter.toNat ≤ Limits.skippedKeys := by
  obtain ⟨ladder, track, rfl, starts, tracked⟩ := climbs
  have posted := tracked.posted number letter found
  have short := (posted.counted.trans_le (tracked.sent_le regular _)).le
  obtain ⟨session, version, _, _, _, made⟩ := posted.sealed
  rw [made]
  refine ⟨?_, ?_⟩
  · show session.version = _
    rw [Session.version, version]
    rfl
  · show ((ladder.chain _).ahead _).index.toNat ≤ _
    rw [ChainKey.toNat_index_ahead (Ladder.index_chain starts _) (by omega)]
    exact short

/-- The receiving chains of a party are on ratchet keys of the dialogue. -/
theorem Climbs.ratchetKey_mem (climbs : dialogue.Climbs suite identity) (side : Side) :
    ∀ chain ∈ (dialogue.party side).session.receiving,
      chain.ratchetKey ∈ dialogue.ratchets.map (·.publicKey) := by
  obtain ⟨ladder, track, rfl, starts, tracked⟩ := climbs
  intro chain member
  rw [(tracked.stands side).receiving] at member
  obtain ⟨rung, recent, rfl⟩ := List.mem_map.mp member
  rw [tracked.ratchets, List.map_map]
  refine List.mem_map.mpr ⟨rung, List.mem_range.mpr ?_, rfl⟩
  have lower := (Ladder.below_of_recent recent).1
  have reached := track.top_le_height side
  omega

end Dialogue

end

end Ratchet
