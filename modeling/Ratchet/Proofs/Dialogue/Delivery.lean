import Ratchet.Proofs.Curve.Ladder
import Ratchet.Proofs.Dialogue.Handing

/-!
# Letters arrive

Two parties whose terms match start their sessions and write letters to each
other. The letters are handed over late, in any order, or not at all. As long as
no sending chain carries more than two thousand of them, every letter whose
chain its receiver has not forgotten arrives with the text that was sent
(`Dialogue.delivers`).

The sessions begin on the lowest two rungs of a ladder, whose pairs are those
that the dialogue will have made at its end (`Dialogue.tracked_start`), and
whatever happens keeps the dialogue on its track (`Dialogue.tracked_run`).
-/

set_option autoImplicit false

namespace Ratchet

/-- The classic suite multiplies points of a curve, by one number after the other. -/
theorem Suite.commutes_classic : Suite.classic.Commutes := by
  intro first second
  simp only [Suite.classic]
  exact Curve.agree_publicKey_comm first.octets second.octets

/-- What an action sends, if it sends anything. -/
def Action.sent? : Action → Option (Side × Bytes)
  | .send sender text => some (sender, text)
  | .deliver _ _ => none

/-! ## The beginning -/

section

variable {suite : Suite} {initiator : InitiatorTerms} {responder : ResponderTerms}

/-- Parties whose terms match agree on the same secrets. -/
theorem TermsMatch.secrets_eq (matching : TermsMatch suite initiator responder)
    (commutes : suite.CommutesOn
      ((initiator.pairs ++ responder.pairs).map (·.privateKey))) :
    initiator.secrets suite = responder.secrets suite := by
  have agree : ∀ ours ∈ initiator.pairs, ∀ theirs ∈ responder.pairs,
      suite.agree ours.privateKey theirs.publicKey =
        suite.agree theirs.privateKey ours.publicKey := by
    intro ours oursMember theirs theirsMember
    have oursListed := List.mem_append_left responder.pairs oursMember
    have theirsListed := List.mem_append_right initiator.pairs theirsMember
    exact commutes.agree_eq (matching.wellFormed ours oursListed)
      (matching.wellFormed theirs theirsListed) (List.mem_map_of_mem oursListed)
      (List.mem_map_of_mem theirsListed)
  have identity : initiator.ourIdentity ∈ initiator.pairs := by simp [InitiatorTerms.pairs]
  have base : initiator.ourBase ∈ initiator.pairs := by simp [InitiatorTerms.pairs]
  have theirIdentity : responder.ourIdentity ∈ responder.pairs := by simp [ResponderTerms.pairs]
  have theirSigned : responder.ourSignedPrekey ∈ responder.pairs := by simp [ResponderTerms.pairs]
  simp only [InitiatorTerms.secrets, ResponderTerms.secrets]
  rw [matching.identity, matching.signedPrekey, matching.oneTimePrekey, matching.initiatorIdentity,
    matching.initiatorBase, agree _ identity _ theirSigned, agree _ base _ theirIdentity,
    agree _ base _ theirSigned]
  congr 1
  cases present : responder.ourOneTimePrekey with
  | none => rfl
  | some oneTime =>
      have listed : oneTime ∈ responder.pairs := by simp [ResponderTerms.pairs, present]
      exact congrArg (fun secret => [secret]) (agree _ base _ listed)

variable {ratchet : KeyPair}

/-- Parties whose terms match derive the same first root and chain. -/
theorem TermsMatch.derive_eq (matching : TermsMatch suite initiator responder)
    (commutes : suite.CommutesOn
      ((initiator.pairs ++ responder.pairs ++ [ratchet]).map (·.privateKey))) :
    Handshake.derive (initiator.secrets suite) = Handshake.derive (responder.secrets suite) := by
  rw [matching.secrets_eq (commutes.mono ?_)]
  exact List.map_subset _ (List.subset_append_left _ _)

/-- The initiator turns the first root as the responder does when it learns the new key. -/
theorem TermsMatch.turn_eq (matching : TermsMatch suite initiator responder)
    (paired : ratchet.publicKey = suite.publicKey ratchet.privateKey)
    (commutes : suite.CommutesOn
      ((initiator.pairs ++ responder.pairs ++ [ratchet]).map (·.privateKey))) :
    (Handshake.derive (initiator.secrets suite)).1.turn
        (suite.agree ratchet.privateKey initiator.theirRatchet) =
      (Handshake.derive (responder.secrets suite)).1.turn
        (suite.agree responder.ourRatchet.privateKey ratchet.publicKey) := by
  have ourRatchet : responder.ourRatchet ∈ initiator.pairs ++ responder.pairs := by
    simp [ResponderTerms.pairs]
  have agreed : suite.agree ratchet.privateKey responder.ourRatchet.publicKey =
      suite.agree responder.ourRatchet.privateKey ratchet.publicKey :=
    commutes.agree_eq paired (matching.wellFormed _ ourRatchet)
      (List.mem_map_of_mem (List.mem_append_right _ (List.mem_singleton_self _)))
      (List.mem_map_of_mem (List.mem_append_left _ ourRatchet))
  rw [matching.derive_eq commutes, matching.ratchet, agreed]

end

/-- The ladder of two parties with these pairs. -/
def Ladder.between (suite : Suite) (responder : ResponderTerms) (pair : Nat → KeyPair) : Ladder :=
  ⟨suite, Handshake.derive (responder.secrets suite), pair⟩

/-- The identities of two parties. -/
def identities (initiator : InitiatorTerms) (responder : ResponderTerms) : Side → PublicKey
  | .initiator => initiator.ourIdentity.publicKey
  | .responder => responder.ourIdentity.publicKey

/-- The track of a dialogue that has just been started. -/
def Track.start : Track where
  top := Side.parity
  sent _ := 0
  progress _ := .start
  place _ := (0, 0)

section

variable {suite : Suite} {initiator : InitiatorTerms} {responder : ResponderTerms}
  {ratchet : KeyPair} {pair : Nat → KeyPair}

/-- The responder stands on the lowest rung. -/
theorem Party.stands_responded (matching : TermsMatch suite initiator responder)
    (lowest : pair 0 = responder.ourRatchet) :
    Party.Stands (.between suite responder pair) (identities initiator responder) .start
      .responder ⟨Session.responded suite responder, []⟩ where
  version := rfl
  localIdentity := rfl
  remoteIdentity := matching.initiatorIdentity
  root := rfl
  previous := rfl
  sending := by
    show some (⟨responder.ourRatchet, _⟩ : SendingChain) = some ⟨pair 0, _⟩
    rw [lowest]
    rfl
  receiving := rfl
  heard := rfl

/-- The initiator stands on the rung above, since it has already turned the root. -/
theorem Party.stands_initiated (matching : TermsMatch suite initiator responder)
    (paired : ratchet.publicKey = suite.publicKey ratchet.privateKey)
    (commutes : suite.CommutesOn
      ((initiator.pairs ++ responder.pairs ++ [ratchet]).map (·.privateKey)))
    (lowest : pair 0 = responder.ourRatchet) (next : pair 1 = ratchet) :
    Party.Stands (.between suite responder pair) (identities initiator responder) .start
      .initiator ⟨Session.initiated suite initiator ratchet, [initiator.theirRatchet]⟩ := by
  have derived := matching.derive_eq commutes
  have turned : (Handshake.derive (initiator.secrets suite)).1.turn
      (suite.agree ratchet.privateKey initiator.theirRatchet) =
      (Ladder.between suite responder pair).rung 1 := by
    rw [matching.turn_eq paired commutes, ← lowest, ← next]
    rfl
  refine {
    version := rfl, localIdentity := rfl, remoteIdentity := matching.identity, root := ?_,
    previous := rfl, sending := ?_, receiving := ?_, heard := ?_ }
  · exact congrArg Prod.fst turned
  · show some (⟨ratchet, ((Handshake.derive (initiator.secrets suite)).1.turn
      (suite.agree ratchet.privateKey initiator.theirRatchet)).2⟩ : SendingChain) = _
    rw [turned, ← next]
    rfl
  · show [_] = [Ladder.chainAt _ _ 0]
    rw [derived, matching.ratchet, ← lowest]
    rfl
  · show [initiator.theirRatchet] = [(pair 0).publicKey]
    rw [matching.ratchet, lowest]

end

namespace Dialogue

section

variable {suite : Suite} {initiator : InitiatorTerms} {responder : ResponderTerms}
  {ratchet : KeyPair} {pair : Nat → KeyPair}

/-- **Two sessions that were started on matching terms stand on the lowest rungs.** -/
theorem tracked_start (matching : TermsMatch suite initiator responder)
    (paired : ratchet.publicKey = suite.publicKey ratchet.privateKey)
    (commutes : suite.CommutesOn
      ((initiator.pairs ++ responder.pairs ++ [ratchet]).map (·.privateKey)))
    (lowest : pair 0 = responder.ourRatchet) (next : pair 1 = ratchet) :
    (start (Session.initiated suite initiator ratchet)
      (Session.responded suite responder)).Tracked (.between suite responder pair)
        (identities initiator responder) .start := by
  have ratchetPaired : responder.ourRatchet.publicKey =
      suite.publicKey responder.ourRatchet.privateKey :=
    matching.wellFormed _ (by simp [ResponderTerms.pairs])
  refine {
    stands := ?_, parity := ?_, near := ?_, ratchets := ?_, paired := ?_, sound := fun _ => .start,
    reached := fun _ => le_rfl, unheard := fun _ _ _ _ => rfl, unsent := fun _ _ => rfl,
    counted := fun _ => Nat.zero_le _, posted := ?_, apart := ?_, awaited := ?_, delivered := ?_ }
  · intro side
    cases side with
    | initiator => exact Party.stands_initiated matching paired commutes lowest next
    | responder => exact Party.stands_responded matching lowest
  · intro side
    cases side <;> rfl
  · intro side
    cases side <;> decide
  · show [responder.ourRatchet, ratchet] = [pair 0, pair 1]
    rw [lowest, next]
  · intro rung rungLe
    have few : rung = 0 ∨ rung = 1 := by
      have height : Track.start.height = 1 := rfl
      omega
    rcases few with rfl | rfl
    · show (pair 0).publicKey = suite.publicKey (pair 0).privateKey
      rw [lowest]
      exact ratchetPaired
    · show (pair 1).publicKey = suite.publicKey (pair 1).privateKey
      rw [next]
      exact paired
  · intro number letter found
    cases found
  · intro first second firstSmall
    exact absurd firstSmall (Nat.not_lt_zero _)
  · intro number small
    exact absurd small (Nat.not_lt_zero _)
  · intro report member
    exact absurd member List.not_mem_nil

end

/-! ## Whatever happens -/

section

variable {ladder : Ladder} {identity : Side → PublicKey} {dialogue : Dialogue}

/-- One step keeps a dialogue on its track, if it is regular after the step and
has made no other pairs than those of the ladder. -/
theorem Tracked.step {track : Track} (tracked : dialogue.Tracked ladder identity track)
    (starts : ladder.first.2.index = 0) {action : Action} (lasts : action.Lasts)
    (regular : (dialogue.step ladder.suite action).Regular)
    (refuses : (dialogue.step ladder.suite action).RefusesLate)
    (climbs : ∀ index pair, (dialogue.step ladder.suite action).ratchets[index]? = some pair →
      ladder.pair index = pair)
    (commutes : ladder.suite.CommutesOn
      ((dialogue.step ladder.suite action).ratchets.map (·.privateKey))) :
    ∃ next, (dialogue.step ladder.suite action).Tracked ladder identity next := by
  have before := regular.of_extends (dialogue.extends_step ladder.suite action)
  cases action with
  | send sender text => exact ⟨_, tracked.send starts before sender text⟩
  | deliver number supply =>
      change (dialogue.deliver ladder.suite number supply).Regular at regular
      change (dialogue.deliver ladder.suite number supply).RefusesLate at refuses
      change ∀ index pair,
        (dialogue.deliver ladder.suite number supply).ratchets[index]? = _ → _ at climbs
      change ladder.suite.CommutesOn
        ((dialogue.deliver ladder.suite number supply).ratchets.map _) at commutes
      show ∃ next, (dialogue.deliver ladder.suite number supply).Tracked ladder identity next
      simp only [deliver] at regular refuses climbs commutes ⊢
      cases found : dialogue.letters[number]? with
      | none => exact ⟨track, tracked⟩
      | some letter =>
          rw [found] at regular refuses climbs commutes
          dsimp only at regular refuses climbs commutes ⊢
          by_cases delivered : number ∈ dialogue.reports.map (·.number)
          · rw [if_pos delivered]
            exact ⟨track, tracked⟩
          · rw [if_neg delivered] at regular refuses climbs commutes ⊢
            exact tracked.hand starts regular refuses found delivered lasts climbs commutes

variable {track : Track} (tracked : dialogue.Tracked ladder identity track)
  (starts : ladder.first.2.index = 0) {actions : List Action}
  (lasts : ∀ action ∈ actions, action.Lasts)
  (regular : (dialogue.run ladder.suite actions).Regular)
  (refuses : (dialogue.run ladder.suite actions).RefusesLate)
  (climbs : ∀ index pair, (dialogue.run ladder.suite actions).ratchets[index]? = some pair →
    ladder.pair index = pair)
  (commutes : ladder.suite.CommutesOn
    ((dialogue.run ladder.suite actions).ratchets.map (·.privateKey)))
include tracked starts lasts regular refuses climbs commutes

/-- **A dialogue that ends up regular has been on its track all the time.** -/
theorem tracked_run {done : List Action} (initial : done <+: actions) :
    ∃ now, (dialogue.run ladder.suite done).Tracked ladder identity now := by
  induction done using List.reverseRecOn with
  | nil => exact ⟨track, tracked⟩
  | append_singleton done last ih =>
      obtain ⟨now, trackedNow⟩ := ih ((List.prefix_append done [last]).trans initial)
      have extended := dialogue.extends_run ladder.suite initial
      have lastsNow := lasts last (initial.subset (List.mem_append_right _ List.mem_cons_self))
      rw [run_snoc] at extended ⊢
      refine trackedNow.step starts lastsNow (regular.of_extends extended)
        (refuses.of_extends extended) ?_ ?_
      · intro index pair found
        obtain ⟨grown, same⟩ := extended.ratchets
        refine climbs index pair ?_
        rw [← same, List.getElem?_append_left (List.getElem?_eq_some_iff.mp found).1, found]
      · exact commutes.mono (List.map_subset _ extended.ratchets.subset)

/-- Every text that is sent becomes a letter. -/
theorem letters_run (none : dialogue.letters = []) {done : List Action}
    (initial : done <+: actions) :
    (dialogue.run ladder.suite done).letters.map (fun letter => (letter.sender, letter.text)) =
      done.filterMap Action.sent? := by
  induction done using List.reverseRecOn with
  | nil =>
      show dialogue.letters.map _ = []
      rw [none, List.map_nil]
  | append_singleton done last ih =>
      have earlier := (List.prefix_append done [last]).trans initial
      obtain ⟨now, trackedNow⟩ :=
        tracked_run tracked starts lasts regular refuses climbs commutes earlier
      have regularNow := regular.of_extends (dialogue.extends_run ladder.suite earlier)
      rw [run_snoc, List.filterMap_append, ← ih earlier]
      cases last with
      | send sender text =>
          obtain ⟨message, _, sent⟩ := trackedNow.send_eq starts regularNow sender text
          show ((dialogue.run ladder.suite done).send sender text).letters.map _ = _
          rw [sent, List.map_append]
          rfl
      | deliver number supply =>
          show (((dialogue.run ladder.suite done).deliver ladder.suite number supply).letters.map
            fun letter => (letter.sender, letter.text)) = _
          rw [letters_deliver]
          exact (List.append_nil _).symm

end

/-! ## The main result -/

/-- **Letters arrive.** Two sessions are started on matching terms, and anything
happens to their letters. If the dialogue ends up regular, late letters being
refused, then every text that was sent has become a letter, every letter that was
handed over has been reported, and every letter that was not late has given its text.
(That late letters are refused is no consequence of the rest: it excludes an accident
of their codes.) -/
theorem delivers {suite : Suite} {initiator : InitiatorTerms} {responder : ResponderTerms}
    (matching : TermsMatch suite initiator responder)
    {initiating responding : Session} {first second third fourth : Supply}
    (initiated : (Session.initiate suite initiator).run first = (.ok initiating, second))
    (responded : (Session.respond suite responder).run third = (.ok responding, fourth))
    {actions : List Action} (lasts : ∀ action ∈ actions, action.Lasts)
    (regular : ((start initiating responding).run suite actions).Regular)
    (refuses : ((start initiating responding).run suite actions).RefusesLate)
    (commutes : suite.CommutesOn ((initiator.pairs ++ responder.pairs ++
      ((start initiating responding).run suite actions).ratchets).map (·.privateKey))) :
    ((start initiating responding).run suite actions).letters.map
        (fun letter => (letter.sender, letter.text)) = actions.filterMap Action.sent? ∧
      (∀ done number supply, done ++ [.deliver number supply] <+: actions →
        number < (done.filterMap Action.sent?).length →
        number ∈ ((start initiating responding).run suite actions).reports.map
          (·.number)) ∧
      ∀ report ∈ ((start initiating responding).run suite actions).reports,
        report.late = false →
        ∃ letter, ((start initiating responding).run suite actions).letters[report.number]? =
          some letter ∧ report.outcome = .ok letter.text := by
  obtain ⟨ratchet, paired, rfl⟩ := Session.initiate_eq_ok suite initiated
  obtain rfl := Session.respond_eq_ok suite responded
  set begun := start (Session.initiated suite initiator ratchet)
    (Session.responded suite responder)
  have made : begun.ratchets = [responder.ourRatchet, ratchet] := rfl
  obtain ⟨rest, grown⟩ := (begun.extends_run suite (List.nil_prefix (l := actions))).ratchets
  change begun.ratchets ++ rest = _ at grown
  -- the ladder of the pairs that are there at the end
  let pair : Nat → KeyPair := fun rung => ((begun.run suite actions).ratchets[rung]?).getD default
  have climbs : ∀ index found, (begun.run suite actions).ratchets[index]? = some found →
      pair index = found := by
    intro index found same
    show ((begun.run suite actions).ratchets[index]?).getD default = found
    rw [same, Option.getD_some]
  have lowest : pair 0 = responder.ourRatchet := climbs 0 _ (by rw [← grown, made]; rfl)
  have next : pair 1 = ratchet := climbs 1 _ (by rw [← grown, made]; rfl)
  have ratchets : ratchet ∈ (begun.run suite actions).ratchets := by
    rw [← grown, made]
    exact List.mem_append_left _ (List.mem_cons_of_mem _ (List.mem_singleton_self _))
  have fewer : initiator.pairs ++ responder.pairs ++ [ratchet] ⊆
      initiator.pairs ++ responder.pairs ++ (begun.run suite actions).ratchets :=
    List.append_subset.mpr ⟨List.subset_append_left _ _, List.cons_subset.mpr
      ⟨List.mem_append_right _ ratchets, List.nil_subset _⟩⟩
  have tracked := tracked_start matching paired (commutes.mono (List.map_subset _ fewer)) lowest
    next
  have commutesRun : suite.CommutesOn ((begun.run suite actions).ratchets.map (·.privateKey)) :=
    commutes.mono (List.map_subset _ (List.subset_append_right _ _))
  refine ⟨letters_run tracked rfl lasts regular refuses climbs commutesRun rfl List.prefix_rfl,
    ?_, ?_⟩
  · intro done number supply initial sent
    have earlier := (List.prefix_append done [.deliver number supply]).trans initial
    have written := letters_run tracked rfl lasts regular refuses climbs commutesRun rfl earlier
    rw [← written, List.length_map] at sent
    have reported := reported_deliver suite sent supply
    have extended := begun.extends_run suite initial
    rw [run_snoc] at extended
    exact List.map_subset _ extended.reports.subset reported
  · obtain ⟨now, trackedNow⟩ :=
      tracked_run tracked rfl lasts regular refuses climbs commutesRun List.prefix_rfl
    exact trackedNow.delivered

/-! ## A letter that overtakes another -/

/-- Repeating one byte makes a secret. -/
def sampleSecret (byte : UInt8) : PrivateKey :=
  ⟨⟨List.replicate 32 byte, List.length_replicate⟩⟩

def samplePair (byte : UInt8) : KeyPair :=
  ⟨Suite.classic.publicKey (sampleSecret byte), sampleSecret byte⟩

def sampleSupply (byte : UInt8) : Supply where
  entropy := .stock (List.replicate 32 byte)

theorem lasts_sample (byte : UInt8) : (sampleSupply byte).Lasts 1 where
  agreement := rfl
  generation := rfl
  entropy := Entropy.lasts_stock (by rw [List.length_replicate])

theorem commutes_samples :
    Suite.classic.CommutesOn [sampleSecret 0, sampleSecret 1, sampleSecret 2] :=
  Suite.commutes_classic.commutesOn _

theorem distinct_samples :
    ([samplePair 0, samplePair 1, samplePair 2].map (·.publicKey)).Nodup := by
  decide +kernel

/-- The initiator's terms when every pair at the handshake is the same. -/
def sampleInitiator : InitiatorTerms :=
  let key := (samplePair 0).publicKey
  ⟨samplePair 0, samplePair 0, key, key, none, key⟩

/-- The responder's. -/
def sampleResponder : ResponderTerms :=
  let key := (samplePair 0).publicKey
  ⟨samplePair 0, samplePair 0, none, samplePair 0, key, key⟩

def sampleStart : Dialogue :=
  start (Session.initiated Suite.classic sampleInitiator (samplePair 1))
    (Session.responded Suite.classic sampleResponder)

/-- The second of two letters overtakes the first, and is answered. -/
def sampleActions : List Action :=
  [.send .initiator [1], .send .initiator [2], .deliver 1 (sampleSupply 2), .send .responder [3]]

theorem lasts_actions : ∀ action ∈ sampleActions, action.Lasts := by
  simp [sampleActions, Action.Lasts, lasts_sample]

theorem samples_match : TermsMatch Suite.classic sampleInitiator sampleResponder where
  wellFormed := by
    intro pair member
    have same : pair = samplePair 0 := by
      simpa [InitiatorTerms.pairs, ResponderTerms.pairs, sampleInitiator, sampleResponder]
        using member
    rw [same]
    rfl
  identity := rfl
  signedPrekey := rfl
  oneTimePrekey := rfl
  ratchet := rfl
  initiatorIdentity := rfl
  initiatorBase := rfl

theorem ratchets_sample : (sampleStart.run Suite.classic sampleActions).ratchets.Sublist
    [samplePair 0, samplePair 1, samplePair 2] := by
  have made : sampleStart.ratchets = [samplePair 0, samplePair 1] := rfl
  have drawn : sampleActions.flatMap (Action.pairs Suite.classic) = [samplePair 2] := rfl
  have ratchets := sampleStart.ratchets_run Suite.classic lasts_actions
  rw [drawn, made] at ratchets
  exact ratchets

theorem late_run_sample (suite : Suite) {dialogue : Dialogue} (unreported : dialogue.reports = [])
    (onTime : ∀ side ratchetKey, (dialogue.party side).late ratchetKey = false) :
    ∀ report ∈ (dialogue.run suite sampleActions).reports, report.late = false := by
  intro report reported
  change report ∈ ((((dialogue.send .initiator [1]).send .initiator [2]).deliver
    suite 1 (sampleSupply 2)).send .responder [3]).reports at reported
  rw [reports_send] at reported
  rcases late_of_mem_deliver suite reported with old | ⟨side, ratchetKey, late⟩
  · rw [reports_send, reports_send, unreported] at old
    cases old
  · rw [late, late_send, late_send, onTime]

theorem late_sample : ∀ report ∈ (sampleStart.run Suite.classic sampleActions).reports,
    report.late = false :=
  late_run_sample Suite.classic rfl (late_start _ _)

theorem regular_sample : (sampleStart.run Suite.classic sampleActions).Regular where
  distinct := distinct_samples.sublist (ratchets_sample.map _)
  short ratchetKey := by
    have few := sampleStart.length_letters_run Suite.classic sampleActions
    have chosen : ((sampleStart.run Suite.classic sampleActions).lettersOn ratchetKey).length ≤
        (sampleStart.run Suite.classic sampleActions).letters.length :=
      List.length_filter_le _ _
    have four : sampleStart.letters.length + sampleActions.length = 4 := rfl
    omega

theorem commutes_run_sample : Suite.classic.CommutesOn ((sampleInitiator.pairs ++
    sampleResponder.pairs ++ (sampleStart.run Suite.classic sampleActions).ratchets).map
      (·.privateKey)) := by
  have fewer : sampleInitiator.pairs ++ sampleResponder.pairs ++
      (sampleStart.run Suite.classic sampleActions).ratchets ⊆
      [samplePair 0, samplePair 1, samplePair 2] := by
    refine List.append_subset.mpr ⟨?_, ratchets_sample.subset⟩
    simp [InitiatorTerms.pairs, ResponderTerms.pairs, sampleInitiator, sampleResponder]
  exact commutes_samples.mono (List.map_subset _ fewer)

theorem second_letter_first :
    let dialogue := sampleStart.run Suite.classic sampleActions
    dialogue.letters.map (fun letter => (letter.sender, letter.text)) =
        [(.initiator, [1]), (.initiator, [2]), (.responder, [3])] ∧
      1 ∈ dialogue.reports.map (·.number) ∧
      ∀ report ∈ dialogue.reports,
        ∃ letter, dialogue.letters[report.number]? = some letter ∧
          report.outcome = .ok letter.text := by
  obtain ⟨ratchet, later, generated, _, initiated⟩ :=
    Session.run_initiate_of_lasts Suite.classic (lasts_sample 1) sampleInitiator
  obtain rfl : samplePair 1 = ratchet := by
    have made : Suite.classic.generate.run (sampleSupply 1) =
      (.ok (samplePair 1), { sampleSupply 1 with entropy := .stock [] }) := rfl
    rw [made] at generated
    cases generated
    rfl
  have responded := Session.run_respond_of_lasts Suite.classic (lasts_sample 0) sampleResponder
  obtain ⟨sent, reported, arrived⟩ :=
    delivers samples_match initiated responded lasts_actions regular_sample
      (.of_inTime late_sample) commutes_run_sample
  refine ⟨sent, ?_, fun report member => arrived report member (late_sample report member)⟩
  have written : 1 < ([.send .initiator [1], .send .initiator [2]].filterMap Action.sent?).length :=
    by decide
  exact reported _ 1 _ ⟨[.send .responder [3]], rfl⟩ written

end Dialogue

end Ratchet
