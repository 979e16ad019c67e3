import Mathlib.Data.List.Infix
import Mathlib.Data.List.Nodup
import Mathlib.Logic.Function.Basic
import Ratchet.Proofs.Session.Handshakes

/-!
# Dialogues

Two parties start a session with each other, one as its initiator and one as its
responder, and write letters. A letter can be handed to the other party at any
time after it was sent, once, before or after any other letter, or never. A
`Dialogue` is how things stand: what each party remembers, all letters in the
order in which they were sent, and a report of each letter that was handed over.

A party that has turned around several new keys forgets its oldest receiving
chains. A letter whose chain the receiver once had and has forgotten is late
(`Party.late`).

A dialogue only grows (`Dialogue.Extends`), so what is regular at its end was
regular all the time (`Dialogue.Regular.of_extends`), and what refuses late letters
then has always done so (`Dialogue.RefusesLate.of_extends`).
-/

set_option autoImplicit false

namespace Ratchet

/-- The two sides of a dialogue. -/
inductive Side where
  | initiator
  | responder
deriving DecidableEq

/-- The other side. -/
def Side.other : Side → Side
  | .initiator => .responder
  | .responder => .initiator

/-- A session in a dialogue, and the ratchet keys it has had receiving chains of. -/
structure Party where
  session : Session
  heard : List PublicKey

/-- A text and the message it was sent in. -/
structure Letter where
  sender : Side
  text : Bytes
  message : Message

/-- What became of a letter that was handed over. -/
structure Report where
  /-- The number of the letter. -/
  number : Nat
  late : Bool
  outcome : Except SessionError Bytes

/-- How a dialogue stands. -/
structure Dialogue where
  party : Side → Party
  letters : List Letter := []
  reports : List Report := []
  /-- The ratchet pairs of both parties, oldest first. -/
  ratchets : List KeyPair

/-- What can happen in a dialogue. -/
inductive Action where
  | send (sender : Side) (text : Bytes)
  /-- The letter with this number is handed to its receiver, who has this supply. -/
  | deliver (number : Nat) (supply : Supply)

/-- The action has what it takes to make a pair, if it has to make one. -/
def Action.Lasts : Action → Prop
  | .send _ _ => True
  | .deliver _ supply => supply.Lasts 1

/-- The pair that the action can make. -/
def Action.pairs (suite : Suite) : Action → List KeyPair
  | .send _ _ => []
  | .deliver _ supply => (suite.generate.run supply).1.toOption.toList

namespace Party

/-- Whether the party has forgotten the chain of a ratchet key. -/
def late (party : Party) (ratchetKey : PublicKey) : Bool :=
  (party.session.receivingChain? ratchetKey).isNone && ratchetKey ∈ party.heard

/-- The party after a message with this ratchet key. -/
def received (party : Party) (ratchetKey : PublicKey) :
    Except SessionError (Bytes × Session) → Party
  | .error _ => party
  | .ok (_, session) =>
    match party.session.receivingChain? ratchetKey with
    | some _ => ⟨session, party.heard⟩
    | none => ⟨session, party.heard ++ [ratchetKey]⟩

/-- The pair the party has turned to because of a message with this ratchet key. -/
def turnedTo (party : Party) (ratchetKey : PublicKey) :
    Except SessionError (Bytes × Session) → List KeyPair
  | .error _ => []
  | .ok (_, session) =>
    match party.session.receivingChain? ratchetKey with
    | some _ => []
    | none => (session.sending.map (·.ratchet)).toList

end Party

namespace Dialogue

variable (suite : Suite)

/-- The dialogue of two sessions that have just been started. -/
def start (initiator responder : Session) : Dialogue where
  party
    | .initiator => ⟨initiator, initiator.receiving.map (·.ratchetKey)⟩
    | .responder => ⟨responder, responder.receiving.map (·.ratchetKey)⟩
  ratchets := (responder.sending.toList ++ initiator.sending.toList).map (·.ratchet)

/-- A party sends a text, unless its session refuses. -/
def send (dialogue : Dialogue) (sender : Side) (text : Bytes) : Dialogue :=
  match (dialogue.party sender).session.encrypt text with
  | .ok (message, session) =>
    { dialogue with
      party := Function.update dialogue.party sender { dialogue.party sender with session }
      letters := dialogue.letters ++ [⟨sender, text, message⟩] }
  | .error _ => dialogue

/-- Hands a letter to its receiver. -/
def hand (dialogue : Dialogue) (number : Nat) (letter : Letter) (supply : Supply) : Dialogue :=
  let party := dialogue.party letter.sender.other
  let message := letter.message.inner
  let result := ((party.session.decrypt suite message).run supply).1
  { party := Function.update dialogue.party letter.sender.other
      (party.received message.ratchetKey result)
    letters := dialogue.letters
    reports := dialogue.reports ++
      [⟨number, party.late message.ratchetKey, result.map Prod.fst⟩]
    ratchets := dialogue.ratchets ++ party.turnedTo message.ratchetKey result }

/-- Hands the letter with this number over, if it was sent and not handed over yet. -/
def deliver (dialogue : Dialogue) (number : Nat) (supply : Supply) : Dialogue :=
  match dialogue.letters[number]? with
  | none => dialogue
  | some letter =>
    if number ∈ dialogue.reports.map (·.number) then dialogue
    else dialogue.hand suite number letter supply

/-- One thing happens. -/
def step (dialogue : Dialogue) : Action → Dialogue
  | .send sender text => dialogue.send sender text
  | .deliver number supply => dialogue.deliver suite number supply

/-- Any number of things happen, one after another. -/
def run (dialogue : Dialogue) (actions : List Action) : Dialogue :=
  actions.foldl (step suite) dialogue

theorem run_snoc (dialogue : Dialogue) (actions : List Action) (last : Action) :
    dialogue.run suite (actions ++ [last]) = (dialogue.run suite actions).step suite last :=
  List.foldl_append

/-- The letters of one sending chain. -/
def lettersOn (dialogue : Dialogue) (ratchetKey : PublicKey) : List Letter :=
  dialogue.letters.filter (·.message.inner.ratchetKey = ratchetKey)

/-- No ratchet key is made twice, and no sending chain carries more than two thousand
messages. -/
structure Regular (dialogue : Dialogue) : Prop where
  distinct : (dialogue.ratchets.map (·.publicKey)).Nodup
  short : ∀ ratchetKey, (dialogue.lettersOn ratchetKey).length ≤ 2000

/-- No letter is taken whose chain was forgotten. To its own session such a letter is the first
of a new chain, and the keys of that do not make its code unless by accident. -/
def RefusesLate (dialogue : Dialogue) : Prop :=
  ∀ report ∈ dialogue.reports, report.late = true → ∃ failure, report.outcome = .error failure

/-- Where no letter was late, none had to be refused. -/
theorem RefusesLate.of_inTime {dialogue : Dialogue}
    (inTime : ∀ report ∈ dialogue.reports, report.late = false) : dialogue.RefusesLate := by
  intro report reported late
  rw [inTime report reported] at late
  cases late

/-- Delivering sends nothing. -/
@[simp]
theorem letters_deliver (dialogue : Dialogue) (number : Nat) (supply : Supply) :
    (dialogue.deliver suite number supply).letters = dialogue.letters := by
  simp only [deliver]
  split
  · rfl
  · split <;> rfl

/-- A letter that was sent is reported once it is handed over. -/
theorem reported_deliver {dialogue : Dialogue} {number : Nat}
    (sent : number < dialogue.letters.length) (supply : Supply) :
    number ∈ (dialogue.deliver suite number supply).reports.map (·.number) := by
  simp only [deliver]
  rw [List.getElem?_eq_getElem sent]
  dsimp only
  split
  · assumption
  · simp only [hand]
    rw [List.map_append]
    exact List.mem_append_right _ (List.mem_singleton_self _)

/-- Every action sends at most one letter. -/
theorem length_letters_run (dialogue : Dialogue) (actions : List Action) :
    (dialogue.run suite actions).letters.length ≤ dialogue.letters.length + actions.length := by
  induction actions using List.reverseRecOn with
  | nil => exact Nat.le_refl _
  | append_singleton actions last ih =>
      have one : ((dialogue.run suite actions).step suite last).letters.length ≤
          (dialogue.run suite actions).letters.length + 1 := by
        cases last with
        | send sender text =>
            simp only [step, send]
            split
            · exact (List.length_append).le
            · exact Nat.le_succ _
        | deliver number supply =>
            show ((dialogue.run suite actions).deliver suite number supply).letters.length ≤ _
            rw [letters_deliver]
            exact Nat.le_succ _
      rw [run_snoc, List.length_append, List.length_singleton]
      omega

@[simp]
theorem reports_send (dialogue : Dialogue) (sender : Side) (text : Bytes) :
    (dialogue.send sender text).reports = dialogue.reports := by
  simp only [send]
  split <;> rfl

/-- Sending makes no letter late. -/
@[simp]
theorem late_send (dialogue : Dialogue) (sender side : Side) (text : Bytes)
    (ratchetKey : PublicKey) :
    ((dialogue.send sender text).party side).late ratchetKey =
      (dialogue.party side).late ratchetKey := by
  simp only [send]
  split
  · rename_i message session encrypted
    obtain ⟨_, _, _, _, _, rfl⟩ := Session.encrypt_eq_ok encrypted
    by_cases same : side = sender
    · subst same
      dsimp only
      rw [Function.update_self]
      rfl
    · dsimp only
      rw [Function.update_of_ne same]
  · rfl

/-- Whether a letter is late is reported as it was when the letter was handed over. -/
theorem late_of_mem_deliver {dialogue : Dialogue} {number : Nat} {supply : Supply}
    {report : Report} (reported : report ∈ (dialogue.deliver suite number supply).reports) :
    report ∈ dialogue.reports ∨
      ∃ side ratchetKey, report.late = (dialogue.party side).late ratchetKey := by
  simp only [deliver] at reported
  split at reported
  · exact .inl reported
  · split at reported
    · exact .inl reported
    · rcases List.mem_append.mp reported with old | new
      · exact .inl old
      · rw [List.mem_singleton.mp new]
        exact .inr ⟨_, _, rfl⟩

/-- Nothing is late at the start. -/
theorem late_start (initiator responder : Session) (side : Side) (ratchetKey : PublicKey) :
    ((start initiator responder).party side).late ratchetKey = false := by
  have present : ∀ session : Session,
      (⟨session, session.receiving.map (·.ratchetKey)⟩ : Party).late ratchetKey = false := by
    intro session
    simp only [Party.late, Session.receivingChain?]
    rw [Bool.and_eq_false_imp]
    intro absent
    rw [Option.isNone_iff_eq_none, List.find?_eq_none] at absent
    rw [decide_eq_false_iff_not, List.mem_map]
    rintro ⟨chain, member, same⟩
    exact absent chain member (decide_eq_true same)
  cases side with
  | initiator => exact present initiator
  | responder => exact present responder

/-! ## Dialogues grow -/

/-- The second dialogue continues the first. -/
structure Extends (before after : Dialogue) : Prop where
  letters : before.letters <+: after.letters
  reports : before.reports <+: after.reports
  ratchets : before.ratchets <+: after.ratchets

theorem Extends.refl (dialogue : Dialogue) : dialogue.Extends dialogue :=
  ⟨List.prefix_rfl, List.prefix_rfl, List.prefix_rfl⟩

theorem Extends.trans {first second third : Dialogue} (former : first.Extends second)
    (latter : second.Extends third) : first.Extends third :=
  ⟨former.letters.trans latter.letters, former.reports.trans latter.reports,
    former.ratchets.trans latter.ratchets⟩

theorem extends_send (dialogue : Dialogue) (sender : Side) (text : Bytes) :
    dialogue.Extends (dialogue.send sender text) := by
  simp only [send]
  split
  · exact ⟨List.prefix_append _ _, List.prefix_rfl, List.prefix_rfl⟩
  · exact .refl dialogue

theorem extends_step (dialogue : Dialogue) (action : Action) :
    dialogue.Extends (dialogue.step suite action) := by
  cases action with
  | send sender text => exact dialogue.extends_send sender text
  | deliver number supply =>
      show dialogue.Extends (dialogue.deliver suite number supply)
      simp only [deliver]
      split
      · exact .refl dialogue
      · split
        · exact .refl dialogue
        · exact ⟨List.prefix_rfl, List.prefix_append _ _, List.prefix_append _ _⟩

theorem extends_run (dialogue : Dialogue) {done actions : List Action}
    (initial : done <+: actions) :
    (dialogue.run suite done).Extends (dialogue.run suite actions) := by
  obtain ⟨rest, rfl⟩ := initial
  induction rest using List.reverseRecOn with
  | nil =>
      rw [List.append_nil]
      exact .refl _
  | append_singleton rest last ih =>
      rw [← List.append_assoc, run_snoc]
      exact ih.trans (extends_step suite _ last)

/-- What is regular was regular before. -/
theorem Regular.of_extends {before after : Dialogue} (regular : after.Regular)
    (extended : before.Extends after) : before.Regular where
  distinct := regular.distinct.sublist (extended.ratchets.sublist.map _)
  short ratchetKey :=
    ((extended.letters.sublist.filter _).length_le).trans (regular.short ratchetKey)

/-- What is refused at the end was refused before. -/
theorem RefusesLate.of_extends {before after : Dialogue} (refuses : after.RefusesLate)
    (extended : before.Extends after) : before.RefusesLate :=
  fun report member => refuses report (extended.reports.subset member)

end Dialogue

/-! ## Where the pairs come from -/

/-- A party that receives turns to the pair that the supply gives, or to none. -/
theorem Party.turnedTo_sublist (suite : Suite) (party : Party) (message : RatchetMessage)
    {supply : Supply} (lasts : supply.Lasts 1) :
    (party.turnedTo message.ratchetKey
      ((party.session.decrypt suite message).run supply).1).Sublist
        (suite.generate.run supply).1.toOption.toList := by
  by_cases mute : message.version = party.session.version ∧ party.session.sending.isSome
  · obtain ⟨speaks, answers⟩ := mute
    obtain ⟨sending, sends⟩ := Option.isSome_iff_exists.mp answers
    simp only [turnedTo]
    cases found : party.session.receivingChain? message.ratchetKey with
    | some chain =>
        rw [Session.run_decrypt_known suite sends speaks found]
        dsimp only
        cases party.session.receive party.session chain message <;> exact List.nil_sublist _
    | none =>
        obtain ⟨ours, later, generated, _, run⟩ :=
          Session.run_decrypt_new_of_lasts suite lasts sends speaks found
        rw [run, generated]
        dsimp only
        cases received : party.session.receive _ _ message with
        | error failure => exact List.nil_sublist _
        | ok result =>
            obtain ⟨text, next⟩ := result
            obtain ⟨_, left, _, _, made⟩ := Session.receive_eq_ok received
            have turned : next.sending.map (·.ratchet) = some ours := by
              rw [made]
              exact Session.ratchet_turned suite _ sending message ours left
            dsimp only
            rw [turned]
            exact .refl _
  · obtain ⟨failure, run⟩ := Session.run_decrypt_mute suite mute supply
    rw [run]
    exact List.nil_sublist _

namespace Dialogue

/-- A step makes the pair of its action, or none. -/
theorem ratchets_step (suite : Suite) (dialogue : Dialogue) {action : Action}
    (lasts : action.Lasts) :
    (dialogue.step suite action).ratchets.Sublist
      (dialogue.ratchets ++ action.pairs suite) := by
  have none := List.sublist_append_left dialogue.ratchets (action.pairs suite)
  cases action with
  | send sender text =>
      simp only [step, send]
      split <;> exact none
  | deliver number supply =>
      simp only [step, deliver]
      split
      · exact none
      · split
        · exact none
        · exact (Party.turnedTo_sublist suite _ _ lasts).append_left dialogue.ratchets

/-- **The pairs of a dialogue are those it started with and those of its actions.** -/
theorem ratchets_run (suite : Suite) (dialogue : Dialogue) {actions : List Action}
    (lasts : ∀ action ∈ actions, action.Lasts) :
    (dialogue.run suite actions).ratchets.Sublist
      (dialogue.ratchets ++ actions.flatMap (Action.pairs suite)) := by
  induction actions generalizing dialogue with
  | nil =>
      rw [List.flatMap_nil, List.append_nil]
      exact .refl _
  | cons action rest ih =>
      obtain ⟨now, later⟩ := List.forall_mem_cons.mp lasts
      rw [List.flatMap_cons, ← List.append_assoc]
      exact (ih (dialogue.step suite action) later).trans
        ((dialogue.ratchets_step suite now).append_right _)

end Dialogue

/-! ## Terms that match -/

/-- The secrets of a list agree with each other's public halves in either order. -/
def Suite.CommutesOn (suite : Suite) (secrets : List PrivateKey) : Prop :=
  ∀ first ∈ secrets, ∀ second ∈ secrets,
    suite.agree first (suite.publicKey second) = suite.agree second (suite.publicKey first)

/-- Any two secrets agree with each other's public halves in either order. -/
def Suite.Commutes (suite : Suite) : Prop :=
  ∀ first second,
    suite.agree first (suite.publicKey second) = suite.agree second (suite.publicKey first)

theorem Suite.Commutes.commutesOn {suite : Suite} (commutes : suite.Commutes)
    (secrets : List PrivateKey) : suite.CommutesOn secrets :=
  fun first _ second _ => commutes first second

theorem Suite.CommutesOn.mono {suite : Suite} {secrets fewer : List PrivateKey}
    (commutes : suite.CommutesOn secrets) (subset : fewer ⊆ secrets) : suite.CommutesOn fewer :=
  fun first firstMember second secondMember =>
    commutes first (subset firstMember) second (subset secondMember)

/-- Two well-formed pairs agree on one secret, whoever's private half is used. -/
theorem Suite.CommutesOn.agree_eq {suite : Suite} {secrets : List PrivateKey}
    (commutes : suite.CommutesOn secrets) {first second : KeyPair}
    (firstPaired : first.publicKey = suite.publicKey first.privateKey)
    (secondPaired : second.publicKey = suite.publicKey second.privateKey)
    (firstMember : first.privateKey ∈ secrets) (secondMember : second.privateKey ∈ secrets) :
    suite.agree first.privateKey second.publicKey =
      suite.agree second.privateKey first.publicKey := by
  rw [firstPaired, secondPaired]
  exact commutes _ firstMember _ secondMember

/-- The pairs the initiator brings to the handshake. -/
def InitiatorTerms.pairs (terms : InitiatorTerms) : List KeyPair :=
  [terms.ourIdentity, terms.ourBase]

/-- The pairs the responder brings to the handshake. -/
def ResponderTerms.pairs (terms : ResponderTerms) : List KeyPair :=
  [terms.ourIdentity, terms.ourSignedPrekey, terms.ourRatchet] ++ terms.ourOneTimePrekey.toList

/-- All pairs are well formed, and each party knows the public halves of the other's. -/
structure TermsMatch (suite : Suite) (initiator : InitiatorTerms) (responder : ResponderTerms) :
    Prop where
  wellFormed : ∀ pair ∈ initiator.pairs ++ responder.pairs,
    pair.publicKey = suite.publicKey pair.privateKey
  identity : initiator.theirIdentity = responder.ourIdentity.publicKey
  signedPrekey : initiator.theirSignedPrekey = responder.ourSignedPrekey.publicKey
  oneTimePrekey : initiator.theirOneTimePrekey = responder.ourOneTimePrekey.map (·.publicKey)
  ratchet : initiator.theirRatchet = responder.ourRatchet.publicKey
  initiatorIdentity : responder.theirIdentity = initiator.ourIdentity.publicKey
  initiatorBase : responder.theirBase = initiator.ourBase.publicKey

end Ratchet
