import Ratchet.Proofs.Dialogue.Delivery

/-!
# Starting at the same moment

Two parties that know each other's base, ratchet and identity keys start a session
at once. The order of the base keys gives one of them the part of the initiator,
unless the keys are equal, and then neither has it
(`SymmetricTerms.Mirror.weInitiate_ne_iff`).

For the one the base key of the other is a signed prekey, for the other its own
base pair is one, and only the responder uses its ratchet pair. With the parts
taken like this the terms match as they do after a handshake over prekeys
(`SymmetricTerms.Mirror.termsMatch`), so there are two sides of one session
(`TermsMatch.joined`), whichever keys there are and whoever comes first.
-/

set_option autoImplicit false

namespace Ratchet

/-! ## Two sides of one session -/

/-- An initiator and a responder who have just started one session: each knows the other, the
initiator receives on the chain on which the responder sends, and the responder's next turn of
the root gives what the initiator has. -/
structure Session.Joined (suite : Suite) (initiating responding : Session) : Prop where
  localIdentity : initiating.localIdentity = responding.remoteIdentity
  remoteIdentity : initiating.remoteIdentity = responding.localIdentity
  initiatorBase : ∃ base,
    initiating.initiatorBase = some base ∧ responding.initiatorBase = some base
  received : ∃ sending chain, responding.sending = some sending ∧
    initiating.receivingChain? sending.ratchet.publicKey = some chain ∧
    chain.chain = sending.chain
  turned : ∃ ours theirs, initiating.sending = some ours ∧ responding.sending = some theirs ∧
    ∀ supply : Supply, supply.Lasts 0 →
      (suite.turn responding.root ours.ratchet.publicKey theirs.ratchet).run supply =
        (.ok (initiating.root, ours.chain), supply)

section

variable {suite : Suite} {initiator : InitiatorTerms} {responder : ResponderTerms}
  {ratchet : KeyPair}

/-- Matching terms make two sides of one session. -/
theorem TermsMatch.joined (matching : TermsMatch suite initiator responder)
    (paired : ratchet.publicKey = suite.publicKey ratchet.privateKey)
    (commutes : suite.CommutesOn
      ((initiator.pairs ++ responder.pairs ++ [ratchet]).map (·.privateKey))) :
    Session.Joined suite (Session.initiated suite initiator ratchet)
      (Session.responded suite responder) where
  localIdentity := matching.initiatorIdentity.symm
  remoteIdentity := matching.identity
  initiatorBase := ⟨_, rfl, congrArg some matching.initiatorBase⟩
  received := by
    refine ⟨_, ⟨initiator.theirRatchet, (Handshake.derive (initiator.secrets suite)).2, []⟩, rfl,
      ?_, congrArg Prod.snd (matching.derive_eq commutes)⟩
    exact List.find?_cons_of_pos (decide_eq_true matching.ratchet)
  turned := by
    refine ⟨_, _, rfl, rfl, fun supply lasts => ?_⟩
    rw [suite.run_turn_of_lasts lasts]
    have turned := (matching.turn_eq paired commutes).symm
    exact congrArg (fun next => (Except.ok next, supply)) turned

end

/-! ## Parts -/

namespace PublicKey

theorem lt_asymm {first second : PublicKey} (less : first < second) : ¬second < first :=
  List.lt_asymm less

theorem lt_or_lt_of_ne {first second : PublicKey} (different : first ≠ second) :
    first < second ∨ second < first := by
  by_contra neither
  obtain ⟨notLess, notGreater⟩ := not_or.mp neither
  have bytes : first.octets.toList = second.octets.toList :=
    List.le_antisymm (List.not_lt.mp notGreater) (List.not_lt.mp notLess)
  apply different
  rw [PublicKey.mk.injEq]
  exact Octets.ext bytes

end PublicKey

namespace SymmetricTerms

/-- The pairs a party brings to the exchange. -/
def pairs (terms : SymmetricTerms) : List KeyPair :=
  [terms.ourIdentity, terms.ourBase, terms.ourRatchet]

/-- A party knows the public halves of the other's pairs. -/
structure Knows (ours theirs : SymmetricTerms) : Prop where
  base : ours.theirBase = theirs.ourBase.publicKey
  ratchet : ours.theirRatchet = theirs.ourRatchet.publicKey
  identity : ours.theirIdentity = theirs.ourIdentity.publicKey

/-- All pairs are well formed, and each party knows the public halves of the other's. -/
structure Mirror (suite : Suite) (ours theirs : SymmetricTerms) : Prop where
  wellFormed : ∀ pair ∈ ours.pairs ++ theirs.pairs,
    pair.publicKey = suite.publicKey pair.privateKey
  weKnow : ours.Knows theirs
  theyKnow : theirs.Knows ours

namespace Mirror

variable {suite : Suite} {ours theirs : SymmetricTerms}

theorem symm (mirror : Mirror suite ours theirs) : Mirror suite theirs ours where
  wellFormed pair member :=
    mirror.wellFormed pair (List.mem_append.mpr (List.mem_append.mp member).symm)
  weKnow := mirror.theyKnow
  theyKnow := mirror.weKnow

/-- Taken as initiator and responder, the two parties have matching terms. -/
theorem termsMatch (mirror : Mirror suite ours theirs) :
    TermsMatch suite ours.initiator theirs.responder where
  wellFormed pair member := by
    apply mirror.wellFormed
    simp only [InitiatorTerms.pairs, ResponderTerms.pairs, initiator, responder, pairs,
      Option.toList_none, List.append_nil, List.mem_append, List.mem_cons, List.not_mem_nil,
      or_false] at member ⊢
    tauto
  identity := mirror.weKnow.identity
  signedPrekey := mirror.weKnow.base
  oneTimePrekey := rfl
  ratchet := mirror.weKnow.ratchet
  initiatorIdentity := mirror.theyKnow.identity
  initiatorBase := mirror.theyKnow.base

theorem weInitiate_eq (mirror : Mirror suite ours theirs) :
    ours.weInitiate = decide (ours.ourBase.publicKey < theirs.ourBase.publicKey) := by
  rw [weInitiate, mirror.weKnow.base]

/-- The order of the base keys tells the parties apart unless the keys are equal. -/
theorem weInitiate_ne_iff (mirror : Mirror suite ours theirs) :
    ours.weInitiate ≠ theirs.weInitiate ↔
      ours.ourBase.publicKey ≠ theirs.ourBase.publicKey := by
  rw [mirror.weInitiate_eq, mirror.symm.weInitiate_eq]
  constructor
  · intro apart same
    apply apart
    rw [same]
  · intro different
    rcases PublicKey.lt_or_lt_of_ne different with less | greater
    · simp [less, PublicKey.lt_asymm less]
    · simp [greater, PublicKey.lt_asymm greater]

end Mirror

end SymmetricTerms

namespace Session

variable {suite : Suite} {ours theirs : SymmetricTerms}

/-- With opposite parts the exchange makes two sides of one session. -/
theorem joined_of_weInitiate (commutes : suite.Commutes)
    (mirror : SymmetricTerms.Mirror suite ours theirs) (weInitiate : ours.weInitiate = true)
    (theyRespond : theirs.weInitiate = false) {first second : Supply} (firstLasts : first.Lasts 1)
    (secondLasts : second.Lasts 1) :
    ∃ our their later other, (exchange suite ours).run first = (.ok our, later) ∧
      (exchange suite theirs).run second = (.ok their, other) ∧ Joined suite our their := by
  obtain ⟨ratchet, later, generated, -, initiated⟩ :=
    run_initiate_of_lasts suite firstLasts ours.initiator
  have responded := run_respond_of_lasts suite secondLasts theirs.responder
  refine ⟨_, _, later, second, ?_, ?_,
    mirror.termsMatch.joined (suite.generate_eq_ok generated) (commutes.commutesOn _)⟩
  · rw [exchange, if_pos weInitiate, initiated]
  · rw [exchange, if_neg (Bool.eq_false_iff.mp theyRespond), responded]

/-- **A session that both parties start at once is one session.** One of them is the initiator
unless the base keys are equal, and then both sides succeed and belong together. -/
theorem exchange_joined (commutes : suite.Commutes)
    (mirror : SymmetricTerms.Mirror suite ours theirs) :
    (ours.weInitiate ≠ theirs.weInitiate ↔
        ours.ourBase.publicKey ≠ theirs.ourBase.publicKey) ∧
      (ours.ourBase.publicKey ≠ theirs.ourBase.publicKey →
        ∀ first second : Supply, first.Lasts 1 → second.Lasts 1 →
          ∃ our their later other, (exchange suite ours).run first = (.ok our, later) ∧
            (exchange suite theirs).run second = (.ok their, other) ∧
            (ours.weInitiate = true → Joined suite our their) ∧
            (theirs.weInitiate = true → Joined suite their our)) := by
  refine ⟨mirror.weInitiate_ne_iff, fun different first second firstLasts secondLasts => ?_⟩
  have apart := mirror.weInitiate_ne_iff.mpr different
  cases part : ours.weInitiate with
  | true =>
      rw [part] at apart
      have theyRespond : theirs.weInitiate = false := Bool.eq_false_iff.mpr apart.symm
      obtain ⟨our, their, later, other, ran, theyRan, joined⟩ :=
        joined_of_weInitiate commutes mirror part theyRespond firstLasts secondLasts
      refine ⟨our, their, later, other, ran, theyRan, fun _ => joined, fun initiate => ?_⟩
      rw [theyRespond] at initiate
      cases initiate
  | false =>
      rw [part] at apart
      have theyInitiate : theirs.weInitiate = true := Bool.eq_true_of_not_eq_false apart.symm
      obtain ⟨their, our, other, later, theyRan, ran, joined⟩ :=
        joined_of_weInitiate commutes mirror.symm theyInitiate part secondLasts firstLasts
      exact ⟨our, their, later, other, ran, theyRan, nofun, fun _ => joined⟩

/-- Three pairs used by one party. -/
def sampleExchange (identity base ratchet theirIdentity theirBase theirRatchet : UInt8) :
    SymmetricTerms where
  ourIdentity := Dialogue.samplePair identity
  ourBase := Dialogue.samplePair base
  ourRatchet := Dialogue.samplePair ratchet
  theirIdentity := (Dialogue.samplePair theirIdentity).publicKey
  theirBase := (Dialogue.samplePair theirBase).publicKey
  theirRatchet := (Dialogue.samplePair theirRatchet).publicKey

theorem mirror_sampleExchange (identity base ratchet otherIdentity otherBase otherRatchet : UInt8) :
    SymmetricTerms.Mirror Suite.classic
      (sampleExchange identity base ratchet otherIdentity otherBase otherRatchet)
      (sampleExchange otherIdentity otherBase otherRatchet identity base ratchet) where
  wellFormed pair member := by
    simp only [SymmetricTerms.pairs, sampleExchange, List.cons_append, List.nil_append,
      List.mem_cons, List.not_mem_nil, or_false] at member
    rcases member with rfl | rfl | rfl | rfl | rfl | rfl <;> rfl
  weKnow := ⟨rfl, rfl, rfl⟩
  theyKnow := ⟨rfl, rfl, rfl⟩

theorem exchange_joined_sample :
    ∃ our their later other,
      (exchange Suite.classic (sampleExchange 0 1 2 1 2 0)).run (Dialogue.sampleSupply 1) =
        (.ok our, later) ∧
      (exchange Suite.classic (sampleExchange 1 2 0 0 1 2)).run (Dialogue.sampleSupply 2) =
        (.ok their, other) ∧
      Joined Suite.classic our their := by
  have different : (Dialogue.samplePair 1).publicKey ≠ (Dialogue.samplePair 2).publicKey := by
    decide +kernel
  have weInitiate : (sampleExchange 0 1 2 1 2 0).weInitiate = true := by decide +kernel
  obtain ⟨our, their, later, other, ran, theyRan, joined, -⟩ :=
    (exchange_joined Suite.commutes_classic (mirror_sampleExchange 0 1 2 1 2 0)).2 different
      (Dialogue.sampleSupply 1) (Dialogue.sampleSupply 2) (Dialogue.lasts_sample 1)
      (Dialogue.lasts_sample 2)
  exact ⟨our, their, later, other, ran, theyRan, joined weInitiate⟩

end Session

end Ratchet
