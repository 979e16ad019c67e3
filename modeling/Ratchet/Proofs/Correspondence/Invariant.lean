import Mathlib.Data.List.Pairwise
import Ratchet.Proofs.Correspondence.Run
import Ratchet.Proofs.Dialogue.Climbing

/-!
# What holds in a correspondence

Each strand of a correspondence is a dialogue of its own (`Strand.Lives`): the
sessions that the two people hold of it are those of the dialogue's parties. As
long as the responder has no session, the dialogue's responder is the session
that the first message to arrive will make.

The strands have nothing in common but the signed prekey on which several may
have been started, and nobody ever sends on it. So a session does not know the
ratchet key of a letter of another strand, and declines it
(`Correspondence.Sound.declines`).
-/

set_option autoImplicit false

namespace Ratchet

@[simp]
theorem Person.other_other (person : Person) : person.other.other = person := by
  cases person <;> rfl

theorem Person.other_ne (person : Person) : person.other ≠ person := by
  cases person <;> decide

/-- A letter of a session that has these ratchet pairs: it is on one of them, and it carries
what the responder needs, unless the responder has a session. -/
structure Letter.Carries (letter : Letter) (pending : PendingPrekey) (ratchets : List KeyPair)
    (answered : Bool) : Prop where
  readable : Message.parse letter.message.type letter.message.serialized = .ok letter.message
  ratchet : letter.message.inner.ratchetKey ∈ ratchets.map (·.publicKey)
  wrapped : answered ∧ (∃ inner, letter.message = .ratchet inner) ∨
    letter.sender = .initiator ∧ ∃ prekey, letter.message = .prekey prekey ∧
      prekey.version = Limits.currentVersion ∧ prekey.oneTimeId = pending.oneTimeId ∧
      prekey.signedId = pending.signedId ∧ prekey.baseKey = pending.baseKey

/-- A letter goes on carrying what it does when more pairs are made and the responder answers. -/
theorem Letter.Carries.mono {letter : Letter} {pending : PendingPrekey}
    {ratchets more : List KeyPair} {answered later : Bool}
    (carries : letter.Carries pending ratchets answered) (grown : ratchets ⊆ more)
    (still : answered → later) : letter.Carries pending more later :=
  ⟨carries.readable, List.map_subset _ grown carries.ratchet,
    carries.wrapped.imp_left (And.imp_left still)⟩

namespace Strand

variable (strand : Strand) (setting : Setting)

@[simp]
theorem person_side (person : Person) : strand.person (strand.side person) = person := by
  simp only [side]
  split
  · rename_i same
    exact same.symm
  · rename_i different
    show strand.opener.other = person
    cases person <;> cases opens : strand.opener <;> first | rfl | exact absurd opens.symm different

theorem person_eq_iff {side : Side} {person : Person} :
    strand.person side = person ↔ side = strand.side person := by
  refine ⟨?_, fun same => by rw [same, person_side]⟩
  rintro rfl
  cases side with
  | initiator => exact (if_pos rfl).symm
  | responder => exact (if_neg strand.opener.other_ne).symm

theorem side_person (side : Side) : strand.side (strand.person side) = side :=
  (strand.person_eq_iff.mp rfl).symm

theorem person_other (side : Side) : strand.person side.other = (strand.person side).other := by
  cases side with
  | initiator => rfl
  | responder => exact strand.opener.other_other.symm

/-- The signed prekey that the session was started with. -/
def signedPair : KeyPair := (setting.signed strand.opener.other strand.signedId).pair

/-- The one-time prekey, if there was one. -/
def oneTimePair : Option KeyPair :=
  strand.oneTimeId.map fun id => (setting.oneTime strand.opener.other id).pair

/-- The identities on the two sides. -/
def identities (side : Side) : PublicKey := (setting.identity (strand.person side)).publicKey

/-- What the initiator knows. -/
def initiatorTerms : InitiatorTerms :=
  Conversation.bundleTerms (setting.identity strand.opener) strand.base
    (setting.identity strand.opener.other).publicKey (strand.signedPair setting).publicKey
    ((strand.oneTimePair setting).map (·.publicKey))

/-- What the responder knows, once it is told of the base key. -/
def responderTerms : ResponderTerms where
  ourIdentity := setting.identity strand.opener.other
  ourSignedPrekey := strand.signedPair setting
  ourOneTimePrekey := strand.oneTimePair setting
  ourRatchet := strand.signedPair setting
  theirIdentity := (setting.identity strand.opener).publicKey
  theirBase := strand.key

/-- What goes with every message of the initiator until it is answered. -/
def pending : PendingPrekey := ⟨strand.oneTimeId, strand.signedId, strand.key⟩

/-- The strand is this dialogue, the two people holding these sessions of it. -/
structure Lives (held : Side → Option Session) (dialogue : Dialogue) : Prop where
  climbs : dialogue.Climbs setting.suite (strand.identities setting)
  letters : dialogue.letters = strand.letters
  ratchets : dialogue.ratchets = strand.signedPair setting :: strand.ratchets
  heard : ∀ side, (dialogue.party side).heard = strand.heard side
  reports : ∀ report ∈ dialogue.reports, report.late = false ∧ report.number ∈ strand.delivered
  own : ∀ side, ∀ session ∈ held side, session = (dialogue.party side).session
  started : (held .initiator).isSome
  unanswered : held .responder = none → strand.heard .responder = [] ∧
    (dialogue.party .responder).session =
      Session.responded setting.suite (strand.responderTerms setting)
  pends : ∀ side, ∀ session ∈ held side,
    session.pendingPrekey = none ∧ (held .responder).isSome ∨
      side = .initiator ∧ session.pendingPrekey = some strand.pending
  sends : ∀ side, ∀ session ∈ held side, ∀ sending ∈ session.sending,
    sending.ratchet ∈ strand.ratchets
  carries : ∀ letter ∈ strand.letters,
    letter.Carries strand.pending strand.ratchets (held .responder).isSome

end Strand

namespace Correspondence

variable {setting : Setting} {state : Correspondence}

/-! ## Pairs of different strands -/

namespace Regular

variable (regular : state.Regular setting) {strand other : Strand} (member : strand ∈ state.strands)
include regular member

theorem nodup_generated : (strand.generated.map (·.publicKey)).Nodup := by
  have distinct := regular.distinct
  rw [List.map_flatMap, List.nodup_flatMap] at distinct
  exact distinct.1 strand member

theorem eq_of_mem_generated (otherMember : other ∈ state.strands) {key : PublicKey}
    (listed : key ∈ strand.generated.map (·.publicKey))
    (otherListed : key ∈ other.generated.map (·.publicKey)) : strand = other := by
  have distinct := regular.distinct
  rw [List.map_flatMap, List.nodup_flatMap] at distinct
  have symmetric : Std.Symm
      (Function.onFun List.Disjoint fun strand : Strand => strand.generated.map (·.publicKey)) :=
    ⟨fun _ _ => List.disjoint_symm⟩
  by_contra different
  exact distinct.2.forall member otherMember different listed otherListed

/-- No two strands have the same base key. -/
theorem eq_of_key_eq (otherMember : other ∈ state.strands) (same : strand.key = other.key) :
    strand = other := by
  have listed : ∀ strand : Strand, strand.key ∈ strand.generated.map (·.publicKey) :=
    fun _ => List.mem_cons_self
  exact regular.eq_of_mem_generated member otherMember (listed strand) (same ▸ listed other)

/-- A ratchet key that was made in one strand is not one of another. -/
theorem not_mem_ratchets (otherMember : other ∈ state.strands) (different : strand.key ≠ other.key)
    {key : PublicKey} (listed : key ∈ other.ratchets.map (·.publicKey)) :
    key ∉ (strand.signedPair setting :: strand.ratchets).map (·.publicKey) := by
  rw [List.map_cons, List.mem_cons]
  rintro (same | own)
  · obtain ⟨pair, pairListed, rfl⟩ := List.mem_map.mp listed
    exact regular.apart strand member other otherMember pair
      (List.mem_cons_of_mem _ pairListed) same
  · exact different (congrArg Strand.key (regular.eq_of_mem_generated member otherMember
      (List.mem_cons_of_mem _ own) (List.mem_cons_of_mem _ listed)))

end Regular

/-- A dialogue that is a strand of a regular correspondence is regular. -/
theorem Regular.dialogue (regular : state.Regular setting) {strand : Strand}
    (member : strand ∈ state.strands) {dialogue : Dialogue}
    (letters : dialogue.letters = strand.letters)
    (ratchets : dialogue.ratchets = strand.signedPair setting :: strand.ratchets) :
    dialogue.Regular where
  distinct := by
    rw [ratchets, List.map_cons, List.nodup_cons]
    refine ⟨fun listed => ?_, ?_⟩
    · obtain ⟨pair, pairListed, same⟩ := List.mem_map.mp listed
      exact regular.apart strand member strand member pair (List.mem_cons_of_mem _ pairListed) same
    · exact (List.nodup_cons.mp (regular.nodup_generated member)).2
  short ratchetKey := by
    simp only [Dialogue.lettersOn]
    rw [letters]
    exact regular.short strand member ratchetKey

/-! ## The invariant -/

/-- The stores are as the setting has them, the records are tidy, and their sessions are
those of the strands, each of which is a dialogue. -/
structure Sound (setting : Setting) (state : Correspondence) : Prop where
  furnished : ∀ person, setting.Furnishes person (state.store person)
  loads : ∀ person, ∃ stored,
    (state.store person).loadRecord (setting.address person.other) = .ok stored
  tidy : ∀ person, (state.record setting person).Tidy (setting.identity person).publicKey
    (setting.identity person.other).publicKey
  covered : ∀ person, ∀ session ∈ (state.record setting person).sessions,
    ∃ strand ∈ state.strands, session.initiatorBase = some strand.key
  lives : ∀ strand ∈ state.strands,
    ∃ dialogue, strand.Lives setting (state.held setting strand) dialogue

namespace Sound

variable (sound : state.Sound setting)
include sound

theorem exists_stored (person : Person) :
    ∃ stored, (state.store person).loadRecord (setting.address person.other) = .ok stored ∧
      state.record setting person = stored.getD .fresh := by
  obtain ⟨stored, loaded⟩ := sound.loads person
  refine ⟨stored, loaded, ?_⟩
  rw [record, MemoryStore.recordAt, loaded]
  rfl

theorem held_eq_some_iff {strand : Strand} {side : Side} {session : Session} :
    state.held setting strand side = some session ↔
      session ∈ (state.record setting (strand.person side)).sessions ∧
        session.initiatorBase = some strand.key :=
  SessionRecord.session?_eq_some_iff (sound.tidy _).named

/-- Whoever has no session of a strand has none of its base key. -/
theorem ne_of_held {strand : Strand} {side : Side}
    (nobody : state.held setting strand side = none) :
    ∀ session ∈ (state.record setting (strand.person side)).sessions,
      session.initiatorBase ≠ some strand.key := by
  intro session listed named
  have holds := sound.held_eq_some_iff.mpr ⟨listed, named⟩
  rw [nobody] at holds
  cases holds

/-- **A session declines the letters of all other strands.** -/
theorem declines (regular : state.Regular setting) {strand : Strand}
    (member : strand ∈ state.strands) {number : Nat} {letter : Letter}
    (found : strand.letters[number]? = some letter) {person : Person} {session : Session}
    (listed : session ∈ (state.record setting person).sessions)
    (different : session.initiatorBase ≠ some strand.key)
    (foreign : ¬ session.Authenticates setting.suite letter.message.inner) :
    session.Declines setting.suite letter.message.inner := by
  obtain ⟨other, otherMember, named⟩ := sound.covered person session listed
  obtain ⟨dialogue, lives⟩ := sound.lives strand member
  obtain ⟨otherDialogue, otherLives⟩ := sound.lives other otherMember
  have belongs := (sound.tidy person).belong session listed
  obtain ⟨sending, sends⟩ := Option.isSome_iff_exists.mp belongs.sends
  have dialogueRegular := regular.dialogue member lives.letters lives.ratchets
  obtain ⟨version, near⟩ := lives.climbs.inner_eq dialogueRegular (lives.letters ▸ found)
  have carries := lives.carries letter (List.mem_of_getElem? found)
  refine Session.declines_of_unknown setting.suite sends (version.trans belongs.version.symm) ?_
    near foreign
  rw [Session.receivingChain?_eq_none_iff]
  intro known
  have heldOther : state.held setting other (other.side person) = some session := by
    rw [sound.held_eq_some_iff, other.person_side]
    exact ⟨listed, named⟩
  have own := otherLives.own _ session heldOther
  obtain ⟨chain, chainListed, same⟩ := List.mem_map.mp known
  rw [own] at chainListed
  have mine := otherLives.climbs.ratchetKey_mem _ chain chainListed
  rw [otherLives.ratchets, same] at mine
  refine regular.not_mem_ratchets otherMember member (fun equal => ?_) carries.ratchet mine
  exact different (named.trans (congrArg some equal))

end Sound

end Correspondence

end Ratchet
