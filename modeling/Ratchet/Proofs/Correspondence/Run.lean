import Ratchet.Proofs.Conversation.Establishing
import Ratchet.Proofs.Record.Trying
import Ratchet.Proofs.Store.History

/-!
# Correspondences

Two people keep prekeys in their stores and withdraw them again. Each starts
sessions with the other from bundles of the other's prekeys, as often as they
like and also both at once, and sends letters, each in the session that is
current at the time. A letter can be handed over at any time after it was sent,
once, before or after any other letter, or never.

A `Correspondence` is how things stand: the stores of both, and a `Strand` for
each session that was started, with its letters. What happens is done by the
requests themselves on the stores (`Correspondence.step`); the strands only write
down what cannot be seen in the stores any more.
-/

set_option autoImplicit false

namespace Ratchet

/-- The two people of a correspondence. -/
inductive Person where
  | alice
  | bob
deriving DecidableEq

/-- The other one. -/
def Person.other : Person → Person
  | .alice => .bob
  | .bob => .alice

/-- What two people bring to a correspondence: the pairs that are their identities, the
addresses they are reached at, and all prekeys they will ever keep, by their numbers. -/
structure Setting where
  suite : Suite
  identity : Person → KeyPair
  address : Person → Address
  signed : Person → UInt32 → SignedPrekey
  oneTime : Person → UInt32 → OneTimePrekey

/-- A prekey of either kind, by its number. -/
inductive PrekeyNumber where
  | signed (id : UInt32)
  | oneTime (id : UInt32)

/-- One session of a correspondence. -/
structure Strand where
  /-- Who started the session, and with which prekeys of the other. -/
  opener : Person
  signedId : UInt32
  oneTimeId : Option UInt32
  base : KeyPair
  /-- The ratchet pairs that were made in the session, oldest first. -/
  ratchets : List KeyPair
  /-- The ratchet keys that each side has had receiving chains of. -/
  heard : Side → List PublicKey
  letters : List Letter := []
  /-- The numbers of the letters that were handed over. -/
  delivered : List Nat := []

/-- How a correspondence stands. -/
structure Correspondence where
  store : Person → MemoryStore
  /-- The sessions in the order in which they were started. -/
  strands : List Strand := []

/-- What can happen in a correspondence. -/
inductive Event where
  | publish (person : Person) (number : PrekeyNumber)
  | withdraw (person : Person) (number : PrekeyNumber)
  /-- A person starts a session from a bundle of the other's prekeys. -/
  | start (person : Person) (signedId : UInt32) (oneTimeId : Option UInt32) (signature : Bytes)
      (supply : Supply)
  | send (person : Person) (text : Bytes)
  /-- A letter of a session is handed to its receiver, who has this supply. -/
  | deliver (base : PublicKey) (number : Nat) (supply : Supply)

namespace Setting

variable (setting : Setting)

/-- The bundle of these prekeys. -/
def bundle (person : Person) (signedId : UInt32) (oneTimeId : Option UInt32) (signature : Bytes) :
    PrekeyBundle :=
  .make (oneTimeId.map fun id => (id, (setting.oneTime person id).pair.publicKey)) signedId
    (setting.signed person signedId).pair.publicKey signature (setting.identity person).publicKey

/-- Keeping a prekey. -/
def keeping (person : Person) : PrekeyNumber → Deed
  | .signed id => .storeSigned id (setting.signed person id)
  | .oneTime id => .storeOneTime id (setting.oneTime person id)

end Setting

/-- Giving a prekey up. -/
def PrekeyNumber.removing : PrekeyNumber → Deed
  | .signed id => .removeSigned id
  | .oneTime id => .removeOneTime id

namespace MemoryStore

/-- The prekeys that a message names are in the store. -/
def CanAnswer (store : MemoryStore) (message : Message) : Prop :=
  ∃ prekey, message = .prekey prekey ∧ store.signedPrekeys.contains prekey.signedId ∧
    ∀ id ∈ prekey.oneTimeId, store.oneTimePrekeys.contains id

/-- The record of an address, without sessions if there is none. -/
def recordAt (store : MemoryStore) (peer : Address) : SessionRecord :=
  (store.loadRecord peer).toOption.join.getD .fresh

end MemoryStore

namespace Strand

/-- What the session is named by. -/
def key (strand : Strand) : PublicKey := strand.base.publicKey

/-- The side that a person is on. -/
def side (strand : Strand) (person : Person) : Side :=
  if person = strand.opener then .initiator else .responder

/-- The person on a side. -/
def person (strand : Strand) : Side → Person
  | .initiator => strand.opener
  | .responder => strand.opener.other

/-- A session that has just been started. -/
def begun (setting : Setting) (opener : Person) (signedId : UInt32) (oneTimeId : Option UInt32)
    (base ratchet : KeyPair) : Strand where
  opener := opener
  signedId := signedId
  oneTimeId := oneTimeId
  base := base
  ratchets := [ratchet]
  heard
    | .initiator => [(setting.signed opener.other signedId).pair.publicKey]
    | .responder => []

/-- A letter more. -/
def write (strand : Strand) (letter : Letter) : Strand :=
  { strand with letters := strand.letters ++ [letter] }

/-- The strand when a letter was handed over. -/
def handOver (strand : Strand) (number : Nat) : Strand :=
  { strand with delivered := strand.delivered ++ [number] }

/-- The strand after a side has taken a message with this ratchet key. Its session before
and after show whether it had to turn, and the pair it turned to. -/
def take (strand : Strand) (side : Side) (ratchetKey : PublicKey) (former latter : Option Session) :
    Strand :=
  match former.bind (·.receivingChain? ratchetKey) with
  | some _ => strand
  | none =>
    { strand with
      heard := Function.update strand.heard side (strand.heard side ++ [ratchetKey])
      ratchets := strand.ratchets ++ ((latter.bind (·.sending)).map (·.ratchet)).toList }

/-- The pairs that were generated for the session. -/
def generated (strand : Strand) : List KeyPair := strand.base :: strand.ratchets

/-- The prekeys that the session was started with. -/
def offered (strand : Strand) (setting : Setting) : List KeyPair :=
  (setting.signed strand.opener.other strand.signedId).pair ::
    (strand.oneTimeId.map fun id => (setting.oneTime strand.opener.other id).pair).toList

end Strand

namespace Correspondence

variable (setting : Setting)

/-- The record that a person has of the other. -/
def record (state : Correspondence) (person : Person) : SessionRecord :=
  (state.store person).recordAt (setting.address person.other)

/-- The base key of the session in which a person sends. -/
def current (state : Correspondence) (person : Person) : Option PublicKey :=
  (state.record setting person).current.bind (·.initiatorBase)

/-- Changes the strand of a session. -/
def amend (state : Correspondence) (base : PublicKey) (change : Strand → Strand) :
    Correspondence :=
  { state with
    strands := state.strands.map fun strand => if strand.key = base then change strand else strand }

/-- Puts another store in the place of a person's. -/
def setStore (state : Correspondence) (person : Person) (store : MemoryStore) : Correspondence :=
  { state with store := Function.update state.store person store }

/-! ## What happens -/

/-- A person starts a session. -/
def start (state : Correspondence) (person : Person) (signedId : UInt32)
    (oneTimeId : Option UInt32) (signature : Bytes) (supply : Supply) : Correspondence :=
  let result := (Conversation.start setting.suite (setting.address person.other)
    (setting.bundle person.other signedId oneTimeId signature)).run
      { store := state.store person, supply }
  let pairs : Attempt (KeyPair × KeyPair) := do
    return (← setting.suite.generate, ← setting.suite.generate)
  { state.setStore person result.2.store with
    strands := state.strands ++
      match result.1, (pairs.run supply).1 with
      | .ok _, .ok (base, ratchet) => [.begun setting person signedId oneTimeId base ratchet]
      | _, _ => [] }

/-- A person sends a text in the current session, if there is one. -/
def send (state : Correspondence) (person : Person) (text : Bytes) : Correspondence :=
  let result := (Conversation.encrypt (setting.address person.other) text).run
    { store := state.store person, supply := .zeros 0 }
  let next := state.setStore person result.2.store
  match result.1, state.current setting person with
  | .ok message, some base =>
    next.amend base fun strand => strand.write ⟨strand.side person, text, message⟩
  | _, _ => next

/-- Hands a letter of a session to its receiver. -/
def hand (state : Correspondence) (strand : Strand) (number : Nat) (letter : Letter)
    (supply : Supply) : Correspondence :=
  let receiver := strand.person letter.sender.other
  let sender := setting.address receiver.other
  let result := (Conversation.deliver setting.suite sender letter.message).run
    { store := state.store receiver, supply }
  let next := state.setStore receiver result.2.store
  next.amend strand.key fun former =>
    match result.1 with
    | .ok _ =>
      (former.handOver number).take letter.sender.other letter.message.inner.ratchetKey
        ((state.record setting receiver).session? strand.key)
        ((next.record setting receiver).session? strand.key)
    | .error _ => former.handOver number

/-- Hands over the letter of a session with this number, if it was sent and not handed over
yet. -/
def deliver (state : Correspondence) (base : PublicKey) (number : Nat) (supply : Supply) :
    Correspondence :=
  match state.strands.find? (·.key = base) with
  | none => state
  | some strand =>
    match strand.letters[number]? with
    | none => state
    | some letter =>
      if number ∈ strand.delivered then state else state.hand setting strand number letter supply

/-- One thing happens. -/
def step (state : Correspondence) : Event → Correspondence
  | .publish person number =>
    state.setStore person ((state.store person).perform setting.suite
      (setting.keeping person number))
  | .withdraw person number =>
    state.setStore person ((state.store person).perform setting.suite number.removing)
  | .start person signedId oneTimeId signature supply =>
    state.start setting person signedId oneTimeId signature supply
  | .send person text => state.send setting person text
  | .deliver base number supply => state.deliver setting base number supply

/-- Any number of things happen, one after another. -/
def run (state : Correspondence) (events : List Event) : Correspondence :=
  events.foldl (step setting) state

/-! ## What is presupposed -/

/-- All pairs that sessions were made with. -/
def pairs (state : Correspondence) : List KeyPair :=
  [setting.identity .alice, setting.identity .bob] ++
    state.strands.flatMap fun strand => strand.offered setting ++ strand.generated

/-- No key was generated twice, none is a prekey that a session was started with, no sending
chain carries more than two thousand letters, and agreement commutes. -/
structure Regular (state : Correspondence) : Prop where
  distinct : ((state.strands.flatMap Strand.generated).map (·.publicKey)).Nodup
  apart : ∀ strand ∈ state.strands, ∀ other ∈ state.strands, ∀ pair ∈ other.generated,
    pair.publicKey ≠ (setting.signed strand.opener.other strand.signedId).pair.publicKey
  short : ∀ strand ∈ state.strands, ∀ ratchetKey,
    (strand.letters.filter (·.message.inner.ratchetKey = ratchetKey)).length ≤ 2000
  commutes : setting.suite.CommutesOn ((state.pairs setting).map (·.privateKey))

/-- The sessions that the two people hold of a strand. -/
def held (state : Correspondence) (strand : Strand) (side : Side) : Option Session :=
  (state.record setting (strand.person side)).session? strand.key

/-- The session has forgotten the chain of the letter. -/
def Late (strand : Strand) (letter : Letter) (session : Session) : Prop :=
  (⟨session, strand.heard letter.sender.other⟩ : Party).late letter.message.inner.ratchetKey = true

/-- The receiver has the session of the letter, and it has not forgotten the letter's chain;
or the receiver has no such session, but the prekeys that the letter names. -/
def Reaches (state : Correspondence) (strand : Strand) (letter : Letter) : Prop :=
  match state.held setting strand letter.sender.other with
  | some session => ¬ Late strand letter session
  | none => (state.store (strand.person letter.sender.other)).CanAnswer letter.message

/-- If the letter makes a session, there is room for it in the record of its receiver, so that no
other is forgotten. -/
def HasRoom (state : Correspondence) (strand : Strand) (letter : Letter) : Prop :=
  state.held setting strand letter.sender.other = none → state.Reaches setting strand letter →
    (state.record setting (strand.person letter.sender.other)).sessions.length ≤
      Limits.archivedSessions

/-- No session but the one it belongs to authenticates a letter when it is handed to its
receiver. The sessions of a record are tried in their order, those after this one only if
it has forgotten the chain of the letter. -/
def Unmistaken (state : Correspondence) (strand : Strand) (letter : Letter) : Prop :=
  ∀ earlier own later,
    (state.record setting (strand.person letter.sender.other)).sessions =
      earlier ++ own :: later → own.initiatorBase = some strand.key →
    (∀ session ∈ earlier, ¬ session.Authenticates setting.suite letter.message.inner) ∧
    (Late strand letter own →
      ∀ session ∈ later, ¬ session.Authenticates setting.suite letter.message.inner)

/-- The session that a letter belongs to does not authenticate it either once it has forgotten
the chain of the letter. To this session it is the first of a new chain then, and the keys of that
do not make its code unless by accident. -/
def RefusesLate (state : Correspondence) (strand : Strand) (letter : Letter) : Prop :=
  ∀ own ∈ (state.record setting (strand.person letter.sender.other)).sessions,
    own.initiatorBase = some strand.key → Late strand letter own →
    ¬ own.Authenticates setting.suite letter.message.inner

end Correspondence

/-- The event has what it takes: bundles are signed by their owner, supplies last, there is
room for new sessions, no letter is mistaken for one of another session, and its own session
refuses it when it is late. -/
def Event.Fair (setting : Setting) (state : Correspondence) : Event → Prop
  | .start person signedId _ signature supply =>
    setting.suite.verify (setting.identity person.other).publicKey
        (setting.signed person.other signedId).pair.publicKey.toBytes signature = true ∧
      supply.verification = .unlimited ∧ supply.Lasts 2 ∧
      (state.record setting person).sessions.length ≤ Limits.archivedSessions
  | .deliver base number supply =>
    supply.Lasts (Limits.archivedSessions + 1) ∧
      ∀ strand ∈ state.strands, strand.key = base → number ∉ strand.delivered →
        ∀ letter, strand.letters[number]? = some letter →
          state.Unmistaken setting strand letter ∧ state.RefusesLate setting strand letter ∧
            state.HasRoom setting strand letter
  | _ => True

/-- Whenever something happens, it is fair and all is regular. -/
def Correspondence.Along (setting : Setting) (state : Correspondence) : List Event → Prop
  | [] => True
  | event :: rest =>
    state.Regular setting ∧ event.Fair setting state ∧ (state.step setting event).Along setting rest

namespace Setting

variable (setting : Setting)

/-- The addresses are those of the identities, and all pairs are well formed. -/
structure Genuine : Prop where
  addressed : ∀ person, (setting.address person).identityKey = (setting.identity person).publicKey
  identity : ∀ person, (setting.identity person).publicKey =
    setting.suite.publicKey (setting.identity person).privateKey
  signed : ∀ person id, (setting.signed person id).pair.publicKey =
    setting.suite.publicKey (setting.signed person id).pair.privateKey
  oneTime : ∀ person id, (setting.oneTime person id).pair.publicKey =
    setting.suite.publicKey (setting.oneTime person id).pair.privateKey

/-- A store of a person who trusts the other, and whose prekeys are those of the setting. -/
structure Furnishes (person : Person) (store : MemoryStore) : Prop where
  identity : store.identity = setting.identity person
  trusts : store.trusts (setting.identity person.other).publicKey = true
  signed : ∀ id prekey, store.signedPrekeys.find? id = some prekey →
    prekey = setting.signed person id
  oneTime : ∀ id prekey, store.oneTimePrekeys.find? id = some prekey →
    prekey = setting.oneTime person id

/-- The stores of two people who have no sessions with each other yet. -/
structure Begins (store : Person → MemoryStore) : Prop where
  furnished : ∀ person, setting.Furnishes person (store person)
  empty : ∀ person, (store person).records.find? (setting.address person.other) = none

end Setting

end Ratchet
