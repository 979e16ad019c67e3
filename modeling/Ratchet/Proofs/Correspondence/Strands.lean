import Ratchet.Proofs.Correspondence.Invariant

/-!
# What happens to a strand

A strand begins as a dialogue of the initiator's session with the session that
the responder will make (`Strand.lives_begun`). From then on a letter that is
written is a letter that is sent in the dialogue (`Strand.Lives.write`), and one
that its receiver decrypts is one that is handed over in it
(`Strand.Lives.take`). In both, one side goes on to another session, and its party
in the dialogue with it (`Strand.Lives.goOn`). A letter that is lost on its receiver
is lost on the dialogue as well (`Strand.Lives.miss`).
-/

set_option autoImplicit false

namespace Ratchet

namespace Strand

variable {setting : Setting} {strand : Strand}

/-- All pairs that are brought to the session are those of the correspondence. -/
theorem pairs_subset {state : Correspondence} (member : strand ∈ state.strands) :
    (strand.initiatorTerms setting).pairs ++ (strand.responderTerms setting).pairs ++
      strand.ratchets ⊆ state.pairs setting := by
  intro pair listed
  have identity : ∀ person, setting.identity person ∈ state.pairs setting := by
    intro person
    refine List.mem_append_left _ ?_
    cases person
    · exact List.mem_cons_self
    · exact List.mem_cons_of_mem _ List.mem_cons_self
  have own : ∀ pair ∈ strand.offered setting ++ strand.generated, pair ∈ state.pairs setting :=
    fun pair listed => List.mem_append_right _ (List.mem_flatMap.mpr ⟨strand, member, listed⟩)
  simp only [InitiatorTerms.pairs, ResponderTerms.pairs, initiatorTerms, responderTerms,
    Conversation.bundleTerms, List.cons_append, List.nil_append, List.mem_cons, List.mem_append]
    at listed
  rcases listed with rfl | rfl | rfl | rfl | rfl | oneTime | ratchet
  · exact identity _
  · exact own _ (List.mem_append_right _ List.mem_cons_self)
  · exact identity _
  · exact own _ (List.mem_append_left _ List.mem_cons_self)
  · exact own _ (List.mem_append_left _ List.mem_cons_self)
  · exact own _ (List.mem_append_left _ (List.mem_cons_of_mem _ oneTime))
  · exact own _ (List.mem_append_right _ (List.mem_cons_of_mem _ ratchet))

theorem ratchets_subset {state : Correspondence} (member : strand ∈ state.strands) :
    strand.signedPair setting :: strand.ratchets ⊆ state.pairs setting := by
  refine List.Subset.trans ?_ (pairs_subset member)
  refine List.cons_subset.mpr ⟨List.mem_append_left _ (List.mem_append_right _ ?_),
    List.subset_append_right _ _⟩
  simp [ResponderTerms.pairs, responderTerms]

/-- Both sides know the same. -/
theorem terms_match (strand : Strand) (genuine : setting.Genuine)
    (paired : strand.base.publicKey = setting.suite.publicKey strand.base.privateKey) :
    TermsMatch setting.suite (strand.initiatorTerms setting) (strand.responderTerms setting) where
  wellFormed := by
    intro pair listed
    simp only [InitiatorTerms.pairs, ResponderTerms.pairs, initiatorTerms, responderTerms,
      Conversation.bundleTerms, List.cons_append, List.nil_append, List.mem_cons] at listed
    rcases listed with rfl | rfl | rfl | rfl | rfl | oneTime
    · exact genuine.identity _
    · exact paired
    · exact genuine.identity _
    · exact genuine.signed _ _
    · exact genuine.signed _ _
    · obtain ⟨id, _, rfl⟩ := Option.map_eq_some_iff.mp (Option.mem_toList.mp oneTime)
      exact genuine.oneTime _ _
  identity := rfl
  signedPrekey := rfl
  oneTimePrekey := rfl
  ratchet := rfl
  initiatorIdentity := rfl
  initiatorBase := rfl

theorem identities_eq : Ratchet.identities (strand.initiatorTerms setting)
    (strand.responderTerms setting) = strand.identities setting := by
  funext side
  cases side <;> rfl

/-- A message that carries the numbers of the prekeys asks for the session that the responder is
to have. -/
theorem terms_eq (strand : Strand) (genuine : setting.Genuine) {identity : KeyPair}
    {prekey : PrekeyMessage}
    (ours : identity = setting.identity (strand.person .responder))
    (signedId : prekey.signedId = strand.pending.signedId)
    (oneTimeId : prekey.oneTimeId = strand.pending.oneTimeId)
    (base : prekey.baseKey = strand.pending.baseKey) :
    Conversation.terms (setting.address (strand.person .responder).other) prekey identity
      (setting.signed (strand.person .responder) prekey.signedId)
      (prekey.oneTimeId.map (setting.oneTime (strand.person .responder))) =
      strand.responderTerms setting := by
  have theirs : (setting.address (strand.person .responder).other).identityKey =
      (setting.identity strand.opener).publicKey := by
    rw [genuine.addressed]
    exact congrArg (setting.identity · |>.publicKey) strand.opener.other_other
  simp only [Conversation.terms]
  rw [theirs, ours, signedId, oneTimeId, base, Option.map_map]
  rfl

/-- The initiator's session when the strand begins. -/
def opening (strand : Strand) (setting : Setting) (ratchet : KeyPair) : Session :=
  Conversation.opening setting.suite (strand.initiatorTerms setting) ratchet strand.oneTimeId
    strand.signedId

/-- **A session that has just been started is a dialogue that has just been started.** -/
theorem lives_begun (genuine : setting.Genuine) {opener : Person} {signedId : UInt32}
    {oneTimeId : Option UInt32} {base ratchet : KeyPair}
    (basePaired : base.publicKey = setting.suite.publicKey base.privateKey)
    (ratchetPaired : ratchet.publicKey = setting.suite.publicKey ratchet.privateKey)
    {state : Correspondence} (commutes : setting.suite.CommutesOn
      ((state.pairs setting).map (·.privateKey)))
    (member : begun setting opener signedId oneTimeId base ratchet ∈ state.strands)
    {held : Side → Option Session}
    (starts : held .initiator =
      some ((begun setting opener signedId oneTimeId base ratchet).opening setting ratchet))
    (waits : held .responder = none) :
    ∃ dialogue, (begun setting opener signedId oneTimeId base ratchet).Lives setting held
      dialogue := by
  set strand := begun setting opener signedId oneTimeId base ratchet
  have climbs := Dialogue.climbs_start (terms_match strand genuine basePaired)
    ratchetPaired (commutes.mono (List.map_subset _ (pairs_subset member))) (some strand.pending)
  rw [identities_eq] at climbs
  have only : ∀ side, ∀ session ∈ held side,
      side = .initiator ∧ session = strand.opening setting ratchet := by
    intro side session holds
    cases side with
    | initiator => exact ⟨rfl, (Option.some.inj (starts.symm.trans holds)).symm⟩
    | responder =>
        rw [waits] at holds
        cases holds
  refine ⟨_, {
    climbs := climbs, letters := rfl, ratchets := rfl, heard := ?_, reports := ?_, own := ?_,
    started := by rw [starts]; rfl, unanswered := fun _ => ⟨rfl, rfl⟩, pends := ?_, sends := ?_,
    carries := ?_ }⟩
  · intro side
    cases side <;> rfl
  · intro report none
    cases none
  · intro side session holds
    obtain ⟨rfl, rfl⟩ := only side session holds
    rfl
  · intro side session holds
    obtain ⟨rfl, rfl⟩ := only side session holds
    exact .inr ⟨rfl, rfl⟩
  · intro side session holds sending sends
    obtain ⟨rfl, rfl⟩ := only side session holds
    cases sends
    exact List.mem_singleton_self _
  · intro letter none
    cases none

namespace Lives

variable {held : Side → Option Session} {dialogue : Dialogue}
  (lives : strand.Lives setting held dialogue)

/-- Whoever has a session of the strand goes on having one. -/
theorem isSome_update {side other : Side} (there : (held side).isSome) (next : Session) :
    (Function.update held other (some next) side).isSome := by
  by_cases same : side = other
  · rw [same, Function.update_self]
    rfl
  · rw [Function.update_of_ne same]
    exact there

/-- Whoever holds a session after one was put in place held it before, or it is this one. -/
theorem mem_update {side other : Side} {next session : Session}
    (holds : session ∈ Function.update held side (some next) other) :
    other = side ∧ session = next ∨ other ≠ side ∧ session ∈ held other := by
  by_cases same : other = side
  · subst same
    rw [Function.update_self] at holds
    exact .inl ⟨rfl, (Option.some.inj holds).symm⟩
  · rw [Function.update_of_ne same] at holds
    exact .inr ⟨same, holds⟩

include lives

theorem getElem?_letters {number : Nat} {letter : Letter}
    (found : strand.letters[number]? = some letter) : dialogue.letters[number]? = some letter := by
  rw [lives.letters]
  exact found

/-- What has not been handed to its receiver has not been reported. -/
theorem not_mem_reports {number : Nat} (undelivered : number ∉ strand.delivered) :
    number ∉ dialogue.reports.map (·.number) := by
  intro listed
  obtain ⟨report, reported, rfl⟩ := List.mem_map.mp listed
  exact undelivered (lives.reports report reported).2

/-- **A side goes on to another session, and so does its party in the dialogue.** The strand may
grow, and of the other side nothing new is heard. -/
theorem goOn {side : Side} {next : Session} {later : Dialogue} {letters : List Letter}
    {delivered : List Nat} {heard : Side → List PublicKey} {ratchets : List KeyPair}
    (climbs : later.Climbs setting.suite (strand.identities setting))
    (party : later.party = Function.update dialogue.party side ⟨next, heard side⟩)
    (written : later.letters = letters)
    (made : later.ratchets = strand.signedPair setting :: ratchets)
    (reports : ∀ report ∈ later.reports, report.late = false ∧ report.number ∈ delivered)
    (others : ∀ other, other ≠ side → heard other = strand.heard other)
    (grown : strand.ratchets ⊆ ratchets)
    (pends : next.pendingPrekey = none ∧ (Function.update held side (some next) .responder).isSome ∨
      side = .initiator ∧ next.pendingPrekey = some strand.pending)
    (sends : ∀ sending ∈ next.sending, sending.ratchet ∈ ratchets)
    (carries : ∀ letter ∈ letters, letter ∈ strand.letters ∨ letter.Carries strand.pending ratchets
      (Function.update held side (some next) .responder).isSome) :
    ({ strand with letters, delivered, heard, ratchets } : Strand).Lives setting
      (Function.update held side (some next)) later := by
  have answered : (held .responder).isSome →
      (Function.update held side (some next) .responder).isSome := (isSome_update · next)
  refine {
    climbs := climbs
    letters := written
    ratchets := made
    heard := ?_
    reports := reports
    own := ?_
    started := isSome_update lives.started _
    unanswered := ?_
    pends := ?_
    sends := ?_
    carries := ?_ }
  · intro other
    rw [party]
    by_cases same : other = side
    · rw [same, Function.update_self]
    · rw [Function.update_of_ne same]
      exact (lives.heard other).trans (others other same).symm
  · intro other kept stays
    rw [party]
    rcases mem_update stays with ⟨rfl, rfl⟩ | ⟨different, before⟩
    · rw [Function.update_self]
    · rw [Function.update_of_ne different]
      exact lives.own other kept before
  · intro nobody
    have different : Side.responder ≠ side := by
      rintro rfl
      rw [Function.update_self] at nobody
      cases nobody
    show heard .responder = [] ∧ (later.party .responder).session = _
    rw [party]
    rw [Function.update_of_ne different] at nobody ⊢
    rw [others _ different]
    exact lives.unanswered nobody
  · intro other kept stays
    rcases mem_update stays with ⟨rfl, rfl⟩ | ⟨_, before⟩
    · exact pends
    · exact (lives.pends other kept before).imp_left (And.imp_right answered)
  · intro other kept stays chain has
    rcases mem_update stays with ⟨rfl, rfl⟩ | ⟨_, before⟩
    · exact sends chain has
    · exact grown (lives.sends other kept before chain has)
  · intro letter listed
    rcases carries letter listed with old | new
    · exact (lives.carries letter old).mono grown answered
    · exact new

/-- A letter that a side writes carries what it has to. -/
theorem carries_sealed {side : Side} {session : Session} {sending : SendingChain}
    (holds : held side = some session) (speaks : session.version = Limits.currentVersion)
    (sends : session.sending = some sending) (text : Bytes) :
    Letter.Carries ⟨side, text, session.wrap (session.sealed sending text)⟩ strand.pending
      strand.ratchets (held .responder).isSome where
  readable := Message.parse_wrap_sealed speaks sending text
  ratchet := by
    rw [Session.inner_wrap]
    exact List.mem_map_of_mem (lives.sends side session holds sending sends)
  wrapped := by
    rw [Session.wrap]
    rcases lives.pends side session holds with ⟨settled, there⟩ | ⟨rfl, pends⟩
    · rw [settled]
      exact .inl ⟨there, _, rfl⟩
    · rw [pends]
      exact .inr ⟨rfl, _, rfl, speaks, rfl, rfl, rfl⟩

/-- **A letter that is written is sent in the dialogue.** -/
theorem write (regular : dialogue.Regular) {side : Side} {session next : Session} {text : Bytes}
    {message : Message} (holds : held side = some session)
    (speaks : session.version = Limits.currentVersion)
    (encrypted : session.encrypt text = .ok (message, next)) :
    (strand.write ⟨side, text, message⟩).Lives setting (Function.update held side (some next))
      (dialogue.send side text) := by
  have sent : dialogue.send side text =
      { dialogue with
        party := Function.update dialogue.party side ⟨next, strand.heard side⟩
        letters := dialogue.letters ++ [⟨side, text, message⟩] } := by
    simp only [Dialogue.send]
    rw [← lives.own side session holds, encrypted, lives.heard]
  have climbs := lives.climbs.send regular side text
  have answered : (held .responder).isSome →
      (Function.update held side (some next) .responder).isSome := (isSome_update · next)
  obtain ⟨sending, position, sends, _, made, rfl⟩ := Session.encrypt_eq_ok encrypted
  rw [sent] at climbs ⊢
  refine lives.goOn climbs rfl (congrArg (· ++ _) lives.letters) lives.ratchets lives.reports
    (fun _ _ => rfl) (List.Subset.refl _) ?_ ?_ ?_
  · exact (lives.pends side session holds).imp_left (And.imp_right answered)
  · intro chain has
    cases has
    exact lives.sends side session holds sending sends
  · intro letter listed
    refine (List.mem_append.mp listed).imp_right fun new => ?_
    obtain rfl := List.mem_singleton.mp new
    rw [made]
    exact (lives.carries_sealed holds speaks sends text).mono (List.Subset.refl _) answered

/-- A letter that is lost on its receiver changes nothing. -/
theorem miss (number : Nat) :
    (strand.handOver number).Lives setting held dialogue :=
  { lives with
    reports := fun report listed =>
      (lives.reports report listed).imp_right (List.mem_append_left _) }

/-- Only the responder can be without a session, and then all letters to it carry the prekeys. -/
theorem asks {letter : Letter} (listed : letter ∈ strand.letters)
    (nobody : held letter.sender.other = none) :
    letter.sender = .initiator ∧ ∃ prekey, letter.message = .prekey prekey ∧
      prekey.version = Limits.currentVersion ∧ prekey.oneTimeId = strand.pending.oneTimeId ∧
      prekey.signedId = strand.pending.signedId ∧ prekey.baseKey = strand.pending.baseKey := by
  rcases (lives.carries letter listed).wrapped with ⟨answered, _⟩ | asks
  · have started := lives.started
    cases sends : letter.sender with
    | initiator =>
        rw [sends] at nobody
        rw [show Side.responder = Side.initiator.other from rfl, nobody] at answered
        cases answered
    | responder =>
        rw [sends] at nobody
        rw [show Side.initiator = Side.responder.other from rfl, nobody] at started
        cases started
  · exact asks

/-- The session that the responder's first message makes is that of the strand. -/
theorem answered (nobody : held .responder = none) {message : RatchetMessage} {text : Bytes}
    {next : Session} (received : Session.Received setting.suite
      (dialogue.party .responder).session message text next) :
    next.initiatorBase = some strand.key ∧
      next.Belongs (setting.identity (strand.person .responder)).publicKey
        (setting.identity strand.opener).publicKey ∧
      next.Compact := by
  obtain ⟨_, waits⟩ := lives.unanswered nobody
  rw [waits] at received
  exact ⟨received.initiatorBase_eq setting.suite,
    received.belongs setting.suite (Session.belongs_responded setting.suite _),
    received.compact setting.suite (Session.compact_responded setting.suite _)⟩

/-- Where a side has no session yet, the dialogue's party knows no chain. -/
theorem bind_receivingChain?_eq (side : Side) (ratchetKey : PublicKey) :
    (held side).bind (·.receivingChain? ratchetKey) =
      (dialogue.party side).session.receivingChain? ratchetKey := by
  cases holds : held side with
  | some session =>
      rw [← lives.own side session holds]
      rfl
  | none =>
      cases side with
      | initiator =>
          have started := lives.started
          rw [holds] at started
          cases started
      | responder =>
          rw [(lives.unanswered holds).2]
          rfl

/-- What is written down when a side takes a message is what its party makes of it. -/
theorem exists_take_eq {side : Side} {message : RatchetMessage} {text : Bytes} {next : Session}
    (received : Session.Received setting.suite (dialogue.party side).session message text next)
    (number : Nat) :
    ∃ heard made,
      (strand.handOver number).take side message.ratchetKey (held side) (some next) =
        { strand.handOver number with heard, ratchets := strand.ratchets ++ made } ∧
      (dialogue.party side).turnedTo message.ratchetKey (.ok (text, next)) = made ∧
      (dialogue.party side).received message.ratchetKey (.ok (text, next)) = ⟨next, heard side⟩ ∧
      (∀ other, other ≠ side → heard other = strand.heard other) ∧
      ∀ sending ∈ next.sending, sending.ratchet ∈ strand.ratchets ++ made := by
  have same := lives.bind_receivingChain?_eq side message.ratchetKey
  simp only [Strand.take, Party.turnedTo, Party.received]
  rw [same]
  cases known : (dialogue.party side).session.receivingChain? message.ratchetKey with
  | some chain =>
      refine ⟨strand.heard, [], ?_, rfl, ?_, fun _ _ => rfl, ?_⟩
      · rw [List.append_nil]
        rfl
      · dsimp only
        rw [lives.heard side]
      · intro sending sends
        rw [List.append_nil]
        cases received with
        | known found given opens =>
            obtain ⟨session, holds, _⟩ := Option.bind_eq_some_iff.mp (same.trans known)
            rw [Session.putReceiving_eq, ← lives.own side session holds] at sends
            exact lives.sends side session holds sending sends
        | new sends absent given opens =>
            rw [known] at absent
            cases absent
  | none =>
      refine ⟨_, _, rfl, rfl, ?_, fun other different => Function.update_of_ne different _ _, ?_⟩
      · dsimp only
        rw [Function.update_self, lives.heard side]
        rfl
      · intro sending sends
        refine List.mem_append_right _ (Option.mem_toList.mpr ?_)
        exact Option.mem_map_of_mem _ sends

/-- **A letter that its receiver decrypts is handed over in the dialogue.** -/
theorem take {number : Nat} {letter : Letter} (found : strand.letters[number]? = some letter)
    (undelivered : number ∉ strand.delivered)
    (inTime : (dialogue.party letter.sender.other).late letter.message.inner.ratchetKey = false)
    {used later : Supply} {next : Session} (lasts : used.Lasts 1)
    (ran : ((dialogue.party letter.sender.other).session.decrypt setting.suite
      letter.message.inner).run used = (.ok (letter.text, next), later))
    {state : Correspondence} (regular : state.Regular setting)
    (member : (strand.handOver number).take letter.sender.other letter.message.inner.ratchetKey
      (held letter.sender.other) (some next) ∈ state.strands) :
    ((strand.handOver number).take letter.sender.other letter.message.inner.ratchetKey
      (held letter.sender.other) (some next)).Lives setting
        (Function.update held letter.sender.other (some next))
        (dialogue.hand setting.suite number letter used) := by
  have received := Session.received_of_run_decrypt setting.suite ran
  obtain ⟨heard, made, taken, turns, becomes, others, sends⟩ :=
    lives.exists_take_eq received number
  have handed : dialogue.hand setting.suite number letter used =
      { party := Function.update dialogue.party letter.sender.other
          ⟨next, heard letter.sender.other⟩
        letters := dialogue.letters
        reports := dialogue.reports ++ [⟨number, false, .ok letter.text⟩]
        ratchets := dialogue.ratchets ++ made } := by
    simp only [Dialogue.hand]
    rw [ran, inTime, becomes, turns]
    rfl
  rw [taken] at member ⊢
  have ratchets : (dialogue.hand setting.suite number letter used).ratchets =
      strand.signedPair setting :: (strand.ratchets ++ made) := by
    rw [handed, ← List.cons_append, ← lives.ratchets]
  have reports : ∀ report ∈ (dialogue.hand setting.suite number letter used).reports,
      report.late = false ∧ report.number ∈ strand.delivered ++ [number] := by
    intro report listed
    rw [handed] at listed
    rcases List.mem_append.mp listed with old | new
    · exact (lives.reports report old).imp_right (List.mem_append_left _)
    · obtain rfl := List.mem_singleton.mp new
      exact ⟨rfl, List.mem_append_right _ (List.mem_singleton_self _)⟩
  have letters : (dialogue.hand setting.suite number letter used).letters = strand.letters :=
    lives.letters
  have refuses : (dialogue.hand setting.suite number letter used).RefusesLate :=
    .of_inTime fun report listed => (reports report listed).1
  have climbs := lives.climbs.hand (regular.dialogue member letters ratchets) refuses
    (lives.getElem?_letters found) (lives.not_mem_reports undelivered) lasts (by
      rw [ratchets]
      exact regular.commutes.mono (List.map_subset _ (ratchets_subset member)))
  refine lives.goOn climbs (congrArg Dialogue.party handed) letters ratchets reports others
    (List.subset_append_left _ _) (.inl ⟨?_, ?_⟩) sends fun _ => .inl
  · cases received with
    | known found given opens => rfl
    | new sends absent given opens => rfl
  · rcases (lives.carries letter (List.mem_of_getElem? found)).wrapped with
      ⟨there, _⟩ | ⟨initiates, _⟩
    · exact isSome_update there _
    · rw [initiates, Side.other, Function.update_self]
      rfl

end Lives

end Strand

end Ratchet
