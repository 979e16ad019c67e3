import Ratchet.Proofs.Correspondence.Arriving

/-!
# Two people who both start sessions

Whatever happens in a correspondence, its records hold the sessions of its strands
(`Correspondence.Sound.run`). So every letter that reaches its receiver arrives,
and the receiver goes on in the session of the letter
(`Correspondence.converges`).
-/

set_option autoImplicit false

namespace Ratchet

namespace Strand

variable (strand : Strand) (side : Side) (ratchetKey : PublicKey) (former latter : Option Session)

theorem key_take : (strand.take side ratchetKey former latter).key = strand.key := by
  simp only [take]
  split <;> rfl

theorem opener_take : (strand.take side ratchetKey former latter).opener = strand.opener := by
  simp only [take]
  split <;> rfl

/-- Who is on which side depends on the opener alone. -/
theorem side_congr {strand other : Strand} (opener : other.opener = strand.opener) :
    other.side = strand.side := by
  funext person
  rw [Strand.side, Strand.side, opener]

end Strand

/-- Two people who have no sessions with each other have nothing else to show. -/
theorem Setting.Begins.sound {setting : Setting} {store : Person → MemoryStore}
    (begins : setting.Begins store) : ({ store } : Correspondence).Sound setting := by
  have loads : ∀ person, (store person).loadRecord (setting.address person.other) = .ok none :=
    fun person => MemoryStore.loadRecord_of_find?_none (begins.empty person)
  have records : ∀ person,
      ({ store } : Correspondence).record setting person = SessionRecord.fresh := by
    intro person
    simp only [Correspondence.record, MemoryStore.recordAt]
    rw [loads]
    rfl
  refine ⟨begins.furnished, fun person => ⟨_, loads person⟩, fun person => ?_, fun person => ?_, ?_⟩
  · rw [records]
    exact SessionRecord.tidy_fresh
  · rw [records]
    exact fun _ member => absurd member List.not_mem_nil
  · exact fun _ member => absurd member List.not_mem_nil

namespace Correspondence

variable {setting : Setting} {state : Correspondence}

/-! ## Handing over -/

/-- What two people hold of a strand depends on its opener and its base key alone. -/
theorem held_congr {strand other : Strand} (opener : other.opener = strand.opener)
    (key : other.key = strand.key) :
    state.held setting other = state.held setting strand := by
  funext side
  simp only [held]
  rw [key]
  cases side <;> simp only [Strand.person] <;> rw [opener]

section

variable {strand : Strand} {dialogue : Dialogue} {letter : Letter} {supply : Supply}
  {next : Session} {latter : SessionRecord} {ending : Context MemoryStore}

/-- A letter that arrives is taken in its strand. -/
theorem Arrives.hand_eq
    (arrives : Arrives setting state strand dialogue letter supply next latter ending)
    (number : Nat) :
    state.hand setting strand number letter supply =
      (state.setStore (strand.person letter.sender.other) ending.store).amend strand.key
        fun other => (other.handOver number).take letter.sender.other
          letter.message.inner.ratchetKey (state.held setting strand letter.sender.other)
            (some next) := by
  have found : latter.session? strand.key = some next := by
    rw [SessionRecord.session?_eq_some_iff arrives.tidy.named]
    exact ⟨SessionRecord.mem_of_current arrives.current, arrives.named⟩
  simp only [hand]
  rw [arrives.ran]
  dsimp only
  rw [record_setStore_self _ arrives.loaded, found]
  rfl

/-- A letter that is refused is lost on its receiver. -/
theorem hand_eq_of_refused (number : Nat) {failure : SessionError}
    (refused : (Conversation.deliver setting.suite
      (setting.address (strand.person letter.sender.other).other) letter.message).run
        { store := state.store (strand.person letter.sender.other), supply } =
      (.error failure, ending)) :
    state.hand setting strand number letter supply =
      state.amend strand.key fun other => other.handOver number := by
  have unchanged := (Conversation.atomic_deliver _ _ _).store_eq _ _ _ refused
  have same : state.setStore (strand.person letter.sender.other) ending.store = state := by
    rw [unchanged, setStore, Function.update_eq_self]
  simp only [hand]
  rw [refused]
  dsimp only
  rw [same]

/-- The strand of a letter that arrives is what its dialogue has become. -/
theorem Sound.hand_of_arrives (sound : state.Sound setting) (regular : state.Regular setting)
    (member : strand ∈ state.strands)
    (lives : strand.Lives setting (state.held setting strand) dialogue) {number : Nat}
    (found : strand.letters[number]? = some letter) (undelivered : number ∉ strand.delivered)
    (arrives : Arrives setting state strand dialogue letter supply next latter ending)
    (latterRegular : (state.hand setting strand number letter supply).Regular setting) :
    (state.hand setting strand number letter supply).Sound setting := by
  rw [arrives.hand_eq] at latterRegular ⊢
  have kept : ∀ other : Strand, ((other.handOver number).take letter.sender.other
      letter.message.inner.ratchetKey (state.held setting strand letter.sender.other)
        (some next)).key = other.key := fun other => Strand.key_take _ _ _ _ _
  refine sound.amend kept arrives.furnished arrives.loaded arrives.tidy arrives.installs
    arrives.named ⟨strand, member, rfl⟩ ?_
  intro other listed same
  obtain rfl := regular.eq_of_key_eq listed member same
  obtain ⟨used, later, lasts, ran⟩ := arrives.decrypted
  have opener : ((other.handOver number).take letter.sender.other letter.message.inner.ratchetKey
      (state.held setting other letter.sender.other) (some next)).opener = other.opener :=
    Strand.opener_take _ _ _ _ _
  rw [held_congr opener (kept other), Strand.side_congr opener, other.side_person]
  refine ⟨_, lives.take found undelivered arrives.inTime lasts ran latterRegular ?_⟩
  exact List.mem_map.mpr ⟨other, listed, if_pos rfl⟩

end

/-- **Handing over keeps the invariant.** -/
theorem Sound.deliver (sound : state.Sound setting) (genuine : setting.Genuine)
    (regular : state.Regular setting) {base : PublicKey} {number : Nat} {supply : Supply}
    (fair : (Event.deliver base number supply).Fair setting state)
    (latterRegular : (state.deliver setting base number supply).Regular setting) :
    (state.deliver setting base number supply).Sound setting := by
  obtain ⟨lasts, clears⟩ := fair
  simp only [Correspondence.deliver] at latterRegular ⊢
  cases there : state.strands.find? (·.key = base) with
  | none => exact sound
  | some strand =>
      have member := List.mem_of_find?_eq_some there
      have answers := List.find?_some there
      have named : strand.key = base := of_decide_eq_true answers
      rw [there] at latterRegular
      dsimp only at latterRegular ⊢
      cases found : strand.letters[number]? with
      | none => exact sound
      | some letter =>
          rw [found] at latterRegular
          dsimp only at latterRegular ⊢
          by_cases undelivered : number ∈ strand.delivered
          · rw [if_pos undelivered]
            exact sound
          · rw [if_neg undelivered] at latterRegular ⊢
            obtain ⟨clear, refusesLate, room⟩ :=
              clears strand member named undelivered letter found
            obtain ⟨dialogue, lives⟩ := sound.lives strand member
            by_cases reaches : state.Reaches setting strand letter
            · obtain ⟨next, latter, ending, arrives⟩ := sound.arrives regular genuine member lives
                found undelivered reaches clear room lasts
              exact sound.hand_of_arrives regular member lives found undelivered arrives
                latterRegular
            · obtain ⟨failure, ending, refused⟩ :=
                sound.refuses member found reaches clear refusesLate supply
              rw [hand_eq_of_refused number refused]
              refine sound.amend_strand (fun _ => rfl) fun other listed same => ?_
              obtain rfl := regular.eq_of_key_eq listed member same
              exact ⟨dialogue, lives.miss number⟩

/-! ## Runs -/

/-- **Whatever happens keeps the invariant.** -/
theorem Sound.step (sound : state.Sound setting) (genuine : setting.Genuine)
    (regular : state.Regular setting) {event : Event} (fair : event.Fair setting state)
    (latterRegular : (state.step setting event).Regular setting) :
    (state.step setting event).Sound setting := by
  cases event with
  | publish person number => exact sound.publish person number
  | withdraw person number => exact sound.withdraw person number
  | start person signedId oneTimeId signature supply =>
      exact sound.start genuine fair latterRegular
  | send person text => exact sound.send regular person text
  | deliver base number supply => exact sound.deliver genuine regular fair latterRegular

/-- The invariant holds whenever something happens. -/
theorem Sound.run (genuine : setting.Genuine) {events : List Event} {last : Event}
    (sound : state.Sound setting) (along : state.Along setting (events ++ [last])) :
    (state.run setting events).Sound setting ∧ (state.run setting events).Along setting [last] := by
  induction events generalizing state with
  | nil => exact ⟨sound, along⟩
  | cons event events ih =>
      obtain ⟨regular, fair, further⟩ := along
      have latterRegular : (state.step setting event).Regular setting := by
        cases events with
        | nil => exact further.1
        | cons next events => exact further.1
      exact ih (sound.step genuine regular fair latterRegular) further

/-- A strand is found by its base key. -/
theorem Regular.find?_eq (regular : state.Regular setting) {strand : Strand}
    (member : strand ∈ state.strands) :
    state.strands.find? (·.key = strand.key) = some strand :=
  find?_eq_some_of_unique member (decide_eq_true rfl) fun _ listed answers =>
    regular.eq_of_key_eq listed member (of_decide_eq_true answers)

/-- **Two people who both start sessions still understand each other, and converge.** In
whatever order they start sessions, send letters and receive them, a letter that reaches its
receiver arrives with its text. The receiver goes on in the session of the letter, and keeps
every other session as it was. If the sender has gone on in that session too, both
are in the same session then. -/
theorem converges (genuine : setting.Genuine) {store : Person → MemoryStore}
    (begins : setting.Begins store) {events : List Event} {base : PublicKey} {number : Nat}
    {supply : Supply}
    (along : ({ store } : Correspondence).Along setting (events ++ [.deliver base number supply]))
    (runs : ({ store } : Correspondence).run setting events = state) {strand : Strand}
    (member : strand ∈ state.strands) (named : strand.key = base) {letter : Letter}
    (found : strand.letters[number]? = some letter) (undelivered : number ∉ strand.delivered)
    (reaches : state.Reaches setting strand letter) :
    let sender := strand.person letter.sender
    let receiver := strand.person letter.sender.other
    let after := state.step setting (.deliver base number supply)
    (∃ ending, (Conversation.deliver setting.suite (setting.address sender) letter.message).run
        { store := state.store receiver, supply } = (.ok letter.text, ending) ∧
        after.store receiver = ending.store ∧ after.store sender = state.store sender) ∧
      after.current setting receiver = some base ∧
      (∀ session ∈ (state.record setting receiver).sessions, session.initiatorBase ≠ some base →
        session ∈ (after.record setting receiver).sessions) ∧
      (state.current setting sender = some base →
        after.current setting sender = after.current setting receiver) := by
  intro sender receiver after
  obtain ⟨sound, further⟩ := begins.sound.run genuine along
  rw [runs] at sound further
  obtain ⟨regular, ⟨lasts, clears⟩, _⟩ := further
  obtain ⟨dialogue, lives⟩ := sound.lives strand member
  obtain ⟨unmistaken, _, room⟩ := clears strand member named undelivered letter found
  obtain ⟨next, latter, ending, arrives⟩ := sound.arrives regular genuine member lives found
    undelivered reaches unmistaken room lasts
  have handed : after = state.hand setting strand number letter supply := by
    have there := named ▸ regular.find?_eq member
    simp only [after, step, deliver]
    rw [there]
    dsimp only
    rw [found]
    exact if_neg undelivered
  have taken := handed.trans (arrives.hand_eq number)
  have other : receiver.other = sender := by
    rw [← strand.person_other, letter.sender.other_other]
  have stores : after.store = Function.update state.store receiver ending.store := by
    rw [taken]
    rfl
  have own : after.record setting receiver = latter := by
    rw [taken]
    exact record_setStore_self receiver arrives.loaded
  have current : after.current setting receiver = some base := by
    rw [Correspondence.current, own, arrives.current, ← named]
    exact arrives.named
  have untouched : after.store sender = state.store sender := by
    rw [stores, Function.update_of_ne (other ▸ receiver.other_ne)]
  refine ⟨⟨ending, other ▸ arrives.ran, ?_, untouched⟩, current, ?_, ?_⟩
  · rw [stores, Function.update_self]
  · intro session there different
    rw [own, arrives.installs session, arrives.named, named]
    exact .inr ⟨there, different⟩
  · intro same
    rw [current, ← same, Correspondence.current, Correspondence.current, Correspondence.record,
      Correspondence.record, untouched]

/-! ## Letters that cross -/

section

open Dialogue

/-- Each person uses one pair for everything. -/
def samplePerson : Person → KeyPair
  | .alice => samplePair 0
  | .bob => samplePair 3

def sampleSetting : Setting where
  suite := .classic
  identity := samplePerson
  address person := ⟨⟨(samplePerson person).publicKey⟩, default⟩
  signed person id := ⟨id, 0, samplePerson person, []⟩
  oneTime person id := ⟨id, samplePerson person⟩

def sampleStores (person : Person) : MemoryStore :=
  { MemoryStore.ofIdentity (samplePerson person) with
    signedPrekeys := Table.empty.insert 1 (sampleSetting.signed person 1) }

def sampleSignature (person : Person) : Bytes :=
  (Suite.classic.sign (samplePerson person).privateKey (samplePerson person).publicKey.toBytes
    default).toList

/-- Each byte makes a pair. -/
def sampleStock (bytes : List UInt8) : Supply where
  entropy := .stock (bytes.flatMap (List.replicate 32))

def startOfAlice : Event := .start .alice 1 none (sampleSignature .bob) (sampleStock [1, 2])

def startOfBob : Event := .start .bob 1 none (sampleSignature .alice) (sampleStock [4, 5])

/-- Both start a session and send a letter in it. -/
def sampleEvents : List Event := [startOfAlice, startOfBob, .send .alice [1], .send .bob [2]]

/-- The letter of Alice is handed over. -/
def sampleLast : Event := .deliver (samplePair 1).publicKey 0 (sampleStock (List.replicate 41 6))

theorem genuine_sample : sampleSetting.Genuine where
  addressed _ := rfl
  identity person := by cases person <;> rfl
  signed person _ := by cases person <;> rfl
  oneTime person _ := by cases person <;> rfl

theorem begins_sample : sampleSetting.Begins sampleStores where
  furnished person := {
    identity := rfl
    trusts := rfl
    signed := by
      intro id prekey found
      rw [sampleStores, Table.find?_insert] at found
      split at found
      · rename_i same
        cases found
        rw [same]
      · cases found
    oneTime := fun id prekey found => nomatch found }
  empty _ := rfl

/-- The pairs that the two bring, and those that are made in the sample. -/
def sampleOwn : List KeyPair := [samplePair 0, samplePair 3]

def sampleMade : List KeyPair := [1, 2, 4, 5].map samplePair

theorem commutes_sample :
    Suite.classic.CommutesOn ((sampleOwn ++ sampleMade).map (·.privateKey)) :=
  Suite.commutes_classic.commutesOn _

theorem distinct_sample : ((sampleOwn ++ sampleMade).map (·.publicKey)).Nodup := by
  decide +kernel

/-- The pairs of the sample make regular sessions. -/
theorem regular_of_sublist {state : Correspondence}
    (made : (state.strands.flatMap Strand.generated).Sublist sampleMade)
    (few : ∀ strand ∈ state.strands, strand.letters.length ≤ 2000) :
    state.Regular sampleSetting := by
  have person : ∀ person, samplePerson person ∈ sampleOwn := by
    intro person
    cases person <;> simp [samplePerson, sampleOwn]
  have generated : ∀ strand ∈ state.strands, strand.generated ⊆ sampleMade :=
    fun strand member pair listed =>
      made.subset (List.mem_flatMap.mpr ⟨strand, member, listed⟩)
  have distinct := distinct_sample
  rw [List.map_append] at distinct
  obtain ⟨_, distinctMade, apart⟩ := List.nodup_append'.mp distinct
  refine ⟨distinctMade.sublist (made.map _), ?_, ?_, ?_⟩
  · intro strand _ other member pair listed same
    refine apart (List.mem_map_of_mem (person strand.opener.other)) ?_
    rw [show (samplePerson strand.opener.other).publicKey = pair.publicKey from same.symm]
    exact List.mem_map_of_mem (generated other member listed)
  · intro strand member ratchetKey
    exact (List.length_filter_le _ _).trans (few strand member)
  · refine commutes_sample.mono (List.map_subset _ fun pair listed => ?_)
    rw [List.mem_append]
    rcases List.mem_append.mp listed with identity | own
    · refine .inl ?_
      simp only [List.mem_cons, List.not_mem_nil, or_false] at identity
      rcases identity with rfl | rfl
      · exact person .alice
      · exact person .bob
    · obtain ⟨strand, member, listed⟩ := List.mem_flatMap.mp own
      rcases List.mem_append.mp listed with offered | made
      · refine .inl ?_
        rcases List.mem_cons.mp offered with rfl | oneTime
        · exact person _
        · obtain ⟨id, _, rfl⟩ := Option.map_eq_some_iff.mp (Option.mem_toList.mp oneTime)
          exact person _
      · exact .inr (generated strand member made)

/-! How it stands at first, when one or both have started, and when one or both have sent. -/

def sampleStart : Correspondence := { store := sampleStores }

def sampleOne : Correspondence :=
  sampleStart.started sampleSetting .alice 1 none (samplePair 1) (samplePair 2)

def sampleBoth : Correspondence :=
  sampleOne.started sampleSetting .bob 1 none (samplePair 4) (samplePair 5)

def sampleSent : Correspondence := sampleBoth.send sampleSetting .alice [1]

def sampleCrossing : Correspondence := sampleSent.send sampleSetting .bob [2]

/-- What the sample's events lead to. -/
theorem stands_sample :
    (∀ state ∈ [sampleStart, sampleOne, sampleBoth, sampleSent, sampleCrossing],
      (state.strands.flatMap Strand.generated).Sublist sampleMade ∧
        (∀ strand ∈ state.strands, strand.letters.length ≤ 2000) ∧
        ∀ person ∈ [Person.alice, .bob],
          (state.record sampleSetting person).sessions.length ≤ Limits.archivedSessions) ∧
      (∀ session ∈ (sampleCrossing.record sampleSetting .bob).sessions,
        session.initiatorBase ≠ some (samplePair 1).publicKey) ∧
      (∃ strand ∈ sampleCrossing.strands,
        strand.key = (samplePair 1).publicKey ∧ strand.opener = .alice ∧
        (sampleCrossing.store .bob).signedPrekeys.contains strand.signedId ∧
        strand.oneTimeId = none ∧ 0 ∉ strand.delivered ∧
        ∃ letter ∈ strand.letters[0]?, letter.sender = .initiator ∧ letter.text = [1]) ∧
      sampleCrossing.current sampleSetting .alice = some (samplePair 1).publicKey ∧
      sampleCrossing.current sampleSetting .bob = some (samplePair 4).publicKey := by
  decide +kernel

theorem verify_sample : Suite.classic.verify (samplePair 0).publicKey
    (samplePair 0).publicKey.toBytes (sampleSignature .alice) = true := by
  decide +kernel

theorem lasts_stock (first second : UInt8) : (sampleStock [first, second]).Lasts 2 :=
  ⟨rfl, rfl, Entropy.lasts_stock (by simp)⟩

section

variable {state : Correspondence}
  (among : state ∈ [sampleStart, sampleOne, sampleBoth, sampleSent, sampleCrossing])
include among

theorem regular_sample : state.Regular sampleSetting := by
  obtain ⟨made, few, _⟩ := stands_sample.1 state among
  exact regular_of_sublist made few

theorem room_sample (person : Person) :
    (state.record sampleSetting person).sessions.length ≤ Limits.archivedSessions := by
  refine (stands_sample.1 state among).2.2 person ?_
  cases person <;> decide

end

theorem fair_alice : startOfAlice.Fair sampleSetting sampleStart :=
  ⟨Conversation.sampleOffer.genuine, rfl, lasts_stock 1 2, room_sample (by simp) .alice⟩

theorem step_alice : sampleStart.step sampleSetting startOfAlice = sampleOne := by
  have first : Suite.classic.generate.run (sampleStock [1, 2]) =
      (.ok (samplePair 1), sampleStock [2]) := rfl
  have second : Suite.classic.generate.run (sampleStock [2]) =
      (.ok (samplePair 2), sampleStock []) := rfl
  exact begins_sample.sound.start_eq genuine_sample fair_alice first second

theorem fair_bob : startOfBob.Fair sampleSetting sampleOne :=
  ⟨verify_sample, rfl, lasts_stock 4 5, room_sample (by simp) .bob⟩

theorem step_bob : sampleOne.step sampleSetting startOfBob = sampleBoth := by
  have first : Suite.classic.generate.run (sampleStock [4, 5]) =
      (.ok (samplePair 4), sampleStock [5]) := rfl
  have second : Suite.classic.generate.run (sampleStock [5]) =
      (.ok (samplePair 5), sampleStock []) := rfl
  have regular : (sampleStart.step sampleSetting startOfAlice).Regular sampleSetting := by
    rw [step_alice]
    exact regular_sample (by simp)
  have sound := begins_sample.sound.start genuine_sample fair_alice regular
  change (sampleStart.step sampleSetting startOfAlice).Sound sampleSetting at sound
  rw [step_alice] at sound
  exact sound.start_eq genuine_sample fair_bob first second

theorem run_sample : sampleStart.run sampleSetting sampleEvents = sampleCrossing := by
  have sends : ∀ state person text, step sampleSetting state (.send person text) =
      state.send sampleSetting person text := fun _ _ _ => rfl
  rw [run, sampleEvents, List.foldl_cons, step_alice, List.foldl_cons, step_bob, List.foldl_cons,
    sends, List.foldl_cons, sends, List.foldl_nil, sampleCrossing, sampleSent]

/-- When both have sent, the last event is fair. -/
theorem fair_last : sampleLast.Fair sampleSetting sampleCrossing := by
  obtain ⟨_, unknown, ⟨_, member, named, opener, _, _, _, _, there, initiates, _⟩, _⟩ :=
    stands_sample
  refine ⟨⟨rfl, rfl, Entropy.lasts_stock (by decide +kernel)⟩, ?_⟩
  intro strand listed same _ letter found
  obtain rfl := (regular_sample (by simp)).eq_of_key_eq listed member (same.trans named.symm)
  obtain rfl := Option.some.inj (found.symm.trans there)
  have receiver : strand.person letter.sender.other = .bob := by
    rw [initiates]
    show strand.opener.other = .bob
    rw [opener]
    rfl
  -- the receiver has no session of the letter yet
  have nobody : ∀ own ∈ (sampleCrossing.record sampleSetting
      (strand.person letter.sender.other)).sessions, own.initiatorBase ≠ some strand.key := by
    rw [receiver, named]
    exact unknown
  refine ⟨fun earlier own later split itself => ?_,
    fun own listed itself => absurd itself (nobody own listed), fun _ _ => ?_⟩
  · refine absurd itself (nobody own ?_)
    rw [split]
    exact List.mem_append_right _ List.mem_cons_self
  · rw [receiver]
    exact room_sample (by simp) .bob

theorem along_sample : sampleStart.Along sampleSetting (sampleEvents ++ [sampleLast]) := by
  have last : sampleCrossing.Along sampleSetting [sampleLast] :=
    ⟨regular_sample (by simp), fair_last, trivial⟩
  have second : sampleSent.Along sampleSetting [.send .bob [2], sampleLast] :=
    ⟨regular_sample (by simp), trivial, last⟩
  have first : sampleBoth.Along sampleSetting [.send .alice [1], .send .bob [2], sampleLast] :=
    ⟨regular_sample (by simp), trivial, second⟩
  refine ⟨regular_sample (by simp), fair_alice, ?_⟩
  rw [step_alice]
  refine ⟨regular_sample (by simp), fair_bob, ?_⟩
  rw [step_bob]
  exact first

/-- Both have started a session, and each goes on in their own. When a letter has arrived, both
are in the session of its sender. -/
theorem crossing_letters_converge :
    sampleStart.run sampleSetting sampleEvents = sampleCrossing ∧
      sampleCrossing.current sampleSetting .alice = some (samplePair 1).publicKey ∧
      sampleCrossing.current sampleSetting .bob = some (samplePair 4).publicKey ∧
      (∃ message ending, (Conversation.deliver .classic (sampleSetting.address .alice) message).run
        { store := sampleCrossing.store .bob, supply := sampleStock (List.replicate 41 6) } =
          (.ok [1], ending) ∧
        (sampleCrossing.step sampleSetting sampleLast).store .bob = ending.store) ∧
      ∀ person, (sampleCrossing.step sampleSetting sampleLast).current sampleSetting person =
        some (samplePair 1).publicKey := by
  obtain ⟨_, unknown, ⟨strand, member, named, opener, signed, oneTime, undelivered, letter, found,
    initiates, text⟩, alices, bobs⟩ := stands_sample
  have runs := run_sample
  have along := along_sample
  obtain ⟨sound, _⟩ := begins_sample.sound.run genuine_sample along
  rw [← sampleStart, runs] at sound
  refine ⟨runs, ?_⟩
  generalize sampleCrossing = before at *
  have sender : strand.person letter.sender = .alice := by
    rw [initiates]
    exact opener
  have receiver : strand.person letter.sender.other = .bob := by
    rw [strand.person_other, sender]
    rfl
  have nobody : before.held sampleSetting strand letter.sender.other = none := by
    rw [held, receiver, SessionRecord.session?, List.find?_eq_none]
    intro session listed same
    exact unknown session listed ((of_decide_eq_true same).trans (congrArg some named))
  have reaches := sound.reaches_of_kept member (List.mem_of_getElem? found) nobody
    (receiver ▸ signed) (by simp [oneTime])
  obtain ⟨⟨ending, ran, stores, _⟩, current, _, same⟩ := converges genuine_sample begins_sample
    along runs member named found undelivered reaches
  rw [sender, receiver] at *
  refine ⟨alices, bobs, ⟨letter.message, ending, text ▸ ran, stores⟩, fun person => ?_⟩
  cases person with
  | alice => exact (same alices).trans current
  | bob => exact current

end

end Correspondence

end Ratchet
