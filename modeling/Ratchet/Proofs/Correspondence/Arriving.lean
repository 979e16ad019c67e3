import Ratchet.Proofs.Correspondence.Steps

/-!
# Letters that arrive

A letter that reaches its receiver arrives: its text comes out, and its session
is current then (`Correspondence.Sound.arrives`). If the receiver has the session,
the others decline the letter before it is tried
(`Correspondence.Sound.arrives_recorded`). If not, the letter asks for the session,
which is the one that its sender has been talking to
(`Correspondence.Sound.arrives_asking`). A letter that does not reach its receiver
is refused (`Correspondence.Sound.refuses`).
-/

set_option autoImplicit false

namespace Ratchet

/-- A store that makes the session a message asks for can answer it. -/
theorem Conversation.Asks.canAnswer {suite : Suite} {peer : Address} {store : MemoryStore}
    {message : PrekeyMessage} {session : Session}
    (asked : Conversation.Asks suite peer store message session) :
    store.CanAnswer (.prekey message) := by
  obtain ⟨_, signed, oneTime, _, hasSigned, hasOneTime, _⟩ := asked
  refine ⟨message, rfl, Option.isSome_of_mem (Except.ok.inj hasSigned), fun id named => ?_⟩
  rw [Option.mem_def] at named
  rw [named] at hasOneTime
  cases hasOneTime with
  | some found => exact Option.isSome_of_mem (Except.ok.inj found)

/-- Who has heard nothing has forgotten nothing. -/
theorem Party.late_of_heard_nil {party : Party} (nothing : party.heard = [])
    (ratchetKey : PublicKey) : party.late ratchetKey = false := by
  simp only [Party.late]
  rw [nothing]
  simp

namespace Correspondence

variable {setting : Setting} {state : Correspondence} {strand : Strand} {dialogue : Dialogue}
  {letter : Letter} {supply : Supply}

/-- What an arriving letter does: its text comes out, `next` is what its session is then, and
`latter` the record of the receiver. -/
structure Arrives (setting : Setting) (state : Correspondence) (strand : Strand)
    (dialogue : Dialogue) (letter : Letter) (supply : Supply) (next : Session)
    (latter : SessionRecord) (ending : Context MemoryStore) : Prop where
  ran : (Conversation.deliver setting.suite
    (setting.address (strand.person letter.sender.other).other) letter.message).run
      { store := state.store (strand.person letter.sender.other), supply } =
    (.ok letter.text, ending)
  inTime : (dialogue.party letter.sender.other).late letter.message.inner.ratchetKey = false
  decrypted : ∃ used later, used.Lasts 1 ∧
    ((dialogue.party letter.sender.other).session.decrypt setting.suite letter.message.inner).run
      used = (.ok (letter.text, next), later)
  furnished : setting.Furnishes (strand.person letter.sender.other) ending.store
  loaded : ending.store.loadRecord (setting.address (strand.person letter.sender.other).other) =
    .ok (some latter)
  tidy : latter.Tidy (setting.identity (strand.person letter.sender.other)).publicKey
    (setting.identity (strand.person letter.sender.other).other).publicKey
  current : latter.current = some next
  named : next.initiatorBase = some strand.key
  installs : (state.record setting (strand.person letter.sender.other)).Installs latter next

/-- A party of the dialogue decrypts the letter. -/
theorem Regular.run_decrypt_party (regular : state.Regular setting)
    (member : strand ∈ state.strands)
    (lives : strand.Lives setting (state.held setting strand) dialogue) {number : Nat}
    (found : strand.letters[number]? = some letter) (undelivered : number ∉ strand.delivered)
    (inTime : (dialogue.party letter.sender.other).late letter.message.inner.ratchetKey = false)
    {used : Supply} (lasts : used.Lasts 1) :
    ∃ next later, ((dialogue.party letter.sender.other).session.decrypt setting.suite
      letter.message.inner).run used = (.ok (letter.text, next), later) := by
  exact lives.climbs.run_decrypt (regular.dialogue_of_lives member lives)
    (lives.getElem?_letters found) (lives.not_mem_reports undelivered) inTime lasts

namespace Sound

/-- A letter reaches someone who does not have its session yet, but still the prekeys that it
was started with. -/
theorem reaches_of_kept (sound : state.Sound setting) (member : strand ∈ state.strands)
    (listed : letter ∈ strand.letters)
    (nobody : state.held setting strand letter.sender.other = none)
    (signed : (state.store (strand.person letter.sender.other)).signedPrekeys.contains
      strand.signedId)
    (oneTime : ∀ id ∈ strand.oneTimeId,
      (state.store (strand.person letter.sender.other)).oneTimePrekeys.contains id) :
    state.Reaches setting strand letter := by
  obtain ⟨_, lives⟩ := sound.lives strand member
  obtain ⟨_, prekey, wraps, _, oneTimeId, signedId, _⟩ := lives.asks listed nobody
  simp only [Reaches]
  rw [nobody]
  exact ⟨prekey, wraps, signedId ▸ signed, oneTimeId ▸ oneTime⟩

/-- Whoever has a session has stored a record. -/
theorem loadRecord_eq (sound : state.Sound setting) {person : Person} {session : Session}
    (listed : session ∈ (state.record setting person).sessions) :
    (state.store person).loadRecord (setting.address person.other) =
      .ok (some (state.record setting person)) := by
  obtain ⟨stored, loads, recorded⟩ := sound.exists_stored person
  cases stored with
  | some record =>
      rw [loads, recorded]
      rfl
  | none =>
      rw [recorded] at listed
      exact absurd listed List.not_mem_nil

/-- A letter does not ask for a session that its receiver has. -/
theorem known (sound : state.Sound setting) (member : strand ∈ state.strands) {number : Nat}
    (found : strand.letters[number]? = some letter) {session : Session}
    (holds : state.held setting strand letter.sender.other = some session) :
    ∀ prekey, letter.message = .prekey prekey →
      (state.record setting (strand.person letter.sender.other)).hasSession prekey.version
        prekey.baseKey = true := by
  intro prekey wraps
  obtain ⟨_, lives⟩ := sound.lives strand member
  obtain ⟨listed, named⟩ := sound.held_eq_some_iff.mp holds
  rcases (lives.carries letter (List.mem_of_getElem? found)).wrapped with
    ⟨_, inner, plain⟩ | ⟨_, _, same, version, _, _, base⟩
  · rw [plain] at wraps
    cases wraps
  · obtain rfl := Message.prekey.inj (wraps.symm.trans same)
    rw [version]
    exact (sound.tidy _).hasSession_iff.mpr
      ⟨session, listed, named.trans (congrArg some base.symm)⟩

/-- Whoever has no session of a strand has none of its base key. -/
theorem unknown (sound : state.Sound setting) {side : Side}
    (nobody : state.held setting strand side = none) {version : UInt8} {key : PublicKey}
    (speaks : version = Limits.currentVersion) (base : key = strand.pending.baseKey) :
    (state.record setting (strand.person side)).hasSession version key = false := by
  rw [speaks, Bool.eq_false_iff, Ne, (sound.tidy _).hasSession_iff, base]
  rintro ⟨other, listed, same⟩
  exact sound.ne_of_held nobody other listed same

/-- The sessions before that of a letter decline it. -/
theorem declines_earlier (sound : state.Sound setting) (regular : state.Regular setting)
    (member : strand ∈ state.strands) {number : Nat}
    (found : strand.letters[number]? = some letter) {person : Person} {session : Session}
    {earlier later : List Session}
    (split : (state.record setting person).sessions = earlier ++ session :: later)
    (named : session.initiatorBase = some strand.key)
    (foreign : ∀ other ∈ earlier, ¬ other.Authenticates setting.suite letter.message.inner) :
    ∀ other ∈ earlier, other.Declines setting.suite letter.message.inner := by
  intro other before
  have there : other ∈ (state.record setting person).sessions := by
    rw [split]
    exact List.mem_append_left _ before
  refine sound.declines regular member found there (fun same => ?_) (foreign other before)
  -- two sessions of a record have different base keys
  have distinct := split ▸ (sound.tidy person).named
  rw [List.map_append] at distinct
  exact List.disjoint_of_nodup_append distinct (List.mem_map_of_mem before)
    (by rw [same, ← named]; exact List.mem_map_of_mem List.mem_cons_self)

section

variable (sound : state.Sound setting) (regular : state.Regular setting) (genuine : setting.Genuine)
  (member : strand ∈ state.strands)
  (lives : strand.Lives setting (state.held setting strand) dialogue) {number : Nat}
  (found : strand.letters[number]? = some letter) (undelivered : number ∉ strand.delivered)
include sound regular genuine member lives found undelivered

/-- A letter of a session that its receiver has, and whose chain this has not forgotten. -/
theorem arrives_recorded {session : Session}
    (holds : state.held setting strand letter.sender.other = some session)
    (inTime : ¬ Late strand letter session) (unmistaken : state.Unmistaken setting strand letter)
    (lasts : supply.Lasts (Limits.archivedSessions + 1)) :
    ∃ next latter ending,
      Arrives setting state strand dialogue letter supply next latter ending := by
  set receiver := strand.person letter.sender.other
  have own := lives.own _ session holds
  obtain ⟨listed, named⟩ := sound.held_eq_some_iff.mp holds
  change session ∈ (state.record setting receiver).sessions at listed
  have tidy := sound.tidy receiver
  have partyInTime :
      (dialogue.party letter.sender.other).late letter.message.inner.ratchetKey = false := by
    rw [Bool.eq_false_iff]
    intro late
    refine inTime ?_
    rw [Late, own, ← lives.heard]
    exact late
  have takes : ∀ used : Supply, used.Lasts 1 → ∃ next later,
      (session.decrypt setting.suite letter.message.inner).run used =
        (.ok (letter.text, next), later) := by
    intro used usedLasts
    rw [own]
    exact regular.run_decrypt_party member lives found undelivered partyInTime usedLasts
  obtain ⟨earlier, later, split⟩ := List.append_of_mem listed
  have declines := sound.declines_earlier regular member found split named
    (unmistaken earlier session later split named).1
  obtain ⟨used, text, next, left, latter, usedLasts, decrypted, ran, current, installs⟩ :=
    SessionRecord.run_decrypt_of_declines setting.suite (setting.address receiver.other)
      tidy.named tidy.few split declines
      (fun used usedLasts => let ⟨next, later, run⟩ := takes used usedLasts; ⟨_, later, run⟩) lasts
  obtain rfl : text = letter.text := by
    obtain ⟨_, _, run⟩ := takes used usedLasts
    rw [decrypted] at run
    cases run
    rfl
  have loads := sound.loadRecord_eq listed
  have carries := lives.carries letter (List.mem_of_getElem? found)
  have known := sound.known member found holds
  have latterTidy := tidy.received (SessionRecord.received_of_run_decrypt setting.suite ran)
  have nextListed := SessionRecord.mem_of_current current
  have furnished := sound.furnished receiver
  have addressed := genuine.addressed receiver.other
  let now : Context MemoryStore := { store := state.store receiver, supply }
  have trusts : now.store.trusts (setting.address receiver.other).identityKey = true :=
    sound.trusts_address genuine receiver
  have delivered := Conversation.run_deliver_recorded carries.readable loads trusts known ran
    current ((latterTidy.belong next nextListed).remoteIdentity.trans addressed.symm)
  exact ⟨next, latter, _, {
    ran := delivered
    inTime := partyInTime
    decrypted := ⟨used, left, usedLasts, own ▸ decrypted⟩
    furnished := furnished.storeRecord _ _
    loaded := MemoryStore.loadRecord_storeRecord latterTidy.toOwned.length_encode_lt
    tidy := latterTidy
    current := current
    named := ((Session.received_of_run_decrypt setting.suite decrypted).initiatorBase_eq
      setting.suite).trans named
    installs := installs }⟩

/-- A letter whose prekeys its receiver has, and of whose session the receiver has nothing yet. -/
theorem arrives_asking (nobody : state.held setting strand letter.sender.other = none)
    (answers : (state.store (strand.person letter.sender.other)).CanAnswer letter.message)
    (room : (state.record setting (strand.person letter.sender.other)).sessions.length ≤
      Limits.archivedSessions)
    (lasts : supply.Lasts (Limits.archivedSessions + 1)) :
    ∃ next latter ending,
      Arrives setting state strand dialogue letter supply next latter ending := by
  have carries := lives.carries letter (List.mem_of_getElem? found)
  have lastsOnce : supply.Lasts 1 := lasts.mono (Nat.le_add_left 1 _)
  have takes := fun inTime =>
    regular.run_decrypt_party member lives found undelivered inTime lastsOnce
  obtain ⟨initiates, prekey, wraps, version, oneTimeId, signedId, base⟩ :=
    lives.asks (List.mem_of_getElem? found) nobody
  obtain ⟨sender, text, message⟩ := letter
  dsimp only at initiates wraps
  subst initiates wraps
  change state.held setting strand .responder = none at nobody
  obtain ⟨_, same, hasSigned, hasOneTime⟩ := answers
  obtain rfl := Message.prekey.inj same
  obtain ⟨deaf, waits⟩ := lives.unanswered nobody
  have hasNotHeard : (dialogue.party .responder).heard = [] := (lives.heard _).trans deaf
  have inTime := Party.late_of_heard_nil hasNotHeard prekey.message.ratchetKey
  obtain ⟨next, later, ran⟩ := takes inTime
  change ((dialogue.party .responder).session.decrypt setting.suite prekey.message).run supply = _
    at ran
  have received := Session.received_of_run_decrypt setting.suite ran
  set receiver := strand.person .responder
  obtain ⟨stored, loads, recorded⟩ := sound.exists_stored receiver
  have tidy := sound.tidy receiver
  have furnished := sound.furnished receiver
  have addressed := genuine.addressed receiver.other
  let now : Context MemoryStore := { store := state.store receiver, supply }
  have trusts : now.store.trusts (setting.address receiver.other).identityKey = true :=
    sound.trusts_address genuine receiver
  have asks := strand.terms_eq genuine furnished.identity signedId oneTimeId base
  obtain ⟨named, belongs, compact⟩ := lives.answered nobody received
  have new : ∀ other ∈ (state.record setting receiver).sessions,
      other.initiatorBase ≠ next.initiatorBase := by
    rw [named]
    exact sound.ne_of_held nobody
  have unknown := sound.unknown nobody version base
  rw [show strand.opener = receiver.other from strand.opener.other_other.symm] at belongs
  have latterTidy := tidy.promote belongs compact new
  have taken := ran
  rw [waits, ← asks] at taken
  rw [recorded] at unknown
  have loadsNow : now.store.loadRecord (setting.address receiver.other) = .ok stored := loads
  have delivered := Conversation.run_deliver_asking carries.readable loadsNow trusts unknown
    (furnished.find?_signed hasSigned) (furnished.rel_oneTime hasOneTime) lasts taken
  rw [← recorded] at delivered
  exact ⟨next, (state.record setting receiver).promote next, _, {
    ran := delivered
    inTime := inTime
    decrypted := ⟨supply, later, lastsOnce, ran⟩
    furnished := (furnished.storeRecord _ _).withoutOneTime _
    loaded := Conversation.loadRecord_established latterTidy.toOwned.length_encode_lt
    tidy := latterTidy
    current := rfl
    named := named
    installs := SessionRecord.installs_promote room new }⟩

/-- **A letter that reaches its receiver arrives.** -/
theorem arrives (reaches : state.Reaches setting strand letter)
    (unmistaken : state.Unmistaken setting strand letter)
    (room : state.HasRoom setting strand letter)
    (lasts : supply.Lasts (Limits.archivedSessions + 1)) :
    ∃ next latter ending,
      Arrives setting state strand dialogue letter supply next latter ending := by
  have new := fun nobody => room nobody reaches
  simp only [Reaches] at reaches
  cases holds : state.held setting strand letter.sender.other with
  | some session =>
      rw [holds] at reaches
      exact sound.arrives_recorded regular genuine member lives found undelivered holds reaches
        unmistaken lasts
  | none =>
      rw [holds] at reaches
      exact sound.arrives_asking regular genuine member lives found undelivered holds reaches
        (new holds) lasts

end

/-- **A letter that does not reach its receiver is refused.** -/
theorem refuses (sound : state.Sound setting) (member : strand ∈ state.strands) {number : Nat}
    (found : strand.letters[number]? = some letter)
    (lost : ¬ state.Reaches setting strand letter)
    (unmistaken : state.Unmistaken setting strand letter)
    (refusesLate : state.RefusesLate setting strand letter) (supply : Supply) :
    ∃ failure ending, (Conversation.deliver setting.suite
      (setting.address (strand.person letter.sender.other).other) letter.message).run
        { store := state.store (strand.person letter.sender.other), supply } =
      (.error failure, ending) := by
  set receiver := strand.person letter.sender.other
  cases ran : (Conversation.deliver setting.suite (setting.address receiver.other)
      letter.message).run { store := state.store receiver, supply } with
  | mk outcome ending =>
      cases outcome with
      | error failure => exact ⟨failure, ending, rfl⟩
      | ok text =>
          exfalso
          obtain ⟨_, lives⟩ := sound.lives strand member
          have listed := List.mem_of_getElem? found
          obtain ⟨stored, loaded, outcome⟩ :=
            Conversation.deliver_eq_ok (lives.carries letter listed).readable ran
          obtain ⟨_, loads, recorded⟩ := sound.exists_stored receiver
          cases loads.symm.trans loaded
          rw [← recorded] at outcome
          simp only [Reaches] at lost
          cases holds : state.held setting strand letter.sender.other with
          | some session =>
              rw [holds] at lost
              obtain ⟨own, named⟩ := sound.held_eq_some_iff.mp holds
              obtain ⟨earlier, later, split⟩ := List.append_of_mem own
              obtain ⟨foreign, forgotten⟩ := unmistaken earlier session later split named
              rcases outcome with ⟨_, other, there, authentic⟩ | ⟨prekey, _, wraps, unknown, _⟩
              · rw [split] at there
                rcases List.mem_append.mp there with before | after
                · exact foreign other before authentic
                rcases List.mem_cons.mp after with rfl | behind
                · exact refusesLate other own named (not_not.mp lost) authentic
                · exact forgotten (not_not.mp lost) other behind authentic
              · rw [sound.known member found holds prekey wraps] at unknown
                cases unknown
          | none =>
              rw [holds] at lost
              obtain ⟨_, prekey, wraps, version, _, _, base⟩ := lives.asks listed holds
              rcases outcome with ⟨known, _⟩ | ⟨other, session, same, _, asked⟩
              · cases (sound.unknown holds version base).symm.trans (known prekey wraps)
              · rw [same] at lost
                exact lost asked.canAnswer

end Sound

end Correspondence

end Ratchet
