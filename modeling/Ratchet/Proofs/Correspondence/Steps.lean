import Ratchet.Proofs.Conversation.Delivering
import Ratchet.Proofs.Correspondence.Strands

/-!
# What every event keeps

An event changes the store of one person, and installs one session in it at most.
All other strands are as they were, and the strand of this session is what has
become of its dialogue (`Correspondence.Sound.install`).
-/

set_option autoImplicit false

namespace Ratchet

/-! ## Stores -/

namespace Setting.Furnishes

variable {setting : Setting} {person : Person} {store : MemoryStore}
  (furnished : setting.Furnishes person store)
include furnished

theorem find?_signed {id : UInt32} (kept : store.signedPrekeys.contains id) :
    store.signedPrekeys.find? id = some (setting.signed person id) := by
  obtain ⟨prekey, found⟩ := Option.isSome_iff_exists.mp kept
  rw [found, furnished.signed id prekey found]

theorem rel_oneTime {used : Option UInt32}
    (kept : ∀ id ∈ used, store.oneTimePrekeys.contains id) :
    Option.Rel (fun id prekey => store.oneTimePrekeys.find? id = some prekey) used
      (used.map (setting.oneTime person)) := by
  cases used with
  | none => exact .none
  | some id =>
      obtain ⟨prekey, found⟩ := Option.isSome_iff_exists.mp (kept id rfl)
      refine .some ?_
      rw [found, furnished.oneTime id prekey found]

theorem keeping (suite : Suite) (number : PrekeyNumber) :
    setting.Furnishes person (store.perform suite (setting.keeping person number)) := by
  cases number with
  | signed id =>
      refine ⟨furnished.identity, furnished.trusts, fun other prekey found => ?_,
        furnished.oneTime⟩
      change (store.signedPrekeys.insert id (setting.signed person id)).find? other = _ at found
      rw [Table.find?_insert] at found
      split at found
      · rename_i same
        cases found
        rw [same]
      · exact furnished.signed other prekey found
  | oneTime id =>
      refine ⟨furnished.identity, furnished.trusts, furnished.signed,
        fun other prekey found => ?_⟩
      change (store.oneTimePrekeys.insert id (setting.oneTime person id)).find? other = _ at found
      rw [Table.find?_insert] at found
      split at found
      · rename_i same
        cases found
        rw [same]
      · exact furnished.oneTime other prekey found

theorem removing (suite : Suite) (number : PrekeyNumber) :
    setting.Furnishes person (store.perform suite number.removing) := by
  cases number with
  | signed id =>
      refine ⟨furnished.identity, furnished.trusts, fun other prekey found => ?_,
        furnished.oneTime⟩
      change (store.signedPrekeys.erase id).find? other = _ at found
      rw [Table.find?_erase] at found
      split at found
      · cases found
      · exact furnished.signed other prekey found
  | oneTime id =>
      refine ⟨furnished.identity, furnished.trusts, furnished.signed,
        fun other prekey found => ?_⟩
      change (store.oneTimePrekeys.erase id).find? other = _ at found
      rw [Table.find?_erase] at found
      split at found
      · cases found
      · exact furnished.oneTime other prekey found

theorem storeRecord (address : Address) (record : SessionRecord) :
    setting.Furnishes person (store.storeRecord address record) :=
  ⟨furnished.identity, furnished.trusts, furnished.signed, furnished.oneTime⟩

theorem withoutOneTime (used : Option UInt32) :
    setting.Furnishes person (store.withoutOneTime used) := by
  cases used with
  | none => exact furnished
  | some id => exact furnished.removing setting.suite (.oneTime id)

end Setting.Furnishes

/-! ## What an event changes -/

namespace Correspondence

variable {setting : Setting} {state : Correspondence}

theorem record_setStore_self (person : Person) {store : MemoryStore}
    {record : SessionRecord}
    (loaded : store.loadRecord (setting.address person.other) = .ok (some record)) :
    (state.setStore person store).record setting person = record := by
  simp only [Correspondence.record, setStore, MemoryStore.recordAt]
  rw [Function.update_self, loaded]
  rfl

theorem record_setStore_of_ne {person other : Person} (different : other ≠ person)
    (store : MemoryStore) :
    (state.setStore person store).record setting other = state.record setting other := by
  simp only [Correspondence.record, setStore]
  rw [Function.update_of_ne different]

namespace Sound

variable (sound : state.Sound setting)
include sound

/-- A person trusts the other's identity at the other's address. -/
theorem trusts_address (genuine : setting.Genuine) (person : Person) :
    (state.store person).trusts (setting.address person.other).identityKey = true := by
  rw [genuine.addressed]
  exact (sound.furnished person).trusts

/-- A store with the same record changes nothing for the strands. -/
theorem setStore {person : Person} {store : MemoryStore}
    (furnished : setting.Furnishes person store)
    (same : store.records = (state.store person).records) :
    (state.setStore person store).Sound setting := by
  have loads : ∀ address, store.loadRecord address = (state.store person).loadRecord address := by
    intro address
    simp only [MemoryStore.loadRecord]
    rw [same]
  have records : ∀ other,
      (state.setStore person store).record setting other = state.record setting other := by
    intro other
    by_cases own : other = person
    · subst own
      simp only [Correspondence.record, Correspondence.setStore, MemoryStore.recordAt]
      rw [Function.update_self, loads]
    · exact record_setStore_of_ne own store
  have helds : (state.setStore person store).held setting = state.held setting := by
    funext strand side
    simp only [held]
    rw [records]
  refine ⟨?_, ?_, ?_, ?_, ?_⟩
  · exact (Function.forall_update_iff _ setting.Furnishes).mpr
      ⟨furnished, fun other _ => sound.furnished other⟩
  · refine (Function.forall_update_iff _ fun person (store : MemoryStore) => ∃ stored,
      store.loadRecord (setting.address person.other) = .ok stored).mpr
        ⟨?_, fun other _ => sound.loads other⟩
    rw [loads]
    exact sound.loads person
  · intro other
    rw [records]
    exact sound.tidy other
  · intro other
    rw [records]
    exact sound.covered other
  · rw [helds]
    exact sound.lives

/-! ## Installing a session -/

section

variable {person : Person} {store : MemoryStore} {latter : SessionRecord} {session : Session}
  {base : PublicKey} (loaded : store.loadRecord (setting.address person.other) = .ok (some latter))
  (tidy : latter.Tidy (setting.identity person).publicKey (setting.identity person.other).publicKey)
  (installs : (state.record setting person).Installs latter session)
  (named : session.initiatorBase = some base)
include loaded tidy installs named

/-- The person holds the session of its strand, and of all other strands what was held before. -/
theorem held_setStore (strand : Strand) : (state.setStore person store).held setting strand =
    if strand.key = base then
      Function.update (state.held setting strand) (strand.side person) (some session)
    else state.held setting strand := by
  have found := installs.session?_eq (sound.tidy person).named tidy.named
  funext side
  simp only [held]
  by_cases owns : strand.person side = person
  · obtain rfl := (strand.person_eq_iff).mp owns
    rw [owns, record_setStore_self person loaded, found, named]
    by_cases same : strand.key = base
    · rw [if_pos (congrArg some same.symm), if_pos same, Function.update_self]
    · rw [if_neg fun equal => same (Option.some.inj equal).symm, if_neg same]
      simp only [held]
      rw [owns]
  · have different : side ≠ strand.side person := fun same => owns (strand.person_eq_iff.mpr same)
    rw [record_setStore_of_ne owns]
    split
    · rw [Function.update_of_ne different]
      rfl
    · rfl

omit tidy in
/-- Every session is of one of the strands, if these are the strands that there were and that of
the session. -/
theorem covered_setStore {strands : List Strand}
    (covers : ∀ strand ∈ state.strands, ∃ later ∈ strands, later.key = strand.key)
    (present : ∃ strand ∈ strands, strand.key = base) (other : Person) {listed : Session}
    (member : listed ∈ ((state.setStore person store).record setting other).sessions) :
    ∃ strand ∈ strands, listed.initiatorBase = some strand.key := by
  have old : ∀ owner, listed ∈ (state.record setting owner).sessions →
      ∃ strand ∈ strands, listed.initiatorBase = some strand.key := by
    intro owner there
    obtain ⟨strand, strandListed, key⟩ := sound.covered owner listed there
    obtain ⟨later, laterListed, same⟩ := covers strand strandListed
    exact ⟨later, laterListed, by rw [key, same]⟩
  by_cases same : other = person
  · subst same
    rw [record_setStore_self other loaded, installs listed] at member
    rcases member with rfl | ⟨there, _⟩
    · obtain ⟨strand, strandListed, key⟩ := present
      exact ⟨strand, strandListed, by rw [named, key]⟩
    · exact old other there
  · rw [record_setStore_of_ne same] at member
    exact old other member

/-- **Installing a session in one store is seen by its strand alone.** -/
theorem install (furnished : setting.Furnishes person store) {strands : List Strand}
    (covers : ∀ strand ∈ state.strands, ∃ later ∈ strands, later.key = strand.key)
    (present : ∃ strand ∈ strands, strand.key = base)
    (others : ∀ strand ∈ strands, strand.key ≠ base → strand ∈ state.strands)
    (lives : ∀ strand ∈ strands, strand.key = base → ∃ dialogue, strand.Lives setting
      (Function.update (state.held setting strand) (strand.side person) (some session)) dialogue) :
    ({ state.setStore person store with strands } : Correspondence).Sound setting := by
  refine ⟨?_, ?_, ?_, ?_, ?_⟩
  · exact (Function.forall_update_iff _ setting.Furnishes).mpr
      ⟨furnished, fun other _ => sound.furnished other⟩
  · exact (Function.forall_update_iff _ fun person (store : MemoryStore) => ∃ stored,
      store.loadRecord (setting.address person.other) = .ok stored).mpr
        ⟨⟨_, loaded⟩, fun other _ => sound.loads other⟩
  · intro other
    show ((state.setStore person store).record setting other).Tidy _ _
    by_cases same : other = person
    · subst same
      rw [record_setStore_self other loaded]
      exact tidy
    · rw [record_setStore_of_ne same]
      exact sound.tidy other
  · exact fun other _ member =>
      sound.covered_setStore loaded installs named covers present other member
  · intro strand listed
    show ∃ dialogue, strand.Lives setting
      ((state.setStore person store).held setting strand) dialogue
    rw [sound.held_setStore loaded tidy installs named]
    by_cases same : strand.key = base
    · rw [if_pos same]
      exact lives strand listed same
    · rw [if_neg same]
      exact sound.lives strand (others strand listed same)

end

/-! ## Prekeys -/

theorem publish (person : Person) (number : PrekeyNumber) :
    (state.step setting (.publish person number)).Sound setting := by
  refine sound.setStore ((sound.furnished person).keeping setting.suite number) ?_
  cases number <;> rfl

theorem withdraw (person : Person) (number : PrekeyNumber) :
    (state.step setting (.withdraw person number)).Sound setting := by
  refine sound.setStore ((sound.furnished person).removing setting.suite number) ?_
  cases number <;> rfl

/-! ## Changing a strand -/

section

variable {base : PublicKey} {change : Strand → Strand}
  (kept : ∀ strand, (change strand).key = strand.key)
include kept

/-- Installing a session changes its strand. -/
theorem amend {person : Person} {store : MemoryStore} {latter : SessionRecord}
    {session : Session} (furnished : setting.Furnishes person store)
    (loaded : store.loadRecord (setting.address person.other) = .ok (some latter))
    (tidy : latter.Tidy (setting.identity person).publicKey
      (setting.identity person.other).publicKey)
    (installs : (state.record setting person).Installs latter session)
    (named : session.initiatorBase = some base)
    (present : ∃ strand ∈ state.strands, strand.key = base)
    (lives : ∀ strand ∈ state.strands, strand.key = base → ∃ dialogue,
      (change strand).Lives setting (Function.update (state.held setting (change strand))
        ((change strand).side person) (some session)) dialogue) :
    ((state.setStore person store).amend base change).Sound setting := by
  refine sound.install loaded tidy installs named furnished ?_ ?_ ?_ ?_
  · intro strand listed
    refine ⟨_, List.mem_map_of_mem listed, ?_⟩
    split
    · exact kept strand
    · rfl
  · obtain ⟨strand, listed, same⟩ := present
    refine ⟨_, List.mem_map_of_mem listed, ?_⟩
    rw [if_pos same, kept, same]
  · intro later listed different
    obtain ⟨strand, there, rfl⟩ := List.mem_map.mp listed
    by_cases same : strand.key = base
    · rw [if_pos same, kept] at different
      exact absurd same different
    · rw [if_neg same]
      exact there
  · intro later listed equal
    obtain ⟨strand, there, rfl⟩ := List.mem_map.mp listed
    by_cases same : strand.key = base
    · rw [if_pos same]
      exact lives strand there same
    · rw [if_neg same] at equal
      exact absurd equal same

/-- A strand can change while both people hold what they held. -/
theorem amend_strand (lives : ∀ strand ∈ state.strands, strand.key = base → ∃ dialogue,
      (change strand).Lives setting (state.held setting (change strand)) dialogue) :
    (state.amend base change).Sound setting := by
  refine ⟨sound.furnished, sound.loads, sound.tidy, ?_, ?_⟩
  · intro person session member
    obtain ⟨strand, listed, same⟩ := sound.covered person session member
    refine ⟨_, List.mem_map_of_mem listed, ?_⟩
    split
    · rw [kept, same]
    · exact same
  · intro later listed
    obtain ⟨strand, there, rfl⟩ := List.mem_map.mp listed
    show ∃ dialogue, Strand.Lives _ setting (state.held setting _) dialogue
    split
    · rename_i same
      exact lives strand there same
    · exact sound.lives strand there

end

end Sound

/-! ## Starting -/

/-- How it stands when a person has started a session with these pairs. -/
def started (setting : Setting) (state : Correspondence) (person : Person) (signedId : UInt32)
    (oneTimeId : Option UInt32) (base ratchet : KeyPair) : Correspondence :=
  let strand := Strand.begun setting person signedId oneTimeId base ratchet
  { state.setStore person ((state.store person).storeRecord (setting.address person.other)
      ((state.record setting person).promote (strand.opening setting ratchet))) with
    strands := state.strands ++ [strand] }

/-- A person who starts a session from a genuine bundle makes the opening of a new strand
current. -/
theorem Sound.start_eq (sound : state.Sound setting) (genuine : setting.Genuine) {person : Person}
    {signedId : UInt32} {oneTimeId : Option UInt32} {signature : Bytes} {supply : Supply}
    (fair : (Event.start person signedId oneTimeId signature supply).Fair setting state)
    {base ratchet : KeyPair} {rest last : Supply}
    (first : setting.suite.generate.run supply = (.ok base, rest))
    (second : setting.suite.generate.run rest = (.ok ratchet, last)) :
    state.start setting person signedId oneTimeId signature supply =
      state.started setting person signedId oneTimeId base ratchet := by
  obtain ⟨signed, verifies, lasts, _⟩ := fair
  obtain ⟨stored, loaded, recorded⟩ := sound.exists_stored person
  have furnished := sound.furnished person
  have addressed := genuine.addressed person.other
  let bundle := setting.bundle person.other signedId oneTimeId signature
  let oneTime := oneTimeId.map fun id => (id, (setting.oneTime person.other id).pair.publicKey)
  have together : Conversation.oneTimeOf bundle = .ok oneTime := by
    cases oneTimeId <;> rfl
  let now : Context MemoryStore := { store := state.store person, supply }
  have trusts : now.store.trusts (setting.address person.other).identityKey = true :=
    sound.trusts_address genuine person
  have ran := Conversation.run_start setting.suite (setting.address person.other) addressed.symm
    trusts rfl together (addressed ▸ signed) loaded verifies lasts first second
  have opened : Conversation.opening setting.suite (Conversation.bundleTerms
      now.store.identity base (setting.address person.other).identityKey
        (setting.signed person.other signedId).pair.publicKey (oneTime.map Prod.snd)) ratchet
          (oneTime.map Prod.fst) bundle.signedId =
      (Strand.begun setting person signedId oneTimeId base ratchet).opening setting ratchet := by
    have identity : now.store.identity = setting.identity person := furnished.identity
    rw [identity, addressed, Strand.opening, Strand.initiatorTerms, Strand.oneTimePair,
      Option.map_map, Option.map_map, Option.map_map]
    congr 1
    exact Option.map_id'
  have drawn : ((do return (← setting.suite.generate, ← setting.suite.generate) :
      Attempt (KeyPair × KeyPair)).run supply).1 = .ok (base, ratchet) := by
    rw [Procedure.run_bind_of_ok first]
    rw [Procedure.run_bind_of_ok second]
    rfl
  simp only [Correspondence.start, started]
  rw [ran, drawn, opened, recorded]

/-- A strand that is new in a regular correspondence has a base key of its own. -/
theorem Regular.key_ne_of_new {strand : Strand}
    (regular : ({ state with strands := state.strands ++ [strand] } : Correspondence).Regular
      setting) {old : Strand} (listed : old ∈ state.strands) : old.key ≠ strand.key := by
  intro same
  have distinct := regular.distinct
  rw [List.flatMap_append, List.map_append] at distinct
  refine List.disjoint_of_nodup_append distinct (a := strand.key) ?_ ?_
  · rw [← same]
    exact List.mem_map_of_mem (List.mem_flatMap.mpr ⟨old, listed, List.mem_cons_self⟩)
  · exact List.mem_map_of_mem (List.mem_flatMap.mpr
      ⟨strand, List.mem_singleton_self _, List.mem_cons_self⟩)

/-- **A session that is started is a new strand**, if its base key is new and nothing was
forgotten for it. -/
theorem Sound.start (sound : state.Sound setting) (genuine : setting.Genuine) {person : Person}
    {signedId : UInt32} {oneTimeId : Option UInt32} {signature : Bytes} {supply : Supply}
    (fair : (Event.start person signedId oneTimeId signature supply).Fair setting state)
    (regular : (state.start setting person signedId oneTimeId signature supply).Regular setting) :
    (state.start setting person signedId oneTimeId signature supply).Sound setting := by
  have room := fair.2.2.2
  obtain ⟨base, rest, first, restLasts⟩ := setting.suite.run_generate_of_lasts fair.2.2.1
  obtain ⟨ratchet, last, second, _⟩ := setting.suite.run_generate_of_lasts restLasts
  have basePaired := setting.suite.generate_eq_ok first
  have ratchetPaired := setting.suite.generate_eq_ok second
  rw [sound.start_eq genuine fair first second, started] at regular ⊢
  set strand := Strand.begun setting person signedId oneTimeId base ratchet
  set opening := strand.opening setting ratchet
  have added : strand ∈ state.strands ++ [strand] :=
    List.mem_append_right _ (List.mem_singleton_self _)
  -- the base key was generated now, so no session that there is has it
  have fresh : ∀ old ∈ state.strands, old.key ≠ strand.key := fun _ => regular.key_ne_of_new
  have unknown : ∀ other, ∀ session ∈ (state.record setting other).sessions,
      session.initiatorBase ≠ some strand.key := by
    intro other session member same
    obtain ⟨old, listed, key⟩ := sound.covered other session member
    exact fresh old listed (Option.some.inj (key.symm.trans same))
  have tidy := sound.tidy person
  have belongs : opening.Belongs (setting.identity person).publicKey
      (setting.identity person.other).publicKey :=
    { Session.belongs_initiated setting.suite (strand.initiatorTerms setting) ratchet with }
  have compact : opening.Compact :=
    (Session.compact_initiated setting.suite (strand.initiatorTerms setting) ratchet).congr rfl
  have latterTidy := tidy.promote belongs compact (unknown person)
  have loaded : ((state.store person).storeRecord (setting.address person.other)
      ((state.record setting person).promote opening)).loadRecord (setting.address person.other) =
      .ok (some ((state.record setting person).promote opening)) :=
    MemoryStore.loadRecord_storeRecord latterTidy.toOwned.length_encode_lt
  refine sound.install loaded latterTidy (SessionRecord.installs_promote room (unknown person)) rfl
    ((sound.furnished person).storeRecord _ _) ?_ ⟨strand, added, rfl⟩ ?_ ?_
  · exact fun old listed => ⟨old, List.mem_append_left _ listed, rfl⟩
  · intro other listed different
    rcases List.mem_append.mp listed with old | new
    · exact old
    · exact absurd (congrArg Strand.key (List.mem_singleton.mp new)) different
  · intro other listed same
    rcases List.mem_append.mp listed with old | new
    · exact absurd same (fresh other old)
    · obtain rfl := List.mem_singleton.mp new
      have side : strand.side person = .initiator := if_pos rfl
      rw [side]
      refine Strand.lives_begun genuine basePaired ratchetPaired regular.commutes added
        (Function.update_self _ _ _) ?_
      rw [Function.update_of_ne (by decide)]
      cases holds : state.held setting strand .responder with
      | none => rfl
      | some session =>
          obtain ⟨member, key⟩ := sound.held_eq_some_iff.mp holds
          exact absurd key (unknown _ session member)

/-! ## Sending -/

/-- The dialogue of a strand is regular. -/
theorem Regular.dialogue_of_lives (regular : state.Regular setting) {strand : Strand}
    (member : strand ∈ state.strands) {dialogue : Dialogue}
    (lives : strand.Lives setting (state.held setting strand) dialogue) : dialogue.Regular :=
  regular.dialogue member lives.letters lives.ratchets

/-- **What is sent is written in its strand.** -/
theorem Sound.send (sound : state.Sound setting) (regular : state.Regular setting)
    (person : Person) (text : Bytes) :
    (state.send setting person text).Sound setting := by
  simp only [Correspondence.send]
  cases ran : (Conversation.encrypt (setting.address person.other) text).run
    { store := state.store person, supply := .zeros 0 } with
  | mk outcome ending =>
      cases outcome with
      | error failure =>
          have unchanged := (Conversation.atomic_encrypt _ text).store_eq _ _ _ ran
          dsimp only at unchanged ⊢
          rw [unchanged]
          exact sound.setStore (sound.furnished person) rfl
      | ok message =>
          obtain ⟨record, session, next, loaded, stands, encrypted, stores⟩ :=
            Conversation.encrypt_eq_ok _ ran
          obtain ⟨stored, loads, recorded⟩ := sound.exists_stored person
          cases loads.symm.trans loaded
          change state.record setting person = record at recorded
          subst recorded
          have tidy := sound.tidy person
          have member := SessionRecord.mem_of_current stands
          have belongs := tidy.belong session member
          have same := Session.initiatorBase_of_encrypt encrypted
          obtain ⟨base, named⟩ := Option.isSome_iff_exists.mp belongs.named
          have current : state.current setting person = some base := by
            rw [Correspondence.current, stands]
            exact named
          have latterTidy := tidy.setCurrent stands (belongs.encrypt encrypted)
            ((tidy.compact session member).encrypt encrypted) same
          dsimp only
          rw [current, stores]
          have kept : ∀ strand : Strand,
              (strand.write ⟨strand.side person, text, message⟩).key = strand.key := fun _ => rfl
          refine sound.amend kept ((sound.furnished person).storeRecord _ _)
            (MemoryStore.loadRecord_storeRecord latterTidy.toOwned.length_encode_lt) latterTidy
            (SessionRecord.installs_setCurrent tidy.named stands same) (same.trans named) ?_ ?_
          · obtain ⟨strand, listed, key⟩ := sound.covered person session member
            exact ⟨strand, listed, Option.some.inj (key.symm.trans named)⟩
          · intro strand listed key
            obtain ⟨dialogue, lives⟩ := sound.lives strand listed
            have holds : state.held setting strand (strand.side person) = some session := by
              rw [sound.held_eq_some_iff, strand.person_side, key]
              exact ⟨member, named⟩
            exact ⟨_, lives.write (regular.dialogue_of_lives listed lives) holds belongs.version
              encrypted⟩

end Correspondence

end Ratchet
