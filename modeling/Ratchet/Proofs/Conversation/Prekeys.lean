import Mathlib.Data.Option.Basic
import Ratchet.Conversation
import Ratchet.Proofs.Record.Receiving
import Ratchet.Proofs.Session.Handshakes
import Ratchet.Store.Memory

/-!
# What a prekey message uses up

A prekey message names prekeys and a base key, and these are not authenticated.
If the record has a session with the base key, the message is just decrypted.
Otherwise the responder's session is made from the prekeys it names
(`Conversation.Asks`) and becomes current before the record decrypts the message.

The record falls back to its other sessions, so the session that is current in
the end need not be the one with the base key. It is always one that authenticated
the message (`Conversation.decryptPrekey_current`), but a message of one session
in the wrapping of another uses up a prekey (`Conversation.rewrapped_spends_prekey`).
-/

set_option autoImplicit false

namespace Ratchet

/-- The store without the one-time prekey of this number, if there is a number. -/
def MemoryStore.withoutOneTime (store : MemoryStore) : Option UInt32 → MemoryStore
  | none => store
  | some id => { store with oneTimePrekeys := store.oneTimePrekeys.erase id }

namespace Conversation

variable {ς : Type} [ProtocolStore ς] (suite : Suite) (peer : Address)

/-- What the responder brings to the session that a prekey message asks for. -/
def terms (message : PrekeyMessage) (identity : KeyPair) (signed : SignedPrekey)
    (oneTime : Option OneTimePrekey) : ResponderTerms where
  ourIdentity := identity
  ourSignedPrekey := signed.pair
  ourOneTimePrekey := oneTime.map OneTimePrekey.pair
  ourRatchet := signed.pair
  theirIdentity := peer.identityKey
  theirBase := message.baseKey

/-- The session that a prekey message asks for, made with the prekeys it names. -/
def Asks (store : ς) (message : PrekeyMessage) (session : Session) : Prop :=
  ∃ identity signed oneTime, ProtocolStore.identity store = .ok identity ∧
    ProtocolStore.loadSigned store message.signedId = .ok (some signed) ∧
    Option.Rel (fun id prekey => ProtocolStore.loadOneTime store id = .ok (some prekey))
      message.oneTimeId oneTime ∧
    session = Session.responded suite (terms peer message identity signed oneTime)

/-- The session that is asked for is the one of the message's base key. -/
theorem Asks.initiatorBase_eq {store : ς} {message : PrekeyMessage} {session : Session}
    (asked : Asks suite peer store message session) :
    session.initiatorBase = some message.baseKey := by
  obtain ⟨identity, signed, oneTime, _, _, _, rfl⟩ := asked
  rfl

section

variable {context later : Context ς}

theorem signedPrekey_eq_ok {id : UInt32} {prekey : SignedPrekey}
    (found : (signedPrekey id).run context = (.ok prekey, later)) :
    ProtocolStore.loadSigned context.store id = .ok (some prekey) ∧ later = context := by
  simp only [signedPrekey] at found
  obtain ⟨loaded, asked, found⟩ := Operation.run_ask_bind_eq_ok found
  cases loaded with
  | none => cases found
  | some _ =>
      cases found
      exact ⟨asked, rfl⟩

theorem oneTimePrekey_eq_ok {id : UInt32} {prekey : OneTimePrekey}
    (found : (oneTimePrekey id).run context = (.ok prekey, later)) :
    ProtocolStore.loadOneTime context.store id = .ok (some prekey) ∧ later = context := by
  simp only [oneTimePrekey] at found
  obtain ⟨loaded, asked, found⟩ := Operation.run_ask_bind_eq_ok found
  cases loaded with
  | none => cases found
  | some _ =>
      cases found
      exact ⟨asked, rfl⟩

theorem mapM_oneTimePrekey_eq_ok {id : Option UInt32} {prekey : Option OneTimePrekey}
    (found : (id.mapM oneTimePrekey : Operation ς _).run context = (.ok prekey, later)) :
    Option.Rel (fun id prekey => ProtocolStore.loadOneTime context.store id = .ok (some prekey))
      id prekey ∧ later = context := by
  cases id with
  | none =>
      cases found
      exact ⟨.none, rfl⟩
  | some id =>
      rw [Option.mapM_some, Procedure.run_map] at found
      cases asked : (oneTimePrekey id).run context with
      | mk outcome next =>
          rw [asked] at found
          cases outcome with
          | error failure => cases found
          | ok prekey =>
              cases found
              obtain ⟨loads, rfl⟩ := oneTimePrekey_eq_ok asked
              exact ⟨.some loads, rfl⟩

theorem requireTrust_eq_ok {key : PublicKey} {direction : Direction}
    (trusted : (requireTrust peer key direction).run context = (.ok ⟨⟩, later)) :
    ProtocolStore.isTrusted context.store peer key direction = .ok true ∧ later = context := by
  simp only [requireTrust] at trusted
  obtain ⟨answer, asked, trusted⟩ := Operation.run_ask_bind_eq_ok trusted
  cases answer with
  | false => cases trusted
  | true =>
      cases trusted
      exact ⟨asked, rfl⟩

theorem run_requireTrust_of_distrusts {key : PublicKey} {direction : Direction}
    (distrusts : ProtocolStore.isTrusted context.store peer key direction = .ok false) :
    (requireTrust peer key direction).run context =
      (.error (.untrustedIdentity peer), context) := by
  simp only [requireTrust]
  rw [Procedure.run_bind, Operation.run_ask, distrusts]
  rfl

/-- Answering makes the session that was asked for, unless the record has it, and
leaves the store alone. -/
theorem answer_eq_ok {record prepared : SessionRecord} {message : PrekeyMessage}
    {used : Option UInt32}
    (answered : (answer suite peer record message).run context = (.ok (used, prepared), later)) :
    later.store = context.store ∧
      (record.hasSession message.version message.baseKey = true ∧ used = none ∧
          prepared = record ∨
        record.hasSession message.version message.baseKey = false ∧ used = message.oneTimeId ∧
          ∃ session, Asks suite peer context.store message session ∧
            prepared = record.promote session) := by
  simp only [answer] at answered
  obtain ⟨_, _, trusted, afterTrust⟩ := Procedure.run_bind_eq_ok answered
  obtain ⟨_, rfl⟩ := requireTrust_eq_ok peer trusted
  by_cases known : record.hasSession message.version message.baseKey = true
  · rw [if_pos known] at afterTrust
    cases afterTrust
    exact ⟨rfl, .inl ⟨known, rfl, rfl⟩⟩
  · rw [if_neg known] at afterTrust
    obtain ⟨signed, _, loadsSigned, afterSigned⟩ := Procedure.run_bind_eq_ok afterTrust
    obtain ⟨hasSigned, rfl⟩ := signedPrekey_eq_ok loadsSigned
    obtain ⟨oneTime, _, loadsOneTime, afterOneTime⟩ := Procedure.run_bind_eq_ok afterSigned
    obtain ⟨hasOneTime, rfl⟩ := mapM_oneTimePrekey_eq_ok loadsOneTime
    obtain ⟨identity, hasIdentity, afterIdentity⟩ := Operation.run_ask_bind_eq_ok afterOneTime
    obtain ⟨session, _, made, done⟩ := Operation.run_attempt_bind_eq_ok afterIdentity
    cases done
    refine ⟨rfl, .inr ⟨Bool.eq_false_iff.mpr known, rfl, session, ?_, rfl⟩⟩
    exact ⟨identity, signed, oneTime, hasIdentity, hasSigned, hasOneTime,
      Session.respond_eq_ok suite made⟩

theorem recordOrFresh_eq_ok {record : SessionRecord}
    (loaded : (recordOrFresh peer).run context = (.ok record, later)) :
    (∃ stored, ProtocolStore.loadRecord context.store peer = .ok stored ∧
      record = stored.getD .fresh) ∧ later = context := by
  simp only [recordOrFresh, record?] at loaded
  obtain ⟨stored, asked, found⟩ := Operation.run_ask_bind_eq_ok loaded
  cases found
  exact ⟨⟨stored, asked, rfl⟩, rfl⟩

/-- When a prekey message is decrypted, the record is written as it comes out of
the message, and the one-time prekey is removed if a session was made. -/
theorem decryptPrekey_eq_ok {message : PrekeyMessage} {receiver : Bytes → Except SessionError Unit}
    {plaintext : Bytes}
    (succeeds : (decryptPrekey suite peer message receiver).run context =
      (.ok plaintext, later)) :
    ∃ stored latter kept, ProtocolStore.loadRecord context.store peer = .ok stored ∧
      ProtocolStore.storeRecord context.store peer latter = .ok kept ∧
      ((stored.getD .fresh).hasSession message.version message.baseKey = true ∧
          (stored.getD .fresh).Received suite message.message plaintext latter ∧
          later.store = kept ∨
        (stored.getD .fresh).hasSession message.version message.baseKey = false ∧
          ∃ session, Asks suite peer context.store message session ∧
            ((stored.getD .fresh).promote session).Received suite message.message plaintext latter ∧
            match message.oneTimeId with
            | none => later.store = kept
            | some id => ProtocolStore.removeOneTime kept id = .ok later.store) := by
  simp only [decryptPrekey] at succeeds
  obtain ⟨former, _, loads, afterLoad⟩ := Procedure.run_bind_eq_ok succeeds
  obtain ⟨⟨stored, loaded, rfl⟩, rfl⟩ := recordOrFresh_eq_ok peer loads
  obtain ⟨⟨used, prepared⟩, answered, answers, afterAnswer⟩ := Procedure.run_bind_eq_ok afterLoad
  obtain ⟨untouched, prepares⟩ := answer_eq_ok suite peer answers
  obtain ⟨⟨text, latter⟩, _, decrypted, afterText⟩ := Operation.run_attempt_bind_eq_ok afterAnswer
  have received := SessionRecord.received_of_run_decrypt suite decrypted
  obtain ⟨_, _, releases, afterRelease⟩ := Procedure.run_bind_eq_ok afterText
  rw [Operation.run_release, Prod.mk.injEq] at releases
  obtain ⟨_, rfl⟩ := releases
  obtain ⟨_, written, writes, afterWrite⟩ := Procedure.run_bind_eq_ok afterRelease
  have kept := Operation.change_eq_ok writes
  refine ⟨stored, latter, written.store, loaded, ?_, ?_⟩
  · rw [← untouched]
    exact kept
  · rcases prepares with ⟨known, rfl, rfl⟩ | ⟨unknown, rfl, session, asked, rfl⟩
    · cases afterWrite
      exact .inl ⟨known, received, rfl⟩
    · cases named : message.oneTimeId with
      | none =>
          rw [named] at afterWrite
          cases afterWrite
          exact .inr ⟨unknown, session, asked, received, rfl⟩
      | some id =>
          rw [named] at afterWrite
          obtain ⟨_, removed, removes, done⟩ := Procedure.run_bind_eq_ok afterWrite
          cases done
          exact .inr ⟨unknown, session, asked, received, Operation.change_eq_ok removes⟩

end

/-- **A session is current after a prekey message only if it authenticated the
message.** It is the session that the message asked for, or one that was in the
record before. A session is made, and its one-time prekey removed, if the record
has none with the base key of the message; should the session that was made
refuse the message, it is archived as it is. -/
theorem decryptPrekey_current {context later : Context MemoryStore} {message : PrekeyMessage}
    {receiver : Bytes → Except SessionError Unit} {plaintext : Bytes}
    (succeeds : (decryptPrekey suite peer message receiver).run context =
      (.ok plaintext, later)) :
    ∃ stored latter session next, context.store.loadRecord peer = .ok stored ∧
      latter.current = some next ∧ session.Authenticates suite message.message ∧
      Session.Received suite session message.message plaintext next ∧
      ((stored.getD .fresh).hasSession message.version message.baseKey = true ∧
          later.store = context.store.storeRecord peer latter ∧
          session ∈ (stored.getD .fresh).sessions ∧
          latter.archived ⊆ (stored.getD .fresh).sessions ∨
        (stored.getD .fresh).hasSession message.version message.baseKey = false ∧
          later.store = (context.store.storeRecord peer latter).withoutOneTime message.oneTimeId ∧
          ∃ made, Asks suite peer context.store message made ∧
            (session = made ∧ next.initiatorBase = some message.baseKey ∧
                latter.archived ⊆ (stored.getD .fresh).sessions ∨
              made.Refuses suite message.message ∧ session ∈ (stored.getD .fresh).sessions ∧
                ∃ others, latter.archived = made :: others ∧
                  others ⊆ (stored.getD .fresh).sessions)) := by
  obtain ⟨stored, latter, kept, loaded, written, outcome⟩ :=
    decryptPrekey_eq_ok suite peer succeeds
  cases written
  rcases outcome with ⟨known, received, same⟩ | ⟨unknown, made, asked, received, ends⟩
  · obtain ⟨session, member, next, current, receives, archived⟩ := received.listed suite
    exact ⟨stored, latter, session, next, loaded, current, receives.authenticates suite, receives,
      .inl ⟨known, same, member, archived⟩⟩
  · have store : later.store =
        (context.store.storeRecord peer latter).withoutOneTime message.oneTimeId := by
      cases named : message.oneTimeId with
      | none =>
          rw [named] at ends
          exact ends
      | some id =>
          rw [named] at ends
          exact (Except.ok.inj ends).symm
    cases received with
    | @current session next stands receives =>
        cases stands
        refine ⟨stored, _, made, next, loaded, rfl, receives.authenticates suite, receives,
          .inr ⟨unknown, store, made, asked, .inl ⟨rfl, ?_, ?_⟩⟩⟩
        · rw [receives.initiatorBase_eq, asked.initiatorBase_eq]
        · exact SessionRecord.archived_promote_subset _ made
    | @archived index session next refused earlier listed receives =>
        have former := SessionRecord.archived_promote_subset (stored.getD .fresh) made
        refine ⟨stored, _, session, next, loaded, rfl, receives.authenticates suite, receives,
          .inr ⟨unknown, store, made, asked, .inr ⟨?_, ?_, _,
            SessionRecord.archived_promoteArchived rfl index next, ?_⟩⟩⟩
        · exact refused made rfl
        · exact former (List.mem_of_getElem? listed)
        · exact List.Subset.trans (List.Subset.trans (List.take_subset _ _)
            (List.eraseIdx_sublist _ _).subset) former

/-! ## A message in another wrapping -/

/-- A session that still has the keys of message 5000. -/
def formerSession : Session where
  storedVersion := 3
  localIdentity := default
  remoteIdentity := default
  root := ⟨.v3, default⟩
  sending := some ⟨default, ⟨.v3, default, 0⟩⟩
  receiving := [⟨default, ⟨.v3, default, 5001⟩, [⟨default, default, default, 5000⟩]⟩]
  initiatorBase := some default

/-- Message 5000 of this session, wrapped as if it were the first of another one. -/
def rewrapped : PrekeyMessage :=
  .make 3 (some 6) 1 ⟨⟨List.replicate 32 9, List.length_replicate⟩⟩
    (.make 3 default default 5000 0 (encryptBody default default [1, 2, 3]) default default)

/-- The store has this record, and the prekeys that the wrapping names. -/
def rewrappedContext (record : SessionRecord) : Context MemoryStore where
  store :=
    { MemoryStore.ofIdentity default with
      oneTimePrekeys := Table.empty.insert 6 ⟨6, default⟩
      signedPrekeys := Table.empty.insert 1 ⟨1, 0, default, []⟩ }.storeRecord default record
  supply := { entropy := .stock (List.replicate 32 0) }

/-- What becomes of the message when the store has this record. -/
def decryptRewrapped (record : SessionRecord) : Except SessionError Bytes × Context MemoryStore :=
  (decryptPrekey Suite.classic default rewrapped fun _ => .ok ()).run (rewrappedContext record)

/-- Who started the sessions of the record that is stored, the current one first. -/
def storedBases (context : Context MemoryStore) : Option (List (Option PublicKey)) :=
  (context.store.loadRecord default).toOption.join.map fun record =>
    record.sessions.map (·.initiatorBase)

theorem decryptRewrapped_eq_ok :
    (decryptRewrapped (.ofSession formerSession)).1.toOption = some [1, 2, 3] := by
  decide +kernel

/-- The session that had the keys becomes current. -/
theorem rewrapped_current :
    ∃ later latter session next,
      decryptRewrapped (.ofSession formerSession) = (.ok [1, 2, 3], later) ∧
      later.store = ((rewrappedContext (.ofSession formerSession)).store.storeRecord default
        latter).withoutOneTime (some 6) ∧
      latter.current = some next ∧ session.Authenticates Suite.classic rewrapped.message ∧
      Session.Received Suite.classic session rewrapped.message [1, 2, 3] next := by
  have opens := decryptRewrapped_eq_ok
  cases run : decryptRewrapped (.ofSession formerSession) with
  | mk outcome later =>
      rw [run] at opens
      cases outcome with
      | error failure => cases opens
      | ok plaintext =>
          cases opens
          obtain ⟨stored, latter, session, next, loaded, current, authenticates, received,
            ⟨known, _⟩ | ⟨_, store, _⟩⟩ := decryptPrekey_current Suite.classic default run
          · have record : ((rewrappedContext (.ofSession formerSession)).store.loadRecord
                default).toOption = some (some (.ofSession formerSession)) := by decide +kernel
            rw [loaded] at record
            cases record
            exact absurd known (by decide)
          · exact ⟨later, latter, session, next, rfl, store, current, authenticates, received⟩

/-- **The session with the base key of a message need not be the current one after
it.** A message of the former session uses up a prekey in another wrapping, and the
session that is made is archived; and when the record has a session with the base
key, the message is still one of the former session. -/
theorem rewrapped_spends_prekey :
    let unknown := SessionRecord.ofSession formerSession
    let known : SessionRecord :=
      ⟨some { formerSession with receiving := [], initiatorBase := some rewrapped.baseKey },
        [formerSession]⟩
    formerSession.initiatorBase ≠ some rewrapped.baseKey ∧
      (PrekeyMessage.parse rewrapped.serialized).toOption = some rewrapped ∧
      (decryptRewrapped unknown).1.toOption = some [1, 2, 3] ∧
      storedBases (decryptRewrapped unknown).2 =
        some [formerSession.initiatorBase, some rewrapped.baseKey] ∧
      (rewrappedContext unknown).store.oneTimePrekeys.contains 6 = true ∧
      (decryptRewrapped unknown).2.store.oneTimePrekeys.contains 6 = false ∧
      (decryptRewrapped known).1.toOption = some [1, 2, 3] ∧
      storedBases (decryptRewrapped known).2 =
        some [formerSession.initiatorBase, some rewrapped.baseKey] := by
  decide +kernel

end Conversation

end Ratchet
