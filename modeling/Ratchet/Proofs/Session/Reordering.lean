import Ratchet.Proofs.Chain.Reordering
import Ratchet.Proofs.Session.Invariant
import Ratchet.Proofs.Session.Sealing

/-!
# The order of messages in a session

Messages of one receiving chain can be decrypted in any order
(`Session.decryptAll_reordered`). All have one ratchet key and one previous
counter, so whichever comes first finds the same chain or turns the ratchet in
the same way, and takes the same from the supply (`Session.chainOf_congr`). From
then on the chain is there, and nothing but this chain changes
(`Session.settled_settled`): two messages that are decrypted one after the
other are decrypted the other way round as well, with the same session in the
end (`Session.Traced.run_decrypt_swap`), because their counters are received in
either order. Every permutation is made of such swaps.
-/

set_option autoImplicit false

namespace Ratchet

namespace ReceivingChain

/-- A chain gives the keys of a counter that its progress receives. -/
theorem Traces.keysAt_of_receive {chain : ReceivingChain} {origin : ChainKey}
    (traces : chain.Traces origin) {counter : UInt32} {next : Progress}
    (received : chain.progress.receive counter = .ok next) :
    chain.keysAt counter =
      .ok (origin.keysOf counter.toNat, tracing chain.ratchetKey origin next) := by
  have given := keysAt_tracing chain.ratchetKey traces.starts traces.sound counter
  rw [← traces.eq_tracing, received] at given
  exact given

/-- Two messages of a chain have the same keys in either order. -/
theorem Traces.keysAt_swap {chain next final : ReceivingChain} {origin : ChainKey}
    (traces : chain.Traces origin) {counter later : UInt32}
    (room : chain.progress.RoomFor counter.toNat) (roomLater : chain.progress.RoomFor later.toNat)
    {keys keysLater : MessageKeys} (given : chain.keysAt counter = .ok (keys, next))
    (givenLater : next.keysAt later = .ok (keysLater, final)) :
    ∃ first, chain.keysAt later = .ok (keysLater, first) ∧
      first.keysAt counter = .ok (keys, final) := by
  obtain ⟨received, rfl, tracesNext⟩ := traces.keysAt given
  obtain ⟨receivedLater, rfl, tracesFinal⟩ := tracesNext.keysAt givenLater
  obtain ⟨progress, receivedFirst, receivedLast⟩ :=
    Progress.receive_swap traces.sound room roomLater received receivedLater
  have sound := traces.sound.receive receivedFirst
  have key : final.ratchetKey = chain.ratchetKey :=
    (ratchetKey_of_keysAt givenLater).trans (ratchetKey_of_keysAt given)
  refine ⟨tracing chain.ratchetKey origin progress, traces.keysAt_of_receive receivedFirst, ?_⟩
  rw [keysAt_tracing _ traces.starts sound, receivedLast, ← key]
  show Except.ok (origin.keysOf counter.toNat, tracing final.ratchetKey origin final.progress) = _
  rw [← tracesFinal.eq_tracing]

end ReceivingChain

namespace Session

/-! ## The session around a chain -/

/-- The session around a chain, once this chain has received a message. -/
def settled (around : Session) (chain : ReceivingChain) : Session :=
  { around.putReceiving chain with pendingPrekey := none }

theorem settled_eq (around : Session) (chain : ReceivingChain) :
    around.settled chain = { around with
      receiving := (around.putReceiving chain).receiving, pendingPrekey := none } := by
  rw [settled, putReceiving_eq]

theorem receivingChain?_settled (around : Session) (chain : ReceivingChain) :
    (around.settled chain).receivingChain? chain.ratchetKey = some chain :=
  around.receivingChain?_putReceiving chain

/-- A chain takes the place of the one it was, and nothing else changes. -/
theorem settled_settled (around : Session) {first second : ReceivingChain}
    (same : second.ratchetKey = first.ratchetKey) :
    (around.settled first).settled second = around.settled second := by
  have chains : (around.settled first).receiving = (around.putReceiving first).receiving := rfl
  rw [settled_eq, receiving_putReceiving_congr chains, putReceiving_putReceiving around same,
    settled_eq, settled_eq]

/-! ## One message -/

variable (suite : Suite)

/-- Only the ratchet key and the previous counter of a message say where it is received. -/
theorem chainOf_congr (session : Session) (sending : SendingChain) {first second : RatchetMessage}
    (sameKey : first.ratchetKey = second.ratchetKey)
    (samePrevious : first.previousCounter = second.previousCounter) :
    session.chainOf suite sending first = session.chainOf suite sending second := by
  simp only [chainOf, turn]
  rw [sameKey, samePrevious]

/-- What it takes to decrypt a message, and what comes of it. -/
theorem run_decrypt_eq_ok_iff {session next : Session} {message : RatchetMessage}
    {supply later : Supply} {plaintext : Bytes} :
    (session.decrypt suite message).run supply = (.ok (plaintext, next), later) ↔
      message.version = session.version ∧ ∃ sending chain around keys left,
        session.sending = some sending ∧
        (session.chainOf suite sending message).run supply = (.ok (chain, around), later) ∧
        chain.keysAt message.counter = .ok (keys, left) ∧
        session.reveal keys message = .ok plaintext ∧ next = around.settled left := by
  constructor
  · intro decrypted
    obtain ⟨speaks, sending, sends⟩ := speaks_of_run_decrypt suite decrypted
    rw [run_decrypt suite sends speaks] at decrypted
    rcases found : (session.chainOf suite sending message).run supply with
      ⟨failure | ⟨chain, around⟩, met⟩
    · rw [found] at decrypted
      cases decrypted
    · rw [found, Prod.mk.injEq] at decrypted
      obtain ⟨received, rfl⟩ := decrypted
      obtain ⟨keys, left, given, opens, settles⟩ := receive_eq_ok received
      exact ⟨speaks, sending, chain, around, keys, left, sends, found, given, opens, settles⟩
  · rintro ⟨speaks, sending, chain, around, keys, left, sends, found, given, opens, rfl⟩
    have received : session.receive around chain message =
        .ok (plaintext, around.settled left) := by
      simp only [receive]
      rw [given]
      show (session.reveal keys message).bind _ = _
      rw [opens]
      rfl
    rw [run_decrypt suite sends speaks, found]
    exact congrArg (·, later) received

/-- The receiving chain of a ratchet key, old or new, can go on to this counter and
keep all keys that it passes. -/
def RoomFor (session : Session) (ratchetKey : PublicKey) (counter : Nat) : Prop :=
  match session.receivingChain? ratchetKey with
  | some chain => chain.skipped.length + (counter - chain.chain.index.toNat) ≤ Limits.skippedKeys
  | none => counter ≤ Limits.skippedKeys

/-- A chain with room for a counter gives room to the session that it is in. -/
theorem roomFor_settled {around : Session} {ratchetKey : PublicKey} {left : ReceivingChain}
    (key : left.ratchetKey = ratchetKey) {counter : Nat} (room : left.progress.RoomFor counter) :
    (around.settled left).RoomFor ratchetKey counter := by
  simp only [RoomFor]
  rw [← key, receivingChain?_settled around left]
  simp only [Progress.RoomFor, ReceivingChain.progress, List.length_map] at room
  exact room

/-- What the chain of a message and the session around it have to do with the session
that the message comes to. -/
structure Hosts (session : Session) (ratchetKey : PublicKey) (around : Session)
    (chain : ReceivingChain) : Prop where
  key : chain.ratchetKey = ratchetKey
  traces : ∃ origin, chain.Traces origin
  sends : around.sending.isSome
  version : around.version = session.version
  localIdentity : around.localIdentity = session.localIdentity
  remoteIdentity : around.remoteIdentity = session.remoteIdentity
  room : ∀ counter, session.RoomFor ratchetKey counter → chain.progress.RoomFor counter

theorem Traced.hosts {chronicle : Chronicle} (traced : Traced chronicle) {sending : SendingChain}
    {message : RatchetMessage} {supply later : Supply} {chain : ReceivingChain} {around : Session}
    (found : (chronicle.session.chainOf suite sending message).run supply =
      (.ok (chain, around), later)) :
    Hosts chronicle.session message.ratchetKey around chain := by
  simp only [chainOf] at found
  cases known : chronicle.session.receivingChain? message.ratchetKey with
  | some old =>
      rw [known] at found
      cases found
      obtain ⟨member, key⟩ := mem_of_receivingChain? known
      obtain ⟨origin, _, traces⟩ := traced.traces chain member
      refine ⟨key, ⟨origin, traces⟩, traced.sends, rfl, rfl, rfl, ?_⟩
      intro counter room
      simp only [RoomFor] at room
      rw [known] at room
      simp only [Progress.RoomFor, ReceivingChain.progress, List.length_map]
      exact room
  | none =>
      rw [known] at found
      dsimp only at found
      rcases run_turn_cases suite chronicle.session sending message supply with
        ⟨ours, left, turned, _⟩ | ⟨error, left, refused⟩
      · rw [turned] at found
        cases found
        refine ⟨rfl, ⟨_, ReceivingChain.traces_new rfl _⟩, rfl, ?_, ?_, ?_, ?_⟩
        · rw [Session.turned, closeLatest_eq]
          rfl
        · rw [Session.turned, closeLatest_eq]
        · rw [Session.turned, closeLatest_eq]
        · intro counter room
          simp only [RoomFor] at room
          rw [known] at room
          exact (Nat.zero_add counter).le.trans room
      · rw [refused] at found
        cases found

section

variable {session around : Session} {ratchetKey : PublicKey} {chain left : ReceivingChain}
  (hosts : session.Hosts ratchetKey around chain) (key : left.ratchetKey = ratchetKey)
include hosts key

/-- A chain that is in its place receives the next message without the supply. -/
theorem Hosts.run_decrypt_settled_iff {message : RatchetMessage}
    (sameKey : message.ratchetKey = ratchetKey) {supply later : Supply} {plaintext : Bytes}
    {final : Session} :
    ((around.settled left).decrypt suite message).run supply = (.ok (plaintext, final), later) ↔
      message.version = session.version ∧ later = supply ∧ ∃ keys rest,
        left.keysAt message.counter = .ok (keys, rest) ∧
        session.reveal keys message = .ok plaintext ∧ final = around.settled rest := by
  have version : (around.settled left).version = session.version := by
    rw [settled_eq]
    exact hosts.version
  have reveals (keys : MessageKeys) :
      (around.settled left).reveal keys message = session.reveal keys message := by
    rw [settled_eq]
    simp only [reveal]
    rw [hosts.localIdentity, hosts.remoteIdentity]
  have known : (around.settled left).receivingChain? message.ratchetKey = some left := by
    rw [sameKey, ← key]
    exact receivingChain?_settled around left
  have found (sending : SendingChain) (supply : Supply) :
      ((around.settled left).chainOf suite sending message).run supply =
        (.ok (left, around.settled left), supply) := by
    simp only [chainOf]
    rw [known]
    rfl
  have again {keys : MessageKeys} {rest : ReceivingChain}
      (given : left.keysAt message.counter = .ok (keys, rest)) :
      (around.settled left).settled rest = around.settled rest :=
    settled_settled around (ReceivingChain.ratchetKey_of_keysAt given)
  rw [run_decrypt_eq_ok_iff, version]
  refine and_congr_right fun speaks => ?_
  constructor
  · rintro ⟨sending, _, _, keys, rest, _, met, given, opens, rfl⟩
    rw [found] at met
    cases met
    rw [reveals] at opens
    exact ⟨rfl, keys, rest, given, opens, again given⟩
  · rintro ⟨rfl, keys, rest, given, opens, rfl⟩
    have sends : (around.settled left).sending.isSome := by
      rw [settled_eq]
      exact hosts.sends
    obtain ⟨sending, sends⟩ := Option.isSome_iff_exists.mp sends
    rw [← reveals] at opens
    exact ⟨sending, left, _, keys, rest, sends, found sending later, given, opens,
      (again given).symm⟩

end

section

variable {chronicle : Chronicle} (traced : Traced chronicle) {first : RatchetMessage}
  {supply met : Supply} {plaintext : Bytes} {next : Session}
  (room : chronicle.session.RoomFor first.ratchetKey first.counter.toNat)
  (decrypted : (chronicle.session.decrypt suite first).run supply = (.ok (plaintext, next), met))
include traced room decrypted

/-- A message that was received takes no room from the others. -/
theorem Traced.roomFor_of_run_decrypt {counter : Nat}
    (roomOther : chronicle.session.RoomFor first.ratchetKey counter) :
    next.RoomFor first.ratchetKey counter := by
  obtain ⟨_, sending, chain, around, keys, left, sends, found, given, _, rfl⟩ :=
    (run_decrypt_eq_ok_iff suite).mp decrypted
  have hosts := traced.hosts suite found
  have key : left.ratchetKey = first.ratchetKey :=
    (ReceivingChain.ratchetKey_of_keysAt given).trans hosts.key
  obtain ⟨origin, traces⟩ := hosts.traces
  apply roomFor_settled key
  exact (hosts.room counter roomOther).receive (hosts.room _ room) (traces.keysAt given).1

/-- **Two messages of a chain that are decrypted are decrypted in either order**, with the
same texts and the same session in the end. -/
theorem Traced.run_decrypt_swap {second : RatchetMessage} {later : Supply} {text : Bytes}
    {final : Session} (sameKey : second.ratchetKey = first.ratchetKey)
    (samePrevious : second.previousCounter = first.previousCounter)
    (roomSecond : chronicle.session.RoomFor first.ratchetKey second.counter.toNat)
    (decryptedSecond : (next.decrypt suite second).run met = (.ok (text, final), later)) :
    ∃ other between, (chronicle.session.decrypt suite second).run supply =
        (.ok (text, other), between) ∧
      (other.decrypt suite first).run between = (.ok (plaintext, final), later) := by
  obtain ⟨speaks, sending, chain, around, keys, left, sends, found, given, opens, rfl⟩ :=
    (run_decrypt_eq_ok_iff suite).mp decrypted
  have hosts := traced.hosts suite found
  have key : left.ratchetKey = first.ratchetKey :=
    (ReceivingChain.ratchetKey_of_keysAt given).trans hosts.key
  obtain ⟨speaksSecond, rfl, keysSecond, rest, givenSecond, opensSecond, rfl⟩ :=
    (hosts.run_decrypt_settled_iff suite key sameKey).mp decryptedSecond
  obtain ⟨origin, traces⟩ := hosts.traces
  obtain ⟨leftSecond, givenBefore, givenAfter⟩ :=
    traces.keysAt_swap (hosts.room _ room) (hosts.room _ roomSecond) given givenSecond
  have keySecond : leftSecond.ratchetKey = first.ratchetKey :=
    (ReceivingChain.ratchetKey_of_keysAt givenBefore).trans hosts.key
  refine ⟨around.settled leftSecond, later, ?_, ?_⟩
  · rw [← chainOf_congr suite _ sending sameKey samePrevious] at found
    exact (run_decrypt_eq_ok_iff suite).mpr ⟨speaksSecond, sending, chain, around, keysSecond,
      leftSecond, sends, found, givenBefore, opensSecond, rfl⟩
  · exact (hosts.run_decrypt_settled_iff suite keySecond rfl).mpr
      ⟨speaks, rfl, keys, rest, givenAfter, opens, rfl⟩

end

/-! ## Many messages -/

/-- Decrypts messages one after another, and gives each with its text. -/
def decryptAll : Session → List RatchetMessage →
    Attempt (List (RatchetMessage × Bytes) × Session)
  | session, [] => return ([], session)
  | session, message :: rest => do
    let (plaintext, next) ← session.decrypt suite message
    let (texts, final) ← decryptAll next rest
    return ((message, plaintext) :: texts, final)

theorem run_decryptAll_nil (session : Session) (supply : Supply) :
    (session.decryptAll suite []).run supply = (.ok ([], session), supply) := rfl

theorem run_decryptAll_cons_iff {session final : Session} {message : RatchetMessage}
    {rest : List RatchetMessage} {supply later : Supply} {texts : List (RatchetMessage × Bytes)} :
    (session.decryptAll suite (message :: rest)).run supply = (.ok (texts, final), later) ↔
      ∃ plaintext next met others,
        (session.decrypt suite message).run supply = (.ok (plaintext, next), met) ∧
        (next.decryptAll suite rest).run met = (.ok (others, final), later) ∧
        texts = (message, plaintext) :: others := by
  simp only [decryptAll]
  constructor
  · intro decrypted
    obtain ⟨⟨plaintext, next⟩, met, first, decrypted⟩ := Procedure.run_bind_eq_ok decrypted
    obtain ⟨⟨others, last⟩, _, second, done⟩ := Procedure.run_bind_eq_ok decrypted
    cases done
    exact ⟨plaintext, next, met, others, first, second, rfl⟩
  · rintro ⟨plaintext, next, met, others, first, second, rfl⟩
    rw [Procedure.run_bind_of_ok first]
    rw [Procedure.run_bind_of_ok second]
    rfl

/-- The texts are those of the messages, in their order. -/
theorem map_fst_of_run_decryptAll {session final : Session} {messages : List RatchetMessage}
    {supply later : Supply} {texts : List (RatchetMessage × Bytes)}
    (decrypted : (session.decryptAll suite messages).run supply = (.ok (texts, final), later)) :
    texts.map Prod.fst = messages := by
  induction messages generalizing session supply texts with
  | nil =>
      cases decrypted
      rfl
  | cons message rest ih =>
      obtain ⟨plaintext, next, met, others, _, decryptedRest, rfl⟩ :=
        (run_decryptAll_cons_iff suite).mp decrypted
      exact congrArg (message :: ·) (ih decryptedRest)

/-- Messages of one chain that can be decrypted in one order can be decrypted in any. -/
theorem Traced.run_decryptAll_of_perm {messages permuted : List RatchetMessage}
    (perm : messages.Perm permuted) {ratchetKey : PublicKey} {previousCounter : UInt32}
    (alike : ∀ message ∈ messages,
      message.ratchetKey = ratchetKey ∧ message.previousCounter = previousCounter)
    {chronicle : Chronicle} (traced : Traced chronicle)
    (room : ∀ message ∈ messages, chronicle.session.RoomFor ratchetKey message.counter.toNat)
    {supply later : Supply} {texts : List (RatchetMessage × Bytes)} {final : Session}
    (decrypted : (chronicle.session.decryptAll suite messages).run supply =
      (.ok (texts, final), later)) :
    ∃ others, (chronicle.session.decryptAll suite permuted).run supply =
      (.ok (others, final), later) ∧ others.Perm texts := by
  induction perm generalizing chronicle supply texts with
  | nil => exact ⟨texts, decrypted, .refl _⟩
  | @cons message before after _ ih =>
      obtain ⟨plaintext, next, met, rest, first, decryptedRest, rfl⟩ :=
        (run_decryptAll_cons_iff suite).mp decrypted
      obtain ⟨rfl, _⟩ := alike message List.mem_cons_self
      have called : (chronicle.call suite (.decrypt message supply)).session = next :=
        call_of_decrypt suite first
      have roomRest : ∀ other ∈ before, next.RoomFor message.ratchetKey other.counter.toNat :=
        fun other member => traced.roomFor_of_run_decrypt suite (room message List.mem_cons_self)
          first (room other (List.mem_cons_of_mem _ member))
      have tracedNext := traced.call suite (.decrypt message supply)
      rw [← called] at decryptedRest roomRest
      obtain ⟨others, decryptedOthers, same⟩ :=
        ih (fun other member => alike other (List.mem_cons_of_mem _ member)) tracedNext roomRest
          decryptedRest
      rw [called] at decryptedOthers
      exact ⟨_, (run_decryptAll_cons_iff suite).mpr
        ⟨plaintext, next, met, others, first, decryptedOthers, rfl⟩, same.cons _⟩
  | swap second first rest =>
      obtain ⟨plaintext, next, met, _, decryptedFirst, decryptedOthers, rfl⟩ :=
        (run_decryptAll_cons_iff suite).mp decrypted
      obtain ⟨text, after, between, others, decryptedSecond, decryptedRest, rfl⟩ :=
        (run_decryptAll_cons_iff suite).mp decryptedOthers
      have firstMember : first ∈ first :: second :: rest := List.mem_cons_self
      have secondMember : second ∈ first :: second :: rest :=
        List.mem_cons_of_mem _ List.mem_cons_self
      obtain ⟨rfl, samePrevious⟩ := alike first firstMember
      obtain ⟨sameKey, samePreviousSecond⟩ := alike second secondMember
      obtain ⟨other, left, decryptedEarlier, decryptedLater⟩ :=
        traced.run_decrypt_swap suite (room first firstMember) decryptedFirst sameKey
          (samePreviousSecond.trans samePrevious.symm) (room second secondMember) decryptedSecond
      exact ⟨_, (run_decryptAll_cons_iff suite).mpr ⟨text, other, left, _, decryptedEarlier,
        (run_decryptAll_cons_iff suite).mpr
          ⟨plaintext, after, between, others, decryptedLater, decryptedRest, rfl⟩, rfl⟩,
        .swap _ _ _⟩
  | trans firstPerm _ firstHypothesis secondHypothesis =>
      obtain ⟨middle, decryptedMiddle, sameMiddle⟩ :=
        firstHypothesis alike traced room decrypted
      obtain ⟨others, decryptedOthers, same⟩ := secondHypothesis
        (fun message member => alike message (firstPerm.mem_iff.mpr member)) traced
        (fun message member => room message (firstPerm.mem_iff.mpr member)) decryptedMiddle
      exact ⟨others, decryptedOthers, same.trans sameMiddle⟩

/-- **The order in which the messages of a chain arrive does not matter.** Messages of one
ratchet key and previous counter that are decrypted in one order are decrypted in
every order, each with the same text and from the same supply, and with the same
session in the end, as long as the chain has room for all keys that it passes. -/
theorem decryptAll_reordered {start : Session} (opened : start.Opened suite) (calls : List Call)
    {messages permuted : List RatchetMessage} (perm : permuted.Perm messages)
    {ratchetKey : PublicKey} {previousCounter : UInt32}
    (alike : ∀ message ∈ messages,
      message.ratchetKey = ratchetKey ∧ message.previousCounter = previousCounter)
    (room : ∀ message ∈ messages,
      (start.after suite calls).RoomFor ratchetKey message.counter.toNat)
    {supply later : Supply} {texts : List (RatchetMessage × Bytes)} {final : Session}
    (decrypted : ((start.after suite calls).decryptAll suite messages).run supply =
      (.ok (texts, final), later)) :
    ∃ others, ((start.after suite calls).decryptAll suite permuted).run supply =
        (.ok (others, final), later) ∧
      others.map Prod.fst = permuted ∧ others.Perm texts := by
  have traced := (opened.traced suite).after suite calls
  have session :
      ((Chronicle.start start).after suite calls).session = start.after suite calls :=
    Chronicle.session_after suite (.start start) calls
  rw [← session] at room decrypted ⊢
  obtain ⟨others, decryptedOthers, same⟩ :=
    traced.run_decryptAll_of_perm suite perm.symm alike room decrypted
  exact ⟨others, decryptedOthers, map_fst_of_run_decryptAll suite decryptedOthers, same⟩

/-- An initiator that has received nothing yet. -/
theorem exists_opened_awaiting :
    ∃ (start : Session) (origin : ChainKey), start.Opened Suite.classic ∧
      origin.index = 0 ∧ start.version = 3 ∧ start.sending.isSome ∧ start.Distinct ∧
      start.receivingChain? default = some (.tracing default origin .start) := by
  let terms : InitiatorTerms := ⟨default, default, default, default, none, default⟩
  obtain ⟨ratchet, later, _, _, made⟩ :=
    run_initiate_of_lasts Suite.classic (Supply.lasts_zeros 1) terms
  refine ⟨_, (Handshake.derive (terms.secrets Suite.classic)).2, .initiated made, rfl, rfl, rfl,
    List.nodup_singleton _, ?_⟩
  rw [ReceivingChain.tracing_start]
  rfl

/-- The first two messages of a responder, received by the initiator in either order. -/
theorem two_messages_reordered :
    ∃ (start final : Session) (first second : RatchetMessage) (supply : Supply),
      start.Opened Suite.classic ∧ first ≠ second ∧
      (start.decryptAll Suite.classic [first, second]).run supply =
        (.ok ([(first, [1, 2, 3]), (second, [4])], final), supply) ∧
      ∃ others, (start.decryptAll Suite.classic [second, first]).run supply =
          (.ok (others, final), supply) ∧
        others.Perm [(first, [1, 2, 3]), (second, [4])] := by
  obtain ⟨start, origin, opened, starts, version, sends, distinct, known⟩ := exists_opened_awaiting
  let sender : Session := {
    storedVersion := 3
    localIdentity := start.remoteIdentity
    remoteIdentity := start.localIdentity
    root := ⟨.v3, default⟩ }
  let first := sender.sealed ⟨default, origin⟩ [1, 2, 3]
  let second := sender.sealed ⟨default, origin.ahead 1⟩ [4]
  have counter : first.counter = 0 := starts
  have counterSecond : second.counter = 1 := ChainKey.index_ahead starts 1
  let between : Progress := ⟨1, Progress.start.keeping 0⟩
  have admitted : Progress.start.receive (.ofNat 0) = .ok between := rfl
  have admittedSecond : between.receive (.ofNat 1) = .ok ⟨2, between.keeping 1⟩ := rfl
  let next := start.settled (.tracing default origin between)
  obtain ⟨sending, sends⟩ := Option.isSome_iff_exists.mp sends
  have decrypted : (start.decrypt Suite.classic first).run (.zeros 0) =
      (.ok ([1, 2, 3], next), .zeros 0) := by
    rw [run_decrypt_known Suite.classic sends version.symm known]
    exact congrArg (·, _)
      (receive_sealed rfl rfl starts .start (by decide) rfl admitted start default [1, 2, 3])
  have same : next = { start with receiving := next.receiving, pendingPrekey := none } :=
    settled_eq start _
  have decryptedSecond : (next.decrypt Suite.classic second).run (.zeros 0) =
      (.ok ([4], next.settled (.tracing default origin ⟨2, between.keeping 1⟩)), .zeros 0) := by
    have sendsNext : next.sending = some sending := (congrArg (·.sending) same).trans sends
    have speaks : second.version = next.version :=
      version.symm.trans (congrArg Session.version same).symm
    rw [run_decrypt_known Suite.classic sendsNext speaks (receivingChain?_settled start _)]
    exact congrArg (·, _) (receive_sealed (congrArg (·.remoteIdentity) same)
      (congrArg (·.localIdentity) same) starts (Progress.Sound.start.receive admitted) (by decide)
      rfl admittedSecond next default [4])
  have both : (start.decryptAll Suite.classic [first, second]).run (.zeros 0) = _ :=
    (run_decryptAll_cons_iff Suite.classic).mpr ⟨_, _, _, _, decrypted,
      (run_decryptAll_cons_iff Suite.classic).mpr
        ⟨_, _, _, _, decryptedSecond, run_decryptAll_nil Suite.classic _ _, rfl⟩, rfl⟩
  have alike : ∀ message ∈ [first, second],
      message.ratchetKey = default ∧ message.previousCounter = 0 := by
    intro message member
    rcases List.mem_pair.mp member with rfl | rfl
    · exact ⟨rfl, rfl⟩
    · exact ⟨rfl, rfl⟩
  have room : ∀ message ∈ [first, second],
      (start.after Suite.classic []).RoomFor default message.counter.toNat := by
    intro message member
    show start.RoomFor default message.counter.toNat
    simp only [RoomFor]
    rw [known]
    show 0 + (message.counter.toNat - origin.index.toNat) ≤ Limits.skippedKeys
    rw [starts]
    rcases List.mem_pair.mp member with rfl | rfl
    · rw [counter]
      decide
    · rw [counterSecond]
      decide
  obtain ⟨others, reordered, _, perm⟩ :=
    decryptAll_reordered Suite.classic opened [] (.swap first second []) alike room both
  have differs : first ≠ second := by
    intro equal
    rw [equal, counterSecond] at counter
    cases counter
  exact ⟨start, _, first, second, _, opened, differs, both, others, reordered, perm⟩

end Session

end Ratchet
