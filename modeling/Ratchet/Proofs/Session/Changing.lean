import Ratchet.Proofs.Session.Invariant
import Ratchet.Proofs.Session.Sending

/-!
# What a decrypted message changes

Whatever message a session decrypts, its version, both identities, the base key that
names it and an exchange under way stay, and nothing is pending any more for the peer
to answer (`Session.Endures`).

The rest depends on the ratchet key of the message. If its chain is there, this chain
gives the keys and stays in its place; everything else is as it was, the supply included
(`Session.Continues`). If the key is new, the session turns (`Session.Turns`): one pair is
generated, two turns of the root give the new receiving chain and the new sending chain,
the newest of the old chains is closed, and the oldest is dropped if there were as many
as a session keeps.

Agreeing on a secret takes nothing that generating needs, so the pair is the one the
supply would have given at once (`Session.turn_eq_ok`).
-/

set_option autoImplicit false

namespace Ratchet

namespace Session

/-! ## What turning takes -/

variable (suite : Suite)

/-- A session turns around the pair that its supply gives. -/
theorem turn_eq_ok {session : Session} {sending : SendingChain} {message : RatchetMessage}
    {supply later : Supply} {made : ReceivingChain × Session}
    (turns : (session.turn suite sending message).run supply = (.ok made, later)) :
    ∃ ours, (suite.generate.run supply).1 = .ok ours ∧
      later.entropy = (suite.generate.run supply).2.entropy ∧
      made = (session.opened suite sending message.ratchetKey,
        session.turned suite sending message ours) := by
  simp only [turn] at turns
  obtain ⟨first, agreed, firstTurn, afterFirst⟩ := Procedure.run_bind_eq_ok turns
  obtain ⟨ours, generated, generates, afterPair⟩ := Procedure.run_bind_eq_ok afterFirst
  obtain ⟨second, left, secondTurn, done⟩ := Procedure.run_bind_eq_ok afterPair
  obtain ⟨entropy, generation⟩ := suite.turn_takes firstTurn
  obtain ⟨same, source⟩ := suite.run_generate_congr entropy generation
  rw [generates] at same source
  refine ⟨ours, same.symm, ?_, ?_⟩
  · cases done
    exact (suite.turn_takes secondTurn).1.trans source
  · rw [suite.turn_eq_ok firstTurn] at secondTurn done
    rw [suite.turn_eq_ok secondTurn] at done
    cases done
    rfl

/-! ## What becomes of the chains -/

/-- The receiving chains, the newest of them closed at a counter. -/
def closing (session : Session) (counter : UInt32) : List ReceivingChain :=
  session.receiving.dropLast ++ (session.receiving.getLast?.map (·.skipTo counter)).toList

theorem length_closing (session : Session) (counter : UInt32) :
    (session.closing counter).length = session.receiving.length := by
  rw [closing]
  cases session.receiving using List.reverseRecOn with
  | nil => rfl
  | append_singleton front newest =>
      rw [List.dropLast_concat, List.getLast?_concat, List.length_append, List.length_append]
      rfl

section

variable {session : Session}

/-- Closing the latest chain changes no other. -/
theorem receiving_closeLatest_eq (distinct : session.Distinct) (counter : UInt32) :
    (session.closeLatest counter).receiving = session.closing counter := by
  rw [receiving_closeLatest distinct, closing, latestRatchetKey?]
  rw [Distinct] at distinct
  generalize session.receiving = chains at distinct
  cases chains using List.reverseRecOn with
  | nil => rfl
  | append_singleton front newest =>
      rw [List.map_append, List.map_singleton] at distinct
      have others : ∀ chain ∈ front, ¬ some chain.ratchetKey = some newest.ratchetKey := by
        intro chain member same
        have apart := List.disjoint_of_nodup_append distinct (List.mem_map_of_mem member)
        exact apart (List.mem_singleton.mpr (Option.some.inj same))
      rw [List.getLast?_concat, List.dropLast_concat, List.map_append, List.map_singleton,
        Option.map_some, if_pos rfl,
        List.map_congr_left fun chain member => if_neg (others chain member), List.map_id']
      rfl

/-- A session that turns around a message drops the oldest chains beyond the limit. -/
theorem receiving_putReceiving_turned (distinct : session.Distinct) (sending : SendingChain)
    (ours : KeyPair) {message : RatchetMessage} {left : ReceivingChain}
    (key : left.ratchetKey = message.ratchetKey)
    (absent : session.receivingChain? message.ratchetKey = none) :
    ((session.turned suite sending message ours).putReceiving left).receiving =
      lastOf Limits.receivingChains (session.closing message.previousCounter ++ [left]) := by
  have old : (session.turned suite sending message ours).receiving =
      session.closing message.previousCounter := receiving_closeLatest_eq distinct _
  rw [← key] at absent
  rw [receiving_putReceiving_of_none
    (receivingChain?_turned suite sending message ours absent), old]

end

end Session

/-- What has become of a new chain that has given the keys of a message: the keys of all
messages before are kept. -/
theorem ReceivingChain.keysAt_new {ratchetKey : PublicKey} {origin : ChainKey}
    (starts : origin.index = 0) {counter : UInt32} {keys : MessageKeys} {left : ReceivingChain}
    (given : ReceivingChain.keysAt ⟨ratchetKey, origin, []⟩ counter = .ok (keys, left)) :
    counter.toNat ≤ Limits.futureMessages ∧ keys = origin.keysOf counter.toNat ∧
      left = ⟨ratchetKey, origin.ahead (counter.toNat + 1),
        (List.range counter.toNat).map origin.keysOf⟩ := by
  have key := ratchetKey_of_keysAt given
  obtain ⟨received, genuine, traces⟩ := (traces_new starts ratchetKey).keysAt given
  have new : ReceivingChain.progress ⟨ratchetKey, origin, []⟩ = .start :=
    progress_tracing starts .start ratchetKey
  rw [new] at received
  rcases Progress.receive_cases received with ⟨before, _, _⟩ | ⟨_, _, near, reached⟩
  · exact absurd before (Nat.not_lt_zero _)
  · have room : Progress.start.RoomFor counter.toNat := (Nat.zero_add _).trans_le near
    refine ⟨near, genuine, ?_⟩
    rw [traces.eq_tracing, key, reached, room.keeping_eq, tracing, List.range_eq_range']
    rfl

namespace Session

/-! ## What changes -/

/-- What no message that is decrypted changes; and no answer is pending any more. -/
structure Endures (session next : Session) : Prop where
  storedVersion : next.storedVersion = session.storedVersion
  localIdentity : next.localIdentity = session.localIdentity
  remoteIdentity : next.remoteIdentity = session.remoteIdentity
  initiatorBase : next.initiatorBase = session.initiatorBase
  pendingExchange : next.pendingExchange = session.pendingExchange
  answered : next.pendingPrekey = none

/-- What a message changes whose chain is there: this chain, in its place. -/
structure Continues (session next : Session) (message : RatchetMessage) : Prop where
  root : next.root = session.root
  sending : next.sending = session.sending
  previousCounter : next.previousCounter = session.previousCounter
  receiving : ∃ front chain back keys left,
    session.receiving = front ++ chain :: back ∧ next.receiving = front ++ left :: back ∧
    chain.ratchetKey = message.ratchetKey ∧ left.ratchetKey = message.ratchetKey ∧
    chain.keysAt message.counter = .ok (keys, left)

/-- What a message changes whose ratchet key is new, when the old chain for sending is
`sending`, the pair that is generated is `ours`, and the root turns twice. -/
structure Turns (suite : Suite) (session next : Session) (message : RatchetMessage)
    (sending : SendingChain) (ours : KeyPair) (first second : RootKey × ChainKey) : Prop where
  sent : session.sending = some sending
  turnsOnce : first = session.root.turn (suite.agree sending.ratchet.privateKey message.ratchetKey)
  turnsAgain : second = first.1.turn (suite.agree ours.privateKey message.ratchetKey)
  root : next.root = second.1
  sends : next.sending = some ⟨ours, second.2⟩
  begins : second.2.index = 0
  previousCounter : next.previousCounter = sending.chain.index
  receiving : next.receiving =
    (if session.receiving.length = Limits.receivingChains then
      (session.closing message.previousCounter).tail
    else session.closing message.previousCounter) ++
    [⟨message.ratchetKey, first.2.ahead (message.counter.toNat + 1),
      (List.range message.counter.toNat).map first.2.keysOf⟩]

variable {suite : Suite} {session next : Session} {message : RatchetMessage} {plaintext : Bytes}
  {supply later : Supply}

theorem Received.endures (received : Received suite session message plaintext next) :
    session.Endures next := by
  cases received with
  | known found given opens =>
      rw [putReceiving_eq]
      exact ⟨rfl, rfl, rfl, rfl, rfl, rfl⟩
  | new sends absent given opens =>
      rw [putReceiving_eq, turned, closeLatest_eq]
      exact ⟨rfl, rfl, rfl, rfl, rfl, rfl⟩

/-- A message whose chain is there takes nothing from the supply. -/
theorem continues_of_run_decrypt
    (known : message.ratchetKey ∈ session.receiving.map (·.ratchetKey))
    (decrypted : (session.decrypt suite message).run supply = (.ok (plaintext, next), later)) :
    later = supply ∧ session.Continues next message := by
  obtain ⟨speaks, sending, sends⟩ := speaks_of_run_decrypt suite decrypted
  cases found : session.receivingChain? message.ratchetKey with
  | none => exact absurd known (receivingChain?_eq_none_iff.mp found)
  | some chain =>
      rw [run_decrypt_known suite sends speaks found, Prod.mk.injEq] at decrypted
      obtain ⟨keys, left, given, _, rfl⟩ := receive_eq_ok decrypted.1
      have key := (mem_of_receivingChain? found).2
      have leftKey := (ReceivingChain.ratchetKey_of_keysAt given).trans key
      obtain ⟨front, back, _, before, after⟩ := receiving_putReceiving_split found
      refine ⟨decrypted.2.symm, ?_⟩
      rw [putReceiving_eq]
      exact ⟨rfl, rfl, rfl, front, chain, back, keys, left, before, after left leftKey, key,
        leftKey, given⟩

/-- A message with a new ratchet key takes one pair from the supply. -/
theorem turns_of_run_decrypt (few : session.receiving.length ≤ Limits.receivingChains)
    (distinct : session.Distinct)
    (new : message.ratchetKey ∉ session.receiving.map (·.ratchetKey))
    (decrypted : (session.decrypt suite message).run supply = (.ok (plaintext, next), later)) :
    ∃ sending ours first second, session.Turns suite next message sending ours first second ∧
      (suite.generate.run supply).1 = .ok ours ∧
      later.entropy = (suite.generate.run supply).2.entropy := by
  obtain ⟨speaks, sending, sends⟩ := speaks_of_run_decrypt suite decrypted
  have absent := receivingChain?_eq_none_iff.mpr new
  rw [run_decrypt suite sends speaks, chainOf, absent] at decrypted
  dsimp only at decrypted
  cases ran : (session.turn suite sending message).run supply with
  | mk outcome after =>
      rw [ran] at decrypted
      cases outcome with
      | error failure => cases decrypted
      | ok made =>
          obtain ⟨ours, generated, entropy, rfl⟩ := turn_eq_ok suite ran
          obtain ⟨received, rfl⟩ := Prod.mk.inj decrypted
          obtain ⟨keys, left, given, _, rfl⟩ := receive_eq_ok received
          obtain ⟨_, _, form⟩ := ReceivingChain.keysAt_new rfl given
          have receiving := receiving_putReceiving_turned suite distinct sending ours
            (ReceivingChain.ratchetKey_of_keysAt given) absent
          have room := (length_closing session message.previousCounter).trans_le few
          rw [lastOf_append_singleton room (by decide), length_closing] at receiving
          subst form
          let first := session.root.turn
            (suite.agree sending.ratchet.privateKey message.ratchetKey)
          refine ⟨sending, ours, first,
            first.1.turn (suite.agree ours.privateKey message.ratchetKey), ?_, generated, entropy⟩
          rw [putReceiving_eq, turned]
          exact {
            sent := sends
            turnsOnce := rfl
            turnsAgain := rfl
            root := rfl
            sends := rfl
            begins := rfl
            previousCounter := rfl
            receiving := receiving }

/-- **What a decrypted message changes.** A message whose chain is there changes this chain
in its place and takes nothing from the supply; a message with a new ratchet key turns the
session around one pair from the supply. All the rest stays. -/
theorem decrypt_changes (suite : Suite) {session next : Session}
    (few : session.receiving.length ≤ Limits.receivingChains) (distinct : session.Distinct)
    {message : RatchetMessage} {plaintext : Bytes} {supply later : Supply}
    (decrypted : (session.decrypt suite message).run supply = (.ok (plaintext, next), later)) :
    session.Endures next ∧
    (message.ratchetKey ∈ session.receiving.map (·.ratchetKey) →
      later = supply ∧ session.Continues next message) ∧
    (message.ratchetKey ∉ session.receiving.map (·.ratchetKey) →
      ∃ sending ours first second, session.Turns suite next message sending ours first second ∧
        (suite.generate.run supply).1 = .ok ours ∧
        later.entropy = (suite.generate.run supply).2.entropy) := by
  refine ⟨(received_of_run_decrypt suite decrypted).endures, ?_, ?_⟩
  · intro known
    exact continues_of_run_decrypt known decrypted
  · intro new
    exact turns_of_run_decrypt few distinct new decrypted

/-! ## A full session that turns -/

/-- A session with as many receiving chains as there may be, four messages into its own chain. -/
def sampleFull : Session where
  storedVersion := 3
  localIdentity := ⟨.replicate 32 10⟩
  remoteIdentity := ⟨.replicate 32 20⟩
  root := ⟨.v3, default⟩
  sending := some ⟨default, ⟨.v3, default, 4⟩⟩
  receiving := [1, 2, 3, 4, 5].map fun byte =>
    ⟨⟨.replicate 32 byte⟩, ⟨.v3, .replicate 32 byte, 0⟩, []⟩
  pendingPrekey := some ⟨none, 1, default⟩

/-- Its peer, with two messages on its previous chain. -/
def sampleOther : Session :=
  { sampleFull with
    localIdentity := sampleFull.remoteIdentity
    remoteIdentity := sampleFull.localIdentity
    previousCounter := 2 }

/-- The first message on a new chain of the peer. -/
def sampleFirst : RatchetMessage :=
  sampleOther.sealed ⟨sampleRatchet, (sampleFull.opened Suite.classic
    ⟨default, ⟨.v3, default, 4⟩⟩ sampleRatchet.publicKey).chain⟩ [1, 2, 3]

theorem distinct_sampleFull : sampleFull.Distinct := by
  rw [Distinct]
  decide

theorem absent_sampleFirst : sampleFull.receivingChain? sampleFirst.ratchetKey = none := by
  decide

theorem run_decrypt_sampleFirst :
    ∃ next later, (sampleFull.decrypt Suite.classic sampleFirst).run (.zeros 1) =
      (.ok ([1, 2, 3], next), later) := by
  have source : sampleFull.remoteIdentity = sampleOther.localIdentity := rfl
  obtain ⟨_, later, next, _, _, decrypted, _⟩ :=
    run_decrypt_sealed_of_lasts Suite.classic source rfl rfl rfl absent_sampleFirst
      (Supply.lasts_zeros 1) [1, 2, 3]
  exact ⟨next, later, decrypted⟩

/-- A full session turns around a message, and drops the oldest of its chains. -/
theorem full_session_turns :
    sampleFull.receiving.length = Limits.receivingChains ∧ sampleFull.Distinct ∧
    ∃ next later sending ours first second,
      (sampleFull.decrypt Suite.classic sampleFirst).run (.zeros 1) =
        (.ok ([1, 2, 3], next), later) ∧
      sampleFull.Turns Suite.classic next sampleFirst sending ours first second ∧
      next.receiving.map (·.ratchetKey.octets) = [2, 3, 4, 5, 9].map (.replicate 32) ∧
      next.receiving.map (·.chain.index) = [0, 0, 0, 2, 1] := by
  obtain ⟨next, later, decrypted⟩ := run_decrypt_sampleFirst
  obtain ⟨_, _, turns⟩ :=
    decrypt_changes Suite.classic (Nat.le_refl _) distinct_sampleFull decrypted
  obtain ⟨sending, ours, first, second, turned, _⟩ :=
    turns (receivingChain?_eq_none_iff.mp absent_sampleFirst)
  refine ⟨rfl, distinct_sampleFull, next, later, sending, ours, first, second, decrypted, turned,
    ?_, ?_⟩
  · rw [turned.receiving]
    rfl
  · rw [turned.receiving, turned.turnsOnce]
    rfl

end Session

end Ratchet
