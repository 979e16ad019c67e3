import Ratchet.Proofs.Chain.Tracing
import Ratchet.Proofs.Session.Forging

/-!
# What every session keeps

However a session is called, and whatever it is sent, it can send; it receives
on at most five chains with distinct ratchet keys; and each of these follows
from the chain key it was made with: its position is that many steps behind it,
and the keys it keeps are those of ascending counters before the position, at
most two thousand of them (`Session.WellFormed`, `ReceivingChain.Follows`).

A chain follows from its origin because it traces it (`ReceivingChain.Traces`).
A message can do three things to a chain: nothing, close it, or take keys from
it (`ReceivingChain.Moves`), and each of them is a move of the chain's progress.
-/

set_option autoImplicit false

namespace Ratchet

namespace ReceivingChain

/-- What a chain has to do with the chain key it was made with. -/
structure Follows (chain : ReceivingChain) (origin : ChainKey) : Prop where
  starts : origin.index = 0
  position : origin.advance? chain.chain.index.toNat = some chain.chain
  bounded : chain.skipped.length ≤ Limits.skippedKeys
  ascending : (chain.skipped.map (·.counter)).Pairwise (· < ·)
  behind : ∀ keys ∈ chain.skipped, keys.counter < chain.chain.index
  genuine : ∀ keys ∈ chain.skipped,
    (origin.advance? keys.counter.toNat).map ChainKey.messageKeys = some keys

/-- How far a chain has come, as it can be read off the chain. -/
def progress (chain : ReceivingChain) : Progress where
  reached := chain.chain.index.toNat
  kept := chain.skipped.map (·.counter.toNat)

/-- The chain is its progress along the positions of a chain key. -/
structure Traces (chain : ReceivingChain) (origin : ChainKey) : Prop where
  starts : origin.index = 0
  sound : chain.progress.Sound
  eq_tracing : chain = tracing chain.ratchetKey origin chain.progress

/-- What a message can do to a receiving chain. -/
inductive Moves (chain : ReceivingChain) : ReceivingChain → Prop where
  | stays : Moves chain chain
  | closes (counter : UInt32) : Moves chain (chain.skipTo counter)
  | gives {counter : UInt32} {keys : MessageKeys} {next : ReceivingChain}
      (given : chain.keysAt counter = .ok (keys, next)) : Moves chain next

theorem Moves.ratchetKey_eq {chain next : ReceivingChain} (moves : chain.Moves next) :
    next.ratchetKey = chain.ratchetKey := by
  cases moves with
  | stays => rfl
  | closes counter => exact ratchetKey_skipTo _ _
  | gives given => exact ratchetKey_of_keysAt given

/-! ## Tracing an origin -/

/-- The progress of a tracing chain is the progress it was given. -/
theorem progress_tracing {origin : ChainKey} (starts : origin.index = 0) {progress : Progress}
    (sound : progress.Sound) (ratchetKey : PublicKey) :
    (tracing ratchetKey origin progress).progress = progress := by
  have counters : (progress.kept.map origin.keysOf).map (·.counter.toNat) = progress.kept := by
    rw [List.map_map]
    refine (List.map_congr_left fun counter member => ?_).trans (List.map_id' _)
    have fits := (sound.behind counter member).trans sound.fits
    exact ((ChainKey.counter_keysOf_eq_iff starts fits).mp rfl).symm
  simp only [ReceivingChain.progress]
  rw [toNat_index_tracing ratchetKey starts sound]
  exact congrArg (Progress.mk progress.reached) counters

theorem traces_tracing {origin : ChainKey} (starts : origin.index = 0) {progress : Progress}
    (sound : progress.Sound) (ratchetKey : PublicKey) :
    (tracing ratchetKey origin progress).Traces origin := by
  have same := progress_tracing starts sound ratchetKey
  refine ⟨starts, ?_, ?_⟩
  · rw [same]
    exact sound
  · rw [same]
    rfl

/-- A chain of which nothing has been received traces its own chain key. -/
theorem traces_new {origin : ChainKey} (starts : origin.index = 0) (ratchetKey : PublicKey) :
    Traces ⟨ratchetKey, origin, []⟩ origin :=
  traces_tracing starts .start ratchetKey

/-- A chain that gives keys out makes the corresponding move of its progress. -/
theorem Traces.keysAt {chain next : ReceivingChain} {origin : ChainKey}
    (traces : chain.Traces origin) {counter : UInt32} {keys : MessageKeys}
    (given : chain.keysAt counter = .ok (keys, next)) :
    chain.progress.receive counter = .ok next.progress ∧ keys = origin.keysOf counter.toNat ∧
      next.Traces origin := by
  rw [traces.eq_tracing, keysAt_tracing _ traces.starts traces.sound] at given
  cases received : chain.progress.receive counter with
  | error failure =>
      rw [received] at given
      cases given
  | ok after =>
      rw [received] at given
      cases given
      have sound := traces.sound.receive received
      rw [progress_tracing traces.starts sound]
      exact ⟨rfl, rfl, traces_tracing traces.starts sound _⟩

theorem Traces.skipTo {chain : ReceivingChain} {origin : ChainKey} (traces : chain.Traces origin)
    (counter : UInt32) :
    (chain.skipTo counter).progress = chain.progress.skipTo counter ∧
      (chain.skipTo counter).Traces origin := by
  have sound := traces.sound.skipTo counter
  have moved := skipTo_tracing chain.ratchetKey traces.starts traces.sound counter
  rw [← traces.eq_tracing] at moved
  rw [moved]
  exact ⟨progress_tracing traces.starts sound _, traces_tracing traces.starts sound _⟩

/-- **Whatever a message does to a chain, the chain traces the same origin.** -/
theorem Traces.moves {chain next : ReceivingChain} {origin : ChainKey}
    (traces : chain.Traces origin) (moves : chain.Moves next) : next.Traces origin := by
  cases moves with
  | stays => exact traces
  | closes counter => exact (traces.skipTo counter).2
  | gives given => exact (traces.keysAt given).2.2

/-- A chain that traces an origin follows from it. -/
theorem Traces.follows {chain : ReceivingChain} {origin : ChainKey}
    (traces : chain.Traces origin) : chain.Follows origin := by
  obtain ⟨starts, sound, eq_tracing⟩ := traces
  have small : ∀ keys ∈ chain.skipped, keys.counter.toNat < chain.progress.reached :=
    fun keys member => sound.behind _ (List.mem_map_of_mem member)
  refine ⟨starts, ?_, ?_, ?_, small, ?_⟩
  · show origin.advance? chain.progress.reached = some chain.chain
    rw [ChainKey.advance?_eq_ahead starts sound.fits]
    exact congrArg (some ·.chain) eq_tracing.symm
  · exact (List.length_map _).symm.trans_le sound.bounded
  · have ascending := sound.ascending
    rw [progress, List.pairwise_map] at ascending
    rw [List.pairwise_map]
    exact ascending
  · intro keys member
    have kept : chain.skipped = chain.progress.kept.map origin.keysOf :=
      congrArg ReceivingChain.skipped eq_tracing
    rw [kept, List.mem_map] at member
    obtain ⟨counter, counterMember, rfl⟩ := member
    have fits := (sound.behind counter counterMember).trans sound.fits
    rw [← (ChainKey.counter_keysOf_eq_iff starts fits).mp rfl,
      ChainKey.advance?_eq_ahead starts fits]
    rfl

end ReceivingChain

namespace Session

variable (suite : Suite)

/-- What every session keeps, `origin` being what its chains were made with. -/
structure WellFormed (session : Session) (origin : PublicKey → Option ChainKey) : Prop where
  sends : session.sending.isSome
  few : session.receiving.length ≤ Limits.receivingChains
  distinct : (session.receiving.map (·.ratchetKey)).Nodup
  follow : ∀ chain ∈ session.receiving,
    ∃ first, origin chain.ratchetKey = some first ∧ chain.Follows first

/-! ## What a message does to the chains -/

theorem Distinct.turned {session : Session} (distinct : session.Distinct)
    (sending : SendingChain) (message : RatchetMessage) (ours : KeyPair) :
    (session.turned suite sending message ours).Distinct := by
  simp only [Distinct]
  rw [Session.turned, keys_closeLatest]
  exact distinct

/-- A ratchet key that is new to a session is new to the session that turns around it. -/
theorem receivingChain?_turned {session : Session}
    (sending : SendingChain) (message : RatchetMessage) (ours : KeyPair) {key : PublicKey}
    (absent : session.receivingChain? key = none) :
    (session.turned suite sending message ours).receivingChain? key = none := by
  rw [receivingChain?_eq_none_iff, turned, keys_closeLatest]
  exact receivingChain?_eq_none_iff.mp absent

/-- Each chain of the session after a message has come from a chain that was there,
or from a new one with a new ratchet key. -/
theorem Received.moves {session next : Session} {message : RatchetMessage} {plaintext : Bytes}
    (received : Received suite session message plaintext next) (distinct : session.Distinct) :
    ∀ chain ∈ next.receiving, ∃ before, ReceivingChain.Moves before chain ∧
      (before ∈ session.receiving ∨
        session.receivingChain? chain.ratchetKey = none ∧
          ∃ sending, session.sending = some sending ∧
            before = session.opened suite sending chain.ratchetKey) := by
  intro chain member
  cases received with
  | known found given opens =>
      rcases mem_putReceiving distinct member with rfl | ⟨old, _⟩
      · exact ⟨_, .gives given, .inl (mem_of_receivingChain? found).1⟩
      · exact ⟨chain, .stays, .inl old⟩
  | @new sending ours left keys sends absent given opens =>
      rcases mem_putReceiving (distinct.turned suite sending message ours) member with
        rfl | ⟨old, _⟩
      · have key : chain.ratchetKey = message.ratchetKey :=
          ReceivingChain.ratchetKey_of_keysAt given
        refine ⟨_, .gives given, .inr ⟨?_, sending, sends, ?_⟩⟩
        · rw [key]
          exact absent
        · rw [key]
      · rw [turned, receiving_closeLatest distinct, List.mem_map] at old
        obtain ⟨before, beforeMember, rfl⟩ := old
        refine ⟨before, ?_, .inl beforeMember⟩
        split
        · exact .closes _
        · exact .stays

/-- Where a chain was there before, the chain of its key has come from it. -/
theorem Received.moves_of_mem {session next : Session} {message : RatchetMessage}
    {plaintext : Bytes} (received : Received suite session message plaintext next)
    (distinct : session.Distinct) {before chain : ReceivingChain}
    (old : before ∈ session.receiving) (member : chain ∈ next.receiving)
    (same : chain.ratchetKey = before.ratchetKey) : before.Moves chain := by
  obtain ⟨source, moves, there | ⟨absent, _⟩⟩ := received.moves suite distinct chain member
  · rw [List.inj_on_of_nodup_map distinct old there (same.symm.trans moves.ratchetKey_eq)]
    exact moves
  · rw [same, receivingChain?_of_mem distinct old] at absent
    cases absent

theorem Received.distinct {session next : Session} {message : RatchetMessage} {plaintext : Bytes}
    (received : Received suite session message plaintext next) (distinct : session.Distinct) :
    next.Distinct := by
  cases received with
  | known _ _ _ => exact distinct.putReceiving _
  | new _ _ _ _ => exact (distinct.turned suite _ _ _).putReceiving _

/-- No message makes a session receive on more than five chains. -/
theorem Received.few {session next : Session} {message : RatchetMessage} {plaintext : Bytes}
    (received : Received suite session message plaintext next) (distinct : session.Distinct)
    (few : session.receiving.length ≤ Limits.receivingChains) :
    next.receiving.length ≤ Limits.receivingChains := by
  cases received with
  | @known chain left keys found given opens =>
      have key : left.ratchetKey = message.ratchetKey :=
        (ReceivingChain.ratchetKey_of_keysAt given).trans (mem_of_receivingChain? found).2
      rw [← key] at found
      show (session.putReceiving left).receiving.length ≤ _
      rw [receiving_putReceiving_of_some distinct found, List.length_map]
      exact few
  | @new sending ours left keys sends absent given opens =>
      have key : left.ratchetKey = message.ratchetKey := ReceivingChain.ratchetKey_of_keysAt given
      rw [← key] at absent
      have unknown := receivingChain?_turned suite sending message ours absent
      show ((session.turned suite sending message ours).putReceiving left).receiving.length ≤ _
      rw [receiving_putReceiving_of_none unknown]
      exact length_lastOf_le _ _

/-- A session that has decrypted a message can answer. -/
theorem Received.sends {session next : Session} {message : RatchetMessage} {plaintext : Bytes}
    (received : Received suite session message plaintext next) (sends : session.sending.isSome) :
    next.sending.isSome := by
  cases received with
  | known _ _ _ =>
      simp only [putReceiving]
      split
      · exact sends
      · exact sends
  | new _ _ _ _ =>
      simp only [putReceiving]
      split
      · rfl
      · rfl

/-! ## The invariant -/

/-- What carries the invariant: every chain traces what it was made with. -/
structure Traced (chronicle : Chronicle) : Prop where
  sends : chronicle.session.sending.isSome
  few : chronicle.session.receiving.length ≤ Limits.receivingChains
  distinct : chronicle.session.Distinct
  traces : ∀ chain ∈ chronicle.session.receiving,
    ∃ first, chronicle.origin chain.ratchetKey = some first ∧ chain.Traces first

theorem Traced.wellFormed {chronicle : Chronicle} (traced : Traced chronicle) :
    chronicle.session.WellFormed chronicle.origin where
  sends := traced.sends
  few := traced.few
  distinct := traced.distinct
  follow chain member := by
    obtain ⟨first, made, traces⟩ := traced.traces chain member
    exact ⟨first, made, traces.follows⟩

/-- The handshakes make sessions whose chains, if there are any, are new. -/
theorem Opened.traced {session : Session} (opened : session.Opened suite) :
    Traced (.start session) := by
  have responder : ∀ terms, Traced (.start (Session.responded suite terms)) := by
    intro terms
    exact ⟨rfl, Nat.zero_le _, List.nodup_nil, fun _ member => absurd member List.not_mem_nil⟩
  have initiator : ∀ terms ratchet, Traced (.start (Session.initiated suite terms ratchet)) := by
    intro terms ratchet
    refine ⟨rfl, (by decide : 1 ≤ Limits.receivingChains), List.nodup_singleton _, ?_⟩
    intro chain member
    cases List.mem_singleton.mp member
    refine ⟨_, ?_, ReceivingChain.traces_new rfl terms.theirRatchet⟩
    simp [Chronicle.start, receivingChain?, Session.initiated]
  cases opened with
  | initiated made =>
      obtain ⟨ratchet, _, rfl⟩ := initiate_eq_ok suite made
      exact initiator _ ratchet
  | responded made =>
      rw [respond_eq_ok suite made]
      exact responder _
  | exchanged made =>
      rcases exchange_eq_ok suite made with ⟨ratchet, _, rfl⟩ | rfl
      · exact initiator _ ratchet
      · exact responder _

/-- Every call keeps it, whether it succeeds or not. -/
theorem Traced.call {chronicle : Chronicle} (traced : Traced chronicle) (call : Call) :
    Traced (chronicle.call suite call) := by
  have unmoved : ∀ chain ∈ chronicle.session.receiving,
      ∃ first, (chronicle.call suite call).origin chain.ratchetKey = some first ∧
        chain.Traces first := by
    intro chain member
    obtain ⟨first, made, traces⟩ := traced.traces chain member
    refine ⟨first, ?_, traces⟩
    rw [← made]
    simp only [Chronicle.call, receivingChain?_of_mem traced.distinct member]
  rcases call_cases suite chronicle.session call with
    same | ⟨sending, position, _, stepped⟩ | ⟨message, plaintext, received⟩
  · have session : (chronicle.call suite call).session = chronicle.session := same
    refine ⟨?_, ?_, ?_, ?_⟩
    all_goals rw [session]
    · exact traced.sends
    · exact traced.few
    · exact traced.distinct
    · exact unmoved
  · have session : (chronicle.call suite call).session = _ := stepped
    refine ⟨?_, ?_, ?_, ?_⟩
    all_goals rw [session]
    · rfl
    · exact traced.few
    · exact traced.distinct
    · exact unmoved
  · refine ⟨received.sends suite traced.sends, received.few suite traced.distinct traced.few,
      received.distinct suite traced.distinct, ?_⟩
    intro chain member
    obtain ⟨before, moves, old | ⟨absent, sending, sends, rfl⟩⟩ :=
      received.moves suite traced.distinct chain member
    · obtain ⟨first, made, traces⟩ := unmoved before old
      rw [moves.ratchetKey_eq]
      exact ⟨first, made, traces.moves moves⟩
    · refine ⟨_, ?_, (ReceivingChain.traces_new rfl _).moves moves⟩
      simp only [Chronicle.call, absent, sends]
      rfl

theorem Traced.after {chronicle : Chronicle} (traced : Traced chronicle) (calls : List Call) :
    Traced (chronicle.after suite calls) := by
  induction calls using List.reverseRecOn with
  | nil => exact traced
  | append_singleton calls last ih =>
      rw [Chronicle.after_snoc]
      exact ih.call suite last

/-- **However a session is called, and whatever it is sent, it stays well formed.** -/
theorem wellFormed_after {start : Session} (opened : start.Opened suite) (calls : List Call) :
    (start.after suite calls).WellFormed ((Chronicle.start start).after suite calls).origin := by
  have traced := ((opened.traced suite).after suite calls).wellFormed
  rw [Chronicle.session_after] at traced
  exact traced

/-! ## Among forgeries -/

def sampleOpening : InitiatorTerms := ⟨default, default, default, default, none, default⟩

/-- The chain that the initiator receives on. -/
def sampleOrigin : ChainKey := (Handshake.derive (sampleOpening.secrets Suite.classic)).2

/-- The initiator, when this chain has come so far. -/
def sampleReceiver (ratchet : KeyPair) (progress : Progress) : Session :=
  { initiated Suite.classic sampleOpening ratchet with
    receiving := [.tracing default sampleOrigin progress] }

def sampleResponder : Session where
  storedVersion := 3
  localIdentity := sampleOpening.theirIdentity
  remoteIdentity := sampleOpening.ourIdentity.publicKey
  root := ⟨.v3, default⟩

/-- The message of the responder with this number. -/
def sampleMessage (number : Nat) : RatchetMessage :=
  sampleResponder.sealed ⟨default, sampleOrigin.ahead number⟩ [1]

theorem starts_sampleOrigin : sampleOrigin.index = 0 := rfl

theorem receivingChain?_sampleReceiver (ratchet : KeyPair) (progress : Progress) :
    (sampleReceiver ratchet progress).receivingChain? default =
      some (.tracing default sampleOrigin progress) := rfl

theorem sampleReceiver_start (ratchet : KeyPair) :
    sampleReceiver ratchet .start = initiated Suite.classic sampleOpening ratchet := by
  rw [sampleReceiver, ReceivingChain.tracing_start]
  rfl

/-- The pair that the initiator generates from zeros. -/
def sampleOwn : KeyPair := ⟨Suite.classic.publicKey ⟨.replicate 32 0⟩, ⟨.replicate 32 0⟩⟩

theorem opened_sampleReceiver : (sampleReceiver sampleOwn .start).Opened Suite.classic := by
  obtain ⟨ratchet, later, generated, _, made⟩ :=
    run_initiate_of_lasts Suite.classic (Supply.lasts_zeros 1) sampleOpening
  obtain rfl : sampleOwn = ratchet := by
    have zeros : Suite.classic.generate.run (.zeros 1) = (.ok sampleOwn, .zeros 0) := rfl
    rw [zeros] at generated
    cases generated
    rfl
  rw [sampleReceiver_start]
  exact .initiated made

/-- The initiator decrypts every message that its chain admits. -/
theorem run_decrypt_sampleMessage (ratchet : KeyPair) {progress next : Progress}
    (sound : progress.Sound) {number : Nat} (fits : number < 2 ^ 32)
    (admitted : progress.receive (.ofNat number) = .ok next) (supply : Supply) :
    ((sampleReceiver ratchet progress).decrypt Suite.classic (sampleMessage number)).run supply =
      (.ok ([1], sampleReceiver ratchet next), supply) := by
  have version : (sampleReceiver ratchet progress).version = 3 := rfl
  have speaks : sampleResponder.version = (sampleReceiver ratchet progress).version := version.symm
  exact run_decrypt_sealed Suite.classic rfl rfl speaks rfl starts_sampleOrigin sound fits rfl
    admitted (receivingChain?_sampleReceiver ratchet progress) [1] supply

/-- The responder when it has sent five messages and turns. -/
def sampleReplier : Session := { sampleResponder with previousCounter := 5 }

/-- The pair that it turns to. -/
def sampleTheirs : KeyPair := ⟨⟨.replicate 32 9⟩, default⟩

/-- The chain that the initiator sends on. -/
def sampleSending : SendingChain :=
  ⟨sampleOwn, ((Handshake.derive (sampleOpening.secrets Suite.classic)).1.turn
    (Suite.classic.agree sampleOwn.privateKey sampleOpening.theirRatchet)).2⟩

theorem sending_sampleReceiver (progress : Progress) :
    (sampleReceiver sampleOwn progress).sending = some sampleSending := rfl

/-- The chain that the initiator opens for this pair. -/
def sampleNext : ChainKey :=
  ((sampleReceiver sampleOwn .start).opened Suite.classic sampleSending
    sampleTheirs.publicKey).chain

/-- The first message on this chain. -/
def sampleReply : RatchetMessage := sampleReplier.sealed ⟨sampleTheirs, sampleNext⟩ [2]

/-- What the initiator turns with. -/
def sampleSupply : Supply where
  entropy := .stock (List.replicate 32 1)

theorem lasts_sampleSupply : sampleSupply.Lasts 1 :=
  ⟨rfl, rfl, Entropy.lasts_stock (by rw [List.length_replicate])⟩

/-- The initiator closes the first chain and turns around the reply. -/
theorem run_decrypt_sampleReply {progress : Progress} (sound : progress.Sound) :
    ∃ next later, ((sampleReceiver sampleOwn progress).decrypt Suite.classic sampleReply).run
        sampleSupply = (.ok ([2], next), later) ∧
      next.version = 3 ∧
      next.receiving = [.tracing default sampleOrigin (progress.skipTo 5),
        .tracing sampleTheirs.publicKey sampleNext ⟨1, Progress.start.keeping 0⟩] := by
  have version : (sampleReceiver sampleOwn progress).version = 3 := rfl
  have speaks : sampleReplier.version = (sampleReceiver sampleOwn progress).version := version.symm
  have absent : (sampleReceiver sampleOwn progress).receivingChain? sampleTheirs.publicKey = none :=
    rfl
  obtain ⟨ours, later, _, decrypted⟩ := run_decrypt_sealed_of_new Suite.classic rfl rfl speaks
    (sending_sampleReceiver progress) absent lasts_sampleSupply [2]
  refine ⟨_, later, decrypted, ?_, ?_⟩
  · rw [putReceiving_eq]
    rfl
  · have unknown := receivingChain?_turned Suite.classic sampleSending sampleReply ours absent
    have closed : ((sampleReceiver sampleOwn progress).closeLatest 5).receiving =
        [.tracing default sampleOrigin (progress.skipTo 5)] := by
      rw [← ReceivingChain.skipTo_tracing default starts_sampleOrigin sound]
      rfl
    refine (receiving_putReceiving_of_none unknown).trans ?_
    exact congrArg (fun chains => lastOf Limits.receivingChains (chains ++ [_])) closed

/-- Messages arrive out of order and around a turn, each of them behind one that was forged. -/
theorem wellFormed_after_forgeries :
    let start := sampleReceiver sampleOwn .start
    let early : List Call :=
      [.decrypt (sampleMessage 2).forged sampleSupply, .decrypt (sampleMessage 2) sampleSupply]
    let calls : List Call := early ++
      [.decrypt sampleReply.forged sampleSupply, .decrypt sampleReply sampleSupply, .encrypt [3]]
    start.Opened Suite.classic ∧
    (∀ message ∈ [sampleMessage 2, sampleReply],
      RatchetMessage.parse message.forged.serialized = .ok message.forged) ∧
    (∃ used, ((start.after Suite.classic early).decrypt Suite.classic sampleReply.forged).run
      sampleSupply = (.error (.invalidMessage .badMac), used)) ∧
    (start.after Suite.classic calls).receiving.map (fun chain =>
      (chain.chain.index, chain.skipped.map (·.counter))) = [(5, [0, 1, 3, 4]), (1, [])] ∧
    (start.after Suite.classic calls).WellFormed
      ((Chronicle.start start).after Suite.classic calls).origin := by
  intro start early calls
  let progress : Progress := ⟨3, Progress.start.keeping 2⟩
  have admitted : Progress.start.receive (.ofNat 2) = .ok progress := rfl
  have sound := Progress.Sound.start.receive admitted
  have first := run_decrypt_sampleMessage sampleOwn .start (by decide) admitted sampleSupply
  obtain ⟨next, later, second, _, receiving⟩ := run_decrypt_sampleReply sound
  have reached : start.after Suite.classic early = sampleReceiver sampleOwn progress := by
    rw [after_cons, RatchetMessage.forged,
      call_withCode Suite.classic first (RatchetMessage.otherCode_ne _), after_cons,
      call_of_decrypt Suite.classic first]
    rfl
  have chains : (start.after Suite.classic calls).receiving = next.receiving := by
    rw [after_append, reached, after_cons, RatchetMessage.forged,
      call_withCode Suite.classic second (RatchetMessage.otherCode_ne _), after_cons,
      call_of_decrypt Suite.classic second]
    exact receiving_call_encrypt Suite.classic next [3]
  refine ⟨opened_sampleReceiver, ?_, ?_, ?_, wellFormed_after Suite.classic opened_sampleReceiver _⟩
  · intro message member
    apply RatchetMessage.parse_withCode
    simp only [List.mem_cons, List.not_mem_nil, or_false] at member
    rcases member with rfl | rfl
    · exact RatchetMessage.parse_sealed rfl _ _
    · exact RatchetMessage.parse_sealed rfl _ _
  · rw [reached]
    exact ⟨later, run_decrypt_withCode Suite.classic second (RatchetMessage.otherCode_ne _)⟩
  · rw [chains, receiving]
    decide +kernel

end Session

end Ratchet
