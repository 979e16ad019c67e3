import Ratchet.Proofs.Chain.Passing
import Ratchet.Proofs.Session.Changing

/-!
# How far a message moves the chains

A message says which chain it belongs to, where it stands there, and how many messages
came before on the chain it replaces. None of this is authenticated when the chains move,
so a session must bear any numbers.

It does. Decrypting with every difference of counters checked, and with every loop stopped
after as many rounds as a message may be ahead, is decrypting
(`Session.decryptWithin_eq`): no difference is negative, no loop is stopped, and no index
wraps, whatever the message says and whether it is refused in the end or not.

When a message is decrypted, no chain has gone back, its own chain stands behind it or
where it stood, and the chain it replaces has gone to the counter that the message gives
or not at all (`Session.MovesOn`).
-/

set_option autoImplicit false

namespace Ratchet

/-! ## Other accounts of failure -/

namespace Procedure

variable {σ ε δ α β : Type} (account : ε → δ)

theorem explain_bind (first : Procedure σ ε α) (second : α → Procedure σ ε β) :
    (first >>= second).explain account =
      first.explain account >>= fun value => (second value).explain account := by
  apply ext
  intro state
  rw [run_explain, run_bind, run_bind, run_explain]
  cases run first state with
  | mk outcome next => cases outcome <;> rfl

theorem explain_ofExcept (outcome : Except ε α) :
    (ofExcept outcome : Procedure σ ε α).explain account =
      ofExcept (outcome.mapError account) := rfl

end Procedure

namespace Session

/-! ## Decrypting in so many rounds -/

/-- Closes the latest chain in so many rounds. -/
def closeLatestWithin (rounds : Nat) (session : Session) (previousCounter : UInt32) :
    Except Lapse Session :=
  match session.latestChain? with
  | none => .ok session
  | some chain => do
    let closed ← chain.skipWithin rounds previousCounter
    return session.updateReceiving chain.ratchetKey fun _ => closed

/-- Turns the session around a new chain, the latest being closed in so many rounds. -/
def turnWithin (rounds : Nat) (suite : Suite) (session : Session) (sending : SendingChain)
    (message : RatchetMessage) : Procedure Supply Lapse (ReceivingChain × Session) := do
  let closed ← Procedure.ofExcept (session.closeLatestWithin rounds message.previousCounter)
  let (root, receiving) ←
    (suite.turn session.root message.ratchetKey sending.ratchet).explain .failure
  let ours ← suite.generate.explain .failure
  let (root, chain) ← (suite.turn root message.ratchetKey ours).explain .failure
  return (⟨message.ratchetKey, receiving, []⟩,
    { closed with
      root
      previousCounter := sending.chain.index
      sending := some ⟨ours, chain⟩ })

/-- Finds the receiving chain of a message in so many rounds. -/
def chainWithin (rounds : Nat) (suite : Suite) (session : Session) (sending : SendingChain)
    (message : RatchetMessage) : Procedure Supply Lapse (ReceivingChain × Session) :=
  match session.receivingChain? message.ratchetKey with
  | some chain => return (chain, session)
  | none => session.turnWithin rounds suite sending message

/-- Decrypts a message with checked differences, each chain moving in so many rounds. -/
def decryptWithin (rounds : Nat) (suite : Suite) (session : Session) (message : RatchetMessage) :
    Procedure Supply Lapse (Bytes × Session) :=
  match session.sending with
  | none => throw (.failure (.invalidMessage .uninitialized))
  | some sending => do
    if message.version ≠ session.version then
      throw (.failure (.invalidMessage (.versionMismatch message.version session.version)))
    let (chain, around) ← session.chainWithin rounds suite sending message
    let (keys, chain) ← Procedure.ofExcept (chain.keysWithin rounds message.counter)
    let plaintext ← Procedure.ofExcept ((session.reveal keys message).mapError .failure)
    return (plaintext, { around.putReceiving chain with pendingPrekey := none })

theorem closeLatestWithin_eq (session : Session) (previousCounter : UInt32) :
    session.closeLatestWithin Limits.futureMessages previousCounter =
      .ok (session.closeLatest previousCounter) := by
  rw [closeLatestWithin, closeLatest]
  cases session.latestChain? with
  | none => rfl
  | some chain =>
      dsimp only
      rw [chain.skipWithin_eq]
      rfl

variable (suite : Suite)

theorem turnWithin_eq (session : Session) (sending : SendingChain) (message : RatchetMessage) :
    session.turnWithin Limits.futureMessages suite sending message =
      (session.turn suite sending message).explain .failure := by
  rw [turnWithin, closeLatestWithin_eq, Procedure.ofExcept_ok_bind, turn, Procedure.explain_bind]
  congr 1
  funext first
  rw [Procedure.explain_bind]
  dsimp only
  congr 1
  funext ours
  rw [Procedure.explain_bind]
  rfl

theorem chainWithin_eq (session : Session) (sending : SendingChain) (message : RatchetMessage) :
    session.chainWithin Limits.futureMessages suite sending message =
      (session.chainOf suite sending message).explain .failure := by
  rw [chainWithin, chainOf]
  cases session.receivingChain? message.ratchetKey with
  | none => exact turnWithin_eq suite session sending message
  | some chain => rfl

/-- **Decrypting takes no more rounds than a message may be ahead**, and no arithmetic fails. -/
theorem decryptWithin_eq (session : Session) (message : RatchetMessage) :
    session.decryptWithin Limits.futureMessages suite message =
      (session.decrypt suite message).explain .failure := by
  rw [decryptWithin, decrypt]
  cases session.sending with
  | none => rfl
  | some sending =>
      dsimp only
      by_cases speaks : message.version = session.version
      · rw [if_neg (not_not_intro speaks), if_neg (not_not_intro speaks), chainWithin_eq,
          Procedure.explain_bind]
        congr 1
        funext found
        rw [Procedure.explain_bind, Procedure.explain_ofExcept, found.1.keysWithin_eq]
        congr 1
        funext given
        rw [Procedure.explain_bind]
        rfl
      · rw [if_pos speaks, if_pos speaks]
        rfl

end Session

/-! ## Where the chains stand -/

/-- Nothing that a message does to a chain moves it back. -/
theorem ReceivingChain.Moves.index_le {chain next : ReceivingChain} (moves : chain.Moves next) :
    chain.chain.index ≤ next.chain.index := by
  cases moves with
  | stays => exact UInt32.le_refl _
  | closes counter =>
      rw [index_skipTo]
      split
      · rename_i goes
        exact UInt32.le_of_lt goes.1
      · exact UInt32.le_refl _
  | gives given =>
      rw [UInt32.le_iff_toNat_le, (toNat_index_of_keysAt given).2]
      exact Nat.le_max_left _ _

namespace Session

/-- The index of the chain of a ratchet key; a chain that is not there stands at zero. -/
def indexOf (session : Session) (ratchetKey : PublicKey) : Nat :=
  (session.receivingChain? ratchetKey).elim 0 (·.chain.index.toNat)

/-- Where the chains stand after a message that was decrypted. -/
structure MovesOn (session next : Session) (message : RatchetMessage) : Prop where
  /-- There is an index behind the message. -/
  fits : message.counter.toNat + 1 < 2 ^ 32
  /-- No chain has gone back. -/
  onward : ∀ before ∈ session.receiving, ∀ after ∈ next.receiving,
    after.ratchetKey = before.ratchetKey → before.chain.index ≤ after.chain.index
  /-- The chain of the message stands behind it, or where it stood. -/
  reaches : ∃ after, next.receivingChain? message.ratchetKey = some after ∧
    after.chain.index.toNat =
      max (session.indexOf message.ratchetKey) (message.counter.toNat + 1)
  /-- The chain that a new one replaces has gone to the counter that was given, if this was
  ahead and not too far, and otherwise it has not moved. -/
  closes : message.ratchetKey ∉ session.receiving.map (·.ratchetKey) →
    ∀ newest, session.receiving.getLast? = some newest →
      ∃ closed, next.receivingChain? newest.ratchetKey = some closed ∧
        if newest.chain.index < message.previousCounter ∧
            message.previousCounter.toNat - newest.chain.index.toNat ≤ Limits.futureMessages then
          closed.chain.index = message.previousCounter
        else closed = newest

variable {suite : Suite} {session next : Session} {message : RatchetMessage} {plaintext : Bytes}

theorem Received.reaches (received : Received suite session message plaintext next) :
    message.counter.toNat + 1 < 2 ^ 32 ∧
    ∃ after, next.receivingChain? message.ratchetKey = some after ∧
      after.chain.index.toNat =
        max (session.indexOf message.ratchetKey) (message.counter.toNat + 1) := by
  rw [indexOf]
  cases received with
  | @known chain left keys found given opens =>
      have key := (ReceivingChain.ratchetKey_of_keysAt given).trans
        (mem_of_receivingChain? found).2
      obtain ⟨fits, reached⟩ := ReceivingChain.toNat_index_of_keysAt given
      have put := receivingChain?_putReceiving session left
      rw [key] at put
      rw [found]
      exact ⟨fits, left, put, reached⟩
  | @new sending ours left keys sends absent given opens =>
      have key : left.ratchetKey = message.ratchetKey :=
        ReceivingChain.ratchetKey_of_keysAt given
      obtain ⟨fits, reached⟩ := ReceivingChain.toNat_index_of_keysAt given
      have put := receivingChain?_putReceiving (session.turned suite sending message ours) left
      rw [key] at put
      rw [absent]
      exact ⟨fits, left, put, reached⟩

/-- A chain is still there when it has been replaced. -/
theorem Received.closes (received : Received suite session message plaintext next)
    (distinct : session.Distinct)
    (new : message.ratchetKey ∉ session.receiving.map (·.ratchetKey)) {newest : ReceivingChain}
    (last : session.receiving.getLast? = some newest) :
    next.receivingChain? newest.ratchetKey = some (newest.skipTo message.previousCounter) := by
  have stays := received.distinct suite distinct
  cases received with
  | known found given opens =>
      rw [receivingChain?_eq_none_iff.mpr new] at found
      cases found
  | @new sending ours left keys sends absent given opens =>
      have receiving := receiving_putReceiving_turned suite distinct sending ours
        (ReceivingChain.ratchetKey_of_keysAt given) absent
      have few : 2 ≤ Limits.receivingChains := by decide
      rw [closing, last, Option.map_some, Option.toList_some, List.append_assoc] at receiving
      rw [← ReceivingChain.ratchetKey_skipTo newest message.previousCounter]
      apply receivingChain?_of_mem stays
      show _ ∈ ((session.turned suite sending message ours).putReceiving left).receiving
      rw [receiving]
      exact mem_lastOf_append few List.mem_cons_self

theorem Received.movesOn (received : Received suite session message plaintext next)
    (distinct : session.Distinct) : session.MovesOn next message := by
  obtain ⟨fits, reaches⟩ := received.reaches
  refine ⟨fits, ?_, reaches, ?_⟩
  · intro before old after member same
    exact (received.moves_of_mem suite distinct old member same).index_le
  · intro new newest last
    refine ⟨_, received.closes distinct new last, ?_⟩
    split
    · rename_i goes
      rw [ReceivingChain.index_skipTo, if_pos goes]
    · rename_i stays
      rw [ReceivingChain.skipTo_eq, if_neg stays]

/-- **Whatever numbers a message gives, a session bears them.** With checked arithmetic and
as many rounds for each chain as a message may be ahead it comes to the same end, and
where the message is decrypted, the chains stand where its numbers say. -/
theorem decrypt_moves_on (suite : Suite) {session : Session} (distinct : session.Distinct)
    (message : RatchetMessage) (supply : Supply) :
    (session.decryptWithin Limits.futureMessages suite message).run supply =
      (((session.decrypt suite message).run supply).1.mapError .failure,
        ((session.decrypt suite message).run supply).2) ∧
    ∀ plaintext next later,
      (session.decrypt suite message).run supply = (.ok (plaintext, next), later) →
      session.MovesOn next message := by
  constructor
  · rw [decryptWithin_eq, Procedure.run_explain]
  · intro plaintext next later decrypted
    exact (received_of_run_decrypt suite decrypted).movesOn distinct

/-- A full session that turns closes its newest chain two messages on. -/
theorem full_session_moves_on :
    sampleFull.Distinct ∧
    ∃ next later,
      (sampleFull.decryptWithin 2000 Suite.classic sampleFirst).run (.zeros 1) =
        (.ok ([1, 2, 3], next), later) ∧
      sampleFull.MovesOn next sampleFirst := by
  obtain ⟨next, later, decrypted⟩ := run_decrypt_sampleFirst
  obtain ⟨bounded, movesOn⟩ :=
    decrypt_moves_on Suite.classic distinct_sampleFull sampleFirst (.zeros 1)
  rw [decrypted] at bounded
  exact ⟨distinct_sampleFull, next, later, bounded, movesOn _ _ _ decrypted⟩

end Session

end Ratchet
