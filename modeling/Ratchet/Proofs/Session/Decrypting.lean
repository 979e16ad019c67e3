import Ratchet.Proofs.Session.Chains

/-!
# What decrypting does

A message either belongs to a chain that is there, and then no primitive is
used (`Session.run_decrypt_known`), or its ratchet key is new and the session
turns around it first (`Session.run_decrypt_new`). Both go on in the same way:
the chain gives the keys of the message, the keys open it, and the chain is put
in place (`Session.receive`).

Turning takes its pair from the supply, and fails only where the supply fails
(`Session.run_turn_cases`); the session it makes is `Session.turned`.
-/

set_option autoImplicit false

namespace Ratchet

/-! ## Using a suite -/

namespace Suite

variable (suite : Suite)

/-- Agreeing gives the secret, or the supply refuses. -/
theorem run_agreeOn_cases (secret : PrivateKey) (key : PublicKey) (supply : Supply) :
    (∃ later, (suite.agreeOn secret key).run supply = (.ok (suite.agree secret key), later)) ∨
    ∃ error later, (suite.agreeOn secret key).run supply = (.error (.primitive error), later) := by
  simp only [agreeOn]
  rw [Procedure.run_bind, Procedure.run_get]
  dsimp only
  cases supply.agreement.spend with
  | error refusal => exact .inr ⟨_, _, rfl⟩
  | ok agreement => exact .inl ⟨_, rfl⟩

/-- Turning a root gives the next root and chain, or the supply refuses. -/
theorem run_turn_cases (root : RootKey) (theirs : PublicKey) (ours : KeyPair) (supply : Supply) :
    (∃ later, (suite.turn root theirs ours).run supply =
      (.ok (root.turn (suite.agree ours.privateKey theirs)), later)) ∨
    ∃ error later,
      (suite.turn root theirs ours).run supply = (.error (.primitive error), later) := by
  simp only [turn]
  rw [Procedure.run_bind]
  rcases suite.run_agreeOn_cases ours.privateKey theirs supply with
    ⟨later, agreed⟩ | ⟨error, later, refused⟩
  · rw [agreed]
    exact .inl ⟨later, rfl⟩
  · rw [refused]
    exact .inr ⟨error, later, rfl⟩

/-- A generated pair is a private key with its public key. -/
theorem run_generate_cases (supply : Supply) :
    (∃ ours later, suite.generate.run supply = (.ok ours, later) ∧
      ours.publicKey = suite.publicKey ours.privateKey) ∨
    ∃ error later, suite.generate.run supply = (.error (.primitive error), later) := by
  simp only [generate]
  rw [Procedure.run_bind, Procedure.run_get]
  dsimp only
  cases supply.generation.spend with
  | error refusal => exact .inr ⟨_, _, rfl⟩
  | ok generation =>
      dsimp only
      rw [Procedure.run_bind, Procedure.run_set]
      dsimp only
      rw [Procedure.run_bind]
      simp only [Attempt.random]
      rw [Procedure.run_bind, Procedure.run_get]
      dsimp only
      cases supply.entropy.take? 32 with
      | none => exact .inr ⟨_, _, rfl⟩
      | some taken => exact .inl ⟨_, _, rfl, rfl⟩

end Suite

namespace Session

variable (suite : Suite)

/-- The session around a new receiving chain, `ours` being the pair that was generated. -/
def turned (session : Session) (sending : SendingChain) (message : RatchetMessage)
    (ours : KeyPair) : Session :=
  let root := (session.root.turn (suite.agree sending.ratchet.privateKey message.ratchetKey)).1
  let next := root.turn (suite.agree ours.privateKey message.ratchetKey)
  { session.closeLatest message.previousCounter with
    root := next.1
    previousCounter := sending.chain.index
    sending := some ⟨ours, next.2⟩ }

/-- A session that has turned sends with the pair that was generated. -/
theorem ratchet_turned (session : Session) (sending : SendingChain) (message : RatchetMessage)
    (ours : KeyPair) (chain : ReceivingChain) :
    ({ (session.turned suite sending message ours).putReceiving chain with
      pendingPrekey := none } : Session).sending.map (·.ratchet) = some ours :=
  congrArg (fun next => next.sending.map (·.ratchet)) (putReceiving_eq _ chain)

/-- The receiving chain of a new ratchet key, before any message on it. -/
def opened (session : Session) (sending : SendingChain) (ratchetKey : PublicKey) :
    ReceivingChain :=
  ⟨ratchetKey, (session.root.turn (suite.agree sending.ratchet.privateKey ratchetKey)).2, []⟩

/-- What becomes of a message of this chain, in the session around the chain. -/
def receive (session around : Session) (chain : ReceivingChain) (message : RatchetMessage) :
    Except SessionError (Bytes × Session) := do
  let (keys, chain) ← chain.keysAt message.counter
  let plaintext ← session.reveal keys message
  return (plaintext, { around.putReceiving chain with pendingPrekey := none })

/-- Turning gives the new chain and the session around it, or the supply refuses. -/
theorem run_turn_cases (session : Session) (sending : SendingChain) (message : RatchetMessage)
    (supply : Supply) :
    (∃ ours later, (session.turn suite sending message).run supply =
        (.ok (session.opened suite sending message.ratchetKey,
          session.turned suite sending message ours), later) ∧
      ours.publicKey = suite.publicKey ours.privateKey) ∨
    ∃ error later,
      (session.turn suite sending message).run supply = (.error (.primitive error), later) := by
  simp only [turn]
  rw [Procedure.run_bind]
  rcases suite.run_turn_cases session.root message.ratchetKey sending.ratchet supply with
    ⟨agreed, first⟩ | ⟨error, agreed, first⟩
  · rw [first]
    dsimp only
    rw [Procedure.run_bind]
    rcases suite.run_generate_cases agreed with
      ⟨ours, generated, second, paired⟩ | ⟨error, generated, second⟩
    · rw [second]
      dsimp only
      rw [Procedure.run_bind]
      rcases suite.run_turn_cases
          (session.root.turn (suite.agree sending.ratchet.privateKey message.ratchetKey)).1
          message.ratchetKey ours generated with
        ⟨later, third⟩ | ⟨error, later, third⟩
      · rw [third]
        exact .inl ⟨ours, later, rfl, paired⟩
      · rw [third]
        exact .inr ⟨error, later, rfl⟩
    · rw [second]
      exact .inr ⟨error, generated, rfl⟩
  · rw [first]
    exact .inr ⟨error, agreed, rfl⟩

section

variable {session : Session} {sending : SendingChain} {message : RatchetMessage}

/-- Decrypting is finding the chain and receiving on it. -/
theorem run_decrypt (sends : session.sending = some sending)
    (speaks : message.version = session.version) (supply : Supply) :
    (session.decrypt suite message).run supply =
      match (session.chainOf suite sending message).run supply with
      | (.ok (chain, around), later) => (session.receive around chain message, later)
      | (.error failure, later) => (.error failure, later) := by
  simp only [decrypt]
  rw [sends]
  dsimp only
  rw [if_neg (not_not_intro speaks), Procedure.run_bind]
  rcases (session.chainOf suite sending message).run supply with ⟨failure | ⟨chain, around⟩, later⟩
  · rfl
  · dsimp only
    simp only [receive]
    rw [Procedure.run_bind, Procedure.run_ofExcept]
    cases chain.keysAt message.counter with
    | error failure => rfl
    | ok given =>
        dsimp only
        rw [Procedure.run_bind, Procedure.run_ofExcept]
        show _ = ((session.reveal given.1 message).bind _, later)
        cases session.reveal given.1 message <;> rfl

/-- A session that cannot answer, or does not speak the message's version, refuses
it before it uses any primitive. -/
theorem run_decrypt_mute (mute : ¬ (message.version = session.version ∧ session.sending.isSome))
    (supply : Supply) :
    ∃ failure, (session.decrypt suite message).run supply = (.error failure, supply) := by
  simp only [decrypt]
  cases sends : session.sending with
  | none => exact ⟨_, rfl⟩
  | some sending =>
      have differs : message.version ≠ session.version := by
        intro same
        exact mute ⟨same, by rw [sends]; rfl⟩
      dsimp only
      rw [if_pos differs]
      exact ⟨_, rfl⟩

/-- A message of a chain that is there. -/
theorem run_decrypt_known (sends : session.sending = some sending)
    (speaks : message.version = session.version) {chain : ReceivingChain}
    (known : session.receivingChain? message.ratchetKey = some chain) (supply : Supply) :
    (session.decrypt suite message).run supply =
      (session.receive session chain message, supply) := by
  rw [run_decrypt suite sends speaks, chainOf, known]
  rfl

/-- A message with a new ratchet key. -/
theorem run_decrypt_new (sends : session.sending = some sending)
    (speaks : message.version = session.version)
    (new : session.receivingChain? message.ratchetKey = none) (supply : Supply) :
    (∃ ours later, (session.decrypt suite message).run supply =
        (session.receive (session.turned suite sending message ours)
          (session.opened suite sending message.ratchetKey) message, later) ∧
      ours.publicKey = suite.publicKey ours.privateKey) ∨
    ∃ error later,
      (session.decrypt suite message).run supply = (.error (.primitive error), later) := by
  rw [run_decrypt suite sends speaks, chainOf, new]
  dsimp only
  rcases session.run_turn_cases suite sending message supply with
    ⟨ours, later, turned, paired⟩ | ⟨error, later, refused⟩
  · rw [turned]
    exact .inl ⟨ours, later, rfl, paired⟩
  · rw [refused]
    exact .inr ⟨error, later, rfl⟩

/-- Only a message of the session's version is decrypted, and only by a session that can answer. -/
theorem speaks_of_run_decrypt {supply later : Supply} {result : Bytes × Session}
    (decrypted : (session.decrypt suite message).run supply = (.ok result, later)) :
    message.version = session.version ∧ ∃ sending, session.sending = some sending := by
  simp only [decrypt] at decrypted
  cases sends : session.sending with
  | none =>
      rw [sends] at decrypted
      cases decrypted
  | some sending =>
      rw [sends] at decrypted
      refine ⟨?_, sending, rfl⟩
      by_contra differs
      dsimp only at decrypted
      rw [if_pos differs, Procedure.run_bind, Procedure.run_throw] at decrypted
      cases decrypted

/-- What is received has keys in its chain, and its text is under these keys. -/
theorem receive_eq_ok {around next : Session} {chain : ReceivingChain} {plaintext : Bytes}
    (received : session.receive around chain message = .ok (plaintext, next)) :
    ∃ keys left, chain.keysAt message.counter = .ok (keys, left) ∧
      session.reveal keys message = .ok plaintext ∧
      next = { around.putReceiving left with pendingPrekey := none } := by
  simp only [receive] at received
  cases given : chain.keysAt message.counter with
  | error failure =>
      rw [given] at received
      cases received
  | ok result =>
      rw [given] at received
      change (session.reveal result.1 message).bind _ = _ at received
      cases revealed : session.reveal result.1 message with
      | error failure =>
          rw [revealed] at received
          cases received
      | ok text =>
          rw [revealed] at received
          cases received
          exact ⟨result.1, result.2, rfl, revealed, rfl⟩

/-- What is not authentic under its keys is refused, whatever is around the chain. -/
theorem receive_eq_badMac (session : Session) (message : RatchetMessage)
    {chain left : ReceivingChain} {keys : MessageKeys}
    (given : chain.keysAt message.counter = .ok (keys, left))
    (forged : message.verify session.remoteIdentity session.localIdentity keys.macKey = false)
    (around : Session) :
    session.receive around chain message = .error (.invalidMessage .badMac) := by
  simp only [receive]
  rw [given]
  show (session.reveal keys message).bind _ = _
  simp only [reveal]
  rw [forged]
  rfl

end

/-- How a session comes out of a message it decrypts. -/
inductive Received (session : Session) (message : RatchetMessage) (plaintext : Bytes) :
    Session → Prop where
  /-- The chain was there. -/
  | known {chain left : ReceivingChain} {keys : MessageKeys}
      (found : session.receivingChain? message.ratchetKey = some chain)
      (given : chain.keysAt message.counter = .ok (keys, left))
      (opens : session.reveal keys message = .ok plaintext) :
      Received session message plaintext { session.putReceiving left with pendingPrekey := none }
  /-- The session turned around a new chain. -/
  | new {sending : SendingChain} {ours : KeyPair} {left : ReceivingChain} {keys : MessageKeys}
      (sends : session.sending = some sending)
      (absent : session.receivingChain? message.ratchetKey = none)
      (given : (session.opened suite sending message.ratchetKey).keysAt message.counter =
        .ok (keys, left))
      (opens : session.reveal keys message = .ok plaintext) :
      Received session message plaintext
        { (session.turned suite sending message ours).putReceiving left with
          pendingPrekey := none }

/-- **Every session that comes out of a decrypted message comes out in one of two ways.** -/
theorem received_of_run_decrypt {session next : Session} {message : RatchetMessage}
    {plaintext : Bytes} {supply later : Supply}
    (decrypted : (session.decrypt suite message).run supply = (.ok (plaintext, next), later)) :
    Received suite session message plaintext next := by
  obtain ⟨speaks, sending, sends⟩ := speaks_of_run_decrypt suite decrypted
  cases found : session.receivingChain? message.ratchetKey with
  | some chain =>
      rw [run_decrypt_known suite sends speaks found, Prod.mk.injEq] at decrypted
      obtain ⟨keys, left, given, opens, rfl⟩ := receive_eq_ok decrypted.1
      exact .known found given opens
  | none =>
      rcases run_decrypt_new suite sends speaks found supply with
        ⟨ours, after, run, _⟩ | ⟨error, after, run⟩
      · rw [run, Prod.mk.injEq] at decrypted
        obtain ⟨keys, left, given, opens, rfl⟩ := receive_eq_ok decrypted.1
        exact .new sends found given opens
      · rw [run] at decrypted
        cases decrypted

/-- The session has keys for a message, on a chain that is there or on one it
would turn to, and the message is authenticated under them. -/
def Authenticates (session : Session) (message : RatchetMessage) : Prop :=
  ∃ chain keys left,
    (session.receivingChain? message.ratchetKey = some chain ∨
      session.receivingChain? message.ratchetKey = none ∧
        ∃ sending, session.sending = some sending ∧
          chain = session.opened suite sending message.ratchetKey) ∧
    chain.keysAt message.counter = .ok (keys, left) ∧
    message.verify session.remoteIdentity session.localIdentity keys.macKey = true

/-- The session merely refuses a message, whatever else becomes of the supply. -/
def Refuses (session : Session) (message : RatchetMessage) : Prop :=
  ∃ supply later fault,
    (session.decrypt suite message).run supply = (.error (.invalidMessage fault), later)

/-- What is revealed was authenticated. -/
theorem verify_of_reveal {session : Session} {keys : MessageKeys} {message : RatchetMessage}
    {plaintext : Bytes} (revealed : session.reveal keys message = .ok plaintext) :
    message.verify session.remoteIdentity session.localIdentity keys.macKey = true := by
  simp only [reveal] at revealed
  split at revealed
  · assumption
  · cases revealed

namespace Received

variable {session next : Session} {message : RatchetMessage} {plaintext : Bytes}
  (received : Received suite session message plaintext next)
include received

theorem authenticates : session.Authenticates suite message := by
  cases received with
  | known found given opens => exact ⟨_, _, _, .inl found, given, verify_of_reveal opens⟩
  | new sends absent given opens =>
      exact ⟨_, _, _, .inr ⟨absent, _, sends, rfl⟩, given, verify_of_reveal opens⟩

/-- Receiving does not change who started the session. -/
theorem initiatorBase_eq : next.initiatorBase = session.initiatorBase := by
  cases received with
  | known found given opens => rw [putReceiving_eq]
  | new sends absent given opens =>
      rw [putReceiving_eq, turned, closeLatest_eq]

end Received

/-- A session that encrypts steps on in its sending chain and changes nothing else. -/
theorem encrypt_eq_ok {session next : Session} {plaintext : Bytes} {message : Message}
    (encrypted : session.encrypt plaintext = .ok (message, next)) :
    ∃ sending position, session.sending = some sending ∧ sending.chain.next? = some position ∧
      message = session.wrap (session.sealed sending plaintext) ∧
      next = { session with sending := some { sending with chain := position } } := by
  simp only [encrypt] at encrypted
  cases sends : session.sending with
  | none =>
      rw [sends] at encrypted
      cases encrypted
  | some sending =>
      rw [sends] at encrypted
      dsimp only at encrypted
      cases follows : sending.chain.next? with
      | none =>
          rw [follows] at encrypted
          cases encrypted
      | some position =>
          rw [follows] at encrypted
          cases encrypted
          exact ⟨sending, position, rfl, follows, rfl, rfl⟩

end Session

end Ratchet
