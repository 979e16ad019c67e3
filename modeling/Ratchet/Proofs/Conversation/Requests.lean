import Ratchet.Proofs.Conversation.Prekeys
import Ratchet.Proofs.Operation.Effects

/-!
# Requests

What a party can be asked to do with the device at one address: to start a
session from a bundle, to encrypt a text, and to decrypt a message for a
receiver, who may refuse the text (`Request`). Serving a request gives a reply or
fails.

Every request reads, computes, and only then changes the store, and in a store
in memory no change fails. So a request that fails leaves the store as it was,
and what is asked afterwards is answered as if it had never been made
(`Conversation.failure_leaves_no_trace`).
-/

set_option autoImplicit false

namespace Ratchet

/-- What a party can be asked to do with the device at an address. -/
inductive Request where
  | start (bundle : PrekeyBundle)
  | encrypt (plaintext : Bytes)
  /-- The receiver takes the text, or refuses it. -/
  | decrypt (message : Message) (receiver : Bytes → Except SessionError Unit)

/-- What a request that succeeds gives. -/
inductive Reply where
  | started
  | encrypted (message : Message)
  | decrypted (plaintext : Bytes)
deriving DecidableEq

/-- Does what is asked. -/
def Request.serve {ς : Type} [ProtocolStore ς] (suite : Suite) (peer : Address) :
    Request → Operation ς Reply
  | .start bundle => (fun _ => .started) <$> Conversation.start suite peer bundle
  | .encrypt plaintext => .encrypted <$> Conversation.encrypt peer plaintext
  | .decrypt message receiver => .decrypted <$> Conversation.decrypt suite peer message receiver

namespace Conversation

/-! ## What is only read -/

section

variable {ς : Type} [ProtocolStore ς] (suite : Suite) (peer : Address)

theorem reads_requireTrust (key : PublicKey) (direction : Direction) :
    (requireTrust peer key direction : Operation ς Unit).Reads := by
  refine (Operation.reads_ask _).bind fun trusted => ?_
  cases trusted with
  | true => exact Operation.reads_pure PUnit.unit
  | false => exact Operation.reads_throw _

theorem reads_record? : (record? peer : Operation ς _).Reads := Operation.reads_ask _

theorem reads_record : (record peer : Operation ς _).Reads := by
  refine (reads_record? peer).bind fun stored => ?_
  cases stored with
  | some record => exact Operation.reads_pure record
  | none => exact Operation.reads_throw _

theorem reads_recordOrFresh : (recordOrFresh peer : Operation ς _).Reads :=
  (reads_record? peer).bind fun _ => Operation.reads_pure _

omit [ProtocolStore ς] in
theorem reads_currentOf (record : SessionRecord) :
    (currentOf peer record : Operation ς _).Reads := by
  simp only [currentOf]
  cases record.current with
  | some session => exact Operation.reads_pure session
  | none => exact Operation.reads_throw _

theorem reads_signedPrekey (id : UInt32) : (signedPrekey id : Operation ς _).Reads := by
  refine (Operation.reads_ask _).bind fun found => ?_
  cases found with
  | some prekey => exact Operation.reads_pure prekey
  | none => exact Operation.reads_throw _

theorem reads_oneTimePrekey (id : UInt32) : (oneTimePrekey id : Operation ς _).Reads := by
  refine (Operation.reads_ask _).bind fun found => ?_
  cases found with
  | some prekey => exact Operation.reads_pure prekey
  | none => exact Operation.reads_throw _

theorem reads_answer (record : SessionRecord) (message : PrekeyMessage) :
    (answer suite peer record message : Operation ς _).Reads := by
  refine (reads_requireTrust peer _ _).bind fun _ => ?_
  split
  · exact Operation.reads_pure _
  · refine (reads_signedPrekey _).bind fun signed => ?_
    refine Operation.Reads.bind ?_ fun oneTime => ?_
    · cases message.oneTimeId with
      | none => exact Operation.reads_pure none
      | some id => exact (reads_oneTimePrekey id).map some
    · refine (Operation.reads_ask _).bind fun identity => ?_
      exact (Operation.reads_attempt _).bind fun session => Operation.reads_pure _

end

/-! ## What fails leaves the store as it was -/

section

variable (suite : Suite) (peer : Address)

theorem certain_keep (record : SessionRecord) :
    (keep peer record : Operation MemoryStore _).Certain := Operation.certain_change _

theorem atomic_start (bundle : PrekeyBundle) :
    (start suite peer bundle : Operation MemoryStore _).Atomic := by
  simp only [start, Procedure.throw_bind]
  split
  · exact (Operation.reads_throw _).atomic
  · refine (reads_requireTrust peer _ _).bind_atomic fun _ => ?_
    split
    · refine (Operation.reads_attempt _).bind_atomic fun genuine => ?_
      split
      · refine (Operation.reads_ask _).bind_atomic fun oneTime => ?_
        refine (Operation.reads_attempt _).bind_atomic fun base => ?_
        refine (Operation.reads_ask _).bind_atomic fun identity => ?_
        refine (Operation.reads_attempt _).bind_atomic fun session => ?_
        exact (reads_recordOrFresh peer).bind_atomic fun record => (certain_keep peer _).atomic
      · exact (Operation.reads_throw _).atomic
    · exact (Operation.reads_throw _).atomic

theorem atomic_encrypt (plaintext : Bytes) :
    (encrypt peer plaintext : Operation MemoryStore _).Atomic := by
  simp only [encrypt]
  refine (reads_record peer).bind_atomic fun record => ?_
  refine (reads_currentOf peer record).bind_atomic fun session => ?_
  refine (Operation.reads_ask _).bind_atomic fun sealed => ?_
  refine (reads_requireTrust peer _ _).bind_atomic fun _ => ?_
  exact ((certain_keep peer _).bind fun _ => Operation.certain_pure _).atomic

theorem atomic_decryptPrekey (message : PrekeyMessage)
    (receiver : Bytes → Except SessionError Unit) :
    (decryptPrekey suite peer message receiver : Operation MemoryStore _).Atomic := by
  simp only [decryptPrekey]
  refine (reads_recordOrFresh peer).bind_atomic fun record => ?_
  refine (reads_answer suite peer record message).bind_atomic fun answered => ?_
  refine (Operation.reads_attempt _).bind_atomic fun decrypted => ?_
  refine (Operation.reads_release _ _).bind_atomic fun _ => ?_
  refine Operation.Certain.atomic ((certain_keep peer _).bind fun _ => ?_)
  split
  · exact (Operation.certain_change _).bind fun _ => Operation.certain_pure _
  · exact Operation.certain_pure _

theorem atomic_decryptRatchet (message : RatchetMessage)
    (receiver : Bytes → Except SessionError Unit) :
    (decryptRatchet suite peer message receiver : Operation MemoryStore _).Atomic := by
  simp only [decryptRatchet]
  refine (reads_record peer).bind_atomic fun record => ?_
  refine (Operation.reads_attempt _).bind_atomic fun decrypted => ?_
  refine (reads_currentOf peer _).bind_atomic fun session => ?_
  refine (reads_requireTrust peer _ _).bind_atomic fun _ => ?_
  refine (Operation.reads_release _ _).bind_atomic fun _ => ?_
  exact ((certain_keep peer _).bind fun _ => Operation.certain_pure _).atomic

theorem atomic_serve (request : Request) :
    (request.serve suite peer : Operation MemoryStore _).Atomic := by
  cases request with
  | start bundle => exact (atomic_start suite peer bundle).map _
  | encrypt plaintext => exact (atomic_encrypt peer plaintext).map _
  | decrypt message receiver =>
      refine Operation.Atomic.map ?_ _
      cases message with
      | ratchet message => exact atomic_decryptRatchet suite peer message receiver
      | prekey message => exact atomic_decryptPrekey suite peer message receiver

/-- **A request that fails leaves no trace.** The store is as it was before, and whatever
is asked next, of any device, is answered and done as if the request had not
been made, with the same supply. -/
theorem failure_leaves_no_trace {request : Request} {context later : Context MemoryStore}
    {failure : SessionError}
    (failed : (request.serve suite peer).run context = (.error failure, later)) :
    later.store = context.store ∧
      ∀ (address : Address) (next : Request) (supply : Supply),
        let after := (next.serve suite address).run { later with supply }
        let never := (next.serve suite address).run { context with supply }
        after.1 = never.1 ∧ after.2.store = never.2.store ∧ after.2.supply = never.2.supply := by
  have unchanged := (atomic_serve suite peer request).store_eq context failure later failed
  refine ⟨unchanged, fun address next supply => ?_⟩
  have agree : Context.Agrees { later with supply } { context with supply } := ⟨unchanged, rfl⟩
  obtain ⟨same, agreeAfter⟩ := (atomic_serve suite address next).blind _ _ agree
  exact ⟨same, agreeAfter.store, agreeAfter.supply⟩

/-- A text that its receiver refuses has been handed out, and nothing else has happened:
the message can be decrypted again. -/
theorem refused_text_leaves_no_trace :
    let context := rewrappedContext (.ofSession formerSession)
    let decrypt (receiver : Bytes → Except SessionError Unit) : Operation MemoryStore Reply :=
      Request.serve Suite.classic default (.decrypt (.ratchet rewrapped.message) receiver)
    ∃ failure later, (decrypt fun _ => .error (.storage "full")).run context =
        (.error failure, later) ∧
      later.released = [[1, 2, 3]] ∧ later.store = context.store ∧
      ∀ supply, ((decrypt fun _ => .ok ()).run { later with supply }).1 =
        ((decrypt fun _ => .ok ()).run { context with supply }).1 := by
  intro context decrypt
  have ran : ((decrypt fun _ => .error (.storage "full")).run context).1.toOption = none ∧
      ((decrypt fun _ => .error (.storage "full")).run context).2.released = [[1, 2, 3]] := by
    decide +kernel
  cases run : (decrypt fun _ => .error (.storage "full")).run context with
  | mk outcome later =>
      rw [run] at ran
      obtain ⟨refused, handed⟩ := ran
      cases outcome with
      | ok reply => cases refused
      | error failure =>
          obtain ⟨store, asBefore⟩ := failure_leaves_no_trace Suite.classic default run
          exact ⟨failure, later, rfl, handed, store, fun supply => (asBefore default _ supply).1⟩

end

end Conversation

end Ratchet
