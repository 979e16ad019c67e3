import Ratchet.Proofs.Session.Handshakes

/-!
# Sessions in use

A session is started (`Session.Opened`) and then called, any number of times and
in any order, to encrypt a text or to decrypt a message, which may be anything
and come from anyone (`Call`). A call that fails leaves the session as it was
(`Session.call`).

What a receiving chain was made with cannot be seen in it any more, so it is
written down beside the session (`Chronicle`): a chain that a call makes is made
from the root as it was before the call, and the chains of a session that has
just been started are as they were made.
-/

set_option autoImplicit false

namespace Ratchet

/-- What can be asked of a session, and the supply it is asked with. -/
inductive Call where
  | encrypt (plaintext : Bytes)
  | decrypt (message : RatchetMessage) (supply : Supply)

namespace Session

variable (suite : Suite)

/-- The session after a call. -/
def call (session : Session) : Call → Session
  | .encrypt plaintext =>
    match session.encrypt plaintext with
    | .ok (_, next) => next
    | .error _ => session
  | .decrypt message supply =>
    match ((session.decrypt suite message).run supply).1 with
    | .ok (_, next) => next
    | .error _ => session

/-- The session after any number of calls. -/
def after (session : Session) (calls : List Call) : Session := calls.foldl (call suite) session

/-- A session as one of the handshakes makes it. -/
inductive Opened (session : Session) : Prop where
  | initiated {terms : InitiatorTerms} {supply later : Supply}
      (made : (initiate suite terms).run supply = (.ok session, later))
  | responded {terms : ResponderTerms} {supply later : Supply}
      (made : (respond suite terms).run supply = (.ok session, later))
  | exchanged {terms : SymmetricTerms} {supply later : Supply}
      (made : (exchange suite terms).run supply = (.ok session, later))

theorem after_cons (session : Session) (first : Call) (calls : List Call) :
    session.after suite (first :: calls) = (session.call suite first).after suite calls := rfl

theorem after_append (session : Session) (first second : List Call) :
    session.after suite (first ++ second) = (session.after suite first).after suite second :=
  List.foldl_append

theorem after_snoc (session : Session) (calls : List Call) (last : Call) :
    session.after suite (calls ++ [last]) = (session.after suite calls).call suite last :=
  after_append suite session calls [last]

/-- The session after a message that it decrypts. -/
theorem call_of_decrypt {session next : Session} {message : RatchetMessage}
    {supply later : Supply} {plaintext : Bytes}
    (decrypted : (session.decrypt suite message).run supply = (.ok (plaintext, next), later)) :
    session.call suite (.decrypt message supply) = next := by
  simp only [Session.call]
  rw [decrypted]

/-- Encrypting leaves the receiving chains as they are. -/
theorem receiving_call_encrypt (session : Session) (plaintext : Bytes) :
    (session.call suite (.encrypt plaintext)).receiving = session.receiving := by
  simp only [call]
  cases encrypted : session.encrypt plaintext with
  | error failure => rfl
  | ok result =>
      obtain ⟨_, _, _, _, _, same⟩ := encrypt_eq_ok encrypted
      show result.2.receiving = _
      rw [same]

/-- A call changes nothing, steps on in the sending chain, or decrypts a message. -/
theorem call_cases (session : Session) (call : Call) :
    session.call suite call = session ∨
    (∃ sending position, session.sending = some sending ∧
      session.call suite call =
        { session with sending := some { sending with chain := position } }) ∨
    ∃ message plaintext, Received suite session message plaintext (session.call suite call) := by
  cases call with
  | encrypt plaintext =>
      simp only [Session.call]
      cases encrypted : session.encrypt plaintext with
      | error failure => exact .inl rfl
      | ok result =>
          obtain ⟨sending, position, sends, _, _, next⟩ := encrypt_eq_ok encrypted
          exact .inr (.inl ⟨sending, position, sends, next⟩)
  | decrypt message supply =>
      simp only [Session.call]
      cases decrypted : (session.decrypt suite message).run supply with
      | mk outcome later =>
          cases outcome with
          | error failure => exact .inl rfl
          | ok result =>
              exact .inr (.inr ⟨message, result.1, received_of_run_decrypt suite decrypted⟩)

end Session

/-! ## What chains were made with -/

/-- A session, and the chain key that the receiving chain of each ratchet key was made with. -/
structure Chronicle where
  session : Session
  origin : PublicKey → Option ChainKey

namespace Chronicle

variable (suite : Suite)

/-- The chronicle of a session that has just been started. -/
def start (session : Session) : Chronicle where
  session := session
  origin ratchetKey := (session.receivingChain? ratchetKey).map (·.chain)

/-- The chronicle after a call. Where there was no chain before, a chain after the
call was made by it. -/
def call (chronicle : Chronicle) (call : Call) : Chronicle where
  session := chronicle.session.call suite call
  origin ratchetKey :=
    match chronicle.session.receivingChain? ratchetKey with
    | some _ => chronicle.origin ratchetKey
    | none =>
      chronicle.session.sending.map fun sending =>
        (chronicle.session.opened suite sending ratchetKey).chain

/-- The chronicle after any number of calls. -/
def after (chronicle : Chronicle) (calls : List Call) : Chronicle :=
  calls.foldl (Chronicle.call suite) chronicle

theorem after_snoc (chronicle : Chronicle) (calls : List Call) (last : Call) :
    chronicle.after suite (calls ++ [last]) = (chronicle.after suite calls).call suite last :=
  List.foldl_append

@[simp]
theorem session_after (chronicle : Chronicle) (calls : List Call) :
    (chronicle.after suite calls).session = chronicle.session.after suite calls := by
  induction calls using List.reverseRecOn with
  | nil => rfl
  | append_singleton calls last ih =>
      rw [after_snoc, Session.after_snoc, ← ih]
      rfl

end Chronicle

end Ratchet
