import Ratchet.Proofs.Session.Decrypting
import Ratchet.Session.Handshake

/-!
# What the handshakes make

Each handshake agrees on secrets, derives a root and a chain from them, and puts
them in a session. The initiator also makes a pair and turns the root once more
(`Session.initiated`), the responder does not (`Session.responded`). A handshake
that succeeds makes exactly these sessions (`Session.initiate_eq_ok`,
`Session.respond_eq_ok`), and so does one that both parties start at once.
-/

set_option autoImplicit false

namespace Ratchet

variable (suite : Suite)

/-- The secrets the initiator agrees on. -/
def InitiatorTerms.secrets (terms : InitiatorTerms) : List (Octets 32) :=
  [suite.agree terms.ourIdentity.privateKey terms.theirSignedPrekey,
    suite.agree terms.ourBase.privateKey terms.theirIdentity,
    suite.agree terms.ourBase.privateKey terms.theirSignedPrekey] ++
  (terms.theirOneTimePrekey.map (suite.agree terms.ourBase.privateKey)).toList

/-- The secrets the responder agrees on. -/
def ResponderTerms.secrets (terms : ResponderTerms) : List (Octets 32) :=
  [suite.agree terms.ourSignedPrekey.privateKey terms.theirIdentity,
    suite.agree terms.ourIdentity.privateKey terms.theirBase,
    suite.agree terms.ourSignedPrekey.privateKey terms.theirBase] ++
  (terms.ourOneTimePrekey.map fun pair => suite.agree pair.privateKey terms.theirBase).toList

/-! ## The primitives -/

/-- Agreeing succeeds with the secret only. -/
theorem Suite.agreeOn_eq_ok {secret : PrivateKey} {key : PublicKey} {supply later : Supply}
    {agreed : Octets 32} (succeeds : (suite.agreeOn secret key).run supply = (.ok agreed, later)) :
    agreed = suite.agree secret key := by
  rcases suite.run_agreeOn_cases secret key supply with ⟨_, run⟩ | ⟨_, _, run⟩
  · rw [run] at succeeds
    cases succeeds
    rfl
  · rw [run] at succeeds
    cases succeeds

theorem Suite.turn_eq_ok {root : RootKey} {theirs : PublicKey} {ours : KeyPair}
    {supply later : Supply} {turned : RootKey × ChainKey}
    (succeeds : (suite.turn root theirs ours).run supply = (.ok turned, later)) :
    turned = root.turn (suite.agree ours.privateKey theirs) := by
  rcases suite.run_turn_cases root theirs ours supply with ⟨_, run⟩ | ⟨_, _, run⟩
  · rw [run] at succeeds
    cases succeeds
    rfl
  · rw [run] at succeeds
    cases succeeds

theorem Suite.generate_eq_ok {supply later : Supply} {pair : KeyPair}
    (succeeds : suite.generate.run supply = (.ok pair, later)) :
    pair.publicKey = suite.publicKey pair.privateKey := by
  rcases suite.run_generate_cases supply with ⟨_, _, run, paired⟩ | ⟨_, _, run⟩
  · rw [run] at succeeds
    cases succeeds
    exact paired
  · rw [run] at succeeds
    cases succeeds

/-- Agreeing takes nothing that generating needs. -/
theorem Suite.agreeOn_takes {secret : PrivateKey} {key : PublicKey} {supply later : Supply}
    {agreed : Octets 32} (succeeds : (suite.agreeOn secret key).run supply = (.ok agreed, later)) :
    later.entropy = supply.entropy ∧ later.generation = supply.generation := by
  simp only [agreeOn] at succeeds
  rw [Procedure.run_bind, Procedure.run_get] at succeeds
  dsimp only at succeeds
  cases allowed : supply.agreement.spend with
  | error refusal =>
      rw [allowed] at succeeds
      cases succeeds
  | ok agreement =>
      rw [allowed] at succeeds
      cases succeeds
      exact ⟨rfl, rfl⟩

theorem Suite.turn_takes {root : RootKey} {theirs : PublicKey} {ours : KeyPair}
    {supply later : Supply} {turned : RootKey × ChainKey}
    (succeeds : (suite.turn root theirs ours).run supply = (.ok turned, later)) :
    later.entropy = supply.entropy ∧ later.generation = supply.generation := by
  simp only [turn] at succeeds
  obtain ⟨_, _, agrees, done⟩ := Procedure.run_bind_eq_ok succeeds
  cases done
  exact suite.agreeOn_takes agrees

/-- What is generated depends on the random bytes and on leave to generate, and on nothing else. -/
theorem Suite.run_generate_congr {first second : Supply} (entropy : first.entropy = second.entropy)
    (generation : first.generation = second.generation) :
    (suite.generate.run first).1 = (suite.generate.run second).1 ∧
      (suite.generate.run first).2.entropy = (suite.generate.run second).2.entropy := by
  simp only [generate, Attempt.random]
  rw [Procedure.run_bind, Procedure.run_bind, Procedure.run_get, Procedure.run_get]
  dsimp only
  rw [← generation]
  cases first.generation.spend with
  | error refusal => exact ⟨rfl, entropy⟩
  | ok allowed =>
      dsimp only
      rw [Procedure.run_bind, Procedure.run_bind, Procedure.run_set, Procedure.run_set]
      dsimp only
      rw [Procedure.run_bind, Procedure.run_bind, Procedure.run_bind, Procedure.run_bind,
        Procedure.run_get, Procedure.run_get]
      dsimp only
      rw [← entropy]
      cases first.entropy.take? 32 <;> exact ⟨rfl, rfl⟩

/-- Agreeing over an optional prekey gives as many secrets as there are prekeys. -/
theorem Handshake.agreeOneTime_eq_ok {α : Type} (secret : α → PrivateKey) (key : α → PublicKey)
    {oneTime : Option α} {supply later : Supply} {agreed : List (Octets 32)}
    (succeeds : (agreeOneTime (fun prekey => suite.agreeOn (secret prekey) (key prekey))
      oneTime).run supply = (.ok agreed, later)) :
    agreed = (oneTime.map fun prekey => suite.agree (secret prekey) (key prekey)).toList := by
  cases oneTime with
  | none =>
      cases succeeds
      rfl
  | some prekey =>
      simp only [agreeOneTime] at succeeds
      obtain ⟨value, next, first, second⟩ := Procedure.run_bind_eq_ok succeeds
      cases second
      rw [suite.agreeOn_eq_ok first]
      rfl

namespace Session

/-! ## The initiator -/

/-- The initiator's session, `ratchet` being the pair that was generated. -/
def initiated (terms : InitiatorTerms) (ratchet : KeyPair) : Session :=
  let first := Handshake.derive (terms.secrets suite)
  let second := first.1.turn (suite.agree ratchet.privateKey terms.theirRatchet)
  { storedVersion := Limits.currentVersion
    localIdentity := terms.ourIdentity.publicKey
    remoteIdentity := terms.theirIdentity
    root := second.1
    sending := some ⟨ratchet, second.2⟩
    receiving := [⟨terms.theirRatchet, first.2, []⟩]
    initiatorBase := some terms.ourBase.publicKey }

theorem initiate_eq_ok {terms : InitiatorTerms} {supply later : Supply} {session : Session}
    (made : (initiate suite terms).run supply = (.ok session, later)) :
    ∃ ratchet, ratchet.publicKey = suite.publicKey ratchet.privateKey ∧
      session = initiated suite terms ratchet := by
  simp only [initiate] at made
  obtain ⟨first, _, firstAgreed, made⟩ := Procedure.run_bind_eq_ok made
  obtain ⟨second, _, secondAgreed, made⟩ := Procedure.run_bind_eq_ok made
  obtain ⟨third, _, thirdAgreed, made⟩ := Procedure.run_bind_eq_ok made
  obtain ⟨fourth, _, fourthAgreed, made⟩ := Procedure.run_bind_eq_ok made
  have oneTime := Handshake.agreeOneTime_eq_ok suite (fun _ => terms.ourBase.privateKey)
    (fun prekey => prekey) fourthAgreed
  have secrets : [first, second, third] ++ fourth = terms.secrets suite := by
    rw [suite.agreeOn_eq_ok firstAgreed, suite.agreeOn_eq_ok secondAgreed,
      suite.agreeOn_eq_ok thirdAgreed, oneTime]
    rfl
  rw [secrets] at made
  obtain ⟨ratchet, _, generated, made⟩ := Procedure.run_bind_eq_ok made
  obtain ⟨turned, _, turning, made⟩ := Procedure.run_bind_eq_ok made
  refine ⟨ratchet, suite.generate_eq_ok generated, ?_⟩
  rw [suite.turn_eq_ok turning] at made
  cases made
  rfl

/-! ## The responder -/

/-- The responder's session. -/
def responded (terms : ResponderTerms) : Session :=
  let first := Handshake.derive (terms.secrets suite)
  { storedVersion := Limits.currentVersion
    localIdentity := terms.ourIdentity.publicKey
    remoteIdentity := terms.theirIdentity
    root := first.1
    sending := some ⟨terms.ourRatchet, first.2⟩
    initiatorBase := some terms.theirBase }

theorem respond_eq_ok {terms : ResponderTerms} {supply later : Supply} {session : Session}
    (made : (respond suite terms).run supply = (.ok session, later)) :
    session = responded suite terms := by
  simp only [respond] at made
  obtain ⟨first, _, firstAgreed, made⟩ := Procedure.run_bind_eq_ok made
  obtain ⟨second, _, secondAgreed, made⟩ := Procedure.run_bind_eq_ok made
  obtain ⟨third, _, thirdAgreed, made⟩ := Procedure.run_bind_eq_ok made
  obtain ⟨fourth, _, fourthAgreed, made⟩ := Procedure.run_bind_eq_ok made
  have oneTime := Handshake.agreeOneTime_eq_ok suite KeyPair.privateKey
    (fun _ => terms.theirBase) fourthAgreed
  have secrets : [first, second, third] ++ fourth = terms.secrets suite := by
    rw [suite.agreeOn_eq_ok firstAgreed, suite.agreeOn_eq_ok secondAgreed,
      suite.agreeOn_eq_ok thirdAgreed, oneTime]
    rfl
  rw [secrets] at made
  cases made
  rfl

/-- Of two parties that start at once, one is the initiator and one the responder. -/
theorem exchange_eq_ok {terms : SymmetricTerms} {supply later : Supply} {session : Session}
    (made : (exchange suite terms).run supply = (.ok session, later)) :
    (∃ ratchet, ratchet.publicKey = suite.publicKey ratchet.privateKey ∧
      session = initiated suite terms.initiator ratchet) ∨
    session = responded suite terms.responder := by
  simp only [exchange] at made
  split at made
  · exact .inl (initiate_eq_ok suite made)
  · exact .inr (respond_eq_ok suite made)

end Session

/-! ## Supplies that last -/

/-- The source has random bytes for this many private keys. -/
def Entropy.Lasts : Entropy → Nat → Prop
  | _, 0 => True
  | source, pairs + 1 => ∃ taken rest, source.take? 32 = some (taken, rest) ∧ rest.Lasts pairs

/-- A stock lasts for as many keys as it has bytes for. -/
theorem Entropy.lasts_stock {bytes : Bytes} {pairs : Nat} (enough : 32 * pairs ≤ bytes.length) :
    (Entropy.stock bytes).Lasts pairs := by
  induction pairs generalizing bytes with
  | zero => trivial
  | succ pairs ih =>
      have length : (bytes.take 32).length = 32 := by
        rw [List.length_take]
        omega
      have read : Octets.ofList? (bytes.take 32) =
          some (⟨bytes.take 32, length⟩ : Octets 32) :=
        Octets.ofList?_eq_some_iff.mpr rfl
      refine ⟨⟨bytes.take 32, length⟩, .stock (bytes.drop 32), ?_, ih ?_⟩
      · rw [take?, read]
        rfl
      · rw [List.length_drop]
        omega

/-- The supply refuses nothing and has random bytes for this many pairs. -/
structure Supply.Lasts (supply : Supply) (pairs : Nat) : Prop where
  agreement : supply.agreement = .unlimited
  generation : supply.generation = .unlimited
  entropy : supply.entropy.Lasts pairs

/-- A supply of zeros for this many pairs. -/
def Supply.zeros (pairs : Nat) : Supply where
  entropy := .stock (List.replicate (32 * pairs) 0)

theorem Supply.lasts_zeros (pairs : Nat) : (zeros pairs).Lasts pairs where
  agreement := rfl
  generation := rfl
  entropy := Entropy.lasts_stock (by rw [List.length_replicate])

section

variable {supply : Supply} {pairs : Nat}

theorem Suite.run_agreeOn_of_lasts (lasts : supply.Lasts pairs) (secret : PrivateKey)
    (key : PublicKey) :
    (suite.agreeOn secret key).run supply = (.ok (suite.agree secret key), supply) := by
  have unlimited := lasts.agreement
  cases supply
  cases unlimited
  rfl

theorem Suite.run_turn_of_lasts (lasts : supply.Lasts pairs) (root : RootKey) (theirs : PublicKey)
    (ours : KeyPair) :
    (suite.turn root theirs ours).run supply =
      (.ok (root.turn (suite.agree ours.privateKey theirs)), supply) := by
  simp only [turn]
  rw [Procedure.run_bind_of_ok (suite.run_agreeOn_of_lasts lasts _ _)]
  rfl

theorem Suite.run_generate_of_lasts (lasts : supply.Lasts (pairs + 1)) :
    ∃ ours later, suite.generate.run supply = (.ok ours, later) ∧ later.Lasts pairs := by
  obtain ⟨agreement, generation, taken, rest, took, restLasts⟩ := lasts
  refine ⟨⟨suite.publicKey ⟨taken⟩, ⟨taken⟩⟩, { supply with entropy := rest }, ?_,
    agreement, generation, restLasts⟩
  cases supply
  cases generation
  simp only [generate, Attempt.random]
  rw [Procedure.run_bind, Procedure.run_get]
  dsimp only [Allowance.spend]
  rw [Procedure.run_bind, Procedure.run_set]
  dsimp only
  rw [Procedure.run_bind, Procedure.run_bind, Procedure.run_get]
  dsimp only at took ⊢
  rw [took]
  rfl

theorem Handshake.run_agreeOneTime_of_lasts (lasts : supply.Lasts pairs) {α : Type}
    (secret : α → PrivateKey) (key : α → PublicKey) (oneTime : Option α) :
    (agreeOneTime (fun prekey => suite.agreeOn (secret prekey) (key prekey)) oneTime).run supply =
      (.ok (oneTime.map fun prekey => suite.agree (secret prekey) (key prekey)).toList,
        supply) := by
  cases oneTime with
  | none => rfl
  | some prekey =>
      simp only [agreeOneTime]
      rw [Procedure.run_bind_of_ok (suite.run_agreeOn_of_lasts lasts _ _)]
      rfl

/-- The initiator's handshake succeeds with a supply that lasts. -/
theorem Session.run_initiate_of_lasts (lasts : supply.Lasts (pairs + 1)) (terms : InitiatorTerms) :
    ∃ ratchet later, suite.generate.run supply = (.ok ratchet, later) ∧ later.Lasts pairs ∧
      (initiate suite terms).run supply = (.ok (initiated suite terms ratchet), later) := by
  obtain ⟨ratchet, later, generated, laterLasts⟩ := suite.run_generate_of_lasts lasts
  refine ⟨ratchet, later, generated, laterLasts, ?_⟩
  simp only [initiate]
  rw [Procedure.run_bind_of_ok (suite.run_agreeOn_of_lasts lasts _ _)]
  rw [Procedure.run_bind_of_ok (suite.run_agreeOn_of_lasts lasts _ _)]
  rw [Procedure.run_bind_of_ok (suite.run_agreeOn_of_lasts lasts _ _)]
  rw [Procedure.run_bind_of_ok (Handshake.run_agreeOneTime_of_lasts suite lasts
    (fun _ => terms.ourBase.privateKey) (fun prekey => prekey) _)]
  rw [Procedure.run_bind_of_ok generated]
  rw [Procedure.run_bind_of_ok (suite.run_turn_of_lasts laterLasts _ _ _)]
  rfl

/-- The responder's handshake succeeds with a supply that lasts. -/
theorem Session.run_respond_of_lasts (lasts : supply.Lasts pairs) (terms : ResponderTerms) :
    (respond suite terms).run supply = (.ok (responded suite terms), supply) := by
  simp only [respond]
  rw [Procedure.run_bind_of_ok (suite.run_agreeOn_of_lasts lasts _ _)]
  rw [Procedure.run_bind_of_ok (suite.run_agreeOn_of_lasts lasts _ _)]
  rw [Procedure.run_bind_of_ok (suite.run_agreeOn_of_lasts lasts _ _)]
  rw [Procedure.run_bind_of_ok (Handshake.run_agreeOneTime_of_lasts suite lasts
    KeyPair.privateKey (fun _ => terms.theirBase) _)]
  rfl

/-- Turning succeeds with a supply that lasts. -/
theorem Session.run_decrypt_new_of_lasts (lasts : supply.Lasts (pairs + 1)) {session : Session}
    {sending : SendingChain} {message : RatchetMessage} (sends : session.sending = some sending)
    (speaks : message.version = session.version)
    (new : session.receivingChain? message.ratchetKey = none) :
    ∃ ours later, suite.generate.run supply = (.ok ours, later) ∧ later.Lasts pairs ∧
      (session.decrypt suite message).run supply =
        (session.receive (session.turned suite sending message ours)
          (session.opened suite sending message.ratchetKey) message, later) := by
  obtain ⟨ours, later, generated, laterLasts⟩ := suite.run_generate_of_lasts lasts
  refine ⟨ours, later, generated, laterLasts, ?_⟩
  rw [run_decrypt suite sends speaks, chainOf, new]
  dsimp only
  simp only [turn]
  rw [Procedure.run_bind_of_ok (suite.run_turn_of_lasts lasts _ _ _)]
  rw [Procedure.run_bind_of_ok generated]
  rw [Procedure.run_bind_of_ok (suite.run_turn_of_lasts laterLasts _ _ _)]
  rfl

end

end Ratchet
