import Ratchet.Proofs.Session.Sealing
import Ratchet.Proofs.Session.Belonging

/-!
# One chain of messages

A session that only sends goes along its sending chain (`Session.having`), and
its messages are numbered by the positions of the chain (`Session.letter`).

A receiver of these messages is one whose only receiving chain traces the
sender's (`Session.Hears`). It takes every message whose number it awaits and stays
a receiver (`Session.Hears.run_decrypt`); a responder that has received nothing
yet becomes one with whatever message comes first
(`Session.run_decrypt_first`).
-/

set_option autoImplicit false

namespace Ratchet

namespace Session

/-! ## Sending -/

/-- The session after so many messages on the sending chain that began here. -/
def having (session : Session) (ratchet : KeyPair) (origin : ChainKey) (sent : Nat) : Session :=
  { session with sending := some ⟨ratchet, origin.ahead sent⟩ }

/-- The message with this number and text. -/
def letter (session : Session) (ratchet : KeyPair) (origin : ChainKey) (number : Nat)
    (text : Bytes) : Message :=
  let now := session.having ratchet origin number
  now.wrap (now.sealed ⟨ratchet, origin.ahead number⟩ text)

/-- The messages with these texts, numbered from here on. -/
def letters (session : Session) (ratchet : KeyPair) (origin : ChainKey) (first : Nat) :
    List Bytes → List Message
  | [] => []
  | text :: rest =>
    session.letter ratchet origin first text :: session.letters ratchet origin (first + 1) rest

section

variable {session : Session} {ratchet : KeyPair} {origin : ChainKey}

theorem encrypt_having (starts : origin.index = 0) {number : Nat} (fits : number + 1 < 2 ^ 32)
    (text : Bytes) :
    (session.having ratchet origin number).encrypt text =
      .ok (session.letter ratchet origin number text,
        session.having ratchet origin (number + 1)) := by
  have next := ChainKey.next?_ahead starts fits
  simp only [encrypt, having]
  rw [next]
  rfl

@[simp]
theorem length_letters (first : Nat) (texts : List Bytes) :
    (session.letters ratchet origin first texts).length = texts.length := by
  induction texts generalizing first with
  | nil => rfl
  | cons text rest ih => rw [letters, List.length_cons, ih, List.length_cons]

theorem exists_eq_letter_of_mem {first : Nat} {texts : List Bytes} {message : Message}
    (member : message ∈ session.letters ratchet origin first texts) :
    ∃ number text, message = session.letter ratchet origin number text := by
  induction texts generalizing first with
  | nil => cases member
  | cons text rest ih =>
      rcases List.mem_cons.mp member with rfl | later
      · exact ⟨first, text, rfl⟩
      · exact ih later

/-- Every message that is sent has a number and is the message with this number. -/
theorem eq_letter_of_mem_zip {first : Nat} {texts : List Bytes} {sent : Message × Bytes}
    (member : sent ∈ (session.letters ratchet origin first texts).zip texts) :
    ∃ number, first ≤ number ∧ number < first + texts.length ∧
      sent.1 = session.letter ratchet origin number sent.2 := by
  induction texts generalizing first with
  | nil => cases member
  | cons text rest ih =>
      rw [letters, List.zip_cons_cons, List.mem_cons] at member
      rcases member with rfl | later
      · exact ⟨first, le_rfl, by rw [List.length_cons]; omega, rfl⟩
      · obtain ⟨number, above, below, same⟩ := ih later
        exact ⟨number, by omega, by rw [List.length_cons]; omega, same⟩

theorem inner_letter (number : Nat) (text : Bytes) :
    (session.letter ratchet origin number text).inner =
      (session.having ratchet origin number).sealed ⟨ratchet, origin.ahead number⟩ text :=
  inner_wrap _ _

/-- A message carries its number as its counter. -/
theorem counter_letter (starts : origin.index = 0) {number : Nat} (fits : number < 2 ^ 32)
    (text : Bytes) : (session.letter ratchet origin number text).inner.counter.toNat = number := by
  rw [inner_letter]
  exact ChainKey.toNat_index_ahead starts fits

/-- No two messages have the same number. -/
theorem nodup_counters (starts : origin.index = 0) {first : Nat} {texts : List Bytes}
    (fits : first + texts.length ≤ 2 ^ 32) :
    (((session.letters ratchet origin first texts).zip texts).map
      fun sent => sent.1.inner.counter.toNat).Nodup := by
  induction texts generalizing first with
  | nil => exact List.nodup_nil
  | cons text rest ih =>
      rw [List.length_cons] at fits
      rw [letters, List.zip_cons_cons, List.map_cons, List.nodup_cons]
      refine ⟨fun repeated => ?_, ih (by omega)⟩
      obtain ⟨sent, member, same⟩ := List.mem_map.mp repeated
      obtain ⟨number, above, below, is⟩ := eq_letter_of_mem_zip member
      dsimp only at same
      rw [is, counter_letter starts (by omega), counter_letter starts (by omega)] at same
      omega

end

/-! ## Receiving -/

/-- The session receives on the chain of this sender, and has come so far in it. -/
structure Hears (receiver sender : Session) (ratchet : KeyPair) (origin : ChainKey)
    (base : PublicKey) (progress : Progress) : Prop where
  version : receiver.version = Limits.currentVersion
  source : receiver.remoteIdentity = sender.localIdentity
  target : receiver.localIdentity = sender.remoteIdentity
  sends : receiver.sending.isSome
  receiving : receiver.receiving = [.tracing ratchet.publicKey origin progress]
  named : receiver.initiatorBase = some base
  sound : progress.Sound

section

variable {receiver sender : Session} {ratchet : KeyPair} {origin : ChainKey} {base : PublicKey}
  {progress : Progress}

/-- A receiver of one chain is compact. -/
theorem Hears.compact (hears : receiver.Hears sender ratchet origin base progress) :
    receiver.Compact := by
  have receiving := hears.receiving
  refine ⟨?_, ?_, ?_⟩
  · simp only [Distinct]
    rw [receiving]
    exact List.nodup_singleton _
  · rw [receiving]
    exact (by decide : 1 ≤ Limits.receivingChains)
  · intro chain member
    rw [receiving, List.mem_singleton] at member
    rw [member]
    exact (List.length_map _).trans_le hears.sound.bounded

/-- A chain takes the place of the only one, or is the first. -/
theorem receiving_putReceiving_alone {session : Session} {chain : ReceivingChain}
    (alone : ∀ other ∈ session.receiving, other.ratchetKey = chain.ratchetKey)
    (few : session.receiving.length ≤ 1) : (session.putReceiving chain).receiving = [chain] := by
  cases present : session.receiving with
  | nil =>
      have new : session.receivingChain? chain.ratchetKey = Option.none := by
        simp only [receivingChain?, present, List.find?_nil]
      rw [receiving_putReceiving_of_none new, present]
      rfl
  | cons other rest =>
      rw [present, List.length_cons] at few
      obtain rfl : rest = [] := List.eq_nil_of_length_eq_zero (by omega)
      have same := alone other (by rw [present]; exact List.mem_singleton_self other)
      have distinct : session.Distinct := by
        simp only [Distinct, present]
        exact List.nodup_singleton _
      have known : session.receivingChain? chain.ratchetKey = some other := by
        simp only [receivingChain?, present, List.find?_cons, same, decide_true]
      rw [receiving_putReceiving_of_some distinct known, present, List.map_singleton,
        if_pos same]

/-- Taking a message from a chain that awaits it. -/
theorem receive_letter (ratchet : KeyPair) (source : receiver.remoteIdentity = sender.localIdentity)
    (target : receiver.localIdentity = sender.remoteIdentity) (starts : origin.index = 0)
    (sound : progress.Sound) {number : Nat} (short : number ≤ Limits.skippedKeys)
    (awaited : progress.Awaits number) (text : Bytes) (around : Session) :
    ∃ after : Progress, after.Sound ∧
      (∀ other, other ≠ number → progress.Awaits other → after.Awaits other) ∧
      receiver.receive around (.tracing ratchet.publicKey origin progress)
          (sender.letter ratchet origin number text).inner =
        .ok (text, { around.putReceiving (.tracing ratchet.publicKey origin after) with
          pendingPrekey := none }) := by
  have limit : Limits.skippedKeys = 2000 := rfl
  have fits : number < 2 ^ 32 := by omega
  have counter : (UInt32.ofNat number).toNat = number := UInt32.toNat_ofNat_of_lt' fits
  obtain ⟨after, admitted, others⟩ := sound.receive_of_awaits
    (counter.le.trans short) (counter.symm ▸ awaited)
  rw [counter] at others
  refine ⟨after, sound.receive admitted, others, ?_⟩
  rw [inner_letter]
  have same : (sender.having ratchet origin number).localIdentity = sender.localIdentity := rfl
  exact receive_sealed source target starts sound fits rfl admitted around ratchet.publicKey text

/-- **A receiver takes every message that it awaits**, and goes on awaiting the others. -/
theorem Hears.run_decrypt (hears : receiver.Hears sender ratchet origin base progress)
    (suite : Suite) (speaks : sender.version = Limits.currentVersion) (starts : origin.index = 0)
    {number : Nat} (short : number ≤ Limits.skippedKeys) (awaited : progress.Awaits number)
    (text : Bytes) (supply : Supply) :
    ∃ next after,
      (receiver.decrypt suite (sender.letter ratchet origin number text).inner).run supply =
        (.ok (text, next), supply) ∧
      next.Hears sender ratchet origin base after ∧
      ∀ other, other ≠ number → progress.Awaits other → after.Awaits other := by
  obtain ⟨sending, sends⟩ := Option.isSome_iff_exists.mp hears.sends
  have version : (sender.letter ratchet origin number text).inner.version = receiver.version := by
    rw [inner_letter, hears.version]
    exact speaks
  have known :
      receiver.receivingChain? (sender.letter ratchet origin number text).inner.ratchetKey =
        some (.tracing ratchet.publicKey origin progress) := by
    rw [inner_letter, receivingChain?, hears.receiving]
    exact List.find?_cons_of_pos (decide_eq_true rfl)
  obtain ⟨after, sound, others, received⟩ := receive_letter ratchet hears.source hears.target
    starts hears.sound short awaited text receiver
  refine ⟨_, after, by rw [run_decrypt_known suite sends version known, received], ?_, others⟩
  have put : (receiver.putReceiving (.tracing ratchet.publicKey origin after)).receiving =
      [.tracing ratchet.publicKey origin after] := by
    refine receiving_putReceiving_alone ?_ (by rw [hears.receiving]; exact le_rfl)
    intro other member
    rw [hears.receiving, List.mem_singleton] at member
    rw [member]
    rfl
  rw [putReceiving_eq]
  exact ⟨hears.version, hears.source, hears.target, hears.sends, put, hears.named, sound⟩

/-- **A responder takes any message first**, if its new chain is the sender's. -/
theorem run_decrypt_first (suite : Suite) (speaks : sender.version = Limits.currentVersion)
    (starts : origin.index = 0) {terms : ResponderTerms}
    (source : terms.theirIdentity = sender.localIdentity)
    (target : terms.ourIdentity.publicKey = sender.remoteIdentity)
    (agreed : ((responded suite terms).root.turn
      (suite.agree terms.ourRatchet.privateKey ratchet.publicKey)).2 = origin)
    {number : Nat} (short : number ≤ Limits.skippedKeys) (text : Bytes) {supply : Supply}
    {pairs : Nat} (lasts : supply.Lasts (pairs + 1)) :
    ∃ next after later,
      ((responded suite terms).decrypt suite (sender.letter ratchet origin number text).inner).run
        supply = (.ok (text, next), later) ∧
      next.Hears sender ratchet origin terms.theirBase after ∧
      ∀ other, other ≠ number → after.Awaits other := by
  have version : (sender.letter ratchet origin number text).inner.version =
      (responded suite terms).version := by
    rw [inner_letter]
    exact speaks
  let made := responded suite terms
  have sends : made.sending =
      some ⟨terms.ourRatchet, (Handshake.derive (terms.secrets suite)).2⟩ := rfl
  obtain ⟨ours, later, _, _, run⟩ := run_decrypt_new_of_lasts suite lasts sends version rfl
  have madeSource : made.remoteIdentity = sender.localIdentity := source
  have madeTarget : made.localIdentity = sender.remoteIdentity := target
  obtain ⟨after, sound, others, received⟩ := receive_letter ratchet madeSource madeTarget starts
    .start short (.inl (Nat.zero_le _)) text (made.turned suite
      ⟨terms.ourRatchet, (Handshake.derive (terms.secrets suite)).2⟩
      (sender.letter ratchet origin number text).inner ours)
  have opened : made.opened suite ⟨terms.ourRatchet, (Handshake.derive (terms.secrets suite)).2⟩
      (sender.letter ratchet origin number text).inner.ratchetKey =
      .tracing ratchet.publicKey origin .start := by
    rw [inner_letter, ReceivingChain.tracing_start, ← agreed]
    rfl
  refine ⟨_, after, later, by rw [run, opened, received], ?_, fun other different =>
    others other different (.inl (Nat.zero_le _))⟩
  have put : ((made.turned suite ⟨terms.ourRatchet, (Handshake.derive (terms.secrets suite)).2⟩
      (sender.letter ratchet origin number text).inner ours).putReceiving
        (.tracing ratchet.publicKey origin after)).receiving =
      [.tracing ratchet.publicKey origin after] :=
    receiving_putReceiving_alone (fun _ member => absurd member List.not_mem_nil) (Nat.zero_le _)
  rw [putReceiving_eq]
  exact ⟨rfl, source, target, rfl, put, rfl, sound⟩

end

end Session

end Ratchet
