import Ratchet.Proofs.Record.Deciding
import Ratchet.Proofs.Session.Invariant

/-!
# No message is received twice

When a message has been received, its counter is spent in the chain of its
ratchet key: the chain does not await it any more (`Session.Spent`). No call
makes a chain await what it does not await, so the counter stays spent for as
long as the chain is there, and every other message with this ratchet key and
this counter is refused as a duplicate, whatever it says
(`Session.replay_refused`).

A record tries its current session first, and a duplicate is no mere refusal,
so a conversation that receives the message again ends there and changes
nothing.
-/

set_option autoImplicit false

namespace Ratchet

namespace ReceivingChain

/-- What a chain does not await, it does not await later either. -/
theorem Traces.awaits_of_moves {chain next : ReceivingChain} {origin : ChainKey}
    (traces : chain.Traces origin) (moves : chain.Moves next) {counter : Nat}
    (awaited : next.progress.Awaits counter) : chain.progress.Awaits counter := by
  cases moves with
  | stays => exact awaited
  | closes limit =>
      rw [(traces.skipTo limit).1] at awaited
      exact Progress.awaits_of_skipTo awaited
  | gives given => exact Progress.awaits_of_receive (traces.keysAt given).1 awaited

/-- A chain has no keys for what it does not await. -/
theorem Traces.keysAt_of_not_awaits {chain : ReceivingChain} {origin : ChainKey}
    (traces : chain.Traces origin) {counter : UInt32}
    (done : ¬ chain.progress.Awaits counter.toNat) :
    chain.keysAt counter = .error (.duplicateMessage chain.chain.index counter) := by
  rw [traces.eq_tracing, keysAt_tracing _ traces.starts traces.sound,
    Progress.receive_of_not_awaits done, ← traces.eq_tracing]
  show Except.error (SessionError.duplicateMessage (.ofNat chain.chain.index.toNat) counter) = _
  rw [UInt32.ofNat_toNat]

end ReceivingChain

namespace Session

variable (suite : Suite)

/-- The chain of a ratchet key, if it is there, does not await the counter. -/
def Spent (session : Session) (ratchetKey : PublicKey) (counter : Nat) : Prop :=
  ∀ chain, session.receivingChain? ratchetKey = some chain → ¬ chain.progress.Awaits counter

/-- What has been received is spent. -/
theorem Traced.spent_of_received {chronicle : Chronicle} (traced : Traced chronicle)
    {next : Session} {message : RatchetMessage} {plaintext : Bytes}
    (received : Received suite chronicle.session message plaintext next) :
    next.Spent message.ratchetKey message.counter.toNat := by
  intro chain found
  obtain ⟨member, key⟩ := mem_of_receivingChain? found
  cases received with
  | @known before left keys known given opens =>
      obtain ⟨beforeMember, beforeKey⟩ := mem_of_receivingChain? known
      have leftKey := (ReceivingChain.ratchetKey_of_keysAt given).trans beforeKey
      rcases mem_putReceiving traced.distinct member with rfl | ⟨_, other⟩
      · obtain ⟨first, _, traces⟩ := traced.traces before beforeMember
        exact Progress.not_awaits_of_receive traces.sound (traces.keysAt given).1
      · exact absurd (key.trans leftKey.symm) other
  | @new sending ours left keys sends absent given opens =>
      have leftKey : left.ratchetKey = message.ratchetKey :=
        ReceivingChain.ratchetKey_of_keysAt given
      rcases mem_putReceiving (traced.distinct.turned suite sending message ours) member with
        rfl | ⟨_, other⟩
      · have traces : ReceivingChain.Traces
            (chronicle.session.opened suite sending message.ratchetKey) _ :=
          ReceivingChain.traces_new rfl message.ratchetKey
        exact Progress.not_awaits_of_receive traces.sound (traces.keysAt given).1
      · exact absurd (key.trans leftKey.symm) other

/-- What is spent stays spent as long as its chain is there. -/
theorem Traced.spent_call {chronicle : Chronicle} (traced : Traced chronicle)
    {ratchetKey : PublicKey} {counter : Nat}
    (present : (chronicle.session.receivingChain? ratchetKey).isSome)
    (spent : chronicle.session.Spent ratchetKey counter) (call : Call) :
    (chronicle.session.call suite call).Spent ratchetKey counter := by
  rcases call_cases suite chronicle.session call with
    same | ⟨sending, position, _, stepped⟩ | ⟨message, plaintext, received⟩
  · rw [same]
    exact spent
  · rw [stepped]
    exact spent
  · intro chain found
    obtain ⟨member, rfl⟩ := mem_of_receivingChain? found
    obtain ⟨before, moves, old | ⟨absent, _⟩⟩ := received.moves suite traced.distinct chain member
    · obtain ⟨first, _, traces⟩ := traced.traces before old
      have known := receivingChain?_of_mem traced.distinct old
      rw [← moves.ratchetKey_eq] at known
      exact fun awaited => spent before known (traces.awaits_of_moves moves awaited)
    · rw [absent] at present
      cases present

theorem Traced.spent_after {chronicle : Chronicle} (traced : Traced chronicle)
    {ratchetKey : PublicKey} {counter : Nat}
    (spent : chronicle.session.Spent ratchetKey counter) (calls : List Call)
    (retained : ∀ done, done <+: calls →
      ((chronicle.session.after suite done).receivingChain? ratchetKey).isSome) :
    (chronicle.session.after suite calls).Spent ratchetKey counter := by
  induction calls using List.reverseRecOn with
  | nil => exact spent
  | append_singleton calls last ih =>
      have before := ih fun done initial =>
        retained done (initial.trans (List.prefix_append calls [last]))
      have present := retained calls (List.prefix_append calls [last])
      rw [after_snoc]
      rw [← Chronicle.session_after] at before present ⊢
      exact (traced.after suite calls).spent_call suite present before last

/-- A message with a spent counter is a duplicate, whoever made it. -/
theorem Traced.run_decrypt_spent {chronicle : Chronicle} (traced : Traced chronicle)
    {chain : ReceivingChain} {message : RatchetMessage}
    (found : chronicle.session.receivingChain? message.ratchetKey = some chain)
    (spent : chronicle.session.Spent message.ratchetKey message.counter.toNat)
    (speaks : message.version = chronicle.session.version) (supply : Supply) :
    (chronicle.session.decrypt suite message).run supply =
      (.error (.duplicateMessage chain.chain.index message.counter), supply) := by
  obtain ⟨sending, sends⟩ := Option.isSome_iff_exists.mp traced.sends
  obtain ⟨first, _, traces⟩ := traced.traces chain (mem_of_receivingChain? found).1
  rw [run_decrypt_known suite sends speaks found, receive,
    traces.keysAt_of_not_awaits (spent chain found)]
  rfl

/-- A message with the ratchet key and the counter of one that was received is a
duplicate, as long as its chain has stayed. -/
theorem Traced.run_decrypt_replay {chronicle : Chronicle} (traced : Traced chronicle)
    {message : RatchetMessage} {supply left : Supply} {plaintext : Bytes} {next : Session}
    (received : (chronicle.session.decrypt suite message).run supply =
      (.ok (plaintext, next), left))
    (later : List Call)
    (retained : ∀ done, done <+: later →
      ((next.after suite done).receivingChain? message.ratchetKey).isSome)
    {replay : RatchetMessage} (sameKey : replay.ratchetKey = message.ratchetKey)
    (sameCounter : replay.counter = message.counter)
    (speaks : replay.version = (next.after suite later).version) :
    ∃ index, ∀ supply, ((next.after suite later).decrypt suite replay).run supply =
      (.error (.duplicateMessage index message.counter), supply) := by
  have called : (chronicle.call suite (.decrypt message supply)).session = next :=
    call_of_decrypt suite received
  have spent := traced.spent_of_received suite (received_of_run_decrypt suite received)
  have tracedNext := traced.call suite (.decrypt message supply)
  rw [← called] at spent retained speaks ⊢
  have tracedLater := tracedNext.after suite later
  have spentLater := tracedNext.spent_after suite spent later retained
  obtain ⟨chain, found⟩ := Option.isSome_iff_exists.mp (retained later (List.prefix_refl later))
  rw [← Chronicle.session_after] at spentLater found speaks ⊢
  rw [← sameKey] at spentLater found
  rw [← sameCounter] at spentLater ⊢
  exact ⟨chain.chain.index, tracedLater.run_decrypt_spent suite found spentLater speaks⟩

end Session

namespace Conversation

variable {ς : Type} [ProtocolStore ς]

/-- When the current session has received the message already, the conversation
says so and leaves everything as it is. -/
theorem run_decryptRatchet_duplicate (suite : Suite) (peer : Address) {context : Context ς}
    {record : SessionRecord} {session : Session} {message : RatchetMessage} {index : UInt32}
    (stored : ProtocolStore.loadRecord context.store peer = .ok (some record))
    (current : record.current = some session)
    (duplicate : (session.decrypt suite message).run context.supply =
      (.error (.duplicateMessage index message.counter), context.supply))
    (receiver : Bytes → Except SessionError Unit) :
    (decryptRatchet suite peer message receiver).run context =
      (.error (.duplicateMessage index message.counter), context) := by
  have refused : (record.decrypt suite peer message).run context.supply =
      (.error (.duplicateMessage index message.counter), context.supply) := by
    simp only [SessionRecord.decrypt, SessionRecord.candidates]
    rw [current]
    exact SessionRecord.run_tryEach_cons_error suite peer duplicate ErrorKind.noConfusion
  exact run_decryptRatchet_of_error suite peer stored refused receiver

end Conversation

namespace Session

/-- **A message that was received is refused for as long as its chain is there.** Every
message with its ratchet key and counter is a duplicate, to the session and to
every conversation in which the session is current, and nothing changes. -/
theorem replay_refused (suite : Suite) {start : Session} (opened : start.Opened suite)
    (earlier : List Call) {message : RatchetMessage} {supply left : Supply} {plaintext : Bytes}
    {next : Session}
    (received : ((start.after suite earlier).decrypt suite message).run supply =
      (.ok (plaintext, next), left))
    (later : List Call)
    (retained : ∀ done, done <+: later →
      ((next.after suite done).receivingChain? message.ratchetKey).isSome)
    (replay : RatchetMessage) (sameKey : replay.ratchetKey = message.ratchetKey)
    (sameCounter : replay.counter = message.counter)
    (speaks : replay.version = (next.after suite later).version) :
    ∃ index,
      (∀ supply, ((next.after suite later).decrypt suite replay).run supply =
        (.error (.duplicateMessage index message.counter), supply)) ∧
      ∀ {ς : Type} [ProtocolStore ς] (peer : Address) (context : Context ς)
        (record : SessionRecord) (receiver : Bytes → Except SessionError Unit),
        ProtocolStore.loadRecord context.store peer = .ok (some record) →
        record.current = some (next.after suite later) →
        (Conversation.decryptRatchet suite peer replay receiver).run context =
          (.error (.duplicateMessage index message.counter), context) := by
  have traced := (opened.traced suite).after suite earlier
  have session :
      ((Chronicle.start start).after suite earlier).session = start.after suite earlier :=
    Chronicle.session_after suite (.start start) earlier
  rw [← session] at received
  obtain ⟨index, duplicate⟩ :=
    traced.run_decrypt_replay suite received later retained sameKey sameCounter speaks
  refine ⟨index, duplicate, ?_⟩
  intro ς _ peer context record receiver stored current
  rw [← sameCounter] at duplicate ⊢
  exact Conversation.run_decryptRatchet_duplicate suite peer stored current
    (duplicate context.supply) receiver

/-- A message that was overtaken is received late, and comes again with another body when the
session has received one more and has turned. -/
theorem late_message_refused_again :
    let start := sampleReceiver sampleOwn .start
    let next := sampleReceiver sampleOwn ⟨3, [1]⟩
    let earlier : List Call := [.decrypt (sampleMessage 2) sampleSupply]
    let later : List Call :=
      [.decrypt (sampleMessage 1) sampleSupply, .decrypt sampleReply sampleSupply]
    start.Opened Suite.classic ∧
    ((start.after Suite.classic earlier).decrypt Suite.classic (sampleMessage 0)).run
      sampleSupply = (.ok ([1], next), sampleSupply) ∧
    (next.after Suite.classic later).receiving.map (fun chain =>
      (chain.chain.index, chain.skipped.map (·.counter))) = [(5, [3, 4]), (1, [])] ∧
    ∃ index, ∀ supply, ((next.after Suite.classic later).decrypt Suite.classic
      { sampleMessage 0 with body := [5] }).run supply =
        (.error (.duplicateMessage index (sampleMessage 0).counter), supply) := by
  intro start next earlier later
  have kept : Progress.start.keeping 2 = [0, 1] := by decide +kernel
  have takesThird : Progress.start.receive (.ofNat 2) = .ok ⟨3, [0, 1]⟩ := by
    rw [← kept]
    rfl
  have takesFirst : (⟨3, [0, 1]⟩ : Progress).receive (.ofNat 0) = .ok ⟨3, [1]⟩ := rfl
  have takesSecond : (⟨3, [1]⟩ : Progress).receive (.ofNat 1) = .ok ⟨3, []⟩ := rfl
  have soundThird := Progress.Sound.start.receive takesThird
  have soundFirst := soundThird.receive takesFirst
  have third := run_decrypt_sampleMessage sampleOwn .start (by decide) takesThird sampleSupply
  have first := run_decrypt_sampleMessage sampleOwn soundThird (by decide) takesFirst sampleSupply
  have second := run_decrypt_sampleMessage sampleOwn soundFirst (by decide) takesSecond sampleSupply
  obtain ⟨turned, rest, reply, version, receiving⟩ :=
    run_decrypt_sampleReply (soundFirst.receive takesSecond)
  have received : ((start.after Suite.classic earlier).decrypt Suite.classic
      (sampleMessage 0)).run sampleSupply = (.ok ([1], next), sampleSupply) := by
    rw [after_cons, call_of_decrypt Suite.classic third]
    exact first
  have final : next.after Suite.classic later = turned := by
    rw [after_cons, call_of_decrypt Suite.classic second, after_cons,
      call_of_decrypt Suite.classic reply]
    rfl
  have present : (turned.receivingChain? default).isSome := by
    rw [receivingChain?, receiving]
    rfl
  have retained : ∀ done, done <+: later →
      ((next.after Suite.classic done).receivingChain? (sampleMessage 0).ratchetKey).isSome := by
    intro done initial
    simp only [later, List.prefix_cons_iff, List.prefix_nil] at initial
    rcases initial with rfl | ⟨_, rfl, rfl | ⟨_, rfl, rfl⟩⟩
    · rfl
    · rw [after_cons, call_of_decrypt Suite.classic second]
      rfl
    · rw [final]
      exact present
  have speaks : ({ sampleMessage 0 with body := [5] } : RatchetMessage).version =
      (next.after Suite.classic later).version := by
    rw [final, version]
    rfl
  refine ⟨opened_sampleReceiver, received, ?_, ?_⟩
  · rw [final, receiving]
    decide +kernel
  · obtain ⟨index, refused, _⟩ := replay_refused Suite.classic opened_sampleReceiver earlier
      received later retained { sampleMessage 0 with body := [5] } rfl rfl speaks
    exact ⟨index, refused⟩

end Session

end Ratchet
