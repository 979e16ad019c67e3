import Mathlib.Data.List.Nodup
import Ratchet.Proofs.Session.Calls
import Ratchet.Proofs.Session.Sealing

/-!
# What a session sends

Messages that were sent cannot be seen in a session any more, so they are written
down beside it, chain by chain (`Outbox`). A session begins a sending chain when
it is started, and another one whenever it turns.

A call leaves the sending chain alone, sends one message at its position and steps
on, or turns and keeps the position as the number of messages that were sent
(`Session.Advances`). So the messages of every chain are numbered from zero on,
and name the number of messages on the chain before (`SentChain.Numbered`), and if
no ratchet key is made twice, no two messages have the same key and the same number
(`Session.sends_in_order`).
-/

set_option autoImplicit false

namespace Ratchet

/-- A ratchet key, and the messages that were sent on the chain of this key, oldest first. -/
structure SentChain where
  ratchetKey : PublicKey
  messages : List Message := []

/-- How many messages were sent on the newest of these chains, none if there is no chain. -/
def SentChain.newestLength : List SentChain → Nat
  | [] => 0
  | newest :: _ => newest.messages.length

/-- The messages carry the key of their chain, are numbered from zero on, and name the number of
messages on the chain before. -/
structure SentChain.Numbered (chain : SentChain) (before : Nat) : Prop where
  key : ∀ message ∈ chain.messages, message.inner.ratchetKey = chain.ratchetKey
  counters : chain.messages.map (·.inner.counter.toNat) = List.range chain.messages.length
  previous : ∀ message ∈ chain.messages, message.inner.previousCounter.toNat = before

namespace SentChain

theorem numbered_new (ratchetKey : PublicKey) (before : Nat) :
    Numbered ⟨ratchetKey, []⟩ before where
  key _ member := absurd member List.not_mem_nil
  counters := rfl
  previous _ member := absurd member List.not_mem_nil

/-- A message with the next number may follow. -/
theorem Numbered.snoc {chain : SentChain} {before : Nat} (numbered : chain.Numbered before)
    {message : Message} (key : message.inner.ratchetKey = chain.ratchetKey)
    (counter : message.inner.counter.toNat = chain.messages.length)
    (previous : message.inner.previousCounter.toNat = before) :
    Numbered { chain with messages := chain.messages ++ [message] } before where
  key sent member := by
    rcases List.mem_append.mp member with earlier | last
    · exact numbered.key sent earlier
    · rw [List.mem_singleton.mp last]
      exact key
  counters := by
    rw [List.map_append, numbered.counters, List.length_append, List.length_singleton,
      List.range_succ, List.map_singleton, counter]
  previous sent member := by
    rcases List.mem_append.mp member with earlier | last
    · exact numbered.previous sent earlier
    · rw [List.mem_singleton.mp last]
      exact previous

/-- On one chain, no number is used twice. -/
theorem Numbered.nodup {chain : SentChain} {before : Nat} (numbered : chain.Numbered before) :
    (chain.messages.map fun message =>
      (message.inner.ratchetKey, message.inner.counter)).Nodup := by
  refine List.Nodup.of_map (fun pair => pair.2.toNat) ?_
  rw [List.map_map]
  show (chain.messages.map (·.inner.counter.toNat)).Nodup
  rw [numbered.counters]
  exact List.nodup_range

/-- Each of the chains is numbered, newest chain first. -/
def AllNumbered (chains : List SentChain) : Prop :=
  ∀ chain past, chain :: past <:+ chains → chain.Numbered (newestLength past)

theorem allNumbered_cons {newest : SentChain} {past : List SentChain}
    (numbered : newest.Numbered (newestLength past)) (others : AllNumbered past) :
    AllNumbered (newest :: past) := by
  intro chain before suffix
  rcases List.suffix_cons_iff.mp suffix with whole | suffix
  · cases whole
    exact numbered
  · exact others chain before suffix

theorem AllNumbered.newest {newest : SentChain} {past : List SentChain}
    (all : AllNumbered (newest :: past)) : newest.Numbered (newestLength past) :=
  all newest past (List.suffix_refl _)

theorem AllNumbered.past {newest : SentChain} {past : List SentChain}
    (all : AllNumbered (newest :: past)) : AllNumbered past :=
  fun chain before suffix => all chain before (suffix.trans (List.suffix_cons newest past))

theorem AllNumbered.of_mem {chains : List SentChain} (all : AllNumbered chains) {chain : SentChain}
    (member : chain ∈ chains) : ∃ before, chain.Numbered before := by
  obtain ⟨later, past, rfl⟩ := List.append_of_mem member
  exact ⟨_, all chain past (List.suffix_append _ _)⟩

end SentChain

namespace Session

/-- The message that a call sends. -/
def emits (session : Session) : Call → Option Message
  | .encrypt plaintext =>
    match session.encrypt plaintext with
    | .ok (message, _) => some message
    | .error _ => none
  | .decrypt _ _ => none

variable (suite : Suite)

/-- The ratchet key that a call makes: that of the sending chain after a message with a new
ratchet key. -/
def generates (session : Session) : Call → Option PublicKey
  | .encrypt _ => none
  | .decrypt message supply =>
    match ((session.decrypt suite message).run supply).1, session.receivingChain? message.ratchetKey
      with
    | .ok (_, next), none => next.sending.map (·.ratchet.publicKey)
    | _, _ => none

/-- The messages that calls send, one after another. -/
def emitted : Session → List Call → List Message
  | _, [] => []
  | session, call :: calls =>
    (session.emits call).toList ++ emitted (session.call suite call) calls

theorem emitted_snoc (session : Session) (calls : List Call) (last : Call) :
    session.emitted suite (calls ++ [last]) =
      session.emitted suite calls ++ ((session.after suite calls).emits last).toList := by
  induction calls generalizing session with
  | nil => simp [emitted, after]
  | cons call calls ih =>
      simp only [List.cons_append, emitted, ih, List.append_assoc]
      rfl

/-- What becomes of the sending chain when a session makes a call that sends this message and makes
this ratchet key. -/
inductive Advances (session next : Session) : Option Message → Option PublicKey → Prop where
  /-- The sending chain is left alone. -/
  | stays (sending_eq : next.sending = session.sending)
      (previous_eq : next.previousCounter = session.previousCounter) :
      Advances session next none none
  /-- A message is sent at the position of the chain. -/
  | sends {sending : SendingChain} {position : ChainKey} {plaintext : Bytes}
      (sends : session.sending = some sending) (follows : sending.chain.next? = some position)
      (sending_eq : next.sending = some { sending with chain := position })
      (previous_eq : next.previousCounter = session.previousCounter) :
      Advances session next (some (session.wrap (session.sealed sending plaintext))) none
  /-- A new chain takes the place of the chain, and its position is kept. -/
  | turns {sending : SendingChain} {ours : KeyPair} {chain : ChainKey}
      (sends : session.sending = some sending) (starts : chain.index = 0)
      (sending_eq : next.sending = some ⟨ours, chain⟩)
      (previous_eq : next.previousCounter = sending.chain.index) :
      Advances session next none (some ours.publicKey)

theorem advances_call (session : Session) (call : Call) :
    Advances session (session.call suite call) (session.emits call)
      (session.generates suite call) := by
  cases call with
  | encrypt plaintext =>
      simp only [Session.call, emits, generates]
      cases encrypted : session.encrypt plaintext with
      | error failure => exact .stays rfl rfl
      | ok result =>
          obtain ⟨message, next⟩ := result
          obtain ⟨sending, position, sends, follows, rfl, rfl⟩ := encrypt_eq_ok encrypted
          exact .sends sends follows rfl rfl
  | decrypt message supply =>
      simp only [Session.call, emits, generates]
      cases decrypted : (session.decrypt suite message).run supply with
      | mk outcome later =>
          cases outcome with
          | error failure => exact .stays rfl rfl
          | ok result =>
              obtain ⟨plaintext, next⟩ := result
              dsimp only
              cases received_of_run_decrypt suite decrypted with
              | known found given opens =>
                  rw [found, putReceiving_eq]
                  exact .stays rfl rfl
              | new sends absent given opens =>
                  rw [absent, putReceiving_eq]
                  exact .turns sends rfl rfl rfl

end Session

/-! ## The ledger -/

/-- A session, and what it has sent on each of its sending chains, newest chain first. -/
structure Outbox where
  session : Session
  chains : List SentChain

namespace Outbox

/-- The outbox of a session that has just been started. -/
def start (session : Session) : Outbox where
  session := session
  chains := (session.sending.map fun sending => ⟨sending.ratchet.publicKey, []⟩).toList

/-- Puts a message on the newest chain. -/
def record (message : Message) : List SentChain → List SentChain
  | [] => []
  | newest :: past => { newest with messages := newest.messages ++ [message] } :: past

variable (suite : Suite)

/-- The outbox after a call. -/
def call (outbox : Outbox) (call : Call) : Outbox where
  session := outbox.session.call suite call
  chains :=
    match outbox.session.emits call, outbox.session.generates suite call with
    | some message, _ => record message outbox.chains
    | none, some key => ⟨key, []⟩ :: outbox.chains
    | none, none => outbox.chains

/-- The outbox after any number of calls. -/
def after (outbox : Outbox) (calls : List Call) : Outbox := calls.foldl (Outbox.call suite) outbox

/-- All that was sent, oldest first. -/
def sent (outbox : Outbox) : List Message := outbox.chains.reverse.flatMap (·.messages)

/-- A message that is sent is put on the newest chain. -/
theorem call_of_encrypt (outbox : Outbox) {plaintext : Bytes} {message : Message} {next : Session}
    (encrypted : outbox.session.encrypt plaintext = .ok (message, next)) :
    outbox.call suite (.encrypt plaintext) = ⟨next, record message outbox.chains⟩ := by
  simp only [call, Session.call, Session.emits]
  rw [encrypted]

/-- A message with a new ratchet key begins a chain. -/
theorem call_of_turn (outbox : Outbox) {message : RatchetMessage} {supply later : Supply}
    {plaintext : Bytes} {next : Session} {sending : SendingChain}
    (new : outbox.session.receivingChain? message.ratchetKey = none)
    (decrypted : (outbox.session.decrypt suite message).run supply = (.ok (plaintext, next), later))
    (sends : next.sending = some sending) :
    outbox.call suite (.decrypt message supply) =
      ⟨next, ⟨sending.ratchet.publicKey, []⟩ :: outbox.chains⟩ := by
  simp only [call, Session.call, Session.emits, Session.generates]
  rw [decrypted, new]
  dsimp only
  rw [sends]
  rfl

theorem after_snoc (outbox : Outbox) (calls : List Call) (last : Call) :
    outbox.after suite (calls ++ [last]) = (outbox.after suite calls).call suite last :=
  List.foldl_append

@[simp]
theorem session_after (outbox : Outbox) (calls : List Call) :
    (outbox.after suite calls).session = outbox.session.after suite calls := by
  induction calls using List.reverseRecOn with
  | nil => rfl
  | append_singleton calls last ih =>
      rw [after_snoc, Session.after_snoc, ← ih]
      rfl

theorem sent_record (message : Message) {chains : List SentChain} (some : chains ≠ []) :
    (record message chains).reverse.flatMap (·.messages) =
      chains.reverse.flatMap (·.messages) ++ [message] := by
  cases chains with
  | nil => exact absurd rfl some
  | cons newest past =>
      simp only [record, List.reverse_cons, List.flatMap_append, List.flatMap_singleton,
        List.append_assoc]

/-- What carries the invariant: the newest chain is the one the session sends on, at the position
behind its messages, and the session knows the length of the chain before. -/
structure Kept (outbox : Outbox) : Prop where
  present : ∃ (sending : SendingChain) (newest : SentChain) (past : List SentChain),
    outbox.session.sending = some sending ∧ outbox.chains = newest :: past ∧
    sending.ratchet.publicKey = newest.ratchetKey ∧
    sending.chain.index.toNat = newest.messages.length ∧
    outbox.session.previousCounter.toNat = SentChain.newestLength past
  numbered : SentChain.AllNumbered outbox.chains

/-- A message that is sealed at the position of the newest chain is the next one on this chain. -/
theorem Kept.sends {outbox : Outbox} (kept : outbox.Kept) {next : Session} {sending : SendingChain}
    {position : ChainKey} (sends : outbox.session.sending = some sending)
    (follows : sending.chain.next? = some position)
    (sending_eq : next.sending = some { sending with chain := position })
    (previous_eq : next.previousCounter = outbox.session.previousCounter) (plaintext : Bytes) :
    Kept ⟨next, record (outbox.session.wrap (outbox.session.sealed sending plaintext))
      outbox.chains⟩ := by
  obtain ⟨⟨current, newest, past, sendsToo, chains, key, index, previous⟩, numbered⟩ := kept
  cases sends.symm.trans sendsToo
  rw [chains] at numbered ⊢
  have inner := outbox.session.inner_wrap (outbox.session.sealed sending plaintext)
  obtain ⟨rfl, fits⟩ := ChainKey.next?_eq_some follows
  refine ⟨⟨_, _, past, sending_eq, rfl, key, ?_, ?_⟩, ?_⟩
  · rw [ChainKey.toNat_index_step fits, index, List.length_append, List.length_singleton]
  · rw [← previous]
    exact congrArg UInt32.toNat previous_eq
  · refine SentChain.allNumbered_cons (numbered.newest.snoc ?_ ?_ ?_) numbered.past
    · rw [inner]
      exact key
    · rw [inner]
      exact index
    · rw [inner]
      exact previous

/-- A chain may begin behind the newest one, if the session keeps the position it had there. -/
theorem Kept.turns {outbox : Outbox} (kept : outbox.Kept) {next : Session} {sending : SendingChain}
    {ours : KeyPair} {chain : ChainKey} (sends : outbox.session.sending = some sending)
    (starts : chain.index = 0) (sending_eq : next.sending = some ⟨ours, chain⟩)
    (previous_eq : next.previousCounter = sending.chain.index) :
    Kept ⟨next, ⟨ours.publicKey, []⟩ :: outbox.chains⟩ := by
  obtain ⟨⟨current, newest, past, sendsToo, chains, _, index, _⟩, numbered⟩ := kept
  cases sends.symm.trans sendsToo
  refine ⟨⟨_, _, outbox.chains, sending_eq, rfl, rfl, ?_, ?_⟩, ?_⟩
  · exact congrArg UInt32.toNat starts
  · rw [chains]
    exact (congrArg UInt32.toNat previous_eq).trans index
  · exact SentChain.allNumbered_cons (SentChain.numbered_new _ _) numbered

/-- **Every call keeps the ledger true.** -/
theorem Kept.call {outbox : Outbox} (kept : outbox.Kept) (call : Call) :
    (outbox.call suite call).Kept := by
  have advances := outbox.session.advances_call suite call
  simp only [Outbox.call]
  generalize outbox.session.emits call = message at advances ⊢
  generalize outbox.session.generates suite call = made at advances ⊢
  generalize outbox.session.call suite call = next at advances ⊢
  cases advances with
  | stays sending_eq previous_eq =>
      obtain ⟨⟨sending, newest, past, sends, chains, key, index, previous⟩, numbered⟩ := kept
      rw [← previous_eq] at previous
      exact ⟨⟨sending, newest, past, sending_eq.trans sends, chains, key, index, previous⟩,
        numbered⟩
  | sends sends follows sending_eq previous_eq =>
      exact kept.sends sends follows sending_eq previous_eq _
  | turns sends starts sending_eq previous_eq =>
      exact kept.turns sends starts sending_eq previous_eq

theorem Kept.after {outbox : Outbox} (kept : outbox.Kept) (calls : List Call) :
    (outbox.after suite calls).Kept := by
  induction calls using List.reverseRecOn with
  | nil => exact kept
  | append_singleton calls last ih =>
      rw [after_snoc]
      exact ih.call suite last

/-- Every handshake begins with a chain on which nothing was sent. -/
theorem kept_start {session : Session} (opened : session.Opened suite) : (start session).Kept := by
  have first : ∃ sending, session.sending = some sending ∧ sending.chain.index = 0 ∧
      session.previousCounter = 0 := by
    cases opened with
    | initiated made =>
        obtain ⟨ratchet, _, rfl⟩ := Session.initiate_eq_ok suite made
        exact ⟨_, rfl, rfl, rfl⟩
    | responded made =>
        rw [Session.respond_eq_ok suite made]
        exact ⟨_, rfl, rfl, rfl⟩
    | exchanged made =>
        rcases Session.exchange_eq_ok suite made with ⟨ratchet, _, rfl⟩ | rfl
        · exact ⟨_, rfl, rfl, rfl⟩
        · exact ⟨_, rfl, rfl, rfl⟩
  obtain ⟨sending, sends, position, previous⟩ := first
  have chains : (start session).chains = [⟨sending.ratchet.publicKey, []⟩] := by
    rw [start, sends]
    rfl
  refine ⟨⟨sending, _, [], sends, chains, rfl, congrArg UInt32.toNat position,
    congrArg UInt32.toNat previous⟩, ?_⟩
  rw [chains]
  exact SentChain.allNumbered_cons (SentChain.numbered_new _ _)
    fun _ _ suffix => absurd (List.suffix_nil.mp suffix) (List.cons_ne_nil _ _)

/-- The ledger leaves nothing out. -/
theorem sent_after {outbox : Outbox} (kept : outbox.Kept) (calls : List Call) :
    (outbox.after suite calls).sent = outbox.sent ++ outbox.session.emitted suite calls := by
  induction calls using List.reverseRecOn with
  | nil => exact (List.append_nil _).symm
  | append_singleton calls last ih =>
      obtain ⟨_, newest, past, _, chains, _⟩ := (kept.after suite calls).present
      rw [after_snoc, Session.emitted_snoc, ← List.append_assoc, ← ih, ← session_after]
      generalize outbox.after suite calls = current at chains ⊢
      have advances := current.session.advances_call suite last
      simp only [Outbox.call, sent]
      generalize current.session.emits last = message at advances ⊢
      generalize current.session.generates suite last = made at advances ⊢
      cases advances with
      | stays _ _ => exact (List.append_nil _).symm
      | sends _ _ _ _ =>
          refine sent_record _ ?_
          rw [chains]
          exact List.cons_ne_nil _ _
      | turns _ _ _ _ => simp

/-- If no ratchet key was made twice, no two messages have the same key and the same number. -/
theorem Kept.nodup {outbox : Outbox} (kept : outbox.Kept)
    (distinct : (outbox.chains.map (·.ratchetKey)).Nodup) :
    (outbox.sent.map fun message => (message.inner.ratchetKey, message.inner.counter)).Nodup := by
  rw [sent, List.map_flatMap, List.nodup_flatMap]
  refine ⟨?_, ?_⟩
  · intro chain member
    obtain ⟨before, numbered⟩ := kept.numbered.of_mem (List.mem_reverse.mp member)
    exact numbered.nodup
  · have apart : outbox.chains.reverse.Pairwise fun first second =>
        first.ratchetKey ≠ second.ratchetKey := by
      rw [List.pairwise_reverse]
      exact (List.pairwise_map.mp distinct).imp Ne.symm
    refine apart.imp_of_mem ?_
    intro first second memberFirst memberSecond differ pair inFirst inSecond
    obtain ⟨_, numberedFirst⟩ := kept.numbered.of_mem (List.mem_reverse.mp memberFirst)
    obtain ⟨_, numberedSecond⟩ := kept.numbered.of_mem (List.mem_reverse.mp memberSecond)
    obtain ⟨message, sentFirst, rfl⟩ := List.mem_map.mp inFirst
    obtain ⟨other, sentSecond, same⟩ := List.mem_map.mp inSecond
    refine differ ?_
    rw [← numberedFirst.key message sentFirst, ← numberedSecond.key other sentSecond]
    exact (congrArg Prod.fst same).symm

end Outbox

namespace Session

variable (suite : Suite)

/-- A session refuses to send exactly at the last position of its chain, and stays as it is. -/
theorem encrypt_eq_error_iff {session : Session} {sending : SendingChain}
    (sends : session.sending = some sending) (plaintext : Bytes) :
    session.encrypt plaintext = .error (.invalidState .chainOverflow) ↔
      sending.chain.index = 0xFFFFFFFF := by
  simp only [encrypt, ChainKey.next?]
  rw [sends]
  dsimp only
  by_cases last : sending.chain.index = 0xFFFFFFFF
  · rw [if_pos last]
    exact iff_of_true rfl last
  · rw [if_neg last]
    refine iff_of_false ?_ last
    intro refused
    cases refused

/-- **No session sends two messages with the same key and number**, as long as no ratchet key is
made twice. The messages on each chain are numbered 0, 1, 2 and so on, and name the number of
messages on the chain before. The position of the present chain is the number of messages on it,
and at the last position, and only there, the session refuses to send and stays as it is. -/
theorem sends_in_order {start : Session} (opened : start.Opened suite) (calls : List Call)
    (distinct : (((Outbox.start start).after suite calls).chains.map (·.ratchetKey)).Nodup) :
    let outbox := (Outbox.start start).after suite calls
    let session := start.after suite calls
    outbox.sent = start.emitted suite calls ∧
    ((start.emitted suite calls).map fun message =>
      (message.inner.ratchetKey, message.inner.counter)).Nodup ∧
    (∀ chain past, chain :: past <:+ outbox.chains →
      chain.Numbered (SentChain.newestLength past)) ∧
    ∃ sending newest past, session.sending = some sending ∧ outbox.chains = newest :: past ∧
      sending.ratchet.publicKey = newest.ratchetKey ∧
      sending.chain.index.toNat = newest.messages.length ∧
      ∀ plaintext,
        (session.encrypt plaintext = .error (.invalidState .chainOverflow) ↔
          sending.chain.index = 0xFFFFFFFF) ∧
        (sending.chain.index = 0xFFFFFFFF → session.call suite (.encrypt plaintext) = session) := by
  intro outbox session
  have initial := Outbox.kept_start suite opened
  have kept : outbox.Kept := initial.after suite calls
  have sameSession : outbox.session = session := Outbox.session_after suite _ calls
  have nothing : (Outbox.start start).sent = [] := by
    simp only [Outbox.sent, Outbox.start]
    cases start.sending <;> rfl
  have sent : outbox.sent = start.emitted suite calls := by
    rw [Outbox.sent_after suite initial, nothing]
    rfl
  refine ⟨sent, ?_, kept.numbered, ?_⟩
  · rw [← sent]
    exact kept.nodup distinct
  · obtain ⟨sending, newest, past, sends, chains, key, position, _⟩ := kept.present
    rw [sameSession] at sends
    refine ⟨sending, newest, past, sends, chains, key, position, fun plaintext => ?_⟩
    have refuses := encrypt_eq_error_iff sends plaintext
    refine ⟨refuses, fun last => ?_⟩
    rw [Session.call, refuses.mpr last]

/-- A session turns when it receives the first message on the chain that it then opens. -/
theorem run_decrypt_sealed_of_lasts {sender receiver : Session}
    (source : receiver.remoteIdentity = sender.localIdentity)
    (target : receiver.localIdentity = sender.remoteIdentity)
    (speaks : sender.version = receiver.version) {sending : SendingChain}
    (sends : receiver.sending = some sending) {theirs : KeyPair}
    (new : receiver.receivingChain? theirs.publicKey = none) {supply : Supply} {pairs : Nat}
    (lasts : supply.Lasts (pairs + 1)) (plaintext : Bytes) :
    ∃ ours later next chain, suite.generate.run supply = (.ok ours, later) ∧
      (receiver.decrypt suite (sender.sealed
        ⟨theirs, (receiver.opened suite sending theirs.publicKey).chain⟩ plaintext)).run supply =
          (.ok (plaintext, next), later) ∧
      next.sending = some ⟨ours, chain⟩ ∧ chain.index = 0 := by
  obtain ⟨ours, later, generated, decrypted⟩ :=
    run_decrypt_sealed_of_new suite source target speaks sends new lasts plaintext
  let answer := sender.sealed ⟨theirs, (receiver.opened suite sending theirs.publicKey).chain⟩
    plaintext
  obtain ⟨chain, begins, starts⟩ : ∃ chain,
      (receiver.turned suite sending answer ours).sending = some ⟨ours, chain⟩ ∧
        chain.index = 0 := ⟨_, rfl, rfl⟩
  refine ⟨ours, later, _, chain, generated, decrypted, ?_, starts⟩
  rw [putReceiving_eq]
  exact begins

/-- A responder that is made of zeros. -/
def sampleTerms : ResponderTerms := ⟨default, default, none, default, default, default⟩

/-- The chain on which this responder sends first. -/
def sampleChain : ChainKey := (Handshake.derive (sampleTerms.secrets Suite.classic)).2

/-- The responder when it has sent this number of messages. -/
def sampleSender (sent : Nat) : Session :=
  { responded Suite.classic sampleTerms with sending := some ⟨default, sampleChain.ahead sent⟩ }

/-- The new ratchet key of its peer. -/
def sampleRatchet : KeyPair := ⟨⟨.replicate 32 9⟩, default⟩

/-- An answer to two messages, on the chain that the responder opens when it receives it. The peer
has the same identity, so its message is one that the responder could seal. -/
def sampleAnswer : RatchetMessage :=
  (sampleSender 2).sealed ⟨sampleRatchet, ((sampleSender 2).opened Suite.classic
    ⟨default, sampleChain.ahead 2⟩ sampleRatchet.publicKey).chain⟩ [7]

/-- A responder sends two messages, turns around an answer, and sends a third. -/
theorem sends_in_order_around_answer :
    let calls : List Call :=
      [.encrypt [1], .encrypt [2], .decrypt sampleAnswer (.zeros 1), .encrypt [3]]
    (sampleSender 0).Opened Suite.classic ∧
    ((Outbox.start (sampleSender 0)).after Suite.classic calls).chains.map (·.messages.length) =
      [1, 2] ∧
    (((sampleSender 0).emitted Suite.classic calls).map fun message =>
      (message.inner.ratchetKey, message.inner.counter)).Nodup := by
  intro calls
  have opened : (sampleSender 0).Opened Suite.classic :=
    .responded (run_respond_of_lasts Suite.classic (Supply.lasts_zeros 0) sampleTerms)
  obtain ⟨one, first⟩ : ∃ one, (sampleSender 0).encrypt [1] = .ok (one, sampleSender 1) :=
    ⟨_, rfl⟩
  obtain ⟨two, second⟩ : ∃ two, (sampleSender 1).encrypt [2] = .ok (two, sampleSender 2) :=
    ⟨_, rfl⟩
  have new : (sampleSender 2).receivingChain? sampleRatchet.publicKey = none := rfl
  obtain ⟨ours, later, turned, chain, generated, answered, sends, starts⟩ :=
    run_decrypt_sealed_of_lasts Suite.classic rfl rfl rfl rfl new (Supply.lasts_zeros 1) [7]
  obtain ⟨three, last, third⟩ : ∃ three last, turned.encrypt [3] = .ok (three, last) := by
    simp only [encrypt, ChainKey.next?]
    rw [sends]
    dsimp only
    rw [starts]
    exact ⟨_, _, rfl⟩
  have chains : ((Outbox.start (sampleSender 0)).after Suite.classic calls).chains =
      [⟨ours.publicKey, [three]⟩, ⟨default, [one, two]⟩] := by
    have begins : (Outbox.start (sampleSender 0)).chains = [⟨default, []⟩] := rfl
    simp only [calls, sampleAnswer, Outbox.after, List.foldl]
    rw [Outbox.call_of_encrypt _ (.start (sampleSender 0)) first,
      Outbox.call_of_encrypt _ ⟨sampleSender 1, _⟩ second,
      Outbox.call_of_turn _ ⟨sampleSender 2, _⟩ new answered sends,
      Outbox.call_of_encrypt _ ⟨turned, _⟩ third, begins]
    rfl
  have differs : ours.publicKey ≠ default := by
    have made : (Suite.classic.generate.run (.zeros 1)).1.toOption.map (·.publicKey) ≠
        some default := by
      decide +kernel
    rw [generated] at made
    exact fun same => made (congrArg some same)
  have distinct : (((Outbox.start (sampleSender 0)).after Suite.classic calls).chains.map
      (·.ratchetKey)).Nodup := by
    rw [chains]
    exact List.nodup_cons.mpr ⟨fun same => differs (List.mem_singleton.mp same),
      List.nodup_singleton _⟩
  obtain ⟨_, nodup, _⟩ := sends_in_order Suite.classic opened calls distinct
  refine ⟨opened, ?_, nodup⟩
  rw [chains]
  rfl

end Session

end Ratchet
