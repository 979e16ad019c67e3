import Ratchet.Proofs.Chain.Accounting
import Ratchet.Proofs.Session.Invariant
import Ratchet.Proofs.Session.Sealing

/-!
# No counter is lost without need

Beside a session in use a ledger is kept: for each ratchet key, which counters were used by
messages that were decrypted on its chain, and which keys the chain lost, each with the
chain as it stood when it lost them (`Ledger`). When a chain is not there any more its
pages are torn out, and a new chain of the same key begins with empty ones.

A call does one of three things to a receiving chain, and uses a counter in the last of
them only (`ReceivingChain.Undergoes`). Whichever it is, the accounts of the chain go on
to be in order (`ReceivingChain.Accounts.undergoes`), so they are in order after any
calls (`Session.every_counter_accounted`): each counter before the index is used, kept or
lost, and once; keys were lost only when the chain was full of newer ones; and every other
counter is still ahead on the chain, however often it was closed by a counter that was
too far ahead.
-/

set_option autoImplicit false

namespace Ratchet

namespace ReceivingChain

/-! ## The accounts of one chain -/

/-- A chain that has gone on from its origin balances, and has lost nothing without need. -/
structure Accounts (chain : ReceivingChain) (origin : ChainKey) (used : List UInt32)
    (lost : List Loss) : Prop where
  traces : chain.Traces origin
  balanced : chain.Balanced used lost
  forced : ∀ loss ∈ lost, loss.Forced ∧ loss.moment.Traces origin

/-- What a call does to a receiving chain, and the counter that it uses. -/
inductive Undergoes (chain : ReceivingChain) : Option UInt32 → ReceivingChain → Prop where
  | stays : Undergoes chain none chain
  | closes (counter : UInt32) : Undergoes chain none (chain.skipTo counter)
  | gives {counter : UInt32} {keys : MessageKeys} {next : ReceivingChain}
      (given : chain.keysAt counter = .ok (keys, next)) : Undergoes chain (some counter) next

section

variable {chain next : ReceivingChain} {origin : ChainKey} {used : List UInt32} {lost : List Loss}

theorem Undergoes.moves {use : Option UInt32} (undergoes : chain.Undergoes use next) :
    chain.Moves next := by
  cases undergoes with
  | stays => exact .stays
  | closes counter => exact .closes counter
  | gives given => exact .gives given

/-- Passing one message is closing the chain behind it. -/
theorem skipTo_step (fits : chain.chain.index.toNat + 1 < 2 ^ 32) :
    chain.skipTo chain.chain.step.index = chain.pass := by
  have index := ChainKey.toNat_index_step fits
  have gap : chain.chain.step.index.toNat - chain.chain.index.toNat = 1 := by omega
  have ahead : chain.chain.index < chain.chain.step.index := by
    rw [UInt32.lt_iff_toNat_lt, index]
    exact Nat.lt_succ_self _
  rw [skipTo_eq, gap, if_pos ⟨ahead, by decide⟩]
  rfl

theorem Traces.passing (traces : chain.Traces origin) {count : Nat}
    (fits : chain.chain.index.toNat + count < 2 ^ 32) : (pass^[count] chain).Traces origin := by
  induction count generalizing chain with
  | zero => exact traces
  | succ count ih =>
      have here : chain.chain.index.toNat + 1 < 2 ^ 32 := by omega
      have passed := (traces.skipTo chain.chain.step.index).2
      rw [skipTo_step here] at passed
      have index : chain.pass.chain.index.toNat = chain.chain.index.toNat + 1 :=
        ChainKey.toNat_index_step here
      exact ih passed (by omega)

/-- Whatever a chain loses on its way, it loses to newer keys of the same chain. -/
theorem Traces.forced (traces : chain.Traces origin) {count : Nat}
    (fits : chain.chain.index.toNat + count < 2 ^ 32) {loss : Loss}
    (lost : loss ∈ chain.losses count) : loss.Forced ∧ loss.moment.Traces origin := by
  obtain ⟨passed, below, member, moment⟩ := mem_losses lost
  have follows := (traces.passing (by omega : _ + passed < 2 ^ 32)).follows
  have later := traces.passing (by omega : _ + (passed + 1) < 2 ^ 32)
  rw [Function.iterate_succ_apply', ← moment] at later
  have pushed := forced_of_mem_pushedOut follows.ascending follows.behind member
  rw [← moment] at pushed
  exact ⟨pushed, later⟩

/-- A chain that has just been made has nothing to account for. -/
theorem accounts_new (starts : origin.index = 0) (ratchetKey : PublicKey) :
    Accounts ⟨ratchetKey, origin, []⟩ origin [] [] where
  traces := traces_new starts ratchetKey
  balanced := balanced_new starts
  forced _ lost := absurd lost List.not_mem_nil

/-- **Whatever a call does to a chain, its accounts stay in order** when the counter that it uses
is written down, and what is lost until then. -/
theorem Accounts.undergoes (accounts : chain.Accounts origin used lost) {use : Option UInt32}
    (undergoes : chain.Undergoes use next) :
    next.Accounts origin (used ++ use.toList) (lost ++
      chain.losses ((use.getD next.chain.index).toNat - chain.chain.index.toNat)) := by
  refine ⟨accounts.traces.moves undergoes.moves, ?_, ?_⟩
  · cases undergoes with
    | stays =>
        rw [Option.getD_none, Nat.sub_self, losses, Option.toList_none, List.append_nil,
          List.append_nil]
        exact accounts.balanced
    | closes counter =>
        rw [Option.getD_none, Option.toList_none, List.append_nil]
        exact accounts.balanced.skipTo counter
    | gives given => exact accounts.balanced.of_keysAt given
  · intro loss member
    rcases List.mem_append.mp member with old | new
    · exact accounts.forced loss old
    · have small := (use.getD next.chain.index).toNat_lt
      have index := chain.chain.index.toNat_lt
      exact accounts.traces.forced (by omega) new

end

/-- A number that is not kept counts for nothing. -/
theorem count_tracing_eq_zero {origin : ChainKey} (starts : origin.index = 0) {progress : Progress}
    (sound : progress.Sound) (ratchetKey : PublicKey) {counter : UInt32}
    (absent : counter.toNat ∉ progress.kept) :
    ((tracing ratchetKey origin progress).skipped.map (·.counter)).count counter = 0 := by
  rw [List.count_eq_zero, tracing, List.map_map]
  intro member
  obtain ⟨number, kept, same⟩ := List.mem_map.mp member
  have fits := (sound.behind number kept).trans sound.fits
  rw [(ChainKey.counter_keysOf_eq_iff starts fits).mp same] at kept
  exact absent kept

end ReceivingChain

namespace Session

variable (suite : Suite)

/-! ## What a call uses and loses -/

/-- The receiving chain of a ratchet key, or the one that a message with it would open. -/
def chainFor (session : Session) (ratchetKey : PublicKey) : Option ReceivingChain :=
  match session.receivingChain? ratchetKey with
  | some chain => some chain
  | none => session.sending.map fun sending => session.opened suite sending ratchetKey

/-- The counter that a call uses on the chain of a ratchet key: that of the message which it
decrypts. -/
def uses (session : Session) (ratchetKey : PublicKey) : Call → Option UInt32
  | .encrypt _ => none
  | .decrypt message supply =>
    match ((session.decrypt suite message).run supply).1 with
    | .ok _ => if message.ratchetKey = ratchetKey then some message.counter else none
    | .error _ => none

/-- What a call loses on the chain of a ratchet key. The chain passes all messages before the one
that is used, or before the place where it is closed. -/
def losses (session : Session) (ratchetKey : PublicKey) (call : Call) :
    List ReceivingChain.Loss :=
  match session.chainFor suite ratchetKey,
    (session.call suite call).receivingChain? ratchetKey with
  | some before, some after =>
    let limit := (session.uses suite ratchetKey call).getD after.chain.index
    before.losses (limit.toNat - before.chain.index.toNat)
  | _, _ => []

variable {session next : Session}

theorem chainFor_of_mem (distinct : session.Distinct) {chain : ReceivingChain}
    (member : chain ∈ session.receiving) :
    session.chainFor suite chain.ratchetKey = some chain := by
  rw [chainFor, receivingChain?_of_mem distinct member]

/-- What a message does to the chains that are there after it. -/
theorem Received.undergoes {message : RatchetMessage} {plaintext : Bytes}
    (received : Received suite session message plaintext next) (distinct : session.Distinct)
    {chain : ReceivingChain} (member : chain ∈ next.receiving) :
    ∃ before, session.chainFor suite chain.ratchetKey = some before ∧
      before.Undergoes
        (if message.ratchetKey = chain.ratchetKey then some message.counter else none) chain := by
  cases received with
  | @known before left keys found given opens =>
      have key := (ReceivingChain.ratchetKey_of_keysAt given).trans
        (mem_of_receivingChain? found).2
      rcases mem_putReceiving distinct member with rfl | ⟨old, other⟩
      · rw [if_pos key.symm, key, chainFor, found]
        exact ⟨before, rfl, .gives given⟩
      · rw [if_neg fun same => other (same.symm.trans key.symm)]
        exact ⟨chain, chainFor_of_mem suite distinct old, .stays⟩
  | @new sending ours left keys sends absent given opens =>
      have key : left.ratchetKey = message.ratchetKey :=
        ReceivingChain.ratchetKey_of_keysAt given
      rcases mem_putReceiving (distinct.turned suite sending message ours) member with
        rfl | ⟨old, other⟩
      · rw [if_pos key.symm, key, chainFor, absent, sends]
        exact ⟨_, rfl, .gives given⟩
      · rw [if_neg fun same => other (same.symm.trans key.symm)]
        rw [turned, receiving_closeLatest distinct, List.mem_map] at old
        obtain ⟨before, there, rfl⟩ := old
        split
        · rw [ReceivingChain.ratchetKey_skipTo]
          exact ⟨before, chainFor_of_mem suite distinct there, .closes _⟩
        · exact ⟨before, chainFor_of_mem suite distinct there, .stays⟩

/-- What a call does to the chains that are there after it. -/
theorem undergoes_call (distinct : session.Distinct) (call : Call) {chain : ReceivingChain}
    (member : chain ∈ (session.call suite call).receiving) :
    ∃ before, session.chainFor suite chain.ratchetKey = some before ∧
      before.Undergoes (session.uses suite chain.ratchetKey call) chain := by
  have unmoved : chain ∈ session.receiving → ∃ before,
      session.chainFor suite chain.ratchetKey = some before ∧ before.Undergoes none chain :=
    fun old => ⟨chain, chainFor_of_mem suite distinct old, .stays⟩
  cases call with
  | encrypt plaintext =>
      simp only [Session.call] at member
      cases encrypted : session.encrypt plaintext with
      | error failure =>
          rw [encrypted] at member
          exact unmoved member
      | ok result =>
          obtain ⟨sending, position, _, _, _, next⟩ := encrypt_eq_ok encrypted
          rw [encrypted] at member
          dsimp only at member
          rw [next] at member
          exact unmoved member
  | decrypt message supply =>
      simp only [Session.call] at member
      simp only [uses]
      cases decrypted : (session.decrypt suite message).run supply with
      | mk outcome later =>
          rw [decrypted] at member
          cases outcome with
          | error failure => exact unmoved member
          | ok result =>
              exact (received_of_run_decrypt suite decrypted).undergoes suite distinct member

end Session

/-! ## The ledger -/

/-- A chronicle, with the counters that were used on each chain and the keys that it lost. -/
structure Ledger extends Chronicle where
  used : PublicKey → List UInt32
  lost : PublicKey → List ReceivingChain.Loss

namespace Ledger

variable (suite : Suite)

/-- The ledger of a session that has just been started. -/
def start (session : Session) : Ledger where
  toChronicle := .start session
  used _ := []
  lost _ := []

/-- The pages of a ratchet key, which are empty if its chain is not there. -/
def kept {α : Type} (ledger : Ledger) (pages : PublicKey → List α) (ratchetKey : PublicKey) :
    List α :=
  match ledger.session.receivingChain? ratchetKey with
  | some _ => pages ratchetKey
  | none => []

/-- The ledger after a call. -/
def call (ledger : Ledger) (call : Call) : Ledger where
  toChronicle := ledger.toChronicle.call suite call
  used ratchetKey := ledger.kept ledger.used ratchetKey ++
    (ledger.session.uses suite ratchetKey call).toList
  lost ratchetKey := ledger.kept ledger.lost ratchetKey ++
    ledger.session.losses suite ratchetKey call

/-- The ledger after any number of calls. -/
def after (ledger : Ledger) (calls : List Call) : Ledger := calls.foldl (Ledger.call suite) ledger

theorem after_snoc (ledger : Ledger) (calls : List Call) (last : Call) :
    ledger.after suite (calls ++ [last]) = (ledger.after suite calls).call suite last :=
  List.foldl_append

theorem after_pair (ledger : Ledger) (first second : Call) :
    ledger.after suite [first, second] = (ledger.call suite first).call suite second := rfl

@[simp]
theorem toChronicle_after (ledger : Ledger) (calls : List Call) :
    (ledger.after suite calls).toChronicle = ledger.toChronicle.after suite calls := by
  induction calls using List.reverseRecOn with
  | nil => rfl
  | append_singleton calls last ih =>
      rw [after_snoc, Chronicle.after_snoc, ← ih]
      rfl

/-- The accounts of every chain that is there are in order. -/
def InOrder (ledger : Ledger) : Prop :=
  ∀ chain ∈ ledger.session.receiving, ∃ origin, ledger.origin chain.ratchetKey = some origin ∧
    chain.Accounts origin (ledger.used chain.ratchetKey) (ledger.lost chain.ratchetKey)

/-- A session that has just been started has nothing to account for. -/
theorem inOrder_start {session : Session} (opened : session.Opened suite) :
    (start session).InOrder := by
  intro chain member
  have traced := opened.traced suite
  obtain ⟨first, made, traces⟩ := traced.traces chain member
  refine ⟨first, made, traces, ?_, fun _ lost => absurd lost List.not_mem_nil⟩
  have known : session.receivingChain? chain.ratchetKey = some chain :=
    Session.receivingChain?_of_mem traced.distinct member
  have position : (session.receivingChain? chain.ratchetKey).map (·.chain) = some first := made
  rw [known, Option.map_some, Option.some.injEq] at position
  have starts : chain.chain.index = 0 := by
    rw [position]
    exact traces.starts
  have nothing : chain.skipped = [] := by
    rw [List.eq_nil_iff_forall_not_mem]
    intro keys kept
    have below := traces.follows.behind keys kept
    rw [starts] at below
    exact UInt32.not_lt_zero below
  have new : ReceivingChain.Balanced ⟨chain.ratchetKey, chain.chain, []⟩ [] [] :=
    ReceivingChain.balanced_new starts
  rw [← nothing] at new
  exact new

variable {ledger : Ledger}

/-- The accounts of a chain are in order before a call, also when the call is to make it. -/
theorem InOrder.chainFor (inOrder : ledger.InOrder) (call : Call) {ratchetKey : PublicKey}
    {before : ReceivingChain} (found : ledger.session.chainFor suite ratchetKey = some before) :
    ∃ origin, (ledger.call suite call).origin ratchetKey = some origin ∧
      before.Accounts origin (ledger.kept ledger.used ratchetKey)
        (ledger.kept ledger.lost ratchetKey) := by
  simp only [Session.chainFor] at found
  simp only [kept, Ledger.call, Chronicle.call]
  cases known : ledger.session.receivingChain? ratchetKey with
  | some chain =>
      rw [known] at found
      cases found
      obtain ⟨member, rfl⟩ := Session.mem_of_receivingChain? known
      exact inOrder before member
  | none =>
      rw [known] at found
      obtain ⟨sending, sends, rfl⟩ := Option.map_eq_some_iff.mp found
      rw [sends]
      exact ⟨_, rfl, ReceivingChain.accounts_new rfl ratchetKey⟩

/-- Every call keeps the accounts in order. -/
theorem InOrder.call (inOrder : ledger.InOrder) (traced : Session.Traced ledger.toChronicle)
    (call : Call) : (ledger.call suite call).InOrder := by
  intro chain member
  obtain ⟨before, found, undergoes⟩ := Session.undergoes_call suite traced.distinct call member
  obtain ⟨origin, made, accounts⟩ := inOrder.chainFor suite call found
  have there : (ledger.session.call suite call).receivingChain? chain.ratchetKey = some chain :=
    Session.receivingChain?_of_mem (traced.call suite call).distinct member
  have lost : ledger.session.losses suite chain.ratchetKey call = before.losses
      (((ledger.session.uses suite chain.ratchetKey call).getD chain.chain.index).toNat -
        before.chain.index.toNat) := by
    rw [Session.losses, found, there]
  refine ⟨origin, made, ?_⟩
  show chain.Accounts origin (_ ++ _) (_ ++ ledger.session.losses suite chain.ratchetKey call)
  rw [lost]
  exact accounts.undergoes undergoes

theorem InOrder.after (inOrder : ledger.InOrder) (traced : Session.Traced ledger.toChronicle)
    (calls : List Call) : (ledger.after suite calls).InOrder := by
  induction calls using List.reverseRecOn with
  | nil => exact inOrder
  | append_singleton calls last ih =>
      have later := traced.after suite calls
      rw [← toChronicle_after] at later
      rw [after_snoc]
      exact ih.call suite later last

/-- The counter of a message that is decrypted on a chain is written down. -/
theorem used_call_of_decrypt {chain : ReceivingChain} {message : RatchetMessage}
    {supply later : Supply} {plaintext : Bytes} {next : Session}
    (present : ledger.session.receivingChain? message.ratchetKey = some chain)
    (decrypted : (ledger.session.decrypt suite message).run supply =
      (.ok (plaintext, next), later)) :
    (ledger.call suite (.decrypt message supply)).used message.ratchetKey =
      ledger.used message.ratchetKey ++ [message.counter] := by
  have uses : ledger.session.uses suite message.ratchetKey (.decrypt message supply) =
      some message.counter := by
    rw [Session.uses, decrypted]
    exact if_pos rfl
  show ledger.kept ledger.used message.ratchetKey ++
    (ledger.session.uses suite message.ratchetKey (.decrypt message supply)).toList = _
  rw [uses, kept, present]
  rfl

end Ledger

namespace Session

/-- **However a session is called, no counter of a chain is lost without need or used twice.**
Each counter before the index of a chain has been used by one message, or is kept once, or
has been lost once, and then two thousand newer ones were kept. Each other counter is as
far ahead as it ever was. -/
theorem every_counter_accounted (suite : Suite) {start : Session} (opened : start.Opened suite)
    (calls : List Call) {ratchetKey : PublicKey} {chain : ReceivingChain}
    (present : (start.after suite calls).receivingChain? ratchetKey = some chain) :
    let ledger := (Ledger.start start).after suite calls
    ∃ origin, ledger.origin ratchetKey = some origin ∧
      chain.Balanced (ledger.used ratchetKey) (ledger.lost ratchetKey) ∧
      (∀ loss ∈ ledger.lost ratchetKey, loss.Forced ∧ loss.moment.Follows origin) ∧
      ∀ counter : UInt32, chain.chain.index ≤ counter → ∃ position : ChainKey,
        chain.chain.advance? (counter.toNat - chain.chain.index.toNat) = some position ∧
        position.index = counter ∧ origin.advance? counter.toNat = some position := by
  intro ledger
  have session : ledger.session = start.after suite calls := by
    rw [Ledger.toChronicle_after, Chronicle.session_after]
    rfl
  rw [← session] at present
  obtain ⟨member, rfl⟩ := mem_of_receivingChain? present
  obtain ⟨origin, made, accounts⟩ :=
    (Ledger.inOrder_start suite opened).after suite (opened.traced suite) calls chain member
  refine ⟨origin, made, accounts.balanced, ?_, ?_⟩
  · intro loss lost
    obtain ⟨forced, traces⟩ := accounts.forced loss lost
    exact ⟨forced, traces.follows⟩
  · intro counter ahead
    have above := Nat.add_sub_cancel' (UInt32.le_iff_toNat_le.mp ahead)
    have small := counter.toNat_lt
    have starts := accounts.traces.starts
    have position : chain.chain = origin.ahead chain.chain.index.toNat :=
      congrArg ReceivingChain.chain accounts.traces.eq_tracing
    refine ⟨origin.ahead counter.toNat, ?_, ?_, ChainKey.advance?_eq_ahead starts small⟩
    · have advanced := ChainKey.advance?_ahead starts (above.trans_lt small)
      rw [above, ← position] at advanced
      exact advanced
    · rw [ChainKey.index_ahead starts, UInt32.ofNat_toNat]

/-! ## A key that is lost -/

/-- The ledger after a message that the chain admits. -/
theorem call_sampleMessage {ledger : Ledger} {ratchet : KeyPair} {progress next : Progress}
    (receiver : ledger.session = sampleReceiver ratchet progress) (sound : progress.Sound)
    {number : Nat} (fits : number < 2 ^ 32)
    (admitted : progress.receive (.ofNat number) = .ok next) :
    let after := ledger.call Suite.classic (.decrypt (sampleMessage number) (.zeros 0))
    after.session = sampleReceiver ratchet next ∧
      after.used default = ledger.used default ++ [.ofNat number] := by
  intro after
  have known := receivingChain?_sampleReceiver ratchet progress
  have decrypted := run_decrypt_sampleMessage ratchet sound fits admitted (.zeros 0)
  rw [← receiver] at known decrypted
  have counter : (sampleMessage number).counter = .ofNat number :=
    ChainKey.index_ahead starts_sampleOrigin number
  rw [← counter]
  exact ⟨call_of_decrypt Suite.classic decrypted,
    Ledger.used_call_of_decrypt Suite.classic known decrypted⟩

/-- A message that is passed over first, and then two thousand: the keys of the first are lost. -/
theorem oldest_key_lost :
    ∃ (start : Session) (calls : List Call), start.Opened Suite.classic ∧
      let ledger := (Ledger.start start).after Suite.classic calls
      ledger.used default = [1, 2002] ∧
      ((ledger.lost default).map (·.keys.counter)).count 0 = 1 ∧
      ∀ loss ∈ ledger.lost default, loss.Forced := by
  obtain ⟨ratchet, later, _, _, made⟩ :=
    run_initiate_of_lasts Suite.classic (Supply.lasts_zeros 1) sampleOpening
  have opened : Session.Opened Suite.classic _ := .initiated made
  rw [← sampleReceiver_start] at opened
  let between : Progress := ⟨2, Progress.start.keeping 1⟩
  let final : Progress := ⟨2003, between.keeping 2002⟩
  have takesFirst : Progress.start.receive (.ofNat 1) = .ok between := rfl
  have takesSecond : between.receive (.ofNat 2002) = .ok final := rfl
  have soundBetween := Progress.Sound.start.receive takesFirst
  have soundFinal := soundBetween.receive takesSecond
  obtain ⟨receiverBetween, usedFirst⟩ :=
    @call_sampleMessage (.start (sampleReceiver ratchet .start)) ratchet _ _ rfl .start 1
      (by decide) takesFirst
  obtain ⟨receiverFinal, usedSecond⟩ :=
    call_sampleMessage receiverBetween soundBetween (by decide) takesSecond
  rw [← Ledger.after_pair] at receiverFinal usedSecond
  rw [usedFirst] at usedSecond
  change _ = [1, 2002] at usedSecond
  rw [Ledger.toChronicle_after, Chronicle.session_after] at receiverFinal
  have present := receivingChain?_sampleReceiver ratchet final
  rw [← receiverFinal] at present
  obtain ⟨_, _, balanced, forced, _⟩ := every_counter_accounted Suite.classic opened _ present
  have gone : (0 : UInt32).toNat ∉ between.keeping 2002 := by
    have far : 2002 - between.reached = Limits.skippedKeys := rfl
    rw [Progress.keeping_of_far far, List.mem_range'_1]
    decide
  have passed : 0 < (ReceivingChain.tracing default sampleOrigin final).chain.index := by
    rw [UInt32.lt_iff_toNat_lt,
      ReceivingChain.toNat_index_tracing default starts_sampleOrigin soundFinal]
    decide
  refine ⟨_, _, opened, usedSecond, ?_, fun loss lost => (forced loss lost).1⟩
  have zero := balanced 0
  have unused : [1, 2002].count (0 : UInt32) = 0 := by decide
  rw [usedSecond, unused,
    ReceivingChain.count_tracing_eq_zero starts_sampleOrigin soundFinal default gone, if_pos passed,
    Nat.zero_add] at zero
  exact zero

end Session

end Ratchet
