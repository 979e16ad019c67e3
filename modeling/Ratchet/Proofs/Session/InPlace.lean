import Ratchet.Proofs.Chain.Passing
import Ratchet.Proofs.Session.Changing

/-!
# Decrypting in place

A session can be worked on in place: its fields are set one after another, the keys of messages that
are passed are put into a chain one by one, and a new chain is there before any message is known to
belong to it. What was done stays done when the work fails, so it is done on a copy of the session,
and the copy is dropped unless the work succeeds (`Work.onCopy`).

Work in sequence goes on with the copy that the work before has left (`Work.onCopy_bind`), so that
a long piece of work on a copy is understood step by step. Each step of decrypting leaves the copy
that it should (`Session.closeInPlace_onCopy`, `Session.chainInPlace_onCopy`,
`Session.keysInPlace_onCopy`), and decrypting in place on a copy is decrypting
(`Session.decryptInPlace_onCopy`). Without the copy it would not be: a message that is not authentic
is refused when the session has turned already (`Session.run_decryptInPlace_badMac`).
-/

set_option autoImplicit false

namespace Ratchet

/-! ## Work on a copy -/

/-- A copy of a session, and the supply for working on it. -/
structure Workspace where
  copy : Session
  supply : Supply

/-- Work on a copy, which may fail when it is half done. -/
abbrev Work (α : Type) := Procedure Workspace SessionError α

namespace Work

variable {α β : Type}

/-- The copy as it stands. -/
def copy : Work Session := do return (← get).copy

/-- Changes the copy. -/
def change (change : Session → Session) : Work Unit :=
  modify fun workspace => { workspace with copy := change workspace.copy }

/-- Does what takes from the supply only. -/
def take (attempt : Attempt α) : Work α := do
  let workspace ← get
  let (outcome, supply) := attempt.run workspace.supply
  set { workspace with supply }
  Procedure.ofExcept outcome

/-- Works on a copy of a session, and gives it away if the work succeeds. -/
def onCopy (work : Work α) (session : Session) : Attempt (α × Session) := do
  let (outcome, workspace) := work.run ⟨session, ← get⟩
  set workspace.supply
  Procedure.ofExcept (outcome.map (·, workspace.copy))

theorem run_onCopy (work : Work α) (session : Session) (supply : Supply) :
    (work.onCopy session).run supply =
      ((work.run ⟨session, supply⟩).1.map (·, (work.run ⟨session, supply⟩).2.copy),
        (work.run ⟨session, supply⟩).2.supply) := rfl

theorem onCopy_pure (value : α) (session : Session) :
    (pure value : Work α).onCopy session = pure (value, session) := rfl

theorem onCopy_ofExcept (outcome : Except SessionError α) (session : Session) :
    onCopy (Procedure.ofExcept outcome) session =
      Procedure.ofExcept (outcome.map (·, session)) := rfl

theorem onCopy_copy (session : Session) : copy.onCopy session = pure (session, session) := rfl

theorem onCopy_change (change : Session → Session) (session : Session) :
    (Work.change change).onCopy session = pure ((), change session) := rfl

theorem onCopy_take (attempt : Attempt α) (session : Session) :
    (take attempt).onCopy session = do return (← attempt, session) := by
  apply Procedure.ext
  intro supply
  rw [Procedure.run_bind]
  show ((attempt.run supply).1.map (·, session), (attempt.run supply).2) = _
  rcases attempt.run supply with ⟨failure | value, later⟩ <;> rfl

/-- **Work goes on with the copy that the work before has left.** -/
theorem onCopy_bind (first : Work α) (second : α → Work β) (session : Session) :
    (first >>= second).onCopy session =
      first.onCopy session >>= fun done => (second done.1).onCopy done.2 := by
  apply Procedure.ext
  intro supply
  rw [Procedure.run_bind, run_onCopy, run_onCopy, Procedure.run_bind]
  rcases first.run ⟨session, supply⟩ with ⟨failure | value, workspace⟩ <;> rfl

/-- Work that succeeds on a copy has left the copy that is given away. -/
theorem run_of_onCopy {work : Work α} {session copy : Session} {supply later : Supply} {value : α}
    (succeeds : (work.onCopy session).run supply = (.ok (value, copy), later)) :
    work.run ⟨session, supply⟩ = (.ok value, ⟨copy, later⟩) := by
  rw [run_onCopy] at succeeds
  rcases ran : work.run ⟨session, supply⟩ with ⟨failure | given, workspace⟩
  · rw [ran] at succeeds
    cases succeeds
  · rw [ran] at succeeds
    cases succeeds
    rfl

end Work

/-! ## Lists that are worked on in place -/

/-- Changing an element again changes it once, if it keeps the property that it is found by. -/
theorem updateFirst_updateFirst {α : Type} {property : α → Bool} {first second : α → α}
    (keeps : ∀ item, property item → property (first item)) (list : List α) :
    updateFirst property second (updateFirst property first list) =
      updateFirst property (fun item => second (first item)) list := by
  induction list with
  | nil => rfl
  | cons item rest ih =>
      by_cases has : property item
      · simp only [updateFirst, if_pos has, if_pos (keeps item has)]
      · simp only [updateFirst, if_neg has, ih]

/-- What is found is what is changed. -/
theorem updateFirst_of_find? {α : Type} {property : α → Bool} {list : List α} {item : α}
    (found : list.find? property = some item) (change : α → α) :
    updateFirst property change list = updateFirst property (fun _ => change item) list := by
  induction list with
  | nil => rfl
  | cons first rest ih =>
      rw [List.find?_cons] at found
      by_cases has : property first
      · rw [has] at found
        cases found
        simp only [updateFirst, if_pos has]
      · rw [Bool.eq_false_iff.mpr has] at found
        simp only [updateFirst, if_neg has, ih found]

theorem updateFirst_id {α : Type} (property : α → Bool) (list : List α) :
    updateFirst property (fun item => item) list = list := by
  induction list with
  | nil => rfl
  | cons first rest ih =>
      rw [updateFirst, ih, ite_self]

/-- Drops the first elements of a list, one after another, for as long as there are too many. -/
def dropDown {α : Type} (limit : Nat) : List α → List α
  | [] => []
  | first :: rest => if limit < (first :: rest).length then dropDown limit rest else first :: rest

theorem dropDown_eq {α : Type} (limit : Nat) (list : List α) :
    dropDown limit list = lastOf limit list := by
  induction list with
  | nil => exact List.drop_nil.symm
  | cons first rest ih =>
      rw [dropDown, lastOf]
      split
      · rename_i many
        rw [List.length_cons] at many ⊢
        rw [ih, lastOf, show rest.length + 1 - limit = rest.length - limit + 1 by omega,
          List.drop_succ_cons]
      · rename_i few
        rw [Nat.sub_eq_zero_of_le (Nat.not_lt.mp few), List.drop_zero]

namespace Session

/-! ## Setting parts of a session -/

/-- Puts keys into the chain of a ratchet key. -/
def keepKeys (session : Session) (ratchetKey : PublicKey) (keys : MessageKeys) : Session :=
  session.updateReceiving ratchetKey fun chain =>
    { chain with skipped := dropDown Limits.skippedKeys (chain.skipped ++ [keys]) }

/-- Takes the keys of a message out of the chain of a ratchet key. -/
def takeKeys? (session : Session) (ratchetKey : PublicKey) (counter : UInt32) :
    Option (MessageKeys × Session) := do
  let chain ← session.receivingChain? ratchetKey
  let (keys, left) ← chain.take? counter
  return (keys, session.updateReceiving ratchetKey fun _ => left)

/-- Moves the chain of a ratchet key to a position. -/
def moveChain (session : Session) (ratchetKey : PublicKey) (position : ChainKey) : Session :=
  session.updateReceiving ratchetKey fun chain => { chain with chain := position }

/-- Puts a chain behind the others. -/
def addChain (session : Session) (chain : ReceivingChain) : Session :=
  { session with receiving := dropDown Limits.receivingChains (session.receiving ++ [chain]) }

/-! ## Decrypting in place -/

/-- Puts the keys of the messages before a counter into the chain of a ratchet key, one after
another, and gives the position that is reached. -/
def keepUpTo (ratchetKey : PublicKey) (counter : UInt32) (position : ChainKey) : Work ChainKey :=
  if _ : position.index < counter then do
    Work.change (·.keepKeys ratchetKey position.messageKeys)
    match _ : position.next? with
    | none => throw (.invalidState .chainOverflow)
    | some next => keepUpTo ratchetKey counter next
  else return position
termination_by counter.toNat - position.index.toNat
decreasing_by
  obtain ⟨rfl, fits⟩ := ChainKey.next?_eq_some ‹position.next? = some next›
  have before := UInt32.lt_iff_toNat_lt.mp ‹position.index < counter›
  rw [ChainKey.toNat_index_step fits]
  omega

/-- Keeps the keys of the messages that are still missing on the peer's previous chain. -/
def closeInPlace (previousCounter : UInt32) : Work Unit := do
  match (← Work.copy).latestChain? with
  | none => return ()
  | some chain =>
    if previousCounter ≤ chain.chain.index then return ()
    if Limits.futureMessages < (previousCounter - chain.chain.index).toNat then return ()
    let position ← keepUpTo chain.ratchetKey previousCounter chain.chain
    Work.change (·.moveChain chain.ratchetKey position)

/-- Finds the receiving chain of a message, or turns and adds one. -/
def chainInPlace (suite : Suite) (message : RatchetMessage) : Work ChainKey := do
  match (← Work.copy).receivingChain? message.ratchetKey with
  | some chain => return chain.chain
  | none =>
    closeInPlace message.previousCounter
    let copy ← Work.copy
    match copy.sending with
    | none => throw (.invalidMessage .uninitialized)
    | some sending =>
      let (root, receiving) ← Work.take (suite.turn copy.root message.ratchetKey sending.ratchet)
      let ours ← Work.take suite.generate
      let (root, chain) ← Work.take (suite.turn root message.ratchetKey ours)
      Work.change fun copy => { copy with root }
      Work.change (·.addChain ⟨message.ratchetKey, receiving, []⟩)
      Work.change fun copy => { copy with previousCounter := sending.chain.index }
      Work.change fun copy => { copy with sending := some ⟨ours, chain⟩ }
      return receiving

/-- Gives the keys of the message with this counter, the chain of its ratchet key having come to
this position. -/
def keysInPlace (ratchetKey : PublicKey) (position : ChainKey) (counter : UInt32) :
    Work MessageKeys := do
  if counter < position.index then
    match (← Work.copy).takeKeys? ratchetKey counter with
    | none => throw (.duplicateMessage position.index counter)
    | some (keys, left) =>
      Work.change fun _ => left
      return keys
  else
    if Limits.futureMessages < (counter - position.index).toNat then
      throw (.invalidMessage .tooFarAhead)
    let reached ← keepUpTo ratchetKey counter position
    match reached.next? with
    | none => throw (.invalidState .chainOverflow)
    | some next =>
      Work.change (·.moveChain ratchetKey next)
      return reached.messageKeys

/-- Receives a message that is of the session's version. -/
def receiveInPlace (suite : Suite) (message : RatchetMessage) : Work Bytes := do
  let position ← chainInPlace suite message
  let keys ← keysInPlace message.ratchetKey position message.counter
  let plaintext ← Procedure.ofExcept ((← Work.copy).reveal keys message)
  Work.change fun copy => { copy with pendingPrekey := none }
  return plaintext

/-- Decrypts a message, the session being changed on the way. -/
def decryptInPlace (suite : Suite) (message : RatchetMessage) : Work Bytes := do
  let session ← Work.copy
  if session.sending.isNone then
    throw (.invalidMessage .uninitialized)
  else if message.version ≠ session.version then
    throw (.invalidMessage (.versionMismatch message.version session.version))
  else receiveInPlace suite message

/-! ## What the work leaves -/

/-- A chain is changed twice at once, if it keeps its ratchet key. -/
theorem updateReceiving_updateReceiving {ratchetKey : PublicKey}
    {first second : ReceivingChain → ReceivingChain}
    (keeps : ∀ chain, (first chain).ratchetKey = chain.ratchetKey) (session : Session) :
    (session.updateReceiving ratchetKey first).updateReceiving ratchetKey second =
      session.updateReceiving ratchetKey fun chain => second (first chain) := by
  have keepsKey : ∀ chain : ReceivingChain, decide (chain.ratchetKey = ratchetKey) = true →
      decide ((first chain).ratchetKey = ratchetKey) = true := by
    intro chain has
    rw [keeps]
    exact has
  simp only [updateReceiving]
  rw [updateFirst_updateFirst keepsKey]

/-- A chain that is found is the one that is changed. -/
theorem updateReceiving_of_found {session : Session} {ratchetKey : PublicKey}
    {chain : ReceivingChain} (found : session.receivingChain? ratchetKey = some chain)
    (change : ReceivingChain → ReceivingChain) :
    session.updateReceiving ratchetKey change =
      session.updateReceiving ratchetKey fun _ => change chain := by
  simp only [updateReceiving]
  rw [updateFirst_of_find? found]

theorem updateReceiving_id (session : Session) (ratchetKey : PublicKey) :
    session.updateReceiving ratchetKey (fun chain => chain) = session := by
  simp only [updateReceiving]
  rw [updateFirst_id]

/-- Putting a chain where it is changes nothing. -/
theorem updateReceiving_self {session : Session} {ratchetKey : PublicKey} {chain : ReceivingChain}
    (found : session.receivingChain? ratchetKey = some chain) :
    (session.updateReceiving ratchetKey fun _ => chain) = session :=
  (updateReceiving_of_found found _).symm.trans (updateReceiving_id session ratchetKey)

theorem addChain_eq (session : Session) (chain : ReceivingChain) :
    session.addChain chain = session.addReceiving chain := by
  rw [addChain, dropDown_eq, addReceiving]

/-- A chain that stores keys and moves is put in its place. -/
theorem moveChain_store {session : Session} {ratchetKey : PublicKey} {chain : ReceivingChain}
    (found : session.receivingChain? ratchetKey = some chain) (keys : List MessageKeys)
    (position : ChainKey) :
    (session.updateReceiving ratchetKey (·.store keys)).moveChain ratchetKey position =
      session.updateReceiving ratchetKey fun _ => { chain with chain := position }.store keys := by
  rw [moveChain, updateReceiving_updateReceiving, updateReceiving_of_found found,
    ReceivingChain.store_at chain position]
  exact fun other => ReceivingChain.ratchetKey_store other keys

/-- Keys that are put into a chain one after another are stored in it. -/
theorem keepUpTo_onCopy {ratchetKey : PublicKey} {counter : UInt32} {gap : Nat}
    {position : ChainKey} (distance : counter.toNat - position.index.toNat = gap)
    (session : Session) :
    (keepUpTo ratchetKey counter position).onCopy session =
      pure ((position.walk gap).2,
        session.updateReceiving ratchetKey (·.store (position.walk gap).1)) := by
  induction gap generalizing position session with
  | zero =>
      have reached : ¬ position.index < counter := by
        rw [UInt32.lt_iff_toNat_lt]
        omega
      have same : session.updateReceiving ratchetKey (·.store []) = session :=
        updateReceiving_id session ratchetKey
      rw [keepUpTo, dif_neg reached, Work.onCopy_pure, ChainKey.walk, same]
  | succ gap ih =>
      have before : position.index < counter := by
        rw [UInt32.lt_iff_toNat_lt]
        omega
      have small := counter.toNat_lt
      have fits : position.index.toNat + 1 < 2 ^ 32 := by omega
      have onward : counter.toNat - position.step.index.toNat = gap := by
        rw [ChainKey.toNat_index_step fits]
        omega
      have stored : (session.keepKeys ratchetKey position.messageKeys).updateReceiving ratchetKey
          (·.store (position.step.walk gap).1) =
          session.updateReceiving ratchetKey (·.store (position.walk (gap + 1)).1) := by
        rw [keepKeys, updateReceiving_updateReceiving]
        · simp only [dropDown_eq, ← ReceivingChain.store_cons]
          rfl
        · exact fun _ => rfl
      rw [keepUpTo, dif_pos before, Work.onCopy_bind, Work.onCopy_change, pure_bind]
      split
      · rename_i none
        rw [ChainKey.next?_of_lt fits] at none
        cases none
      · rename_i next follows
        rw [ChainKey.next?_of_lt fits] at follows
        cases follows
        rw [ih onward, stored]
        rfl

/-- Working on the latest chain closes it. -/
theorem closeInPlace_onCopy (session : Session) (previousCounter : UInt32) :
    (closeInPlace previousCounter).onCopy session =
      pure ((), session.closeLatest previousCounter) := by
  rw [closeInPlace, Work.onCopy_bind, Work.onCopy_copy, pure_bind, closeLatest]
  dsimp only
  cases latest : session.latestChain? with
  | none => rfl
  | some chain =>
      obtain ⟨key, _, here⟩ := Option.bind_eq_some_iff.mp latest
      have found : session.receivingChain? chain.ratchetKey = some chain := by
        rw [(mem_of_receivingChain? here).2]
        exact here
      have stays := updateReceiving_self found
      dsimp only
      simp only [ReceivingChain.skipTo]
      by_cases passed : previousCounter ≤ chain.chain.index
      · rw [if_pos passed, if_pos passed, stays]
        rfl
      · rw [if_neg passed, if_neg passed]
        by_cases far : Limits.futureMessages < (previousCounter - chain.chain.index).toNat
        · rw [if_pos far, if_pos far, stays]
          rfl
        · have ordered := UInt32.le_of_lt (UInt32.not_le.mp passed)
          have distance := UInt32.toNat_sub_of_le _ _ ordered
          rw [if_neg far, if_neg far]
          show (keepUpTo chain.ratchetKey previousCounter chain.chain >>= fun position =>
            Work.change (·.moveChain chain.ratchetKey position)).onCopy session = _
          rw [Work.onCopy_bind, keepUpTo_onCopy distance.symm, pure_bind, Work.onCopy_change,
            moveChain_store found]

/-- The keys of a message on a chain are those that the work gives, and the chain is then in its
place. -/
theorem keysInPlace_onCopy {session : Session} {ratchetKey : PublicKey} {chain : ReceivingChain}
    (found : session.receivingChain? ratchetKey = some chain) (counter : UInt32) :
    (keysInPlace ratchetKey chain.chain counter).onCopy session =
      Procedure.ofExcept ((chain.keysAt counter).map fun given =>
        (given.1, session.updateReceiving ratchetKey fun _ => given.2)) := by
  rw [keysInPlace, ReceivingChain.keysAt]
  by_cases before : counter < chain.chain.index
  · rw [if_pos before, if_pos before, Work.onCopy_bind, Work.onCopy_copy, pure_bind, takeKeys?,
      found]
    dsimp only [Option.bind_eq_bind, Option.bind_some]
    cases chain.take? counter with
    | none => rfl
    | some given => rfl
  · have distance := UInt32.toNat_sub_of_le _ _ (UInt32.not_lt.mp before)
    rw [if_neg before, if_neg before]
    dsimp only
    by_cases far : Limits.futureMessages < (counter - chain.chain.index).toNat
    · rw [if_pos far, if_pos far]
      rfl
    · rw [if_neg far, if_neg far]
      show (keepUpTo ratchetKey counter chain.chain >>= _).onCopy session = _
      rw [Work.onCopy_bind, keepUpTo_onCopy distance.symm, pure_bind]
      dsimp only
      cases (chain.chain.walk (counter - chain.chain.index).toNat).2.next? with
      | none => rfl
      | some next =>
          dsimp only
          rw [Work.onCopy_bind, Work.onCopy_change, pure_bind, moveChain_store found]
          rfl

theorem putReceiving_of_some {session : Session} {chain old : ReceivingChain}
    (found : session.receivingChain? chain.ratchetKey = some old) :
    session.putReceiving chain = session.updateReceiving chain.ratchetKey fun _ => chain := by
  rw [putReceiving, found]

theorem putReceiving_of_none {session : Session} {chain : ReceivingChain}
    (absent : session.receivingChain? chain.ratchetKey = none) :
    session.putReceiving chain = session.addReceiving chain := by
  rw [putReceiving, absent]

/-- The chain of a message is found or made, and it is then in its place. -/
theorem chainInPlace_onCopy (suite : Suite) {session : Session} {sending : SendingChain}
    (sends : session.sending = some sending) (message : RatchetMessage) :
    (chainInPlace suite message).onCopy session =
      session.chainOf suite sending message >>= fun found =>
        pure (found.1.chain, found.2.putReceiving found.1) := by
  rw [chainInPlace, Work.onCopy_bind, Work.onCopy_copy, pure_bind, chainOf]
  dsimp only
  cases known : session.receivingChain? message.ratchetKey with
  | some chain =>
      have found := known
      rw [← (mem_of_receivingChain? known).2] at found
      rw [pure_bind, putReceiving_of_some found, updateReceiving_self found]
      rfl
  | none =>
      have absent : (session.closeLatest message.previousCounter).receivingChain?
          message.ratchetKey = none := by
        rw [receivingChain?_eq_none_iff, keys_closeLatest]
        exact receivingChain?_eq_none_iff.mp known
      have sendsStill : (session.closeLatest message.previousCounter).sending = some sending := by
        rw [closeLatest_eq]
        exact sends
      have rootStill : (session.closeLatest message.previousCounter).root = session.root := by
        rw [closeLatest_eq]
      dsimp only
      rw [Work.onCopy_bind, closeInPlace_onCopy, pure_bind, Work.onCopy_bind, Work.onCopy_copy,
        pure_bind]
      dsimp only
      rw [sendsStill, rootStill]
      simp only [turn, Work.onCopy_bind, Work.onCopy_take, Work.onCopy_change, Work.onCopy_pure,
        bind_assoc, pure_bind]
      refine bind_congr fun first => bind_congr fun ours => bind_congr fun second => ?_
      rw [addChain_eq]
      refine congrArg (fun copy => pure (first.2, copy))
        (Eq.trans ?_ (putReceiving_of_none ?_).symm)
      · rfl
      · exact absent

/-- What is found or made for a message is a chain of its ratchet key, and the session around it
is still between the same two. -/
theorem chainOf_eq_ok (suite : Suite) {session : Session} {sending : SendingChain}
    {message : RatchetMessage} {supply later : Supply} {found : ReceivingChain × Session}
    (finds : (session.chainOf suite sending message).run supply = (.ok found, later)) :
    found.1.ratchetKey = message.ratchetKey ∧
      found.2.localIdentity = session.localIdentity ∧
      found.2.remoteIdentity = session.remoteIdentity := by
  rw [chainOf] at finds
  cases known : session.receivingChain? message.ratchetKey with
  | some chain =>
      rw [known] at finds
      cases finds
      exact ⟨(mem_of_receivingChain? known).2, rfl, rfl⟩
  | none =>
      rw [known] at finds
      obtain ⟨ours, _, _, rfl⟩ := turn_eq_ok suite finds
      dsimp only
      rw [turned, closeLatest_eq]
      exact ⟨rfl, rfl, rfl⟩

/-- A chain that is in its place is put there again once it has given the keys of a message. -/
theorem updateReceiving_putReceiving {session : Session} {ratchetKey : PublicKey}
    {chain left : ReceivingChain} (key : chain.ratchetKey = ratchetKey)
    (leftKey : left.ratchetKey = ratchetKey) :
    ((session.putReceiving chain).updateReceiving ratchetKey fun _ => left) =
      session.putReceiving left := by
  subst key
  have placed := session.receivingChain?_putReceiving chain
  rw [← leftKey] at placed ⊢
  rw [← putReceiving_of_some placed, putReceiving_putReceiving session leftKey]

/-- What a message is authenticated with is the two that the session is between. -/
theorem reveal_putReceiving {session around : Session}
    (here : around.localIdentity = session.localIdentity)
    (there : around.remoteIdentity = session.remoteIdentity) (chain : ReceivingChain)
    (keys : MessageKeys) (message : RatchetMessage) :
    (around.putReceiving chain).reveal keys message = session.reveal keys message := by
  rw [putReceiving_eq, reveal, reveal, here, there]

theorem receiveInPlace_onCopy (suite : Suite) {session : Session} {sending : SendingChain}
    (sends : session.sending = some sending) (message : RatchetMessage) :
    (receiveInPlace suite message).onCopy session = (do
      let (chain, around) ← session.chainOf suite sending message
      let (keys, chain) ← Procedure.ofExcept (chain.keysAt message.counter)
      let plaintext ← Procedure.ofExcept (session.reveal keys message)
      return (plaintext, { around.putReceiving chain with pendingPrekey := none })) := by
  rw [receiveInPlace, Work.onCopy_bind, chainInPlace_onCopy suite sends, bind_assoc]
  refine Procedure.bind_congr_of_ok fun found supply later finds => ?_
  obtain ⟨key, here, there⟩ := chainOf_eq_ok suite finds
  have placed := found.2.receivingChain?_putReceiving found.1
  rw [key] at placed
  rw [pure_bind, Work.onCopy_bind, keysInPlace_onCopy placed]
  dsimp only
  cases gives : found.1.keysAt message.counter with
  | error failure => rfl
  | ok given =>
      have leftKey := (ReceivingChain.ratchetKey_of_keysAt gives).trans key
      rw [Except.map, Procedure.ofExcept_ok_bind, Procedure.ofExcept_ok_bind]
      dsimp only
      rw [updateReceiving_putReceiving key leftKey, Work.onCopy_bind, Work.onCopy_copy, pure_bind,
        Work.onCopy_bind, Work.onCopy_ofExcept]
      dsimp only
      rw [reveal_putReceiving here there]
      cases session.reveal given.1 message with
      | error failure => rfl
      | ok plaintext => rfl

/-- **Decrypting in place on a copy is decrypting.** What fails leaves no part of its work behind,
since the copy is dropped, and what succeeds gives the copy away as the session that follows. -/
theorem decryptInPlace_onCopy (suite : Suite) (session : Session) (message : RatchetMessage) :
    (decryptInPlace suite message).onCopy session = session.decrypt suite message := by
  rw [decryptInPlace, Work.onCopy_bind, Work.onCopy_copy, pure_bind, decrypt]
  dsimp only
  cases sends : session.sending with
  | none => rfl
  | some sending =>
      dsimp only
      rw [if_neg (by rw [Option.isNone_some]; exact Bool.false_ne_true)]
      by_cases speaks : message.version = session.version
      · rw [if_neg (not_not_intro speaks), if_neg (not_not_intro speaks)]
        exact receiveInPlace_onCopy suite sends message
      · rw [if_pos speaks, if_pos speaks]
        rfl

/-- **What is found out about a message too late is done already.** A message that is not authentic
is refused when the session has turned and the keys have been taken, and the copy is left so. -/
theorem run_decryptInPlace_badMac (suite : Suite) {session around : Session}
    {sending : SendingChain} {message : RatchetMessage} {supply later : Supply}
    {chain left : ReceivingChain} {keys : MessageKeys} (sends : session.sending = some sending)
    (speaks : message.version = session.version)
    (finds : (session.chainOf suite sending message).run supply = (.ok (chain, around), later))
    (gives : chain.keysAt message.counter = .ok (keys, left))
    (forged : message.verify session.remoteIdentity session.localIdentity keys.macKey = false) :
    (decryptInPlace suite message).run ⟨session, supply⟩ =
      (.error (.invalidMessage .badMac), ⟨around.putReceiving left, later⟩) := by
  obtain ⟨key, here, there⟩ := chainOf_eq_ok suite finds
  have placed := around.receivingChain?_putReceiving chain
  rw [key] at placed
  have chosen : (chainInPlace suite message).run ⟨session, supply⟩ =
      (.ok chain.chain, ⟨around.putReceiving chain, later⟩) := by
    apply Work.run_of_onCopy
    rw [chainInPlace_onCopy suite sends, Procedure.run_bind_of_ok finds]
    rfl
  have taken : (keysInPlace message.ratchetKey chain.chain message.counter).run
      ⟨around.putReceiving chain, later⟩ = (.ok keys, ⟨around.putReceiving left, later⟩) := by
    apply Work.run_of_onCopy
    rw [keysInPlace_onCopy placed, gives, ← updateReceiving_putReceiving key
      ((ReceivingChain.ratchetKey_of_keysAt gives).trans key)]
    rfl
  have refused : (around.putReceiving left).reveal keys message =
      .error (.invalidMessage .badMac) := by
    rw [reveal_putReceiving here there, reveal, forged]
    rfl
  have started : Work.copy.run ⟨session, supply⟩ = (.ok session, ⟨session, supply⟩) := rfl
  rw [decryptInPlace, Procedure.run_bind_of_ok started, sends,
    if_neg (by rw [Option.isNone_some]; exact Bool.false_ne_true),
    if_neg (not_not_intro speaks), receiveInPlace, Procedure.run_bind_of_ok chosen,
    Procedure.run_bind_of_ok taken]
  have looked : Work.copy.run ⟨around.putReceiving left, later⟩ =
      (.ok (around.putReceiving left), ⟨around.putReceiving left, later⟩) := rfl
  rw [Procedure.run_bind_of_ok looked, refused]
  rfl

end Session

end Ratchet
