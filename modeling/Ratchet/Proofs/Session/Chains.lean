import Mathlib.Data.List.Nodup
import Ratchet.Proofs.Chain.Progress
import Ratchet.Session.Messaging

/-!
# The receiving chains of a session

A session finds its receiving chains by ratchet key. When the keys are distinct
(`Session.Distinct`), a chain that is found is the only one with its key, and
changing it changes each chain of the list by itself: putting a chain in place
(`Session.receiving_putReceiving_of_some`) and closing the latest chain
(`Session.receiving_closeLatest`) are maps over the list. A chain with a new key
goes to the end, and the oldest is dropped when there are too many
(`Session.receiving_putReceiving_of_none`).
-/

set_option autoImplicit false

namespace Ratchet

/-- Where keys are distinct, the first element with a key is the only one. -/
theorem updateFirst_eq_map {α κ : Type} [DecidableEq κ] (keyOf : α → κ) (key : κ)
    (change : α → α) {list : List α} (distinct : (list.map keyOf).Nodup) :
    updateFirst (keyOf · = key) change list =
      list.map fun item => if keyOf item = key then change item else item := by
  induction list with
  | nil => rfl
  | cons first rest ih =>
      rw [List.map_cons, List.nodup_cons] at distinct
      rw [updateFirst, List.map_cons]
      by_cases same : keyOf first = key
      · have others : ∀ item ∈ rest, keyOf item ≠ key := by
          intro item member equal
          exact distinct.1 (List.mem_map.mpr ⟨item, member, equal.trans same.symm⟩)
        have unchanged : (rest.map fun item => if keyOf item = key then change item else item) =
            rest := by
          rw [List.map_congr_left fun item member => if_neg (others item member), List.map_id']
        simp only [same, decide_true, if_true, unchanged]
      · simp only [same, decide_false, if_false, ih distinct.2, Bool.false_eq_true]

/-- Changing an element changes no key, if the change keeps the key of what it is found by. -/
theorem map_updateFirst {α κ : Type} (keyOf : α → κ) {property : α → Bool} {change : α → α}
    (keeps : ∀ item, property item = true → keyOf (change item) = keyOf item) (list : List α) :
    (updateFirst property change list).map keyOf = list.map keyOf := by
  induction list with
  | nil => rfl
  | cons first rest ih =>
      rw [updateFirst]
      split
      · rename_i has
        rw [List.map_cons, List.map_cons, keeps first has]
      · rw [List.map_cons, List.map_cons, ih]

/-- What is changed first is the first element with the property, and it stays in its place. -/
theorem updateFirst_append_cons {α : Type} {property : α → Bool} (change : α → α)
    {front : List α} (others : ∀ item ∈ front, property item = false) {item : α}
    (has : property item = true) (back : List α) :
    updateFirst property change (front ++ item :: back) = front ++ change item :: back := by
  induction front with
  | nil =>
      rw [List.nil_append, updateFirst, if_pos has]
      rfl
  | cons first front ih =>
      have passed : ¬ property first = true := by
        rw [others first List.mem_cons_self]
        exact Bool.false_ne_true
      rw [List.cons_append, updateFirst, if_neg passed,
        ih fun item member => others item (List.mem_cons_of_mem _ member)]
      rfl

namespace ReceivingChain

@[simp]
theorem ratchetKey_store (chain : ReceivingChain) (keys : List MessageKeys) :
    (chain.store keys).ratchetKey = chain.ratchetKey := by
  simp only [store]
  split <;> rfl

@[simp]
theorem ratchetKey_skipTo (chain : ReceivingChain) (counter : UInt32) :
    (chain.skipTo counter).ratchetKey = chain.ratchetKey := by
  unfold skipTo
  split
  · rfl
  · dsimp only
    split
    · rfl
    · exact ratchetKey_store _ _

/-- Giving out keys leaves a chain that of its ratchet key. -/
theorem ratchetKey_of_keysAt {chain next : ReceivingChain} {counter : UInt32} {keys : MessageKeys}
    (given : chain.keysAt counter = .ok (keys, next)) : next.ratchetKey = chain.ratchetKey := by
  simp only [keysAt] at given
  split at given
  · split at given
    · rename_i taken
      cases given
      obtain ⟨_, _, same⟩ := Option.map_eq_some_iff.mp taken
      cases same
      rfl
    · cases given
  · split at given
    · cases given
    · split at given
      · cases given
      · cases given
        exact ratchetKey_store _ _

end ReceivingChain

namespace Session

/-- No two receiving chains have the same ratchet key. -/
def Distinct (session : Session) : Prop := (session.receiving.map (·.ratchetKey)).Nodup

section

variable {session : Session}

theorem mem_of_receivingChain? {key : PublicKey} {chain : ReceivingChain}
    (found : session.receivingChain? key = some chain) :
    chain ∈ session.receiving ∧ chain.ratchetKey = key := by
  have property := List.find?_some found
  exact ⟨List.mem_of_find?_eq_some found, of_decide_eq_true property⟩

theorem receivingChain?_eq_none_iff {key : PublicKey} :
    session.receivingChain? key = none ↔ key ∉ session.receiving.map (·.ratchetKey) := by
  simp [receivingChain?, List.find?_eq_none]

/-- The receiving chain of a key is the only one with that key. -/
theorem receivingChain?_of_mem (distinct : session.Distinct) {chain : ReceivingChain}
    (member : chain ∈ session.receiving) :
    session.receivingChain? chain.ratchetKey = some chain := by
  cases found : session.receivingChain? chain.ratchetKey with
  | none =>
      rw [receivingChain?_eq_none_iff] at found
      exact absurd (List.mem_map_of_mem member) found
  | some other =>
      obtain ⟨otherMember, same⟩ := mem_of_receivingChain? found
      rw [List.inj_on_of_nodup_map distinct otherMember member same]

theorem receiving_updateReceiving (distinct : session.Distinct) (key : PublicKey)
    (change : ReceivingChain → ReceivingChain) :
    (session.updateReceiving key change).receiving =
      session.receiving.map fun chain => if chain.ratchetKey = key then change chain else chain :=
  updateFirst_eq_map ReceivingChain.ratchetKey key change distinct

/-- A chain whose key is known takes the place of the one with that key. -/
theorem receiving_putReceiving_of_some (distinct : session.Distinct) {chain old : ReceivingChain}
    (known : session.receivingChain? chain.ratchetKey = some old) :
    (session.putReceiving chain).receiving =
      session.receiving.map fun other =>
        if other.ratchetKey = chain.ratchetKey then chain else other := by
  rw [putReceiving, known]
  exact receiving_updateReceiving distinct _ _

/-- A chain with a new key becomes the newest. -/
theorem receiving_putReceiving_of_none {chain : ReceivingChain}
    (new : session.receivingChain? chain.ratchetKey = none) :
    (session.putReceiving chain).receiving =
      lastOf Limits.receivingChains (session.receiving ++ [chain]) := by
  rw [putReceiving, new]
  rfl

/-- Putting a chain in place changes the receiving chains only. -/
theorem putReceiving_eq (session : Session) (chain : ReceivingChain) :
    session.putReceiving chain =
      { session with receiving := (session.putReceiving chain).receiving } := by
  simp only [putReceiving]
  split <;> rfl

/-- Closing the latest chain changes the receiving chains only. -/
theorem closeLatest_eq (session : Session) (counter : UInt32) :
    session.closeLatest counter =
      { session with receiving := (session.closeLatest counter).receiving } := by
  simp only [closeLatest]
  split <;> rfl

/-- The newest chain is the one that is closed. -/
theorem receiving_closeLatest (distinct : session.Distinct) (counter : UInt32) :
    (session.closeLatest counter).receiving =
      session.receiving.map fun chain =>
        if some chain.ratchetKey = session.latestRatchetKey? then chain.skipTo counter
        else chain := by
  simp only [closeLatest, latestChain?]
  cases latest : session.latestRatchetKey? with
  | none =>
      have empty : session.receiving = [] := by
        rw [latestRatchetKey?, Option.map_eq_none_iff, List.getLast?_eq_none_iff] at latest
        exact latest
      simp [empty]
  | some key =>
      rw [Option.bind_some]
      cases found : session.receivingChain? key with
      | none =>
          obtain ⟨last, lastFound, rfl⟩ := Option.map_eq_some_iff.mp latest
          rw [receivingChain?_eq_none_iff] at found
          exact absurd (List.mem_map_of_mem (List.mem_of_getLast? lastFound)) found
      | some chain =>
          obtain ⟨member, rfl⟩ := mem_of_receivingChain? found
          rw [receiving_updateReceiving distinct]
          refine List.map_congr_left fun other otherMember => ?_
          by_cases same : other.ratchetKey = chain.ratchetKey
          · rw [if_pos same, if_pos (congrArg some same),
              List.inj_on_of_nodup_map distinct otherMember member same]
          · rw [if_neg same, if_neg fun equal => same (Option.some.inj equal)]

end

/-! ## Keys -/

/-- Closing the latest chain changes no key. -/
theorem keys_closeLatest (session : Session) (counter : UInt32) :
    (session.closeLatest counter).receiving.map (·.ratchetKey) =
      session.receiving.map (·.ratchetKey) := by
  simp only [closeLatest]
  split
  · rfl
  · rename_i chain _
    refine map_updateFirst ReceivingChain.ratchetKey (fun other same => ?_) session.receiving
    rw [ReceivingChain.ratchetKey_skipTo]
    exact (of_decide_eq_true same).symm

/-- Putting a chain in place keeps the keys distinct. -/
theorem Distinct.putReceiving {session : Session} (distinct : session.Distinct)
    (chain : ReceivingChain) : (session.putReceiving chain).Distinct := by
  simp only [Distinct]
  cases found : session.receivingChain? chain.ratchetKey with
  | some old =>
      rw [receiving_putReceiving_of_some distinct found, List.map_map]
      have same : session.receiving.map ((·.ratchetKey) ∘ fun other =>
          if other.ratchetKey = chain.ratchetKey then chain else other) =
          session.receiving.map (·.ratchetKey) := by
        refine List.map_congr_left fun other _ => ?_
        dsimp only [Function.comp_apply]
        split
        · rename_i equal
          exact equal.symm
        · rfl
      rw [same]
      exact distinct
  | none =>
      rw [receiving_putReceiving_of_none found, map_lastOf, List.map_append]
      refine List.Nodup.sublist (lastOf_sublist _ _) (distinct.append (List.nodup_singleton _) ?_)
      refine List.disjoint_singleton.mpr ?_
      exact receivingChain?_eq_none_iff.mp found

/-- A chain that is there afterwards was put there or was there before. -/
theorem mem_putReceiving {session : Session} (distinct : session.Distinct)
    {chain other : ReceivingChain} (member : other ∈ (session.putReceiving chain).receiving) :
    other = chain ∨ other ∈ session.receiving ∧ other.ratchetKey ≠ chain.ratchetKey := by
  cases found : session.receivingChain? chain.ratchetKey with
  | some old =>
      rw [receiving_putReceiving_of_some distinct found, List.mem_map] at member
      obtain ⟨before, beforeMember, rfl⟩ := member
      by_cases same : before.ratchetKey = chain.ratchetKey
      · exact .inl (if_pos same)
      · rw [if_neg same]
        exact .inr ⟨beforeMember, same⟩
  | none =>
      rw [receiving_putReceiving_of_none found] at member
      rcases List.mem_append.mp ((lastOf_sublist _ _).subset member) with old | new
      · refine .inr ⟨old, fun same => ?_⟩
        rw [receivingChain?_eq_none_iff] at found
        exact found (List.mem_map.mpr ⟨other, old, same⟩)
      · exact .inl (List.mem_singleton.mp new)

/-! ## Putting a chain in place twice -/

/-- What putting a chain in place does to the receiving chains depends on them only. -/
theorem receiving_putReceiving_congr {first second : Session}
    (same : first.receiving = second.receiving) (chain : ReceivingChain) :
    (first.putReceiving chain).receiving = (second.putReceiving chain).receiving := by
  have found : first.receivingChain? chain.ratchetKey =
      second.receivingChain? chain.ratchetKey := congrArg (List.find? _) same
  simp only [putReceiving]
  rw [found]
  cases second.receivingChain? chain.ratchetKey with
  | some old => exact congrArg (updateFirst _ _) same
  | none => exact congrArg (fun chains => lastOf _ (chains ++ [chain])) same

/-- A chain that is put in place stands where the chain of its key stood. -/
theorem receiving_putReceiving_split {session : Session} {ratchetKey : PublicKey}
    {old : ReceivingChain} (found : session.receivingChain? ratchetKey = some old) :
    ∃ front back, (∀ chain ∈ front, chain.ratchetKey ≠ ratchetKey) ∧
      session.receiving = front ++ old :: back ∧
      ∀ chain, chain.ratchetKey = ratchetKey →
        (session.putReceiving chain).receiving = front ++ chain :: back := by
  obtain ⟨has, front, back, split, passed⟩ := List.find?_eq_some_iff_append.mp found
  have others : ∀ chain ∈ front, decide (chain.ratchetKey = ratchetKey) = false :=
    fun chain member => (Bool.not_eq_true' _).mp (passed chain member)
  refine ⟨front, back, fun chain member => of_decide_eq_false (others chain member), split, ?_⟩
  rintro chain rfl
  rw [putReceiving, found]
  show updateFirst _ _ session.receiving = _
  rw [split]
  exact updateFirst_append_cons _ others has back

/-- A chain that is put in place has the same chains before it and behind it, whatever it holds. -/
theorem receiving_putReceiving_around (session : Session) (ratchetKey : PublicKey) :
    ∃ front back : List ReceivingChain, (∀ chain ∈ front, chain.ratchetKey ≠ ratchetKey) ∧
      ∀ chain : ReceivingChain, chain.ratchetKey = ratchetKey →
        (session.putReceiving chain).receiving = front ++ chain :: back := by
  cases found : session.receivingChain? ratchetKey with
  | some old =>
      obtain ⟨front, back, others, _, put⟩ := receiving_putReceiving_split found
      exact ⟨front, back, others, put⟩
  | none =>
      have absent := receivingChain?_eq_none_iff.mp found
      refine ⟨session.receiving.drop (session.receiving.length + 1 - Limits.receivingChains), [],
        fun chain member same => ?_, ?_⟩
      · exact absent (List.mem_map.mpr ⟨chain, List.mem_of_mem_drop member, same⟩)
      · rintro chain rfl
        have some : 1 ≤ Limits.receivingChains := by decide
        rw [receiving_putReceiving_of_none found, lastOf, List.length_append, List.length_singleton,
          List.drop_append_of_le_length (by omega)]

/-- A chain that was put in place is found. -/
theorem receivingChain?_putReceiving (session : Session) (chain : ReceivingChain) :
    (session.putReceiving chain).receivingChain? chain.ratchetKey = some chain := by
  obtain ⟨front, back, others, put⟩ := session.receiving_putReceiving_around chain.ratchetKey
  rw [receivingChain?, put chain rfl]
  refine List.find?_eq_some_iff_append.mpr
    ⟨decide_eq_true rfl, front, back, rfl, fun other member => ?_⟩
  rw [decide_eq_false (others other member)]
  rfl

/-- Of two chains with one ratchet key, the one that is put in place later is there. -/
theorem putReceiving_putReceiving (session : Session) {first second : ReceivingChain}
    (same : second.ratchetKey = first.ratchetKey) :
    (session.putReceiving first).putReceiving second = session.putReceiving second := by
  obtain ⟨front, back, others, put⟩ := session.receiving_putReceiving_around first.ratchetKey
  have known := session.receivingChain?_putReceiving first
  rw [← same] at known
  have receiving : ((session.putReceiving first).putReceiving second).receiving =
      (session.putReceiving second).receiving := by
    rw [put second same, putReceiving, known]
    show updateFirst _ _ (session.putReceiving first).receiving = _
    rw [put first rfl]
    apply updateFirst_append_cons
    · intro other member
      exact decide_eq_false fun equal => others other member (equal.trans same)
    · exact decide_eq_true same.symm
  rw [putReceiving_eq, receiving, putReceiving_eq session first, putReceiving_eq session second]

end Session

end Ratchet
