import Mathlib.Logic.Function.Basic
import Ratchet.Proofs.Chain.Tracing
import Ratchet.Proofs.Session.Decrypting

/-!
# The ladder of a dialogue

The ratchet pairs of two parties alternate: each party makes a new pair when it
first receives on the newest pair of the other. So the pairs are the rungs of a
ladder, the even ones made by one party and the odd ones by the other, and the
root and the chain of each rung follow from the rung below it (`Ladder.rung`).

A party that stands on a rung sends on the chain of this rung and receives on
the chains of every second rung below it (`Ladder.below`), of which its session
has kept the last five (`Ladder.recent`). How far it has come on each of them is
all there is to know about its receiving chains (`Ladder.chains`), and what the
session does to the chains it does to the progress on one rung.
-/

set_option autoImplicit false

namespace Ratchet

/-- The pairs of a dialogue, and the root and the chain of the lowest one. -/
structure Ladder where
  suite : Suite
  first : RootKey × ChainKey
  pair : Nat → KeyPair

namespace Ladder

/-- The root and the chain of a rung. -/
def rung (ladder : Ladder) : Nat → RootKey × ChainKey
  | 0 => ladder.first
  | lower + 1 =>
    (ladder.rung lower).1.turn
      (ladder.suite.agree (ladder.pair lower).privateKey (ladder.pair (lower + 1)).publicKey)

/-- The root of a rung. -/
def root (ladder : Ladder) (rung : Nat) : RootKey := (ladder.rung rung).1

/-- The chain key that the chain of a rung begins with. -/
def chain (ladder : Ladder) (rung : Nat) : ChainKey := (ladder.rung rung).2

/-- The public key of a rung. -/
def key (ladder : Ladder) (rung : Nat) : PublicKey := (ladder.pair rung).publicKey

/-- The chain a party sends on from a rung, after a number of letters. -/
def sendingAt (ladder : Ladder) (rung sent : Nat) : SendingChain :=
  ⟨ladder.pair rung, (ladder.chain rung).ahead sent⟩

theorem index_chain {ladder : Ladder} (starts : ladder.first.2.index = 0) (rung : Nat) :
    (ladder.chain rung).index = 0 := by
  cases rung with
  | zero => exact starts
  | succ lower => rfl

/-! ## The rungs a party receives on -/

/-- The other party's rungs below a rung, lowest first. -/
def below : Nat → List Nat
  | 0 => []
  | 1 => [0]
  | rung + 2 => below rung ++ [rung + 1]

/-- Those of them whose chains a session still has. -/
def recent (rung : Nat) : List Nat := lastOf Limits.receivingChains (below rung)

theorem mem_below {rung lower : Nat} :
    lower ∈ below rung ↔ lower < rung ∧ lower % 2 ≠ rung % 2 := by
  induction rung using below.induct with
  | case1 => simp [below]
  | case2 =>
      simp only [below, List.mem_singleton]
      omega
  | case3 rung ih =>
      rw [below, List.mem_append, List.mem_singleton, ih]
      omega

theorem nodup_below (rung : Nat) : (below rung).Nodup := by
  induction rung using below.induct with
  | case1 => exact List.nodup_nil
  | case2 => exact List.nodup_singleton 0
  | case3 rung ih =>
      rw [below]
      refine ih.append (List.nodup_singleton _) ?_
      rw [List.disjoint_singleton, mem_below]
      omega

theorem below_of_recent {rung lower : Nat} (member : lower ∈ recent rung) :
    lower < rung ∧ lower % 2 ≠ rung % 2 :=
  mem_below.mp ((lastOf_sublist _ _).subset member)

/-- The newest rung below is the one directly below. -/
theorem getLast?_recent_succ (rung : Nat) : (recent (rung + 1)).getLast? = some rung := by
  obtain ⟨lower, split⟩ : ∃ lower, below (rung + 1) = lower ++ [rung] := by
    cases rung with
    | zero => exact ⟨[], rfl⟩
    | succ rung => exact ⟨below rung, rfl⟩
  have drops : (lower ++ [rung]).length - Limits.receivingChains ≤ lower.length := by
    have several : 1 ≤ Limits.receivingChains := by decide
    rw [List.length_append, List.length_singleton]
    omega
  rw [recent, split, lastOf, List.drop_append_of_le_length drops, List.getLast?_concat]

theorem recent_add_two (rung : Nat) :
    lastOf Limits.receivingChains (recent rung ++ [rung + 1]) = recent (rung + 2) := by
  rw [recent, lastOf_lastOf_append]
  rfl

/-! ## The chains a party receives on -/

/-- The receiving chain of a rung at this progress. -/
def chainAt (ladder : Ladder) (progress : Nat → Progress) (rung : Nat) : ReceivingChain :=
  .tracing (ladder.key rung) (ladder.chain rung) (progress rung)

/-- The receiving chains of a party that stands on a rung. -/
def chains (ladder : Ladder) (progress : Nat → Progress) (rung : Nat) : List ReceivingChain :=
  (recent rung).map (ladder.chainAt progress)

/-- The rungs up to this one have different keys. -/
def Apart (ladder : Ladder) (top : Nat) : Prop :=
  ∀ first second, first ≤ top → second ≤ top → ladder.key first = ladder.key second →
    first = second

theorem Apart.mono {ladder : Ladder} {lower top : Nat} (apart : ladder.Apart top)
    (below : lower ≤ top) : ladder.Apart lower :=
  fun first second firstLe secondLe same =>
    apart first second (firstLe.trans below) (secondLe.trans below) same

section

variable {ladder : Ladder} {progress : Nat → Progress} {top : Nat} {session : Session}

theorem chainAt_update_self (rung : Nat) (next : Progress) :
    ladder.chainAt (Function.update progress rung next) rung =
      .tracing (ladder.key rung) (ladder.chain rung) next := by
  rw [chainAt, Function.update_self]

theorem chainAt_update_of_ne {rung other : Nat} (different : other ≠ rung) (next : Progress) :
    ladder.chainAt (Function.update progress rung next) other = ladder.chainAt progress other := by
  rw [chainAt, Function.update_of_ne different]
  rfl

/-- Changing one chain changes the progress on its rung. -/
theorem map_chains (apart : ladder.Apart top) {rung : Nat} (stands : rung ≤ top)
    (next : Progress) :
    ((ladder.chains progress top).map fun chain =>
      if chain.ratchetKey = ladder.key rung then
        .tracing (ladder.key rung) (ladder.chain rung) next
      else chain) = ladder.chains (Function.update progress rung next) top := by
  simp only [chains]
  rw [List.map_map]
  refine List.map_congr_left fun other member => ?_
  show (if ladder.key other = ladder.key rung then _ else ladder.chainAt progress other) = _
  have otherLe := (below_of_recent member).1.le
  by_cases same : other = rung
  · rw [same, if_pos rfl, chainAt_update_self]
  · rw [if_neg fun equal => same (apart _ _ otherLe stands equal), chainAt_update_of_ne same]

/-- A party's own rungs have nothing to do with its receiving chains. -/
theorem chains_congr {other : Nat → Progress}
    (same : ∀ rung, rung % 2 ≠ top % 2 → other rung = progress rung) :
    ladder.chains other top = ladder.chains progress top := by
  refine List.map_congr_left fun rung member => ?_
  rw [chainAt, same rung (below_of_recent member).2]
  rfl

variable (apart : ladder.Apart top) (receives : session.receiving = ladder.chains progress top)
include apart receives

theorem distinct_of_receiving : session.Distinct := by
  simp only [Session.Distinct]
  rw [receives, chains, List.map_map]
  refine List.Nodup.map_on ?_ ((nodup_below top).sublist (lastOf_sublist _ _))
  intro first firstMember second secondMember same
  exact apart _ _ (below_of_recent firstMember).1.le (below_of_recent secondMember).1.le same

theorem receivingChain?_of_mem {rung : Nat} (member : rung ∈ recent top) :
    session.receivingChain? (ladder.key rung) = some (ladder.chainAt progress rung) := by
  have listed : ladder.chainAt progress rung ∈ session.receiving := by
    rw [receives]
    exact List.mem_map_of_mem member
  exact Session.receivingChain?_of_mem (distinct_of_receiving apart receives) listed

omit apart in
theorem receivingChain?_of_not_mem {above rung : Nat} (apart : ladder.Apart above)
    (topLe : top ≤ above) (rungLe : rung ≤ above) (absent : rung ∉ recent top) :
    session.receivingChain? (ladder.key rung) = none := by
  rw [Session.receivingChain?_eq_none_iff, receives, chains, List.map_map, List.mem_map]
  rintro ⟨other, member, same⟩
  have otherLe := (below_of_recent member).1.le.trans topLe
  rw [← apart _ _ otherLe rungLe same] at absent
  exact absent member

/-- A known chain is put in the place of its rung. -/
theorem receiving_putReceiving_known {rung : Nat} (member : rung ∈ recent top) (next : Progress) :
    (session.putReceiving (.tracing (ladder.key rung) (ladder.chain rung) next)).receiving =
      ladder.chains (Function.update progress rung next) top := by
  have known : session.receivingChain?
      (ReceivingChain.tracing (ladder.key rung) (ladder.chain rung) next).ratchetKey =
      some (ladder.chainAt progress rung) := receivingChain?_of_mem apart receives member
  rw [Session.receiving_putReceiving_of_some (distinct_of_receiving apart receives) known, receives]
  exact map_chains apart (below_of_recent member).1.le next

omit apart in
/-- The chain of the next rung becomes the newest. -/
theorem receiving_putReceiving_next (next : Progress)
    (new : session.receivingChain? (ladder.key (top + 1)) = none) :
    (session.putReceiving
      (.tracing (ladder.key (top + 1)) (ladder.chain (top + 1)) next)).receiving =
      ladder.chains (Function.update progress (top + 1) next) (top + 2) := by
  have old : ladder.chains progress top =
      ladder.chains (Function.update progress (top + 1) next) top := by
    refine List.map_congr_left fun rung member => ?_
    have lower := (below_of_recent member).1
    rw [chainAt_update_of_ne (by omega)]
  have added : [ReceivingChain.tracing (ladder.key (top + 1)) (ladder.chain (top + 1)) next] =
      [top + 1].map (ladder.chainAt (Function.update progress (top + 1) next)) := by
    rw [List.map_singleton, chainAt_update_self]
  rw [Session.receiving_putReceiving_of_none new, receives, old, added, chains,
    ← List.map_append, ← map_lastOf, recent_add_two]
  rfl

end

/-! ## Closing the latest chain -/

/-- The progress after the other party's rung below was closed at a counter. -/
def closed (progress : Nat → Progress) (top : Nat) (counter : UInt32) : Nat → Progress :=
  match top with
  | 0 => progress
  | lower + 1 => Function.update progress lower ((progress lower).skipTo counter)

theorem closed_of_ne {progress : Nat → Progress} {top rung : Nat} (different : rung + 1 ≠ top)
    (counter : UInt32) : closed progress top counter rung = progress rung := by
  cases top with
  | zero => rfl
  | succ lower => exact Function.update_of_ne (by omega) _ _

/-- Closing the latest chain closes the rung directly below. -/
theorem receiving_closeLatest {ladder : Ladder} {progress : Nat → Progress} {top : Nat}
    {session : Session} (starts : ladder.first.2.index = 0) (sound : ∀ rung, (progress rung).Sound)
    (apart : ladder.Apart top) (receives : session.receiving = ladder.chains progress top)
    (counter : UInt32) :
    (session.closeLatest counter).receiving = ladder.chains (closed progress top counter) top := by
  have distinct := distinct_of_receiving apart receives
  rw [Session.receiving_closeLatest distinct, receives]
  cases top with
  | zero => rfl
  | succ lower =>
      have latest : session.latestRatchetKey? = some (ladder.key lower) := by
        rw [Session.latestRatchetKey?, receives, chains, List.getLast?_map, getLast?_recent_succ]
        rfl
      rw [latest, closed, ← map_chains apart (Nat.le_succ lower)]
      refine List.map_congr_left fun chain member => ?_
      obtain ⟨rung, recentMember, rfl⟩ := List.mem_map.mp member
      by_cases same : (ladder.chainAt progress rung).ratchetKey = ladder.key lower
      · have rungLe := (below_of_recent recentMember).1.le
        rw [if_pos (congrArg some same), if_pos same,
          apart rung lower rungLe (Nat.le_succ lower) same]
        exact ReceivingChain.skipTo_tracing _ (index_chain starts lower) (sound lower) counter
      · rw [if_neg same, if_neg fun equal => same (Option.some.inj equal)]

end Ladder

end Ratchet
