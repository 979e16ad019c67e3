import Ratchet.Proofs.Record.Trying

/-!
# A record is ordered by recency

Over its life a record is changed in four ways: a new session becomes current, the
current one takes an update, it is archived, or an update of an archived session
becomes current (`RecordChange`). A roll says what should be remembered of such a
life without any order (`Roll`): the sessions are numbered as they are added, and
of each it tells the latest version and the moment at which it was last made
current. The archived session at an index is the one than which so many others in the
archive were current more recently, and a session is forgotten when as many as
the archive holds were.

The record shows exactly what the roll tells: the sessions that were added and
not forgotten, each once and in its latest version, most recently current first
(`SessionRecord.ordered_by_recency`). The invariant is that the archive lists
the numbers of the archived sessions in this order (`Roll.Shelves`). Then the
position in the archive is the rank (`Roll.Shelves.rank_eq`), and what is cut off
behind the fortieth place is what is forgotten (`Roll.Shelves.forget`).
-/

set_option autoImplicit false

namespace Ratchet

/-- A change of a record. -/
inductive RecordChange where
  /-- A new session becomes current. -/
  | promote (session : Session)
  /-- The current session takes an update. -/
  | update (session : Session)
  /-- The current session is archived. -/
  | archive
  /-- An update of the archived session at this index becomes current. -/
  | revive (index : Nat) (session : Session)

namespace SessionRecord

/-- The record after a change. -/
def change (record : SessionRecord) : RecordChange → SessionRecord
  | .promote session => record.promote session
  | .update session => record.setCurrent session
  | .archive => record.archiveCurrent
  | .revive index session => record.promoteArchived index session

/-- The session that the change is about is there. -/
def Admits (record : SessionRecord) : RecordChange → Prop
  | .promote _ => True
  | .update _ => record.current.isSome
  | .archive => True
  | .revive index _ => index < record.archived.length

/-- The record after any number of changes. -/
def changed (record : SessionRecord) (changes : List RecordChange) : SessionRecord :=
  changes.foldl change record

/-- Each change finds the session it is about. -/
def AdmitsAll : SessionRecord → List RecordChange → Prop
  | _, [] => True
  | record, change :: rest => record.Admits change ∧ (record.change change).AdmitsAll rest

/-- The archive keeps to its limit. -/
theorem length_archived_change_le {record : SessionRecord}
    (few : record.archived.length ≤ Limits.archivedSessions) (change : RecordChange) :
    (record.change change).archived.length ≤ Limits.archivedSessions := by
  cases change with
  | promote session => exact length_archived_promote_le few session
  | update session => exact few
  | archive =>
      rw [SessionRecord.change, archiveCurrent_eq few]
      exact List.length_take_le _ _
  | revive index session =>
      rw [SessionRecord.change, promoteArchived_eq few]
      exact List.length_take_le _ _

end SessionRecord

/-! ## The roll of a record -/

/-- What is remembered of the sessions of a record, which are numbered as they are added. -/
structure Roll where
  /-- How many sessions were added. -/
  added : Nat
  /-- The latest version of each. -/
  latest : Nat → Option Session
  /-- The moment at which each was last made current. -/
  since : Nat → Nat
  /-- The one that is current. -/
  inUse : Option Nat
  /-- Those that were forgotten. -/
  forgotten : List Nat
  /-- The present moment. -/
  now : Nat

namespace Roll

/-- The roll of a record whose sessions were current one after another, the first of them last. -/
def of (record : SessionRecord) : Roll where
  added := record.sessions.length
  latest number := record.sessions[number]?
  since number := record.sessions.length - number
  inUse := record.current.map fun _ => 0
  forgotten := []
  now := record.sessions.length + 1

/-- The sessions that are kept and not current. -/
def archive (roll : Roll) : List Nat :=
  (List.range roll.added).filter fun number =>
    number ∉ roll.forgotten ∧ roll.inUse ≠ some number

/-- How many archived sessions were current more recently. -/
def rank (roll : Roll) (number : Nat) : Nat :=
  (roll.archive.filter fun other => roll.since number < roll.since other).length

/-- The archived session than which so many others were current more recently. -/
def ranked? (roll : Roll) (rank : Nat) : Option Nat :=
  roll.archive.find? fun number => roll.rank number = rank

/-- Forgets the archived sessions than which as many as may be kept were current more recently. -/
def forget (roll : Roll) : Roll :=
  { roll with
    forgotten := roll.forgotten ++
      roll.archive.filter fun number => Limits.archivedSessions ≤ roll.rank number }

/-- Makes a session current now, in this version. -/
def use (roll : Roll) (number : Nat) (session : Session) : Roll :=
  { roll with
    latest := Function.update roll.latest number (some session)
    since := Function.update roll.since number roll.now
    inUse := some number
    now := roll.now + 1 }

/-- The roll after a change. -/
def change (roll : Roll) : RecordChange → Roll
  | .promote session => ({ roll with added := roll.added + 1 }.use roll.added session).forget
  | .update session =>
    match roll.inUse with
    | some number => { roll with latest := Function.update roll.latest number (some session) }
    | none => roll
  | .archive => { roll with inUse := none }.forget
  | .revive index session =>
    match roll.ranked? index with
    | some number => (roll.use number session).forget
    | none => roll

/-- The roll after any number of changes. -/
def changed (roll : Roll) (changes : List RecordChange) : Roll := changes.foldl change roll

/-! ## The archive lists the sessions by rank -/

/-- Where keys descend, as many elements have a greater key as stand before an element. -/
theorem length_filter_of_descending {key : Nat → Nat} {order : List Nat}
    (descending : order.Pairwise fun first second => key second < key first) {index number : Nat}
    (found : order[index]? = some number) :
    (order.filter fun other => key number < key other).length = index := by
  induction order generalizing index with
  | nil => cases found
  | cons first rest ih =>
      obtain ⟨smaller, descending⟩ := List.pairwise_cons.mp descending
      cases index with
      | zero =>
          obtain rfl : first = number := Option.some.inj found
          have none : (first :: rest).filter (fun other => key first < key other) = [] := by
            refine List.filter_eq_nil_iff.mpr (List.forall_mem_cons.mpr ⟨by simp, ?_⟩)
            intro other member
            simpa using (smaller other member).le
          rw [none, List.length_nil]
      | succ index =>
          have greater := smaller number (List.mem_of_getElem? found)
          have counts : (first :: rest).filter (fun other => key number < key other) =
              first :: rest.filter fun other => key number < key other :=
            List.filter_cons_of_pos (decide_eq_true greater)
          rw [counts, List.length_cons, ih descending found]

/-- The record shows what the roll tells, `shelf` being the numbers of its archive. -/
structure Shelves (roll : Roll) (record : SessionRecord) (shelf : List Nat) : Prop where
  current : record.current.map some = roll.inUse.map roll.latest
  archived : record.archived.map some = shelf.map roll.latest
  listed : ∀ number, number ∈ roll.inUse.toList ++ shelf ↔
    number < roll.added ∧ number ∉ roll.forgotten
  recent : (roll.inUse.toList ++ shelf).Pairwise fun first second =>
    roll.since second < roll.since first
  past : ∀ number < roll.added, roll.since number < roll.now
  old : ∀ number ∈ roll.forgotten, number < roll.added

section

variable {roll : Roll} {record : SessionRecord} {shelf : List Nat}

/-- No session is listed twice. -/
theorem Shelves.nodup (shelves : roll.Shelves record shelf) :
    (roll.inUse.toList ++ shelf).Nodup := by
  refine shelves.recent.imp ?_
  rintro first second before rfl
  exact Nat.lt_irrefl _ before

theorem Shelves.length_eq (shelves : roll.Shelves record shelf) :
    shelf.length = record.archived.length := by
  have lengths := congrArg List.length shelves.archived
  rw [List.length_map, List.length_map] at lengths
  exact lengths.symm

/-- The shelf is what the roll counts as archived. -/
theorem Shelves.perm_archive (shelves : roll.Shelves record shelf) :
    roll.archive.Perm shelf := by
  have distinct := shelves.nodup
  rw [List.nodup_append] at distinct
  obtain ⟨_, shelfDistinct, apart⟩ := distinct
  refine (List.perm_ext_iff_of_nodup (List.nodup_range.filter _) shelfDistinct).mpr ?_
  intro number
  have listed := shelves.listed number
  rw [List.mem_append, Option.mem_toList] at listed
  simp only [List.mem_filter, List.mem_range, decide_eq_true_eq]
  constructor
  · rintro ⟨added, kept, other⟩
    rcases listed.mpr ⟨added, kept⟩ with inUse | onShelf
    · exact absurd inUse other
    · exact onShelf
  · intro onShelf
    obtain ⟨added, kept⟩ := listed.mp (.inr onShelf)
    exact ⟨added, kept, fun inUse => apart number (Option.mem_toList.mpr inUse) number onShelf rfl⟩

/-- **The place of a session on the shelf is its rank.** -/
theorem Shelves.rank_eq (shelves : roll.Shelves record shelf) {index number : Nat}
    (found : shelf[index]? = some number) : roll.rank number = index := by
  rw [rank, (shelves.perm_archive.filter _).length_eq]
  exact length_filter_of_descending (List.pairwise_append.mp shelves.recent).2.1 found

theorem Shelves.ranked?_eq (shelves : roll.Shelves record shelf) {index number : Nat}
    (found : shelf[index]? = some number) : roll.ranked? index = some number := by
  have member := shelves.perm_archive.mem_iff.mpr (List.mem_of_getElem? found)
  refine find?_eq_some_of_unique member (decide_eq_true (shelves.rank_eq found)) ?_
  intro other otherMember answers
  obtain ⟨place, bound, rfl⟩ :=
    List.mem_iff_getElem.mp (shelves.perm_archive.mem_iff.mp otherMember)
  have same := shelves.rank_eq (List.getElem?_eq_getElem bound)
  rw [of_decide_eq_true answers] at same
  rw [same, List.getElem?_eq_getElem bound] at found
  exact Option.some.inj found

/-! ## What is forgotten -/

/-- What has fallen off the shelf has as many before it as the archive holds. -/
theorem Shelves.mem_forget_iff (shelves : roll.Shelves record shelf) {number : Nat} :
    number ∈ roll.forget.forgotten ↔
      number ∈ roll.forgotten ∨ number ∈ shelf.drop Limits.archivedSessions := by
  simp only [forget, List.mem_append, List.mem_filter, decide_eq_true_eq]
  refine or_congr_right ?_
  rw [shelves.perm_archive.mem_iff, List.mem_drop_iff_getElem]
  constructor
  · rintro ⟨member, far⟩
    obtain ⟨place, bound, rfl⟩ := List.mem_iff_getElem.mp member
    rw [shelves.rank_eq (List.getElem?_eq_getElem bound)] at far
    refine ⟨place - Limits.archivedSessions, by omega, ?_⟩
    congr 1
    omega
  · rintro ⟨beyond, bound, rfl⟩
    rw [Nat.add_comm] at bound
    refine ⟨List.getElem_mem _, ?_⟩
    rw [shelves.rank_eq (List.getElem?_eq_getElem bound)]
    exact Nat.le_add_right _ _

/-- **What is forgotten is what is cut off.** -/
theorem Shelves.forget (shelves : roll.Shelves record shelf) :
    roll.forget.Shelves { record with archived := record.archived.take Limits.archivedSessions }
      (shelf.take Limits.archivedSessions) where
  current := shelves.current
  archived := by
    rw [List.map_take, List.map_take, shelves.archived]
    rfl
  listed number := by
    have distinct := shelves.nodup
    have listed := shelves.listed number
    rw [← List.take_append_drop Limits.archivedSessions shelf] at distinct listed
    rw [← List.append_assoc, List.nodup_append] at distinct
    rw [← List.append_assoc, List.mem_append] at listed
    show number ∈ roll.inUse.toList ++ _ ↔ number < roll.added ∧ number ∉ roll.forget.forgotten
    rw [shelves.mem_forget_iff, not_or, ← and_assoc, ← listed]
    constructor
    · intro member
      exact ⟨.inl member, fun dropped => distinct.2.2 number member number dropped rfl⟩
    · rintro ⟨member | dropped, kept⟩
      · exact member
      · exact absurd dropped kept
  recent := shelves.recent.sublist ((List.take_sublist _ _).append_left _)
  past := shelves.past
  old number forgotten := by
    rcases shelves.mem_forget_iff.mp forgotten with before | dropped
    · exact shelves.old number before
    · have onShelf := (List.drop_sublist _ _).subset dropped
      exact ((shelves.listed number).mp (List.mem_append_right _ onShelf)).1

/-- Whatever is forgotten now has a full archive of more recent sessions before it. -/
theorem Shelves.rank_of_forgotten (shelves : roll.Shelves record shelf) {number : Nat}
    (forgotten : number ∈ roll.forget.forgotten) (kept : number ∉ roll.forgotten) :
    roll.forget.rank number = Limits.archivedSessions := by
  have dropped := (shelves.mem_forget_iff.mp forgotten).resolve_left kept
  have full : Limits.archivedSessions ≤ shelf.length := by
    have some := List.length_pos_of_mem dropped
    rw [List.length_drop] at some
    omega
  have recent := (List.pairwise_append.mp shelves.recent).2.1
  rw [← List.take_append_drop Limits.archivedSessions shelf, List.pairwise_append] at recent
  rw [rank, (shelves.forget.perm_archive.filter _).length_eq, List.filter_eq_self.mpr,
    List.length_take_of_le full]
  intro other member
  exact decide_eq_true (recent.2.2 other member number dropped)

/-- Nothing is forgotten while there is room. -/
theorem Shelves.forgotten_forget_of_room (shelves : roll.Shelves record shelf)
    (room : shelf.length ≤ Limits.archivedSessions) :
    roll.forget.forgotten = roll.forgotten := by
  have none : roll.archive.filter (fun number => Limits.archivedSessions ≤ roll.rank number) =
      [] := by
    refine List.filter_eq_nil_iff.mpr ?_
    intro number member
    obtain ⟨place, bound, rfl⟩ :=
      List.mem_iff_getElem.mp (shelves.perm_archive.mem_iff.mp member)
    rw [shelves.rank_eq (List.getElem?_eq_getElem bound), decide_eq_true_eq]
    omega
  show roll.forgotten ++ _ = roll.forgotten
  rw [none, List.append_nil]

/-! ## Changes one by one -/

theorem Shelves.map_sessions (shelves : roll.Shelves record shelf) :
    record.sessions.map some = (roll.inUse.toList ++ shelf).map roll.latest := by
  have current : record.current.toList.map some = roll.inUse.toList.map roll.latest := by
    rw [← Option.toList_map, ← Option.toList_map, shelves.current]
  rw [SessionRecord.sessions, List.map_append, List.map_append, current, shelves.archived]

/-- A session that is made current goes before all that are kept beside it. -/
theorem shelves_use {others : List Nat} {number : Nat} (session : Session)
    {archived : List Session} (kept : archived.map some = others.map roll.latest)
    (absent : number ∉ others)
    (listed : ∀ other, other ∈ number :: others ↔ other < roll.added ∧ other ∉ roll.forgotten)
    (recent : others.Pairwise fun first second => roll.since second < roll.since first)
    (past : ∀ other < roll.added, other ≠ number → roll.since other < roll.now)
    (old : ∀ other ∈ roll.forgotten, other < roll.added) :
    (roll.use number session).Shelves ⟨some session, archived⟩ others where
  current := by
    show some (some session) = some (Function.update roll.latest number (some session) number)
    rw [Function.update_self]
  archived := by
    rw [kept]
    refine List.map_congr_left fun other member => ?_
    exact (Function.update_of_ne (ne_of_mem_of_not_mem member absent) _ _).symm
  listed := listed
  recent := by
    have unchanged : ∀ other ∈ others, (roll.use number session).since other = roll.since other :=
      fun other member => Function.update_of_ne (ne_of_mem_of_not_mem member absent) _ _
    have first : (roll.use number session).since number = roll.now := Function.update_self _ _ _
    refine List.pairwise_cons.mpr ⟨fun other member => ?_, ?_⟩
    · rw [first, unchanged other member]
      exact past other ((listed other).mp (List.mem_cons_of_mem _ member)).1
        (ne_of_mem_of_not_mem member absent)
    · refine recent.imp_of_mem fun {earlier later} earlierMember laterMember before => ?_
      rw [unchanged earlier earlierMember, unchanged later laterMember]
      exact before
  past other added := by
    show Function.update roll.since number roll.now other < roll.now + 1
    by_cases same : other = number
    · rw [same, Function.update_self]
      exact Nat.lt_succ_self _
    · rw [Function.update_of_ne same]
      exact (past other added same).trans (Nat.lt_succ_self _)
  old := old

/-- A new session is current, and all others are archived. -/
theorem Shelves.promote (shelves : roll.Shelves record shelf) (session : Session) :
    ({ roll with added := roll.added + 1 }.use roll.added session).Shelves
      ⟨some session, record.sessions⟩ (roll.inUse.toList ++ shelf) := by
  refine shelves_use session shelves.map_sessions ?_ ?_ shelves.recent ?_ ?_
  · intro member
    exact Nat.lt_irrefl _ ((shelves.listed _).mp member).1
  · intro other
    rw [List.mem_cons, shelves.listed]
    constructor
    · rintro (rfl | ⟨added, kept⟩)
      · exact ⟨Nat.lt_succ_self _, fun gone => Nat.lt_irrefl _ (shelves.old _ gone)⟩
      · exact ⟨added.trans (Nat.lt_succ_self _), kept⟩
    · rintro ⟨added, kept⟩
      exact (Nat.lt_succ_iff_lt_or_eq.mp added).symm.imp_right fun before => ⟨before, kept⟩
  · intro other added different
    exact shelves.past other (Nat.lt_of_le_of_ne (Nat.le_of_lt_succ added) different)
  · intro other gone
    exact (shelves.old other gone).trans (Nat.lt_succ_self _)

/-- The current session is archived. -/
theorem Shelves.archive (shelves : roll.Shelves record shelf) :
    ({ roll with inUse := none } : Roll).Shelves ⟨none, record.sessions⟩
      (roll.inUse.toList ++ shelf) where
  current := rfl
  archived := shelves.map_sessions
  listed := shelves.listed
  recent := shelves.recent
  past := shelves.past
  old := shelves.old

/-- The current session takes an update. -/
theorem Shelves.update (shelves : roll.Shelves record shelf) {number : Nat}
    (inUse : roll.inUse = some number) (session : Session) :
    ({ roll with latest := Function.update roll.latest number (some session) } : Roll).Shelves
      (record.setCurrent session) shelf where
  current := by
    show some (some session) = roll.inUse.map _
    rw [inUse]
    exact congrArg some (Function.update_self number (some session) roll.latest).symm
  archived := by
    have distinct := shelves.nodup
    rw [inUse] at distinct
    have absent : number ∉ shelf := (List.nodup_cons.mp distinct).1
    show record.archived.map some = _
    rw [shelves.archived]
    refine List.map_congr_left fun other member => ?_
    exact (Function.update_of_ne (ne_of_mem_of_not_mem member absent) _ _).symm
  listed := shelves.listed
  recent := shelves.recent
  past := shelves.past
  old := shelves.old

/-- An archived session is current and no longer on the shelf. -/
theorem Shelves.revive (shelves : roll.Shelves record shelf) {index : Nat}
    (bound : index < shelf.length) (session : Session) :
    (roll.use shelf[index] session).Shelves
      ⟨some session, record.current.toList ++ record.archived.eraseIdx index⟩
      (roll.inUse.toList ++ shelf.eraseIdx index) := by
  have left : (roll.inUse.toList ++ shelf.eraseIdx index).Sublist (roll.inUse.toList ++ shelf) :=
    (List.eraseIdx_sublist _ _).append_left _
  have splits : (shelf[index] :: (roll.inUse.toList ++ shelf.eraseIdx index)).Perm
      (roll.inUse.toList ++ shelf) :=
    List.perm_middle.symm.trans ((List.getElem_cons_eraseIdx_perm bound).append_left _)
  have absent := (List.nodup_cons.mp (splits.nodup_iff.mpr shelves.nodup)).1
  refine shelves_use session ?_ absent ?_ (shelves.recent.sublist left) ?_ shelves.old
  · have others := congrArg (List.eraseIdx · index) shelves.archived
    simp only [List.eraseIdx_map] at others
    rw [List.map_append, List.map_append, others, ← Option.toList_map, ← Option.toList_map,
      shelves.current]
  · intro other
    rw [splits.mem_iff]
    exact shelves.listed other
  · exact fun other added _ => shelves.past other added

/-- **A change of the record is the change of its roll.** -/
theorem Shelves.change (shelves : roll.Shelves record shelf)
    (few : record.archived.length ≤ Limits.archivedSessions) {change : RecordChange}
    (admits : record.Admits change) :
    (∃ latter, (roll.change change).Shelves (record.change change) latter) ∧
      ∀ number ∈ (roll.change change).forgotten, number ∉ roll.forgotten →
        (roll.change change).rank number = Limits.archivedSessions := by
  cases change with
  | promote session =>
      have before := shelves.promote session
      refine ⟨?_, fun number => before.rank_of_forgotten⟩
      rw [SessionRecord.change, SessionRecord.promote_eq few]
      exact ⟨_, before.forget⟩
  | update session =>
      obtain ⟨current, stands⟩ := Option.isSome_iff_exists.mp admits
      have shown := shelves.current
      rw [stands] at shown
      obtain ⟨number, inUse, _⟩ := Option.map_eq_some_iff.mp shown.symm
      have changed : roll.change (.update session) =
          { roll with latest := Function.update roll.latest number (some session) } := by
        simp only [Roll.change, inUse]
      rw [changed]
      exact ⟨⟨shelf, shelves.update inUse session⟩, fun _ forgotten kept => absurd forgotten kept⟩
  | archive =>
      have before := shelves.archive
      refine ⟨?_, fun number => before.rank_of_forgotten⟩
      rw [SessionRecord.change, SessionRecord.archiveCurrent_eq few]
      exact ⟨_, before.forget⟩
  | revive index session =>
      have bound : index < shelf.length := shelves.length_eq.symm ▸ admits
      have before := shelves.revive bound session
      simp only [Roll.change, shelves.ranked?_eq (List.getElem?_eq_getElem bound)]
      refine ⟨?_, fun number => before.rank_of_forgotten⟩
      rw [SessionRecord.change, SessionRecord.promoteArchived_eq few]
      exact ⟨_, before.forget⟩

/-- Nothing is forgotten for a session that leaves the archive. -/
theorem Shelves.forgotten_revive (shelves : roll.Shelves record shelf)
    (few : record.archived.length ≤ Limits.archivedSessions) {index : Nat} {session : Session}
    (admits : record.Admits (.revive index session)) :
    (roll.change (.revive index session)).forgotten = roll.forgotten := by
  have bound : index < shelf.length := shelves.length_eq.symm ▸ admits
  have room : (roll.inUse.toList ++ shelf.eraseIdx index).length ≤ Limits.archivedSessions := by
    have one : roll.inUse.toList.length ≤ 1 := Option.length_toList_le
    have erased := List.length_eraseIdx_of_lt bound
    have length := shelves.length_eq
    rw [List.length_append]
    omega
  simp only [Roll.change, shelves.ranked?_eq (List.getElem?_eq_getElem bound)]
  exact (shelves.revive bound session).forgotten_forget_of_room room

end

/-! ## The whole life of a record -/

/-- A roll begins with the sessions that are there, in their order. -/
theorem shelves_of (record : SessionRecord) :
    (of record).Shelves record
      (List.range' record.current.toList.length record.archived.length) := by
  have whole : (of record).inUse.toList ++
      List.range' record.current.toList.length record.archived.length =
      List.range record.sessions.length := by
    rw [SessionRecord.sessions, List.length_append, List.range_eq_range', of]
    cases record.current with
    | none => simp
    | some current => simp [List.range'_succ, Nat.add_comm 1]
  refine ⟨?_, ?_, ?_, ?_, ?_, ?_⟩
  · simp only [of, SessionRecord.sessions]
    cases record.current <;> rfl
  · refine List.ext_getElem (by simp) fun index bound _ => ?_
    rw [List.length_map] at bound
    rw [List.getElem_map, List.getElem_map, List.getElem_range', Nat.one_mul]
    show some _ = (record.current.toList ++ record.archived)[_ + index]?
    rw [List.getElem?_append_right (Nat.le_add_right _ _), Nat.add_sub_cancel_left,
      List.getElem?_eq_getElem bound]
  · intro number
    rw [whole, List.mem_range]
    exact (and_iff_left List.not_mem_nil).symm
  · rw [whole]
    refine List.pairwise_lt_range.imp_of_mem fun {first second} _ secondMember before => ?_
    have bound := List.mem_range.mp secondMember
    show record.sessions.length - second < record.sessions.length - first
    omega
  · intro number _
    exact Nat.lt_succ_of_le (Nat.sub_le _ _)
  · intro number gone
    cases gone

theorem Shelves.changed {roll : Roll} {record : SessionRecord} {shelf : List Nat}
    (shelves : roll.Shelves record shelf)
    (few : record.archived.length ≤ Limits.archivedSessions) {changes : List RecordChange}
    (admitted : record.AdmitsAll changes) :
    ∃ latter, (roll.changed changes).Shelves (record.changed changes) latter ∧
      (record.changed changes).archived.length ≤ Limits.archivedSessions := by
  induction changes generalizing roll record shelf with
  | nil => exact ⟨shelf, shelves, few⟩
  | cons change rest ih =>
      obtain ⟨next, shown⟩ := (shelves.change few admitted.1).1
      exact ih shown (SessionRecord.length_archived_change_le few change) admitted.2

end Roll

namespace SessionRecord

theorem admitsAll_append {record : SessionRecord} {first second : List RecordChange} :
    record.AdmitsAll (first ++ second) ↔
      record.AdmitsAll first ∧ (record.changed first).AdmitsAll second := by
  induction first generalizing record with
  | nil => exact (and_iff_right trivial).symm
  | cons change rest ih =>
      show record.Admits change ∧ (record.change change).AdmitsAll (rest ++ second) ↔ _
      rw [ih, ← and_assoc]
      rfl

/-- **A record shows the sessions that were added and not forgotten, each once and in
its latest version, most recently current first.** A session is forgotten only
behind a full archive of more recent ones, and none is forgotten when one leaves
the archive. -/
theorem ordered_by_recency {record : SessionRecord}
    (few : record.archived.length ≤ Limits.archivedSessions) {changes : List RecordChange}
    (admitted : record.AdmitsAll changes) :
    let roll := (Roll.of record).changed changes
    let latter := record.changed changes
    (∃ shelf : List Nat,
      latter.current.map some = roll.inUse.map roll.latest ∧
      latter.archived.map some = shelf.map roll.latest ∧
      (roll.inUse.toList ++ shelf).Nodup ∧
      (∀ number, number ∈ roll.inUse.toList ++ shelf ↔
        number < roll.added ∧ number ∉ roll.forgotten) ∧
      (roll.inUse.toList ++ shelf).Pairwise fun first second =>
        roll.since second < roll.since first) ∧
    latter.archived.length ≤ Limits.archivedSessions ∧
    ∀ done last, done ++ [last] <+: changes →
      let before := (Roll.of record).changed done
      (∀ number ∈ (before.change last).forgotten, number ∉ before.forgotten →
        (before.change last).rank number = Limits.archivedSessions) ∧
      ∀ index session, last = .revive index session →
        (before.change last).forgotten = before.forgotten := by
  intro roll latter
  obtain ⟨shelf, shelves, fewLatter⟩ := (Roll.shelves_of record).changed few admitted
  refine ⟨⟨shelf, shelves.current, shelves.archived, shelves.nodup, shelves.listed,
    shelves.recent⟩, fewLatter, ?_⟩
  rintro done last ⟨rest, rfl⟩
  obtain ⟨admittedDone, admitsLast, _⟩ := admitsAll_append.mp (admitsAll_append.mp admitted).1
  obtain ⟨shelfDone, shelvesDone, fewDone⟩ := (Roll.shelves_of record).changed few admittedDone
  refine ⟨(shelvesDone.change fewDone admitsLast).2, ?_⟩
  rintro index session rfl
  exact shelvesDone.forgotten_revive fewDone admitsLast

/-- The last session of a full archive becomes current again, and then a new one does:
only the session before the last is forgotten. -/
theorem full_archive_ordered :
    let session : Session := ⟨3, default, default, ⟨.v3, default⟩, 0, none, [], none, none, none⟩
    let record : SessionRecord := ⟨some session, List.replicate 40 session⟩
    let changes : List RecordChange := [.revive 39 session, .promote session]
    let roll := (Roll.of record).changed changes
    roll.forgotten = [39] ∧ ∃ shelf : List Nat,
      (record.changed changes).archived.map some = shelf.map roll.latest ∧
      (roll.inUse.toList ++ shelf).Nodup ∧
      ∀ number, number ∈ roll.inUse.toList ++ shelf ↔ number < 42 ∧ number ≠ 39 := by
  intro session record changes roll
  have few : record.archived.length ≤ Limits.archivedSessions := by decide
  have admitted : record.AdmitsAll changes := by
    refine ⟨?_, trivial, trivial⟩
    show 39 < record.archived.length
    decide
  have added : roll.added = 42 := by decide +kernel
  have forgotten : roll.forgotten = [39] := by decide +kernel
  obtain ⟨⟨shelf, _, archived, distinct, listed, _⟩, _⟩ := ordered_by_recency few admitted
  refine ⟨forgotten, shelf, archived, distinct, fun number => ?_⟩
  have shown := listed number
  rw [show (Roll.of record).changed changes = roll from rfl, added, forgotten,
    List.mem_singleton] at shown
  exact shown

end SessionRecord

end Ratchet
