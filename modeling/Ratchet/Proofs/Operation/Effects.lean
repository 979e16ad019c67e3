import Ratchet.Operation
import Ratchet.Store.Memory

/-!
# What operations leave behind

No operation looks at the texts that were handed out before it: in contexts that
agree on the rest it does the same (`Operation.Blind`). Some operations read and
never change the store (`Operation.Reads`), and some never fail
(`Operation.Certain`). An operation is atomic when a failure of it leaves the
store as it was (`Operation.Atomic`); this is so for everything that reads
first and is certain from its first change on.

Where an operation fails without a change of the store and before any text is
handed out, it is refused (`Operation.RefusedIn`). This is so for everything that is
silent until it is refused (`Operation.Silent`).
-/

set_option autoImplicit false

namespace Ratchet

/-- The contexts have the same store and the same supply. -/
structure Context.Agrees {ς : Type} (first second : Context ς) : Prop where
  store : first.store = second.store
  supply : first.supply = second.supply

namespace Operation

variable {ς α β : Type}

/-- Contexts that agree stay so, and give the same outcome. -/
def Blind (operation : Operation ς α) : Prop :=
  ∀ first second : Context ς, first.Agrees second →
    (operation.run first).1 = (operation.run second).1 ∧
      (operation.run first).2.Agrees (operation.run second).2

/-- The operation never changes the store. -/
structure Reads (operation : Operation ς α) : Prop where
  blind : operation.Blind
  store_eq : ∀ context, (operation.run context).2.store = context.store

/-- The operation never fails. -/
structure Certain (operation : Operation ς α) : Prop where
  blind : operation.Blind
  succeeds : ∀ context, ∃ value later, operation.run context = (.ok value, later)

/-- Where the operation fails, it leaves the store as it was. -/
structure Atomic (operation : Operation ς α) : Prop where
  blind : operation.Blind
  store_eq : ∀ context failure later, operation.run context = (.error failure, later) →
    later.store = context.store

/-! ## Operations in sequence -/

theorem Blind.bind {first : Operation ς α} {second : α → Operation ς β} (blind : first.Blind)
    (continues : ∀ value, (second value).Blind) : (first >>= second).Blind := by
  intro former latter agree
  obtain ⟨same, agreeNext⟩ := blind former latter agree
  rw [Procedure.run_bind, Procedure.run_bind]
  cases ranFormer : first.run former with
  | mk outcome next =>
      cases ranLatter : first.run latter with
      | mk outcomeLatter nextLatter =>
          rw [ranFormer, ranLatter] at same agreeNext
          cases same
          cases outcome with
          | error failure => exact ⟨rfl, agreeNext⟩
          | ok value => exact continues value _ _ agreeNext

theorem Blind.map {operation : Operation ς α} (blind : operation.Blind) (function : α → β) :
    (function <$> operation).Blind := by
  intro former latter agree
  obtain ⟨same, agreeNext⟩ := blind former latter agree
  rw [Procedure.run_map, Procedure.run_map]
  cases ranFormer : operation.run former with
  | mk outcome next =>
      cases ranLatter : operation.run latter with
      | mk outcomeLatter nextLatter =>
          rw [ranFormer, ranLatter] at same agreeNext
          cases same
          cases outcome <;> exact ⟨rfl, agreeNext⟩

theorem Reads.bind {first : Operation ς α} {second : α → Operation ς β} (reads : first.Reads)
    (continues : ∀ value, (second value).Reads) : (first >>= second).Reads where
  blind := reads.blind.bind fun value => (continues value).blind
  store_eq context := by
    have former := reads.store_eq context
    rw [Procedure.run_bind]
    cases ran : first.run context with
    | mk outcome next =>
        rw [ran] at former
        cases outcome with
        | error failure => exact former
        | ok value => exact ((continues value).store_eq next).trans former

theorem Reads.map {operation : Operation ς α} (reads : operation.Reads) (function : α → β) :
    (function <$> operation).Reads where
  blind := reads.blind.map function
  store_eq context := by
    have former := reads.store_eq context
    rw [Procedure.run_map]
    cases ran : operation.run context with
    | mk outcome next =>
        rw [ran] at former
        cases outcome <;> exact former

theorem Certain.bind {first : Operation ς α} {second : α → Operation ς β}
    (certain : first.Certain) (continues : ∀ value, (second value).Certain) :
    (first >>= second).Certain where
  blind := certain.blind.bind fun value => (continues value).blind
  succeeds context := by
    obtain ⟨value, next, ran⟩ := certain.succeeds context
    obtain ⟨result, later, finished⟩ := (continues value).succeeds next
    refine ⟨result, later, ?_⟩
    rw [Procedure.run_bind_of_ok ran]
    exact finished

theorem Reads.atomic {operation : Operation ς α} (reads : operation.Reads) :
    operation.Atomic where
  blind := reads.blind
  store_eq context failure later failed := by
    have former := reads.store_eq context
    rw [failed] at former
    exact former

theorem Certain.atomic {operation : Operation ς α} (certain : operation.Certain) :
    operation.Atomic where
  blind := certain.blind
  store_eq context failure later failed := by
    obtain ⟨value, next, ran⟩ := certain.succeeds context
    rw [ran] at failed
    cases failed

/-- Reading before an atomic operation leaves it atomic. -/
theorem Reads.bind_atomic {first : Operation ς α} {second : α → Operation ς β}
    (reads : first.Reads) (atomic : ∀ value, (second value).Atomic) :
    (first >>= second).Atomic where
  blind := reads.blind.bind fun value => (atomic value).blind
  store_eq context failure later failed := by
    have former := reads.store_eq context
    rw [Procedure.run_bind] at failed
    cases ran : first.run context with
    | mk outcome next =>
        rw [ran] at former failed
        cases outcome with
        | error reason =>
            cases failed
            exact former
        | ok value => exact ((atomic value).store_eq next failure later failed).trans former

/-- Giving the result another form leaves an operation atomic. -/
theorem Atomic.map {operation : Operation ς α} (atomic : operation.Atomic) (function : α → β) :
    (function <$> operation).Atomic where
  blind := atomic.blind.map function
  store_eq context failure later failed := by
    rw [Procedure.run_map] at failed
    cases ran : operation.run context with
    | mk outcome next =>
        rw [ran] at failed
        cases outcome with
        | error reason =>
            cases failed
            exact atomic.store_eq context _ _ ran
        | ok value => cases failed

/-! ## Single steps -/

theorem reads_pure (value : α) : (pure value : Operation ς α).Reads where
  blind _ _ agree := ⟨rfl, agree⟩
  store_eq _ := rfl

theorem reads_throw (failure : SessionError) : (throw failure : Operation ς α).Reads where
  blind _ _ agree := ⟨rfl, agree⟩
  store_eq _ := rfl

theorem reads_ask (question : ς → Except SessionError α) : (ask question).Reads where
  blind first second agree := by
    refine ⟨?_, agree⟩
    simp only [run_ask]
    rw [agree.store]
  store_eq _ := rfl

theorem reads_attempt (procedure : Attempt α) : (attempt procedure : Operation ς α).Reads where
  blind first second agree := by
    simp only [run_attempt]
    rw [agree.supply]
    exact ⟨rfl, agree.store, rfl⟩
  store_eq _ := rfl

theorem reads_release (receiver : Bytes → Except SessionError Unit) (plaintext : Bytes) :
    (release receiver plaintext : Operation ς Unit).Reads where
  blind _ _ agree := ⟨rfl, agree.store, agree.supply⟩
  store_eq _ := rfl

theorem certain_pure (value : α) : (pure value : Operation ς α).Certain where
  blind := (reads_pure value).blind
  succeeds context := ⟨value, context, rfl⟩

/-- A change that never fails is certain. -/
theorem certain_change (step : ς → ς) : (change fun store => .ok (step store)).Certain where
  blind first second agree := by
    rw [run_change, run_change, agree.store]
    exact ⟨rfl, rfl, agree.supply⟩
  succeeds context := ⟨⟨⟩, { context with store := step context.store }, run_change _ _⟩

/-! ## Refusals -/

/-- Whatever comes of it, the operation does not change the store and hands out no text. -/
def Silent (operation : Operation ς α) : Prop :=
  ∀ context, (operation.run context).2.store = context.store ∧
    (operation.run context).2.released = context.released

/-- In this context the operation fails, does not change the store and hands out no text. -/
def RefusedIn (operation : Operation ς α) (context : Context ς) : Prop :=
  ∃ failure later, operation.run context = (.error failure, later) ∧
    later.store = context.store ∧ later.released = context.released

theorem refused_throw (failure : SessionError) (context : Context ς) :
    (throw failure : Operation ς α).RefusedIn context :=
  ⟨failure, context, rfl, rfl, rfl⟩

/-- What follows a refusal is refused. -/
theorem RefusedIn.bind {operation : Operation ς α} {context : Context ς}
    (refused : operation.RefusedIn context) (next : α → Operation ς β) :
    (operation >>= next).RefusedIn context := by
  obtain ⟨failure, later, ran, store, released⟩ := refused
  refine ⟨failure, later, ?_, store, released⟩
  exact Procedure.run_bind_of_error ran

theorem RefusedIn.map {operation : Operation ς α} {context : Context ς}
    (refused : operation.RefusedIn context) (function : α → β) :
    (function <$> operation).RefusedIn context := by
  obtain ⟨failure, later, ran, store, released⟩ := refused
  refine ⟨failure, later, ?_, store, released⟩
  rw [Procedure.run_map, ran]

/-- A silent step before a refusal leaves it one. -/
theorem Silent.bind_refused {operation : Operation ς α} {next : α → Operation ς β}
    (silent : operation.Silent) {context : Context ς}
    (refused : ∀ value later, operation.run context = (.ok value, later) →
      (next value).RefusedIn later) :
    (operation >>= next).RefusedIn context := by
  obtain ⟨store, released⟩ := silent context
  cases ran : operation.run context with
  | mk outcome middle =>
      rw [ran] at store released
      cases outcome with
      | error failure => exact RefusedIn.bind ⟨failure, middle, ran, store, released⟩ next
      | ok value =>
          obtain ⟨failure, later, fails, laterStore, laterReleased⟩ := refused value middle ran
          refine ⟨failure, later, ?_, laterStore.trans store, laterReleased.trans released⟩
          rw [Procedure.run_bind_of_ok ran]
          exact fails

theorem Silent.bind {operation : Operation ς α} {next : α → Operation ς β}
    (silent : operation.Silent) (continues : ∀ value, (next value).Silent) :
    (operation >>= next).Silent := by
  intro context
  have former := silent context
  rw [Procedure.run_bind]
  cases ran : operation.run context with
  | mk outcome middle =>
      rw [ran] at former
      cases outcome with
      | error failure => exact former
      | ok value =>
          obtain ⟨store, released⟩ := continues value middle
          exact ⟨store.trans former.1, released.trans former.2⟩

theorem silent_pure (value : α) : (pure value : Operation ς α).Silent := fun _ => ⟨rfl, rfl⟩

theorem silent_throw (failure : SessionError) : (throw failure : Operation ς α).Silent :=
  fun _ => ⟨rfl, rfl⟩

theorem silent_ask (question : ς → Except SessionError α) : (ask question).Silent :=
  fun _ => ⟨rfl, rfl⟩

theorem silent_attempt (procedure : Attempt α) : (attempt procedure : Operation ς α).Silent :=
  fun _ => ⟨rfl, rfl⟩

end Operation

end Ratchet
