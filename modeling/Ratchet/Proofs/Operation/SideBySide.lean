import Ratchet.Operation

/-!
# Operations side by side

Two contexts are related when their stores are, and they agree on the rest
(`Context.Related`). An operation respects a relation of stores when in related
contexts it does the same, hands out the same texts, and leaves related contexts
(`Operation.Respects`).

Whether it does may depend on what it has read before, so the values that an
operation gives come with a property, and of two operations in sequence the second
need respect the relation for values with this property only
(`Operation.Respects.bind`).
-/

set_option autoImplicit false

namespace Ratchet

variable {ς α β : Type}

/-- The contexts have related stores, and agree on the rest. -/
structure Context.Related (related : ς → ς → Prop) (first second : Context ς) : Prop where
  store : related first.store second.store
  supply : first.supply = second.supply
  released : first.released = second.released

namespace Operation

variable {related : ς → ς → Prop} {property : α → Prop}

/-- In related contexts the operation does the same and leaves related contexts, and what it gives
has the property. -/
def Respects (operation : Operation ς α) (related : ς → ς → Prop) (property : α → Prop) : Prop :=
  ∀ first second : Context ς, Context.Related related first second →
    (operation.run first).1 = (operation.run second).1 ∧
      Context.Related related (operation.run first).2 (operation.run second).2 ∧
      ∀ value, (operation.run first).1 = .ok value → property value

/-! ## Operations in sequence -/

theorem Respects.bind {operation : Operation ς α} {next : α → Operation ς β} {latter : β → Prop}
    (respects : operation.Respects related property)
    (continues : ∀ value, property value → (next value).Respects related latter) :
    (operation >>= next).Respects related latter := by
  intro first second contexts
  obtain ⟨same, after, holds⟩ := respects first second contexts
  rw [Procedure.run_bind, Procedure.run_bind]
  cases ranFirst : operation.run first with
  | mk outcome middle =>
      cases ranSecond : operation.run second with
      | mk outcomeSecond middleSecond =>
          rw [ranFirst, ranSecond] at same after
          rw [ranFirst] at holds
          cases same
          cases outcome with
          | error failure => exact ⟨rfl, after, fun _ impossible => nomatch impossible⟩
          | ok value => exact continues value (holds value rfl) middle middleSecond after

theorem Respects.map {operation : Operation ς α} (respects : operation.Respects related property)
    (function : α → β) : (function <$> operation).Respects related fun _ => True := by
  intro first second contexts
  obtain ⟨same, after, _⟩ := respects first second contexts
  rw [Procedure.run_map, Procedure.run_map]
  cases ranFirst : operation.run first with
  | mk outcome middle =>
      cases ranSecond : operation.run second with
      | mk outcomeSecond middleSecond =>
          rw [ranFirst, ranSecond] at same after
          cases same
          cases outcome <;> exact ⟨rfl, after, fun _ _ => trivial⟩

/-! ## Single steps -/

theorem respects_pure {value : α} (holds : property value) :
    (pure value : Operation ς α).Respects related property :=
  fun _ _ contexts => ⟨rfl, contexts, fun _ same => Except.ok.inj same ▸ holds⟩

theorem respects_throw (failure : SessionError) :
    (throw failure : Operation ς α).Respects related property :=
  fun _ _ contexts => ⟨rfl, contexts, fun _ impossible => nomatch impossible⟩

/-- A question that related stores answer alike. -/
theorem respects_ask {question : ς → Except SessionError α}
    (same : ∀ first second, related first second → question first = question second)
    (holds : ∀ first second value, related first second → question first = .ok value →
      property value) :
    (ask question).Respects related property :=
  fun _ _ contexts => ⟨same _ _ contexts.store, contexts, fun value answered =>
    holds _ _ value contexts.store answered⟩

theorem respects_attempt {procedure : Attempt α}
    (holds : ∀ supply value later, procedure.run supply = (.ok value, later) → property value) :
    (attempt procedure : Operation ς α).Respects related property := by
  intro first second contexts
  simp only [run_attempt]
  rw [contexts.supply]
  exact ⟨rfl, ⟨contexts.store, rfl, contexts.released⟩,
    fun value succeeds => holds second.supply value _ (Prod.ext succeeds rfl)⟩

theorem respects_release (receiver : Bytes → Except SessionError Unit) (plaintext : Bytes) :
    (release receiver plaintext : Operation ς Unit).Respects related fun _ => True :=
  fun _ _ contexts => ⟨rfl,
    ⟨contexts.store, contexts.supply, congrArg (plaintext :: ·) contexts.released⟩,
    fun _ _ => trivial⟩

/-- A change that never fails and keeps related stores related. -/
theorem respects_change {step : ς → ς}
    (steps : ∀ first second, related first second → related (step first) (step second)) :
    (change fun store => .ok (step store)).Respects related fun _ => True := by
  intro first second contexts
  rw [run_change, run_change]
  exact ⟨rfl, ⟨steps _ _ contexts.store, contexts.supply, contexts.released⟩, fun _ _ => trivial⟩

end Operation

end Ratchet
