/-!
# Procedures

A procedure works on a state and may fail. Running one gives its outcome and the
state after it, and both also when it fails: what was done to the state before
the failure stays done.

Of two procedures in sequence, the second runs on the state that the first has
left, unless the first fails (`Procedure.run_bind`). So a statement about a long
procedure is a statement about its steps, one after another.
-/

set_option autoImplicit false

namespace Ratchet

/-- A computation that changes a state and may fail. -/
abbrev Procedure (σ ε α : Type) := ExceptT ε (StateM σ) α

namespace Procedure

variable {σ ε δ α β : Type}

/-- The outcome of a procedure and the state after it. -/
def run (procedure : Procedure σ ε α) (state : σ) : Except ε α × σ :=
  Id.run (StateT.run (ExceptT.run procedure) state)

/-- The procedure that has this outcome and leaves the state alone. -/
def ofExcept (outcome : Except ε α) : Procedure σ ε α := ExceptT.mk (pure outcome)

/-- Runs a procedure and looks at its outcome. -/
def observe (procedure : Procedure σ ε α) : Procedure σ ε (Except ε α) :=
  ExceptT.mk (do return .ok (← ExceptT.run procedure))

/-- Gives another account of every failure. -/
def explain (account : ε → δ) (procedure : Procedure σ ε α) : Procedure σ δ α :=
  ExceptT.mk (do return (← ExceptT.run procedure).mapError account)

/-! ## What running gives -/

@[simp]
theorem run_pure (value : α) (state : σ) :
    run (pure value : Procedure σ ε α) state = (.ok value, state) := rfl

@[simp]
theorem run_throw (failure : ε) (state : σ) :
    run (throw failure : Procedure σ ε α) state = (.error failure, state) := rfl

@[simp]
theorem run_get (state : σ) : run (get : Procedure σ ε σ) state = (.ok state, state) := rfl

@[simp]
theorem run_set (next state : σ) :
    run (set next : Procedure σ ε PUnit) state = (.ok ⟨⟩, next) := rfl

@[simp]
theorem run_modify (change : σ → σ) (state : σ) :
    run (modify change : Procedure σ ε PUnit) state = (.ok ⟨⟩, change state) := rfl

@[simp]
theorem run_ofExcept (outcome : Except ε α) (state : σ) :
    run (ofExcept outcome) state = (outcome, state) := rfl

@[simp]
theorem run_observe (procedure : Procedure σ ε α) (state : σ) :
    run procedure.observe state = (.ok (run procedure state).1, (run procedure state).2) := rfl

@[simp]
theorem run_explain (account : ε → δ) (procedure : Procedure σ ε α) (state : σ) :
    run (procedure.explain account) state =
      ((run procedure state).1.mapError account, (run procedure state).2) := rfl

theorem run_bind (first : Procedure σ ε α) (second : α → Procedure σ ε β) (state : σ) :
    run (first >>= second) state =
      match run first state with
      | (.ok value, next) => run (second value) next
      | (.error failure, next) => (.error failure, next) := by
  unfold run ExceptT.run StateT.run Id.run
  simp only [bind, ExceptT.bind, ExceptT.mk, StateT.bind, ExceptT.bindCont]
  cases first state with
  | mk outcome next => cases outcome <;> rfl

/-- A sequence goes on with what its first part gives. -/
theorem run_bind_of_ok {first : Procedure σ ε α} {second : α → Procedure σ ε β} {state next : σ}
    {value : α} (ran : run first state = (.ok value, next)) :
    run (first >>= second) state = run (second value) next := by
  rw [run_bind, ran]

/-- A sequence fails where its first part does. -/
theorem run_bind_of_error {first : Procedure σ ε α} {second : α → Procedure σ ε β} {state next : σ}
    {failure : ε} (ran : run first state = (.error failure, next)) :
    run (first >>= second) state = (.error failure, next) := by
  rw [run_bind, ran]

/-- When a sequence succeeds, so does each of its parts. -/
theorem run_bind_eq_ok {first : Procedure σ ε α} {second : α → Procedure σ ε β} {state final : σ}
    {result : β} (succeeds : run (first >>= second) state = (.ok result, final)) :
    ∃ value next, run first state = (.ok value, next) ∧
      run (second value) next = (.ok result, final) := by
  rw [run_bind] at succeeds
  cases ran : run first state with
  | mk outcome next =>
    rw [ran] at succeeds
    cases outcome with
    | error failure => cases succeeds
    | ok value => exact ⟨value, next, rfl, succeeds⟩

/-- When a sequence fails, either its first part does, or the second does on what the first left. -/
theorem run_bind_eq_error {first : Procedure σ ε α} {second : α → Procedure σ ε β}
    {state final : σ} {failure : ε}
    (fails : run (first >>= second) state = (.error failure, final)) :
    run first state = (.error failure, final) ∨
      ∃ value next, run first state = (.ok value, next) ∧
        run (second value) next = (.error failure, final) := by
  rw [run_bind] at fails
  cases ran : run first state with
  | mk outcome next =>
    rw [ran] at fails
    cases outcome with
    | error reason =>
      cases fails
      exact .inl rfl
    | ok value => exact .inr ⟨value, next, rfl, fails⟩

/-- What follows a failure is not done. -/
theorem throw_bind (failure : ε) (next : α → Procedure σ ε β) :
    (throw failure >>= next) = throw failure := rfl

theorem ofExcept_ok_bind (value : α) (next : α → Procedure σ ε β) :
    (ofExcept (.ok value) >>= next) = next value := rfl

theorem run_map (function : α → β) (procedure : Procedure σ ε α) (state : σ) :
    run (function <$> procedure) state =
      match run procedure state with
      | (.ok value, next) => (.ok (function value), next)
      | (.error failure, next) => (.error failure, next) := by
  unfold run ExceptT.run StateT.run Id.run
  simp only [Functor.map, ExceptT.map, ExceptT.mk, bind, StateT.bind]
  cases procedure state with
  | mk outcome next => cases outcome <;> rfl

/-- When a result in another form is there, so is the result. -/
theorem run_map_eq_ok {function : α → β} {procedure : Procedure σ ε α} {state final : σ}
    {result : β} (succeeds : run (function <$> procedure) state = (.ok result, final)) :
    ∃ value, run procedure state = (.ok value, final) ∧ function value = result := by
  rw [run_map] at succeeds
  cases ran : run procedure state with
  | mk outcome next =>
    rw [ran] at succeeds
    cases outcome with
    | error failure => cases succeeds
    | ok value =>
      cases succeeds
      exact ⟨value, rfl, rfl⟩

/-! ## Procedures that run alike -/

/-- Procedures are equal if they run alike. -/
theorem ext {first second : Procedure σ ε α} (alike : ∀ state, run first state = run second state) :
    first = second := funext alike

/-- Sequences are equal if they go on alike with whatever their first part gives. -/
theorem bind_congr_of_ok {first : Procedure σ ε α} {second third : α → Procedure σ ε β}
    (alike : ∀ value state next, run first state = (.ok value, next) → second value = third value) :
    first >>= second = first >>= third := by
  apply ext
  intro state
  rw [run_bind, run_bind]
  rcases ran : run first state with ⟨failure | value, next⟩
  · rfl
  · dsimp only
    rw [alike value state next ran]

end Procedure

end Ratchet
