import Ratchet.Store.Interface
import Ratchet.Suite

/-!
# Operations over a store

An operation works on a store with a supply for the primitives, and may hand
decrypted texts to its caller before it is done. `Context` holds the three, and
an operation is a procedure on it, so that what a failed operation has done can
be seen.
-/

set_option autoImplicit false

namespace Ratchet

/-- What an operation works on. -/
structure Context (ς : Type) where
  store : ς
  supply : Supply
  /-- The texts that were handed out before the end of an operation, the latest first. -/
  released : List Bytes := []

/-- A computation over a store that may fail. -/
abbrev Operation (ς α : Type) := Procedure (Context ς) SessionError α

namespace Operation

variable {ς α β : Type}

/-- Makes an attempt with the supply of the operation. -/
def attempt (attempt : Attempt α) : Operation ς α := do
  let context ← get
  let (outcome, supply) := Procedure.run attempt context.supply
  set { context with supply }
  Procedure.ofExcept outcome

/-- Asks the store. -/
def ask (question : ς → Except SessionError α) : Operation ς α := do
  Procedure.ofExcept (question (← get).store)

/-- Changes the store, unless the change fails. -/
def change (step : ς → Except SessionError ς) : Operation ς Unit := do
  let context ← get
  let store ← Procedure.ofExcept (step context.store)
  set { context with store }

/-- Hands out a text, and fails if its receiver does. -/
def release (receiver : Bytes → Except SessionError Unit) (plaintext : Bytes) :
    Operation ς Unit := do
  modify fun context => { context with released := plaintext :: context.released }
  Procedure.ofExcept (receiver plaintext)

/-! ## What running gives -/

@[simp]
theorem run_attempt (procedure : Attempt α) (context : Context ς) :
    Procedure.run (attempt procedure : Operation ς α) context =
      ((procedure.run context.supply).1,
        { context with supply := (procedure.run context.supply).2 }) := rfl

@[simp]
theorem run_ask (question : ς → Except SessionError α) (context : Context ς) :
    Procedure.run (ask question) context = (question context.store, context) := rfl

/-- An answer is given, and nothing is changed. -/
theorem run_ask_of_ok {question : ς → Except SessionError α} {context : Context ς} {answer : α}
    (answers : question context.store = .ok answer) :
    Procedure.run (ask question) context = (.ok answer, context) := by
  rw [run_ask, answers]

/-- When a sequence succeeds that begins with a question, so does what follows the answer. -/
theorem run_ask_bind_eq_ok {question : ς → Except SessionError α} {next : α → Operation ς β}
    {context later : Context ς} {result : β}
    (succeeds : Procedure.run (ask question >>= next) context = (.ok result, later)) :
    ∃ answer, question context.store = .ok answer ∧
      Procedure.run (next answer) context = (.ok result, later) := by
  obtain ⟨answer, _, asked, succeeds⟩ := Procedure.run_bind_eq_ok succeeds
  rw [run_ask, Prod.mk.injEq] at asked
  obtain ⟨answered, rfl⟩ := asked
  exact ⟨answer, answered, succeeds⟩

/-- An attempt that succeeds leaves the rest of the supply. -/
theorem run_attempt_of_ok {procedure : Attempt α} {context : Context ς} {value : α} {rest : Supply}
    (ran : procedure.run context.supply = (.ok value, rest)) :
    Procedure.run (attempt procedure : Operation ς α) context =
      (.ok value, { context with supply := rest }) := by
  rw [run_attempt, ran]

/-- When a sequence succeeds that begins with an attempt, so does what follows on the rest of the
supply. -/
theorem run_attempt_bind_eq_ok {procedure : Attempt α} {next : α → Operation ς β}
    {context later : Context ς} {result : β}
    (succeeds : Procedure.run ((attempt procedure : Operation ς α) >>= next) context =
      (.ok result, later)) :
    ∃ value rest, procedure.run context.supply = (.ok value, rest) ∧
      Procedure.run (next value) { context with supply := rest } = (.ok result, later) := by
  obtain ⟨value, _, attempted, succeeds⟩ := Procedure.run_bind_eq_ok succeeds
  rw [run_attempt, Prod.mk.injEq] at attempted
  obtain ⟨made, rfl⟩ := attempted
  exact ⟨value, _, Prod.ext made rfl, succeeds⟩

@[simp]
theorem run_release (receiver : Bytes → Except SessionError Unit) (plaintext : Bytes)
    (context : Context ς) :
    Procedure.run (release receiver plaintext) context =
      (receiver plaintext, { context with released := plaintext :: context.released }) := rfl

/-- A text that its receiver takes is released. -/
theorem run_release_of_ok {receiver : Bytes → Except SessionError Unit} {plaintext : Bytes}
    {context : Context ς} (accepts : receiver plaintext = .ok ()) :
    Procedure.run (release receiver plaintext) context =
      (.ok (), { context with released := plaintext :: context.released }) := by
  rw [run_release, accepts]

theorem run_change (step : ς → Except SessionError ς) (context : Context ς) :
    Procedure.run (change step) context =
      match step context.store with
      | .ok store => (.ok ⟨⟩, { context with store })
      | .error failure => (.error failure, context) := by
  unfold change
  rw [Procedure.run_bind, Procedure.run_get]
  dsimp only
  rw [Procedure.run_bind, Procedure.run_ofExcept]
  cases step context.store <;> rfl

/-- A change that succeeds is the change of the store. -/
theorem change_eq_ok {step : ς → Except SessionError ς} {context later : Context ς}
    (changed : Procedure.run (change step) context = (.ok ⟨⟩, later)) :
    step context.store = .ok later.store := by
  rw [run_change] at changed
  cases stepped : step context.store with
  | error failure =>
      rw [stepped] at changed
      cases changed
  | ok store =>
      rw [stepped] at changed
      cases changed
      rfl

end Operation

end Ratchet
