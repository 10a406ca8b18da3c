/-
This file is about programs that act on a state they do not own: each call has an effect
and an answer that are only known up to a relation, and between two calls the program may
be stopped for good. A program is safe when every effect keeps a guarantee between the
states before and after it, whatever the answers are, and when what it returns is as
promised. Safety is checked call by call, and a safe program that has been stopped
anywhere has kept its guarantee up to there.
-/

import Mathlib

/-- A program with calls of the operations `Op`; it returns a value or fails. -/
inductive Program (Op : Type) (Answer : Op → Type) (Failure Value : Type) where
  | finish (value : Value)
  | fail (failure : Failure)
  | call (op : Op) (next : Answer op → Program Op Answer Failure Value)

namespace Program

variable {Op : Type} {Answer : Op → Type} {Failure Reason Value Result State : Type}

/-- Goes on with what the program comes to, be it a value or a failure. -/
def handle : Program Op Answer Failure Value →
    (Except Failure Value → Program Op Answer Reason Result) → Program Op Answer Reason Result
  | .finish value, rest => rest (.ok value)
  | .fail failure, rest => rest (.error failure)
  | .call op next, rest => .call op fun answer => (next answer).handle rest

instance : Monad (Program Op Answer Failure) where
  pure := .finish
  bind program rest := program.handle fun
    | .ok value => rest value
    | .error failure => .fail failure

/-- One call. -/
def perform (op : Op) : Program Op Answer Failure (Answer op) := .call op .finish

def mapError (program : Program Op Answer Failure Value) (convert : Failure → Reason) :
    Program Op Answer Reason Value :=
  program.handle fun
    | .ok value => .finish value
    | .error failure => .fail (convert failure)

/-! ### Safety -/

/-- What a call may do to a state and answer. -/
abbrev Effect (Op : Type) (Answer : Op → Type) (State : Type) : Type :=
  (op : Op) → State → Answer op → State → Prop

/-- Every effect of the program keeps the guarantee, and the value it returns or the failure
it ends with is as promised. -/
def Safe (effect : Effect Op Answer State) (guarantee : State → State → Prop)
    (good : Value → State → Prop) (bad : Failure → State → Prop) :
    Program Op Answer Failure Value → State → Prop
  | .finish value, state => good value state
  | .fail failure, state => bad failure state
  | .call op next, state => ∀ answer after, effect op state answer after →
      guarantee state after ∧ (next answer).Safe effect guarantee good bad after

variable {effect : Effect Op Answer State} {guarantee : State → State → Prop}
  {good : Value → State → Prop} {bad : Failure → State → Prop} {state : State}

variable {value : Value}

@[simp]
theorem safe_pure :
    (pure value : Program Op Answer Failure Value).Safe effect guarantee good bad state ↔
      good value state := Iff.rfl

variable {program : Program Op Answer Failure Value}
  {rest : Except Failure Value → Program Op Answer Reason Result}

/-- A sequence is safe if its first part promises that the rest is. -/
@[simp]
theorem safe_handle {good : Result → State → Prop} {bad : Reason → State → Prop} :
    (program.handle rest).Safe effect guarantee good bad state ↔
      program.Safe effect guarantee
        (fun value after => (rest (.ok value)).Safe effect guarantee good bad after)
        (fun failure after => (rest (.error failure)).Safe effect guarantee good bad after)
        state := by
  induction program generalizing state with
  | finish | fail => exact Iff.rfl
  | call op next ih =>
    refine forall_congr' fun answer => forall_congr' fun after => ?_
    rw [ih answer]

@[simp]
theorem safe_bind {rest : Value → Program Op Answer Failure Result} {good : Result → State → Prop} :
    (program >>= rest).Safe effect guarantee good bad state ↔
      program.Safe effect guarantee
        (fun value after => (rest value).Safe effect guarantee good bad after) bad state :=
  safe_handle

@[simp]
theorem safe_mapError {convert : Failure → Reason} {bad : Reason → State → Prop} :
    (program.mapError convert).Safe effect guarantee good bad state ↔
      program.Safe effect guarantee good (fun failure => bad (convert failure)) state :=
  safe_handle

theorem Safe.mono {better : Value → State → Prop} {worse : Failure → State → Prop}
    (safe : program.Safe effect guarantee better worse state)
    (returns : ∀ value after, better value after → good value after)
    (fails : ∀ failure after, worse failure after → bad failure after) :
    program.Safe effect guarantee good bad state := by
  induction program generalizing state with
  | finish value => exact returns _ _ safe
  | fail failure => exact fails _ _ safe
  | call op next ih =>
    intro answer after taken
    exact ⟨(safe answer after taken).1, ih answer (safe answer after taken).2⟩

/-! ### Calls of one kind -/

/-- The program makes only calls that are allowed. -/
def Only (allowed : Op → Prop) : Program Op Answer Failure Value → Prop
  | .finish _ => True
  | .fail _ => True
  | .call op next => allowed op ∧ ∀ answer, (next answer).Only allowed

variable {allowed : Op → Prop}

theorem Only.handle (first : program.Only allowed) (later : ∀ result, (rest result).Only allowed) :
    (program.handle rest).Only allowed := by
  induction program with
  | finish | fail => exact later _
  | call op next ih =>
    exact ⟨first.1, fun answer => ih answer (first.2 answer)⟩

theorem Only.bind {rest : Value → Program Op Answer Failure Result} (first : program.Only allowed)
    (later : ∀ value, (rest value).Only allowed) : (program >>= rest).Only allowed :=
  first.handle fun result => by
    cases result with
    | ok value => exact later value
    | error failure => trivial

/-! ### Runs -/

/-- One call of a program that is being run. -/
inductive Step (effect : Effect Op Answer State) :
    Program Op Answer Failure Value × State → Program Op Answer Failure Value × State → Prop
  | call {op : Op} {next : Answer op → Program Op Answer Failure Value} {state after : State}
      {answer : Answer op} (taken : effect op state answer after) :
      Step effect (.call op next, state) (next answer, after)

theorem Safe.step {rest : Program Op Answer Failure Value} {after : State}
    (safe : program.Safe effect guarantee good bad state)
    (taken : Step effect (program, state) (rest, after)) :
    guarantee state after ∧ rest.Safe effect guarantee good bad after := by
  cases taken with
  | call taken => exact safe _ _ taken

end Program
