import Mathlib.Data.List.Basic

/-!
# Effectful programs with faults and interruption

A program either has finished, or it issues one operation and continues with the answer. A machine
maps a state and a choice of the environment (a fault, a partial effect, a value read from outside)
to the next state and the answer. An execution consumes one choice for each operation. When the
choices run out before the program has finished, the execution is interrupted, so a statement about
all lists of choices is a statement about all faults and all points of interruption.
-/

namespace Kiac

universe u v w

/-- A program over operations `Op` whose answers have type `Ans op`. -/
inductive Prog (Op : Type u) (Ans : Op → Type u) (α : Type u) : Type u where
  | done (value : α)
  | call (op : Op) (next : Ans op → Prog Op Ans α)

/-- The effect and the answer of each operation, given the environment's choice. -/
structure Machine (Op : Type u) (Ans : Op → Type u) (State : Type v) (Choice : Type w) where
  step : (op : Op) → Choice → State → State × Ans op

/-- The end of an execution; there is no value when it was interrupted. -/
structure Outcome (Op : Type u) (State : Type v) (Choice : Type w) (α : Type u) where
  state : State
  trace : List Op
  rest : List Choice
  value : Option α

namespace Prog

variable {Op : Type u} {Ans : Op → Type u} {State : Type v} {Choice : Type w}
variable {α β γ : Type u}

/-- Sequential composition. -/
protected def bind : Prog Op Ans α → (α → Prog Op Ans β) → Prog Op Ans β
  | done value, next => next value
  | call op continue', next => call op fun answer => (continue' answer).bind next

instance : Monad (Prog Op Ans) where
  pure := done
  bind := Prog.bind

/-- The program that issues one operation and returns its answer. -/
def perform (op : Op) : Prog Op Ans (Ans op) := call op done

@[simp]
theorem pure_eq_done (value : α) : (pure value : Prog Op Ans α) = done value := rfl

@[simp]
theorem done_bind (value : α) (next : α → Prog Op Ans β) :
    (done value >>= next) = next value := rfl

@[simp]
theorem call_bind (op : Op) (continue' : Ans op → Prog Op Ans α)
    (next : α → Prog Op Ans β) :
    (call op continue' >>= next) = call op fun answer => continue' answer >>= next := rfl

@[simp]
theorem perform_bind (op : Op) (next : Ans op → Prog Op Ans β) :
    (perform op >>= next) = call op next := rfl

/-- Execution of a program on a list of choices, one for each operation. -/
def exec (machine : Machine Op Ans State Choice) :
    Prog Op Ans α → List Choice → State → Outcome Op State Choice α
  | done value, choices, state => ⟨state, [], choices, some value⟩
  | call _ _, [], state => ⟨state, [], [], none⟩
  | call op next, choice :: choices, state =>
    let stepped := machine.step op choice state
    let outcome := (next stepped.2).exec machine choices stepped.1
    { outcome with trace := op :: outcome.trace }

variable {machine : Machine Op Ans State Choice}

@[simp]
theorem exec_done (value : α) (choices : List Choice) (state : State) :
    (done value : Prog Op Ans α).exec machine choices state = ⟨state, [], choices, some value⟩ :=
  rfl

@[simp]
theorem exec_call_nil (op : Op) (next : Ans op → Prog Op Ans α) (state : State) :
    (call op next).exec machine [] state = ⟨state, [], [], none⟩ := rfl

theorem exec_call_cons (op : Op) (next : Ans op → Prog Op Ans α) (choice : Choice)
    (choices : List Choice) (state : State) :
    (call op next).exec machine (choice :: choices) state =
      { (next (machine.step op choice state).2).exec machine choices
          (machine.step op choice state).1 with
        trace := op :: ((next (machine.step op choice state).2).exec machine choices
          (machine.step op choice state).1).trace } := rfl

theorem exec_nil_state (program : Prog Op Ans α) (state : State) :
    (program.exec machine [] state).state = state := by
  cases program with
  | done value => rfl
  | call op next => rfl

end Prog

end Kiac
