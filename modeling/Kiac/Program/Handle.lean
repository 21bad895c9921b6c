import Kiac.Program.Strategy
import Kiac.Program.Triple

/-!
# Operations that are programs

An operation of one program may itself be a program over other operations, which can be stopped
in the middle. A handler says what each operation stands for. Two machines side by side run the
operations of both, each on its own part of the state; a program whose operations are all passed
on to the first one runs there as it does alone.
-/

namespace Kiac

universe u v w

namespace Prog

variable {Op Op' : Type u} {Ans : Op → Type u} {Ans' : Op' → Type u} {α β ε : Type u}

/-- Replaces each operation by the program that it stands for. -/
def handle (handler : (op : Op) → Prog Op' Ans' (Ans op)) : Prog Op Ans α → Prog Op' Ans' α
  | done value => done value
  | call op next => handler op >>= fun answer => (next answer).handle handler

theorem bind_assoc (program : Prog Op Ans α) (next : α → Prog Op Ans β) {γ : Type u}
    (last : β → Prog Op Ans γ) :
    (program >>= next) >>= last = program >>= fun value => next value >>= last := by
  induction program with
  | done value => rfl
  | call op continue' ih =>
    simp only [call_bind]
    congr 1
    funext answer
    exact ih answer

variable {handler : (op : Op) → Prog Op' Ans' (Ans op)}

@[simp]
theorem handle_done (value : α) :
    (done value : Prog Op Ans α).handle handler = done value := rfl

@[simp]
theorem handle_bind (program : Prog Op Ans α) (next : α → Prog Op Ans β) :
    (program >>= next).handle handler =
      program.handle handler >>= fun value => (next value).handle handler := by
  induction program with
  | done value => rfl
  | call op continue' ih =>
    simp [call_bind, handle, ih, bind_assoc]

@[simp]
theorem handle_perform (op : Op) :
    (perform op : Prog Op Ans (Ans op)).handle handler = handler op >>= done := rfl

@[simp]
theorem handle_run_pure (value : α) :
    (pure value : ExceptT ε (Prog Op Ans) α).run.handle handler = done (.ok value) := rfl

@[simp]
theorem handle_run_bind (program : ExceptT ε (Prog Op Ans) α) (next : α → ExceptT ε (Prog Op Ans) β) :
    (program >>= next).run.handle handler =
      program.run.handle handler >>= fun
        | .ok value => (next value).run.handle handler
        | .error err => done (.error err) := by
  change (program.run >>= _).handle handler = _
  rw [handle_bind]
  congr 1
  funext result
  cases result <;> rfl

end Prog

variable {Op Op' : Type u} {Ans : Op → Type u} {Ans' : Op' → Type u} {α : Type u}
variable {State State' : Type v} {Choice Choice' : Type w}

/-- The answers of the operations of two machines. -/
abbrev SumAns (Ans : Op → Type u) (Ans' : Op' → Type u) : Op ⊕ Op' → Type u
  | .inl op => Ans op
  | .inr op => Ans' op

/-- Two machines side by side. -/
def Machine.sum (machine : Machine Op Ans State Choice) (machine' : Machine Op' Ans' State' Choice') :
    Machine (Op ⊕ Op') (SumAns Ans Ans') (State × State') (Choice × Choice') where
  step
    | .inl op, choice, state =>
      (((machine.step op choice.1 state.1).1, state.2), (machine.step op choice.1 state.1).2)
    | .inr op, choice, state =>
      ((state.1, (machine'.step op choice.2 state.2).1), (machine'.step op choice.2 state.2).2)

namespace Prog

/-- An operation of the first of two machines. -/
def first (op : Op) : Prog (Op ⊕ Op') (SumAns Ans Ans') (Ans op) := call (.inl op) done

/-- A program on the second of two machines. -/
def second (program : Prog Op' Ans' α) : Prog (Op ⊕ Op') (SumAns Ans Ans') α :=
  program.handle fun op => call (.inr op) done

variable {machine : Machine Op Ans State Choice} {machine' : Machine Op' Ans' State' Choice'}
variable {strategy : Op ⊕ Op' → State × State' → Choice × Choice'}

theorem follow_second (program : Prog Op' Ans' α) (state : State) (state' : State') :
    (second program).follow (machine.sum machine') strategy (state, state') =
      ((state, (program.follow machine'
          (fun op now => (strategy (.inr op) (state, now)).2) state').1),
        (program.follow machine' (fun op now => (strategy (.inr op) (state, now)).2) state').2) := by
  induction program generalizing state' with
  | done value => rfl
  | call op next ih => exact ih _ _

theorem follow_handle {handler : (op : Op) → Prog (Op ⊕ Op') (SumAns Ans Ans') (Ans op)}
    {passed : Op → Prop} (passes : ∀ op, passed op → handler op = first op)
    {program : Prog Op Ans α} (issues : Issues passed (fun _ => True) program) (state : State) (state' : State') :
    (program.handle handler).follow (machine.sum machine') strategy (state, state') =
      (((program.follow machine (fun op now => (strategy (.inl op) (now, state')).1) state).1, state'),
        (program.follow machine (fun op now => (strategy (.inl op) (now, state')).1) state).2) := by
  induction program generalizing state with
  | done value => rfl
  | call op next ih =>
    rw [handle, follow_bind, passes op issues.1]
    exact ih _ (issues.2 _) _

end Prog

end Kiac
