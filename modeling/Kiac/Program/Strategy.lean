import Kiac.Program.Hoare

/-!
# Runs under a strategy

A strategy picks the environment's choice from the operation and the state, so a
program run under it always finishes. Such runs are computed by equations, one for
each way of building a program, and each of them is an execution on a list of
choices. They are used to exhibit a run, and to follow a run in which every command
succeeds.
-/

namespace Kiac

universe u v w

namespace Prog

variable {Op : Type u} {Ans : Op → Type u} {State : Type v} {Choice : Type w}
variable {α β : Type u}

/-- The state and the value at the end of the run under a strategy. -/
def follow (machine : Machine Op Ans State Choice) (strategy : Op → State → Choice) :
    Prog Op Ans α → State → State × α
  | done value, state => (state, value)
  | call op next, state =>
    let stepped := machine.step op (strategy op state) state
    (next stepped.2).follow machine strategy stepped.1

/-- The choices that the strategy makes along the run. -/
def choicesOf (machine : Machine Op Ans State Choice) (strategy : Op → State → Choice) :
    Prog Op Ans α → State → List Choice
  | done _, _ => []
  | call op next, state =>
    let stepped := machine.step op (strategy op state) state
    strategy op state :: (next stepped.2).choicesOf machine strategy stepped.1

variable {machine : Machine Op Ans State Choice} {strategy : Op → State → Choice}

@[simp]
theorem follow_done (value : α) (state : State) :
    (done value : Prog Op Ans α).follow machine strategy state = (state, value) := rfl

@[simp]
theorem follow_call (op : Op) (next : Ans op → Prog Op Ans α) (state : State) :
    (call op next).follow machine strategy state =
      (next (machine.step op (strategy op state) state).2).follow machine strategy
        (machine.step op (strategy op state) state).1 := rfl

@[simp]
theorem follow_perform (op : Op) (state : State) :
    (perform op : Prog Op Ans (Ans op)).follow machine strategy state =
      machine.step op (strategy op state) state := rfl

@[simp]
theorem follow_bind (program : Prog Op Ans α) (next : α → Prog Op Ans β) (state : State) :
    (program >>= next).follow machine strategy state =
      (next (program.follow machine strategy state).2).follow machine strategy
        (program.follow machine strategy state).1 := by
  induction program generalizing state with
  | done value => rfl
  | call op continue' ih => exact ih _ _

@[simp]
theorem follow_run_bind {ε : Type u} (program : ExceptT ε (Prog Op Ans) α)
    (next : α → ExceptT ε (Prog Op Ans) β) (state : State) :
    (program >>= next).run.follow machine strategy state =
      match program.run.follow machine strategy state with
      | (after, .ok value) => (next value).run.follow machine strategy after
      | (after, .error err) => (after, .error err) := by
  change (program.run >>= _).follow machine strategy state = _
  rw [follow_bind]
  rcases program.run.follow machine strategy state with ⟨after, value | err⟩ <;> rfl

variable {fair : Op → Choice → State → Prop}

theorem wp_follow {guard : Op → State → Prop}
    (isFair : ∀ op state, fair op (strategy op state) state) {program : Prog Op Ans α}
    {post : α → State → Prop} {state : State}
    (holds : program.wp machine fair guard post state) :
    post (program.follow machine strategy state).2 (program.follow machine strategy state).1 := by
  induction program generalizing state with
  | done value => exact holds
  | call op next ih => exact ih _ (holds.2 (strategy op state) (isFair op state))

theorem exec_choicesOf (program : Prog Op Ans α) (rest : List Choice) (state : State) :
    ∃ trace, program.exec machine (program.choicesOf machine strategy state ++ rest) state =
      ⟨(program.follow machine strategy state).1, trace, rest,
        some (program.follow machine strategy state).2⟩ := by
  induction program generalizing state with
  | done value => exact ⟨[], rfl⟩
  | call op next ih =>
    rcases ih (machine.step op (strategy op state) state).2
      (machine.step op (strategy op state) state).1 with ⟨trace, executed⟩
    refine ⟨op :: trace, ?_⟩
    simp only [choicesOf, List.cons_append, exec_call_cons, executed]
    rfl

theorem fairRun_choicesOf
    (isFair : ∀ op state, fair op (strategy op state) state) (program : Prog Op Ans α)
    (rest : List Choice) (state : State) :
    program.FairRun machine fair (program.choicesOf machine strategy state ++ rest) state := by
  induction program generalizing state with
  | done value => trivial
  | call op next ih => exact ⟨isFair op state, ih _ _⟩

theorem exists_fair_return (machine : Machine Op Ans State Choice) (strategy : Op → State → Choice)
    (isFair : ∀ op state, fair op (strategy op state) state) (program : Prog Op Ans α)
    (state : State) :
    ∃ choices value, program.FairRun machine fair choices state ∧
      (program.exec machine choices state).value = some value := by
  rcases exec_choicesOf program [] state with ⟨trace, executed⟩
  exact ⟨_, _, fairRun_choicesOf isFair program [] state, by rw [executed]⟩

theorem exists_fair_state (machine : Machine Op Ans State Choice) (strategy : Op → State → Choice)
    (isFair : ∀ op state, fair op (strategy op state) state) (program : Prog Op Ans α)
    (state : State) :
    ∃ choices, program.FairRun machine fair choices state ∧
      (program.exec machine choices state).state = (program.follow machine strategy state).1 := by
  rcases exec_choicesOf program [] state with ⟨trace, executed⟩
  exact ⟨_, fairRun_choicesOf isFair program [] state, by rw [executed]⟩

theorem exists_exec_eq (machine : Machine Op Ans State Choice) (strategy : Op → State → Choice)
    (program : Prog Op Ans α) (state : State) :
    ∃ choices, (program.exec machine choices state).state =
        (program.follow machine strategy state).1 ∧
      (program.exec machine choices state).value =
        some (program.follow machine strategy state).2 := by
  rcases exec_choicesOf program [] state with ⟨trace, executed⟩
  exact ⟨_, by rw [executed], by rw [executed]⟩

theorem exists_exec_state (program : Prog Op Ans α) (strategy : Op → State → Choice)
    (state : State) :
    ∃ choices, (program.exec machine choices state).state =
      (program.follow machine strategy state).1 := by
  refine ⟨program.choicesOf machine strategy state ++ [], ?_⟩
  rcases exec_choicesOf program [] state with ⟨trace, executed⟩
  rw [executed]

end Prog

end Kiac
