import Kiac.Program.Basic

/-!
# Weakest preconditions with a guard

`Prog.wp` relates a program, a postcondition and a guard, which holds of each operation in the state
in which it is issued. A guard that ignores the operation is a crash condition; one that ignores the
state says which operations the program may issue at all. The environment is restricted to the
choices that a predicate calls fair. Fallible programs are written in `ExceptT` over programs, and
`onError` runs a recovery and then returns the error.
-/

namespace Kiac

universe u v w

namespace Prog

variable {Op : Type u} {Ans : Op → Type u} {State : Type v} {Choice : Type w}
variable {α β : Type u}

/-- Every choice that the execution consumes is fair where it is consumed. -/
def FairRun (machine : Machine Op Ans State Choice) (fair : Op → Choice → State → Prop) :
    Prog Op Ans α → List Choice → State → Prop
  | done _, _, _ => True
  | call _ _, [], _ => True
  | call op next, choice :: choices, state =>
    fair op choice state ∧
      (next (machine.step op choice state).2).FairRun machine fair choices
        (machine.step op choice state).1

instance decidableFairRun (machine : Machine Op Ans State Choice)
    (fair : Op → Choice → State → Prop) [∀ op choice state, Decidable (fair op choice state)] :
    ∀ (program : Prog Op Ans α) (choices : List Choice) (state : State),
      Decidable (program.FairRun machine fair choices state)
  | done _, _, _ => isTrue trivial
  | call _ _, [], _ => isTrue trivial
  | call op next, choice :: choices, state =>
    have := decidableFairRun machine fair (next (machine.step op choice state).2) choices
      (machine.step op choice state).1
    inferInstanceAs (Decidable (_ ∧ _))

/-- The weakest precondition of a program under fair choices. -/
def wp (machine : Machine Op Ans State Choice) (fair : Op → Choice → State → Prop)
    (guard : Op → State → Prop) : Prog Op Ans α → (α → State → Prop) → State → Prop
  | done value, post, state => post value state
  | call op next, post, state =>
    guard op state ∧ ∀ choice, fair op choice state →
      (next (machine.step op choice state).2).wp machine fair guard post
        (machine.step op choice state).1

variable {machine : Machine Op Ans State Choice} {fair : Op → Choice → State → Prop}
  {guard : Op → State → Prop}

@[simp]
theorem wp_done (value : α) (post : α → State → Prop) (state : State) :
    (done value : Prog Op Ans α).wp machine fair guard post state ↔ post value state := Iff.rfl

theorem wp_call (op : Op) (next : Ans op → Prog Op Ans α) (post : α → State → Prop)
    (state : State) :
    (call op next).wp machine fair guard post state ↔
      guard op state ∧ ∀ choice, fair op choice state →
        (next (machine.step op choice state).2).wp machine fair guard post
          (machine.step op choice state).1 := Iff.rfl

theorem wp_perform (op : Op) (post : Ans op → State → Prop) (state : State) :
    (perform op : Prog Op Ans (Ans op)).wp machine fair guard post state ↔
      guard op state ∧ ∀ choice, fair op choice state →
        post (machine.step op choice state).2 (machine.step op choice state).1 := Iff.rfl

variable {program : Prog Op Ans α} {post : α → State → Prop} {state : State} {choices : List Choice}

theorem wp_mono {post' : α → State → Prop} (holds : program.wp machine fair guard post state)
    (weaken : ∀ value state, post value state → post' value state) :
    program.wp machine fair guard post' state := by
  induction program generalizing state with
  | done value => exact weaken value state holds
  | call op next ih =>
    rcases holds with ⟨atOp, steps⟩
    refine ⟨atOp, ?_⟩
    intro choice isFair
    exact ih _ (steps choice isFair)

theorem wp_bind {next : α → Prog Op Ans β} {post : β → State → Prop} :
    (program >>= next).wp machine fair guard post state ↔
      program.wp machine fair guard
        (fun value state => (next value).wp machine fair guard post state) state := by
  induction program generalizing state with
  | done value => simp
  | call op continue' ih =>
    apply and_congr_right
    intro _
    apply forall_congr'
    intro choice
    apply imp_congr_right
    intro _
    exact ih _

theorem wp_of_invariant {invariant : State → Prop}
    (keeps : ∀ op choice state, fair op choice state → invariant state →
      invariant (machine.step op choice state).1)
    (program : Prog Op Ans α) (holds : invariant state) :
    program.wp machine fair (fun _ => invariant) (fun _ => invariant) state := by
  induction program generalizing state with
  | done value => exact holds
  | call op next ih =>
    refine ⟨holds, ?_⟩
    intro choice isFair
    exact ih _ (keeps op choice state isFair holds)

theorem wp_sound (holds : program.wp machine fair guard post state)
    (isFair : program.FairRun machine fair choices state) :
    match (program.exec machine choices state).value with
    | some value => post value (program.exec machine choices state).state
    | none => ∃ op, guard op (program.exec machine choices state).state := by
  induction program generalizing state choices with
  | done value => exact holds
  | call op next ih =>
    cases choices with
    | nil => exact ⟨op, holds.1⟩
    | cons choice choices =>
      exact ih _ (holds.2 choice isFair.1) isFair.2

theorem wp_last_step {last : Choice} (holds : program.wp machine fair guard post state)
    (isFair : program.FairRun machine fair (choices ++ [last]) state) :
    (program.exec machine (choices ++ [last]) state).state =
        (program.exec machine choices state).state ∨
      ∃ op, guard op (program.exec machine choices state).state ∧
        fair op last (program.exec machine choices state).state ∧
        (program.exec machine (choices ++ [last]) state).state =
          (machine.step op last (program.exec machine choices state).state).1 := by
  induction program generalizing state choices with
  | done value => exact Or.inl rfl
  | call op next ih =>
    cases choices with
    | nil =>
      refine Or.inr ⟨op, holds.1, isFair.1, ?_⟩
      rw [List.nil_append, exec_call_cons, exec_call_nil, exec_nil_state]
    | cons choice choices =>
      exact ih _ (holds.2 choice isFair.1) isFair.2

theorem guard_of_mem_trace (holds : program.wp machine fair guard post state)
    (isFair : program.FairRun machine fair choices state) {op : Op}
    (issued : op ∈ (program.exec machine choices state).trace) : ∃ before, guard op before := by
  induction program generalizing state choices with
  | done value => simp at issued
  | call first next ih =>
    cases choices with
    | nil => simp at issued
    | cons choice choices =>
      rcases List.mem_cons.mp issued with rfl | later
      · exact ⟨state, holds.1⟩
      · exact ih _ (holds.2 choice isFair.1) isFair.2 later

theorem fairRun_of_forall (always : ∀ choice ∈ choices, ∀ op state, fair op choice state)
    (program : Prog Op Ans α) (state : State) :
    program.FairRun machine fair choices state := by
  induction program generalizing choices state with
  | done value => trivial
  | call op next ih =>
    cases choices with
    | nil => trivial
    | cons choice choices =>
      refine ⟨always choice List.mem_cons_self op state, ?_⟩
      exact ih _ (fun other mem => always other (List.mem_cons_of_mem _ mem)) _

variable {ε : Type u}

/-- On an error, run the recovery and return the error. -/
def onError (program : ExceptT ε (Prog Op Ans) α) (recovery : Prog Op Ans PUnit) :
    ExceptT ε (Prog Op Ans) α :=
  ExceptT.mk (program.run >>= fun
    | .ok value => done (.ok value)
    | .error err => recovery >>= fun _ => done (.error err))

/-- Runs the body for every item, whatever the results, and returns the first error or
all values: the join of concurrent workers that are all waited for. -/
def forAll {ι : Type v} (body : ι → ExceptT ε (Prog Op Ans) α) :
    List ι → ExceptT ε (Prog Op Ans) (List α)
  | [] => pure []
  | item :: items => ExceptT.mk ((body item).run >>= fun first => (forAll body items).run >>=
      fun others => done (match first with
        | .ok value => others.map (value :: ·)
        | .error err => .error err))

@[simp]
theorem wp_run_pure (value : α) (post : Except ε α → State → Prop) (state : State) :
    (pure value : ExceptT ε (Prog Op Ans) α).run.wp machine fair guard post state ↔
      post (.ok value) state := Iff.rfl

@[simp]
theorem wp_run_throw (err : ε) (post : Except ε α → State → Prop) (state : State) :
    (throw err : ExceptT ε (Prog Op Ans) α).run.wp machine fair guard post state ↔
      post (.error err) state := Iff.rfl

variable {program : ExceptT ε (Prog Op Ans) α}

theorem wp_run_bind {next : α → ExceptT ε (Prog Op Ans) β} {post : Except ε β → State → Prop} :
    (program >>= next).run.wp machine fair guard post state ↔
      program.run.wp machine fair guard (fun result state =>
        match result with
        | .ok value => (next value).run.wp machine fair guard post state
        | .error err => post (.error err) state) state := by
  rw [ExceptT.run_bind, wp_bind]
  constructor
  · intro holds
    apply wp_mono holds
    intro result state after
    cases result <;> exact after
  · intro holds
    apply wp_mono holds
    intro result state after
    cases result <;> exact after

theorem wp_run_onError {recovery : Prog Op Ans PUnit} {post : Except ε α → State → Prop} :
    (onError program recovery).run.wp machine fair guard post state ↔
      program.run.wp machine fair guard (fun result state =>
        match result with
        | .ok value => post (.ok value) state
        | .error err =>
          recovery.wp machine fair guard (fun _ => post (.error err)) state) state := by
  change (program.run >>= _).wp machine fair guard post state ↔ _
  rw [wp_bind]
  constructor
  · intro holds
    apply wp_mono holds
    intro result state after
    cases result with
    | ok value => exact after
    | error err => exact wp_bind.mp after
  · intro holds
    apply wp_mono holds
    intro result state after
    cases result with
    | ok value => exact after
    | error err => exact wp_bind.mpr after

end Prog

end Kiac
