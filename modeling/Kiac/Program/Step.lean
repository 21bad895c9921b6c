import Kiac.Program.Triple

/-!
# Steps of fallible programs

The steps that fallible programs are put together from: one operation, a check, a step that must
succeed, and a value that must be there.
-/

namespace Kiac

namespace Step

variable {Op : Type} {Ans : Op → Type} {ε α : Type}

/-- One operation. -/
def ask (op : Op) : ExceptT ε (Prog Op Ans) (Ans op) := ExceptT.lift (Prog.perform op)

/-- An error unless the condition holds. -/
def check (holds : Bool) (err : ε) : ExceptT ε (Prog Op Ans) Unit :=
  if holds then pure () else throw err

/-- A step whose failure is an error. -/
def must (action : ExceptT ε (Prog Op Ans) Bool) (err : ε) : ExceptT ε (Prog Op Ans) Unit :=
  action >>= fun holds => check holds err

/-- A value that is there, or an error. -/
def given (err : ε) : Option α → ExceptT ε (Prog Op Ans) α
  | some value => pure value
  | none => throw err

/-- A result that has been computed. -/
def settle (result : Except ε α) : ExceptT ε (Prog Op Ans) α := ExceptT.mk (Prog.done result)

/-- `&&` of the shell. -/
def andThen (first second : ExceptT ε (Prog Op Ans) Bool) : ExceptT ε (Prog Op Ans) Bool :=
  first >>= fun holds => if holds then second else pure false

/-- Nothing is done if the condition holds. -/
def skipIf (holds : Bool) (action : ExceptT ε (Prog Op Ans) Unit) : ExceptT ε (Prog Op Ans) Unit :=
  if holds then pure () else action

section Acts

variable {allowed : Op → Prop}

theorem acts_ask {op : Op} (isAllowed : allowed op) :
    Does allowed (ask op : ExceptT ε (Prog Op Ans) (Ans op)) :=
  Acts.lift (Issues.perform isAllowed)

variable {holds : Bool} {err : ε}

theorem acts_check :
    Acts allowed (fun _ => holds) (check holds err : ExceptT ε (Prog Op Ans) Unit) := by
  unfold check
  split
  · rename_i isTrue
    exact Acts.pure isTrue
  · exact Acts.throw

theorem acts_must {action : ExceptT ε (Prog Op Ans) Bool} {post : Bool → Prop}
    (acts : Acts allowed post action) : Does allowed (must action err) :=
  Acts.bind acts fun _ _ => Acts.mono acts_check (fun _ => id) fun _ _ => trivial

theorem acts_given (value : Option α) :
    Acts allowed (fun inner => value = some inner)
      (given err value : ExceptT ε (Prog Op Ans) α) := by
  cases value with
  | none => exact Acts.throw
  | some value => exact Acts.pure rfl

theorem acts_settle (result : Except ε α) :
    Acts allowed (fun value => result = .ok value)
      (settle result : ExceptT ε (Prog Op Ans) α) := by
  cases result with
  | error err => exact Acts.throw
  | ok value => exact Acts.pure rfl

theorem acts_andThen {first second : ExceptT ε (Prog Op Ans) Bool}
    (acts : Does allowed first) (acts' : Does allowed second) :
    Does allowed (andThen first second) := by
  refine Acts.bind acts fun holds _ => ?_
  cases holds with
  | true => exact acts'
  | false => exact Acts.pure trivial

theorem acts_skipIf {action : ExceptT ε (Prog Op Ans) Unit}
    (acts : Does allowed action) :
    Does allowed (skipIf holds action) := by
  cases holds with
  | true => exact Acts.pure trivial
  | false => exact acts

end Acts

section Triples

variable {State Choice : Type} {setting : Setting Op Ans State Choice} {pre failed : State → Prop}

variable {err : ε}

theorem returns_check {holds : Bool} (fails : ∀ state, pre state → failed state) :
    Returns setting pre (check holds err : ExceptT ε (Prog Op Ans) Unit)
      (fun _ state => pre state ∧ holds) failed := by
  unfold check
  split
  · rename_i isTrue
    exact Returns.pure fun _ before => ⟨before, isTrue⟩
  · exact Returns.throw fails

theorem returns_given (value : Option α) (fails : ∀ state, pre state → failed state) :
    Returns setting pre (given err value : ExceptT ε (Prog Op Ans) α)
      (fun inner state => pre state ∧ value = some inner) failed := by
  cases value with
  | none => exact Returns.throw fails
  | some inner => exact Returns.pure fun _ before => ⟨before, rfl⟩

theorem returns_settle (result : Except ε α) (fails : ∀ state, pre state → failed state) :
    Returns setting pre (settle result : ExceptT ε (Prog Op Ans) α)
      (fun value state => pre state ∧ result = .ok value) failed := by
  cases result with
  | error err => exact Returns.throw fails
  | ok value => exact Returns.pure fun _ before => ⟨before, rfl⟩

end Triples

end Step

end Kiac
