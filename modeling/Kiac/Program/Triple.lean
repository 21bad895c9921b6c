import Kiac.Program.Hoare

/-!
# Triples

A setting fixes the machine, the choices that are fair and the guard of the operations.
In a setting, a triple says what holds when a program returns if a condition holds when it
starts. A fallible program has two postconditions, one for the values that it returns and
one for its errors.
-/

namespace Kiac

universe u v w

/-- What the triples of a development have in common. -/
structure Setting (Op : Type u) (Ans : Op → Type u) (State : Type v) (Choice : Type w) where
  machine : Machine Op Ans State Choice
  fair : Op → Choice → State → Prop
  guard : Op → State → Prop

variable {Op : Type u} {Ans : Op → Type u} {State : Type v} {Choice : Type w}
variable {α β ε : Type u}

def Triple (setting : Setting Op Ans State Choice) (pre : State → Prop) (program : Prog Op Ans α)
    (post : α → State → Prop) : Prop :=
  ∀ state, pre state → program.wp setting.machine setting.fair setting.guard post state

/-- The triple of a fallible program. -/
def Returns (setting : Setting Op Ans State Choice) (pre : State → Prop)
    (program : ExceptT ε (Prog Op Ans) α) (ok : α → State → Prop) (failed : State → Prop) : Prop :=
  Triple setting pre program.run fun
    | .ok value => ok value
    | .error _ => failed

variable {setting : Setting Op Ans State Choice} {pre pre' : State → Prop}

namespace Triple

variable {post : α → State → Prop} {program : Prog Op Ans α}

variable {value : α} {state : State} {choices : List Choice}

theorem done (holds : ∀ state, pre state → post value state) :
    Triple setting pre (Prog.done value) post := holds

theorem perform {op : Op} {post : Ans op → State → Prop}
    (allowed : ∀ state, pre state → setting.guard op state)
    (step : ∀ state choice, pre state → setting.fair op choice state →
      post (setting.machine.step op choice state).2 (setting.machine.step op choice state).1) :
    Triple setting pre (Prog.perform op) post :=
  fun state holds => ⟨allowed state holds, fun choice isFair => step state choice holds isFair⟩

theorem bind {next : α → Prog Op Ans β} {middle : α → State → Prop}
    {post : β → State → Prop} (first : Triple setting pre program middle)
    (second : ∀ value, Triple setting (middle value) (next value) post) :
    Triple setting pre (program >>= next) post := by
  intro state holds
  rw [Prog.wp_bind]
  exact Prog.wp_mono (first state holds) second

theorem weaken {post' : α → State → Prop}
    (triple : Triple setting pre program post) (before : ∀ state, pre' state → pre state)
    (after : ∀ value state, post value state → post' value state) :
    Triple setting pre' program post' :=
  fun state holds => Prog.wp_mono (triple state (before state holds)) after

theorem returned (triple : Triple setting pre program post)
    (holds : pre state) (isFair : program.FairRun setting.machine setting.fair choices state)
    (returns : (program.exec setting.machine choices state).value = some value) :
    post value (program.exec setting.machine choices state).state := by
  have sound := Prog.wp_sound (triple state holds) isFair
  rwa [returns] at sound

theorem interrupted (triple : Triple setting pre program post) (holds : pre state)
    (isFair : program.FairRun setting.machine setting.fair choices state)
    (stops : (program.exec setting.machine choices state).value = none) :
    ∃ op, setting.guard op (program.exec setting.machine choices state).state := by
  have sound := Prog.wp_sound (triple state holds) isFair
  rwa [stops] at sound

end Triple

namespace Returns

variable {ok : α → State → Prop} {failed : State → Prop} {program : ExceptT ε (Prog Op Ans) α}
  {ι : Type v} {items : List ι}

theorem pure {value : α} (holds : ∀ state, pre state → ok value state) :
    Returns setting pre (Pure.pure value : ExceptT ε (Prog Op Ans) α) ok failed := holds

theorem throw {err : ε} (holds : ∀ state, pre state → failed state) :
    Returns setting pre (MonadExcept.throw err : ExceptT ε (Prog Op Ans) α) ok failed := holds

theorem bind {next : α → ExceptT ε (Prog Op Ans) β}
    {middle : α → State → Prop} {ok : β → State → Prop}
    (first : Returns setting pre program middle failed)
    (second : ∀ value, Returns setting (middle value) (next value) ok failed) :
    Returns setting pre (program >>= next) ok failed := by
  intro state holds
  rw [Prog.wp_run_bind]
  apply Prog.wp_mono (first state holds)
  intro result state after
  cases result with
  | ok value => exact second value state after
  | error err => exact after

theorem assume {fact : Prop} (returns : fact → Returns setting pre program ok failed) :
    Returns setting (fun state => pre state ∧ fact) program ok failed :=
  fun state holds => returns holds.2 state holds.1

theorem lift {program : Prog Op Ans α} (triple : Triple setting pre program ok) :
    Returns setting pre (ExceptT.lift program : ExceptT ε (Prog Op Ans) α) ok failed := by
  apply Triple.bind triple
  intro value
  exact fun state holds => holds

theorem weaken {ok' : α → State → Prop}
    {failed' : State → Prop} (returns : Returns setting pre program ok failed)
    (before : ∀ state, pre' state → pre state)
    (after : ∀ value state, ok value state → ok' value state)
    (error : ∀ state, failed state → failed' state) :
    Returns setting pre' program ok' failed' := by
  apply Triple.weaken returns before
  intro result state holds
  cases result with
  | ok value => exact after value state holds
  | error err => exact error state holds

theorem onError {recovery : Prog Op Ans PUnit} {failed' : State → Prop}
    (returns : Returns setting pre program ok failed)
    (recovers : Triple setting failed recovery fun _ => failed') :
    Returns setting pre (Prog.onError program recovery) ok failed' := by
  intro state holds
  rw [Prog.wp_run_onError]
  apply Prog.wp_mono (returns state holds)
  intro result state after
  cases result with
  | ok value => exact after
  | error err => exact recovers state after

theorem forM {body : ι → ExceptT ε (Prog Op Ans) PUnit} {invariant : State → Prop}
    (each : ∀ item ∈ items, Returns setting invariant (body item) (fun _ => invariant) failed) :
    Returns setting invariant (items.forM body) (fun _ => invariant) failed := by
  induction items with
  | nil => exact Returns.pure fun _ => id
  | cons item items ih =>
    refine Returns.bind (each item List.mem_cons_self) fun _ => ?_
    exact ih fun other mem => each other (List.mem_cons_of_mem item mem)

theorem forAll {body : ι → ExceptT ε (Prog Op Ans) α} {invariant : State → Prop}
    (each : ∀ item ∈ items, Returns setting invariant (body item) (fun _ => invariant)
      fun _ => False) :
    Returns setting invariant (Prog.forAll body items) (fun _ => invariant) fun _ => False := by
  induction items with
  | nil => exact Returns.pure fun _ => id
  | cons item items ih =>
    refine Triple.bind (each item List.mem_cons_self) fun first => ?_
    cases first with
    | error err => exact fun _ impossible => impossible.elim
    | ok value =>
      refine Triple.bind (ih fun other mem => each other (List.mem_cons_of_mem item mem)) ?_
      intro others
      cases others with
      | error err => exact fun _ impossible => impossible.elim
      | ok values => exact fun _ => id

theorem forAll_cons {body : ι → ExceptT ε (Prog Op Ans) α} {item : ι}
    {ok : State → Prop} (first : Returns setting pre (body item) (fun _ => ok) failed)
    (kept : Triple setting ok (Prog.forAll body items).run fun _ => ok)
    (lost : Triple setting failed (Prog.forAll body items).run fun _ => failed)
    (weaker : ∀ state, ok state → failed state) :
    Returns setting pre (Prog.forAll body (item :: items)) (fun _ => ok) failed := by
  refine Triple.bind first fun result => ?_
  cases result with
  | error err => exact Triple.bind lost fun _ _ => id
  | ok value =>
    refine Triple.bind kept fun others => ?_
    cases others with
    | error err => exact weaker
    | ok values => exact fun _ => id

end Returns

/-- The triple of a fallible program whose errors carry what its caller goes on with. -/
def Exits (setting : Setting Op Ans State Choice) (pre : State → Prop)
    (program : ExceptT ε (Prog Op Ans) α) (ok : α → State → Prop) (failed : ε → State → Prop) :
    Prop :=
  Triple setting pre program.run fun
    | .ok value => ok value
    | .error err => failed err

namespace Exits

variable {ok : α → State → Prop} {failed : ε → State → Prop} {program : ExceptT ε (Prog Op Ans) α}

theorem pure {value : α} (holds : ∀ state, pre state → ok value state) :
    Exits setting pre (Pure.pure value : ExceptT ε (Prog Op Ans) α) ok failed := holds

theorem throw {err : ε} (holds : ∀ state, pre state → failed err state) :
    Exits setting pre (MonadExcept.throw err : ExceptT ε (Prog Op Ans) α) ok failed := holds

theorem bind {next : α → ExceptT ε (Prog Op Ans) β}
    {middle : α → State → Prop} {ok : β → State → Prop}
    (first : Exits setting pre program middle failed)
    (second : ∀ value, Exits setting (middle value) (next value) ok failed) :
    Exits setting pre (program >>= next) ok failed := by
  apply Triple.bind first
  intro result
  cases result with
  | ok value => exact second value
  | error err => exact fun _ => id

theorem assume {fact : Prop} (exits : fact → Exits setting pre program ok failed) :
    Exits setting (fun state => pre state ∧ fact) program ok failed :=
  fun state holds => exits holds.2 state holds.1

theorem lift {program : Prog Op Ans α} (triple : Triple setting pre program ok) :
    Exits setting pre (ExceptT.lift program : ExceptT ε (Prog Op Ans) α) ok failed := by
  apply Triple.bind triple
  intro value
  exact fun state holds => holds

theorem weaken {ok' : α → State → Prop} (exits : Exits setting pre program ok failed)
    (after : ∀ value state, ok value state → ok' value state) :
    Exits setting pre program ok' failed := by
  apply Triple.weaken exits (fun _ => id)
  intro result state holds
  cases result with
  | ok value => exact after value state holds
  | error err => exact holds

end Exits

/-- Whatever its operations answer, the program issues only operations that are allowed and
returns values that satisfy the condition. -/
def Issues (allowed : Op → Prop) (post : α → Prop) : Prog Op Ans α → Prop
  | .done value => post value
  | .call op next => allowed op ∧ ∀ answer, Issues allowed post (next answer)

/-- The same for a fallible program; an error satisfies every condition. -/
def Acts (allowed : Op → Prop) (post : α → Prop) (program : ExceptT ε (Prog Op Ans) α) : Prop :=
  Issues allowed (fun
    | .ok value => post value
    | .error _ => True) program.run

/-- The program issues only operations that are allowed. -/
abbrev Does (allowed : Op → Prop) (program : ExceptT ε (Prog Op Ans) α) : Prop :=
  Acts allowed (fun _ => True) program

variable {allowed : Op → Prop}

namespace Issues

variable {op : Op} {program : Prog Op Ans α} {post : α → Prop}

theorem perform (isAllowed : allowed op) :
    Issues allowed (fun _ => True) (Prog.perform op : Prog Op Ans (Ans op)) :=
  ⟨isAllowed, fun _ => trivial⟩

theorem bind {next : α → Prog Op Ans β} {middle : α → Prop}
    {post : β → Prop} (first : Issues allowed middle program)
    (second : ∀ value, middle value → Issues allowed post (next value)) :
    Issues allowed post (program >>= next) := by
  induction program with
  | done value => exact second value first
  | call op continue' ih => exact ⟨first.1, fun answer => ih answer (first.2 answer)⟩

@[simp]
theorem bind_iff {next : α → Prog Op Ans β} {post : β → Prop} :
    Issues allowed post (program >>= next) ↔
      Issues allowed (fun value => Issues allowed post (next value)) program := by
  refine ⟨fun issues => ?_, fun issues => bind issues fun _ => id⟩
  induction program with
  | done value => exact issues
  | call op next ih => exact ⟨issues.1, fun answer => ih answer (issues.2 answer)⟩

@[simp]
theorem done_iff {value : α} :
    Issues allowed post (Prog.done value : Prog Op Ans α) ↔ post value := Iff.rfl

@[simp]
theorem perform_iff {post : Ans op → Prop} :
    Issues allowed post (Prog.perform op) ↔ allowed op ∧ ∀ answer, post answer := Iff.rfl

@[simp]
theorem ite_iff {condition : Prop} [Decidable condition] {yes no : Prog Op Ans α} :
    Issues allowed post (if condition then yes else no) ↔
      (condition → Issues allowed post yes) ∧ (¬ condition → Issues allowed post no) := by
  split <;> simp [*]

theorem mono {allowed' : Op → Prop} {post' : α → Prop}
    (issues : Issues allowed post program) (wider : ∀ op, allowed op → allowed' op)
    (weaken : ∀ value, post value → post' value) : Issues allowed' post' program := by
  induction program with
  | done value => exact weaken value issues
  | call op next ih => exact ⟨wider op issues.1, fun answer => ih answer (issues.2 answer)⟩

theorem and {allowed' : Op → Prop} {post' : α → Prop}
    (issues : Issues allowed post program) (issues' : Issues allowed' post' program) :
    Issues (fun op => allowed op ∧ allowed' op) (fun value => post value ∧ post' value) program := by
  induction program with
  | done value => exact ⟨issues, issues'⟩
  | call op next ih =>
    exact ⟨⟨issues.1, issues'.1⟩, fun answer => ih answer (issues.2 answer) (issues'.2 answer)⟩

theorem of_mem_trace (issues : Issues allowed post program)
    {machine : Machine Op Ans State Choice} {choices : List Choice} {state : State}
    (issued : op ∈ (program.exec machine choices state).trace) : allowed op := by
  induction program generalizing state choices with
  | done value => simp at issued
  | call first next ih =>
    cases choices with
    | nil => simp at issued
    | cons choice choices =>
      rcases List.mem_cons.mp issued with rfl | later
      · exact issues.1
      · exact ih _ (issues.2 _) later

theorem triple {invariant : State → Prop} (issues : Issues allowed post program)
    (guarded : ∀ op state, allowed op → invariant state → setting.guard op state)
    (keeps : ∀ op choice state, allowed op → setting.fair op choice state → invariant state →
      invariant (setting.machine.step op choice state).1) :
    Triple setting invariant program fun value state => invariant state ∧ post value := by
  induction program with
  | done value => exact fun state holds => ⟨holds, issues⟩
  | call op next ih =>
    intro state holds
    refine ⟨guarded op state issues.1 holds, ?_⟩
    intro choice isFair
    exact ih _ (issues.2 _) _ (keeps op choice state issues.1 isFair holds)

end Issues

namespace Acts

variable {post : α → Prop} {program : ExceptT ε (Prog Op Ans) α}

theorem pure {value : α} (holds : post value) :
    Acts allowed post (Pure.pure value : ExceptT ε (Prog Op Ans) α) := holds

theorem throw {err : ε} :
    Acts allowed post (MonadExcept.throw err : ExceptT ε (Prog Op Ans) α) := trivial

theorem bind {next : α → ExceptT ε (Prog Op Ans) β}
    {middle : α → Prop} {post : β → Prop} (first : Acts allowed middle program)
    (second : ∀ value, middle value → Acts allowed post (next value)) :
    Acts allowed post (program >>= next) := by
  apply Issues.bind first
  intro result holds
  cases result with
  | ok value => exact second value holds
  | error err => trivial

@[simp]
theorem pure_iff {value : α} :
    Acts allowed post (Pure.pure value : ExceptT ε (Prog Op Ans) α) ↔ post value := Iff.rfl

@[simp]
theorem throw_iff {err : ε} :
    Acts allowed post (MonadExcept.throw err : ExceptT ε (Prog Op Ans) α) ↔ True := Iff.rfl

@[simp]
theorem bind_iff {next : α → ExceptT ε (Prog Op Ans) β} {post : β → Prop} :
    Acts allowed post (program >>= next) ↔
      Acts allowed (fun value => Acts allowed post (next value)) program := by
  refine ⟨fun acts => ?_, fun acts => bind acts fun _ => id⟩
  refine Issues.mono (Issues.bind_iff.mp acts) (fun _ => id) fun result holds => ?_
  cases result with
  | ok value => exact holds
  | error err => trivial

@[simp]
theorem ite_iff {condition : Prop} [Decidable condition] {yes no : ExceptT ε (Prog Op Ans) α} :
    Acts allowed post (if condition then yes else no) ↔
      (condition → Acts allowed post yes) ∧ (¬ condition → Acts allowed post no) := by
  split <;> simp [*]

theorem lift {program : Prog Op Ans α} (issues : Issues allowed post program) :
    Acts allowed post (ExceptT.lift program : ExceptT ε (Prog Op Ans) α) := by
  apply Issues.bind issues
  intro value holds
  exact holds

theorem mono {allowed' : Op → Prop} {post' : α → Prop}
    (acts : Acts allowed post program) (wider : ∀ op, allowed op → allowed' op)
    (weaken : ∀ value, post value → post' value) : Acts allowed' post' program := by
  apply Issues.mono acts wider
  intro result holds
  cases result with
  | ok value => exact weaken value holds
  | error err => trivial

theorem onError {recovery : Prog Op Ans PUnit} (acts : Acts allowed post program)
    (recovers : Issues allowed (fun _ => True) recovery) :
    Acts allowed post (Prog.onError program recovery) := by
  apply Issues.bind acts
  intro result holds
  cases result with
  | ok value => exact holds
  | error err => exact Issues.bind recovers fun _ _ => trivial

@[simp]
theorem forM {ι : Type v} {body : ι → ExceptT ε (Prog Op Ans) PUnit} {items : List ι}
    (each : ∀ item ∈ items, Does allowed (body item)) :
    Does allowed (ForM.forM items body) := by
  induction items with
  | nil => exact Acts.pure trivial
  | cons item items ih =>
    refine Acts.bind (each item List.mem_cons_self) fun _ _ => ?_
    exact ih fun other mem => each other (List.mem_cons_of_mem item mem)

@[simp]
theorem forAll {ι : Type v} {body : ι → ExceptT ε (Prog Op Ans) α} {items : List ι}
    (each : ∀ item ∈ items, Does allowed (body item)) :
    Does allowed (Prog.forAll body items) := by
  induction items with
  | nil => exact Acts.pure trivial
  | cons item items ih =>
    refine Issues.bind (each item List.mem_cons_self) fun first _ => ?_
    refine Issues.bind (ih fun other mem => each other (List.mem_cons_of_mem item mem)) ?_
    intro others _
    cases first with
    | ok value => cases others <;> trivial
    | error err => trivial

theorem returns {invariant : State → Prop} (acts : Acts allowed post program)
    (guarded : ∀ op state, allowed op → invariant state → setting.guard op state)
    (keeps : ∀ op choice state, allowed op → setting.fair op choice state → invariant state →
      invariant (setting.machine.step op choice state).1) :
    Returns setting invariant program (fun value state => invariant state ∧ post value)
      invariant := by
  apply Triple.weaken (Issues.triple acts guarded keeps) (fun _ => id)
  intro result state holds
  cases result with
  | ok value => exact holds
  | error err => exact holds.1

end Acts

/-- Whatever its operations answer, the errors of the program satisfy the condition. -/
def Raises (expected : ε → Prop) (program : ExceptT ε (Prog Op Ans) α) : Prop :=
  Issues (fun _ => True) (fun
    | .ok _ => True
    | .error err => expected err) program.run

namespace Raises

variable {expected : ε → Prop}

theorem pure {value : α} : Raises expected (Pure.pure value : ExceptT ε (Prog Op Ans) α) := trivial

theorem throw {err : ε} (isExpected : expected err) :
    Raises expected (MonadExcept.throw err : ExceptT ε (Prog Op Ans) α) := isExpected

variable {program : ExceptT ε (Prog Op Ans) α}

theorem bind {next : α → ExceptT ε (Prog Op Ans) β}
    (first : Raises expected program) (second : ∀ value, Raises expected (next value)) :
    Raises expected (program >>= next) := by
  apply Issues.bind first
  intro result holds
  cases result with
  | ok value => exact second value
  | error err => exact holds

theorem lift (program : Prog Op Ans α) :
    Raises expected (ExceptT.lift program : ExceptT ε (Prog Op Ans) α) := by
  induction program with
  | done value => trivial
  | call op next ih => exact ⟨trivial, ih⟩

theorem onError {recovery : Prog Op Ans PUnit}
    (raises : Raises expected program) : Raises expected (Prog.onError program recovery) := by
  apply Issues.bind raises
  intro result holds
  cases result with
  | ok value => trivial
  | error err =>
    induction recovery with
    | done value => exact holds
    | call op next ih => exact ⟨trivial, ih⟩

theorem exits_of_acts {post : α → Prop}
    {invariant : State → Prop} (raises : Raises expected program) (acts : Acts allowed post program)
    (guarded : ∀ op state, allowed op → invariant state → setting.guard op state)
    (keeps : ∀ op choice state, allowed op → setting.fair op choice state → invariant state →
      invariant (setting.machine.step op choice state).1) :
    Exits setting invariant program (fun _ => invariant) (fun err _ => expected err) := by
  apply Triple.weaken (Issues.triple (Issues.and raises acts)
    (fun op state both => guarded op state both.2)
    fun op choice state both => keeps op choice state both.2) (fun _ => id)
  intro result state holds
  cases result with
  | ok value => exact holds.1
  | error err => exact holds.2.1

theorem exits (raises : Raises expected program) (free : ∀ op state, setting.guard op state) :
    Exits setting pre program (fun _ _ => True) (fun err _ => expected err) := by
  have triple : Triple setting (fun _ => True) program.run _ :=
    Issues.triple raises (fun op state _ _ => free op state) fun _ _ _ _ _ _ => trivial
  apply Triple.weaken triple (fun _ _ => trivial)
  intro result state holds
  cases result with
  | ok value => trivial
  | error err => exact holds.2

end Raises

end Kiac
