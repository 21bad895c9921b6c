import Kiac.Program.Step
import Mathlib.Data.List.Nodup

/-!
# Jobs

A job is a program that may run other programs concurrently and wait for all of them. A thread is
verified on its own: it relies on what the other threads may do to the state between two of its
operations, and it guarantees what its own operations do.
-/

namespace Kiac

variable {Op : Type} {Ans : Op → Type} {State Choice ρ α β ε ι : Type}

/-- A program that may wait for threads, which return values of type `ρ`. -/
inductive Job (Op : Type) (Ans : Op → Type) (ρ α : Type) where
  | done (value : α)
  | call (op : Op) (next : Ans op → Job Op Ans ρ α)
  | fork (threads : List (Prog Op Ans ρ)) (next : List ρ → Job Op Ans ρ α)

namespace Job

def bind : Job Op Ans ρ α → (α → Job Op Ans ρ β) → Job Op Ans ρ β
  | done value, next => next value
  | call op continue', next => call op fun answer => bind (continue' answer) next
  | fork threads continue', next => fork threads fun results => bind (continue' results) next

instance : Monad (Job Op Ans ρ) where
  pure := done
  bind := bind

/-- A program without threads. -/
def ofProg : Prog Op Ans α → Job Op Ans ρ α
  | .done value => done value
  | .call op next => call op fun answer => ofProg (next answer)

/-- What the threads have returned, if all of them have. -/
def results : List (Prog Op Ans ρ) → Option (List ρ)
  | [] => some []
  | .done value :: threads => (results threads).map (value :: ·)
  | .call _ _ :: _ => none

/-- One operation, issued by the thread that the scheduler picks. -/
def turn (machine : Machine Op Ans State Choice) (config : Job Op Ans ρ α × State)
    (who : ℕ × Choice) : Job Op Ans ρ α × State :=
  match config.1 with
  | done _ => config
  | call op next =>
    let stepped := machine.step op who.2 config.2
    (next stepped.2, stepped.1)
  | fork threads next =>
    match results threads with
    | some values => (next values, config.2)
    | none =>
      match threads[who.1]? with
      | some (.call op continue') =>
        let stepped := machine.step op who.2 config.2
        (fork (threads.set who.1 (continue' stepped.2)) next, stepped.1)
      | _ => config

def run (machine : Machine Op Ans State Choice) (config : Job Op Ans ρ α × State)
    (turns : List (ℕ × Choice)) : Job Op Ans ρ α × State :=
  turns.foldl (turn machine) config

/-- The operation that a turn issues. -/
def pending (job : Job Op Ans ρ α) (who : ℕ) : Option Op :=
  match job with
  | done _ => none
  | call op _ => some op
  | fork threads _ =>
    match threads[who]? with
    | some (.call op _) => some op
    | _ => none

/-- The choices are fair for the operations that they are made for. -/
def FairTurns (machine : Machine Op Ans State Choice) (fair : Op → Choice → State → Prop) :
    List (ℕ × Choice) → Job Op Ans ρ α × State → Prop
  | [], _ => True
  | who :: turns, config =>
    (∀ op, config.1.pending who.1 = some op → fair op who.2 config.2) ∧
      FairTurns machine fair turns (turn machine config who)

theorem fairTurns_of_mem {machine : Machine Op Ans State Choice}
    {fair : Op → Choice → State → Prop} {turns : List (ℕ × Choice)}
    {config : Job Op Ans ρ α × State} (all : ∀ who ∈ turns, ∀ op state, fair op who.2 state) :
    FairTurns machine fair turns config := by
  induction turns generalizing config with
  | nil => trivial
  | cons who turns ih =>
    refine ⟨fun op _ => all who List.mem_cons_self op config.2, ih fun other mem => ?_⟩
    exact all other (List.mem_cons_of_mem who mem)

end Job

/-- What the threads of a development have in common. -/
structure Scene (Op : Type) (Ans : Op → Type) (State Choice : Type) where
  machine : Machine Op Ans State Choice
  fair : Op → Choice → State → Prop
  inv : State → Prop

/-- A condition on two states that holds of no change and of successive changes. -/
structure Preserved (change : State → State → Prop) : Prop where
  refl : ∀ state, change state state
  trans : ∀ {first second third}, change first second → change second third → change first third

theorem preserved_eq : Preserved (Eq : State → State → Prop) := ⟨fun _ => rfl, Eq.trans⟩

/-- What holds stays true when the state changes. -/
def StableUnder (change : State → State → Prop) (holds : State → Prop) : Prop :=
  ∀ state after, change state after → holds state → holds after

theorem stableUnder_eq {holds : State → Prop} : StableUnder Eq holds := by
  rintro state _ rfl isTrue
  exact isTrue

/-- A thread keeps the invariant and its guarantee, and the condition holds when it returns, if the
others keep to what it relies on. -/
def Prog.Under (scene : Scene Op Ans State Choice) (rely guar : State → State → Prop)
    (post : α → State → Prop) : Prog Op Ans α → State → Prop
  | .done value => fun state => ∀ after, rely state after → post value after
  | .call op next => fun state => ∀ before, rely state before → scene.inv before →
      ∀ choice, scene.fair op choice before →
        guar before (scene.machine.step op choice before).1 ∧
        scene.inv (scene.machine.step op choice before).1 ∧
        Under scene rely guar post (next (scene.machine.step op choice before).2)
          (scene.machine.step op choice before).1

variable {scene : Scene Op Ans State Choice} {rely guar : State → State → Prop}

namespace Prog.Under

variable {program : Prog Op Ans α} {state : State}

variable {post : α → State → Prop}

theorem after {later : State}
    (preserved : Preserved rely) (under : program.Under scene rely guar post state)
    (change : rely state later) : program.Under scene rely guar post later := by
  cases program with
  | done value => exact fun final more => under final (preserved.trans change more)
  | call op next => exact fun before more => under before (preserved.trans change more)

theorem mono {post' : α → State → Prop} (under : program.Under scene rely guar post state)
    (weaker : ∀ value state, post value state → post' value state) :
    program.Under scene rely guar post' state := by
  induction program generalizing state with
  | done value => exact fun after change => weaker value after (under after change)
  | call op next ih =>
    intro before change isInv choice isFair
    rcases under before change isInv choice isFair with ⟨isGuar, kept, rest⟩
    exact ⟨isGuar, kept, ih _ rest⟩

theorem bind {next : α → Prog Op Ans β} {post : β → State → Prop} (preserved : Preserved rely)
    (under : program.Under scene rely guar
      (fun value => (next value).Under scene rely guar post) state) :
    (program >>= next).Under scene rely guar post state := by
  induction program generalizing state with
  | done value => exact under state (preserved.refl state)
  | call op continue' ih =>
    intro before change isInv choice isFair
    rcases under before change isInv choice isFair with ⟨isGuar, kept, rest⟩
    exact ⟨isGuar, kept, ih _ rest⟩

end Prog.Under

namespace Job

/-- The weakest precondition of a job. -/
def wp (scene : Scene Op Ans State Choice) (post : α → State → Prop) :
    Job Op Ans ρ α → State → Prop
  | done value => post value
  | call op next => fun state => scene.inv state → ∀ choice, scene.fair op choice state →
      scene.inv (scene.machine.step op choice state).1 ∧
        wp scene post (next (scene.machine.step op choice state).2)
          (scene.machine.step op choice state).1
  | fork threads next => fun state =>
    ∃ (rely guar : ℕ → State → State → Prop) (posts : ℕ → ρ → State → Prop),
      (∀ i, Preserved (rely i)) ∧
      (∀ i j before after, i ≠ j → i < threads.length → j < threads.length →
        guar i before after → rely j before after) ∧
      (∀ i (thread : Prog Op Ans ρ), threads[i]? = some thread →
        thread.Under scene (rely i) (guar i) (posts i) state) ∧
      ∀ values after, values.length = threads.length →
        (∀ i value, values[i]? = some value → posts i value after) →
        wp scene post (next values) after

variable {job : Job Op Ans ρ α} {post : α → State → Prop} {state : State}

theorem wp_mono {post' : α → State → Prop}
    (holds : job.wp scene post state) (weaker : ∀ value state, post value state → post' value state) :
    job.wp scene post' state := by
  induction job generalizing state with
  | done value => exact weaker value state holds
  | call op next ih =>
    intro isInv choice isFair
    rcases holds isInv choice isFair with ⟨kept, rest⟩
    exact ⟨kept, ih _ rest⟩
  | fork threads next ih =>
    rcases holds with ⟨rely, guar, posts, preserved, compatible, each, joined⟩
    refine ⟨rely, guar, posts, preserved, compatible, each, ?_⟩
    intro values after length returned
    exact ih values (joined values after length returned)

theorem wp_bind {next : α → Job Op Ans ρ β} {post : β → State → Prop}
    (holds : job.wp scene (fun value => (next value).wp scene post) state) :
    (job >>= next).wp scene post state := by
  induction job generalizing state with
  | done value => exact holds
  | call op continue' ih =>
    intro isInv choice isFair
    rcases holds isInv choice isFair with ⟨kept, rest⟩
    exact ⟨kept, ih _ rest⟩
  | fork threads continue' ih =>
    rcases holds with ⟨rely, guar, posts, preserved, compatible, each, joined⟩
    refine ⟨rely, guar, posts, preserved, compatible, each, ?_⟩
    intro values after length returned
    exact ih values (joined values after length returned)

theorem results_eq_some {threads : List (Prog Op Ans ρ)} {values : List ρ}
    (finished : results threads = some values) : threads = values.map .done := by
  induction threads generalizing values with
  | nil =>
    obtain rfl : [] = values := Option.some.inj finished
    rfl
  | cons thread threads ih =>
    cases thread with
    | call op next => cases finished
    | done value =>
      rcases Option.map_eq_some_iff.mp finished with ⟨rest, isRest, rfl⟩
      rw [ih isRest, List.map_cons]

theorem wp_turn {who : ℕ × Choice} (holds : job.wp scene post state) (isInv : scene.inv state)
    (isFair : ∀ op, job.pending who.1 = some op → scene.fair op who.2 state) :
    scene.inv (turn scene.machine (job, state) who).2 ∧
      (turn scene.machine (job, state) who).1.wp scene post
        (turn scene.machine (job, state) who).2 := by
  cases job with
  | done value => exact ⟨isInv, holds⟩
  | call op next => exact holds isInv who.2 (isFair op rfl)
  | fork threads next =>
    rcases holds with ⟨rely, guar, posts, preserved, compatible, each, joined⟩
    cases finished : results threads with
    | some values =>
      simp only [turn, finished]
      refine ⟨isInv, joined values state ?_ ?_⟩
      · rw [results_eq_some finished, List.length_map]
      · intro i value isValue
        have isThread : threads[i]? = some (.done value) := by
          rw [results_eq_some finished, List.getElem?_map, isValue]
          rfl
        exact each i _ isThread state ((preserved i).refl state)
    | none =>
      cases picked : threads[who.1]? with
      | none =>
        simp only [turn, finished, picked]
        exact ⟨isInv, rely, guar, posts, preserved, compatible, each, joined⟩
      | some thread =>
        cases thread with
        | done value =>
          simp only [turn, finished, picked]
          exact ⟨isInv, rely, guar, posts, preserved, compatible, each, joined⟩
        | call op continue' =>
          have allowed := isFair op (by simp only [pending, picked])
          rcases each who.1 _ picked state ((preserved who.1).refl state) isInv who.2
            allowed with ⟨isGuar, kept, rest⟩
          simp only [turn, finished, picked]
          have bound := (List.getElem?_eq_some_iff.mp picked).1
          refine ⟨kept, rely, guar, posts, preserved, ?_, ?_, ?_⟩
          · intro i j before after
            rw [List.length_set]
            exact compatible i j before after
          · intro i thread isThread
            by_cases same : who.1 = i
            · subst same
              rw [List.getElem?_set_self bound] at isThread
              obtain rfl := Option.some.inj isThread
              exact rest
            · rw [List.getElem?_set_ne same] at isThread
              have isIndex := (List.getElem?_eq_some_iff.mp isThread).1
              exact Prog.Under.after (preserved i) (each i thread isThread)
                (compatible who.1 i _ _ same bound isIndex isGuar)
          · intro values after length
            rw [List.length_set] at length
            exact joined values after length

theorem run_of_invariant {machine : Machine Op Ans State Choice} {holds : State → Prop}
    (keeps : ∀ op choice state, holds state → holds (machine.step op choice state).1)
    (config : Job Op Ans ρ α × State) (turns : List (ℕ × Choice)) (initially : holds config.2) :
    holds (run machine config turns).2 := by
  induction turns generalizing config with
  | nil => exact initially
  | cons who turns ih =>
    apply ih
    unfold turn
    split
    · exact initially
    · exact keeps _ _ _ initially
    · split
      · exact initially
      · split
        · exact keeps _ _ _ initially
        · exact initially

theorem wp_run
    {turns : List (ℕ × Choice)} (holds : job.wp scene post state) (isInv : scene.inv state)
    (isFair : FairTurns scene.machine scene.fair turns (job, state)) :
    scene.inv (run scene.machine (job, state) turns).2 ∧
      (run scene.machine (job, state) turns).1.wp scene post
        (run scene.machine (job, state) turns).2 := by
  induction turns generalizing job state with
  | nil => exact ⟨isInv, holds⟩
  | cons who turns ih =>
    rcases wp_turn holds isInv isFair.1 with ⟨kept, rest⟩
    exact ih rest kept isFair.2

theorem wp_ofProg {program : Prog Op Ans α} (under : program.Under scene Eq guar post state) :
    (ofProg program : Job Op Ans ρ α).wp scene post state := by
  induction program generalizing state with
  | done value => exact under state rfl
  | call op next ih =>
    intro isInv choice isFair
    rcases under state rfl isInv choice isFair with ⟨_, kept, rest⟩
    exact ⟨kept, ih _ rest⟩

/-- The error of the first thread that has failed. -/
def firstError : List (Except ε Unit) → Except ε Unit
  | [] => .ok ()
  | .ok _ :: results => firstError results
  | .error err :: _ => .error err

theorem eq_ok_of_firstError {results : List (Except ε Unit)} (ok : firstError results = .ok ()) :
    ∀ result ∈ results, result = .ok () := by
  induction results with
  | nil => simp
  | cons result results ih =>
    cases result with
    | error err => cases ok
    | ok _ => exact List.forall_mem_cons.mpr ⟨rfl, ih ok⟩

/-- A fallible program without threads. -/
def seq (program : ExceptT ε (Prog Op Ans) α) : ExceptT ε (Job Op Ans (Except ε Unit)) α :=
  ExceptT.mk (ofProg program.run)

/-- The body is run for all items at the same time. -/
def inParallel (body : ι → ExceptT ε (Prog Op Ans) Unit) (items : List ι) :
    ExceptT ε (Job Op Ans (Except ε Unit)) Unit :=
  ExceptT.mk (fork (items.map fun item => (body item).run) fun results =>
    done (firstError results))

end Job

/-- A condition that holds when a fallible thread succeeds. -/
def Attempts (scene : Scene Op Ans State Choice) (rely guar : State → State → Prop)
    (pre : State → Prop) (program : ExceptT ε (Prog Op Ans) α) (ok : α → State → Prop) : Prop :=
  ∀ state, pre state → Prog.Under scene rely guar (fun
    | .ok value => ok value
    | .error _ => fun _ => True) program.run state

namespace Attempts

variable {pre pre' : State → Prop}

variable {ok : α → State → Prop} {program : ExceptT ε (Prog Op Ans) α}

theorem pure {value : α} (stable : StableUnder rely pre)
    (holds : ∀ state, pre state → ok value state) :
    Attempts scene rely guar pre (Pure.pure value : ExceptT ε (Prog Op Ans) α) ok :=
  fun state before after change => holds after (stable state after change before)

theorem throw {err : ε} :
    Attempts scene rely guar pre (MonadExcept.throw err : ExceptT ε (Prog Op Ans) α) ok :=
  fun _ _ _ _ => trivial

theorem bind {next : α → ExceptT ε (Prog Op Ans) β}
    {middle : α → State → Prop} {ok : β → State → Prop} (preserved : Preserved rely)
    (first : Attempts scene rely guar pre program middle)
    (second : ∀ value, Attempts scene rely guar (middle value) (next value) ok) :
    Attempts scene rely guar pre (program >>= next) ok := by
  intro state holds
  refine Prog.Under.bind preserved (Prog.Under.mono (first state holds) ?_)
  intro result later after
  cases result with
  | ok value => exact second value later after
  | error err => exact fun _ _ => trivial

theorem weaken {ok' : α → State → Prop} (attempts : Attempts scene rely guar pre program ok)
    (before : ∀ state, pre' state → pre state)
    (after : ∀ value state, ok value state → ok' value state) :
    Attempts scene rely guar pre' program ok' := by
  intro state holds
  refine Prog.Under.mono (attempts state (before state holds)) ?_
  intro result later holds
  cases result with
  | ok value => exact after value later holds
  | error err => trivial

theorem assume {fact : Prop} (attempts : fact → Attempts scene rely guar pre program ok) :
    Attempts scene rely guar (fun state => pre state ∧ fact) program ok :=
  fun state holds => attempts holds.2 state holds.1

theorem ask {op : Op} {ok : Ans op → State → Prop} (stable : StableUnder rely pre)
    (stableAfter : ∀ answer, StableUnder rely (ok answer))
    (step : ∀ state choice, pre state → scene.inv state → scene.fair op choice state →
      guar state (scene.machine.step op choice state).1 ∧
      scene.inv (scene.machine.step op choice state).1 ∧
      ok (scene.machine.step op choice state).2 (scene.machine.step op choice state).1) :
    Attempts scene rely guar pre (Step.ask op : ExceptT ε (Prog Op Ans) (Ans op)) ok := by
  intro state holds before change isInv choice isFair
  rcases step before choice (stable _ _ change holds) isInv isFair with ⟨isGuar, kept, after⟩
  exact ⟨isGuar, kept, fun final more => stableAfter _ _ final more after⟩

theorem must {ask : ExceptT ε (Prog Op Ans) Bool} {err : ε} {ok : State → Prop}
    (preserved : Preserved rely) (stable : StableUnder rely ok)
    (reports : Attempts scene rely guar pre ask fun reported state => reported → ok state) :
    Attempts scene rely guar pre (Step.must ask err) fun _ => ok := by
  refine bind preserved reports fun reported => ?_
  cases reported with
  | true =>
    intro state holds after change
    exact stable _ _ change (holds rfl)
  | false => exact throw

theorem quiet {allowed : Op → Prop} {post : α → Prop}
    (acts : Acts allowed post program) (stable : StableUnder rely pre)
    (step : ∀ op state choice, allowed op → pre state → scene.inv state →
      scene.fair op choice state →
      guar state (scene.machine.step op choice state).1 ∧
      scene.inv (scene.machine.step op choice state).1 ∧
      pre (scene.machine.step op choice state).1) :
    Attempts scene rely guar pre program fun value state => pre state ∧ post value := by
  unfold Attempts
  unfold Acts at acts
  generalize program.run = tree at acts
  induction tree with
  | done result =>
    intro state holds after change
    cases result with
    | ok value => exact ⟨stable _ _ change holds, acts⟩
    | error err => trivial
  | call op next ih =>
    intro state holds before change isInv choice isFair
    rcases step op before choice acts.1 (stable _ _ change holds) isInv isFair with
      ⟨isGuar, kept, after⟩
    exact ⟨isGuar, kept, ih _ (acts.2 _) _ after⟩

end Attempts

/-- A condition that holds when a fallible job succeeds. -/
def Completes (scene : Scene Op Ans State Choice) (pre : State → Prop)
    (job : ExceptT ε (Job Op Ans (Except ε Unit)) α) (ok : α → State → Prop) : Prop :=
  ∀ state, pre state → Job.wp scene (fun
    | .ok value => ok value
    | .error _ => fun _ => True) job.run state

namespace Completes

variable {pre pre' : State → Prop}

variable {ok : α → State → Prop} {body : ι → ExceptT ε (Prog Op Ans) Unit} {items : List ι}

theorem pure {value : α} (holds : ∀ state, pre state → ok value state) :
    Completes scene pre (Pure.pure value : ExceptT ε (Job Op Ans (Except ε Unit)) α) ok := holds

variable {job : ExceptT ε (Job Op Ans (Except ε Unit)) α}

theorem bind {next : α → ExceptT ε (Job Op Ans (Except ε Unit)) β}
    {middle : α → State → Prop} {ok : β → State → Prop} (first : Completes scene pre job middle)
    (second : ∀ value, Completes scene (middle value) (next value) ok) :
    Completes scene pre (job >>= next) ok := by
  intro state holds
  refine Job.wp_bind (Job.wp_mono (first state holds) ?_)
  intro result later after
  cases result with
  | ok value => exact second value later after
  | error err => trivial

theorem weaken {ok' : α → State → Prop}
    (completes : Completes scene pre job ok) (before : ∀ state, pre' state → pre state)
    (after : ∀ value state, ok value state → ok' value state) : Completes scene pre' job ok' := by
  intro state holds
  refine Job.wp_mono (completes state (before state holds)) ?_
  intro result later holds
  cases result with
  | ok value => exact after value later holds
  | error err => trivial

theorem seq {program : ExceptT ε (Prog Op Ans) α}
    (attempts : Attempts scene Eq guar pre program ok) :
    Completes scene pre (Job.seq program) ok :=
  fun state holds => Job.wp_ofProg (attempts state holds)

theorem inParallel
    {rely guar : ι → State → State → Prop} {posts : ι → State → Prop} (nodup : items.Nodup)
    (preserved : ∀ item, Preserved (rely item))
    (compatible : ∀ item other before after, item ≠ other → guar item before after →
      rely other before after)
    (each : ∀ item ∈ items,
      Attempts scene (rely item) (guar item) pre (body item) fun _ => posts item) :
    Completes scene pre (Job.inParallel body items)
      fun _ state => ∀ item ∈ items, posts item state := by
  intro state holds
  refine ⟨fun i => (items[i]?).elim Eq rely, fun i => (items[i]?).elim Eq guar,
    fun i result later => ∀ item, items[i]? = some item → result = .ok () → posts item later,
    ?_, ?_, ?_, ?_⟩
  · intro i
    change Preserved ((items[i]?).elim Eq rely)
    cases items[i]? with
    | none => exact preserved_eq
    | some item => exact preserved item
  · intro i j before after differ isIndex isIndex' isGuar
    rw [List.length_map] at isIndex isIndex'
    rw [List.getElem?_eq_getElem isIndex] at isGuar
    rw [List.getElem?_eq_getElem isIndex']
    refine compatible items[i] items[j] before after ?_ isGuar
    exact fun same => differ ((List.Nodup.getElem_inj_iff nodup).mp same)
  · intro i thread isThread
    rw [List.getElem?_map] at isThread
    rcases Option.map_eq_some_iff.mp isThread with ⟨item, found, rfl⟩
    simp only [found, Option.elim_some]
    refine Prog.Under.mono (each item (List.mem_of_getElem? found) state holds) ?_
    rintro result later after other same rfl
    obtain rfl := Option.some.inj same
    exact after
  · intro values after length returned
    rw [List.length_map] at length
    cases isOk : Job.firstError values with
    | error err =>
      change Job.wp scene _ (.done (Job.firstError values)) after
      rw [isOk]
      trivial
    | ok _ =>
      change Job.wp scene _ (.done (Job.firstError values)) after
      rw [isOk]
      intro item mem
      rcases List.getElem?_of_mem mem with ⟨i, found⟩
      have isIndex : i < values.length := by
        rw [length]
        exact (List.getElem?_eq_some_iff.mp found).1
      have isValue := List.getElem?_eq_getElem isIndex
      exact returned i _ isValue item found
        (Job.eq_ok_of_firstError isOk _ (List.getElem_mem isIndex))

theorem watched [DecidableEq ι] {own : ι}
    {quiet : State → State → Prop} {ok : State → Prop} {allowed : Op → Prop}
    (nodup : items.Nodup) (preserved : Preserved quiet)
    (thread : own ∈ items → Attempts scene quiet (fun _ _ => True) pre (body own) fun _ => ok)
    (others : ∀ item, item ≠ own → Does allowed (body item))
    (step : ∀ op state choice, allowed op → scene.inv state → scene.fair op choice state →
      quiet state (scene.machine.step op choice state).1 ∧
        scene.inv (scene.machine.step op choice state).1) :
    Completes scene pre (Job.inParallel body items) fun _ state => own ∈ items → ok state := by
  let relies := fun item => if item = own then quiet else fun _ _ => True
  let guarantees := fun item => if item = own then fun _ _ => True else quiet
  have reliable : ∀ item, Preserved (relies item) := by
    intro item
    simp only [relies]
    split
    · exact preserved
    · exact ⟨fun _ => trivial, fun _ _ => trivial⟩
  have compatible : ∀ item other before after, item ≠ other →
      guarantees item before after → relies other before after := by
    intro item other before after differ guaranteed
    simp only [relies]
    split
    · rename_i isOwn
      have notOwn : item ≠ own := fun same => differ (same.trans isOwn.symm)
      simp only [guarantees, if_neg notOwn] at guaranteed
      exact guaranteed
    · trivial
  have each : ∀ item ∈ items, Attempts scene (relies item) (guarantees item) pre (body item)
      fun _ state => item = own → ok state := by
    intro item mem
    by_cases same : item = own
    · subst same
      simp only [relies, guarantees, if_pos]
      exact Attempts.weaken (thread mem) (fun _ => id) fun _ _ holds _ => holds
    · simp only [relies, guarantees, if_neg same]
      have kept : Attempts scene (fun _ _ => True) quiet (fun _ => True) (body item)
          fun _ _ => True ∧ True :=
        Attempts.quiet (others item same) (fun _ _ _ _ => trivial)
          fun op state choice isAllowed _ isInv isFair =>
            ⟨(step op state choice isAllowed isInv isFair).1,
              (step op state choice isAllowed isInv isFair).2, trivial⟩
      exact Attempts.weaken kept (fun _ _ => trivial) fun _ _ _ isOwn => absurd isOwn same
  exact weaken (inParallel nodup reliable compatible each) (fun _ => id)
    fun _ _ holds mem => holds own mem rfl

theorem uniform {change : State → State → Prop} {allowed : Op → Prop} (nodup : items.Nodup)
    (preserved : Preserved change) (stable : StableUnder change pre)
    (each : ∀ item ∈ items, Does allowed (body item))
    (step : ∀ op state choice, allowed op → scene.inv state → scene.fair op choice state →
      change state (scene.machine.step op choice state).1 ∧
        scene.inv (scene.machine.step op choice state).1) :
    Completes scene pre (Job.inParallel body items) fun _ state => items ≠ [] → pre state := by
  have kept : ∀ item ∈ items,
      Attempts scene change change pre (body item) fun _ state => pre state := by
    intro item mem
    refine Attempts.weaken (Attempts.quiet (each item mem) stable ?_) (fun _ => id)
      fun _ _ holds => holds.1
    intro op state choice isAllowed holds isInv isFair
    rcases step op state choice isAllowed isInv isFair with ⟨changed, isInv'⟩
    exact ⟨changed, isInv', stable _ _ changed holds⟩
  refine weaken (inParallel nodup (fun _ => preserved) (fun _ _ _ _ _ => id) kept)
    (fun _ => id) fun _ state holds nonempty => ?_
  rcases List.exists_mem_of_ne_nil items nonempty with ⟨item, mem⟩
  exact holds item mem

end Completes

end Kiac
