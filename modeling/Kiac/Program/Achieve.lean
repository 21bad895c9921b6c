import Kiac.Program.Parallel

/-!
# Runs that a job can take

The dual of the weakest precondition: the environment and the scheduler can bring a job to return
with a condition. Threads are run one after another. Such statements show that a condition is needed.
-/

namespace Kiac

variable {Op : Type} {Ans : Op → Type} {State Choice ρ α β ε ι : Type}

/-- Some fair choices make the program return with the condition. -/
def Prog.Can (scene : Scene Op Ans State Choice) (post : α → State → Prop) :
    Prog Op Ans α → State → Prop
  | .done value => post value
  | .call op next => fun state => ∃ choice, scene.fair op choice state ∧
      Can scene post (next (scene.machine.step op choice state).2)
        (scene.machine.step op choice state).1

/-- The programs can return one after another. -/
def Prog.CanAll (scene : Scene Op Ans State Choice) :
    List (Prog Op Ans ρ) → (List ρ → State → Prop) → State → Prop
  | [], post => post []
  | program :: programs, post =>
    program.Can scene fun value => CanAll scene programs fun values => post (value :: values)

def Job.Can (scene : Scene Op Ans State Choice) (post : α → State → Prop) :
    Job Op Ans ρ α → State → Prop
  | done value => post value
  | call op next => fun state => ∃ choice, scene.fair op choice state ∧
      Can scene post (next (scene.machine.step op choice state).2)
        (scene.machine.step op choice state).1
  | fork threads next => Prog.CanAll scene threads fun values => Can scene post (next values)

variable {scene : Scene Op Ans State Choice}

variable {state : State}

variable {program : Prog Op Ans α}

theorem Prog.Can.mono {post post' : α → State → Prop} (can : program.Can scene post state)
    (weaker : ∀ value state, post value state → post' value state) :
    program.Can scene post' state := by
  induction program generalizing state with
  | done value => exact weaker value state can
  | call op next ih =>
    rcases can with ⟨choice, isFair, rest⟩
    exact ⟨choice, isFair, ih _ rest⟩

theorem Prog.Can.bind {next : α → Prog Op Ans β} {post : β → State → Prop}
    (can : program.Can scene (fun value => (next value).Can scene post) state) :
    (program >>= next).Can scene post state := by
  induction program generalizing state with
  | done value => exact can
  | call op continue' ih =>
    rcases can with ⟨choice, isFair, rest⟩
    exact ⟨choice, isFair, ih _ rest⟩

theorem Prog.CanAll.mono {programs : List (Prog Op Ans ρ)} {post post' : List ρ → State → Prop}
    (can : Prog.CanAll scene programs post state)
    (weaker : ∀ values state, post values state → post' values state) :
    Prog.CanAll scene programs post' state := by
  induction programs generalizing post post' state with
  | nil => exact weaker [] state can
  | cons program programs ih =>
    exact Prog.Can.mono can fun value _ rest => ih rest fun values => weaker (value :: values)

namespace Job

variable {config : Job Op Ans ρ α × State} {threads : List (Prog Op Ans ρ)}

theorem fairTurns_append {machine : Machine Op Ans State Choice}
    {fair : Op → Choice → State → Prop} {first second : List (ℕ × Choice)}
    (isFair : FairTurns machine fair first config)
    (isFair' : FairTurns machine fair second (run machine config first)) :
    FairTurns machine fair (first ++ second) config := by
  induction first generalizing config with
  | nil => exact isFair'
  | cons who turns ih => exact ⟨isFair.1, ih isFair.2 isFair'⟩

/-- Fair turns lead from one configuration to the other. -/
def Leads (scene : Scene Op Ans State Choice) (config config' : Job Op Ans ρ α × State) : Prop :=
  ∃ turns, FairTurns scene.machine scene.fair turns config ∧
    run scene.machine config turns = config'

theorem Leads.refl (config : Job Op Ans ρ α × State) : Leads scene config config :=
  ⟨[], trivial, rfl⟩

theorem Leads.trans {first second third : Job Op Ans ρ α × State}
    (leads : Leads scene first second) (leads' : Leads scene second third) :
    Leads scene first third := by
  rcases leads with ⟨turns, isFair, rfl⟩
  rcases leads' with ⟨turns', isFair', rfl⟩
  exact ⟨turns ++ turns', fairTurns_append isFair isFair', List.foldl_append⟩

theorem leads_turn (who : ℕ × Choice)
    (isFair : ∀ op, config.1.pending who.1 = some op → scene.fair op who.2 config.2) :
    Leads scene config (turn scene.machine config who) :=
  ⟨[who], ⟨isFair, trivial⟩, rfl⟩

theorem results_append_call {op : Op}
    {next : Ans op → Prog Op Ans ρ} {rest : List (Prog Op Ans ρ)} :
    results (threads ++ .call op next :: rest) = none := by
  induction threads with
  | nil => rfl
  | cons thread threads ih =>
    cases thread with
    | call op next => rfl
    | done value => simp only [List.cons_append, results, ih, Option.map_none]

variable {state : State} {job : Job Op Ans ρ α} {post : α → State → Prop}

theorem leads_thread {program : Prog Op Ans ρ} {post : ρ → State → Prop}
    (can : program.Can scene post state) (before after : List (Prog Op Ans ρ))
    (next : List ρ → Job Op Ans ρ α) :
    ∃ value state', post value state' ∧
      Leads scene (fork (before ++ program :: after) next, state)
        (fork (before ++ .done value :: after) next, state') := by
  induction program generalizing state with
  | done value => exact ⟨value, state, can, .refl _⟩
  | call op continue' ih =>
    rcases can with ⟨choice, isFair, rest⟩
    rcases ih _ rest with ⟨value, state', holds, leads⟩
    refine ⟨value, state', holds, Leads.trans ?_ leads⟩
    have picked : (before ++ Prog.call op continue' :: after)[before.length]? =
        some (.call op continue') := by simp
    have stepped : turn scene.machine (fork (before ++ .call op continue' :: after) next, state)
        (before.length, choice) =
        (fork (before ++ continue' (scene.machine.step op choice state).2 :: after) next,
          (scene.machine.step op choice state).1) := by
      simp only [turn, results_append_call, picked, List.set_append_right _ _ (Nat.le_refl _),
        Nat.sub_self, List.set_cons_zero]
    rw [← stepped]
    refine leads_turn (before.length, choice) ?_
    intro op' isPending
    simp only [pending, picked] at isPending
    obtain rfl := Option.some.inj isPending
    exact isFair

theorem results_map_done (values : List ρ) :
    results (values.map .done : List (Prog Op Ans ρ)) = some values := by
  induction values with
  | nil => rfl
  | cons value values ih => simp only [List.map_cons, results, ih, Option.map_some]

theorem leads_threads (post : List ρ → State → Prop) (values : List ρ)
    (can : Prog.CanAll scene threads (fun more => post (values ++ more)) state)
    (next : List ρ → Job Op Ans ρ α) :
    ∃ results state', post results state' ∧
      Leads scene (fork (values.map .done ++ threads) next, state)
        (fork (results.map .done) next, state') := by
  induction threads generalizing values state with
  | nil =>
    refine ⟨values, state, ?_, ?_⟩
    · change post (values ++ []) state at can
      rwa [List.append_nil] at can
    · rw [List.append_nil]
      exact .refl _
  | cons thread threads ih =>
    rcases leads_thread can (values.map .done) threads next with ⟨value, middle, rest, leads⟩
    have more : Prog.CanAll scene threads (fun more => post ((values ++ [value]) ++ more))
        middle := by
      simpa only [List.append_assoc, List.singleton_append] using rest
    rcases ih (values ++ [value]) more with ⟨results, state', holds, leads'⟩
    rw [List.map_append, List.append_assoc] at leads'
    exact ⟨results, state', holds, leads.trans leads'⟩

theorem exists_run [Nonempty Choice] (can : job.Can scene post state) :
    ∃ value state', post value state' ∧ Leads scene (job, state) (.done value, state') := by
  induction job generalizing state with
  | done value => exact ⟨value, state, can, .refl _⟩
  | call op next ih =>
    rcases can with ⟨choice, isFair, rest⟩
    rcases ih _ rest with ⟨value, state', holds, leads⟩
    refine ⟨value, state', holds, Leads.trans (leads_turn (0, choice) ?_) leads⟩
    intro op' isPending
    obtain rfl := Option.some.inj isPending
    exact isFair
  | fork threads next ih =>
    rcases leads_threads (fun values => Can scene post (next values)) [] can next with
      ⟨values, middle, rest, leads⟩
    rcases ih values rest with ⟨value, state', holds, leads'⟩
    rcases ‹Nonempty Choice› with ⟨choice⟩
    have joined : turn scene.machine (fork (values.map .done) next, middle) (0, choice) =
        (next values, middle) := by
      simp only [turn, results_map_done]
    refine ⟨value, state', holds, leads.trans (Leads.trans ?_ leads')⟩
    rw [← joined]
    refine leads_turn (0, choice) ?_
    intro op isPending
    cases values with
    | nil => cases isPending
    | cons value values => cases isPending

theorem Can.mono {post' : α → State → Prop} (can : job.Can scene post state)
    (weaker : ∀ value state, post value state → post' value state) :
    job.Can scene post' state := by
  induction job generalizing state with
  | done value => exact weaker value state can
  | call op next ih =>
    rcases can with ⟨choice, isFair, rest⟩
    exact ⟨choice, isFair, ih _ rest⟩
  | fork threads next ih => exact Prog.CanAll.mono can fun values _ rest => ih values rest

theorem Can.bind {next : α → Job Op Ans ρ β} {post : β → State → Prop}
    (can : job.Can scene (fun value => (next value).Can scene post) state) :
    (job >>= next).Can scene post state := by
  induction job generalizing state with
  | done value => exact can
  | call op continue' ih =>
    rcases can with ⟨choice, isFair, rest⟩
    exact ⟨choice, isFair, ih _ rest⟩
  | fork threads continue' ih => exact Prog.CanAll.mono can fun values _ rest => ih values rest

theorem can_ofProg {program : Prog Op Ans α} (can : program.Can scene post state) :
    (ofProg program : Job Op Ans ρ α).Can scene post state := by
  induction program generalizing state with
  | done value => exact can
  | call op next ih =>
    rcases can with ⟨choice, isFair, rest⟩
    exact ⟨choice, isFair, ih _ rest⟩

end Job

/-- Some fair choices make a fallible program succeed with the condition. -/
def Achieves (scene : Scene Op Ans State Choice) (pre : State → Prop)
    (program : ExceptT ε (Prog Op Ans) α) (ok : α → State → Prop) : Prop :=
  ∀ state, pre state → program.run.Can scene (fun
    | .ok value => ok value
    | .error _ => fun _ => False) state

namespace Achieves

variable {pre pre' : State → Prop}

variable {ok : α → State → Prop} {program : ExceptT ε (Prog Op Ans) α}

theorem pure {value : α} (holds : ∀ state, pre state → ok value state) :
    Achieves scene pre (Pure.pure value : ExceptT ε (Prog Op Ans) α) ok := holds

theorem bind {next : α → ExceptT ε (Prog Op Ans) β}
    {middle : α → State → Prop} {ok : β → State → Prop} (first : Achieves scene pre program middle)
    (second : ∀ value, Achieves scene (middle value) (next value) ok) :
    Achieves scene pre (program >>= next) ok := by
  intro state holds
  refine Prog.Can.bind (Prog.Can.mono (first state holds) ?_)
  intro result later after
  cases result with
  | ok value => exact second value later after
  | error err => exact after.elim

theorem weaken {ok' : α → State → Prop}
    (achieves : Achieves scene pre program ok) (before : ∀ state, pre' state → pre state)
    (after : ∀ value state, ok value state → ok' value state) :
    Achieves scene pre' program ok' := by
  intro state holds
  refine Prog.Can.mono (achieves state (before state holds)) ?_
  intro result later holds
  cases result with
  | ok value => exact after value later holds
  | error err => exact holds

theorem ask {op : Op} {ok : Ans op → State → Prop}
    (step : ∀ state, pre state → ∃ choice, scene.fair op choice state ∧
      ok (scene.machine.step op choice state).2 (scene.machine.step op choice state).1) :
    Achieves scene pre (Step.ask op : ExceptT ε (Prog Op Ans) (Ans op)) ok := by
  intro state holds
  rcases step state holds with ⟨choice, isFair, after⟩
  exact ⟨choice, isFair, after⟩

theorem must {action : ExceptT ε (Prog Op Ans) Bool} {err : ε} {ok : State → Prop}
    (achieves : Achieves scene pre action fun holds state => holds ∧ ok state) :
    Achieves scene pre (Step.must action err) fun _ => ok := by
  refine bind achieves fun holds state after => ?_
  rw [after.1]
  exact after.2

end Achieves

/-- Some fair run makes a fallible job succeed with the condition. -/
def Succeeds (scene : Scene Op Ans State Choice) (pre : State → Prop)
    (job : ExceptT ε (Job Op Ans (Except ε Unit)) α) (ok : α → State → Prop) : Prop :=
  ∀ state, pre state → job.run.Can scene (fun
    | .ok value => ok value
    | .error _ => fun _ => False) state

namespace Succeeds

variable {pre : State → Prop}

variable {job : ExceptT ε (Job Op Ans (Except ε Unit)) α} {ok : α → State → Prop}

theorem bind {next : α → ExceptT ε (Job Op Ans (Except ε Unit)) β}
    {middle : α → State → Prop} {ok : β → State → Prop} (first : Succeeds scene pre job middle)
    (second : ∀ value, Succeeds scene (middle value) (next value) ok) :
    Succeeds scene pre (job >>= next) ok := by
  intro state holds
  refine Job.Can.bind (Job.Can.mono (first state holds) ?_)
  intro result later after
  cases result with
  | ok value => exact second value later after
  | error err => exact after.elim

theorem weaken {ok' : α → State → Prop} (succeeds : Succeeds scene pre job ok)
    (after : ∀ value state, ok value state → ok' value state) : Succeeds scene pre job ok' := by
  intro state holds
  refine Job.Can.mono (succeeds state holds) ?_
  intro result later holds
  cases result with
  | ok value => exact after value later holds
  | error err => exact holds

theorem seq {program : ExceptT ε (Prog Op Ans) α}
    (achieves : Achieves scene pre program ok) : Succeeds scene pre (Job.seq program) ok :=
  fun state holds => Job.can_ofProg (achieves state holds)

theorem inParallel {body : ι → ExceptT ε (Prog Op Ans) Unit} {items : List ι}
    (each : ∀ item ∈ items, Achieves scene pre (body item) fun _ => pre) :
    Succeeds scene pre (Job.inParallel body items) fun _ => pre := by
  intro state holds
  have all : Prog.CanAll scene (items.map fun item => (body item).run)
      (fun results state => Job.firstError results = .ok () ∧ pre state) state := by
    induction items generalizing state with
    | nil => exact ⟨rfl, holds⟩
    | cons item items ih =>
      refine Prog.Can.mono (each item List.mem_cons_self state holds) ?_
      intro result later after
      cases result with
      | error err => exact after.elim
      | ok _ => exact ih (fun other mem => each other (List.mem_cons_of_mem item mem)) later after
  refine Prog.CanAll.mono all fun results later after => ?_
  change Job.Can scene _ (.done (Job.firstError results)) later
  rw [after.1]
  exact after.2

theorem exists_run [Nonempty Choice] (succeeds : Succeeds scene pre job ok) {state : State}
    (holds : pre state) :
    ∃ value state', ok value state' ∧ Job.Leads scene (job.run, state) (.done (.ok value), state') := by
  rcases Job.exists_run (succeeds state holds) with ⟨result, state', after, leads⟩
  cases result with
  | error err => exact after.elim
  | ok value => exact ⟨value, state', after, leads⟩

end Succeeds

end Kiac
