import Kiac.Krunkit.Inventory

/-!
# The hypervisors

The process number in the `state.json` of a VM is all that keeps two hypervisors from writing to one
disk: it has to stay there for as long as the process lives. A VM is tracked if it has no hypervisor,
or one that its `state.json` identifies.
-/

namespace Kiac.Krunkit

def Hypervisors (n : Str) (known : ℕ → Proc → Prop) (world : World) : Prop :=
  ∀ pid proc, world.procs pid = some proc → proc.node = some n → known pid proc

def Idle (n : Str) (world : World) : Prop := Hypervisors n (fun _ _ => False) world

def Identifies (client : Client) (state : NodeState) (pid : ℕ) (proc : Proc) : Prop :=
  pid ≠ 0 ∧ state.pid = pid ∧ state.processStart = proc.start ∧
    state.processCommandHash = client.processCommandHash proc.command

/-- Whatever is alive for the VM is identified by its `state.json`. -/
def Tracked (client : Client) (n : Str) (world : World) : Prop :=
  Idle n world ∨ ∃ state, world.slot n = .stored (some (.node state)) ∧
    Hypervisors n (Identifies client state) world

def Single (n : Str) (world : World) : Prop :=
  ∃ pid, Hypervisors n (fun other _ => other = pid) world

def KeepsRecord (before after : World) : Prop :=
  ∀ n state proc, before.slot n = .stored (some (.node state)) →
    before.procs state.pid = some proc → proc.node = some n →
    after.procs state.pid = some proc →
    ∃ state', after.slot n = .stored (some (.node state')) ∧ state'.pid = state.pid

/-- The probes of a hypervisor that is alive work, and a process that is terminated ends. -/
def Honest (op : Op) (choice : Choice) (world : World) : Prop :=
  match op with
  | .kill0 pid | .startTime pid | .command pid =>
    ∀ proc, (world.evolve choice).procs pid = some proc → proc.node ≠ none →
      choice.works = true
  | .terminate _ => choice.works = true
  | _ => True

variable {n : Str} {known : ℕ → Proc → Prop} {world : World} {choice : Choice} {op : Op}

theorem Hypervisors.mono {known' : ℕ → Proc → Prop}
    (holds : Hypervisors n known world) (weaken : ∀ pid proc, known pid proc → known' pid proc) :
    Hypervisors n known' world :=
  fun pid proc alive isNode => weaken pid proc (holds pid proc alive isNode)

theorem Idle.hypervisors (idle : Idle n world) :
    Hypervisors n known world := idle.mono fun _ _ => False.elim

variable {client : Client} {m : Str}

theorem Tracked.single (tracked : Tracked client n world) : Single n world := by
  rcases tracked with idle | ⟨state, _, identified⟩
  · exact ⟨0, idle.hypervisors⟩
  · exact ⟨state.pid, identified.mono fun _ _ known => known.2.1.symm⟩

theorem Hypervisors.evolve
    (holds : Hypervisors n known world) : Hypervisors n known (world.evolve choice) := by
  intro pid proc alive isNode
  simp only [World.evolve] at alive
  split at alive
  · rename_i before
    split at alive
    · cases alive
    · obtain rfl := Option.some.inj alive
      exact holds pid _ before isNode
  · rcases Option.map_eq_some_iff.mp alive with ⟨spawned, _, rfl⟩
    cases isNode

theorem effect_procs
    (noLaunch : ∀ name args, op ≠ .launch name args) (noTerminate : ∀ pid, op ≠ .terminate pid) :
    (effect choice world op).1.procs = world.procs := by
  have setFiles : ∀ (loc : Loc) (files : Files),
      (world.setFiles loc files).procs = world.procs := by
    intro loc files
    cases loc <;> rfl
  cases op with
  | launch name args => exact absurd rfl (noLaunch name args)
  | terminate pid => exact absurd rfl (noTerminate pid)
  | mkdirAll loc =>
    cases loc with
    | networks => rfl
    | node name =>
      simp only [effect]
      (repeat' split) <;> simp [setFiles]
  | createTemp loc | writeFile loc _ _ | rename loc _ _ _ | unlink loc _ | entries loc =>
    simp only [effect]
    (repeat' split) <;> simp [setFiles]
  | rmdir name =>
    simp only [effect]
    (repeat' split) <;> rfl
  | _ => rfl

theorem Hypervisors.step
    (holds : Hypervisors n known world) (noLaunch : ∀ args, op ≠ .launch n args) :
    Hypervisors n known (step op choice world).1 := by
  have evolved : Hypervisors n known (world.evolve choice) := holds.evolve
  intro pid proc alive isNode
  cases op with
  | launch name args =>
    have other : name ≠ n := fun same => noLaunch args (same ▸ rfl)
    simp only [Krunkit.step, effect] at alive
    split at alive
    · by_cases isNew : pid = choice.number
      · subst isNew
        simp only [World.setProc, Function.update_self, Option.some.injEq] at alive
        subst alive
        exact absurd (Option.some.inj isNode) other
      · simp only [World.setProc, Function.update_of_ne isNew] at alive
        exact evolved pid proc alive isNode
    · exact evolved pid proc alive isNode
  | terminate target =>
    simp only [Krunkit.step, effect] at alive
    split at alive
    · by_cases isTarget : pid = target
      · simp [World.setProc, isTarget] at alive
      · simp only [World.setProc, Function.update_of_ne isTarget] at alive
        exact evolved pid proc alive isNode
    · exact evolved pid proc alive isNode
  | _ =>
    rw [Krunkit.step, effect_procs (fun _ _ => Op.noConfusion) fun _ => Op.noConfusion] at alive
    exact evolved pid proc alive isNode

theorem Single.step (single : Single n world)
    (noLaunch : ∀ args, op ≠ .launch n args) : Single n (step op choice world).1 := by
  rcases single with ⟨pid, only⟩
  exact ⟨pid, only.step noLaunch⟩

theorem Tracked.step (tracked : Tracked client n world) (noLaunch : ∀ args, op ≠ .launch n args)
    (stays : ∀ content, world.slot n = .stored content →
      (Krunkit.step op choice world).1.slot n = .stored content) :
    Tracked client n (step op choice world).1 := by
  rcases tracked with idle | ⟨state, stored, identified⟩
  · exact Or.inl (idle.step noLaunch)
  · exact Or.inr ⟨state, stays _ stored, identified.step noLaunch⟩

theorem keepsRecord_of_stays {before after : World}
    (stays : ∀ n content, before.slot n = .stored content → after.slot n = .stored content) :
    KeepsRecord before after := by
  intro n state proc stored _ _ _
  exact ⟨state, stays n _ stored, rfl⟩

theorem stays_of_plain (plain : op.Plain m) (choice : Choice) (world : World)
    (n : Str) (content : Option Doc) (stored : world.slot n = .stored content) :
    (step op choice world).1.slot n = .stored content := by
  rcases step_slot_of_plain plain choice world with same | ⟨_, absent, made⟩
  · rwa [same]
  · have other : n ≠ m := fun same => Slot.noConfusion (stored.symm.trans (same ▸ absent))
    rwa [made, Function.update_of_ne other]

theorem noLaunch_of_plain (plain : op.Plain m) (name : Str) (args : List Str) :
    op ≠ .launch name args := by
  rintro rfl
  exact plain

/-- No step of a call launches a second hypervisor or loses the record of one that lives. -/
def tracking : Setting Op Op.Ans World Choice :=
  ⟨machine, Honest, fun op world => (∀ name, Single name world) ∧
    ∀ choice, Honest op choice world → KeepsRecord world (step op choice world).1⟩

structure Phase (client : Client) (n : Str) (tracked : Prop) (known : ℕ → Proc → Prop)
    (world : World) : Prop where
  single : ∀ name, Single name world
  isTracked : ∀ name, (name = n → tracked) → Tracked client name world
  hypervisors : Hypervisors n known world

def AllTracked (client : Client) (world : World) : Prop := ∀ name, Tracked client name world

section Phases

variable {client : Client} {n m : Str} {tracked : Prop} {known known' : ℕ → Proc → Prop}
variable {α : Type} {post : α → Prop} {state : NodeState}

variable {world : World} {op : Op} {action : Action α}

theorem AllTracked.phase (all : AllTracked client world)
    (hypervisors : Hypervisors n known world) : Phase client n tracked known world :=
  ⟨fun name => (all name).single, fun name _ => all name, hypervisors⟩

theorem Phase.all (phase : Phase client n True known world) :
    AllTracked client world := fun name => phase.isTracked name fun _ => trivial

theorem Phase.mono (phase : Phase client n tracked known world)
    (weaken : ∀ pid proc, known pid proc → known' pid proc) : Phase client n tracked known' world :=
  ⟨phase.single, phase.isTracked, phase.hypervisors.mono weaken⟩

variable {choice : Choice} {pid : ℕ}

theorem Phase.step_of_plain (plain : op.Plain m) (phase : Phase client n tracked known world) :
    Phase client n tracked known (step op choice world).1 where
  single name := (phase.single name).step (noLaunch_of_plain plain name)
  isTracked name isOther := (phase.isTracked name isOther).step (noLaunch_of_plain plain name)
    (stays_of_plain plain choice world name)
  hypervisors := phase.hypervisors.step (noLaunch_of_plain plain n)

theorem guard_of_plain (plain : op.Plain m)
    (single : ∀ name, Single name world) : tracking.guard op world :=
  ⟨single, fun choice _ => keepsRecord_of_stays (stays_of_plain plain choice world)⟩

theorem phase_of_issues {program : Prog Op Op.Ans α} (issues : Issues (Op.Plain m) post program) :
    Triple tracking (Phase client n tracked known) program
      (fun value world => Phase client n tracked known world ∧ post value) :=
  Issues.triple issues (fun _ _ plain phase => guard_of_plain plain phase.single)
    fun _ _ _ plain _ phase => phase.step_of_plain plain

theorem phase_of_acts (acts : Acts (Op.Plain m) post action) :
    Returns tracking (Phase client n tracked known) action
      (fun value world => Phase client n tracked known world ∧ post value)
      (Phase client n tracked known) :=
  Acts.returns acts (fun _ _ plain phase => guard_of_plain plain phase.single)
    fun _ _ _ plain _ phase => phase.step_of_plain plain

theorem triple_probe (pid : ℕ) (told : Proc → op.Ans → Prop) (plain : op.Plain m)
    (looks : ∀ choice world, (step op choice world).1 = world.evolve choice)
    (tells : ∀ choice world proc, Honest op choice world →
      (world.evolve choice).procs pid = some proc → proc.node ≠ none →
      told proc (step op choice world).2) :
    Triple tracking (Phase client n tracked known) (Prog.perform op)
      (fun answer => Phase client n tracked
        fun other proc => known other proc ∧ (other = pid → told proc answer)) := by
  refine Triple.perform (fun _ phase => guard_of_plain plain phase.single) ?_
  intro world choice phase honest
  have stepped : Phase client n tracked known (step op choice world).1 :=
    phase.step_of_plain plain
  refine ⟨stepped.single, stepped.isTracked, ?_⟩
  intro other proc alive isNode
  refine ⟨stepped.hypervisors other proc alive isNode, ?_⟩
  rintro rfl
  rw [show (tracking.machine.step op choice world).1 = world.evolve choice from
    looks choice world] at alive
  exact tells choice world proc honest alive (isNode ▸ Option.some_ne_none n)

theorem triple_kill0 (pid : ℕ) :
    Triple tracking (Phase client n tracked known) (Prog.perform (Op.kill0 pid))
      (fun answer => Phase client n tracked
        fun other proc => known other proc ∧ (other = pid → answer)) := by
  have plain : (Op.kill0 pid).Plain n := trivial
  refine triple_probe pid (fun _ answer => answer = true) plain (fun _ _ => rfl) ?_
  intro choice world proc honest alive isHypervisor
  simp only [step, effect, honest proc alive isHypervisor, alive]
  rfl

theorem triple_startTime (pid : ℕ) :
    Triple tracking (Phase client n tracked known) (Prog.perform (Op.startTime pid))
      (fun answer => Phase client n tracked
        fun other proc => known other proc ∧ (other = pid → answer = some proc.start)) := by
  have plain : (Op.startTime pid).Plain n := trivial
  refine triple_probe pid (fun proc answer => answer = some proc.start) plain (fun _ _ => rfl) ?_
  intro choice world proc honest alive isHypervisor
  simp only [step, effect, honest proc alive isHypervisor, alive]
  rfl

theorem triple_command (pid : ℕ) :
    Triple tracking (Phase client n tracked known) (Prog.perform (Op.command pid))
      (fun answer => Phase client n tracked
        fun other proc => known other proc ∧ (other = pid → answer = some proc.command)) := by
  have plain : (Op.command pid).Plain n := trivial
  refine triple_probe pid (fun proc answer => answer = some proc.command) plain
    (fun _ _ => rfl) ?_
  intro choice world proc honest alive isHypervisor
  simp only [step, effect, honest proc alive isHypervisor, alive]
  rfl

/-- What `processOwned` tells: a hypervisor of the VM is found, and the state identifies it. -/
def Found (client : Client) (known : ℕ → Proc → Prop) (result : Bool × NodeState) (pid : ℕ)
    (proc : Proc) : Prop :=
  known pid proc ∧ Identifies client result.2 pid proc ∧ result.1 = true

theorem identify_of_identifies {proc : Proc} {started : Str}
    (identifies : Identifies client state pid proc) :
    identify client state started proc.command = (true, state) := by
  rcases identifies with ⟨_, _, sameStart, sameHash⟩
  have recorded : state.processStart ≠ [] ∧ state.processCommandHash ≠ [] := by
    rw [sameStart, sameHash]
    exact ⟨proc.start_ne, client.hash_ne proc.command⟩
  simp only [identify]
  rw [if_pos recorded, sameHash, beq_self_eq_true]

theorem triple_processAlive
    (identifies : ∀ pid proc, known pid proc → Identifies client state pid proc) :
    Triple tracking (Phase client n tracked known) (processAlive state.pid)
      (fun answer => Phase client n tracked fun pid proc => known pid proc ∧ answer) := by
  unfold processAlive
  split
  · rename_i isZero
    refine Triple.done fun _ phase => phase.mono fun pid proc isKnown => ?_
    have isProcess := identifies pid proc isKnown
    exact absurd (isProcess.2.1.symm.trans isZero) isProcess.1
  · refine (triple_kill0 state.pid).weaken (fun _ => id) ?_
    intro answer world phase
    refine phase.mono fun pid proc isKnown => ⟨isKnown.1, isKnown.2 ?_⟩
    exact (identifies pid proc isKnown.1).2.1.symm

theorem triple_processOwned (ofNode : OfNode n state)
    (identifies : ∀ pid proc, known pid proc → Identifies client state pid proc) :
    Triple tracking (Phase client n tracked known) (processOwned client state)
      (fun result world => Phase client n tracked (Found client known result) world ∧
        OfNode n result.2) := by
  have lost : ∀ {known' : ℕ → Proc → Prop}, (∀ pid proc, known' pid proc → False) →
      Triple tracking (Phase client n tracked known') (Prog.done (false, state))
        (fun result world => Phase client n tracked (Found client known result) world ∧
          OfNode n result.2) :=
    fun impossible => Triple.done fun _ phase =>
      ⟨phase.mono fun pid proc isKnown => (impossible pid proc isKnown).elim, ofNode⟩
  refine (triple_processAlive identifies).bind fun alive => ?_
  split
  · refine (triple_startTime state.pid).bind fun started => ?_
    cases started with
    | none =>
      refine lost fun pid proc isKnown => ?_
      exact nomatch isKnown.2 (identifies pid proc isKnown.1.1).2.1.symm
    | some started =>
      simp only
      split
      · rename_i differs
        refine lost fun pid proc isKnown => ?_
        have isProcess := identifies pid proc isKnown.1.1
        have same := Option.some.inj (isKnown.2 isProcess.2.1.symm)
        exact differs.2 (isProcess.2.2.1.trans same.symm)
      · refine (triple_command state.pid).bind fun command => ?_
        cases command with
        | none =>
          refine lost fun pid proc isKnown => ?_
          exact nomatch isKnown.2 (identifies pid proc isKnown.1.1.1).2.1.symm
        | some command =>
          refine Triple.done fun _ phase => ⟨phase.mono fun pid proc isKnown => ?_,
            ofNode.agrees.identify.ofNode ofNode⟩
          have isProcess := identifies pid proc isKnown.1.1.1
          obtain rfl := Option.some.inj (isKnown.2 isProcess.2.1.symm)
          rw [identify_of_identifies isProcess]
          exact ⟨isKnown.1.1.1, isProcess, rfl⟩
  · rename_i isDead
    exact lost fun pid proc isKnown => isDead isKnown.2

theorem phase_of_plain (acts : Does (Op.Plain m) action) :
    Returns tracking (Phase client n tracked known) action
      (fun _ => Phase client n tracked known) (Phase client n tracked known) :=
  (phase_of_acts acts).weaken (fun _ => id) (fun _ _ holds => holds.1)
    fun _ => id

theorem Phase.keepsRecord_rename {temp : Str} (phase : Phase client n tracked known world)
    (identifies : ∀ pid proc, known pid proc → Identifies client state pid proc) :
    KeepsRecord world (step (.rename (.node n) temp stateFile (.node state)) choice world).1 := by
  rcases step_rename n temp (.node state) choice world with ⟨_, same⟩ | ⟨_, _, stored⟩
  · exact keepsRecord_of_stays fun name content isStored => same ▸ isStored
  · rw [KeepsRecord, stored]
    intro name recorded proc isRecorded alive isNode _
    by_cases same : name = n
    · subst same
      have isProcess := identifies _ _ (phase.hypervisors _ proc alive isNode)
      exact ⟨state, Function.update_self .., isProcess.2.1⟩
    · exact ⟨recorded, (Function.update_of_ne same ..).trans isRecorded, rfl⟩

theorem returns_writeState_phase (ofNode : OfNode n state)
    (identifies : ∀ pid proc, known pid proc → Identifies client state pid proc) :
    Returns tracking (Phase client n tracked known) (writeState state)
      (fun _ => Phase client n True known) (Phase client n tracked known) := by
  have plain : ∀ {tracked : Prop} (op : Op), op.Plain n →
      Triple tracking (Phase client n tracked known) (Prog.perform op)
        (fun _ => Phase client n tracked known) :=
    fun op isPlain => Triple.perform (fun _ phase => guard_of_plain isPlain phase.single)
      fun _ _ phase _ => phase.step_of_plain isPlain
  refine returns_writeState_of_rename ofNode (fun op own => plain op own.plain)
    (fun op own => plain op own.plain) ?_
  intro _ suffix
  refine Triple.perform (fun _ phase => ⟨phase.single, fun _ _ =>
    phase.keepsRecord_rename identifies⟩) ?_
  intro world choice phase _
  let op := Op.rename (.node n) (tempFile suffix) stateFile (.node state)
  change if (step op choice world).2 then Phase client n True known (step op choice world).1
    else Phase client n tracked known (step op choice world).1
  have noLaunch : ∀ name args, op ≠ .launch name args := fun _ _ => Op.noConfusion
  have single : ∀ name, Single name (step op choice world).1 :=
    fun name => (phase.single name).step (noLaunch name)
  have hypervisors : Hypervisors n known (step op choice world).1 :=
    phase.hypervisors.step (noLaunch n)
  rcases step_rename n (tempFile suffix) (.node state) choice world with
    ⟨failed, same⟩ | ⟨renamed, _, stored⟩
  · rw [show (step op choice world).2 = false from failed]
    refine ⟨single, fun name isOther => ?_, hypervisors⟩
    exact (phase.isTracked name isOther).step (noLaunch name) fun _ isStored =>
      (congrFun same name).trans isStored
  · rw [show (step op choice world).2 = true from renamed]
    refine ⟨single, fun name _ => ?_, hypervisors⟩
    by_cases isNode : name = n
    · subst isNode
      refine Or.inr ⟨state, ?_, hypervisors.mono identifies⟩
      exact (congrFun stored name).trans (Function.update_self ..)
    · refine (phase.isTracked name fun same => absurd same isNode).step (noLaunch name) ?_
      intro content isStored
      exact (congrFun stored name).trans ((Function.update_of_ne isNode ..).trans isStored)

theorem triple_terminate (pid : ℕ) :
    Triple tracking (Phase client n False fun other _ => other = pid)
      (Prog.perform (Op.terminate pid)) (fun _ => Phase client n True fun _ _ => False) := by
  have plain : (Op.terminate pid).Plain n := trivial
  refine Triple.perform (fun _ phase => guard_of_plain plain phase.single) ?_
  intro world choice phase works
  have stepped : Phase client n False (fun other _ => other = pid)
      (step (.terminate pid) choice world).1 := phase.step_of_plain plain
  have idle : Idle n (step (.terminate pid) choice world).1 := by
    intro other proc alive isNode
    obtain rfl := stepped.hypervisors other proc alive isNode
    simp only [step, effect, show choice.works = true from works, if_true, World.setProc,
      Function.update_self] at alive
    cases alive
  refine ⟨stepped.single, fun name _ => ?_, idle⟩
  by_cases isNode : name = n
  · exact isNode ▸ Or.inl idle
  · exact stepped.isTracked name fun same => absurd same isNode

theorem returns_record (ofNode : OfNode n state) (isProcess : pid ≠ 0) :
    Returns tracking (Phase client n False fun other _ => other = pid) (record client state pid)
      (fun _ => AllTracked client) (Phase client n True fun _ _ => False) := by
  have terminate : Triple tracking (Phase client n False fun other _ => other = pid)
      (Prog.perform (Op.terminate pid) >>= fun _ => Prog.done ())
      (fun _ => Phase client n True fun _ _ => False) :=
    (triple_terminate pid).bind fun _ => Triple.done fun _ => id
  refine Returns.onError ?_ terminate
  refine (Returns.lift (triple_startTime pid)).bind fun answer => ?_
  refine (returns_given answer fun _ phase => phase.mono fun _ _ isKnown =>
    isKnown.1).bind fun started => ?_
  rintro world ⟨phase, rfl⟩
  refine (Returns.lift (triple_command pid)).bind (fun answer => ?_) world phase
  refine (returns_given answer fun _ phase => phase.mono fun _ _ isKnown =>
    isKnown.1.1).bind fun command => ?_
  rintro world ⟨phase, rfl⟩
  refine ((returns_writeState_phase ?_ ?_).weaken
    (fun _ => id) (fun _ _ => id) fun _ phase => phase.mono fun _ _ isKnown =>
      isKnown.1.1).bind (fun _ => ?_) world phase
  · exact ofNode
  · rintro other proc ⟨⟨rfl, sameStart⟩, sameCommand⟩
    obtain rfl := Option.some.inj (sameStart rfl)
    obtain rfl := Option.some.inj (sameCommand rfl)
    exact ⟨isProcess, rfl, rfl, rfl⟩
  · have release : (Op.release pid).Plain n := trivial
    refine (phase_of_plain (acts_must (acts_ask release))).weaken (fun _ => id)
      (fun _ _ phase => phase.all) fun _ phase => phase.all.phase ?_
    exact phase.hypervisors.mono fun _ _ isKnown => isKnown.1.1

theorem triple_launch (args : List Str) :
    Triple tracking (Phase client n True fun _ _ => False) (Prog.perform (Op.launch n args))
      (fun answer world => match answer with
        | none => Phase client n True (fun _ _ => False) world
        | some pid => pid ≠ 0 ∧ Phase client n False (fun other _ => other = pid) world) := by
  have stays : ∀ (choice : Choice) (world : World),
      (step (.launch n args) choice world).1.slot = world.slot := by
    intro choice world
    simp only [step, effect]
    split <;> rfl
  refine Triple.perform (fun world phase => ⟨phase.single, fun choice _ => ?_⟩) ?_
  · exact keepsRecord_of_stays fun name _ stored => (congrFun (stays choice world) name).trans stored
  intro world choice phase _
  have others : ∀ name, name ≠ n → Tracked client name (step (.launch n args) choice world).1 := by
    intro name other
    refine (phase.all name).step ?_ fun _ stored => (congrFun (stays choice world) name).trans stored
    rintro _ ⟨⟩
    exact other rfl
  have idle : Idle n (world.evolve choice) := phase.hypervisors.evolve
  change match (step (.launch n args) choice world).2 with
    | none => Phase client n True (fun _ _ => False) (step (.launch n args) choice world).1
    | some pid => pid ≠ 0 ∧
        Phase client n False (fun other _ => other = pid) (step (.launch n args) choice world).1
  simp only [step, effect] at others ⊢
  by_cases free : choice.works = true ∧ choice.number ≠ 0 ∧
      (world.evolve choice).procs choice.number = none ∧ choice.text ≠ []
  · rw [dif_pos free] at others ⊢
    have only : Hypervisors n (fun other _ => other = choice.number)
        (World.setProc (world.evolve choice) choice.number
          (some ⟨some n, choice.text, commandText args, free.2.2.2⟩)) := by
      intro pid proc alive isNode
      by_contra other
      simp only [World.setProc, Function.update_of_ne other] at alive
      exact idle pid proc alive isNode
    refine ⟨free.2.1, fun name => ?_, fun name isOther => others name isOther, only⟩
    by_cases isNode : name = n
    · subst isNode
      exact ⟨choice.number, only⟩
    · exact (others name isNode).single
  · rw [dif_neg free] at others ⊢
    refine AllTracked.phase (fun name => ?_) idle
    by_cases isNode : name = n
    · subst isNode
      exact Or.inl idle
    · exact others name isNode

theorem returns_launchState (ofNode : OfNode n state) :
    Returns tracking (Phase client n True fun _ _ => False) (launchState client state)
      (fun _ => AllTracked client) (Phase client n True fun _ _ => False) := by
  have plain : ∀ {β : Type} {action : Action β}, Does (Op.Plain n) action →
      Returns tracking (Phase client n True fun _ _ => False) action
        (fun _ => Phase client n True fun _ _ => False) (Phase client n True fun _ _ => False) :=
    phase_of_plain
  have checked : ∀ {holds : Bool} {err : Err}, Does (Op.Plain n) (check holds err) :=
    acts_check.mono (fun _ => id) fun _ _ => trivial
  refine (plain (acts_onlyIf (acts_must (acts_ask trivial)))).bind fun _ => ?_
  refine Returns.bind (plain (acts_ask trivial)) fun foundRun => ?_
  refine (plain (acts_given foundRun)).bind fun vmnetRun => ?_
  refine Returns.bind (plain (acts_ask trivial)) fun foundKrunkit => ?_
  refine (plain (acts_given foundKrunkit)).bind fun krunkit => ?_
  refine (plain (plain_of_own (acts_loadNetwork _))).bind fun network => ?_
  refine (plain checked).bind fun _ => (plain checked).bind fun _ => ?_
  refine (plain checked).bind fun _ => (plain checked).bind fun _ => ?_
  have report : Acts (Op.Plain n) (Agrees state) (prepareReport client (withSocket client state)) := by
    rw [← ofNode.2]
    exact plain_of_own (acts_prepareReport ofNode.agrees.withSocket)
  refine (phase_of_acts report).bind fun prepared => ?_
  rintro world ⟨phase, kept⟩
  have socket : (Op.removeSocket prepared.restSocket).Plain n := trivial
  refine (plain (acts_ask socket)).bind (fun _ => ?_) world phase
  refine Returns.bind (plain (acts_ask ⟨ofNode.2, by decide⟩)) fun _ => ?_
  refine (plain (acts_must (acts_ask ⟨ofNode.2, by decide⟩))).bind fun _ => ?_
  rw [ofNode.2]
  refine (Returns.lift (triple_launch _)).bind fun started => ?_
  cases started with
  | none => exact Returns.throw fun _ => id
  | some pid =>
    rintro world ⟨isProcess, phase⟩
    exact returns_record (kept.ofNode ofNode) isProcess world phase

theorem returns_startState (ofNode : OfNode n state)
    (identifies : ∀ pid proc, known pid proc → Identifies client state pid proc) :
    Returns tracking (Phase client n True known) (startState client state)
      (fun _ => AllTracked client) (Phase client n True known) := by
  refine (Returns.lift (triple_processOwned ofNode identifies)).bind fun result => ?_
  rcases result with ⟨owned, state⟩
  rintro world ⟨phase, kept⟩
  simp only
  split
  · refine (returns_writeState_phase ?_ ?_).weaken (fun _ => id)
      (fun _ _ phase => phase.all) (fun _ phase => phase.mono fun _ _ isKnown => isKnown.1)
      world phase
    · exact kept
    · exact fun _ _ isKnown => isKnown.2.1
  · rename_i isLost
    have idle := phase.mono fun _ _ isKnown => isLost isKnown.2.2
    exact (returns_launchState kept).weaken (fun _ => id) (fun _ _ => id)
      (fun _ phase => phase.mono fun _ _ => False.elim) world idle

theorem triple_waitExit (polls : ℕ) (ofNode : OfNode n state) :
    Triple tracking (Phase client n True (Identifies client state)) (waitExit client polls state)
      (fun state world => Phase client n True (Identifies client state) world ∧
        OfNode n state) := by
  induction polls generalizing state with
  | zero => exact Triple.done fun _ phase => ⟨phase, ofNode⟩
  | succ polls ih =>
    refine (triple_processOwned ofNode fun _ _ => id).bind fun result => ?_
    rcases result with ⟨owned, state⟩
    rintro world ⟨phase, kept⟩
    have identified := phase.mono fun _ _ isKnown => isKnown.2.1
    simp only
    split
    · have expired : Op.expired.Plain n := trivial
      refine (phase_of_issues (Issues.perform expired)).bind (fun isExpired => ?_) world
        identified
      rintro world ⟨phase, _⟩
      split
      · exact ⟨phase, kept⟩
      · exact ih kept world phase
    · exact ⟨identified, kept⟩

theorem triple_requestExit (ofNode : OfNode n state) :
    Triple tracking (Phase client n True (Identifies client state)) (requestExit client state)
      (fun state world => Phase client n True (Identifies client state) world ∧
        OfNode n state) := by
  unfold requestExit
  split
  · have request : (Op.requestStop state.restSocket).Plain n := trivial
    refine (phase_of_issues (Issues.perform request)).bind fun accepted => ?_
    rintro world ⟨phase, _⟩
    split
    · exact triple_waitExit _ ofNode world phase
    · exact ⟨phase, ofNode⟩
  · exact Triple.done fun _ phase => ⟨phase, ofNode⟩

theorem returns_signalExit (polls : ℕ) (ofNode : OfNode n state) :
    Returns tracking (Phase client n True (Identifies client state)) (signalExit client polls state)
      (fun result world => Phase client n True
        (fun pid proc => Identifies client result.2 pid proc ∧ result.1) world ∧
          OfNode n result.2)
      (AllTracked client) := by
  refine (Returns.lift (triple_processOwned ofNode fun _ _ => id)).bind
    fun result => ?_
  rcases result with ⟨owned, state⟩
  rintro world ⟨phase, kept⟩
  simp only
  split
  · have identified := phase.mono fun _ _ isKnown => isKnown.2.1
    have signal : (Op.signal state.pid).Plain n := trivial
    refine ((phase_of_plain (acts_must (acts_ask signal))).weaken
      (fun _ => id) (fun _ _ => id) fun _ phase => phase.all).bind (fun _ => ?_)
      world identified
    refine (Returns.lift (triple_waitExit polls kept)).bind fun state => ?_
    exact Returns.pure fun _ holds => ⟨holds.1.mono fun _ _ isKnown => ⟨isKnown, rfl⟩, holds.2⟩
  · rename_i isLost
    exact ⟨phase.mono fun _ _ isKnown => (isLost isKnown.2.2).elim, kept⟩

theorem returns_confirmExit (killed : Bool) (ofNode : OfNode n state) :
    Returns tracking
      (Phase client n True fun pid proc => Identifies client state pid proc ∧ killed)
      (confirmExit client killed state)
      (fun state world => Phase client n True (fun _ _ => False) world ∧ OfNode n state)
      (AllTracked client) := by
  unfold confirmExit
  split
  · refine (Returns.lift (triple_processOwned ofNode fun _ _ isKnown => isKnown.1)).bind
      fun result => ?_
    rcases result with ⟨owned, state⟩
    rintro world ⟨phase, kept⟩
    refine (returns_check fun _ phase => phase.all).bind (fun _ => ?_) world phase
    rintro world ⟨phase, isGone⟩
    refine ⟨phase.mono fun _ _ isKnown => ?_, kept⟩
    rw [show owned = true from isKnown.2.2] at isGone
    cases isGone
  · rename_i notKilled
    exact Returns.pure fun _ phase =>
      ⟨phase.mono fun _ _ isKnown => notKilled isKnown.2, ofNode⟩

theorem returns_stopProcess (ofNode : OfNode n state) :
    Returns tracking (Phase client n True (Identifies client state)) (stopProcess client state)
      (fun _ => Phase client n True fun _ _ => False) (AllTracked client) := by
  refine (Returns.lift (triple_requestExit ofNode)).bind fun state => ?_
  rintro world ⟨phase, kept⟩
  refine (returns_signalExit _ kept).bind (fun result => ?_) world phase
  rintro world ⟨phase, kept⟩
  have identified := phase.mono fun _ _ isKnown => isKnown.1
  refine (returns_signalExit _ kept).bind (fun result => ?_) world identified
  rintro world ⟨phase, kept⟩
  refine (returns_confirmExit _ kept).bind (fun state => ?_) world phase
  rintro world ⟨phase, kept⟩
  refine (returns_writeState_phase ?_ ?_).weaken (fun _ => id)
    (fun _ _ => id) (fun _ phase => phase.all) world phase
  · exact kept
  · exact fun _ _ => False.elim

theorem returns_halt (ofNode : OfNode n state) :
    Returns tracking (Phase client n True (Identifies client state)) (halt client state)
      (fun _ => Phase client n True fun _ _ => False) (AllTracked client) := by
  refine (Returns.lift (triple_processOwned ofNode fun _ _ => id)).bind
    fun result => ?_
  rcases result with ⟨owned, state⟩
  rintro world ⟨phase, kept⟩
  simp only
  split
  · exact returns_stopProcess kept world (phase.mono fun _ _ isKnown => isKnown.2.1)
  · rename_i isLost
    have idle := phase.mono fun _ _ isKnown => isLost isKnown.2.2
    refine (returns_writeState_phase ?_ ?_).weaken (fun _ => id)
      (fun _ _ => id) (fun _ phase => phase.all) world idle
    · exact kept
    · exact fun _ _ => False.elim

theorem returns_readState_phase :
    Returns tracking (AllTracked client) (readState n)
      (fun state world => Phase client n True (Identifies client state) world ∧ OfNode n state)
      (AllTracked client) := by
  have evolves : ∀ (world : World) (choice : Choice), AllTracked client world →
      AllTracked client (world.evolve choice) := by
    intro world choice all name
    rcases all name with idle | ⟨state, stored, identified⟩
    · exact Or.inl idle.evolve
    · exact Or.inr ⟨state, stored, identified.evolve⟩
  have plain : (Op.readFile (.node n) stateFile).Plain n := trivial
  refine (returns_readState n (fun world choice _ => evolves world choice) fun _ all => guard_of_plain plain
    fun name => (all name).single).weaken (fun _ => id) ?_ fun _ => id
  rintro state world ⟨all, stored, ofNode⟩
  refine ⟨all.phase ?_, ofNode⟩
  rcases all n with idle | ⟨other, isStored, identified⟩
  · exact idle.hypervisors
  · obtain ⟨rfl⟩ := Slot.stored.inj (isStored.symm.trans stored)
    exact identified

theorem triple_clears (noLaunch : ∀ name args, op ≠ .launch name args)
    (beside : ∀ name, name ≠ n → op.Beside name) :
    Triple tracking (Phase client n True fun _ _ => False) (Prog.perform op)
      (fun _ => Phase client n True fun _ _ => False) := by
  refine Triple.perform (fun world phase => ⟨phase.single, fun choice _ => ?_⟩) ?_
  · intro name state proc stored alive isNode _
    by_cases same : name = n
    · subst same
      exact (phase.hypervisors _ proc alive isNode).elim
    · refine ⟨state, ?_, rfl⟩
      exact (step_slot_of_beside (beside name same) choice world).trans stored
  · intro world choice phase _
    have idle : Idle n (step op choice world).1 := phase.hypervisors.step (noLaunch n)
    refine AllTracked.phase (fun name => ?_) idle
    by_cases same : name = n
    · subst same
      exact Or.inl idle
    · refine (phase.all name).step (noLaunch name) fun _ stored => ?_
      exact (step_slot_of_beside (beside name same) choice world).trans stored

theorem triple_unlinkAll_phase (files : List Str) :
    Triple tracking (Phase client n True fun _ _ => False) (unlinkAll n files)
      (fun _ => Phase client n True fun _ _ => False) := by
  induction files with
  | nil => exact Triple.done fun _ => id
  | cons file files ih =>
    refine (triple_clears (fun _ _ => Op.noConfusion) fun _ other => ?_).bind fun _ => ih
    exact Ne.symm other

theorem triple_removeAll_phase :
    Triple tracking (Phase client n True fun _ _ => False) (removeAll n)
      (fun _ => AllTracked client) := by
  refine Triple.bind (triple_clears (fun _ _ => Op.noConfusion) fun _ _ => trivial) fun files => ?_
  refine (triple_unlinkAll_phase files).bind fun _ => ?_
  refine (triple_clears (fun _ _ => Op.noConfusion) fun _ other => ?_).weaken
    (fun _ => id) fun _ _ phase => phase.all
  exact Ne.symm other

theorem all_of_plain (acts : Does (Op.Plain m) action) :
    Returns tracking (AllTracked client) action (fun _ => AllTracked client)
      (AllTracked client) := by
  have phase : ∀ world, AllTracked client world → Phase client m True (fun _ _ => True) world :=
    fun _ all => all.phase fun _ _ _ _ => trivial
  exact (phase_of_plain acts).weaken phase (fun _ _ phase => phase.all)
    fun _ phase => phase.all

end Phases

end Kiac.Krunkit
