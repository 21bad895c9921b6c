import Kiac.ExternalWorker.Orphans
import Kiac.ExternalWorker.Readable

/-!
# The inventory is read as it was written

What `Join` and `Start` write for a configuration is a state that is made of it. It is read back as
it was written exactly if the check of the configuration and the check of the file agree.
-/

namespace Kiac.Worker

open Prog Step

def Derived (codec : Codec) (cfg : ExternalWorkerConfig) (created : Str)
    (state : ExternalWorkerState) : Prop :=
  ∃ files p id now, prepareExternalWorker files cfg = .ok p ∧ codec.timeText now = some created ∧
    Progress state.phase state.nodeUID ∧ state = stateOf p id now state.phase state.nodeUID

/-- The states that are written for a configuration: by a `Join`, or by a `Start` of a worker whose
file holds such a state. -/
inductive WrittenFor (manager : Manager) (cfg : ExternalWorkerConfig) : ExternalWorkerState → Prop
  | join {world : World} {choices : List Choice} {state : ExternalWorkerState}
      (issued : .rename state ∈ ((join manager cfg).run.exec machine choices world).trace) :
      WrittenFor manager cfg state
  | start {world : World} {choices : List Choice} {name : Str} {timeout : ℤ}
      {entry state : ExternalWorkerState} (earlier : WrittenFor manager cfg entry)
      (reads : manager.codec.Reads entry) (isEntry : world.inventory name = some entry)
      (issued : .rename state ∈ ((start manager name timeout).run.exec machine choices world).trace) :
      WrittenFor manager cfg state

def Op.Writes (good : ExternalWorkerState → Prop) : Op → Prop
  | .rename state => good state
  | _ => True

def writing (good : ExternalWorkerState → Prop) : Setting Op Op.Ans World Choice :=
  ⟨machine, fun _ _ _ => True, fun op _ => op.Writes good⟩

section Programs

variable {good : ExternalWorkerState → Prop} {manager : Manager} {cfg : ExternalWorkerConfig}
variable {α : Type}

theorem writes_of_quiet {op : Op} (quiet : op.Quiet) : op.Writes good := by
  cases op with
  | rename state => exact quiet.elim
  | _ => trivial

variable {action : Action α} {post : α → Prop} {name created : Str} {entry : ExternalWorkerState}

theorem acts_of_quiet (acts : Acts Op.Quiet post action) :
    Acts (Op.Writes good) post action :=
  acts.mono (fun _ quiet => writes_of_quiet quiet) fun _ => id

variable {state : ExternalWorkerState} {files : Str → Option Str} {p : Prepared}

theorem acts_write (isGood : (manager.codec.marshal state).isSome → good state) :
    Does (Op.Writes good) (write manager state) := by
  refine acts_check.bind fun _ _ => (acts_given _).bind fun text marshalled => ?_
  refine (acts_must (acts_ask trivial)).bind fun _ _ => ?_
  refine (acts_ask trivial).bind fun written _ => ?_
  have renamed : Does (Op.Writes good) (renameIf written state) := by
    unfold renameIf
    split
    · exact acts_ask (isGood (by rw [marshalled]; rfl))
    · exact Acts.pure trivial
  refine renamed.bind fun _ _ => (acts_ask trivial).bind fun _ _ => ?_
  exact acts_check.mono (fun _ => id) fun _ _ => trivial

theorem acts_during (state : ExternalWorkerState)
    (created : Bool) (acts : Acts (Op.Writes good) post action) :
    Acts (Op.Writes good) post (during state created action) := by
  refine Issues.bind acts fun result holds => ?_
  cases result with
  | ok value => exact holds
  | error err => trivial

theorem issues_cleanup (abort : Abort) :
    Issues (Op.Writes good) (fun _ => True) (cleanup abort) := by
  unfold cleanup
  split_ifs
  · trivial
  · refine Issues.bind (acts_of_quiet (acts_owned abort.state)) fun result _ => ?_
    cases result with
    | error err => trivial
    | ok _ =>
      refine (Issues.perform trivial).bind fun removed _ => ?_
      cases removed with
      | true => exact (Issues.perform trivial).bind fun _ _ => trivial
      | false => trivial
  · exact (Issues.perform trivial).bind fun _ _ => trivial

theorem derived_of_marshal (codec : Codec) (id : OwnerBytes) (now : ℕ) {phase : Phase} {uid : Str}
    (ok : prepareExternalWorker files cfg = .ok p) (progress : Progress phase uid)
    (marshalled : (codec.marshal (stateOf p id now phase uid)).isSome) :
    ∃ created, Derived codec cfg created (stateOf p id now phase uid) := by
  change ((codec.timeText now).map _).isSome at marshalled
  rw [Option.isSome_map] at marshalled
  rcases Option.isSome_iff_exists.mp marshalled with ⟨created, isTime⟩
  exact ⟨created, files, p, id, now, ok, isTime, progress, rfl⟩

theorem acts_joinWorker
    (ok : prepareExternalWorker files cfg = .ok p) (image : Str) (id : OwnerBytes) (now : ℕ) :
    Does (Op.Writes fun state => ∃ created, Derived manager.codec cfg created state) (joinWorker manager p image (stateOf p id now .creating [])) := by
  refine (acts_during _ _ (acts_must (acts_ask trivial))).bind fun _ _ => ?_
  refine (acts_during _ _ (acts_of_quiet (acts_provisionWorker p _))).bind fun _ _ => ?_
  have joined := derived_of_marshal manager.codec id now ok
    (Or.inl ⟨Or.inr rfl, rfl⟩)
  refine (acts_during _ _ ((acts_write joined).bind fun _ _ =>
    acts_must (acts_ask trivial))).bind fun _ _ => ?_
  refine (acts_during _ _ (acts_of_quiet (acts_wait _ _))).bind fun observation isNode => ?_
  have ready := derived_of_marshal manager.codec id now ok
    (Or.inr ⟨rfl, isNode.1, observation.uid_text⟩)
  exact (acts_during _ _ (acts_write ready)).bind fun _ _ => Acts.pure trivial

theorem acts_join :
    Does (Op.Writes fun state => ∃ created, Derived manager.codec cfg created state) (join manager cfg) := by
  refine (acts_ask trivial).bind fun files _ => (acts_settle _).bind fun p settled => ?_
  have ok := mapError_eq_ok.mp settled
  refine (acts_must (acts_ask trivial)).bind fun _ _ => ?_
  refine (acts_must (acts_ask trivial)).bind fun _ _ => ?_
  refine (acts_must (acts_ask trivial)).bind fun _ _ => ?_
  refine (acts_must (acts_ask trivial)).bind fun _ _ => ?_
  refine (acts_ask trivial).bind fun found _ => (acts_given found).bind fun image _ => ?_
  refine (acts_must (acts_ask trivial)).bind fun _ _ => ?_
  refine (acts_ask trivial).bind fun drawn _ => (acts_given drawn).bind fun id _ => ?_
  refine (acts_ask trivial).bind fun now _ => ?_
  have created := derived_of_marshal manager.codec id now ok
    (Or.inl ⟨Or.inl rfl, rfl⟩)
  refine (acts_write created).bind fun _ _ => ?_
  refine Issues.bind (acts_joinWorker ok image id now) fun result _ => ?_
  cases result with
  | ok ready => trivial
  | error abort => exact (issues_cleanup abort).bind fun _ _ => trivial

theorem eq_of_readBack {codec : Codec}
    (derived : Derived codec cfg created entry) (reads : codec.Reads entry)
    (isRead : codec.readBack name entry = .ok state) : state = entry := by
  rcases derived with ⟨files, p, id, now, ok, isTime, progress, isState⟩
  have isText := isText_texts id now ok progress
  rw [← isState] at isText
  have isCreated : entry.created = some now := by rw [isState]; rfl
  have parsed := reads now created isCreated isTime isText
  simp only [Codec.readBack, Codec.marshal, isCreated, isTime, Option.map_some, Codec.readFile,
    parsed] at isRead
  split_ifs at isRead
  exact (Except.ok.inj isRead).symm

theorem returns_entry (acts : Acts Op.Quiet post action) :
    Returns (writing good) (fun world => world.inventory name = some entry) action
      (fun value world => world.inventory name = some entry ∧ post value) fun _ => True := by
  have kept : Returns (writing good) (fun world => world.inventory name = some entry) action
      (fun value world => world.inventory name = some entry ∧ post value)
      fun world => world.inventory name = some entry := by
    refine Acts.returns acts (fun _ _ isQuiet _ => writes_of_quiet isQuiet) ?_
    intro op choice world isQuiet _ isEntry
    exact (congrFun (same_step isQuiet choice world).inventory name).trans isEntry
  exact kept.weaken (fun _ => id) (fun _ _ => id) fun _ _ => trivial

theorem returns_read_entry
    (derived : Derived manager.codec cfg created entry) (reads : manager.codec.Reads entry) :
    Returns (writing good) (fun world => world.inventory name = some entry) (read manager name)
      (fun state _ => state = entry) fun _ => True := by
  have looked : Returns (writing good) (fun world => world.inventory name = some entry)
      (ask (.readFile name)) (fun found _ => ∀ state, found = some state → state = entry)
      fun _ => True := by
    refine Returns.lift (Triple.perform (fun _ _ => trivial) fun world choice isEntry _ => ?_)
    intro state found
    simp only [writing, machine, step, effect] at found
    split at found
    · exact Option.some.inj (found.symm.trans isEntry)
    · cases found
  refine (returns_entry acts_check).bind fun _ => Returns.assume fun _ => ?_
  refine looked.bind fun found => ?_
  refine (returns_given found fun _ _ => trivial).bind fun state => ?_
  refine (returns_settle _ fun _ _ => trivial).weaken (fun _ => id) ?_
    fun _ => id
  rintro result world ⟨⟨isEntry, found⟩, parsed⟩
  obtain rfl := isEntry state found
  cases isRead : manager.codec.readBack name state with
  | error err =>
    rw [isRead] at parsed
    cases parsed
  | ok value =>
    rw [isRead] at parsed
    obtain rfl := Except.ok.inj parsed
    exact eq_of_readBack derived reads isRead

theorem acts_restart (derived : Derived manager.codec cfg created entry) :
    Does (Op.Writes (Derived manager.codec cfg created)) (do
      check (entry.phase == .ready || entry.phase == .joining) .incomplete
      owned entry
      must (ask (.start entry.vmName)) (.worker .vmStart)
      must (ask (.waitReady entry.vmName)) (.worker .sshReadiness)
      startJoining entry
      let observation ← wait entry manager.polls none
      write manager (entry.observed observation.uid)) := by
  refine acts_check.bind fun _ _ => ?_
  refine (acts_of_quiet (acts_owned entry)).bind fun _ _ => ?_
  refine (acts_must (acts_ask trivial)).bind fun _ _ => ?_
  refine (acts_must (acts_ask trivial)).bind fun _ _ => ?_
  refine (acts_of_quiet (acts_startJoining entry)).bind fun _ _ => ?_
  refine (acts_of_quiet (acts_wait _ _)).bind fun observation isNode => ?_
  refine acts_write fun _ => ?_
  rcases derived with ⟨files, p, id, now, ok, isTime, _, isState⟩
  refine ⟨files, p, id, now, ok, isTime, Or.inr ⟨rfl, isNode.1, observation.uid_text⟩, ?_⟩
  rw [isState]
  rfl

theorem returns_start_writes {timeout : ℤ} (derived : Derived manager.codec cfg created entry)
    (reads : manager.codec.Reads entry) :
    Returns (writing (Derived manager.codec cfg created))
      (fun world => world.inventory name = some entry) (start manager name timeout)
      (fun _ _ => True) fun _ => True := by
  refine (returns_entry acts_check).bind fun _ => Returns.assume fun _ => ?_
  refine (returns_entry (acts_must (acts_ask trivial))).bind fun _ =>
    Returns.assume fun _ => ?_
  refine (returns_read_entry derived reads).bind fun state => ?_
  intro world same
  subst same
  have rest : Returns (writing (Derived manager.codec cfg created)) (fun _ => True) _
      (fun _ _ => True ∧ True) fun _ => True :=
    Acts.returns (acts_restart derived) (fun _ _ allowed _ => allowed) fun _ _ _ _ _ => id
  exact rest.weaken (fun _ => id) (fun _ _ _ => trivial) (fun _ _ => trivial) world
    trivial

end Programs

variable {state : ExternalWorkerState}

variable {manager : Manager}

theorem WrittenFor.derived {cfg : ExternalWorkerConfig} (written : WrittenFor manager cfg state) :
    ∃ created, Derived manager.codec cfg created state := by
  induction written with
  | join issued =>
    have derived := Issues.of_mem_trace acts_join issued
    exact derived
  | start earlier reads isEntry issued derived =>
    rcases derived with ⟨created, derived⟩
    rcases guard_of_mem_trace (returns_start_writes derived reads _ isEntry)
      (fairRun_of_forall (fun _ _ _ _ => trivial) _ _) issued with ⟨_, isDerived⟩
    exact ⟨created, isDerived⟩

theorem exec_read {world : World} {choice : Choice} (named : validWorkerName state.name)
    (isEntry : world.inventory state.name = some state) (works : choice.works) :
    ((read manager state.name).run.exec machine [choice] world).value =
      some ((manager.codec.readBack state.name state).mapError .inventory) := by
  have found : step (.readFile state.name) choice world = (world.evolve choice, some state) := by
    simp only [step, effect, works, if_true]
    exact congrArg _ isEntry
  unfold read
  rw [named]
  change ((given (.inventory .missing) (step (.readFile state.name) choice world).2 >>=
    fun other => settle ((manager.codec.readBack state.name other).mapError .inventory) :
      Action ExternalWorkerState).run.exec machine [] _).value = _
  rw [found]
  rfl

/-- A state that was written for a configuration is read back as it was written exactly if the
checks agree. -/
theorem inventory_round_trip {manager : Manager} {cfg : ExternalWorkerConfig}
    {state : ExternalWorkerState} (written : WrittenFor manager cfg state)
    (reads : manager.codec.Reads state) :
    ∃ created, state.created.bind manager.codec.timeText = some created ∧
      ∀ world choice, world.inventory state.name = some state → choice.works = true →
        (((read manager state.name).run.exec machine [choice] world).value = some (.ok state) ↔
          Fits cfg state.phase created state.nodeUID) := by
  rcases written.derived with ⟨created, files, p, id, now, ok, isTime, progress, isState⟩
  have accepted := accepted_of_prepare ok
  have isName : state.name = p.config.name := by rw [isState]; rfl
  have isCreated : state.created = some now := by rw [isState]; rfl
  have named : validWorkerName state.name := by
    rw [isName, accepted.name]
    exact accepted.validName
  refine ⟨created, ?_, fun world choice isEntry works => ?_⟩
  · rw [isCreated]
    exact isTime
  · rw [isState] at reads
    have iff := readBack_stateOf id now ok progress isTime reads
    rw [← isState, ← isName] at iff
    rw [exec_read named isEntry works, ← iff]
    cases manager.codec.readBack state.name state with
    | error err => simp [Except.mapError]
    | ok value => simp [Except.mapError]

def Op.renames (state : ExternalWorkerState) : Op → Bool
  | .rename other => other == state
  | _ => false

theorem mem_of_any_renames {trace : List Op}
    (found : trace.any (Op.renames state)) : .rename state ∈ trace := by
  rcases List.any_eq_true.mp found with ⟨op, mem, isRename⟩
  cases op with
  | rename other =>
    obtain rfl : other = state := eq_of_beq isRename
    exact mem
  | _ => cases isRename

set_option maxRecDepth 4000

/-- The first state of the sample worker. -/
theorem inventory_round_trip_sample :
    ∃ created, sampleState.created.bind sampleCodec.timeText = some created ∧
      ∀ world choice, world.inventory (str "lab") = some sampleState → choice.works = true →
        (((read sampleManager (str "lab")).run.exec machine [choice] world).value =
          some (.ok sampleState) ↔ Fits sampleConfig .creating created []) := by
  have issued : (((join sampleManager sampleConfig).run.exec machine
      (List.replicate 12 sampleChoice) .empty).trace.any (Op.renames sampleState)) = true := by
    decide +kernel
  have reads : sampleCodec.Reads sampleState := by
    intro now created _ isTime _
    obtain rfl : sampleTime = created := Option.some.inj isTime
    decide +kernel
  exact inventory_round_trip (.join (mem_of_any_renames issued)) reads

def strayConfig : ExternalWorkerConfig :=
  { sampleConfig with server := str "https://192.0.2.10:6443/?" }

def strayState : ExternalWorkerState :=
  { sampleState.observed sampleUID with server := str "https://192.0.2.10:6443/?" }

def strayManager : Manager where
  codec :=
    { timeText := fun _ => some sampleTime
      unmarshal := fun raw =>
        if raw = fileText strayState sampleTime then some strayState else none }
  polls := 1

def strayJoin : Outcome Op World Choice (Except Err ExternalWorkerState) :=
  (join strayManager strayConfig).run.exec machine
    (List.replicate 24 sampleChoice ++ { sampleChoice with works := false } ::
      List.replicate 5 sampleChoice) .empty

/-- The worker joins, but its file is not read. -/
theorem stray_query_not_read :
    strayJoin.value = some (.ok strayState) ∧
    strayJoin.state.inventory (str "lab") = some strayState ∧
    strayManager.codec.Reads strayState ∧
    ((read strayManager (str "lab")).run.exec machine [sampleChoice] strayJoin.state).value =
      some (.error (.inventory .metadata)) := by
  refine ⟨by decide +kernel, by decide +kernel, ?_, by decide +kernel⟩
  intro now created _ isTime _
  obtain rfl : sampleTime = created := Option.some.inj isTime
  simp [strayManager]

end Kiac.Worker
