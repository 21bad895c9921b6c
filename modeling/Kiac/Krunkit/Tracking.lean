import Kiac.Krunkit.Process

/-!
# One hypervisor for each disk

As long as the probes of live hypervisors work, no call loses track of a hypervisor, and so
none launches a second one for a VM. A single probe that fails is enough to break this:
`List` takes the VM for stopped and clears the process number, and `Start` launches another
hypervisor on the same disk.
-/

namespace Kiac.Krunkit

open Prog

section Calls

variable {client : Client} {n : Str} {α : Type} {post : α → Prop} {state : NodeState}

theorem all_of_issues {m : Str} {program : Prog Op Op.Ans α}
    (issues : Issues (Op.Plain m) post program) :
    Triple tracking (AllTracked client) program (fun _ => AllTracked client) := by
  have phase : ∀ world, AllTracked client world → Phase client m True (fun _ _ => True) world :=
    fun _ all => all.phase fun _ _ _ _ => trivial
  exact (phase_of_issues issues).weaken phase fun _ _ holds => holds.1.all

theorem returns_lockStore_tracked :
    Returns tracking (AllTracked client) (must (ask .lockStore) .lock) (fun _ => AllTracked client)
      (AllTracked client) := by
  have lock : Op.lockStore.Plain [] := trivial
  exact all_of_plain (acts_must (acts_ask lock))

theorem tracked_after_readState {next : NodeState → Action α} {ok : World → Prop}
    (returns : ∀ state, OfNode n state → Returns tracking
      (Phase client n True (Identifies client state)) (next state) (fun _ => ok)
      (AllTracked client)) :
    Returns tracking (AllTracked client) (readState n >>= next) (fun _ => ok)
      (AllTracked client) := by
  refine returns_readState_phase.bind fun state => ?_
  rintro world ⟨phase, ofNode⟩
  exact returns state ofNode world phase

theorem returns_start_tracked (name : Str) :
    Returns tracking (AllTracked client) (start client name) (fun _ => AllTracked client)
      (AllTracked client) := by
  refine returns_lockStore_tracked.bind fun _ => tracked_after_readState ?_
  intro state ofNode
  exact (returns_startState ofNode fun _ _ => id).weaken (fun _ => id)
    (fun _ _ => id) fun _ phase => phase.all

theorem returns_stopLocked (name : Str) :
    Returns tracking (AllTracked client) (stopLocked client name)
      (fun _ => Phase client name True fun _ _ => False) (AllTracked client) :=
  tracked_after_readState fun _ ofNode => returns_halt ofNode

theorem returns_describe_tracked (ofNode : OfNode n state) :
    Returns tracking (Phase client n True (Identifies client state)) (describe client state)
      (fun _ => AllTracked client) (AllTracked client) := by
  refine (Returns.lift (triple_processOwned ofNode fun _ _ => id)).bind
    fun result => ?_
  rcases result with ⟨owned, found⟩
  rintro world ⟨phase, kept⟩
  refine Returns.bind (Returns.weaken (phase_of_plain (m := n) (plain_of_own (acts_listAddress owned found)))
    (fun _ => id) (fun _ _ => id) fun _ phase => phase.all) (fun ip => ?_) world
    phase
  have identifies : ∀ pid proc, Found client (Identifies client state) (owned, found) pid proc →
      Identifies client (listed found owned ip) pid proc := by
    rintro pid proc ⟨_, identified, isOwned⟩
    rw [show owned = true from isOwned]
    exact identified
  have written := (returns_writeState_phase ((kept.agrees.listed owned ip).ofNode kept) identifies).weaken
    (fun _ => id) (fun _ _ phase => phase.all) fun _ phase => phase.all
  have refreshed : Returns tracking
      (Phase client n True (Found client (Identifies client state) (owned, found)))
      (refresh state found owned ip) (fun _ => AllTracked client) (AllTracked client) := by
    unfold refresh onlyIf
    split
    · exact returns_attempt written
    · exact Returns.pure fun _ phase => phase.all
  exact refreshed.bind fun _ => Returns.pure fun _ => id

theorem returns_listNodes_tracked (start : Str) (names : List Str) :
    Returns tracking (AllTracked client) (listNodes client start names)
      (fun _ => AllTracked client) (AllTracked client) := by
  induction names with
  | nil => exact Returns.pure fun _ => id
  | cons name names ih =>
    unfold listNodes
    split
    · refine (tracked_after_readState fun _ ofNode =>
        returns_describe_tracked ofNode).bind fun _ => ?_
      exact ih.bind fun _ => Returns.pure fun _ => id
    · exact ih

theorem returns_list_tracked (start : Str) :
    Returns tracking (AllTracked client) (list client start) (fun _ => AllTracked client)
      (AllTracked client) := by
  have read : Op.readNodes.Plain [] := trivial
  refine returns_lockStore_tracked.bind fun _ => ?_
  refine (all_of_plain (acts_ask read)).bind fun names => ?_
  exact (returns_listNodes_tracked start names).bind fun _ => Returns.pure fun _ => id

theorem triple_owns_tracked (valid : validVMName n) :
    Triple tracking (AllTracked client) (owns n)
      (fun owned => Phase client n True fun _ _ => owned) := by
  have plain : (Op.readFile (.node n) stateFile).Plain n := trivial
  have read : Triple tracking (AllTracked client)
      (Prog.perform (Op.readFile (.node n) stateFile))
      (fun found => Phase client n True fun _ _ => found.isSome = true) := by
    refine Triple.perform (fun _ all => guard_of_plain plain fun name => (all name).single) ?_
    intro world choice all _
    have before : Phase client n True (fun _ _ => True) world := all.phase fun _ _ _ _ => trivial
    have after : AllTracked client (step (.readFile (.node n) stateFile) choice world).1 :=
      (before.step_of_plain plain).all
    refine after.phase ?_
    rcases after n with idle | ⟨state, stored, _⟩
    · exact idle.hypervisors
    · have found := readFile_slot.mpr stored
      intro _ _ _ _
      exact congrArg Option.isSome found
  unfold owns
  rw [if_pos valid]
  exact read.bind fun _ => Triple.done fun _ => id

theorem returns_createNode_tracked {opts : RunOpts} (resources : Resources) (network : Network)
    (valid : validVMName opts.name) :
    Returns tracking (Phase client opts.name True fun _ _ => False)
      (createNode client opts resources network) (fun _ => AllTracked client)
      (Phase client opts.name True fun _ _ => False) := by
  have plain : ∀ {β : Type} {action : Action β}, Does (Op.Plain opts.name) action →
      Returns tracking (Phase client opts.name True fun _ _ => False) action
        (fun _ => Phase client opts.name True fun _ _ => False)
        (Phase client opts.name True fun _ _ => False) := phase_of_plain
  refine (plain (acts_must (acts_ask ⟨rfl, valid⟩))).bind fun _ => ?_
  refine (plain (acts_must (acts_ask trivial))).bind fun _ => ?_
  refine Returns.bind (plain (acts_ask trivial)) fun drawn => ?_
  refine (plain (acts_given drawn)).bind fun mac => ?_
  refine Returns.bind (plain (acts_ask trivial)) fun created => ?_
  refine (plain (plain_of_own (acts_cloneDisk valid))).bind fun _ => ?_
  refine (plain (plain_of_own (acts_createCloudInitISO _))).bind fun _ => ?_
  have ofNode : OfNode opts.name (newState client opts resources network mac created) := ⟨rfl, rfl⟩
  refine (returns_writeState_phase ofNode fun _ _ => False.elim).bind fun _ => ?_
  exact returns_startState ofNode fun _ _ => False.elim

theorem triple_cleanup_tracked (opts : RunOpts) :
    Triple tracking (Phase client opts.name True fun _ _ => False) (cleanup opts)
      (fun _ => AllTracked client) :=
  triple_removeAll_phase.bind fun _ => all_of_issues (issues_removeUnusedNetwork (n := []) _)

theorem returns_runDetached_tracked (opts : RunOpts) :
    Returns tracking (AllTracked client) (runDetached client opts) (fun _ => AllTracked client)
      (AllTracked client) := by
  have plain : ∀ {β : Type} {action : Action β}, Does (Op.Plain []) action →
      Returns tracking (AllTracked client) action (fun _ => AllTracked client)
        (AllTracked client) := all_of_plain
  have checked : ∀ {holds : Bool} {err : Err}, Does (Op.Plain []) (check holds err) :=
    acts_check.mono (fun _ => id) fun _ _ => trivial
  refine (returns_check fun _ => id).bind fun _ => ?_
  rintro world ⟨all, valid⟩
  have image : Does (Op.Plain []) (check (opts.image != []) (.needsImage opts.name)) :=
    checked
  refine (plain image).bind (fun _ => ?_) world all
  refine Returns.bind (plain (acts_ask trivial)) fun options => ?_
  refine (plain (acts_given options)).bind fun resources => ?_
  refine (plain (acts_onlyIf (acts_must (acts_ask trivial)))).bind fun _ => ?_
  refine returns_lockStore_tracked.bind fun _ => ?_
  refine (Returns.lift (triple_owns_tracked valid)).bind fun owned => ?_
  refine (returns_check fun _ phase => phase.all).bind fun _ => ?_
  rintro world ⟨phase, isFree⟩
  have idle : Phase client opts.name True (fun _ _ => False) world :=
    phase.mono fun _ _ isOwned => by simp [isOwned] at isFree
  refine Returns.bind (Returns.weaken (phase_of_plain (m := []) (acts_ensureNetwork _))
    (fun _ => id) (fun _ _ => id) fun _ phase => phase.all) (fun network => ?_)
    world idle
  exact Returns.onError (returns_createNode_tracked resources network valid)
    (triple_cleanup_tracked opts)

theorem returns_removeOwned_tracked (name : Str) :
    Returns tracking (AllTracked client) (removeOwned client name) (fun _ => AllTracked client)
      (AllTracked client) := by
  have plain : ∀ {β : Type} {action : Action β}, Does (Op.Plain []) action →
      Returns tracking (AllTracked client) action (fun _ => AllTracked client)
        (AllTracked client) := all_of_plain
  refine (returns_readState_phase.weaken (fun _ => id)
    (fun _ _ holds => holds.1.all) fun _ => id).bind fun state => ?_
  refine (returns_stopLocked name).bind fun _ => ?_
  refine (Returns.lift triple_removeAll_phase).bind fun gone => ?_
  refine Returns.bind (plain (acts_ask trivial)) fun _ => ?_
  refine (plain (Acts.lift (issues_removeUnusedNetwork _))).bind fun _ => ?_
  exact (returns_check fun _ => id).weaken (fun _ => id)
    (fun _ _ holds => holds.1) fun _ => id

theorem triple_removeEach_tracked (names : List Str) :
    Triple tracking (AllTracked client) (removeEach client names) (fun _ => AllTracked client) := by
  induction names with
  | nil => exact Triple.done fun _ => id
  | cons name names ih =>
    refine Triple.bind (all_of_issues (plain_issues_of_own (issues_owns (n := []) name))) fun owned => ?_
    have one : Triple tracking (AllTracked client)
        (if owned then (removeOwned client name).run else Prog.done (.ok ()))
        (fun _ => AllTracked client) := by
      split
      · refine Triple.weaken (returns_removeOwned_tracked name) (fun _ => id) ?_
        intro result _ all
        cases result <;> exact all
      · exact Triple.done fun _ => id
    exact one.bind fun _ => ih.bind fun _ => Triple.done fun _ => id

theorem returns_call_tracked (call : Call) :
    Returns tracking (AllTracked client) (call.program client) (fun _ => AllTracked client)
      (AllTracked client) := by
  cases call with
  | runDetached opts => exact returns_runDetached_tracked opts
  | start name => exact returns_start_tracked name
  | stop name =>
    refine returns_lockStore_tracked.bind fun _ => ?_
    exact (returns_stopLocked name).weaken (fun _ => id) (fun _ _ phase => phase.all)
      fun _ => id
  | list start =>
    exact (returns_list_tracked start).bind fun _ => Returns.pure fun _ => id
  | remove names =>
    refine returns_lockStore_tracked.bind fun _ => ?_
    refine (triple_removeEach_tracked names).weaken (fun _ => id) ?_
    intro result _ all
    cases result <;> exact all

end Calls

/-- The states that calls leave when they return, if the environment is fair to them. At
first there is any store, and no hypervisor. -/
inductive Served (client : Client) (fair : Op → Choice → World → Prop) : World → Prop
  | idle {world : World} (idle : ∀ name, Idle name world) : Served client fair world
  | call {world : World} (call : Call) (choices : List Choice) (result : Except Err Unit)
      (served : Served client fair world)
      (isFair : (call.program client).run.FairRun machine fair choices world)
      (returned : ((call.program client).run.exec machine choices world).value = some result) :
      Served client fair ((call.program client).run.exec machine choices world).state

/-- In every step of every call, the record of a live hypervisor stays, and no VM gets a
second hypervisor. -/
def Tracks (client : Client) (fair : Op → Choice → World → Prop) : Prop :=
  ∀ world, Served client fair world → ∀ (call : Call) (choices : List Choice) (last : Choice),
    (call.program client).run.FairRun machine fair (choices ++ [last]) world →
    KeepsRecord ((call.program client).run.exec machine choices world).state
        ((call.program client).run.exec machine (choices ++ [last]) world).state ∧
      ∀ name, Single name ((call.program client).run.exec machine (choices ++ [last]) world).state

variable {client : Client} {world : World}

theorem allTracked_of_served (served : Served client Honest world) : AllTracked client world := by
  induction served with
  | idle idle => exact fun name => Or.inl (idle name)
  | call call choices result _ isFair returned ih =>
    have after := Triple.returned (returns_call_tracked call) ih isFair returned
    cases result with
    | ok _ => exact after
    | error _ => exact after

theorem single_of_fairRun {call : Call} {choices : List Choice} (all : AllTracked client world)
    (isFair : (call.program client).run.FairRun machine Honest choices world) (name : Str) :
    Single name ((call.program client).run.exec machine choices world).state := by
  cases value : ((call.program client).run.exec machine choices world).value with
  | none =>
    rcases Triple.interrupted (returns_call_tracked call) all isFair value with ⟨_, single, _⟩
    exact single name
  | some result =>
    have after := Triple.returned (returns_call_tracked call) all isFair value
    cases result with
    | ok _ => exact (after name).single
    | error _ => exact (after name).single

/-- With honest probes a hypervisor is recorded as long as it lives, and it is the only one
of its VM. -/
theorem tracks_of_honest (client : Client) : Tracks client Honest := by
  intro world served call choices last isFair
  have all := allTracked_of_served served
  refine ⟨?_, single_of_fairRun all isFair⟩
  rcases Prog.wp_last_step (returns_call_tracked call world all) isFair with
    same | ⟨op, ⟨_, keeps⟩, honest, stepped⟩
  · exact keepsRecord_of_stays fun name _ stored => same ▸ stored
  · exact stepped ▸ keeps last honest

theorem honest_calm (op : Op) (world : World) : Honest op calm world := by
  cases op with
  | kill0 pid | startTime pid | command pid => exact fun _ _ _ => rfl
  | terminate pid => rfl
  | _ => trivial

-- The last step of the creation of the sample VM, whose hypervisor is alive.
theorem creation_tracked :
    KeepsRecord (creation 47).state (creation 48).state ∧ Single gpuNode (creation 48).state ∧
      ¬ Idle gpuNode (creation 48).state := by
  have honest : (runDetached gpuClient gpuOpts).run.FairRun machine Honest
      (List.replicate 47 calm ++ [calm]) .empty := by
    refine fairRun_of_forall (fun choice mem op world => ?_) _ _
    rw [← List.replicate_succ'] at mem
    exact List.eq_of_mem_replicate mem ▸ honest_calm op world
  rcases tracks_of_honest gpuClient .empty (.idle fun _ _ _ => nofun) (.runDetached gpuOpts)
    (List.replicate 47 calm) calm honest with ⟨keeps, single⟩
  exact ⟨keeps, single gpuNode, fun idle => idle 1 _ rfl rfl⟩

def unanswered : Choice := { calm with works := false }

/-- A listing of the sample VM in which the first probe of its hypervisor fails. -/
def listing (steps : ℕ) : Outcome Op World Choice (Except Err Unit) :=
  ((Call.list []).program gpuClient).run.exec machine
    ((List.replicate 3 calm ++ unanswered :: List.replicate 5 calm).take steps)
    (creation 48).state

def restart : Outcome Op World Choice (Except Err Unit) :=
  (start gpuClient gpuNode).run.exec machine (List.replicate 20 { calm with number := 2 })
    (listing 9).state

/--
The sample VM runs with process 1. One failing probe makes `List` clear the process number,
and `Start` then launches process 2 for the same VM while process 1 is alive.
-/
theorem lost_hypervisor :
    ((listing 9).value = some (.ok ()) ∧ ¬ KeepsRecord (listing 7).state (listing 8).state) ∧
      (restart.value = some (.ok ()) ∧ ¬ Single gpuNode restart.state) ∧
      ¬ Tracks gpuClient fun _ _ _ => True := by
  have lost : ¬ KeepsRecord (listing 7).state (listing 8).state := by
    intro keeps
    rcases keeps gpuNode _ _ rfl rfl rfl rfl with ⟨state, stored, samePid⟩
    obtain ⟨rfl⟩ := Slot.stored.inj stored
    exact absurd samePid (by decide)
  have second : ¬ Single gpuNode restart.state := by
    rintro ⟨pid, only⟩
    have one := only 1 _ rfl rfl
    have two := only 2 _ rfl rfl
    omega
  refine ⟨⟨rfl, lost⟩, ⟨rfl, second⟩, ?_⟩
  intro tracks
  have fair : ∀ (call : Call) (choices : List Choice) (world : World),
      (call.program gpuClient).run.FairRun machine (fun _ _ _ => True) choices world :=
    fun _ _ world => fairRun_of_forall (fun _ _ _ _ => trivial) _ world
  have served : Served gpuClient (fun _ _ _ => True) (creation 48).state :=
    .call (.runDetached gpuOpts) (List.replicate 48 calm) (.ok ()) (.idle fun _ _ _ => nofun)
      (fair _ _ _) rfl
  exact lost (tracks _ served (.list []) (List.replicate 3 calm ++ unanswered ::
    List.replicate 3 calm) calm (fair _ _ _)).1

end Kiac.Krunkit
