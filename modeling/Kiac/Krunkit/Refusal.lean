import Kiac.Krunkit.Subnets

/-!
# When a network is refused

A new network is refused when every subnet is in use. The subnets in use are read from all files
of the directory, so a temporary file that could not be deleted takes one too. Where every
temporary file is deleted, only the recorded networks and the interfaces of the host do.
-/

namespace Kiac.Krunkit

open Prog

def Clean (networks : Files) : Prop :=
  ∀ file network, networks.lookup file = some (some (.network network)) →
    ∃ id, validKrunkitNetworkID id = true ∧ file = networkFile id

def CleanBut (temp : Str) (networks : Files) : Prop :=
  ∀ file network, networks.lookup file = some (some (.network network)) → file = temp ∨
    ∃ id, validKrunkitNetworkID id = true ∧ file = networkFile id

def Tidy (op : Op) (choice : Choice) (_ : World) : Prop :=
  ∀ suffix, op = .unlink .networks (tempFile suffix) → choice.works = true

section Files

variable {networks : Files} {file temp : Str} {content : Option Doc}

theorem Clean.but (clean : Clean networks) (temp : Str) : CleanBut temp networks :=
  fun file network found => Or.inr (clean file network found)

theorem CleanBut.insert (clean : CleanBut temp networks) :
    CleanBut temp (networks.insert temp content) := by
  intro file network found
  by_cases same : file = temp
  · exact Or.inl same
  · rw [AList.lookup_insert_ne same] at found
    exact clean file network found

theorem CleanBut.rename (clean : CleanBut temp networks) {id : Str}
    (valid : validKrunkitNetworkID id) :
    Clean ((networks.erase temp).insert (networkFile id) content) := by
  intro file network found
  by_cases same : file = networkFile id
  · exact ⟨id, valid, same⟩
  · rw [AList.lookup_insert_ne same] at found
    by_cases isTemp : file = temp
    · rw [isTemp, AList.lookup_erase] at found
      cases found
    · rw [AList.lookup_erase_ne isTemp] at found
      exact (clean file network found).resolve_left isTemp

theorem CleanBut.erase (clean : CleanBut temp networks) : Clean (networks.erase temp) := by
  intro file network found
  by_cases isTemp : file = temp
  · rw [isTemp, AList.lookup_erase] at found
    cases found
  · rw [AList.lookup_erase_ne isTemp] at found
    exact (clean file network found).resolve_left isTemp

theorem Clean.erase (clean : Clean networks) (other : Str) : Clean (networks.erase other) :=
  (clean.but other).erase

end Files

def tidying : Setting Op Op.Ans World Choice := ⟨machine, Tidy, fun _ _ => True⟩

section Writing

variable {world : World}

theorem clean_of_off {op : Op} (off : op.OffNetworks) (choice : Choice)
    (clean : Clean world.networks) : Clean (step op choice world).1.networks := by
  rw [step_networks_of_off off]
  exact clean

theorem clean_unlink {file : Str} (choice : Choice) (clean : Clean world.networks) :
    Clean (step (.unlink .networks file) choice world).1.networks := by
  simp only [step, effect, World.files]
  split
  · exact clean.erase file
  · exact clean

theorem returns_writeNetwork_clean {id : Str} {doc : Doc}
    (valid : validKrunkitNetworkID id) :
    Returns tidying (fun world => Clean world.networks)
      (writeJSONAtomic .networks (networkFile id) doc) (fun _ world => Clean world.networks)
      fun world => Clean world.networks := by
  refine returns_writeJSONAtomic (fun suffix world => CleanBut (tempFile suffix) world.networks)
    (fun _ world => Clean world.networks) ?_ ?_ ?_ ?_ ?_
  · refine Triple.perform (fun _ _ => trivial) fun world choice clean _ => ?_
    simp only [tidying, machine, step, effect, World.files]
    split
    · refine ⟨fun failed => absurd failed (Option.some_ne_none _), ?_⟩
      rintro suffix made
      obtain rfl := Option.some.inj made
      exact (clean.but _).insert
    · exact ⟨fun _ => clean, fun _ made => by cases made⟩
  · intro suffix
    refine Triple.perform (fun _ _ => trivial) fun world choice clean _ => ?_
    simp only [tidying, machine, step, effect, World.files]
    split
    · exact clean.insert
    · split
      · exact clean.insert
      · exact clean
  · intro suffix
    refine Triple.perform (fun _ _ => trivial) fun world choice clean _ => ?_
    simp only [tidying, machine, step, effect, World.files]
    split
    · exact clean.rename valid
    · exact clean
  · intro suffix
    refine Triple.perform (fun _ _ => trivial) fun world choice clean tidy => ?_
    simp only [tidying, machine, step, effect, World.files]
    have works := tidy suffix rfl
    split
    · exact clean.erase
    · rename_i absent
      rw [works, Bool.true_and, decide_eq_true_eq] at absent
      intro file network found
      refine (clean file network found).resolve_left fun isTemp => absent ?_
      rw [← isTemp, ← AList.lookup_isSome]
      exact Option.isSome_of_eq_some found
  · exact fun suffix => Triple.perform (fun _ _ => trivial) fun world choice clean _ =>
      clean_unlink choice clean

theorem returns_ensureNetwork_clean (id : Str) :
    Returns tidying (fun world => Clean world.networks) (ensureNetwork id)
      (fun _ world => Clean world.networks) fun world => Clean world.networks := by
  have quiet : ∀ {α : Type} {action : Action α} {post : α → Prop},
      Acts Op.OffNetworks post action → Returns tidying (fun world => Clean world.networks) action
        (fun _ world => Clean world.networks) fun world => Clean world.networks := by
    intro α action post acts
    refine (Acts.returns acts (fun _ _ _ _ => trivial) ?_).weaken (fun _ holds => holds)
      (fun _ _ holds => holds.1) fun _ holds => holds
    exact fun op choice world off _ clean => clean_of_off off choice clean
  refine (returns_check fun _ holds => holds).bind fun _ => Returns.assume fun valid => ?_
  refine (quiet (acts_must (acts_ask trivial))).bind fun _ => ?_
  refine Returns.bind (quiet (acts_ask trivial)) fun existing => ?_
  cases existing with
  | some content => exact quiet (acts_recordedNetwork id content)
  | none =>
    refine Returns.bind (quiet (acts_ask trivial)) fun interfaces => ?_
    refine Returns.bind (quiet (acts_ask trivial)) fun files => ?_
    have numbers := Acts.mono (acts_networkNumbers (n := []) files) (fun _ own => own.offNetworks)
        fun _ holds => holds
    refine (quiet numbers).bind fun recorded => ?_
    refine (quiet (acts_given _)).bind fun number => ?_
    exact (returns_writeNetwork_clean valid).bind fun _ =>
      Returns.pure fun _ holds => holds

theorem kept_clean : Kept Tidy (fun _ _ => True) (fun world => Clean world.networks)
    fun _ _ => True where
  guarded _ _ _ := trivial
  evolves _ _ clean := clean
  own _ _ choice _ own _ clean := clean_of_off own.offNetworks choice clean
  replaces _ _ choice _ replaces _ holds :=
    ⟨clean_of_off replaces.offNetworks choice holds.1, trivial⟩
  removes _ _ choice _ removes _ clean := clean_of_off removes.offNetworks choice clean
  linked _ _ _ _ _ _ := trivial
  ensures id := (returns_ensureNetwork_clean id).weaken (fun _ clean => clean)
    (fun _ _ clean => ⟨clean, fun _ _ _ => trivial⟩) fun _ clean => clean
  unused id := by
    have issues : Issues (fun op => op.OffNetworks ∨ ∃ file, op = .unlink .networks file)
        (fun _ => True) (removeUnusedNetwork id) := by
      unfold removeUnusedNetwork
      split
      · refine Issues.bind (Issues.perform (Or.inl trivial)) fun names _ => ?_
        refine Issues.bind (Issues.mono (issues_usesNetwork (n := []) id names)
          (fun _ own => Or.inl own.offNetworks) fun _ holds => holds) fun used _ => ?_
        split
        · trivial
        · exact Issues.bind (Issues.perform (Or.inr ⟨_, rfl⟩)) fun _ _ => trivial
      · trivial
    refine (Issues.triple issues (fun _ _ _ _ => trivial) ?_).weaken (fun _ clean => clean)
      fun _ _ holds => holds.1
    rintro op choice world (off | ⟨file, rfl⟩) _ clean
    · exact clean_of_off off choice clean
    · exact clean_unlink choice clean

end Writing

section Errors

variable {expected : Err → Prop}

theorem raises_ask (op : Op) : Raises expected (ask op) := Raises.lift _

variable {holds : Bool} {err : Err}

theorem raises_check (isExpected : expected err) :
    Raises expected (check holds err) := by
  unfold check
  split
  · exact Raises.pure
  · exact Raises.throw isExpected

theorem raises_must {action : Action Bool} (raises : Raises expected action)
    (isExpected : expected err) : Raises expected (must action err) :=
  raises.bind fun _ => raises_check isExpected

theorem raises_given {α : Type} (value : Option α) (isExpected : expected err) :
    Raises expected (given err value) := by
  cases value with
  | none => exact Raises.throw isExpected
  | some value => exact Raises.pure

theorem raises_onlyIf {action : Action Unit} (raises : Raises expected action) :
    Raises expected (onlyIf holds action) := by
  unfold onlyIf
  split
  · exact raises
  · exact Raises.pure

theorem raises_renameIf {written : Bool} {loc : Loc} {temp file : Str} {doc : Doc} :
    Raises expected (renameIf written loc temp file doc) := by
  unfold renameIf
  split
  · exact raises_ask _
  · exact Raises.pure

end Errors

def Err.Other (err : Err) : Prop := err ≠ .noFreeSubnet

section Creation

variable {client : Client} {state : NodeState}

theorem raises_writeJSONAtomic (loc : Loc) (file : Str) (doc : Doc) :
    Raises Err.Other (writeJSONAtomic loc file doc) := by
  refine (raises_ask _).bind fun created => ?_
  refine (raises_given created nofun).bind fun suffix => ?_
  refine (raises_ask _).bind fun written => raises_renameIf.bind fun renamed => ?_
  exact (raises_ask _).bind fun _ => raises_check nofun

theorem raises_writeState (state : NodeState) : Raises Err.Other (writeState state) := by
  refine (raises_check nofun).bind fun _ => ?_
  exact (raises_must (raises_ask _) nofun).bind fun _ => raises_writeJSONAtomic _ _ _

theorem raises_recordedNetwork (id : Str) (content : Option Doc) :
    Raises Err.Other (recordedNetwork id content) := by
  unfold recordedNetwork
  split
  · exact (raises_check nofun).bind fun _ => Raises.pure
  · exact Raises.throw nofun

theorem raises_loadNetwork (id : Str) : Raises Err.Other (loadNetwork id) := by
  refine (raises_check nofun).bind fun _ => (raises_ask _).bind fun existing => ?_
  exact (raises_given existing nofun).bind fun _ => raises_recordedNetwork _ _

theorem raises_prepareReport : Raises Err.Other (prepareReport client state) := by
  unfold prepareReport
  split
  · refine (raises_check nofun).bind fun _ => ?_
    refine (raises_must (raises_ask _) nofun).bind fun _ => ?_
    refine (raises_ask _).bind fun drawn => ?_
    refine (raises_given drawn nofun).bind fun generation => ?_
    exact (raises_must (raises_ask _) nofun).bind fun _ => Raises.pure
  · exact Raises.pure

theorem raises_record (pid : ℕ) : Raises Err.Other (record client state pid) := by
  apply Raises.onError
  refine (raises_ask _).bind fun started => ?_
  refine (raises_given started nofun).bind fun processStart => ?_
  refine (raises_ask _).bind fun found => ?_
  refine (raises_given found nofun).bind fun command => ?_
  exact (raises_writeState _).bind fun _ => raises_must (raises_ask _) nofun

theorem raises_launchState : Raises Err.Other (launchState client state) := by
  refine (raises_onlyIf (raises_must (raises_ask _) nofun)).bind fun _ => ?_
  refine (raises_ask _).bind fun foundRun => ?_
  refine (raises_given foundRun nofun).bind fun vmnetRun => ?_
  refine (raises_ask _).bind fun foundKrunkit => ?_
  refine (raises_given foundKrunkit nofun).bind fun krunkit => ?_
  refine (raises_loadNetwork _).bind fun network => ?_
  refine (raises_check nofun).bind fun _ => (raises_check nofun).bind fun _ => ?_
  refine (raises_check nofun).bind fun _ => (raises_check nofun).bind fun _ => ?_
  refine raises_prepareReport.bind fun prepared => ?_
  refine (raises_ask _).bind fun _ => (raises_ask _).bind fun _ => ?_
  refine (raises_must (raises_ask _) nofun).bind fun _ => ?_
  refine (raises_ask _).bind fun started => ?_
  exact (raises_given started nofun).bind fun pid => raises_record pid

theorem raises_startState : Raises Err.Other (startState client state) := by
  refine (Raises.lift _).bind fun result => ?_
  rcases result with ⟨owned, state⟩
  cases owned with
  | true => exact raises_writeState _
  | false => exact raises_launchState

theorem raises_cloneDisk (name : Str) : Raises Err.Other (cloneDisk name) := by
  refine (raises_must (raises_ask _) nofun).bind fun _ => ?_
  refine (raises_ask _).bind fun _ => (raises_ask _).bind fun cloned => ?_
  refine (raises_onlyIf ((raises_ask _).bind fun _ => ?_)).bind fun _ => ?_
  · exact raises_must (raises_ask _) nofun
  · exact raises_must (raises_ask _) nofun

theorem raises_createCloudInitISO (name : Str) : Raises Err.Other (createCloudInitISO name) := by
  refine (raises_must (raises_ask _) nofun).bind fun _ => ?_
  refine (raises_ask _).bind fun drawn => (raises_given drawn nofun).bind fun _ => ?_
  refine (raises_must (raises_ask _) nofun).bind fun _ => ?_
  refine (raises_ask _).bind fun found => (raises_given found nofun).bind fun _ => ?_
  exact (raises_ask _).bind fun _ => raises_must (raises_ask _) nofun

theorem raises_createNode (opts : RunOpts) (resources : Resources) (network : Network) :
    Raises Err.Other (createNode client opts resources network) := by
  refine (raises_must (raises_ask _) nofun).bind fun _ => ?_
  refine (raises_must (raises_ask _) nofun).bind fun _ => ?_
  refine (raises_ask _).bind fun drawn => ?_
  refine (raises_given drawn nofun).bind fun mac => ?_
  refine (raises_ask _).bind fun created => ?_
  refine (raises_cloneDisk _).bind fun _ => ?_
  refine (raises_createCloudInitISO _).bind fun _ => ?_
  exact (raises_writeState _).bind fun _ => raises_startState

end Creation

section Refusal

variable {interfaces : List ℕ} {networks : Files}

def Reports (interfaces : List ℕ) (op : Op) (choice : Choice) (_ : World) : Prop :=
  op = .interfaces → choice.numbers = interfaces

def Crowded (interfaces : List ℕ) (world : World) : Prop :=
  ∀ number, 105 ≤ number → number ≤ 249 → number ∈ interfaces ∨
    ∃ id, world.network id = some (some (.network (newNetwork id number)))

def refusal (interfaces : List ℕ) : Setting Op Op.Ans World Choice :=
  ⟨machine, Reports interfaces, fun _ _ => True⟩

def Refused (interfaces : List ℕ) (err : Err) (world : World) : Prop :=
  err = .noFreeSubnet → Crowded interfaces world

variable {α : Type} {action : Action α}

theorem exits_of_other {pre : World → Prop} (raises : Raises Err.Other action) :
    Exits (refusal interfaces) pre action (fun _ _ => True) (Refused interfaces) := by
  apply Triple.weaken (raises.exits fun _ _ => trivial) (fun _ => id)
  intro result world holds
  cases result with
  | ok value => trivial
  | error err => exact fun isRefusal => absurd isRefusal holds

theorem exits_quiet {post : α → Prop}
    (acts : Acts Op.OffNetworks post action) (raises : Raises Err.Other action) :
    Exits (refusal interfaces) (fun world => world.networks = networks) action
      (fun _ world => world.networks = networks) (Refused interfaces) := by
  have exits : Exits (refusal interfaces) (fun world => world.networks = networks) action
      (fun _ world => world.networks = networks) (fun err _ => err.Other) := by
    refine raises.exits_of_acts acts (fun _ _ _ _ => trivial) ?_
    rintro op choice world off _ rfl
    exact step_networks_of_off off
  apply Triple.weaken exits (fun _ => id)
  intro result world holds
  cases result with
  | ok value => exact holds
  | error err => exact fun isRefusal => absurd isRefusal holds

theorem crowded_of_chooseSubnet {id : Str} {files : List Str} {world : World}
    (consistent : world.Consistent) (clean : Clean world.networks)
    (refused : chooseSubnet id (interfaces ++ numbersOf world.networks files) = none) :
    Crowded interfaces world := by
  intro number above below
  rcases List.mem_append.mp (chooseSubnet_eq_none refused above below) with isInterface | inFile
  · exact Or.inl isInterface
  · rcases mem_numbersOf.mp inFile with ⟨file, _, network, found, isNumber⟩
    rcases clean file network found with ⟨other, valid, rfl⟩
    have recorded : world.network other = some (some (.network network)) := by
      rw [World.network, if_pos valid, found]
    rcases consistent.numbered other _ recorded with ⟨k, _, small, isNetwork⟩
    obtain rfl : network = newNetwork other k := by simpa using isNetwork
    rw [networkNumber_newNetwork other (by omega)] at isNumber
    obtain rfl : k = number := by simpa using isNumber
    exact Or.inr ⟨other, recorded⟩

theorem exits_ensureNetwork (id : Str) (crowded : ∀ world files, world.networks = networks →
      chooseSubnet id (interfaces ++ numbersOf networks files) = none → Crowded interfaces world) :
    Exits (refusal interfaces) (fun world => world.networks = networks) (ensureNetwork id)
      (fun _ _ => True) (Refused interfaces) := by
  refine Exits.bind (exits_quiet acts_check (raises_check nofun)) fun _ => ?_
  refine Exits.bind (exits_quiet (acts_must (acts_ask trivial))
    (raises_must (raises_ask _) nofun)) fun _ => ?_
  refine Exits.bind (exits_quiet (acts_ask trivial) (raises_ask _)) fun existing => ?_
  cases existing with
  | some content => exact exits_of_other (raises_recordedNetwork id content)
  | none =>
    have reported : Exits (refusal interfaces) (fun world => world.networks = networks)
        (ask .interfaces) (fun found world => world.networks = networks ∧ found = interfaces)
        (Refused interfaces) :=
      Exits.lift (Triple.perform (fun _ _ => trivial) fun world choice same reports =>
        ⟨same, reports rfl⟩)
    refine reported.bind fun found => Exits.assume fun isFound => ?_
    refine Exits.bind (exits_quiet (acts_ask trivial) (raises_ask _)) fun files => ?_
    have numbers : Exits (refusal interfaces) (fun world => world.networks = networks)
        (networkNumbers files) (fun recorded world => world.networks = networks ∧
          recorded = numbersOf networks files) (Refused interfaces) := by
      have returns : Returns (refusal interfaces) (fun world => True ∧ world.networks = networks)
          (networkNumbers files) (fun recorded world => (True ∧ world.networks = networks) ∧
            recorded = numbersOf networks files) (fun _ => False) :=
        returns_networkNumbers (fun _ _ _ => trivial) (fun _ _ _ => trivial) networks files
      apply Triple.weaken returns (fun _ same => ⟨trivial, same⟩)
      intro result world holds
      cases result with
      | ok value => exact ⟨holds.1.2, holds.2⟩
      | error err => exact holds.elim
    refine numbers.bind fun recorded => Exits.assume fun isRecorded => ?_
    subst isFound isRecorded
    cases chosen : chooseSubnet id (found ++ numbersOf networks files) with
    | none => exact Exits.throw fun world same _ => crowded world files same chosen
    | some number =>
      exact exits_of_other (Raises.pure.bind fun number =>
        (raises_writeJSONAtomic _ _ _).bind fun _ => Raises.pure)

theorem exits_runDetached {client : Client} (opts : RunOpts)
    (crowded : ∀ world files, world.networks = networks →
      chooseSubnet opts.networkID (interfaces ++ numbersOf networks files) = none →
        Crowded interfaces world) :
    Exits (refusal interfaces) (fun world => world.networks = networks) (runDetached client opts)
      (fun _ _ => True) (Refused interfaces) := by
  have other : ∀ {α : Type} {post : α → Prop} {action : Action α}, Acts (Op.Own []) post action →
      Acts Op.OffNetworks post action :=
    fun acts => acts.mono (fun _ own => own.offNetworks) fun _ => id
  refine Exits.bind (exits_quiet acts_check (raises_check nofun)) fun _ => ?_
  refine Exits.bind (exits_quiet acts_check (raises_check nofun)) fun _ => ?_
  refine Exits.bind (exits_quiet (acts_ask trivial) (raises_ask _)) fun checked => ?_
  refine Exits.bind (exits_quiet (acts_given checked) (raises_given checked nofun))
    fun resources => ?_
  refine Exits.bind (exits_quiet (acts_onlyIf (acts_must (acts_ask trivial)))
    (raises_onlyIf (raises_must (raises_ask _) nofun))) fun _ => ?_
  refine Exits.bind (exits_quiet (acts_must (acts_ask trivial))
    (raises_must (raises_ask _) nofun)) fun _ => ?_
  refine (exits_quiet (other (Acts.lift (issues_owns _))) (Raises.lift _)).bind
    fun owned => ?_
  refine Exits.bind (exits_quiet acts_check (raises_check nofun)) fun _ => ?_
  refine (exits_ensureNetwork _ crowded).bind fun network => ?_
  exact exits_of_other (Raises.onError (raises_createNode opts resources network))

end Refusal

/-- The stores that calls lead to if all of them return and the choices are fair. -/
inductive Completed (client : Client) (fair : Op → Choice → World → Prop) : World → Prop
  | empty : Completed client fair .empty
  | call {world : World} (call : Call) (choices : List Choice) (result : Except Err Unit)
      (completed : Completed client fair world)
      (isFair : (call.program client).run.FairRun machine fair choices world)
      (returned : ((call.program client).run.exec machine choices world).value = some result) :
      Completed client fair ((call.program client).run.exec machine choices world).state

variable {client : Client} {world : World}

theorem Completed.visited {fair : Op → Choice → World → Prop}
    (completed : Completed client fair world) : Visited client world := by
  induction completed with
  | empty => exact Visited.empty
  | call call choices result _ _ _ ih => exact Visited.call call choices ih

theorem Completed.clean (completed : Completed client Tidy world) : Clean world.networks := by
  induction completed with
  | empty => exact fun _ _ found => by cases found
  | call call choices result _ isFair returned ih =>
    have kept : Returns tidying (fun world => Clean world.networks) (call.program client)
        (fun _ world => Clean world.networks) fun world => Clean world.networks :=
      kept_clean.returns_call call
    have after := Triple.returned kept ih isFair returned
    cases result <;> exact after

structure Networked (world : World) : Prop where
  subnet : ∀ id content, world.network id = some content → ∃ network number,
    content = some (.network network) ∧ network.cidr = subnetText number ".0/24" ∧
      105 ≤ number ∧ number ≤ 249
  distinct : ∀ id other network network', id ≠ other →
    world.network id = some (some (.network network)) →
    world.network other = some (some (.network network')) → network.cidr ≠ network'.cidr
  linked : ∀ name content, world.slot name = .stored content → ∃ state network,
    content = some (.node state) ∧ world.network state.networkID = some (some (.network network)) ∧
      network.cidr = state.networkCIDR

theorem World.Consistent.networked (consistent : world.Consistent) : Networked world := by
  refine ⟨?_, ?_, ?_⟩
  · intro id content recorded
    rcases consistent.numbered id content recorded with ⟨number, above, below, rfl⟩
    exact ⟨_, number, rfl, rfl, above, below⟩
  · intro id other network network' differ isFirst isSecond same
    rcases consistent.numbered id _ isFirst with ⟨number, _, _, isNetwork⟩
    rcases consistent.numbered other _ isSecond with ⟨number', _, _, isNetwork'⟩
    obtain rfl : network = newNetwork id number := by simpa using isNetwork
    obtain rfl : network' = newNetwork other number' := by simpa using isNetwork'
    simp only [newNetwork, subnetText, List.append_assoc] at same
    obtain rfl : number = number' :=
      Str.formatNat_injective (List.append_cancel_right (List.append_cancel_left same))
    exact differ (consistent.distinct id other number isFirst isSecond)
  · intro name content stored
    rcases consistent.stored name content stored with ⟨state, rfl, _, _, network, recorded, same⟩
    exact ⟨state, network, rfl, recorded, same⟩

/-- The stores that calls lead to, killed or not, are in order. Where temporary files are deleted
and no call is killed, a network is refused only if no subnet is left. -/
theorem networks_in_order (client : Client) :
    (∀ world, Visited client world → Networked world) ∧
      ∀ world, Completed client Tidy world →
        ∀ (opts : RunOpts) (choices : List Choice) (interfaces : List ℕ),
          (runDetached client opts).run.FairRun machine (Reports interfaces) choices world →
          ((runDetached client opts).run.exec machine choices world).value =
            some (.error .noFreeSubnet) →
          Crowded interfaces ((runDetached client opts).run.exec machine choices world).state := by
  refine ⟨fun world visited => visited.consistent.networked, ?_⟩
  intro world completed opts choices interfaces reports refused
  have exits : Exits (refusal interfaces) (fun later => later.networks = world.networks)
      (runDetached client opts) (fun _ _ => True) (Refused interfaces) := by
    apply exits_runDetached opts
    intro later files same none
    have crowded := crowded_of_chooseSubnet completed.visited.consistent completed.clean none
    intro number above below
    simpa only [World.network, same] using crowded number above below
  exact Triple.returned exits rfl reports refused rfl

def connected (numbers : List ℕ) : Choice := { calm with numbers := numbers }

/-- A VM is created in an empty store; there, with every subnet in use, the creation is refused. -/
theorem networks_in_order_gpuClient :
    Networked (creation 40).state ∧
      Crowded (List.range' 105 145) ((runDetached gpuClient gpuOpts).run.exec machine
        (List.replicate 7 (connected (List.range' 105 145))) .empty).state := by
  refine ⟨(networks_in_order gpuClient).1 _ (.call (.runDetached gpuOpts) _ .empty), ?_⟩
  apply (networks_in_order gpuClient).2 _ .empty gpuOpts
  · apply fairRun_of_forall
    intro choice mem op state _
    rw [List.eq_of_mem_replicate mem]
    rfl
  · decide +kernel

def broken : Choice := { calm with works := false }

/-- The first creation fails when its network is to be recorded, and its temporary file stays. -/
def failedCreation : Outcome Op World Choice (Except Err Unit) :=
  (runDetached gpuClient gpuOpts).run.exec machine (List.replicate 9 calm ++ List.replicate 2 broken)
    .empty

def otherSubnets : List ℕ := (List.range' 105 145).erase 135

def refusedCreation : Outcome Op World Choice (Except Err Unit) :=
  (runDetached gpuClient gpuOpts).run.exec machine (List.replicate 8 (connected otherSubnets))
    failedCreation.state

/-- Both creations return, and the second is refused although a subnet is neither in use by an
interface nor recorded. -/
theorem leftover_refuses :
    Completed gpuClient (fun _ _ _ => True) failedCreation.state ∧
      (runDetached gpuClient gpuOpts).run.FairRun machine (Reports otherSubnets)
        (List.replicate 8 (connected otherSubnets)) failedCreation.state ∧
      refusedCreation.value = some (.error .noFreeSubnet) ∧
      ¬Crowded otherSubnets refusedCreation.state := by
  refine ⟨?_, ?_, ?_, ?_⟩
  · have returned : failedCreation.value = some (.error .io) := by decide +kernel
    exact .call (.runDetached gpuOpts) _ _ .empty (fairRun_of_forall (fun _ _ _ _ => trivial) _ _)
      returned
  · apply fairRun_of_forall
    intro choice mem op state _
    rw [List.eq_of_mem_replicate mem]
    rfl
  · decide +kernel
  · intro crowded
    have notInterface : 135 ∉ otherSubnets := by decide +kernel
    rcases (crowded 135 (by decide) (by decide)).resolve_left notInterface with ⟨id, recorded⟩
    have keys : refusedCreation.state.networks.keys = [tempFile (str "x")] := by decide +kernel
    unfold World.network at recorded
    split at recorded
    · rename_i valid
      have present : networkFile id ∈ refusedCreation.state.networks := by
        rw [← AList.lookup_isSome, recorded]
        rfl
      rw [AList.mem_keys, keys, List.mem_singleton] at present
      exact tempFile_ne_networkFile valid _ present.symm
    · cases recorded

end Kiac.Krunkit
