import Kiac.ExternalWorker.Ownership

/-!
# No worker is orphaned

A join records its worker before it creates the VM, and forgets it only when the VM is gone. So
every VM of a worker has its entry at every step of every call, and a deletion that was
interrupted can be finished.
-/

namespace Kiac.Worker

open Prog Step

variable {codec : Codec} {manager : Manager} {world : World} {state : ExternalWorkerState}

section Join

def Aborted (codec : Codec) (abort : Abort) (world : World) : Prop :=
  Safe codec world ∧ (abort.state.phase ≠ .joining → abort.state.phase ≠ .ready →
    Held codec abort.state world ∧
      (abort.created = false → world.vms abort.state.vmName = none))

variable {created : Bool} {name : Str}

theorem exits_during {α : Type} {setting : Setting Op Op.Ans World Choice}
    {pre failed : World → Prop} {ok : α → World → Prop} {aborted : Abort → World → Prop}
    {action : Action α} (returns : Returns setting pre action ok failed)
    (aborts : ∀ err world, failed world → aborted ⟨err, state, created⟩ world) :
    Exits setting pre (during state created action) ok aborted := by
  refine Triple.bind returns fun result => ?_
  cases result with
  | ok value => exact Triple.done fun _ => id
  | error err => exact Triple.done fun world holds => aborts err world holds

theorem aborted_of_safe {err : Err}
    (later : state.phase = .joining ∨ state.phase = .ready) (safe : Safe codec world) :
    Aborted codec ⟨err, state, created⟩ world := by
  refine ⟨safe, fun notJoining notReady => ?_⟩
  rcases later with joining | ready
  · exact absurd joining notJoining
  · exact absurd ready notReady

theorem returns_runDetached (p : Prepared) (image : Str) :
    Returns (ownership codec) (Bare codec state)
      (must (ask (.runDetached (runOpts p state image))) (.worker .creation))
      (fun _ => Held codec state) (Bare codec state) := by
  have created : Returns (ownership codec) (Bare codec state)
      (ask (.runDetached (runOpts p state image)))
      (fun works world => if works then Held codec state world else Bare codec state world)
      (Bare codec state) := by
    refine Returns.lift (Triple.perform (fun _ bare => bare.1.1) fun world choice bare _ => ?_)
    rcases stable_bare _ _ (same_evolve world choice) bare with ⟨⟨safe, isEntry⟩, none⟩
    simp only [ownership, machine, step, effect]
    split
    · refine ⟨safe.created isEntry ?_, isEntry⟩
      simp [VM.ownedBy, RunOpts.vm, runOpts]
    · exact ⟨⟨safe, isEntry⟩, none⟩
  refine created.bind fun works => ?_
  cases works with
  | true => exact Returns.pure fun _ => id
  | false => exact Returns.throw fun _ => id

theorem acts_provisionWorker (p : Prepared) (state : ExternalWorkerState) :
    Does Op.Quiet (provisionWorker p state) := by
  refine (acts_must (acts_ask trivial)).bind fun _ _ => ?_
  refine (acts_ask trivial).bind fun found _ => (acts_given found).bind fun _ _ => ?_
  refine (acts_settle _).bind fun _ _ => ?_
  refine (acts_must (acts_ask trivial)).bind fun _ _ => ?_
  exact (acts_must (acts_ask trivial)).bind fun _ _ => acts_must (acts_ask trivial)

theorem exits_joinWorker (p : Prepared) (image : Str) :
    Exits (ownership manager.codec) (Bare manager.codec state) (joinWorker manager p image state)
      (fun _ => Safe manager.codec) (Aborted manager.codec) := by
  refine (exits_during (returns_runDetached p image) ?_).bind fun _ => ?_
  · exact fun err world bare => ⟨bare.1.1, fun _ _ => ⟨bare.1, fun _ => bare.2⟩⟩
  refine (exits_during (returns_quiet stable_held (fun _ held => held.1)
    (acts_provisionWorker p state)) ?_).bind fun _ => Exits.assume fun _ => ?_
  · exact fun err world held => ⟨held.1, fun _ _ => ⟨held, Bool.noConfusion⟩⟩
  have joined : Returns (ownership manager.codec) (Held manager.codec state)
      (write manager { state with phase := .joining } >>= fun _ =>
        startExternalWorkerAgent { state with phase := .joining })
      (fun _ world => Held manager.codec { state with phase := .joining } world ∧ True)
      (Safe manager.codec) := by
    refine (returns_revise ⟨state.nodeUID, .joining, rfl, fun _ => rfl⟩).bind fun _ => ?_
    exact returns_quiet_safe stable_held (fun _ held => held.1) (acts_must (acts_ask trivial))
  refine (exits_during joined fun err world safe =>
    aborted_of_safe (Or.inl rfl) safe).bind fun _ => Exits.assume fun _ => ?_
  refine (exits_during (returns_quiet_safe stable_held (fun _ held => held.1)
    (acts_wait _ _)) fun err world safe => aborted_of_safe (Or.inl rfl) safe).bind
    fun observation => Exits.assume fun keeps => ?_
  refine (exits_during (returns_revise ⟨observation.uid, .ready, rfl, keeps.2⟩)
    fun err world safe => aborted_of_safe (Or.inr rfl) safe).bind fun _ => ?_
  exact Exits.pure fun _ held => held.1

theorem triple_cleanup (abort : Abort) :
    Triple (ownership codec) (Aborted codec abort) (cleanup abort) fun _ => Safe codec := by
  unfold cleanup
  split
  · exact Triple.done fun _ aborted => aborted.1
  · rename_i early
    push Not at early
    have forget : ∀ err : Err, Triple (ownership codec) (Bare codec abort.state)
        (perform (Op.removeFile abort.state.name) >>= fun _ => done err) fun _ => Safe codec :=
      fun err => triple_removeFile.bind fun _ => Triple.done fun _ => id
    split
    · refine (Triple.bind exits_owned fun result => ?_).weaken
        (fun _ aborted => (aborted.2 early.1 early.2).1) fun _ _ => id
      cases result with
      | error err => exact Triple.done fun _ holds => holds.1.1
      | ok _ =>
        refine triple_remove.bind fun removed => ?_
        cases removed with
        | true => exact forget abort.err
        | false => exact Triple.done fun _ => id
    · rename_i notCreated
      rw [Bool.not_eq_true] at notCreated
      refine (forget abort.err).weaken (fun _ aborted => ?_) fun _ _ => id
      rcases aborted.2 early.1 early.2 with ⟨held, none⟩
      exact ⟨held, none notCreated⟩

def Vacant (codec : Codec) (name : Str) (world : World) : Prop :=
  Safe codec world ∧ world.inventory name = none

theorem stable_vacant : Stable (Vacant codec name) :=
  fun _ _ same vacant => ⟨vacant.1.same same, by rw [same.inventory]; exact vacant.2⟩

def Drawn (codec : Codec) (name owner : Str) (world : World) : Prop :=
  Vacant codec name world ∧ owner ∈ world.drawn ∧
    (∀ state ∈ world.recorded, state.ownerID ≠ owner) ∧
    ∀ other state, world.inventory other = some state → state.ownerID ≠ owner

theorem stable_drawn {owner : Str} : Stable (Drawn codec name owner) := by
  rintro world after same ⟨vacant, drawn, unused, free⟩
  refine ⟨stable_vacant _ _ same vacant, ?_, ?_, ?_⟩
  · rw [same.drawn]
    exact drawn
  · rw [same.recorded]
    exact unused
  · rw [same.inventory]
    exact free

theorem returns_random :
    Returns (ownership codec) (Vacant codec name) (ask .random)
      (fun drawn world => Safe codec world ∧
        ∀ id, drawn = some id → Drawn codec name (ownerText id) world) (Safe codec) := by
  refine Returns.lift (Triple.perform (fun _ vacant => vacant.1) fun world choice vacant assumed => ?_)
  rcases stable_vacant _ _ (same_evolve world choice) vacant with ⟨safe, absent⟩
  simp only [ownership, machine, step, effect]
  split
  · refine ⟨safe.drew choice.bytes, ?_⟩
    rintro id ⟨⟩
    have new := assumed.1 rfl
    refine ⟨⟨safe.drew choice.bytes, absent⟩, List.mem_cons_self, ?_, ?_⟩
    · exact fun state mem same => new (same ▸ vacant.1.recorded state mem)
    · exact fun other state isEntry same => new (same ▸ (vacant.1.entry other state isEntry).owner)
  · exact ⟨safe, fun id absurd => by cases absurd⟩

theorem returns_firstWrite {p : Prepared} (id : OwnerBytes) (now : ℕ) :
    Returns (ownership manager.codec) (Drawn manager.codec p.config.name (ownerText id))
      (write manager (newExternalWorkerState p id now))
      (fun _ => Bare manager.codec (newExternalWorkerState p id now)) (Safe manager.codec) := by
  refine returns_write stable_drawn (fun _ holds => holds.1.1) stable_bare (fun _ bare => bare.1.1) ?_
  rintro world ⟨⟨safe, absent⟩, drawn, unused, free⟩ readable
  have missing : world.vms (externalVMName p.config.name (ownerText id)) = none :=
    safe.vms_eq_none (by rw [length_ownerText]; decide) absent
  refine ⟨⟨safe.renamed ⟨rfl, rfl, rfl, drawn, readable⟩ ?_ ?_ ?_, Function.update_self _ _ _⟩,
    missing⟩
  · exact fun earlier mem sameOwner => absurd sameOwner (unused earlier mem)
  · exact fun name other isEntry sameOwner => absurd sameOwner (free name other isEntry)
  · intro other isEntry
    exact absurd (absent.symm.trans isEntry) nofun

theorem returns_join (cfg : ExternalWorkerConfig) :
    Returns (ownership manager.codec) (Safe manager.codec) (join manager cfg)
      (fun _ => Safe manager.codec) (Safe manager.codec) := by
  have quiet : ∀ {α : Type} {post : α → Prop} {action : Action α}, Acts Op.Quiet post action →
      Returns (ownership manager.codec) (Safe manager.codec) action
        (fun value world => Safe manager.codec world ∧ post value) (Safe manager.codec) :=
    fun acts => returns_quiet stable_safe (fun _ safe => safe) acts
  have vacant : ∀ {α : Type} {post : α → Prop} {action : Action α}, Acts Op.Quiet post action →
      Returns (ownership manager.codec) (Vacant manager.codec cfg.name) action
        (fun _ => Vacant manager.codec cfg.name) (Safe manager.codec) := by
    intro α post action acts
    exact (returns_quiet_safe stable_vacant (fun _ holds => holds.1) acts).weaken
      (fun _ holds => holds) (fun _ _ holds => holds.1) fun _ holds => holds
  refine Returns.bind (quiet (acts_ask trivial)) fun files => Returns.assume fun _ => ?_
  refine (quiet (acts_settle _)).bind fun p => Returns.assume fun prepared => ?_
  refine (quiet (acts_must (acts_ask trivial))).bind fun _ => Returns.assume fun _ => ?_
  refine (quiet (acts_must (acts_ask trivial))).bind fun _ => Returns.assume fun _ => ?_
  have looked : Returns (ownership manager.codec) (Safe manager.codec)
      (must (ask (.absent cfg.name)) (.exists cfg.name)) (fun _ => Vacant manager.codec cfg.name)
      (Safe manager.codec) := by
    have asked : Triple (ownership manager.codec) (Safe manager.codec)
        (perform (Op.absent cfg.name)) fun isAbsent world =>
          Safe manager.codec world ∧ (isAbsent = true → world.inventory cfg.name = none) := by
      refine Triple.perform (fun _ safe => safe) fun world choice safe _ => ?_
      refine ⟨safe.same (same_evolve world choice), fun isAbsent => ?_⟩
      simp only [ownership, machine, step, effect, Bool.and_eq_true, Option.isNone_iff_eq_none]
        at isAbsent
      exact isAbsent.2
    refine (Returns.lift asked).bind fun isAbsent => ?_
    exact (returns_check fun _ holds => holds.1).weaken (fun _ holds => holds)
      (fun _ _ holds => ⟨holds.1.1, holds.1.2 holds.2⟩) fun _ safe => safe
  refine looked.bind fun _ => ?_
  refine (vacant (acts_must (acts_ask trivial))).bind fun _ => ?_
  refine Returns.bind (vacant (acts_ask trivial)) fun found => ?_
  refine (vacant (acts_given found)).bind fun image => ?_
  refine (vacant (acts_must (acts_ask trivial))).bind fun _ => ?_
  refine returns_random.bind fun drawn => ?_
  have named := (accepted_of_prepare (mapError_eq_ok.mp prepared)).name
  refine (returns_given drawn fun _ holds => holds.1).bind fun id => ?_
  have told : Returns (ownership manager.codec)
      (fun world => (Safe manager.codec world ∧
        ∀ id, drawn = some id → Drawn manager.codec cfg.name (ownerText id) world) ∧
        drawn = some id) (ask .now)
      (fun _ world => Drawn manager.codec cfg.name (ownerText id) world ∧ True)
      (Safe manager.codec) := by
    refine Returns.weaken (returns_quiet_safe stable_drawn (fun _ holds => holds.1.1)
      (acts_ask trivial)) (fun _ holds => holds.1.2 id holds.2) (fun _ _ holds => holds)
      fun _ safe => safe
  refine told.bind fun now => Returns.assume fun _ => ?_
  rw [← named]
  refine (returns_firstWrite id now).bind fun _ => ?_
  refine Triple.bind (exits_joinWorker p image) fun result => ?_
  cases result with
  | ok ready => exact Triple.done fun _ safe => safe
  | error abort => exact (triple_cleanup abort).bind fun _ => Triple.done fun _ safe => safe

end Join

theorem returns_call (call : Call) :
    Returns (ownership manager.codec) (Safe manager.codec) (call.program manager)
      (fun _ => Safe manager.codec) (Safe manager.codec) := by
  cases call with
  | join cfg => exact (returns_join cfg).bind fun _ => Returns.pure fun _ => id
  | start name timeout => exact returns_start timeout
  | stop name => exact returns_stop
  | delete name => exact returns_delete

structure Initial (world : World) : Prop where
  inventory : ∀ name, world.inventory name = none
  vms : ∀ vm, isWorkerVM vm = true → world.vms vm = none
  drawn : world.drawn = []
  recorded : world.recorded = []

theorem Initial.safe (initial : Initial world) : Safe codec world := by
  refine ⟨?_, ?_, ?_, ?_, ?_, ?_, ?_⟩
  · intro name state isEntry
    exact absurd ((initial.inventory name).symm.trans isEntry) nofun
  · intro name name' state state' isEntry
    exact absurd ((initial.inventory name).symm.trans isEntry) nofun
  · intro vm found isWorker isFound
    exact absurd ((initial.vms vm isWorker).symm.trans isFound) nofun
  · simp [initial.drawn]
  · simp [initial.recorded]
  · simp [initial.recorded]
  · simp [initial.recorded]

/-- The worlds that calls lead to, each of which returns or is killed at one of its steps. -/
inductive Visited (manager : Manager) : World → Prop
  | initial {world : World} (initial : Initial world) : Visited manager world
  | call {world : World} (call : Call) (choices : List Choice) (visited : Visited manager world)
      (assumed : (call.program manager).run.FairRun machine (Assumed manager.codec) choices world) :
      Visited manager ((call.program manager).run.exec machine choices world).state

theorem Visited.safe (visited : Visited manager world) : Safe manager.codec world := by
  induction visited with
  | initial initial => exact initial.safe
  | @call world call choices _ assumed ih =>
    have kept : Returns (ownership manager.codec) (Safe manager.codec) (call.program manager)
        (fun _ => Safe manager.codec) (Safe manager.codec) := returns_call call
    cases returned : ((call.program manager).run.exec machine choices world).value with
    | none =>
      rcases Triple.interrupted kept ih assumed returned with ⟨_, safe⟩
      exact safe
    | some result =>
      have after := Triple.returned kept ih assumed returned
      cases result <;> exact after

section Delete

def faultless : Setting Op Op.Ans World Choice :=
  ⟨machine, fun _ choice _ => choice.works = true, fun _ _ => True⟩

variable {name : Str}

theorem Held.ownedBy (held : Held codec state world) {vm : VM}
    (isFound : world.vms state.vmName = some vm) : vm.ownedBy state := by
  rcases held.1.owned _ vm held.isWorkerVM isFound with ⟨other, entry, isEntry, sameVM, isOwned⟩
  have entryOf := held.1.entry other entry isEntry
  have stateOf := held.1.entry _ state held.2
  have long := held.1.long _ entryOf.owner
  have longState := held.1.long _ stateOf.owner
  have sameVMs : externalVMName other entry.ownerID = externalVMName state.name state.ownerID := by
    rw [← entryOf.vm, sameVM, stateOf.vm]
  have sameName := externalVMName_inj (by omega) (by omega) sameVMs
  rw [sameName, held.2] at isEntry
  obtain rfl := Option.some.inj isEntry
  exact isOwned

theorem exits_owned_faultless :
    Exits faultless (Held codec state) (owned state) (fun _ => Held codec state)
      fun err world => err = .vmMissing ∧ Bare codec state world := by
  have looked : Exits faultless (Held codec state) (ask (.vmState state.vmName))
      (fun found world => Held codec state world ∧
        ((found = .missing ∧ world.vms state.vmName = none) ∨
          ∃ vm, found = .found vm ∧ vm.ownedBy state = true))
      (fun err world => err = .vmMissing ∧ Bare codec state world) := by
    refine Exits.lift (Triple.perform (fun _ _ => trivial) fun world choice held works => ?_)
    have after := stable_held _ _ (same_evolve world choice) held
    refine ⟨after, ?_⟩
    have isTrue : choice.works := works
    simp only [faultless, machine, step, effect, isTrue, if_true]
    cases isFound : (world.evolve choice).vms state.vmName with
    | none => exact Or.inl ⟨rfl, rfl⟩
    | some vm => exact Or.inr ⟨vm, rfl, after.ownedBy isFound⟩
  refine looked.bind fun found => ?_
  rintro world ⟨held, ⟨rfl, none⟩ | ⟨vm, rfl, isOwned⟩⟩
  · exact ⟨rfl, held, none⟩
  · change Prog.wp _ _ _ (check (vm.ownedBy state) Err.notOwned).run _ world
    rw [isOwned]
    exact held

theorem returns_removeOwned_faultless :
    Returns faultless (Held codec state) (removeOwned state) (fun _ => Bare codec state)
      fun _ => False := by
  refine Triple.bind exits_owned_faultless fun result => ?_
  cases result with
  | error err =>
    rintro world ⟨rfl, bare⟩
    exact bare
  | ok _ =>
    have removed : Triple faultless (Held codec state) (perform (Op.remove state.vmName))
        fun isRemoved world => Bare codec state world ∧ isRemoved = true := by
      refine Triple.perform (fun _ _ => trivial) fun world choice held works => ?_
      rcases stable_held _ _ (same_evolve world choice) held with ⟨safe, isEntry⟩
      have isTrue : choice.works := works
      simp only [faultless, machine, step, effect, isTrue, if_true]
      exact ⟨⟨⟨safe.deleted _, isEntry⟩, Function.update_self _ _ _⟩, trivial⟩
    have removes : Returns faultless (Held codec state)
        (must (ask (.remove state.vmName)) (.worker .deletion)) (fun _ => Bare codec state)
        fun _ => False := by
      refine (Returns.lift removed).bind fun isRemoved => Returns.assume fun isTrue => ?_
      subst isTrue
      exact Returns.pure fun _ => id
    exact removes

theorem returns_lock_faultless {pre failed : World → Prop} (stable : Stable pre) :
    Returns faultless pre (must (ask .lock) .lock) (fun _ => pre) failed := by
  have locked : Triple faultless pre (perform Op.lock) fun isLocked world =>
      pre world ∧ isLocked = true :=
    Triple.perform (fun _ _ => trivial) fun world choice holds works =>
      ⟨stable _ _ (same_evolve world choice) holds, works⟩
  refine (Returns.lift locked).bind fun isLocked => Returns.assume fun isTrue => ?_
  subst isTrue
  exact Returns.pure fun _ => id

theorem validWorkerName_of_readBack {other : ExternalWorkerState}
    (readable : codec.readBack name state = .ok other) : validWorkerName name := by
  unfold Codec.readBack Codec.readFile at readable
  split at readable
  · cases readable
  · split at readable
    · cases readable
    · rename_i valid
      simpa using valid

theorem returns_delete_faultless :
    Returns faultless (Held manager.codec state) (delete manager state.name)
      (fun _ => Vacant manager.codec state.name) fun _ => False := by
  refine (returns_lock_faultless stable_held).bind fun _ => ?_
  have readBack : Returns faultless (Held manager.codec state) (read manager state.name)
      (fun found world => Held manager.codec state world ∧ found = state) fun _ => False := by
    have looked : Triple faultless (Held manager.codec state) (perform (Op.readFile state.name))
        fun found world => Held manager.codec state world ∧ found = some state := by
      refine Triple.perform (fun _ _ => trivial) fun world choice held works => ?_
      have isTrue : choice.works := works
      simp only [faultless, machine, step, effect, isTrue, if_true]
      exact ⟨stable_held _ _ (same_evolve world choice) held, held.2⟩
    intro world held
    have readable := (held.1.entry _ _ held.2).readable
    have valid := validWorkerName_of_readBack readable
    have returns : Returns faultless (Held manager.codec state) (read manager state.name)
        (fun found world => Held manager.codec state world ∧ found = state) fun _ => False := by
      rw [read, valid]
      change Returns _ _ (ask (.readFile state.name) >>= fun found =>
        given (.inventory .missing) found >>= fun content =>
          settle ((manager.codec.readBack state.name content).mapError .inventory)) _ _
      refine (Returns.lift looked).bind fun found => Returns.assume fun isState => ?_
      subst isState
      change Returns _ _ (settle ((manager.codec.readBack state.name state).mapError Err.inventory)) _ _
      rw [readable]
      exact Returns.pure fun _ after => ⟨after, rfl⟩
    exact returns world held
  refine readBack.bind fun found => Returns.assume fun isState => ?_
  subst isState
  refine returns_removeOwned_faultless.bind fun _ => ?_
  have removed : Triple faultless (Bare manager.codec found) (perform (Op.removeFile found.name))
      fun isRemoved world => Vacant manager.codec found.name world ∧ isRemoved = true := by
    refine Triple.perform (fun _ _ => trivial) fun world choice bare works => ?_
    rcases stable_bare _ _ (same_evolve world choice) bare with ⟨⟨safe, isEntry⟩, none⟩
    have isTrue : choice.works := works
    simp only [faultless, machine, step, effect, isTrue, if_true]
    refine ⟨⟨safe.removed ?_, Function.update_self _ _ _⟩, ?_⟩
    · intro other isOther
      obtain rfl : other = found := Option.some.inj (isOther.symm.trans isEntry)
      exact none
    · rw [isEntry]
      rfl
  refine (Returns.lift removed).bind fun isRemoved => Returns.assume fun isTrue => ?_
  subst isTrue
  exact Returns.pure fun _ => id

theorem returns_delete_vacant :
    Returns faultless (Vacant manager.codec name) (delete manager name)
      (fun _ => Vacant manager.codec name) (Vacant manager.codec name) := by
  refine (returns_lock_faultless stable_vacant).bind fun _ => ?_
  have unread : Returns faultless (Vacant manager.codec name) (read manager name)
      (fun _ _ => False) (Vacant manager.codec name) := by
    have looked : Triple faultless (Vacant manager.codec name) (perform (Op.readFile name))
        fun found world => Vacant manager.codec name world ∧ found = none := by
      refine Triple.perform (fun _ _ => trivial) fun world choice vacant works => ?_
      have isTrue : choice.works := works
      simp only [faultless, machine, step, effect, isTrue, if_true]
      exact ⟨stable_vacant _ _ (same_evolve world choice) vacant, vacant.2⟩
    refine (returns_check fun _ => id).bind fun _ => Returns.assume fun _ => ?_
    refine (Returns.lift looked).bind fun found => Returns.assume fun isNone => ?_
    subst isNone
    exact Returns.throw fun _ => id
  exact unread.bind fun _ _ impossible => impossible.elim

/-- A deletion in which nothing fails leaves neither an entry nor a VM, and fails only if there
was no entry. -/
theorem triple_delete_faultless (manager : Manager) (name : Str)
    (found : Option ExternalWorkerState) :
    Triple faultless (fun world => Safe manager.codec world ∧ world.inventory name = found)
      (delete manager name).run
      fun result world => Vacant manager.codec name world ∧ (found ≠ none → result = .ok ()) := by
  cases found with
  | none =>
    have deleted : Returns faultless (Vacant manager.codec name) (delete manager name)
      (fun _ => Vacant manager.codec name) (Vacant manager.codec name) := returns_delete_vacant
    refine Triple.weaken deleted (fun _ => id)
      fun result world holds => ⟨?_, fun absurd => (absurd rfl).elim⟩
    cases result <;> exact holds
  | some state =>
    rintro world ⟨safe, isEntry⟩
    have named := (safe.entry name state isEntry).named
    subst named
    have deleted : Returns faultless (Held manager.codec state) (delete manager state.name)
      (fun _ => Vacant manager.codec state.name) fun _ => False := returns_delete_faultless
    refine Triple.weaken deleted (fun _ => id) ?_ world ⟨safe, isEntry⟩
    intro result after holds
    cases result with
    | error err => exact holds.elim
    | ok _ => exact ⟨holds, fun _ => rfl⟩

end Delete

/-- Every VM of a worker has its entry, with the owner whose network it is in; a recorded node
stays the same; and a deletion that was interrupted is finished by one in which nothing fails. -/
theorem workers_owned (manager : Manager) (world : World) (visited : Visited manager world) :
    (∀ vm found, isWorkerVM vm = true → world.vms vm = some found →
      ∃ name entry, world.inventory name = some entry ∧ entry.vmName = vm ∧
        found.networkID = externalNetworkID entry.ownerID) ∧
    world.recorded.Pairwise Keeps ∧
    ∀ (name : Str) (choices : List Choice),
      (delete manager name).run.FairRun machine (Assumed manager.codec) choices world →
      ((delete manager name).run.exec machine choices world).value = none →
      ∀ strategy : Op → World → Choice, (∀ op world, (strategy op world).works = true) →
        let interrupted := ((delete manager name).run.exec machine choices world).state
        let final := (delete manager name).run.follow machine strategy interrupted
        final.1.inventory name = none ∧
          (∀ owner ∈ final.1.drawn, final.1.vms (externalVMName name owner) = none) ∧
          (interrupted.inventory name ≠ none → final.2 = .ok ()) := by
  have safe := visited.safe
  refine ⟨?_, safe.kept, ?_⟩
  · intro vm found isWorker isFound
    rcases safe.owned vm found isWorker isFound with ⟨name, entry, isEntry, sameVM, isOwned⟩
    refine ⟨name, entry, isEntry, sameVM, ?_⟩
    simp only [VM.ownedBy, Bool.and_eq_true, beq_iff_eq] at isOwned
    rw [isOwned.1.1.1.2, (safe.entry name entry isEntry).network]
  · intro name choices assumed _ strategy works
    have later := (Visited.call (.delete name) choices visited assumed).safe
    have deleted := wp_follow (fun op world => works op world)
      (triple_delete_faultless manager name _ _ ⟨later, rfl⟩)
    refine ⟨deleted.1.2, ?_, deleted.2⟩
    intro owner drawn
    have long := deleted.1.1.long owner drawn
    exact deleted.1.1.vms_eq_none (by omega) deleted.1.2

def sampleJoin : Outcome Op World Choice (Except Err Unit) :=
  ((Call.join sampleConfig).program sampleManager).run.exec machine
    (List.replicate 24 sampleChoice ++ { sampleChoice with works := false } ::
      List.replicate 5 sampleChoice) .empty

def sampleDeletion : Outcome Op World Choice (Except Err Unit) :=
  (delete sampleManager (str "lab")).run.exec machine (List.replicate 4 sampleChoice)
    sampleJoin.state

set_option maxRecDepth 4000

/-- The sample worker has joined, its deletion is interrupted, and another one finishes it. -/
theorem workers_owned_sample :
    (sampleJoin.state.vms sampleState.vmName).isSome = true ∧
    (∃ name entry, sampleJoin.state.inventory name = some entry ∧
      entry.vmName = sampleState.vmName) ∧
    (sampleDeletion.state.inventory (str "lab")).isSome = true ∧
    ((delete sampleManager (str "lab")).run.follow machine (fun _ _ => sampleChoice)
      sampleDeletion.state).1.inventory (str "lab") = none := by
  have initial : Initial World.empty := ⟨fun _ => rfl, fun _ _ => rfl, rfl, rfl⟩
  have visited : Visited sampleManager sampleJoin.state :=
    .call (.join sampleConfig) _ (.initial initial) (by decide +kernel)
  have owned := workers_owned sampleManager _ visited
  have isVM : (sampleJoin.state.vms sampleState.vmName).isSome := by decide +kernel
  refine ⟨isVM, ?_, by decide +kernel, ?_⟩
  · rcases Option.isSome_iff_exists.mp isVM with ⟨vm, isFound⟩
    rcases owned.1 _ vm (isWorkerVM_externalVMName _ _) isFound with ⟨name, entry, isEntry, same, _⟩
    exact ⟨name, entry, isEntry, same⟩
  · exact (owned.2.2 (str "lab") (List.replicate 4 sampleChoice) (by decide +kernel)
      (by decide +kernel) (fun _ _ => sampleChoice) fun _ _ => rfl).1

end Kiac.Worker
