import Kiac.Program.Strategy
import Kiac.ExternalWorker.Manager

/-!
# The VMs of the workers are owned

Whatever fails, and wherever a call is killed, every VM of a worker belongs to an entry of the
inventory, and the entry keeps the owner and the node that it has once recorded.
-/

namespace Kiac.Worker

open Prog Step

variable {name id : Str}

theorem externalVMName_inj {name' id' : Str} (long : 12 ≤ id.length)
    (long' : 12 ≤ id'.length) (same : externalVMName name id = externalVMName name' id') :
    name = name' := by
  have lengths : (id.take 12).length = (id'.take 12).length := by
    rw [List.length_take, List.length_take]
    omega
  have names := (List.append_inj' same lengths).1
  exact List.append_cancel_left (List.append_cancel_right names)

theorem isWorkerVM_externalVMName (name id : Str) : isWorkerVM (externalVMName name id) := by
  exact Str.hasPrefix_append _ _

theorem length_ownerText (id : OwnerBytes) : (ownerText id).length = 32 := by
  rw [ownerText, List.length_flatMap]
  simp [id.2]

/-- The later state of a worker has the node of the earlier one, if that was recorded. -/
def Keeps (earlier later : ExternalWorkerState) : Prop :=
  earlier.ownerID = later.ownerID → earlier.nodeUID ≠ [] → later.nodeUID = earlier.nodeUID

structure Entry (codec : Codec) (drawn : List Str) (name : Str) (state : ExternalWorkerState) :
    Prop where
  named : state.name = name
  vm : state.vmName = externalVMName name state.ownerID
  network : state.networkID = externalNetworkID state.ownerID
  owner : state.ownerID ∈ drawn
  readable : codec.readBack name state = .ok state

structure Safe (codec : Codec) (world : World) : Prop where
  entry : ∀ name state, world.inventory name = some state → Entry codec world.drawn name state
  unique : ∀ name name' state state', world.inventory name = some state →
    world.inventory name' = some state' → state.ownerID = state'.ownerID → name = name'
  owned : ∀ vm found, isWorkerVM vm = true → world.vms vm = some found →
    ∃ name state, world.inventory name = some state ∧ state.vmName = vm ∧
      found.ownedBy state = true
  long : ∀ id ∈ world.drawn, id.length = 32
  recorded : ∀ state ∈ world.recorded, state.ownerID ∈ world.drawn
  kept : world.recorded.Pairwise Keeps
  latest : ∀ name state, world.inventory name = some state →
    ∀ earlier ∈ world.recorded, Keeps earlier state

variable {codec : Codec} {world : World}

theorem Safe.vms_eq_none (safe : Safe codec world) (long : 12 ≤ id.length)
    (absent : world.inventory name = none) : world.vms (externalVMName name id) = none := by
  by_contra present
  rcases Option.ne_none_iff_exists'.mp present with ⟨found, isFound⟩
  rcases safe.owned _ found (isWorkerVM_externalVMName name id) isFound with
    ⟨name', state, isEntry, sameVM, _⟩
  have entry := safe.entry name' state isEntry
  have longOwner := safe.long _ entry.owner
  have sameName := externalVMName_inj (by omega) long (entry.vm.symm.trans sameVM)
  rw [sameName, absent] at isEntry
  cases isEntry

section Steps

def Op.Quiet : Op → Prop
  | .random => False
  | .rename _ => False
  | .removeFile _ => False
  | .runDetached _ => False
  | .remove _ => False
  | _ => True

structure Same (world after : World) : Prop where
  inventory : after.inventory = world.inventory
  vms : ∀ vm, isWorkerVM vm = true → after.vms vm = world.vms vm
  drawn : after.drawn = world.drawn
  recorded : after.recorded = world.recorded

theorem same_evolve (world : World) (choice : Choice) : Same world (world.evolve choice) :=
  ⟨rfl, fun _ isWorker => if_pos isWorker, rfl, rfl⟩

theorem same_step {op : Op} (quiet : op.Quiet) (choice : Choice) (world : World) :
    Same world (step op choice world).1 := by
  have unchanged : (step op choice world).1 = world.evolve choice := by
    cases op with
    | random => exact quiet.elim
    | rename state => exact quiet.elim
    | removeFile name => exact quiet.elim
    | runDetached opts => exact quiet.elim
    | remove vm => exact quiet.elim
    | _ => rfl
  rw [unchanged]
  exact same_evolve world choice

theorem Safe.same {after : World} (safe : Safe codec world) (same : Same world after) :
    Safe codec after := by
  refine ⟨?_, ?_, ?_, ?_, ?_, ?_, ?_⟩
  · rw [same.inventory, same.drawn]
    exact safe.entry
  · rw [same.inventory]
    exact safe.unique
  · intro vm found isWorker isFound
    rw [same.vms vm isWorker] at isFound
    rw [same.inventory]
    exact safe.owned vm found isWorker isFound
  · rw [same.drawn]
    exact safe.long
  · rw [same.recorded, same.drawn]
    exact safe.recorded
  · rw [same.recorded]
    exact safe.kept
  · rw [same.inventory, same.recorded]
    exact safe.latest

variable {state : ExternalWorkerState} {name : Str}

theorem Safe.renamed (safe : Safe codec world) (entry : Entry codec world.drawn state.name state)
    (before : ∀ earlier ∈ world.recorded, Keeps earlier state)
    (own : ∀ name other, world.inventory name = some other → other.ownerID = state.ownerID →
      name = state.name)
    (vm : ∀ other, world.inventory state.name = some other → ∀ found : VM,
      found.ownedBy other → other.vmName = state.vmName ∧ found.ownedBy state) :
    Safe codec { world with
      inventory := Function.update world.inventory state.name (some state)
      recorded := world.recorded ++ [state] } := by
  have either : ∀ name other, Function.update world.inventory state.name (some state) name =
      some other → (name = state.name ∧ other = state) ∨
        (name ≠ state.name ∧ world.inventory name = some other) := by
    intro name other found
    by_cases same : name = state.name
    · subst same
      rw [Function.update_self] at found
      exact Or.inl ⟨rfl, (Option.some.inj found).symm⟩
    · rw [Function.update_of_ne same] at found
      exact Or.inr ⟨same, found⟩
  refine ⟨?_, ?_, ?_, safe.long, ?_, ?_, ?_⟩
  · intro name other found
    rcases either name other found with ⟨rfl, rfl⟩ | ⟨_, old⟩
    · exact entry
    · exact safe.entry name other old
  · intro name name' other other' found found' sameOwner
    rcases either name other found with ⟨rfl, rfl⟩ | ⟨_, old⟩
    · rcases either name' other' found' with ⟨rfl, _⟩ | ⟨_, old'⟩
      · rfl
      · exact (own name' other' old' sameOwner.symm).symm
    · rcases either name' other' found' with ⟨rfl, rfl⟩ | ⟨_, old'⟩
      · exact own name other old sameOwner
      · exact safe.unique name name' other other' old old' sameOwner
  · intro vmName found isWorker isFound
    rcases safe.owned vmName found isWorker isFound with ⟨name, other, old, sameVM, isOwned⟩
    by_cases same : name = state.name
    · subst same
      rcases vm other old found isOwned with ⟨sameName, owned⟩
      exact ⟨state.name, state, Function.update_self _ _ _, sameName ▸ sameVM, owned⟩
    · exact ⟨name, other, (Function.update_of_ne same _ _).trans old, sameVM, isOwned⟩
  · intro other mem
    rcases List.mem_append.mp mem with old | new
    · exact safe.recorded other old
    · rw [List.mem_singleton.mp new]
      exact entry.owner
  · refine List.pairwise_append.mpr ⟨safe.kept, List.pairwise_singleton _ _, ?_⟩
    intro earlier mem later isState
    rw [List.mem_singleton.mp isState]
    exact before earlier mem
  · intro name other found earlier mem
    rcases List.mem_append.mp mem with old | new
    · rcases either name other found with ⟨rfl, rfl⟩ | ⟨_, oldEntry⟩
      · exact before earlier old
      · exact safe.latest name other oldEntry earlier old
    · rw [List.mem_singleton.mp new]
      rcases either name other found with ⟨rfl, rfl⟩ | ⟨differs, oldEntry⟩
      · exact fun _ _ => rfl
      · exact fun sameOwner => absurd (own name other oldEntry sameOwner.symm) differs

theorem Safe.removed (safe : Safe codec world)
    (gone : ∀ state, world.inventory name = some state → world.vms state.vmName = none) :
    Safe codec { world with inventory := Function.update world.inventory name none } := by
  have old : ∀ other state, Function.update world.inventory name none other = some state →
      world.inventory other = some state := by
    intro other state found
    by_cases same : other = name
    · rw [same, Function.update_self] at found
      cases found
    · rwa [Function.update_of_ne same] at found
  refine ⟨fun other state found => safe.entry other state (old other state found),
    fun other other' state state' found found' =>
      safe.unique other other' state state' (old other state found) (old other' state' found'),
    ?_, safe.long, safe.recorded, safe.kept,
    fun other state found => safe.latest other state (old other state found)⟩
  intro vm found isWorker isFound
  rcases safe.owned vm found isWorker isFound with ⟨other, state, isEntry, sameVM, isOwned⟩
  refine ⟨other, state, ?_, sameVM, isOwned⟩
  have differs : other ≠ name := by
    rintro rfl
    rw [← sameVM, gone state isEntry] at isFound
    cases isFound
  exact (Function.update_of_ne differs _ _).trans isEntry

theorem Safe.created (safe : Safe codec world) {vm : VM}
    (isEntry : world.inventory name = some state) (owned : vm.ownedBy state) :
    Safe codec { world with vms := Function.update world.vms state.vmName (some vm) } := by
  refine ⟨safe.entry, safe.unique, ?_, safe.long, safe.recorded, safe.kept, safe.latest⟩
  intro other found isWorker isFound
  dsimp only at isFound
  by_cases same : other = state.vmName
  · subst same
    rw [Function.update_self] at isFound
    obtain rfl := Option.some.inj isFound
    exact ⟨name, state, isEntry, rfl, owned⟩
  · rw [Function.update_of_ne same] at isFound
    exact safe.owned other found isWorker isFound

theorem Safe.deleted (safe : Safe codec world) (vm : Str) :
    Safe codec { world with vms := Function.update world.vms vm none } := by
  refine ⟨safe.entry, safe.unique, ?_, safe.long, safe.recorded, safe.kept, safe.latest⟩
  intro other found isWorker isFound
  dsimp only at isFound
  by_cases same : other = vm
  · rw [same, Function.update_self] at isFound
    cases isFound
  · rw [Function.update_of_ne same] at isFound
    exact safe.owned other found isWorker isFound

theorem Safe.drew (safe : Safe codec world) (id : OwnerBytes) :
    Safe codec { world with drawn := ownerText id :: world.drawn } := by
  refine ⟨?_, safe.unique, safe.owned, ?_, ?_, safe.kept, safe.latest⟩
  · intro name state isEntry
    have entry := safe.entry name state isEntry
    exact ⟨entry.named, entry.vm, entry.network, List.mem_cons_of_mem _ entry.owner,
      entry.readable⟩
  · intro other mem
    rcases List.mem_cons.mp mem with rfl | old
    · exact length_ownerText id
    · exact safe.long other old
  · exact fun state mem => List.mem_cons_of_mem _ (safe.recorded state mem)

end Steps

/-- Owner IDs are distinct, and what is recorded is read back as it was written. -/
def Assumed (codec : Codec) (op : Op) (choice : Choice) (world : World) : Prop :=
  (op = .random → ownerText choice.bytes ∉ world.drawn) ∧
    ∀ state, op = .rename state → codec.readBack state.name state = .ok state

instance decidableAssumed (codec : Codec) (op : Op) (choice : Choice) (world : World) :
    Decidable (Assumed codec op choice world) :=
  match op with
  | .random =>
    decidable_of_iff (ownerText choice.bytes ∉ world.drawn)
      ⟨fun new => ⟨fun _ => new, nofun⟩, fun assumed => assumed.1 rfl⟩
  | .rename state =>
    decidable_of_iff (codec.readBack state.name state = .ok state)
      ⟨fun readable => ⟨nofun, fun _ same => by cases same; exact readable⟩,
        fun assumed => assumed.2 state rfl⟩
  | .secrets | .headroom | .lock | .absent _ | .preflight | .image | .artifacts _ | .now
  | .createTemp | .writeTemp _ | .removeTemp | .removeFile _ | .readFile _ | .vmState _
  | .runDetached _ | .remove _ | .start _ | .stop _ | .waitReady _ | .ip _ | .exec _ _
  | .observe _ | .expired => isTrue ⟨nofun, nofun⟩

def ownership (codec : Codec) : Setting Op Op.Ans World Choice :=
  ⟨machine, Assumed codec, fun _ world => Safe codec world⟩

def Stable (pre : World → Prop) : Prop := ∀ world after, Same world after → pre world → pre after

theorem stable_safe : Stable (Safe codec) := fun _ _ same safe => safe.same same

section Programs

variable {α : Type} {post : α → Prop} {pre : World → Prop} {manager : Manager} {name : Str}
variable {state : ExternalWorkerState}

variable {ε : Type} {action : ExceptT ε (Prog Op Op.Ans) α}

theorem returns_quiet (stable : Stable pre)
    (safe : ∀ world, pre world → Safe codec world) (acts : Acts Op.Quiet post action) :
    Returns (ownership codec) pre action (fun value world => pre world ∧ post value) pre :=
  Acts.returns acts (fun _ world _ holds => safe world holds)
    fun _ choice world quiet _ holds => stable world _ (same_step quiet choice world) holds

theorem returns_quiet_safe (stable : Stable pre)
    (safe : ∀ world, pre world → Safe codec world) (acts : Acts Op.Quiet post action) :
    Returns (ownership codec) pre action (fun value world => pre world ∧ post value)
      (Safe codec) :=
  (returns_quiet stable safe acts).weaken (fun _ => id) (fun _ _ => id)
    safe

theorem returns_write {after : World → Prop} (stable : Stable pre)
    (safe : ∀ world, pre world → Safe manager.codec world) (stableAfter : Stable after)
    (safeAfter : ∀ world, after world → Safe manager.codec world)
    (renames : ∀ world, pre world → manager.codec.readBack state.name state = .ok state →
      after { world with
        inventory := Function.update world.inventory state.name (some state)
        recorded := world.recorded ++ [state] }) :
    Returns (ownership manager.codec) pre (write manager state) (fun _ => after)
      (Safe manager.codec) := by
  have quiet : ∀ {α : Type} {post : α → Prop} {action : Action α}, Acts Op.Quiet post action →
      Returns (ownership manager.codec) pre action (fun _ => pre) (Safe manager.codec) := by
    intro α post action acts
    exact (returns_quiet_safe stable safe acts).weaken (fun _ => id)
      (fun _ _ holds => holds.1) fun _ => id
  refine (quiet acts_check).bind fun _ => ?_
  refine (quiet (acts_given _)).bind fun text => ?_
  refine (quiet (acts_must (acts_ask trivial))).bind fun _ => ?_
  refine Returns.bind (quiet (acts_ask trivial)) fun written => ?_
  have renamed : Returns (ownership manager.codec) pre (renameIf written state)
      (fun isRenamed world => if isRenamed then after world else pre world)
      (Safe manager.codec) := by
    unfold renameIf
    split
    · refine Returns.lift (Triple.perform safe fun world choice holds assumed => ?_)
      have evolved := stable _ _ (same_evolve world choice) holds
      simp only [ownership, machine, step, effect]
      split
      · exact renames _ evolved (assumed.2 state rfl)
      · exact evolved
    · exact Returns.pure fun _ => id
  refine renamed.bind fun isRenamed => ?_
  cases isRenamed with
  | true =>
    refine Returns.bind (returns_quiet_safe stableAfter safeAfter (acts_ask trivial)) fun _ => ?_
    exact Returns.pure fun _ holds => holds.1
  | false =>
    refine Returns.bind (quiet (acts_ask trivial)) fun _ => ?_
    exact Returns.throw safe

def Held (codec : Codec) (state : ExternalWorkerState) (world : World) : Prop :=
  Safe codec world ∧ world.inventory state.name = some state

theorem stable_held : Stable (Held codec state) :=
  fun _ _ same held => ⟨held.1.same same, by rw [same.inventory]; exact held.2⟩

def Revises (earlier state : ExternalWorkerState) : Prop :=
  ∃ uid phase, state = { earlier with nodeUID := uid, phase := phase } ∧
    (earlier.nodeUID ≠ [] → uid = earlier.nodeUID)

theorem returns_revise {earlier : ExternalWorkerState} (revises : Revises earlier state) :
    Returns (ownership manager.codec) (Held manager.codec earlier) (write manager state)
      (fun _ => Held manager.codec state) (Safe manager.codec) := by
  refine returns_write stable_held (fun _ held => held.1) stable_held (fun _ held => held.1) ?_
  rintro world ⟨safe, isEntry⟩ readable
  rcases revises with ⟨uid, phase, rfl, keeps⟩
  have entry := safe.entry _ earlier isEntry
  refine ⟨safe.renamed ⟨rfl, entry.vm, entry.network, entry.owner, readable⟩ ?_ ?_ ?_,
    Function.update_self _ _ _⟩
  · intro older mem sameOwner isRecorded
    have same := safe.latest _ earlier isEntry older mem sameOwner isRecorded
    rw [← same] at isRecorded
    exact (keeps isRecorded).trans same
  · intro name other found sameOwner
    exact safe.unique name _ other earlier found isEntry sameOwner
  · intro other found vm isOwned
    obtain rfl : other = earlier := Option.some.inj (found.symm.trans isEntry)
    exact ⟨rfl, isOwned⟩

theorem acts_wait (polls : ℕ) (last : Option ObserveErr) :
    Acts Op.Quiet (fun observation => observation.uid ≠ [] ∧
      (state.nodeUID ≠ [] → observation.uid = state.nodeUID)) (wait state polls last) := by
  induction polls generalizing last with
  | zero => exact Acts.throw
  | succ polls ih =>
    refine (acts_ask trivial).bind fun expired _ => ?_
    split
    · exact Acts.throw
    · have observed : Acts Op.Quiet (fun result => ∀ observation, result = .ok observation →
          observation.uid ≠ [] ∧ (state.nodeUID ≠ [] → observation.uid = state.nodeUID))
          (ExceptT.lift (observe state) : Action (Except ObserveErr Observation)) := by
        refine Acts.lift ((Issues.perform trivial).bind fun answer _ => ?_)
        cases answer with
        | none => exact fun _ absurd => by cases absurd
        | some report => exact fun _ accepted => uid_of_checkReport accepted
      refine observed.bind fun result keeps => ?_
      cases result with
      | ok observation =>
        change Acts _ _ (if observation.ready then pure observation else wait state polls none)
        split
        · exact Acts.pure (keeps observation rfl)
        · exact ih none
      | error err =>
        change Acts _ _ (if err.isRejection then throw (.observation err)
          else wait state polls (some err))
        split
        · exact Acts.throw
        · exact ih (some err)

theorem acts_owned (state : ExternalWorkerState) :
    Does Op.Quiet (owned state) := by
  refine (acts_ask trivial).bind fun found _ => ?_
  cases found with
  | failed => exact Acts.throw
  | missing => exact Acts.throw
  | found vm => exact acts_check.mono (fun _ => id) fun _ _ => trivial

theorem returns_read :
    Returns (ownership manager.codec) (Safe manager.codec) (read manager name)
      (fun state world => Held manager.codec state world ∧ state.name = name)
      (Safe manager.codec) := by
  have looked : Returns (ownership manager.codec) (Safe manager.codec) (ask (.readFile name))
      (fun found world => Safe manager.codec world ∧
        ∀ state, found = some state → world.inventory name = some state) (Safe manager.codec) := by
    refine Returns.lift (Triple.perform (fun _ => id) fun world choice safe _ => ?_)
    refine ⟨safe.same (same_evolve world choice), fun state found => ?_⟩
    simp only [ownership, machine, step, effect] at found
    split at found
    · exact found
    · cases found
  refine (returns_quiet stable_safe (fun _ => id) acts_check).bind fun _ => ?_
  refine (looked.weaken (fun _ holds => holds.1) (fun _ _ => id)
    fun _ => id).bind fun found => ?_
  refine (returns_given found fun _ holds => holds.1).bind fun state => ?_
  refine (returns_settle _ fun _ holds => holds.1.1).weaken (fun _ => id) ?_
    fun _ => id
  rintro read world ⟨⟨⟨safe, isFound⟩, found⟩, parsed⟩
  have isEntry := isFound state found
  have entry := safe.entry name state isEntry
  rw [entry.readable] at parsed
  obtain rfl := Except.ok.inj parsed
  refine ⟨⟨safe, ?_⟩, entry.named⟩
  rw [entry.named]
  exact isEntry

theorem returns_lock :
    Returns (ownership codec) (Safe codec) (must (ask .lock) .lock) (fun _ => Safe codec)
      (Safe codec) :=
  (returns_quiet stable_safe (fun _ => id) (acts_must (acts_ask trivial))).weaken
    (fun _ => id) (fun _ _ holds => holds.1) fun _ => id

theorem acts_startJoining (state : ExternalWorkerState) :
    Does Op.Quiet (startJoining state) := by
  unfold startJoining
  split
  · exact acts_must (acts_ask trivial)
  · exact Acts.pure trivial

theorem returns_start (timeout : ℤ) :
    Returns (ownership manager.codec) (Safe manager.codec) (start manager name timeout)
      (fun _ => Safe manager.codec) (Safe manager.codec) := by
  have quiet : ∀ {state : ExternalWorkerState} {α : Type} {post : α → Prop} {action : Action α},
      Acts Op.Quiet post action → Returns (ownership manager.codec) (Held manager.codec state) action
        (fun value world => Held manager.codec state world ∧ post value) (Safe manager.codec) :=
    fun acts => returns_quiet_safe stable_held (fun _ held => held.1) acts
  refine (returns_check fun _ => id).bind fun _ => Returns.assume fun _ => ?_
  refine returns_lock.bind fun _ => ?_
  refine returns_read.bind fun state => Returns.assume fun _ => ?_
  refine (quiet acts_check).bind fun _ => Returns.assume fun _ => ?_
  refine (quiet (acts_owned state)).bind fun _ => Returns.assume fun _ => ?_
  refine (quiet (acts_must (acts_ask trivial))).bind fun _ => Returns.assume fun _ => ?_
  refine (quiet (acts_must (acts_ask trivial))).bind fun _ => Returns.assume fun _ => ?_
  refine (quiet (acts_startJoining state)).bind fun _ => Returns.assume fun _ => ?_
  refine (quiet (acts_wait _ _)).bind fun observation => Returns.assume fun keeps => ?_
  exact (returns_revise ⟨observation.uid, .ready, rfl, keeps.2⟩).weaken (fun _ => id)
    (fun _ _ held => held.1) fun _ => id

theorem returns_stop :
    Returns (ownership manager.codec) (Safe manager.codec) (stop manager name)
      (fun _ => Safe manager.codec) (Safe manager.codec) := by
  refine returns_lock.bind fun _ => ?_
  refine returns_read.bind fun state => ?_
  have quiet : Does Op.Quiet
      (owned state >>= fun _ => must (ask (.stop state.vmName)) (.worker .vmStop)) :=
    (acts_owned state).bind fun _ _ => acts_must (acts_ask trivial)
  exact (returns_quiet stable_safe (fun _ => id) quiet).weaken
    (fun _ holds => holds.1.1) (fun _ _ holds => holds.1) fun _ => id

def Bare (codec : Codec) (state : ExternalWorkerState) (world : World) : Prop :=
  Held codec state world ∧ world.vms state.vmName = none

theorem Held.isWorkerVM (held : Held codec state world) : isWorkerVM state.vmName := by
  rw [(held.1.entry _ _ held.2).vm]
  exact isWorkerVM_externalVMName _ _

theorem stable_bare : Stable (Bare codec state) := by
  intro world after same bare
  exact ⟨stable_held _ _ same bare.1, (same.vms _ bare.1.isWorkerVM).trans bare.2⟩

theorem triple_removeFile :
    Triple (ownership codec) (Bare codec state) (perform (Op.removeFile state.name))
      fun _ => Safe codec := by
  refine Triple.perform (fun _ bare => bare.1.1) fun world choice bare _ => ?_
  rcases stable_bare _ _ (same_evolve world choice) bare with ⟨⟨safe, isEntry⟩, none⟩
  simp only [ownership, machine, step, effect]
  split
  · apply safe.removed
    intro other found
    obtain rfl : other = state := Option.some.inj (found.symm.trans isEntry)
    exact none
  · exact safe

theorem triple_remove :
    Triple (ownership codec) (Held codec state) (perform (Op.remove state.vmName))
      fun removed world => if removed then Bare codec state world else Safe codec world := by
  refine Triple.perform (fun _ held => held.1) fun world choice held _ => ?_
  rcases stable_held _ _ (same_evolve world choice) held with ⟨safe, isEntry⟩
  simp only [ownership, machine, step, effect]
  split
  · exact ⟨⟨safe.deleted _, isEntry⟩, Function.update_self _ _ _⟩
  · exact safe

theorem exits_owned :
    Exits (ownership codec) (Held codec state) (owned state) (fun _ => Held codec state)
      (fun err world => Held codec state world ∧
        (err = .vmMissing → world.vms state.vmName = none)) := by
  have looked : Exits (ownership codec) (Held codec state) (ask (.vmState state.vmName))
      (fun found world => Held codec state world ∧
        (found = .missing → world.vms state.vmName = none))
      (fun err world => Held codec state world ∧
        (err = .vmMissing → world.vms state.vmName = none)) := by
    refine Exits.lift (Triple.perform (fun _ held => held.1) fun world choice held _ => ?_)
    refine ⟨stable_held _ _ (same_evolve world choice) held, fun missing => ?_⟩
    simp only [ownership, machine, step, effect] at missing ⊢
    split at missing
    · split at missing
      · assumption
      · cases missing
    · cases missing
  refine looked.bind fun found => ?_
  cases found with
  | failed => exact Exits.throw fun _ holds => ⟨holds.1, fun absurd => by cases absurd⟩
  | missing => exact Exits.throw fun _ holds => ⟨holds.1, fun _ => holds.2 rfl⟩
  | found vm =>
    change Exits _ _ (check (vm.ownedBy state) Err.notOwned) _ _
    unfold check
    split
    · exact Exits.pure fun _ holds => holds.1
    · exact Exits.throw fun _ holds => ⟨holds.1, fun absurd => by cases absurd⟩

theorem returns_removeOwned :
    Returns (ownership codec) (Held codec state) (removeOwned state) (fun _ => Bare codec state)
      (Safe codec) := by
  refine Triple.bind exits_owned fun result => ?_
  cases result with
  | error err =>
    cases err with
    | vmMissing => exact Triple.done fun _ holds => ⟨holds.1, holds.2 rfl⟩
    | _ => exact Triple.done fun _ holds => holds.1.1
  | ok _ =>
    have removes : Returns (ownership codec) (Held codec state)
        (must (ask (.remove state.vmName)) (.worker .deletion)) (fun _ => Bare codec state)
        (Safe codec) := by
      refine (Returns.lift triple_remove).bind fun removed => ?_
      cases removed with
      | true => exact Returns.pure fun _ => id
      | false => exact Returns.throw fun _ => id
    exact removes

theorem returns_delete :
    Returns (ownership manager.codec) (Safe manager.codec) (delete manager name)
      (fun _ => Safe manager.codec) (Safe manager.codec) := by
  refine returns_lock.bind fun _ => ?_
  refine returns_read.bind fun state => Returns.assume fun named => ?_
  refine returns_removeOwned.bind fun _ => ?_
  subst named
  refine (Returns.lift triple_removeFile).bind fun _ => ?_
  exact (returns_check fun _ => id).weaken (fun _ => id)
    (fun _ _ holds => holds.1) fun _ => id

end Programs

end Kiac.Worker
