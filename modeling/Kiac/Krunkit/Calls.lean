import Kiac.Krunkit.Inventory

/-!
# What all calls keep

A condition on the store is kept by every call if each kind of step keeps it: those in the
directory of one VM, the replacement of a state by one that agrees with it, the removal of a
directory, and what is done with the networks. A second condition links a state that has been read,
or that is to be written, to the networks.
-/

namespace Kiac.Krunkit

variable {fair : Op → Choice → World → Prop} {guard : Op → World → Prop}
variable {inv : World → Prop} {link : NodeState → World → Prop}

structure Kept (fair : Op → Choice → World → Prop) (guard : Op → World → Prop)
    (inv : World → Prop) (link : NodeState → World → Prop) : Prop where
  guarded : ∀ op world, inv world → guard op world
  evolves : ∀ world choice, inv world → inv (world.evolve choice)
  own : ∀ (n : Str) (op : Op) choice world, op.Own n → fair op choice world → inv world →
    inv (step op choice world).1
  replaces : ∀ original (op : Op) choice world, op.Replaces original → fair op choice world →
    inv world ∧ link original world →
      inv (step op choice world).1 ∧ link original (step op choice world).1
  removes : ∀ (n : Str) (op : Op) choice world, op.Removes n → fair op choice world → inv world →
    inv (step op choice world).1
  linked : ∀ n state world, inv world → world.slot n = .stored (some (.node state)) →
    OfNode n state → link state world
  ensures : ∀ id, Returns ⟨machine, fair, guard⟩ inv (ensureNetwork id)
    (fun network world => inv world ∧ ∀ state : NodeState, state.networkID = id →
      state.networkCIDR = network.cidr → link state world) inv
  unused : ∀ id, Triple ⟨machine, fair, guard⟩ inv (removeUnusedNetwork id) fun _ => inv

def Ready (inv : World → Prop) (link : NodeState → World → Prop) (opts : RunOpts)
    (network : Network) (world : World) : Prop :=
  inv world ∧ ∀ state : NodeState, state.name = opts.name → state.networkID = opts.networkID →
    state.networkCIDR = network.cidr → link state world

namespace Kept

variable (kept : Kept fair guard inv link) {α : Type} {post : α → Prop} {client : Client}

include kept

variable {n : Str} {action : Action α} {opts : RunOpts}

theorem returns_own (acts : Acts (Op.Own n) post action) :
    Returns ⟨machine, fair, guard⟩ inv action (fun value world => inv world ∧ post value) inv :=
  Acts.returns acts (fun op world _ holds => kept.guarded op world holds)
    fun op choice world own isFair holds => kept.own n op choice world own isFair holds

theorem returns_plain (acts : Does (Op.Own []) action) :
    Returns ⟨machine, fair, guard⟩ inv action (fun _ => inv) inv :=
  (kept.returns_own acts).weaken (fun _ => id) (fun _ _ holds => holds.1)
    fun _ => id

theorem returns_replaces {original : NodeState} (acts : Acts (Op.Replaces original) post action) :
    Returns ⟨machine, fair, guard⟩ (fun world => inv world ∧ link original world) action
      (fun _ => inv) inv := by
  have returns : Returns ⟨machine, fair, guard⟩ (fun world => inv world ∧ link original world) action
      (fun value world => (inv world ∧ link original world) ∧ post value)
      (fun world => inv world ∧ link original world) :=
    Acts.returns acts (fun op world _ holds => kept.guarded op world holds.1)
      fun op choice world isAllowed isFair holds =>
        kept.replaces original op choice world isAllowed isFair holds
  exact returns.weaken (fun _ => id) (fun _ _ holds => holds.1.1)
    fun _ holds => holds.1

theorem triple_removeAll (n : Str) :
    Triple ⟨machine, fair, guard⟩ inv (removeAll n) (fun _ => inv) := by
  have triple : Triple ⟨machine, fair, guard⟩ inv (removeAll n) fun _ world => inv world ∧ True :=
    Issues.triple issues_removes (fun op world _ holds => kept.guarded op world holds)
      fun op choice world isAllowed isFair holds =>
        kept.removes n op choice world isAllowed isFair holds
  exact triple.weaken (fun _ => id) fun _ _ holds => holds.1

theorem returns_readState (n : Str) :
    Returns ⟨machine, fair, guard⟩ inv (readState n)
      (fun state world => (inv world ∧ link state world) ∧ OfNode n state) inv := by
  refine (Krunkit.returns_readState n (fun world choice _ => kept.evolves world choice)
    fun world holds => kept.guarded _ world holds).weaken (fun _ => id) ?_ fun _ => id
  rintro state world ⟨holds, stored, ofNode⟩
  exact ⟨⟨holds, kept.linked n state world holds stored ofNode⟩, ofNode⟩

theorem after_readState {next : NodeState → Action α}
    (acts : ∀ state, OfNode n state → Does (Op.Replaces state) (next state)) :
    Returns ⟨machine, fair, guard⟩ inv (readState n >>= next) (fun _ => inv) inv := by
  refine (kept.returns_readState n).bind fun state => ?_
  exact Returns.assume fun ofNode => kept.returns_replaces (acts state ofNode)

theorem returns_lock :
    Returns ⟨machine, fair, guard⟩ inv (must (ask .lockStore) .lock) (fun _ => inv) inv :=
  kept.returns_plain (acts_must (acts_ask trivial))

theorem returns_ready {network : Network} (acts : Does (Op.Own opts.name) action) :
    Returns ⟨machine, fair, guard⟩ (Ready inv link opts network) action
      (fun _ => Ready inv link opts network) inv := by
  have returns : Returns ⟨machine, fair, guard⟩ (Ready inv link opts network) action
      (fun _ world => Ready inv link opts network world ∧ True) (Ready inv link opts network) := by
    refine Acts.returns acts (fun op world _ ready => kept.guarded op world ready.1) ?_
    intro op choice world own isFair ready
    refine ⟨kept.own _ op choice world own isFair ready.1, ?_⟩
    intro state isName isID isCIDR
    rw [← isName] at own
    exact (kept.replaces state op choice world (Or.inl own) isFair
      ⟨ready.1, ready.2 state isName isID isCIDR⟩).2
  exact returns.weaken (fun _ => id) (fun _ _ holds => holds.1)
    fun _ ready => ready.1

theorem returns_createNode (resources : Resources) (network : Network)
    (valid : validVMName opts.name) :
    Returns ⟨machine, fair, guard⟩ (Ready inv link opts network)
      (createNode client opts resources network) (fun _ => inv) inv := by
  refine (kept.returns_ready (acts_must (acts_ask ⟨rfl, valid⟩))).bind fun _ => ?_
  refine (kept.returns_ready (acts_must (acts_ask trivial))).bind fun _ => ?_
  refine Returns.bind (kept.returns_ready (acts_ask trivial)) fun drawn => ?_
  refine (kept.returns_ready (acts_given drawn)).bind fun mac => ?_
  refine Returns.bind (kept.returns_ready (acts_ask trivial)) fun created => ?_
  refine (kept.returns_ready (acts_cloneDisk valid)).bind fun _ => ?_
  refine (kept.returns_ready (acts_createCloudInitISO _)).bind fun _ => ?_
  have agrees : Agrees (newState client opts resources network mac created)
      (newState client opts resources network mac created) := ⟨⟨rfl, rfl⟩, rfl, rfl⟩
  refine (kept.returns_replaces ((acts_writeState agrees).bind
    fun _ _ => acts_startState agrees)).weaken ?_ (fun _ _ => id) fun _ => id
  exact fun _ ready => ⟨ready.1, ready.2 _ rfl rfl rfl⟩

theorem returns_runDetached (opts : RunOpts) :
    Returns ⟨machine, fair, guard⟩ inv (runDetached client opts) (fun _ => inv) inv := by
  refine (returns_check fun _ => id).bind fun _ => Returns.assume fun valid => ?_
  refine (kept.returns_plain (acts_check.mono (fun _ => id)
    fun _ _ => trivial)).bind fun _ => ?_
  refine Returns.bind (kept.returns_plain (acts_ask trivial)) fun checked => ?_
  refine (kept.returns_plain (acts_given checked)).bind fun resources => ?_
  refine (kept.returns_plain (acts_onlyIf (acts_must (acts_ask trivial)))).bind fun _ => ?_
  refine kept.returns_lock.bind fun _ => ?_
  refine (kept.returns_plain (Acts.lift (issues_owns _))).bind fun owned => ?_
  refine (kept.returns_plain (acts_check.mono (fun _ => id)
    fun _ _ => trivial)).bind fun _ => ?_
  refine (kept.ensures _).bind fun network => ?_
  refine Returns.onError ((kept.returns_createNode resources network valid).weaken
    (fun _ holds => ⟨holds.1, fun state _ => holds.2 state⟩) (fun _ _ => id)
    fun _ => id) ?_
  exact (kept.triple_removeAll _).bind fun _ => kept.unused _

theorem returns_listNodes (start : Str) (names : List Str) :
    Returns ⟨machine, fair, guard⟩ inv (listNodes client start names) (fun _ => inv) inv := by
  induction names with
  | nil => exact Returns.pure fun _ => id
  | cons name names ih =>
    unfold listNodes
    split
    · refine (kept.after_readState fun _ ofNode => acts_describe ofNode.agrees).bind
        fun _ => ?_
      exact ih.bind fun _ => Returns.pure fun _ => id
    · exact ih

theorem returns_removeOwned (name : Str) :
    Returns ⟨machine, fair, guard⟩ inv (removeOwned client name) (fun _ => inv) inv := by
  refine ((kept.returns_readState name).weaken (fun _ => id)
    (fun _ _ holds => holds.1.1) fun _ => id).bind fun state => ?_
  refine (kept.after_readState fun _ ofNode => acts_halt ofNode.agrees).bind fun _ => ?_
  refine (Returns.lift (kept.triple_removeAll name)).bind fun gone => ?_
  refine Returns.bind (kept.returns_plain (acts_ask trivial)) fun _ => ?_
  refine (Returns.lift (kept.unused _)).bind fun _ => ?_
  exact kept.returns_plain (acts_check.mono (fun _ => id) fun _ _ => trivial)

theorem triple_removeEach (names : List Str) :
    Triple ⟨machine, fair, guard⟩ inv (removeEach client names) (fun _ => inv) := by
  induction names with
  | nil => exact Triple.done fun _ => id
  | cons name names ih =>
    have owned : Triple ⟨machine, fair, guard⟩ inv (owns name) fun _ world => inv world ∧ True :=
      Issues.triple (issues_owns name) (fun op world _ holds => kept.guarded op world holds)
        fun op choice world own isFair holds => kept.own [] op choice world own isFair holds
    refine owned.bind fun isOwned => ?_
    have one : Triple ⟨machine, fair, guard⟩ (fun world => inv world ∧ True)
        (if isOwned then (removeOwned client name).run else Prog.done (.ok ()))
        (fun _ => inv) := by
      split
      · refine Triple.weaken (kept.returns_removeOwned name) (fun _ holds => holds.1) ?_
        intro result _ holds
        cases result <;> exact holds
      · exact Triple.done fun _ holds => holds.1
    exact one.bind fun _ => ih.bind fun _ => Triple.done fun _ => id

theorem returns_call (call : Call) :
    Returns ⟨machine, fair, guard⟩ inv (call.program client) (fun _ => inv) inv := by
  cases call with
  | runDetached opts => exact kept.returns_runDetached opts
  | start name =>
    exact kept.returns_lock.bind fun _ =>
      kept.after_readState fun _ ofNode => acts_startState ofNode.agrees
  | stop name =>
    exact kept.returns_lock.bind fun _ =>
      kept.after_readState fun _ ofNode => acts_halt ofNode.agrees
  | list start =>
    refine Returns.bind ?_ fun _ => Returns.pure fun _ => id
    refine kept.returns_lock.bind fun _ => ?_
    refine Returns.bind (kept.returns_plain (acts_ask trivial)) fun names => ?_
    exact (kept.returns_listNodes start names).bind fun _ =>
      Returns.pure fun _ => id
  | remove names =>
    refine kept.returns_lock.bind fun _ => ?_
    apply (kept.triple_removeEach names).weaken (fun _ => id)
    intro result _ holds
    cases result <;> exact holds

end Kept

end Kiac.Krunkit
