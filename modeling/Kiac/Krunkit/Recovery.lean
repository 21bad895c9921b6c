import Kiac.Krunkit.Inventory

/-!
# Recovery from an interruption

A store is recoverable if `List` succeeds, or does so after some `Remove`. It is exactly
when every directory has its `state.json`. A process that is killed while a directory
lacks it leaves a store that no `Remove` repairs; all other interruptions are harmless.
-/

namespace Kiac.Krunkit

open Prog

def LockWorks (op : Op) (choice : Choice) (_ : World) : Prop := op = .lockStore → choice.works = true

/-- `List` succeeds, whatever the processes do. -/
def ListSucceeds (client : Client) (world : World) (start : Str) : Prop :=
  ∀ choices result, (list client start).run.FairRun machine LockWorks choices world →
    ((list client start).run.exec machine choices world).value = some result →
      ∃ infos, result = .ok infos

/-- `List` succeeds for every start, or it does after a `Remove` that returns. -/
def Recoverable (client : Client) (world : World) : Prop :=
  (∀ start, ListSucceeds client world start) ∨
    ∃ names choices result,
      ((remove client names).run.exec machine choices world).value = some result ∧
      ∀ start, ListSucceeds client ((remove client names).run.exec machine choices world).state start

/-- Runs with choices of some kind, without a condition on where they are interrupted. -/
def runs (fair : Op → Choice → World → Prop) : Setting Op Op.Ans World Choice :=
  ⟨machine, fair, fun _ _ => True⟩

section Listing

variable {n : Str} {names : List Str} {client : Client}

theorem readState_eq (valid : validVMName n) :
    readState n = ask (.readFile (.node n) stateFile) >>= fun found =>
      given (.noState n) found >>= fun content => ExceptT.mk (done (parseState n content)) := by
  unfold readState check
  rw [if_pos valid]
  rfl

theorem returns_readState_written (mem : n ∈ names) :
    Returns (runs LockWorks) (fun world => Holds names world.slot) (readState n)
      (fun state world => Holds names world.slot ∧ OfNode n state) (fun _ => False) := by
  intro world holds
  rcases holds.written mem with ⟨valid, _⟩
  have read : Returns (runs LockWorks) (fun world => Holds names world.slot)
      (ask (.readFile (.node n) stateFile))
      (fun found world => Holds names world.slot ∧
        ∃ state, found = some (some (.node state)) ∧ OfNode n state) (fun _ => False) := by
    refine Returns.lift (Triple.perform (fun _ _ => trivial) ?_)
    intro world choice holds _
    rcases holds.written mem with ⟨_, state, stored, ofNode⟩
    exact ⟨holds, state, readFile_slot.mpr stored, ofNode⟩
  rw [readState_eq valid]
  refine read.bind (fun found => ?_) world holds
  rintro world ⟨holds, state, rfl, ofNode⟩
  have parsed : parseState n (some (.node state)) = .ok state := if_pos ofNode
  have returned : Returns (runs LockWorks) (fun world => Holds names world.slot)
      (ExceptT.mk (done (parseState n (some (.node state)))))
      (fun state world => Holds names world.slot ∧ OfNode n state) (fun _ => False) := by
    rw [parsed]
    exact fun _ holds => ⟨holds, ofNode⟩
  exact returned world holds

theorem returns_describe (mem : n ∈ names) {state : NodeState} (ofNode : OfNode n state) :
    Returns (runs LockWorks) (fun world => Holds names world.slot) (describe client state)
      (fun _ world => Holds names world.slot) (fun _ => False) := by
  have keeps : ∀ {α : Type} {post : α → Prop} {program : Prog Op Op.Ans α},
      Issues (Op.Writes n) post program →
        Triple (runs LockWorks) (fun world => Holds names world.slot) program
          (fun value world => Holds names world.slot ∧ post value) :=
    fun issues => Issues.triple issues (fun _ _ _ _ => trivial)
      fun _ choice _ writes _ holds => holds_step writes mem choice holds
  refine (Returns.lift (keeps ((issues_processOwned ofNode.agrees).mono
    (fun _ own => Or.inl own.plain) fun _ => id))).bind fun result => ?_
  rcases result with ⟨owned, found⟩
  rintro world ⟨holds, kept⟩
  have address : Returns (runs LockWorks) (fun world => Holds names world.slot) (listAddress owned found)
      (fun _ world => Holds names world.slot) (fun _ => False) := by
    unfold listAddress
    split
    · exact Returns.lift (Triple.perform (fun _ _ => trivial) fun _ _ holds _ => holds)
    · exact Returns.pure fun _ => id
  have written : ∀ ip, Returns (runs LockWorks) (fun world => Holds names world.slot)
      (writeState (listed found owned ip)) (fun _ world => Holds names world.slot)
      (fun world => Holds names world.slot) := by
    intro ip
    refine (keeps (writes_of_replaces ofNode (acts_writeState (kept.listed owned ip)))).weaken
      (fun _ => id) ?_
    intro result _ holds
    cases result <;> exact holds.1
  refine address.bind (fun ip => ?_) world holds
  refine (returns_onlyIf (returns_attempt (written ip))).bind fun _ => ?_
  exact Returns.pure fun _ => id

theorem returns_listNodes_holds (start : Str) {found : List Str} (all : ∀ name ∈ found, name ∈ names) :
    Returns (runs LockWorks) (fun world => Holds names world.slot) (listNodes client start found)
      (fun _ world => Holds names world.slot) (fun _ => False) := by
  induction found with
  | nil => exact Returns.pure fun _ => id
  | cons name found ih =>
    have mem := all name List.mem_cons_self
    have rest := ih fun other isOther => all other (List.mem_cons_of_mem name isOther)
    unfold listNodes
    split
    · have described : Returns (runs LockWorks) (fun world => Holds names world.slot)
          (listNode client name) (fun _ world => Holds names world.slot) (fun _ => False) := by
        refine (returns_readState_written mem).bind fun state => ?_
        rintro world ⟨holds, ofNode⟩
        exact returns_describe mem ofNode world holds
      exact described.bind fun _ => rest.bind fun _ =>
        Returns.pure fun _ => id
    · exact rest

variable {world : World}

theorem mem_readNodes {choice : Choice} {name : Str} :
    name ∈ (step .readNodes choice world).2 ↔ world.slot name ≠ .absent := by
  change name ∈ (world.nodes.keys.insertionSort fun a b => a ≤ b) ↔ _
  rw [List.mem_insertionSort, ← AList.mem_keys, ← AList.lookup_isSome, World.slot]
  cases world.nodes.lookup name with
  | none => simp
  | some files => simpa using filesSlot_ne_absent files

theorem returns_lockStore_works {pre failed : World → Prop}
    (evolves : ∀ world choice, pre world → pre (world.evolve choice)) :
    Returns (runs LockWorks) pre (must (ask .lockStore) .lock) (fun _ => pre) failed := by
  have locked : Returns (runs LockWorks) pre (ask .lockStore)
      (fun works world => works = true ∧ pre world) failed := by
    refine Returns.lift (Triple.perform (fun _ _ => trivial) ?_)
    exact fun world choice holds works => ⟨works rfl, evolves world choice holds⟩
  refine locked.bind fun works => ?_
  rintro world ⟨rfl, holds⟩
  exact holds

theorem returns_list_settled (start : Str) :
    Returns (runs LockWorks) Settled (list client start) (fun _ _ => True) (fun _ => False) := by
  have read : Returns (runs LockWorks) Settled (ask .readNodes)
      (fun found world => Holds found world.slot) (fun _ => False) := by
    refine Returns.lift (Triple.perform (fun _ _ => trivial) ?_)
    intro world choice settled _
    have present : ∀ name ∈ (step .readNodes choice world).2, world.slot name ≠ .absent :=
      fun name mem => mem_readNodes.mp mem
    exact ⟨settled.1, settled.2.1, present⟩
  refine (returns_lockStore_works fun _ _ => id).bind fun _ => ?_
  refine read.bind fun found => ?_
  refine (returns_listNodes_holds start fun _ => id).bind fun _ => ?_
  exact Returns.pure fun _ _ => trivial

theorem listSucceeds_of_settled (settled : Settled world) (start : Str) :
    ListSucceeds client world start := by
  intro choices result isFair returned
  have holds := Triple.returned (returns_list_settled start) settled isFair returned
  cases result with
  | ok infos => exact ⟨infos, rfl⟩
  | error err => exact False.elim holds

end Listing

theorem beside_of_writes {name n : Str} (other : name ≠ n) {op : Op} (writes : op.Writes name) :
    op.Beside n := by
  rcases writes with plain | ⟨args, rfl⟩ | ⟨temp, state, rfl, _⟩
  · cases op with
    | mkdirAll loc =>
      cases loc with
      | networks => trivial
      | node dir => exact plain.1 ▸ other
    | createTemp loc =>
      cases loc with
      | networks => trivial
      | node dir => exact plain ▸ other
    | writeFile loc file content =>
      cases loc with
      | networks => trivial
      | node dir => exact plain.1 ▸ other
    | rename loc temp file doc =>
      cases loc with
      | networks => trivial
      | node dir => cases plain
    | unlink loc file =>
      cases loc with
      | networks => trivial
      | node dir => exact plain.1 ▸ other
    | rmdir dir => cases plain
    | _ => trivial
  · trivial
  · exact other

section Bare

variable {n : Str} {client : Client} {α : Type} {post : α → Prop}
  {fair : Op → Choice → World → Prop}

variable {action : Action α} {world : World}

theorem bare_of_acts (acts : Acts (Op.Beside n) post action) :
    Returns (runs fair) (fun world => world.slot n = .bare) action
      (fun _ world => world.slot n = .bare) (fun world => world.slot n = .bare) := by
  refine (Acts.returns acts (fun _ _ _ _ => trivial) ?_).weaken (fun _ => id)
    (fun _ _ holds => holds.1) fun _ => id
  intro op choice world beside _ bare
  exact (step_slot_of_beside beside choice world).trans bare

variable {name : Str}

theorem acts_beside (other : name ≠ n)
    (acts : Acts (Op.Writes name) post action) : Acts (Op.Beside n) post action :=
  acts.mono (fun _ writes => beside_of_writes other writes) fun _ => id

theorem issues_removeAll (other : name ≠ n) :
    Issues (Op.Beside n) (fun _ => True) (removeAll name) := by
  apply issues_removes.mono _ fun _ => id
  rintro op (rfl | ⟨file, rfl⟩ | rfl)
  · trivial
  · exact other
  · exact other

theorem acts_removeOwned (other : name ≠ n) :
    Does (Op.Beside n) (removeOwned client name) := by
  refine (acts_beside other (writes_of_plain (plain_of_own (acts_readState name)))).bind fun _ _ => ?_
  refine (acts_beside other (acts_stopLocked client name)).bind fun _ _ => ?_
  refine (Acts.lift (issues_removeAll other)).bind fun _ _ => ?_
  refine (acts_ask trivial).bind fun _ _ => ?_
  refine (acts_beside other (writes_of_plain (Acts.lift
    (issues_removeUnusedNetwork _)))).bind fun _ _ => ?_
  exact acts_check.mono (fun _ => id) fun _ _ => trivial

theorem triple_owns (name : Str) :
    Triple (runs fair) (fun world => world.slot n = .bare) (owns name)
      (fun owned world => world.slot n = .bare ∧ (owned → name ≠ n)) := by
  unfold owns
  split
  · have read : Triple (runs fair) (fun world => world.slot n = .bare)
        (perform (Op.readFile (.node name) stateFile))
        (fun found world => world.slot n = .bare ∧ ((found : Option (Option Doc)).isSome = true →
          name ≠ n)) := by
      refine Triple.perform (fun _ _ => trivial) ?_
      intro world choice bare _
      refine ⟨bare, ?_⟩
      rintro found rfl
      rcases Option.isSome_iff_exists.mp found with ⟨content, answered⟩
      have stored := readFile_slot.mp answered
      exact Slot.noConfusion (bare.symm.trans stored)
    exact read.bind fun found => Triple.done fun _ => id
  · exact Triple.done fun _ bare => ⟨bare, fun wrong => Bool.noConfusion wrong⟩

theorem triple_removeEach_bare (targets : List Str) :
    Triple (runs fair) (fun world => world.slot n = .bare) (removeEach client targets)
      (fun _ world => world.slot n = .bare) := by
  induction targets with
  | nil => exact fun _ => id
  | cons name targets ih =>
    refine (triple_owns name).bind fun owned => ?_
    rintro world ⟨bare, other⟩
    have one : Triple (runs fair) (fun world => world.slot n = .bare)
        (if owned then (removeOwned client name).run else Prog.done (.ok ()))
        (fun _ world => world.slot n = .bare) := by
      split
      · rename_i isOwned
        refine Triple.weaken (bare_of_acts (acts_removeOwned (other isOwned)))
          (fun _ => id) ?_
        intro result _ bare
        cases result <;> exact bare
      · exact Triple.done fun _ => id
    exact one.bind (fun _ => ih.bind fun _ => Triple.done fun _ => id)
      world bare

theorem returns_remove_bare (targets : List Str) :
    Returns (runs fair) (fun world => world.slot n = .bare) (remove client targets)
      (fun _ world => world.slot n = .bare) (fun world => world.slot n = .bare) := by
  refine (bare_of_acts (acts_must (acts_ask trivial))).bind fun _ => ?_
  refine (triple_removeEach_bare targets).weaken (fun _ => id) ?_
  intro result _ bare
  cases result <;> exact bare

theorem returns_listNodes_bare {found : List Str} (mem : n ∈ found) :
    Returns (runs LockWorks) (fun world => world.slot n = .bare) (listNodes client [] found)
      (fun _ _ => False) (fun _ => True) := by
  induction found with
  | nil => exact absurd mem List.not_mem_nil
  | cons name found ih =>
    by_cases here : name = n
    · subst here
      have unread : Returns (runs LockWorks) (fun world => world.slot name = .bare)
          (listNode client name) (fun _ _ => False) (fun _ => True) := by
        refine ((returns_readState name (fun _ _ _ => id)
          fun _ _ => trivial).weaken (fun _ => id) (fun _ _ => id) fun _ _ => trivial).bind
          fun state => ?_
        rintro world ⟨bare, stored, _⟩
        exact Slot.noConfusion (bare.symm.trans stored)
      exact unread.bind fun _ _ impossible => impossible.elim
    · have later := ih ((List.mem_cons.mp mem).resolve_left (Ne.symm here))
      have acts : Does (Op.Beside n) (listNode client name) :=
        acts_beside here ((writes_of_plain (plain_of_own (acts_readState name))).bind
          fun _ read => writes_of_replaces read.1 (acts_describe read.1.agrees))
      refine ((bare_of_acts acts).weaken (fun _ => id)
        (fun _ _ => id) fun _ _ => trivial).bind fun _ => ?_
      exact later.bind fun _ _ impossible => impossible.elim

theorem returns_list_bare :
    Returns (runs LockWorks) (fun world => world.slot n = .bare) (list client [])
      (fun _ _ => False) (fun _ => True) := by
  have read : Returns (runs LockWorks) (fun world => world.slot n = .bare) (ask .readNodes)
      (fun found world => world.slot n = .bare ∧ n ∈ found) (fun _ => True) := by
    refine Returns.lift (Triple.perform (fun _ _ => trivial) ?_)
    intro world choice bare _
    have present : n ∈ (step .readNodes choice world).2 :=
      mem_readNodes.mpr (bare ▸ Slot.noConfusion)
    exact ⟨bare, present⟩
  refine (returns_lockStore_works fun _ _ => id).bind fun _ => ?_
  refine read.bind fun found => ?_
  rintro world ⟨bare, mem⟩
  exact (returns_listNodes_bare mem).bind (fun _ _ impossible => impossible.elim) world bare

theorem not_listSucceeds_of_bare (bare : world.slot n = .bare) :
    ¬ ListSucceeds client world [] := by
  intro succeeds
  have works : ∀ op (state : World), LockWorks op calm state := fun _ _ _ => rfl
  rcases exists_fair_return machine (fun _ _ => calm) works (list client []).run world with ⟨choices, result, isFair, returned⟩
  rcases succeeds choices result isFair returned with ⟨infos, rfl⟩
  exact Triple.returned returns_list_bare bare isFair returned

theorem not_recoverable_of_bare (bare : world.slot n = .bare) :
    ¬ Recoverable client world := by
  rintro (succeeds | ⟨names, choices, result, returned, succeeds⟩)
  · exact not_listSucceeds_of_bare bare (succeeds [])
  · have isFair : (remove client names).run.FairRun machine (fun _ _ _ => True) choices world :=
      fairRun_of_forall (fun _ _ _ _ => trivial) _ world
    have after := Triple.returned (returns_remove_bare names) bare isFair returned
    have still : ((remove client names).run.exec machine choices world).state.slot n = .bare := by
      cases result with
      | ok _ => exact after
      | error _ => exact after
    exact not_listSucceeds_of_bare still (succeeds [])

end Bare

variable {client : Client} {world : World}

theorem recoverable_iff (sound : Sound world.slot) :
    Recoverable client world ↔ ∀ name, world.slot name ≠ .bare := by
  constructor
  · intro recoverable name bare
    exact not_recoverable_of_bare bare recoverable
  · intro whole
    left
    exact listSucceeds_of_settled ⟨sound, whole, fun _ mem => absurd mem List.not_mem_nil⟩

/--
The stores that sequences of calls reach. Any operation may fail, but what is removed from
the directory of a VM can be removed, and no call is killed while a directory has no
`state.json`.
-/
inductive Reachable (client : Client) : World → Prop
  | empty : Reachable client .empty
  | call {world : World} (call : Call) (choices : List Choice) (reachable : Reachable client world)
      (removals : (call.program client).run.FairRun machine RemovalsWork choices world)
      (unharmed : ((call.program client).run.exec machine choices world).value = none →
        ∀ name, ((call.program client).run.exec machine choices world).state.slot name ≠ .bare) :
      Reachable client ((call.program client).run.exec machine choices world).state

theorem settled_empty : Settled .empty :=
  ⟨fun _ => Or.inl rfl, fun _ => Slot.noConfusion, fun _ mem => absurd mem List.not_mem_nil⟩

theorem settled_call {call : Call} {choices : List Choice} (settled : Settled world)
    (removals : (call.program client).run.FairRun machine RemovalsWork choices world)
    (unharmed : ((call.program client).run.exec machine choices world).value = none →
      ∀ name, ((call.program client).run.exec machine choices world).state.slot name ≠ .bare) :
    Settled ((call.program client).run.exec machine choices world).state := by
  cases value : ((call.program client).run.exec machine choices world).value with
  | none =>
    rcases Triple.interrupted (returns_call call) settled removals value with ⟨_, sound⟩
    exact ⟨sound, unharmed value, fun _ mem => absurd mem List.not_mem_nil⟩
  | some result =>
    have after := Triple.returned (returns_call call) settled removals value
    cases result with
    | ok _ => exact after
    | error _ => exact after

theorem settled_of_reachable (reachable : Reachable client world) :
    Settled world := by
  induction reachable with
  | empty => exact settled_empty
  | call call choices _ removals unharmed ih => exact settled_call ih removals unharmed

-- The first creation is killed before the directory is made, the second one returns.

def ending : Choice := { calm with exits := fun _ => true }

end Kiac.Krunkit
