import Kiac.Krunkit.Footprint
import Kiac.Program.Strategy

/-!
# The inventory

Seen from outside, a VM has no directory, a directory without a `state.json`, or a
directory with one. `List` fails as a whole when it meets the second case, and `Remove`
skips it. A directory is in that case while a VM is created, until its `state.json` is
there, and while it is removed, from the moment its `state.json` is gone.
-/

namespace Kiac.Krunkit

inductive Slot where
  | absent
  | bare
  | stored (content : Option Doc)
deriving DecidableEq

def filesSlot (files : Files) : Slot :=
  match files.lookup stateFile with
  | none => .bare
  | some content => .stored content

def World.slot (world : World) (name : Str) : Slot :=
  match world.nodes.lookup name with
  | none => .absent
  | some files => filesSlot files

namespace World

@[simp]
theorem slot_evolve (world : World) (choice : Choice) : (world.evolve choice).slot = world.slot :=
  rfl

@[simp]
theorem slot_setProc (world : World) (pid : ℕ) (proc : Option Proc) :
    (world.setProc pid proc).slot = world.slot := rfl

@[simp]
theorem slot_setFiles_networks (world : World) (files : Files) :
    (world.setFiles .networks files).slot = world.slot := rfl

theorem slot_setFiles_node (world : World) (name : Str) (files : Files) :
    (world.setFiles (.node name) files).slot =
      Function.update world.slot name (filesSlot files) := by
  funext other
  by_cases same : other = name
  · subst same
    simp [slot, setFiles]
  · simp [slot, setFiles, same]

theorem slot_erase (world : World) (name : Str) :
    World.slot { world with nodes := world.nodes.erase name } =
      Function.update world.slot name .absent := by
  funext other
  by_cases same : other = name
  · subst same
    simp [slot]
  · simp [slot, same]

theorem slot_of_files {world : World} {name : Str} {files : Files}
    (found : world.files (.node name) = some files) : world.slot name = filesSlot files := by
  simp only [World.files] at found
  simp [slot, found]

end World

variable {files : Files} {world : World} {n : Str} {op : Op} {names : List Str} {slots : Str → Slot}
  {slot : Slot}

variable {file : Str} {content : Option Doc} {name : Str}

theorem filesSlot_insert
    (other : file ≠ stateFile) : filesSlot (files.insert file content) = filesSlot files := by
  unfold filesSlot
  rw [AList.lookup_insert_ne (Ne.symm other)]

theorem filesSlot_erase (other : file ≠ stateFile) :
    filesSlot (files.erase file) = filesSlot files := by
  unfold filesSlot
  rw [AList.lookup_erase_ne (Ne.symm other)]

theorem slot_setFiles_same {files' : Files}
    (found : world.files (.node name) = some files) (same : filesSlot files' = filesSlot files) :
    (world.setFiles (.node name) files').slot = world.slot := by
  rw [World.slot_setFiles_node, same, ← World.slot_of_files found, Function.update_eq_self]

theorem step_slot_of_plain (plain : op.Plain n) (choice : Choice) (world : World) :
    (step op choice world).1.slot = world.slot ∨
      validVMName n ∧ world.slot n = .absent ∧
        (step op choice world).1.slot = Function.update world.slot n .bare := by
  change (effect choice (world.evolve choice) op).1.slot = (world.evolve choice).slot ∨
    validVMName n = true ∧ (world.evolve choice).slot n = .absent ∧
      (effect choice (world.evolve choice) op).1.slot =
        Function.update (world.evolve choice).slot n .bare
  generalize world.evolve choice = world
  cases op with
  | mkdirAll loc =>
    cases loc with
    | networks => exact Or.inl rfl
    | node name =>
      rcases plain with ⟨rfl, valid⟩
      simp only [effect]
      split
      · split
        · exact Or.inl rfl
        · rename_i missing
          rw [← AList.lookup_eq_none] at missing
          refine Or.inr ⟨valid, by simp [World.slot, missing], ?_⟩
          rw [World.slot_setFiles_node]
          rfl
      · exact Or.inl rfl
  | createTemp loc =>
    simp only [effect]
    split
    · rename_i files found
      split
      · cases loc with
        | networks => exact Or.inl rfl
        | node name => exact Or.inl (slot_setFiles_same found (filesSlot_insert (tempFile_ne _)))
      · exact Or.inl rfl
    · exact Or.inl rfl
  | writeFile loc file content =>
    simp only [effect]
    split
    · rename_i files found
      have kept : ∀ content, (world.setFiles loc (files.insert file content)).slot = world.slot := by
        intro content
        cases loc with
        | networks => rfl
        | node name => exact slot_setFiles_same found (filesSlot_insert plain.2)
      split
      · exact Or.inl (kept _)
      · split
        · exact Or.inl (kept _)
        · exact Or.inl rfl
    · exact Or.inl rfl
  | rename loc temp file doc =>
    cases loc with
    | networks =>
      simp only [effect, World.files]
      split <;> exact Or.inl rfl
    | node name => cases plain
  | unlink loc file =>
    simp only [effect]
    split
    · rename_i files found
      split
      · cases loc with
        | networks => exact Or.inl rfl
        | node name => exact Or.inl (slot_setFiles_same found (filesSlot_erase plain.2))
      · exact Or.inl rfl
    · exact Or.inl rfl
  | entries loc =>
    simp only [effect]
    split <;> exact Or.inl rfl
  | rmdir name => cases plain
  | launch name args => cases plain
  | terminate pid =>
    simp only [effect]
    split <;> exact Or.inl rfl
  | _ => exact Or.inl rfl

def Op.Beside (n : Str) : Op → Prop
  | .mkdirAll (.node name) => name ≠ n
  | .createTemp (.node name) => name ≠ n
  | .writeFile (.node name) _ _ => name ≠ n
  | .rename (.node name) _ _ _ => name ≠ n
  | .unlink (.node name) _ => name ≠ n
  | .rmdir name => name ≠ n
  | _ => True

theorem setFiles_slot_of_ne (other : name ≠ n) :
    (world.setFiles (.node name) files).slot n = world.slot n := by
  rw [World.slot_setFiles_node, Function.update_of_ne (Ne.symm other)]

theorem step_slot_of_beside (beside : op.Beside n) (choice : Choice)
    (world : World) : (step op choice world).1.slot n = world.slot n := by
  change (effect choice (world.evolve choice) op).1.slot n = (world.evolve choice).slot n
  generalize world.evolve choice = world
  have setFiles : ∀ {loc : Loc} (files : Files), (∀ name, loc = .node name → name ≠ n) →
      (world.setFiles loc files).slot n = world.slot n := by
    intro loc files other
    cases loc with
    | networks => rfl
    | node name => exact setFiles_slot_of_ne (other name rfl)
  cases op with
  | mkdirAll loc =>
    cases loc with
    | networks => rfl
    | node name =>
      simp only [effect]
      split
      · split
        · rfl
        · exact setFiles_slot_of_ne beside
      · rfl
  | createTemp loc =>
    simp only [effect]
    split
    · split
      · exact setFiles _ fun name eq => by subst eq; exact beside
      · rfl
    · rfl
  | writeFile loc file content =>
    simp only [effect]
    split
    · split
      · exact setFiles _ fun name eq => by subst eq; exact beside
      · split
        · exact setFiles _ fun name eq => by subst eq; exact beside
        · rfl
    · rfl
  | rename loc temp file doc =>
    simp only [effect]
    split
    · split
      · exact setFiles _ fun name eq => by subst eq; exact beside
      · rfl
    · rfl
  | unlink loc file =>
    simp only [effect]
    split
    · split
      · exact setFiles _ fun name eq => by subst eq; exact beside
      · rfl
    · rfl
  | entries loc =>
    simp only [effect]
    split <;> rfl
  | rmdir name =>
    simp only [effect]
    split
    · split
      · rw [World.slot_erase, Function.update_of_ne (Ne.symm beside)]
      · rfl
    · rfl
  | launch name args =>
    simp only [effect]
    split <;> rfl
  | terminate pid =>
    simp only [effect]
    split <;> rfl
  | _ => rfl

theorem step_rename (n temp : Str) (doc : Doc) (choice : Choice) (world : World) :
    ((step (.rename (.node n) temp stateFile doc) choice world).2 = false ∧
        (step (.rename (.node n) temp stateFile doc) choice world).1.slot = world.slot) ∨
      ((step (.rename (.node n) temp stateFile doc) choice world).2 ∧
        world.slot n ≠ .absent ∧
        (step (.rename (.node n) temp stateFile doc) choice world).1.slot =
          Function.update world.slot n (.stored (some doc))) := by
  simp only [step, effect]
  split
  · rename_i files found
    split
    · refine Or.inr ⟨rfl, ?_, ?_⟩
      · have slot := World.slot_of_files found
        rw [World.slot_evolve] at slot
        rw [slot, filesSlot]
        split <;> exact Slot.noConfusion
      · rw [World.slot_setFiles_node, World.slot_evolve, filesSlot, AList.lookup_insert]
    · exact Or.inl ⟨rfl, rfl⟩
  · exact Or.inl ⟨rfl, rfl⟩

/-- A `state.json` as the client writes it. -/
def Written (n : Str) (slot : Slot) : Prop :=
  validVMName n = true ∧ ∃ state, slot = .stored (some (.node state)) ∧ OfNode n state

/-- A step that writes changes the slot of its VM only: a directory is made, or a new
`state.json` is there. -/
theorem step_slot_of_writes (writes : op.Writes n) (choice : Choice) (world : World) :
    (step op choice world).1.slot = world.slot ∨
      (validVMName n ∧ world.slot n = .absent ∧
        (step op choice world).1.slot = Function.update world.slot n .bare) ∨
      world.slot n ≠ .absent ∧ ∃ slot, Written n slot ∧
        (step op choice world).1.slot = Function.update world.slot n slot := by
  rcases writes with plain | ⟨args, rfl⟩ | ⟨temp, state, rfl, ofNode, valid⟩
  · rcases step_slot_of_plain plain choice world with same | made
    · exact Or.inl same
    · exact Or.inr (Or.inl made)
  · simp only [step, effect]
    split <;> exact Or.inl rfl
  · rcases step_rename n temp (.node state) choice world with ⟨_, same⟩ | ⟨_, present, stored⟩
    · exact Or.inl same
    · exact Or.inr (Or.inr ⟨present, _, ⟨valid, state, rfl, ofNode⟩, stored⟩)

/-- Every directory has a valid name, and every `state.json` was written by the client. -/
def Sound (slots : Str → Slot) : Prop :=
  ∀ name, slots name = .absent ∨ (slots name = .bare ∧ validVMName name = true) ∨
    Written name (slots name)

/-- A sound inventory in which at most one directory has no `state.json`. -/
def Loose (n : Str) (slots : Str → Slot) : Prop :=
  Sound slots ∧ ∀ name, name ≠ n → slots name ≠ .bare

/-- A sound inventory in which no directory is without `state.json`, and some VMs are there. -/
def Holds (names : List Str) (slots : Str → Slot) : Prop :=
  Sound slots ∧ (∀ name, slots name ≠ .bare) ∧ ∀ name ∈ names, slots name ≠ .absent

theorem Holds.loose (holds : Holds names slots) (n : Str) :
    Loose n slots := ⟨holds.1, fun name _ => holds.2.1 name⟩

theorem Holds.written (holds : Holds names slots) (mem : n ∈ names) : Written n (slots n) := by
  rcases holds.1 n with absent | ⟨bare, _⟩ | written
  · exact absurd absent (holds.2.2 n mem)
  · exact absurd bare (holds.2.1 n)
  · exact written

theorem Holds.mono {names' : List Str} (holds : Holds names slots)
    (fewer : ∀ name ∈ names', name ∈ names) : Holds names' slots :=
  ⟨holds.1, holds.2.1, fun name mem => holds.2.2 name (fewer name mem)⟩

theorem Sound.update (sound : Sound slots)
    (new : slot = .absent ∨ (slot = .bare ∧ validVMName n) ∨ Written n slot) :
    Sound (Function.update slots n slot) := by
  intro name
  by_cases same : name = n
  · subst same
    rwa [Function.update_self]
  · rw [Function.update_of_ne same]
    exact sound name

theorem Loose.update (loose : Loose n slots)
    (new : slot = .absent ∨ (slot = .bare ∧ validVMName n) ∨ Written n slot) :
    Loose n (Function.update slots n slot) := by
  refine ⟨loose.1.update new, ?_⟩
  intro name other
  rw [Function.update_of_ne other]
  exact loose.2 name other

theorem Written.ne (written : Written n slot) :
    slot ≠ .bare ∧ slot ≠ .absent := by
  rcases written with ⟨_, state, rfl, _⟩
  exact ⟨Slot.noConfusion, Slot.noConfusion⟩

theorem Loose.holds_update (loose : Loose n slots)
    (written : Written n slot) : Holds [n] (Function.update slots n slot) := by
  refine ⟨loose.1.update (Or.inr (Or.inr written)), ?_, ?_⟩
  · intro name
    by_cases same : name = n
    · subst same
      rw [Function.update_self]
      exact written.ne.1
    · rw [Function.update_of_ne same]
      exact loose.2 name same
  · intro name mem
    obtain rfl := List.mem_singleton.mp mem
    rw [Function.update_self]
    exact written.ne.2

theorem loose_step (writes : op.Writes n) (choice : Choice)
    (loose : Loose n world.slot) : Loose n (step op choice world).1.slot := by
  rcases step_slot_of_writes writes choice world with same | ⟨valid, _, made⟩ |
    ⟨_, slot, written, replaced⟩
  · rwa [same]
  · rw [made]
    exact loose.update (Or.inr (Or.inl ⟨rfl, valid⟩))
  · rw [replaced]
    exact loose.update (Or.inr (Or.inr written))

theorem holds_step (writes : op.Writes n) (mem : n ∈ names)
    (choice : Choice) (holds : Holds names world.slot) :
    Holds names (step op choice world).1.slot := by
  rcases step_slot_of_writes writes choice world with same | ⟨_, absent, _⟩ |
    ⟨_, slot, written, replaced⟩
  · rwa [same]
  · exact absurd absent (holds.2.2 n mem)
  · rw [replaced]
    refine ⟨holds.1.update (Or.inr (Or.inr written)), ?_, ?_⟩
    · exact ((holds.loose n).holds_update written).2.1
    · intro name isName
      by_cases same : name = n
      · subst same
        rw [Function.update_self]
        exact written.ne.2
      · rw [Function.update_of_ne same]
        exact holds.2.2 name isName

theorem step_slot_of_plain_nil (plain : op.Plain []) (choice : Choice) (world : World) :
    (step op choice world).1.slot = world.slot := by
  rcases step_slot_of_plain plain choice world with same | ⟨invalid, _⟩
  · exact same
  · exact absurd invalid (by decide)

theorem readFile_slot :
    (world.files (.node n) >>= fun files => files.lookup stateFile) = some content ↔
      world.slot n = .stored content := by
  simp only [World.files, World.slot, filesSlot, Option.bind_eq_bind]
  cases world.nodes.lookup n with
  | none => simp
  | some files => cases found : files.lookup stateFile <;> simp [found]

theorem returns_readState {fair : Op → Choice → World → Prop} {guard : Op → World → Prop}
    {pre : World → Prop} (n : Str)
    (evolves : ∀ world choice, fair (.readFile (.node n) stateFile) choice world → pre world →
      pre (world.evolve choice))
    (guarded : ∀ world, pre world → guard (.readFile (.node n) stateFile) world) :
    Returns ⟨machine, fair, guard⟩ pre (readState n)
      (fun state world => pre world ∧ world.slot n = .stored (some (.node state)) ∧
        OfNode n state) pre := by
  have read : Returns ⟨machine, fair, guard⟩ pre (ask (.readFile (.node n) stateFile))
      (fun found world => pre world ∧ ∀ content, found = some content →
        world.slot n = .stored content) pre := by
    refine Returns.lift (Triple.perform guarded ?_)
    intro world choice holds isFair
    exact ⟨evolves world choice isFair holds, fun content answered => readFile_slot.mp answered⟩
  refine (returns_check fun _ => id).bind fun _ => ?_
  refine (read.weaken (fun _ holds => holds.1) (fun _ _ => id)
    fun _ => id).bind fun found => ?_
  refine (returns_given found fun _ holds => holds.1).bind fun content => ?_
  cases parsed : parseState n content with
  | error err => exact fun world holds => holds.1.1
  | ok state =>
    rcases parseState_ofNode parsed with ⟨rfl, ofNode⟩
    exact fun world holds => ⟨holds.1.1, holds.1.2 _ holds.2, ofNode⟩

def RemovalsWork (op : Op) (choice : Choice) (_ : World) : Prop :=
  match op with
  | .unlink (.node _) _ => choice.works = true
  | .rmdir _ => choice.works = true
  | _ => True

def inventory : Setting Op Op.Ans World Choice :=
  ⟨machine, RemovalsWork, fun _ world => Sound world.slot⟩

section Programs

variable {n : Str} {names : List Str} {α : Type} {post : α → Prop} {client : Client}

variable {action : Action α}

theorem loose_of_acts (acts : Acts (Op.Writes n) post action) :
    Returns inventory (fun world => Loose n world.slot) action
      (fun value world => Loose n world.slot ∧ post value) (fun world => Loose n world.slot) :=
  Acts.returns acts (fun _ _ _ loose => loose.1)
    fun _ choice _ writes _ loose => loose_step writes choice loose

theorem loose_of_plain (acts : Does (Op.Plain n) action) :
    Returns inventory (fun world => Loose n world.slot) action
      (fun _ world => Loose n world.slot) (fun world => Loose n world.slot) :=
  (loose_of_acts (writes_of_plain acts)).weaken (fun _ => id)
    (fun _ _ holds => holds.1) fun _ => id

theorem holds_of_acts (mem : n ∈ names) (acts : Acts (Op.Writes n) post action) :
    Returns inventory (fun world => Holds names world.slot) action
      (fun value world => Holds names world.slot ∧ post value)
      (fun world => Holds names world.slot) :=
  Acts.returns acts (fun _ _ _ holds => holds.1)
    fun _ choice _ writes _ holds => holds_step writes mem choice holds

theorem quiet_of_acts (acts : Acts (Op.Plain []) post action) :
    Returns inventory (fun world => Holds names world.slot) action
      (fun value world => Holds names world.slot ∧ post value)
      (fun world => Holds names world.slot) := by
  refine Acts.returns acts (fun _ _ _ holds => holds.1) ?_
  intro op choice world plain _ holds
  rwa [show (inventory.machine.step op choice world).1.slot = world.slot from
    step_slot_of_plain_nil plain choice world]

theorem quiet_of_issues {program : Prog Op Op.Ans α} (issues : Issues (Op.Plain []) post program) :
    Triple inventory (fun world => Holds names world.slot) program
      (fun value world => Holds names world.slot ∧ post value) := by
  refine Issues.triple issues (fun _ _ _ holds => holds.1) ?_
  intro op choice world plain _ holds
  rwa [show (inventory.machine.step op choice world).1.slot = world.slot from
    step_slot_of_plain_nil plain choice world]

theorem returns_readState_holds :
    Returns inventory (fun world => Holds names world.slot) (readState n)
      (fun state world => Holds (n :: names) world.slot ∧ OfNode n state)
      (fun world => Holds names world.slot) := by
  refine (returns_readState n (fun _ _ _ => id) fun _ holds => holds.1).weaken
    (fun _ => id) ?_ fun _ => id
  rintro state world ⟨holds, stored, ofNode⟩
  refine ⟨⟨holds.1, holds.2.1, ?_⟩, ofNode⟩
  intro name mem
  rcases List.mem_cons.mp mem with rfl | later
  · rw [stored]
    exact Slot.noConfusion
  · exact holds.2.2 name later

theorem returns_writeState {state : NodeState} (ofNode : OfNode n state) :
    Returns inventory (fun world => Loose n world.slot) (writeState state)
      (fun _ world => Holds [n] world.slot) (fun world => Loose n world.slot) := by
  refine returns_writeState_of_rename ofNode ?_ ?_ ?_
  · intro op own
    exact Triple.perform (fun _ loose => loose.1) fun _ choice loose _ =>
      loose_step (Or.inl own.plain) choice loose
  · intro op own
    exact Triple.perform (fun _ holds => holds.1) fun _ choice holds _ =>
      holds_step (Or.inl own.plain) (List.mem_singleton_self n) choice holds
  · intro valid suffix
    refine Triple.perform (fun _ loose => loose.1) ?_
    intro world choice loose _
    have holds := loose.holds_update ⟨valid, state, rfl, ofNode⟩
    change if (step (.rename (.node n) (tempFile suffix) stateFile (.node state)) choice world).2
      then _ else _
    rcases step_rename n (tempFile suffix) (.node state) choice world with ⟨failed, same⟩ | ⟨renamed, _, stored⟩
    · rw [failed]
      exact same ▸ loose
    · rw [renamed]
      exact stored ▸ holds

def Left (n : Str) (files : List Str) (world : World) : Prop :=
  ∀ present, world.nodes.lookup n = some present → ∀ file ∈ present, file ∈ files

theorem valid_of_present {slots : Str → Slot} (sound : Sound slots) (present : slots n ≠ .absent) :
    validVMName n := by
  rcases sound n with absent | ⟨_, valid⟩ | written
  · exact absurd absent present
  · exact valid
  · exact written.1

theorem filesSlot_ne_absent (files : Files) : filesSlot files ≠ .absent := by
  unfold filesSlot
  split <;> exact Slot.noConfusion

theorem loose_unlink {file : Str} {files : List Str} {choice : Choice} {world : World}
    (works : choice.works) (loose : Loose n world.slot) (left : Left n (file :: files) world) :
    Loose n (step (.unlink (.node n) file) choice world).1.slot ∧
      Left n files (step (.unlink (.node n) file) choice world).1 := by
  have others : ∀ {other : Str}, other ∈ file :: files → other ≠ file → other ∈ files :=
    fun mem differs => (List.mem_cons.mp mem).resolve_left differs
  simp only [step, effect, works, Bool.true_and, decide_eq_true_eq]
  split
  · rename_i present found
    have slot := World.slot_of_files found
    split
    · constructor
      · rw [World.slot_setFiles_node, World.slot_evolve]
        apply loose.update
        by_cases isState : file = stateFile
        · have valid := valid_of_present loose.1 (slot ▸ filesSlot_ne_absent present)
          subst isState
          exact Or.inr (Or.inl ⟨by simp [filesSlot], valid⟩)
        · rw [filesSlot_erase isState, ← slot]
          exact loose.1 n
      · intro present' found' other mem
        have erased : present' = present.erase file := by simpa [World.setFiles] using found'.symm
        rw [erased, AList.mem_erase] at mem
        exact others (left present found other mem.2) mem.1
    · rename_i missing
      refine ⟨loose, ?_⟩
      intro present' found' other mem
      obtain rfl := Option.some.inj (found.symm.trans found')
      exact others (left _ found' other mem) fun same => missing (same ▸ mem)
  · rename_i absent
    exact ⟨loose, fun present found => absurd (found.symm.trans absent) (Option.some_ne_none _)⟩

theorem triple_unlinkAll (files : List Str) :
    Triple inventory (fun world => Loose n world.slot ∧ Left n files world) (unlinkAll n files)
      (fun _ world => Loose n world.slot ∧ Left n [] world) := by
  induction files with
  | nil => exact fun world holds => holds
  | cons file files ih =>
    refine (Triple.perform (fun _ holds => holds.1.1) ?_).bind fun _ => ih
    intro world choice holds works
    exact loose_unlink works holds.1 holds.2

theorem triple_removeAll :
    Triple inventory (fun world => Loose n world.slot) (removeAll n)
      (fun _ world => Holds [] world.slot) := by
  have read : Triple inventory (fun world => Loose n world.slot)
      (Prog.perform (Op.entries (.node n)))
      (fun files world => Loose n world.slot ∧ Left n files world) := by
    refine Triple.perform (fun _ loose => loose.1) ?_
    intro world choice loose _
    change Loose n (effect choice (world.evolve choice) (.entries (.node n))).1.slot ∧
      Left n (effect choice (world.evolve choice) (.entries (.node n))).2
        (effect choice (world.evolve choice) (.entries (.node n))).1
    simp only [effect]
    split
    · rename_i present found
      refine ⟨loose, ?_⟩
      intro present' found' file mem
      obtain rfl := Option.some.inj (found.symm.trans found')
      simp only
      split
      · rename_i order
        exact order.mem_iff.mpr mem
      · exact mem
    · rename_i absent
      exact ⟨loose, fun present found => absurd (found.symm.trans absent) (Option.some_ne_none _)⟩
  refine read.bind fun files => (triple_unlinkAll files).bind fun _ => ?_
  refine Triple.perform (fun _ holds => holds.1.1) ?_
  rintro world choice ⟨loose, left⟩ works
  have works : choice.works := works
  have gone : ∀ {slots : Str → Slot}, Loose n slots → slots n = .absent → Holds [] slots := by
    intro slots loose absent
    refine ⟨loose.1, fun name => ?_, fun _ mem => absurd mem List.not_mem_nil⟩
    by_cases same : name = n
    · rw [same, absent]
      exact Slot.noConfusion
    · exact loose.2 name same
  change Holds [] (effect choice (world.evolve choice) (.rmdir n)).1.slot
  simp only [effect, works, Bool.true_and]
  split
  · rename_i present found
    have empty : present.keys.isEmpty := by
      rw [List.isEmpty_iff, List.eq_nil_iff_forall_not_mem]
      intro file mem
      exact absurd (left present found file mem) List.not_mem_nil
    rw [if_pos empty]
    rw [World.slot_erase]
    exact gone (loose.update (Or.inl rfl)) (Function.update_self ..)
  · rename_i absent
    refine gone loose ?_
    simp [World.slot, absent]

def Settled (world : World) : Prop := Holds [] world.slot

theorem triple_cleanup (opts : RunOpts) :
    Triple inventory (fun world => Loose opts.name world.slot) (cleanup opts)
      (fun _ => Settled) := by
  refine triple_removeAll.bind fun _ => ?_
  exact (quiet_of_issues (issues_removeUnusedNetwork _)).weaken (fun _ => id)
    fun _ _ holds => holds.1

theorem returns_createNode {opts : RunOpts} (resources : Resources) (network : Network)
    (valid : validVMName opts.name) :
    Returns inventory (fun world => Loose opts.name world.slot)
      (createNode client opts resources network) (fun _ => Settled)
      (fun world => Loose opts.name world.slot) := by
  refine (loose_of_plain (acts_must (acts_ask ⟨rfl, valid⟩))).bind fun _ => ?_
  refine (loose_of_plain (acts_must (acts_ask trivial))).bind fun _ => ?_
  refine Returns.bind (loose_of_plain (acts_ask trivial)) fun drawn => ?_
  refine (loose_of_plain (acts_given drawn)).bind fun mac => ?_
  refine Returns.bind (loose_of_plain (acts_ask trivial)) fun created => ?_
  refine (loose_of_plain (plain_of_own (acts_cloneDisk valid))).bind fun _ => ?_
  refine (loose_of_plain (plain_of_own (acts_createCloudInitISO _))).bind fun _ => ?_
  have ofNode : OfNode opts.name (newState client opts resources network mac created) := ⟨rfl, rfl⟩
  refine (returns_writeState ofNode).bind fun _ => ?_
  refine (holds_of_acts (List.mem_singleton_self _)
    (writes_of_replaces ofNode (acts_startState ofNode.agrees))).weaken
    (fun _ => id) ?_ fun _ holds => holds.loose _
  exact fun _ _ holds => holds.1.mono fun _ mem => absurd mem List.not_mem_nil

theorem settled_of_acts (acts : Acts (Op.Plain []) post action) :
    Returns inventory Settled action (fun value world => Settled world ∧ post value) Settled :=
  quiet_of_acts acts

theorem returns_lockStore :
    Returns inventory Settled (must (ask .lockStore) .lock) (fun _ => Settled) Settled :=
  (settled_of_acts (acts_must (acts_ask trivial))).weaken (fun _ => id)
    (fun _ _ holds => holds.1) fun _ => id

theorem returns_runDetached (opts : RunOpts) :
    Returns inventory Settled (runDetached client opts) (fun _ => Settled) Settled := by
  have quiet : ∀ {β : Type} {action : Action β}, Does (Op.Plain []) action →
      Returns inventory Settled action (fun _ => Settled) Settled :=
    fun acts => (settled_of_acts acts).weaken (fun _ => id)
      (fun _ _ holds => holds.1) fun _ => id
  refine (returns_check fun _ => id).bind fun _ => ?_
  rintro world ⟨settled, valid⟩
  refine (returns_check fun _ => id).bind (fun _ => ?_) world settled
  refine Returns.bind (Returns.weaken (quiet (acts_ask trivial)) (fun _ holds => holds.1)
    (fun _ _ => id) fun _ => id) fun checked => ?_
  refine (quiet (acts_given checked)).bind fun resources => ?_
  refine (quiet (acts_onlyIf (acts_must (acts_ask trivial)))).bind fun _ => ?_
  refine returns_lockStore.bind fun _ => ?_
  refine (quiet (plain_of_own (Acts.lift (issues_owns _)))).bind fun owned => ?_
  refine (returns_check fun _ => id).bind fun _ => ?_
  refine ((quiet (acts_ensureNetwork _)).weaken (fun _ holds => holds.1)
    (fun _ _ => id) fun _ => id).bind fun network => ?_
  refine Returns.onError ?_ (triple_cleanup opts)
  exact (returns_createNode resources network valid).weaken (fun _ holds => holds.loose _)
    (fun _ _ => id) fun _ => id

theorem holds_after_readState {next : NodeState → Action α}
    (acts : ∀ state, OfNode n state → Does (Op.Writes n) (next state)) :
    Returns inventory (fun world => Holds names world.slot) (readState n >>= next)
      (fun _ world => Holds names world.slot) (fun world => Holds names world.slot) := by
  have fewer : ∀ {slots : Str → Slot}, Holds (n :: names) slots → Holds names slots :=
    fun holds => holds.mono fun _ mem => List.mem_cons_of_mem n mem
  refine returns_readState_holds.bind fun state => ?_
  rintro world ⟨holds, ofNode⟩
  exact (holds_of_acts List.mem_cons_self (acts state ofNode)).weaken (fun _ => id)
    (fun _ _ holds => fewer holds.1) (fun _ holds => fewer holds) world holds

theorem returns_start (name : Str) :
    Returns inventory Settled (start client name) (fun _ => Settled) Settled :=
  returns_lockStore.bind fun _ => holds_after_readState fun _ ofNode =>
    writes_of_replaces ofNode (acts_startState ofNode.agrees)

theorem returns_stop (name : Str) :
    Returns inventory Settled (stop client name) (fun _ => Settled) Settled :=
  returns_lockStore.bind fun _ => holds_after_readState fun _ ofNode =>
    writes_of_replaces ofNode (acts_halt ofNode.agrees)

theorem returns_listNodes (start : Str) (found : List Str) :
    Returns inventory Settled (listNodes client start found) (fun _ => Settled) Settled := by
  induction found with
  | nil => exact Returns.pure fun _ => id
  | cons name found ih =>
    unfold listNodes
    split
    · refine (holds_after_readState fun _ ofNode =>
        writes_of_replaces ofNode (acts_describe ofNode.agrees)).bind fun _ => ?_
      exact ih.bind fun _ => Returns.pure fun _ => id
    · exact ih

theorem returns_list (start : Str) :
    Returns inventory Settled (list client start) (fun _ => Settled) Settled := by
  refine returns_lockStore.bind fun _ => ?_
  refine Returns.bind (Returns.weaken (settled_of_acts (acts_ask trivial)) (fun _ => id)
    (fun _ _ holds => holds.1) fun _ => id) fun found => ?_
  exact (returns_listNodes start found).bind fun _ => Returns.pure fun _ => id

theorem returns_removeOwned (name : Str) :
    Returns inventory Settled (removeOwned client name) (fun _ => Settled) Settled := by
  have settled : ∀ {slots : Str → Slot}, Holds [name] slots → Holds [] slots :=
    fun holds => holds.mono fun _ mem => absurd mem List.not_mem_nil
  have quiet : ∀ {β : Type} {action : Action β}, Does (Op.Plain []) action →
      Returns inventory Settled action (fun _ => Settled) Settled :=
    fun acts => (settled_of_acts acts).weaken (fun _ => id)
      (fun _ _ holds => holds.1) fun _ => id
  refine returns_readState_holds.bind fun state => ?_
  rintro world ⟨holds, _⟩
  refine ((holds_of_acts (List.mem_singleton_self name)
    (acts_stopLocked client name)).weaken (fun _ => id) (fun _ _ holds => holds.1)
    fun _ holds => settled holds).bind (fun _ => ?_) world holds
  refine (Returns.lift (triple_removeAll.weaken (fun _ holds => holds.loose name)
    fun _ _ => id)).bind fun gone => ?_
  refine Returns.bind (quiet (acts_ask trivial)) fun _ => ?_
  refine (quiet (Acts.lift (issues_removeUnusedNetwork _))).bind fun _ => ?_
  exact (returns_check fun _ => id).weaken (fun _ => id)
    (fun _ _ holds => holds.1) fun _ => id

theorem triple_removeEach (targets : List Str) :
    Triple inventory Settled (removeEach client targets) (fun _ => Settled) := by
  induction targets with
  | nil => exact fun _ => id
  | cons name targets ih =>
    refine ((quiet_of_issues (plain_issues_of_own (issues_owns name))).weaken
      (fun _ => id)
      fun _ _ holds => holds.1).bind fun owned => ?_
    have one : Triple inventory Settled
        (if owned then (removeOwned client name).run else Prog.done (.ok ()))
        (fun _ => Settled) := by
      split
      · refine Triple.weaken (returns_removeOwned name) (fun _ => id) ?_
        intro result _ settled
        cases result <;> exact settled
      · exact Triple.done fun _ => id
    exact one.bind fun _ => ih.bind fun _ => Triple.done fun _ => id

theorem returns_remove (targets : List Str) :
    Returns inventory Settled (remove client targets) (fun _ => Settled) Settled := by
  refine returns_lockStore.bind fun _ => ?_
  refine (triple_removeEach targets).weaken (fun _ => id) ?_
  intro result _ settled
  cases result <;> exact settled

theorem returns_call (call : Call) :
    Returns inventory Settled (call.program client) (fun _ => Settled) Settled := by
  cases call with
  | runDetached opts => exact returns_runDetached opts
  | start name => exact returns_start name
  | stop name => exact returns_stop name
  | list start =>
    exact (returns_list start).bind fun _ => Returns.pure fun _ => id
  | remove targets => exact returns_remove targets

end Programs

end Kiac.Krunkit
