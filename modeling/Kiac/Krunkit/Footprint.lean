import Kiac.Krunkit.Client
import Kiac.Program.Triple

/-!
# What the programs of the client touch

Most steps of the client only look, or write files beside `state.json` in the directory of
one VM. Starting, stopping and listing a VM in addition replace its `state.json` by a state
of the same name, and may launch its hypervisor.
-/

namespace Kiac.Krunkit

/-- A step that leaves every `state.json` alone and launches nothing. It writes to the
directory of one VM only. -/
def Op.Plain (n : Str) : Op → Prop
  | .mkdirAll (.node name) => name = n ∧ validVMName n = true
  | .createTemp (.node name) => name = n
  | .writeFile (.node name) file _ => name = n ∧ file ≠ stateFile
  | .unlink (.node name) file => name = n ∧ file ≠ stateFile
  | .rename (.node _) _ _ _ => False
  | .rmdir _ => False
  | .launch _ _ => False
  | _ => True

def Op.Own (n : Str) : Op → Prop
  | .mkdirAll loc => loc = .node n ∧ validVMName n = true
  | .createTemp loc => loc = .node n
  | .writeFile loc file _ => loc = .node n ∧ file ≠ stateFile
  | .unlink loc file => loc = .node n ∧ file ≠ stateFile
  | .rename _ _ _ _ => False
  | .rmdir _ => False
  | .launch _ _ => False
  | _ => True

def OfNode (n : Str) (state : NodeState) : Prop := state.schema = stateSchema ∧ state.name = n

/-- A plain step, a launch of the VM, or a new `state.json` for it. -/
def Op.Writes (n : Str) (op : Op) : Prop :=
  op.Plain n ∨ (∃ args, op = .launch n args) ∨
    ∃ temp state, op = .rename (.node n) temp stateFile (.node state) ∧ OfNode n state ∧
      validVMName n = true

def Agrees (original state : NodeState) : Prop :=
  OfNode original.name state ∧ state.networkID = original.networkID ∧
    state.networkCIDR = original.networkCIDR

/-- A step in the directory of the VM, a launch of it, or a new `state.json` that agrees with the
one that it had. -/
def Op.Replaces (original : NodeState) (op : Op) : Prop :=
  op.Own original.name ∨ (∃ args, op = .launch original.name args) ∨
    ∃ suffix state, op = .rename (.node original.name) (tempFile suffix) stateFile (.node state) ∧
      Agrees original state ∧ validVMName original.name = true

theorem tempFile_ne (suffix : Str) : tempFile suffix ≠ stateFile := by
  intro same
  have first := congrArg List.head? same
  rw [tempFile, List.head?_append_of_ne_nil _ (by decide)] at first
  exact absurd first (by decide)

variable {op : Op}

theorem Op.Own.plain {n : Str} (own : op.Own n) : op.Plain n := by
  cases op with
  | mkdirAll loc =>
    rcases own with ⟨rfl, valid⟩
    exact ⟨rfl, valid⟩
  | createTemp loc =>
    subst own
    rfl
  | writeFile loc file content =>
    rcases own with ⟨rfl, other⟩
    exact ⟨rfl, other⟩
  | unlink loc file =>
    rcases own with ⟨rfl, other⟩
    exact ⟨rfl, other⟩
  | rename loc temp file doc => exact own.elim
  | rmdir name => exact own.elim
  | launch name args => exact own.elim
  | _ => trivial

theorem Op.Replaces.writes {original : NodeState} (replaces : op.Replaces original) :
    op.Writes original.name := by
  rcases replaces with own | launched | ⟨suffix, state, rfl, agrees, valid⟩
  · exact Or.inl own.plain
  · exact Or.inr (Or.inl launched)
  · exact Or.inr (Or.inr ⟨_, state, rfl, agrees.1, valid⟩)

section Helpers

variable {allowed : Op → Prop}

theorem acts_ask {op : Op} (isAllowed : allowed op) :
    Does allowed (ask op) := Acts.lift (Issues.perform isAllowed)

variable {holds : Bool} {err : Err} {action : Action Unit} {loc : Loc} {file : Str} {doc : Doc}

theorem acts_check : Acts allowed (fun _ => holds) (check holds err) := by
  unfold check
  split
  · rename_i isTrue
    exact Acts.pure isTrue
  · exact Acts.throw

theorem acts_must {action : Action Bool} (acts : Does allowed action) :
    Does allowed (must action err) :=
  acts.bind fun _ _ => acts_check.mono (fun _ => id) fun _ _ => trivial

variable {α : Type}

theorem acts_given (value : Option α) :
    Does allowed (given err value) := by
  cases value with
  | none => exact Acts.throw
  | some value => exact Acts.pure trivial

theorem acts_onlyIf (acts : Does allowed action) :
    Does allowed (onlyIf holds action) := by
  unfold onlyIf
  split
  · exact acts
  · exact Acts.pure trivial

theorem acts_attempt (acts : Does allowed action) :
    Does allowed (attempt action) := Issues.bind acts fun _ _ => trivial

theorem acts_renameIf {written : Bool} {temp : Str}
    (isAllowed : allowed (.rename loc temp file doc)) :
    Does allowed (renameIf written loc temp file doc) := by
  unfold renameIf
  split
  · exact acts_ask isAllowed
  · exact Acts.pure trivial

theorem acts_writeJSONAtomic (create : allowed (.createTemp loc))
    (write : ∀ suffix, allowed (.writeFile loc (tempFile suffix) (some doc)))
    (rename : ∀ suffix, allowed (.rename loc (tempFile suffix) file doc))
    (unlink : ∀ suffix, allowed (.unlink loc (tempFile suffix))) :
    Does allowed (writeJSONAtomic loc file doc) := by
  refine (acts_ask create).bind fun _ _ => (acts_given _).bind fun suffix _ => ?_
  refine (acts_ask (write suffix)).bind fun _ _ => ?_
  refine (acts_renameIf (rename suffix)).bind fun _ _ => ?_
  refine (acts_ask (unlink suffix)).bind fun _ _ => ?_
  exact acts_check.mono (fun _ => id) fun _ _ => trivial

variable {setting : Setting Op Op.Ans World Choice} {pre failed : World → Prop}

theorem returns_check (fails : ∀ world, pre world → failed world) :
    Returns setting pre (check holds err) (fun _ world => pre world ∧ holds) failed := by
  unfold check
  split
  · rename_i isTrue
    exact Returns.pure fun _ before => ⟨before, isTrue⟩
  · exact Returns.throw fails

theorem returns_given (value : Option α) (fails : ∀ world, pre world → failed world) :
    Returns setting pre (given err value)
      (fun inner world => pre world ∧ value = some inner) failed := by
  cases value with
  | none => exact Returns.throw fails
  | some inner => exact Returns.pure fun _ before => ⟨before, rfl⟩

theorem returns_writeJSONAtomic {after : World → Prop} (middle renamed : Str → World → Prop)
    (create : Triple setting pre (Prog.perform (Op.createTemp loc)) fun created world =>
      (created = none → failed world) ∧ ∀ suffix, created = some suffix → middle suffix world)
    (write : ∀ suffix, Triple setting (middle suffix)
      (Prog.perform (Op.writeFile loc (tempFile suffix) (some doc))) fun _ => middle suffix)
    (rename : ∀ suffix, Triple setting (middle suffix)
      (Prog.perform (Op.rename loc (tempFile suffix) file doc)) fun isRenamed world =>
        if isRenamed then renamed suffix world else middle suffix world)
    (discard : ∀ suffix, Triple setting (middle suffix)
      (Prog.perform (Op.unlink loc (tempFile suffix))) fun _ => failed)
    (finish : ∀ suffix, Triple setting (renamed suffix)
      (Prog.perform (Op.unlink loc (tempFile suffix))) fun _ => after) :
    Returns setting pre (writeJSONAtomic loc file doc) (fun _ => after) failed := by
  refine (Returns.lift create).bind fun created => ?_
  cases created with
  | none => exact Returns.throw fun _ holds => holds.1 rfl
  | some suffix =>
    refine (Returns.pure fun _ holds => holds.2 suffix rfl).bind fun suffix => ?_
    refine (Returns.lift (write suffix)).bind fun written => ?_
    have renames : Returns setting (middle suffix)
        (renameIf written loc (tempFile suffix) file doc)
        (fun isRenamed world => if isRenamed then renamed suffix world else middle suffix world)
        failed := by
      unfold renameIf
      split
      · exact Returns.lift (rename suffix)
      · exact Returns.pure fun _ => id
    refine renames.bind fun isRenamed => ?_
    cases isRenamed with
    | true =>
      refine (Returns.lift (finish suffix)).bind fun _ => ?_
      exact Returns.pure fun _ => id
    | false =>
      refine (Returns.lift (discard suffix)).bind fun _ => ?_
      exact Returns.throw fun _ => id

theorem returns_onlyIf (returns : Returns setting pre action (fun _ => pre) failed) :
    Returns setting pre (onlyIf holds action) (fun _ => pre) failed := by
  unfold onlyIf
  split
  · exact returns
  · exact Returns.pure fun _ => id

theorem returns_attempt {post : World → Prop}
    (returns : Returns setting pre action (fun _ => post) post) :
    Returns setting pre (attempt action) (fun _ => post) failed := by
  refine Triple.bind returns fun result => ?_
  cases result with
  | ok _ => exact fun _ => id
  | error _ => exact fun _ => id

end Helpers

variable {n : Str} {original state : NodeState} {client : Client}

theorem acts_recordedNetwork {allowed : Op → Prop} (id : Str) (content : Option Doc) :
    Does allowed (recordedNetwork id content) := by
  unfold recordedNetwork
  split
  · exact acts_check.bind fun _ _ => Acts.pure trivial
  · exact Acts.throw

theorem acts_loadNetwork (id : Str) : Does (Op.Own n) (loadNetwork id) := by
  refine acts_check.bind fun _ _ => (acts_ask trivial).bind fun _ _ => ?_
  exact (acts_given _).bind fun _ _ => acts_recordedNetwork _ _

theorem acts_networkNumbers (files : List Str) :
    Does (Op.Own n) (networkNumbers files) := by
  induction files with
  | nil => exact Acts.pure trivial
  | cons file files ih =>
    refine (acts_ask trivial).bind fun content _ => ih.bind fun others _ => ?_
    split <;> exact Acts.pure trivial

variable {α : Type} {post : α → Prop} {n : Str}

theorem plain_of_own {action : Action α}
    (acts : Acts (Op.Own n) post action) : Acts (Op.Plain n) post action :=
  acts.mono (fun _ own => own.plain) fun _ => id

theorem plain_issues_of_own {program : Prog Op Op.Ans α}
    (issues : Issues (Op.Own n) post program) : Issues (Op.Plain n) post program :=
  issues.mono (fun _ own => own.plain) fun _ => id

theorem acts_ensureNetwork (id : Str) : Does (Op.Plain n) (ensureNetwork id) := by
  refine acts_check.bind fun _ _ => (acts_must (acts_ask trivial)).bind fun _ _ => ?_
  refine (acts_ask trivial).bind fun existing _ => ?_
  split
  · exact acts_recordedNetwork _ _
  · refine (acts_ask trivial).bind fun _ _ => (acts_ask trivial).bind fun _ _ => ?_
    refine (plain_of_own (acts_networkNumbers _)).bind fun _ _ => ?_
    refine (acts_given _).bind fun _ _ => ?_
    exact (acts_writeJSONAtomic trivial (fun _ => trivial) (fun _ => trivial)
      fun _ => trivial).bind fun _ _ => Acts.pure trivial

theorem issues_owns (name : Str) : Issues (Op.Own n) (fun _ => True) (owns name) := by
  unfold owns
  split
  · exact (Issues.perform trivial).bind fun _ _ => trivial
  · trivial

theorem parseState_ofNode {name : Str} {content : Option Doc}
    (parsed : parseState name content = .ok state) :
    content = some (.node state) ∧ OfNode name state := by
  unfold parseState at parsed
  split at parsed
  · cases parsed
  · cases parsed
  · split at parsed
    · rename_i isState
      obtain rfl := Except.ok.inj parsed
      exact ⟨rfl, isState⟩
    · cases parsed

theorem OfNode.agrees (ofNode : OfNode n state) : Agrees state state :=
  ⟨⟨ofNode.1, rfl⟩, rfl, rfl⟩

theorem Agrees.ofNode (agrees : Agrees original state) (ofNode : OfNode n original) :
    OfNode n state := ⟨agrees.1.1, agrees.1.2.trans ofNode.2⟩

theorem acts_readState (name : Str) :
    Acts (Op.Own n) (fun state => OfNode name state ∧ validVMName name)
      (readState name) := by
  refine acts_check.bind fun _ valid => (acts_ask trivial).bind fun _ _ => ?_
  refine (acts_given _).bind fun content _ => ?_
  cases parsed : parseState name content with
  | error err => exact Acts.throw
  | ok state => exact Acts.pure ⟨(parseState_ofNode parsed).2, valid⟩

theorem Agrees.identify {started command : Str} (agrees : Agrees original state) :
    Agrees original (identify client state started command).2 := by
  simp only [Krunkit.identify]
  split
  · exact agrees
  · split
    · exact agrees
    · exact agrees

theorem issues_processOwned (agrees : Agrees original state) :
    Issues (Op.Own n) (fun result => Agrees original result.2) (processOwned client state) := by
  have alive : Issues (Op.Own n) (fun _ => True) (processAlive state.pid) := by
    unfold processAlive
    split
    · trivial
    · exact Issues.perform trivial
  refine alive.bind fun isAlive _ => ?_
  split
  · refine (Issues.perform trivial).bind fun started _ => ?_
    split
    · exact agrees
    · split
      · exact agrees
      · refine (Issues.perform trivial).bind fun command _ => ?_
        split
        · exact agrees
        · exact agrees.identify
  · exact agrees

theorem acts_processOwned (agrees : Agrees original state) :
    Acts (Op.Own n) (fun result => Agrees original result.2)
      (ExceptT.lift (processOwned client state) : Action (Bool × NodeState)) :=
  Acts.lift (issues_processOwned agrees)

theorem acts_prepareReport (agrees : Agrees original state) :
    Acts (Op.Own original.name) (Agrees original) (prepareReport client state) := by
  have write : (Op.writeFile (.node state.name) (str "guest-status") none).Own original.name :=
    ⟨congrArg Loc.node agrees.1.2, by decide⟩
  unfold prepareReport
  split
  · refine acts_check.bind fun _ _ => (acts_must (acts_ask write)).bind fun _ _ => ?_
    refine (acts_ask trivial).bind fun _ _ => (acts_given _).bind fun _ _ => ?_
    exact (acts_must (acts_ask write)).bind fun _ _ => Acts.pure agrees
  · exact Acts.pure agrees

theorem acts_cloneDisk (valid : validVMName n) :
    Does (Op.Own n) (cloneDisk n) := by
  have write : (Op.writeFile (.node n) (str "disk.img") none).Own n := ⟨rfl, by decide⟩
  have unlink : (Op.unlink (.node n) (str "disk.img")).Own n := ⟨rfl, by decide⟩
  refine (acts_must (acts_ask ⟨rfl, valid⟩)).bind fun _ _ => ?_
  refine (acts_ask unlink).bind fun _ _ => (acts_ask write).bind fun _ _ => ?_
  refine (acts_onlyIf ?_).bind fun _ _ => acts_must (acts_ask write)
  exact (acts_ask unlink).bind fun _ _ => acts_must (acts_ask write)

theorem acts_createCloudInitISO (n : Str) :
    Does (Op.Own n) (createCloudInitISO n) := by
  have write : (Op.writeFile (.node n) (str "cloud-init") none).Own n := ⟨rfl, by decide⟩
  refine (acts_must (acts_ask write)).bind fun _ _ => ?_
  refine (acts_ask trivial).bind fun _ _ => (acts_given _).bind fun _ _ => ?_
  refine (acts_must (acts_ask write)).bind fun _ _ => (acts_ask trivial).bind fun _ _ => ?_
  refine (acts_given _).bind fun _ _ => (acts_ask ⟨rfl, by decide⟩).bind fun _ _ => ?_
  exact acts_must (acts_ask ⟨rfl, by decide⟩)

theorem issues_usesNetwork (id : Str) (names : List Str) :
    Issues (Op.Own n) (fun _ => True) (usesNetwork id names) := by
  induction names with
  | nil => trivial
  | cons name names ih =>
    refine Issues.bind (acts_readState name) fun result _ => ?_
    split
    · split
      · trivial
      · exact ih
    · exact ih

theorem issues_removeUnusedNetwork (id : Str) :
    Issues (Op.Plain n) (fun _ => True) (removeUnusedNetwork id) := by
  unfold removeUnusedNetwork
  split
  · refine (Issues.perform trivial).bind fun names _ => ?_
    refine (plain_issues_of_own (issues_usesNetwork id names)).bind fun used _ => ?_
    split
    · trivial
    · exact (Issues.perform trivial).bind fun _ _ => trivial
  · trivial

theorem issues_waitExit (polls : ℕ) (agrees : Agrees original state) :
    Issues (Op.Own n) (Agrees original) (waitExit client polls state) := by
  induction polls generalizing state with
  | zero => exact agrees
  | succ polls ih =>
    refine (issues_processOwned agrees).bind fun result kept => ?_
    rcases result with ⟨owned, state⟩
    simp only
    split
    · refine (Issues.perform trivial).bind fun expired _ => ?_
      split
      · exact kept
      · exact ih kept
    · exact kept

theorem acts_requestExit (agrees : Agrees original state) :
    Acts (Op.Own n) (Agrees original)
      (ExceptT.lift (requestExit client state) : Action NodeState) := by
  apply Acts.lift
  unfold requestExit
  split
  · refine (Issues.perform trivial).bind fun accepted _ => ?_
    split
    · exact issues_waitExit _ agrees
    · exact agrees
  · exact agrees

theorem acts_signalExit (polls : ℕ) (agrees : Agrees original state) :
    Acts (Op.Own n) (fun result => Agrees original result.2) (signalExit client polls state) := by
  refine (acts_processOwned agrees).bind fun result kept => ?_
  rcases result with ⟨owned, state⟩
  simp only
  split
  · refine (acts_must (acts_ask trivial)).bind fun _ _ => ?_
    exact (Acts.lift (issues_waitExit polls kept)).bind fun _ later => Acts.pure later
  · exact Acts.pure kept

theorem acts_confirmExit (killed : Bool) (agrees : Agrees original state) :
    Acts (Op.Own n) (Agrees original) (confirmExit client killed state) := by
  unfold confirmExit
  split
  · refine (acts_processOwned agrees).bind fun result kept => ?_
    exact acts_check.bind fun _ _ => Acts.pure kept
  · exact Acts.pure agrees

theorem acts_listAddress (owned : Bool) (state : NodeState) :
    Does (Op.Own n) (listAddress owned state) := by
  unfold listAddress
  split
  · exact acts_ask trivial
  · exact Acts.pure trivial

def Op.Removes (n : Str) (op : Op) : Prop :=
  op = .entries (.node n) ∨ (∃ file, op = .unlink (.node n) file) ∨ op = .rmdir n

theorem issues_unlinkAll (files : List Str) :
    Issues (Op.Removes n) (fun _ => True) (unlinkAll n files) := by
  induction files with
  | nil => trivial
  | cons file files ih =>
    exact Issues.bind (Issues.perform (Or.inr (Or.inl ⟨file, rfl⟩))) fun _ _ => ih

theorem issues_removes : Issues (Op.Removes n) (fun _ => True) (removeAll n) := by
  refine Issues.bind (Issues.perform (Or.inl rfl)) fun files _ => ?_
  exact (issues_unlinkAll files).bind fun _ _ => Issues.perform (Or.inr (Or.inr rfl))

section Writing

variable {α : Type} {post : α → Prop} {action : Action α}

theorem writes_of_plain (acts : Acts (Op.Plain n) post action) : Acts (Op.Writes n) post action :=
  acts.mono (fun _ plain => Or.inl plain) fun _ => id

theorem replaces_of_own
    (acts : Acts (Op.Own original.name) post action) : Acts (Op.Replaces original) post action :=
  acts.mono (fun _ own => Or.inl own) fun _ => id

theorem writes_of_replaces
    (ofNode : OfNode n original) (acts : Acts (Op.Replaces original) post action) :
    Acts (Op.Writes n) post action := by
  rw [← ofNode.2]
  exact acts.mono (fun _ replaces => replaces.writes) fun _ => id

theorem acts_writeState (agrees : Agrees original state) :
    Does (Op.Replaces original) (writeState state) := by
  have sameLoc := congrArg Loc.node agrees.1.2
  refine acts_check.bind fun _ valid => ?_
  rw [agrees.1.2] at valid
  refine (acts_must (acts_ask (Or.inl ⟨sameLoc, valid⟩))).bind fun _ _ => ?_
  refine acts_writeJSONAtomic (Or.inl sameLoc) (fun suffix => Or.inl ⟨sameLoc, tempFile_ne suffix⟩)
    ?_ fun suffix => Or.inl ⟨sameLoc, tempFile_ne suffix⟩
  rw [sameLoc]
  exact fun suffix => Or.inr (Or.inr ⟨suffix, state, rfl, agrees, valid⟩)

theorem acts_record (agrees : Agrees original state) (pid : ℕ) :
    Does (Op.Replaces original) (record client state pid) := by
  refine Acts.onError ?_ (Issues.bind (Issues.perform (Or.inl trivial)) fun _ _ => trivial)
  refine (acts_ask (Or.inl trivial)).bind fun _ _ => (acts_given _).bind fun _ _ => ?_
  refine (acts_ask (Or.inl trivial)).bind fun _ _ => (acts_given _).bind fun _ _ => ?_
  exact Acts.bind (acts_writeState agrees) fun _ _ => acts_must (acts_ask (Or.inl trivial))

theorem Agrees.withSocket (agrees : Agrees original state) :
    Agrees original (withSocket client state) := by
  unfold Krunkit.withSocket
  split
  · exact agrees
  · exact agrees

theorem acts_launchState (agrees : Agrees original state) :
    Does (Op.Replaces original) (launchState client state) := by
  have sameLoc := congrArg Loc.node agrees.1.2
  have tool : ∀ name, (Op.resolveBinary name).Replaces original := fun _ => Or.inl trivial
  refine (acts_onlyIf (acts_must (acts_ask (Or.inl trivial)))).bind fun _ _ => ?_
  refine (acts_ask (tool _)).bind fun _ _ => (acts_given _).bind fun _ _ => ?_
  refine (acts_ask (tool _)).bind fun _ _ => (acts_given _).bind fun _ _ => ?_
  refine (replaces_of_own (acts_loadNetwork _)).bind fun _ _ => ?_
  refine acts_check.bind fun _ _ => acts_check.bind fun _ _ => ?_
  refine acts_check.bind fun _ _ => acts_check.bind fun _ _ => ?_
  refine (replaces_of_own (acts_prepareReport agrees.withSocket)).bind fun prepared kept => ?_
  refine (acts_ask (Or.inl trivial)).bind fun _ _ => ?_
  refine (acts_ask (Or.inl ⟨sameLoc, by decide⟩)).bind fun _ _ => ?_
  refine (acts_must (acts_ask (Or.inl ⟨sameLoc, by decide⟩))).bind fun _ _ => ?_
  refine (acts_ask (Or.inr (Or.inl ⟨_, by rw [agrees.1.2]⟩))).bind fun _ _ => ?_
  exact (acts_given _).bind fun pid _ => acts_record kept pid

theorem acts_startState (agrees : Agrees original state) :
    Does (Op.Replaces original) (startState client state) := by
  refine (replaces_of_own (acts_processOwned agrees)).bind fun result kept => ?_
  rcases result with ⟨owned, state⟩
  simp only
  split
  · exact acts_writeState kept
  · exact acts_launchState kept

theorem acts_stopProcess (agrees : Agrees original state) :
    Does (Op.Replaces original) (stopProcess client state) := by
  refine (replaces_of_own (acts_requestExit agrees)).bind fun _ kept => ?_
  refine (replaces_of_own (acts_signalExit _ kept)).bind fun _ kept => ?_
  refine (replaces_of_own (acts_signalExit _ kept)).bind fun _ kept => ?_
  refine (replaces_of_own (acts_confirmExit _ kept)).bind fun _ kept => ?_
  exact acts_writeState kept

theorem acts_halt (agrees : Agrees original state) :
    Does (Op.Replaces original) (halt client state) := by
  refine (replaces_of_own (acts_processOwned agrees)).bind fun result kept => ?_
  rcases result with ⟨owned, state⟩
  simp only
  split
  · exact acts_stopProcess kept
  · exact acts_writeState kept

theorem acts_stopLocked (client : Client) (n : Str) :
    Does (Op.Writes n) (stopLocked client n) :=
  (writes_of_plain (plain_of_own (acts_readState n))).bind fun _ read =>
    writes_of_replaces read.1 (acts_halt read.1.agrees)

theorem Agrees.listed (agrees : Agrees original state) (owned : Bool) (ip : Str) :
    Agrees original (listed state owned ip) := by
  unfold Krunkit.listed
  split
  · exact agrees
  · exact agrees

theorem acts_refresh {read : NodeState} (agrees : Agrees original state) (owned : Bool)
    (ip : Str) : Does (Op.Replaces original) (refresh read state owned ip) :=
  acts_onlyIf (acts_attempt (acts_writeState (agrees.listed owned ip)))

theorem acts_describe (agrees : Agrees original state) :
    Does (Op.Replaces original) (describe client state) := by
  refine (replaces_of_own (acts_processOwned agrees)).bind fun result kept => ?_
  rcases result with ⟨owned, state⟩
  refine (replaces_of_own (acts_listAddress _ _)).bind fun ip _ => ?_
  exact (acts_refresh kept _ _).bind fun _ _ => Acts.pure trivial

theorem returns_writeState_of_rename {setting : Setting Op Op.Ans World Choice}
    {before after : World → Prop} (ofNode : OfNode n state)
    (ownBefore : ∀ op : Op, op.Own n → Triple setting before (Prog.perform op) fun _ => before)
    (ownAfter : ∀ op : Op, op.Own n → Triple setting after (Prog.perform op) fun _ => after)
    (renames : validVMName n → ∀ suffix, Triple setting before
      (Prog.perform (Op.rename (.node n) (tempFile suffix) stateFile (.node state)))
      fun renamed world => if renamed then after world else before world) :
    Returns setting before (writeState state) (fun _ => after) before := by
  rcases ofNode with ⟨_, rfl⟩
  have failing : ∀ {holds : Bool} {err : Err},
      Returns setting before (check holds err) (fun _ => before) before :=
    (returns_check fun _ => id).weaken (fun _ => id)
      (fun _ _ holds => holds.1) fun _ => id
  refine (returns_check fun _ => id).bind fun _ => Returns.assume fun valid => ?_
  refine Returns.bind (Returns.bind (Returns.lift (ownBefore _ ⟨rfl, valid⟩)) fun _ => failing)
    fun _ => ?_
  refine returns_writeJSONAtomic (fun _ => before) (fun _ => after) ?_
    (fun suffix => ownBefore _ ⟨rfl, tempFile_ne suffix⟩) (renames valid)
    (fun suffix => ownBefore _ ⟨rfl, tempFile_ne suffix⟩)
    fun suffix => ownAfter _ ⟨rfl, tempFile_ne suffix⟩
  exact Triple.weaken (ownBefore _ rfl) (fun _ => id)
    fun _ _ holds => ⟨fun _ => holds, fun _ _ => holds⟩

end Writing

end Kiac.Krunkit
