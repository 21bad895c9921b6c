import Kiac.Kubeconfig.File

/-!
# What a faulty call leaves of the kubeconfig

A call reads the file once and writes it once. As long as the read of a merge does not fail, and
a write that fails has not truncated the file yet, the entries of other names are in the file
whenever the call is stopped, fails or returns. Neither condition can be left out: a merge takes
a file that it cannot read for a missing one, and a truncated file shows nothing.
-/

namespace Kiac.Kubeconfig

def Keeps (yaml : Yaml) (name : Str) (before after : Option Str) : Prop :=
  ∀ part item, item.name ≠ entryName name → item ∈ itemsOf yaml before part →
    item ∈ itemsOf yaml after part

/-- The read of a merge does not fail, and a write that fails has not truncated the file. -/
def Call.Spares : Call → FileOp → Fault → Files → Prop
  | merge _ _ _, .readFile, fault, _ => fault.fails = false
  | _, .writeFile _, fault, _ => fault.fails = true → fault.written = none
  | _, _, _, _ => True

/-- The setting in which a call may be stopped wherever the entries of other names are there. -/
def sparing (yaml : Yaml) (call : Call) (before : Option Str) :
    Setting FileOp FileOp.Ans Files Fault :=
  ⟨fileMachine, call.Spares, fun _ files => Keeps yaml call.name before files.config⟩

def Unchanged (before : Option Str) (files : Files) : Prop := files.config = before

section Steps

variable {yaml : Yaml} {call : Call} {before : Option Str}

theorem Unchanged.keeps {files : Files} (unchanged : Unchanged before files) :
    Keeps yaml call.name before files.config := by
  intro part item _ present
  rwa [unchanged]

theorem triple_unchanged {op : FileOp} (quiet : ∀ fault files, (fileStep op fault files).1.config =
    files.config) :
    Triple (sparing yaml call before) (Unchanged before) (Prog.perform op)
      fun _ => Unchanged before := by
  apply Triple.perform
  · exact fun files unchanged => unchanged.keeps
  · intro files fault unchanged _
    exact (quiet fault files).trans unchanged

variable {err : KubeErr} {program : Prog FileOp FileOp.Ans Bool}

theorem returns_succeedOr {setting : Setting FileOp FileOp.Ans Files Fault}
    {pre ok failed : Files → Prop}
    (triple : Triple setting pre program fun succeeded files =>
      if succeeded then ok files else failed files) :
    Returns setting pre (succeedOr err program) (fun _ => ok) failed := by
  apply triple.bind
  intro succeeded
  cases succeeded with
  | false => exact fun files holds => by simpa using holds
  | true => exact fun files holds => by simpa using holds

abbrev Kept (yaml : Yaml) (call : Call) (before : Option Str) (files : Files) : Prop :=
  Keeps yaml call.name before files.config

theorem returns_unchanged (triple : Triple (sparing yaml call before) (Unchanged before) program
      fun _ => Unchanged before) :
    Returns (sparing yaml call before) (Unchanged before) (succeedOr err program)
      (fun _ => Unchanged before) (Kept yaml call before) := by
  apply returns_succeedOr
  apply triple.weaken (fun _ => id)
  intro succeeded files unchanged
  cases succeeded with
  | false => exact unchanged.keeps
  | true => exact unchanged

theorem returns_write {doc : Doc} (keeps : Keeps yaml call.name before (some (yaml.marshal doc))) :
    Returns (sparing yaml call before) (Unchanged before)
      (succeedOr err (Prog.perform (FileOp.writeFile (yaml.marshal doc))))
      (fun _ => Kept yaml call before) (Kept yaml call before) := by
  apply returns_succeedOr
  apply Triple.perform
  · exact fun files unchanged => unchanged.keeps
  · intro files fault unchanged spares
    have kept : Kept yaml call before
        (fileStep (.writeFile (yaml.marshal doc)) fault files).1 := by
      change Keeps yaml call.name before (fault.file (yaml.marshal doc) files.config)
      unfold Fault.file
      split
      · rename_i fails
        have untouched : fault.written = none := by
          cases call with
          | merge name adminConf serverIP => exact spares fails
          | remove name => exact spares fails
        rw [untouched]
        exact unchanged.keeps
      · exact keeps
    split
    · exact kept
    · exact kept

theorem returns_backUp (raw : Str) :
    Returns (sparing yaml call before) (Unchanged before) (backUp raw)
      (fun _ => Unchanged before) (Kept yaml call before) := by
  have stat : Triple (sparing yaml call before) (Unchanged before)
      (Prog.perform FileOp.statBackup) fun _ => Unchanged before :=
    triple_unchanged fun _ _ => rfl
  have write : Triple (sparing yaml call before) (Unchanged before)
      (Prog.perform (FileOp.writeBackup raw)) fun _ => Unchanged before :=
    triple_unchanged fun _ _ => rfl
  apply (Returns.lift stat).bind
  intro absent
  split
  · exact returns_unchanged write
  · exact Returns.pure fun _ => id

end Steps

section Calls

variable {yaml : Yaml} {call : Call} {before : Option Str} {name adminConf serverIP : Str}

theorem returns_decodeDest :
    Returns (sparing yaml call before) (Unchanged before)
      (decodeDest yaml (before.elim .missing .content))
      (fun doc files => Unchanged before files ∧ ∀ part, doc.lists part = itemsOf yaml before part)
      (Kept yaml call before) := by
  cases before with
  | none => exact Returns.pure fun files unchanged => ⟨unchanged, fun part => rfl⟩
  | some raw =>
    change Returns _ _ (if raw = [] then _ else _) _ _
    split
    · rename_i isEmpty
      have blank := yaml.unmarshal_blank raw (by rw [isEmpty]; decide)
      refine Returns.pure fun files unchanged => ⟨unchanged, fun part => ?_⟩
      simp only [itemsOf, blank]
      rfl
    · split
      · exact Returns.throw fun files unchanged => unchanged.keeps
      · rename_i decoded
        refine (returns_backUp raw).bind fun _ => ?_
        refine Returns.pure fun files unchanged => ⟨unchanged, fun part => ?_⟩
        simp only [itemsOf, decoded]
        rfl
      · refine (returns_backUp raw).bind fun _ => ?_
        exact Returns.throw fun files unchanged => unchanged.keeps
      · rename_i decoded
        refine (returns_backUp raw).bind fun _ => ?_
        refine Returns.pure fun files unchanged => ⟨unchanged, fun part => ?_⟩
        simp only [itemsOf, decoded]
        rfl

variable {doc : Doc}

theorem keeps_merge {entries : Entries} (shows : ∀ part, doc.lists part = itemsOf yaml before part)
    (rewritten : rewriteAdminConf yaml name adminConf serverIP = .ok entries) :
    Keeps yaml name before (some (yaml.marshal (doc.merge name entries))) := by
  intro part item differs present
  rw [itemsOf_marshal]
  apply (mem_upsert_of_ne (entries_name rewritten part) differs).mpr
  rwa [shows]

theorem keeps_remove (shows : ∀ part, doc.lists part = itemsOf yaml before part) :
    Keeps yaml name before (some (yaml.marshal (doc.remove name))) := by
  intro part item differs present
  rw [itemsOf_marshal]
  apply mem_drop.mpr
  rw [shows]
  exact ⟨present, differs⟩

theorem returns_mergeKubeconfig :
    Returns (sparing yaml (.merge name adminConf serverIP) before) (Unchanged before)
      (mergeKubeconfig yaml name adminConf serverIP)
      (fun _ => Kept yaml (.merge name adminConf serverIP) before)
      (Kept yaml (.merge name adminConf serverIP) before) := by
  unfold mergeKubeconfig
  cases rewritten : rewriteAdminConf yaml name adminConf serverIP with
  | error err => exact Returns.throw fun files unchanged => unchanged.keeps
  | ok entries =>
    have given : Returns (sparing yaml (.merge name adminConf serverIP) before)
        (Unchanged before) (ExceptT.mk (Prog.done (.ok entries)) : FileAction Entries)
        (fun value files => Unchanged before files ∧ value = entries)
        (Kept yaml (.merge name adminConf serverIP) before) :=
      fun files unchanged => ⟨unchanged, rfl⟩
    have path : Triple (sparing yaml (.merge name adminConf serverIP) before)
        (Unchanged before) (Prog.perform FileOp.kubeconfigPath) fun _ => Unchanged before :=
      triple_unchanged fun _ _ => rfl
    have mkdir : Triple (sparing yaml (.merge name adminConf serverIP) before)
        (Unchanged before) (Prog.perform FileOp.mkdirAll) fun _ => Unchanged before :=
      triple_unchanged fun _ _ => rfl
    have read : Triple (sparing yaml (.merge name adminConf serverIP) before)
        (Unchanged before) (Prog.perform FileOp.readFile) fun answer files =>
          Unchanged before files ∧ answer = before.elim .missing .content := by
      apply Triple.perform
      · exact fun files unchanged => unchanged.keeps
      · intro files fault unchanged reads
        refine ⟨unchanged, ?_⟩
        have succeeds := reads
        change (if fault.fails then ReadAnswer.failed else _) = _
        rw [succeeds, unchanged]
        cases before <;> rfl
    refine given.bind fun _ => ?_
    apply Returns.assume
    rintro rfl
    refine (returns_unchanged path).bind fun _ => ?_
    refine (returns_unchanged mkdir).bind fun _ => ?_
    refine (Returns.lift read).bind fun answer => ?_
    apply Returns.assume
    rintro rfl
    refine returns_decodeDest.bind fun dest => ?_
    apply Returns.assume
    intro shows
    exact returns_write (keeps_merge shows rewritten)

theorem returns_removeKubeconfig :
    Returns (sparing yaml (.remove name) before) (Unchanged before) (removeKubeconfig yaml name)
      (fun _ => Kept yaml (.remove name) before) (Kept yaml (.remove name) before) := by
  have path : Triple (sparing yaml (.remove name) before) (Unchanged before)
      (Prog.perform FileOp.kubeconfigPath) fun _ => Unchanged before :=
    triple_unchanged fun _ _ => rfl
  have read : Triple (sparing yaml (.remove name) before) (Unchanged before)
      (Prog.perform FileOp.readFile) fun answer files => Unchanged before files ∧
        ∀ raw, answer = .content raw → before = some raw := by
    apply Triple.perform
    · exact fun files unchanged => unchanged.keeps
    · intro files fault unchanged _
      refine ⟨unchanged, fun raw content => ?_⟩
      change (if fault.fails then ReadAnswer.failed else _) = _ at content
      split at content
      · cases content
      · rw [unchanged] at content
        cases before with
        | none => cases content
        | some text => rw [ReadAnswer.content.inj content]
  refine (returns_unchanged path).bind fun _ => ?_
  refine (Returns.lift read).bind fun answer => ?_
  apply Returns.assume
  intro reads
  cases answer with
  | missing => exact Returns.pure fun files unchanged => unchanged.keeps
  | failed => exact Returns.throw fun files unchanged => unchanged.keeps
  | content raw =>
    change Returns _ _ (if raw.trimSpace = [] then _ else _) _ _
    split
    · exact Returns.pure fun files unchanged => unchanged.keeps
    · split
      · exact Returns.throw fun files unchanged => unchanged.keeps
      · exact Returns.pure fun files unchanged => unchanged.keeps
      · exact Returns.pure fun files unchanged => unchanged.keeps
      · rename_i doc decoded
        apply returns_write
        apply keeps_remove
        simp [reads raw rfl, itemsOf, decoded]

end Calls

section Sample

def docOf (name : Str) : Doc :=
  ⟨fun _ => [⟨name, true, str "token"⟩], some (str "v1"), some (str "Config"), none, []⟩

variable (yaml : Yaml)

def prodUser : Item := ⟨str "prod", true, str "token"⟩

def userFiles : Files := ⟨some (yaml.marshal (docOf (str "prod"))), none⟩

def entriesOf (name : Str) : Entries where
  cluster := ⟨entryName name, true, yaml.withServer (str "token") (str "https://10.0.0.7:6443")⟩
  user := ⟨entryName name, true, str "token"⟩
  context := ⟨entryName name, true, yaml.contextBody (entryName name)⟩

def mergeOf (name : Str) : Call :=
  .merge name (yaml.marshal (docOf (str "kubernetes"))) (str "10.0.0.7")

theorem rewriteAdminConf_docOf (name : Str) :
    rewriteAdminConf yaml name (yaml.marshal (docOf (str "kubernetes"))) (str "10.0.0.7") =
      .ok (entriesOf yaml name) := by
  have server : str "https://" ++ Net.joinHostPort (str "10.0.0.7") (str "6443") =
      str "https://10.0.0.7:6443" := by decide
  simp [rewriteAdminConf, yaml.unmarshal_marshal, server, docOf, entriesOf]

theorem itemsOf_userFiles (part : Part) :
    itemsOf yaml (userFiles yaml).config part = [prodUser] :=
  itemsOf_marshal yaml (docOf (str "prod")) part

def fine : Fault := ⟨false, none⟩

def truncating : Fault := ⟨true, some 0⟩

theorem exec_mergeOf_unreadable (name : Str) (files : Files) :
    let outcome := ((mergeOf yaml name).program yaml).run.exec fileMachine
      [fine, fine, truncating, fine] files
    outcome.value = some (.ok ()) ∧
      outcome.state.config = some (yaml.marshal (defaultDoc.merge name (entriesOf yaml name))) := by
  simp only [mergeOf, Call.program, mergeKubeconfig, rewriteAdminConf_docOf]
  exact ⟨rfl, rfl⟩

theorem exec_mergeOf_truncated (name : Str) :
    (((mergeOf yaml name).program yaml).run.exec fileMachine
      [fine, fine, fine, fine, fine, truncating] (userFiles yaml)).state.config = some [] := by
  simp only [mergeOf, Call.program, mergeKubeconfig, rewriteAdminConf_docOf]
  change ((decodeDest yaml (.content (yaml.marshal (docOf (str "prod")))) >>= fun _ => _).run.exec
    fileMachine [fine, fine, truncating] (userFiles yaml)).state.config = _
  rw [decodeDest_marshal]
  rfl

theorem exec_remove_truncated (name : Str) :
    (((Call.remove name).program yaml).run.exec fileMachine [fine, fine, truncating]
      (userFiles yaml)).state.config = some [] := by
  change ((removeFrom yaml name (.content (yaml.marshal (docOf (str "prod"))))).run.exec
    fileMachine [truncating] (userFiles yaml)).state.config = _
  rw [removeFrom_marshal]
  rfl

theorem spares_remove_failing (name : Str) :
    ((Call.remove name).program yaml).run.FairRun fileMachine (Call.remove name).Spares
      [fine, fine, ⟨true, none⟩] (userFiles yaml) := by
  refine ⟨trivial, trivial, ?_⟩
  change (removeFrom yaml name (.content (yaml.marshal (docOf (str "prod"))))).run.FairRun
    fileMachine _ [⟨true, none⟩] _
  rw [removeFrom_marshal]
  exact ⟨fun _ => rfl, trivial⟩

end Sample

end Kiac.Kubeconfig
