import Kiac.Kubeconfig.Faultless
import Kiac.Kubeconfig.Kept

/-!
# Merging and removing, as laws

Without faults a merge changes nothing of the kubeconfig but the entries of its cluster and the
current context, and a second merge changes nothing at all. A removal takes the entries out again.
The entries of other names stay in their order, however often a name occurs.
-/

namespace Kiac.Kubeconfig

section Lists

variable {name : Str} {item : Item}

theorem find?_upsert (named : item.name = name) (list : List Item) :
    (upsert name item list).find? (fun existing => existing.name == name) = some item := by
  induction list with
  | nil => simp [upsert, named]
  | cons existing list ih =>
    unfold upsert
    split
    · simp [named]
    · rename_i other
      simp [other, ih]

theorem drop_upsert (named : item.name = name) (list : List Item) :
    drop name (upsert name item list) = drop name list := by
  induction list with
  | nil => simp [upsert, drop, named]
  | cons existing list ih =>
    unfold upsert
    split
    · rename_i same
      simp [drop, named, same]
    · rename_i other
      simp only [drop] at ih
      simp [drop, other, ih]

theorem upsert_upsert (named : item.name = name) (list : List Item) :
    upsert name item (upsert name item list) = upsert name item list := by
  induction list with
  | nil => simp [upsert, named]
  | cons existing list ih =>
    by_cases same : existing.name = name
    · simp [upsert, same, named]
    · simp [upsert, same, ih]

theorem drop_drop (list : List Item) : drop name (drop name list) = drop name list := by
  simp [drop, List.filter_filter]

end Lists

/-- `merged` has the entries of the cluster, and the rest of `doc`. -/
structure Doc.Merged (name : Str) (entries : Entries) (doc merged : Doc) : Prop where
  first : ∀ part, (merged.lists part).find? (fun item => item.name == entryName name) =
    some (entries.item part)
  others : ∀ part, drop (entryName name) (merged.lists part) =
    drop (entryName name) (doc.lists part)
  apiVersion : ∀ value, doc.apiVersion = some value → merged.apiVersion = some value
  kind : ∀ value, doc.kind = some value → merged.kind = some value
  rest : merged.rest = doc.rest

/-- `removed` has no entries of the cluster, and the rest of `doc`. -/
structure Doc.Removed (name : Str) (doc removed : Doc) : Prop where
  gone : ∀ part, ∀ item ∈ removed.lists part, item.name ≠ entryName name
  others : ∀ part, drop (entryName name) (removed.lists part) =
    drop (entryName name) (doc.lists part)
  cleared : doc.currentContext = some (entryName name) → removed.currentContext = some []
  kept : doc.currentContext ≠ some (entryName name) → removed.currentContext = doc.currentContext
  apiVersion : removed.apiVersion = doc.apiVersion
  kind : removed.kind = doc.kind
  rest : removed.rest = doc.rest

section Docs

variable {name : Str} {entries : Entries} (named : ∀ part, (entries.item part).name = entryName name)
  (doc : Doc)

include named

theorem Doc.merged_merge : Doc.Merged name entries doc (doc.orDefault.merge name entries) where
  first part := find?_upsert (named part) _
  others part := drop_upsert (named part) _
  apiVersion value present := by simp [Doc.merge, Doc.orDefault, present]
  kind value present := by simp [Doc.merge, Doc.orDefault, present]
  rest := rfl

theorem Doc.merge_merge : (doc.orDefault.merge name entries).orDefault.merge name entries =
    doc.orDefault.merge name entries := by
  have lists : (fun part => upsert (entryName name) (entries.item part)
      (upsert (entryName name) (entries.item part) (doc.lists part))) =
      fun part => upsert (entryName name) (entries.item part) (doc.lists part) :=
    funext fun part => upsert_upsert (named part) _
  simp only [Doc.merge, Doc.orDefault, lists]
  cases doc.apiVersion <;> cases doc.kind <;> rfl

omit named in
theorem Doc.removed_remove : Doc.Removed name doc (doc.remove name) where
  gone _ _ mem := (mem_drop.mp mem).2
  others _ := drop_drop _
  cleared current := if_pos current
  kept other := if_neg other
  apiVersion := rfl
  kind := rfl
  rest := rfl

end Docs

section Accesses

variable {strategy : FileOp → Files → Fault}
  (accesses : ∀ op files, (strategy op files).fails = false)

include accesses

theorem follow_backUp (raw : Str) (files : Files) :
    (backUp raw).run.follow fileMachine strategy files =
      ({ files with backup := some (files.backup.getD raw) }, .ok ()) := by
  have looks : (ExceptT.lift (Prog.perform FileOp.statBackup) : FileAction Bool).run.follow
      fileMachine strategy files = (files, .ok files.backup.isNone) := by
    change (Prog.perform FileOp.statBackup >>= _).follow fileMachine strategy files = _
    rw [Prog.follow_bind, Prog.follow_perform]
    simp only [fileMachine, fileStep, accesses, Bool.not_false, Bool.true_and]
    rfl
  rcases files with ⟨config, backup⟩
  rw [backUp, Prog.follow_run_bind, looks]
  cases backup with
  | some copy => rfl
  | none =>
    apply follow_succeedOr
    simp [fileMachine, fileStep, Fault.file, accesses]

variable {yaml : Yaml} {name raw : Str} {doc : Doc} {files : Files}

theorem follow_mergeKubeconfig {adminConf serverIP : Str} {entries : Entries}
    (rewritten : rewriteAdminConf yaml name adminConf serverIP = .ok entries)
    (existing : files.config = some raw) (decoded : yaml.unmarshal raw = .doc doc) :
    (mergeKubeconfig yaml name adminConf serverIP).run.follow fileMachine strategy files =
      (⟨some (yaml.marshal (doc.orDefault.merge name entries)), some (files.backup.getD raw)⟩,
        .ok ()) := by
  have makes : (succeedOr .mkdir (Prog.perform FileOp.mkdirAll)).run.follow fileMachine strategy
      files = (files, .ok ()) := by
    apply follow_succeedOr
    simp [fileMachine, fileStep, accesses]
  have nonempty : raw ≠ [] := by
    rintro rfl
    rw [yaml.unmarshal_blank [] rfl] at decoded
    cases decoded
  have answer : files.answer = .content raw := by rw [Files.answer, existing]
  have given : (ExceptT.mk (Prog.done (rewriteAdminConf yaml name adminConf serverIP)) :
      FileAction Entries).run.follow fileMachine strategy files = (files, .ok entries) := by
    rw [rewritten]
    rfl
  have decodes : (decodeDest yaml (.content raw)).run.follow fileMachine strategy files =
      ({ files with backup := some (files.backup.getD raw) }, .ok doc.orDefault) := by
    simp only [decodeDest, if_neg nonempty, decoded, Prog.follow_run_bind, follow_backUp accesses]
    rfl
  simp only [mergeKubeconfig, Prog.follow_run_bind, given, follow_path accesses, makes,
    follow_readFile accesses, answer, decodes, follow_writeFile accesses]

theorem follow_remove_doc
    (existing : files.config = some raw) (decoded : yaml.unmarshal raw = .doc doc) :
    (removeKubeconfig yaml name).run.follow fileMachine strategy files =
      ({ files with config := some (yaml.marshal (doc.remove name)) }, .ok ()) := by
  have present : raw.trimSpace ≠ [] := by
    intro blank
    rw [yaml.unmarshal_blank raw blank] at decoded
    cases decoded
  rw [follow_removeKubeconfig accesses]
  simp only [Files.answer, existing, removeFrom, if_neg present, decoded,
    follow_writeFile accesses]

end Accesses

end Kiac.Kubeconfig
