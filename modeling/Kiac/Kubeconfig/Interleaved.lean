import Kiac.Program.Interleave
import Kiac.Kubeconfig.Kept

/-!
# Two calls at once

The dashboard runs the jobs of different clusters at the same time, so two calls may take turns
on one kubeconfig. Each of them reads the file once and writes it at most once. Both show in the
final file unless one call reads before the other writes and writes after it: then the other's
change is gone.
-/

namespace Kiac.Kubeconfig

def calmMachine : Machine FileOp FileOp.Ans Files Unit := ⟨fun op _ files => fileStep op fine files⟩

def sharedConfig : Shared calmMachine (Option Str) where
  view files := files.config
  access
    | .readFile => some .read
    | .writeFile _ => some .write
    | _ => none
  frame op _ files unwritten := by
    cases op with
    | writeFile out => exact absurd rfl unwritten
    | kubeconfigPath => rfl
    | mkdirAll => rfl
    | readFile => rfl
    | statBackup => rfl
    | writeBackup raw => rfl

variable (yaml : Yaml)

/-- Two calls that run on one file, in the order that a schedule gives to their steps. -/
def interleaved (calls : Bool → Call) (files : Files) (schedule : List Bool) :
    Joint Bool FileOp FileOp.Ans Files (Except KubeErr Unit) :=
  Joint.run calmMachine ⟨fun who => ((calls who).program yaml).run, files, []⟩
    (schedule.map (·, ()))

def Shows (config : Option Str) : Call → Prop
  | .merge name adminConf serverIP => ∀ entries,
      rewriteAdminConf yaml name adminConf serverIP = .ok entries →
        ∀ part, entries.item part ∈ itemsOf yaml config part
  | .remove name => ∀ part, ∀ item ∈ itemsOf yaml config part, item.name ≠ entryName name

section Plans

variable (yaml : Yaml)

def destOf : Option Str → Except KubeErr Doc
  | none => .ok defaultDoc
  | some raw =>
    if raw = [] then .ok defaultDoc
    else
      match yaml.unmarshal raw with
      | .failed => .error .parsing
      | .empty => .ok defaultDoc
      | .null => .error .nilMap
      | .doc doc => .ok doc.orDefault

def mergePlan (name : Str) (entries : Entries) : Plan (Option Str) (Except KubeErr Unit) :=
  fun config =>
    match destOf yaml config with
    | .error err => (none, .error err)
    | .ok doc => (some (some (yaml.marshal (doc.merge name entries))), .ok ())

def removePlan (name : Str) : Plan (Option Str) (Except KubeErr Unit)
  | none => (none, .ok ())
  | some raw =>
    if raw.trimSpace = [] then (none, .ok ())
    else
      match yaml.unmarshal raw with
      | .failed => (none, .error .parsing)
      | .empty => (none, .ok ())
      | .null => (none, .ok ())
      | .doc doc => (some (some (yaml.marshal (doc.remove name))), .ok ())

def Call.plan : Call → Plan (Option Str) (Except KubeErr Unit)
  | .merge name adminConf serverIP =>
    match rewriteAdminConf yaml name adminConf serverIP with
    | .error err => fun _ => (none, .error err)
    | .ok entries => mergePlan yaml name entries
  | .remove name => removePlan yaml name

end Plans

variable {yaml : Yaml}

theorem ends_write {out : Str} :
    sharedConfig.Ends (some (some out), .ok ())
      (succeedOr .writing (Prog.perform (FileOp.writeFile out))).run :=
  fun _ _ => ⟨rfl, rfl⟩

theorem ends_backUp {α β : Type} {raw : Str} {result : FileAction α} {next : α → FileAction β}
    {planned : Option (Option Str) × Except KubeErr β}
    (ends : sharedConfig.Ends planned (result >>= next).run) :
    sharedConfig.Ends planned ((backUp raw >>= fun _ => result) >>= next).run := by
  intro _ files
  change sharedConfig.Ends planned (((if files.backup.isNone then
    succeedOr .backup (Prog.perform (FileOp.writeBackup raw)) else pure ()) >>= fun _ => result)
      >>= next).run
  split
  · exact fun _ _ => ends
  · exact ends

theorem updates_mergeKubeconfig {name adminConf serverIP : Str} {entries : Entries}
    (rewritten : rewriteAdminConf yaml name adminConf serverIP = .ok entries) :
    sharedConfig.Updates (mergePlan yaml name entries)
      (mergeKubeconfig yaml name adminConf serverIP).run := by
  unfold mergeKubeconfig
  rw [rewritten]
  -- The path is found, the directory is made and the file is read.
  intro _ _ _ _ _ files
  rcases files with ⟨_ | raw, backup⟩
  · exact ends_write
  · change sharedConfig.Ends (mergePlan yaml name entries (some raw))
      (decodeDest yaml (.content raw) >>= fun dest => succeedOr .writing
        (Prog.perform (FileOp.writeFile (yaml.marshal (dest.merge name entries))))).run
    simp only [mergePlan, destOf, decodeDest]
    split_ifs
    · exact ends_write
    · cases yaml.unmarshal raw with
      | failed => rfl
      | empty => exact ends_backUp ends_write
      | null =>
        apply ends_backUp
        rfl
      | doc doc => exact ends_backUp ends_write

theorem updates_removeKubeconfig (name : Str) :
    sharedConfig.Updates (removePlan yaml name) (removeKubeconfig yaml name).run := by
  -- The path is found and the file is read.
  intro _ _ _ files
  rcases files with ⟨_ | raw, backup⟩
  · rfl
  · change sharedConfig.Ends (removePlan yaml name (some raw))
      (removeFrom yaml name (.content raw)).run
    simp only [removePlan, removeFrom]
    split_ifs
    · rfl
    · cases yaml.unmarshal raw with
      | failed => rfl
      | empty => rfl
      | null => rfl
      | doc doc => exact ends_write

theorem updates_program (call : Call) :
    sharedConfig.Updates (call.plan yaml) (call.program yaml).run := by
  cases call with
  | remove name => exact updates_removeKubeconfig name
  | merge name adminConf serverIP =>
    cases rewritten : rewriteAdminConf yaml name adminConf serverIP with
    | error err =>
      simp only [Call.plan, Call.program, mergeKubeconfig, rewritten]
      exact fun _ => rfl
    | ok entries =>
      simp only [Call.plan, Call.program, rewritten]
      exact updates_mergeKubeconfig rewritten

section Effects

variable {config out : Option Str} {call other : Call}

theorem lists_destOf {doc : Doc} (decoded : destOf yaml config = .ok doc) (part : Part) :
    doc.lists part = itemsOf yaml config part := by
  rcases config with _ | raw
  · cases decoded
    rfl
  · simp only [destOf] at decoded
    split_ifs at decoded with isEmpty
    · cases decoded
      simp only [itemsOf, yaml.unmarshal_blank raw (by rw [isEmpty]; decide)]
      rfl
    · simp only [itemsOf]
      cases text : yaml.unmarshal raw with
      | failed => simp [text] at decoded
      | empty =>
        simp only [text] at decoded
        cases decoded
        rfl
      | null => simp [text] at decoded
      | doc doc =>
        simp only [text] at decoded
        cases decoded
        rfl

theorem plan_some (writes : (call.plan yaml config).1 = some out) :
    (∃ name adminConf serverIP entries, ∃ doc : Doc, call = .merge name adminConf serverIP ∧
      rewriteAdminConf yaml name adminConf serverIP = .ok entries ∧
      (∀ part, doc.lists part = itemsOf yaml config part) ∧
      out = some (yaml.marshal (doc.merge name entries))) ∨
    ∃ name, ∃ doc : Doc, call = .remove name ∧ (∀ part, doc.lists part = itemsOf yaml config part) ∧
      out = some (yaml.marshal (doc.remove name)) := by
  cases call with
  | merge name adminConf serverIP =>
    cases rewritten : rewriteAdminConf yaml name adminConf serverIP with
    | error err => simp [Call.plan, rewritten] at writes
    | ok entries =>
      cases decoded : destOf yaml config with
      | error err => simp [Call.plan, rewritten, mergePlan, decoded] at writes
      | ok doc =>
        simp only [Call.plan, rewritten, mergePlan, decoded, Option.some.injEq] at writes
        exact Or.inl ⟨name, adminConf, serverIP, entries, doc, rfl, rewritten,
          lists_destOf decoded, writes.symm⟩
  | remove name =>
    rcases config with _ | raw
    · simp [Call.plan, removePlan] at writes
    · simp only [Call.plan, removePlan] at writes
      split_ifs at writes
      cases text : yaml.unmarshal raw with
      | failed => simp [text] at writes
      | empty => simp [text] at writes
      | null => simp [text] at writes
      | doc doc =>
        simp only [text, Option.some.injEq] at writes
        refine Or.inr ⟨name, doc, rfl, fun part => ?_, writes.symm⟩
        simp only [itemsOf, text]

theorem shows_of_plan_some (writes : (call.plan yaml config).1 = some out) :
    Shows yaml out call := by
  rcases plan_some writes with
    ⟨name, adminConf, serverIP, entries, doc, rfl, rewritten, _, rfl⟩ | ⟨name, doc, rfl, _, rfl⟩
  · intro entries' rewritten' part
    rw [rewritten] at rewritten'
    cases rewritten'
    rw [itemsOf_marshal]
    exact mem_upsert_self _ _ _
  · intro part item present
    rw [itemsOf_marshal] at present
    exact (mem_drop.mp present).2

theorem shows_of_plan_none (writes : (call.plan yaml config).1 = none)
    (succeeds : (call.plan yaml config).2 = .ok ()) : Shows yaml config call := by
  cases call with
  | merge name adminConf serverIP =>
    cases rewritten : rewriteAdminConf yaml name adminConf serverIP with
    | error err => simp [Call.plan, rewritten] at succeeds
    | ok entries =>
      cases decoded : destOf yaml config with
      | error err => simp [Call.plan, rewritten, mergePlan, decoded] at succeeds
      | ok doc => simp [Call.plan, rewritten, mergePlan, decoded] at writes
  | remove name =>
    intro part item present
    rcases config with _ | raw
    · simp [itemsOf] at present
    · cases text : yaml.unmarshal raw with
      | failed => simp [itemsOf, text] at present
      | empty => simp [itemsOf, text] at present
      | null => simp [itemsOf, text] at present
      | doc doc =>
        simp only [Call.plan, removePlan, text] at writes
        split_ifs at writes with blank
        rw [yaml.unmarshal_blank raw blank] at text
        cases text

theorem mem_itemsOf_of_plan_some (writes : (call.plan yaml config).1 = some out) {item : Item}
    (foreign : item.name ≠ entryName call.name) (part : Part) :
    item ∈ itemsOf yaml out part ↔ item ∈ itemsOf yaml config part := by
  rcases plan_some writes with
    ⟨name, adminConf, serverIP, entries, doc, rfl, rewritten, shows, rfl⟩ |
    ⟨name, doc, rfl, shows, rfl⟩
  · rw [itemsOf_marshal, ← shows]
    exact mem_upsert_of_ne (entries_name rewritten part) foreign
  · rw [itemsOf_marshal, ← shows]
    exact mem_drop.trans (and_iff_left foreign)

theorem shows_iff_of_plan_some (writes : (call.plan yaml config).1 = some out)
    (distinct : other.name ≠ call.name) : Shows yaml out other ↔ Shows yaml config other := by
  have foreign : entryName other.name ≠ entryName call.name :=
    fun same => distinct (List.append_cancel_left same)
  cases other with
  | merge name adminConf serverIP =>
    apply forall_congr'
    intro entries
    apply imp_congr_right
    intro rewritten
    apply forall_congr'
    intro part
    apply mem_itemsOf_of_plan_some writes
    rwa [entries_name rewritten]
  | remove name =>
    apply forall_congr'
    intro part
    constructor
    · intro absent item present named
      exact absent item
        ((mem_itemsOf_of_plan_some writes (by rwa [named]) part).mpr present) named
    · intro absent item present named
      exact absent item
        ((mem_itemsOf_of_plan_some writes (by rwa [named]) part).mp present) named

end Effects

def effectsOf (yaml : Yaml) (calls : Bool → Call)
    (distinct : ∀ who, (calls (!who)).name ≠ (calls who).name) :
    Effects (fun who => (calls who).plan yaml) (· = .ok ()) where
  effect who config := Shows yaml config (calls who)
  own _ _ _ writes := shows_of_plan_some writes
  idle _ _ writes succeeds := shows_of_plan_none writes succeeds
  frame who _ _ writes := shows_iff_of_plan_some writes (distinct who)

section Sample

/-- A cluster is created while another one is deleted, and there is no file yet. -/
def mergeAndRemove (yaml : Yaml) : Bool → Call
  | true => mergeOf yaml (str "dev")
  | false => .remove (str "test")

def mergeBoth (yaml : Yaml) : Bool → Call
  | true => mergeOf yaml (str "dev")
  | false => mergeOf yaml (str "test")

def mergeSteps (yaml : Yaml) (name : Str) : FileAction Unit := do
  succeedOr .noPath (Prog.perform FileOp.kubeconfigPath)
  succeedOr .mkdir (Prog.perform FileOp.mkdirAll)
  let answer ← ExceptT.lift (Prog.perform FileOp.readFile)
  let dest ← decodeDest yaml answer
  succeedOr .writing (Prog.perform
    (FileOp.writeFile (yaml.marshal (dest.merge name (entriesOf yaml name)))))

theorem program_mergeOf (yaml : Yaml) (name : Str) :
    ((mergeOf yaml name).program yaml).run = (mergeSteps yaml name).run := by
  simp only [mergeOf, Call.program, mergeKubeconfig, rewriteAdminConf_docOf]
  rfl

theorem interleaved_of_programs {calls : Bool → Call} {files : Files} {schedule : List Bool}
    {programs : Bool → Prog FileOp FileOp.Ans (Except KubeErr Unit)}
    (same : ∀ who, ((calls who).program yaml).run = programs who) :
    interleaved yaml calls files schedule =
      Joint.run calmMachine ⟨programs, files, []⟩ (schedule.map (·, ())) := by
  rw [interleaved, funext same]

theorem mergeAndRemove_in_turn (yaml : Yaml) :
    let final := interleaved yaml (mergeAndRemove yaml) ⟨none, none⟩
      [false, false, true, true, true, true]
    (∀ who, final.programs who = .done (.ok ())) ∧
      sharedConfig.accesses final.trace = [(true, .write), (true, .read), (false, .read)] := by
  have same : ∀ who, ((mergeAndRemove yaml who).program yaml).run = match who with
      | true => (mergeSteps yaml (str "dev")).run
      | false => (removeKubeconfig yaml (str "test")).run := by
    intro who
    cases who with
    | true => exact program_mergeOf yaml (str "dev")
    | false => rfl
  rw [interleaved_of_programs same]
  refine ⟨fun who => ?_, rfl⟩
  cases who <;> rfl

theorem mergeBoth_overlapping (yaml : Yaml) :
    let final := interleaved yaml (mergeBoth yaml) ⟨none, none⟩
      [true, true, true, false, false, false, true, false]
    (∀ who, final.programs who = .done (.ok ())) ∧ final.state.config =
      some (yaml.marshal (defaultDoc.merge (str "test") (entriesOf yaml (str "test")))) := by
  have same : ∀ who, ((mergeBoth yaml who).program yaml).run = match who with
      | true => (mergeSteps yaml (str "dev")).run
      | false => (mergeSteps yaml (str "test")).run := by
    intro who
    cases who with
    | true => exact program_mergeOf yaml (str "dev")
    | false => exact program_mergeOf yaml (str "test")
  rw [interleaved_of_programs same]
  refine ⟨fun who => ?_, rfl⟩
  cases who <;> rfl

end Sample

end Kiac.Kubeconfig
