import Kiac.Kubeconfig.File
import Kiac.Program.Strategy

/-!
# Calls without faults

When every access to the kubeconfig succeeds, a removal leaves no entry of its name, whatever the
file held before. A file that does not decode shows no entry, and is left as it is.
-/

namespace Kiac.Kubeconfig

def Unlisted (yaml : Yaml) (name : Str) (files : Files) : Prop :=
  ∀ part, ∀ item ∈ itemsOf yaml files.config part, item.name ≠ entryName name

theorem follow_succeedOr {strategy : FileOp → Files → Fault} {err : KubeErr}
    {program : Prog FileOp FileOp.Ans Bool} {files after : Files}
    (succeeds : program.follow fileMachine strategy files = (after, true)) :
    (succeedOr err program).run.follow fileMachine strategy files = (after, .ok ()) := by
  change (program >>= _).follow fileMachine strategy files = _
  rw [Prog.follow_bind, succeeds]
  rfl

def Files.answer (files : Files) : ReadAnswer :=
  match files.config with
  | none => .missing
  | some raw => .content raw

section Accesses

variable {strategy : FileOp → Files → Fault}
  (accesses : ∀ op files, (strategy op files).fails = false)

include accesses

theorem follow_path (files : Files) :
    (succeedOr .noPath (Prog.perform FileOp.kubeconfigPath)).run.follow fileMachine strategy files =
      (files, .ok ()) := by
  apply follow_succeedOr
  simp [fileMachine, fileStep, accesses]

theorem follow_readFile (files : Files) :
    (ExceptT.lift (Prog.perform FileOp.readFile) : FileAction ReadAnswer).run.follow fileMachine
      strategy files = (files, .ok files.answer) := by
  change (Prog.perform FileOp.readFile >>= _).follow fileMachine strategy files = _
  rw [Prog.follow_bind, Prog.follow_perform]
  simp only [fileMachine, fileStep, accesses, Bool.false_eq_true, if_false, Files.answer]
  cases files.config <;> rfl

theorem follow_writeFile (out : Str) (files : Files) :
    (succeedOr .writing (Prog.perform (FileOp.writeFile out))).run.follow fileMachine strategy
      files = ({ files with config := some out }, .ok ()) := by
  apply follow_succeedOr
  simp [fileMachine, fileStep, Fault.file, accesses]

theorem follow_removeKubeconfig (yaml : Yaml) (name : Str) (files : Files) :
    (removeKubeconfig yaml name).run.follow fileMachine strategy files =
      (removeFrom yaml name files.answer).run.follow fileMachine strategy files := by
  simp only [removeKubeconfig, Prog.follow_run_bind, follow_path accesses, follow_readFile accesses]

theorem unlisted_removeKubeconfig (yaml : Yaml) (name : Str) (files : Files) :
    Unlisted yaml name ((removeKubeconfig yaml name).run.follow fileMachine strategy files).1 := by
  rw [follow_removeKubeconfig accesses]
  cases config : files.config with
  | none =>
    intro part item present
    simp [Files.answer, config, removeFrom, itemsOf] at present
  | some raw =>
    simp only [Files.answer, config, removeFrom]
    split
    · rename_i blank
      intro part item present
      simp [config, itemsOf, yaml.unmarshal_blank raw blank] at present
    · cases decoded : yaml.unmarshal raw with
      | failed | empty | null =>
        intro part item present
        simp [config, itemsOf, decoded] at present
      | doc doc =>
        rw [follow_writeFile accesses]
        intro part item present
        rw [itemsOf_marshal] at present
        exact (mem_drop.mp present).2

end Accesses

end Kiac.Kubeconfig
