import Kiac.Cluster.Endpoint

/-!
# Healing the control plane

After a boot with another address, `healControlPlaneScript` replaces the old address in the files
of the control plane, makes a new serving certificate if the old one does not fit, and restarts
kubelet. `admin.conf` is the first of the files, and also where `Resume` reads the old address from:
a script that stops after it has rewritten `admin.conf` is not run again.
-/

namespace Kiac.Cluster

open Str

inductive ListedFile where
  | adminConf
  | superAdminConf
  | controllerManagerConf
  | schedulerConf
  | kubeletConf
  | kubeadmFlagsEnv
  | etcdManifest
  | apiserverManifest
  | controllerManagerManifest
  | schedulerManifest
deriving DecidableEq

def listedFiles : List ListedFile :=
  [.adminConf, .superAdminConf, .controllerManagerConf, .schedulerConf, .kubeletConf,
    .kubeadmFlagsEnv, .etcdManifest, .apiserverManifest, .controllerManagerManifest,
    .schedulerManifest]

/-- The listed files that exist, and the address for which `apiserver.crt` was made. -/
structure Disk where
  files : ListedFile → Option Str
  cert : Option Str

structure ControlPlaneVM where
  up : Bool
  /-- The address that is pinned for kubelet, if any, is the current one. -/
  pinned : Bool
  /-- A listed file has changed since kubelet was started. -/
  stale : Bool
  /-- The disk when the VM came up. -/
  base : Disk
  disk : Disk

inductive Command where
  | sed (file : ListedFile)
  | removeCert
  | regenerateCert
  | restartKubelet
  | kickApiserver
  | restartKiacLB

namespace Disk

/-- The address that `admin.conf` records. -/
def recorded (disk : Disk) : Option Str := disk.files .adminConf >>= apiServerIP

def needCert (old : Str) (disk : Disk) : Bool :=
  disk.cert.isNone || (disk.files .apiserverManifest).any (containsWord old none)

def sed (old new : Str) (file : ListedFile) (disk : Disk) : Disk :=
  { disk with files := Function.update disk.files file ((disk.files file).map (replaceWord old new)) }

def heal (old new : Str) (disk : Disk) : Disk where
  files := fun file => (disk.files file).map (replaceWord old new)
  cert := if disk.needCert old then some new else disk.cert

end Disk

def Command.run (old new : Str) (command : Command) (vm : ControlPlaneVM) : ControlPlaneVM :=
  match command with
  | .sed file =>
    { vm with
      disk := vm.disk.sed old new file
      stale := vm.stale || decide ((vm.disk.sed old new file).files file ≠ vm.disk.files file) }
  | .removeCert => { vm with disk := { vm.disk with cert := none } }
  | .regenerateCert => { vm with disk := { vm.disk with cert := some new } }
  | .restartKubelet => { vm with stale := false }
  | .kickApiserver => vm
  | .restartKiacLB => vm

def rewriteCommands (old : Str) (disk : Disk) : List Command :=
  listedFiles.map .sed ++ if disk.needCert old then [.removeCert, .regenerateCert] else []

def finishCommands (old : Str) (disk : Disk) : List Command :=
  (if disk.needCert old then [.kickApiserver] else []) ++ [.restartKiacLB]

def healControlPlaneScript (old : Str) (disk : Disk) : List Command :=
  rewriteCommands old disk ++ .restartKubelet :: finishCommands old disk

def runCommands (old new : Str) (commands : List Command) (vm : ControlPlaneVM) : ControlPlaneVM :=
  commands.foldl (fun vm command => command.run old new vm) vm

def Fresh (old : Str) (vm : ControlPlaneVM) : Prop :=
  vm.disk = vm.base ∧ vm.base.recorded = some old

/-- `admin.conf` records the new address already, and kubelet has not been restarted yet. -/
def Torn (new : Str) (vm : ControlPlaneVM) : Prop :=
  vm.up = true ∧ vm.pinned = true ∧ vm.disk.recorded = some new ∧ vm.stale = true

/-- The files name the new address, the certificate fits, and kubelet has been restarted after
the last change. -/
def Healed (old new : Str) (vm : ControlPlaneVM) : Prop :=
  vm.disk = vm.base.heal old new ∧ vm.stale = false

section Script

variable {old new : Str} {vm : ControlPlaneVM}

theorem runCommands_append (first second : List Command) :
    runCommands old new (first ++ second) vm =
      runCommands old new second (runCommands old new first vm) := List.foldl_append ..

theorem runCommands_frame (commands : List Command) (vm : ControlPlaneVM) :
    (runCommands old new commands vm).up = vm.up ∧
      (runCommands old new commands vm).pinned = vm.pinned ∧
      (runCommands old new commands vm).base = vm.base := by
  induction commands generalizing vm with
  | nil => exact ⟨rfl, rfl, rfl⟩
  | cons command commands ih =>
    have frame : (command.run old new vm).up = vm.up ∧
        (command.run old new vm).pinned = vm.pinned ∧
        (command.run old new vm).base = vm.base := by
      cases command <;> exact ⟨rfl, rfl, rfl⟩
    rcases ih (command.run old new vm) with ⟨up, pinned, base⟩
    exact ⟨up.trans frame.1, pinned.trans frame.2.1, base.trans frame.2.2⟩

theorem torn_sed_adminConf (oldQuad : Quad old) (newQuad : Quad new) (differs : old ≠ new)
    (fresh : Fresh old vm) (up : vm.up) (pinned : vm.pinned) :
    Torn new ((Command.sed .adminConf).run old new vm) := by
  rcases fresh with ⟨same, recorded⟩
  rw [← same] at recorded
  rcases Option.bind_eq_some_iff.mp recorded with ⟨content, exists', address⟩
  have replaced := apiServerIP_replaceWord oldQuad newQuad address
  have file : (vm.disk.sed old new .adminConf).files .adminConf =
      some (replaceWord old new content) := by
    simp only [Disk.sed, Function.update_self, exists', Option.map_some]
  refine ⟨up, pinned, ?_, ?_⟩
  · simp only [Command.run, Disk.recorded, file]
    exact replaced
  · have changed : (vm.disk.sed old new .adminConf).files .adminConf ≠ vm.disk.files .adminConf := by
      rw [file, exists']
      intro unchanged
      rw [Option.some.inj unchanged, address] at replaced
      exact differs (Option.some.inj replaced)
    simp [Command.run, changed]

def Command.Rewrites : Command → Prop
  | .sed file => file ≠ .adminConf
  | .restartKubelet => False
  | _ => True

theorem torn_run {command : Command} (rewrites : command.Rewrites) (torn : Torn new vm) :
    Torn new (command.run old new vm) := by
  rcases torn with ⟨up, pinned, recorded, stale⟩
  cases command with
  | sed file =>
    refine ⟨up, pinned, ?_, by simp [Command.run, stale]⟩
    simp only [Command.run, Disk.recorded, Disk.sed]
    rw [Function.update_of_ne (Ne.symm rewrites)]
    exact recorded
  | restartKubelet => exact rewrites.elim
  | _ => exact ⟨up, pinned, recorded, stale⟩

theorem torn_runCommands {commands : List Command}
    (rewrites : ∀ command ∈ commands, command.Rewrites) (torn : Torn new vm) :
    Torn new (runCommands old new commands vm) := by
  induction commands generalizing vm with
  | nil => exact torn
  | cons command commands ih =>
    exact ih (fun other mem => rewrites other (List.mem_cons_of_mem command mem))
      (torn_run (rewrites command List.mem_cons_self) torn)

theorem runCommands_sed {files : List ListedFile} (distinct : files.Nodup) (vm : ControlPlaneVM) :
    (runCommands old new (files.map .sed) vm).disk =
      { vm.disk with
        files := fun file =>
          if file ∈ files then (vm.disk.files file).map (replaceWord old new)
          else vm.disk.files file } := by
  induction files generalizing vm with
  | nil => simp [runCommands]
  | cons first files ih =>
    rcases List.nodup_cons.mp distinct with ⟨once, distinct⟩
    rw [List.map_cons, runCommands, List.foldl_cons, ← runCommands, ih distinct]
    simp only [Command.run, Disk.sed, Disk.mk.injEq, and_true]
    funext file
    by_cases isFirst : file = first
    · subst isFirst
      simp [once]
    · simp [isFirst]

theorem mem_listedFiles (file : ListedFile) : file ∈ listedFiles := by
  cases file <;> decide

theorem runCommands_rewriteCommands (vm : ControlPlaneVM) :
    (runCommands old new (rewriteCommands old vm.disk) vm).disk = vm.disk.heal old new := by
  have distinct : listedFiles.Nodup := by decide
  have files : (runCommands old new (listedFiles.map .sed) vm).disk = _ :=
    runCommands_sed distinct vm
  simp only [mem_listedFiles, if_true] at files
  rw [rewriteCommands, runCommands_append]
  unfold Disk.heal
  split
  · change { (runCommands old new (listedFiles.map .sed) vm).disk with cert := some new } = _
    rw [files]
  · exact files

theorem runCommands_finish (count : ℕ) (disk : Disk) (vm : ControlPlaneVM) :
    runCommands old new ((finishCommands old disk).take count) vm = vm := by
  have idle : ∀ command ∈ finishCommands old disk,
      ∀ vm : ControlPlaneVM, command.run old new vm = vm := by
    intro command mem vm
    simp only [finishCommands] at mem
    split at mem
    · rcases List.mem_cons.mp mem with rfl | mem
      · rfl
      · rw [List.mem_singleton.mp mem]
        rfl
    · rw [List.mem_singleton.mp mem]
      rfl
  have all : ∀ commands : List Command, (∀ command ∈ commands, command ∈ finishCommands old disk) →
      runCommands old new commands vm = vm := by
    intro commands within
    induction commands with
    | nil => rfl
    | cons command commands ih =>
      rw [runCommands, List.foldl_cons, idle command (within command List.mem_cons_self)]
      exact ih fun other mem => within other (List.mem_cons_of_mem command mem)
  exact all _ fun command mem => List.mem_of_mem_take mem

theorem healed_restart (fresh : Fresh old vm) (count : ℕ) :
    Healed old new (runCommands old new (rewriteCommands old vm.disk ++
      .restartKubelet :: (finishCommands old vm.disk).take count) vm) := by
  have disk : (runCommands old new (rewriteCommands old vm.disk) vm).disk = vm.disk.heal old new :=
    runCommands_rewriteCommands vm
  have base : (runCommands old new (rewriteCommands old vm.disk) vm).base = vm.base :=
    (runCommands_frame _ vm).2.2
  rw [runCommands_append, runCommands, List.foldl_cons, ← runCommands, runCommands_finish]
  generalize runCommands old new (rewriteCommands old vm.disk) vm = rewritten at disk base
  refine ⟨?_, rfl⟩
  change rewritten.disk = rewritten.base.heal old new
  rw [disk, base, fresh.1]

theorem healed_script (fresh : Fresh old vm) :
    Healed old new (runCommands old new (healControlPlaneScript old vm.disk) vm) := by
  rw [healControlPlaneScript, ← List.take_length (l := finishCommands old vm.disk)]
  exact healed_restart fresh _

theorem rewriteCommands_eq (old : Str) (disk : Disk) :
    ∃ rest, rewriteCommands old disk = .sed .adminConf :: rest ∧
      ∀ command ∈ rest, command.Rewrites := by
  refine ⟨listedFiles.tail.map .sed ++
    if disk.needCert old then [.removeCert, .regenerateCert] else [], rfl, ?_⟩
  intro command mem
  rcases List.mem_append.mp mem with isSed | isCert
  · rcases List.mem_map.mp isSed with ⟨file, isListed, rfl⟩
    rintro rfl
    exact absurd isListed (by decide)
  · split at isCert
    · rcases List.mem_cons.mp isCert with rfl | isLast
      · trivial
      · rw [List.mem_singleton.mp isLast]
        trivial
    · cases isCert

theorem cut_script (oldQuad : Quad old) (newQuad : Quad new) (differs : old ≠ new)
    (fresh : Fresh old vm) (up : vm.up) (pinned : vm.pinned) (count : ℕ) :
    runCommands old new ((healControlPlaneScript old vm.disk).take count) vm = vm ∨
      Torn new (runCommands old new ((healControlPlaneScript old vm.disk).take count) vm) ∨
      Healed old new
        (runCommands old new ((healControlPlaneScript old vm.disk).take count) vm) := by
  rw [healControlPlaneScript, List.take_append]
  rcases Nat.lt_or_ge (rewriteCommands old vm.disk).length count with after | before
  · right
    right
    rw [List.take_of_length_le (Nat.le_of_lt after)]
    rcases Nat.exists_eq_add_of_lt after with ⟨more, rfl⟩
    rw [show (rewriteCommands old vm.disk).length + more + 1 - (rewriteCommands old vm.disk).length =
      more + 1 by omega, List.take_succ_cons]
    exact healed_restart fresh more
  · rw [Nat.sub_eq_zero_of_le before, List.take_zero, List.append_nil]
    rcases rewriteCommands_eq old vm.disk with ⟨rest, commands, rewrites⟩
    rw [commands]
    cases count with
    | zero => exact Or.inl rfl
    | succ count =>
      right
      left
      rw [List.take_succ_cons, runCommands, List.foldl_cons, ← runCommands]
      refine torn_runCommands (fun command mem => rewrites command (List.mem_of_mem_take mem)) ?_
      exact torn_sed_adminConf oldQuad newQuad differs fresh up pinned

end Script

end Kiac.Cluster
