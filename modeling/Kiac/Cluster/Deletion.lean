import Kiac.Cluster.Lifecycle
import Kiac.Kubeconfig.Faultless
import Kiac.Kubeconfig.Kept
import Kiac.Program.Handle

/-!
# Deleting again

`Delete` removes the VMs of a cluster and then its entries in the user's kubeconfig. A second
`Delete` finishes the work as long as one VM is left; after the last one is gone it reports that
there is no cluster, and entries that are still in the kubeconfig stay.
-/

namespace Kiac.Cluster

open Kiac.Runtime Kubeconfig

abbrev World := Host × Files

abbrev WorldOp := Op ⊕ FileOp

abbrev WorldAns : WorldOp → Type := SumAns Op.Ans FileOp.Ans

def worldMachine : Machine WorldOp WorldAns World (Choice × Fault) := Runtime.machine.sum fileMachine

/-- The removal of the entries is a program on the file, which can be stopped in the middle. -/
def onFiles (yaml : Yaml) : (op : Op) → Prog WorldOp WorldAns op.Ans
  | .host (.removeKubeconfig name) =>
    Prog.second (removeKubeconfig yaml name).run >>= fun
      | .ok _ => Prog.done (.ok [])
      | .error _ => Prog.done (.error .command)
  | op => Prog.first op

/-- `Delete` on the VMs and the kubeconfig. -/
def deleteIn (yaml : Yaml) (name : Str) : Prog WorldOp WorldAns (Except Err Unit) :=
  (delete name).run.handle (onFiles yaml)

def Gone (yaml : Yaml) (name : Str) (world : World) : Prop :=
  (∀ vm ∈ world.1.names, ¬ InCluster name vm) ∧ Unlisted yaml name world.2

/-- An environment in which every command and every access to the kubeconfig succeeds. -/
structure Succeeding (strategy : WorldOp → World → Choice × Fault) : Prop where
  commands : ∀ op world, op ≠ .krunkitGroupFirst → (strategy (.inl op) world).1.succeeds = true
  accesses : ∀ op world, (strategy (.inr op) world).2.fails = false

section Issued

def NotHost (op : Op) : Prop := ∀ step, op ≠ .host step

theorem onFiles_of_notHost (yaml : Yaml) {op : Op} (other : NotHost op) :
    onFiles yaml op = Prog.first op := by
  cases op with
  | host step => exact absurd rfl (other step)
  | _ => rfl

theorem issues_list (start : Str) : Issues NotHost (fun _ => True) (list start).run := by
  refine .bind (.perform (by simp [NotHost])) fun primary _ => ?_
  exact .bind (.perform (by simp [NotHost])) fun alternate _ => trivial

theorem issues_groupNames (names : List Str) : Issues NotHost (fun _ => True) (groupNames names) := by
  induction names with
  | nil => trivial
  | cons name names ih =>
    have backend : Issues NotHost (fun _ => True) (backendFor name) := by
      refine .bind (.perform (by simp [NotHost])) fun owned _ => ?_
      cases owned <;> trivial
    refine .bind backend fun backend _ => .bind ih fun groups _ => ?_
    cases backend <;> trivial

theorem issues_removeGroups (groups : List (Backend × List Str)) :
    Issues NotHost (fun _ => True) (removeGroups groups) := by
  induction groups with
  | nil => trivial
  | cons group groups ih =>
    unfold removeGroups
    split
    · exact ih
    · refine .bind (.perform (by simp [NotHost])) fun result _ => .bind ih fun failed _ => ?_
      cases result <;> trivial

theorem issues_remove (names : List Str) : Issues NotHost (fun _ => True) (remove names).run := by
  refine .bind (issues_groupNames names) fun groups _ => ?_
  refine .bind (.perform (by simp [NotHost])) fun krunkitFirst _ => ?_
  refine .bind (issues_removeGroups _) fun failed _ => ?_
  cases failed <;> trivial

end Issued


section Again

variable {strategy : WorldOp → World → Choice × Fault} (succeeding : Succeeding strategy)

include succeeding

theorem Succeeding.serving (files : Files) :
    Serving fun op host => (strategy (.inl op) (host, files)).1 :=
  fun op host _ notOrder => succeeding.commands op (host, files) notOrder

theorem follow_handle_list (yaml : Yaml) (start : Str) (host : Host) (files : Files) :
    ((list start).run.handle (onFiles yaml)).follow worldMachine strategy (host, files) =
      ((host, files), .ok (host.rows .container start ++ host.rows .krunkit start)) := by
  rw [worldMachine, Prog.follow_handle (fun _ => onFiles_of_notHost yaml) (issues_list start),
    follow_list (succeeding.serving files)]

theorem follow_handle_remove (yaml : Yaml) (names : List Str) (host : Host) (files : Files) :
    ∃ after : Host, ((remove names).run.handle (onFiles yaml)).follow worldMachine strategy
        (host, files) = ((after, files), .ok ()) ∧
      ∀ info, info ∈ after.vms ↔ info ∈ host.vms ∧ info.name ∉ names := by
  rcases follow_remove (succeeding.serving files) host names with ⟨removed, kept⟩
  refine ⟨_, ?_, kept⟩
  rw [worldMachine, Prog.follow_handle (fun _ => onFiles_of_notHost yaml) (issues_remove names), removed]

omit succeeding in
theorem follow_onFiles (yaml : Yaml) (name : Str) (host : Host) (files : Files) :
    ((onFiles yaml (.host (.removeKubeconfig name))).follow worldMachine strategy (host, files)).1 =
      (host, ((removeKubeconfig yaml name).run.follow fileMachine
        (fun op now => (strategy (.inr op) (host, now)).2) files).1) := by
  rw [onFiles, Prog.follow_bind, worldMachine, Prog.follow_second]
  cases ((removeKubeconfig yaml name).run.follow fileMachine
    (fun op now => (strategy (.inr op) (host, now)).2) files).2 <;> rfl

variable {name : Str} {world : World}

theorem follow_deleteIn_absent (yaml : Yaml) (absent : ∀ vm ∈ world.1.names, ¬ InCluster name vm) :
    (deleteIn yaml name).follow worldMachine strategy world = (world, .error (.noCluster name)) := by
  have nothing : world.1.rows .container (nodePrefix name) ++ world.1.rows .krunkit (nodePrefix name) =
      [] := by
    rw [List.eq_nil_iff_forall_not_mem]
    intro info listed
    rcases mem_listed.mp listed with ⟨mem, starts⟩
    exact absent info.name (List.mem_map_of_mem mem) starts
  rw [deleteIn, delete, Prog.handle_run_bind, Prog.follow_bind, follow_handle_list succeeding, nothing]
  rfl

theorem gone_deleteIn_present (yaml : Yaml) (present : ∃ vm ∈ world.1.names, InCluster name vm) :
    Gone yaml name ((deleteIn yaml name).follow worldMachine strategy world).1 := by
  rcases world with ⟨host, files⟩
  have listing := follow_handle_list succeeding yaml (nodePrefix name) host files
  have listed : ∀ info, info ∈ host.rows .container (nodePrefix name) ++
      host.rows .krunkit (nodePrefix name) ↔ info ∈ host.vms ∧ InCluster name info.name :=
    fun info => mem_listed
  generalize host.rows .container (nodePrefix name) ++ host.rows .krunkit (nodePrefix name) =
    infos at listing listed
  have some' : infos.isEmpty = false := by
    rcases present with ⟨vm, mem, starts⟩
    rcases List.mem_map.mp mem with ⟨info, infoMem, rfl⟩
    rw [List.isEmpty_eq_false_iff]
    exact List.ne_nil_of_mem ((listed info).mpr ⟨infoMem, starts⟩)
  rcases follow_handle_remove succeeding yaml (infos.map Info.name) host files with
    ⟨after, removed, kept⟩
  have ends : ((deleteIn yaml name).follow worldMachine strategy (host, files)).1 =
      (after, ((removeKubeconfig yaml name).run.follow fileMachine
        (fun op now => (strategy (.inr op) (after, now)).2) files).1) := by
    rw [← follow_onFiles]
    simp only [deleteIn, delete, Prog.handle_run_bind, Prog.follow_bind, listing, check, some',
      Bool.not_false, if_true, Prog.handle_run_pure, Prog.follow_done, removed, Runtime.host,
      ExceptT.run_mk, Prog.handle_perform]
    split <;> rfl
  rw [ends]
  refine ⟨?_, unlisted_removeKubeconfig (fun op now => succeeding.accesses op (after, now)) yaml
    name files⟩
  intro vm mem inCluster
  rcases List.mem_map.mp mem with ⟨info, infoMem, rfl⟩
  rcases (kept info).mp infoMem with ⟨before, notListed⟩
  exact notListed (List.mem_map_of_mem ((listed info).mpr ⟨before, inCluster⟩))

/-- Nothing is left after a second `Delete` exactly if there was a VM for it to find, or nothing
was left in the kubeconfig. -/
theorem gone_follow_deleteIn_iff (yaml : Yaml) (name : Str) (world : World) :
    Gone yaml name ((deleteIn yaml name).follow worldMachine strategy world).1 ↔
      (∃ vm ∈ world.1.names, InCluster name vm) ∨ Unlisted yaml name world.2 := by
  by_cases present : ∃ vm ∈ world.1.names, InCluster name vm
  · exact iff_of_true (gone_deleteIn_present succeeding yaml present) (.inl present)
  · have absent : ∀ vm ∈ world.1.names, ¬ InCluster name vm :=
      fun vm mem inCluster => present ⟨vm, mem, inCluster⟩
    rw [follow_deleteIn_absent succeeding yaml absent]
    exact ⟨fun gone => .inr gone.2, fun listed => ⟨absent, listed.resolve_left present⟩⟩

end Again

def allSucceed : WorldOp → World → Choice × Fault := fun _ _ => (⟨true, fun _ => true, []⟩, fine)

theorem succeeding_allSucceed : Succeeding allSucceed := ⟨fun _ _ _ => rfl, fun _ _ => rfl⟩

/-- A cluster `dev` of one node, with its entries. -/
def devWorld : World :=
  (⟨[⟨controlPlane (str "dev"), str "kindest/node", str "running", [], .container⟩], by decide⟩,
    ⟨some (numbered.marshal (docOf (entryName (str "dev")))), none⟩)

/-- The choices of a first `Delete` that removes the VM and then is killed, or cannot read the
kubeconfig. -/
def killedAfterVMs : List (Choice × Fault) := List.replicate 5 (⟨true, fun _ => true, []⟩, fine)

def unreadableAfterVMs : List (Choice × Fault) :=
  List.replicate 6 (⟨true, fun _ => true, []⟩, fine) ++ [(⟨true, fun _ => true, []⟩, ⟨true, none⟩)]

end Kiac.Cluster
