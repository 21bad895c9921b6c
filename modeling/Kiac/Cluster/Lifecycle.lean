import Kiac.Cluster.Resume

/-!
# Deleting, stopping and starting

`Delete`, the cleanup after a failed create, and stopping or starting a node act on what `List`
returns for the start `kiac-<name>-`. The start of one cluster can select nodes of another one, and
then the cleanup does remove them.
-/

namespace Kiac.Cluster

open Kiac.Runtime

def cleanupOnFailure (name : Str) : Prog Op Op.Ans Unit := do
  match ← (list (nodePrefix name)).run with
  | .error _ => return ()
  | .ok infos =>
    let _ ← (remove (infos.map Info.name)).run

def delete (name : Str) : Action Unit := do
  let infos ← list (nodePrefix name)
  check (!infos.isEmpty) (.noCluster name)
  remove (infos.map Info.name)
  let _ ← host (.removeKubeconfig name)

def findNode (name node : Str) : Action (List Info × Str) := do
  check (validName name) (.invalidName name)
  let infos ← list (nodePrefix name)
  check (!infos.isEmpty) (.noCluster name)
  let target ← fromResult (resolveNode infos name node)
  return (infos, target)

def stopNode (name node : Str) : Action Unit := do
  let (infos, target) ← findNode name node
  check (!(target == controlPlane name && infos.length == 1)) (.onlyNode target name)
  stop target

def requireSingleStopped (name : Str) (infos : List Info) (krunkit : Bool) : Except Err Unit :=
  let stopped := countStoppedNodes infos
  if 1 < stopped && (krunkit || distroFromNodes infos == .k3s) then
    .error (.stoppedNodes (if krunkit then str "krunkit-backed" else str "k3s") name stopped)
  else .ok ()

def startStoppedNode (polls : ℕ) (name : Str) (infos : List Info) (target : Str) :
    Action Unit := do
  let krunkit ← fromResult (krunkitOnlyCluster infos)
  fromResult (requireSingleStopped name infos krunkit)
  if krunkit || distroFromNodes infos == .k3s then resume polls name else start target

def startNode (polls : ℕ) (name node : Str) : Action Unit := do
  let (infos, target) ← findNode name node
  onlyIf (!runningNode infos target) (startStoppedNode polls name infos target)

def operations (polls : ℕ) (name node : Str) : List (Action Unit) :=
  [delete name, ExceptT.mk (cleanupOnFailure name >>= fun _ => Prog.done (.ok ())),
    stopNode name node, startNode polls name node]

theorem confined_cleanupOnFailure (name : Str) :
    Confined (InCluster name) (cleanupOnFailure name) fun _ => True := by
  refine Confined.bind Within.list ?_
  intro result listed
  cases result with
  | error err => exact Confined.done trivial
  | ok infos =>
    refine Confined.bind (Within.remove ?_).run fun _ _ => Confined.done trivial
    intro vm mem
    rcases List.mem_map.mp mem with ⟨info, inRows, rfl⟩
    exact listed info inRows

theorem within_delete (name : Str) : Within (InCluster name) (delete name) fun _ => True := by
  refine Within.list.bind fun infos listed => ?_
  refine Within.check.bind fun _ _ => ?_
  refine (Within.remove ?_).bind fun _ _ => ?_
  · intro vm mem
    rcases List.mem_map.mp mem with ⟨info, inRows, rfl⟩
    exact listed info inRows
  · exact Within.of_acts (by simp)

theorem within_findNode {allowed : Str → Prop} (name node : Str) :
    Within allowed (findNode name node) fun found => InCluster name found.2 := by
  refine Within.check.bind fun _ _ => ?_
  refine Within.list.bind fun infos _ => ?_
  refine Within.check.bind fun _ _ => ?_
  refine (Within.fromResult fun _ resolved => resolveNode_hasPrefix resolved).bind ?_
  intro target inCluster
  exact Within.pure inCluster

theorem within_stopNode (name node : Str) :
    Within (InCluster name) (stopNode name node) fun _ => True := by
  refine (within_findNode name node).bind ?_
  rintro ⟨infos, target⟩ (inCluster : InCluster name target)
  exact Within.of_acts (by simp [inCluster])

theorem within_startNode (polls : ℕ) (name node : Str) :
    Within (InCluster name) (startNode polls name node) fun _ => True := by
  refine (within_findNode name node).bind ?_
  rintro ⟨infos, target⟩ (inCluster : InCluster name target)
  apply Within.onlyIf
  refine (Within.fromResult fun _ _ => trivial).bind fun krunkit _ => ?_
  refine (Within.fromResult fun _ _ => trivial).bind fun _ _ => ?_
  split
  · exact within_resume polls name
  · exact Within.of_acts (by simp [inCluster])

theorem within_operations {polls : ℕ} {name node : Str} {operation : Action Unit}
    (mem : operation ∈ operations polls name node) :
    Within (InCluster name) operation fun _ => True := by
  simp only [operations, List.mem_cons, List.not_mem_nil, or_false] at mem
  rcases mem with rfl | rfl | rfl | rfl
  · exact within_delete name
  · exact (confined_cleanupOnFailure name).bind fun _ _ => Confined.done trivial
  · exact within_stopNode name node
  · exact within_startNode polls name node

theorem follow_cleanupOnFailure {strategy : Op → Host → Choice} (obliging : Obliging strategy)
    (host : Host) (name : Str) :
    ∀ vm, vm ∈ ((cleanupOnFailure name).follow machine strategy host).1.names ↔
      vm ∈ host.names ∧ ¬ InCluster name vm := by
  intro vm
  rw [cleanupOnFailure, Prog.follow_bind, follow_list obliging.serving]
  rcases follow_remove obliging.serving host ((host.rows .container (nodePrefix name) ++
    host.rows .krunkit (nodePrefix name)).map Info.name) with ⟨_, kept⟩
  simp only [Prog.follow_bind, Prog.pure_eq_done, Prog.follow_done, Host.names, List.mem_map, kept]
  constructor
  · rintro ⟨info, ⟨mem, notListed⟩, rfl⟩
    refine ⟨⟨info, mem, rfl⟩, ?_⟩
    intro starts
    exact notListed ⟨info, mem_listed.mpr ⟨mem, starts⟩, rfl⟩
  · rintro ⟨⟨info, mem, rfl⟩, outside⟩
    refine ⟨info, ⟨mem, ?_⟩, rfl⟩
    rintro ⟨other, listed, same⟩
    have starts := (mem_listed.mp listed).2
    rw [same] at starts
    exact outside starts

/--
Cluster isolation holds between two clusters exactly when the start of the one does
not select a VM of the other. The condition is about names alone: the other name
continues the first one after a dash, or the first name is the other one followed by
the first word of a role.
-/
theorem operations_isolated_iff {host : Host} {a b : Str} (validB : validName b = true)
    (distinct : a ≠ b) :
    (∀ polls node, ∀ operation ∈ operations polls a node, ∀ choices : List Choice,
      ∀ op ∈ (operation.run.exec machine choices host).trace,
        ∀ vm ∈ host.names, clusterNameFromNode vm = some b → op.touches vm = false) ↔
      ¬ Collides a b host.names := by
  have nonempty : b ≠ [] := by
    rintro rfl
    exact absurd validB (by decide)
  constructor
  · intro isolated collides
    rcases (collides_iff distinct).mp collides with ⟨vm, mem, isNode, starts⟩
    have owner := clusterNameFromNode_of_isNodeOf nonempty isNode
    have cleanup : ExceptT.mk (cleanupOnFailure a >>= fun _ => Prog.done (.ok ())) ∈
        operations 0 a [] := by simp [operations]
    -- If nothing touched the VM, it would survive a cleanup that removes it.
    rcases Prog.exists_exec_state (cleanupOnFailure a >>= fun _ =>
      Prog.done (Except.ok () : Except Err Unit)) succeed host with ⟨choices, ends⟩
    have untouched : ∀ op ∈ ((cleanupOnFailure a >>= fun _ =>
        Prog.done (Except.ok () : Except Err Unit)).exec machine choices host).trace,
        op.touches vm = false :=
      fun op issued => isolated 0 [] _ cleanup choices op issued vm mem owner
    have survives := mem_names_exec untouched mem
    rw [ends, Prog.follow_bind, Prog.follow_done, follow_cleanupOnFailure obliging_succeed] at survives
    exact survives.2 starts
  · intro separate polls node operation isOperation choices op issued vm mem owner
    have outside : ¬ InCluster a vm := by
      intro starts
      exact separate ((collides_iff distinct).mpr
        ⟨vm, mem, isNodeOf_of_clusterNameFromNode owner, starts⟩)
    exact Confined.not_touched (within_operations isOperation) outside op issued

/-- The host of one cluster with a single node, named `a-b`. -/
def dashedHost : Host where
  vms := [⟨controlPlane (str "a-b"), str "kindest/node", str "running", [], .container⟩]
  distinct := by decide

/-- No operation on cluster `x` acts on the node of cluster `a-b`. -/
theorem operations_isolated_dashed :
    validName (str "x") = true ∧ validName (str "a-b") = true ∧ ∀ polls node, ∀ operation ∈ operations polls (str "x") node, ∀ choices : List Choice,
      ∀ op ∈ (operation.run.exec machine choices dashedHost).trace,
        ∀ vm ∈ dashedHost.names, clusterNameFromNode vm = some (str "a-b") →
          op.touches vm = false := by
  refine ⟨by decide, by decide, (operations_isolated_iff (by decide) (by decide)).mpr ?_⟩
  rintro (⟨continues, _⟩ | ⟨eq, _⟩ | ⟨eq, _⟩ | ⟨eq, _⟩)
  · exact absurd (List.isPrefixOf_iff_prefix.mpr continues) (by decide)
  · exact absurd eq (by decide)
  · exact absurd eq (by decide)
  · exact absurd eq (by decide)

/-- Deleting cluster `a` removes the node of cluster `a-b`. -/
theorem delete_removes_other_cluster :
    validName (str "a") = true ∧ validName (str "a-b") = true ∧
      controlPlane (str "a-b") ∈ dashedHost.names ∧
      clusterNameFromNode (controlPlane (str "a-b")) = some (str "a-b") ∧
      ∃ op ∈ ((delete (str "a")).run.exec machine
          (List.replicate 6 ⟨true, fun _ => true, []⟩) dashedHost).trace,
        op.touches (controlPlane (str "a-b")) = true := by
  decide

end Kiac.Cluster
