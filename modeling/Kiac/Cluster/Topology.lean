import Kiac.Cluster.Names
import Kiac.Runtime.Host
import Mathlib.Data.List.Sort

/-!
# The nodes of a listed cluster

Lifecycle operations decide from the rows that the runtime lists for a cluster: which
distribution it runs, whether its nodes are krunkit VMs, how many of them are
stopped, and in which order they boot. `orderNodeGroups` refuses rows whose names
are not node names of the cluster.
-/

namespace Kiac.Cluster

open Kiac.Runtime

inductive Distro where
  | kubeadm
  | k3s
deriving DecidableEq, Repr

def distroFromNodes : List Info → Distro
  | [] => .kubeadm
  | info :: infos =>
    if info.distro = str "k3s" then .k3s
    else if info.distro = str "kubeadm" then .kubeadm
    else if Str.contains (str "rancher/k3s") info.image.toLower then .k3s
    else distroFromNodes infos

def krunkitOnlyCluster (infos : List Info) : Except Err Bool :=
  let krunkit := infos.countP fun info => info.backend == .krunkit
  if krunkit = 0 then .ok false
  else if krunkit ≠ infos.length then .error .mixedBackends
  else .ok true

def isRunning (info : Info) : Bool := info.status.equalFold (str "running")

def countStoppedNodes (infos : List Info) : ℕ := infos.countP fun info => !isRunning info

def runningNode (infos : List Info) (node : Str) : Bool :=
  infos.any fun info => info.name == node && isRunning info

def resolveNode (infos : List Info) (name node : Str) : Except Err Str :=
  let full := if node.hasPrefix (nodePrefix name) then node else nodePrefix name ++ node
  if infos.any fun info => info.name == full then .ok full
  else .error (.noNode node name (infos.map fun info => info.name.trimPrefix (nodePrefix name)))

/-- The rows of `orderNodeGroups` seen so far. -/
structure NodeGroups where
  found : Bool
  regular : List (ℤ × Str)
  gpu : List (ℤ × Str)

/-- A row of the group with the given marker; `none` when the name has another form. -/
def addIndexed (name marker role : Str) (info : Info) (entries : List (ℤ × Str)) :
    Option (Except Err (List (ℤ × Str))) :=
  let rest := info.name.trimPrefix (nodePrefix name ++ marker)
  if rest = info.name then none
  else if !canonicalPositiveIndex rest then some (.error (.invalidNode name info.name marker))
  else
    let index := (Str.atoi rest).getD 0
    if entries.any fun entry => entry.1 == index then
      some (.error (.duplicateIndex name role index))
    else some (.ok (entries ++ [(index, info.name)]))

def orderNode (name : Str) (groups : NodeGroups) (info : Info) : Except Err NodeGroups :=
  if info.name = controlPlane name then
    if groups.found then .error (.duplicateControlPlane name)
    else .ok { groups with found := true }
  else
    match addIndexed name (str "worker-") (str "worker") info groups.regular with
    | some added => added.map fun regular => { groups with regular := regular }
    | none =>
      match addIndexed name (str "gpu-") (str "gpu") info groups.gpu with
      | some added => added.map fun gpu => { groups with gpu := gpu }
      | none => .error (.unrecognizedNode name info.name)

def toNames (entries : List (ℤ × Str)) : List Str :=
  (entries.insertionSort fun a b => a.1 ≤ b.1).map Prod.snd

def orderNodeGroups (name : Str) (infos : List Info) :
    Except Err (Str × List Str × List Str) := do
  let groups ← infos.foldlM (orderNode name) ⟨false, [], []⟩
  if !groups.found then .error (.noControlPlane name)
  else .ok (controlPlane name, toNames groups.regular, toNames groups.gpu)

def orderNodes (name : Str) (infos : List Info) : Except Err (Str × List Str) := do
  let (cp, workers, gpuWorkers) ← orderNodeGroups name infos
  .ok (cp, workers ++ gpuWorkers)

theorem controlPlane_hasPrefix (name : Str) :
    (controlPlane name).hasPrefix (nodePrefix name) :=
  Str.hasPrefix_append _ _

variable {infos : List Info} {name cp : Str} {workers : List Str}

theorem resolveNode_hasPrefix {node target : Str}
    (resolved : resolveNode infos name node = .ok target) :
    target.hasPrefix (nodePrefix name) := by
  unfold resolveNode at resolved
  simp only at resolved
  split at resolved
  · rename_i starts
    split at resolved
    · rw [← Except.ok.inj resolved]
      exact starts
    · simp at resolved
  · split at resolved
    · rw [← Except.ok.inj resolved]
      exact Str.hasPrefix_append _ _
    · simp at resolved

def NodeGroups.All (holds : Str → Prop) (groups : NodeGroups) : Prop :=
  ∀ entry ∈ groups.regular ++ groups.gpu, holds entry.2

/-- A name that starts as the names of the cluster do, and is not that of its control plane. -/
def IsWorker (name node : Str) : Prop :=
  node.hasPrefix (nodePrefix name) = true ∧ node ≠ controlPlane name

theorem addIndexed_isWorker {marker role : Str} {info : Info}
    {entries added : List (ℤ × Str)} (other : info.name ≠ controlPlane name)
    (result : addIndexed name marker role info entries = some (.ok added))
    (all : ∀ entry ∈ entries, IsWorker name entry.2) :
    ∀ entry ∈ added, IsWorker name entry.2 := by
  unfold addIndexed at result
  simp only at result
  split at result
  · simp at result
  · rename_i trimmed
    split at result
    · simp at result
    · split at result
      · simp at result
      · simp only [Option.some.injEq, Except.ok.injEq] at result
        subst result
        intro entry mem
        rcases List.mem_append.mp mem with old | new
        · exact all entry old
        · rw [List.mem_singleton.mp new]
          refine ⟨?_, other⟩
          have whole := Str.eq_append_of_trimPrefix_ne trimmed
          rw [whole, List.append_assoc]
          exact Str.hasPrefix_append _ _

theorem orderNode_isWorker {groups next : NodeGroups} {info : Info}
    (all : groups.All (IsWorker name)) (ordered : orderNode name groups info = .ok next) :
    next.All (IsWorker name) := by
  have regularWorkers : ∀ entry ∈ groups.regular, IsWorker name entry.2 :=
    fun entry mem => all entry (List.mem_append_left _ mem)
  have gpuWorkers : ∀ entry ∈ groups.gpu, IsWorker name entry.2 :=
    fun entry mem => all entry (List.mem_append_right _ mem)
  unfold orderNode at ordered
  split at ordered
  · split at ordered
    · simp at ordered
    · rw [← Except.ok.inj ordered]
      exact all
  · rename_i other
    split at ordered
    · rename_i added result
      cases added with
      | error err => simp [Except.map] at ordered
      | ok regular =>
        rw [← Except.ok.inj ordered]
        intro entry mem
        rcases List.mem_append.mp mem with old | new
        · exact addIndexed_isWorker other result regularWorkers entry old
        · exact gpuWorkers entry new
    · split at ordered
      · rename_i added result
        cases added with
        | error err => simp [Except.map] at ordered
        | ok gpu =>
          rw [← Except.ok.inj ordered]
          intro entry mem
          rcases List.mem_append.mp mem with old | new
          · exact regularWorkers entry old
          · exact addIndexed_isWorker other result gpuWorkers entry new
      · simp at ordered

theorem foldlM_orderNode_isWorker {groups last : NodeGroups} (all : groups.All (IsWorker name))
    (ordered : infos.foldlM (orderNode name) groups = .ok last) : last.All (IsWorker name) := by
  induction infos generalizing groups with
  | nil =>
    rw [← Except.ok.inj ordered]
    exact all
  | cons info infos ih =>
    rw [List.foldlM_cons] at ordered
    cases first : orderNode name groups info with
    | error err =>
      rw [first] at ordered
      exact absurd ordered (by simp [bind, Except.bind])
    | ok next =>
      rw [first] at ordered
      exact ih (orderNode_isWorker all first) ordered

theorem orderNodeGroups_isWorker {gpuWorkers : List Str}
    (ordered : orderNodeGroups name infos = .ok (cp, workers, gpuWorkers)) :
    cp = controlPlane name ∧ ∀ node ∈ workers ++ gpuWorkers, IsWorker name node := by
  unfold orderNodeGroups at ordered
  cases fold : infos.foldlM (orderNode name) ⟨false, [], []⟩ with
  | error err =>
    rw [fold] at ordered
    exact absurd ordered (by simp [bind, Except.bind])
  | ok groups =>
    rw [fold] at ordered
    have all := foldlM_orderNode_isWorker (by simp [NodeGroups.All]) fold
    simp only [bind, Except.bind] at ordered
    split at ordered
    · simp at ordered
    · simp only [Except.ok.injEq, Prod.mk.injEq] at ordered
      rcases ordered with ⟨rfl, rfl, rfl⟩
      refine ⟨rfl, ?_⟩
      intro node mem
      simp only [List.mem_append, toNames, List.mem_map, List.mem_insertionSort] at mem
      rcases mem with ⟨entry, inRegular, rfl⟩ | ⟨entry, inGPU, rfl⟩
      · exact all entry (List.mem_append_left _ inRegular)
      · exact all entry (List.mem_append_right _ inGPU)

theorem orderNodes_isWorker (ordered : orderNodes name infos = .ok (cp, workers)) :
    cp = controlPlane name ∧ ∀ node ∈ workers, IsWorker name node := by
  unfold orderNodes at ordered
  cases groups : orderNodeGroups name infos with
  | error err =>
    rw [groups] at ordered
    exact absurd ordered (by simp [bind, Except.bind])
  | ok result =>
    rcases result with ⟨first, regular, gpu⟩
    rw [groups] at ordered
    rcases ordered with ⟨rfl, rfl⟩
    exact orderNodeGroups_isWorker groups

theorem orderNodeGroups_hasPrefix {gpuWorkers : List Str}
    (ordered : orderNodeGroups name infos = .ok (cp, workers, gpuWorkers)) :
    ∀ node ∈ cp :: (workers ++ gpuWorkers), node.hasPrefix (nodePrefix name) := by
  rcases orderNodeGroups_isWorker ordered with ⟨rfl, workers⟩
  intro node mem
  rcases List.mem_cons.mp mem with rfl | isWorker
  · exact controlPlane_hasPrefix name
  · exact (workers node isWorker).1

theorem orderNodes_hasPrefix (ordered : orderNodes name infos = .ok (cp, workers)) :
    ∀ node ∈ cp :: workers, node.hasPrefix (nodePrefix name) := by
  rcases orderNodes_isWorker ordered with ⟨rfl, workers⟩
  intro node mem
  rcases List.mem_cons.mp mem with rfl | isWorker
  · exact controlPlane_hasPrefix name
  · exact (workers node isWorker).1

end Kiac.Cluster
