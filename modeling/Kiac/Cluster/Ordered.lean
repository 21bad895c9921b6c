import Kiac.Cluster.Topology

/-!
# The order of the nodes

`orderNodeGroups` accepts exactly the lists of rows that name the control plane of the cluster and
any workers of it, each once. It returns the names of each class of workers in the order of their
indices, wherever they stand in the list.
-/

namespace Kiac.Cluster

open Kiac.Runtime

inductive WorkerClass where
  | regular
  | gpu

namespace WorkerClass

def marker : WorkerClass → Str
  | regular => str "worker-"
  | gpu => str "gpu-"

def node (name : Str) : WorkerClass → ℕ → Str
  | regular, i => worker name i
  | gpu, i => gpuWorker name i

theorem node_eq (name : Str) (cls : WorkerClass) (i : ℕ) :
    cls.node name i = nodePrefix name ++ (cls.marker ++ Str.itoa i) := by
  cases cls <;> exact List.append_assoc _ _ _

theorem node_inj {name : Str} {cls cls' : WorkerClass} {i j : ℕ}
    (same : cls.node name i = cls'.node name j) : cls = cls' ∧ i = j := by
  rw [node_eq, node_eq] at same
  have rest := List.append_cancel_left same
  cases cls <;> cases cls' <;> first
    | exact ⟨rfl, Int.ofNat.inj (Str.itoa_injective (List.append_cancel_left rest))⟩
    | exact absurd (List.cons.inj rest).1 (by decide)

theorem node_ne_controlPlane {name : Str} {cls : WorkerClass} {i : ℕ} :
    cls.node name i ≠ controlPlane name := by
  intro same
  rw [node_eq] at same
  have rest := List.append_cancel_left same
  cases cls <;> exact absurd (List.cons.inj rest).1 (by decide)

end WorkerClass

namespace NodeGroups

def entries (groups : NodeGroups) : WorkerClass → List (ℤ × Str)
  | .regular => groups.regular
  | .gpu => groups.gpu

def add (groups : NodeGroups) (entry : ℤ × Str) : WorkerClass → NodeGroups
  | .regular => { groups with regular := groups.regular ++ [entry] }
  | .gpu => { groups with gpu := groups.gpu ++ [entry] }

theorem mem_entries_add {groups : NodeGroups} {entry added : ℤ × Str} {cls cls' : WorkerClass} :
    entry ∈ (groups.add added cls).entries cls' ↔
      entry ∈ groups.entries cls' ∨ (cls' = cls ∧ entry = added) := by
  cases cls <;> cases cls' <;> simp [add, entries]

def names (name : Str) (groups : NodeGroups) : List Str :=
  (if groups.found then [controlPlane name] else []) ++
    (groups.regular.map Prod.snd ++ groups.gpu.map Prod.snd)

theorem names_add (name : Str) (groups : NodeGroups) (added : ℤ × Str) (cls : WorkerClass) :
    ((groups.add added cls).names name).Perm (added.2 :: groups.names name) := by
  cases cls with
  | regular =>
    simp only [names, add, List.map_append, List.map_cons, List.map_nil, List.append_assoc,
      List.singleton_append]
    rw [← List.append_assoc, ← List.append_assoc]
    exact List.perm_middle
  | gpu =>
    simp only [names, add, List.map_append, List.map_cons, List.map_nil, ← List.append_assoc]
    exact List.perm_append_singleton _ _

end NodeGroups

theorem isNodeOf_iff {name node : Str} : IsNodeOf name node ↔
    node = controlPlane name ∨ ∃ (cls : WorkerClass) (i : ℕ), 0 < i ∧ i ≤ Str.maxInt ∧
      node = cls.node name i := by
  constructor
  · intro isNode
    cases isNode with
    | controlPlane => exact .inl rfl
    | worker i positive fits => exact .inr ⟨.regular, i, positive, fits, rfl⟩
    | gpuWorker i positive fits => exact .inr ⟨.gpu, i, positive, fits, rfl⟩
  · rintro (rfl | ⟨cls, i, positive, fits, rfl⟩)
    · exact .controlPlane
    · cases cls with
      | regular => exact .worker i positive fits
      | gpu => exact .gpuWorker i positive fits

section Rows

variable {name marker role : Str} {info : Info} {entries added : List (ℤ × Str)}

theorem addIndexed_eq_none (other : ¬ nodePrefix name ++ marker <+: info.name) :
    addIndexed name marker role info entries = none := by
  have untouched : info.name.trimPrefix (nodePrefix name ++ marker) = info.name :=
    if_neg fun starts => other (Str.hasPrefix_iff.mp starts)
  exact if_pos untouched

theorem addIndexed_append {rest : Str} (starts : info.name = nodePrefix name ++ marker ++ rest) :
    addIndexed name marker role info entries = some
      (if !canonicalPositiveIndex rest then .error (.invalidNode name info.name marker)
      else if entries.any fun entry => entry.1 == (Str.atoi rest).getD 0 then
        .error (.duplicateIndex name role ((Str.atoi rest).getD 0))
      else .ok (entries ++ [((Str.atoi rest).getD 0, info.name)])) := by
  have trimmed : info.name.trimPrefix (nodePrefix name ++ marker) = rest := by
    rw [starts, Str.trimPrefix_append]
  have shorter : rest ≠ info.name := by
    intro same
    have lengths := congrArg List.length (same.trans starts)
    simp only [nodePrefix, List.length_append] at lengths
    have dash : (str "-").length = 1 := by decide
    omega
  simp only [addIndexed, trimmed, shorter, if_false]
  split_ifs <;> rfl

theorem addIndexed_eq_ok_iff : addIndexed name marker role info entries = some (.ok added) ↔
    ∃ i : ℕ, 0 < i ∧ i ≤ Str.maxInt ∧ info.name = nodePrefix name ++ marker ++ Str.itoa i ∧
      (∀ entry ∈ entries, entry.1 ≠ i) ∧ added = entries ++ [((i : ℤ), info.name)] := by
  by_cases starts : nodePrefix name ++ marker <+: info.name
  · rcases starts with ⟨rest, whole⟩
    rw [addIndexed_append whole.symm]
    constructor
    · intro result
      split at result
      · cases result
      · rename_i canonical
        rw [Bool.not_eq_true', Bool.not_eq_false] at canonical
        rcases canonicalPositiveIndex_iff.mp canonical with ⟨i, positive, fits, rfl⟩
        rw [Str.atoi_itoa_ofNat fits, Option.getD_some] at result
        split at result
        · cases result
        · rename_i unused
          cases result
          refine ⟨i, positive, fits, whole.symm, fun entry mem same => unused ?_, rfl⟩
          exact List.any_eq_true.mpr ⟨entry, mem, beq_iff_eq.mpr same⟩
    · rintro ⟨i, positive, fits, isNode, unused, rfl⟩
      obtain rfl : rest = Str.itoa i := List.append_cancel_left (whole.trans isNode)
      have canonical := canonicalPositiveIndex_iff.mpr ⟨i, positive, fits, rfl⟩
      have free : (entries.any fun entry => entry.1 == (i : ℤ)) = false := by
        rw [List.any_eq_false]
        exact fun entry mem same => unused entry mem (beq_iff_eq.mp same)
      rw [canonical, Str.atoi_itoa_ofNat fits, Option.getD_some, free]
      rfl
  · rw [addIndexed_eq_none starts]
    constructor
    · intro impossible
      cases impossible
    · rintro ⟨i, _, _, isNode, _⟩
      exact absurd ⟨_, isNode.symm⟩ starts

end Rows

theorem orderNode_eq_ok_iff {name : Str} {groups next : NodeGroups} {info : Info} :
    orderNode name groups info = .ok next ↔
      (info.name = controlPlane name ∧ groups.found = false ∧
        next = { groups with found := true }) ∨
      ∃ (cls : WorkerClass) (i : ℕ), 0 < i ∧ i ≤ Str.maxInt ∧ info.name = cls.node name i ∧
        (∀ entry ∈ groups.entries cls, entry.1 ≠ i) ∧
        next = groups.add ((i : ℤ), info.name) cls := by
  constructor
  · intro ordered
    unfold orderNode at ordered
    split at ordered
    · rename_i isControlPlane
      split at ordered
      · cases ordered
      · rename_i notFound
        cases ordered
        exact .inl ⟨isControlPlane, Bool.not_eq_true _ ▸ notFound, rfl⟩
    · right
      cases regular : addIndexed name (str "worker-") (str "worker") info groups.regular with
      | some result =>
        rw [regular] at ordered
        cases result with
        | error err => cases ordered
        | ok added =>
          cases ordered
          rcases addIndexed_eq_ok_iff.mp regular with ⟨i, positive, fits, isNode, unused, rfl⟩
          exact ⟨.regular, i, positive, fits, isNode, unused, rfl⟩
      | none =>
        rw [regular] at ordered
        cases gpu : addIndexed name (str "gpu-") (str "gpu") info groups.gpu with
        | none =>
          rw [gpu] at ordered
          cases ordered
        | some result =>
          rw [gpu] at ordered
          cases result with
          | error err => cases ordered
          | ok added =>
            cases ordered
            rcases addIndexed_eq_ok_iff.mp gpu with ⟨i, positive, fits, isNode, unused, rfl⟩
            exact ⟨.gpu, i, positive, fits, isNode, unused, rfl⟩
  · rintro (⟨isControlPlane, notFound, rfl⟩ | ⟨cls, i, positive, fits, isNode, unused, rfl⟩)
    · simp [orderNode, isControlPlane, notFound]
    · have other := isNode ▸ WorkerClass.node_ne_controlPlane
      rw [orderNode, if_neg other]
      cases cls with
      | regular =>
        have added : addIndexed name (str "worker-") (str "worker") info groups.regular =
            some (.ok _) := addIndexed_eq_ok_iff.mpr ⟨i, positive, fits, isNode, unused, rfl⟩
        rw [added]
        rfl
      | gpu =>
        have notRegular : ¬ nodePrefix name ++ str "worker-" <+: info.name := by
          intro starts
          rw [isNode, WorkerClass.node_eq, List.prefix_append_right_inj] at starts
          exact absurd (List.cons_prefix_cons.mp starts).1 (by decide)
        have added : addIndexed name (str "gpu-") (str "gpu") info groups.gpu = some (.ok _) :=
          addIndexed_eq_ok_iff.mpr ⟨i, positive, fits, isNode, unused, rfl⟩
        rw [addIndexed_eq_none notRegular, added]
        rfl

structure NodeGroups.Holds (name : Str) (seen : List Str) (groups : NodeGroups) : Prop where
  indexed : ∀ cls, ∀ entry ∈ groups.entries cls, ∃ i : ℕ, 0 < i ∧ i ≤ Str.maxInt ∧
    entry = ((i : ℤ), cls.node name i)
  distinct : seen.Nodup
  perm : seen.Perm (groups.names name)

namespace NodeGroups.Holds

variable {name : Str} {seen : List Str} {groups next : NodeGroups} {info : Info}

theorem mem_iff (holds : groups.Holds name seen) {node : Str} : node ∈ seen ↔
    (groups.found ∧ node = controlPlane name) ∨
      ∃ cls, ∃ entry ∈ groups.entries cls, entry.2 = node := by
  rw [holds.perm.mem_iff, names, List.mem_append, List.mem_append, List.mem_map, List.mem_map]
  constructor
  · rintro (found | ⟨entry, mem, rfl⟩ | ⟨entry, mem, rfl⟩)
    · split at found
      · rename_i isFound
        exact .inl ⟨isFound, List.mem_singleton.mp found⟩
      · cases found
    · exact .inr ⟨.regular, entry, mem, rfl⟩
    · exact .inr ⟨.gpu, entry, mem, rfl⟩
  · rintro (⟨isFound, rfl⟩ | ⟨cls, entry, mem, rfl⟩)
    · rw [if_pos isFound]
      exact .inl List.mem_cons_self
    · cases cls with
      | regular => exact .inr (.inl ⟨entry, mem, rfl⟩)
      | gpu => exact .inr (.inr ⟨entry, mem, rfl⟩)

theorem node_mem_iff (holds : groups.Holds name seen) {cls : WorkerClass} {i : ℕ} :
    cls.node name i ∈ seen ↔ ∃ entry ∈ groups.entries cls, entry.1 = i := by
  rw [holds.mem_iff]
  constructor
  · rintro (⟨_, same⟩ | ⟨cls', entry, mem, same⟩)
    · exact absurd same WorkerClass.node_ne_controlPlane
    · rcases holds.indexed cls' entry mem with ⟨j, _, _, rfl⟩
      rcases WorkerClass.node_inj same with ⟨rfl, rfl⟩
      exact ⟨_, mem, rfl⟩
  · rintro ⟨entry, mem, same⟩
    refine .inr ⟨cls, entry, mem, ?_⟩
    rcases holds.indexed cls entry mem with ⟨j, _, _, rfl⟩
    rw [Int.ofNat.inj same]

theorem controlPlane_mem_iff (holds : groups.Holds name seen) :
    controlPlane name ∈ seen ↔ groups.found := by
  rw [holds.mem_iff]
  constructor
  · rintro (⟨found, _⟩ | ⟨cls, entry, mem, same⟩)
    · exact found
    · rcases holds.indexed cls entry mem with ⟨j, _, _, rfl⟩
      exact absurd same WorkerClass.node_ne_controlPlane
  · exact fun found => .inl ⟨found, rfl⟩

theorem orderNode (holds : groups.Holds name seen)
    (ordered : orderNode name groups info = .ok next) :
    next.Holds name (info.name :: seen) ∧ IsNodeOf name info.name := by
  rcases orderNode_eq_ok_iff.mp ordered with
    ⟨isControlPlane, notFound, rfl⟩ | ⟨cls, i, positive, fits, isNode, unused, rfl⟩
  · refine ⟨⟨holds.indexed, List.nodup_cons.mpr ⟨?_, holds.distinct⟩, ?_⟩,
      isNodeOf_iff.mpr (.inl isControlPlane)⟩
    · rw [isControlPlane, holds.controlPlane_mem_iff, notFound]
      exact Bool.false_ne_true
    · have perm := holds.perm
      rw [names, notFound] at perm
      rw [isControlPlane]
      exact perm.cons _
  · refine ⟨⟨?_, List.nodup_cons.mpr ⟨?_, holds.distinct⟩, ?_⟩,
      isNodeOf_iff.mpr (.inr ⟨cls, i, positive, fits, isNode⟩)⟩
    · intro cls' entry mem
      rcases mem_entries_add.mp mem with old | ⟨rfl, rfl⟩
      · exact holds.indexed cls' entry old
      · exact ⟨i, positive, fits, by rw [isNode]⟩
    · rw [isNode, holds.node_mem_iff]
      rintro ⟨entry, mem, same⟩
      exact unused entry mem same
    · exact (holds.perm.cons _).trans (names_add name groups (_, info.name) cls).symm

theorem exists_orderNode (holds : groups.Holds name seen) (isNode : IsNodeOf name info.name)
    (new : info.name ∉ seen) : ∃ next, Cluster.orderNode name groups info = .ok next := by
  rcases isNodeOf_iff.mp isNode with isControlPlane | ⟨cls, i, positive, fits, isWorker⟩
  · refine ⟨_, orderNode_eq_ok_iff.mpr (.inl ⟨isControlPlane, ?_, rfl⟩)⟩
    rw [isControlPlane, holds.controlPlane_mem_iff] at new
    exact Bool.not_eq_true _ ▸ new
  · refine ⟨_, orderNode_eq_ok_iff.mpr (.inr ⟨cls, i, positive, fits, isWorker, ?_, rfl⟩)⟩
    rw [isWorker, holds.node_mem_iff] at new
    exact fun entry mem same => new ⟨entry, mem, same⟩

theorem foldlM {infos : List Info} {last : NodeGroups} (holds : groups.Holds name seen)
    (ordered : infos.foldlM (Cluster.orderNode name) groups = .ok last) :
    last.Holds name ((infos.map Info.name).reverse ++ seen) ∧
      ∀ info ∈ infos, IsNodeOf name info.name := by
  induction infos generalizing groups seen with
  | nil =>
    cases ordered
    exact ⟨holds, by simp⟩
  | cons info infos ih =>
    rw [List.foldlM_cons] at ordered
    cases first : Cluster.orderNode name groups info with
    | error err =>
      rw [first] at ordered
      cases ordered
    | ok next =>
      rw [first] at ordered
      rcases holds.orderNode first with ⟨holds', isNode⟩
      rcases ih holds' ordered with ⟨holdsLast, areNodes⟩
      refine ⟨by simpa using holdsLast, ?_⟩
      intro other mem
      rcases List.mem_cons.mp mem with rfl | later
      · exact isNode
      · exact areNodes other later

theorem exists_foldlM {infos : List Info} (holds : groups.Holds name seen)
    (areNodes : ∀ info ∈ infos, IsNodeOf name info.name)
    (distinct : ((infos.map Info.name) ++ seen).Nodup) :
    ∃ last, infos.foldlM (Cluster.orderNode name) groups = .ok last := by
  induction infos generalizing groups seen with
  | nil => exact ⟨groups, rfl⟩
  | cons info infos ih =>
    rw [List.map_cons, List.cons_append, List.nodup_cons] at distinct
    rcases holds.exists_orderNode (areNodes info List.mem_cons_self)
      (fun mem => distinct.1 (List.mem_append_right _ mem)) with ⟨next, first⟩
    rw [List.foldlM_cons, first]
    refine ih (holds.orderNode first).1 (fun other mem => areNodes other (.tail _ mem)) ?_
    exact (List.perm_middle.nodup_iff).mpr (List.nodup_cons.mpr distinct)

theorem nodup_entries (holds : groups.Holds name seen) (cls : WorkerClass) :
    ((groups.entries cls).map Prod.snd).Nodup := by
  have distinct := holds.perm.nodup_iff.mp holds.distinct
  cases cls with
  | regular => exact distinct.of_append_right.of_append_left
  | gpu => exact distinct.of_append_right.of_append_right

theorem toNames (holds : groups.Holds name seen) (cls : WorkerClass) :
    ∃ indices : List ℕ, Cluster.toNames (groups.entries cls) = indices.map (cls.node name) ∧
      indices.Pairwise (· < ·) ∧ ∀ i ∈ indices, 0 < i ∧ i ≤ Str.maxInt := by
  have perm := List.perm_insertionSort (fun a b : ℤ × Str => a.1 ≤ b.1) (groups.entries cls)
  have indexed : ∀ entry ∈ (groups.entries cls).insertionSort fun a b => a.1 ≤ b.1,
      ∃ i : ℕ, 0 < i ∧ i ≤ Str.maxInt ∧ entry = ((i : ℤ), cls.node name i) :=
    fun entry mem => holds.indexed cls entry (perm.mem_iff.mp mem)
  refine ⟨((groups.entries cls).insertionSort fun a b => a.1 ≤ b.1).map fun entry =>
    entry.1.toNat, ?_, ?_, ?_⟩
  · rw [Cluster.toNames, List.map_map]
    refine List.map_congr_left fun entry mem => ?_
    rcases indexed entry mem with ⟨i, _, _, rfl⟩
    rfl
  · have : IsTrans (ℤ × Str) fun a b => a.1 ≤ b.1 := ⟨fun _ _ _ => le_trans⟩
    have sorted := List.pairwise_insertionSort (fun a b : ℤ × Str => a.1 ≤ b.1) (groups.entries cls)
    have differ := List.pairwise_map.mp
      ((perm.map Prod.snd).nodup_iff.mpr (holds.nodup_entries cls))
    rw [List.pairwise_map]
    refine (sorted.and differ).imp_of_mem fun {a b} memA memB holds => ?_
    rcases indexed a memA with ⟨i, _, _, rfl⟩
    rcases indexed b memB with ⟨j, _, _, rfl⟩
    have apart : i ≠ j := fun same => holds.2 (by rw [same])
    omega
  · intro i mem
    rcases List.mem_map.mp mem with ⟨entry, inEntries, rfl⟩
    rcases indexed entry inEntries with ⟨j, positive, fits, rfl⟩
    exact ⟨positive, fits⟩

end NodeGroups.Holds

theorem NodeGroups.holds_nil (name : Str) : NodeGroups.Holds name [] ⟨false, [], []⟩ where
  indexed := by
    intro cls entry mem
    cases cls <;> cases mem
  distinct := List.nodup_nil
  perm := List.Perm.nil

theorem orderNodeGroups_eq_ok_iff {name : Str} {infos : List Info}
    {result : Str × List Str × List Str} : orderNodeGroups name infos = .ok result ↔
      ∃ groups, infos.foldlM (orderNode name) ⟨false, [], []⟩ = .ok groups ∧ groups.found ∧
        result = (controlPlane name, toNames groups.regular, toNames groups.gpu) := by
  unfold orderNodeGroups
  cases folded : infos.foldlM (orderNode name) ⟨false, [], []⟩ with
  | error err =>
    constructor
    · intro impossible
      cases impossible
    · rintro ⟨groups, impossible, -⟩
      cases impossible
  | ok groups =>
    change (if !groups.found then _ else _) = _ ↔ _
    constructor
    · intro ordered
      split at ordered
      · cases ordered
      · rename_i found
        cases ordered
        exact ⟨groups, rfl, by simpa using found, rfl⟩
    · rintro ⟨_, same, found, rfl⟩
      cases same
      rw [found]
      rfl

/--
The rows are ordered if and only if they name the control plane and other nodes of the cluster,
each once. Then the control plane and the two classes of workers are the named nodes, each class
in the order of its indices.
-/
theorem orderNodeGroups_exact (name : Str) (infos : List Info) :
    ((∃ result, orderNodeGroups name infos = .ok result) ↔
      (infos.map Info.name).Nodup ∧ controlPlane name ∈ infos.map Info.name ∧
        ∀ node ∈ infos.map Info.name, IsNodeOf name node) ∧
    ∀ cp workers gpuWorkers, orderNodeGroups name infos = .ok (cp, workers, gpuWorkers) →
      cp = controlPlane name ∧ (cp :: (workers ++ gpuWorkers)).Perm (infos.map Info.name) ∧
        (∃ indices : List ℕ, workers = indices.map (fun i : ℕ => worker name i) ∧
          indices.Pairwise (· < ·) ∧ ∀ i ∈ indices, 0 < i ∧ i ≤ Str.maxInt) ∧
        ∃ indices : List ℕ, gpuWorkers = indices.map (fun i : ℕ => gpuWorker name i) ∧
          indices.Pairwise (· < ·) ∧ ∀ i ∈ indices, 0 < i ∧ i ≤ Str.maxInt := by
  refine ⟨⟨?_, ?_⟩, ?_⟩
  · rintro ⟨result, ordered⟩
    rcases orderNodeGroups_eq_ok_iff.mp ordered with ⟨groups, folded, found, -⟩
    rcases (NodeGroups.holds_nil name).foldlM folded with ⟨holds, areNodes⟩
    rw [List.append_nil] at holds
    refine ⟨List.nodup_reverse.mp holds.distinct,
      List.mem_reverse.mp (holds.controlPlane_mem_iff.mpr found), ?_⟩
    intro node mem
    rcases List.mem_map.mp mem with ⟨info, inInfos, rfl⟩
    exact areNodes info inInfos
  · rintro ⟨distinct, hasControlPlane, areNodes⟩
    rcases (NodeGroups.holds_nil name).exists_foldlM
      (fun info mem => areNodes info.name (List.mem_map_of_mem mem))
      (by rwa [List.append_nil]) with ⟨groups, folded⟩
    have holds := ((NodeGroups.holds_nil name).foldlM folded).1
    rw [List.append_nil] at holds
    exact ⟨_, orderNodeGroups_eq_ok_iff.mpr ⟨groups, folded,
      holds.controlPlane_mem_iff.mp (List.mem_reverse.mpr hasControlPlane), rfl⟩⟩
  · intro cp workers gpuWorkers ordered
    rcases orderNodeGroups_eq_ok_iff.mp ordered with ⟨groups, folded, found, result⟩
    cases result
    have holds := ((NodeGroups.holds_nil name).foldlM folded).1
    rw [List.append_nil] at holds
    refine ⟨rfl, ?_, holds.toNames .regular, holds.toNames .gpu⟩
    have names : groups.names name = controlPlane name ::
        (groups.regular.map Prod.snd ++ groups.gpu.map Prod.snd) := by
      rw [NodeGroups.names, if_pos found]
      rfl
    have seen := (List.reverse_perm _).symm.trans (names ▸ holds.perm)
    refine List.Perm.trans (List.Perm.cons _ (List.Perm.append ?_ ?_)) seen.symm
    · exact (List.perm_insertionSort _ _).map Prod.snd
    · exact (List.perm_insertionSort _ _).map Prod.snd

end Kiac.Cluster
