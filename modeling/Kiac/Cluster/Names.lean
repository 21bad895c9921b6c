import Kiac.Text.Decimal

/-!
# Cluster and node names

Lifecycle operations select the VMs of a cluster by the start `kiac-<name>-` of their names, while
the owner of a VM is read back from the end of its name. Dashes are legal in cluster names, so the
two do not agree: this file determines exactly when the start of one cluster is also the start of a
node name of another one.
-/

namespace Kiac.Cluster

def isNameByte (b : UInt8) : Bool :=
  b == byte '-' || (byte 'a' ≤ b && b ≤ byte 'z') || (byte '0' ≤ b && b ≤ byte '9')

/-- `ValidName`: a nonempty text of lowercase letters, digits and dashes. -/
def validName (name : Str) : Bool := name.all isNameByte && !name.isEmpty

/-- `maxNodeNameLen`, the Linux limit on host names. -/
def maxNodeNameLen : ℕ := 63

/-- The source's `prefix`: what the names of all node VMs of a cluster start with. -/
def nodePrefix (name : Str) : Str := str "kiac-" ++ name ++ str "-"

def controlPlane (name : Str) : Str := nodePrefix name ++ str "control-plane"

def worker (name : Str) (i : ℤ) : Str := nodePrefix name ++ str "worker-" ++ Str.itoa i

def gpuWorker (name : Str) (i : ℤ) : Str := nodePrefix name ++ str "gpu-" ++ Str.itoa i

/-- The decimal form of a positive `int`, without sign or leading zeros. -/
def canonicalPositiveIndex (value : Str) : Bool :=
  match Str.atoi value with
  | some index => 0 < index && Str.itoa index == value
  | none => false

def nameBeforeIndex (marker rest : Str) : Option Str :=
  match Str.lastIndex marker rest with
  | some idx =>
    if 0 < idx && canonicalPositiveIndex (rest.drop (idx + marker.length)) then
      some (rest.take idx)
    else none
  | none => none

/-- The text before a final `-control-plane`. -/
def nameBeforeControlPlane (rest : Str) : Option Str :=
  match Str.lastIndex (str "-control-plane") rest with
  | some idx =>
    if 0 < idx && idx + (str "-control-plane").length == rest.length then
      some (rest.take idx)
    else none
  | none => none

def clusterNameFromNode (node : Str) : Option Str :=
  let rest := node.trimPrefix (str "kiac-")
  if rest = node then none
  else
    match nameBeforeControlPlane rest with
    | some name => some name
    | none => [str "-worker-", str "-gpu-"].findSome? fun marker => nameBeforeIndex marker rest

inductive IsNodeOf (name : Str) : Str → Prop where
  | controlPlane : IsNodeOf name (controlPlane name)
  | worker (i : ℕ) (positive : 0 < i) (fits : i ≤ Str.maxInt) : IsNodeOf name (worker name i)
  | gpuWorker (i : ℕ) (positive : 0 < i) (fits : i ≤ Str.maxInt) :
      IsNodeOf name (gpuWorker name i)

theorem canonicalPositiveIndex_iff {value : Str} :
    canonicalPositiveIndex value ↔
      ∃ i : ℕ, 0 < i ∧ i ≤ Str.maxInt ∧ value = Str.itoa i := by
  constructor
  · intro canonical
    unfold canonicalPositiveIndex at canonical
    split at canonical
    · rename_i index read
      simp only [Bool.and_eq_true, decide_eq_true_eq, beq_iff_eq] at canonical
      rcases canonical with ⟨positive, printed⟩
      have fits := Str.atoi_le_maxInt read
      obtain ⟨i, rfl⟩ := Int.eq_ofNat_of_zero_le (le_of_lt positive)
      exact ⟨i, by omega, by omega, printed.symm⟩
    · simp at canonical
  · rintro ⟨i, positive, fits, rfl⟩
    have read := Str.atoi_itoa_ofNat fits
    simp [canonicalPositiveIndex, read, positive]

theorem dash_not_mem_itoa (i : ℕ) : byte '-' ∉ Str.itoa i := by
  intro mem
  exact absurd (Str.isDigit_of_mem_formatNat mem) (by decide)

theorem itoa_ne_nil (i : ℕ) : Str.itoa i ≠ [] := Str.formatNat_ne_nil i

theorem nameBeforeIndex_some {marker rest name : Str}
    (found : nameBeforeIndex marker rest = some name) :
    ∃ i : ℕ, 0 < i ∧ i ≤ Str.maxInt ∧ rest = name ++ marker ++ Str.itoa i := by
  unfold nameBeforeIndex at found
  split at found
  · rename_i idx located
    split at found
    · rename_i accepted
      simp only [Bool.and_eq_true, decide_eq_true_eq] at accepted
      simp only [Option.some.injEq] at found
      rcases canonicalPositiveIndex_iff.mp accepted.2 with ⟨i, positive, fits, index⟩
      refine ⟨i, positive, fits, ?_⟩
      rw [← found, ← index]
      exact Str.eq_of_lastIndex located
    · simp at found
  · simp at found

theorem nameBeforeControlPlane_some {rest name : Str}
    (found : nameBeforeControlPlane rest = some name) : rest = name ++ str "-control-plane" := by
  unfold nameBeforeControlPlane at found
  split at found
  · rename_i idx located
    split at found
    · rename_i accepted
      simp only [Bool.and_eq_true, decide_eq_true_eq, beq_iff_eq] at accepted
      simp only [Option.some.injEq] at found
      rw [← found]
      exact Str.take_append_of_lastIndex located accepted.2
    · simp at found
  · simp at found

theorem controlPlane_eq (name : Str) :
    controlPlane name = str "kiac-" ++ (name ++ str "-control-plane") := by
  have joined : str "-" ++ str "control-plane" = str "-control-plane" := by decide
  simp [controlPlane, nodePrefix, joined]

theorem worker_eq (name : Str) (i : ℤ) :
    worker name i = str "kiac-" ++ (name ++ str "-worker-" ++ Str.itoa i) := by
  have joined : str "-" ++ (str "worker-" ++ Str.itoa i) = str "-worker-" ++ Str.itoa i := by
    rw [← List.append_assoc]
    rfl
  simp [worker, nodePrefix, joined]

theorem gpuWorker_eq (name : Str) (i : ℤ) :
    gpuWorker name i = str "kiac-" ++ (name ++ str "-gpu-" ++ Str.itoa i) := by
  have joined : str "-" ++ (str "gpu-" ++ Str.itoa i) = str "-gpu-" ++ Str.itoa i := by
    rw [← List.append_assoc]
    rfl
  simp [gpuWorker, nodePrefix, joined]

theorem isNodeOf_of_clusterNameFromNode {node name : Str}
    (owner : clusterNameFromNode node = some name) : IsNodeOf name node := by
  unfold clusterNameFromNode at owner
  simp only at owner
  split at owner
  · simp at owner
  · rename_i trimmed
    have whole := Str.eq_append_of_trimPrefix_ne trimmed
    split at owner
    · rename_i found
      simp only [Option.some.injEq] at owner
      subst owner
      rw [whole, nameBeforeControlPlane_some found, ← controlPlane_eq]
      exact IsNodeOf.controlPlane
    · simp only [List.findSome?_cons, List.findSome?_nil] at owner
      split at owner
      · rename_i found
        simp only [Option.some.injEq] at owner
        subst owner
        rcases nameBeforeIndex_some found with ⟨i, positive, fits, rest⟩
        rw [whole, rest, ← worker_eq]
        exact IsNodeOf.worker i positive fits
      · split at owner
        · rename_i found
          simp only [Option.some.injEq] at owner
          subst owner
          rcases nameBeforeIndex_some found with ⟨i, positive, fits, rest⟩
          rw [whole, rest, ← gpuWorker_eq]
          exact IsNodeOf.gpuWorker i positive fits
        · simp at owner

theorem lastIndex_marker {head body tail : Str} (inBody : byte '-' ∉ body)
    (inTail : byte '-' ∉ tail) :
    Str.lastIndex (byte '-' :: body ++ [byte '-']) (head ++ (byte '-' :: body ++ [byte '-'] ++ tail)) =
      some head.length := by
  apply Str.lastIndex_append
  intro k positive occurs
  -- A later occurrence would need two dashes where only one is left.
  have two : List.count (byte '-') (byte '-' :: body ++ [byte '-']) = 2 := by
    simp [List.count_eq_zero.mpr inBody]
  have one : List.count (byte '-') ((byte '-' :: body ++ [byte '-'] ++ tail).drop k) ≤ 1 := by
    obtain ⟨j, rfl⟩ : ∃ j, k = j + 1 := ⟨k - 1, by omega⟩
    simp only [List.cons_append, List.drop_succ_cons]
    apply le_trans (List.Sublist.count_le _ (List.drop_sublist j _))
    simp [List.count_eq_zero.mpr inBody, List.count_eq_zero.mpr inTail]
  have le := List.Sublist.count_le (byte '-') occurs.sublist
  omega

theorem nameBeforeControlPlane_append {name : Str} (nonempty : name ≠ []) :
    nameBeforeControlPlane (name ++ str "-control-plane") = some name := by
  have located : Str.lastIndex (str "-control-plane") (name ++ str "-control-plane") =
      some name.length := by
    rw [← List.append_nil (str "-control-plane")]
    apply Str.lastIndex_append
    intro k positive occurs
    have le := occurs.length_le
    simp only [List.append_nil, List.length_drop] at le
    have length : (str "-control-plane").length = 14 := by decide
    omega
  have positive := List.length_pos_iff.mpr nonempty
  simp [nameBeforeControlPlane, located, positive]

theorem nameBeforeControlPlane_itoa (head : Str) (i : ℕ) :
    nameBeforeControlPlane (head ++ Str.itoa i) = none := by
  cases found : nameBeforeControlPlane (head ++ Str.itoa i) with
  | none => rfl
  | some name =>
    exfalso
    have ends := congrArg List.getLast? (nameBeforeControlPlane_some found)
    rw [List.getLast?_append_of_ne_nil _ (itoa_ne_nil i),
      List.getLast?_append_of_ne_nil _ (by decide)] at ends
    have digit := Str.isDigit_of_mem_formatNat (List.mem_of_getLast? ends)
    exact absurd digit (by decide)

theorem nameBeforeIndex_append {name body : Str} {i : ℕ} (nonempty : name ≠ [])
    (inBody : byte '-' ∉ body) (positive : 0 < i) (fits : i ≤ Str.maxInt) :
    nameBeforeIndex (byte '-' :: body ++ [byte '-'])
      (name ++ (byte '-' :: body ++ [byte '-']) ++ Str.itoa i) = some name := by
  have located := @lastIndex_marker name body _ inBody (dash_not_mem_itoa i)
  have canonical := canonicalPositiveIndex_iff.mpr ⟨i, positive, fits, rfl⟩
  have after : (name ++ (byte '-' :: body ++ [byte '-'] ++ Str.itoa i)).drop
      (name.length + (byte '-' :: body ++ [byte '-']).length) = Str.itoa i := by
    rw [← List.append_assoc, ← List.length_append, List.drop_left]
  rw [List.append_assoc]
  simp only [nameBeforeIndex, located, after, canonical, List.length_pos_iff.mpr nonempty,
    decide_true, Bool.and_self, if_true, List.take_left]

theorem nameBeforeIndex_worker_gpu (name : Str) (i : ℕ) :
    nameBeforeIndex (str "-worker-") (name ++ str "-gpu-" ++ Str.itoa i) = none := by
  cases found : nameBeforeIndex (str "-worker-") (name ++ str "-gpu-" ++ Str.itoa i) with
  | none => rfl
  | some other =>
    exfalso
    rcases nameBeforeIndex_some found with ⟨j, _, _, eq⟩
    have workerMarker : str "-worker-" = str "-worker" ++ [byte '-'] := by decide
    have gpuMarker : str "-gpu-" = str "-gpu" ++ [byte '-'] := by decide
    rw [workerMarker, gpuMarker] at eq
    simp only [← List.append_assoc] at eq
    rw [List.append_assoc, List.append_assoc _ [byte '-'] (Str.itoa j)] at eq
    have names := (Str.append_separator_inj eq (dash_not_mem_itoa i) (dash_not_mem_itoa j)).1
    -- The two texts end in `u` and in `r`.
    have ends := congrArg List.getLast? names
    rw [List.getLast?_append_of_ne_nil _ (by decide),
      List.getLast?_append_of_ne_nil _ (by decide)] at ends
    exact absurd ends (by decide)

theorem clusterNameFromNode_of_isNodeOf {node name : Str} (nonempty : name ≠ [])
    (isNode : IsNodeOf name node) : clusterNameFromNode node = some name := by
  have moved : ∀ rest : Str, rest ≠ str "kiac-" ++ rest := by
    intro rest eq
    have lengths := congrArg List.length eq
    have length : (str "kiac-").length = 5 := by decide
    rw [List.length_append] at lengths
    omega
  cases isNode with
  | controlPlane =>
    rw [controlPlane_eq]
    simp [clusterNameFromNode, moved, nameBeforeControlPlane_append nonempty]
  | worker i positive fits =>
    have found : nameBeforeIndex (str "-worker-") (name ++ str "-worker-" ++ Str.itoa i) =
        some name :=
      @nameBeforeIndex_append _ (str "worker") _ nonempty (by decide) positive fits
    rw [worker_eq]
    simp only [clusterNameFromNode, Str.trimPrefix_append, moved, if_false,
      nameBeforeControlPlane_itoa, List.findSome?_cons, found]
  | gpuWorker i positive fits =>
    have found : nameBeforeIndex (str "-gpu-") (name ++ str "-gpu-" ++ Str.itoa i) = some name :=
      @nameBeforeIndex_append _ (str "gpu") _ nonempty (by decide) positive fits
    rw [gpuWorker_eq]
    simp only [clusterNameFromNode, Str.trimPrefix_append, moved, if_false,
      nameBeforeControlPlane_itoa, List.findSome?_cons, nameBeforeIndex_worker_gpu, found]

/--
The start of one cluster's node names is a start of another cluster's node name in
two cases: the other name continues the first one after a dash, or the first name
is the other one followed by the first word of the role.
-/
theorem hasPrefix_role_iff {a b word rest : Str} (distinct : a ≠ b)
    (inWord : byte '-' ∉ word) (inRest : byte '-' ∉ rest) :
    Str.hasPrefix (nodePrefix b ++ (word ++ byte '-' :: rest)) (nodePrefix a) ↔
      a ++ str "-" <+: b ∨ a = b ++ byte '-' :: word := by
  have dash : str "-" = [byte '-'] := by decide
  rw [Str.hasPrefix_iff]
  simp only [nodePrefix, dash, List.append_assoc, List.prefix_append_right_inj,
    List.singleton_append]
  constructor
  · rintro ⟨tail, eq⟩
    rw [List.append_assoc, List.singleton_append] at eq
    rcases List.append_eq_append_iff.mp eq with ⟨gap, rfl, tails⟩ | ⟨gap, rfl, tails⟩
    · cases gap with
      | nil => simp at distinct
      | cons c gap =>
        simp only [List.cons_append, List.cons.injEq] at tails
        left
        exact ⟨gap, by simp [← tails.1]⟩
    · cases gap with
      | nil => simp at distinct
      | cons c gap =>
        simp only [List.cons_append, List.cons.injEq] at tails
        right
        have starts : gap ++ [byte '-'] <+: word ++ byte '-' :: rest :=
          ⟨tail, by simp [tails.2]⟩
        rw [(Str.separator_prefix_iff inWord inRest).mp starts, tails.1]
  · rintro (⟨tail, rfl⟩ | rfl)
    · exact ⟨tail ++ byte '-' :: (word ++ byte '-' :: rest), by simp⟩
    · exact ⟨rest, by simp⟩

theorem hasPrefix_controlPlane_iff {a b : Str} (distinct : a ≠ b) :
    (controlPlane b).hasPrefix (nodePrefix a) ↔
      a ++ str "-" <+: b ∨ a = b ++ str "-control" :=
  @hasPrefix_role_iff _ _ (str "control") (str "plane") distinct (by decide) (by decide)

theorem hasPrefix_worker_iff {a b : Str} (distinct : a ≠ b) (i : ℕ) :
    (worker b i).hasPrefix (nodePrefix a) ↔
      a ++ str "-" <+: b ∨ a = b ++ str "-worker" := by
  have role : worker b i = nodePrefix b ++ (str "worker" ++ byte '-' :: Str.itoa i) := by
    rw [worker, List.append_assoc]
    rfl
  rw [role]
  exact hasPrefix_role_iff distinct (by decide) (dash_not_mem_itoa i)

theorem hasPrefix_gpuWorker_iff {a b : Str} (distinct : a ≠ b) (i : ℕ) :
    (gpuWorker b i).hasPrefix (nodePrefix a) ↔
      a ++ str "-" <+: b ∨ a = b ++ str "-gpu" := by
  have role : gpuWorker b i = nodePrefix b ++ (str "gpu" ++ byte '-' :: Str.itoa i) := by
    rw [gpuWorker, List.append_assoc]
    rfl
  rw [role]
  exact hasPrefix_role_iff distinct (by decide) (dash_not_mem_itoa i)

/--
The start of the names of cluster `a` selects one of the given VMs of cluster `b`:
`b` continues `a` after a dash and has a VM at all, or `a` is `b` followed by the
first word of the role of one of its VMs.
-/
def Collides (a b : Str) (vms : List Str) : Prop :=
  (a ++ str "-" <+: b ∧ ∃ vm ∈ vms, IsNodeOf b vm) ∨
    (a = b ++ str "-control" ∧ controlPlane b ∈ vms) ∨
    (a = b ++ str "-worker" ∧ ∃ i : ℕ, 0 < i ∧ i ≤ Str.maxInt ∧ worker b i ∈ vms) ∨
    (a = b ++ str "-gpu" ∧ ∃ i : ℕ, 0 < i ∧ i ≤ Str.maxInt ∧ gpuWorker b i ∈ vms)

theorem collides_iff {a b : Str} {vms : List Str} (distinct : a ≠ b) :
    Collides a b vms ↔ ∃ vm ∈ vms, IsNodeOf b vm ∧ vm.hasPrefix (nodePrefix a) := by
  constructor
  · rintro (⟨starts, vm, mem, isNode⟩ | ⟨eq, mem⟩ | ⟨eq, i, positive, fits, mem⟩ |
      ⟨eq, i, positive, fits, mem⟩)
    · refine ⟨vm, mem, isNode, ?_⟩
      cases isNode with
      | controlPlane => exact (hasPrefix_controlPlane_iff distinct).mpr (Or.inl starts)
      | worker i _ _ => exact (hasPrefix_worker_iff distinct i).mpr (Or.inl starts)
      | gpuWorker i _ _ => exact (hasPrefix_gpuWorker_iff distinct i).mpr (Or.inl starts)
    · exact ⟨_, mem, IsNodeOf.controlPlane, (hasPrefix_controlPlane_iff distinct).mpr (Or.inr eq)⟩
    · exact ⟨_, mem, IsNodeOf.worker i positive fits,
        (hasPrefix_worker_iff distinct i).mpr (Or.inr eq)⟩
    · exact ⟨_, mem, IsNodeOf.gpuWorker i positive fits,
        (hasPrefix_gpuWorker_iff distinct i).mpr (Or.inr eq)⟩
  · rintro ⟨vm, mem, isNode, starts⟩
    cases isNode with
    | controlPlane =>
      rcases (hasPrefix_controlPlane_iff distinct).mp starts with continues | eq
      · exact Or.inl ⟨continues, _, mem, IsNodeOf.controlPlane⟩
      · exact Or.inr (Or.inl ⟨eq, mem⟩)
    | worker i positive fits =>
      rcases (hasPrefix_worker_iff distinct i).mp starts with continues | eq
      · exact Or.inl ⟨continues, _, mem, IsNodeOf.worker i positive fits⟩
      · exact Or.inr (Or.inr (Or.inl ⟨eq, i, positive, fits, mem⟩))
    | gpuWorker i positive fits =>
      rcases (hasPrefix_gpuWorker_iff distinct i).mp starts with continues | eq
      · exact Or.inl ⟨continues, _, mem, IsNodeOf.gpuWorker i positive fits⟩
      · exact Or.inr (Or.inr (Or.inr ⟨eq, i, positive, fits, mem⟩))

end Kiac.Cluster
