import Kiac.Cluster.Names

/-!
# The node names that the dashboard accepts

`clusterNode` builds the start of the node's name from the name of the cluster, while
`clusterNameFromNode` reads the name of the cluster back from the end of the node's name; on the
names of nodes the two agree.
-/

namespace Kiac.WebUI

open Kiac.Cluster

/-- `strings.CutPrefix`. -/
def cutPrefix (s start : Str) : Option Str :=
  if s.hasPrefix start then some (s.drop start.length) else none

/-- Digits without a leading zero; the number may be larger than any `int`. -/
def decimalIndex (value : Str) : Bool :=
  !value.isEmpty && value.head? != some (byte '0') && value.all Str.isDigit

def clusterNode (name node : Str) : Bool :=
  if node = controlPlane name then true
  else
    match [str "worker-", str "gpu-"].findSome? fun marker =>
      cutPrefix node (str "kiac-" ++ name ++ str "-" ++ marker) with
    | some rest => decimalIndex rest
    | none => false

inductive NodeRole where
  | controlPlane
  | worker (i : ℕ) (positive : 0 < i) (fits : i ≤ Str.maxInt)
  | gpuWorker (i : ℕ) (positive : 0 < i) (fits : i ≤ Str.maxInt)

structure Node where
  cluster : Str
  valid : validName cluster = true
  role : NodeRole

def Node.name (node : Node) : Str :=
  match node.role with
  | .controlPlane => controlPlane node.cluster
  | .worker i _ _ => worker node.cluster i
  | .gpuWorker i _ _ => gpuWorker node.cluster i

theorem Node.isNodeOf (node : Node) : IsNodeOf node.cluster node.name := by
  rcases node with ⟨cluster, valid, role⟩
  cases role with
  | controlPlane => exact IsNodeOf.controlPlane
  | worker i positive fits => exact IsNodeOf.worker i positive fits
  | gpuWorker i positive fits => exact IsNodeOf.gpuWorker i positive fits

theorem Node.cluster_ne_nil (node : Node) : node.cluster ≠ [] := by
  intro empty
  have valid := node.valid
  rw [empty] at valid
  exact absurd valid (by decide)

theorem cutPrefix_eq_some {s start rest : Str} :
    cutPrefix s start = some rest ↔ s = start ++ rest := by
  unfold cutPrefix
  constructor
  · intro cut
    split at cut
    · rename_i starts
      rw [Str.hasPrefix_iff] at starts
      rcases starts with ⟨tail, rfl⟩
      rw [List.drop_left, Option.some.injEq] at cut
      rw [cut]
    · cases cut
  · rintro rfl
    rw [if_pos (Str.hasPrefix_append start rest), List.drop_left]

theorem decimalIndex_itoa {i : ℕ} (positive : 0 < i) : decimalIndex (Str.itoa i) := by
  have digits : (Str.itoa i).all Str.isDigit := by
    rw [List.all_eq_true]
    intro b mem
    exact Str.isDigit_of_mem_formatNat mem
  have nonempty : (Str.itoa i).isEmpty = false := by
    rw [List.isEmpty_eq_false_iff]
    exact itoa_ne_nil i
  have leading : (Str.itoa i).head? ≠ some (byte '0') := Str.head?_formatNat_ne_zero positive
  simp [decimalIndex, digits, nonempty, leading]

def roleWords : List Str := [str "control", str "worker", str "gpu"]

theorem roleWords_eq_of_getLast? {word word' : Str} (isWord : word ∈ roleWords)
    (isWord' : word' ∈ roleWords) (last : word.getLast? = word'.getLast?) : word = word' := by
  have different : ∀ word ∈ roleWords, ∀ word' ∈ roleWords,
      word.getLast? = word'.getLast? → word = word' := by decide
  exact different word isWord word' isWord' last

theorem roleName_inj {a b word word' rest rest' : Str} (isWord : word ∈ roleWords)
    (isWord' : word' ∈ roleWords) (inRest : byte '-' ∉ rest) (inRest' : byte '-' ∉ rest')
    (same : nodePrefix a ++ (word ++ byte '-' :: rest) =
      nodePrefix b ++ (word' ++ byte '-' :: rest')) :
    a = b ∧ word = word' ∧ rest = rest' := by
  have nonempty : ∀ word ∈ roleWords, word ≠ [] := by decide
  rw [← List.append_assoc, ← List.append_assoc] at same
  rcases Str.append_separator_inj same inRest inRest' with ⟨starts, rests⟩
  have last := congrArg List.getLast? starts
  rw [List.getLast?_append_of_ne_nil _ (nonempty word isWord),
    List.getLast?_append_of_ne_nil _ (nonempty word' isWord')] at last
  have words := roleWords_eq_of_getLast? isWord isWord' last
  subst words
  have prefixes := List.append_cancel_right starts
  simp only [nodePrefix, List.append_assoc] at prefixes
  exact ⟨List.append_cancel_right (List.append_cancel_left prefixes), rfl, rests⟩

def NodeRole.parts : NodeRole → Str × Str
  | .controlPlane => (str "control", str "plane")
  | .worker i _ _ => (str "worker", Str.itoa i)
  | .gpuWorker i _ _ => (str "gpu", Str.itoa i)

theorem NodeRole.word_mem (role : NodeRole) : role.parts.1 ∈ roleWords := by
  have words : str "control" ∈ roleWords ∧ str "worker" ∈ roleWords ∧ str "gpu" ∈ roleWords := by
    decide
  cases role with
  | controlPlane => exact words.1
  | worker i _ _ => exact words.2.1
  | gpuWorker i _ _ => exact words.2.2

theorem NodeRole.dash_not_mem (role : NodeRole) : byte '-' ∉ role.parts.2 := by
  cases role with
  | controlPlane => decide
  | worker i _ _ => exact dash_not_mem_itoa i
  | gpuWorker i _ _ => exact dash_not_mem_itoa i

theorem Node.name_eq (node : Node) :
    node.name = nodePrefix node.cluster ++ (node.role.parts.1 ++ byte '-' :: node.role.parts.2) := by
  rcases node with ⟨cluster, valid, role⟩
  cases role with
  | controlPlane => rfl
  | worker i _ _ => exact List.append_assoc _ _ _
  | gpuWorker i _ _ => exact List.append_assoc _ _ _

theorem NodeRole.eq_of_parts {role role' : NodeRole} (same : role.parts = role'.parts) :
    role = role' := by
  have words : str "control" ≠ str "worker" ∧ str "control" ≠ str "gpu" ∧
      str "worker" ≠ str "gpu" := by decide
  cases role with
  | controlPlane =>
    cases role' with
    | controlPlane => rfl
    | worker j _ _ => exact absurd (congrArg Prod.fst same) words.1
    | gpuWorker j _ _ => exact absurd (congrArg Prod.fst same) words.2.1
  | worker i _ _ =>
    cases role' with
    | controlPlane => exact absurd (congrArg Prod.fst same).symm words.1
    | worker j _ _ =>
      have index := Str.formatNat_injective (congrArg Prod.snd same)
      subst index
      rfl
    | gpuWorker j _ _ => exact absurd (congrArg Prod.fst same) words.2.2
  | gpuWorker i _ _ =>
    cases role' with
    | controlPlane => exact absurd (congrArg Prod.fst same).symm words.2.1
    | worker j _ _ => exact absurd (congrArg Prod.fst same).symm words.2.2
    | gpuWorker j _ _ =>
      have index := Str.formatNat_injective (congrArg Prod.snd same)
      subst index
      rfl

theorem Node.name_injective : Function.Injective Node.name := by
  intro node node' same
  rw [node.name_eq, node'.name_eq] at same
  rcases roleName_inj node.role.word_mem node'.role.word_mem node.role.dash_not_mem
    node'.role.dash_not_mem same with ⟨clusters, words, rests⟩
  have roles := NodeRole.eq_of_parts (Prod.ext words rests)
  rcases node with ⟨cluster, valid, role⟩
  rcases node' with ⟨cluster', valid', role'⟩
  subst clusters roles
  rfl

theorem roleName_of_clusterNode {name node : Str} (accepted : clusterNode name node) :
    ∃ word ∈ roleWords, ∃ rest, byte '-' ∉ rest ∧
      node = nodePrefix name ++ (word ++ byte '-' :: rest) := by
  unfold clusterNode at accepted
  split at accepted
  · rename_i isControlPlane
    exact ⟨str "control", by decide, str "plane", by decide, isControlPlane⟩
  · split at accepted
    · rename_i rest found
      have noDash : byte '-' ∉ rest := by
        intro mem
        simp only [decimalIndex, Bool.and_eq_true, List.all_eq_true] at accepted
        exact absurd (accepted.2 _ mem) (by decide)
      rcases List.exists_of_findSome?_eq_some found with ⟨marker, isMarker, cut⟩
      rw [cutPrefix_eq_some] at cut
      rcases List.mem_cons.mp isMarker with rfl | isGPU
      · exact ⟨str "worker", by decide, rest, noDash, by rw [cut, List.append_assoc]; rfl⟩
      · rw [List.mem_singleton.mp isGPU] at cut
        exact ⟨str "gpu", by decide, rest, noDash, by rw [cut, List.append_assoc]; rfl⟩
    · cases accepted

theorem clusterNode_name (node : Node) : clusterNode node.cluster node.name := by
  rcases node with ⟨cluster, valid, role⟩
  cases role with
  | controlPlane => exact if_pos rfl
  | worker i positive fits =>
    have cut : cutPrefix (worker cluster i) (str "kiac-" ++ cluster ++ str "-" ++ str "worker-") =
        some (Str.itoa i) := cutPrefix_eq_some.mpr rfl
    change clusterNode cluster (worker cluster i) = true
    unfold clusterNode
    split
    · rfl
    · rw [List.findSome?_cons, cut]
      exact decimalIndex_itoa positive
  | gpuWorker i positive fits =>
    have notWorker : cutPrefix (gpuWorker cluster i)
        (str "kiac-" ++ cluster ++ str "-" ++ str "worker-") = none := by
      rw [Option.eq_none_iff_forall_ne_some]
      intro rest cut
      rw [cutPrefix_eq_some, gpuWorker, nodePrefix, List.append_assoc, List.append_assoc _ _ rest]
        at cut
      have heads := congrArg List.head? (List.append_cancel_left cut)
      have different : ∀ tail rest : Str,
          (str "gpu-" ++ tail).head? ≠ (str "worker-" ++ rest).head? := by
        intro tail rest
        have letters : some (byte 'g') ≠ some (byte 'w') := by decide
        exact letters
      exact different _ _ heads
    have cut : cutPrefix (gpuWorker cluster i) (str "kiac-" ++ cluster ++ str "-" ++ str "gpu-") =
        some (Str.itoa i) := cutPrefix_eq_some.mpr rfl
    change clusterNode cluster (gpuWorker cluster i) = true
    unfold clusterNode
    split
    · rfl
    · rw [List.findSome?_cons, notWorker, List.findSome?_cons, cut]
      exact decimalIndex_itoa positive

/-- A node's name is read back as its cluster, no two nodes have the same name, and the
dashboard accepts a node for its own cluster only. -/
theorem nodeName_reads_back :
    (∀ node : Node, clusterNameFromNode node.name = some node.cluster) ∧
      Function.Injective Node.name ∧
      ∀ (a : Str) (node : Node), clusterNode a node.name = true ↔ a = node.cluster := by
  refine ⟨?_, Node.name_injective, ?_⟩
  · intro node
    exact clusterNameFromNode_of_isNodeOf node.cluster_ne_nil node.isNodeOf
  · intro a node
    constructor
    · intro accepted
      rcases roleName_of_clusterNode accepted with ⟨word, isWord, rest, inRest, same⟩
      rw [node.name_eq] at same
      exact (roleName_inj node.role.word_mem isWord node.role.dash_not_mem inRest same).1.symm
    · rintro rfl
      exact clusterNode_name node

/-- A cluster may be named after a role. -/
example : clusterNameFromNode (worker (str "a-worker-1") 2) = some (str "a-worker-1") ∧
    clusterNode (str "a") (worker (str "a-worker-1") 2) = false := by
  decide +kernel

end Kiac.WebUI
