import Kiac.Gpu.Compat

/-!
# The Pod with the Venus GPU

What a patched Pod is to the one that was sent: each list with an NVIDIA name has the Venus GPU
with the same quantity in its place, the annotation tells the name, the Pod tolerates the taint of
the GPU node, and nothing else is different. Such a Pod decodes and has nothing to rewrite.
-/

namespace Kiac.Gpu

open Json (Apart)

def Toleration.tolerates (toleration : Toleration) (key value effect : Str) : Bool :=
  (toleration.effect == [] || toleration.effect == effect) &&
    (toleration.key == [] || toleration.key == key) &&
    (if toleration.operator == [] || toleration.operator == str "Equal" then
      toleration.value == value
    else toleration.operator == str "Exists")

def annotationsPath : List Str := [str "metadata", str "annotations"]

def tolerationsPath : List Str := [str "spec", str "tolerations"]

def HasAlias (raw : Json) (site : Site) (name : Str) : Prop :=
  isAlias name = true ∧ (raw.get (site.path ++ [name])).isSome

inductive Rewrites (raw : Json) : List Str → Prop where
  | entry {site : Site} {nvidia : Str} (has : HasAlias raw site nvidia) {name : Str}
      (either : name = resourceName ∨ name = nvidia) : Rewrites raw (site.path ++ [name])
  | annotated {site : Site} {nvidia : Str} (has : HasAlias raw site nvidia) :
      Rewrites raw (annotationsPath ++ [ compatAnnotation])
  | tolerations {site : Site} {nvidia : Str} (has : HasAlias raw site nvidia) :
      Rewrites raw tolerationsPath

def itemsOf : Option Json → List Json
  | some (.arr items) => items
  | _ => []

structure Mapped (quantities : Quantities) (raw patched : Json) : Prop where
  no_alias : ∀ (site : Site) name, isAlias name = true → patched.get (site.path ++ [name]) = none
  /-- The Venus GPU has the quantity of the NVIDIA name. -/
  mapped : ∀ (site : Site) nvidia value, isAlias nvidia = true →
    raw.get (site.path ++ [nvidia]) = some value → ∃ quantity new read,
      quantities.parse value = some quantity ∧
      patched.get (site.path ++ [resourceName]) = some new ∧
      quantities.parse new = some read ∧ quantities.value read = quantities.value quantity
  /-- A quantity of the Venus GPU that was there is still the same number. -/
  kept : ∀ (site : Site) value, raw.get (site.path ++ [resourceName]) = some value →
    ∃ quantity new read, quantities.parse value = some quantity ∧
      patched.get (site.path ++ [resourceName]) = some new ∧
      quantities.parse new = some read ∧ quantities.value read = quantities.value quantity
  annotated : ∀ site nvidia, HasAlias raw site nvidia →
    patched.get (annotationsPath ++ [ compatAnnotation]) = some (.str nvidia)
  tolerated : ∀ site nvidia, HasAlias raw site nvidia → ∃ item ∈ itemsOf (patched.get tolerationsPath),
    ∃ toleration, decodeToleration item = some toleration ∧
      toleration.tolerates resourceName (str "true") (str "NoSchedule") = true
  tolerations : patched.get tolerationsPath = raw.get tolerationsPath ∨
    patched.get tolerationsPath =
      some (.arr (itemsOf (raw.get tolerationsPath) ++ [tolerationJson]))
  /-- What does not lead to a rewritten place is the same. -/
  unchanged : ∀ path, (∀ changed, Rewrites raw changed → Apart changed path) →
    patched.get path = raw.get path
  /-- What leads to a rewritten place has the same form. -/
  form : ∀ path, (∀ changed, Rewrites raw changed → ¬changed <+: path) → path ≠ annotationsPath →
    (patched.get path).map Json.shape = (raw.get path).map Json.shape
  annotations_form : (patched.get annotationsPath).map Json.shape =
      (raw.get annotationsPath).map Json.shape ∨
    (patched.get annotationsPath).map Json.shape = some .obj

section Paths

variable {raw : Json} {changed : List Str}

theorem Rewrites.two_le_length (rewrites : Rewrites raw changed) : 2 ≤ changed.length := by
  cases rewrites <;> simp [annotationsPath, tolerationsPath, Site.path, containerPath]

variable {path : List Str} {kind : ContainerKind} {rest : List Str}

theorem Rewrites.not_prefix_short (rewrites : Rewrites raw changed)
    (short : path.length ≤ 1) : ¬changed <+: path := by
  intro leads
  have longer := rewrites.two_le_length
  have shorter := leads.length_le
  omega

theorem ContainerKind.key_ne_tolerations (kind : ContainerKind) : str "tolerations" ≠ kind.key := by
  cases kind <;> decide

theorem Rewrites.of_prefix_kind (rewrites : Rewrites raw changed)
    (leads : changed <+: str "spec" :: kind.key :: rest) :
    ∃ (site : Site) (name : Str), changed = site.path ++ [name] := by
  cases rewrites with
  | entry has either => exact ⟨_, _, rfl⟩
  | annotated has =>
    have distinct : str "metadata" ≠ str "spec" := by decide
    simp [annotationsPath, List.cons_prefix_cons, distinct] at leads
  | tolerations has =>
    simp [tolerationsPath, List.cons_prefix_cons, kind.key_ne_tolerations] at leads

theorem Rewrites.not_prefix_kind (rewrites : Rewrites raw changed)
    (short : rest.length ≤ 3) : ¬changed <+: str "spec" :: kind.key :: rest := by
  intro leads
  rcases rewrites.of_prefix_kind leads with ⟨site, name, rfl⟩
  have shorter := leads.length_le
  simp [Site.path, containerPath] at shorter
  omega

theorem spec_ne_metadata : str "spec" ≠ str "metadata" := by decide

theorem apart_of_head_ne {first second : Str} {other : List Str} (distinct : first ≠ second) :
    Apart (first :: path) (second :: other) := by
  simp [Apart, List.cons_prefix_cons, distinct, distinct.symm]

theorem rewrites_or_apart (raw : Json) (site : Site) (name : Str) :
    Rewrites raw (site.path ++ [name]) ∨
      ∀ changed, Rewrites raw changed → Apart changed (site.path ++ [name]) := by
  by_cases rewritten : Rewrites raw (site.path ++ [name])
  · exact Or.inl rewritten
  · right
    intro changed rewrites
    cases rewrites with
    | @entry other nvidia has otherName either =>
      apply apart_of_site_ne
      by_contra! same
      rcases same with ⟨rfl, rfl⟩
      exact rewritten (.entry has either)
    | annotated has => exact apart_of_head_ne spec_ne_metadata.symm
    | tolerations has =>
      simp [Apart, tolerationsPath, Site.path, containerPath, List.cons_prefix_cons,
        site.kind.key_ne_tolerations, site.kind.key_ne_tolerations.symm]

theorem Rewrites.hasAlias {site : Site} {name : Str} (rewrites : Rewrites raw (site.path ++ [name])) :
    ∃ nvidia, HasAlias raw site nvidia ∧ (name = resourceName ∨ name = nvidia) := by
  generalize isPath : site.path ++ [name] = path at rewrites
  cases rewrites with
  | entry has either =>
    rcases Site.path_append_inj isPath with ⟨rfl, rfl⟩
    exact ⟨_, has, either⟩
  | annotated has => exact absurd (List.cons.inj isPath).1 spec_ne_metadata
  | tolerations has => simp [tolerationsPath, Site.path, containerPath] at isPath

theorem Rewrites.apart_containerName (rewrites : Rewrites raw changed) (kind : ContainerKind)
    (index : ℕ) : Apart changed (containerPath kind index ++ [str "name"]) := by
  have distinct : str "name" ≠ str "resources" := by decide
  cases rewrites with
  | entry has either =>
    simp [Apart, Site.path, containerPath, List.cons_prefix_cons, distinct, distinct.symm]
  | annotated has => exact apart_of_head_ne spec_ne_metadata.symm
  | tolerations has =>
    simp [Apart, tolerationsPath, containerPath, List.cons_prefix_cons, kind.key_ne_tolerations,
      kind.key_ne_tolerations.symm]

theorem Rewrites.apart_annotations (rewrites : Rewrites raw changed) {key : Str}
    (other : key ≠ compatAnnotation) (rest : List Str) :
    Apart changed (annotationsPath ++ key :: rest) := by
  cases rewrites with
  | entry has either => exact apart_of_head_ne spec_ne_metadata
  | annotated has =>
    simp [Apart, List.prefix_append_right_inj, List.cons_prefix_cons, other, other.symm]
  | tolerations has => exact apart_of_head_ne spec_ne_metadata

end Paths

section Typed

variable {quantities : Quantities} {raw patched : Json}

variable {json other : Option Json}

theorem record_congr (same : json.map Json.shape = other.map Json.shape) :
    Record json ↔ Record other := by
  simp [Record, same]

theorem slice_congr (same : json.map Json.shape = other.map Json.shape) :
    Slice json ↔ Slice other := by
  simp [Slice, same]

theorem getElem?_itemsOf (slice : Slice json) (i : ℕ) :
    (itemsOf json)[i]? = json.bind (Json.child (Str.formatNat i)) := by
  rcases json with _ | _ | _ | _ | _ | items | _
  case some.arr => simp [itemsOf, Json.child_arr]
  all_goals simp [itemsOf, Json.child, Slice, Json.shape] at slice ⊢

theorem decodeToleration_tolerationJson : decodeToleration tolerationJson =
    some ⟨resourceName, str "Equal", str "true", str "NoSchedule"⟩ := by
  decide

namespace Mapped

variable (mapped : Mapped quantities raw patched)

include mapped

theorem eq_of_plain (plain : ∀ site name, ¬HasAlias raw site name) : patched = raw := by
  have same : patched.get [] = raw.get [] := by
    apply mapped.unchanged
    intro changed rewrites
    cases rewrites with
    | entry has either => exact (plain _ _ has).elim
    | annotated has => exact (plain _ _ has).elim
    | tolerations has => exact (plain _ _ has).elim
  exact Option.some.inj same

variable {rest : List Str} {value : Json} {index : ℕ}

theorem form_kind (kind : ContainerKind) (short : rest.length ≤ 3) :
    (patched.get (str "spec" :: kind.key :: rest)).map Json.shape =
      (raw.get (str "spec" :: kind.key :: rest)).map Json.shape := by
  apply mapped.form
  · intro changed rewrites
    exact rewrites.not_prefix_kind short
  · simp [annotationsPath, spec_ne_metadata]

theorem form_short {path : List Str} (short : path.length ≤ 1) :
    (patched.get path).map Json.shape = (raw.get path).map Json.shape := by
  apply mapped.form
  · intro changed rewrites
    exact rewrites.not_prefix_short short
  · rintro rfl
    simp [annotationsPath] at short

theorem form_container (kind : ContainerKind) (index : ℕ) (short : rest.length ≤ 2) :
    (patched.get (containerPath kind index ++ rest)).map Json.shape =
      (raw.get (containerPath kind index ++ rest)).map Json.shape := by
  apply mapped.form_kind kind
  exact Nat.succ_le_succ short

theorem quantity_isSome (typed : PodTyped quantities raw) (site : Site) {name : Str}
    (found : patched.get (site.path ++ [name]) = some value) : (quantities.parse value).isSome := by
  rcases rewrites_or_apart raw site name with rewrites | isApart
  · rcases rewrites.hasAlias with ⟨nvidia, ⟨isNvidia, isThere⟩, rfl | rfl⟩
    · rcases Option.isSome_iff_exists.mp isThere with ⟨old, isOld⟩
      rcases mapped.mapped site nvidia old isNvidia isOld with ⟨_, new, read, _, isNew, isRead, _⟩
      rw [isNew, Option.some.injEq] at found
      rw [← found, isRead]
      rfl
    · rw [mapped.no_alias site _ isNvidia] at found
      cases found
  · rw [mapped.unchanged _ isApart] at found
    exact typed.quantity found

theorem containerTyped (typed : PodTyped quantities raw) {kind : ContainerKind}
    (found : patched.get (containerPath kind index) = some value) :
    ContainerTyped quantities value := by
  have same := mapped.form_container kind index (List.length_nil.trans_le (Nat.zero_le 2))
  rw [List.append_nil, found, Option.map_some, eq_comm, Option.map_eq_some_iff] at same
  rcases same with ⟨original, foundRaw, same⟩
  have isTyped := typed.container kind index original foundRaw
  have value_get : ∀ rest, value.get rest = patched.get (containerPath kind index ++ rest) := by
    intro rest
    rw [Json.get_append, found, Option.bind_some]
  have original_get : ∀ rest, original.get rest = raw.get (containerPath kind index ++ rest) := by
    intro rest
    rw [Json.get_append, foundRaw, Option.bind_some]
  refine ⟨?_, ?_, ?_, ?_, ?_⟩
  · apply (record_congr _).mp isTyped.record
    simp [same]
  · rw [value_get, mapped.unchanged _ fun _ rewrites => rewrites.apart_containerName kind index,
      ← original_get]
    exact isTyped.name
  · rw [value_get, record_congr (mapped.form_container kind index (by simp)), ← original_get]
    exact isTyped.resources
  · intro list
    rw [value_get, record_congr (mapped.form_container kind index (by simp)), ← original_get]
    exact isTyped.list list
  · intro list name entry isEntry
    rw [value_get] at isEntry
    exact mapped.quantity_isSome typed ⟨kind, index, list⟩ (by simpa [Site.path] using isEntry)

theorem tolerationTyped (typed : PodTyped quantities raw)
    (found : patched.get (tolerationsPath ++ [Str.formatNat index]) = some value) :
    TolerationTyped value := by
  rcases mapped.tolerations with same | added
  · rw [Json.get_append, same, ← Json.get_append] at found
    exact typed.toleration index value found
  · rw [Json.get_append, added, Option.bind_some, Json.get_cons, Json.bind_get_nil,
      Json.child_arr, List.getElem?_append] at found
    split_ifs at found with old
    · have slice : Slice (raw.get tolerationsPath) := typed.tolerations
      rw [getElem?_itemsOf slice] at found
      apply typed.toleration index value
      simpa [tolerationsPath] using found
    · have isNew := List.mem_singleton.mp (List.mem_of_getElem? found)
      rw [isNew, ← isSome_decodeToleration, decodeToleration_tolerationJson]
      rfl

theorem podTyped (typed : PodTyped quantities raw) : PodTyped quantities patched := by
  by_cases plain : ∀ site name, ¬HasAlias raw site name
  · rw [mapped.eq_of_plain plain]
    exact typed
  · push Not at plain
    rcases plain with ⟨site, nvidia, has⟩
    refine ⟨?_, ?_, ?_, ?_, ?_, ?_, ?_, ?_, ?_⟩
    · exact (record_congr (mapped.form_short (List.length_nil.trans_le (Nat.zero_le 1)))).mpr typed.record
    · exact (record_congr (mapped.form_short (by simp))).mpr typed.metadata
    · rcases mapped.annotations_form with same | isObject
      · exact (record_congr same).mpr typed.annotations
      · exact Or.inr (Or.inr isObject)
    · intro key value found
      by_cases ours : key = compatAnnotation
      · have annotated := mapped.annotated site nvidia has
        rw [← ours] at annotated
        cases found.symm.trans annotated
        exact Or.inr (Or.inr ⟨nvidia, rfl⟩)
      · apply typed.annotationText key value
        exact (mapped.unchanged _ fun _ rewrites => rewrites.apart_annotations ours []).symm.trans found
    · exact (record_congr (mapped.form_short (by simp))).mpr typed.spec
    · intro kind
      exact (slice_congr (mapped.form_kind kind (by simp))).mpr (typed.containers kind)
    · intro kind index value found
      exact mapped.containerTyped typed found
    · rcases mapped.tolerations with same | added
      · exact (slice_congr (congrArg (Option.map Json.shape) same)).mpr typed.tolerations
      · exact Or.inr (Or.inr ⟨_, congrArg (Option.map Json.shape) added⟩)
    · intro index value found
      exact mapped.tolerationTyped typed found

end Mapped

end Typed

section Again

variable {quantities : Quantities} {json : Json} {pod : Pod quantities}

theorem listOf_eq_listAt {kind : ContainerKind} {container : Container quantities}
    (mem : container ∈ pod.containersOf kind) (list : ListKind) :
    ∃ index, (container.listOf list).getD [] = pod.listAt ⟨kind, index, list⟩ := by
  rcases List.getElem?_of_mem mem with ⟨index, found⟩
  exact ⟨index, by simp [Pod.listAt, found]⟩

theorem nvidiaCompatibilityPatches_of_plain
    (plain : ∀ site, ∀ entry ∈ pod.listAt site, isAlias entry.1 = false) :
    nvidiaCompatibilityPatches quantities pod = .ok ([], []) := by
  have lists : ∀ kind, ∀ container ∈ pod.containersOf kind, ∀ list,
      ∀ entry ∈ (container.listOf list).getD [], isAlias entry.1 = false := by
    intro kind container mem list entry isEntry
    rcases listOf_eq_listAt mem list with ⟨index, same⟩
    rw [same] at isEntry
    exact plain _ entry isEntry
  have inits : rewriteContainers quantities (str "/spec/initContainers/") (str "init container") 0
      ⟨[], []⟩ (pod.initContainers.getD []) = .ok ⟨[], []⟩ :=
    rewriteContainers_of_plain (lists .initContainers) _
  have containers : rewriteContainers quantities (str "/spec/containers/") (str "container") 0
      ⟨[], []⟩ (pod.containers.getD []) = .ok ⟨[], []⟩ :=
    rewriteContainers_of_plain (lists .containers) _
  simp [nvidiaCompatibilityPatches, inits, containers, bind, Except.bind]
  rfl

theorem eq_false_of_no_alias (decoded : DecodedFrom json pod) (typed : PodTyped quantities json)
    (plain : ∀ site name, ¬HasAlias json site name) :
    ∀ site, ∀ entry ∈ pod.listAt site, isAlias entry.1 = false := by
  rintro site ⟨name, quantity⟩ mem
  rw [decoded.mem_listAt typed, Option.bind_eq_some_iff] at mem
  rcases mem with ⟨value, found, _⟩
  by_contra isNvidia
  exact plain site name ⟨by simpa using isNvidia, by simp [found]⟩

end Again

end Kiac.Gpu
