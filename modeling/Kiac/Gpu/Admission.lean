import Kiac.Gpu.Mapped

/-!
# Admission of a Pod

The operations of the patch are changes at paths that are apart, all of them possible in the raw
object, so that the patch applies and the patched Pod is the one that was meant.
-/

namespace Kiac.Gpu

open Json (Apart Change)

variable {quantities : Quantities} {raw : Json} {pod : Pod quantities}

def podChanges (pod : Pod quantities) : List Change :=
  kindChanges .initContainers 0 (pod.containersOf .initContainers) ++
    kindChanges .containers 0 (pod.containersOf .containers)

theorem mem_podChanges {change : Change} :
    change ∈ podChanges pod ↔ ∃ site, change ∈ siteChanges site (pod.listAt site) := by
  rw [podChanges, List.mem_append, mem_kindChanges_listAt, mem_kindChanges_listAt]
  constructor
  · rintro (⟨site, _, mem⟩ | ⟨site, _, mem⟩)
    · exact ⟨site, mem⟩
    · exact ⟨site, mem⟩
  · rintro ⟨site, mem⟩
    cases kind : site.kind with
    | initContainers => exact Or.inl ⟨site, kind, mem⟩
    | containers => exact Or.inr ⟨site, kind, mem⟩

def Pod.Names (pod : Pod quantities) (name : Str) : Prop :=
  ∃ site quantity, (name, quantity) ∈ aliases (pod.listAt site)

theorem names_iff {name : Str} : pod.Names name ↔
    (∃ container ∈ pod.containersOf .initContainers, container.Names name) ∨
      ∃ container ∈ pod.containersOf .containers, container.Names name := by
  have one : ∀ kind, (∃ container ∈ pod.containersOf kind, container.Names name) ↔
      ∃ site : Site, site.kind = kind ∧ ∃ quantity, (name, quantity) ∈ aliases (pod.listAt site) := by
    intro kind
    constructor
    · rintro ⟨container, mem, list, quantity, isEntry⟩
      rcases listOf_eq_listAt mem list with ⟨index, same⟩
      rw [same] at isEntry
      exact ⟨⟨kind, index, list⟩, rfl, quantity, isEntry⟩
    · rintro ⟨⟨kind, index, list⟩, rfl, quantity, isEntry⟩
      cases found : (pod.containersOf kind)[index]? with
      | none => simp [Pod.listAt, found, aliases] at isEntry
      | some container =>
        refine ⟨container, List.mem_of_getElem? found, list, quantity, ?_⟩
        simpa [Pod.listAt, found] using isEntry
  rw [one, one]
  constructor
  · rintro ⟨site, quantity, mem⟩
    cases kind : site.kind with
    | initContainers => exact Or.inl ⟨site, kind, quantity, mem⟩
    | containers => exact Or.inr ⟨site, kind, quantity, mem⟩
  · rintro (⟨site, _, quantity, mem⟩ | ⟨site, _, quantity, mem⟩)
    · exact ⟨site, quantity, mem⟩
    · exact ⟨site, quantity, mem⟩

theorem acceptable_nil : Acceptable ([] : ResourceList quantities) :=
  ⟨by simp [aliases], by simp⟩

theorem acceptable_listAt {kind : ContainerKind}
    (acceptable : ∀ container ∈ pod.containersOf kind, ∀ list,
      Acceptable ((container.listOf list).getD [])) (index : ℕ) (list : ListKind) :
    Acceptable (pod.listAt ⟨kind, index, list⟩) := by
  cases found : (pod.containersOf kind)[index]? with
  | none => simpa [Pod.listAt, found] using acceptable_nil
  | some container =>
    simpa [Pod.listAt, found] using acceptable container (List.mem_of_getElem? found) list

theorem patches_of_nvidiaCompatibilityPatches {patches : List Json.Operation} {names : List Str}
    (unique : ∀ site, ((pod.listAt site).map Prod.fst).Nodup)
    (ok : nvidiaCompatibilityPatches quantities pod = .ok (patches, names)) :
    (names = [] ∧ ∀ name, ¬pod.Names name) ∨
      ∃ nvidia, names = [nvidia] ∧ (∀ name, pod.Names name ↔ name = nvidia) ∧
        (∀ kind, ∀ container ∈ pod.containersOf kind, ∀ list,
          Acceptable ((container.listOf list).getD [])) ∧
        patches = (podChanges pod).map Change.operation ++
          [annotationPatch pod.annotations nvidia] ++ tolerationPatch pod.tolerations := by
  have uniqueLists : ∀ kind, ∀ container ∈ pod.containersOf kind, ∀ list,
      (((container.listOf list).getD []).map Prod.fst).Nodup := by
    intro kind container mem list
    rcases listOf_eq_listAt mem list with ⟨index, same⟩
    rw [same]
    exact unique _
  unfold nvidiaCompatibilityPatches at ok
  cases inits : rewriteContainers quantities (str "/spec/initContainers/") (str "init container") 0
      ⟨[], []⟩ (pod.initContainers.getD []) with
  | error message =>
    rw [inits] at ok
    cases ok
  | ok middle =>
    cases rest : rewriteContainers quantities (str "/spec/containers/") (str "container") 0
        middle (pod.containers.getD []) with
    | error message =>
      simp [inits, rest, bind, Except.bind] at ok
    | ok after =>
      simp only [inits, rest, bind, Except.bind] at ok
      have startInits : str "/spec/initContainers/" = ContainerKind.initContainers.start := by
        decide
      have startRest : str "/spec/containers/" = ContainerKind.containers.start := by decide
      rw [startInits] at inits
      rw [startRest] at rest
      rcases adds_of_rewriteContainers (uniqueLists .initContainers) inits with
        ⟨acceptableInits, addsInits⟩
      rcases adds_of_rewriteContainers (uniqueLists .containers) rest with
        ⟨acceptableRest, addsRest⟩
      have adds := addsInits.trans addsRest
      have names_eq : ∀ name, name ∈ after.rewritten ↔ pod.Names name := by
        intro name
        rw [adds.mem_rewritten, names_iff]
        simp
      rcases rewritten : after.rewritten with _ | ⟨nvidia, _ | ⟨other, others⟩⟩
      · rw [rewritten] at ok names_eq
        cases ok
        exact Or.inl ⟨rfl, fun name => by simp [← names_eq]⟩
      · rw [rewritten] at ok names_eq
        cases ok
        refine Or.inr ⟨nvidia, rfl, fun name => by simp [← names_eq], ?_, ?_⟩
        · intro kind
          cases kind with
          | initContainers => exact acceptableInits
          | containers => exact acceptableRest
        · rw [adds.patches_eq]
          rfl
      · rw [rewritten] at ok
        cases ok

section Apply

variable {site : Site} {name : Str} {changes : List Change} {middle : Json}

theorem hasAlias_iff (decoded : DecodedFrom raw pod) (typed : PodTyped quantities raw)
    : HasAlias raw site name ↔
      ∃ quantity, (name, quantity) ∈ aliases (pod.listAt site) := by
  constructor
  · rintro ⟨isNvidia, isThere⟩
    rcases Option.isSome_iff_exists.mp isThere with ⟨value, found⟩
    rcases Option.isSome_iff_exists.mp (typed.quantity found) with ⟨quantity, parsed⟩
    refine ⟨quantity, mem_aliases.mpr ⟨?_, isNvidia⟩⟩
    rw [decoded.mem_listAt typed, found]
    exact parsed
  · rintro ⟨quantity, mem⟩
    rcases mem_aliases.mp mem with ⟨isEntry, isNvidia⟩
    rw [decoded.mem_listAt typed, Option.bind_eq_some_iff] at isEntry
    rcases isEntry with ⟨value, found, _⟩
    exact ⟨isNvidia, by simp [found]⟩

theorem shape_of_hasAlias (typed : PodTyped quantities raw)
    (has : HasAlias raw site name) : (raw.get site.path).map Json.shape = some .obj := by
  have isThere := has.2
  rw [Json.get_append] at isThere
  rcases typed.list site with missing | null | isObject
  · rw [Option.map_eq_none_iff] at missing
    simp [missing] at isThere
  · rw [Option.map_eq_some_iff] at null
    rcases null with ⟨value, found, isNull⟩
    rcases value with _ | _ | _ | _ | _ | _ <;> simp [Json.shape] at isNull
    simp [found, Json.child] at isThere
  · exact isObject

variable {change : Change} {α : Type} {item : Json → Option α} {json : Option Json}

theorem rewrites_of_mem_podChanges (decoded : DecodedFrom raw pod) (typed : PodTyped quantities raw)
    (mem : change ∈ podChanges pod) : Rewrites raw change.path := by
  rcases mem_podChanges.mp mem with ⟨site, mem⟩
  simp only [siteChanges, List.mem_flatMap, List.mem_cons, List.not_mem_nil, or_false] at mem
  rcases mem with ⟨⟨nvidia, quantity⟩, isAlias, rfl | rfl⟩
  · exact .entry ((hasAlias_iff decoded typed).mpr ⟨quantity, isAlias⟩) (Or.inl rfl)
  · exact .entry ((hasAlias_iff decoded typed).mpr ⟨quantity, isAlias⟩) (Or.inr rfl)

theorem ready_of_mem_podChanges (decoded : DecodedFrom raw pod) (typed : PodTyped quantities raw)
    (mem : change ∈ podChanges pod) : change.Ready raw := by
  rcases mem_podChanges.mp mem with ⟨site, mem⟩
  simp only [siteChanges, List.mem_flatMap, List.mem_cons, List.not_mem_nil, or_false] at mem
  rcases mem with ⟨⟨nvidia, quantity⟩, isAlias, either⟩
  have has := (hasAlias_iff decoded typed).mpr ⟨quantity, isAlias⟩
  rcases either with rfl | rfl
  · exact ⟨site.path, resourceName, rfl, shape_of_hasAlias typed has, by simp⟩
  · exact ⟨site.path, nvidia, rfl, shape_of_hasAlias typed has, fun _ => has.2⟩

def annotationChange (annotations : Option (List (Str × Str))) (nvidia : Str) : Change :=
  match annotations with
  | none => ⟨annotationsPath,
      some (Json.object [ compatAnnotation] (List.nodup_singleton _) fun _ => .str nvidia)⟩
  | some _ => ⟨annotationsPath ++ [ compatAnnotation], some (.str nvidia)⟩

theorem annotationPatch_eq (annotations : Option (List (Str × Str))) (nvidia : Str) :
    annotationPatch annotations nvidia = (annotationChange annotations nvidia).operation := by
  cases annotations with
  | none =>
    rfl
  | some entries =>
    rfl

theorem shape_of_decodeMap
    {entries : List (Str × α)} (decoded : decodeMap item json = some (some entries)) :
    json.map Json.shape = some .obj := by
  rcases json with _ | _ | _ | _ | _ | _ | _ <;> simp [decodeMap, Json.shape] at decoded ⊢

theorem child_of_decodeMap_none
    (decoded : decodeMap item json = some none) (key : Str) : json.bind (Json.child key) = none := by
  rcases json with _ | _ | _ | _ | _ | _ | _ <;> simp [decodeMap, Json.child] at decoded ⊢

theorem ready_annotationChange (decoded : DecodedFrom raw pod)
    (metadata : (raw.get [str "metadata"]).map Json.shape = some .obj) (nvidia : Str) :
    (annotationChange pod.annotations nvidia).Ready raw := by
  have annotations := decoded.annotations
  cases entries : pod.annotations with
  | none => exact ⟨[str "metadata"], str "annotations", rfl, metadata, by simp [annotationChange]⟩
  | some list =>
    rw [entries] at annotations
    exact ⟨annotationsPath, compatAnnotation, rfl, shape_of_decodeMap annotations,
      by simp [annotationChange]⟩

theorem exists_annotationChange_path (annotations : Option (List (Str × Str))) (nvidia : Str) :
    ∃ rest, (annotationChange annotations nvidia).path = str "metadata" :: rest := by
  cases annotations <;> exact ⟨_, rfl⟩

theorem exists_podChanges_path (mem : change ∈ podChanges pod) :
    ∃ rest, change.path = str "spec" :: rest := by
  rcases mem_podChanges.mp mem with ⟨site, mem⟩
  rcases exists_path_of_mem_siteChanges mem with ⟨name, path⟩
  exact ⟨_, path⟩

def tolerationChanges (raw : Json) (tolerations : Option (List Toleration)) : List Change :=
  if toleratesGPUNode (tolerations.getD []) then []
  else [⟨tolerationsPath, some (.arr (itemsOf (raw.get tolerationsPath) ++ [tolerationJson]))⟩]

theorem pairwise_changes
    (acceptable : ∀ kind, ∀ container ∈ pod.containersOf kind, ∀ list,
      Acceptable ((container.listOf list).getD [])) (nvidia : Str) :
    (podChanges pod ++ [annotationChange pod.annotations nvidia]).Pairwise
      fun first later => Apart first.path later.path := by
  rw [podChanges, List.pairwise_append, List.pairwise_append]
  refine ⟨⟨pairwise_kindChanges (acceptable _), pairwise_kindChanges (acceptable _), ?_⟩,
    List.pairwise_singleton _ _, ?_⟩
  · intro first memFirst later memLater
    rcases mem_kindChanges_listAt.mp memFirst with ⟨site, isInit, memFirst⟩
    rcases mem_kindChanges_listAt.mp memLater with ⟨other, isContainer, memLater⟩
    apply apart_of_mem_siteChanges _ memFirst memLater
    rintro rfl
    cases isInit.symm.trans isContainer
  · intro first memFirst later memLater
    rw [List.mem_singleton] at memLater
    rcases exists_podChanges_path memFirst with ⟨path, isFirst⟩
    rcases exists_annotationChange_path pod.annotations nvidia with ⟨other, isLater⟩
    rw [memLater, isFirst, isLater]
    exact apart_of_head_ne spec_ne_metadata

theorem apart_tolerations {nvidia : Str}
    (mem : change ∈ podChanges pod ++ [annotationChange pod.annotations nvidia]) :
    Apart change.path tolerationsPath := by
  rcases List.mem_append.mp mem with mem | mem
  · rcases mem_podChanges.mp mem with ⟨site, mem⟩
    rcases exists_path_of_mem_siteChanges mem with ⟨name, path⟩
    rw [path]
    simp [Apart, tolerationsPath, Site.path, containerPath, List.cons_prefix_cons,
      site.kind.key_ne_tolerations, site.kind.key_ne_tolerations.symm]
  · rw [List.mem_singleton] at mem
    rcases exists_annotationChange_path pod.annotations nvidia with ⟨path, isPath⟩
    rw [mem, isPath]
    exact apart_of_head_ne spec_ne_metadata.symm

theorem itemsOf_of_decodeSlice_none
    (decoded : decodeSlice item json = some none) : itemsOf json = [] := by
  rcases json with _ | _ | _ | _ | _ | _ | _ <;> simp [decodeSlice, itemsOf] at decoded ⊢

theorem exists_arr_of_decodeSlice
    {list : List α} (decoded : decodeSlice item json = some (some list)) :
    json = some (.arr (itemsOf json)) := by
  rcases json with _ | _ | _ | _ | _ | _ | _ <;> simp [decodeSlice, itemsOf] at decoded ⊢

theorem effect_tolerations (decoded : DecodedFrom raw pod)
    (spec : (raw.get [str "spec"]).map Json.shape = some .obj)
    (effects : Json.Effects changes raw middle)
    (separate : ∀ change ∈ changes, Apart change.path tolerationsPath)
    (missing : toleratesGPUNode (pod.tolerations.getD []) = false) :
    ∃ patched, Json.applyPatch (tolerationPatch pod.tolerations) middle = some patched ∧
      Json.Effect tolerationsPath
        (some (.arr (itemsOf (raw.get tolerationsPath) ++ [tolerationJson]))) middle patched := by
  have tolerations : decodeSlice decodeToleration (raw.get tolerationsPath) = some pod.tolerations :=
    decoded.tolerations
  cases entries : pod.tolerations with
  | none =>
    rw [entries] at tolerations missing
    rw [Option.getD_none] at missing
    let change : Change := ⟨tolerationsPath, some (.arr [tolerationJson])⟩
    have ready : change.Ready raw :=
      ⟨[str "spec"], str "tolerations", rfl, spec, by simp [change]⟩
    rcases Change.effect (Change.ready_of_effects effects ready separate) with
      ⟨patched, applied, effect⟩
    have path : str "/spec/tolerations" = Json.pointer tolerationsPath := by decide
    refine ⟨patched, ?_, ?_⟩
    · simpa [tolerationPatch, missing, Json.applyPatch, path, change, Change.operation] using applied
    · rw [itemsOf_of_decodeSlice_none tolerations]
      exact effect
  | some list =>
    rw [entries] at tolerations missing
    rw [Option.getD_some] at missing
    have isArray : middle.get ([str "spec"] ++ [str "tolerations"]) =
        some (.arr (itemsOf (raw.get tolerationsPath))) :=
      (effects.apart tolerationsPath separate).trans (exists_arr_of_decodeSlice tolerations)
    have parsed : Json.parsePointer (str "/spec/tolerations/-") =
        some [str "spec", str "tolerations", [byte '-']] := by decide
    have added : Json.addAt [byte '-'] tolerationJson
        (.arr (itemsOf (raw.get tolerationsPath))) =
          some (.arr (itemsOf (raw.get tolerationsPath) ++ [tolerationJson])) := by
      simp [Json.addAt]
    rcases Json.effect_of_modify_at isArray added with
      ⟨patched, modified, effect⟩
    refine ⟨patched, ?_, effect⟩
    simpa [tolerationPatch, missing, Json.applyPatch, Json.Operation.apply, parsed] using modified

theorem path_of_mem_tolerationChanges
    (mem : change ∈ tolerationChanges raw pod.tolerations) : change.path = tolerationsPath := by
  unfold tolerationChanges at mem
  split_ifs at mem with tolerated
  · cases mem
  · rw [List.mem_singleton.mp mem]

theorem applyPatch_tolerations
    (decoded : DecodedFrom raw pod) (spec : (raw.get [str "spec"]).map Json.shape = some .obj)
    (effects : Json.Effects changes raw middle)
    (separate : ∀ change ∈ changes, Apart change.path tolerationsPath) :
    ∃ patched, Json.applyPatch (tolerationPatch pod.tolerations) middle = some patched ∧
      Json.Effects (changes ++ tolerationChanges raw pod.tolerations) raw patched := by
  unfold tolerationChanges
  by_cases tolerated : toleratesGPUNode (pod.tolerations.getD []) = true
  · refine ⟨middle, by simp [tolerationPatch, tolerated, Json.applyPatch], ?_⟩
    simpa [tolerated] using effects
  · rw [Bool.not_eq_true] at tolerated
    rcases effect_tolerations decoded spec effects separate tolerated with
      ⟨patched, applied, effect⟩
    refine ⟨patched, applied, ?_⟩
    simpa [tolerated] using effects.snoc effect separate

end Apply

theorem tolerates_of_toleratesGPUNode {toleration : Toleration}
    (isOurs : (toleration.key == resourceName &&
      (toleration.effect == [] || toleration.effect == str "NoSchedule") &&
      (toleration.operator == str "Exists" ||
        toleration.operator == str "Equal" && toleration.value == str "true"))) :
    toleration.tolerates resourceName (str "true") (str "NoSchedule") := by
  have isExists : (str "Exists" == []) = false ∧ (str "Exists" == str "Equal") = false := by decide
  simp only [Bool.and_eq_true, Bool.or_eq_true, beq_iff_eq] at isOurs
  rcases isOurs with ⟨⟨key, effect⟩, operator | ⟨operator, value⟩⟩
  · simp [Toleration.tolerates, key, effect, operator, isExists]
  · simp [Toleration.tolerates, key, effect, operator, value]

/-- A Pod with one NVIDIA name, and what all changes together make of its raw object. -/
structure Patched (raw patched : Json) (pod : Pod quantities) (nvidia : Str) : Prop where
  decoded : DecodedFrom raw pod
  typed : PodTyped quantities raw
  names : ∀ name, pod.Names name ↔ name = nvidia
  acceptable : ∀ site, Acceptable (pod.listAt site)
  effects : Json.Effects (podChanges pod ++ [annotationChange pod.annotations nvidia] ++
    tolerationChanges raw pod.tolerations) raw patched

namespace Patched

variable {patched : Json} {nvidia : Str} (made : Patched raw patched pod nvidia)

include made

theorem exists_hasAlias : ∃ site, HasAlias raw site nvidia := by
  rcases (made.names nvidia).mpr rfl with ⟨site, quantity, mem⟩
  exact ⟨site, (hasAlias_iff made.decoded made.typed).mpr ⟨quantity, mem⟩⟩

variable {site : Site} {name : Str} {path : List Str}

theorem eq_nvidia (has : HasAlias raw site name) : name = nvidia := by
  rcases (hasAlias_iff made.decoded made.typed).mp has with ⟨quantity, mem⟩
  exact (made.names name).mp ⟨site, quantity, mem⟩

/-- What is apart from the places that a Pod is rewritten at and from the annotations is apart from
all changes. -/
theorem apart_of_rewrites
    (separate : ∀ changed, Rewrites raw changed → Apart changed path) {change : Change}
    (annotations : Apart (annotationChange pod.annotations nvidia).path path)
    (mem : change ∈ podChanges pod ++ [annotationChange pod.annotations nvidia] ++
      tolerationChanges raw pod.tolerations) : Apart change.path path := by
  rcases made.exists_hasAlias with ⟨site, has⟩
  rcases List.mem_append.mp mem with mem | mem
  · rcases List.mem_append.mp mem with mem | mem
    · exact separate _ (rewrites_of_mem_podChanges made.decoded made.typed mem)
    · rwa [List.mem_singleton.mp mem]
  · rw [path_of_mem_tolerationChanges mem]
    exact separate _ (.tolerations has)

theorem get_annotations (key : Str) (rest : List Str) :
    patched.get (annotationsPath ++ key :: rest) =
      if key = compatAnnotation then (Json.str nvidia).get rest
      else raw.get (annotationsPath ++ key :: rest) := by
  have mem : annotationChange pod.annotations nvidia ∈
      podChanges pod ++ [annotationChange pod.annotations nvidia] ++
        tolerationChanges raw pod.tolerations := by
    simp
  have under := made.effects.under _ mem
  have annotations : decodeMap (fun value => decodeString value) (raw.get annotationsPath) =
    some pod.annotations := made.decoded.annotations
  cases entries : pod.annotations with
  | none =>
    rw [entries] at under annotations
    have missing : raw.get (annotationsPath ++ key :: rest) = none := by
      rw [Json.get_append, Json.bind_get_cons, child_of_decodeMap_none annotations]
      rfl
    rw [missing]
    simp only [annotationChange] at under
    rw [under, Option.bind_some, Json.get_cons, Json.child_object]
    simp only [List.mem_singleton]
    split_ifs <;> rfl
  | some list =>
    split_ifs with ours
    · rw [entries] at under
      simp only [annotationChange, List.append_assoc, List.singleton_append] at under
      rw [ours, under]
      rfl
    · apply made.effects.apart
      rcases made.exists_hasAlias with ⟨site, has⟩
      intro change isChange
      refine made.apart_of_rewrites (fun _ rewrites => rewrites.apart_annotations ours rest) ?_
        isChange
      rw [entries]
      exact (Rewrites.annotated has).apart_annotations ours rest

theorem get_of_apart (separate : ∀ changed, Rewrites raw changed → Apart changed path) :
    patched.get path = raw.get path := by
  rcases made.exists_hasAlias with ⟨site, has⟩
  have fromOurs := separate _ (.annotated has)
  by_cases leads : annotationsPath <+: path
  · rcases leads with ⟨rest, rfl⟩
    cases rest with
    | nil => exact absurd (by simp) fromOurs.2
    | cons key rest =>
      have other : key ≠ compatAnnotation := by
        rintro rfl
        exact fromOurs.1 (by simp [List.prefix_append_right_inj, List.cons_prefix_cons])
      rw [made.get_annotations, if_neg other]
  · apply made.effects.apart
    intro change mem
    apply made.apart_of_rewrites separate _ mem
    cases pod.annotations with
    | none => exact ⟨leads, fun above => fromOurs.2 (above.trans (List.prefix_append _ _))⟩
    | some list => exact fromOurs

theorem shape_of_not_prefix
    (notUnder : ∀ changed, Rewrites raw changed → ¬changed <+: path) (other : path ≠ annotationsPath) :
    (patched.get path).map Json.shape = (raw.get path).map Json.shape := by
  rcases made.exists_hasAlias with ⟨site, has⟩
  have notOurs := notUnder _ (.annotated has)
  by_cases leads : annotationsPath <+: path
  · rcases leads with ⟨rest, rfl⟩
    cases rest with
    | nil => exact absurd (List.append_nil _) other
    | cons key rest =>
      have notKey : key ≠ compatAnnotation := by
        rintro rfl
        exact notOurs (by simp [List.prefix_append_right_inj, List.cons_prefix_cons])
      rw [made.get_annotations, if_neg notKey]
  · apply made.effects.above
    intro change mem under
    rcases List.mem_append.mp mem with mem | mem
    · rcases List.mem_append.mp mem with mem | mem
      · exact notUnder _ (rewrites_of_mem_podChanges made.decoded made.typed mem) under
      · rw [List.mem_singleton.mp mem] at under
        cases entries : pod.annotations with
        | none =>
          rw [entries] at under
          exact leads under
        | some list =>
          rw [entries] at under
          exact notOurs under
    · rw [path_of_mem_tolerationChanges mem] at under
      exact notUnder _ (.tolerations has) under

theorem annotations_form : (patched.get annotationsPath).map Json.shape = some .obj := by
  have annotations : decodeMap (fun value => decodeString value) (raw.get annotationsPath) =
    some pod.annotations := made.decoded.annotations
  have effects := made.effects
  cases entries : pod.annotations with
  | none =>
    rw [entries] at effects
    have under := effects.under (annotationChange none nvidia) (by simp) []
    exact congrArg (Option.map Json.shape) under
  | some list =>
    rw [entries] at effects annotations
    rw [effects.above, shape_of_decodeMap annotations]
    intro change mem under
    rcases List.mem_append.mp mem with mem | mem
    · rcases List.mem_append.mp mem with mem | mem
      · rcases exists_podChanges_path mem with ⟨rest, path⟩
        rw [path] at under
        exact (apart_of_head_ne spec_ne_metadata).1 under
      · rw [List.mem_singleton.mp mem] at under
        have shorter := under.length_le
        simp [annotationChange, annotationsPath] at shorter
    · rw [path_of_mem_tolerationChanges mem] at under
      exact (apart_of_head_ne spec_ne_metadata).1 under

variable {quantity : quantities.Quantity} {value : Json}

theorem get_resource (mem : (name, quantity) ∈ aliases (pod.listAt site)) :
    patched.get (site.path ++ [resourceName]) = some (.str (quantities.format quantity)) ∧
      patched.get (site.path ++ [name]) = none := by
  have changes : ∀ change ∈ siteChanges site (pod.listAt site), change ∈ podChanges pod ++
      [annotationChange pod.annotations nvidia] ++ tolerationChanges raw pod.tolerations := by
    intro change isChange
    simp [mem_podChanges.mpr ⟨site, isChange⟩]
  have added := made.effects.under _ (changes _ (List.mem_flatMap.mpr ⟨_, mem, List.mem_cons_self⟩)) []
  have removed := made.effects.under _ (changes _ (List.mem_flatMap.mpr ⟨_, mem,
    List.mem_cons_of_mem _ (List.mem_singleton_self _)⟩)) []
  exact ⟨added, removed⟩

theorem parse_resource (mem : (name, quantity) ∈ aliases (pod.listAt site)) :
    ∃ new read, patched.get (site.path ++ [resourceName]) = some new ∧
      quantities.parse new = some read ∧ quantities.value read = quantities.value quantity := by
  rcases quantities.parse_format quantity with ⟨read, parsed, same⟩
  exact ⟨_, read, (made.get_resource mem).1, parsed, same⟩

theorem quantity_of_found (found : raw.get (site.path ++ [name]) = some value) :
    ∃ quantity, quantities.parse value = some quantity ∧ (name, quantity) ∈ pod.listAt site := by
  rcases Option.isSome_iff_exists.mp (made.typed.quantity found) with ⟨quantity, parsed⟩
  refine ⟨quantity, parsed, ?_⟩
  rw [made.decoded.mem_listAt made.typed, found]
  exact parsed

theorem kept (found : raw.get (site.path ++ [resourceName]) = some value) :
    ∃ quantity new read, quantities.parse value = some quantity ∧
      patched.get (site.path ++ [resourceName]) = some new ∧
      quantities.parse new = some read ∧ quantities.value read = quantities.value quantity := by
  rcases made.quantity_of_found found with ⟨quantity, parsed, isEntry⟩
  rcases rewrites_or_apart raw site resourceName with rewrites | separate
  · rcases rewrites.hasAlias with ⟨name, has, _⟩
    rcases (hasAlias_iff made.decoded made.typed).mp has with ⟨nvidiaQuantity, mem⟩
    rcases made.parse_resource mem with ⟨new, read, isNew, isRead, same⟩
    have agrees := (made.acceptable site).agrees name nvidiaQuantity quantity has.1
      (mem_aliases.mp mem).1 isEntry
    exact ⟨quantity, new, read, parsed, isNew, isRead, same.trans agrees.symm⟩
  · exact ⟨quantity, value, quantity, parsed, (made.get_of_apart separate).trans found, parsed, rfl⟩

theorem no_alias (site : Site) (isNvidia : isAlias name) :
    patched.get (site.path ++ [name]) = none := by
  by_cases has : HasAlias raw site name
  · rcases (hasAlias_iff made.decoded made.typed).mp has with ⟨quantity, mem⟩
    exact (made.get_resource mem).2
  · rcases rewrites_or_apart raw site name with rewrites | separate
    · rcases rewrites.hasAlias with ⟨other, hasOther, rfl | rfl⟩
      · cases not_isAlias_resourceName.symm.trans isNvidia
      · exact absurd hasOther has
    · rw [made.get_of_apart separate]
      by_contra isThere
      exact has ⟨isNvidia, Option.isSome_iff_ne_none.mpr isThere⟩

theorem get_tolerations : patched.get tolerationsPath =
    if toleratesGPUNode (pod.tolerations.getD []) then raw.get tolerationsPath
    else some (.arr (itemsOf (raw.get tolerationsPath) ++ [tolerationJson])) := by
  have effects := made.effects
  unfold tolerationChanges at effects
  split_ifs at effects ⊢ with tolerated
  · apply effects.apart
    intro change mem
    rw [List.append_nil] at mem
    exact apart_tolerations mem
  · have under := effects.under _ (List.mem_append_right _ (List.mem_singleton_self _)) []
    rwa [List.append_nil] at under

theorem tolerated : ∃ item ∈ itemsOf (patched.get tolerationsPath), ∃ toleration,
    decodeToleration item = some toleration ∧
      toleration.tolerates resourceName (str "true") (str "NoSchedule") := by
  rw [made.get_tolerations]
  split_ifs with tolerated
  · unfold toleratesGPUNode at tolerated
    rw [List.any_eq_true] at tolerated
    rcases tolerated with ⟨toleration, mem, isOurs⟩
    rcases List.getElem?_of_mem mem with ⟨i, found⟩
    have tolerations := made.decoded.tolerations
    have slice := made.typed.tolerations
    rw [getElem?_decodeSlice tolerations, ← getElem?_itemsOf slice,
      Option.bind_eq_some_iff] at found
    rcases found with ⟨item, isItem, isDecoded⟩
    refine ⟨item, List.mem_of_getElem? isItem, toleration, isDecoded, ?_⟩
    exact tolerates_of_toleratesGPUNode isOurs
  · exact ⟨tolerationJson, by simp [itemsOf], _, decodeToleration_tolerationJson, by decide⟩

theorem mapped : Mapped quantities raw patched where
  no_alias := fun site _ isNvidia => made.no_alias site isNvidia
  mapped := by
    intro site name value isNvidia found
    rcases made.quantity_of_found found with ⟨quantity, parsed, isEntry⟩
    rcases made.parse_resource (mem_aliases.mpr ⟨isEntry, isNvidia⟩) with ⟨new, read, isNew, rest⟩
    exact ⟨quantity, new, read, parsed, isNew, rest⟩
  kept := fun _ _ found => made.kept found
  annotated := by
    intro site name has
    rw [made.get_annotations, if_pos rfl, made.eq_nvidia has]
    rfl
  tolerated := fun _ _ _ => made.tolerated
  tolerations := by
    rw [made.get_tolerations]
    split_ifs
    · exact Or.inl rfl
    · exact Or.inr rfl
  unchanged := fun _ separate => made.get_of_apart separate
  form := fun _ notUnder other => made.shape_of_not_prefix notUnder other
  annotations_form := Or.inr made.annotations_form

end Patched

theorem mapped_of_plain (typed : PodTyped quantities raw)
    (plain : ∀ site name, ¬HasAlias raw site name) : Mapped quantities raw raw where
  no_alias := by
    intro site name isNvidia
    by_contra isThere
    exact plain site name ⟨isNvidia, Option.isSome_iff_ne_none.mpr isThere⟩
  mapped := fun site name value isNvidia found =>
    (plain site name ⟨isNvidia, by simp [found]⟩).elim
  kept := by
    intro site value found
    rcases Option.isSome_iff_exists.mp (typed.quantity found) with ⟨quantity, parsed⟩
    exact ⟨quantity, value, quantity, parsed, found, parsed, rfl⟩
  annotated := fun site name has => (plain site name has).elim
  tolerated := fun site name has => (plain site name has).elim
  tolerations := Or.inl rfl
  unchanged := fun _ _ => rfl
  form := fun _ _ _ => rfl
  annotations_form := Or.inl rfl

theorem plain_of_no_names (decoded : DecodedFrom raw pod) (typed : PodTyped quantities raw)
    (noNames : ∀ name, ¬pod.Names name) (site : Site) (name : Str) : ¬HasAlias raw site name := by
  intro has
  rcases (hasAlias_iff decoded typed).mp has with ⟨quantity, mem⟩
  exact noNames name ⟨site, quantity, mem⟩

theorem mutateAdmission_of_plain {request : AdmissionRequest} {json : Json}
    (isCreation : request.operation = str "CREATE" ∧ request.group = [] ∧
      request.kind = str "Pod") (object : request.object = some json)
    (typed : PodTyped quantities json) (plain : ∀ site name, ¬HasAlias json site name) :
    mutateAdmission quantities request = .allowed none := by
  rcases Option.isSome_iff_exists.mp (isSome_decodePod.mpr typed) with ⟨pod, isPod⟩
  have none := nvidiaCompatibilityPatches_of_plain
    (eq_false_of_no_alias (decodedFrom isPod) typed plain)
  simp [mutateAdmission, isCreation, object, isPod, none]

theorem patched_of_patches {patches : List Json.Operation} {nvidia : Str}
    (decoded : DecodedFrom raw pod) (typed : PodTyped quantities raw)
    (metadata : (raw.get [str "metadata"]).map Json.shape = some .obj)
    (spec : (raw.get [str "spec"]).map Json.shape = some .obj)
    (names : ∀ name, pod.Names name ↔ name = nvidia)
    (acceptable : ∀ kind, ∀ container ∈ pod.containersOf kind, ∀ list,
      Acceptable ((container.listOf list).getD []))
    (isPatch : patches = (podChanges pod).map Change.operation ++
      [annotationPatch pod.annotations nvidia] ++ tolerationPatch pod.tolerations) :
    ∃ patched, Json.applyPatch patches raw = some patched ∧ Patched raw patched pod nvidia := by
  have ready : ∀ change ∈ podChanges pod ++ [annotationChange pod.annotations nvidia],
      change.Ready raw := by
    intro change mem
    rcases List.mem_append.mp mem with mem | mem
    · exact ready_of_mem_podChanges decoded typed mem
    · rw [List.mem_singleton.mp mem]
      exact ready_annotationChange decoded metadata nvidia
  rcases Json.applyPatch_changes ready (pairwise_changes acceptable nvidia) with
    ⟨middle, applied, effects⟩
  rcases applyPatch_tolerations decoded spec effects fun _ mem => apart_tolerations mem with
    ⟨patched, appliedLast, effects⟩
  refine ⟨patched, ?_, decoded, typed, names, fun site => acceptable_listAt (acceptable _) _ _,
    effects⟩
  rw [isPatch, annotationPatch_eq, Json.applyPatch, List.foldlM_append]
  rw [List.map_append, List.map_singleton, Json.applyPatch] at applied
  rw [applied]
  exact appliedLast

/-- A Pod that the webhook lets through is patched to the one that was meant, and then it has
nothing more to say. -/
theorem allowed_pod_mapped (quantities : Quantities) (request : AdmissionRequest) (raw : Json)
    (patch : Option (List Json.Operation))
    (isCreation : request.operation = str "CREATE" ∧ request.group = [] ∧
      request.kind = str "Pod") (object : request.object = some raw)
    (metadata : (raw.get [str "metadata"]).map Json.shape = some .obj)
    (spec : (raw.get [str "spec"]).map Json.shape = some .obj)
    (allowed : mutateAdmission quantities request = .allowed patch) :
    ∃ patched, Json.applyPatch (patch.getD []) raw = some patched ∧
      Mapped quantities raw patched ∧
      mutateAdmission quantities { request with object := some patched } = .allowed none := by
  simp only [mutateAdmission, isCreation, object, ne_eq, not_true_eq_false, or_self, if_false,
    Option.bind_some] at allowed
  cases isPod : decodePod quantities raw with
  | none => simp [isPod] at allowed
  | some pod =>
    have decoded := decodedFrom isPod
    have typed : PodTyped quantities raw := isSome_decodePod.mp (by simp [isPod])
    simp only [isPod] at allowed
    cases result : nvidiaCompatibilityPatches quantities pod with
    | error message => simp [result] at allowed
    | ok answer =>
      rcases answer with ⟨patches, names⟩
      rcases patches_of_nvidiaCompatibilityPatches (decoded.nodup_listAt typed) result with
        ⟨rfl, noNames⟩ | ⟨nvidia, rfl, isName, acceptable, isPatch⟩
      · simp only [result, AdmissionResponse.allowed.injEq] at allowed
        subst allowed
        have plain := plain_of_no_names decoded typed noNames
        exact ⟨raw, rfl, mapped_of_plain typed plain,
          mutateAdmission_of_plain isCreation rfl typed plain⟩
      · simp only [result, AdmissionResponse.allowed.injEq] at allowed
        subst allowed
        rcases patched_of_patches decoded typed metadata spec isName acceptable isPatch with
          ⟨patched, applied, made⟩
        have mapped := made.mapped
        have plain : ∀ site name, ¬HasAlias patched site name := by
          rintro site name ⟨isNvidia, isThere⟩
          rw [mapped.no_alias site name isNvidia] at isThere
          cases isThere
        exact ⟨patched, applied, mapped,
          mutateAdmission_of_plain isCreation rfl (mapped.podTyped typed) plain⟩

def decimals : Quantities where
  Quantity := ℕ
  parse
    | .str text => Str.parseDigits text
    | _ => none
  format := Str.formatNat
  value := fun n => n
  parse_format := fun n => ⟨n, Str.parseDigits_formatNat n, rfl⟩

def member (key : Str) (value : Json) : Json :=
  Json.object [key] (List.nodup_singleton key) fun _ => value

def gpuPod : Json :=
  Json.object [str "metadata", str "spec"] (by decide) fun key =>
    if key = str "metadata" then member (str "name") (.str (str "job"))
    else member (str "containers") (.arr [member (str "resources") (member (str "limits")
      (member (str "nvidia.com/gpu") (.str (str "1"))))])

theorem gpuPod_mapped : ∃ patch patched,
    mutateAdmission decimals ⟨str "CREATE", [], str "Pod", some gpuPod⟩ = .allowed (some patch) ∧
    Json.applyPatch patch gpuPod = some patched ∧ Mapped decimals gpuPod patched := by
  have allowed : ∃ patch, mutateAdmission decimals ⟨str "CREATE", [], str "Pod", some gpuPod⟩ =
      .allowed (some patch) := ⟨_, rfl⟩
  rcases allowed with ⟨patch, allowed⟩
  rcases allowed_pod_mapped decimals _ gpuPod (some patch) ⟨rfl, rfl, rfl⟩ rfl rfl rfl allowed with
    ⟨patched, applied, mapped, _⟩
  exact ⟨patch, patched, allowed, applied, mapped⟩

end Kiac.Gpu
