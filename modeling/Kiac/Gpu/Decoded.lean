import Kiac.Gpu.Webhook

/-!
# A Pod and its raw object

A Pod is decoded from its raw object exactly if the values at certain paths have the right form,
and its resource lists are what is found at their paths. The patch is about the raw object and the
webhook about the decoded one; what is said here links the two.
-/

namespace Kiac.Gpu

open Json (Shape)

def Record (json : Option Json) : Prop :=
  json.map Json.shape = none ∨ json.map Json.shape = some (.leaf .null) ∨
    json.map Json.shape = some .obj

def Slice (json : Option Json) : Prop :=
  json.map Json.shape = none ∨ json.map Json.shape = some (.leaf .null) ∨
    ∃ length, json.map Json.shape = some (.arr length)

def Text (json : Option Json) : Prop :=
  json.map Json.shape = none ∨ json.map Json.shape = some (.leaf .null) ∨
    ∃ text, json.map Json.shape = some (.leaf (.str text))

section Fields

variable {α β : Type} {json : Option Json} {key : Str}

variable {next : α → Option β} {holds : Prop} {item : Json → Option α}

theorem isSome_bind_iff {first : Option α} (same : ∀ value, (next value).isSome ↔ holds) :
    (first.bind next).isSome ↔ first.isSome ∧ holds := by
  cases first with
  | none => simp
  | some value => simpa using same value

theorem isSome_bind_field {next : Option Json → Option β} :
    ((field key json).bind next).isSome ↔
      Record json ∧ (next (json.bind (Json.child key))).isSome := by
  rcases json with _ | _ | _ | _ | _ | _ | _ <;> simp [field, Record, Json.shape, Json.child]

theorem isSome_bind_decode {decode : Option Json → Option α}
    (same : ∀ value, (next value).isSome ↔ holds) :
    ((field key json).bind fun found => (decode found).bind next).isSome ↔
      Record json ∧ (decode (json.bind (Json.child key))).isSome ∧ holds :=
  isSome_bind_field.trans (and_congr_right' (isSome_bind_iff same))

theorem field_eq_some {found : Option Json} (isField : field key json = some found) :
    found = json.bind (Json.child key) := by
  rcases json with _ | _ | _ | _ | _ | _ | _ <;> cases isField <;> rfl

theorem isSome_decodeString : (decodeString json).isSome ↔ Text json := by
  rcases json with _ | _ | _ | _ | _ | _ | _ <;> simp [decodeString, Text, Json.shape]

theorem isSome_mapM {item : α → Option β} {items : List α} :
    (items.mapM item).isSome ↔ ∀ value ∈ items, (item value).isSome := by
  induction items with
  | nil => simp
  | cons value items ih =>
    rw [List.mapM_cons]
    simp only [Option.bind_eq_bind, List.mem_cons, forall_eq_or_imp]
    apply isSome_bind_iff
    rw [← ih]
    cases items.mapM item <;> simp

theorem isSome_decodeSlice :
    (decodeSlice item json).isSome ↔ Slice json ∧
      ∀ i value, json.bind (Json.child (Str.formatNat i)) = some value → (item value).isSome := by
  rcases json with _ | _ | _ | _ | _ | items | _
  case some.arr =>
    have slice : Slice (some (.arr items)) := Or.inr (Or.inr ⟨items.length, rfl⟩)
    simp only [decodeSlice, Option.isSome_map, isSome_mapM, slice, true_and, Option.bind_some,
      Json.child_arr]
    constructor
    · intro all i value found
      exact all value (List.mem_of_getElem? found)
    · intro all value mem
      rcases List.getElem?_of_mem mem with ⟨i, found⟩
      exact all i value found
  all_goals simp [decodeSlice, Slice, Json.shape, Json.child]

theorem isSome_decodeMap :
    (decodeMap item json).isSome ↔ Record json ∧
      ∀ key value, json.bind (Json.child key) = some value → (item value).isSome := by
  rcases json with _ | _ | _ | _ | _ | _ | ⟨keys, unique, vals⟩
  case some.obj =>
    have record : Record (some (.obj keys unique vals)) := Or.inr (Or.inr rfl)
    simp only [decodeMap, Option.isSome_map, isSome_mapM, record, true_and, Option.bind_some]
    constructor
    · intro all key value found
      have member : key ∈ keys := by
        by_contra absent
        simp [Json.child, absent] at found
      simpa [found] using all key member
    · intro all key member
      have found : (Json.obj keys unique vals).child key = some (vals ⟨key, member⟩) := by
        simp [Json.child, member]
      simpa [found] using all key _ found
  all_goals simp [decodeMap, Record, Json.shape, Json.child]

end Fields

section Values

variable {α β : Type} {json : Option Json}

variable {item : α → Option β} {items : List α} {results : List β} {keys : List Str}
  {related : α → β → Prop} {left : List α} {right : List β} {value : α}

theorem forall₂_mapM (mapped : items.mapM item = some results) :
    List.Forall₂ (fun value result => item value = some result) items results := by
  induction items generalizing results with
  | nil =>
    cases mapped
    exact List.Forall₂.nil
  | cons value items ih =>
    rw [List.mapM_cons] at mapped
    simp only [Option.bind_eq_bind, Option.bind_eq_some_iff] at mapped
    rcases mapped with ⟨first, isFirst, rest, isRest, same⟩
    cases same
    exact List.Forall₂.cons isFirst (ih isRest)

theorem getElem?_of_forall₂
    (related : List.Forall₂ (fun value result => item value = some result) items results) (i : ℕ) :
    results[i]? = items[i]?.bind item := by
  induction related generalizing i with
  | nil => simp
  | cons first rest ih =>
    cases i with
    | zero => simp [first]
    | succ i => simpa using ih i

variable {item : Json → Option α} {entries : Option (List (Str × α))}

theorem getElem?_decodeSlice {items : Option (List α)}
    (decoded : decodeSlice item json = some items) (i : ℕ) :
    (items.getD [])[i]? = (json.bind (Json.child (Str.formatNat i))).bind item := by
  rcases json with _ | _ | _ | _ | _ | values | _
  case some.arr =>
    simp only [decodeSlice, Option.map_eq_some_iff] at decoded
    rcases decoded with ⟨results, mapped, rfl⟩
    rw [Option.bind_some, Json.child_arr]
    exact getElem?_of_forall₂ (forall₂_mapM mapped) i
  all_goals cases decoded <;> simp [Json.child]

theorem forall₂_decodeMap {unique : keys.Nodup} {vals : {key // key ∈ keys} → Json}
    (decoded : decodeMap item (some (.obj keys unique vals)) = some entries) :
    List.Forall₂ (fun key entry => entry.1 = key ∧
      ((Json.obj keys unique vals).child key).bind item = some entry.2) keys (entries.getD []) := by
  simp only [decodeMap, Option.map_eq_some_iff] at decoded
  rcases decoded with ⟨results, mapped, rfl⟩
  apply (forall₂_mapM mapped).imp
  intro key entry found
  rw [Option.map_eq_some_iff] at found
  rcases found with ⟨value, isValue, rfl⟩
  exact ⟨rfl, isValue⟩

theorem map_fst_of_forall₂ {holds : Str → Str × α → Prop} {entries : List (Str × α)}
    (related : List.Forall₂ (fun key entry => entry.1 = key ∧ holds key entry) keys entries) :
    entries.map Prod.fst = keys := by
  induction related with
  | nil => rfl
  | cons first rest ih => rw [List.map_cons, first.1, ih]

theorem exists_of_forall₂_right
    (all : List.Forall₂ related left right) {result : β} (mem : result ∈ right) :
    ∃ value ∈ left, related value result := by
  induction all with
  | nil => cases mem
  | cons first rest ih =>
    rcases List.mem_cons.mp mem with rfl | later
    · exact ⟨_, List.mem_cons_self, first⟩
    · rcases ih later with ⟨value, isLater, holds⟩
      exact ⟨value, List.mem_cons_of_mem _ isLater, holds⟩

theorem exists_of_forall₂_left (all : List.Forall₂ related left right) (mem : value ∈ left) :
    ∃ result ∈ right, related value result := by
  rcases exists_of_forall₂_right all.flip mem with ⟨result, isThere, holds⟩
  exact ⟨result, isThere, holds⟩

theorem nodup_decodeMap
    (decoded : decodeMap item json = some entries) : ((entries.getD []).map Prod.fst).Nodup := by
  rcases json with _ | _ | _ | _ | _ | _ | ⟨keys, unique, vals⟩
  case some.obj =>
    rw [map_fst_of_forall₂ (forall₂_decodeMap decoded)]
    exact unique
  all_goals cases decoded <;> simp

theorem mem_decodeMap (decoded : decodeMap item json = some entries) {key : Str} :
    (key, value) ∈ entries.getD [] ↔ (json.bind (Json.child key)).bind item = some value := by
  rcases json with _ | _ | _ | _ | _ | _ | ⟨keys, unique, vals⟩
  case some.obj =>
    have related := forall₂_decodeMap decoded
    constructor
    · intro mem
      rcases exists_of_forall₂_right related mem with ⟨other, _, rfl, found⟩
      exact found
    · intro found
      have member : key ∈ keys := by
        by_contra absent
        simp [Json.child, absent] at found
      rcases exists_of_forall₂_left related member with ⟨⟨other, read⟩, mem, rfl, isRead⟩
      rw [Option.bind_some] at found
      rw [found, Option.some.injEq] at isRead
      rwa [isRead]
  all_goals cases decoded <;> simp [Json.child]

end Values

inductive ContainerKind where
  | initContainers
  | containers
deriving DecidableEq

def ContainerKind.key : ContainerKind → Str
  | initContainers => str "initContainers"
  | containers => str "containers"

inductive ListKind where
  | limits
  | requests
deriving DecidableEq

def ListKind.key : ListKind → Str
  | limits => str "limits"
  | requests => str "requests"

structure Site where
  kind : ContainerKind
  index : ℕ
  list : ListKind
deriving DecidableEq

def containerPath (kind : ContainerKind) (index : ℕ) : List Str :=
  [str "spec", kind.key, Str.formatNat index]

def Site.path (site : Site) : List Str :=
  containerPath site.kind site.index ++ [str "resources", site.list.key]

variable {quantities : Quantities}

def Container.listOf (container : Container quantities) : ListKind → Option (ResourceList quantities)
  | .limits => container.limits
  | .requests => container.requests

def Pod.containersOf (pod : Pod quantities) : ContainerKind → List (Container quantities)
  | .initContainers => pod.initContainers.getD []
  | .containers => pod.containers.getD []

def Pod.listAt (pod : Pod quantities) (site : Site) : ResourceList quantities :=
  ((pod.containersOf site.kind)[site.index]?.bind (·.listOf site.list)).getD []

structure ContainerTyped (quantities : Quantities) (json : Json) : Prop where
  record : Record (some json)
  name : Text (json.get [str "name"])
  resources : Record (json.get [str "resources"])
  list : ∀ list : ListKind, Record (json.get [str "resources", list.key])
  quantity : ∀ (list : ListKind) name value,
    json.get [str "resources", list.key, name] = some value → (quantities.parse value).isSome

structure TolerationTyped (json : Json) : Prop where
  record : Record (some json)
  text : ∀ key ∈ [str "key", str "operator", str "value", str "effect"], Text (json.get [key])

structure PodTyped (quantities : Quantities) (json : Json) : Prop where
  record : Record (some json)
  metadata : Record (json.get [str "metadata"])
  annotations : Record (json.get [str "metadata", str "annotations"])
  annotationText : ∀ key value, json.get [str "metadata", str "annotations", key] = some value →
    Text (some value)
  spec : Record (json.get [str "spec"])
  containers : ∀ kind : ContainerKind, Slice (json.get [str "spec", kind.key])
  container : ∀ kind index value, json.get (containerPath kind index) = some value →
    ContainerTyped quantities value
  tolerations : Slice (json.get [str "spec", str "tolerations"])
  toleration : ∀ index value,
    json.get [str "spec", str "tolerations", Str.formatNat index] = some value →
      TolerationTyped value

variable {json : Json}

theorem isSome_decodeContainer :
    (decodeContainer quantities json).isSome ↔ ContainerTyped quantities json := by
  have decodes : (decodeContainer quantities json).isSome ↔ _ :=
    isSome_bind_decode fun name => isSome_bind_field.trans <| and_congr_right' <|
      isSome_bind_decode fun limits => isSome_bind_decode fun requests => iff_true_intro rfl
  simp only [isSome_decodeString, isSome_decodeMap, Option.bind_some] at decodes
  rw [decodes]
  constructor
  · rintro ⟨record, name, _, resources, ⟨limits, limit⟩, _, ⟨requests, request⟩, _⟩
    refine ⟨record, by simpa using name, by simpa using resources, fun list => ?_, fun list => ?_⟩
    · cases list with
      | limits => simpa [ListKind.key] using limits
      | requests => simpa [ListKind.key] using requests
    · cases list with
      | limits => simpa [ListKind.key] using limit
      | requests => simpa [ListKind.key] using request
  · intro typed
    have resources : Record (json.child (str "resources")) := by simpa using typed.resources
    refine ⟨typed.record, by simpa using typed.name, typed.record, resources, ⟨?_, ?_⟩, resources,
      ⟨?_, ?_⟩, trivial⟩
    · simpa [ListKind.key] using typed.list .limits
    · simpa [ListKind.key] using typed.quantity .limits
    · simpa [ListKind.key] using typed.list .requests
    · simpa [ListKind.key] using typed.quantity .requests

theorem isSome_decodeToleration :
    (decodeToleration json).isSome ↔ TolerationTyped json := by
  have decodes : (decodeToleration json).isSome ↔ _ :=
    isSome_bind_decode fun key => isSome_bind_decode fun operator =>
      isSome_bind_decode fun value => isSome_bind_decode fun effect => iff_true_intro rfl
  simp only [isSome_decodeString, Option.bind_some] at decodes
  rw [decodes]
  constructor
  · rintro ⟨record, key, _, operator, _, value, _, effect, _⟩
    exact ⟨record, by simpa using ⟨key, operator, value, effect⟩⟩
  · intro typed
    rcases typed with ⟨record, text⟩
    simp only [List.forall_mem_cons, Json.get_cons, Json.bind_get_nil] at text
    rcases text with ⟨key, operator, value, effect, _⟩
    exact ⟨record, key, record, operator, record, value, record, effect, trivial⟩

theorem isSome_decodePod :
    (decodePod quantities json).isSome ↔ PodTyped quantities json := by
  have decodes : (decodePod quantities json).isSome ↔ _ :=
    isSome_bind_field.trans <| and_congr_right' <| isSome_bind_decode fun annotations =>
      isSome_bind_field.trans <| and_congr_right' <| isSome_bind_decode fun initContainers =>
        isSome_bind_decode fun containers => isSome_bind_decode fun tolerations =>
          iff_true_intro rfl
  simp only [isSome_decodeMap, isSome_decodeString, isSome_decodeSlice, isSome_decodeContainer,
    isSome_decodeToleration, Option.bind_some] at decodes
  rw [decodes]
  constructor
  · rintro ⟨record, metadata, ⟨annotations, texts⟩, _, spec, ⟨inits, init⟩, _,
      ⟨containers, container⟩, _, ⟨tolerations, toleration⟩, _⟩
    refine ⟨record, by simpa using metadata, by simpa using annotations,
      by simpa using texts, by simpa using spec, fun kind => ?_, fun kind => ?_,
      by simpa using tolerations, by simpa using toleration⟩
    · cases kind with
      | initContainers => simpa [ContainerKind.key] using inits
      | containers => simpa [ContainerKind.key] using containers
    · cases kind with
      | initContainers => simpa [containerPath, ContainerKind.key] using init
      | containers => simpa [containerPath, ContainerKind.key] using container
  · intro typed
    have spec : Record (json.child (str "spec")) := by simpa using typed.spec
    refine ⟨typed.record, by simpa using typed.metadata, ⟨by simpa using typed.annotations,
      by simpa using typed.annotationText⟩, typed.record, spec, ⟨?_, ?_⟩, spec, ⟨?_, ?_⟩, spec,
      ⟨by simpa using typed.tolerations, by simpa using typed.toleration⟩, trivial⟩
    · simpa [ContainerKind.key] using typed.containers .initContainers
    · simpa [containerPath, ContainerKind.key] using typed.container .initContainers
    · simpa [ContainerKind.key] using typed.containers .containers
    · simpa [containerPath, ContainerKind.key] using typed.container .containers

theorem PodTyped.list (typed : PodTyped quantities json) (site : Site) :
    Record (json.get site.path) := by
  rw [Site.path, Json.get_append]
  cases found : json.get (containerPath site.kind site.index) with
  | none => exact Or.inl rfl
  | some value => exact (typed.container _ _ _ found).list site.list

theorem PodTyped.quantity (typed : PodTyped quantities json) {site : Site}
    {name : Str} {value : Json} (found : json.get (site.path ++ [name]) = some value) :
    (quantities.parse value).isSome := by
  rw [Site.path, List.append_assoc, Json.get_append, Option.bind_eq_some_iff] at found
  rcases found with ⟨container, isContainer, found⟩
  exact (typed.container _ _ _ isContainer).quantity _ _ _ found

theorem list_of_decodeContainer {container : Container quantities}
    (decoded : decodeContainer quantities json = some container) (list : ListKind) :
    decodeMap quantities.parse (json.get [str "resources", list.key]) =
      some (container.listOf list) := by
  simp only [decodeContainer, Option.bind_eq_bind, Option.bind_eq_some_iff] at decoded
  rcases decoded with ⟨_, _, name, _, resources, isResources, limitsJson, isLimits, limits, limit,
    requestsJson, isRequests, requests, request, same⟩
  cases same
  cases field_eq_some isResources
  cases field_eq_some isLimits
  cases field_eq_some isRequests
  cases list with
  | limits => simpa [ListKind.key, Container.listOf] using limit
  | requests => simpa [ListKind.key, Container.listOf] using request

structure DecodedFrom (json : Json) (pod : Pod quantities) : Prop where
  annotations : decodeMap (fun value => decodeString value)
    (json.get [str "metadata", str "annotations"]) = some pod.annotations
  containers : ∀ kind : ContainerKind, ∃ containers,
    decodeSlice (decodeContainer quantities) (json.get [str "spec", kind.key]) = some containers ∧
      pod.containersOf kind = containers.getD []
  tolerations : decodeSlice decodeToleration (json.get [str "spec", str "tolerations"]) =
    some pod.tolerations

theorem decodedFrom {pod : Pod quantities}
    (decoded : decodePod quantities json = some pod) : DecodedFrom json pod := by
  simp only [decodePod, Option.bind_eq_bind, Option.bind_eq_some_iff] at decoded
  rcases decoded with ⟨_, isMetadata, _, isAnnotations, annotations, texts, _, isSpec,
    _, isInits, inits, init, _, isContainers, containers, container, _, isTolerations, tolerations,
    toleration, same⟩
  cases same
  cases field_eq_some isMetadata
  cases field_eq_some isAnnotations
  cases field_eq_some isSpec
  cases field_eq_some isInits
  cases field_eq_some isContainers
  cases field_eq_some isTolerations
  refine ⟨by simpa using texts, fun kind => ?_, by simpa using toleration⟩
  cases kind with
  | initContainers => exact ⟨inits, by simpa [ContainerKind.key] using init, rfl⟩
  | containers => exact ⟨containers, by simpa [ContainerKind.key] using container, rfl⟩

namespace DecodedFrom

variable {json : Json} {pod : Pod quantities}

theorem container_eq (decoded : DecodedFrom json pod) (kind : ContainerKind) (index : ℕ) :
    (pod.containersOf kind)[index]? =
      (json.get (containerPath kind index)).bind (decodeContainer quantities) := by
  rcases decoded.containers kind with ⟨containers, isDecoded, same⟩
  rw [same, getElem?_decodeSlice isDecoded]
  simp [containerPath]

theorem listAt_eq (decoded : DecodedFrom json pod) (typed : PodTyped quantities json)
    (site : Site) : ∃ list, pod.listAt site = list.getD [] ∧
      decodeMap quantities.parse (json.get site.path) = some list := by
  unfold Pod.listAt
  rw [decoded.container_eq]
  unfold Site.path
  rw [Json.get_append]
  cases found : json.get (containerPath site.kind site.index) with
  | none => exact ⟨none, rfl, rfl⟩
  | some value =>
    have isTyped := typed.container _ _ _ found
    rw [← isSome_decodeContainer, Option.isSome_iff_exists] at isTyped
    rcases isTyped with ⟨container, isContainer⟩
    refine ⟨container.listOf site.list, by simp [isContainer], ?_⟩
    exact list_of_decodeContainer isContainer site.list

theorem mem_listAt (decoded : DecodedFrom json pod) (typed : PodTyped quantities json)
    {site : Site} {name : Str} {quantity : quantities.Quantity} :
    (name, quantity) ∈ pod.listAt site ↔
      (json.get (site.path ++ [name])).bind quantities.parse = some quantity := by
  rcases decoded.listAt_eq typed site with ⟨list, same, isDecoded⟩
  rw [same, mem_decodeMap isDecoded, Json.get_append, Json.bind_get_cons, Json.bind_get_nil]

theorem nodup_listAt (decoded : DecodedFrom json pod) (typed : PodTyped quantities json)
    (site : Site) : ((pod.listAt site).map Prod.fst).Nodup := by
  rcases decoded.listAt_eq typed site with ⟨list, same, isDecoded⟩
  rw [same]
  exact nodup_decodeMap isDecoded

end DecodedFrom

end Kiac.Gpu
