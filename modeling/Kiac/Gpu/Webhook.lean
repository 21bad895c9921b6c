import Mathlib.Data.List.Sort
import Mathlib.Data.Rat.Defs
import Kiac.Json.Patch

/-!
# The NVIDIA compatibility webhook

The webhook answers a new Pod with a patch for the raw object: each NVIDIA name in the limits and
requests of a container becomes the name of the Venus GPU, an annotation tells which name it was, and
the Pod gets a toleration for the GPU node. Quantities are a parameter. A pointer or a map that is
nil is `none`; a field that is missing or null leaves it so.
-/

namespace Kiac.Gpu

/-- Resource quantities: how they are decoded, their text and the number that they stand for. -/
structure Quantities where
  Quantity : Type
  parse : Json → Option Quantity
  format : Quantity → Str
  value : Quantity → ℚ
  parse_format : ∀ quantity, ∃ read, parse (.str (format quantity)) = some read ∧
    value read = value quantity

section Decode

def field (key : Str) : Option Json → Option (Option Json)
  | none => some none
  | some .null => some none
  | some (.obj keys unique vals) => some ((Json.obj keys unique vals).child key)
  | some _ => none

def decodeString : Option Json → Option Str
  | none => some []
  | some .null => some []
  | some (.str text) => some text
  | some _ => none

def decodeSlice {α : Type} (item : Json → Option α) : Option Json → Option (Option (List α))
  | none => some none
  | some .null => some none
  | some (.arr items) => (items.mapM item).map some
  | some _ => none

def decodeMap {α : Type} (item : Json → Option α) : Option Json → Option (Option (List (Str × α)))
  | none => some none
  | some .null => some none
  | some (.obj keys unique vals) =>
    (keys.mapM fun key => (((Json.obj keys unique vals).child key).bind item).map (key, ·)).map
      some
  | some _ => none

end Decode

structure Toleration where
  key : Str
  operator : Str
  value : Str
  effect : Str
deriving DecidableEq

variable (quantities : Quantities)

abbrev ResourceList := List (Str × quantities.Quantity)

structure Container where
  name : Str
  limits : Option (ResourceList quantities)
  requests : Option (ResourceList quantities)

structure Pod where
  annotations : Option (List (Str × Str))
  initContainers : Option (List (Container quantities))
  containers : Option (List (Container quantities))
  tolerations : Option (List Toleration)

def decodeToleration (json : Json) : Option Toleration := do
  let key ← decodeString (← field (str "key") json)
  let operator ← decodeString (← field (str "operator") json)
  let value ← decodeString (← field (str "value") json)
  let effect ← decodeString (← field (str "effect") json)
  return ⟨key, operator, value, effect⟩

def decodeContainer (json : Json) : Option (Container quantities) := do
  let name ← decodeString (← field (str "name") json)
  let resources ← field (str "resources") json
  let limits ← decodeMap quantities.parse (← field (str "limits") resources)
  let requests ← decodeMap quantities.parse (← field (str "requests") resources)
  return ⟨name, limits, requests⟩

def decodePod (json : Json) : Option (Pod quantities) := do
  let metadata ← field (str "metadata") json
  let annotations ← decodeMap (fun value => decodeString value) (← field (str "annotations") metadata)
  let spec ← field (str "spec") json
  let initContainers ←
    decodeSlice (decodeContainer quantities) (← field (str "initContainers") spec)
  let containers ← decodeSlice (decodeContainer quantities) (← field (str "containers") spec)
  let tolerations ← decodeSlice decodeToleration (← field (str "tolerations") spec)
  return ⟨annotations, initContainers, containers, tolerations⟩

def resourceName : Str := str "kiac.dev/gpu"

def compatAnnotation : Str := str "kiac.dev/rewrote-gpu-resource"

def isAlias (name : Str) : Bool :=
  name == str "nvidia.com/gpu" || name.hasPrefix (str "nvidia.com/mig-")

/-- `strings.ReplaceAll` of one byte. -/
def replaceAll (old : UInt8) (new : Str) (text : Str) : Str :=
  text.flatMap fun b => if b = old then new else [b]

def jsonPointerToken (value : Str) : Str :=
  replaceAll (byte '/') (str "~1") (replaceAll (byte '~') (str "~0") value)

structure Rewriting where
  patches : List Json.Operation
  rewritten : List Str

def rewriteName (path : Str) (state : ResourceList quantities × Rewriting) (name : Str) :
    Except Str (ResourceList quantities × Rewriting) :=
  let (list, rewriting) := state
  match list.lookup name with
  | none => .ok state
  | some quantity =>
    if !isAlias name then .ok state
    else
      let clash := (list.lookup resourceName).filter fun existing =>
        quantities.value existing ≠ quantities.value quantity
      match clash with
      | some existing =>
        .error (str "cannot combine " ++ name ++ str "=" ++ quantities.format quantity ++
          str " with " ++ resourceName ++ str "=" ++ quantities.format existing)
      | none =>
        .ok ((resourceName, quantity) ::
            list.filter fun entry => entry.1 ≠ name ∧ entry.1 ≠ resourceName,
          { patches := rewriting.patches ++
              [.add (path ++ str "/" ++ jsonPointerToken resourceName)
                  (.str (quantities.format quantity)),
                .remove (path ++ str "/" ++ jsonPointerToken name)]
            rewritten := rewriting.rewritten.insert name })

def rewriteList (base name : Str) (list : Option (ResourceList quantities))
    (rewriting : Rewriting) : Except Str Rewriting :=
  let entries := list.getD []
  let keys := entries.map Prod.fst
  if (keys.filter fun key => isAlias key).length > 1 then
    .error (str "cannot combine multiple NVIDIA GPU resource names in " ++ name)
  else
    ((keys.insertionSort (· ≤ ·)).foldlM (rewriteName quantities (base ++ str "/" ++ name))
      (entries, rewriting)).map Prod.snd

def rewriteRequirements (container : Container quantities) (base : Str) (rewriting : Rewriting) :
    Except Str Rewriting := do
  let rewriting ← rewriteList quantities base (str "limits") container.limits rewriting
  rewriteList quantities base (str "requests") container.requests rewriting

/-- The loop over the containers of one kind, from the one with the given index on. -/
def rewriteContainers (start noun : Str) (index : ℕ) (rewriting : Rewriting) :
    List (Container quantities) → Except Str Rewriting
  | [] => .ok rewriting
  | container :: containers =>
    match rewriteRequirements quantities container (start ++ Str.formatNat index ++ str "/resources")
        rewriting with
    | .error err => .error (noun ++ str " " ++ container.name ++ str ": " ++ err)
    | .ok rewriting => rewriteContainers start noun (index + 1) rewriting containers

def toleratesGPUNode (tolerations : List Toleration) : Bool :=
  tolerations.any fun toleration =>
    toleration.key == resourceName &&
      (toleration.effect == [] || toleration.effect == str "NoSchedule") &&
      (toleration.operator == str "Exists" ||
        toleration.operator == str "Equal" && toleration.value == str "true")

def tolerationJson : Json :=
  Json.object [str "key", str "operator", str "value", str "effect"] (by decide) fun key =>
    if key = str "key" then .str resourceName
    else if key = str "operator" then .str (str "Equal")
    else if key = str "value" then .str (str "true")
    else .str (str "NoSchedule")

def annotationPatch (annotations : Option (List (Str × Str))) (nvidia : Str) : Json.Operation :=
  match annotations with
  | none =>
    .add (str "/metadata/annotations")
      (Json.object [ compatAnnotation] (List.nodup_singleton _) fun _ => .str nvidia)
  | some _ => .add (str "/metadata/annotations/" ++ jsonPointerToken compatAnnotation) (.str nvidia)

def tolerationPatch (tolerations : Option (List Toleration)) : List Json.Operation :=
  if toleratesGPUNode (tolerations.getD []) then []
  else
    match tolerations with
    | none => [.add (str "/spec/tolerations") (.arr [tolerationJson])]
    | some _ => [.add (str "/spec/tolerations/-") tolerationJson]

/-- The patch and the names that it rewrites; there is nothing to do if there are none. -/
def nvidiaCompatibilityPatches (pod : Pod quantities) : Except Str (List Json.Operation × List Str) := do
  let rewriting ← rewriteContainers quantities (str "/spec/initContainers/") (str "init container") 0
    ⟨[], []⟩ (pod.initContainers.getD [])
  let rewriting ← rewriteContainers quantities (str "/spec/containers/") (str "container") 0
    rewriting (pod.containers.getD [])
  match rewriting.rewritten with
  | [] => return ([], [])
  | [nvidia] =>
    return (rewriting.patches ++ [annotationPatch pod.annotations nvidia] ++
      tolerationPatch pod.tolerations, [nvidia])
  | aliases =>
    throw (str "cannot combine multiple NVIDIA GPU resource names: " ++
      (str ", ").intercalate (aliases.insertionSort (· ≤ ·)))

structure AdmissionRequest where
  operation : Str
  group : Str
  kind : Str
  /-- The raw object, unless it is not JSON at all. -/
  object : Option Json

inductive Denial where
  | decode
  | combine (message : Str)

inductive AdmissionResponse where
  | allowed (patch : Option (List Json.Operation))
  | denied (denial : Denial)

def mutateAdmission (request : AdmissionRequest) : AdmissionResponse :=
  if request.operation ≠ str "CREATE" ∨ request.group ≠ [] ∨ request.kind ≠ str "Pod" then
    .allowed none
  else
    match request.object.bind (decodePod quantities) with
    | none => .denied .decode
    | some pod =>
      match nvidiaCompatibilityPatches quantities pod with
      | .error message => .denied (.combine message)
      | .ok (_, []) => .allowed none
      | .ok (patches, _) => .allowed (some patches)

end Kiac.Gpu
