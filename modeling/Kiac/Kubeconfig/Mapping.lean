import Kiac.Kubeconfig.Laws

/-!
# Nil maps

The two calls on documents as they are decoded, with every shape that an entry may have. A type
assertion that fails leaves a nil map, which can be read like an empty one and panics when it is
written to.
-/

namespace Kiac.Kubeconfig.Mapping

/-- A decoded value. Only a mapping whose keys are all texts is a `map[string]any`. -/
inductive Value where
  | null
  | text (value : Str)
  | scalar (raw : Str)
  | list (items : List Value)
  | map (entries : List (Str × Value))
  | otherMap (raw : Str)

/-- A `map[string]any`, which may be nil. -/
abbrev StringMap := Option (List (Str × Value))

namespace StringMap

def get (dest : StringMap) (key : Str) : Option Value := dest.bind fun entries => entries.lookup key

/-- `dest[key] = value`. -/
def set (dest : StringMap) (key : Str) (value : Value) : Except KubeErr StringMap :=
  match dest with
  | none => .error .nilMap
  | some entries => .ok (some ((key, value) :: entries.filter fun entry => entry.1 != key))

def value : StringMap → Value
  | none => .null
  | some entries => .map entries

end StringMap

/-- `value.(map[string]any)`. -/
def asMap : Option Value → StringMap
  | some (.map entries) => some entries
  | _ => none

/-- `value.(string)`. -/
def asText : Option Value → Str
  | some (.text value) => value
  | _ => []

def listOf : Option Value → List Value
  | some (.list items) => items
  | _ => []

def nameOf (item : Value) : Str := asText ((asMap (some item)).get (str "name"))

def upsert (name : Str) (item : Value) : List Value → List Value
  | [] => [item]
  | existing :: list =>
    if nameOf existing = name then item :: list else existing :: upsert name item list

def drop (name : Str) (list : List Value) : List Value :=
  list.filter fun existing => nameOf existing != name

/-- What a text holds: something that is not decoded into a map, no document at all, the null
document, or a mapping. -/
inductive Document where
  | failed
  | empty
  | null
  | mapping (entries : List (Str × Value))

def Document.into (dest : StringMap) : Document → StringMap
  | .failed => dest
  | .empty => dest
  | .null => none
  | .mapping entries =>
    some (entries ++ (dest.getD []).filter fun old => (entries.lookup old.1).isNone)

structure Package where
  unmarshal : Str → Document
  marshal : StringMap → Str

/-- The value of a key in `admin.conf`, as a list. -/
def adminList (package : Package) (adminConf key : Str) : List Value :=
  listOf (((package.unmarshal adminConf).into none).get key)

def rewriteEntries (entry serverIP : Str) (first firstUser : Value) :
    Except KubeErr (StringMap × StringMap × StringMap) := do
  let cluster0 := asMap (some first)
  let clusterBody := asMap (cluster0.get (str "cluster"))
  let cluster0 ← cluster0.set (str "name") (.text entry)
  let cluster0 ← if clusterBody.isSome then do
      let server := str "https://" ++ Net.joinHostPort serverIP (str "6443")
      let clusterBody ← clusterBody.set (str "server") (.text server)
      -- The body stays where it is in the entry.
      cluster0.set (str "cluster") clusterBody.value
    else pure cluster0
  let user0 ← (asMap (some firstUser)).set (str "name") (.text entry)
  let context := [(str "cluster", .text entry), (str "user", .text entry)]
  return (cluster0, user0, some [(str "name", .text entry), (str "context", .map context)])

def rewriteAdminConf (package : Package) (name adminConf serverIP : Str) :
    Except KubeErr (StringMap × StringMap × StringMap) :=
  match package.unmarshal adminConf with
  | .failed => .error .parsingAdminConf
  | _ =>
    match adminList package adminConf (str "clusters"),
      adminList package adminConf (str "users") with
    | first :: _, firstUser :: _ => rewriteEntries (entryName name) serverIP first firstUser
    | _, _ => .error .missingEntries

def defaultMap : StringMap :=
  some [(str "apiVersion", .text (str "v1")), (str "kind", .text (str "Config"))]

structure Accesses where
  path : Bool
  mkdir : Bool
  read : ReadAnswer
  backup : Bool
  write : Bool

def ensure (succeeds : Bool) (err : KubeErr) : Except KubeErr Unit :=
  if succeeds then .ok () else .error err

def decodeDest (package : Package) (accesses : Accesses) : Except KubeErr StringMap :=
  match accesses.read with
  | .missing => return defaultMap
  | .failed => return defaultMap
  | .content raw =>
    if raw = [] then return defaultMap
    else
      match package.unmarshal raw with
      | .failed => throw .parsing
      | document => do
          ensure accesses.backup .backup
          return document.into defaultMap

def mergeInto (dest : StringMap) (entry : Str) (cluster0 user0 context : StringMap) :
    Except KubeErr StringMap := do
  let dest ← dest.set (str "clusters")
    (.list (upsert entry cluster0.value (listOf (dest.get (str "clusters")))))
  let dest ← dest.set (str "users")
    (.list (upsert entry user0.value (listOf (dest.get (str "users")))))
  let dest ← dest.set (str "contexts")
    (.list (upsert entry context.value (listOf (dest.get (str "contexts")))))
  dest.set (str "current-context") (.text entry)

def mergeKubeconfig (package : Package) (accesses : Accesses) (name adminConf serverIP : Str) :
    Except KubeErr Str := do
  let (cluster0, user0, context) ← rewriteAdminConf package name adminConf serverIP
  ensure accesses.path .noPath
  ensure accesses.mkdir .mkdir
  let dest ← decodeDest package accesses
  let merged ← mergeInto dest (entryName name) cluster0 user0 context
  ensure accesses.write .writing
  return package.marshal merged

def removeEntries (dest : StringMap) (entry : Str) : Except KubeErr StringMap := do
  let dest ← dest.set (str "clusters") (.list (drop entry (listOf (dest.get (str "clusters")))))
  let dest ← dest.set (str "users") (.list (drop entry (listOf (dest.get (str "users")))))
  let dest ← dest.set (str "contexts") (.list (drop entry (listOf (dest.get (str "contexts")))))
  if asText (dest.get (str "current-context")) = entry then
    dest.set (str "current-context") (.text [])
  else pure dest

def removeKubeconfig (package : Package) (accesses : Accesses) (name : Str) :
    Except KubeErr (Option Str) := do
  ensure accesses.path .noPath
  match accesses.read with
  | .missing => return none
  | .failed => throw .reading
  | .content raw =>
    if raw.trimSpace = [] then return none
    else
      match package.unmarshal raw with
      | .failed => throw .parsing
      | document =>
        let dest := document.into none
        if dest.isNone then return none
        else do
          let removed ← removeEntries dest (entryName name)
          ensure accesses.write .writing
          return some (package.marshal removed)

section Maps

variable {entry serverIP : Str} {first firstUser : Value}

theorem rewriteEntries_cases :
    ((asMap (some first)).isSome ∧ (asMap (some firstUser)).isSome) ∧
        (∃ entries, rewriteEntries entry serverIP first firstUser = .ok entries) ∨
      ¬ ((asMap (some first)).isSome ∧ (asMap (some firstUser)).isSome) ∧
        rewriteEntries entry serverIP first firstUser = .error .nilMap := by
  simp only [rewriteEntries]
  cases asMap (some first) with
  | none => exact Or.inr ⟨by simp, rfl⟩
  | some cluster =>
    cases asMap (some firstUser) <;>
      cases asMap (StringMap.get (some cluster) (str "cluster")) <;>
        simp [StringMap.set, bind, Except.bind, pure, Except.pure]

variable {dest : StringMap}

theorem mergeInto_eq_nilMap_iff {cluster0 user0 context : StringMap} :
    mergeInto dest entry cluster0 user0 context = .error .nilMap ↔ dest = none := by
  cases dest with
  | none => exact iff_of_true rfl rfl
  | some dest => exact iff_of_false (fun panics => nomatch panics) (by simp)

theorem removeEntries_ne_nilMap (isSome : ¬ dest.isNone) :
    removeEntries dest entry ≠ .error .nilMap := by
  cases dest with
  | none => exact absurd rfl isSome
  | some dest =>
    simp only [removeEntries, StringMap.set, bind, Except.bind]
    split <;> simp [pure, Except.pure]

end Maps

section Calls

variable {package : Package} {accesses : Accesses} {name adminConf serverIP : Str}

variable {succeeds : Bool} {err : KubeErr}

@[simp]
theorem ensure_eq_ok_iff {value : Unit} :
    ensure succeeds err = .ok value ↔ succeeds := by
  cases succeeds <;> simp [ensure]

@[simp]
theorem ensure_eq_error_iff {err' : KubeErr} :
    ensure succeeds err = .error err' ↔ succeeds = false ∧ err = err' := by
  cases succeeds <;> simp [ensure]

@[simp]
theorem bind_eq_error_iff {α β : Type} {first : Except KubeErr α} {next : α → Except KubeErr β} :
    first >>= next = .error err ↔
      first = .error err ∨ ∃ value, first = .ok value ∧ next value = .error err := by
  cases first <;> simp [bind, Except.bind]

def HasFirst (package : Package) (adminConf : Str) (cluster user : Value) : Prop :=
  (adminList package adminConf (str "clusters")).head? = some cluster ∧
    (adminList package adminConf (str "users")).head? = some user

theorem rewriteAdminConf_cases :
    (∃ cluster user, HasFirst package adminConf cluster user ∧
        rewriteAdminConf package name adminConf serverIP =
          rewriteEntries (entryName name) serverIP cluster user) ∨
      (∀ cluster user, ¬ HasFirst package adminConf cluster user) ∧
        ∃ err, err ≠ .nilMap ∧ rewriteAdminConf package name adminConf serverIP = .error err := by
  unfold rewriteAdminConf HasFirst
  split
  · rename_i failed
    right
    simp [adminList, failed, Document.into, StringMap.get, listOf]
  · cases adminList package adminConf (str "clusters") with
    | nil => simp
    | cons cluster clusters =>
      cases adminList package adminConf (str "users") <;> simp

theorem decodeDest_ne_error : decodeDest package accesses ≠ .error .nilMap := by
  unfold decodeDest
  split
  · exact fun panics => nomatch panics
  · exact fun panics => nomatch panics
  · split
    · exact fun panics => nomatch panics
    · split <;> simp [throw, throwThe, MonadExceptOf.throw, pure, Except.pure]

theorem decodeDest_eq_none_iff {raw : Str} (isContent : accesses.read = .content raw)
    (nonempty : raw ≠ []) :
    decodeDest package accesses = .ok none ↔
      package.unmarshal raw = .null ∧ accesses.backup := by
  simp only [decodeDest, isContent, if_neg nonempty]
  cases package.unmarshal raw <;> cases accesses.backup <;>
    simp [ensure, bind, Except.bind, pure, Except.pure, throw, throwThe, MonadExceptOf.throw,
      Document.into, defaultMap]

theorem decodeDest_ne_none (notNull : ∀ raw, accesses.read = .content raw → raw ≠ [] →
    package.unmarshal raw ≠ .null) : decodeDest package accesses ≠ .ok none := by
  intro isNone
  cases isContent : accesses.read with
  | missing => simp [decodeDest, isContent, pure, Except.pure, defaultMap] at isNone
  | failed => simp [decodeDest, isContent, pure, Except.pure, defaultMap] at isNone
  | content raw =>
    by_cases empty : raw = []
    · simp [decodeDest, isContent, empty, pure, Except.pure, defaultMap] at isNone
    · exact notNull raw isContent empty ((decodeDest_eq_none_iff isContent empty).mp isNone).1

theorem mergeKubeconfig_eq_nilMap_iff :
    mergeKubeconfig package accesses name adminConf serverIP = .error .nilMap ↔
      rewriteAdminConf package name adminConf serverIP = .error .nilMap ∨
        (∃ entries, rewriteAdminConf package name adminConf serverIP = .ok entries) ∧
          accesses.path ∧ accesses.mkdir ∧
            decodeDest package accesses = .ok none := by
  simp [mergeKubeconfig, decodeDest_ne_error, mergeInto_eq_nilMap_iff, pure, Except.pure]

theorem removeKubeconfig_ne_nilMap :
    removeKubeconfig package accesses name ≠ .error .nilMap := by
  cases read : accesses.read with
  | missing => simp [removeKubeconfig, read, pure, Except.pure]
  | failed => simp [removeKubeconfig, read, throw, throwThe, MonadExceptOf.throw]
  | content raw =>
    simp only [removeKubeconfig, read, ne_eq, bind_eq_error_iff, ensure_eq_error_iff, reduceCtorEq,
      and_false, false_or, not_exists, not_and]
    intro _ _
    split
    · exact fun panics => nomatch panics
    · split
      · exact fun panics => nomatch panics
      · split
        · exact fun panics => nomatch panics
        · rename_i isSome
          simp [removeEntries_ne_nilMap isSome, pure, Except.pure]

/--
Neither call writes into a nil map, however its accesses end, exactly when the following holds of
an `admin.conf` that has clusters and users: the first of each is a mapping with texts as keys, and
the kubeconfig is not a null document.
-/
theorem neverPanics_iff {read : ReadAnswer} :
    (∀ accesses : Accesses, accesses.read = read →
      mergeKubeconfig package accesses name adminConf serverIP ≠ .error .nilMap ∧
        removeKubeconfig package accesses name ≠ .error .nilMap) ↔
      ∀ cluster user, HasFirst package adminConf cluster user →
        ((asMap (some cluster)).isSome ∧ (asMap (some user)).isSome) ∧
          ∀ raw, read = .content raw → raw ≠ [] → package.unmarshal raw ≠ .null := by
  simp only [removeKubeconfig_ne_nilMap, ne_eq, not_false_eq_true, and_true,
    mergeKubeconfig_eq_nilMap_iff]
  rcases rewriteAdminConf_cases with
    ⟨cluster, user, hasFirst, rewritten⟩ | ⟨none, err, other, rewritten⟩
  · have isFirst : ∀ {cluster' user'}, HasFirst package adminConf cluster' user' →
        cluster' = cluster ∧ user' = user := fun first =>
      ⟨Option.some.inj (first.1.symm.trans hasFirst.1),
        Option.some.inj (first.2.symm.trans hasFirst.2)⟩
    rw [rewritten]
    constructor
    · intro never cluster' user' first
      rcases isFirst first with ⟨rfl, rfl⟩
      have safe := never ⟨true, true, read, true, true⟩ rfl
      rcases rewriteEntries_cases with ⟨maps, rewrites⟩ | ⟨_, panics⟩
      · refine ⟨maps, fun raw isContent nonempty isNull => safe (Or.inr ⟨rewrites, rfl, rfl, ?_⟩)⟩
        exact (decodeDest_eq_none_iff isContent nonempty).mpr ⟨isNull, rfl⟩
      · exact absurd (Or.inl panics) safe
    · intro sound accesses isRead panics
      rcases sound cluster user hasFirst with ⟨maps, notNull⟩
      rcases panics with panics | ⟨_, _, _, isNone⟩
      · rcases rewriteEntries_cases with ⟨_, entries, ok⟩ | ⟨notMaps, _⟩
        · exact nomatch panics.symm.trans ok
        · exact notMaps maps
      · exact decodeDest_ne_none (isRead ▸ notNull) isNone
  · simp [none, rewritten, other]

/-- An `admin.conf` whose first cluster is null, and a kubeconfig that is a null document. -/
def samplePackage : Package where
  unmarshal raw :=
    if raw = str "null" then .null
    else if raw = str "clusters: [null]\nusers: [\x7b\x7d]" then
      .mapping [(str "clusters", .list [.null]), (str "users", .list [.map []])]
    else .mapping [(str "clusters", .list [.map []]), (str "users", .list [.map []])]
  marshal _ := []

theorem panics_null_entry_and_document :
    mergeKubeconfig samplePackage ⟨true, true, .missing, true, true⟩ (str "dev")
        (str "clusters: [null]\nusers: [\x7b\x7d]") (str "10.0.0.7") = .error .nilMap ∧
      mergeKubeconfig samplePackage ⟨true, true, .content (str "null"), true, true⟩ (str "dev")
        (str "clusters: [\x7b\x7d]\nusers: [\x7b\x7d]") (str "10.0.0.7") = .error .nilMap :=
  ⟨rfl, rfl⟩

end Calls

end Kiac.Kubeconfig.Mapping
