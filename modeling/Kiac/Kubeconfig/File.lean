import Mathlib.Logic.Equiv.List
import Kiac.Program.Triple
import Kiac.Text.Decimal
import Kiac.Text.HostPort
import Kiac.Text.Space

/-!
# The user's kubeconfig

`mergeKubeconfig` reads the file, puts the cluster, the user and the context of one kiac cluster into
its lists and writes it back; `removeKubeconfig` takes them out again. The YAML package is a
parameter: what it makes of a text that it has written itself is known. A write that fails, or whose
process is killed, may leave any beginning of the new text behind.
-/

namespace Kiac.Kubeconfig

/-- An entry of a list: its name, which is empty if there is none, whether it is a map, and the
text of everything else in it. -/
structure Item where
  name : Str
  isMap : Bool
  body : Str
deriving DecidableEq

inductive Part where
  | clusters
  | users
  | contexts
deriving DecidableEq

/-- A decoded file. A list that is missing, or that is something else, reads as empty; `rest`
is the text of all keys that kiac does not look at. -/
structure Doc where
  lists : Part → List Item
  apiVersion : Option Str
  kind : Option Str
  currentContext : Option Str
  rest : Str

/-- What decoding a text into a map leads to: an error, a text without a document, the null
document, or a map. -/
inductive Decoded where
  | failed
  | empty
  | null
  | doc (doc : Doc)

structure Yaml where
  unmarshal : Str → Decoded
  marshal : Doc → Str
  unmarshal_marshal : ∀ doc, unmarshal (marshal doc) = .doc doc
  unmarshal_blank : ∀ raw, raw.trimSpace = [] → unmarshal raw = .empty
  /-- The body of a cluster with another server. -/
  withServer : (body server : Str) → Str
  /-- The body of a context for a cluster and a user of the given name. -/
  contextBody : Str → Str

inductive KubeErr where
  | parsingAdminConf
  | missingEntries
  | noPath
  | mkdir
  | reading
  | parsing
  | backup
  | writing
  | nilMap
deriving DecidableEq

def entryName (name : Str) : Str := str "kiac-" ++ name

structure Entries where
  cluster : Item
  user : Item
  context : Item

def Entries.item (entries : Entries) : Part → Item
  | .clusters => entries.cluster
  | .users => entries.user
  | .contexts => entries.context

variable (yaml : Yaml)

def rewriteAdminConf (name adminConf serverIP : Str) : Except KubeErr Entries :=
  match yaml.unmarshal adminConf with
  | .failed => .error .parsingAdminConf
  | .empty => .error .missingEntries
  | .null => .error .missingEntries
  | .doc admin =>
    match admin.lists .clusters, admin.lists .users with
    | cluster :: _, user :: _ =>
      -- Giving a name to an entry that is not a map is a write to a nil map.
      if !cluster.isMap || !user.isMap then .error .nilMap
      else
        .ok
          { cluster := ⟨entryName name, true, yaml.withServer cluster.body
              (str "https://" ++ Net.joinHostPort serverIP (str "6443"))⟩
            user := ⟨entryName name, true, user.body⟩
            context := ⟨entryName name, true, yaml.contextBody (entryName name)⟩ }
    | _, _ => .error .missingEntries

def upsert (name : Str) (item : Item) : List Item → List Item
  | [] => [item]
  | existing :: list =>
    if existing.name = name then item :: list else existing :: upsert name item list

def drop (name : Str) (list : List Item) : List Item :=
  list.filter fun existing => existing.name != name

def defaultDoc : Doc := ⟨fun _ => [], some (str "v1"), some (str "Config"), none, []⟩

def Doc.orDefault (doc : Doc) : Doc :=
  { doc with
    apiVersion := doc.apiVersion <|> some (str "v1")
    kind := doc.kind <|> some (str "Config") }

def Doc.merge (doc : Doc) (name : Str) (entries : Entries) : Doc :=
  { doc with
    lists := fun part => upsert (entryName name) (entries.item part) (doc.lists part)
    currentContext := some (entryName name) }

def Doc.remove (doc : Doc) (name : Str) : Doc :=
  { doc with
    lists := fun part => drop (entryName name) (doc.lists part)
    currentContext :=
      if doc.currentContext = some (entryName name) then some [] else doc.currentContext }

structure Files where
  config : Option Str
  backup : Option Str

inductive FileOp where
  | kubeconfigPath
  | mkdirAll
  | readFile
  | statBackup
  | writeBackup (raw : Str)
  | writeFile (out : Str)

inductive ReadAnswer where
  | missing
  | failed
  | content (raw : Str)

/-- `statBackup` answers whether there is no backup; the others whether they have succeeded. -/
abbrev FileOp.Ans : FileOp → Type
  | readFile => ReadAnswer
  | _ => Bool

/-- Whether an operation fails; a write that fails may have truncated the file, and may have
written a number of bytes. -/
structure Fault where
  fails : Bool
  written : Option ℕ

def Fault.file (fault : Fault) (out : Str) (before : Option Str) : Option Str :=
  if fault.fails then
    match fault.written with
    | none => before
    | some count => some (out.take count)
  else some out

def fileStep : (op : FileOp) → Fault → Files → Files × op.Ans
  | .kubeconfigPath, fault, files => (files, !fault.fails)
  | .mkdirAll, fault, files => (files, !fault.fails)
  | .readFile, fault, files =>
    (files,
      if fault.fails then .failed
      else
        match files.config with
        | none => .missing
        | some raw => .content raw)
  | .statBackup, fault, files => (files, !fault.fails && files.backup.isNone)
  | .writeBackup raw, fault, files =>
    ({ files with backup := fault.file raw files.backup }, !fault.fails)
  | .writeFile out, fault, files =>
    ({ files with config := fault.file out files.config }, !fault.fails)

def fileMachine : Machine FileOp FileOp.Ans Files Fault := ⟨fileStep⟩

abbrev FileAction (α : Type) := ExceptT KubeErr (Prog FileOp FileOp.Ans) α

def succeedOr (err : KubeErr) (program : Prog FileOp FileOp.Ans Bool) : FileAction Unit :=
  ExceptT.mk (program >>= fun succeeded =>
    Prog.done (if succeeded then .ok () else .error err))

def backUp (raw : Str) : FileAction Unit := do
  let absent ← ExceptT.lift (Prog.perform FileOp.statBackup)
  if absent then succeedOr .backup (Prog.perform (FileOp.writeBackup raw)) else pure ()

/-- The document that the entries are merged into. A file that cannot be read counts as
missing. -/
def decodeDest : ReadAnswer → FileAction Doc
  | .missing => return defaultDoc
  | .failed => return defaultDoc
  | .content raw =>
    if raw = [] then return defaultDoc
    else
      match yaml.unmarshal raw with
      | .failed => throw .parsing
      | .empty => backUp raw >>= fun _ => return defaultDoc
      | .null => backUp raw >>= fun _ => throw .nilMap
      | .doc doc => backUp raw >>= fun _ => return doc.orDefault

def mergeKubeconfig (name adminConf serverIP : Str) : FileAction Unit := do
  let entries ← ExceptT.mk (Prog.done (rewriteAdminConf yaml name adminConf serverIP))
  succeedOr .noPath (Prog.perform FileOp.kubeconfigPath)
  succeedOr .mkdir (Prog.perform FileOp.mkdirAll)
  let answer ← ExceptT.lift (Prog.perform FileOp.readFile)
  let dest ← decodeDest yaml answer
  succeedOr .writing (Prog.perform (FileOp.writeFile (yaml.marshal (dest.merge name entries))))

def removeFrom (name : Str) : ReadAnswer → FileAction Unit
  | .missing => return ()
  | .failed => throw .reading
  | .content raw =>
    if raw.trimSpace = [] then return ()
    else
      match yaml.unmarshal raw with
      | .failed => throw .parsing
      | .empty => return ()
      | .null => return ()
      | .doc doc =>
        succeedOr .writing (Prog.perform (FileOp.writeFile (yaml.marshal (doc.remove name))))

def removeKubeconfig (name : Str) : FileAction Unit := do
  succeedOr .noPath (Prog.perform FileOp.kubeconfigPath)
  let answer ← ExceptT.lift (Prog.perform FileOp.readFile)
  removeFrom yaml name answer

inductive Call where
  | merge (name adminConf serverIP : Str)
  | remove (name : Str)

namespace Call

def name : Call → Str
  | merge name _ _ => name
  | remove name => name

def program : Call → FileAction Unit
  | merge name adminConf serverIP => mergeKubeconfig yaml name adminConf serverIP
  | remove name => removeKubeconfig yaml name

end Call

def itemsOf (config : Option Str) (part : Part) : List Item :=
  match config with
  | none => []
  | some raw =>
    match yaml.unmarshal raw with
    | .doc doc => doc.lists part
    | _ => []

section Lists

variable {name other : Str} {item existing : Item} {list : List Item}

theorem mem_upsert_self (name : Str) (item : Item) (list : List Item) :
    item ∈ upsert name item list := by
  induction list with
  | nil => exact List.mem_cons_self
  | cons existing list ih =>
    unfold upsert
    split
    · exact List.mem_cons_self
    · exact List.mem_cons_of_mem _ ih

theorem mem_upsert_of_ne (itemNamed : item.name = name) (differs : existing.name ≠ name) :
    existing ∈ upsert name item list ↔ existing ∈ list := by
  have notItem : existing ≠ item := by
    rintro rfl
    exact differs itemNamed
  induction list with
  | nil => simp [upsert, notItem]
  | cons first list ih =>
    unfold upsert
    split
    · rename_i same
      have notFirst : existing ≠ first := by
        rintro rfl
        exact differs same
      simp [notItem, notFirst]
    · simp [ih]

theorem mem_drop : existing ∈ drop name list ↔ existing ∈ list ∧ existing.name ≠ name := by
  simp [drop]

end Lists

theorem entries_name {yaml : Yaml} {name adminConf serverIP : Str} {entries : Entries}
    (rewritten : rewriteAdminConf yaml name adminConf serverIP = .ok entries) (part : Part) :
    (entries.item part).name = entryName name := by
  unfold rewriteAdminConf at rewritten
  split at rewritten
  · cases rewritten
  · cases rewritten
  · cases rewritten
  · split at rewritten
    · split at rewritten
      · cases rewritten
      · rw [← Except.ok.inj rewritten]
        cases part <;> rfl
    · cases rewritten

theorem trimSpace_marshal_ne_nil (doc : Doc) : (yaml.marshal doc).trimSpace ≠ [] := by
  intro blank
  have decoded := yaml.unmarshal_marshal doc
  rw [yaml.unmarshal_blank _ blank] at decoded
  cases decoded

theorem marshal_ne_nil (doc : Doc) : yaml.marshal doc ≠ [] := by
  intro isEmpty
  apply trimSpace_marshal_ne_nil yaml doc
  rw [isEmpty]
  rfl

theorem decodeDest_marshal (doc : Doc) :
    decodeDest yaml (.content (yaml.marshal doc)) =
      backUp (yaml.marshal doc) >>= fun _ => return doc.orDefault := by
  simp only [decodeDest, if_neg (marshal_ne_nil yaml doc), yaml.unmarshal_marshal]

theorem removeFrom_marshal (name : Str) (doc : Doc) :
    removeFrom yaml name (.content (yaml.marshal doc)) =
      succeedOr .writing (Prog.perform (FileOp.writeFile (yaml.marshal (doc.remove name)))) := by
  simp only [removeFrom, if_neg (trimSpace_marshal_ne_nil yaml doc), yaml.unmarshal_marshal]

theorem itemsOf_marshal (doc : Doc) (part : Part) :
    itemsOf yaml (some (yaml.marshal doc)) part = doc.lists part := by
  simp [itemsOf, yaml.unmarshal_marshal]

section Numbered

instance encodableUInt8 : Encodable UInt8 :=
  Encodable.ofLeftInverse UInt8.toNat UInt8.ofNat fun _ => UInt8.ofNat_toNat

instance : Encodable Item :=
  Encodable.ofLeftInverse (fun item => (item.name, item.isMap, item.body))
    (fun (name, isMap, body) => ⟨name, isMap, body⟩) fun _ => rfl

instance : Encodable Doc :=
  Encodable.ofLeftInverse
    (fun doc => ((doc.lists .clusters, doc.lists .users, doc.lists .contexts), doc.apiVersion,
      doc.kind, doc.currentContext, doc.rest))
    (fun ((clusters, users, contexts), apiVersion, kind, currentContext, rest) =>
      ⟨fun
        | .clusters => clusters
        | .users => users
        | .contexts => contexts, apiVersion, kind, currentContext, rest⟩)
    fun doc => by
      have same : ∀ part : Part, (match part with
          | .clusters => doc.lists .clusters
          | .users => doc.lists .users
          | .contexts => doc.lists .contexts) = doc.lists part := by
        intro part
        cases part <;> rfl
      simp only [same]

def numbered : Yaml where
  unmarshal raw :=
    if raw.trimSpace = [] then .empty
    else
      match (Str.parseDigits raw).bind (Encodable.decode (α := Doc)) with
      | none => .failed
      | some doc => .doc doc
  marshal doc := Str.formatNat (Encodable.encode doc)
  unmarshal_marshal doc := by
    have graphic : ∀ b ∈ Str.formatNat (Encodable.encode doc), Str.isGraphic b := by
      intro b mem
      have digit := Str.isDigit_iff.mp (Str.isDigit_of_mem_formatNat mem)
      apply Str.isGraphic_iff.mpr
      omega
    rw [Str.trimSpace_of_isGraphic graphic, if_neg (Str.formatNat_ne_nil _), Str.parseDigits_formatNat]
    simp
  unmarshal_blank raw blank := if_pos blank
  withServer _ server := server
  contextBody name := name

end Numbered

end Kiac.Kubeconfig
