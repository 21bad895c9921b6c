import Kiac.Program.Hoare
import Kiac.Text.Basic
import Mathlib.Data.List.AList
import Mathlib.Data.List.Sort

/-!
# The krunkit store

A directory for each VM with its disk and a `state.json`, and a directory of networks. JSON files are
replaced by renaming a temporary file, and a directory is removed entry by entry. Before each
operation hypervisors may end, and other processes come up under free numbers. What a probe answers,
whether a write succeeds and what a failed one leaves behind is decided by the environment.
-/

namespace Kiac.Krunkit

structure Mount where
  source : Str
  target : Str
  readOnly : Bool
deriving DecidableEq

/-- `KrunkitNodeState`; no process is recorded when `pid` is zero. -/
structure NodeState where
  schema : ℕ
  name : Str
  image : Str
  distro : Str
  k8sVersion : Str
  gpu : Bool
  disk : Str
  seed : Str
  restSocket : Str
  mac : Str
  ip : Str
  cpus : ℕ
  memoryMiB : ℕ
  networkID : Str
  networkCIDR : Str
  pid : ℕ
  processStart : Str
  processCommandHash : Str
  status : Str
  created : Str
  mounts : List Mount
  nested : Bool
  guestAddressReport : Bool
  addressGeneration : Str
deriving DecidableEq

/-- `krunkitNetworkState`. -/
structure Network where
  schema : ℕ
  id : Str
  cidr : Str
  startAddress : Str
  endAddress : Str
  netmask : Str
deriving DecidableEq

inductive Doc where
  | node (state : NodeState)
  | network (network : Network)
deriving DecidableEq

/-- The entries of a directory; `none` stands for what is not JSON, such as a disk or a
temporary file that was not written to its end. -/
abbrev Files := AList fun _ : Str => Option Doc

inductive Loc where
  | networks
  | node (name : Str)
deriving DecidableEq

structure Proc where
  node : Option Str
  start : Str
  command : Str
  start_ne : start ≠ []

structure World where
  nodes : AList fun _ : Str => Files
  networks : Files
  procs : ℕ → Option Proc

/-- The options of `RunDetached` that become part of the state. -/
structure RunOpts where
  name : Str
  image : Str
  distro : Str
  k8sVersion : Str
  networkID : Str
  gpu : Bool
  virtualization : Bool
  mounts : List Mount

structure Resources where
  image : Str
  cpus : ℕ
  memoryMiB : ℕ

inductive Op where
  | lockStore
  | checkOptions (opts : RunOpts)
  | requireNested
  | resolveBinary (tool : Str)
  | interfaces
  | ensureSSHKey
  | random
  | now
  | mkdirAll (loc : Loc)
  /-- An empty temporary file with a random end of its name. -/
  | createTemp (loc : Loc)
  | writeFile (loc : Loc) (file : Str) (content : Option Doc)
  /-- The temporary file, which holds the document, gets the name of the file. -/
  | rename (loc : Loc) (temp file : Str) (doc : Doc)
  | unlink (loc : Loc) (file : Str)
  | readFile (loc : Loc) (file : Str)
  | entries (loc : Loc)
  /-- Whether the directory is gone afterwards. -/
  | rmdir (name : Str)
  | readNodes
  | nodeAddress (state : NodeState)
  | launch (name : Str) (args : List Str)
  | kill0 (pid : ℕ)
  | startTime (pid : ℕ)
  | command (pid : ℕ)
  | requestStop (socket : Str)
  | signal (pid : ℕ)
  | terminate (pid : ℕ)
  | release (pid : ℕ)
  | removeSocket (socket : Str)
  | expired

abbrev Op.Ans : Op → Type
  | checkOptions _ => Option Resources
  | resolveBinary _ => Option Str
  | interfaces => List ℕ
  | ensureSSHKey => Bool
  | random => Option Str
  | now => Str
  | createTemp _ => Option Str
  | readFile _ _ => Option (Option Doc)
  | entries _ => List Str
  | readNodes => List Str
  | nodeAddress _ => Str
  | launch _ _ => Option ℕ
  | startTime _ => Option Str
  | command _ => Option Str
  | _ => Bool

structure Choice where
  /-- The operation succeeds. -/
  works : Bool
  /-- A write that fails leaves an entry. -/
  leaves : Bool
  text : Str
  number : ℕ
  numbers : List ℕ
  resources : Resources
  /-- The order in which the entries of a directory are read. -/
  order : List Str
  /-- The processes that end before the operation. -/
  exits : ℕ → Bool
  /-- The processes of others that come up before the operation. -/
  spawns : ℕ → Option Proc

def stateFile : Str := str "state.json"

def tempFile (suffix : Str) : Str := str ".kiac-state-" ++ suffix

namespace World

def evolve (world : World) (choice : Choice) : World where
  nodes := world.nodes
  networks := world.networks
  procs := fun pid =>
    match world.procs pid with
    | some proc => if choice.exits pid then none else some proc
    | none => (choice.spawns pid).map fun proc => { proc with node := none }

def files (world : World) : Loc → Option Files
  | .networks => some world.networks
  | .node name => world.nodes.lookup name

def setFiles (world : World) (loc : Loc) (files : Files) : World :=
  match loc with
  | .networks => { world with networks := files }
  | .node name => { world with nodes := world.nodes.insert name files }

def setProc (world : World) (pid : ℕ) (proc : Option Proc) : World :=
  { world with procs := Function.update world.procs pid proc }

def empty : World := ⟨∅, ∅, fun _ => none⟩

end World

/-- The text that `ps` prints for a command. -/
def commandText (args : List Str) : Str := List.intercalate [byte ' '] args

def effect (choice : Choice) (world : World) : (op : Op) → World × op.Ans
  | .checkOptions _ => (world, if choice.works then some choice.resources else none)
  | .resolveBinary _ => (world, if choice.works then some choice.text else none)
  | .interfaces => (world, choice.numbers)
  | .random => (world, if choice.works then some choice.text else none)
  | .now => (world, choice.text)
  | .nodeAddress _ => (world, choice.text)
  | .mkdirAll .networks => (world, choice.works)
  | .mkdirAll (.node name) =>
    if choice.works then
      if name ∈ world.nodes then (world, true) else (world.setFiles (.node name) ∅, true)
    else (world, false)
  | .createTemp loc =>
    match world.files loc with
    | some files =>
      if choice.works && !decide (tempFile choice.text ∈ files) then
        (world.setFiles loc (files.insert (tempFile choice.text) none), some choice.text)
      else (world, none)
    | none => (world, none)
  | .writeFile loc file content =>
    match world.files loc with
    | some files =>
      if choice.works then (world.setFiles loc (files.insert file content), true)
      else if choice.leaves then (world.setFiles loc (files.insert file none), false)
      else (world, false)
    | none => (world, false)
  | .rename loc temp file doc =>
    match world.files loc with
    | some files =>
      if choice.works then
        (world.setFiles loc ((files.erase temp).insert file (some doc)), true)
      else (world, false)
    | none => (world, false)
  | .unlink loc file =>
    match world.files loc with
    | some files =>
      if choice.works && decide (file ∈ files) then
        (world.setFiles loc (files.erase file), true)
      else (world, false)
    | none => (world, false)
  | .readFile loc file => (world, world.files loc >>= fun files => files.lookup file)
  | .entries loc =>
    match world.files loc with
    | some files =>
      (world, if choice.order.Perm files.keys then choice.order else files.keys)
    | none => (world, [])
  | .rmdir name =>
    match world.nodes.lookup name with
    | some files =>
      if choice.works && files.keys.isEmpty then
        ({ world with nodes := world.nodes.erase name }, true)
      else (world, false)
    | none => (world, true)
  | .readNodes => (world, world.nodes.keys.insertionSort fun a b => a ≤ b)
  | .launch name args =>
    if free : choice.works = true ∧ choice.number ≠ 0 ∧ world.procs choice.number = none ∧
        choice.text ≠ [] then
      (world.setProc choice.number (some ⟨some name, choice.text, commandText args, free.2.2.2⟩),
        some choice.number)
    else (world, none)
  | .kill0 pid => (world, choice.works && (world.procs pid).isSome)
  | .startTime pid => (world, if choice.works then (world.procs pid).map Proc.start else none)
  | .command pid => (world, if choice.works then (world.procs pid).map Proc.command else none)
  | .terminate pid =>
    (if choice.works then world.setProc pid none else world, choice.works)
  | .lockStore => (world, choice.works)
  | .requireNested => (world, choice.works)
  | .ensureSSHKey => (world, choice.works)
  | .requestStop _ => (world, choice.works)
  | .signal _ => (world, choice.works)
  | .release _ => (world, choice.works)
  | .removeSocket _ => (world, choice.works)
  | .expired => (world, choice.works)

def step (op : Op) (choice : Choice) (world : World) : World × op.Ans :=
  effect choice (world.evolve choice) op

def machine : Machine Op Op.Ans World Choice := ⟨step⟩

end Kiac.Krunkit
