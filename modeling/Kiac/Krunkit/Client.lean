import Kiac.Krunkit.Network

/-!
# The krunkit client

The operations of `KrunkitClient` on its store. Which process belongs to a VM is decided
by `processOwned` from the recorded process number, the start time and the hash of the
command line. States of an older version have no start time and no hash; such a process
is adopted if its command line names the directory or the socket of the VM.
-/

namespace Kiac.Krunkit

open Prog

/-- The settings of a client: where it keeps its files, the hash of a command line, which
mounts are compatible with the guest's address report, and how often a process that is
stopped is looked at before the time is up. -/
structure Client where
  root : Str
  tempDir : Str
  processCommandHash : Str → Str
  hash_ne : ∀ command, processCommandHash command ≠ []
  validGuestAddressMounts : List Mount → Bool
  stopPolls : ℕ
  termPolls : ℕ
  killPolls : ℕ

def validVMName (name : Str) : Bool :=
  0 < name.length && name.length ≤ 63 &&
    (name.all fun b =>
      (byte 'a' ≤ b && b ≤ byte 'z') || (byte '0' ≤ b && b ≤ byte '9') || b == byte '-') &&
    name.head? != some (byte '-') && name.getLast? != some (byte '-')

namespace Client

variable (client : Client)

def nodeDir (name : Str) : Str := client.root ++ str "/nodes/" ++ name

def hex8 (n : ℕ) : Str :=
  List.replicate (8 - (Str.formatHex n).length) (byte '0') ++ Str.formatHex n

def shortSocketPath (name : Str) : Str :=
  client.tempDir ++ str "/kiac-krunkit-" ++
    hex8 (fnv32 (client.root ++ 0 :: name)).toNat ++ str ".sock"

end Client

/-- `Owns`: whether there is a `state.json`. -/
def owns (name : Str) : Prog Op Op.Ans Bool :=
  if validVMName name then
    perform (Op.readFile (.node name) stateFile) >>= fun found => done found.isSome
  else done false

/-- The state that a `state.json` holds. -/
def parseState (name : Str) : Option Doc → Except Err NodeState
  | none => .error (.unparsableState name)
  | some (.network _) => .error (.invalidState name)
  | some (.node state) =>
    if state.schema = stateSchema ∧ state.name = name then .ok state
    else .error (.invalidState name)

def readState (name : Str) : Action NodeState := do
  check (validVMName name) (.invalidVMName name)
  let found ← ask (.readFile (.node name) stateFile)
  let content ← given (.noState name) found
  ExceptT.mk (done (parseState name content))

def writeState (state : NodeState) : Action Unit := do
  check (validVMName state.name) (.invalidVMName state.name)
  must (ask (.mkdirAll (.node state.name))) .io
  writeJSONAtomic (.node state.name) stateFile (.node state)

variable (client : Client)

/-- Whether the process with these properties is the one of the state, and the state with
the identity of a process that is adopted. -/
def identify (state : NodeState) (started command : Str) : Bool × NodeState :=
  let hash := client.processCommandHash command
  if state.processStart ≠ [] ∧ state.processCommandHash ≠ [] then
    (state.processCommandHash == hash, state)
  else if !(validVMName state.name && Str.contains (client.nodeDir state.name) command) &&
      (state.restSocket == [] || !Str.contains state.restSocket command) then (false, state)
  else (true, { state with processStart := started, processCommandHash := hash })

def processAlive (pid : ℕ) : Prog Op Op.Ans Bool :=
  if pid = 0 then done false else perform (Op.kill0 pid)

/-- The rest of `processOwned` for a process that is alive. -/
def identifyAlive (state : NodeState) : Prog Op Op.Ans (Bool × NodeState) :=
  perform (Op.startTime state.pid) >>= fun
    | none => done (false, state)
    | some started =>
      if state.processStart ≠ [] ∧ state.processStart ≠ started then done (false, state)
      else perform (Op.command state.pid) >>= fun
        | none => done (false, state)
        | some command => done (identify client state started command)

def processOwned (state : NodeState) : Prog Op Op.Ans (Bool × NodeState) :=
  processAlive state.pid >>= fun alive =>
    if alive then identifyAlive client state else done (false, state)

def orTerminate (pid : ℕ) (action : Action Unit) : Action Unit :=
  onError action (perform (Op.terminate pid) >>= fun _ => done ())

def record (state : NodeState) (pid : ℕ) : Action Unit :=
  orTerminate pid do
    let started ← ask (.startTime pid)
    let processStart ← given (.processIdentity state.name) started
    let found ← ask (.command pid)
    let command ← given (.processIdentity state.name) found
    writeState
      { state with
        pid := pid
        processStart := processStart
        processCommandHash := client.processCommandHash command
        ip := []
        status := str "running" }
    must (ask (.release pid)) .io

def launchArgs (state : NodeState) (network : Network) (vmnetRun krunkit : Str) :
    List Str :=
  let dir := client.nodeDir state.name
  [vmnetRun, str "--operation-mode=shared", str "--start-address=" ++ network.startAddress,
    str "--end-address=" ++ network.endAddress, str "--subnet-mask=" ++ network.netmask, str "--",
    krunkit, str "--memory=" ++ Str.formatNat state.memoryMiB,
    str "--cpus=" ++ Str.formatNat state.cpus, str "--restful-uri=unix://" ++ state.restSocket,
    str "--pidfile=" ++ dir ++ str "/krunkit.pid", str "--log-file=" ++ dir ++ str "/krunkit.log",
    str "--krun-log-level=1", str "--device=virtio-blk,path=" ++ state.disk,
    str "--device=virtio-blk,path=" ++ state.seed,
    str "--device=virtio-serial,logFilePath=" ++ dir ++ str "/serial.log",
    str "--device=virtio-rng",
    str "--device=virtio-net,type=unixgram,fd=4,mac=" ++ state.mac ++ str ",offloading=off"] ++
    (if state.nested then [str "--nested"] else []) ++
    (if state.guestAddressReport then
      [str "--device=virtio-fs,sharedDir=" ++ dir ++ str "/guest-status,mountTag=kiac-status"]
    else []) ++
    state.mounts.mapIdx fun i mount =>
      str "--device=virtio-fs,sharedDir=" ++ mount.source ++ str ",mountTag=kiac" ++ Str.formatNat i

/-- `prepareGuestAddressReport`; the files in the directory of the report are not modelled. -/
def prepareGuestAddressReport (state : NodeState) : Action NodeState := do
  check (!(client.nodeDir state.name).any fun b => b == byte ',' || b == 13 || b == 10)
    .guestStatusPath
  must (ask (.writeFile (.node state.name) (str "guest-status") none)) .io
  let drawn ← ask .random
  let generation ← given .random drawn
  must (ask (.writeFile (.node state.name) (str "guest-status") none)) .io
  pure { state with addressGeneration := generation, ip := [] }

def prepareReport (state : NodeState) : Action NodeState :=
  if state.guestAddressReport then prepareGuestAddressReport client state else pure state

def withSocket (state : NodeState) : NodeState :=
  if state.restSocket = [] then { state with restSocket := client.shortSocketPath state.name }
  else state

/-- The part of `startState` for a VM that does not run. -/
def launchState (state : NodeState) : Action Unit := do
  onlyIf state.nested (must (ask .requireNested) .nestedUnsupported)
  let foundRun ← ask (.resolveBinary (str "vmnet-run"))
  let vmnetRun ← given (.notFound (str "vmnet-run")) foundRun
  let foundKrunkit ← ask (.resolveBinary (str "krunkit"))
  let krunkit ← given (.notFound (str "krunkit")) foundKrunkit
  let network ← loadNetwork state.networkID
  check (validVMName state.name) (.invalidVMName state.name)
  check (state.disk == client.nodeDir state.name ++ str "/disk.img" &&
    state.seed == client.nodeDir state.name ++ str "/cidata.iso") (.unsafeDisk state.name)
  check (!state.guestAddressReport || client.validGuestAddressMounts state.mounts) .reservedMount
  check ((withSocket client state).restSocket == client.shortSocketPath state.name)
    (.unsafeSocket state.name)
  let prepared ← prepareReport client (withSocket client state)
  let _ ← ask (.removeSocket prepared.restSocket)
  let _ ← ask (.unlink (.node state.name) (str "known_hosts"))
  must (ask (.writeFile (.node state.name) (str "vmnet.log") none)) .io
  let started ← ask (.launch state.name (launchArgs client prepared network vmnetRun krunkit))
  let pid ← given .launch started
  record client prepared pid

def startState (state : NodeState) : Action Unit := do
  let (owned, state) ← ExceptT.lift (processOwned client state)
  if owned then writeState { state with status := str "running" } else launchState client state

/-- `cloneDisk`: a copy, or a slower one when the first kind fails, which is then resized. -/
def cloneDisk (name : Str) : Action Unit := do
  must (ask (.mkdirAll (.node name))) .io
  let _ ← ask (.unlink (.node name) (str "disk.img"))
  let cloned ← ask (.writeFile (.node name) (str "disk.img") none)
  onlyIf (!cloned) (do
    let _ ← ask (.unlink (.node name) (str "disk.img"))
    must (ask (.writeFile (.node name) (str "disk.img") none)) .io)
  must (ask (.writeFile (.node name) (str "disk.img") none)) .io

/-- `createCloudInitISO`; the texts of the seed are not modelled. -/
def createCloudInitISO (name : Str) : Action Unit := do
  must (ask (.writeFile (.node name) (str "cloud-init") none)) .io
  let drawn ← ask .random
  let _ ← given .random drawn
  must (ask (.writeFile (.node name) (str "cloud-init") none)) .io
  let found ← ask (.resolveBinary (str "hdiutil"))
  let _ ← given (.notFound (str "hdiutil")) found
  let _ ← ask (.unlink (.node name) (str "cidata.iso"))
  must (ask (.writeFile (.node name) (str "cidata.iso") none)) .io

def newState (opts : RunOpts) (resources : Resources) (network : Network)
    (mac created : Str) : NodeState where
  schema := stateSchema
  name := opts.name
  image := resources.image
  distro := opts.distro
  k8sVersion := opts.k8sVersion
  gpu := opts.gpu
  disk := client.nodeDir opts.name ++ str "/disk.img"
  seed := client.nodeDir opts.name ++ str "/cidata.iso"
  restSocket := client.shortSocketPath opts.name
  mac := mac
  ip := []
  cpus := resources.cpus
  memoryMiB := resources.memoryMiB
  networkID := opts.networkID
  networkCIDR := network.cidr
  pid := 0
  processStart := []
  processCommandHash := []
  status := str "stopped"
  created := created
  mounts := opts.mounts
  nested := opts.virtualization
  guestAddressReport := true
  addressGeneration := []

/-- The part of `RunDetached` whose failure is cleaned up. -/
def createNode (opts : RunOpts) (resources : Resources) (network : Network) :
    Action Unit := do
  must (ask (.mkdirAll (.node opts.name))) .io
  must (ask .ensureSSHKey) .io
  let drawn ← ask .random
  let mac ← given .random drawn
  let created ← ask .now
  cloneDisk opts.name
  createCloudInitISO opts.name
  writeState (newState client opts resources network mac created)
  startState client (newState client opts resources network mac created)

def unlinkAll (name : Str) : List Str → Prog Op Op.Ans Unit
  | [] => done ()
  | file :: files => perform (Op.unlink (.node name) file) >>= fun _ => unlinkAll name files

/-- `os.RemoveAll` of the directory of a VM. -/
def removeAll (name : Str) : Prog Op Op.Ans Bool :=
  perform (Op.entries (.node name)) >>= fun files =>
    unlinkAll name files >>= fun _ => perform (Op.rmdir name)

def usesNetwork (id : Str) : List Str → Prog Op Op.Ans Bool
  | [] => done false
  | name :: names => (readState name).run >>= fun
      | .ok state => if state.networkID = id then done true else usesNetwork id names
      | .error _ => usesNetwork id names

def removeUnusedNetwork (id : Str) : Prog Op Op.Ans Unit :=
  if validKrunkitNetworkID id then
    perform Op.readNodes >>= fun names => usesNetwork id names >>= fun used =>
      if used then done ()
      else perform (Op.unlink .networks (networkFile id)) >>= fun _ => done ()
  else done ()

/-- What `RunDetached` does after an error. -/
def cleanup (opts : RunOpts) : Prog Op Op.Ans Unit :=
  removeAll opts.name >>= fun _ => removeUnusedNetwork opts.networkID

def runDetached (opts : RunOpts) : Action Unit := do
  check (validVMName opts.name) (.invalidVMName opts.name)
  check (opts.image != []) (.needsImage opts.name)
  let checked ← ask (.checkOptions opts)
  let resources ← given (.invalidOptions opts.name) checked
  onlyIf opts.virtualization (must (ask .requireNested) .nestedUnsupported)
  must (ask .lockStore) .lock
  let owned ← ExceptT.lift (owns opts.name)
  check (!owned) (.alreadyExists opts.name)
  let network ← ensureNetwork opts.networkID
  onError (createNode client opts resources network) (cleanup opts)

def start (name : Str) : Action Unit := do
  must (ask .lockStore) .lock
  let state ← readState name
  startState client state

def waitExit (client : Client) : ℕ → NodeState → Prog Op Op.Ans NodeState
  | 0, state => done state
  | polls + 1, state => processOwned client state >>= fun (owned, state) =>
    if owned then
      perform Op.expired >>= fun expired =>
        if expired then done state else waitExit client polls state
    else done state

def requestExit (state : NodeState) : Prog Op Op.Ans NodeState :=
  if state.restSocket = client.shortSocketPath state.name then
    perform (Op.requestStop state.restSocket) >>= fun accepted =>
      if accepted then waitExit client client.stopPolls state else done state
  else done state

def signalExit (polls : ℕ) (state : NodeState) : Action (Bool × NodeState) := do
  let (owned, state) ← ExceptT.lift (processOwned client state)
  if owned then do
    must (ask (.signal state.pid)) (.signal state.pid)
    let state ← ExceptT.lift (waitExit client polls state)
    pure (true, state)
  else pure (false, state)

def confirmExit (killed : Bool) (state : NodeState) : Action NodeState :=
  if killed then do
    let (owned, state) ← ExceptT.lift (processOwned client state)
    check (!owned) (.stillRunning state.name state.pid)
    pure state
  else pure state

def stopped (state : NodeState) : NodeState :=
  { state with pid := 0, processStart := [], processCommandHash := [], status := str "stopped" }

def stopProcess (state : NodeState) : Action Unit := do
  let state ← ExceptT.lift (requestExit client state)
  let (_, state) ← signalExit client client.termPolls state
  let (killed, state) ← signalExit client client.killPolls state
  let state ← confirmExit client killed state
  writeState { stopped state with ip := [] }

/-- The part of `stopLocked` for a state that has been read. -/
def halt (state : NodeState) : Action Unit := do
  let (owned, state) ← ExceptT.lift (processOwned client state)
  if owned then stopProcess client state else writeState (stopped state)

def stopLocked (name : Str) : Action Unit := readState name >>= halt client

def stop (name : Str) : Action Unit := do
  must (ask .lockStore) .lock
  stopLocked client name

/-- A row of `List`. -/
structure Info where
  name : Str
  image : Str
  status : Str
  ip : Str
  created : Str
  distro : Str
  k8sVersion : Str
  gpu : Bool
deriving DecidableEq

def listAddress (owned : Bool) (state : NodeState) : Action Str :=
  if owned then ask (.nodeAddress state) else pure []

def listStatus (owned : Bool) : Str := if owned then str "running" else str "stopped"

def listed (state : NodeState) (owned : Bool) (ip : Str) : NodeState :=
  if owned then { state with status := listStatus owned, ip := ip }
  else { stopped state with ip := ip }

/-- The state that `List` finds is written back if it has changed. -/
def refresh (read state : NodeState) (owned : Bool) (ip : Str) : Action Unit :=
  onlyIf (state.status != listStatus owned || (ip != [] && ip != state.ip) ||
      state.processStart != read.processStart ||
      state.processCommandHash != read.processCommandHash)
    (attempt (writeState (listed state owned ip)))

def describe (read : NodeState) : Action Info := do
  let (owned, state) ← ExceptT.lift (processOwned client read)
  let ip ← listAddress owned state
  refresh read state owned ip
  pure ⟨state.name, state.image, listStatus owned, ip, state.created, state.distro,
    state.k8sVersion, state.gpu⟩

def listNode (name : Str) : Action Info := readState name >>= describe client

/-- The rows of the directories with the given start; the first error ends the loop. -/
def listNodes (client : Client) (start : Str) : List Str → Action (List Info)
  | [] => pure []
  | name :: names =>
    if name.hasPrefix start then do
      let info ← listNode client name
      let infos ← listNodes client start names
      pure (info :: infos)
    else listNodes client start names

def list (start : Str) : Action (List Info) := do
  must (ask .lockStore) .lock
  let names ← ask .readNodes
  let infos ← listNodes client start names
  pure (infos.insertionSort fun a b => a.name ≤ b.name)

def removeOwned (name : Str) : Action Unit := do
  let state ← readState name
  stopLocked client name
  let gone ← ExceptT.lift (removeAll name)
  let _ ← ask (.removeSocket (client.shortSocketPath name))
  ExceptT.lift (removeUnusedNetwork state.networkID)
  check gone .io

def removeEach (client : Client) : List Str → Prog Op Op.Ans (Except Err Unit)
  | [] => done (.ok ())
  | name :: names =>
    owns name >>= fun owned =>
      (if owned then (removeOwned client name).run else done (.ok ())) >>= fun first =>
        removeEach client names >>= fun others =>
          done (match first with
            | .ok _ => others
            | .error err => .error err)

def remove (names : List Str) : Action Unit := do
  must (ask .lockStore) .lock
  ExceptT.mk (removeEach client names)

inductive Call where
  | runDetached (opts : RunOpts)
  | start (name : Str)
  | stop (name : Str)
  | list (start : Str)
  | remove (names : List Str)

def Call.program : Call → Action Unit
  | .runDetached opts => Krunkit.runDetached client opts
  | .start name => Krunkit.start client name
  | .stop name => Krunkit.stop client name
  | .list beginning => Krunkit.list client beginning >>= fun _ => pure ()
  | .remove names => Krunkit.remove client names

def calm : Choice := ⟨true, false, str "x", 1, [], ⟨[], 0, 0⟩, [], fun _ => false, fun _ => none⟩

/-- A client with a store of its own; the node and the options below are a small VM in it. -/
def gpuClient : Client where
  root := str "/kiac"
  tempDir := str "/tmp"
  processCommandHash := fun command => byte '#' :: command
  hash_ne := fun _ => List.cons_ne_nil _ _
  validGuestAddressMounts := fun _ => true
  stopPolls := 1
  termPolls := 1
  killPolls := 1

def gpuNode : Str := str "kiac-a-gpu-1"

def gpuOpts : RunOpts :=
  ⟨gpuNode, str "/fedora.raw", str "kubeadm", str "v1.34.0", str "a", true, false, []⟩

/-- The creation of the sample node, of which `steps` operations are carried out. -/
def creation (steps : ℕ) : Outcome Op World Choice (Except Err Unit) :=
  (runDetached gpuClient gpuOpts).run.exec machine (List.replicate steps calm) .empty

-- The whole creation takes 48 operations.
example : (creation 47).value = none ∧ (creation 48).value = some (.ok ()) := ⟨rfl, rfl⟩

end Kiac.Krunkit
