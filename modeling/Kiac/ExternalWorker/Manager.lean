import Kiac.Program.Step
import Kiac.ExternalWorker.State

/-!
# The manager of the external workers

The programs of `ExternalWorkerManager`. The world has the files of the inventory and the VMs of
the backend, some of which are not workers and come and go. It remembers which owner IDs have been
drawn, and which states have been recorded.
-/

namespace Kiac.Worker

open Prog Step

structure VM where
  name : Str
  networkID : Str
  distro : Str
  k8sVersion : Str
  gpu : Bool
deriving DecidableEq

structure RunOpts where
  name : Str
  image : Str
  distro : Str
  k8sVersion : Str
  cpus : Str
  memory : Str
  diskSize : Str
  networkID : Str
deriving DecidableEq

structure World where
  inventory : Str → Option ExternalWorkerState
  vms : Str → Option VM
  drawn : List Str
  recorded : List ExternalWorkerState

inductive Lookup where
  | failed
  | missing
  | found (vm : VM)

inductive Command where
  | provision
  | preflight
  | transfer
  | startAgent

inductive Op where
  | secrets
  | headroom
  | lock
  /-- Whether the file of the worker is known not to exist. -/
  | absent (name : Str)
  | preflight
  | image
  | artifacts (version : Str)
  | random
  | now
  | createTemp
  | writeTemp (text : Str)
  /-- The temporary file, which holds the state, gets the name of the worker's file. -/
  | rename (state : ExternalWorkerState)
  | removeTemp
  | removeFile (name : Str)
  | readFile (name : Str)
  | vmState (vm : Str)
  | runDetached (opts : RunOpts)
  | remove (vm : Str)
  | start (vm : Str)
  | stop (vm : Str)
  | waitReady (vm : Str)
  | ip (vm : Str)
  | exec (vm : Str) (command : Command)
  | observe (vm : Str)
  | expired

abbrev Op.Ans : Op → Type
  | secrets => Str → Option Str
  | image => Option Str
  | random => Option OwnerBytes
  | now => ℕ
  | readFile _ => Option ExternalWorkerState
  | vmState _ => Lookup
  | ip _ => Option Str
  | observe _ => Option Report
  | _ => Bool

structure Choice where
  works : Bool
  text : Str
  files : Str → Option Str
  bytes : OwnerBytes
  time : ℕ
  report : Report
  /-- The VMs that are not workers. -/
  others : Str → Option VM

def isWorkerVM (vm : Str) : Bool := vm.hasPrefix (str "kiacx-worker-")

def World.evolve (world : World) (choice : Choice) : World :=
  { world with vms := fun vm => if isWorkerVM vm then world.vms vm else choice.others vm }

def RunOpts.vm (opts : RunOpts) : VM :=
  ⟨opts.name, opts.networkID, opts.distro, opts.k8sVersion, false⟩

def effect (choice : Choice) (world : World) : (op : Op) → World × op.Ans
  | .secrets => (world, choice.files)
  | .absent name => (world, choice.works && (world.inventory name).isNone)
  | .image => (world, if choice.works then some choice.text else none)
  | .random =>
    if choice.works then
      ({ world with drawn := ownerText choice.bytes :: world.drawn }, some choice.bytes)
    else (world, none)
  | .now => (world, choice.time)
  | .rename state =>
    if choice.works then
      ({ world with
          inventory := Function.update world.inventory state.name (some state)
          recorded := world.recorded ++ [state] }, true)
    else (world, false)
  | .removeFile name =>
    if choice.works then
      ({ world with inventory := Function.update world.inventory name none },
        (world.inventory name).isSome)
    else (world, false)
  | .readFile name => (world, if choice.works then world.inventory name else none)
  | .vmState vm =>
    (world, if choice.works then
      match world.vms vm with
      | none => .missing
      | some found => .found found
    else .failed)
  | .runDetached opts =>
    if choice.works && (world.vms opts.name).isNone then
      ({ world with vms := Function.update world.vms opts.name (some opts.vm) }, true)
    else (world, false)
  | .remove vm =>
    if choice.works then ({ world with vms := Function.update world.vms vm none }, true)
    else (world, false)
  | .ip _ => (world, if choice.works then some choice.text else none)
  | .observe _ => (world, if choice.works then some choice.report else none)
  | .headroom => (world, choice.works)
  | .lock => (world, choice.works)
  | .preflight => (world, choice.works)
  | .artifacts _ => (world, choice.works)
  | .createTemp => (world, choice.works)
  | .writeTemp _ => (world, choice.works)
  | .removeTemp => (world, choice.works)
  | .start _ => (world, choice.works)
  | .stop _ => (world, choice.works)
  | .waitReady _ => (world, choice.works)
  | .exec _ _ => (world, choice.works)
  | .expired => (world, choice.works)

def step (op : Op) (choice : Choice) (world : World) : World × op.Ans :=
  effect choice (world.evolve choice) op

def machine : Machine Op Op.Ans World Choice := ⟨step⟩

inductive Stage where
  | creation
  | sshReadiness
  | managementAddress
  | provisioning
  | preflight
  | transfer
  | agentStart
  | vmStart
  | vmStop
  | deletion
deriving DecidableEq

inductive Err where
  | config (fault : Fault)
  | headroom
  | lock
  | exists (name : Str)
  | preflight
  | image
  | artifacts
  | random
  | io
  | inventory (err : InventoryErr)
  | notOwned
  | vmMissing
  | worker (stage : Stage)
  | managementAddress
  | nodeInManagement
  | routesInManagement
  | observation (err : ObserveErr)
  | notReady (last : Option ObserveErr)
  | waitTooLong
  | incomplete
  /-- The error of a join whose worker is retained. -/
  | retained (err : Err)
  | unverified (err : Err)
  | cleanupFailed (err : Err)
deriving DecidableEq

abbrev Action (α : Type) := ExceptT Err (Prog Op Op.Ans) α

abbrev ask (op : Op) : Action op.Ans := Step.ask op

/-- How the manager encodes files, and how often it looks at a node before the time is up. -/
structure Manager where
  codec : Codec
  polls : ℕ

variable (manager : Manager)

def renameIf (written : Bool) (state : ExternalWorkerState) : Action Bool :=
  if written then ask (.rename state) else pure false

variable (state : ExternalWorkerState)

def write : Action Unit := do
  check (validWorkerName state.name) (.inventory .name)
  let text ← given .io (manager.codec.marshal state)
  must (ask .createTemp) .io
  let written ← ask (.writeTemp text)
  let renamed ← renameIf written state
  let _ ← ask .removeTemp
  check renamed .io

def read (name : Str) : Action ExternalWorkerState := do
  check (validWorkerName name) (.inventory .name)
  let found ← ask (.readFile name)
  let state ← given (.inventory .missing) found
  settle ((manager.codec.readBack name state).mapError .inventory)

def VM.ownedBy (vm : VM) (state : ExternalWorkerState) : Bool :=
  vm.name == state.vmName && vm.networkID == state.networkID && vm.distro == str "external-k3s" &&
    vm.k8sVersion == state.k8sVersion && !vm.gpu

/-- `owned`; a VM that does not exist is an error of its own. -/
def owned : Action Unit := do
  let found ← ask (.vmState state.vmName)
  match found with
  | .failed => throw .notOwned
  | .missing => throw .vmMissing
  | .found vm => check (vm.ownedBy state) .notOwned

/-- `observe`; a node that does not answer is not an observation. -/
def observe (state : ExternalWorkerState) : Prog Op Op.Ans (Except ObserveErr Observation) :=
  perform (Op.observe state.vmName) >>= fun
    | none => done (.error .command)
    | some report => done (checkReport state report)

/-- `wait`, with the number of times that are left and the last error. -/
def wait (state : ExternalWorkerState) : ℕ → Option ObserveErr → Action Observation
  | 0, last => throw (.notReady last)
  | polls + 1, last => do
      let expired ← ask .expired
      if expired then throw (.notReady last)
      else
        let result ← ExceptT.lift (observe state)
        match result with
        | .ok observation =>
          if observation.ready then pure observation else wait state polls none
        | .error err =>
          if err.isRejection then throw (.observation err) else wait state polls (some err)

def startExternalWorkerAgent : Action Unit :=
  must (ask (.exec state.vmName .startAgent)) (.worker .agentStart)

def checkManagement (wg : WireGuard) (managementIP : Str) :
    Except Err Unit :=
  match Netip.parseAddr managementIP >>= Netip.Addr.as4 with
  | none => .error .managementAddress
  | some management =>
    if managementIP = state.nodeIP then .error .managementAddress
    else
      let subnet := (Netip.Range.mk management 24 (by decide)).masked
      if (Netip.parseAddr state.nodeIP >>= Netip.Addr.as4).any subnet.contains then
        .error .nodeInManagement
      else if wg.allowedIPs.any fun route => route.overlaps subnet then .error .routesInManagement
      else .ok ()

structure Abort where
  err : Err
  state : ExternalWorkerState
  created : Bool

def during {α : Type} (created : Bool) (action : Action α) :
    ExceptT Abort (Prog Op Op.Ans) α :=
  ExceptT.mk (action.run >>= fun result => done (result.mapError fun err => ⟨err, state, created⟩))

def runOpts (p : Prepared) (state : ExternalWorkerState) (image : Str) : RunOpts :=
  ⟨state.vmName, image, str "external-k3s", state.k8sVersion, p.config.cpus, p.config.memory,
    p.config.diskSize, state.networkID⟩

/-- What is done with a VM that has been created, up to the transfer of the credentials. -/
def provisionWorker (p : Prepared) (state : ExternalWorkerState) : Action Unit := do
  must (ask (.waitReady state.vmName)) (.worker .sshReadiness)
  let found ← ask (.ip state.vmName)
  let managementIP ← given (.worker .managementAddress) found
  settle (checkManagement state p.wg managementIP)
  must (ask (.exec state.vmName .provision)) (.worker .provisioning)
  must (ask (.exec state.vmName .preflight)) (.worker .preflight)
  must (ask (.exec state.vmName .transfer)) (.worker .transfer)

/-- `Join` after the state has been recorded. The phase changes before it is written. -/
def joinWorker (p : Prepared) (image : Str) (state : ExternalWorkerState) :
    ExceptT Abort (Prog Op Op.Ans) ExternalWorkerState := do
  during state false (must (ask (.runDetached (runOpts p state image))) (.worker .creation))
  during state true (provisionWorker p state)
  let joining := { state with phase := Phase.joining }
  during joining true (do
    write manager joining
    startExternalWorkerAgent joining)
  let observation ← during joining true (wait joining manager.polls none)
  let ready := joining.observed observation.uid
  during ready true (write manager ready)
  pure ready

def cleanup (abort : Abort) : Prog Op Op.Ans Err :=
  if abort.state.phase = .joining ∨ abort.state.phase = .ready then done (.retained abort.err)
  else if abort.created then
    (owned abort.state).run >>= fun
      | .error _ => done (.unverified abort.err)
      | .ok _ => perform (Op.remove abort.state.vmName) >>= fun removed =>
        if removed then
          perform (Op.removeFile abort.state.name) >>= fun _ => done abort.err
        else done (.cleanupFailed abort.err)
  else perform (Op.removeFile abort.state.name) >>= fun _ => done abort.err

def join (cfg : ExternalWorkerConfig) : Action ExternalWorkerState := do
  let files ← ask .secrets
  let p ← settle ((prepareExternalWorker files cfg).mapError .config)
  must (ask .headroom) .headroom
  must (ask .lock) .lock
  must (ask (.absent cfg.name)) (.exists cfg.name)
  must (ask .preflight) .preflight
  let found ← ask .image
  let image ← given .image found
  must (ask (.artifacts p.config.k8sVersion)) .artifacts
  let drawn ← ask .random
  let id ← given .random drawn
  let now ← ask .now
  let state := newExternalWorkerState p id now
  write manager state
  ExceptT.mk ((joinWorker manager p image state).run >>= fun
    | .ok ready => done (.ok ready)
    | .error abort => cleanup abort >>= fun err => done (.error err))

def startJoining : Action Unit :=
  if state.phase = .joining then startExternalWorkerAgent state else pure ()

/-- `Start`, for a timeout in nanoseconds. -/
def start (name : Str) (timeout : ℤ) : Action Unit := do
  check (timeout ≤ 3600 * 10 ^ 9) .waitTooLong
  must (ask .lock) .lock
  let state ← read manager name
  check (state.phase == .ready || state.phase == .joining) .incomplete
  owned state
  must (ask (.start state.vmName)) (.worker .vmStart)
  must (ask (.waitReady state.vmName)) (.worker .sshReadiness)
  startJoining state
  let observation ← wait state manager.polls none
  write manager (state.observed observation.uid)

def removeOwned : Action Unit :=
  ExceptT.mk ((owned state).run >>= fun
    | .error .vmMissing => done (.ok ())
    | .error err => done (.error err)
    | .ok _ => (must (ask (.remove state.vmName)) (.worker .deletion)).run)

def stop (name : Str) : Action Unit := do
  must (ask .lock) .lock
  let state ← read manager name
  owned state
  must (ask (.stop state.vmName)) (.worker .vmStop)

def delete (name : Str) : Action Unit := do
  must (ask .lock) .lock
  let state ← read manager name
  removeOwned state
  must (ask (.removeFile name)) .io

inductive Call where
  | join (cfg : ExternalWorkerConfig)
  | start (name : Str) (timeout : ℤ)
  | stop (name : Str)
  | delete (name : Str)

def Call.program : Call → Action Unit
  | .join cfg => Worker.join manager cfg >>= fun _ => pure ()
  | .start name timeout => Worker.start manager name timeout
  | .stop name => Worker.stop manager name
  | .delete name => Worker.delete manager name

def sampleConfig : ExternalWorkerConfig where
  name := str "lab"
  server := str "https://192.0.2.10:6443"
  tokenFile := str "/token"
  wireGuardFile := str "/wg.conf"
  nodeIP := str "10.9.0.2"
  k8sVersion := str "1.34"
  podCIDR := str "10.42.0.0/16"
  serviceCIDR := str "10.43.0.0/16"
  cpus := []
  memory := []
  diskSize := []
  waitTimeout := 0

def sampleKey : Str := List.replicate 43 (byte 'A') ++ str "="

def sampleFiles (path : Str) : Option Str :=
  if path = str "/token" then
    some (str "K10" ++ List.replicate 64 (byte 'a') ++ str "::node:secret\n")
  else if path = str "/wg.conf" then
    some (str "[Interface]\nPrivateKey=" ++ sampleKey ++
      str "\nAddress=10.9.0.2/32\n[Peer]\nPublicKey=" ++ sampleKey ++
      str "\nEndpoint=198.51.100.7:51820\nAllowedIPs=192.0.2.10/32,10.42.0.0/16,10.43.0.0/16\n")
  else none

def sampleOwner : OwnerBytes := ⟨List.replicate 16 0, rfl⟩

def sampleState : ExternalWorkerState where
  schema := 1
  name := str "lab"
  ownerID := ownerText sampleOwner
  vmName := externalVMName (str "lab") (ownerText sampleOwner)
  networkID := externalNetworkID (ownerText sampleOwner)
  server := str "https://192.0.2.10:6443"
  nodeIP := str "10.9.0.2"
  k8sVersion := str "v1.34.11-k3s1"
  podCIDR := str "10.42.0.0/16"
  serviceCIDR := str "10.43.0.0/16"
  caHash := List.replicate 64 (byte 'a')
  nodeUID := []
  phase := .creating
  created := some 1

def sampleUID : Str := str "7a1f"

def sampleTime : Str := str "1970-01-01T00:00:00.000000001Z"

def sampleCodec : Codec where
  timeText := fun _ => some sampleTime
  unmarshal := fun raw =>
    [sampleState, { sampleState with phase := .joining }, sampleState.observed sampleUID].find?
      fun state => fileText state sampleTime == raw

def sampleManager : Manager := ⟨sampleCodec, 1⟩

def sampleReport : Report where
  size := 512
  parsed := some
    { name := sampleState.vmName
      uid := sampleUID
      ownerID := sampleState.ownerID
      nodeIP := sampleState.nodeIP
      kubeletVersion := str "v1.34.11+k3s1"
      apiVersion := str "v1.34.11+k3s1"
      podNetwork := sampleState.podCIDR
      backend := str "vxlan"
      guestBootID := str "b"
      nodeBootID := str "b"
      ready := true
      tainted := true
      ipv4Only := true
      uid_text := Str.isText_of_lt (by decide +kernel) }

def sampleChoice : Choice where
  works := true
  text := str "192.168.105.2"
  files := sampleFiles
  bytes := sampleOwner
  time := 1
  report := sampleReport
  others := fun _ => none

def World.empty : World := ⟨fun _ => none, fun _ => none, [], []⟩

end Kiac.Worker
