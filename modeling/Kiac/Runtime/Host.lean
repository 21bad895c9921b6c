import Kiac.Program.Hoare
import Kiac.Text.Basic
import Mathlib.Data.List.Nodup

/-!
# The host: node VMs and the commands that act on them

A VM lives in one of two backends, the `container` system service or the krunkit store, and each
backend lists, runs, stops, starts and removes its own VMs by name. The choice of the environment
says whether a command succeeds and, when it fails, on which of the VMs it had already acted.
-/

namespace Kiac.Runtime

inductive Backend where
  | container
  | krunkit
deriving DecidableEq, Repr

structure Info where
  name : Str
  image : Str
  status : Str
  distro : Str
  backend : Backend
deriving DecidableEq, Repr

/-- The options of `RunDetached` that the inventory shows. -/
structure RunOpts where
  name : Str
  image : Str
  backend : Option Backend

inductive Err where
  | command
  | listing (backend : Backend)
  | duplicateNode (name : Str)
  | removing (groups : List (List Str))
  | invalidName (name : Str)
  | nameTooLong (name node : Str)
  | clusterExists (name : Str)
  | noCluster (name : Str)
  | onlyNode (target name : Str)
  | noNode (node name : Str) (available : List Str)
  | stoppedNodes (kind name : Str) (count : ℕ)
  | mixedBackends
  | duplicateControlPlane (name : Str)
  | invalidNode (name node marker : Str)
  | duplicateIndex (name role : Str) (index : ℤ)
  | unrecognizedNode (name node : Str)
  | noControlPlane (name : Str)
  | diedTwice (node : Str)
  | notReady (node : Str)
  | notIPv4 (address : Str)
  | noEndpoint
  | ipv6Resume (name : Str)
  | wrongServer (node live target : Str)
  | unexpectedJoin (text : Str)
  | invalidIPFamily (family : Str)
  | familyNeedsKernel (family : Str)
  | familyWithoutCNI (family cni : Str)
  | cniNeedsKernel (cni : Str)
  | ciliumNotOnPath
  | calicoNotBundled
  | unknownCNI (cni : Str)
  | noIPv6Network (family : Str)
  | gatewayNeedsLB
  | ipv6K3s
  | tooManyDNS (count : ℕ)
  | invalidDNS (server : Str)
  | invalidKubeadmVersion (version : Str)
  | emptyK3sArg (flag : Str)
  | managedK3sArg (flag name : Str)
  | managedK3sDisable (flag item : Str)
  | invalidConfig (field : Str)
deriving DecidableEq

/-- A step in a node: one `Exec`, or one helper that only issues `Exec` there. -/
inductive GuestStep where
  | waitReady
  | ip
  | isActiveContainerd
  | ipForward
  | senderOffloadFix
  | ipv6BootPrep
  | waitNodeIPv6
  | pinKubeletNodeIP (nodeIP : Str)
  | repinNodeIPIfNeeded
  | setKubeletSystemdNodeIP
  | installRegistryTrust
  | kubeadmVersion
  | kubeadmInit (args : List Str)
  | printJoinCommand
  | join (args : List Str)
  | applyKindnet (podCIDR : Str)
  | applyFlannel (podCIDR : Str)
  | waitFlannelReady
  | untaint
  | applyStorage
  | applyMetricsServer
  | installKiacLB
  | waitNodesReady
  | labelLBPrimary (node : Str)
  | installEdgeProxy
  | installObservability
  | installGateway
  | catAdminConf
  | healControlPlane (oldIP newIP : Str)
  | healWorker (cpIP : Str)
  | waitAPIServer
  | healConfigMaps (cpIP : Str)
  | healEdgeProxySystemd (nodes : List Str)
  | isActiveKubelet
  | restartKubelet
  | waitNodeAddresses (nodes : List Str)
  | refreshNodePods
  | reconcileGPUResources (nodes : List Str)
  | waitManagedAddons
  | hasKiacLB
  | restartKiacLB
  | waitK3sAPI
  | waitK3sGuest
  | waitK3sNodes (want : ℕ)
  | extractCNIPlugins
  | k3sAgentLiveURL
  | installK3sResumeHook (url : Str)
  | updateK3sSystemdConfig (serverIP : Str)
  | ensureK3sGPUUnit
  | ensureK3sSystemdService (restart : Bool)
  | healK3sEdgeProxy (nodes : List Str) (url : Str)
  | catK3sKubeconfig

inductive HostStep where
  | preflight (installDefaultKernel : Bool)
  | krunkitPreflight
  | networkHasIPv6
  | imagePull (image : Str)
  | lookPathCilium
  | writeTempKubeconfig (name ip : Str)
  | ciliumInstall
  | resolveCNIPluginsArchive
  | k3sToken
  | mergeKubeconfig (name : Str)
  | removeKubeconfig (name : Str)
  | hostReachAPI

inductive Op where
  | list (backend : Backend) (start : Str)
  | owns (name : Str)
  | run (backend : Backend) (opts : RunOpts)
  | start (backend : Backend) (name : Str)
  | stop (backend : Backend) (name : Str)
  | remove (backend : Backend) (names : List Str)
  | guest (node : Str) (step : GuestStep)
  | host (step : HostStep)
  | krunkitGroupFirst

abbrev Op.Ans : Op → Type
  | list _ _ => Except Err (List Info)
  | owns _ => Bool
  | run _ _ => Except Err Unit
  | start _ _ => Except Err Unit
  | stop _ _ => Except Err Unit
  | remove _ _ => Except Err Unit
  | guest _ _ => Except Err Str
  | host _ => Except Err Str
  | krunkitGroupFirst => Bool

/--
What the environment decides about one operation: whether it succeeds, on which VMs
it has acted although it fails, and the text that a step prints.
-/
structure Choice where
  succeeds : Bool
  acted : Str → Bool
  text : Str

structure Host where
  vms : List Info
  distinct : (vms.map Info.name).Nodup

namespace Host

def rows (host : Host) (backend : Backend) (start : Str) : List Info :=
  host.vms.filter fun info => info.backend == backend && info.name.hasPrefix start

def names (host : Host) : List Str := host.vms.map Info.name

def setStatus (host : Host) (backend : Backend) (name status : Str) : Host where
  vms := host.vms.map fun info =>
    if info.backend = backend ∧ info.name = name then { info with status := status } else info
  distinct := by
    have kept : (host.vms.map fun info : Info =>
        if info.backend = backend ∧ info.name = name then { info with status := status }
        else info).map Info.name = host.vms.map Info.name := by
      rw [List.map_map]
      apply List.map_congr_left
      intro info _
      simp only [Function.comp_apply]
      split <;> rfl
    rw [kept]
    exact host.distinct

theorem names_setStatus (host : Host) (backend : Backend) (name status : Str) :
    (host.setStatus backend name status).names = host.names := by
  simp only [names, setStatus, List.map_map]
  apply List.map_congr_left
  intro info _
  simp only [Function.comp_apply]
  split <;> rfl

def keep (host : Host) (stays : Info → Bool) : Host where
  vms := host.vms.filter stays
  distinct := host.distinct.sublist (List.filter_sublist.map Info.name)

def add (host : Host) (info : Info) (free : info.name ∉ host.names) : Host where
  vms := host.vms ++ [info]
  distinct := by
    rw [List.map_append]
    exact List.nodup_append'.mpr ⟨host.distinct, List.nodup_singleton _, by simpa [names] using free⟩

end Host

def Choice.result (choice : Choice) : Except Err Unit :=
  if choice.succeeds then .ok () else .error .command

def Choice.output (choice : Choice) : Except Err Str :=
  if choice.succeeds then .ok choice.text else .error .command

def Choice.acts (choice : Choice) (name : Str) : Bool := choice.succeeds || choice.acted name

def step : (op : Op) → Choice → Host → Host × op.Ans
  | .list backend start, choice, host =>
    (host, if choice.succeeds then .ok (host.rows backend start) else .error .command)
  | .owns name, choice, host =>
    (host, choice.succeeds &&
      host.vms.any fun info => info.backend == .krunkit && info.name == name)
  | .run backend opts, choice, host =>
    if free : opts.name ∉ host.names then
      if choice.acts opts.name then
        (host.add ⟨opts.name, opts.image, str "running", [], backend⟩ free, choice.result)
      else (host, choice.result)
    else (host, .error .command)
  | .start backend name, choice, host =>
    (if choice.acts name then host.setStatus backend name (str "running") else host,
      choice.result)
  | .stop backend name, choice, host =>
    (if choice.acts name then host.setStatus backend name (str "stopped") else host,
      choice.result)
  | .remove backend names, choice, host =>
    (host.keep fun info =>
      !(info.backend == backend && names.contains info.name && choice.acts info.name),
      choice.result)
  | .guest _ _, choice, host => (host, choice.output)
  | .host _, choice, host => (host, choice.output)
  | .krunkitGroupFirst, choice, host => (host, choice.succeeds)

def machine : Machine Op Op.Ans Host Choice := ⟨step⟩

abbrev Action (α : Type) := ExceptT Err (Prog Op Op.Ans) α

end Kiac.Runtime
