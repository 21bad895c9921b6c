import Kiac.Runtime.Routed
import Kiac.Cluster.Names
import Kiac.Text.Address
import Kiac.Text.Space

/-!
# The configuration of a new cluster

The fields of `Config` that the ordinary create paths decide by, and the checks that
they make before any VM is booted. The checks of registry CA files, of mounts and of
published ports look at the host's files as well; they are parameters here.
-/

namespace Kiac.Cluster

open Kiac.Runtime

structure Config where
  name : Str
  image : Str
  workers : ℤ
  cni : Str
  kernel : Str
  ipFamily : Str
  dns : List Str
  k3sControlPlaneArgs : List Str
  k3sWorkerArgs : List Str
  noMetrics : Bool
  noStorage : Bool
  noLB : Bool
  noEdgeProxy : Bool
  observability : Bool
  gateway : Bool

structure Checks where
  registryCAs : Config → Bool
  mounts : Config → Bool
  publishes : Config → Bool

namespace Config

def family (cfg : Config) : Str := if cfg.ipFamily = [] then str "ipv4" else cfg.ipFamily

def wantsIPv6 (cfg : Config) : Bool := cfg.family == str "dual" || cfg.family == str "ipv6"

def podCIDR (cfg : Config) (v4 v6 : Str) : Str :=
  if cfg.family = str "dual" then v4 ++ str "," ++ v6
  else if cfg.family = str "ipv6" then v6
  else v4

def workerNames (cfg : Config) : List Str :=
  (List.range cfg.workers.toNat).map fun i => worker cfg.name (i + 1)

def nodes (cfg : Config) : List Str := controlPlane cfg.name :: cfg.workerNames

end Config

def validateIPFamily (cfg : Config) : Except Err Unit :=
  if !([str "ipv4", str "dual", str "ipv6"].contains cfg.family) then
    .error (.invalidIPFamily cfg.ipFamily)
  else if !cfg.wantsIPv6 then .ok ()
  else if cfg.kernel = [] then .error (.familyNeedsKernel cfg.family)
  else if cfg.cni = str "cilium" ∨ cfg.cni = str "flannel" then
    .error (.familyWithoutCNI cfg.family cfg.cni)
  else .ok ()

def maxNodeDNSServers : ℕ := 3

def validateDNS (cfg : Config) : Except Err Unit :=
  if maxNodeDNSServers < cfg.dns.length then .error (.tooManyDNS cfg.dns.length)
  else
    match cfg.dns.find? fun server => (Net.parseIP server).isNone with
    | some server => .error (.invalidDNS server)
    | none => .ok ()

/-- What `validateCNI` decides without looking for the cilium CLI. -/
def validateCNIName (cfg : Config) : Except Err Unit :=
  if cfg.cni ∈ [[], str "kindnet", str "none"] then .ok ()
  else if cfg.cni ∈ [str "cilium", str "flannel"] then
    if cfg.kernel = [] then .error (.cniNeedsKernel cfg.cni) else .ok ()
  else if cfg.cni = str "calico" then .error .calicoNotBundled
  else .error (.unknownCNI cfg.cni)

def requireCilium : Action Unit :=
  ExceptT.mk ((host .lookPathCilium).run >>= fun found =>
    Prog.done (if found.toOption.isSome then .ok () else .error .ciliumNotOnPath))

def validateCNI (cfg : Config) : Action Unit := do
  fromResult (validateCNIName cfg)
  onlyIf (cfg.cni == str "cilium") requireCilium

/-- The `--disable` items that kiac manages. -/
def managedDisable : List Str :=
  [str "traefik", str "servicelb", str "gateway-api-crd", str "metrics-server",
    str "local-storage", str "network-policy", str "disable-network-policy"]

def managedK3sFlags : List Str :=
  [str "--cluster-cidr", str "--service-cidr", str "--node-name", str "--flannel-backend",
    str "--disable-network-policy"]

def validateK3sArg (flag raw : Str) (next : Option Str) : Except Err Unit :=
  let arg := raw.trimSpace
  let name := arg.takeWhile (· != byte '=')
  if name.head? ≠ some (byte '-') then .ok ()
  else
    let long := str "--" ++ name.dropWhile (· == byte '-')
    if long ∈ managedK3sFlags then .error (.managedK3sArg flag long)
    else if long = str "--disable" then
      let disabled :=
        if byte '=' ∈ arg then arg.drop (name.length + 1)
        else (next.map Str.trimSpace).getD []
      match (disabled.splitOnP (· == byte ',')).find? fun item =>
        managedDisable.contains (Str.trimSpace item) with
      | some item => .error (.managedK3sDisable flag (Str.trimSpace item))
      | none => .ok ()
    else .ok ()

def validateK3sArgList (flag : Str) : List Str → Except Err Unit
  | [] => .ok ()
  | raw :: rest => do
      validateK3sArg flag raw rest.head?
      validateK3sArgList flag rest

def validateK3sArgs (values : List Str) (flag : Str) : Except Err Unit :=
  if values.any fun value => value.trimSpace.isEmpty then .error (.emptyK3sArg flag)
  else validateK3sArgList flag values

/-- The configurations that `Create` boots VMs for, up to the checks made by commands. -/
def Accepted (checks : Checks) (cfg : Config) : Prop :=
  checks.registryCAs cfg = true ∧ validName cfg.name = true ∧
    (controlPlane cfg.name).length ≤ maxNodeNameLen ∧ validateIPFamily cfg = .ok () ∧
    validateDNS cfg = .ok () ∧ checks.mounts cfg = true ∧ checks.publishes cfg = true ∧
    validateCNIName cfg = .ok ()

/-- The configurations that `CreateK3s` boots VMs for, up to the checks made by commands. -/
def AcceptedK3s (checks : Checks) (cfg : Config) : Prop :=
  checks.registryCAs cfg = true ∧ validName cfg.name = true ∧
    (controlPlane cfg.name).length ≤ maxNodeNameLen ∧ (!(cfg.gateway && cfg.noLB)) = true ∧
    validateIPFamily cfg = .ok () ∧ validateDNS cfg = .ok () ∧ checks.mounts cfg = true ∧
    checks.publishes cfg = true ∧
    validateK3sArgs cfg.k3sControlPlaneArgs (str "--k3s-controlplane-arg") = .ok () ∧
    validateK3sArgs cfg.k3sWorkerArgs (str "--k3s-worker-arg") = .ok () ∧
    cfg.family ≠ str "ipv6"

end Kiac.Cluster
