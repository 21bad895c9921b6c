import Kiac.Cluster.Config
import Kiac.Cluster.Lifecycle

/-!
# Creating a cluster

`Create` and `CreateK3s` look for VMs of an older cluster of the same name by one call of `List`,
whose error is ignored, and then boot and provision the nodes. From the first boot on, a step that
fails is followed by `cleanupOnFailure`, which removes whatever the runtime lists for the cluster.
-/

namespace Kiac.Cluster

open Kiac.Runtime

def guarded {α : Type} (name : Str) (action : Action α) : Action α :=
  Prog.onError action (cleanupOnFailure name)

/-- The condition `err == nil && len(existing) > 0`: an error of `List` is ignored. -/
def refuseExisting (name : Str) : Except Err (List Info) → Except Err Unit
  | .ok (_ :: _) => .error (.clusterExists name)
  | _ => .ok ()

def requireAbsent (name : Str) : Action Unit :=
  ExceptT.mk ((list (nodePrefix name)).run >>= fun existing =>
    Prog.done (refuseExisting name existing))

variable (cfg : Config)

def preflightIPv6Network : Action Unit :=
  onlyIf cfg.wantsIPv6 do
    let hasV6 ← host .networkHasIPv6
    check (!hasV6.isEmpty) (.noIPv6Network cfg.family)

def prepareHost : Action Unit := do
  let _ ← host (.preflight cfg.kernel.isEmpty)
  preflightIPv6Network cfg
  let _ ← host (.imagePull cfg.image)

/-- The `--node-ip` value of a node. -/
def nodeIPArg (node : Str) : Action Str := do
  let v6 ← guest node .waitNodeIPv6
  if cfg.family = str "ipv6" then pure v6
  else do
    let v4 ← guest node .ip
    pure (v4 ++ str "," ++ v6)

def prepareNode (node : Str) : Action Unit := do
  let _ ← guest node .waitReady
  let _ ← guest node .ipForward
  let _ ← guest node .senderOffloadFix
  onlyIf cfg.wantsIPv6 do
    let _ ← guest node .ipv6BootPrep
    let nodeIP ← nodeIPArg cfg node
    guest node (.pinKubeletNodeIP nodeIP)
  let _ ← guest node .installRegistryTrust

def bootNodes : Action Unit := do
  cfg.nodes.forM fun node => runDetached ⟨node, cfg.image, none⟩
  let _ ← Prog.forAll (prepareNode cfg) cfg.nodes

def kubeadmPodCIDRv4 : Str := str "10.244.0.0/16"
def kubeadmPodCIDRv6 : Str := str "fd00:10:244::/56"
def kubeadmServiceCIDRv4 : Str := str "10.96.0.0/12"
def kubeadmServiceCIDRv6 : Str := str "fd00:10:96::/112"

def isVersionByte (b : UInt8) : Bool :=
  Str.isDigit b || (byte 'a' ≤ b && b ≤ byte 'z') || (byte 'A' ≤ b && b ≤ byte 'Z') ||
    b == byte '.' || b == byte '-'

def skipVersionSuffix (mark : UInt8) : Str → Str
  | [] => []
  | b :: rest =>
    if b = mark ∧ (rest.head?.any isVersionByte) then rest.dropWhile isVersionByte else b :: rest

def skipNumber (s : Str) : Option Str :=
  if s.head?.any Str.isDigit then some (s.dropWhile Str.isDigit) else none

/-- `kubeadmVersionPattern`. -/
def isKubeadmVersion (s : Str) : Bool :=
  let core := skipExact (str "v") s >>= skipNumber >>= skipExact (str ".") >>= skipNumber >>=
    skipExact (str ".") >>= skipNumber
  core.any fun rest =>
    (skipVersionSuffix (byte '+') (skipVersionSuffix (byte '-') rest)).isEmpty

/-- The arguments of `kubeadm init`, without the address of an IPv6-only API server. -/
def kubeadmInitArgs (cp version : Str) : List Str :=
  [str "init", str "--kubernetes-version=" ++ version,
    str "--pod-network-cidr=" ++ cfg.podCIDR kubeadmPodCIDRv4 kubeadmPodCIDRv6,
    str "--node-name", cp, str "--ignore-preflight-errors=all"] ++
  if cfg.wantsIPv6 then
    [str "--service-cidr=" ++ cfg.podCIDR kubeadmServiceCIDRv4 kubeadmServiceCIDRv6]
  else []

def initKubeadm (cp : Str) : Action Unit := do
  let printed ← guest cp .kubeadmVersion
  let version := printed.trimSpace
  check (isKubeadmVersion version) (.invalidKubeadmVersion version)
  let args := kubeadmInitArgs cfg cp version
  if cfg.family = str "ipv6" then do
    let v6 ← guest cp .waitNodeIPv6
    let _ ← guest cp (.kubeadmInit (args ++ [str "--apiserver-advertise-address=" ++ v6]))
  else do
    let _ ← guest cp (.kubeadmInit args)

/-- `lastNonEmptyLine`: the last line with a join command, or the last line. -/
def lastNonEmptyLine (s : Str) : Str :=
  let lines := s.trimSpace.splitOnP (· == byte '\n')
  match lines.reverse.find? fun line => Str.contains (str "kubeadm join") (Str.trimSpace line) with
  | some line => Str.trimSpace line
  | none => Str.trimSpace (lines.getLast?.getD [])

def joinWorkers (cp : Str) : Action Unit := do
  let joinCmd ← guest cp .printJoinCommand
  let join := (lastNonEmptyLine joinCmd).fields
  check (join.head? == some (str "kubeadm")) (.unexpectedJoin joinCmd)
  let _ ← Prog.forAll (fun node => guest node
    (.join (join ++ [str "--ignore-preflight-errors=all", str "--node-name", node]))) cfg.workerNames

def installCilium (cp : Str) : Action Unit := do
  check (!cfg.kernel.isEmpty) (.cniNeedsKernel cfg.cni)
  requireCilium
  let _ ← guest cp .catAdminConf
  let ip ← guest cp .ip
  let _ ← host (.writeTempKubeconfig cfg.name ip)
  let _ ← host .ciliumInstall

def installFlannel (cp : Str) : Action Unit := do
  check (!cfg.kernel.isEmpty) (.cniNeedsKernel cfg.cni)
  let _ ← host .resolveCNIPluginsArchive
  let _ ← Prog.forAll (fun node => guest node .extractCNIPlugins) cfg.nodes
  let _ ← guest cp (.applyFlannel (cfg.podCIDR kubeadmPodCIDRv4 kubeadmPodCIDRv6))
  let _ ← guest cp .waitFlannelReady

def installKindnet (cp : Str) : Action Unit := do
  let _ ← guest cp (.applyKindnet (cfg.podCIDR kubeadmPodCIDRv4 kubeadmPodCIDRv6))

def installCNI (cp : Str) : Action Unit :=
  if cfg.cni ∈ [[], str "kindnet"] then installKindnet cfg cp
  else if cfg.cni = str "cilium" then installCilium cfg cp
  else if cfg.cni = str "flannel" then installFlannel cfg cp
  else if cfg.cni = str "calico" then throw .calicoNotBundled
  else if cfg.cni = str "none" then pure ()
  else throw (.unknownCNI cfg.cni)

def installAddons (cp : Str) : Action Unit := do
  let _ ← Prog.forAll (guest cp)
    ((if cfg.noStorage then [] else [.applyStorage]) ++
      (if cfg.noMetrics then [] else [.applyMetricsServer]))

/-- The node that carries the `kiac.io/lb-primary` label. -/
def primaryNode : Str :=
  if 0 < cfg.workers then worker cfg.name 1 else controlPlane cfg.name

def provision : Action Unit := do
  let cp := controlPlane cfg.name
  let hasNetwork := cfg.cni != str "none"
  guarded cfg.name (bootNodes cfg)
  guarded cfg.name (initKubeadm cfg cp)
  onlyIf (0 < cfg.workers) (guarded cfg.name (joinWorkers cfg cp))
  guarded cfg.name (installCNI cfg cp)
  onlyIf (cfg.workers == 0) (guarded cfg.name (guest cp .untaint))
  guarded cfg.name (installAddons cfg cp)
  onlyIf (!cfg.noLB) (guarded cfg.name (guest cp .installKiacLB))
  onlyIf hasNetwork (guarded cfg.name (guest cp .waitNodesReady))
  onlyIf hasNetwork (attempt (guest cp (.labelLBPrimary (primaryNode cfg))))
  onlyIf (!cfg.noEdgeProxy && hasNetwork) (guarded cfg.name (guest cp .installEdgeProxy))
  onlyIf (cfg.observability && hasNetwork) (attempt (guest cp .installObservability))
  onlyIf (cfg.gateway && hasNetwork) (attempt (guest cp .installGateway))
  let _ ← guest cp .catAdminConf
  let _ ← guest cp (if cfg.family = str "ipv6" then .waitNodeIPv6 else .ip)
  let _ ← host (.mergeKubeconfig cfg.name)
  attempt (host .hostReachAPI)

/-- The part of `Create` after the look for an older cluster. -/
def createAbsent (checks : Checks) (cfg : Config) : Action Unit := do
  fromResult (validateIPFamily cfg)
  fromResult (validateDNS cfg)
  check (checks.mounts cfg) (.invalidConfig (str "mount"))
  check (checks.publishes cfg) (.invalidConfig (str "publish"))
  validateCNI cfg
  prepareHost cfg
  provision cfg

def create (checks : Checks) (cfg : Config) : Action Unit := do
  check (checks.registryCAs cfg) (.invalidConfig (str "registry-ca"))
  check (validName cfg.name) (.invalidName cfg.name)
  check ((controlPlane cfg.name).length ≤ maxNodeNameLen)
    (.nameTooLong cfg.name (controlPlane cfg.name))
  requireAbsent cfg.name
  createAbsent checks cfg

def bootServer (cp : Str) : Action Unit := do
  runDetached ⟨cp, cfg.image, none⟩
  let _ ← guest cp .installRegistryTrust
  let _ ← guest cp .waitK3sAPI

def ensureK3sCNIPlugins (node : Str) : Action Unit := do
  let _ ← host .resolveCNIPluginsArchive
  let _ ← guest node .extractCNIPlugins

def k3sPodCIDRv4 : Str := str "10.42.0.0/16"
def k3sPodCIDRv6 : Str := str "fd00:10:42::/56"

def installK3sCNI (cp : Str) : Action Unit := do
  ensureK3sCNIPlugins cp
  let _ ← guest cp (.applyKindnet (cfg.podCIDR k3sPodCIDRv4 k3sPodCIDRv6))

def joinAgents (serverIP : Str) : Action Unit := do
  cfg.workerNames.forM fun node => do
    runDetached ⟨node, cfg.image, none⟩
    let _ ← guest node .installRegistryTrust
  let _ ← Prog.forAll ensureK3sCNIPlugins cfg.workerNames
  requireIPv4 serverIP
  let targetURL := str "https://" ++ serverIP ++ str ":6443"
  let _ ← Prog.forAll (fun node => guest node (.installK3sResumeHook targetURL)) cfg.workerNames

def provisionK3s : Action Unit := do
  let cp := controlPlane cfg.name
  guarded cfg.name (bootServer cfg cp)
  guarded cfg.name (installK3sCNI cfg cp)
  let serverIP ← guarded cfg.name (guest cp .ip)
  onlyIf (0 < cfg.workers) (guarded cfg.name (joinAgents cfg serverIP))
  let _ ← guarded cfg.name (guest cp (.waitK3sNodes (1 + cfg.workers).toNat))
  let _ ← guarded cfg.name (guest cp (.labelLBPrimary (primaryNode cfg)))
  onlyIf (!cfg.noLB) (guarded cfg.name (guest cp .installKiacLB))
  onlyIf (!cfg.noEdgeProxy) (guarded cfg.name (guest cp .installEdgeProxy))
  onlyIf cfg.observability (attempt (guest cp .installObservability))
  onlyIf cfg.gateway (attempt (guest cp .installGateway))
  writeKubeconfig cfg.name cp .catK3sKubeconfig

/-- The part of `CreateK3s` after the look for an older cluster. -/
def createK3sAbsent : Action Unit := do
  prepareHost cfg
  let _ ← host .k3sToken
  provisionK3s cfg

def createK3s (checks : Checks) (cfg : Config) : Action Unit := do
  check (checks.registryCAs cfg) (.invalidConfig (str "registry-ca"))
  check (validName cfg.name) (.invalidName cfg.name)
  check ((controlPlane cfg.name).length ≤ maxNodeNameLen)
    (.nameTooLong cfg.name (controlPlane cfg.name))
  check (!(cfg.gateway && cfg.noLB)) .gatewayNeedsLB
  fromResult (validateIPFamily cfg)
  fromResult (validateDNS cfg)
  check (checks.mounts cfg) (.invalidConfig (str "mount"))
  check (checks.publishes cfg) (.invalidConfig (str "publish"))
  fromResult (validateK3sArgs cfg.k3sControlPlaneArgs (str "--k3s-controlplane-arg"))
  fromResult (validateK3sArgs cfg.k3sWorkerArgs (str "--k3s-worker-arg"))
  check (cfg.family != str "ipv6") .ipv6K3s
  requireAbsent cfg.name
  createK3sAbsent cfg

theorem within_guarded {α : Type} {name : Str} {action : Action α}
    (acts : Does (Op.TouchesOnly (InCluster name)) action) :
    Within (InCluster name) (guarded name action) fun _ => True :=
  Within.onError (Within.of_acts acts) (confined_cleanupOnFailure name)

section Quiet

variable {only : Str → Prop}

theorem within_requireAbsent (name : Str) :
    Within only (requireAbsent name) fun _ => True := by
  refine Within.list.run.bind fun existing _ => Confined.done ?_
  split <;> trivial

theorem acts_requireCilium : Does (Op.TouchesOnly only) requireCilium := by
  refine Issues.bind (acts_host_iff.mpr ⟨touchesOnly_host, fun _ => trivial⟩) fun found _ => ?_
  exact acts_any.mpr (fun _ => trivial) _

theorem within_validateCNI :
    Within only (validateCNI cfg) fun _ => validateCNIName cfg = .ok () := by
  refine (Within.fromResult fun _ => id).bind fun _ accepted => ?_
  refine (Within.of_acts ?_).mono fun _ (_ : True) => accepted
  simp [acts_requireCilium]

theorem acts_prepareHost :
    Does (Op.TouchesOnly only) (prepareHost cfg) := by
  simp [prepareHost, preflightIPv6Network]

theorem acts_prepareNode (node : Str) :
    Does (Op.TouchesOnly only) (prepareNode cfg node) := by
  simp [prepareNode, nodeIPArg]

theorem acts_installCNI (cp : Str) :
    Does (Op.TouchesOnly only) (installCNI cfg cp) := by
  simp [installCNI, installKindnet, installCilium, installFlannel, acts_requireCilium]

theorem acts_ensureK3sCNIPlugins (node : Str) :
    Does (Op.TouchesOnly only) (ensureK3sCNIPlugins node) := by
  simp [ensureK3sCNIPlugins]

end Quiet

theorem within_provision :
    Within (InCluster cfg.name) (provision cfg) fun _ => True := by
  refine (within_guarded (by simp [bootNodes, acts_prepareNode])).bind fun _ _ => ?_
  refine (within_guarded (by simp [initKubeadm])).bind fun _ _ => ?_
  refine (Within.onlyIf (within_guarded (by simp [joinWorkers]))).bind fun _ _ => ?_
  refine (within_guarded (acts_installCNI cfg _)).bind fun _ _ => ?_
  refine (Within.onlyIf (within_guarded (by simp))).bind fun _ _ => ?_
  refine (within_guarded (by simp [installAddons])).bind fun _ _ => ?_
  refine (Within.onlyIf (within_guarded (by simp))).bind fun _ _ => ?_
  refine (Within.onlyIf (within_guarded (by simp))).bind fun _ _ => ?_
  refine (Within.of_acts (by simp)).bind fun _ (_ : True) => ?_
  refine (Within.onlyIf (within_guarded (by simp))).bind fun _ _ => ?_
  exact Within.of_acts (by simp)

theorem within_provisionK3s :
    Within (InCluster cfg.name) (provisionK3s cfg) fun _ => True := by
  refine (within_guarded (by simp [bootServer])).bind fun _ _ => ?_
  refine Within.bind
    (within_guarded (by simp [installK3sCNI, acts_ensureK3sCNIPlugins])) fun _ _ => ?_
  refine (within_guarded (by simp)).bind fun serverIP _ => ?_
  refine (Within.onlyIf (within_guarded (by
    simp [joinAgents, requireIPv4, acts_ensureK3sCNIPlugins]))).bind fun _ _ => ?_
  refine (within_guarded (by simp)).bind fun _ _ => ?_
  refine (within_guarded (by simp)).bind fun _ _ => ?_
  refine (Within.onlyIf (within_guarded (by simp))).bind fun _ _ => ?_
  refine (Within.onlyIf (within_guarded (by simp))).bind fun _ _ => ?_
  exact Within.of_acts (by simp [writeKubeconfig])

variable {allowed : Str → Prop} {checks : Checks} {cfg : Config} {name : Str} {host : Host}

theorem within_createAbsent (provisions : validateIPFamily cfg = .ok () → validateDNS cfg = .ok () →
      checks.mounts cfg → checks.publishes cfg → validateCNIName cfg = .ok () →
        Within allowed (provision cfg) fun _ => True) :
    Within allowed (createAbsent checks cfg) fun _ => True := by
  refine (Within.fromResult fun _ => id).bind fun _ family => ?_
  refine (Within.fromResult fun _ => id).bind fun _ dns => ?_
  refine Within.check.bind fun _ mounts => ?_
  refine Within.check.bind fun _ publishes => ?_
  refine (within_validateCNI cfg).bind fun _ cni => ?_
  refine (Within.of_acts (acts_prepareHost cfg)).bind fun _ _ => ?_
  exact provisions family dns mounts publishes cni

theorem within_create
    (provisions : Accepted checks cfg → Within allowed (provision cfg) fun _ => True) :
    Within allowed (create checks cfg) fun _ => True := by
  refine Within.check.bind fun _ registryCAs => ?_
  refine Within.check.bind fun _ valid => ?_
  refine Within.check.bind fun _ short => ?_
  refine (within_requireAbsent cfg.name).bind fun _ _ => ?_
  refine within_createAbsent fun family dns mounts publishes cni => ?_
  exact provisions ⟨registryCAs, valid, of_decide_eq_true short, family, dns, mounts, publishes,
    cni⟩

theorem within_createK3sAbsent (provisions : Within allowed (provisionK3s cfg) fun _ => True) :
    Within allowed (createK3sAbsent cfg) fun _ => True := by
  refine (Within.of_acts (acts_prepareHost cfg)).bind fun _ _ => ?_
  exact (Within.of_acts (by simp)).bind fun _ (_ : True) => provisions

theorem within_createK3s
    (provisions : AcceptedK3s checks cfg → Within allowed (provisionK3s cfg) fun _ => True) :
    Within allowed (createK3s checks cfg) fun _ => True := by
  refine Within.check.bind fun _ registryCAs => ?_
  refine Within.check.bind fun _ valid => ?_
  refine Within.check.bind fun _ short => ?_
  refine Within.check.bind fun _ gateway => ?_
  refine (Within.fromResult fun _ => id).bind fun _ family => ?_
  refine (Within.fromResult fun _ => id).bind fun _ dns => ?_
  refine Within.check.bind fun _ mounts => ?_
  refine Within.check.bind fun _ publishes => ?_
  refine (Within.fromResult fun _ => id).bind fun _ serverArgs => ?_
  refine (Within.fromResult fun _ => id).bind fun _ agentArgs => ?_
  refine Within.check.bind fun _ notIPv6 => ?_
  refine (within_requireAbsent cfg.name).bind fun _ _ => ?_
  exact within_createK3sAbsent (provisions ⟨registryCAs, valid, of_decide_eq_true short,
    gateway, family, dns, mounts, publishes, serverArgs, agentArgs,
    by simpa using notIPv6⟩)

/-- The environment in which every command succeeds but those that run a new VM. -/
def refuseRun : Op → Host → Choice
  | .run _ _, _ => ⟨false, fun _ => false, []⟩
  | _, _ => ⟨true, fun _ => true, str "true"⟩

theorem obliging_refuseRun : Obliging refuseRun := by
  intro op host notRun
  cases op with
  | run backend opts => exact absurd rfl (notRun backend opts)
  | _ => rfl

theorem follow_runDetached_refuseRun (opts : RunOpts) (host : Host) :
    (runDetached opts).run.follow machine refuseRun host = (host, .error .command) := by
  have refused : ∀ backend, (Prog.perform (Op.run backend opts)).follow machine refuseRun host =
      (host, .error .command) := by
    intro backend
    rw [Prog.follow_perform]
    simp [machine, step, refuseRun, Choice.acts, Choice.result]
  unfold runDetached
  split
  · exact refused _
  · exact (Prog.follow_bind _ _ _).trans (by
      rw [follow_backendFor obliging_refuseRun.serving]
      exact refused _)

theorem follow_guarded_error {α : Type} {action : Action α}
    {strategy : Op → Host → Choice} {after : Host} {err : Err}
    (fails : action.run.follow machine strategy host = (after, .error err)) :
    (guarded name action).run.follow machine strategy host =
      (((cleanupOnFailure name).follow machine strategy after).1, .error err) := by
  change (action.run >>= _).follow machine strategy host = _
  rw [Prog.follow_bind, fails, Prog.follow_bind]
  rfl

theorem follow_prepareHost_refuseRun (cfg : Config) (host : Host) :
    (prepareHost cfg).run.follow machine refuseRun host = (host, .ok ()) := by
  unfold prepareHost preflightIPv6Network
  cases cfg.wantsIPv6 <;> rfl

theorem follow_provision_refuseRun (cfg : Config) (host : Host) :
    ((provision cfg).run.follow machine refuseRun host).1 =
      ((cleanupOnFailure cfg.name).follow machine refuseRun host).1 := by
  have refused : (bootNodes cfg).run.follow machine refuseRun host =
      (host, .error .command) := by
    unfold bootNodes Config.nodes
    rw [Prog.follow_run_bind, List.forM, Prog.follow_run_bind, follow_runDetached_refuseRun]
  unfold provision
  rw [Prog.follow_run_bind, follow_guarded_error refused]

theorem follow_provisionK3s_refuseRun (cfg : Config) (host : Host) :
    ((provisionK3s cfg).run.follow machine refuseRun host).1 =
      ((cleanupOnFailure cfg.name).follow machine refuseRun host).1 := by
  have refused : (bootServer cfg (controlPlane cfg.name)).run.follow machine refuseRun host =
      (host, .error .command) := by
    unfold bootServer
    rw [Prog.follow_run_bind, follow_runDetached_refuseRun]
  unfold provisionK3s
  rw [Prog.follow_run_bind, follow_guarded_error refused]

theorem follow_createAbsent_refuseRun (accepted : Accepted checks cfg) (host : Host) :
    ((createAbsent checks cfg).run.follow machine refuseRun host).1 =
      ((cleanupOnFailure cfg.name).follow machine refuseRun host).1 := by
  rcases accepted with ⟨_, _, _, family, dns, mounts, publishes, cni⟩
  have cniFollows : (validateCNI cfg).run.follow machine refuseRun host = (host, .ok ()) := by
    unfold validateCNI
    rw [cni]
    cases cfg.cni == str "cilium" <;> rfl
  unfold createAbsent
  rw [family, dns, mounts, publishes]
  change ((validateCNI cfg >>= _).run.follow machine refuseRun host).1 = _
  rw [Prog.follow_run_bind, cniFollows]
  change ((prepareHost cfg >>= _).run.follow machine refuseRun host).1 = _
  rw [Prog.follow_run_bind, follow_prepareHost_refuseRun]
  exact follow_provision_refuseRun cfg host

theorem follow_createK3sAbsent_refuseRun (cfg : Config) (host : Host) :
    ((createK3sAbsent cfg).run.follow machine refuseRun host).1 =
      ((cleanupOnFailure cfg.name).follow machine refuseRun host).1 := by
  unfold createK3sAbsent
  rw [Prog.follow_run_bind, follow_prepareHost_refuseRun]
  exact follow_provisionK3s_refuseRun cfg host

/-- The look for an older cluster gets rows: the store answers, and the `container`
service does too unless the store has a row to show. -/
def Listed (name : Str) (host : Host) (container krunkit : Choice) : Prop :=
  krunkit.succeeds = true ∧
    (container.succeeds = true ∨ host.rows .krunkit (nodePrefix name) ≠ [])

def lookup (name : Str) (host : Host) (container krunkit : Choice) : Except Err (List Info) :=
  mergeRows (answered container host .container (nodePrefix name))
    (answered krunkit host .krunkit (nodePrefix name))

theorem listed_iff {container krunkit : Choice} :
    Listed name host container krunkit ↔
      ∃ infos, lookup name host container krunkit = .ok infos := by
  constructor
  · rintro ⟨krunkitOk, shown⟩
    cases containerOk : container.succeeds with
    | true =>
      simp only [lookup, answered, krunkitOk, containerOk, if_true]
      exact ⟨_, mergeRows_ok host _⟩
    | false =>
      have nonempty := shown.resolve_left (by simp [containerOk])
      have distinct : firstDuplicate [] (host.rows .krunkit (nodePrefix name)) = none :=
        firstDuplicate_eq_none (host.distinct.sublist (List.filter_sublist.map Info.name))
          fun _ _ => List.not_mem_nil
      refine ⟨host.rows .krunkit (nodePrefix name), ?_⟩
      simp [lookup, answered, krunkitOk, containerOk, mergeRows, Except.toOption, distinct,
        nonempty]
  · rintro ⟨infos, found⟩
    rcases mergeRows_eq_ok found with ⟨rows, krunkitOk, ⟨first, containerOk, _⟩ | ⟨_, _, nonempty⟩⟩
    · exact ⟨(answered_eq_ok krunkitOk).1, Or.inl (answered_eq_ok containerOk).1⟩
    · rw [(answered_eq_ok krunkitOk).2] at nonempty
      exact ⟨(answered_eq_ok krunkitOk).1, Or.inr nonempty⟩

theorem exec_requireAbsent_bind (name : Str) (next : Action Unit) (host : Host)
    (container krunkit : Choice) (rest : List Choice) :
    ((requireAbsent name >>= fun _ => next).run.exec machine (container :: krunkit :: rest)
      host).state =
      match lookup name host container krunkit with
      | .ok (_ :: _) => host
      | _ => (next.run.exec machine rest host).state := by
  have looked : ((requireAbsent name >>= fun _ => next).run.exec machine
      (container :: krunkit :: rest) host).state =
      ((fromResult (refuseExisting name (lookup name host container krunkit)) >>=
        fun _ => next).run.exec machine rest host).state := rfl
  rw [looked]
  rcases lookup name host container krunkit with err | infos
  · rfl
  · cases infos <;> rfl

def KeepsExisting (action : Action Unit) (host : Host) (container krunkit : Choice) : Prop :=
  ∀ rest : List Choice, ∀ vm ∈ host.names,
    vm ∈ (action.run.exec machine (container :: krunkit :: rest) host).state.names

theorem keeps_of_within {action : Action Unit}
    (within : Within allowed action fun _ => True) (outside : ∀ vm ∈ host.names, ¬ allowed vm)
    (choices : List Choice) :
    ∀ vm ∈ host.names, vm ∈ (action.run.exec machine choices host).state.names :=
  fun vm mem => mem_names_exec (Confined.not_touched within (outside vm mem)) mem

/--
The look for an older cluster protects the VMs of the host from what follows it exactly
when it gets rows, or when there is nothing to protect.
-/
theorem keepsExisting_requireAbsent_iff {next : Action Unit}
    {container krunkit : Choice} (within : Within (InCluster name) next fun _ => True)
    (cleansUp : (next.run.follow machine refuseRun host).1 =
      ((cleanupOnFailure name).follow machine refuseRun host).1) :
    KeepsExisting (requireAbsent name >>= fun _ => next) host container krunkit ↔
      Listed name host container krunkit ∨ ∀ vm ∈ host.names, ¬ InCluster name vm := by
  simp only [KeepsExisting, exec_requireAbsent_bind, listed_iff]
  cases found : lookup name host container krunkit with
  | error err =>
    constructor
    · intro keeps
      right
      intro vm mem inCluster
      rcases Prog.exists_exec_state next.run refuseRun host with ⟨choices, ends⟩
      have survives := keeps choices vm mem
      rw [ends, cleansUp, follow_cleanupOnFailure obliging_refuseRun] at survives
      exact survives.2 inCluster
    · rintro (⟨_, impossible⟩ | outside) rest
      · cases impossible
      · exact keeps_of_within within outside rest
  | ok infos =>
    refine iff_of_true ?_ (Or.inl ⟨infos, rfl⟩)
    intro rest
    cases infos with
    | cons info infos => exact fun vm mem => mem
    | nil =>
      refine keeps_of_within within ?_ rest
      intro vm mem inCluster
      rcases List.mem_map.mp mem with ⟨info, infoMem, rfl⟩
      have absent := (merged_answers found).2 rfl info infoMem
      rw [InCluster, absent] at inCluster
      exact absurd inCluster (by decide)

/--
A failed create removes none of the VMs that existed before exactly when its look for an
older cluster got rows, when no VM had the cluster's start, or when the configuration is
refused before the first boot. The look ignores an error of `List`, and the cleanup after
a failed boot then removes what a later `List` returns.
-/
theorem create_keepsExisting_iff (checks : Checks) (cfg : Config) (host : Host)
    (container krunkit : Choice) :
    (KeepsExisting (create checks cfg) host container krunkit ↔
      ¬ Accepted checks cfg ∨ Listed cfg.name host container krunkit ∨
        ∀ vm ∈ host.names, ¬ InCluster cfg.name vm) ∧
    (KeepsExisting (createK3s checks cfg) host container krunkit ↔
      ¬ AcceptedK3s checks cfg ∨ Listed cfg.name host container krunkit ∨
        ∀ vm ∈ host.names, ¬ InCluster cfg.name vm) := by
  constructor
  · by_cases accepted : Accepted checks cfg
    · have unchecked : create checks cfg =
          requireAbsent cfg.name >>= fun _ => createAbsent checks cfg := by
        rcases accepted with ⟨registryCAs, valid, short, _⟩
        unfold create
        rw [registryCAs, valid, decide_eq_true short]
        rfl
      rw [unchecked, keepsExisting_requireAbsent_iff
        (within_createAbsent fun _ _ _ _ _ => within_provision cfg)
        (follow_createAbsent_refuseRun accepted host)]
      simp [accepted]
    · refine iff_of_true ?_ (Or.inl accepted)
      intro rest
      have within : Within (fun _ => False) (create checks cfg) fun _ => True :=
        within_create fun accepts => absurd accepts accepted
      exact keeps_of_within within (fun _ _ => id) _
  · by_cases accepted : AcceptedK3s checks cfg
    · have unchecked : createK3s checks cfg =
          requireAbsent cfg.name >>= fun _ => createK3sAbsent cfg := by
        rcases accepted with ⟨registryCAs, valid, short, gateway, family, dns, mounts, publishes,
          serverArgs, agentArgs, notIPv6⟩
        unfold createK3s
        rw [registryCAs, valid, decide_eq_true short, gateway, family, dns, mounts, publishes,
          serverArgs, agentArgs, bne_iff_ne.mpr notIPv6]
        rfl
      rw [unchecked, keepsExisting_requireAbsent_iff
        (within_createK3sAbsent (within_provisionK3s cfg))
        (follow_createK3sAbsent_refuseRun cfg host)]
      simp [accepted]
    · refine iff_of_true ?_ (Or.inl accepted)
      intro rest
      have within : Within (fun _ => False) (createK3s checks cfg) fun _ => True :=
        within_createK3s fun accepts => absurd accepts accepted
      exact keeps_of_within within (fun _ _ => id) _

/-- The default configuration of a single-node cluster named `a`. -/
def singleNode : Config where
  name := str "a"
  image := str "kindest/node"
  workers := 0
  cni := []
  kernel := []
  ipFamily := []
  dns := []
  k3sControlPlaneArgs := []
  k3sWorkerArgs := []
  noMetrics := false
  noStorage := false
  noLB := false
  noEdgeProxy := false
  observability := false
  gateway := false

/-- The host on which the single-node cluster `a` already runs. -/
def singleNodeHost : Host where
  vms := [⟨controlPlane (str "a"), str "kindest/node", str "running", [], .container⟩]
  distinct := by decide

/-- The first `List` fails and every later command succeeds where it can. -/
def flakyList : List Choice :=
  [⟨false, fun _ => false, []⟩, ⟨true, fun _ => true, []⟩] ++
    List.replicate 12 ⟨true, fun _ => true, []⟩

/--
A create under the name of a running cluster fails, since the VM exists, and removes that
cluster when the first `List` did not answer.
-/
theorem failed_create_removes_existing :
    controlPlane (str "a") ∈ singleNodeHost.names ∧
      ((create ⟨fun _ => true, fun _ => true, fun _ => true⟩ singleNode).run.exec machine
        flakyList singleNodeHost).value = some (.error .command) ∧
      ((create ⟨fun _ => true, fun _ => true, fun _ => true⟩ singleNode).run.exec machine
        flakyList singleNodeHost).state.names = [] ∧
      ((createK3s ⟨fun _ => true, fun _ => true, fun _ => true⟩ singleNode).run.exec machine
        flakyList singleNodeHost).value = some (.error .command) ∧
      ((createK3s ⟨fun _ => true, fun _ => true, fun _ => true⟩ singleNode).run.exec machine
        flakyList singleNodeHost).state.names = [] := by
  refine ⟨by decide, rfl, ?_, rfl, ?_⟩ <;> decide

end Kiac.Cluster
