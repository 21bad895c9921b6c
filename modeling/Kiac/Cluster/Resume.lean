import Kiac.Cluster.Topology
import Kiac.Runtime.Issued
import Kiac.Text.Address
import Kiac.Text.Space

/-!
# Resuming a cluster

`Resume` boots every node VM of a cluster and heals what a new set of addresses invalidates, for
kubeadm and k3s, each on `container` VMs and on krunkit VMs. A deadline is a number of polling
rounds. Nodes that are handled concurrently are handled one after the other here; what one worker
does never depends on what another one did.
-/

namespace Kiac.Cluster

open Kiac.Runtime

/-- `dottedQuadRe`: four texts of digits, separated by dots. -/
def dottedQuad (s : Str) : Bool :=
  let parts := s.splitOnP (· == byte '.')
  parts.length == 4 && parts.all fun part => !part.isEmpty && part.all Str.isDigit

/-- `\s` of a regular expression. -/
def isRegexSpace (b : UInt8) : Bool :=
  b == byte ' ' || b == byte '\t' || b == byte '\n' || b == 0x0c || b == byte '\r'

def skipOptional (b : UInt8) : Str → Str
  | c :: rest => if c = b then rest else c :: rest
  | [] => []

def skipExact (start s : Str) : Option Str :=
  if s.hasPrefix start then some (s.drop start.length) else none

/-- `apiServerIPRe` at the start of a text: the address, if the expression matches. -/
def apiServerAt (s : Str) : Option Str := do
  let afterKey ← skipExact (str "server") s
  let afterColon ← skipExact (str ":") (skipOptional (byte '"') afterKey)
  let value := skipOptional (byte '"') (afterColon.dropWhile isRegexSpace)
  let afterScheme ← skipExact (str "https://") value
  let address := afterScheme.takeWhile fun b => Str.isDigit b || b == byte '.'
  let _ ← skipExact (str ":6443") (afterScheme.drop address.length)
  if dottedQuad address then some address else none

/-- `apiServerIP`: the address of the leftmost match. -/
def apiServerIP : Str → Option Str
  | [] => none
  | b :: rest =>
    match apiServerAt (b :: rest) with
    | some address => some address
    | none => apiServerIP rest

/-- Polls until the node's containerd is active; `true` when the VM has stopped. -/
def waitNodeBoot : (polls : ℕ) → (name : Str) → Action Bool
  | 0, name => throw (.notReady name)
  | polls + 1, name => ExceptT.mk do
      let out ← (guest name .isActiveContainerd).run
      if (out.toOption.map Str.trimSpace) = some (str "active") then return .ok false
      let infos ← (list name).run
      if (infos.toOption.getD []).any fun info => info.name == name && !isRunning info then
        return .ok true
      (waitNodeBoot polls name).run

variable (polls : ℕ)

def bootAndWait (node : Str) : Action Unit := do
  let died ← waitNodeBoot polls node
  onlyIf died do
    start node
    let diedAgain ← waitNodeBoot polls node
    check (!diedAgain) (.diedTwice node)

def retry {α : Type} (action : Action α) : ℕ → Action α
  | 0 => action
  | attempts + 1 => ExceptT.mk (action.run >>= fun
      | .ok value => Prog.done (.ok value)
      | .error _ => (retry action attempts).run)

def startStopped (infos : List Info) (nodes : List Str) : Action Unit :=
  nodes.forM fun node => onlyIf (!runningNode infos node) (start node)

def requireIPv4 (address : Str) : Action Unit :=
  check ((Net.parseIP address).any Net.isV4) (.notIPv4 address)

def writeKubeconfig (name cp : Str) (read : GuestStep) : Action Unit := do
  let _ ← guest cp read
  let _ ← host (.mergeKubeconfig name)
  attempt (host .hostReachAPI)

/-- The address in `admin.conf`. -/
def recordedIP (name adminRaw : Str) : Except Err Str :=
  match apiServerIP adminRaw with
  | some address => .ok address
  | none =>
    if Str.contains (str "https://[") adminRaw then .error (.ipv6Resume name)
    else .error .noEndpoint

def healControlPlane (name cp : Str) : Action Str := do
  let newIP ← guest cp .ip
  check (dottedQuad newIP) (.notIPv4 newIP)
  let adminRaw ← guest cp .catAdminConf
  let oldIP ← fromResult (recordedIP name adminRaw)
  onlyIf (oldIP != newIP) (guest cp (.healControlPlane oldIP newIP))
  return newIP

def bootKubeadmNode (node : Str) : Action Unit := do
  bootAndWait polls node
  let _ ← guest node .ipForward
  let _ ← guest node .senderOffloadFix
  let _ ← guest node .repinNodeIPIfNeeded

def resumeKubeadm (name : Str) (infos : List Info) : Action Unit := do
  let (cp, workers) ← fromResult (orderNodes name infos)
  let _ ← host (.preflight false)
  let nodes := cp :: workers
  startStopped infos nodes
  let _ ← Prog.forAll (bootKubeadmNode polls) nodes
  let newIP ← healControlPlane name cp
  let _ ← Prog.forAll (fun node => guest node (.healWorker newIP)) workers
  let _ ← guest cp .waitAPIServer
  let _ ← retry (guest cp (.healConfigMaps newIP)) 5
  let _ ← guest cp (.healEdgeProxySystemd nodes)
  attempt (guest cp .waitNodesReady)
  writeKubeconfig name cp .catAdminConf

/-- One node of a kubeadm cluster of krunkit VMs boots; whether its address was new. -/
def bootKubeadmSystemdNode (node : Str) : Action Bool := do
  let _ ← guest node .waitReady
  let _ ← guest node .senderOffloadFix
  let nodeIP ← guest node .ip
  requireIPv4 nodeIP
  let updated ← guest node .setKubeletSystemdNodeIP
  return !updated.isEmpty

def probe (node : Str) (step : GuestStep) : Action Bool :=
  ExceptT.mk ((guest node step).run >>= fun answer => Prog.done (.ok answer.toOption.isSome))

def restartKiacLB (cp : Str) : Action Unit := do
  let installed ← probe cp .hasKiacLB
  onlyIf installed (guest cp .restartKiacLB)

/-- Heals the control-plane files, or makes sure that kubelet runs on healed ones. -/
def healOrRestart (cp oldIP newIP : Str) : Action Unit :=
  if oldIP ≠ newIP then guest cp (.healControlPlane oldIP newIP) >>= fun _ => pure ()
  else do
    let active ← probe cp .isActiveKubelet
    onlyIf (!active) (guest cp .restartKubelet)

def resumeKubeadmSystemd (name : Str) (infos : List Info) : Action Unit := do
  let (cp, regular, gpu) ← fromResult (orderNodeGroups name infos)
  let workers := regular ++ gpu
  let nodes := cp :: workers
  let _ ← host .krunkitPreflight
  startStopped infos nodes
  let updated ← Prog.forAll bootKubeadmSystemdNode nodes
  let newIP ← guest cp .ip
  requireIPv4 newIP
  let adminRaw ← guest cp .catAdminConf
  let oldIP ← fromResult (match apiServerIP adminRaw with
    | some address => .ok address
    | none => .error .noEndpoint)
  healOrRestart cp oldIP newIP
  let _ ← guest cp .waitAPIServer
  let _ ← Prog.forAll (fun node => guest node (.healWorker newIP)) workers
  let _ ← retry (guest cp (.healConfigMaps newIP)) 5
  let _ ← guest cp (.waitNodeAddresses nodes)
  onlyIf (0 < countStoppedNodes infos || updated.any id || oldIP != newIP)
    (guest cp .refreshNodePods)
  onlyIf (!gpu.isEmpty) (guest cp (.reconcileGPUResources gpu))
  let _ ← guest cp .waitManagedAddons
  let _ ← guest cp (.healEdgeProxySystemd nodes)
  restartKiacLB cp
  writeKubeconfig name cp .catAdminConf

/-- `normalizeServerURL`. -/
def normalizeServerURL (raw : Str) : Str := Str.trimRightByte (byte '/') raw.trimSpace

def rebootAgent (targetURL node : Str) : Action Unit := do
  stop node
  start node
  let _ ← guest node .waitK3sGuest
  let liveURL ← guest node .k3sAgentLiveURL
  check (normalizeServerURL liveURL == targetURL) (.wrongServer node liveURL targetURL)

/-- One k3s agent boots and is pointed at the server; whether it was booted twice. -/
def reconnectAgent (infos : List Info) (targetURL node : Str) : Action Bool := do
  startStopped infos [node]
  let _ ← guest node .waitK3sGuest
  let liveURL ← guest node .k3sAgentLiveURL
  let _ ← guest node (.installK3sResumeHook targetURL)
  onlyIf (normalizeServerURL liveURL != targetURL) (rebootAgent targetURL node)
  return normalizeServerURL liveURL != targetURL

def resumeK3sContainer (name : Str) (infos : List Info) : Action Unit := do
  let (cp, workers) ← fromResult (orderNodes name infos)
  let _ ← host (.preflight false)
  startStopped infos [cp]
  let _ ← guest cp .waitK3sAPI
  let serverIP ← guest cp .ip
  requireIPv4 serverIP
  let targetURL := str "https://" ++ serverIP ++ str ":6443"
  let restarted ← Prog.forAll (reconnectAgent infos targetURL) workers
  let nodes := cp :: workers
  let _ ← guest cp (.waitNodeAddresses nodes)
  onlyIf (0 < countStoppedNodes infos || restarted.any id) (guest cp .refreshNodePods)
  let _ ← guest cp (.healK3sEdgeProxy nodes targetURL)
  writeKubeconfig name cp .catK3sKubeconfig

/-- The K3s service of a krunkit VM gets its current addresses; whether it changed. -/
def reconcileK3sNode (infos : List Info) (serverIP node : Str) : Action Bool := do
  let changed ← guest node (.updateK3sSystemdConfig serverIP)
  let unitChanged ← guest node .ensureK3sGPUUnit
  let anyChanged := !changed.isEmpty || !unitChanged.isEmpty
  let _ ← guest node (.ensureK3sSystemdService (anyChanged || !runningNode infos node))
  return anyChanged

def reconcileK3sAgent (infos : List Info) (serverIP node : Str) : Action Bool := do
  startStopped infos [node]
  let _ ← guest node .waitReady
  let _ ← guest node .ip
  reconcileK3sNode infos serverIP node

def resumeK3sSystemd (name : Str) (infos : List Info) : Action Unit := do
  let (cp, regular, gpu) ← fromResult (orderNodeGroups name infos)
  let workers := regular ++ gpu
  let nodes := cp :: workers
  let _ ← host .krunkitPreflight
  startStopped infos [cp]
  let _ ← guest cp .waitReady
  let serverIP ← guest cp .ip
  requireIPv4 serverIP
  let serverChanged ← reconcileK3sNode infos serverIP cp
  let _ ← guest cp .waitK3sAPI
  let agentsChanged ← Prog.forAll (reconcileK3sAgent infos serverIP) workers
  let _ ← guest cp (.waitNodeAddresses nodes)
  onlyIf (0 < countStoppedNodes infos || serverChanged || agentsChanged.any id)
    (guest cp .refreshNodePods)
  onlyIf (!gpu.isEmpty) (guest cp (.reconcileGPUResources gpu))
  let _ ← guest cp .waitManagedAddons
  let _ ← guest cp (.healEdgeProxySystemd nodes)
  restartKiacLB cp
  writeKubeconfig name cp .catK3sKubeconfig

def resumeK3s (name : Str) (infos : List Info) : Action Unit := do
  let krunkit ← fromResult (krunkitOnlyCluster infos)
  if krunkit then resumeK3sSystemd name infos else resumeK3sContainer name infos

def resume (name : Str) : Action Unit := do
  check (validName name) (.invalidName name)
  let infos ← list (nodePrefix name)
  check (!infos.isEmpty) (.noCluster name)
  if distroFromNodes infos = .k3s then resumeK3s name infos
  else
    let krunkit ← fromResult (krunkitOnlyCluster infos)
    if krunkit then resumeKubeadmSystemd name infos else resumeKubeadm polls name infos

section Issued

variable {allowed : Op → Prop}

variable {node : Str}

theorem acts_waitNodeBoot (looks : allowed (.guest node .isActiveContainerd))
    (lists : ∀ backend, allowed (.list backend node)) :
    Does allowed (waitNodeBoot polls node) := by
  induction polls with
  | zero => exact Acts.throw
  | succ polls ih =>
    refine Issues.bind (acts_guest_iff.mpr ⟨looks, fun _ => trivial⟩) fun out _ => ?_
    split
    · trivial
    · refine Issues.bind (acts_list lists) fun infos _ => ?_
      split
      · trivial
      · exact ih

theorem acts_bootAndWait (looks : allowed (.guest node .isActiveContainerd))
    (lists : ∀ backend, allowed (.list backend node)) (owns : allowed (.owns node))
    (starts : ∀ backend, allowed (.start backend node)) :
    Does allowed (bootAndWait polls node) := by
  simp [bootAndWait, acts_waitNodeBoot polls looks lists, owns, starts]

theorem acts_retry {α : Type} {action : Action α} (acts : Does allowed action)
    (attempts : ℕ) : Does allowed (retry action attempts) := by
  induction attempts with
  | zero => exact acts
  | succ attempts ih =>
    refine Issues.bind acts fun result _ => ?_
    cases result with
    | ok value => trivial
    | error err => exact ih

theorem acts_startStopped (infos : List Info) {nodes : List Str}
    (owns : ∀ node ∈ nodes, allowed (.owns node))
    (starts : ∀ node ∈ nodes, ∀ backend, allowed (.start backend node)) :
    Does allowed (startStopped infos nodes) :=
  Acts.forM fun node mem => by simp [owns node mem, starts node mem]

@[simp]
theorem acts_probe_iff {step : GuestStep} {post : Bool → Prop} :
    Acts allowed post (probe node step) ↔ allowed (.guest node step) ∧ ∀ found, post found := by
  refine and_congr_right fun _ => ⟨fun holds found => ?_, fun holds answer => holds _⟩
  cases found with
  | false => exact holds (.error .noEndpoint)
  | true => exact holds (.ok [])

end Issued

def InCluster (name vm : Str) : Prop := vm.hasPrefix (nodePrefix name) = true

section Confinement

variable {name : Str}

theorem acts_startInCluster (infos : List Info) {nodes : List Str}
    (inCluster : ∀ node ∈ nodes, InCluster name node) :
    Does (Op.TouchesOnly (InCluster name)) (startStopped infos nodes) :=
  acts_startStopped infos (fun _ _ => touchesOnly_owns) fun node mem _ =>
    touchesOnly_start_iff.mpr (inCluster node mem)

variable {node : Str}

theorem acts_bootInCluster (inCluster : InCluster name node) :
    Does (Op.TouchesOnly (InCluster name)) (bootKubeadmNode polls node) := by
  simp [bootKubeadmNode, acts_bootAndWait, inCluster]

theorem acts_bootSystemdInCluster (node : Str) :
    Does (Op.TouchesOnly (InCluster name)) (bootKubeadmSystemdNode node) := by
  simp [bootKubeadmSystemdNode, requireIPv4]

theorem acts_reconnectAgent (infos : List Info) (targetURL : Str)
    (inCluster : InCluster name node) :
    Does (Op.TouchesOnly (InCluster name))
      (reconnectAgent infos targetURL node) := by
  simp [reconnectAgent, acts_startInCluster, rebootAgent, inCluster]

theorem acts_reconcileK3sAgent (infos : List Info) (serverIP : Str)
    (inCluster : InCluster name node) :
    Does (Op.TouchesOnly (InCluster name))
      (reconcileK3sAgent infos serverIP node) := by
  simp [reconcileK3sAgent, acts_startInCluster, reconcileK3sNode, inCluster]

variable (name : Str) (infos : List Info)

theorem acts_resumeKubeadm :
    Does (Op.TouchesOnly (InCluster name)) (resumeKubeadm polls name infos) := by
  refine (acts_fromResult_iff.mpr fun _ ordered => orderNodes_hasPrefix ordered).bind ?_
  rintro ⟨cp, workers⟩ inCluster
  have starts := acts_startInCluster infos inCluster
  have boots := Acts.forAll fun node mem => acts_bootInCluster polls (inCluster node mem)
  simp [starts, boots, healControlPlane, acts_retry, writeKubeconfig]

theorem acts_resumeKubeadmSystemd :
    Does (Op.TouchesOnly (InCluster name)) (resumeKubeadmSystemd name infos) := by
  refine (acts_fromResult_iff.mpr fun _ ordered => orderNodeGroups_hasPrefix ordered).bind ?_
  rintro ⟨cp, regular, gpu⟩ inCluster
  have starts := acts_startInCluster infos inCluster
  simp [starts, acts_bootSystemdInCluster, requireIPv4, healOrRestart, restartKiacLB, acts_retry,
    writeKubeconfig]

theorem acts_resumeK3sContainer :
    Does (Op.TouchesOnly (InCluster name)) (resumeK3sContainer name infos) := by
  refine (acts_fromResult_iff.mpr fun _ ordered => orderNodes_hasPrefix ordered).bind ?_
  rintro ⟨cp, workers⟩ inCluster
  rw [List.forall_mem_cons] at inCluster
  have starts := acts_startInCluster infos (List.forall_mem_singleton.mpr inCluster.1)
  have agents := fun targetURL => Acts.forAll fun node mem =>
    acts_reconnectAgent infos targetURL (inCluster.2 node mem)
  simp [starts, agents, requireIPv4, writeKubeconfig]

theorem acts_resumeK3sSystemd :
    Does (Op.TouchesOnly (InCluster name)) (resumeK3sSystemd name infos) := by
  refine (acts_fromResult_iff.mpr fun _ ordered => orderNodeGroups_hasPrefix ordered).bind ?_
  rintro ⟨cp, regular, gpu⟩ inCluster
  rw [List.forall_mem_cons] at inCluster
  have starts := acts_startInCluster infos (List.forall_mem_singleton.mpr inCluster.1)
  have agents := fun serverIP => Acts.forAll fun node mem =>
    acts_reconcileK3sAgent infos serverIP (inCluster.2 node mem)
  simp [starts, agents, requireIPv4, reconcileK3sNode, restartKiacLB, writeKubeconfig]

theorem within_resume (name : Str) :
    Within (InCluster name) (resume polls name) fun _ => True := by
  apply Within.of_acts
  simp [resume, resumeK3s, acts_list, acts_resumeK3sSystemd, acts_resumeK3sContainer,
    acts_resumeKubeadmSystemd, acts_resumeKubeadm]

end Confinement

end Kiac.Cluster
