import Kiac.Cluster.Endpoint
import Kiac.Text.HostPort

/-!
# Healing steps that look before they write

Four steps of a resume compare a file of a node with what it should hold, and only if it differs
replace it and restart the service that reads it. A step may stop between any two of its commands;
for every file it is recorded whether it has changed since its service was last started.
-/

namespace Kiac.Cluster.Guarded

open Kiac.Str

inductive NodeFile where
  | kubeletConf
  | defaultKubelet
  | sysconfigKubelet
  | k3sConfig
  | k3sUnit
deriving DecidableEq

inductive Service where
  | kubelet
  | k3s
deriving DecidableEq

def NodeFile.reader : NodeFile → Service
  | .k3sConfig => .k3s
  | .k3sUnit => .k3s
  | _ => .kubelet

structure GuestNode where
  files : NodeFile → Str
  /-- The temporary file of the script that runs. -/
  tmp : Str
  active : Service → Bool
  /-- The file has changed since its service was last started. -/
  stale : NodeFile → Bool
  ipv4 : Str
  ipv6 : Str

namespace GuestNode

def write (file : NodeFile) (text : Str) (node : GuestNode) : GuestNode :=
  { node with
    files := Function.update node.files file text
    stale := Function.update node.stale file (node.stale file || node.files file != text) }

def restart (service : Service) (node : GuestNode) : GuestNode :=
  { node with
    active := Function.update node.active service true
    stale := fun file => if file.reader = service then false else node.stale file }

def start (service : Service) (node : GuestNode) : GuestNode :=
  if node.active service then node else node.restart service

end GuestNode

/-- The text with dots for arbitrary bytes is found at the start of a line's rest. -/
def matchesAt : (pattern s : Str) → Bool
  | [], _ => true
  | p :: pattern, b :: s => (p == b || p == byte '.' && b != byte '\n') && matchesAt pattern s
  | _ :: _, [] => false

/-- `grep -q` of a text with dots. -/
def grep (pattern : Str) : Str → Bool
  | [] => matchesAt pattern []
  | b :: s => matchesAt pattern (b :: s) || grep pattern s

/-- The rest of a line from `:6443` on, if the line starts with the address of a server. -/
def serverAt (line : Str) : Option Str := do
  let address ← skipExact (str "server: https://") line
  let digits := address.takeWhile isQuadByte
  let port := address.drop digits.length
  if !digits.isEmpty && Str.hasPrefix port (str ":6443") then some port else none

def sedLine (cpIP : Str) : Str → Str
  | [] => []
  | b :: line =>
    match serverAt (b :: line) with
    | some port => str "server: https://" ++ cpIP ++ port
    | none => b :: sedLine cpIP line

def sedServer (cpIP content : Str) : Str :=
  [byte '\n'].intercalate ((content.splitOnP (· == byte '\n')).map (sedLine cpIP))

inductive IPFamily where
  | dualStack
  | ipv6

def afterFirst (key : Str) : Str → Option Str
  | [] => none
  | b :: s => if Str.hasPrefix (b :: s) key then some ((b :: s).drop key.length) else afterFirst key s

/-- The family of the addresses that are pinned, if more than an IPv4 address is. -/
def pinnedFamily (kubeletDefault : Str) : Option IPFamily := do
  let rest ← afterFirst (str "--node-ip=") kubeletDefault
  let val := rest.takeWhile fun b =>
    !(b == byte ' ' || b == byte '\t' || b == byte '\r' || b == byte '\n')
  if val.contains (byte ',') then some .dualStack
  else if val.contains (byte ':') then some .ipv6
  else none

inductive StepErr where
  | command
  | noIPv6
  | invalidIPv4 (node address : Str)
  | parsing (node : Str)
deriving DecidableEq

inductive NodeOp where
  | cat (file : NodeFile)
  | grepServer (cpIP : Str)
  | sedServer (cpIP : Str)
  | printf (file : NodeFile) (text : Str)
  | mktemp (file : NodeFile)
  | fillTmp (text : Str)
  | chmodTmp
  | moveTmp (file : NodeFile)
  | daemonReload
  | ipv6BootPrep
  | restart (service : Service)
  | start (service : Service)
  | isActive (service : Service)
  | ip
  | waitNodeIPv6

structure StepChoice where
  succeeds : Bool
  acted : Bool

def NodeOp.effect (node : GuestNode) : NodeOp → GuestNode
  | sedServer cpIP => node.write .kubeletConf (Guarded.sedServer cpIP (node.files .kubeletConf))
  | printf file text => node.write file text
  | fillTmp text => { node with tmp := text }
  | moveTmp file => node.write file node.tmp
  | restart service => node.restart service
  | start service => node.start service
  | _ => node

def NodeOp.answer (node : GuestNode) : NodeOp → Except StepErr Str
  | cat file => .ok (node.files file)
  | grepServer cpIP =>
    let found := grep (str "server: https://" ++ cpIP ++ str ":6443") (node.files .kubeletConf)
    .ok (if found then str "0" else str "1")
  | ip => .ok node.ipv4
  | waitNodeIPv6 => if node.ipv6.isEmpty then .error .noIPv6 else .ok node.ipv6
  | isActive service => if node.active service then .ok [] else .error .command
  | _ => .ok []

abbrev NodeOp.Ans (_ : NodeOp) : Type := Except StepErr Str

def nodeMachine : Machine NodeOp NodeOp.Ans GuestNode StepChoice where
  step op choice node :=
    (if choice.succeeds || choice.acted then op.effect node else node,
      if choice.succeeds then op.answer node else .error .command)

abbrev StepAction (α : Type) := ExceptT StepErr (Prog NodeOp NodeOp.Ans) α

def run (op : NodeOp) : StepAction Str := ExceptT.mk (Prog.perform op)

def healWorkerScript (cpIP : Str) : StepAction Unit := do
  let status ← run (.grepServer cpIP)
  if status ≠ str "0" then
    let _ ← run (.sedServer cpIP)
    let _ ← run (.restart .kubelet)

def nodeIPArg (family : IPFamily) : StepAction Str := do
  let v6 ← run .waitNodeIPv6
  match family with
  | .ipv6 => return v6
  | .dualStack =>
    let v4 ← run .ip
    return v4 ++ str "," ++ v6

def repinNodeIPIfNeeded : StepAction Unit := do
  let out ← run (.cat .defaultKubelet)
  match pinnedFamily out with
  | none => return ()
  | some family =>
    let _ ← run .ipv6BootPrep
    let nodeIP ← nodeIPArg family
    let desired := str "KUBELET_EXTRA_ARGS=--node-ip=" ++ nodeIP
    if Str.contains desired out then return ()
    let _ ← run (.printf .defaultKubelet (desired ++ str "\n"))
    let _ ← run (.restart .kubelet)

def replaceFile (file : NodeFile) (text : Str) : StepAction Unit := do
  let _ ← run (.mktemp file)
  let _ ← run (.fillTmp text)
  let _ ← run .chmodTmp
  let _ ← run (.moveTmp file)

/-- The text of `/etc/sysconfig/kubelet`. -/
def sysconfigText (nodeIP : Str) : Str :=
  str "KUBELET_EXTRA_ARGS=--fail-swap-on=false --node-ip=" ++ nodeIP

def setKubeletSystemdNodeIP (node nodeIP : Str) : StepAction Bool := do
  if !(Net.parseIP nodeIP).any Net.isV4 then throw (.invalidIPv4 node nodeIP)
  let current ← run (.cat .sysconfigKubelet)
  if current.trimSpace = sysconfigText nodeIP then return false
  replaceFile .sysconfigKubelet (sysconfigText nodeIP ++ str "\n")
  let _ ← run (.restart .kubelet)
  return true

inductive YamlValue where
  | text (value : Str)
  | texts (values : List Str)
  | other (raw : Str)
deriving DecidableEq

abbrev K3sConfig := List (Str × YamlValue)

structure Yaml where
  unmarshal : Str → Option K3sConfig
  marshal : K3sConfig → Str

def setKey (config : K3sConfig) (key : Str) (value : YamlValue) : K3sConfig :=
  (key, value) :: config.filter fun entry => entry.1 != key

def setK3sConfigString (config : K3sConfig) (key value : Str) : K3sConfig × Bool :=
  if config.lookup key = some (.text value) then (config, false)
  else (setKey config key (.text value), true)

inductive Role where
  | server
  | agent
deriving DecidableEq

def Role.text : Role → Str
  | server => str "server"
  | agent => str "agent"

def desiredConfig (node : Str) (role : Role) (nodeIP serverIP : Str) (config : K3sConfig) :
    K3sConfig × Bool :=
  let (config, changed) := setK3sConfigString config (str "node-ip") nodeIP
  match role with
  | .server =>
    let (config, advertised) := setK3sConfigString config (str "advertise-address") serverIP
    if config.lookup (str "tls-san") = some (.texts [node, serverIP]) then
      (config, advertised || changed)
    else (setKey config (str "tls-san") (.texts [node, serverIP]), true)
  | .agent =>
    let (config, pointed) := setK3sConfigString config (str "server")
      (str "https://" ++ Net.joinHostPort serverIP (str "6443"))
    (config, pointed || changed)

variable (yaml : Yaml)

def updateK3sSystemdConfig (node : Str) (role : Role) (nodeIP serverIP : Str) :
    StepAction Bool := do
  let raw ← run (.cat .k3sConfig)
  match yaml.unmarshal raw with
  | none => throw (.parsing node)
  | some config =>
    let (updated, changed) := desiredConfig node role nodeIP serverIP config
    if !changed then return false
    replaceFile .k3sConfig (yaml.marshal updated)
    return true

def k3sGPUUnit (role : Role) : Str :=
  str "[Unit]\nDescription=Lightweight Kubernetes\nDocumentation=https://k3s.io\n" ++
  str "Wants=network-online.target\nAfter=network-online.target\n\n[Service]\n" ++
  str "# Kiac performs bounded API and node readiness checks after starting the\n" ++
  str "# service. Type=exec avoids an unbounded systemctl wait if an agent never\n" ++
  str "# emits sd_notify despite having registered successfully.\n" ++
  str "Type=exec\nEnvironmentFile=-/etc/default/%N\nKillMode=process\nDelegate=yes\n" ++
  str "LimitNOFILE=1048576\nLimitNPROC=infinity\nLimitCORE=infinity\nTasksMax=infinity\n" ++
  str "TimeoutStartSec=0\nRestart=always\nRestartSec=5s\nExecStart=/usr/local/bin/k3s " ++
  role.text ++ str "\n\n[Install]\nWantedBy=multi-user.target\n"

def ensureK3sGPUUnit (role : Role) : StepAction Bool := ExceptT.mk do
  let current ← (run (.cat .k3sUnit)).run
  if current = .ok (k3sGPUUnit role) then return .ok false
  (do
    replaceFile .k3sUnit (k3sGPUUnit role)
    let _ ← run .daemonReload
    return true : StepAction Bool).run

def ensureK3sSystemdService (restart : Bool) : StepAction Unit :=
  if restart then do
    let _ ← run (.restart .k3s)
  else ExceptT.mk do
    match ← (run (.isActive .k3s)).run with
    | .ok _ => return .ok ()
    | .error _ => (do let _ ← run (.start .k3s) : StepAction Unit).run

inductive HealStep where
  | worker (cpIP : Str)
  | repin
  | sysconfig (node nodeIP : Str)
  | k3s (node : Str) (role : Role) (nodeIP serverIP : Str) (running : Bool)

namespace HealStep

def file : HealStep → NodeFile
  | worker _ => .kubeletConf
  | repin => .defaultKubelet
  | sysconfig _ _ => .sysconfigKubelet
  | k3s _ _ _ _ _ => .k3sConfig

def program : HealStep → StepAction Unit
  | worker cpIP => healWorkerScript cpIP
  | repin => repinNodeIPIfNeeded
  | sysconfig node nodeIP => do
      let _ ← setKubeletSystemdNodeIP node nodeIP
  | k3s node role nodeIP serverIP running => do
      let changed ← updateK3sSystemdConfig yaml node role nodeIP serverIP
      let unitChanged ← ensureK3sGPUUnit role
      ensureK3sSystemdService (changed || unitChanged || !running)

def pinText (node : GuestNode) : IPFamily → Str
  | .ipv6 => str "KUBELET_EXTRA_ARGS=--node-ip=" ++ node.ipv6
  | .dualStack => str "KUBELET_EXTRA_ARGS=--node-ip=" ++ (node.ipv4 ++ str "," ++ node.ipv6)

def skips (before : GuestNode) : HealStep → Bool
  | worker cpIP =>
    grep (str "server: https://" ++ cpIP ++ str ":6443") (before.files .kubeletConf)
  | repin =>
    match pinnedFamily (before.files .defaultKubelet) with
    | none => true
    | some family =>
      !before.ipv6.isEmpty &&
        Str.contains (pinText before family) (before.files .defaultKubelet)
  | sysconfig _ nodeIP =>
    (Net.parseIP nodeIP).any Net.isV4 &&
      (before.files .sysconfigKubelet).trimSpace == sysconfigText nodeIP
  | k3s node role nodeIP serverIP running =>
    (yaml.unmarshal (before.files .k3sConfig)).any
        (fun config => !(desiredConfig node role nodeIP serverIP config).2) &&
      before.files .k3sUnit == k3sGPUUnit role && running && before.active .k3s

end HealStep

def faulty : Setting NodeOp NodeOp.Ans GuestNode StepChoice where
  machine := nodeMachine
  fair := fun _ _ _ => True
  guard := fun _ _ => True

section Steps

variable {α β : Type} {pre : GuestNode → Prop}

theorem returns_any (action : StepAction α) :
    Returns faulty pre action (fun _ _ => True) fun _ => True := by
  intro node _
  refine Prog.wp_mono (Prog.wp_of_invariant (fun _ _ _ _ _ => trivial) action.run trivial) ?_
  intro result _ _
  cases result <;> trivial

theorem returns_run {op : NodeOp} {post : Str → GuestNode → Prop}
    (succeeds : ∀ node text, pre node → op.answer node = .ok text → post text (op.effect node)) :
    Returns faulty pre (run op) post fun _ => True := by
  refine Triple.perform (fun _ _ => trivial) ?_
  intro node choice isPre _
  cases works : choice.succeeds with
  | false =>
    have stepped : (faulty.machine.step op choice node).2 = .error .command := by
      simp [faulty, nodeMachine, works]
    rw [stepped]
    trivial
  | true =>
    have stepped : faulty.machine.step op choice node = (op.effect node, op.answer node) := by
      simp [faulty, nodeMachine, works]
    rw [stepped]
    cases answer : op.answer node with
    | ok text => exact succeeds node text isPre answer
    | error err => trivial

theorem returns_restart (service : Service) :
    Returns faulty pre (run (.restart service))
      (fun _ node => ∀ file : NodeFile, file.reader = service → node.stale file = false)
      fun _ => True := by
  refine returns_run ?_
  intro node _ _ _ file reads
  exact if_pos reads

theorem returns_restarted {action : StepAction α} {service : Service} {file : NodeFile}
    {condition : Prop} {value : β} (reads : file.reader = service) :
    Returns faulty pre (action >>= fun _ => run (.restart service) >>= fun _ => pure value)
      (fun _ node => node.stale file → condition) fun _ => True := by
  refine (returns_any action).bind fun _ => ?_
  refine (returns_restart service).bind fun _ => Returns.pure ?_
  intro node fresh stale
  rw [fresh file reads] at stale
  exact Bool.noConfusion stale

end Steps

section Guards

variable {before : GuestNode}

theorem returns_read {op : NodeOp} {text : Str} (reads : op.effect before = before)
    (prints : ∀ found, op.answer before = .ok found → found = text) :
    Returns faulty (fun node => node = before) (run op)
      (fun found node => node = before ∧ found = text) fun _ => True := by
  refine returns_run ?_
  rintro node found rfl answer
  exact ⟨reads, prints found answer⟩

theorem returns_cat (file : NodeFile) :
    Returns faulty (fun node => node = before) (run (.cat file))
      (fun found node => node = before ∧ found = before.files file) fun _ => True :=
  returns_read rfl fun _ answer => (Except.ok.inj answer).symm

theorem returns_waitNodeIPv6 :
    Returns faulty (fun node => node = before) (run .waitNodeIPv6)
      (fun found node => (node = before ∧ found = before.ipv6) ∧ before.ipv6.isEmpty = false)
      fun _ => True := by
  refine returns_run ?_
  rintro node found rfl answer
  simp only [NodeOp.answer] at answer
  split at answer
  · cases answer
  · rename_i present
    exact ⟨⟨rfl, (Except.ok.inj answer).symm⟩, Bool.not_eq_true _ ▸ present⟩

theorem returns_healWorkerScript (cpIP : Str) :
    Returns faulty (fun node => node = before) (healWorkerScript cpIP)
      (fun _ node => node.stale .kubeletConf →
        before.stale .kubeletConf ∧ (HealStep.worker cpIP).skips yaml before)
      fun _ => True := by
  refine Returns.bind (returns_read rfl fun _ answer => (Except.ok.inj answer).symm)
    fun status => Returns.assume fun isStatus => ?_
  split
  · exact returns_restarted rfl
  · rename_i found
    rw [not_not, isStatus] at found
    refine Returns.pure ?_
    rintro node rfl stale
    refine ⟨stale, ?_⟩
    split at found
    · rename_i matches'
      exact matches'
    · exact absurd found (by decide)

theorem returns_nodeIPArg (family : IPFamily) :
    Returns faulty (fun node => node = before) (nodeIPArg family)
      (fun nodeIP node => node = before ∧ before.ipv6.isEmpty = false ∧
        str "KUBELET_EXTRA_ARGS=--node-ip=" ++ nodeIP = HealStep.pinText before family)
      fun _ => True := by
  refine returns_waitNodeIPv6.bind fun v6 => Returns.assume fun present =>
    Returns.assume fun isV6 => ?_
  subst isV6
  cases family with
  | ipv6 => exact Returns.pure fun node same => ⟨same, present, rfl⟩
  | dualStack =>
    refine Returns.bind (returns_read rfl fun _ answer => (Except.ok.inj answer).symm)
      fun v4 => Returns.assume fun isV4 => ?_
    subst isV4
    exact Returns.pure fun node same => ⟨same, present, rfl⟩

theorem returns_repinNodeIPIfNeeded :
    Returns faulty (fun node => node = before) repinNodeIPIfNeeded
      (fun _ node => node.stale .defaultKubelet →
        before.stale .defaultKubelet ∧ HealStep.repin.skips yaml before)
      fun _ => True := by
  refine (returns_cat .defaultKubelet).bind fun out => Returns.assume ?_
  rintro rfl
  have skips : HealStep.repin.skips yaml before =
      match pinnedFamily (before.files .defaultKubelet) with
      | none => true
      | some family => !before.ipv6.isEmpty &&
          Str.contains (HealStep.pinText before family) (before.files .defaultKubelet) := rfl
  rw [skips]
  cases pinnedFamily (before.files .defaultKubelet) with
  | none =>
    refine Returns.pure ?_
    rintro node rfl stale
    exact ⟨stale, rfl⟩
  | some family =>
    have prepares : Returns faulty (fun node => node = before) (run .ipv6BootPrep)
        (fun _ node => node = before) fun _ => True := returns_run fun _ _ same _ => same
    refine prepares.bind fun _ => ?_
    refine (returns_nodeIPArg family).bind fun nodeIP => Returns.assume ?_
    rintro ⟨present, desired⟩
    rw [desired]
    dsimp only
    split
    · rename_i current
      refine Returns.pure ?_
      rintro node rfl stale
      exact ⟨stale, by rw [present, current]; rfl⟩
    · exact returns_restarted rfl

theorem returns_setKubeletSystemdNodeIP (node nodeIP : Str) :
    Returns faulty (fun node => node = before) (setKubeletSystemdNodeIP node nodeIP)
      (fun _ after => after.stale .sysconfigKubelet →
        before.stale .sysconfigKubelet ∧
          (HealStep.sysconfig node nodeIP).skips yaml before)
      fun _ => True := by
  unfold setKubeletSystemdNodeIP
  split
  · exact fun _ _ => trivial
  · rename_i isV4
    rw [Bool.not_eq_true', Bool.not_eq_false] at isV4
    refine (returns_cat .sysconfigKubelet).bind fun current => Returns.assume ?_
    rintro rfl
    split
    · rename_i current
      refine Returns.pure ?_
      rintro after rfl stale
      exact ⟨stale, by simp only [HealStep.skips, isV4, current, beq_self_eq_true, Bool.and_self]⟩
    · exact returns_restarted rfl

theorem returns_updateK3sSystemdConfig (node : Str) (role : Role)
    (nodeIP serverIP : Str) :
    Returns faulty (fun node => node = before)
      (updateK3sSystemdConfig yaml node role nodeIP serverIP)
      (fun changed after => changed = false → after = before ∧
        (yaml.unmarshal (before.files .k3sConfig)).any
          (fun config => !(desiredConfig node role nodeIP serverIP config).2))
      fun _ => True := by
  refine (returns_cat .k3sConfig).bind fun raw => Returns.assume ?_
  rintro rfl
  cases yaml.unmarshal (before.files .k3sConfig) with
  | none => exact fun _ _ => trivial
  | some config =>
    dsimp only
    rw [Option.any_some]
    split
    · rename_i unchanged
      exact Returns.pure fun _ same _ => ⟨same, unchanged⟩
    · exact (returns_any _).bind fun _ => Returns.pure fun _ _ impossible =>
        Bool.noConfusion impossible

theorem returns_ensureK3sGPUUnit (role : Role) :
    Returns faulty (fun node => node = before) (ensureK3sGPUUnit role)
      (fun changed after => changed = false → after = before ∧
        before.files .k3sUnit = k3sGPUUnit role)
      fun _ => True := by
  refine Triple.bind (returns_cat .k3sUnit) fun current => ?_
  have written : Returns faulty (fun _ => True) (do
      replaceFile .k3sUnit (k3sGPUUnit role)
      let _ ← run .daemonReload
      return true : StepAction Bool)
      (fun changed after => changed = false → after = before ∧
        before.files .k3sUnit = k3sGPUUnit role) fun _ => True := by
    refine (returns_any _).bind fun _ => (returns_any _).bind fun _ => ?_
    exact Returns.pure fun _ _ impossible => Bool.noConfusion impossible
  by_cases isCurrent : current = .ok (k3sGPUUnit role)
  · subst isCurrent
    rw [if_pos rfl]
    rintro after ⟨same, read⟩ _
    exact ⟨same, read.symm⟩
  · rw [if_neg isCurrent]
    exact fun after _ => written after trivial

theorem returns_start :
    Returns faulty (fun node => node = before) (run (.start .k3s))
      (fun _ after => after.stale .k3sConfig →
        before.stale .k3sConfig ∧ before.active .k3s) fun _ => True := by
  refine returns_run ?_
  rintro node _ rfl _ stale
  by_cases isActive : node.active .k3s = true
  · refine ⟨?_, isActive⟩
    rwa [NodeOp.effect, GuestNode.start, if_pos isActive] at stale
  · rw [NodeOp.effect, GuestNode.start, if_neg isActive] at stale
    exact absurd stale Bool.false_ne_true

theorem returns_ensureK3sSystemdService :
    Returns faulty (fun node => node = before) (ensureK3sSystemdService false)
      (fun _ after => after.stale .k3sConfig →
        before.stale .k3sConfig ∧ before.active .k3s) fun _ => True := by
  have probes : Triple faulty (fun node => node = before) (run (.isActive .k3s)).run
      fun answer node => node = before ∧ (answer.toOption.isSome = true → before.active .k3s = true) := by
    refine Triple.perform (fun _ _ => trivial) ?_
    rintro node choice rfl _
    have unchanged : (faulty.machine.step (.isActive .k3s) choice node).1 = node := by
      simp [faulty, nodeMachine, NodeOp.effect]
    refine ⟨unchanged, ?_⟩
    intro answered
    by_contra inactive
    simp [faulty, nodeMachine, NodeOp.answer, inactive, Except.toOption] at answered
  refine probes.bind fun answer => ?_
  cases answer with
  | ok text =>
    rintro node ⟨rfl, isActive⟩ stale
    exact ⟨stale, isActive rfl⟩
  | error err =>
    rintro node ⟨same, _⟩
    exact returns_start.bind (fun _ => Returns.pure fun _ => id) node same

theorem returns_k3s (node : Str) (role : Role) (nodeIP serverIP : Str)
    (running : Bool) :
    Returns faulty (fun node => node = before)
      ((HealStep.k3s node role nodeIP serverIP running).program yaml)
      (fun _ after => after.stale .k3sConfig → before.stale .k3sConfig ∧
        (HealStep.k3s node role nodeIP serverIP running).skips yaml before)
      fun _ => True := by
  have restarts : ∀ (condition : Prop) (pre : GuestNode → Prop), Returns faulty pre
      (ensureK3sSystemdService true) (fun _ after => after.stale .k3sConfig = true → condition)
      fun _ => True := by
    intro condition pre
    refine (returns_restart .k3s).bind fun _ => Returns.pure ?_
    intro after fresh stale
    rw [fresh .k3sConfig rfl] at stale
    exact Bool.noConfusion stale
  refine (returns_updateK3sSystemdConfig yaml node role nodeIP serverIP).bind
    fun changed => ?_
  cases changed with
  | true => exact (returns_any _).bind fun unitChanged => restarts _ _
  | false =>
    rintro after updated
    rcases updated rfl with ⟨rfl, current⟩
    refine (returns_ensureK3sGPUUnit role).bind (fun unitChanged => ?_) after rfl
    cases unitChanged with
    | true => exact restarts _ _
    | false =>
      cases running with
      | false => exact restarts _ _
      | true =>
        rintro node unit
        rcases unit rfl with ⟨rfl, isCurrent⟩
        refine Prog.wp_mono (returns_ensureK3sSystemdService node rfl) ?_
        intro result last ends
        cases result with
        | error err => trivial
        | ok value =>
          intro stale
          rcases ends stale with ⟨wasStale, isActive⟩
          refine ⟨wasStale, ?_⟩
          simp only [HealStep.skips, current, isCurrent, isActive, beq_self_eq_true,
            Bool.and_self]

/-- A step that succeeds leaves the service restarted, unless it has found nothing to change
and the file was stale already. -/
theorem returns_program (step : HealStep) :
    Returns faulty (fun node => node = before) (step.program yaml)
      (fun _ after => after.stale step.file →
        before.stale step.file ∧ step.skips yaml before)
      fun _ => True := by
  cases step with
  | worker cpIP => exact returns_healWorkerScript yaml cpIP
  | repin => exact returns_repinNodeIPIfNeeded yaml
  | sysconfig node nodeIP =>
    exact (returns_setKubeletSystemdNodeIP yaml node nodeIP).bind fun _ =>
      Returns.pure fun _ => id
  | k3s node role nodeIP serverIP running =>
    exact returns_k3s yaml node role nodeIP serverIP running

end Guards

def succeed : NodeOp → GuestNode → StepChoice := fun _ _ => ⟨true, true⟩

theorem follow_run (op : NodeOp) (node : GuestNode) :
    (run op).run.follow nodeMachine succeed node = (op.effect node, op.answer node) := rfl

theorem follow_program_of_skips {yaml : Yaml} {step : HealStep} {before : GuestNode}
    (skips : step.skips yaml before) :
    (step.program yaml).run.follow nodeMachine succeed before = (before, .ok ()) := by
  cases step with
  | worker cpIP =>
    have found : grep (str "server: https://" ++ cpIP ++ str ":6443") (before.files .kubeletConf) =
        true := skips
    simp only [HealStep.program, healWorkerScript, Prog.follow_run_bind, follow_run,
      NodeOp.answer, NodeOp.effect, found, if_true]
    rfl
  | repin =>
    simp only [HealStep.skips] at skips
    simp only [HealStep.program, repinNodeIPIfNeeded, Prog.follow_run_bind, follow_run,
      NodeOp.answer, NodeOp.effect]
    cases family : pinnedFamily (before.files .defaultKubelet) with
    | none => rfl
    | some pinned =>
      rw [family, Bool.and_eq_true, Bool.not_eq_true'] at skips
      rcases skips with ⟨present, current⟩
      cases pinned with
      | ipv6 =>
        simp only [nodeIPArg, Prog.follow_run_bind, follow_run, NodeOp.answer, NodeOp.effect,
          present]
        change Prog.follow _ _ (ExceptT.run (if Str.contains (HealStep.pinText before .ipv6)
          (before.files .defaultKubelet) = true then _ else _)) before = _
        rw [if_pos current]
        rfl
      | dualStack =>
        simp only [nodeIPArg, Prog.follow_run_bind, follow_run, NodeOp.answer, NodeOp.effect,
          present]
        change Prog.follow _ _ (ExceptT.run (if Str.contains (HealStep.pinText before .dualStack)
          (before.files .defaultKubelet) = true then _ else _)) before = _
        rw [if_pos current]
        rfl
  | sysconfig node nodeIP =>
    simp only [HealStep.skips, Bool.and_eq_true, beq_iff_eq] at skips
    simp only [HealStep.program, setKubeletSystemdNodeIP, Prog.follow_run_bind, follow_run,
      NodeOp.answer, NodeOp.effect, skips.1, skips.2, Bool.not_true, Bool.false_eq_true, if_false,
      if_true]
    rfl
  | k3s node role nodeIP serverIP running =>
    simp only [HealStep.skips, Bool.and_eq_true, beq_iff_eq] at skips
    rcases skips with ⟨⟨⟨current, unit⟩, rfl⟩, isActive⟩
    have updates : (updateK3sSystemdConfig yaml node role nodeIP serverIP).run.follow nodeMachine
        succeed before = (before, .ok false) := by
      simp only [updateK3sSystemdConfig, Prog.follow_run_bind, follow_run, NodeOp.answer,
        NodeOp.effect]
      cases parsed : yaml.unmarshal (before.files .k3sConfig) with
      | none =>
        rw [parsed] at current
        exact Bool.noConfusion current
      | some config =>
        rw [parsed, Option.any_some] at current
        dsimp only
        rw [if_pos current]
        rfl
    have units : (ensureK3sGPUUnit role).run.follow nodeMachine succeed before =
        (before, .ok false) := by
      change Prog.follow _ _ (if (Except.ok (before.files .k3sUnit) : Except StepErr Str) =
        .ok (k3sGPUUnit role) then _ else _) before = _
      rw [if_pos (by rw [unit])]
      rfl
    have services : (ensureK3sSystemdService false).run.follow nodeMachine succeed before =
        (before, .ok ()) := by
      have answer : NodeOp.answer before (.isActive .k3s) = .ok [] := if_pos isActive
      change Prog.follow _ _ (match NodeOp.answer before (.isActive .k3s) with
        | .ok _ => _
        | .error _ => _) before = _
      rw [answer]
      rfl
    simp only [HealStep.program, Prog.follow_run_bind, updates, units]
    exact services

structure Attempt where
  ipv4 : Str
  ipv6 : Str
  step : HealStep
  choices : List StepChoice

def GuestNode.at (ipv4 ipv6 : Str) (node : GuestNode) : GuestNode :=
  { node with ipv4 := ipv4, ipv6 := ipv6 }

def HealStep.attempt (step : HealStep) (choices : List StepChoice)
    (node : GuestNode) : Outcome NodeOp GuestNode StepChoice (Except StepErr Unit) :=
  (step.program yaml).run.exec nodeMachine choices node

def afterAttempts (attempts : List Attempt) (node : GuestNode) : GuestNode :=
  attempts.foldl (fun node attempt =>
    (attempt.step.attempt yaml attempt.choices (node.at attempt.ipv4 attempt.ipv6)).state) node

/-- After any sequence of attempts and changes of address, a step that succeeds leaves its
service started after the last change of its file, if and only if the step does not find
nothing to change in a file that has changed since the service was started. -/
theorem restarted_iff (yaml : Yaml) (attempts : List Attempt) (first : GuestNode)
    (ipv4 ipv6 : Str) (step : HealStep) :
    let before := (afterAttempts yaml attempts first).at ipv4 ipv6
    (∀ choices, (step.attempt yaml choices before).value = some (.ok ()) →
        (step.attempt yaml choices before).state.stale step.file = false) ↔
      ¬(before.stale step.file = true ∧ step.skips yaml before = true) := by
  intro before
  constructor
  · rintro fresh ⟨stale, skips⟩
    rcases Prog.exists_exec_eq nodeMachine succeed (step.program yaml).run before with
      ⟨choices, state, value⟩
    rw [follow_program_of_skips skips] at state value
    have ends := fresh choices value
    rw [HealStep.attempt, state, stale] at ends
    exact Bool.noConfusion ends
  · intro notSkipped choices succeeds
    have fair : (step.program yaml).run.FairRun faulty.machine faulty.fair choices before :=
      Prog.fairRun_of_forall (fun _ _ _ _ => trivial) _ _
    have ends := (returns_program yaml step).returned rfl fair succeeds
    by_contra stale
    exact notSkipped (ends (Bool.not_eq_false _ ▸ stale))

def agentYaml : Yaml where
  unmarshal raw :=
    if raw = str "node-ip: 192.168.105.2\nserver: https://192.168.105.3:6443\n" then
      some [(str "node-ip", .text (str "192.168.105.2")),
        (str "server", .text (str "https://192.168.105.3:6443"))]
    else if raw = str "node-ip: 192.168.105.9\nserver: https://192.168.105.3:6443\n" then
      some [(str "node-ip", .text (str "192.168.105.9")),
        (str "server", .text (str "https://192.168.105.3:6443"))]
    else none
  marshal config :=
    if config.lookup (str "node-ip") = some (.text (str "192.168.105.9")) then
      str "node-ip: 192.168.105.9\nserver: https://192.168.105.3:6443\n"
    else str "node-ip: 192.168.105.2\nserver: https://192.168.105.3:6443\n"

/-- A node that has come up with new addresses; its services read the files as they are. -/
def movedNode : GuestNode where
  files
    | .kubeletConf => str "    server: https://192.168.64.2:6443\n"
    | .defaultKubelet => str "KUBELET_EXTRA_ARGS=--node-ip=192.168.64.2,fd00::2\n"
    | .sysconfigKubelet => str "KUBELET_EXTRA_ARGS=--fail-swap-on=false --node-ip=192.168.105.2\n"
    | .k3sConfig => str "node-ip: 192.168.105.2\nserver: https://192.168.105.3:6443\n"
    | .k3sUnit => k3sGPUUnit .agent
  tmp := []
  active := fun _ => true
  stale := fun _ => false
  ipv4 := str "192.168.64.9"
  ipv6 := str "fd00::9"

def interrupted (step : HealStep) (commands : ℕ) :
    Outcome NodeOp GuestNode StepChoice (Except StepErr Unit) :=
  step.attempt agentYaml (List.replicate commands ⟨true, true⟩) movedNode

def tried (step : HealStep) (commands again : ℕ) :
    Outcome NodeOp GuestNode StepChoice (Except StepErr Unit) :=
  step.attempt agentYaml (List.replicate again ⟨true, true⟩) (interrupted step commands).state

/-- Each of the steps, interrupted after it has replaced its file, does not restart the service
when it is tried again. -/
theorem replaced_not_restarted :
    ((interrupted (.worker (str "192.168.64.9")) 2).value = none ∧
      (tried (.worker (str "192.168.64.9")) 2 1).value = some (.ok ()) ∧
      (tried (.worker (str "192.168.64.9")) 2 1).state.stale .kubeletConf = true) ∧
    ((interrupted .repin 5).value = none ∧ (tried .repin 5 4).value = some (.ok ()) ∧
      (tried .repin 5 4).state.stale .defaultKubelet = true) ∧
    ((interrupted (.sysconfig (str "n") (str "192.168.105.9")) 5).value = none ∧
      (tried (.sysconfig (str "n") (str "192.168.105.9")) 5 1).value = some (.ok ()) ∧
      (tried (.sysconfig (str "n") (str "192.168.105.9")) 5 1).state.stale .sysconfigKubelet =
        true) ∧
    ((interrupted (.k3s (str "n") .agent (str "192.168.105.9") (str "192.168.105.3") true) 5).value =
        none ∧
      (tried (.k3s (str "n") .agent (str "192.168.105.9") (str "192.168.105.3") true) 5 3).value =
        some (.ok ()) ∧
      (tried (.k3s (str "n") .agent (str "192.168.105.9") (str "192.168.105.3") true) 5 3).state.stale
        .k3sConfig = true) := by
  refine ⟨⟨by decide +kernel, by decide +kernel, by decide +kernel⟩,
    ⟨by decide +kernel, by decide +kernel, by decide +kernel⟩,
    ⟨by decide +kernel, by decide +kernel, by decide +kernel⟩,
    ⟨by decide +kernel, by decide +kernel, by decide +kernel⟩⟩

end Kiac.Cluster.Guarded
