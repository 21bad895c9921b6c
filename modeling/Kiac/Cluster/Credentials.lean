import Kiac.Program.Parallel
import Kiac.Text.Hex
import Kiac.Text.Space

/-!
# The credentials of the edge proxies

`healEdgeProxySystemd` brings the kubeconfig of every node up to date and restarts the proxy of a
node whose kubeconfig has changed. A marker, made before the kubeconfig is replaced and removed after
the restart, says that the proxy may run with an older one. Before each command of the scripts
proxies may stop and start, and a command that fails may have taken effect.
-/

namespace Kiac.Cluster.Credentials

open Step

/-- A node. The proxy is installed if its program, its kubeconfig and its token are there. -/
structure Node where
  installed : Bool
  kubeconfig : Str
  /-- When the kubeconfig was last changed. -/
  changed : ℕ
  token : Str
  /-- The marker exists. -/
  restartRequired : Bool
  /-- When the running proxy was started. -/
  proxy : Option ℕ
deriving DecidableEq

structure World where
  clock : ℕ
  nodes : Str → Node

inductive Event where
  | crash (node : Str)
  | restart (node : Str)
  /-- A boot starts the service. -/
  | reboot (node : Str)

def Event.node : Event → Str
  | crash node => node
  | restart node => node
  | reboot node => node

def Event.proxy (clock : ℕ) (node : Node) : Event → Option ℕ
  | crash _ => none
  | restart _ => if node.installed then some clock else node.proxy
  | reboot _ => if node.installed then some clock else none

def World.set (world : World) (name : Str) (node : Node) : World :=
  { world with nodes := Function.update world.nodes name node }

def World.tick (world : World) : World := { world with clock := world.clock + 1 }

def World.happen (world : World) (event : Event) : World :=
  let node := world.nodes event.node
  world.tick.set event.node { node with proxy := event.proxy (world.clock + 1) node }

/-- `sha256.Sum256`. -/
structure Sha256 where
  sum : Str → List UInt8
  length_sum : ∀ s, (sum s).length = 32

inductive Command where
  | installation
  | iptables
  | sha256sum
  | noMarker
  | isActive
  | prerouting
  | output
  | mktemp
  | cat
  | chmod
  | touch
  /-- The temporary file, which holds the text, becomes the kubeconfig. -/
  | mv (text : Str)
  | restart
  | unlink
  | rules
  /-- The end of a script whose output is read. -/
  | reply

inductive Op where
  | exec (node : Str) (command : Command)
  /-- The wanted kubeconfig is made on the control plane. -/
  | edgeProxyKubeconfig

abbrev Op.Ans : Op → Type
  | exec _ .installation => Option Str
  | exec _ .sha256sum => Option Str
  | _ => Bool

structure Choice where
  events : List Event
  /-- The command takes effect. -/
  acts : Bool
  /-- Its success is reported. -/
  reports : Bool

def Command.effect (clock : ℕ) (node : Node) : Command → Node
  | touch => { node with restartRequired := true }
  | mv text => { node with kubeconfig := text, changed := clock }
  | restart => { node with proxy := some clock }
  | unlink => { node with restartRequired := false }
  | _ => node

def answer (sha : Sha256) (choice : Choice) (world : World) : (op : Op) → op.Ans
  | .exec node .installation =>
    if choice.reports then
      some (if (world.nodes node).installed then str "installed\n" else str "absent\n")
    else none
  | .exec node .sha256sum =>
    if choice.reports then
      some (Str.encodeHex (sha.sum (world.nodes node).kubeconfig) ++ str "  /etc/kiac/kubeconfig\n")
    else none
  | .exec node .noMarker => !(world.nodes node).restartRequired
  | .exec _ .iptables => choice.reports
  | .exec _ .isActive => choice.reports
  | .exec _ .prerouting => choice.reports
  | .exec _ .output => choice.reports
  | .exec _ .rules => choice.reports
  | .exec _ .reply => choice.reports
  | .exec _ .mktemp => choice.acts && choice.reports
  | .exec _ .cat => choice.acts && choice.reports
  | .exec _ .chmod => choice.acts && choice.reports
  | .exec _ .touch => choice.acts && choice.reports
  | .exec _ (.mv _) => choice.acts && choice.reports
  | .exec _ .restart => choice.acts && choice.reports
  | .exec _ .unlink => choice.acts && choice.reports
  | .edgeProxyKubeconfig => choice.reports

def World.apply (world : World) (choice : Choice) : Op → World
  | .exec node command =>
    if choice.acts then world.set node (command.effect world.clock (world.nodes node)) else world
  | .edgeProxyKubeconfig => world

def step (sha : Sha256) (op : Op) (choice : Choice) (world : World) : World × op.Ans :=
  let before := (choice.events.foldl World.happen world).tick
  (before.apply choice op, answer sha choice before op)

def machine (sha : Sha256) : Machine Op Op.Ans World Choice := ⟨step sha⟩

inductive Err where
  | installation (node : Str)
  | unexpectedInstallation (node : Str)
  | kubeconfig
  | state (node : Str)
  | unexpectedState (node : Str)
  | invalidDigest (node : Str)
  | exec (node : Str)
deriving DecidableEq

abbrev Action (α : Type) := ExceptT Err (Prog Op Op.Ans) α

abbrev Task (α : Type) := ExceptT Err (Job Op Op.Ans (Except Err Unit)) α

abbrev exec (node : Str) (command : Command) : Action (Op.Ans (.exec node command)) :=
  Step.ask (Op.exec node command)

def parseInstallation (node out : Str) : Except Err Bool :=
  if Str.trimSpace out = str "installed" then .ok true
  else if Str.trimSpace out = str "absent" then .ok false
  else .error (.unexpectedInstallation node)

def installedNodes : List Str → Action (List Str)
  | [] => pure []
  | node :: nodes => do
      let printed ← exec node .installation
      let out ← given (.installation node) printed
      let installed ← settle (parseInstallation node out)
      let rest ← installedNodes nodes
      pure (if installed then node :: rest else rest)

def nodeState (node : Str) : Action Str := do
  must (exec node .iptables) (.state node)
  let printed ← exec node .sha256sum
  let digest ← given (.state node) printed
  let healthy ← andThen (exec node .noMarker) (andThen (exec node .isActive)
    (andThen (exec node .prerouting) (exec node .output)))
  must (exec node .reply) (.state node)
  pure (digest.takeWhile (· != byte ' ') ++ byte '\n' ::
    (if healthy then str "healthy\n" else str "restart\n"))

def parseState (node out : Str) : Except Err (Str × Bool) :=
  match Str.fields out with
  | [digest, word] =>
    if word ≠ str "healthy" ∧ word ≠ str "restart" then .error (.unexpectedState node)
    else if digest.length = 64 ∧ digest.all Str.isHex then .ok (digest, word = str "healthy")
    else .error (.invalidDigest node)
  | _ => .error (.unexpectedState node)

def replace (node kubeconfig : Str) : Action Unit := do
  must (exec node .mktemp) (.exec node)
  must (exec node .cat) (.exec node)
  must (exec node .chmod) (.exec node)
  must (exec node .touch) (.exec node)
  must (exec node (.mv kubeconfig)) (.exec node)

def replaceIf (changed : Bool) (node kubeconfig : Str) : Action Unit :=
  if changed then replace node kubeconfig else pure ()

def restart (node : Str) : Action Unit := do
  must (exec node .restart) (.exec node)
  must (exec node .unlink) (.exec node)

variable (sha : Sha256) (kubeconfig : Str)

def healNode (node : Str) : Action Unit := do
  let out ← nodeState node
  let state ← settle (parseState node out)
  let changed := !Str.equalFold state.1 (Str.encodeHex (sha.sum kubeconfig))
  if !changed && state.2 then pure ()
  else
    replaceIf changed node kubeconfig
    restart node

def waitEdgeProxyRules (nodes : List Str) : Task Unit :=
  Job.inParallel (fun node => must (exec node .rules) (.exec node)) nodes

def healInstalled (installed : List Str) : Task Unit := do
  Job.seq (must (Step.ask Op.edgeProxyKubeconfig) .kubeconfig)
  Job.inParallel (healNode sha kubeconfig) installed
  waitEdgeProxyRules installed

/-- `healEdgeProxySystemd`, for the kubeconfig that it finds wanted. -/
def healEdgeProxySystemd (nodes : List Str) : Task Unit := do
  let installed ← Job.seq (installedNodes nodes)
  if installed.isEmpty then pure () else healInstalled sha kubeconfig installed

def heal (nodes : List Str) (turns : List (ℕ × Choice)) (world : World) :
    Job Op Op.Ans (Except Err Unit) (Except Err Unit) × World :=
  Job.run (machine sha) ((healEdgeProxySystemd sha kubeconfig nodes).run, world) turns

def Initial (known : Set Str) (world : World) : Prop :=
  ∀ name, (world.nodes name).installed = true →
    (world.nodes name).kubeconfig ∈ known ∧ (world.nodes name).changed ≤ world.clock ∧
      ∀ started, (world.nodes name).proxy = some started → (world.nodes name).changed < started

/-- The worlds that calls lead to, each of which may be killed, with events between them. -/
inductive Visited (known : Set Str) : World → Prop
  | initial {world : World} (initial : Initial known world) : Visited known world
  | event {world : World} (event : Event) (visited : Visited known world) :
      Visited known (world.happen event)
  | call {world : World} {kubeconfig : Str} {nodes : List Str} (turns : List (ℕ × Choice))
      (visited : Visited known world) (isKnown : kubeconfig ∈ known) (nodup : nodes.Nodup) :
      Visited known (heal sha kubeconfig nodes turns world).2

end Kiac.Cluster.Credentials
