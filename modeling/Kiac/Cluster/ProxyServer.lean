import Kiac.Program.Achieve
import Kiac.Text.Address
import Kiac.Text.Cut
import Kiac.Text.Space

/-!
# The server that edge proxies of K3s nodes connect to

`healK3sEdgeProxy` makes the kubeconfig of every edge proxy name the current address of the API
server. A node whose marker file holds the wanted URL is left alone if its proxy runs and its rules
are in place. Before each command of the scripts proxies may stop and start, and a command that fails
may have taken effect, in part or as a whole.
-/

namespace Kiac.Cluster.ProxyServer

open Step Net

/-- `[[:space:]]` within a line. -/
def isBlank (b : UInt8) : Bool := b == 32 || (9 ≤ b && b ≤ 13)

/-- What `sed` keeps of a line that names a server, and the server. -/
def splitServer (line : Str) : Option (Str × Str) :=
  if Str.hasPrefix (line.dropWhile isBlank) (str "server:") then
    let value := (line.dropWhile isBlank).drop 7
    some (line.takeWhile isBlank ++ str "server:" ++ value.takeWhile isBlank,
      value.dropWhile isBlank)
  else none

def isServerLine (line : Str) : Bool :=
  (splitServer line).any fun parts => Str.hasSuffix parts.1 (str "server: ")

structure Kubeconfig where
  lines : List Str
  served : lines.any isServerLine = true
deriving DecidableEq

def Kubeconfig.servers (file : Kubeconfig) : List Str :=
  file.lines.filterMap fun line => (splitServer line).map Prod.snd

def Kubeconfig.Serves (file : Kubeconfig) (url : Str) : Prop := ∀ server ∈ file.servers, server = url

instance (file : Kubeconfig) (url : Str) : Decidable (file.Serves url) :=
  inferInstanceAs (Decidable (∀ server ∈ file.servers, server = url))

/-- The bytes that `sed` copies from a replacement. -/
def isPlain (b : UInt8) : Bool :=
  Str.isGraphic b && b != byte '#' && b != byte '&' && b != byte '\\'

/-- A URL that is not changed when it is put into the command for `sed`. -/
structure Target where
  url : Str
  nonempty : url ≠ []
  plain : url.all isPlain = true

theorem isPlain_of_isAddressByte {b : UInt8} (address : isAddressByte b) :
    isPlain b := by
  have each : ∀ b : UInt8, isAddressByte b → isPlain b :=
    Str.forall_byte (by decide +kernel)
  exact each b address

/-- The URL that `resumeK3s` makes of the address of the control plane. -/
def Target.ofServer (serverIP : Str) (read : (parseIP serverIP).isSome = true) : Target where
  url := str "https://" ++ serverIP ++ str ":6443"
  nonempty := List.append_ne_nil_of_left_ne_nil
    (List.append_ne_nil_of_left_ne_nil (by decide) serverIP) (str ":6443")
  plain := by
    rcases Option.isSome_iff_exists.mp read with ⟨groups, parsed⟩
    have address : serverIP.all isPlain := by
      rw [List.all_eq_true]
      exact fun b mem => isPlain_of_isAddressByte ((parseIP_spec parsed).1 b mem)
    simp only [List.all_append, address]
    decide

structure Node where
  /-- The program and its kubeconfig are there. -/
  installed : Bool
  kubeconfig : Kubeconfig
  marker : Option Str
  /-- A loop starts the proxy whenever it has ended. -/
  supervised : Bool
  running : Bool
  /-- The rules that lead to the proxy are in place. -/
  rules : Bool
deriving DecidableEq

abbrev World := Str → Node

inductive Event where
  | halt (node : Str)
  /-- The boot script starts the loop. -/
  | boot (node : Str)
  | respawn (node : Str)
  | crash (node : Str)
  /-- A running proxy puts its rules in place. -/
  | sync (node : Str)

def Event.node : Event → Str
  | halt node => node
  | boot node => node
  | respawn node => node
  | crash node => node
  | sync node => node

def Event.change (node : Node) : Event → Node
  | halt _ => { node with supervised := false, running := false, rules := false }
  | boot _ => { node with supervised := node.supervised || node.installed }
  | respawn _ => { node with running := node.running || node.supervised }
  | crash _ => { node with running := false }
  | sync _ => { node with rules := node.rules || node.running }

def happen (world : World) (event : Event) : World :=
  Function.update world event.node (event.change (world event.node))

inductive Command where
  | test
  | catMarker
  | iptables
  | scan
  | prerouting
  | output
  | mktemp
  | sed (target : Target)
  | chmod
  /-- The temporary file becomes the kubeconfig. -/
  | mv (file : Kubeconfig)
  | killSupervisor
  | rm
  | killProxies
  | mkdir
  | alive
  | nohup
  | writePID
  | rules
  | printf (target : Target)
  | chmodMarker
  /-- The end of a script. -/
  | reply

inductive Op where
  | exec (node : Str) (command : Command)

abbrev Op.Ans : Op → Type
  | exec _ .catMarker => Str
  | exec _ (.sed _) => Option Kubeconfig
  | _ => Bool

structure Choice where
  events : List Event
  /-- The command takes effect. -/
  acts : Bool
  /-- Its success is reported. -/
  reports : Bool
  /-- How much of a file is written by a command that does not take effect. -/
  cut : Option ℕ

def substitute (target : Target) (line : Str) : Str :=
  match splitServer line with
  | some (head, _) => head ++ target.url
  | none => line

theorem Target.takeWhile_url (target : Target) : target.url.takeWhile isBlank = [] := by
  have visible : ∀ b : UInt8, isPlain b = true → isBlank b = false :=
    Str.forall_byte (by decide +kernel)
  rcases target with ⟨url, _, plain⟩
  cases url with
  | nil => rfl
  | cons b rest =>
    have first := visible b (List.all_eq_true.mp plain b List.mem_cons_self)
    simp [first]

theorem splitServer_append {lead blanks rest : Str} (blank : ∀ b ∈ lead, isBlank b)
    (blank' : ∀ b ∈ blanks, isBlank b) (starts : rest.takeWhile isBlank = []) :
    splitServer (lead ++ str "server:" ++ blanks ++ rest) =
      some (lead ++ str "server:" ++ blanks, rest) := by
  have word : ∀ more : Str, (str "server:" ++ more).takeWhile isBlank = [] := fun more => rfl
  have word' : ∀ more : Str, (str "server:" ++ more).dropWhile isBlank = str "server:" ++ more :=
    fun more => rfl
  have found : Str.hasPrefix (str "server:" ++ (blanks ++ rest)) (str "server:") := by
    simp [Str.hasPrefix, List.isPrefixOf_iff_prefix]
  have rest' : rest.dropWhile isBlank = rest := by
    have whole := List.takeWhile_append_dropWhile (p := isBlank) (l := rest)
    rwa [starts] at whole
  have after : (str "server:" ++ (blanks ++ rest)).drop 7 = blanks ++ rest := rfl
  simp only [splitServer, List.append_assoc, List.dropWhile_append_of_pos blank, word', found, if_true,
    after, List.takeWhile_append_of_pos blank, word, List.takeWhile_append_of_pos blank', starts,
    List.dropWhile_append_of_pos blank', rest', List.append_nil]

theorem splitServer_substitute {line head server : Str} (target : Target)
    (split : splitServer line = some (head, server)) :
    splitServer (head ++ target.url) = some (head, target.url) := by
  unfold splitServer at split
  split at split
  · have heads := (congrArg Prod.fst (Option.some.inj split)).symm
    simp only at heads
    rw [heads]
    exact splitServer_append (fun _ mem => List.mem_takeWhile_imp mem)
      (fun _ mem => List.mem_takeWhile_imp mem) target.takeWhile_url
  · cases split

theorem isServerLine_substitute (target : Target) {line : Str} (isServer : isServerLine line) :
    isServerLine (substitute target line) := by
  unfold isServerLine at isServer ⊢
  unfold substitute
  cases split : splitServer line with
  | none =>
    rw [split] at isServer
    cases isServer
  | some parts =>
    rw [split] at isServer
    simp only [splitServer_substitute target split]
    exact isServer

/-- What `sed` makes of the kubeconfig. -/
def Kubeconfig.retarget (file : Kubeconfig) (target : Target) : Kubeconfig where
  lines := file.lines.map (substitute target)
  served := by
    rcases List.any_eq_true.mp file.served with ⟨line, mem, isServer⟩
    exact List.any_eq_true.mpr ⟨_, List.mem_map_of_mem mem, isServerLine_substitute target isServer⟩

theorem Kubeconfig.serves_retarget (file : Kubeconfig) (target : Target) :
    (file.retarget target).Serves target.url := by
  intro server mem
  rcases List.mem_filterMap.mp mem with ⟨_, inLines, named⟩
  rcases List.mem_map.mp inLines with ⟨line, _, rfl⟩
  unfold substitute at named
  cases split : splitServer line with
  | none =>
    simp only [split] at named
    cases named
  | some parts =>
    simp only [split, splitServer_substitute target split] at named
    exact (Option.some.inj named).symm

/-- `grep -Fq` for the server. -/
def Kubeconfig.grep (file : Kubeconfig) (target : Target) : Bool :=
  file.lines.any (Str.contains (str "server: " ++ target.url))

def Command.effect (node : Node) : Command → Node
  | mv file => { node with kubeconfig := file }
  | killSupervisor => { node with supervised := false }
  | killProxies => { node with running := false }
  | nohup => { node with supervised := true }
  | printf target => { node with marker := some (target.url ++ [10]) }
  | _ => node

def Command.remains (node : Node) (cut : Option ℕ) : Command → Node
  | printf target =>
    { node with marker := cut.elim node.marker fun n => some ((target.url ++ [10]).take n) }
  | _ => node

def answer (choice : Choice) (node : Node) : (command : Command) → (name : Str) →
    Op.Ans (.exec name command)
  | .test, _ => choice.reports && node.installed
  | .catMarker, _ => if choice.reports then node.marker.getD [] else []
  | .iptables, _ => choice.reports
  | .scan, _ => choice.reports && node.running
  | .prerouting, _ => choice.reports && node.rules
  | .output, _ => choice.reports && node.rules
  | .rules, _ => choice.reports && node.rules
  | .alive, _ => choice.reports && node.supervised
  | .sed target, _ =>
    if choice.acts && choice.reports then some (node.kubeconfig.retarget target) else none
  | .mktemp, _ => choice.acts && choice.reports
  | .chmod, _ => choice.acts && choice.reports
  | .mv _, _ => choice.acts && choice.reports
  | .killSupervisor, _ => choice.reports
  | .rm, _ => choice.acts && choice.reports
  | .killProxies, _ => choice.reports
  | .mkdir, _ => choice.acts && choice.reports
  | .nohup, _ => choice.reports
  | .writePID, _ => choice.acts && choice.reports
  | .printf _, _ => choice.acts && choice.reports
  | .chmodMarker, _ => choice.acts && choice.reports
  | .reply, _ => choice.reports

def Command.after (command : Command) (choice : Choice) (node : Node) : Node :=
  if choice.acts then command.effect node else command.remains node choice.cut

def step : (op : Op) → Choice → World → World × op.Ans
  | .exec name command, choice, world =>
    let before := choice.events.foldl happen world
    (Function.update before name (command.after choice (before name)),
      answer choice (before name) command name)

def machine : Machine Op Op.Ans World Choice := ⟨step⟩

inductive Err where
  | exec (node : Str)
deriving DecidableEq

abbrev Action (α : Type) := ExceptT Err (Prog Op Op.Ans) α

abbrev Task (α : Type) := ExceptT Err (Job Op Op.Ans (Except Err Unit)) α

abbrev exec (node : Str) (command : Command) : Action (Op.Ans (.exec node command)) :=
  Step.ask (Op.exec node command)

/-- The nodes whose test has succeeded; a test that fails for another reason counts as failed. -/
def installedNodes : List Str → Action (List Str)
  | [] => pure []
  | node :: nodes => do
      let found ← exec node .test
      let rest ← installedNodes nodes
      pure (if found then node :: rest else rest)

def markerText (marker : Str) : Str := Str.trimRightByte 10 marker

def healthy (node : Str) : Action Bool := do
  must (exec node .iptables) (.exec node)
  andThen (exec node .scan) (andThen (exec node .prerouting) (exec node .output))

variable (target : Target)

def skips (node : Str) : Action Bool := do
  let marker ← exec node .catMarker
  if markerText marker = target.url then healthy node else pure false

def replace (node : Str) : Action Unit := do
  must (exec node .mktemp) (.exec node)
  let tmp ← exec node (.sed target)
  let file ← given (.exec node) tmp
  check (file.grep target) (.exec node)
  must (exec node .chmod) (.exec node)
  must (exec node (.mv file)) (.exec node)

def stopProxy (node : Str) : Action Unit := do
  let _ ← exec node .killSupervisor
  must (exec node .rm) (.exec node)
  let _ ← exec node .killProxies
  pure ()

/-- `healK3sEdgeProxyScript`. -/
def healK3sEdgeProxyScript (node : Str) : Action Unit := do
  let skip ← skips target node
  skipIf skip (do replace target node; stopProxy node)
  must (exec node .reply) (.exec node)

def startLoop (node : Str) : Action Unit := do
  let _ ← exec node .nohup
  must (exec node .writePID) (.exec node)

/-- `edgeProxySupervisorScript`. -/
def edgeProxySupervisorScript (node : Str) : Action Unit := do
  must (exec node .mkdir) (.exec node)
  let alive ← exec node .alive
  skipIf alive (startLoop node)
  must (exec node .reply) (.exec node)

def healNode (node : Str) : Action Unit := do
  healK3sEdgeProxyScript target node
  edgeProxySupervisorScript node

def waitEdgeProxyRules (nodes : List Str) : Task Unit :=
  Job.inParallel (fun node => must (exec node .rules) (.exec node)) nodes

def writeMarker (node : Str) : Action Unit := do
  must (exec node (.printf target)) (.exec node)
  must (exec node .chmodMarker) (.exec node)

def healInstalled (installed : List Str) : Task Unit := do
  Job.inParallel (healNode target) installed
  waitEdgeProxyRules installed
  Job.inParallel (writeMarker target) installed

/-- `healK3sEdgeProxy`. -/
def healK3sEdgeProxy (nodes : List Str) : Task Unit := do
  let installed ← Job.seq (installedNodes nodes)
  if installed.isEmpty then pure () else healInstalled target installed

def heal (nodes : List Str) (turns : List (ℕ × Choice)) (world : World) :
    Job Op Op.Ans (Except Err Unit) (Except Err Unit) × World :=
  Job.run machine ((healK3sEdgeProxy target nodes).run, world) turns

end Kiac.Cluster.ProxyServer
