import Kiac.Krunkit.Client
import Kiac.Krunkit.Report
import Kiac.Program.Fair

/-!
# Reported addresses are fresh

Each start of a VM draws a generation, removes the report, writes the generation for the guest,
launches the hypervisor and then records the generation in `state.json`. Meanwhile the guest writes
whatever it likes into the place of the report, and callers that hold no lock read `state.json` and
later the report. As generations are distinct, a report from an earlier boot is not accepted.
-/

namespace Kiac.Krunkit

structure SameVM (vm state : NodeState) : Prop where
  name : state.name = vm.name
  mac : state.mac = vm.mac
  reports : state.guestAddressReport = vm.guestAddressReport
  networkCIDR : state.networkCIDR = vm.networkCIDR

inductive Stage where
  | opened
  | drawn (generation : Str)
  | cleared (generation : Str)
  | announced
  | launched

structure Starting where
  state : NodeState
  stage : Stage

/-- A caller that has read `state.json`, with the generations of the starts recorded by then. -/
structure Question where
  state : NodeState
  starts : List Str

/-- What the caller got, with the starts recorded by then and the report that was read. -/
structure Answer where
  question : Question
  starts : List Str
  file : ReportFile
  ip : Str

/-- A VM: its `state.json` and the generations of the starts recorded in it, the latest first, the
generations drawn so far, the files that it shares with the host, and what is going on. -/
structure Node where
  recorded : NodeState
  starts : List Str
  drawn : List Str
  generationFile : Option Str
  report : ReportFile
  starting : Option Starting
  questions : List Question
  answers : List Answer

inductive Party where
  | kiac
  | guest
  | caller

inductive NodeMove (decoder : JsonDecoder) : Moves Node Party
  | begin {node : Node} (idle : node.starting = none) :
      NodeMove decoder .kiac node { node with starting := some ⟨node.recorded, .opened⟩ }
  /-- A start can fail at every step; a hypervisor that was launched is terminated. -/
  | fail {node : Node} : NodeMove decoder .kiac node { node with starting := none }
  | draw {node : Node} {state : NodeState} {generation : Str}
      (here : node.starting = some ⟨state, .opened⟩) (fresh : generation ∉ node.drawn) :
      NodeMove decoder .kiac node { node with
        drawn := generation :: node.drawn, starting := some ⟨state, .drawn generation⟩ }
  | clear {node : Node} {state : NodeState} {generation : Str}
      (here : node.starting = some ⟨state, .drawn generation⟩) :
      NodeMove decoder .kiac node { node with
        report := .absent, starting := some ⟨state, .cleared generation⟩ }
  | announce {node : Node} {state : NodeState} {generation : Str}
      (here : node.starting = some ⟨state, .cleared generation⟩) :
      NodeMove decoder .kiac node { node with
        generationFile := some generation
        starting := some ⟨{ state with addressGeneration := generation, ip := [] }, .announced⟩ }
  | launch {node : Node} {state : NodeState} (here : node.starting = some ⟨state, .announced⟩) :
      NodeMove decoder .kiac node { node with starting := some ⟨state, .launched⟩ }
  | record {node : Node} {state : NodeState} (here : node.starting = some ⟨state, .launched⟩)
      (pid : ℕ) (processStart processCommandHash : Str) :
      NodeMove decoder .kiac node { node with
        recorded := { state with
          pid := pid, processStart := processStart, processCommandHash := processCommandHash
          ip := [], status := str "running" }
        starts := state.addressGeneration :: node.starts
        starting := none }
  /-- Other calls that hold the lock write the state back with another status or address. -/
  | rewrite {node : Node} {state : NodeState} (idle : node.starting = none)
      (same : SameVM node.recorded state)
      (sameGeneration : state.addressGeneration = node.recorded.addressGeneration) :
      NodeMove decoder .kiac node { node with recorded := state }
  | write {node : Node} (file : ReportFile) :
      NodeMove decoder .guest node { node with report := file }
  /-- Looking for the process of the VM can complete what the state says about the process. -/
  | ask {node : Node} (processStart processCommandHash : Str) :
      NodeMove decoder .caller node { node with
        questions := ⟨{ node.recorded with
          processStart := processStart, processCommandHash := processCommandHash },
          node.starts⟩ :: node.questions }
  | answer {node : Node} {question : Question} {ip : Str} (asked : question ∈ node.questions)
      (content : Option (Option Doc)) (arp : Str)
      (returned : nodeAddress decoder question.state node.report content arp = some ip) :
      NodeMove decoder .caller node { node with
        answers := ⟨question, node.starts, node.report, ip⟩ :: node.answers }

def Node.created (vm : NodeState) (file : ReportFile) : Node :=
  ⟨vm, [], [], none, file, none, [], []⟩

theorem SameVM.refl (vm : NodeState) : SameVM vm vm := ⟨rfl, rfl, rfl, rfl⟩

theorem SameVM.trans {vm state other : NodeState} (same : SameVM vm state)
    (same' : SameVM state other) : SameVM vm other :=
  ⟨same'.name.trans same.name, same'.mac.trans same.mac, same'.reports.trans same.reports,
    same'.networkCIDR.trans same.networkCIDR⟩

structure Unrecorded (drawn starts : List Str) (generation : Str) : Prop where
  drawn : generation ∈ drawn
  unrecorded : generation ∉ starts

def Starting.New (drawn starts : List Str) (starting : Starting) : Prop :=
  match starting.stage with
  | .opened => True
  | .drawn generation => Unrecorded drawn starts generation
  | .cleared generation => Unrecorded drawn starts generation
  | .announced => Unrecorded drawn starts starting.state.addressGeneration
  | .launched => Unrecorded drawn starts starting.state.addressGeneration

structure Question.Sound (vm : NodeState) (starts : List Str) (question : Question) : Prop where
  same : SameVM vm question.state
  latest : question.state.addressGeneration = question.starts.head?.getD []
  earlier : question.starts <:+ starts

structure Answer.Sound (decoder : JsonDecoder) (vm : NodeState) (answer : Answer) : Prop where
  question : answer.question.Sound vm answer.starts
  distinct : answer.starts.Nodup
  genuine : ∃ report : Report, report.Genuine decoder answer.question.state answer.file answer.ip

structure Node.Sound (decoder : JsonDecoder) (vm : NodeState) (node : Node) : Prop where
  same : SameVM vm node.recorded
  latest : node.recorded.addressGeneration = node.starts.head?.getD []
  distinct : node.starts.Nodup
  known : ∀ generation ∈ node.starts, generation ∈ node.drawn
  starting : ∀ starting, node.starting = some starting →
    SameVM vm starting.state ∧ starting.New node.drawn node.starts
  questions : ∀ question ∈ node.questions, question.Sound vm node.starts
  answers : ∀ answer ∈ node.answers, answer.Sound decoder vm

section Steps

variable {decoder : JsonDecoder} {vm : NodeState} {node next : Node} {party : Party}

theorem Node.sound_created (unstarted : vm.addressGeneration = []) (file : ReportFile) :
    (Node.created vm file).Sound decoder vm where
  same := .refl vm
  latest := unstarted
  distinct := List.nodup_nil
  known := by simp [Node.created]
  starting := by simp [Node.created]
  questions := by simp [Node.created]
  answers := by simp [Node.created]

theorem NodeMove.sound (reports : vm.guestAddressReport) (sound : node.Sound decoder vm)
    (move : NodeMove decoder party node next) : next.Sound decoder vm := by
  cases move with
  | begin idle =>
    refine { sound with starting := ?_ }
    rintro _ ⟨⟩
    exact ⟨sound.same, trivial⟩
  | fail =>
    refine { sound with starting := ?_ }
    rintro _ ⟨⟩
  | draw here fresh =>
    refine { sound with
      known := fun generation started => .tail _ (sound.known generation started)
      starting := ?_ }
    rintro _ ⟨⟩
    exact ⟨(sound.starting _ here).1, .head _, fun started => fresh (sound.known _ started)⟩
  | clear here =>
    have before := sound.starting _ here
    refine { sound with starting := ?_ }
    rintro _ ⟨⟩
    exact before
  | announce here =>
    refine { sound with starting := ?_ }
    rintro _ ⟨⟩
    rcases sound.starting _ here with ⟨same, new⟩
    exact ⟨⟨same.name, same.mac, same.reports, same.networkCIDR⟩, new⟩
  | launch here =>
    have before := sound.starting _ here
    refine { sound with starting := ?_ }
    rintro _ ⟨⟩
    exact before
  | record here pid processStart processCommandHash =>
    rcases sound.starting _ here with ⟨same, new⟩
    refine {
      same := ⟨same.name, same.mac, same.reports, same.networkCIDR⟩
      latest := rfl
      distinct := List.nodup_cons.mpr ⟨new.unrecorded, sound.distinct⟩
      known := ?_
      starting := ?_
      questions := ?_
      answers := sound.answers }
    · rintro generation started
      rcases List.mem_cons.mp started with rfl | earlier
      · exact new.drawn
      · exact sound.known generation earlier
    · rintro _ ⟨⟩
    · intro question asked
      have before := sound.questions question asked
      exact ⟨before.same, before.latest, before.earlier.trans (List.suffix_cons _ _)⟩
  | rewrite idle same sameGeneration =>
    refine { sound with
      same := sound.same.trans same
      latest := sameGeneration.trans sound.latest
      starting := ?_ }
    intro starting isStarting
    exact absurd (isStarting.symm.trans idle) (by simp)
  | write file => exact { sound with }
  | ask processStart processCommandHash =>
    refine { sound with questions := ?_ }
    intro question asked
    rcases List.mem_cons.mp asked with rfl | before
    · exact ⟨⟨sound.same.name, sound.same.mac, sound.same.reports, sound.same.networkCIDR⟩,
        sound.latest, List.suffix_refl _⟩
    · exact sound.questions question before
  | answer asked content arp returned =>
    refine { sound with answers := ?_ }
    intro answer given
    rcases List.mem_cons.mp given with rfl | before
    · have question := sound.questions _ asked
      exact ⟨question, sound.distinct,
        genuine_of_nodeAddress (question.same.reports.trans reports) returned⟩
    · exact sound.answers answer before

variable {file : ReportFile} {state : NodeState}

theorem Node.sound_of_reachable (reports : vm.guestAddressReport)
    (unstarted : vm.addressGeneration = [])
    (reached : Moves.Reachable (NodeMove decoder) (Node.created vm file) node) :
    node.Sound decoder vm :=
  reached.invariant (Node.Sound decoder vm) (fun _ _ _ sound move => move.sound reports sound)
    (Node.sound_created unstarted file)

theorem nodeAddress_saved (reports : state.guestAddressReport)
    (file : ReportFile) (content : Option (Option Doc)) (saved arp arp' : Str) :
    nodeAddress decoder { state with ip := saved } file content arp =
      nodeAddress decoder state file content arp' := by
  simp only [nodeAddress, reports, if_true]
  rfl

theorem Report.Genuine.ofSame {ip : Str} {report : Report}
    (genuine : report.Genuine decoder state file ip) (same : SameVM vm state) :
    report.Genuine decoder { vm with addressGeneration := state.addressGeneration } file ip where
  single := genuine.single
  named := genuine.named.trans same.name
  sameMAC := genuine.sameMAC.trans (congrArg normalizeMAC same.mac)
  sameGeneration := genuine.sameGeneration
  hasGeneration := genuine.hasGeneration
  address := genuine.address
  inSubnet := by
    have inSubnet := genuine.inSubnet
    rwa [InSubnet, same.networkCIDR] at inSubnet

end Steps

section Sample

/-- The sample VM, in the subnet `192.168.105.0/24`. -/
def sampleVM : NodeState :=
  newState gpuClient gpuOpts ⟨str "/fedora.raw", 2, 2048⟩ (newNetwork (str "a") 105)
    (str "52:54:00:00:00:01") (str "now")

/-- A report of the sample VM for the generation `g`. -/
def sampleReport : Json :=
  .object [str "schema", str "name", str "mac", str "generation", str "ipv4"] (by decide) fun key =>
    if key = str "schema" then .num (str "1")
    else if key = str "name" then .str gpuNode
    else if key = str "mac" then .str (str "52:54:00:00:00:01")
    else if key = str "generation" then .str (str "g")
    else .str (str "192.168.105.7")

/-- A decoder that knows the text `r` for the report. -/
def sampleDecoder : JsonDecoder where
  next raw := if raw = str "r" then .value sampleReport [] else .eof
  names key field := key == field

def sampleNode : Node where
  recorded := { sampleVM with
    pid := 7, addressGeneration := str "g", status := str "running" }
  starts := [str "g"]
  drawn := [str "g"]
  generationFile := some (str "g")
  report := .regular (str "r")
  starting := none
  questions := [⟨{ sampleVM with
    pid := 7, addressGeneration := str "g", status := str "running" }, [str "g"]⟩]
  answers := []

theorem reachable_sampleNode :
    Moves.Reachable (NodeMove sampleDecoder) (Node.created sampleVM .absent) sampleNode := by
  have opened : Moves.Reachable (NodeMove sampleDecoder) (Node.created sampleVM .absent) _ :=
    .step .refl (.begin rfl)
  have drawn := opened.step (.draw rfl (List.not_mem_nil (a := str "g")))
  have launched := ((drawn.step (.clear rfl)).step (.announce rfl)).step (.launch rfl)
  have recorded := launched.step (.record rfl 7 [] [])
  exact (recorded.step (.write (.regular (str "r")))).step (.ask [] [])

end Sample

end Kiac.Krunkit
