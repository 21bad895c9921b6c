import Kiac.Text.Quote
import Kiac.ExternalWorker.Config

/-!
# The inventory of the external workers

Each worker has a JSON file, from which `read` takes its state. The state is checked when it is
read: it must be the one of the worker, and its addresses must be as the configuration of a worker
has them.
-/

namespace Kiac.Worker

inductive Phase where
  | creating
  | joining
  | ready
  | other (text : Str)
deriving DecidableEq

def Phase.text : Phase → Str
  | .creating => str "creating"
  | .joining => str "joining"
  | .ready => str "ready"
  | .other text => text

structure ExternalWorkerState where
  schema : ℕ
  name : Str
  ownerID : Str
  vmName : Str
  networkID : Str
  server : Str
  nodeIP : Str
  k8sVersion : Str
  podCIDR : Str
  serviceCIDR : Str
  caHash : Str
  nodeUID : Str
  phase : Phase
  /-- Nanoseconds since 1970; `none` is the zero time. -/
  created : Option ℕ
deriving DecidableEq

def externalVMName (name id : Str) : Str := str "kiacx-worker-" ++ name ++ str "-" ++ id.take 12

def externalNetworkID (id : Str) : Str := str "ext-" ++ id

abbrev OwnerBytes := { bytes : List UInt8 // bytes.length = 16 }

/-- `hex.EncodeToString`. -/
def ownerText (id : OwnerBytes) : Str :=
  id.1.flatMap fun b => [Str.hexByte (b.toNat / 16), Str.hexByte (b.toNat % 16)]

/-- `newExternalWorkerState`, given the random bytes and the time. -/
def newExternalWorkerState (p : Prepared) (id : OwnerBytes) (now : ℕ) : ExternalWorkerState where
  schema := 1
  name := p.config.name
  ownerID := ownerText id
  vmName := externalVMName p.config.name (ownerText id)
  networkID := externalNetworkID (ownerText id)
  server := p.config.server
  nodeIP := p.config.nodeIP
  k8sVersion := p.config.k8sVersion
  podCIDR := p.config.podCIDR
  serviceCIDR := p.config.serviceCIDR
  caHash := p.caHash
  nodeUID := []
  phase := .creating
  created := some now

def ExternalWorkerState.texts (state : ExternalWorkerState) : List Str :=
  [state.name, state.ownerID, state.vmName, state.networkID, state.server, state.nodeIP,
    state.k8sVersion, state.podCIDR, state.serviceCIDR, state.caHash, state.nodeUID,
    state.phase.text]

/-- The fields that `json.Marshal` writes, with the text of the time. -/
def fields (state : ExternalWorkerState) (created : Str) : List (Str × Str) :=
  [(str "schema", Str.formatNat state.schema), (str "name", Str.quote state.name),
    (str "ownerID", Str.quote state.ownerID), (str "vmName", Str.quote state.vmName),
    (str "networkID", Str.quote state.networkID), (str "server", Str.quote state.server),
    (str "nodeIP", Str.quote state.nodeIP), (str "k8sVersion", Str.quote state.k8sVersion),
    (str "podCIDR", Str.quote state.podCIDR), (str "serviceCIDR", Str.quote state.serviceCIDR),
    (str "caHash", Str.quote state.caHash)] ++
    (if state.nodeUID = [] then [] else [(str "nodeUID", Str.quote state.nodeUID)]) ++
    [(str "phase", Str.quote state.phase.text), (str "created", Str.quote created)]

def fieldText (field : Str × Str) : Str := str "  \"" ++ field.1 ++ str "\": " ++ field.2

/-- The file, as `json.MarshalIndent` and `write` make it. -/
def fileText (state : ExternalWorkerState) (created : Str) : Str :=
  str "\x7b\n" ++ List.intercalate (str ",\n") ((fields state created).map fieldText) ++
    str "\n\x7d\n"

/-- How times are written, up to the year 9999 only, and what `json.Unmarshal` reads from a file. -/
structure Codec where
  timeText : ℕ → Option Str
  unmarshal : Str → Option ExternalWorkerState

/-- `json.Unmarshal` reads the file of a state as it was written, if its strings are texts. -/
def Codec.Reads (codec : Codec) (state : ExternalWorkerState) : Prop :=
  ∀ now created, state.created = some now → codec.timeText now = some created →
    (∀ text ∈ state.texts, Str.IsText text) → codec.unmarshal (fileText state created) = some state

def Codec.marshal (codec : Codec) (state : ExternalWorkerState) : Option Str :=
  match state.created with
  | none => some (fileText state (str "0001-01-01T00:00:00Z"))
  | some now => (codec.timeText now).map (fileText state)

inductive InventoryErr where
  | name
  | missing
  | tooLong
  | parse
  | ownership
  | metadata
deriving DecidableEq

def ownershipMatches (name : Str) (state : ExternalWorkerState) : Bool :=
  state.schema == 1 && state.name == name && hexBytes state.ownerID == some 16 &&
    state.ownerID == Str.toLower state.ownerID && state.vmName == externalVMName name state.ownerID &&
    state.networkID == externalNetworkID state.ownerID &&
    (match state.phase with
      | .creating => true
      | .joining => true
      | .ready => state.nodeUID != []
      | .other _ => false)

def validServer (server : Str) : Bool :=
  match Url.parse server with
  | none => false
  | some url =>
    url.scheme == str "https" && url.user == none && url.host != [] && url.rawQuery == [] &&
      url.fragment == [] && url.path == []

def validRanges (nodeIP podCIDR serviceCIDR : Str) : Bool :=
  match Netip.parseUnicast4 nodeIP, workerPrefix podCIDR, workerPrefix serviceCIDR with
  | some node, some pod, some service =>
    !(pod.overlaps service || pod.contains node || service.contains node)
  | _, _, _ => false

def validMetadata (state : ExternalWorkerState) : Bool :=
  validServer state.server && validRanges state.nodeIP state.podCIDR state.serviceCIDR &&
    hexBytes state.caHash == some 32 && state.caHash == Str.toLower state.caHash &&
    k3sReleases.contains state.k8sVersion && state.created.isSome && state.nodeUID.length ≤ 128

/-- What `read` makes of the text of a file. -/
def Codec.readFile (codec : Codec) (name raw : Str) : Except InventoryErr ExternalWorkerState :=
  if !validWorkerName name then .error .name
  else if 64 * 1024 < raw.length then .error .tooLong
  else
    match codec.unmarshal raw with
    | none => .error .parse
    | some state =>
      if !ownershipMatches name state then .error .ownership
      else if !validMetadata state then .error .metadata
      else .ok state

/-- What `read` makes of the file that was written for a state. -/
def Codec.readBack (codec : Codec) (name : Str) (state : ExternalWorkerState) :
    Except InventoryErr ExternalWorkerState :=
  match codec.marshal state with
  | none => .error .missing
  | some raw => codec.readFile name raw

structure Observation where
  name : Str
  uid : Str
  ownerID : Str
  nodeIP : Str
  kubeletVersion : Str
  apiVersion : Str
  podNetwork : Str
  backend : Str
  guestBootID : Str
  nodeBootID : Str
  ready : Bool
  tainted : Bool
  ipv4Only : Bool
  uid_text : Str.IsText uid

/-- The output of the command that observes a node: its length, and what it says. -/
structure Report where
  size : ℕ
  parsed : Option Observation

inductive ObserveErr where
  | command
  | invalid
  | identity
  | release
  | network
  | taint
deriving DecidableEq

def ObserveErr.isRejection : ObserveErr → Bool
  | .command => false
  | .invalid => false
  | _ => true

/-- `observe`, given the report of the node. -/
def checkReport (state : ExternalWorkerState) (report : Report) : Except ObserveErr Observation :=
  match report.parsed with
  | none => .error .invalid
  | some observation =>
    if 16 * 1024 < report.size then .error .invalid
    else if observation.name ≠ state.vmName ∨ observation.uid = [] ∨
        observation.ownerID ≠ state.ownerID ∨ observation.nodeIP ≠ state.nodeIP ∨
        (state.nodeUID ≠ [] ∧ state.nodeUID ≠ observation.uid) then .error .identity
    else if normalizeK3sStateVersion observation.kubeletVersion ≠ state.k8sVersion ∨
        normalizeK3sStateVersion observation.apiVersion ≠ state.k8sVersion then .error .release
    else if observation.backend ≠ str "vxlan" ∨ observation.podNetwork ≠ state.podCIDR ∨
        !observation.ipv4Only then .error .network
    else if state.phase = .joining ∧ !observation.tainted then .error .taint
    else .ok
      { observation with
        ready := observation.ready && observation.guestBootID != [] &&
          observation.guestBootID == observation.nodeBootID }

theorem uid_of_checkReport {state : ExternalWorkerState} {report : Report}
    {observation : Observation} (accepted : checkReport state report = .ok observation) :
    observation.uid ≠ [] ∧ (state.nodeUID ≠ [] → observation.uid = state.nodeUID) := by
  unfold checkReport at accepted
  split at accepted
  · cases accepted
  · split_ifs at accepted with _ identity
    obtain rfl := Except.ok.inj accepted
    push Not at identity
    exact ⟨identity.2.1, fun recorded => (identity.2.2.2.2 recorded).symm⟩

def ExternalWorkerState.observed (state : ExternalWorkerState) (uid : Str) : ExternalWorkerState :=
  { state with nodeUID := uid, phase := .ready }

end Kiac.Worker
