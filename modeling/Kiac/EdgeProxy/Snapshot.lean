import Kiac.Text.Address
import Kiac.Text.HostPort

/-!
# The cluster as the edge proxy sees it

The edge proxy reads Services, EndpointSlices and Nodes in one `kubectl get`, and decides where to
send a connection to a port of a Service: to an endpoint on its own node, through the proxy on the
node of another endpoint, or straight to an endpoint whose node it does not know. The decoding of
JSON is a parameter.
-/

namespace Kiac.EdgeProxy

structure IntOrString where
  intVal : ℤ
  strVal : Str
  set : Bool

structure ServicePort where
  port : ℤ
  nodePort : ℤ
  targetPort : IntOrString

structure ServiceItem where
  name : Str
  ns : Str
  type : Str
  ports : List ServicePort
  ingress : List Str

structure EndpointPort where
  name : Option Str
  port : Option ℤ
  protocol : Option Str

structure EndpointEntry where
  addresses : List Str
  nodeName : Str
  ready : Option Bool

structure EndpointSliceItem where
  ns : Str
  labels : List (Str × Str)
  addressType : Str
  ports : List EndpointPort
  endpoints : List EndpointEntry

def EndpointSliceItem.label (slice : EndpointSliceItem) (key : Str) : Str :=
  (slice.labels.lookup key).getD []

structure NodeItem where
  name : Str
  addresses : List (Str × Str)

structure NodeAddrs where
  v4 : Str
  v6 : Str
  v4_parses : v4 ≠ [] → ∃ ip, Net.parseIP v4 = some ip ∧ Net.isV4 ip = true
  v6_parses : v6 ≠ [] → ∃ ip, Net.parseIP v6 = some ip ∧ Net.isV4 ip = false

namespace NodeAddrs

def empty : NodeAddrs := ⟨[], [], fun absent => absurd rfl absent, fun absent => absurd rfl absent⟩

def forFamily (addrs : NodeAddrs) (v6 : Bool) : Str := if v6 then addrs.v6 else addrs.v4

def record (addrs : NodeAddrs) (type address : Str) : NodeAddrs :=
  if type ≠ str "InternalIP" then addrs
  else
    match parsed : Net.parseIP address with
    | none => addrs
    | some ip =>
      if four : Net.isV4 ip = true then
        if addrs.v4 = [] then
          { addrs with v4 := address, v4_parses := fun _ => ⟨ip, parsed, four⟩ }
        else addrs
      else if addrs.v6 = [] then
        { addrs with
          v6 := address
          v6_parses := fun _ => ⟨ip, parsed, Bool.not_eq_true _ ▸ four⟩ }
      else addrs

theorem forFamily_parses {addrs : NodeAddrs} {v6 : Bool} (present : addrs.forFamily v6 ≠ []) :
    ∃ ip, Net.parseIP (addrs.forFamily v6) = some ip ∧ Net.isV4 ip = !v6 := by
  cases v6 with
  | false => exact addrs.v4_parses present
  | true => exact addrs.v6_parses present

end NodeAddrs

structure ClusterState where
  services : List ServiceItem
  endpointSlices : List EndpointSliceItem
  nodeIPs : Str → NodeAddrs

/-- The value of `lastSnapshot` before the first snapshot. -/
def unsetSnapshot : Str := str "__kiac_unset__"

/-- The decoding of a list of items, of an item's kind, and of an item of each kind.
Neither the empty text nor the unset snapshot is JSON. -/
structure Decoder (Raw : Type) where
  items : Str → Option (List Raw)
  rejectsEmpty : items [] = none
  rejectsUnset : items unsetSnapshot = none
  kind : Raw → Option Str
  service : Raw → Option ServiceItem
  endpointSlice : Raw → Option EndpointSliceItem
  node : Raw → Option NodeItem

def addItem {Raw : Type} (decoder : Decoder Raw) (state : ClusterState) (raw : Raw) :
    Option ClusterState := do
  let kind ← decoder.kind raw
  if kind = str "Service" then
    let svc ← decoder.service raw
    return { state with services := state.services ++ [svc] }
  else if kind = str "EndpointSlice" then
    let slice ← decoder.endpointSlice raw
    return { state with endpointSlices := state.endpointSlices ++ [slice] }
  else if kind = str "Node" then
    let node ← decoder.node raw
    let addrs := node.addresses.foldl (fun addrs (type, address) => addrs.record type address)
      (state.nodeIPs node.name)
    return { state with nodeIPs := Function.update state.nodeIPs node.name addrs }
  else return state

def parseClusterState {Raw : Type} (decoder : Decoder Raw) (raw : Str) : Option ClusterState := do
  let items ← decoder.items raw
  items.foldlM (addItem decoder) ⟨[], [], fun _ => NodeAddrs.empty⟩

def servicePortMatchesEndpoint (svcPort : ServicePort) (epPort : EndpointPort) : Bool :=
  if epPort.protocol.any fun protocol => protocol != [] && protocol != str "TCP" then false
  else if svcPort.targetPort.set then
    if svcPort.targetPort.strVal ≠ [] then epPort.name == some svcPort.targetPort.strVal
    else epPort.port == some svcPort.targetPort.intVal
  else epPort.port == some svcPort.port

structure EndpointTarget where
  address : Str
  nodeName : Str
deriving DecidableEq

def EndpointTarget.direct (localNode : Str) (ep : EndpointTarget) : Bool :=
  ep.nodeName == [] || ep.nodeName == localNode

def EndpointEntry.targets (ep : EndpointEntry) (number : ℤ) (v6 : Bool) : List EndpointTarget :=
  if ep.ready = some false then []
  else ep.addresses.flatMap fun addr =>
    match Net.parseIP addr with
    | none => []
    | some ip =>
      if (!Net.isV4 ip) ≠ v6 then []
      else [⟨Net.joinHostPort addr (Str.itoa number), ep.nodeName⟩]

def EndpointSliceItem.targets (slice : EndpointSliceItem) (port : ServicePort) (v6 : Bool)
    (epPort : EndpointPort) : List EndpointTarget :=
  match epPort.port with
  | none => []
  | some number =>
    if !servicePortMatchesEndpoint port epPort then []
    else slice.endpoints.flatMap fun ep => ep.targets number v6

def ClusterState.matchingEndpoints (state : ClusterState) (svc : ServiceItem) (port : ServicePort)
    (v6 : Bool) : List EndpointTarget :=
  state.endpointSlices.flatMap fun slice =>
    if slice.ns ≠ svc.ns ∨ slice.label (str "kubernetes.io/service-name") ≠ svc.name then []
    else if slice.addressType ≠ [] ∧ (slice.addressType == str "IPv6") ≠ v6 then []
    else slice.ports.flatMap (slice.targets port v6)

structure BackendRoute where
  dial : Str
  tunnelTarget : Str
deriving DecidableEq

def ClusterState.routeFor (state : ClusterState) (localNode proxyPort : Str) (svc : ServiceItem)
    (port : ServicePort) (v6 : Bool) : BackendRoute :=
  let endpoints := state.matchingEndpoints svc port v6
  match endpoints.find? (EndpointTarget.direct localNode) with
  | some ep => ⟨ep.address, []⟩
  | none =>
    match endpoints.find? fun ep => (state.nodeIPs ep.nodeName).forFamily v6 != [] with
    | some ep =>
      ⟨Net.joinHostPort ((state.nodeIPs ep.nodeName).forFamily v6) proxyPort, ep.address⟩
    | none => ⟨(endpoints.head?.map EndpointTarget.address).getD [], []⟩

def EndpointPort.IsTCP (epPort : EndpointPort) : Prop :=
  epPort.protocol = none ∨ epPort.protocol = some [] ∨ epPort.protocol = some (str "TCP")

/-- The endpoint port that a Service port selects: by name or by number if it has a
target, and by its own number otherwise. -/
def ServicePort.Selects (svcPort : ServicePort) (epPort : EndpointPort) : Prop :=
  if svcPort.targetPort.set = true then
    if svcPort.targetPort.strVal ≠ [] then epPort.name = some svcPort.targetPort.strVal
    else epPort.port = some svcPort.targetPort.intVal
  else epPort.port = some svcPort.port

def EndpointSliceItem.Serves (slice : EndpointSliceItem) (svc : ServiceItem) (v6 : Bool) : Prop :=
  slice.ns = svc.ns ∧ slice.label (str "kubernetes.io/service-name") = svc.name ∧
    (slice.addressType = [] ∨ (slice.addressType = str "IPv6" ↔ v6 = true))

/-- The endpoint is not reported as unready and has the address in the family, so that
it is reached under that address and the port. -/
def EndpointEntry.Offers (ep : EndpointEntry) (number : ℤ) (v6 : Bool)
    (target : EndpointTarget) : Prop :=
  ep.ready ≠ some false ∧ ∃ addr ∈ ep.addresses,
    (∃ ip, Net.parseIP addr = some ip ∧ Net.isV4 ip = !v6) ∧
    target = ⟨Net.joinHostPort addr (Str.itoa number), ep.nodeName⟩

/-- What the snapshot says about an endpoint: a slice of the Service lists a TCP port that
the Service port selects, and an endpoint that is ready. -/
def ReadyEndpoint (state : ClusterState) (svc : ServiceItem) (port : ServicePort) (v6 : Bool)
    (target : EndpointTarget) : Prop :=
  ∃ slice ∈ state.endpointSlices, slice.Serves svc v6 ∧
    ∃ epPort ∈ slice.ports, epPort.IsTCP ∧ port.Selects epPort ∧
      ∃ number, epPort.port = some number ∧ ∃ ep ∈ slice.endpoints, ep.Offers number v6 target

variable {epPort : EndpointPort} {slice : EndpointSliceItem} {state : ClusterState}

theorem servicePortMatchesEndpoint_iff {svcPort : ServicePort} :
    servicePortMatchesEndpoint svcPort epPort ↔
      epPort.IsTCP ∧ svcPort.Selects epPort := by
  have protocols : (epPort.protocol.any fun protocol => protocol != [] && protocol != str "TCP") =
      false ↔ epPort.IsTCP := by
    unfold EndpointPort.IsTCP
    cases epPort.protocol with
    | none => simp
    | some protocol => simp [or_iff_not_imp_left]
  unfold servicePortMatchesEndpoint ServicePort.Selects
  split
  · rename_i other
    have notTCP : ¬ epPort.IsTCP := by
      rw [← protocols, other]
      decide
    simp [notTCP]
  · rename_i tcp
    rw [Bool.not_eq_true] at tcp
    simp only [protocols.mp tcp, true_and]
    split_ifs <;> simp

variable {v6 : Bool} {target : EndpointTarget} {port : ServicePort} {svc : ServiceItem}

theorem mem_targets {ep : EndpointEntry} {number : ℤ} :
    target ∈ ep.targets number v6 ↔ ep.Offers number v6 target := by
  have address : ∀ addr, target ∈ (match Net.parseIP addr with
      | none => []
      | some ip =>
        if (!Net.isV4 ip) ≠ v6 then []
        else [⟨Net.joinHostPort addr (Str.itoa number), ep.nodeName⟩] : List EndpointTarget) ↔
      (∃ ip, Net.parseIP addr = some ip ∧ Net.isV4 ip = !v6) ∧
        target = ⟨Net.joinHostPort addr (Str.itoa number), ep.nodeName⟩ := by
    intro addr
    cases Net.parseIP addr with
    | none => simp
    | some ip => cases v6 <;> cases four : Net.isV4 ip <;> simp [four]
  unfold EndpointEntry.targets EndpointEntry.Offers
  split
  · rename_i unready
    simp [unready]
  · rename_i ready
    simp only [List.mem_flatMap, address, ne_eq, ready, not_false_eq_true, true_and]

theorem mem_sliceTargets :
    target ∈ slice.targets port v6 epPort ↔
      epPort.IsTCP ∧ port.Selects epPort ∧
        ∃ number, epPort.port = some number ∧ ∃ ep ∈ slice.endpoints, ep.Offers number v6 target := by
  unfold EndpointSliceItem.targets
  split
  · rename_i absent
    simp [absent]
  · rename_i number present
    rw [← and_assoc, ← servicePortMatchesEndpoint_iff]
    cases servicePortMatchesEndpoint port epPort <;> simp [present, mem_targets]

theorem serves_iff :
    slice.Serves svc v6 ↔
      ¬ (slice.ns ≠ svc.ns ∨ slice.label (str "kubernetes.io/service-name") ≠ svc.name) ∧
        ¬ (slice.addressType ≠ [] ∧ (slice.addressType == str "IPv6") ≠ v6) := by
  have family : (slice.addressType == str "IPv6") = v6 ↔
      (slice.addressType = str "IPv6" ↔ v6 = true) := by
    rw [Bool.eq_iff_iff, beq_iff_eq]
  unfold EndpointSliceItem.Serves
  tauto

theorem mem_matchingEndpoints :
    target ∈ state.matchingEndpoints svc port v6 ↔ ReadyEndpoint state svc port v6 target := by
  unfold ClusterState.matchingEndpoints ReadyEndpoint
  rw [List.mem_flatMap]
  refine exists_congr fun slice => and_congr_right fun _ => ?_
  rw [serves_iff]
  split
  · rename_i other
    exact iff_of_false List.not_mem_nil fun serves => serves.1.1 other
  · rename_i ofService
    split
    · rename_i other
      exact iff_of_false List.not_mem_nil fun serves => serves.1.2 other
    · rename_i ofFamily
      simp [ofService, ofFamily, mem_sliceTargets]

theorem address_ne_nil
    {ep : EndpointTarget} (mem : ep ∈ state.matchingEndpoints svc port v6) : ep.address ≠ [] := by
  rcases mem_matchingEndpoints.mp mem with ⟨_, _, _, _, _, _, _, _, _, _, _, _, addr, _, _, rfl⟩
  exact Net.joinHostPort_ne_nil _ _

theorem routeFor_spec (state : ClusterState) (localNode proxyPort : Str) (svc : ServiceItem)
    (port : ServicePort) (v6 : Bool) :
    (∃ ep, (state.matchingEndpoints svc port v6).find? (EndpointTarget.direct localNode) = some ep ∧
        state.routeFor localNode proxyPort svc port v6 = ⟨ep.address, []⟩) ∨
      ((∀ ep ∈ state.matchingEndpoints svc port v6, ep.direct localNode = false) ∧
        ∃ ep ∈ state.matchingEndpoints svc port v6, (state.nodeIPs ep.nodeName).forFamily v6 ≠ [] ∧
          state.routeFor localNode proxyPort svc port v6 =
            ⟨Net.joinHostPort ((state.nodeIPs ep.nodeName).forFamily v6) proxyPort, ep.address⟩) ∨
      (∀ ep ∈ state.matchingEndpoints svc port v6, ep.direct localNode = false ∧
          (state.nodeIPs ep.nodeName).forFamily v6 = []) ∧
        state.routeFor localNode proxyPort svc port v6 =
          ⟨((state.matchingEndpoints svc port v6).head?.map EndpointTarget.address).getD [], []⟩ := by
  simp only [ClusterState.routeFor]
  generalize state.matchingEndpoints svc port v6 = endpoints
  cases direct : endpoints.find? (EndpointTarget.direct localNode) with
  | some ep => exact Or.inl ⟨ep, rfl, rfl⟩
  | none =>
    have noDirect : ∀ ep ∈ endpoints, ep.direct localNode = false :=
      fun ep mem => Bool.not_eq_true _ ▸ List.find?_eq_none.mp direct ep mem
    right
    cases remote : endpoints.find? fun ep => (state.nodeIPs ep.nodeName).forFamily v6 != [] with
    | some ep =>
      refine Or.inl ⟨noDirect, ep, List.mem_of_find?_eq_some remote, ?_, rfl⟩
      simpa using List.find?_some remote
    | none =>
      refine Or.inr ⟨fun ep mem => ⟨noDirect ep mem, ?_⟩, rfl⟩
      simpa using List.find?_eq_none.mp remote ep mem

end Kiac.EdgeProxy
