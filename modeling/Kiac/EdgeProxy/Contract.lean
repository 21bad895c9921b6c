import Kiac.EdgeProxy.Snapshot
import Kiac.Text.AddressPort

/-!
# Services and their EndpointSlices

Each EndpointSlice of a Service has one port for every port of the Service, under its name, with the
number that its target port stands for in the Pods of the slice. The edge proxy compares the target
port instead, and a target port that is a name is the name of a port of a container, which need not
be that of the Service port.
-/

namespace Kiac.EdgeProxy

inductive Protocol where
  | tcp
  | udp
  | sctp
deriving DecidableEq

def Protocol.text : Protocol → Str
  | tcp => str "TCP"
  | udp => str "UDP"
  | sctp => str "SCTP"

structure APIPort where
  name : Str
  protocol : Protocol
  decoded : ServicePort

structure APIService where
  item : ServiceItem
  ports : List APIPort
  decodes : item.ports = ports.map APIPort.decoded
  distinct : (ports.map APIPort.name).Nodup

def ServicePort.TargetsName (port : ServicePort) : Prop :=
  port.targetPort.set = true ∧ port.targetPort.strVal ≠ []

instance (port : ServicePort) : Decidable port.TargetsName :=
  inferInstanceAs (Decidable (_ ∧ _))

/-- The number that stands for the target port; the Pods decide it if that is a name. -/
def ServicePort.Resolves (port : ServicePort) (number : ℤ) : Prop :=
  if port.TargetsName then 1 ≤ number ∧ number ≤ 65535
  else if port.targetPort.set = true then number = port.targetPort.intVal
  else number = port.port

def EndpointPort.label (epPort : EndpointPort) : Str := epPort.name.getD []

def APIPort.Entry (port : APIPort) (epPort : EndpointPort) : Prop :=
  epPort.label = port.name ∧ (epPort.IsTCP ↔ port.protocol = .tcp) ∧
    ∃ number, epPort.port = some number ∧ port.decoded.Resolves number

def EndpointSliceItem.OfService (slice : EndpointSliceItem) (svc : ServiceItem) : Prop :=
  slice.ns = svc.ns ∧ slice.label (str "kubernetes.io/service-name") = svc.name

structure Contract (ports : List APIPort) (slice : EndpointSliceItem) : Prop where
  lists : ∀ port ∈ ports, ∃ epPort ∈ slice.ports, port.Entry epPort
  distinct : (slice.ports.map EndpointPort.label).Nodup
  family : slice.addressType ≠ [] → ∀ ep ∈ slice.endpoints, ∀ addr ∈ ep.addresses, ∀ ip,
    Net.parseIP addr = some ip → (Net.isV4 ip = false ↔ slice.addressType = str "IPv6")

structure APICluster where
  services : List APIService
  state : ClusterState
  decodes : state.services = services.map APIService.item
  obeys : ∀ svc ∈ services, ∀ slice ∈ state.endpointSlices, slice.OfService svc.item →
    Contract svc.ports slice

/-- A ready endpoint of the family that a slice of the Service carries under the port. -/
def APICluster.Carries (cluster : APICluster) (svc : APIService) (port : APIPort) (v6 : Bool)
    (target : EndpointTarget) : Prop :=
  ∃ slice ∈ cluster.state.endpointSlices, slice.OfService svc.item ∧
    ∃ epPort ∈ slice.ports, epPort.label = port.name ∧
      ∃ number, epPort.port = some number ∧ ∃ ep ∈ slice.endpoints, ep.Offers number v6 target

def APIPort.TargetsOwnName (port : APIPort) : Prop :=
  port.decoded.TargetsName → port.decoded.targetPort.strVal = port.name

section Selection

variable {ports : List APIPort} {slice : EndpointSliceItem} {port : APIPort}

theorem Contract.entry_of_label (contract : Contract ports slice) (isPort : port ∈ ports)
    {epPort : EndpointPort} (mem : epPort ∈ slice.ports) (named : epPort.label = port.name) :
    port.Entry epPort := by
  rcases contract.lists port isPort with ⟨listed, listedMem, entry⟩
  have same := List.inj_on_of_nodup_map contract.distinct listedMem mem (entry.1.trans named.symm)
  rwa [← same]

theorem Contract.serves_iff (contract : Contract ports slice) {svc : ServiceItem} {v6 : Bool}
    {ep : EndpointEntry} {number : ℤ} {target : EndpointTarget} (mem : ep ∈ slice.endpoints)
    (offers : ep.Offers number v6 target) : slice.Serves svc v6 ↔ slice.OfService svc := by
  rcases offers with ⟨_, addr, addrMem, ⟨ip, parsed, isFamily⟩, _⟩
  unfold EndpointSliceItem.Serves EndpointSliceItem.OfService
  by_cases untyped : slice.addressType = []
  · simp [untyped]
  · have family := contract.family untyped ep mem addr addrMem ip parsed
    cases v6 <;> simp_all

/-- Where the target port is not the name of another port, the numbers that the proxy selects
are those under the port's name. -/
theorem Contract.selects_iff (contract : Contract ports slice) (isPort : port ∈ ports)
    (isTCP : port.protocol = .tcp) (own : port.TargetsOwnName) (number : ℤ) :
    (∃ epPort ∈ slice.ports, epPort.IsTCP ∧ port.decoded.Selects epPort ∧
        epPort.port = some number) ↔
      ∃ epPort ∈ slice.ports, epPort.label = port.name ∧ epPort.port = some number := by
  by_cases targetsName : port.decoded.TargetsName
  · have nonempty : port.name ≠ [] := by
      rw [← own targetsName]
      exact targetsName.2
    have named : ∀ epPort : EndpointPort,
        port.decoded.Selects epPort ↔ epPort.label = port.name := by
      intro epPort
      rw [ServicePort.Selects, if_pos targetsName.1, if_pos targetsName.2, own targetsName]
      unfold EndpointPort.label
      cases epPort.name <;> simp [nonempty.symm]
    constructor
    · rintro ⟨epPort, mem, _, selects, isNumber⟩
      exact ⟨epPort, mem, (named epPort).mp selects, isNumber⟩
    · rintro ⟨epPort, mem, label, isNumber⟩
      have entry := contract.entry_of_label isPort mem label
      exact ⟨epPort, mem, entry.2.1.mpr isTCP, (named epPort).mpr label, isNumber⟩
  · have numbered : ∀ (epPort : EndpointPort) (other : ℤ), port.decoded.Resolves other →
        (port.decoded.Selects epPort ↔ epPort.port = some other) := by
      intro epPort other resolves
      unfold ServicePort.Resolves at resolves
      rw [if_neg targetsName] at resolves
      unfold ServicePort.Selects
      split at resolves
      · rename_i isSet
        have unnamed : ¬port.decoded.targetPort.strVal ≠ [] := fun named =>
          targetsName ⟨isSet, named⟩
        rw [if_pos isSet, if_neg unnamed, resolves]
      · rename_i unset
        rw [if_neg unset, resolves]
    constructor
    · rintro ⟨epPort, _, _, selects, isNumber⟩
      rcases contract.lists port isPort with ⟨listed, mem, entry⟩
      rcases entry with ⟨label, _, resolved, isResolved, resolves⟩
      rw [numbered epPort resolved resolves, isNumber] at selects
      exact ⟨listed, mem, label, isResolved.trans selects.symm⟩
    · rintro ⟨epPort, mem, label, isNumber⟩
      rcases contract.entry_of_label isPort mem label with ⟨_, tcp, resolved, isResolved, resolves⟩
      exact ⟨epPort, mem, tcp.mpr isTCP, (numbered epPort resolved resolves).mpr isResolved,
        isNumber⟩

end Selection

/-- Where the target port is not the name of another port, the proxy selects the endpoints
that the cluster carries. -/
theorem mem_matchingEndpoints_of_ownName {cluster : APICluster} {svc : APIService} {port : APIPort}
    (isService : svc ∈ cluster.services) (isPort : port ∈ svc.ports)
    (isTCP : port.protocol = .tcp) (own : port.TargetsOwnName) (v6 : Bool)
    (target : EndpointTarget) :
    target ∈ cluster.state.matchingEndpoints svc.item port.decoded v6 ↔
      cluster.Carries svc port v6 target := by
  rw [mem_matchingEndpoints]
  constructor
  · rintro ⟨slice, isSlice, serves, epPort, mem, tcp, selects, number, isNumber, ep, epMem, offers⟩
    have ofService : slice.OfService svc.item := ⟨serves.1, serves.2.1⟩
    have contract := cluster.obeys svc isService slice isSlice ofService
    rcases (contract.selects_iff isPort isTCP own number).mp ⟨epPort, mem, tcp, selects, isNumber⟩
      with ⟨listed, listedMem, label, isListed⟩
    exact ⟨slice, isSlice, ofService, listed, listedMem, label, number, isListed, ep, epMem, offers⟩
  · rintro ⟨slice, isSlice, ofService, epPort, mem, label, number, isNumber, ep, epMem, offers⟩
    have contract := cluster.obeys svc isService slice isSlice ofService
    rcases (contract.selects_iff isPort isTCP own number).mpr ⟨epPort, mem, label, isNumber⟩
      with ⟨selected, selectedMem, tcp, selects, isSelected⟩
    exact ⟨slice, isSlice, (contract.serves_iff epMem offers).mpr ofService, selected, selectedMem,
      tcp, selects, number, isSelected, ep, epMem, offers⟩

section OtherName

variable (svc : APIService) (port : APIPort)

def APIPort.number (other : APIPort) : ℤ :=
  if other.decoded.TargetsName then 8080
  else if other.decoded.targetPort.set = true then other.decoded.targetPort.intVal
  else other.decoded.port

theorem resolves_number (other : APIPort) : other.decoded.Resolves other.number := by
  unfold ServicePort.Resolves APIPort.number
  split
  · decide
  · split <;> rfl

def entryFor (number : ℤ) (other : APIPort) : EndpointPort :=
  ⟨some other.name, some (if other.name = port.name then number else other.number),
    some other.protocol.text⟩

def sliceFor (number : ℤ) : EndpointSliceItem where
  ns := svc.item.ns
  labels := [(str "kubernetes.io/service-name", svc.item.name)]
  addressType := str "IPv4"
  ports := svc.ports.map (entryFor port number)
  endpoints := [⟨[str "10.0.0.5"], [], some true⟩]

theorem entry_entryFor {number : ℤ} (isPort : port ∈ svc.ports)
    (resolves : port.decoded.Resolves number) {other : APIPort} (isOther : other ∈ svc.ports) :
    other.Entry (entryFor port number other) := by
  refine ⟨rfl, ?_, _, rfl, ?_⟩
  · unfold EndpointPort.IsTCP entryFor
    dsimp only
    cases other.protocol <;> decide
  · split
    · rename_i named
      rwa [List.inj_on_of_nodup_map svc.distinct isOther isPort named]
    · exact resolves_number other

theorem contract_sliceFor {number : ℤ} (isPort : port ∈ svc.ports)
    (resolves : port.decoded.Resolves number) : Contract svc.ports (sliceFor svc port number) where
  lists other isOther :=
    ⟨entryFor port number other, List.mem_map_of_mem isOther,
      entry_entryFor svc port isPort resolves isOther⟩
  distinct := by
    have labels : (sliceFor svc port number).ports.map EndpointPort.label =
        svc.ports.map APIPort.name := List.map_map
    rw [labels]
    exact svc.distinct
  family _ ep mem addr addrMem ip parsed := by
    rw [List.mem_singleton.mp mem] at addrMem
    rw [List.mem_singleton.mp addrMem] at parsed
    have four : (Net.parseIP (str "10.0.0.5")).any Net.isV4 := by decide
    rw [parsed, Option.any_some] at four
    have ipv4 : true = false ↔ str "IPv4" = str "IPv6" := by decide
    rwa [four]

def clusterFor (number : ℤ) (isPort : port ∈ svc.ports) (resolves : port.decoded.Resolves number) :
    APICluster where
  services := [svc]
  state := ⟨[svc.item], [sliceFor svc port number], fun _ => NodeAddrs.empty⟩
  decodes := rfl
  obeys other isService slice isSlice _ := by
    rw [List.mem_singleton.mp isService, List.mem_singleton.mp isSlice]
    exact contract_sliceFor svc port isPort resolves

theorem exists_other_number (name : Str) :
    ∃ number : ℤ, (1 ≤ number ∧ number ≤ 65535) ∧
      ∀ other ∈ svc.ports, other.name = name → other.number ≠ number := by
  by_cases taken : ∃ other ∈ svc.ports, other.name = name ∧ other.number = 8080
  · rcases taken with ⟨first, isFirst, named, isNumber⟩
    refine ⟨8081, by decide, ?_⟩
    intro other isOther otherNamed
    rw [List.inj_on_of_nodup_map svc.distinct isOther isFirst (otherNamed.trans named.symm),
      isNumber]
    decide
  · refine ⟨8080, by decide, ?_⟩
    intro other isOther named isNumber
    exact taken ⟨other, isOther, named, isNumber⟩

/-- Where the target port is another name, there is a cluster whose endpoint the proxy does
not select. -/
theorem exists_not_selected (isPort : port ∈ svc.ports) (other : ¬port.TargetsOwnName) :
    ∃ cluster : APICluster, svc ∈ cluster.services ∧ ∃ target,
      cluster.Carries svc port false target ∧
        target ∉ cluster.state.matchingEndpoints svc.item port.decoded false := by
  rcases Classical.not_imp.mp other with ⟨targetsName, differs⟩
  rcases exists_other_number svc port.decoded.targetPort.strVal with ⟨number, range, unlisted⟩
  have resolves : port.decoded.Resolves number := by
    rw [ServicePort.Resolves, if_pos targetsName]
    exact range
  have isHost : Net.IsHost (str "10.0.0.5") := fun _ => Option.isSome_iff_exists.mp (by decide)
  refine ⟨clusterFor svc port number isPort resolves, List.mem_cons_self,
    ⟨Net.joinHostPort (str "10.0.0.5") (Str.itoa number), []⟩, ?_, ?_⟩
  · have listed : (entryFor port number port).port = some number := by
      simp [entryFor]
    have parsed : ∃ ip, Net.parseIP (str "10.0.0.5") = some ip ∧ Net.isV4 ip :=
      ⟨_, rfl, by decide⟩
    refine ⟨sliceFor svc port number, List.mem_cons_self, ⟨rfl, ?_⟩, entryFor port number port,
      List.mem_map_of_mem isPort, rfl, number, listed, _, List.mem_cons_self, ?_⟩
    · simp [EndpointSliceItem.label, sliceFor]
    · exact ⟨by decide, _, List.mem_cons_self, parsed, rfl⟩
  · rw [mem_matchingEndpoints]
    rintro ⟨slice, isSlice, _, epPort, mem, _, selects, found, isFound, ep, epMem, offers⟩
    rw [List.mem_singleton.mp isSlice] at mem epMem
    rcases List.mem_map.mp mem with ⟨listed, isListed, rfl⟩
    rw [ServicePort.Selects, if_pos targetsName.1, if_pos targetsName.2] at selects
    have named := Option.some.inj selects
    have isNumber : listed.number = found := by
      have otherName : ¬listed.name = port.name := by
        rw [named]
        exact differs
      simpa [entryFor, otherName] using isFound
    rcases offers with ⟨_, addr, addrMem, _, same⟩
    rw [List.mem_singleton.mp epMem] at addrMem
    rw [List.mem_singleton.mp addrMem] at same
    have numbers := (Net.joinHostPort_inj isHost isHost (congrArg EndpointTarget.address same)).2
    exact unlisted listed isListed named (isNumber.trans numbers.symm)

end OtherName

/-- For a TCP port of a Service, the proxy selects exactly the ready endpoints that the slices
carry under that port, in every cluster that follows the contract, if and only if the target
port is not the name of another port. -/
theorem selects_carried_iff_ownName {svc : APIService} {port : APIPort} (isPort : port ∈ svc.ports)
    (isTCP : port.protocol = .tcp) :
    (∀ cluster : APICluster, svc ∈ cluster.services → ∀ v6 target,
      target ∈ cluster.state.matchingEndpoints svc.item port.decoded v6 ↔
        cluster.Carries svc port v6 target) ↔ port.TargetsOwnName := by
  constructor
  · intro exact'
    by_contra other
    rcases exists_not_selected svc port isPort other with
      ⟨cluster, isService, target, carries, unselected⟩
    exact unselected ((exact' cluster isService false target).mpr carries)
  · intro own cluster isService v6 target
    exact mem_matchingEndpoints_of_ownName isService isPort isTCP own v6 target

/-- A Service with one port, which leads to the container port `http`. -/
def webService (port : APIPort) : APIService where
  item := ⟨str "web", str "default", str "NodePort", [port.decoded], []⟩
  ports := [port]
  decodes := rfl
  distinct := List.nodup_singleton _

def webPort (name : Str) : APIPort := ⟨name, .tcp, ⟨80, 30080, ⟨0, str "http", true⟩⟩⟩

/-- The endpoints of a port that is called `http` as well are selected. -/
theorem selects_port_http :
    (webPort (str "http")).TargetsOwnName ∧
      ∀ cluster : APICluster, webService (webPort (str "http")) ∈ cluster.services → ∀ v6 target,
        target ∈ cluster.state.matchingEndpoints (webService (webPort (str "http"))).item
            (webPort (str "http")).decoded v6 ↔
          cluster.Carries (webService (webPort (str "http"))) (webPort (str "http")) v6 target :=
  ⟨fun _ => rfl, (selects_carried_iff_ownName List.mem_cons_self rfl).mpr fun _ => rfl⟩

theorem resolves_web : (webPort (str "web")).decoded.Resolves 8080 := by
  have targetsName : (webPort (str "web")).decoded.TargetsName := by decide
  rw [ServicePort.Resolves, if_pos targetsName]
  decide

/-- The cluster of the Service whose port is called `web`, and the container port is 8080. -/
def webCluster : APICluster :=
  clusterFor (webService (webPort (str "web"))) (webPort (str "web")) 8080 List.mem_cons_self
    resolves_web

/-- The endpoint of a port that is called `web` is not selected. -/
theorem misses_port_web :
    webService (webPort (str "web")) ∈ webCluster.services ∧
      webCluster.Carries (webService (webPort (str "web"))) (webPort (str "web")) false
        ⟨str "10.0.0.5:8080", []⟩ ∧
      webCluster.state.matchingEndpoints (webService (webPort (str "web"))).item
        (webPort (str "web")).decoded false = [] := by
  refine ⟨List.mem_cons_self, ?_, by decide +kernel⟩
  refine ⟨_, List.mem_cons_self, ⟨rfl, by decide⟩, _, List.mem_cons_self, rfl, 8080, by decide, _,
    List.mem_cons_self, by decide, str "10.0.0.5", by decide, ⟨_, rfl, by decide⟩, by decide⟩

end Kiac.EdgeProxy
