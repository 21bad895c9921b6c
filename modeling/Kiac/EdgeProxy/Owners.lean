import Kiac.EdgeProxy.Contract
import Kiac.EdgeProxy.Spelling

/-!
# Whose endpoints answer

A destination belongs to a Service: it is an address of its load balancer with one of its TCP ports,
or an address of a node with one of its TCP NodePorts. The route tables do not know protocols, and a
load balancer port without a route falls through to the NodePorts. The endpoints of another Service
can therefore answer, and this file says exactly when they do.
-/

namespace Kiac.EdgeProxy

open Net

def ServiceItem.Same (svc other : ServiceItem) : Prop := svc.ns = other.ns ∧ svc.name = other.name

instance (svc other : ServiceItem) : Decidable (svc.Same other) := inferInstanceAs (Decidable (_ ∧ _))

instance (slice : EndpointSliceItem) (svc : ServiceItem) : Decidable (slice.OfService svc) :=
  inferInstanceAs (Decidable (_ ∧ _))

def ClusterState.HasEndpoint (state : ClusterState) (svc : ServiceItem) (text : Str) : Prop :=
  ∃ slice ∈ state.endpointSlices, slice.OfService svc ∧ ∃ epPort ∈ slice.ports, ∃ number,
    epPort.port = some number ∧ ∃ ep ∈ slice.endpoints, ∃ address ∈ ep.addresses,
      text = joinHostPort address (Str.itoa number)

def ClusterState.endpointTexts (state : ClusterState) (svc : ServiceItem) : List Str :=
  (state.endpointSlices.filter fun slice => slice.OfService svc).flatMap fun slice =>
    (slice.ports.filterMap EndpointPort.port).flatMap fun number =>
      slice.endpoints.flatMap fun ep =>
        ep.addresses.map fun address => joinHostPort address (Str.itoa number)

theorem mem_endpointTexts {state : ClusterState} {svc : ServiceItem} {text : Str} :
    text ∈ state.endpointTexts svc ↔ state.HasEndpoint svc text := by
  simp only [ClusterState.endpointTexts, ClusterState.HasEndpoint, List.mem_flatMap, List.mem_filter,
    List.mem_filterMap, List.mem_map, decide_eq_true_eq, eq_comm (a := text)]
  constructor
  · rintro ⟨slice, ⟨isSlice, ofService⟩, number, ⟨epPort, isPort, numbered⟩, ep, isEntry, rest⟩
    exact ⟨slice, isSlice, ofService, epPort, isPort, number, numbered, ep, isEntry, rest⟩
  · rintro ⟨slice, isSlice, ofService, epPort, isPort, number, numbered, ep, isEntry, rest⟩
    exact ⟨slice, ⟨isSlice, ofService⟩, number, ⟨epPort, isPort, numbered⟩, ep, isEntry, rest⟩

instance (state : ClusterState) (svc : ServiceItem) (text : Str) :
    Decidable (state.HasEndpoint svc text) := decidable_of_iff _ mem_endpointTexts

def ClusterState.Foreign (state : ClusterState) (svc : ServiceItem) (text : Str) : Prop :=
  (∃ other ∈ state.services, ¬ other.Same svc ∧ state.HasEndpoint other text) ∧
    ¬ state.HasEndpoint svc text

def APIService.OwnsIngress (svc : APIService) (ip : Groups) (number : ℤ) : Prop :=
  svc.item.type = str "LoadBalancer" ∧ (∃ ingress ∈ svc.item.ingress, parseIP ingress = some ip) ∧
    ∃ port ∈ svc.ports, port.protocol = .tcp ∧ port.decoded.port = number

def APIService.OwnsNodePort (svc : APIService) (number : ℤ) : Prop :=
  0 < number ∧ ∃ port ∈ svc.ports, port.protocol = .tcp ∧ port.decoded.nodePort = number

structure Unshared (services : List APIService) : Prop where
  ingress : ∀ svc ∈ services, ∀ other ∈ services, ∀ ip number,
    svc.OwnsIngress ip number → other.OwnsIngress ip number → svc.item.Same other.item
  nodePort : ∀ svc ∈ services, ∀ other ∈ services, ∀ number,
    svc.OwnsNodePort number → other.OwnsNodePort number → svc.item.Same other.item

/-- A snapshot in which no two Services own the same TCP destination. The protocols of the ports
are those of the API. -/
structure APISnapshot where
  state : ClusterState
  services : List APIService
  decodes : state.services = services.map APIService.item
  unshared : Unshared services

def IsNodeAddress {Raw : Type} (decoder : Decoder Raw) (raw : Str) (ip : IP) : Prop :=
  ∃ items, decoder.items raw = some items ∧ ∃ item ∈ items, decoder.kind item = some (str "Node") ∧
    ∃ node, decoder.node item = some node ∧ ∃ entry ∈ node.addresses,
      parseIP entry.2 = some ip.groups

def Owns {Raw : Type} (decoder : Decoder Raw) (raw : Str) (svc : APIService) (conn : Packet) : Prop :=
  svc.OwnsIngress conn.ip.groups conn.port ∨
    IsNodeAddress decoder raw conn.ip ∧ svc.OwnsNodePort conn.port

def Misroutes (routes : RouteTable) (state : ClusterState) (svc : ServiceItem) (conn : Packet) :
    Prop :=
  state.Foreign svc (backendRoute routes conn.dst).dial ∨
    state.Foreign svc (backendRoute routes conn.dst).tunnelTarget

def ClusterState.chosen (state : ClusterState) (localNode : Str) (svc : ServiceItem)
    (port : ServicePort) (v6 : Bool) : Option EndpointTarget :=
  ((state.matchingEndpoints svc port v6).find? (EndpointTarget.direct localNode)).or
    (((state.matchingEndpoints svc port v6).find? fun ep =>
      (state.nodeIPs ep.nodeName).forFamily v6 != []).or
        (state.matchingEndpoints svc port v6).head?)

def recordedBalancer (app : App) (state : ClusterState) (conn : Packet) :
    Option (ServiceItem × Str × ServicePort) :=
  if conn.v6 ∈ app.families ∧ conn.port ≠ app.port then state.balancer conn else none

def recordedNodePort (app : App) (state : ClusterState) (conn : Packet) :
    Option (ServiceItem × ServicePort) :=
  if conn.v6 ∈ app.families then state.nodePortOwner conn else none

/-- The Service port to which a destination leads: the load balancer port that is recorded for
it, if that has an endpoint or a NodePort, and otherwise the recorded NodePort. -/
def answerer (app : App) (state : ClusterState) (conn : Packet) : Option (ServiceItem × ServicePort) :=
  match recordedBalancer app state conn with
  | some (svc, _, port) =>
    if state.matchingEndpoints svc port conn.v6 = [] ∧ port.nodePort ≤ 0 then
      recordedNodePort app state conn
    else some (svc, port)
  | none => recordedNodePort app state conn

structure KeepsTo (app : App) (state : ClusterState) (svc : ServiceItem) (conn : Packet) : Prop where
  /-- The Service port to which it leads is one of the Service, or its endpoint is. -/
  endpoint : ∀ other port ep, answerer app state conn = some (other, port) →
    state.chosen app.nodeName other port conn.v6 = some ep →
      other.Same svc ∨ state.HasEndpoint svc ep.address
  /-- The proxy through which the endpoint is reached is not an endpoint of other Services. -/
  node : ∀ other port ep, answerer app state conn = some (other, port) →
    state.chosen app.nodeName other port conn.v6 = some ep → ep.direct app.nodeName = false →
      (state.nodeIPs ep.nodeName).forFamily conn.v6 ≠ [] →
        ¬ state.Foreign svc
          (joinHostPort ((state.nodeIPs ep.nodeName).forFamily conn.v6) app.proxyPort)
  /-- Neither is the NodePort that stands in for endpoints. -/
  standIn : ∀ other ingress port, recordedBalancer app state conn = some (other, ingress, port) →
    state.matchingEndpoints other port conn.v6 = [] → 0 < port.nodePort →
      ¬ state.Foreign svc (joinHostPort ingress (Str.itoa port.nodePort))

section Recorded

variable {app : App} {state : ClusterState} {conn : Packet}

theorem recorded_of_mem_steps {route : BackendRoute}
    (mem : RuleStep.loadBalancer conn.dst route ∈ app.steps state) :
    conn.v6 ∈ app.families ∧ conn.port ≠ app.port := by
  rcases loadBalancer_mem_steps mem with
    ⟨svc, port, ingress, v6, isPort, ⟨ip, parsed, rfl⟩, other, key, _⟩
  rcases (key_eq_dst_iff parsed).mp key.symm with ⟨rfl, number⟩
  rw [parseIP_format] at parsed
  obtain rfl := Option.some.inj parsed
  refine ⟨isPort.family, fun same => other ?_⟩
  rw [number, same]
  rfl

theorem loadBalancers_recorded :
    (app.routes state).loadBalancers conn.dst =
      match recordedBalancer app state conn with
      | some (svc, ingress, port) => app.loadBalancerRoute state svc ingress conn.v6 port
      | none => ⟨[], []⟩ := by
  unfold recordedBalancer
  by_cases recorded : conn.v6 ∈ app.families ∧ conn.port ≠ app.port
  · rw [if_pos recorded]
    refine (loadBalancers_routes recorded.1 recorded.2).trans ?_
    cases state.balancer conn <;> rfl
  · have unset : (app.steps state).filterMap (RuleStep.loadBalancerAt conn.dst) = [] := by
      rw [List.filterMap_eq_nil_iff]
      intro step mem
      cases step with
      | loadBalancer key route =>
        refine if_neg fun same => ?_
        subst same
        exact recorded (recorded_of_mem_steps mem)
      | _ => rfl
    rw [if_neg recorded, App.routes, loadBalancers_foldl, unset]
    rfl

theorem nodePorts_recorded :
    (app.routes state).nodePorts (conn.port, conn.v6) =
      match recordedNodePort app state conn with
      | some (svc, port) => state.routeFor app.nodeName app.proxyPort svc port conn.v6
      | none => ⟨[], []⟩ := by
  unfold recordedNodePort
  by_cases recorded : conn.v6 ∈ app.families
  · rw [if_pos recorded]
    refine (nodePorts_routes recorded).trans ?_
    cases state.nodePortOwner conn <;> rfl
  · have unset : (app.steps state).filterMap (RuleStep.nodePortAt (conn.port, conn.v6)) = [] := by
      rw [List.filterMap_eq_nil_iff]
      intro step mem
      cases step with
      | nodePort key route =>
        refine if_neg fun same => ?_
        subst same
        rcases nodePort_mem_steps mem with ⟨_, _, isPort, _⟩
        exact recorded isPort.family
      | _ => rfl
    rw [if_neg recorded, App.routes, nodePorts_foldl, unset]
    rfl

theorem routeFor_eq (localNode proxyPort : Str) (svc : ServiceItem) (port : ServicePort) (v6 : Bool) :
    state.routeFor localNode proxyPort svc port v6 =
      match state.chosen localNode svc port v6 with
      | none => ⟨[], []⟩
      | some ep =>
        if ep.direct localNode = false ∧ (state.nodeIPs ep.nodeName).forFamily v6 ≠ [] then
          ⟨joinHostPort ((state.nodeIPs ep.nodeName).forFamily v6) proxyPort, ep.address⟩
        else ⟨ep.address, []⟩ := by
  simp only [ClusterState.routeFor, ClusterState.chosen]
  generalize state.matchingEndpoints svc port v6 = endpoints
  cases direct : endpoints.find? (EndpointTarget.direct localNode) with
  | some ep => simp [List.find?_some direct]
  | none =>
    have noDirect : ∀ ep ∈ endpoints, ep.direct localNode = false :=
      fun ep mem => Bool.not_eq_true _ ▸ List.find?_eq_none.mp direct ep mem
    cases remote : endpoints.find? fun ep => (state.nodeIPs ep.nodeName).forFamily v6 != [] with
    | some ep =>
      have known : (state.nodeIPs ep.nodeName).forFamily v6 ≠ [] := by
        simpa using List.find?_some remote
      simp [noDirect ep (List.mem_of_find?_eq_some remote), known]
    | none =>
      cases endpoints with
      | nil => rfl
      | cons ep rest =>
        have unknown : (state.nodeIPs ep.nodeName).forFamily v6 = [] := by
          simpa using List.find?_eq_none.mp remote ep List.mem_cons_self
        simp [unknown]

variable {localNode : Str} {svc : ServiceItem} {port : ServicePort} {v6 : Bool}

theorem ready_of_chosen
    {ep : EndpointTarget} (chosen : state.chosen localNode svc port v6 = some ep) :
    ReadyEndpoint state svc port v6 ep := by
  rw [← mem_matchingEndpoints]
  rcases Option.or_eq_some_iff.mp chosen with direct | ⟨_, later⟩
  · exact List.mem_of_find?_eq_some direct
  · rcases Option.or_eq_some_iff.mp later with remote | ⟨_, first⟩
    · exact List.mem_of_find?_eq_some remote
    · exact List.mem_of_mem_head? first

theorem chosen_eq_none_iff :
    state.chosen localNode svc port v6 = none ↔ state.matchingEndpoints svc port v6 = [] := by
  unfold ClusterState.chosen
  cases state.matchingEndpoints svc port v6 <;> simp

/-- A destination follows the route of the Service port to which it leads, or is sent to the
NodePort that stands in for the endpoints. -/
theorem backendRoute_eq :
    backendRoute (app.routes state) conn.dst =
      match answerer app state conn with
      | none => ⟨[], []⟩
      | some (svc, port) =>
        if state.matchingEndpoints svc port conn.v6 = [] then
          match recordedBalancer app state conn with
          | some (_, ingress, port) =>
            if 0 < port.nodePort then ⟨joinHostPort ingress (Str.itoa port.nodePort), []⟩
            else ⟨[], []⟩
          | none => ⟨[], []⟩
        else state.routeFor app.nodeName app.proxyPort svc port conn.v6 := by
  have nothing : ∀ svc port, state.matchingEndpoints svc port conn.v6 = [] →
      state.routeFor app.nodeName app.proxyPort svc port conn.v6 = ⟨[], []⟩ := by
    intro svc port none
    rw [routeFor_eq, chosen_eq_none_iff.mpr none]
  rw [backendRoute_dst, loadBalancers_recorded, nodePorts_recorded, answerer]
  cases balancer : recordedBalancer app state conn with
  | none =>
    cases owner : recordedNodePort app state conn with
    | none => rfl
    | some entry =>
      rcases entry with ⟨svc, port⟩
      by_cases none : state.matchingEndpoints svc port conn.v6 = [] <;> simp [none, nothing]
  | some entry =>
    rcases entry with ⟨svc, ingress, port⟩
    by_cases none : state.matchingEndpoints svc port conn.v6 = []
    · by_cases positive : 0 < port.nodePort
      · simp [App.loadBalancerRoute, nothing, none, positive, not_le.mpr positive,
          joinHostPort_ne_nil]
      · cases owner : recordedNodePort app state conn with
        | none => simp [App.loadBalancerRoute, nothing, none, not_lt.mp positive]
        | some entry =>
          rcases entry with ⟨other, port'⟩
          by_cases empty : state.matchingEndpoints other port' conn.v6 = [] <;>
            simp [App.loadBalancerRoute, nothing, none, positive, not_lt.mp positive, empty]
    · have dials : (state.routeFor app.nodeName app.proxyPort svc port conn.v6).dial ≠ [] :=
        mt routeFor_dial_eq_nil.mp none
      simp [App.loadBalancerRoute, dials, none]

end Recorded

section Ownership

variable {app : App} {state : ClusterState} {conn : Packet} {svc : ServiceItem}

theorem not_foreign_nil : ¬ state.Foreign svc [] := by
  rintro ⟨⟨_, _, _, _, _, _, _, _, _, _, _, _, address, _, empty⟩, _⟩
  exact joinHostPort_ne_nil _ _ empty.symm

variable {port : ServicePort} {ep : EndpointTarget} {other : ServiceItem}

theorem hasEndpoint_of_ready {v6 : Bool}
    (ready : ReadyEndpoint state svc port v6 ep) : state.HasEndpoint svc ep.address := by
  rcases ready with ⟨slice, isSlice, ⟨ns, label, _⟩, epPort, isPort, _, _, number, numbered, entry,
    isEntry, _, address, isAddress, _, rfl⟩
  exact ⟨slice, isSlice, ⟨ns, label⟩, epPort, isPort, number, numbered, entry, isEntry, address,
    isAddress, rfl⟩

theorem HasEndpoint.of_same (same : other.Same svc) {text : Str}
    (endpoint : state.HasEndpoint other text) : state.HasEndpoint svc text := by
  rcases endpoint with ⟨slice, isSlice, ⟨ns, label⟩, rest⟩
  exact ⟨slice, isSlice, ⟨ns.trans same.1, label.trans same.2⟩, rest⟩

theorem mem_services_of_answerer (answers : answerer app state conn = some (svc, port)) :
    svc ∈ state.services := by
  have ofNodePort : recordedNodePort app state conn = some (svc, port) → svc ∈ state.services := by
    intro owner
    unfold recordedNodePort at owner
    rw [Option.ite_none_right_eq_some] at owner
    have mem := (List.mem_filter.mp (List.mem_of_getLast? owner.2)).1
    rcases List.mem_flatMap.mp mem with ⟨other, isService, inService⟩
    rcases List.mem_map.mp inService with ⟨_, _, eq⟩
    cases eq
    exact isService
  unfold answerer at answers
  split at answers
  · rename_i other ingress port' balancer
    split at answers
    · exact ofNodePort answers
    · cases answers
      unfold recordedBalancer at balancer
      rw [Option.ite_none_right_eq_some] at balancer
      have mem := (List.mem_filter.mp (List.mem_of_getLast? balancer.2)).1
      rcases List.mem_flatMap.mp mem with ⟨other, isBalanced, inService⟩
      rcases List.mem_flatMap.mp inService with ⟨_, _, inIngress⟩
      rcases List.mem_map.mp inIngress with ⟨_, _, eq⟩
      cases eq
      exact (List.mem_filter.mp isBalanced).1
  · exact ofNodePort answers

/-- An endpoint of the Service port that answers is foreign if it is not also one of the Service. -/
theorem foreign_chosen_iff (answers : answerer app state conn = some (other, port))
    (chosen : state.chosen app.nodeName other port conn.v6 = some ep) :
    state.Foreign svc ep.address ↔ ¬ (other.Same svc ∨ state.HasEndpoint svc ep.address) := by
  have endpoint := hasEndpoint_of_ready (ready_of_chosen chosen)
  rw [not_or]
  constructor
  · rintro ⟨_, notOwn⟩
    exact ⟨fun same => notOwn (HasEndpoint.of_same same endpoint), notOwn⟩
  · rintro ⟨differs, notOwn⟩
    exact ⟨⟨other, mem_services_of_answerer answers, differs, endpoint⟩, notOwn⟩

theorem backendRoute_of_chosen (answers : answerer app state conn = some (other, port))
    (chosen : state.chosen app.nodeName other port conn.v6 = some ep) :
    backendRoute (app.routes state) conn.dst =
      if ep.direct app.nodeName = false ∧ (state.nodeIPs ep.nodeName).forFamily conn.v6 ≠ [] then
        ⟨joinHostPort ((state.nodeIPs ep.nodeName).forFamily conn.v6) app.proxyPort, ep.address⟩
      else ⟨ep.address, []⟩ := by
  have some' : state.matchingEndpoints other port conn.v6 ≠ [] := by
    intro none
    rw [chosen_eq_none_iff.mpr none] at chosen
    cases chosen
  rw [backendRoute_eq, answers]
  simp only [some', if_false]
  rw [routeFor_eq, chosen]

theorem backendRoute_of_standIn {ingress : Str}
    (balancer : recordedBalancer app state conn = some (other, ingress, port))
    (none : state.matchingEndpoints other port conn.v6 = []) (positive : 0 < port.nodePort) :
    backendRoute (app.routes state) conn.dst =
      ⟨joinHostPort ingress (Str.itoa port.nodePort), []⟩ := by
  have answers : answerer app state conn = some (other, port) := by
    simp [answerer, balancer, not_le.mpr positive]
  rw [backendRoute_eq, answers, balancer]
  simp [none, positive]

theorem keepsTo_iff : KeepsTo app state svc conn ↔ ¬ Misroutes (app.routes state) state svc conn := by
  constructor
  · rintro keeps misroutes
    cases answers : answerer app state conn with
    | none =>
      unfold Misroutes at misroutes
      rw [backendRoute_eq, answers] at misroutes
      exact misroutes.elim not_foreign_nil not_foreign_nil
    | some entry =>
      rcases entry with ⟨other, port⟩
      unfold Misroutes at misroutes
      cases chosen : state.chosen app.nodeName other port conn.v6 with
      | some ep =>
        have own : ¬ state.Foreign svc ep.address := by
          rw [foreign_chosen_iff answers chosen, not_not]
          exact keeps.endpoint other port ep answers chosen
        rw [backendRoute_of_chosen answers chosen] at misroutes
        split at misroutes
        · rename_i tunnel
          exact misroutes.elim (keeps.node other port ep answers chosen tunnel.1 tunnel.2) own
        · exact misroutes.elim own not_foreign_nil
      | none =>
        have none := chosen_eq_none_iff.mp chosen
        rw [backendRoute_eq, answers] at misroutes
        simp only [none, if_true] at misroutes
        split at misroutes
        · rename_i b ingress port' balancer
          split at misroutes
          · rename_i positive
            have same : (b, port') = (other, port) := by
              simpa [answerer, balancer, not_le.mpr positive] using answers
            cases same
            exact misroutes.elim (keeps.standIn _ _ _ balancer none positive) not_foreign_nil
          · exact misroutes.elim not_foreign_nil not_foreign_nil
        · exact misroutes.elim not_foreign_nil not_foreign_nil
  · intro kept
    unfold Misroutes at kept
    rw [not_or] at kept
    refine ⟨?_, ?_, ?_⟩
    · intro other port ep answers chosen
      rw [← not_not (a := _ ∨ _), ← foreign_chosen_iff answers chosen]
      rw [backendRoute_of_chosen answers chosen] at kept
      split at kept
      · exact kept.2
      · exact kept.1
    · intro other port ep answers chosen remote known
      rw [backendRoute_of_chosen answers chosen, if_pos ⟨remote, known⟩] at kept
      exact kept.1
    · intro other ingress port balancer none positive
      rw [backendRoute_of_standIn balancer none positive] at kept
      exact kept.1

/--
No destination of a Service leads to an endpoint that belongs to other Services only, exactly when
every one keeps to its Service: the Service port to which it leads is one of the Service or has
an endpoint that is, and neither the proxy on the endpoint's node nor the NodePort that stands in
for endpoints is itself an endpoint of other Services only.
-/
theorem ownership_iff {Raw : Type} {decoder : Decoder Raw} {raw : Str} {routes : RouteTable}
    {choices : List Bool} {tables : Tables} {snapshot : APISnapshot}
    (parsed : parseClusterState decoder raw = some snapshot.state)
    (processed : ((app.addServiceRules decoder raw .empty).exec machine choices tables).value =
      some (routes, true)) :
    (∀ svc ∈ snapshot.services, ∀ conn, Owns decoder raw svc conn →
        ¬ Misroutes routes snapshot.state svc.item conn) ↔
      ∀ svc ∈ snapshot.services, ∀ conn, Owns decoder raw svc conn →
        KeepsTo app snapshot.state svc.item conn := by
  rcases addServiceRules_value processed with ⟨state, parsed', rfl⟩
  obtain rfl := Option.some.inj (parsed'.symm.trans parsed)
  refine forall_congr' fun svc => forall_congr' fun _ => forall_congr' fun conn => ?_
  exact forall_congr' fun _ => keepsTo_iff.symm

end Ownership

def localSlice (name address : Str) (ports : List EndpointPort) : Item :=
  .endpointSlice ⟨str "default", [(str "kubernetes.io/service-name", name)], str "IPv4", ports,
    [⟨[address], str "n1", some true⟩]⟩

def nodePortService (name : Str) (nodePort : ℤ) : APIService where
  item := ⟨name, str "default", str "NodePort", [⟨80, nodePort, ⟨8080, [], true⟩⟩], []⟩
  ports := [⟨str "http", .tcp, ⟨80, nodePort, ⟨8080, [], true⟩⟩⟩]
  decodes := rfl
  distinct := by simp

def dnsService : APIService where
  item := ⟨str "dns", str "default", str "NodePort",
    [⟨53, 30080, ⟨53, [], true⟩⟩, ⟨53, 30081, ⟨53, [], true⟩⟩], []⟩
  ports := [⟨str "dns", .udp, ⟨53, 30080, ⟨53, [], true⟩⟩⟩,
    ⟨str "dns-tcp", .tcp, ⟨53, 30081, ⟨53, [], true⟩⟩⟩]
  decodes := rfl
  distinct := by decide

def idleService : APIService where
  item := ⟨str "idle", str "default", str "LoadBalancer", [⟨30080, 0, ⟨8080, [], true⟩⟩],
    [str "192.168.64.3"]⟩
  ports := [⟨str "http", .tcp, ⟨30080, 0, ⟨8080, [], true⟩⟩⟩]
  decodes := rfl
  distinct := by simp

def webPorts : List EndpointPort := [⟨some (str "http"), some 8080, some (str "TCP")⟩]

def dnsPorts : List EndpointPort :=
  [⟨some (str "dns"), some 53, some (str "UDP")⟩, ⟨some (str "dns-tcp"), some 53, some (str "TCP")⟩]

def firstNode : Item := .node ⟨str "n1", [(str "InternalIP", str "192.168.64.3")]⟩

def twoItems : List Item :=
  [.service (nodePortService (str "web") 30080).item, .service (nodePortService (str "api") 30090).item,
    localSlice (str "web") (str "10.244.1.5") webPorts, localSlice (str "api") (str "10.244.1.6") webPorts,
    firstNode]

/-- The UDP port of the second Service has the number of the first one's NodePort. -/
def sharedNumberItems : List Item :=
  [.service (nodePortService (str "web") 30080).item, .service dnsService.item,
    localSlice (str "web") (str "10.244.1.5") webPorts, localSlice (str "dns") (str "10.244.1.9") dnsPorts,
    firstNode]

/-- The port of the load balancer has the number of the other Service's NodePort. -/
def fallThroughItems : List Item :=
  [.service idleService.item, .service (nodePortService (str "web") 30080).item,
    localSlice (str "web") (str "10.244.1.5") webPorts, firstNode]

def stateOf (items : List Item) : ClusterState :=
  (parseClusterState (Decoder.ofItems items) (str "snapshot")).getD ⟨[], [], fun _ => NodeAddrs.empty⟩

variable {name : Str} {nodePort number : ℤ}

theorem ownsNodePort_nodePortService
    (owns : (nodePortService name nodePort).OwnsNodePort number) : nodePort = number := by
  rcases owns with ⟨_, port, isPort, _, number⟩
  obtain rfl := List.mem_singleton.mp isPort
  exact number

theorem unshared_pair {a b : APIService}
    (ingress : ∀ ip number, a.OwnsIngress ip number → ¬ b.OwnsIngress ip number)
    (nodePort : ∀ number, a.OwnsNodePort number → ¬ b.OwnsNodePort number) : Unshared [a, b] := by
  constructor
  · intro svc isService other isOther ip number owns ownsToo
    simp only [List.mem_cons, List.not_mem_nil, or_false] at isService isOther
    rcases isService with rfl | rfl <;> rcases isOther with rfl | rfl
    · exact ⟨rfl, rfl⟩
    · exact absurd ownsToo (ingress ip number owns)
    · exact absurd owns (ingress ip number ownsToo)
    · exact ⟨rfl, rfl⟩
  · intro svc isService other isOther number owns ownsToo
    simp only [List.mem_cons, List.not_mem_nil, or_false] at isService isOther
    rcases isService with rfl | rfl <;> rcases isOther with rfl | rfl
    · exact ⟨rfl, rfl⟩
    · exact absurd ownsToo (nodePort number owns)
    · exact absurd owns (nodePort number ownsToo)
    · exact ⟨rfl, rfl⟩

theorem not_ownsIngress_nodePortService {ip : Groups} :
    ¬ (nodePortService name nodePort).OwnsIngress ip number := by
  rintro ⟨balanced, _⟩
  have other : str "NodePort" ≠ str "LoadBalancer" := by decide
  exact other balanced

def twoSnapshot : APISnapshot where
  state := stateOf twoItems
  services := [nodePortService (str "web") 30080, nodePortService (str "api") 30090]
  decodes := rfl
  unshared := by
    refine unshared_pair (fun _ _ _ => not_ownsIngress_nodePortService) fun number web api => ?_
    have first := ownsNodePort_nodePortService web
    have second := ownsNodePort_nodePortService api
    omega

def sharedNumberSnapshot : APISnapshot where
  state := stateOf sharedNumberItems
  services := [nodePortService (str "web") 30080, dnsService]
  decodes := rfl
  unshared := by
    refine unshared_pair (fun _ _ owns => absurd owns not_ownsIngress_nodePortService) ?_
    rintro number web ⟨_, port, isPort, isTCP, same⟩
    obtain rfl := ownsNodePort_nodePortService web
    simp only [dnsService, List.mem_cons, List.not_mem_nil, or_false] at isPort
    rcases isPort with rfl | rfl
    · cases isTCP
    · cases same

def fallThroughSnapshot : APISnapshot where
  state := stateOf fallThroughItems
  services := [idleService, nodePortService (str "web") 30080]
  decodes := rfl
  unshared := by
    refine unshared_pair (fun _ _ _ => not_ownsIngress_nodePortService) ?_
    rintro number ⟨positive, port, isPort, _, same⟩
    obtain rfl := List.mem_singleton.mp isPort
    have zero : (0 : ℤ) = number := same
    omega

/-- Two Services with different NodePorts keep their destinations. -/
theorem ownership_twoServices :
    parseClusterState (Decoder.ofItems twoItems) (str "snapshot") = some twoSnapshot.state ∧
      ∀ svc ∈ twoSnapshot.services, ∀ conn,
        Owns (Decoder.ofItems twoItems) (str "snapshot") svc conn →
          ¬ Misroutes ((proxyOn (str "n1")).routes twoSnapshot.state) twoSnapshot.state svc.item
            conn := by
  have parsed : parseClusterState (Decoder.ofItems twoItems) (str "snapshot") =
      some twoSnapshot.state := rfl
  have processed : (((proxyOn (str "n1")).addServiceRules (Decoder.ofItems twoItems) (str "snapshot")
      .empty).exec machine [] fun _ _ => none).value =
        some ((proxyOn (str "n1")).routes twoSnapshot.state, true) := rfl
  refine ⟨parsed, (ownership_iff parsed processed).mpr ?_⟩
  have unbalanced : ∀ conn, recordedBalancer (proxyOn (str "n1")) twoSnapshot.state conn = none := by
    intro conn
    have none : twoSnapshot.state.balancer conn = none := rfl
    simp [recordedBalancer, none]
  have families : ∀ conn : Packet, conn.v6 ∈ (proxyOn (str "n1")).families → conn.v6 = false :=
    fun conn mem => List.mem_singleton.mp mem
  have single : ∀ svc port address, ∀ conn : Packet,
      answerer (proxyOn (str "n1")) twoSnapshot.state conn =
        (if conn.v6 ∈ (proxyOn (str "n1")).families then some (svc, port) else none) →
      twoSnapshot.state.chosen (str "n1") svc port false = some ⟨address, str "n1"⟩ →
        KeepsTo (proxyOn (str "n1")) twoSnapshot.state svc conn := by
    intro svc port address conn answers chosen
    refine ⟨?_, ?_, ?_⟩
    · intro other port' ep answers' _
      rw [answers, Option.ite_none_right_eq_some] at answers'
      cases answers'.2
      exact Or.inl ⟨rfl, rfl⟩
    · intro other port' ep answers' chosen' remote
      rw [answers, Option.ite_none_right_eq_some] at answers'
      cases answers'.2
      rw [families conn answers'.1] at chosen'
      cases chosen.symm.trans chosen'
      cases remote
    · intro other ingress port' balancer
      rw [unbalanced] at balancer
      cases balancer
  have answers : ∀ conn : Packet, answerer (proxyOn (str "n1")) twoSnapshot.state conn =
      if conn.v6 ∈ (proxyOn (str "n1")).families then
        (([((nodePortService (str "web") 30080).item, ⟨80, 30080, ⟨8080, [], true⟩⟩),
          ((nodePortService (str "api") 30090).item, ⟨80, 30090, ⟨8080, [], true⟩⟩)] :
            List (ServiceItem × ServicePort)).filter (hasNodePort conn)).getLast?
      else none := by
    intro conn
    rw [answerer, unbalanced]
    rfl
  intro svc isService conn owns
  simp only [twoSnapshot, List.mem_cons, List.not_mem_nil, or_false] at isService
  rcases isService with rfl | rfl
  · rcases owns with ingress | ⟨_, nodePort⟩
    · exact absurd ingress not_ownsIngress_nodePortService
    · have number := ownsNodePort_nodePortService nodePort
      refine single _ ⟨80, 30080, ⟨8080, [], true⟩⟩ (str "10.244.1.5:8080") conn ?_ rfl
      rw [answers]
      simp [hasNodePort, ← number]
  · rcases owns with ingress | ⟨_, nodePort⟩
    · exact absurd ingress not_ownsIngress_nodePortService
    · have number := ownsNodePort_nodePortService nodePort
      refine single _ ⟨80, 30090, ⟨8080, [], true⟩⟩ (str "10.244.1.6:8080") conn ?_ rfl
      rw [answers]
      simp [hasNodePort, ← number]

def nodePortPacket : Packet := ⟨nodeAddress, 30080, by decide⟩

theorem isNodeAddress_firstNode {items : List Item} (mem : firstNode ∈ items) :
    IsNodeAddress (Decoder.ofItems items) (str "snapshot") nodeAddress :=
  ⟨items, rfl, firstNode, mem, rfl, _, rfl, (str "InternalIP", str "192.168.64.3"),
    List.mem_singleton_self _, by decide⟩

/--
The NodePort of a Service leads to the endpoint of another one that has a UDP port with the same
NodePort, although it is behind that Service's TCP port. The load balancer address of a Service
without endpoints and NodePort leads to the endpoint of another one that has its port as a NodePort.
-/
theorem other_service_answers :
    (Owns (Decoder.ofItems sharedNumberItems) (str "snapshot") (nodePortService (str "web") 30080)
        nodePortPacket ∧
      nodePortService (str "web") 30080 ∈ sharedNumberSnapshot.services ∧
      (((proxyOn (str "n1")).addServiceRules (Decoder.ofItems sharedNumberItems) (str "snapshot")
        .empty).exec machine [] fun _ _ => none).value =
          some ((proxyOn (str "n1")).routes sharedNumberSnapshot.state, true) ∧
      backendRoute ((proxyOn (str "n1")).routes sharedNumberSnapshot.state) nodePortPacket.dst =
        ⟨str "10.244.1.9:53", []⟩ ∧
      Misroutes ((proxyOn (str "n1")).routes sharedNumberSnapshot.state) sharedNumberSnapshot.state
        (nodePortService (str "web") 30080).item nodePortPacket) ∧
    Owns (Decoder.ofItems fallThroughItems) (str "snapshot") idleService nodePortPacket ∧
      idleService ∈ fallThroughSnapshot.services ∧
      (((proxyOn (str "n1")).addServiceRules (Decoder.ofItems fallThroughItems) (str "snapshot")
        .empty).exec machine [true, true] fun _ _ => some ⟨[], 0⟩).value =
          some ((proxyOn (str "n1")).routes fallThroughSnapshot.state, true) ∧
      backendRoute ((proxyOn (str "n1")).routes fallThroughSnapshot.state) nodePortPacket.dst =
        ⟨str "10.244.1.5:8080", []⟩ ∧
      Misroutes ((proxyOn (str "n1")).routes fallThroughSnapshot.state) fallThroughSnapshot.state
        idleService.item nodePortPacket := by
  have foreignDns : sharedNumberSnapshot.state.Foreign (nodePortService (str "web") 30080).item
      (str "10.244.1.9:53") :=
    ⟨⟨dnsService.item, List.mem_of_getLast? rfl, by decide,
      by decide⟩, by decide⟩
  have foreignWeb : fallThroughSnapshot.state.Foreign idleService.item (str "10.244.1.5:8080") :=
    ⟨⟨(nodePortService (str "web") 30080).item,
      List.mem_of_getLast? rfl, by decide, by decide⟩, by decide⟩
  have dnsRoute : backendRoute ((proxyOn (str "n1")).routes sharedNumberSnapshot.state)
      nodePortPacket.dst = ⟨str "10.244.1.9:53", []⟩ := by decide
  have webRoute : backendRoute ((proxyOn (str "n1")).routes fallThroughSnapshot.state)
      nodePortPacket.dst = ⟨str "10.244.1.5:8080", []⟩ := by decide
  refine ⟨⟨Or.inr ⟨isNodeAddress_firstNode (by simp [sharedNumberItems]), by decide, _,
      List.mem_singleton_self _, rfl, rfl⟩, List.mem_cons_self, rfl, dnsRoute, Or.inl ?_⟩,
    Or.inl ⟨rfl, ⟨str "192.168.64.3", List.mem_singleton_self _, by decide⟩, _,
      List.mem_singleton_self _, rfl, rfl⟩, List.mem_cons_self, rfl, webRoute, Or.inl ?_⟩
  · rw [dnsRoute]
    exact foreignDns
  · rw [webRoute]
    exact foreignWeb

end Kiac.EdgeProxy
