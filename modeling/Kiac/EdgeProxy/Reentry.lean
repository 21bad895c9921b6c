import Kiac.EdgeProxy.Redirect

/-!
# Connections that come back

The proxy dials its backends from the node whose chains redirect connections to it, so a backend
address that `KIAC-EDGE-OUTPUT` redirects sends the connection back to the proxy. The chain exempts
the proxy's own port, which makes tunnels safe. The other addresses that the proxy may dial can be
load balancer addresses themselves, and this file says exactly when that happens.
-/

namespace Kiac.EdgeProxy

open Net

def NeverReenters (app : App) (isLocal : IP → Bool) (tables : Tables) (routes : RouteTable) : Prop :=
  ∀ conn, Enters app isLocal tables conn → ∀ sent dial next,
    handleConn app routes conn.dst sent = some dial → resolve dial.address = some next →
      redirected isLocal (app.chain tables next.v6 .output) next = false

variable (state : ClusterState)

def ClusterState.balancedPorts : List (ServiceItem × Str × ServicePort) :=
  (state.services.filter fun svc => svc.type == str "LoadBalancer").flatMap fun svc =>
    svc.ingress.flatMap fun ingress => svc.ports.map fun port => (svc, ingress, port)

/-- Whether a load balancer port is one for a destination: its address is written as the
destination is. -/
def ofDestination (packet : Packet) : ServiceItem × Str × ServicePort → Bool :=
  fun (_, ingress, port) =>
    decide (0 < port.port) && ingress == packet.ip.format && port.port == packet.port

def ClusterState.balancer (packet : Packet) :
    Option (ServiceItem × Str × ServicePort) :=
  (state.balancedPorts.filter (ofDestination packet)).getLast?

def ClusterState.servicePorts : List (ServiceItem × ServicePort) :=
  state.services.flatMap fun svc => svc.ports.map fun port => (svc, port)

def hasNodePort (packet : Packet) : ServiceItem × ServicePort → Bool :=
  fun (_, port) => decide (0 < port.nodePort) && port.nodePort == packet.port

/-- The Service port whose NodePort is the port of a destination: the last one in the
snapshot. -/
def ClusterState.nodePortOwner (packet : Packet) :
    Option (ServiceItem × ServicePort) :=
  (state.servicePorts.filter (hasNodePort packet)).getLast?

/-- No load balancer port is there for a destination, or only one without endpoints and
NodePort. -/
def Unbalanced (conn : Packet) : Prop :=
  ∀ svc ingress port, state.balancer conn = some (svc, ingress, port) →
    state.matchingEndpoints svc port conn.v6 = [] ∧ port.nodePort ≤ 0

def Answers (conn : Packet) (svc : ServiceItem) (port : ServicePort) : Prop :=
  state.matchingEndpoints svc port conn.v6 ≠ [] ∧
    ((∃ ingress, state.balancer conn = some (svc, ingress, port)) ∨
      Unbalanced state conn ∧ state.nodePortOwner conn = some (svc, port))

def Unanswered (conn : Packet) : Prop :=
  Unbalanced state conn ∧ ∀ svc port, state.nodePortOwner conn = some (svc, port) →
    state.matchingEndpoints svc port conn.v6 = []

/-- The endpoint that is dialled without a tunnel: the first one that is on this node or on
no node, or the first one when there is no such endpoint and no node address is known. -/
def DirectEndpoint (app : App) (state : ClusterState) (svc : ServiceItem) (port : ServicePort)
    (v6 : Bool) (ep : EndpointTarget) : Prop :=
  (state.matchingEndpoints svc port v6).find? (EndpointTarget.direct app.nodeName) = some ep ∨
    (∀ other ∈ state.matchingEndpoints svc port v6, other.direct app.nodeName = false ∧
      (state.nodeIPs other.nodeName).forFamily v6 = []) ∧
    (state.matchingEndpoints svc port v6).head? = some ep

inductive Loops (app : App) (state : ClusterState) (conn : Packet) : Prop
  /-- An endpoint that is dialled directly is a load balancer address. -/
  | endpoint {svc : ServiceItem} {port : ServicePort} {ep : EndpointTarget} {next : Packet}
      (answers : Answers state conn svc port)
      (direct : DirectEndpoint app state svc port conn.v6 ep)
      (resolves : resolve ep.address = some next) (intercepted : Intercepted app state next)
  /-- There is no endpoint, and the NodePort on the address is a load balancer address. -/
  | nodePort {svc : ServiceItem} {ingress : Str} {port : ServicePort} {next : Packet}
      (balancer : state.balancer conn = some (svc, ingress, port))
      (noEndpoint : state.matchingEndpoints svc port conn.v6 = []) (sameIP : next.ip = conn.ip)
      (isNodePort : port.nodePort = next.port) (intercepted : Intercepted app state next)
  /-- There is no endpoint and no NodePort, and the destination is a load balancer address. -/
  | itself (unanswered : Unanswered state conn) (intercepted : Intercepted app state conn)

section Lookups

variable {app : App} {state : ClusterState} {conn : Packet}

theorem key_eq_dst_iff {ingress : Str} {port : ServicePort} {ip : Groups}
    (parsed : parseIP ingress = some ip) :
    joinHostPort ingress (Str.itoa port.port) = conn.dst ↔
      ingress = conn.ip.format ∧ port.port = conn.port := by
  constructor
  · intro same
    exact joinHostPort_inj (isHost_of_parseIP parsed) (isHost_format conn.ip) same
  · rintro ⟨rfl, number⟩
    rw [number]
    rfl

theorem filterMap_ingressPortSteps (notProxy : conn.port ≠ app.port) (svc : ServiceItem)
    {ingress : Str} {ip : Groups} (parsed : parseIP ingress = some ip) (v6 : Bool)
    (port : ServicePort) :
    (app.ingressPortSteps state svc ingress v6 port).filterMap
        (RuleStep.loadBalancerAt conn.dst) =
      if ofDestination conn (svc, ingress, port) then
        [app.loadBalancerRoute state svc ingress v6 port] else [] := by
  have key : joinHostPort ingress (Str.itoa port.port) = conn.dst ↔
      ingress = conn.ip.format ∧ port.port = conn.port := key_eq_dst_iff parsed
  unfold App.ingressPortSteps
  split
  · rename_i skipped
    have other : ofDestination conn (svc, ingress, port) = false := by
      simp only [ofDestination, Bool.and_eq_false_iff, decide_eq_false_iff_not, beq_eq_false_iff_ne]
      rcases skipped with negative | proxy
      · exact Or.inl (Or.inl (by omega))
      · right
        intro same
        rw [same] at proxy
        exact notProxy (Int.ofNat.inj (Str.itoa_injective proxy))
    simp [other]
  · rename_i taken
    simp only [not_or, not_le] at taken
    by_cases here : joinHostPort ingress (Str.itoa port.port) = conn.dst
    · have isOne : ofDestination conn (svc, ingress, port) = true := by
        rcases key.mp here with ⟨written, number⟩
        simp only [ofDestination, Bool.and_eq_true, decide_eq_true_eq, beq_iff_eq]
        exact ⟨⟨taken.1, written⟩, number⟩
      simp [List.filterMap_cons, RuleStep.loadBalancerAt, here, isOne]
    · have other : ofDestination conn (svc, ingress, port) = false := by
        rw [Bool.eq_false_iff]
        intro isOne
        simp only [ofDestination, Bool.and_eq_true, beq_iff_eq] at isOne
        exact here (key.mpr ⟨isOne.1.2, isOne.2⟩)
      simp [List.filterMap_cons, RuleStep.loadBalancerAt, here, other]

theorem filterMap_ingressSteps (isFamily : conn.v6 ∈ app.families) (notProxy : conn.port ≠ app.port)
    (svc : ServiceItem) (ingress : Str) :
    (app.ingressSteps state svc ingress).filterMap (RuleStep.loadBalancerAt conn.dst) =
      ((svc.ports.map fun port => (svc, ingress, port)).filter (ofDestination conn)).map
        fun (svc, ingress, port) => app.loadBalancerRoute state svc ingress conn.v6 port := by
  by_cases written : ingress = conn.ip.format
  · have parsed : parseIP ingress = some conn.ip.groups := by rw [written, parseIP_format]
    have programmed : ¬ ((!isV4 conn.ip.groups) && !app.hasIPv6) := by
      intro unprogrammed
      rw [Bool.and_eq_true] at unprogrammed
      have has := mem_families.mp isFamily unprogrammed.1
      simp [has] at unprogrammed
    simp only [App.ingressSteps, parsed, if_neg programmed, List.filterMap_flatMap]
    induction svc.ports with
    | nil => rfl
    | cons port ports ih =>
      rw [List.flatMap_cons, ih, filterMap_ingressPortSteps notProxy svc parsed, List.map_cons,
        List.filter_cons]
      split <;> rfl
  · have none : ∀ step ∈ app.ingressSteps state svc ingress,
        RuleStep.loadBalancerAt conn.dst step = none := by
      intro step mem
      rcases mem_ingressSteps.mp mem with ⟨ip, parsed, _, port, _, inPort⟩
      rcases (mem_ingressPortSteps.mp inPort).2 with rfl | rfl | rfl
      · rfl
      · rfl
      · exact if_neg fun same => written ((key_eq_dst_iff parsed).mp same).1
    rw [List.filterMap_eq_nil_iff.mpr none, List.filter_eq_nil_iff.mpr, List.map_nil]
    intro entry mem
    rcases List.mem_map.mp mem with ⟨port, _, rfl⟩
    simp [ofDestination, written]

theorem filterMap_loadBalancerAt (isFamily : conn.v6 ∈ app.families)
    (notProxy : conn.port ≠ app.port) :
    (app.steps state).filterMap (RuleStep.loadBalancerAt conn.dst) =
      (state.balancedPorts.filter (ofDestination conn)).map
        fun (svc, ingress, port) => app.loadBalancerRoute state svc ingress conn.v6 port := by
  have ports : ∀ svc : ServiceItem, (svc.ports.flatMap (app.portSteps state svc)).filterMap
      (RuleStep.loadBalancerAt conn.dst) = [] := by
    intro svc
    rw [List.filterMap_eq_nil_iff]
    intro step mem
    rcases List.mem_flatMap.mp mem with ⟨port, _, inPort⟩
    rcases mem_portSteps.mp inPort with ⟨_, _, allowed⟩ | ⟨_, _, _, rfl⟩
    · rcases List.mem_map.mp allowed with ⟨ep, _, rfl⟩
      rfl
    · rfl
  unfold App.steps ClusterState.balancedPorts
  induction state.services with
  | nil => rfl
  | cons svc services ih =>
    rw [List.flatMap_cons, List.filterMap_append, ih]
    by_cases balanced : svc.type = str "LoadBalancer"
    · simp only [App.serviceSteps, balanced, ne_eq, not_true_eq_false, if_false,
        List.filterMap_append, ports, List.nil_append, List.filterMap_flatMap,
        filterMap_ingressSteps isFamily notProxy, beq_self_eq_true, List.filter_cons_of_pos,
        List.flatMap_cons, List.filter_append, List.filter_flatMap, List.map_append,
        List.map_flatMap]
    · simp [App.serviceSteps, balanced, ports, beq_eq_false_iff_ne.mpr balanced]

theorem loadBalancers_routes (isFamily : conn.v6 ∈ app.families) (notProxy : conn.port ≠ app.port) :
    (app.routes state).loadBalancers conn.dst =
      match state.balancer conn with
      | some (svc, ingress, port) => app.loadBalancerRoute state svc ingress conn.v6 port
      | none => ⟨[], []⟩ := by
  rw [App.routes, loadBalancers_foldl, filterMap_loadBalancerAt isFamily notProxy,
    List.getLast?_map]
  unfold ClusterState.balancer
  cases (state.balancedPorts.filter (ofDestination conn)).getLast? <;> rfl

theorem filterMap_portSteps (isFamily : conn.v6 ∈ app.families) (svc : ServiceItem)
    (port : ServicePort) :
    (app.portSteps state svc port).filterMap (RuleStep.nodePortAt (conn.port, conn.v6)) =
      if hasNodePort conn (svc, port) then
        [state.routeFor app.nodeName app.proxyPort svc port conn.v6] else [] := by
  have allowed : (app.families.flatMap fun v6 =>
      app.allowLocalTargets (state.matchingEndpoints svc port v6)).filterMap
        (RuleStep.nodePortAt (conn.port, conn.v6)) = [] := by
    rw [List.filterMap_eq_nil_iff]
    intro step mem
    rcases List.mem_flatMap.mp mem with ⟨v6, _, inFamily⟩
    rcases List.mem_map.mp inFamily with ⟨ep, _, rfl⟩
    rfl
  rw [App.portSteps, List.filterMap_append, allowed, List.nil_append]
  rw [mem_families] at isFamily
  unfold App.families hasNodePort
  by_cases positive : 0 < port.nodePort
  · by_cases number : port.nodePort = conn.port
    · cases ofConn : conn.v6 <;> cases has : app.hasIPv6 <;>
        simp_all [RuleStep.nodePortAt]
    · cases app.hasIPv6 <;> simp [positive, number, RuleStep.nodePortAt]
  · simp [positive]

theorem filterMap_nodePortAt (isFamily : conn.v6 ∈ app.families) :
    (app.steps state).filterMap (RuleStep.nodePortAt (conn.port, conn.v6)) =
      (state.servicePorts.filter (hasNodePort conn)).map
        fun (svc, port) => state.routeFor app.nodeName app.proxyPort svc port conn.v6 := by
  have ofIngress : ∀ svc : ServiceItem, (if svc.type ≠ str "LoadBalancer" then []
      else svc.ingress.flatMap (app.ingressSteps state svc)).filterMap
        (RuleStep.nodePortAt (conn.port, conn.v6)) = [] := by
    intro svc
    split
    · rfl
    · rw [List.filterMap_eq_nil_iff]
      intro step mem
      rcases List.mem_flatMap.mp mem with ⟨ingress, _, inIngress⟩
      rcases mem_ingressSteps.mp inIngress with ⟨ip, _, _, port, _, inPort⟩
      rcases (mem_ingressPortSteps.mp inPort).2 with rfl | rfl | rfl <;> rfl
  have ofPorts : ∀ (svc : ServiceItem) (ports : List ServicePort),
      (ports.flatMap (app.portSteps state svc)).filterMap
          (RuleStep.nodePortAt (conn.port, conn.v6)) =
        ((ports.map fun port => (svc, port)).filter (hasNodePort conn)).map
          fun (svc, port) => state.routeFor app.nodeName app.proxyPort svc port conn.v6 := by
    intro svc ports
    induction ports with
    | nil => rfl
    | cons port ports ih =>
      rw [List.flatMap_cons, List.filterMap_append, ih, filterMap_portSteps isFamily,
        List.map_cons, List.filter_cons]
      split <;> rfl
  unfold App.steps ClusterState.servicePorts
  induction state.services with
  | nil => rfl
  | cons svc services ih =>
    rw [List.flatMap_cons, List.filterMap_append, ih, App.serviceSteps, List.filterMap_append,
      ofIngress, List.append_nil, ofPorts, List.flatMap_cons, List.filter_append, List.map_append]

theorem nodePorts_routes (isFamily : conn.v6 ∈ app.families) :
    (app.routes state).nodePorts (conn.port, conn.v6) =
      match state.nodePortOwner conn with
      | some (svc, port) => state.routeFor app.nodeName app.proxyPort svc port conn.v6
      | none => ⟨[], []⟩ := by
  rw [App.routes, nodePorts_foldl, filterMap_nodePortAt isFamily, List.getLast?_map]
  unfold ClusterState.nodePortOwner
  cases (state.servicePorts.filter (hasNodePort conn)).getLast? <;> rfl

theorem backendRoute_dst (routes : RouteTable) :
    backendRoute routes conn.dst =
      if (routes.loadBalancers conn.dst).dial ≠ [] then routes.loadBalancers conn.dst
      else routes.nodePorts (conn.port, conn.v6) := by
  have split : splitHostPort conn.dst = some (conn.ip.format, Str.itoa conn.port) :=
    (isHost_format conn.ip).splitHostPort_joinHostPort conn.port
  have family : isV6Host conn.ip.format = conn.v6 := by
    simp [isV6Host, parseIP_format, Packet.v6]
  simp [backendRoute, split, atoi_port conn.port_lt, family]

end Lookups

section Dialled

variable {app : App} {state : ClusterState} {conn : Packet}

theorem routeFor_cases (app : App) (state : ClusterState) (svc : ServiceItem) (port : ServicePort)
    (v6 : Bool) :
    (state.matchingEndpoints svc port v6 = [] ∧
        state.routeFor app.nodeName app.proxyPort svc port v6 = ⟨[], []⟩) ∨
      (∃ ep ∈ state.matchingEndpoints svc port v6, DirectEndpoint app state svc port v6 ep ∧
        state.routeFor app.nodeName app.proxyPort svc port v6 = ⟨ep.address, []⟩) ∨
      ∃ ep ∈ state.matchingEndpoints svc port v6,
        (∀ other, ¬ DirectEndpoint app state svc port v6 other) ∧
        (state.nodeIPs ep.nodeName).forFamily v6 ≠ [] ∧
        state.routeFor app.nodeName app.proxyPort svc port v6 =
          ⟨joinHostPort ((state.nodeIPs ep.nodeName).forFamily v6) app.proxyPort, ep.address⟩ := by
  rcases routeFor_spec state app.nodeName app.proxyPort svc port v6 with ⟨ep, found, route⟩ |
    ⟨noDirect, ep, mem, known, route⟩ | ⟨unknown, route⟩
  · exact Or.inr (Or.inl ⟨ep, List.mem_of_find?_eq_some found, Or.inl found, route⟩)
  · refine Or.inr (Or.inr ⟨ep, mem, ?_, known, route⟩)
    rintro other (found | ⟨unknown, _⟩)
    · have direct := List.find?_some found
      rw [noDirect other (List.mem_of_find?_eq_some found)] at direct
      cases direct
    · exact known (unknown ep mem).2
  · unfold DirectEndpoint
    cases endpoints : state.matchingEndpoints svc port v6 with
    | nil =>
      rw [endpoints] at route
      exact Or.inl ⟨rfl, route⟩
    | cons ep rest =>
      rw [endpoints] at route unknown
      exact Or.inr (Or.inl ⟨ep, List.mem_cons_self, Or.inr ⟨unknown, rfl⟩, route⟩)

variable {svc : ServiceItem} {port : ServicePort} {v6 : Bool} {ingress : Str}

theorem routeFor_dial_eq_nil :
    (state.routeFor app.nodeName app.proxyPort svc port v6).dial = [] ↔
      state.matchingEndpoints svc port v6 = [] := by
  rcases routeFor_cases app state svc port v6 with ⟨none, route⟩ | ⟨ep, mem, _, route⟩ |
    ⟨ep, mem, _, _, route⟩
  · simp [none, route]
  · rw [route]
    exact iff_of_false (address_ne_nil mem) (List.ne_nil_of_mem mem)
  · rw [route]
    exact iff_of_false (joinHostPort_ne_nil _ _) (List.ne_nil_of_mem mem)

theorem routeFor_of_direct
    {ep : EndpointTarget} (direct : DirectEndpoint app state svc port v6 ep) :
    (state.routeFor app.nodeName app.proxyPort svc port v6).dial = ep.address := by
  unfold ClusterState.routeFor
  rcases direct with found | ⟨others, first⟩
  · simp [found]
  · have noDirect : (state.matchingEndpoints svc port v6).find?
        (EndpointTarget.direct app.nodeName) = none :=
      List.find?_eq_none.mpr fun other mem => by simp [(others other mem).1]
    have noRemote : ((state.matchingEndpoints svc port v6).find? fun ep =>
        (state.nodeIPs ep.nodeName).forFamily v6 != []) = none :=
      List.find?_eq_none.mpr fun other mem => by simp [(others other mem).2]
    simp [noDirect, noRemote, first]

theorem loadBalancerRoute_of_endpoints (endpoints : state.matchingEndpoints svc port v6 ≠ []) :
    app.loadBalancerRoute state svc ingress v6 port =
      state.routeFor app.nodeName app.proxyPort svc port v6 := by
  simp [App.loadBalancerRoute, routeFor_dial_eq_nil, endpoints]

theorem loadBalancerRoute_dial_eq_nil :
    (app.loadBalancerRoute state svc ingress v6 port).dial = [] ↔
      state.matchingEndpoints svc port v6 = [] ∧ port.nodePort ≤ 0 := by
  simp only [App.loadBalancerRoute, routeFor_dial_eq_nil]
  split
  · rename_i fallback
    exact iff_of_false (joinHostPort_ne_nil _ _) fun none => by omega
  · rename_i own
    rw [routeFor_dial_eq_nil]
    constructor
    · intro none
      exact ⟨none, not_lt.mp fun positive => own ⟨none, positive⟩⟩
    · exact And.left

variable (isFamily : conn.v6 ∈ app.families) (notProxy : conn.port ≠ app.port)

include isFamily notProxy

theorem loadBalancers_dial_eq_nil :
    ((app.routes state).loadBalancers conn.dst).dial = [] ↔ Unbalanced state conn := by
  rw [loadBalancers_routes isFamily notProxy]
  unfold Unbalanced
  cases state.balancer conn with
  | none => simp
  | some entry =>
    rcases entry with ⟨svc, ingress, port⟩
    simp only [loadBalancerRoute_dial_eq_nil, Option.some.injEq, Prod.mk.injEq]
    constructor
    · rintro none _ _ _ ⟨rfl, rfl, rfl⟩
      exact none
    · intro all
      exact all _ _ _ ⟨rfl, rfl, rfl⟩

theorem backendRoute_of_answers (answers : Answers state conn svc port) :
    backendRoute (app.routes state) conn.dst =
      state.routeFor app.nodeName app.proxyPort svc port conn.v6 := by
  rcases answers with ⟨endpoints, ⟨ingress, balancer⟩ | ⟨unbalanced, owner⟩⟩
  · have served : ((app.routes state).loadBalancers conn.dst).dial ≠ [] := by
      rw [ne_eq, loadBalancers_dial_eq_nil isFamily notProxy]
      exact fun unbalanced => endpoints (unbalanced _ _ _ balancer).1
    rw [backendRoute_dst, if_pos served, loadBalancers_routes isFamily notProxy, balancer]
    exact loadBalancerRoute_of_endpoints endpoints
  · rw [backendRoute_dst, if_neg (not_not.mpr
      ((loadBalancers_dial_eq_nil isFamily notProxy).mpr unbalanced)), nodePorts_routes isFamily,
      owner]

theorem backendRoute_of_nodePort (balancer : state.balancer conn = some (svc, ingress, port))
    (noEndpoint : state.matchingEndpoints svc port conn.v6 = []) (positive : 0 < port.nodePort) :
    (backendRoute (app.routes state) conn.dst).dial =
      joinHostPort conn.ip.format (Str.itoa port.nodePort) := by
  have written : ingress = conn.ip.format := by
    have mem := List.mem_of_getLast? balancer
    have isOne := (List.mem_filter.mp mem).2
    simp only [ofDestination, Bool.and_eq_true, beq_iff_eq] at isOne
    exact isOne.1.2
  have served : ((app.routes state).loadBalancers conn.dst).dial ≠ [] := by
    rw [ne_eq, loadBalancers_dial_eq_nil isFamily notProxy]
    intro unbalanced
    have := (unbalanced _ _ _ balancer).2
    omega
  rw [backendRoute_dst, if_pos served, loadBalancers_routes isFamily notProxy, balancer]
  simp [App.loadBalancerRoute, routeFor_dial_eq_nil, noEndpoint, positive, written]

theorem backendRoute_of_unanswered (unanswered : Unanswered state conn) :
    (backendRoute (app.routes state) conn.dst).dial = [] := by
  rw [backendRoute_dst, if_neg (not_not.mpr
    ((loadBalancers_dial_eq_nil isFamily notProxy).mpr unanswered.1)), nodePorts_routes isFamily]
  cases owner : state.nodePortOwner conn with
  | none => rfl
  | some entry => exact routeFor_dial_eq_nil.mpr (unanswered.2 _ _ owner)

omit isFamily notProxy in
theorem answers_or (state : ClusterState) (conn : Packet) :
    (∃ svc port, Answers state conn svc port) ∨
      (∃ svc ingress port, state.balancer conn = some (svc, ingress, port) ∧
        state.matchingEndpoints svc port conn.v6 = [] ∧ 0 < port.nodePort) ∨
      Unanswered state conn := by
  by_cases unbalanced : Unbalanced state conn
  · by_cases owned : ∃ svc port, state.nodePortOwner conn = some (svc, port) ∧
        state.matchingEndpoints svc port conn.v6 ≠ []
    · rcases owned with ⟨svc, port, owner, endpoints⟩
      exact Or.inl ⟨svc, port, endpoints, Or.inr ⟨unbalanced, owner⟩⟩
    · refine Or.inr (Or.inr ⟨unbalanced, fun svc port owner => ?_⟩)
      exact by_contra fun endpoints => owned ⟨svc, port, owner, endpoints⟩
  · unfold Unbalanced at unbalanced
    push Not at unbalanced
    rcases unbalanced with ⟨svc, ingress, port, balancer, other⟩
    by_cases endpoints : state.matchingEndpoints svc port conn.v6 = []
    · exact Or.inr (Or.inl ⟨svc, ingress, port, balancer, endpoints, other endpoints⟩)
    · exact Or.inl ⟨svc, port, endpoints, Or.inl ⟨ingress, balancer⟩⟩

end Dialled

section Reentry

variable {app : App} {state : ClusterState} {conn : Packet}

def dialled (routes : RouteTable) (conn : Packet) : Str :=
  if (backendRoute routes conn.dst).dial = [] then conn.dst else (backendRoute routes conn.dst).dial

theorem handleConn_dst (routes : RouteTable) (notProxy : conn.port ≠ app.port) (sent : Str) :
    ∃ header, handleConn app routes conn.dst sent = some ⟨dialled routes conn, header⟩ := by
  have split : splitHostPort conn.dst = some (conn.ip.format, Str.itoa conn.port) :=
    (isHost_format conn.ip).splitHostPort_joinHostPort conn.port
  have other : isProxyPort conn.dst app.proxyPort = false := by
    simp only [isProxyPort, split, beq_eq_false_iff_ne]
    exact fun same => notProxy (Int.ofNat.inj (Str.itoa_injective same))
  simp only [handleConn, other, Bool.false_eq_true, if_false]
  exact ⟨_, rfl⟩

theorem not_intercepted_tunnel {address : Str} {next : Packet} (isHost : IsHost address)
    (resolves : resolve (joinHostPort address app.proxyPort) = some next) :
    ¬ Intercepted app state next := by
  intro intercepted
  exact intercepted.2.1 (of_resolve_joinHostPort isHost resolves).2

theorem loops_iff (isFamily : conn.v6 ∈ app.families) (notProxy : conn.port ≠ app.port) :
    Loops app state conn ↔ ∃ next, resolve (dialled (app.routes state) conn) = some next ∧
      Intercepted app state next := by
  unfold dialled
  constructor
  · rintro (⟨answers, direct, resolves, intercepted⟩ |
      ⟨balancer, noEndpoint, sameIP, isNodePort, intercepted⟩ | ⟨unanswered, intercepted⟩)
    · have dial := routeFor_of_direct direct
      rw [backendRoute_of_answers isFamily notProxy answers,
        if_neg (mt routeFor_dial_eq_nil.mp answers.1), dial]
      exact ⟨_, resolves, intercepted⟩
    · rename_i svc ingress port next
      have positive : 0 < port.nodePort := by
        have := intercepted.2.2.1
        omega
      rw [backendRoute_of_nodePort isFamily notProxy balancer noEndpoint positive,
        if_neg (joinHostPort_ne_nil _ _), isNodePort, ← sameIP]
      exact ⟨next, resolve_dst next, intercepted⟩
    · rw [if_pos (backendRoute_of_unanswered isFamily notProxy unanswered)]
      exact ⟨conn, resolve_dst conn, intercepted⟩
  · rintro ⟨next, resolves, intercepted⟩
    rcases answers_or state conn with ⟨svc, port, answers⟩ |
      ⟨svc, ingress, port, balancer, noEndpoint, positive⟩ | unanswered
    · rw [backendRoute_of_answers isFamily notProxy answers,
        if_neg (mt routeFor_dial_eq_nil.mp answers.1)] at resolves
      rcases routeFor_cases app state svc port conn.v6 with ⟨none, _⟩ | ⟨ep, _, direct, route⟩ |
        ⟨ep, _, _, known, route⟩
      · exact absurd none answers.1
      · rw [route] at resolves
        exact .endpoint answers direct resolves intercepted
      · rw [route] at resolves
        rcases NodeAddrs.forFamily_parses known with ⟨ip, parsed, _⟩
        exact absurd intercepted (not_intercepted_tunnel (isHost_of_parseIP parsed) resolves)
    · rw [backendRoute_of_nodePort isFamily notProxy balancer noEndpoint positive,
        if_neg (joinHostPort_ne_nil _ _)] at resolves
      obtain ⟨number, isNumber⟩ := Int.eq_ofNat_of_zero_le positive.le
      rw [isNumber] at resolves
      rcases of_resolve_joinHostPort (isHost_format conn.ip) resolves with ⟨parsed, samePort⟩
      have sameIP : next.ip = conn.ip := by
        rw [parseIP_format] at parsed
        exact IP.ext (Option.some.inj parsed).symm
      exact .nodePort balancer noEndpoint sameIP (by rw [isNumber, samePort]) intercepted
    · rw [if_pos (backendRoute_of_unanswered isFamily notProxy unanswered), resolve_dst] at resolves
      obtain rfl := Option.some.inj resolves
      exact .itself unanswered intercepted

/--
Once chains and routes are those of a snapshot, no connection that the proxy opens comes
back to it exactly when none of the connections that the chains redirect loops.
-/
theorem neverReenters_iff {isLocal : IP → Bool} {tables : Tables} {routes : RouteTable}
    (synced : app.Synced state tables routes) :
    NeverReenters app isLocal tables routes ↔
      ∀ conn, Intercepted app state conn ∨ LocalNodePort app isLocal conn →
        ¬ Loops app state conn := by
  refine forall_congr' fun conn => ?_
  rw [enters_iff synced]
  refine forall_congr' fun enters => ?_
  have isFamily := enters.elim (·.1) (·.1)
  have notProxy := enters.elim (·.2.1) (·.2.1)
  rw [loops_iff isFamily notProxy, synced.routes_eq]
  constructor
  · rintro never ⟨next, resolves, intercepted⟩
    rcases handleConn_dst (app.routes state) notProxy [] with ⟨header, handled⟩
    have passes := never [] _ next handled resolves
    rw [(redirected_output_iff synced).mpr intercepted] at passes
    cases passes
  · intro noLoop sent dial next handled resolves
    rcases handleConn_dst (app.routes state) notProxy sent with ⟨header, handled'⟩
    obtain rfl := Option.some.inj (handled.symm.trans handled')
    rw [Bool.eq_false_iff]
    intro redirected
    exact noLoop ⟨next, resolves, (redirected_output_iff synced).mp redirected⟩

def nodeAddress : IP := ⟨[0, 0, 0, 0, 0, 65535, 49320, 16387], rfl, by decide⟩

def nodePacket : Packet := ⟨nodeAddress, 80, Packet.http_lt⟩

theorem eq_nodePacket_of_intercepted {conn : Packet}
    (intercepted : Intercepted (proxyOn (str "n1")) balancedState conn) : conn = nodePacket := by
  rcases intercepted with ⟨_, _, _, svc, isService, _, ⟨ingress, isIngress, parsed⟩, port, isPort,
    number⟩
  obtain rfl := List.mem_singleton.mp isService
  obtain rfl := List.mem_singleton.mp isIngress
  obtain rfl := List.mem_singleton.mp isPort
  rcases conn with ⟨ip, port, small⟩
  have address : ip = nodeAddress := by
    have read := parsed
    exact IP.ext (Option.some.inj read).symm
  have http : (80 : ℤ) = port := number
  obtain rfl : port = 80 := by omega
  subst address
  rfl

/-- A load balancer with a NodePort and without endpoints is dialled under its NodePort. -/
theorem neverReenters_balanced :
    NeverReenters (proxyOn (str "n1")) (fun _ => false) balancedProxy.tables
      balancedProxy.memory.routes := by
  have synced : (proxyOn (str "n1")).Synced balancedState balancedProxy.tables
      balancedProxy.memory.routes := by
    refine ⟨fun v6 isFamily chain => ?_, rfl⟩
    obtain rfl := List.mem_singleton.mp isFamily
    cases chain <;> rfl
  rw [neverReenters_iff synced]
  rintro conn (intercepted | ⟨_, _, local', _⟩)
  · obtain rfl := eq_nodePacket_of_intercepted intercepted
    rintro (⟨⟨endpoints, _⟩, _, _, _⟩ | ⟨balancer, _, _, isNodePort, again⟩ | ⟨unanswered, _⟩)
    · exact endpoints rfl
    · obtain rfl := eq_nodePacket_of_intercepted again
      obtain ⟨rfl, rfl, rfl⟩ := balancer
      cases isNodePort
    · have := (unanswered.1 _ _ _ rfl).2
      exact absurd this (by decide)
  · cases local'

/-- A pod in the host network serves port 80 of its node, which is also the address and the
port of the load balancer. -/
def hostNetworkItems : List Item :=
  [.service ⟨str "web", str "default", str "LoadBalancer", [⟨80, 30080, ⟨80, [], true⟩⟩],
      [str "192.168.64.3"]⟩,
    .endpointSlice ⟨str "default", [(str "kubernetes.io/service-name", str "web")], str "IPv4",
      [⟨none, some 80, some (str "TCP")⟩], [⟨[str "192.168.64.3"], str "n1", some true⟩]⟩]

def idleItems : List Item :=
  [.service ⟨str "web", str "default", str "LoadBalancer", [⟨80, 0, ⟨8080, [], true⟩⟩],
    [str "192.168.64.3"]⟩]

def programmed (items : List Item) : Proxy :=
  (((proxyOn (str "n1")).call (Decoder.ofItems items) (.start fun _ _ => none)
    ⟨some (str "snapshot"), List.replicate 13 true⟩).map Prod.fst).getD (.start fun _ _ => none)

/-- The proxy dials the load balancer address itself, which its own chain redirects. -/
theorem hostNetwork_reenters :
    ¬ NeverReenters (proxyOn (str "n1")) (fun _ => true) (programmed hostNetworkItems).tables
        (programmed hostNetworkItems).memory.routes ∧
      ¬ NeverReenters (proxyOn (str "n1")) (fun _ => true) (programmed idleItems).tables
        (programmed idleItems).memory.routes := by
  constructor
  · intro never
    have enters : Enters (proxyOn (str "n1")) (fun _ => true) (programmed hostNetworkItems).tables
        nodePacket := Or.inl rfl
    have passes := never nodePacket enters [] ⟨nodePacket.dst, []⟩ nodePacket rfl
      (resolve_dst nodePacket)
    cases passes
  · intro never
    have enters : Enters (proxyOn (str "n1")) (fun _ => true) (programmed idleItems).tables
        nodePacket := Or.inl rfl
    have passes := never nodePacket enters [] ⟨nodePacket.dst, []⟩ nodePacket rfl
      (resolve_dst nodePacket)
    cases passes

end Reentry

end Kiac.EdgeProxy
