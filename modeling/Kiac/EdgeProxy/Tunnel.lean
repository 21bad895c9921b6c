import Kiac.EdgeProxy.Routes
import Kiac.Text.AddressPort

/-!
# Connections and tunnels

A route to another node goes through the proxy there: the first line of such a tunnel names the
protocol, the shared token and the target. A tunnel reaches nothing but ready endpoints of its node,
whatever a client sends, and the tunnels that one proxy opens are accepted by the other.
-/

namespace Kiac.EdgeProxy

open Net

def tunnelProtocol : Str := str "KIACEDGE/2"

def isProxyPort (dst proxyPort : Str) : Bool :=
  match splitHostPort dst with
  | some (_, port) => port == proxyPort
  | none => false

def validBackendTarget (target : Str) : Bool :=
  match splitHostPort target with
  | none => false
  | some (host, port) =>
    (parseIP host).isSome && (Str.atoi port).any fun p => 0 < p && p ≤ 65535

def authenticateTunnelHeader (line token : Str) : Option Str :=
  match line.fields with
  | [protocol, given, target] =>
    if protocol = tunnelProtocol ∧ given = token ∧ validBackendTarget target = true then some target
    else none
  | _ => none

def tunnelHeader (token target : Str) : Str :=
  tunnelProtocol ++ byte ' ' :: (token ++ byte ' ' :: (target ++ [byte '\n']))

/-- `ReadSlice` with a buffer of 512 bytes: the first line of what the client has sent. -/
def readLine (sent : Str) : Option Str :=
  match indexByte (byte '\n') sent with
  | some i => if i < 512 then some (sent.take (i + 1)) else none
  | none => none

/-- `handleTunnel`: the address that is dialled. -/
def handleTunnel (app : App) (routes : RouteTable) (sent : Str) : Option Str := do
  let line ← readLine sent
  let target ← authenticateTunnelHeader line app.tunnelToken
  if routes.allowedTargets target then some target else none

def isV6Host (host : Str) : Bool := (parseIP host).any fun ip => !isV4 ip

def backendRoute (routes : RouteTable) (original : Str) : BackendRoute :=
  if (routes.loadBalancers original).dial ≠ [] then routes.loadBalancers original
  else
    match splitHostPort original with
    | none => ⟨[], []⟩
    | some (host, port) =>
      match Str.atoi port with
      | none => ⟨[], []⟩
      | some p => routes.nodePorts (p, isV6Host host)

/-- The address that is dialled for a connection, and what is written to it first. -/
structure Dial where
  address : Str
  header : Str

/-- `handleConn`, for the original destination and the bytes that the client sends. -/
def handleConn (app : App) (routes : RouteTable) (dst sent : Str) : Option Dial :=
  if isProxyPort dst app.proxyPort then (handleTunnel app routes sent).map fun target => ⟨target, []⟩
  else
    let route := backendRoute routes dst
    some ⟨if route.dial = [] then dst else route.dial,
      if route.tunnelTarget = [] then [] else tunnelHeader app.tunnelToken route.tunnelTarget⟩

variable {sent line token : Str} {routes : RouteTable}

theorem readLine_eq_some (read : readLine sent = some line) :
    ∃ words rest, sent = line ++ rest ∧ line = words ++ [byte '\n'] ∧ byte '\n' ∉ words ∧
      words.length < 512 := by
  unfold readLine at read
  split at read
  · rename_i i found
    split at read
    · obtain rfl := Option.some.inj read
      refine ⟨sent.take i, sent.drop (i + 1), (List.take_append_drop _ _).symm,
        take_of_indexByte found, not_mem_take_of_indexByte found, ?_⟩
      rw [List.length_take]
      omega
    · cases read
  · cases read

variable {target : Str} {app : App} {state : ClusterState} {svc : ServiceItem} {port : ServicePort}
  {v6 : Bool}

theorem authenticateTunnelHeader_eq_some
    (accepted : authenticateTunnelHeader line token = some target) :
    line.fields = [tunnelProtocol, token, target] := by
  unfold authenticateTunnelHeader at accepted
  split at accepted
  · rename_i words
    split at accepted
    · rename_i matches'
      obtain rfl := Option.some.inj accepted
      rw [words, matches'.1, matches'.2.1]
    · cases accepted
  · cases accepted

theorem handleTunnel_eq_some (dialled : handleTunnel app routes sent = some target) :
    ∃ line, readLine sent = some line ∧
      authenticateTunnelHeader line app.tunnelToken = some target ∧
      routes.allowedTargets target := by
  simp only [handleTunnel, Option.bind_eq_bind, Option.bind_eq_some_iff] at dialled
  rcases dialled with ⟨line, read, found, accepted, allowed⟩
  split at allowed
  · rename_i isAllowed
    obtain rfl := Option.some.inj allowed
    exact ⟨line, read, accepted, isAllowed⟩
  · cases allowed

/--
Tunnels are confined. Once a snapshot has been processed without an error, the allowed
targets are exactly the ready TCP endpoints that it places on this node. Whatever a client
sends to the proxy port, an address is dialled only if the first line consists of the
protocol, the token and that address, and the address is one of those endpoints.
-/
theorem tunnel_confined {Raw : Type} {app : App} {decoder : Decoder Raw} {raw : Str}
    {routes : RouteTable} {choices : List Bool} {tables : Tables}
    (processed : ((app.addServiceRules decoder raw .empty).exec machine choices tables).value =
      some (routes, true)) :
    ∃ state, parseClusterState decoder raw = some state ∧
      (∀ target, routes.allowedTargets target = true ↔ LocalTarget app state target) ∧
      ∀ dst sent dial, isProxyPort dst app.proxyPort = true →
        handleConn app routes dst sent = some dial →
          LocalTarget app state dial.address ∧
          ∃ words rest, sent = words ++ byte '\n' :: rest ∧ byte '\n' ∉ words ∧
            Str.fields (words ++ [byte '\n']) = [tunnelProtocol, app.tunnelToken, dial.address] := by
  rcases addServiceRules_value processed with ⟨state, parsed, rfl⟩
  refine ⟨state, parsed, allowedTargets_routes, ?_⟩
  intro dst sent dial toProxy handled
  simp only [handleConn, toProxy, if_true, Option.map_eq_some_iff] at handled
  rcases handled with ⟨target, dialled, rfl⟩
  rcases handleTunnel_eq_some dialled with ⟨line, read, accepted, allowed⟩
  rcases readLine_eq_some read with ⟨words, rest, rfl, rfl, noNewline, _⟩
  refine ⟨(allowedTargets_routes target).mp allowed, words, rest, by simp, noNewline, ?_⟩
  exact authenticateTunnelHeader_eq_some accepted

inductive Item where
  | service (svc : ServiceItem)
  | endpointSlice (slice : EndpointSliceItem)
  | node (node : NodeItem)

def Decoder.ofItems (items : List Item) : Decoder Item where
  items := fun raw =>
    if raw = str "snapshot" then some items else if raw = str "nothing" then some [] else none
  rejectsEmpty := rfl
  rejectsUnset := rfl
  kind
    | .service _ => some (str "Service")
    | .endpointSlice _ => some (str "EndpointSlice")
    | .node _ => some (str "Node")
  service
    | .service svc => some svc
    | _ => none
  endpointSlice
    | .endpointSlice slice => some slice
    | _ => none
  node
    | .node node => some node
    | _ => none

def webItems : List Item :=
  [.service ⟨str "web", str "default", str "NodePort", [⟨80, 30080, ⟨8080, [], true⟩⟩], []⟩,
    .endpointSlice ⟨str "default", [(str "kubernetes.io/service-name", str "web")], str "IPv4",
      [⟨none, some 8080, some (str "TCP")⟩], [⟨[str "10.244.2.7"], str "n2", some true⟩]⟩,
    .node ⟨str "n1", [(str "InternalIP", str "192.168.64.2")]⟩,
    .node ⟨str "n2", [(str "InternalIP", str "192.168.64.3")]⟩]

def webState : ClusterState :=
  (parseClusterState (Decoder.ofItems webItems) (str "snapshot")).getD
    ⟨[], [], fun _ => NodeAddrs.empty⟩

def proxyOn (nodeName : Str) : App :=
  ⟨nodeName, 15080, (30000, 32767), false, List.replicate 64 (byte 'a'), by decide, by decide⟩

/-- The proxy on the endpoint's node allows it, and it is a local target there. -/
theorem tunnel_confined_web :
    ((proxyOn (str "n2")).routes webState).allowedTargets (str "10.244.2.7:8080") = true ∧
      LocalTarget (proxyOn (str "n2")) webState (str "10.244.2.7:8080") := by
  have processed : (((proxyOn (str "n2")).addServiceRules (Decoder.ofItems webItems)
      (str "snapshot") .empty).exec machine [] fun _ _ => none).value =
      some ((proxyOn (str "n2")).routes webState, true) := rfl
  have allowed : ((proxyOn (str "n2")).routes webState).allowedTargets
      (str "10.244.2.7:8080") = true := by decide
  rcases tunnel_confined processed with ⟨state, parsed, targets, _⟩
  have isWeb : state = webState := (Option.some.inj parsed).symm
  exact ⟨allowed, isWeb ▸ (targets _).mp allowed⟩

theorem routeFor_tunnel {localNode proxyPort : Str}
    (tunnel : (state.routeFor localNode proxyPort svc port v6).tunnelTarget ≠ []) :
    ∃ ep, ReadyEndpoint state svc port v6 ep ∧ (state.nodeIPs ep.nodeName).forFamily v6 ≠ [] ∧
      state.routeFor localNode proxyPort svc port v6 =
        ⟨joinHostPort ((state.nodeIPs ep.nodeName).forFamily v6) proxyPort, ep.address⟩ := by
  rcases routeFor_spec state localNode proxyPort svc port v6 with ⟨ep, _, route⟩ |
    ⟨_, ep, mem, known, route⟩ | ⟨_, route⟩
  · rw [route] at tunnel
    exact absurd rfl tunnel
  · exact ⟨ep, mem_matchingEndpoints.mp mem, known, route⟩
  · rw [route] at tunnel
    exact absurd rfl tunnel

theorem loadBalancerRoute_tunnel {ingress : Str}
    (tunnel : (app.loadBalancerRoute state svc ingress v6 port).tunnelTarget ≠ []) :
    app.loadBalancerRoute state svc ingress v6 port =
      state.routeFor app.nodeName app.proxyPort svc port v6 := by
  simp only [App.loadBalancerRoute] at tunnel ⊢
  split
  · rename_i unset
    rw [if_pos unset] at tunnel
    rcases routeFor_tunnel tunnel with ⟨ep, _, _, eq⟩
    rw [eq] at unset
    exact absurd unset.1 (joinHostPort_ne_nil _ _)
  · rfl

theorem backendRoute_tunnel {dst : Str}
    (tunnel : (backendRoute (app.routes state) dst).tunnelTarget ≠ []) :
    ∃ svc port v6, IsPort app state svc port v6 ∧ backendRoute (app.routes state) dst =
      state.routeFor app.nodeName app.proxyPort svc port v6 := by
  have balanced : ∀ key, ((app.routes state).loadBalancers key).tunnelTarget ≠ [] →
      ∃ svc port v6, IsPort app state svc port v6 ∧ (app.routes state).loadBalancers key =
        state.routeFor app.nodeName app.proxyPort svc port v6 := by
    intro key set
    rw [App.routes, loadBalancers_foldl] at set ⊢
    cases last : ((app.steps state).filterMap (RuleStep.loadBalancerAt key)).getLast? with
    | none => simp [last, RouteTable.empty] at set
    | some route =>
      rcases List.mem_filterMap.mp (List.mem_of_getLast? last) with ⟨step, mem, sets⟩
      cases step with
      | loadBalancer other route' =>
        simp only [RuleStep.loadBalancerAt, Option.ite_none_right_eq_some,
          Option.some.injEq] at sets
        rcases sets with ⟨_, rfl⟩
        rcases loadBalancer_mem_steps mem with ⟨svc, port, ingress, v6, isPort, _, _, _, rfl⟩
        rw [last, Option.getD_some] at set
        exact ⟨svc, port, v6, isPort, loadBalancerRoute_tunnel set⟩
      | _ => cases sets
  have nodePort : ∀ key, ((app.routes state).nodePorts key).tunnelTarget ≠ [] →
      ∃ svc port v6, IsPort app state svc port v6 ∧ (app.routes state).nodePorts key =
        state.routeFor app.nodeName app.proxyPort svc port v6 := by
    intro key set
    rw [App.routes, nodePorts_foldl] at set ⊢
    cases last : ((app.steps state).filterMap (RuleStep.nodePortAt key)).getLast? with
    | none => simp [last, RouteTable.empty] at set
    | some route =>
      rcases List.mem_filterMap.mp (List.mem_of_getLast? last) with ⟨step, mem, sets⟩
      cases step with
      | nodePort other route' =>
        simp only [RuleStep.nodePortAt, Option.ite_none_right_eq_some,
          Option.some.injEq] at sets
        rcases sets with ⟨_, rfl⟩
        rcases nodePort_mem_steps mem with ⟨svc, port, isPort, rfl⟩
        exact ⟨svc, port, _, isPort, rfl⟩
      | _ => cases sets
  unfold backendRoute at tunnel ⊢
  split
  · rename_i set
    rw [if_pos set] at tunnel
    exact balanced dst tunnel
  · rename_i unset
    rw [if_neg unset] at tunnel
    split at tunnel
    · exact absurd rfl tunnel
    · split at tunnel
      · exact absurd rfl tunnel
      · exact nodePort _ tunnel

theorem readLine_append {words : Str} (noNewline : byte '\n' ∉ words) (short : words.length < 512)
    (rest : Str) : readLine (words ++ byte '\n' :: rest) = some (words ++ [byte '\n']) := by
  simp only [readLine, indexByte_append noNewline, short, if_true, Option.some.injEq]
  have shape : words ++ byte '\n' :: rest = (words ++ [byte '\n']) ++ rest := by simp
  rw [shape]
  exact List.take_left' (by simp)

theorem fields_tunnelHeader (tokenGraphic : ∀ b ∈ token, Str.isGraphic b)
    (hasToken : token ≠ []) (targetGraphic : ∀ b ∈ target, Str.isGraphic b)
    (hasTarget : target ≠ []) :
    (tunnelHeader token target).fields = [tunnelProtocol, token, target] := by
  have protocolGraphic : ∀ b ∈ tunnelProtocol, Str.isGraphic b := by decide +kernel
  unfold tunnelHeader
  rw [Str.fields_append protocolGraphic (by decide) (Or.inl rfl),
    Str.fields_append tokenGraphic hasToken (Or.inl rfl),
    Str.fields_append targetGraphic hasTarget (Or.inr rfl), Str.fields_nil]

def IsToken (token : Str) : Prop := token.length = 64 ∧ ∀ b ∈ token, Str.isHex b = true

/-- What the agreement of two proxies needs from the snapshot: nodes do not share an
address, and endpoint ports are port numbers. -/
structure WellFormed (state : ClusterState) : Prop where
  distinctNodes : ∀ m n v6, (state.nodeIPs m).forFamily v6 ≠ [] →
    (state.nodeIPs m).forFamily v6 = (state.nodeIPs n).forFamily v6 → m = n
  portNumbers : ∀ slice ∈ state.endpointSlices, ∀ epPort ∈ slice.ports, ∀ number,
    epPort.port = some number → 1 ≤ number ∧ number ≤ 65535

theorem WellFormed.address (wellFormed : WellFormed state) {ep : EndpointTarget}
    (ready : ReadyEndpoint state svc port v6 ep) :
    ∃ (host : Str) (ip : Groups) (number : ℕ), parseIP host = some ip ∧ 0 < number ∧
      number < 65536 ∧ ep.address = joinHostPort host (Str.itoa number) := by
  rcases ready with ⟨slice, isSlice, _, epPort, isPort, _, _, number, numbered, entry, _, _, host,
    _, ⟨ip, parsed, _⟩, rfl⟩
  rcases wellFormed.portNumbers slice isSlice epPort isPort number numbered with ⟨low, high⟩
  obtain ⟨n, rfl⟩ := Int.eq_ofNat_of_zero_le (show 0 ≤ number by omega)
  exact ⟨host, ip, n, parsed, by omega, by omega, rfl⟩

def Accepts (app : App) (routes : RouteTable) (token target : Str) : Prop :=
  routes.allowedTargets target = true ∧
    authenticateTunnelHeader (tunnelHeader token target) app.tunnelToken = some target ∧
    ∀ rest, handleTunnel app routes (tunnelHeader token target ++ rest) = some target

theorem accepts_of_allowed {host : Str} {ip : Groups}
    {number : ℕ} (isToken : IsToken app.tunnelToken) (parsed : parseIP host = some ip)
    (positive : 0 < number) (small : number < 65536)
    (allowed : routes.allowedTargets (joinHostPort host (Str.itoa number))) :
    Accepts app routes app.tunnelToken (joinHostPort host (Str.itoa number)) := by
  have tokenGraphic : ∀ b ∈ app.tunnelToken, Str.isGraphic b :=
    fun b mem => isGraphic_of_isHex (isToken.2 b mem)
  have hasToken : app.tunnelToken ≠ [] := by
    intro empty
    have length := isToken.1
    rw [empty] at length
    cases length
  have targetGraphic : ∀ b ∈ joinHostPort host (Str.itoa number), Str.isGraphic b :=
    fun b mem => isGraphic_of_mem_joinHostPort parsed mem
  have valid : validBackendTarget (joinHostPort host (Str.itoa number)) := by
    have fits : number ≤ Str.maxInt := by
      unfold Str.maxInt
      omega
    simp only [validBackendTarget, (isHost_of_parseIP parsed).splitHostPort_joinHostPort, parsed,
      Str.atoi_itoa_ofNat fits, Option.isSome_some, Option.any_some, Bool.true_and]
    simp
    omega
  have accepted : authenticateTunnelHeader (tunnelHeader app.tunnelToken
      (joinHostPort host (Str.itoa number))) app.tunnelToken =
      some (joinHostPort host (Str.itoa number)) := by
    simp [authenticateTunnelHeader, fields_tunnelHeader tokenGraphic hasToken targetGraphic
      (joinHostPort_ne_nil _ _), valid]
  refine ⟨allowed, accepted, ?_⟩
  intro rest
  have graphicNewline : Str.isGraphic (byte '\n') = false := by decide
  have read : readLine (tunnelHeader app.tunnelToken (joinHostPort host (Str.itoa number)) ++ rest) =
      some (tunnelHeader app.tunnelToken (joinHostPort host (Str.itoa number))) := by
    have shape : ∀ tail, tunnelHeader app.tunnelToken (joinHostPort host (Str.itoa number)) ++ tail =
        (tunnelProtocol ++ byte ' ' :: (app.tunnelToken ++ byte ' ' ::
          joinHostPort host (Str.itoa number))) ++ byte '\n' :: tail := by
      simp [tunnelHeader]
    have whole := shape []
    rw [List.append_nil] at whole
    rw [shape rest, whole]
    apply readLine_append
    · simp only [List.mem_append, List.mem_cons]
      rintro (mem | same | mem | same | mem)
      · exact absurd mem (by decide)
      · exact absurd same (by decide)
      · rw [tokenGraphic _ mem] at graphicNewline
        exact absurd graphicNewline (by decide)
      · exact absurd same (by decide)
      · rw [targetGraphic _ mem] at graphicNewline
        exact absurd graphicNewline (by decide)
    · have targetShort := length_joinHostPort_le parsed small
      have tokenLength := isToken.1
      have protocolLength : tunnelProtocol.length = 10 := by decide
      simp only [List.length_append, List.length_cons]
      omega
  simp [handleTunnel, read, accepted, allowed]

/--
Proxies agree on tunnels. For two proxies that have processed the same snapshot and share
the token, a tunnel route of the one to the address of the other carries a target that the
other one accepts. This holds for the route of every Service port and therefore for every
entry of the route table.
-/
theorem tunnel_accepted {Raw : Type} {decoder : Decoder Raw} {raw : Str} {state : ClusterState}
    {a b : App} {routesA routesB : RouteTable} {choicesA choicesB : List Bool}
    {tablesA tablesB : Tables} (parsed : parseClusterState decoder raw = some state)
    (processedA : ((a.addServiceRules decoder raw .empty).exec machine choicesA tablesA).value =
      some (routesA, true))
    (processedB : ((b.addServiceRules decoder raw .empty).exec machine choicesB tablesB).value =
      some (routesB, true))
    (wellFormed : WellFormed state) (isToken : IsToken a.tunnelToken)
    (shared : a.tunnelToken = b.tunnelToken) {v6 : Bool} (programsA : v6 ∈ a.families)
    (programsB : v6 ∈ b.families) :
    (∀ svc ∈ state.services, ∀ port ∈ svc.ports,
      (state.routeFor a.nodeName a.proxyPort svc port v6).tunnelTarget ≠ [] →
      (state.routeFor a.nodeName a.proxyPort svc port v6).dial =
        joinHostPort ((state.nodeIPs b.nodeName).forFamily v6) a.proxyPort →
      Accepts b routesB a.tunnelToken
        (state.routeFor a.nodeName a.proxyPort svc port v6).tunnelTarget) ∧
    ∀ dst, (backendRoute routesA dst).tunnelTarget ≠ [] →
      (backendRoute routesA dst).dial =
        joinHostPort ((state.nodeIPs b.nodeName).forFamily v6) a.proxyPort →
      Accepts b routesB a.tunnelToken (backendRoute routesA dst).tunnelTarget := by
  rcases addServiceRules_value processedA with ⟨stateA, parsedA, rfl⟩
  obtain rfl := Option.some.inj (parsed.symm.trans parsedA)
  rcases addServiceRules_value processedB with ⟨stateB, parsedB, rfl⟩
  obtain rfl := Option.some.inj (parsed.symm.trans parsedB)
  have nodeHost : ∀ name family, IsHost ((state.nodeIPs name).forFamily family) := by
    intro name family present
    rcases NodeAddrs.forFamily_parses present with ⟨ip, read, _⟩
    exact ⟨ip, read⟩
  -- The address of the other proxy determines the family and the node of the endpoint.
  have main : ∀ svc port family, IsPort a state svc port family →
      (state.routeFor a.nodeName a.proxyPort svc port family).tunnelTarget ≠ [] →
      (state.routeFor a.nodeName a.proxyPort svc port family).dial =
        joinHostPort ((state.nodeIPs b.nodeName).forFamily v6) a.proxyPort →
      Accepts b (b.routes state) a.tunnelToken
        (state.routeFor a.nodeName a.proxyPort svc port family).tunnelTarget := by
    intro svc port family isPort tunnel dials
    rcases routeFor_tunnel tunnel with ⟨ep, ready, present, route⟩
    rw [route] at dials ⊢
    have sameHost := (joinHostPort_inj (nodeHost _ _) (nodeHost _ _) dials).1
    rcases NodeAddrs.forFamily_parses present with ⟨ip, read, isFamily⟩
    have sameFamily : family = v6 := by
      rw [sameHost] at present read
      rcases NodeAddrs.forFamily_parses present with ⟨ip', read', isFamily'⟩
      obtain rfl := Option.some.inj (read.symm.trans read')
      exact Bool.not_inj (isFamily.symm.trans isFamily')
    subst sameFamily
    have onB := wellFormed.distinctNodes _ _ family present sameHost
    rcases wellFormed.address ready with ⟨host, hostIP, number, hostParsed, positive, small, address⟩
    have isLocal : LocalTarget b state ep.address := by
      refine ⟨svc, port, family, ⟨isPort.service, isPort.port, programsB⟩, ?_⟩
      rwa [← onB]
    have allowed := (allowedTargets_routes ep.address).mpr isLocal
    rw [address] at allowed ⊢
    rw [shared] at isToken ⊢
    exact accepts_of_allowed isToken hostParsed positive small allowed
  refine ⟨?_, ?_⟩
  · intro svc isService port isPort
    exact main svc port v6 ⟨isService, isPort, programsA⟩
  · intro dst tunnel dials
    rcases backendRoute_tunnel tunnel with ⟨svc, port, family, isPort, route⟩
    rw [route] at tunnel dials ⊢
    exact main svc port family isPort tunnel dials

theorem wellFormed_webState : WellFormed webState where
  distinctNodes := by
    have nodes : ∀ name, webState.nodeIPs name =
        if name = str "n2" then NodeAddrs.empty.record (str "InternalIP") (str "192.168.64.3")
        else if name = str "n1" then NodeAddrs.empty.record (str "InternalIP") (str "192.168.64.2")
        else NodeAddrs.empty := by
      intro name
      by_cases second : name = str "n2"
      · subst second
        rfl
      · by_cases first : name = str "n1"
        · subst first
          rfl
        · rw [if_neg second, if_neg first]
          exact (Function.update_of_ne second _ _).trans (Function.update_of_ne first _ _)
    intro m n v6 present same
    rw [nodes m] at present same
    rw [nodes n] at same
    cases v6 <;> split_ifs at present same with first second third fourth <;>
      first
      | exact absurd rfl present
      | exact absurd same (by decide)
      | simp_all
  portNumbers := by
    intro slice isSlice epPort isPort number numbered
    simp only [show webState.endpointSlices = [⟨str "default",
      [(str "kubernetes.io/service-name", str "web")], str "IPv4",
      [⟨none, some 8080, some (str "TCP")⟩], [⟨[str "10.244.2.7"], str "n2", some true⟩]⟩] from rfl,
      List.mem_singleton] at isSlice
    subst isSlice
    obtain rfl := List.mem_singleton.mp isPort
    obtain rfl := Option.some.inj numbered
    decide

/-- A connection to the NodePort of the first node is tunnelled to the second node. -/
theorem tunnel_accepted_web :
    (backendRoute ((proxyOn (str "n1")).routes webState) (str "192.168.64.2:30080")).tunnelTarget =
        str "10.244.2.7:8080" ∧
      Accepts (proxyOn (str "n2")) ((proxyOn (str "n2")).routes webState)
        (proxyOn (str "n1")).tunnelToken (str "10.244.2.7:8080") := by
  have processed1 : (((proxyOn (str "n1")).addServiceRules (Decoder.ofItems webItems)
      (str "snapshot") .empty).exec machine [] fun _ _ => none).value =
      some ((proxyOn (str "n1")).routes webState, true) := rfl
  have processed2 : (((proxyOn (str "n2")).addServiceRules (Decoder.ofItems webItems)
      (str "snapshot") .empty).exec machine [] fun _ _ => none).value =
      some ((proxyOn (str "n2")).routes webState, true) := rfl
  have target : (backendRoute ((proxyOn (str "n1")).routes webState)
      (str "192.168.64.2:30080")).tunnelTarget = str "10.244.2.7:8080" := by decide
  have accepted := (tunnel_accepted rfl processed1 processed2 wellFormed_webState
    ⟨by decide +kernel, by decide +kernel⟩ rfl (mem_families.mpr (by decide +kernel) : false ∈ _)
    (mem_families.mpr (by decide))).2 (str "192.168.64.2:30080") (by decide) (by decide)
  exact ⟨target, accepted⟩

end Kiac.EdgeProxy
