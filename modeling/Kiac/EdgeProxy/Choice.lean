import Kiac.EdgeProxy.Tunnel

/-!
# The choice of a route

Among the ready endpoints behind a Service port, `routeFor` prefers one that this node reaches by
itself, then one whose node has a proxy that can be reached, and then the first. The family of an
address is read from the address itself.
-/

namespace Kiac.EdgeProxy

open Net

def InFamily (v6 : Bool) (address : Str) : Prop :=
  ∃ ip, parseIP address = some ip ∧ isV4 ip = !v6

def EndpointInFamily (v6 : Bool) (text : Str) : Prop :=
  ∃ address port, text = joinHostPort address port ∧ InFamily v6 address

def NodeLists {Raw : Type} (decoder : Decoder Raw) (raw name address : Str) : Prop :=
  ∃ items, decoder.items raw = some items ∧ ∃ item ∈ items, decoder.kind item = some (str "Node") ∧
    ∃ node, decoder.node item = some node ∧ node.name = name ∧
      (str "InternalIP", address) ∈ node.addresses

def EndpointTarget.Near (localNode : Str) (ep : EndpointTarget) : Prop :=
  ep.nodeName = [] ∨ ep.nodeName = localNode

def EndpointTarget.Reachable {Raw : Type} (decoder : Decoder Raw) (raw : Str) (v6 : Bool)
    (ep : EndpointTarget) : Prop :=
  ∃ address, NodeLists decoder raw ep.nodeName address ∧ InFamily v6 address

structure RouteChoice {Raw : Type} (decoder : Decoder Raw) (raw : Str) (state : ClusterState)
    (localNode proxyPort : Str) (svc : ServiceItem) (port : ServicePort) (v6 : Bool)
    (route : BackendRoute) : Prop where
  near : (∃ ep, ReadyEndpoint state svc port v6 ep ∧ ep.Near localNode) →
    ∃ ep, ReadyEndpoint state svc port v6 ep ∧ ep.Near localNode ∧ route = ⟨ep.address, []⟩
  tunnel : (∀ ep, ReadyEndpoint state svc port v6 ep → ¬ ep.Near localNode) →
    (∃ ep, ReadyEndpoint state svc port v6 ep ∧ ep.Reachable decoder raw v6) →
      ∃ ep address, ReadyEndpoint state svc port v6 ep ∧
        NodeLists decoder raw ep.nodeName address ∧ InFamily v6 address ∧
        route = ⟨joinHostPort address proxyPort, ep.address⟩
  first : (∀ ep, ReadyEndpoint state svc port v6 ep →
      ¬ ep.Near localNode ∧ ¬ ep.Reachable decoder raw v6) →
    ∀ ep, (state.matchingEndpoints svc port v6).head? = some ep → route = ⟨ep.address, []⟩
  unset : route = ⟨[], []⟩ ↔ ∀ ep, ¬ ReadyEndpoint state svc port v6 ep
  dial_family : route.dial ≠ [] → EndpointInFamily v6 route.dial
  target_family : route.tunnelTarget ≠ [] → EndpointInFamily v6 route.tunnelTarget

section NodeAddresses

/-- Whether an entry of a Node's addresses is an internal address of the family. -/
def isInternal (v6 : Bool) (entry : Str × Str) : Bool :=
  entry.1 == str "InternalIP" && (parseIP entry.2).any fun ip => isV4 ip == !v6

def firstInternal (v6 : Bool) (current : Str) (entries : List (Str × Str)) : Str :=
  if current = [] then ((entries.find? (isInternal v6)).map Prod.snd).getD [] else current

variable {v6 : Bool} {name : Str}

theorem isInternal_iff {entry : Str × Str} :
    isInternal v6 entry ↔ entry.1 = str "InternalIP" ∧ InFamily v6 entry.2 := by
  unfold isInternal InFamily
  rw [Bool.and_eq_true, beq_iff_eq, Option.any_eq_true]
  simp

theorem InFamily.ne_nil {address : Str} (family : InFamily v6 address) :
    address ≠ [] := by
  rintro rfl
  rcases family with ⟨ip, parsed, _⟩
  cases parsed

theorem firstInternal_singleton (v6 : Bool) (current : Str) (entry : Str × Str) :
    firstInternal v6 current [entry] =
      if current = [] ∧ isInternal v6 entry = true then entry.2 else current := by
  unfold firstInternal
  by_cases unset : current = [] <;> cases internal : isInternal v6 entry <;>
    simp [unset, internal]

theorem forFamily_record (addrs : NodeAddrs) (v6 : Bool) (entry : Str × Str) :
    (addrs.record entry.1 entry.2).forFamily v6 =
      firstInternal v6 (addrs.forFamily v6) [entry] := by
  rcases entry with ⟨type, address⟩
  rw [firstInternal_singleton, isInternal]
  by_cases isType : type = str "InternalIP"
  · simp only [NodeAddrs.record, isType, ne_eq, not_true_eq_false, if_false]
    split
    · rename_i unparsed
      simp [unparsed]
    · rename_i ip parsed
      by_cases four : isV4 ip = true
      · rw [dif_pos four]
        split <;> cases v6 <;> simp_all [NodeAddrs.forFamily]
      · rw [dif_neg four]
        split <;> cases v6 <;> simp_all [NodeAddrs.forFamily]
  · simp [NodeAddrs.record, isType]

theorem firstInternal_append (v6 : Bool) (current : Str) (entries more : List (Str × Str)) :
    firstInternal v6 current (entries ++ more) =
      firstInternal v6 (firstInternal v6 current entries) more := by
  unfold firstInternal
  by_cases unset : current = []
  · simp only [unset, if_true, List.find?_append]
    cases found : entries.find? (isInternal v6) with
    | none => simp
    | some entry =>
      have present := (isInternal_iff.mp (List.find?_some found)).2.ne_nil
      simp [present]
  · simp [unset]

theorem forFamily_foldl_record (entries : List (Str × Str)) (addrs : NodeAddrs) (v6 : Bool) :
    (entries.foldl (fun addrs (type, address) => addrs.record type address) addrs).forFamily v6 =
      firstInternal v6 (addrs.forFamily v6) entries := by
  induction entries generalizing addrs with
  | nil =>
    unfold firstInternal
    split <;> simp_all
  | cons entry entries ih =>
    rw [List.foldl_cons, ih, forFamily_record, ← firstInternal_append]
    rfl

variable {Raw : Type} {decoder : Decoder Raw}

def listedBy (decoder : Decoder Raw) (name : Str) (item : Raw) : List (Str × Str) :=
  if decoder.kind item = some (str "Node") then
    match decoder.node item with
    | some node => if node.name = name then node.addresses else []
    | none => []
  else []

theorem mem_listedBy {name : Str} {item : Raw} {entry : Str × Str} :
    entry ∈ listedBy decoder name item ↔ decoder.kind item = some (str "Node") ∧
      ∃ node, decoder.node item = some node ∧ node.name = name ∧ entry ∈ node.addresses := by
  unfold listedBy
  split
  · rename_i isNode
    cases decoder.node item with
    | none => simp
    | some node =>
      by_cases named : node.name = name <;> simp [isNode, named]
  · rename_i other
    simp [other]

theorem forFamily_addItem {state next : ClusterState} {item : Raw}
    (added : addItem decoder state item = some next) (name : Str) (v6 : Bool) :
    (next.nodeIPs name).forFamily v6 =
      firstInternal v6 ((state.nodeIPs name).forFamily v6) (listedBy decoder name item) := by
  have unlisted : ∀ current, firstInternal v6 current [] = current := by
    intro current
    unfold firstInternal
    split <;> simp_all
  simp only [addItem, Option.bind_eq_bind, Option.bind_eq_some_iff] at added
  rcases added with ⟨kind, ofKind, added⟩
  split_ifs at added with isService isSlice isNode
  · rcases Option.bind_eq_some_iff.mp added with ⟨svc, _, eq⟩
    cases eq
    simp [listedBy, ofKind, isService, unlisted, show str "Service" ≠ str "Node" by decide]
  · rcases Option.bind_eq_some_iff.mp added with ⟨slice, _, eq⟩
    cases eq
    simp [listedBy, ofKind, isSlice, unlisted, show str "EndpointSlice" ≠ str "Node" by decide]
  · rcases Option.bind_eq_some_iff.mp added with ⟨node, decoded, eq⟩
    cases eq
    by_cases named : node.name = name
    · subst named
      simp [listedBy, ofKind, isNode, decoded, forFamily_foldl_record]
    · simp [listedBy, ofKind, isNode, decoded, named, unlisted, Function.update_of_ne (Ne.symm named)]
  · cases added
    simp [listedBy, ofKind, isNode, unlisted]

theorem forFamily_foldlM_addItem {items : List Raw} {state final : ClusterState}
    (parsed : items.foldlM (addItem decoder) state = some final) (name : Str) (v6 : Bool) :
    (final.nodeIPs name).forFamily v6 =
      firstInternal v6 ((state.nodeIPs name).forFamily v6) (items.flatMap (listedBy decoder name)) := by
  induction items generalizing state with
  | nil =>
    cases parsed
    unfold firstInternal
    split <;> simp_all
  | cons item items ih =>
    rcases Option.bind_eq_some_iff.mp parsed with ⟨next, added, rest⟩
    rw [ih rest, forFamily_addItem added, ← firstInternal_append, List.flatMap_cons]

variable {raw : Str} {state : ClusterState} (parsed : parseClusterState decoder raw = some state)

include parsed

theorem nodeLists_forFamily (present : (state.nodeIPs name).forFamily v6 ≠ []) :
    NodeLists decoder raw name ((state.nodeIPs name).forFamily v6) := by
  rcases Option.bind_eq_some_iff.mp parsed with ⟨items, decoded, folded⟩
  have eq := forFamily_foldlM_addItem folded name v6
  have unset : (NodeAddrs.empty).forFamily v6 = [] := by cases v6 <;> rfl
  rw [firstInternal, if_pos unset] at eq
  cases found : (items.flatMap (listedBy decoder name)).find? (isInternal v6) with
  | none =>
    rw [found] at eq
    exact absurd eq present
  | some entry =>
    rcases List.mem_flatMap.mp (List.mem_of_find?_eq_some found) with ⟨item, mem, listed⟩
    rcases mem_listedBy.mp listed with ⟨isNode, node, decodedNode, named, inNode⟩
    have internal := (isInternal_iff.mp (List.find?_some found)).1
    rw [found] at eq
    refine ⟨items, decoded, item, mem, isNode, node, decodedNode, named, ?_⟩
    rw [eq, ← internal]
    exact inNode

theorem forFamily_ne_nil_iff :
    (state.nodeIPs name).forFamily v6 ≠ [] ↔
      ∃ address, NodeLists decoder raw name address ∧ InFamily v6 address := by
  constructor
  · intro present
    exact ⟨_, nodeLists_forFamily parsed present, NodeAddrs.forFamily_parses present⟩
  · rintro ⟨address, ⟨items, decoded, item, mem, isNode, node, decodedNode, named, inNode⟩, family⟩
    rcases Option.bind_eq_some_iff.mp parsed with ⟨items', decoded', folded⟩
    obtain rfl := Option.some.inj (decoded.symm.trans decoded')
    have unset : (NodeAddrs.empty).forFamily v6 = [] := by cases v6 <;> rfl
    rw [forFamily_foldlM_addItem folded name v6, firstInternal, if_pos unset]
    have listed :=
        List.mem_flatMap.mpr ⟨item, mem, mem_listedBy.mpr ⟨isNode, node, decodedNode, named, inNode⟩⟩
    cases found : (items.flatMap (listedBy decoder name)).find? (isInternal v6) with
    | none => exact absurd (isInternal_iff.mpr ⟨rfl, family⟩) (List.find?_eq_none.mp found _ listed)
    | some entry => exact (isInternal_iff.mp (List.find?_some found)).2.ne_nil

end NodeAddresses

section Choice

variable {state : ClusterState} {svc : ServiceItem} {port : ServicePort} {v6 : Bool}

variable {ep : EndpointTarget}

theorem direct_iff {localNode : Str} :
    ep.direct localNode ↔ ep.Near localNode := by
  simp [EndpointTarget.direct, EndpointTarget.Near]

theorem inFamily_of_ready (ready : ReadyEndpoint state svc port v6 ep) :
    EndpointInFamily v6 ep.address := by
  rcases ready with ⟨_, _, _, _, _, _, _, number, _, _, _, _, address, _, family, rfl⟩
  exact ⟨address, Str.itoa number, rfl, family⟩

theorem matchingEndpoints_eq_nil_iff :
    state.matchingEndpoints svc port v6 = [] ↔ ∀ ep, ¬ ReadyEndpoint state svc port v6 ep := by
  rw [List.eq_nil_iff_forall_not_mem]
  exact forall_congr' fun ep => not_congr mem_matchingEndpoints

/--
The choice of a route, for every snapshot, Service, port and family: a ready endpoint on this
node or on no node if there is one; otherwise a tunnel to the node of a ready endpoint, if some
node of one has an address of the family; otherwise the first endpoint, and nothing exactly if
there is none. All addresses of the route are of the family.
-/
theorem routeFor_chooses {Raw : Type} {decoder : Decoder Raw} {raw : Str} {state : ClusterState}
    (parsed : parseClusterState decoder raw = some state) (localNode proxyPort : Str)
    (svc : ServiceItem) (port : ServicePort) (v6 : Bool) :
    RouteChoice decoder raw state localNode proxyPort svc port v6
      (state.routeFor localNode proxyPort svc port v6) := by
  have reachable : ∀ ep : EndpointTarget, (state.nodeIPs ep.nodeName).forFamily v6 ≠ [] ↔
      ep.Reachable decoder raw v6 := fun ep => forFamily_ne_nil_iff parsed
  rcases routeFor_spec state localNode proxyPort svc port v6 with ⟨ep, found, route⟩ |
    ⟨noDirect, ep, mem, known, route⟩ | ⟨unknown, route⟩
  · have ready := mem_matchingEndpoints.mp (List.mem_of_find?_eq_some found)
    have near := direct_iff.mp (List.find?_some found)
    have present := address_ne_nil (List.mem_of_find?_eq_some found)
    rw [route]
    exact {
      near := fun _ => ⟨ep, ready, near, rfl⟩
      tunnel := fun none _ => absurd near (none ep ready)
      first := fun none => absurd near (none ep ready).1
      unset := iff_of_false (fun unset => present (BackendRoute.mk.inj unset).1)
        fun none => none ep ready
      dial_family := fun _ => inFamily_of_ready ready
      target_family := fun set => absurd rfl set }
  · have ready := mem_matchingEndpoints.mp mem
    have noNear : ∀ ep, ReadyEndpoint state svc port v6 ep → ¬ ep.Near localNode := by
      intro ep ready near
      have direct := noDirect ep (mem_matchingEndpoints.mpr ready)
      rw [direct_iff.mpr near] at direct
      cases direct
    have family := NodeAddrs.forFamily_parses known
    rw [route]
    exact {
      near := fun ⟨ep, ready, near⟩ => absurd near (noNear ep ready)
      tunnel := fun _ _ => ⟨ep, _, ready, nodeLists_forFamily parsed known, family, rfl⟩
      first := fun none => absurd ((reachable ep).mp known) (none ep ready).2
      unset := iff_of_false
        (fun unset => joinHostPort_ne_nil _ _ (BackendRoute.mk.inj unset).1)
        fun none => none ep ready
      dial_family := fun _ => ⟨_, _, rfl, family⟩
      target_family := fun _ => inFamily_of_ready ready }
  · have far : ∀ ep, ReadyEndpoint state svc port v6 ep →
        ¬ ep.Near localNode ∧ ¬ ep.Reachable decoder raw v6 := by
      intro ep ready
      have neither := unknown ep (mem_matchingEndpoints.mpr ready)
      rw [← direct_iff, ← reachable]
      exact ⟨by simp [neither.1], not_not.mpr neither.2⟩
    rw [route]
    refine {
      near := fun ⟨ep, ready, near⟩ => absurd near (far ep ready).1
      tunnel := fun _ ⟨ep, ready, known⟩ => absurd known (far ep ready).2
      first := fun _ ep isFirst => by simp [isFirst]
      unset := ?_
      dial_family := fun present => ?_
      target_family := fun set => absurd rfl set }
    · rw [← matchingEndpoints_eq_nil_iff]
      cases endpoints : state.matchingEndpoints svc port v6 with
      | nil => simp
      | cons ep rest =>
        have present := address_ne_nil (endpoints ▸ List.mem_cons_self)
        simp [present]
    · cases endpoints : state.matchingEndpoints svc port v6 with
      | nil => simp [endpoints] at present
      | cons ep rest =>
        exact inFamily_of_ready (mem_matchingEndpoints.mp (endpoints ▸ List.mem_cons_self))

/-- The only endpoint of the Service is reached through the proxy on its node. -/
theorem routeFor_chooses_web :
    ∃ ep address, ReadyEndpoint webState ⟨str "web", str "default", str "NodePort",
        [⟨80, 30080, ⟨8080, [], true⟩⟩], []⟩ ⟨80, 30080, ⟨8080, [], true⟩⟩ false ep ∧
      NodeLists (Decoder.ofItems webItems) (str "snapshot") ep.nodeName address ∧
      InFamily false address ∧
      webState.routeFor (str "n1") (str "15080") ⟨str "web", str "default", str "NodePort",
        [⟨80, 30080, ⟨8080, [], true⟩⟩], []⟩ ⟨80, 30080, ⟨8080, [], true⟩⟩ false =
          ⟨joinHostPort address (str "15080"), ep.address⟩ := by
  have parsed : parseClusterState (Decoder.ofItems webItems) (str "snapshot") = some webState := rfl
  have only : webState.matchingEndpoints ⟨str "web", str "default", str "NodePort",
      [⟨80, 30080, ⟨8080, [], true⟩⟩], []⟩ ⟨80, 30080, ⟨8080, [], true⟩⟩ false =
        [⟨str "10.244.2.7:8080", str "n2"⟩] := rfl
  refine (routeFor_chooses parsed (str "n1") (str "15080") _ _ false).tunnel ?_ ?_
  · intro ep ready
    rw [← mem_matchingEndpoints, only, List.mem_singleton] at ready
    subst ready
    rw [← direct_iff]
    decide
  · refine ⟨⟨str "10.244.2.7:8080", str "n2"⟩, ?_, (forFamily_ne_nil_iff parsed).mp (by decide)⟩
    rw [← mem_matchingEndpoints, only]
    exact List.mem_singleton_self _

end Choice

end Kiac.EdgeProxy
