import Kiac.EdgeProxy.Reentry

/-!
# How an address is spelled

The routes of the load balancer addresses are kept under the text that the API gives for the
address. The rule compares addresses, and the destination of a connection that it redirects
is written by the proxy, so the route is found if the API writes the address as the proxy
does. An IPv6 address has other spellings.
-/

namespace Kiac.EdgeProxy

open Net

/-- The text is the one that `IP.String` gives for its address. -/
def Canonical (ingress : Str) : Prop := ∃ ip : IP, parseIP ingress = some ip.groups ∧ ip.format = ingress

/-- Whenever a route that is not empty is recorded for an address and a port, a connection
that the rule for them redirects follows it. -/
def FollowsRecorded (app : App) (ingress : Str) (port : ℕ) : Prop :=
  ∀ (Raw : Type) (decoder : Decoder Raw) (raw : Str) (choices : List Bool) (tables : Tables)
    (routes : RouteTable) (succeeded : Bool) (isLocal : IP → Bool) (conn : Packet),
    ((app.addServiceRules decoder raw .empty).exec machine choices tables).value =
      some (routes, succeeded) →
    (routes.loadBalancers (joinHostPort ingress (Str.itoa port))).dial ≠ [] →
    (Rule.redirectTo ingress (Str.itoa port) app.proxyPort).applies isLocal conn = true →
      backendRoute routes conn.dst = routes.loadBalancers (joinHostPort ingress (Str.itoa port))

variable {tables : Tables} {routes : RouteTable} {choices : List Bool} {succeeded : Bool}

theorem exists_runSteps_value (steps : List RuleStep) (routes : RouteTable)
    (present : ∀ v6, Present tables v6) :
    ∃ choices, ((runSteps steps routes).exec machine choices tables).value =
      some (steps.foldl RuleStep.record routes, true) := by
  induction steps generalizing routes tables with
  | nil => exact ⟨[], rfl⟩
  | cons step steps ih =>
    cases step with
    | append v6 chain rule =>
      rcases Option.isSome_iff_exists.mp (present v6 chain) with ⟨state, exists'⟩
      have becomes := becomes_set tables v6 chain { state with rules := state.rules ++ [rule] }
      rcases ih routes fun v6' => becomes.present v6' (present v6') with ⟨choices, value⟩
      refine ⟨true :: choices, ?_⟩
      simp only [runSteps, Prog.perform_bind, Prog.exec_call_cons]
      simpa [machine, EdgeProxy.step, Command.effect, exists', RuleStep.record] using value
    | allow target => exact ih _ present
    | nodePort key route => exact ih _ present
    | loadBalancer key route => exact ih _ present

theorem runSteps_routes {steps : List RuleStep} {final : RouteTable}
    (returned : ((runSteps steps routes).exec machine choices tables).value =
      some (final, succeeded)) :
    ∃ reached, reached ⊆ steps ∧ final = reached.foldl RuleStep.record routes := by
  induction steps generalizing routes choices tables with
  | nil =>
    cases returned
    exact ⟨[], List.Subset.refl _, rfl⟩
  | cons step steps ih =>
    have extend : ∀ {choices tables}, ((runSteps steps (RuleStep.record routes step)).exec machine
        choices tables).value = some (final, succeeded) →
        ∃ reached, reached ⊆ step :: steps ∧ final = reached.foldl RuleStep.record routes := by
      intro choices tables later
      rcases ih later with ⟨reached, subset, eq⟩
      exact ⟨step :: reached, List.cons_subset_cons _ subset, eq⟩
    cases step with
    | append v6 chain rule =>
      cases choices with
      | nil => cases returned
      | cons works choices =>
        simp only [runSteps, Prog.perform_bind, Prog.exec_call_cons] at returned
        split at returned
        · exact extend returned
        · cases returned
          exact ⟨[], List.nil_subset _, rfl⟩
    | allow target => exact extend returned
    | nodePort key route => exact extend returned
    | loadBalancer key route => exact extend returned

theorem loadBalancers_proxyPort {Raw : Type} {app : App} {decoder : Decoder Raw} {raw : Str}
    {ingress : Str}
    (isHost : IsHost ingress)
    (returned : ((app.addServiceRules decoder raw .empty).exec machine choices tables).value =
      some (routes, succeeded)) :
    (routes.loadBalancers (joinHostPort ingress (Str.itoa app.port))).dial = [] := by
  unfold App.addServiceRules at returned
  split at returned
  · cases returned
    rfl
  · rename_i state _
    rcases runSteps_routes returned with ⟨reached, subset, rfl⟩
    rw [loadBalancers_foldl]
    cases last : (reached.filterMap (RuleStep.loadBalancerAt
        (joinHostPort ingress (Str.itoa app.port)))).getLast? with
    | none => rfl
    | some route =>
      rcases List.mem_filterMap.mp (List.mem_of_getLast? last) with ⟨step, mem, sets⟩
      cases step with
      | loadBalancer key route' =>
        simp only [RuleStep.loadBalancerAt, Option.ite_none_right_eq_some] at sets
        rcases loadBalancer_mem_steps (subset mem) with
          ⟨_, port, _, _, _, ⟨_, parsed, _⟩, other, rfl, _⟩
        have same := joinHostPort_inj (isHost_of_parseIP parsed) isHost sets.1
        exact absurd (congrArg Str.itoa same.2) other
      | _ => cases sets

def lonePort (ingress : Str) (port : ℕ) : ServiceItem :=
  ⟨str "web", str "default", str "LoadBalancer", [⟨port, 30080, ⟨8080, [], true⟩⟩], [ingress]⟩

def loneState (ingress : Str) (port : ℕ) : ClusterState :=
  ⟨[lonePort ingress port], [], fun _ => NodeAddrs.empty⟩

section Lone

variable {app : App} {ingress : Str} {ip : Groups} {port : ℕ}

theorem loadBalancers_lone (parsed : parseIP ingress = some ip) (isFamily : (!isV4 ip) ∈ app.families)
    (positive : 0 < port) (notProxy : port ≠ app.port) :
    (app.routes (loneState ingress port)).loadBalancers (joinHostPort ingress (Str.itoa port)) =
      ⟨joinHostPort ingress (Str.itoa 30080), []⟩ := by
  have programmed : ¬ ((!isV4 ip) && !app.hasIPv6) := by
    rw [mem_families] at isFamily
    cases four : isV4 ip <;> simp_all
  have taken : ¬ ((port : ℤ) ≤ 0 ∨ Str.itoa port = app.proxyPort) := by
    rintro (negative | same)
    · omega
    · exact notProxy (Int.ofNat.inj (Str.itoa_injective same))
  have ofPort : ∀ step ∈ app.portSteps (loneState ingress port) (lonePort ingress port)
      ⟨port, 30080, ⟨8080, [], true⟩⟩,
      RuleStep.loadBalancerAt (joinHostPort ingress (Str.itoa port)) step = none := by
    intro step mem
    rcases mem_portSteps.mp mem with ⟨_, _, allowed⟩ | ⟨_, _, _, rfl⟩
    · rcases List.mem_map.mp allowed with ⟨ep, _, rfl⟩
      rfl
    · rfl
  have steps : app.steps (loneState ingress port) =
      app.portSteps (loneState ingress port) (lonePort ingress port) ⟨port, 30080, ⟨8080, [], true⟩⟩ ++
        app.ingressPortSteps (loneState ingress port) (lonePort ingress port) ingress (!isV4 ip)
          ⟨port, 30080, ⟨8080, [], true⟩⟩ := by
    simp [App.steps, App.serviceSteps, App.ingressSteps, loneState, lonePort, parsed, programmed]
  rw [App.routes, loadBalancers_foldl, steps, List.filterMap_append,
    List.filterMap_eq_nil_iff.mpr ofPort, List.nil_append, App.ingressPortSteps, if_neg taken]
  simp [RuleStep.loadBalancerAt, App.loadBalancerRoute, ClusterState.routeFor,
    ClusterState.matchingEndpoints, loneState]

theorem backendRoute_lone {conn : Packet} (isFamily : conn.v6 ∈ app.families)
    (notProxy : conn.port ≠ app.port) (other : ingress ≠ conn.ip.format) :
    (backendRoute (app.routes (loneState ingress port)) conn.dst).dial = [] := by
  have none : (loneState ingress port).balancer conn = none := by
    simp [ClusterState.balancer, ClusterState.balancedPorts, loneState, lonePort, ofDestination, other]
  refine backendRoute_of_unanswered isFamily notProxy ⟨?_, fun svc port' _ => rfl⟩
  intro svc address port' found
  rw [none] at found
  cases found

end Lone

/--
A connection to a load balancer address follows the route that was recorded for the address
exactly when the API writes the address as `IP.String` does. No route is recorded for the
proxy's own port.
-/
theorem followsRecorded_iff {app : App} {ingress : Str} {ip : Groups} {port : ℕ}
    (parsed : parseIP ingress = some ip) (isFamily : (!isV4 ip) ∈ app.families)
    (positive : 0 < port) (small : port < 65536) :
    FollowsRecorded app ingress port ↔ Canonical ingress ∨ port = app.port := by
  constructor
  · intro follows
    by_contra neither
    rw [not_or] at neither
    rcases neither with ⟨spelled, notProxy⟩
    -- The load balancer has one port and a NodePort, so its route is not empty.
    let conn : Packet := ⟨⟨ip, (parseIP_spec parsed).2.2.1, (parseIP_spec parsed).2.2.2⟩, port, small⟩
    have other : ingress ≠ conn.ip.format := fun same => spelled ⟨conn.ip, parsed, same.symm⟩
    have present : ∀ v6, Present (fun _ _ => some ⟨[], 0⟩) v6 := fun _ _ => rfl
    rcases exists_runSteps_value (app.steps (loneState ingress port)) .empty present with
      ⟨choices, value⟩
    have recorded := loadBalancers_lone parsed isFamily positive notProxy
    have applies : (Rule.redirectTo ingress (Str.itoa port) app.proxyPort).applies (fun _ => false)
        conn = true := by
      simp [Rule.applies, conn, parsed, atoi_port small]
    have found := follows Item (Decoder.ofItems [.service (lonePort ingress port)]) (str "snapshot")
      choices _ _ true (fun _ => false) conn value (by
        rw [← App.routes, recorded]
        exact joinHostPort_ne_nil _ _) applies
    have missing : (backendRoute (app.routes (loneState ingress port)) conn.dst).dial = [] :=
      backendRoute_lone isFamily notProxy other
    rw [← App.routes, recorded] at found
    rw [found] at missing
    exact joinHostPort_ne_nil _ _ missing
  · rintro (⟨address, parsed', canonical⟩ | rfl) Raw decoder raw choices tables routes succeeded
      isLocal conn returned recorded applies
    · simp only [Rule.applies, Bool.and_eq_true, beq_iff_eq] at applies
      have sameIP := IP.ext (Option.some.inj (applies.1.symm.trans parsed'))
      have samePort : port = conn.port := by
        have read := atoi_port small
        rw [applies.2] at read
        exact (Int.ofNat.inj (Option.some.inj read)).symm
      have key : joinHostPort ingress (Str.itoa port) = conn.dst := by
        rw [Packet.dst, sameIP, canonical, samePort]
      rw [key] at recorded ⊢
      rw [backendRoute_dst, if_pos recorded]
    · exact absurd (loadBalancers_proxyPort (isHost_of_parseIP parsed) returned) recorded

def sixPacket : Packet := ⟨⟨[64768, 0, 0, 0, 0, 0, 0, 3], rfl, by decide⟩, 80, Packet.http_lt⟩

theorem followsRecorded_six :
    Canonical (str "fd00::3") ∧ FollowsRecorded dualProxy (str "fd00::3") 80 := by
  have parsed : parseIP (str "fd00::3") = some sixPacket.ip.groups := by decide
  have canonical : Canonical (str "fd00::3") := ⟨sixPacket.ip, parsed, by decide⟩
  exact ⟨canonical, (followsRecorded_iff parsed (by decide) (by decide) (by decide)).mpr
    (Or.inl canonical)⟩

/-- A load balancer with an endpoint, whose address is written with capital letters. -/
def capitalItems : List Item :=
  [.service ⟨str "web", str "default", str "LoadBalancer", [⟨80, 30080, ⟨8080, [], true⟩⟩],
      [str "FD00::3"]⟩,
    .endpointSlice ⟨str "default", [(str "kubernetes.io/service-name", str "web")], str "IPv6",
      [⟨none, some 8080, some (str "TCP")⟩], [⟨[str "fd00:10::7"], str "n1", some true⟩]⟩]

/-- The route to the endpoint is recorded, and a connection that the rule redirects misses it. -/
theorem capital_missed :
    ∃ routes, ((dualProxy.addServiceRules (Decoder.ofItems capitalItems) (str "snapshot")
          .empty).exec machine [true, true] fun _ _ => some ⟨[], 0⟩).value = some (routes, true) ∧
      routes.loadBalancers (joinHostPort (str "FD00::3") (Str.itoa 80)) =
        ⟨str "[fd00:10::7]:8080", []⟩ ∧
      (Rule.redirectTo (str "FD00::3") (Str.itoa 80) dualProxy.proxyPort).applies (fun _ => false)
        sixPacket = true ∧
      backendRoute routes sixPacket.dst = ⟨[], []⟩ :=
  ⟨_, rfl, by decide, by decide, by decide⟩

end Kiac.EdgeProxy
