import Kiac.EdgeProxy.Rules

/-!
# What the route table says

The route table is written by the statements of the loops over the Services. This file
reads it back: the allowed targets are those that some statement allows, and a route is
the one of the last statement that set its key.
-/

namespace Kiac.EdgeProxy

def RuleStep.loadBalancerAt (key : Str) : RuleStep → Option BackendRoute
  | .loadBalancer key' route => if key' = key then some route else none
  | _ => none

def RuleStep.nodePortAt (key : ℤ × Bool) : RuleStep → Option BackendRoute
  | .nodePort key' route => if key' = key then some route else none
  | _ => none

theorem allowedTargets_foldl (steps : List RuleStep) (routes : RouteTable) (target : Str) :
    (steps.foldl RuleStep.record routes).allowedTargets target ↔
      routes.allowedTargets target ∨ RuleStep.allow target ∈ steps := by
  induction steps generalizing routes with
  | nil => simp
  | cons step steps ih =>
    rw [List.foldl_cons, ih, List.mem_cons]
    cases step with
    | allow other =>
      by_cases same : target = other
      · simp [RuleStep.record, same]
      · simp [RuleStep.record, same]
    | _ => simp [RuleStep.record]

theorem loadBalancers_foldl (steps : List RuleStep) (routes : RouteTable) (key : Str) :
    (steps.foldl RuleStep.record routes).loadBalancers key =
      ((steps.filterMap (RuleStep.loadBalancerAt key)).getLast?).getD (routes.loadBalancers key) := by
  induction steps generalizing routes with
  | nil => rfl
  | cons step steps ih =>
    rw [List.foldl_cons, ih]
    cases step with
    | loadBalancer other route =>
      by_cases same : other = key
      · have found : RuleStep.loadBalancerAt key (.loadBalancer other route) = some route :=
          if_pos same
        rw [List.filterMap_cons_some found, List.getLast?_cons, Option.getD_some]
        simp [RuleStep.record, same]
      · have absent : RuleStep.loadBalancerAt key (.loadBalancer other route) = none :=
          if_neg same
        rw [List.filterMap_cons_none absent]
        simp [RuleStep.record, Ne.symm same]
    | _ => rfl

theorem nodePorts_foldl (steps : List RuleStep) (routes : RouteTable) (key : ℤ × Bool) :
    (steps.foldl RuleStep.record routes).nodePorts key =
      ((steps.filterMap (RuleStep.nodePortAt key)).getLast?).getD (routes.nodePorts key) := by
  induction steps generalizing routes with
  | nil => rfl
  | cons step steps ih =>
    rw [List.foldl_cons, ih]
    cases step with
    | nodePort other route =>
      by_cases same : other = key
      · have found : RuleStep.nodePortAt key (.nodePort other route) = some route := if_pos same
        rw [List.filterMap_cons_some found, List.getLast?_cons, Option.getD_some]
        simp [RuleStep.record, same]
      · have absent : RuleStep.nodePortAt key (.nodePort other route) = none := if_neg same
        rw [List.filterMap_cons_none absent]
        simp [RuleStep.record, Ne.symm same]
    | _ => rfl

section Steps

variable {app : App} {state : ClusterState}

variable {v6 : Bool} {target ingress : Str} {port : ServicePort} {route : BackendRoute}

theorem mem_families : v6 ∈ app.families ↔ (v6 → app.hasIPv6) := by
  unfold App.families
  cases v6 <;> cases app.hasIPv6 <;> simp

theorem mem_allowLocalTargets {endpoints : List EndpointTarget} :
    RuleStep.allow target ∈ app.allowLocalTargets endpoints ↔
      ⟨target, app.nodeName⟩ ∈ endpoints := by
  simp only [App.allowLocalTargets, List.mem_map, List.mem_filter, beq_iff_eq, RuleStep.allow.injEq]
  constructor
  · rintro ⟨ep, ⟨mem, here⟩, rfl⟩
    rwa [← here]
  · intro mem
    exact ⟨_, ⟨mem, rfl⟩, rfl⟩

variable {svc : ServiceItem} {step : RuleStep}

theorem mem_ingressSteps :
    step ∈ app.ingressSteps state svc ingress ↔
      ∃ ip, Net.parseIP ingress = some ip ∧ (!Net.isV4 ip) ∈ app.families ∧
        ∃ port ∈ svc.ports, step ∈ app.ingressPortSteps state svc ingress (!Net.isV4 ip) port := by
  unfold App.ingressSteps
  split
  · rename_i unparsed
    simp [unparsed]
  · rename_i ip parsed
    simp only [parsed, Option.some.injEq, exists_eq_left', mem_families]
    split
    · rename_i unprogrammed
      simp_all
    · rename_i programmed
      simp_all

theorem mem_serviceSteps :
    step ∈ app.serviceSteps state svc ↔
      (∃ port ∈ svc.ports, step ∈ app.portSteps state svc port) ∨
        svc.type = str "LoadBalancer" ∧
          ∃ ingress ∈ svc.ingress, step ∈ app.ingressSteps state svc ingress := by
  unfold App.serviceSteps
  by_cases balanced : svc.type = str "LoadBalancer" <;> simp [balanced]

theorem mem_portSteps :
    step ∈ app.portSteps state svc port ↔
      (∃ v6 ∈ app.families, step ∈ app.allowLocalTargets (state.matchingEndpoints svc port v6)) ∨
        0 < port.nodePort ∧ ∃ v6 ∈ app.families, step = .nodePort (port.nodePort, v6)
          (state.routeFor app.nodeName app.proxyPort svc port v6) := by
  unfold App.portSteps
  by_cases positive : 0 < port.nodePort <;> simp [positive, eq_comm]

theorem mem_ingressPortSteps :
    step ∈ app.ingressPortSteps state svc ingress v6 port ↔
      (0 < port.port ∧ Str.itoa port.port ≠ app.proxyPort) ∧
        (step = .append v6 .edge (.redirectTo ingress (Str.itoa port.port) app.proxyPort) ∨
          step = .append v6 .output (.redirectTo ingress (Str.itoa port.port) app.proxyPort) ∨
          step = .loadBalancer (Net.joinHostPort ingress (Str.itoa port.port))
            (app.loadBalancerRoute state svc ingress v6 port)) := by
  unfold App.ingressPortSteps
  split
  · rename_i skipped
    rw [← not_lt] at skipped
    refine iff_of_false List.not_mem_nil ?_
    rintro ⟨⟨positive, other⟩, _⟩
    exact skipped.elim (fun absent => absent positive) other
  · rename_i taken
    simp only [not_or, not_le] at taken
    simp [taken]

structure IsPort (app : App) (state : ClusterState) (svc : ServiceItem) (port : ServicePort)
    (v6 : Bool) : Prop where
  service : svc ∈ state.services
  port : port ∈ svc.ports
  family : v6 ∈ app.families

/-- The targets that the snapshot places on this node: the addresses of ready TCP endpoints
behind a port of some Service. -/
def LocalTarget (app : App) (state : ClusterState) (target : Str) : Prop :=
  ∃ svc port v6, IsPort app state svc port v6 ∧
    ReadyEndpoint state svc port v6 ⟨target, app.nodeName⟩

theorem allow_mem_steps :
    RuleStep.allow target ∈ app.steps state ↔ LocalTarget app state target := by
  have noIngress : ∀ svc ingress, RuleStep.allow target ∉ app.ingressSteps state svc ingress := by
    intro svc ingress mem
    rcases mem_ingressSteps.mp mem with ⟨ip, _, _, port, _, inPort⟩
    simp [mem_ingressPortSteps] at inPort
  simp only [App.steps, List.mem_flatMap, mem_serviceSteps, noIngress, and_false, exists_const,
    or_false, mem_portSteps, reduceCtorEq, mem_allowLocalTargets, mem_matchingEndpoints]
  constructor
  · rintro ⟨svc, isService, port, isPort, v6, isFamily, ready⟩
    exact ⟨svc, port, v6, ⟨isService, isPort, isFamily⟩, ready⟩
  · rintro ⟨svc, port, v6, ⟨isService, isPort, isFamily⟩, ready⟩
    exact ⟨svc, isService, port, isPort, v6, isFamily, ready⟩

theorem allowedTargets_routes (target : Str) :
    (app.routes state).allowedTargets target ↔ LocalTarget app state target := by
  rw [App.routes, allowedTargets_foldl, allow_mem_steps]
  simp [RouteTable.empty]

theorem nodePort_mem_steps {key : ℤ × Bool} (mem : RuleStep.nodePort key route ∈ app.steps state) :
    ∃ svc port, IsPort app state svc port key.2 ∧
      route = state.routeFor app.nodeName app.proxyPort svc port key.2 := by
  rcases List.mem_flatMap.mp mem with ⟨svc, isService, inService⟩
  rcases mem_serviceSteps.mp inService with ⟨port, isPort, inPort⟩ | ⟨_, ingress, _, inIngress⟩
  · rcases mem_portSteps.mp inPort with ⟨v6, _, allowed⟩ | ⟨_, v6, isFamily, eq⟩
    · simp [App.allowLocalTargets] at allowed
    · cases eq
      exact ⟨svc, port, ⟨isService, isPort, isFamily⟩, rfl⟩
  · rcases mem_ingressSteps.mp inIngress with ⟨ip, _, _, port, _, inPort⟩
    simp [mem_ingressPortSteps] at inPort

theorem loadBalancer_mem_steps {key : Str}
    (mem : RuleStep.loadBalancer key route ∈ app.steps state) :
    ∃ svc port ingress v6, IsPort app state svc port v6 ∧
      (∃ ip, Net.parseIP ingress = some ip ∧ v6 = !Net.isV4 ip) ∧
      Str.itoa port.port ≠ app.proxyPort ∧
      key = Net.joinHostPort ingress (Str.itoa port.port) ∧
      route = app.loadBalancerRoute state svc ingress v6 port := by
  rcases List.mem_flatMap.mp mem with ⟨svc, isService, inService⟩
  rcases mem_serviceSteps.mp inService with ⟨port, isPort, inPort⟩ | ⟨_, ingress, _, inIngress⟩
  · rcases mem_portSteps.mp inPort with ⟨v6, _, allowed⟩ | ⟨_, v6, isFamily, eq⟩
    · simp [App.allowLocalTargets] at allowed
    · cases eq
  · rcases mem_ingressSteps.mp inIngress with ⟨ip, parsed, isFamily, port, isPort, inPort⟩
    rcases mem_ingressPortSteps.mp inPort with ⟨⟨_, other⟩, eq | eq | eq⟩
    · cases eq
    · cases eq
    · cases eq
      exact ⟨svc, port, ingress, _, ⟨isService, isPort, isFamily⟩, ⟨ip, parsed, rfl⟩, other, rfl,
        rfl⟩

end Steps

variable {routes : RouteTable} {choices : List Bool} {tables : Tables}

theorem runSteps_value {steps : List RuleStep} {final : RouteTable}
    (returned : ((runSteps steps routes).exec machine choices tables).value = some (final, true)) :
    final = steps.foldl RuleStep.record routes := by
  induction steps generalizing routes choices tables with
  | nil =>
    cases returned
    rfl
  | cons step steps ih =>
    cases step with
    | append v6 chain rule =>
      cases choices with
      | nil => cases returned
      | cons works choices =>
        simp only [runSteps, Prog.perform_bind, Prog.exec_call_cons] at returned
        split at returned
        · exact ih returned
        · cases returned
    | _ => exact ih returned

theorem addServiceRules_value {Raw : Type} {app : App} {decoder : Decoder Raw} {raw : Str}
    (processed : ((app.addServiceRules decoder raw .empty).exec machine choices tables).value =
      some (routes, true)) :
    ∃ state, parseClusterState decoder raw = some state ∧ routes = app.routes state := by
  unfold App.addServiceRules at processed
  split at processed
  · cases processed
  · rename_i state parsed
    exact ⟨state, parsed, runSteps_value processed⟩

end Kiac.EdgeProxy
