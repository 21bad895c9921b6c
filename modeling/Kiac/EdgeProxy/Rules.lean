import Kiac.EdgeProxy.Snapshot
import Kiac.Program.Hoare

/-!
# Redirect rules and routes

`syncRules` brings two chains of each family's nat table and the route table in memory in line with
the snapshot. The statements of the loops over the Services are listed as steps, which are then run
until an iptables command fails. A command that fails leaves the table as it was.
-/

namespace Kiac.EdgeProxy

inductive Chain where
  | edge
  | output
deriving DecidableEq, Repr

inductive Rule where
  /-- `--dport P -j RETURN` -/
  | returnPort (dport : Str)
  /-- `-m addrtype --dst-type LOCAL --dport FIRST:LAST -j REDIRECT --to-ports P` -/
  | redirectLocal (dports : ℕ × ℕ) (toPorts : Str)
  /-- `-d IP --dport P -j REDIRECT --to-ports P'` -/
  | redirectTo (dst dport toPorts : Str)
deriving DecidableEq, Repr

structure ChainState where
  rules : List Rule
  jumps : ℕ

abbrev Tables := Bool → Chain → Option ChainState

def Tables.set (tables : Tables) (v6 : Bool) (chain : Chain) (state : ChainState) : Tables :=
  Function.update tables v6 (Function.update (tables v6) chain (some state))

def Tables.rules (tables : Tables) (v6 : Bool) (chain : Chain) : List Rule :=
  ((tables v6 chain).map ChainState.rules).getD []

inductive Command where
  | newChain (chain : Chain)
  | checkJump (chain : Chain)
  | insertJump (chain : Chain)
  | flush (chain : Chain)
  | append (chain : Chain) (rule : Rule)
  | check (chain : Chain) (rule : Rule)

/-- One run of `iptables` or `ip6tables`. -/
structure Ipt where
  v6 : Bool
  command : Command

abbrev Ipt.Ans (_ : Ipt) : Type := Bool

def Command.effect (v6 : Bool) (tables : Tables) : Command → Tables × Bool
  | .newChain chain =>
    match tables v6 chain with
    | some _ => (tables, false)
    | none => (tables.set v6 chain ⟨[], 0⟩, true)
  | .checkJump chain =>
    match tables v6 chain with
    | some state => (tables, state.jumps != 0)
    | none => (tables, false)
  | .insertJump chain =>
    match tables v6 chain with
    | some state => (tables.set v6 chain { state with jumps := state.jumps + 1 }, true)
    | none => (tables, false)
  | .flush chain =>
    match tables v6 chain with
    | some state => (tables.set v6 chain { state with rules := [] }, true)
    | none => (tables, false)
  | .append chain rule =>
    match tables v6 chain with
    | some state => (tables.set v6 chain { state with rules := state.rules ++ [rule] }, true)
    | none => (tables, false)
  | .check chain rule => (tables, (tables.rules v6 chain).contains rule)

def step (op : Ipt) (works : Bool) (tables : Tables) : Tables × op.Ans :=
  if works then op.command.effect op.v6 tables else (tables, false)

def machine : Machine Ipt Ipt.Ans Tables Bool := ⟨step⟩

abbrev Commands (α : Type) := ExceptT Unit (Prog Ipt Ipt.Ans) α

/-- `ipt`: a command whose failure is an error. -/
def ipt (v6 : Bool) (command : Command) : Commands Unit :=
  ExceptT.mk (Prog.perform ⟨v6, command⟩ >>= fun succeeded =>
    Prog.done (if succeeded then .ok () else .error ()))

/-- `iptOK`: whether a command succeeds. -/
def iptOK (v6 : Bool) (command : Command) : Commands Bool :=
  ExceptT.mk (Prog.perform ⟨v6, command⟩ >>= fun succeeded => Prog.done (.ok succeeded))

structure App where
  nodeName : Str
  port : ℕ
  nodePortRange : ℕ × ℕ
  hasIPv6 : Bool
  tunnelToken : Str
  port_pos : 0 < port
  port_lt : port < 65536

namespace App

variable (app : App)

def proxyPort : Str := Str.itoa app.port

def families : List Bool := if app.hasIPv6 then [false, true] else [false]

def ensureJump (v6 : Bool) (chain : Chain) : Commands Unit := do
  let present ← iptOK v6 (.checkJump chain)
  if present then pure () else ipt v6 (.insertJump chain)

def ensureHookFor (v6 : Bool) : Commands Unit := do
  let _ ← iptOK v6 (.newChain .edge)
  let _ ← iptOK v6 (.newChain .output)
  ensureJump v6 .edge
  ensureJump v6 .output

def ensureHook : Commands Unit := app.families.forM ensureHookFor

def returnRule : Rule := .returnPort app.proxyPort

def nodePortRule : Rule := .redirectLocal app.nodePortRange app.proxyPort

def baseRules (v6 : Bool) : Commands Unit := do
  ipt v6 (.flush .edge)
  ipt v6 (.flush .output)
  ipt v6 (.append .edge app.returnRule)
  ipt v6 (.append .output app.returnRule)
  ipt v6 (.append .edge app.nodePortRule)

/-- The checks of `rulesMissing` for one family. -/
def baseChecks (v6 : Bool) : List (Bool × Chain × Rule) :=
  [(v6, .edge, app.returnRule), (v6, .output, app.returnRule), (v6, .edge, app.nodePortRule)]

end App

def anyMissing : List (Bool × Chain × Rule) → Commands Bool
  | [] => pure false
  | (v6, chain, rule) :: checks => do
      let present ← iptOK v6 (.check chain rule)
      if present then anyMissing checks else pure true

def App.rulesMissing (app : App) : Commands Bool := anyMissing (app.families.flatMap app.baseChecks)

structure RouteTable where
  loadBalancers : Str → BackendRoute
  nodePorts : ℤ × Bool → BackendRoute
  allowedTargets : Str → Bool

def RouteTable.empty : RouteTable := ⟨fun _ => ⟨[], []⟩, fun _ => ⟨[], []⟩, fun _ => false⟩

inductive RuleStep where
  | allow (target : Str)
  | nodePort (key : ℤ × Bool) (route : BackendRoute)
  | append (v6 : Bool) (chain : Chain) (rule : Rule)
  | loadBalancer (key : Str) (route : BackendRoute)

def RuleStep.appendedTo (v6 : Bool) (chain : Chain) : RuleStep → Option Rule
  | append v6' chain' rule => if v6' = v6 ∧ chain' = chain then some rule else none
  | _ => none

def RuleStep.record (routes : RouteTable) : RuleStep → RouteTable
  | allow target =>
    { routes with allowedTargets := Function.update routes.allowedTargets target true }
  | nodePort key route => { routes with nodePorts := Function.update routes.nodePorts key route }
  | append _ _ _ => routes
  | loadBalancer key route =>
    { routes with loadBalancers := Function.update routes.loadBalancers key route }

namespace App

variable (app : App) (state : ClusterState)

/-- `allowLocalTargets`. -/
def allowLocalTargets (endpoints : List EndpointTarget) : List RuleStep :=
  (endpoints.filter fun ep => ep.nodeName == app.nodeName).map fun ep => .allow ep.address

def portSteps (svc : ServiceItem) (port : ServicePort) : List RuleStep :=
  (app.families.flatMap fun v6 => app.allowLocalTargets (state.matchingEndpoints svc port v6)) ++
    if 0 < port.nodePort then
      app.families.map fun v6 =>
        .nodePort (port.nodePort, v6) (state.routeFor app.nodeName app.proxyPort svc port v6)
    else []

/-- The route of a load balancer address: without an endpoint, the NodePort is dialled. -/
def loadBalancerRoute (svc : ServiceItem) (ingress : Str) (v6 : Bool) (port : ServicePort) :
    BackendRoute :=
  let route := state.routeFor app.nodeName app.proxyPort svc port v6
  if route.dial = [] ∧ 0 < port.nodePort then
    { route with dial := Net.joinHostPort ingress (Str.itoa port.nodePort) }
  else route

def ingressPortSteps (svc : ServiceItem) (ingress : Str) (v6 : Bool) (port : ServicePort) :
    List RuleStep :=
  if port.port ≤ 0 ∨ Str.itoa port.port = app.proxyPort then []
  else
    let rule := Rule.redirectTo ingress (Str.itoa port.port) app.proxyPort
    [.append v6 .edge rule, .append v6 .output rule,
      .loadBalancer (Net.joinHostPort ingress (Str.itoa port.port))
        (app.loadBalancerRoute state svc ingress v6 port)]

def ingressSteps (svc : ServiceItem) (ingress : Str) : List RuleStep :=
  match Net.parseIP ingress with
  | none => []
  | some ip =>
    let v6 := !Net.isV4 ip
    if v6 && !app.hasIPv6 then []
    else svc.ports.flatMap (app.ingressPortSteps state svc ingress v6)

def serviceSteps (svc : ServiceItem) : List RuleStep :=
  svc.ports.flatMap (app.portSteps state svc) ++
    if svc.type ≠ str "LoadBalancer" then []
    else svc.ingress.flatMap (app.ingressSteps state svc)

def steps : List RuleStep := state.services.flatMap (app.serviceSteps state)

end App

/-- Runs the statements until a command fails; the routes are kept in either case. -/
def runSteps : List RuleStep → RouteTable → Prog Ipt Ipt.Ans (RouteTable × Bool)
  | [], routes => Prog.done (routes, true)
  | .append v6 chain rule :: rest, routes =>
    Prog.perform ⟨v6, .append chain rule⟩ >>= fun succeeded =>
      if succeeded then runSteps rest routes else Prog.done (routes, false)
  | .allow target :: rest, routes => runSteps rest (RuleStep.record routes (.allow target))
  | .nodePort key route :: rest, routes =>
    runSteps rest (RuleStep.record routes (.nodePort key route))
  | .loadBalancer key route :: rest, routes =>
    runSteps rest (RuleStep.record routes (.loadBalancer key route))

def App.addServiceRules {Raw : Type} (app : App) (decoder : Decoder Raw) (raw : Str)
    (routes : RouteTable) : Prog Ipt Ipt.Ans (RouteTable × Bool) :=
  match parseClusterState decoder raw with
  | none => Prog.done (routes, false)
  | some state => runSteps (app.steps state) routes

structure Memory where
  lastSnapshot : Str
  routes : RouteTable

/-- `clusterSnapshot`, for the output of `kubectl` or its failure. -/
def clusterSnapshot (kubectl : Option Str) : Str := kubectl.getD []

namespace App

variable {Raw : Type} (app : App) (decoder : Decoder Raw)

/-- Rewrites chains and routes for a snapshot; an error of a Service's rules is only logged. -/
def rewrite (snapshot : Str) : Commands Memory := do
  app.families.forM app.baseRules
  if snapshot = [] then pure ⟨snapshot, .empty⟩
  else do
    let (routes, _) ← ExceptT.lift (app.addServiceRules decoder snapshot .empty)
    pure ⟨snapshot, routes⟩

def upToDate (memory : Memory) (snapshot : Str) : Commands Bool :=
  if snapshot = memory.lastSnapshot then do
    let missing ← app.rulesMissing
    pure !missing
  else pure false

def syncRules (memory : Memory) (kubectl : Option Str) : Commands Memory := do
  app.ensureHook
  let skip ← app.upToDate memory (clusterSnapshot kubectl)
  if skip then pure memory else app.rewrite decoder (clusterSnapshot kubectl)

def serviceRules (state : ClusterState) (v6 : Bool) (chain : Chain) : List Rule :=
  (app.steps state).filterMap (RuleStep.appendedTo v6 chain)

def base : Chain → List Rule
  | .edge => [app.returnRule, app.nodePortRule]
  | .output => [app.returnRule]

def rules (state : ClusterState) (v6 : Bool) (chain : Chain) : List Rule :=
  app.base chain ++ app.serviceRules state v6 chain

def routes (state : ClusterState) : RouteTable := (app.steps state).foldl RuleStep.record .empty

structure Synced (state : ClusterState) (tables : Tables) (routes : RouteTable) : Prop where
  chains : ∀ v6 ∈ app.families, ∀ chain, tables.rules v6 chain = app.rules state v6 chain
  routes_eq : routes = app.routes state

end App

end Kiac.EdgeProxy
