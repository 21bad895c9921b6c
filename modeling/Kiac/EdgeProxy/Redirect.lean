import Kiac.EdgeProxy.Sync
import Kiac.Text.AddressFormat

/-!
# What the chains redirect

The first rule of a chain that matches decides, and both chains first exempt the proxy's own port.
Once chains and routes are those of a snapshot, `KIAC-EDGE-OUTPUT`, which sees the connections that
start at the node, redirects the addresses of the load balancers, and `KIAC-EDGE` also the NodePorts
of the node.
-/

namespace Kiac.EdgeProxy

open Net

structure Packet where
  ip : IP
  port : ℕ
  port_lt : port < 65536

namespace Packet

theorem toNat_lt {number : ℤ} (small : 0 ≤ number ∧ number < 65536) : number.toNat < 65536 := by
  omega

theorem http_lt : 80 < 65536 := by decide

def v6 (packet : Packet) : Bool := !isV4 packet.ip.groups

/-- `originalDst`. -/
def dst (packet : Packet) : Str := joinHostPort packet.ip.format (Str.itoa packet.port)

end Packet

def Rule.applies (isLocal : IP → Bool) (packet : Packet) : Rule → Bool
  | returnPort dport => Str.atoi dport == some (packet.port : ℤ)
  | redirectLocal dports _ =>
    isLocal packet.ip && dports.1 ≤ packet.port && packet.port ≤ dports.2
  | redirectTo dst dport _ =>
    parseIP dst == some packet.ip.groups && Str.atoi dport == some (packet.port : ℤ)

def Rule.redirects : Rule → Bool
  | returnPort _ => false
  | _ => true

def redirected (isLocal : IP → Bool) (rules : List Rule) (packet : Packet) : Bool :=
  (rules.find? (Rule.applies isLocal packet)).any Rule.redirects

def App.chain (app : App) (tables : Tables) (v6 : Bool) (chain : Chain) : List Rule :=
  if v6 ∈ app.families then tables.rules v6 chain else []

def Enters (app : App) (isLocal : IP → Bool) (tables : Tables) (conn : Packet) : Prop :=
  redirected isLocal (app.chain tables conn.v6 .edge) conn = true ∨
    redirected isLocal (app.chain tables conn.v6 .output) conn = true

def resolve (address : Str) : Option Packet :=
  match splitHostPort address with
  | none => none
  | some (host, port) =>
    match parsed : parseIP host, Str.atoi port with
    | some groups, some number =>
      if small : 0 ≤ number ∧ number < 65536 then
        some ⟨⟨groups, (parseIP_spec parsed).2.2.1, (parseIP_spec parsed).2.2.2⟩, number.toNat,
          Packet.toNat_lt small⟩
      else none
    | _, _ => none

/-- The address and port of a load balancer in a family that is programmed; the proxy's own
port is left out. -/
def Intercepted (app : App) (state : ClusterState) (packet : Packet) : Prop :=
  packet.v6 ∈ app.families ∧ packet.port ≠ app.port ∧ 0 < packet.port ∧
    ∃ svc ∈ state.services, svc.type = str "LoadBalancer" ∧
      (∃ ingress ∈ svc.ingress, parseIP ingress = some packet.ip.groups) ∧
      ∃ port ∈ svc.ports, port.port = packet.port

def LocalNodePort (app : App) (isLocal : IP → Bool) (packet : Packet) : Prop :=
  packet.v6 ∈ app.families ∧ packet.port ≠ app.port ∧ isLocal packet.ip = true ∧
    app.nodePortRange.1 ≤ packet.port ∧ packet.port ≤ app.nodePortRange.2

section Texts

theorem isHost_format (ip : IP) : IsHost ip.format := isHost_of_parseIP (parseIP_format ip)

variable {port : ℕ} {host : Str} {packet : Packet}

theorem atoi_port (small : port < 65536) : Str.atoi (Str.itoa port) = some (port : ℤ) := by
  apply Str.atoi_itoa_ofNat
  unfold Str.maxInt
  omega

theorem resolve_joinHostPort (parsed : parseIP host = some packet.ip.groups) :
    resolve (joinHostPort host (Str.itoa packet.port)) = some packet := by
  have split := (isHost_of_parseIP parsed).splitHostPort_joinHostPort packet.port
  rcases packet with ⟨⟨groups, length_eq, bounded⟩, port, small⟩
  unfold resolve
  rw [split]
  simp only
  split
  · rename_i read number parsed' numbered
    rw [atoi_port small] at numbered
    obtain rfl := Option.some.inj numbered
    obtain rfl := Option.some.inj (parsed.symm.trans parsed')
    simp [small]
  · rename_i none
    exact absurd (atoi_port small) (none _ _ parsed)

theorem resolve_dst (packet : Packet) : resolve packet.dst = some packet :=
  resolve_joinHostPort (parseIP_format packet.ip)

theorem of_resolve_joinHostPort (isHost : IsHost host)
    (resolves : resolve (joinHostPort host (Str.itoa port)) = some packet) :
    parseIP host = some packet.ip.groups ∧ packet.port = port := by
  unfold resolve at resolves
  rw [isHost.splitHostPort_joinHostPort] at resolves
  simp only at resolves
  split at resolves
  · rename_i read number parsed numbered
    obtain rfl := Str.eq_of_atoi_formatNat numbered
    split at resolves
    · obtain rfl := Option.some.inj resolves
      exact ⟨parsed, by simp⟩
    · cases resolves
  · cases resolves

end Texts

section Chains

variable {app : App} {state : ClusterState} {isLocal : IP → Bool}

theorem atoi_proxyPort (app : App) : Str.atoi app.proxyPort = some (app.port : ℤ) :=
  atoi_port app.port_lt

variable {v6 : Bool} {chain : Chain} {packet : Packet}

variable {rule : Rule} {rules : List Rule}

theorem mem_serviceRules :
    rule ∈ app.serviceRules state v6 chain ↔
      v6 ∈ app.families ∧ ∃ svc ∈ state.services, svc.type = str "LoadBalancer" ∧
        ∃ ingress ∈ svc.ingress, (∃ ip, parseIP ingress = some ip ∧ v6 = !isV4 ip) ∧
          ∃ port ∈ svc.ports, (0 < port.port ∧ Str.itoa port.port ≠ app.proxyPort) ∧
            rule = .redirectTo ingress (Str.itoa port.port) app.proxyPort := by
  have step : rule ∈ app.serviceRules state v6 chain ↔
      RuleStep.append v6 chain rule ∈ app.steps state := by
    rw [App.serviceRules, List.mem_filterMap]
    constructor
    · rintro ⟨step, mem, appends⟩
      cases step with
      | append v6' chain' rule' =>
        simp only [RuleStep.appendedTo, Option.ite_none_right_eq_some,
          Option.some.injEq] at appends
        rcases appends with ⟨⟨rfl, rfl⟩, rfl⟩
        exact mem
      | _ => cases appends
    · intro mem
      exact ⟨_, mem, by simp [RuleStep.appendedTo]⟩
  rw [step]
  constructor
  · intro mem
    rcases List.mem_flatMap.mp mem with ⟨svc, isService, inService⟩
    rcases mem_serviceSteps.mp inService with ⟨port, _, inPort⟩ | ⟨balanced, ingress, isIngress, inIngress⟩
    · rcases mem_portSteps.mp inPort with ⟨_, _, allowed⟩ | ⟨_, _, _, eq⟩
      · simp [App.allowLocalTargets] at allowed
      · cases eq
    · rcases mem_ingressSteps.mp inIngress with ⟨ip, parsed, isFamily, port, isPort, inPort⟩
      rcases mem_ingressPortSteps.mp inPort with ⟨taken, eq | eq | eq⟩
      · cases eq
        exact ⟨isFamily, svc, isService, balanced, ingress, isIngress, ⟨ip, parsed, rfl⟩, port,
          isPort, taken, rfl⟩
      · cases eq
        exact ⟨isFamily, svc, isService, balanced, ingress, isIngress, ⟨ip, parsed, rfl⟩, port,
          isPort, taken, rfl⟩
      · cases eq
  · rintro ⟨isFamily, svc, isService, balanced, ingress, isIngress, ⟨ip, parsed, rfl⟩, port, isPort,
      taken, rfl⟩
    refine List.mem_flatMap.mpr ⟨svc, isService, mem_serviceSteps.mpr (Or.inr ⟨balanced, ingress,
      isIngress, mem_ingressSteps.mpr ⟨ip, parsed, isFamily, port, isPort, ?_⟩⟩)⟩
    cases chain with
    | edge => exact mem_ingressPortSteps.mpr ⟨taken, Or.inl rfl⟩
    | output => exact mem_ingressPortSteps.mpr ⟨taken, Or.inr (Or.inl rfl)⟩

theorem serviceRules_apply_iff (notProxy : packet.port ≠ app.port) :
    (∃ rule ∈ app.serviceRules state packet.v6 chain, rule.applies isLocal packet) ↔
      Intercepted app state packet := by
  constructor
  · rintro ⟨rule, mem, applies⟩
    rcases mem_serviceRules.mp mem with ⟨isFamily, svc, isService, balanced, ingress, isIngress, _,
      port, isPort, ⟨positive, _⟩, rfl⟩
    simp only [Rule.applies, Bool.and_eq_true, beq_iff_eq] at applies
    obtain ⟨n, number⟩ := Int.eq_ofNat_of_zero_le positive.le
    have same : (packet.port : ℤ) = n := by
      rw [number] at applies
      exact Str.eq_of_atoi_formatNat applies.2
    exact ⟨isFamily, notProxy, by omega, svc, isService, balanced, ⟨ingress, isIngress, applies.1⟩,
      port, isPort, number.trans same.symm⟩
  · rintro ⟨isFamily, _, positive, svc, isService, balanced, ⟨ingress, isIngress, parsed⟩, port,
      isPort, number⟩
    refine ⟨_, mem_serviceRules.mpr ⟨isFamily, svc, isService, balanced, ingress, isIngress,
      ⟨_, parsed, rfl⟩, port, isPort, ⟨by omega, ?_⟩, rfl⟩, ?_⟩
    · rw [number]
      intro same
      exact notProxy (Int.ofNat.inj (Str.itoa_injective same))
    · simp [Rule.applies, parsed, number, atoi_port packet.port_lt]

theorem redirected_iff (all : ∀ rule ∈ rules, rule.redirects) :
    redirected isLocal rules packet ↔
      ∃ rule ∈ rules, rule.applies isLocal packet := by
  unfold redirected
  constructor
  · intro found
    rcases Option.any_eq_true_iff_get _ _ |>.mp found with ⟨some', _⟩
    rcases Option.isSome_iff_exists.mp some' with ⟨rule, first⟩
    exact ⟨rule, List.mem_of_find?_eq_some first, List.find?_some first⟩
  · rintro ⟨rule, mem, applies⟩
    cases first : rules.find? (Rule.applies isLocal packet) with
    | none => exact absurd applies (List.find?_eq_none.mp first rule mem)
    | some other => exact all other (List.mem_of_find?_eq_some first)

theorem redirects_of_mem_serviceRules
    (mem : rule ∈ app.serviceRules state v6 chain) : rule.redirects := by
  rcases mem_serviceRules.mp mem with ⟨_, _, _, _, _, _, _, _, _, _, rfl⟩
  rfl

theorem redirected_return_cons :
    redirected isLocal (app.returnRule :: rules) packet ↔
      packet.port ≠ app.port ∧ redirected isLocal rules packet := by
  have applies : app.returnRule.applies isLocal packet = true ↔ packet.port = app.port := by
    simp only [App.returnRule, Rule.applies, atoi_proxyPort, beq_iff_eq, Option.some.injEq]
    omega
  unfold redirected
  rw [List.find?_cons]
  split
  · rename_i here
    simp [applies.mp here, App.returnRule, Rule.redirects]
  · rename_i other
    have differs : packet.port ≠ app.port := fun same => by simp [applies.mpr same] at other
    simp [differs]

variable {tables : Tables} {routes : RouteTable}

theorem chain_of_synced (synced : app.Synced state tables routes)
    (isFamily : v6 ∈ app.families) (chain : Chain) :
    app.chain tables v6 chain = app.base chain ++ app.serviceRules state v6 chain := by
  rw [App.chain, if_pos isFamily, synced.chains v6 isFamily]
  rfl

theorem redirected_output_iff (synced : app.Synced state tables routes) :
    redirected isLocal (app.chain tables packet.v6 .output) packet ↔
      Intercepted app state packet := by
  by_cases isFamily : packet.v6 ∈ app.families
  · rw [chain_of_synced synced isFamily]
    change redirected isLocal (app.returnRule :: app.serviceRules state packet.v6 .output) packet =
      true ↔ _
    rw [redirected_return_cons, redirected_iff fun _ => redirects_of_mem_serviceRules]
    constructor
    · rintro ⟨notProxy, applies⟩
      exact (serviceRules_apply_iff notProxy).mp applies
    · intro intercepted
      exact ⟨intercepted.2.1, (serviceRules_apply_iff intercepted.2.1).mpr intercepted⟩
  · rw [App.chain, if_neg isFamily]
    exact iff_of_false (by simp [redirected]) fun intercepted => isFamily intercepted.1

/-- The connections that enter the proxy are those to load balancer addresses and to
NodePorts of the node. -/
theorem enters_iff (synced : app.Synced state tables routes) {conn : Packet} :
    Enters app isLocal tables conn ↔
      Intercepted app state conn ∨ LocalNodePort app isLocal conn := by
  unfold Enters
  rw [redirected_output_iff synced]
  by_cases isFamily : conn.v6 ∈ app.families
  · rw [chain_of_synced synced isFamily]
    change redirected isLocal (app.returnRule :: app.nodePortRule ::
      app.serviceRules state conn.v6 .edge) conn = true ∨ _ ↔ _
    have all : ∀ rule ∈ app.nodePortRule :: app.serviceRules state conn.v6 .edge,
        rule.redirects = true := by
      intro rule mem
      rcases List.mem_cons.mp mem with rfl | later
      · rfl
      · exact redirects_of_mem_serviceRules later
    have nodePort : app.nodePortRule.applies isLocal conn = true ↔ isLocal conn.ip = true ∧
        app.nodePortRange.1 ≤ conn.port ∧ conn.port ≤ app.nodePortRange.2 := by
      simp [App.nodePortRule, Rule.applies, and_assoc]
    rw [redirected_return_cons, redirected_iff all]
    simp only [List.mem_cons, exists_eq_or_imp, nodePort]
    constructor
    · rintro (⟨notProxy, node | service⟩ | intercepted)
      · exact Or.inr ⟨isFamily, notProxy, node⟩
      · exact Or.inl ((serviceRules_apply_iff notProxy).mp service)
      · exact Or.inl intercepted
    · rintro (intercepted | ⟨_, notProxy, node⟩)
      · exact Or.inr intercepted
      · exact Or.inl ⟨notProxy, Or.inl node⟩
  · rw [App.chain, if_neg isFamily]
    constructor
    · rintro (impossible | intercepted)
      · simp [redirected] at impossible
      · exact Or.inl intercepted
    · rintro (intercepted | ⟨programmed, _⟩)
      · exact Or.inr intercepted
      · exact absurd programmed isFamily

end Chains

end Kiac.EdgeProxy
