import Kiac.ExternalWorker.Manager
import Mathlib

/-!
# The routes of an external worker

What the checks of `prepareExternalWorker`, `parseWorkerWireGuard` and `Join` mean together, address
by address.
-/

namespace Kiac.Worker

open Netip (Range)

structure Layout where
  api : BitVec 32
  node : BitVec 32
  endpoint : BitVec 32
  management : BitVec 32
  pod : Range
  service : Range
  routes : List Range

structure Layout.Describes (layout : Layout) (cfg : ExternalWorkerConfig) (p : Prepared)
    (managementIP : Str) : Prop where
  api : parseServer cfg.server = .ok (p.config.server, layout.api)
  node : Netip.parseUnicast4 cfg.nodeIP = some layout.node
  endpoint : parseEndpoint p.wg.endpoint = some layout.endpoint
  management : Netip.parseAddr managementIP >>= Netip.Addr.as4 = some layout.management
  pod : workerPrefix cfg.podCIDR = some layout.pod
  service : workerPrefix cfg.serviceCIDR = some layout.service
  routes : p.wg.allowedIPs = layout.routes

theorem managementBits_le : 24 ≤ 32 := by decide

def Layout.managementSubnet (layout : Layout) : Set (BitVec 32) :=
  (Range.mk layout.management 24 managementBits_le).addresses

/-- The tunnel leads to the whole cluster, but neither to its own endpoint nor to the management
network. -/
structure Layout.Sound (layout : Layout) : Prop where
  podRouted : ∀ addr ∈ layout.pod.addresses, ∃ route ∈ layout.routes, addr ∈ route.addresses
  serviceRouted :
    ∀ addr ∈ layout.service.addresses, ∃ route ∈ layout.routes, addr ∈ route.addresses
  apiRouted : ∃ route ∈ layout.routes, layout.api ∈ route.addresses
  endpointApart : ∀ route ∈ layout.routes, layout.endpoint ∉ route.addresses
  nodeApart : layout.node ∉ layout.pod.addresses ∧ layout.node ∉ layout.service.addresses
  disjoint : Disjoint layout.pod.addresses layout.service.addresses
  apiApart : layout.api ∉ layout.pod.addresses ∧ layout.api ∉ layout.service.addresses
  routesApart : ∀ route ∈ layout.routes, Disjoint route.addresses layout.managementSubnet
  nodeUnmanaged : layout.node ∉ layout.managementSubnet

theorem routed_of_covered {want : Range} {routes : List Range}
    (covered : workerRouteCovered want routes) :
    ∀ addr ∈ want.addresses, ∃ route ∈ routes, addr ∈ route.addresses := by
  intro addr mem
  simp only [workerRouteCovered, List.any_eq_true, Bool.and_eq_true, decide_eq_true_eq] at covered
  rcases covered with ⟨route, isRoute, le, contains⟩
  exact ⟨route, isRoute, Range.addresses_subset le contains mem⟩

theorem not_mem_addresses {range : Range} {addr : BitVec 32} (apart : range.contains addr = false) :
    addr ∉ range.addresses := by
  rw [Range.mem_addresses_iff, apart]
  exact Bool.false_ne_true

theorem management_of_check {state : ExternalWorkerState} {wg : WireGuard} {managementIP : Str}
    {node : BitVec 32} (isNode : Netip.parseAddr state.nodeIP >>= Netip.Addr.as4 = some node)
    (checked : checkManagement state wg managementIP = .ok ()) :
    ∃ management, Netip.parseAddr managementIP >>= Netip.Addr.as4 = some management ∧
      node ∉ (Range.mk management 24 (by decide)).addresses ∧
      ∀ route ∈ wg.allowedIPs,
        Disjoint route.addresses (Range.mk management 24 (by decide)).addresses := by
  unfold checkManagement at checked
  split at checked
  · cases checked
  · rename_i management isManagement
    simp only [isNode, Option.any_some] at checked
    split_ifs at checked with _ nodeInside routeInside
    refine ⟨management, isManagement, ?_, fun route isRoute => ?_⟩
    · rw [← Range.addresses_masked (Range.mk management 24 _)]
      exact not_mem_addresses (Bool.eq_false_iff.mpr nodeInside)
    · rw [← Range.addresses_masked (Range.mk management 24 _)]
      refine Set.disjoint_left.mpr fun _ => Range.not_mem_of_not_overlaps ?_
      by_contra overlaps
      exact routeInside (List.any_eq_true.mpr ⟨route, isRoute, Bool.eq_true_of_not_eq_false overlaps⟩)

/-- A configuration that is accepted, with a management address that passes the checks of `Join`,
gives a sound layout. -/
theorem routing_sound {files : Str → Option Str} {cfg : ExternalWorkerConfig} {p : Prepared}
    {id : OwnerBytes} {now : ℕ} {managementIP : Str}
    (prepared : prepareExternalWorker files cfg = .ok p)
    (checked : checkManagement (newExternalWorkerState p id now) p.wg managementIP = .ok ()) :
    ∃ layout : Layout, layout.Describes cfg p managementIP ∧ layout.Sound := by
  simp only [prepareExternalWorker, parseRanges, parsePeer, bind_eq_ok, demand_eq_ok, provided_eq_ok]
    at prepared
  rcases prepared with ⟨_, _, ⟨server, api⟩, isServer, node, isNode, _, _, _, _, version, _, _, _, _,
    _, _, _, _, _, _, _, _, ⟨pod, isPod, service, isService, _, apart, same⟩, _, _, _, _, raw, _, wg,
    ⟨peer, parsed, _, _, _, covered, isPeer⟩, isPrepared⟩
  cases same
  obtain rfl : peer = wg := Except.ok.inj isPeer
  cases isPrepared
  rcases parseWorkerWireGuard_eq_ok_iff.mp (mapError_eq_ok.mp parsed) with
    ⟨scan, endpoint, _, _, _, _, _, _, _, _, isEndpoint, isRoutes, _, _⟩
  simp only [List.all_cons, List.all_nil, Bool.and_true, Bool.and_eq_true] at covered
  simp only [Bool.not_eq_true', Bool.or_eq_false_iff] at apart
  rcases apart with ⟨⟨⟨⟨disjoint, podNode⟩, serviceNode⟩, podAPI⟩, serviceAPI⟩
  have node4 := (Option.filter_eq_some_iff.mp isNode).1
  rcases management_of_check node4 checked with ⟨management, isManagement, nodeUnmanaged, routesApart⟩
  refine ⟨⟨api, node, endpoint, management, pod, service, peer.allowedIPs⟩,
    ⟨isServer, isNode, isEndpoint, isManagement, isPod, isService, rfl⟩, ?_⟩
  exact
    { podRouted := routed_of_covered covered.2.1
      serviceRouted := routed_of_covered covered.2.2
      apiRouted := routed_of_covered covered.1 api (Range.mem_addresses_iff.mpr (beq_self_eq_true _))
      endpointApart := fun route isRoute =>
        not_mem_addresses (endpoint_not_mem isRoutes (by simp) route isRoute)
      nodeApart := ⟨not_mem_addresses podNode, not_mem_addresses serviceNode⟩
      disjoint := Set.disjoint_left.mpr fun _ => Range.not_mem_of_not_overlaps disjoint
      apiApart := ⟨not_mem_addresses podAPI, not_mem_addresses serviceAPI⟩
      routesApart
      nodeUnmanaged }

theorem routing_sound_sample : ∃ p, prepareExternalWorker sampleFiles sampleConfig = .ok p ∧
    ∃ layout : Layout, layout.Describes sampleConfig p (str "192.168.64.5") ∧ layout.Sound := by
  have accepted : (match prepareExternalWorker sampleFiles sampleConfig with
      | .ok p => (checkManagement (newExternalWorkerState p sampleOwner 1) p.wg
          (str "192.168.64.5")).isOk
      | .error _ => false) = true := by decide +kernel
  cases prepared : prepareExternalWorker sampleFiles sampleConfig with
  | error fault => rw [prepared] at accepted; cases accepted
  | ok p =>
    rw [prepared] at accepted
    cases checked : checkManagement (newExternalWorkerState p sampleOwner 1) p.wg
      (str "192.168.64.5") with
    | error err => simp [checked, Except.isOk, Except.toBool] at accepted
    | ok _ => exact ⟨p, rfl, routing_sound prepared checked⟩

end Kiac.Worker
