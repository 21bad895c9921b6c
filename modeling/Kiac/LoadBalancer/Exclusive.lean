import Kiac.LoadBalancer.Script
import Mathlib.Logic.Relation

/-!
# No address and port pair is assigned twice

The statuses of two Services never share an address and port pair. During a pass this
is carried by a second invariant: all pairs of eligible addresses that some status
holds are in the used file. An address that is not eligible cannot be chosen, and
whoever still holds it claims it in the first pass in which it is eligible again.
-/

namespace Kiac.LoadBalancer

def Exclusive (services : Services) : Prop :=
  ∀ a ∈ services.all, ∀ b ∈ services.all, a.key ≠ b.key →
    ∀ ip port, a.Holds ip port → ¬ b.Holds ip port

def Claimed (nodes : List NodeRow) (services : List Service) (used : Used) : Prop :=
  ∀ svc ∈ services, ∀ ip port, svc.Holds ip port → isEligibleIP nodes ip = true →
    (ip, port) ∈ used

variable {ip : Str} {ports : List Str} {used : Used} {ips : List Str} {nodes : List NodeRow}
  {view : View} {svc : Service} {services : Services}

variable {pair : Str × Str} {family : Family} {acc : Assignment} {key : Str × Str}
  {assignment : Assignment}

theorem mem_claim :
    pair ∈ claim ip ports used ↔ pair ∈ used ∨ pair.1 = ip ∧ pair.2 ∈ ports := by
  rcases pair with ⟨a, p⟩
  simp only [claim, List.mem_append, List.mem_map, Prod.mk.injEq]
  constructor
  · rintro (old | ⟨port, mem, rfl, rfl⟩)
    · exact Or.inl old
    · exact Or.inr ⟨rfl, mem⟩
  · rintro (old | ⟨rfl, mem⟩)
    · exact Or.inl old
    · exact Or.inr ⟨p, mem, rfl, rfl⟩

theorem mem_foldl_claim :
    pair ∈ ips.foldl (fun used cur => claim cur ports used) used ↔
      pair ∈ used ∨ pair.1 ∈ ips ∧ pair.2 ∈ ports := by
  induction ips generalizing used with
  | nil => simp
  | cons ip ips ih =>
    rw [List.foldl_cons, ih, mem_claim, List.mem_cons]
    tauto

theorem conflicts_eq_false
    (free : conflicts ip ports used = false) : ∀ port ∈ ports, (ip, port) ∉ used := by
  intro port mem taken
  simp only [conflicts, List.any_eq_false, List.contains_iff_mem] at free
  exact free port mem taken

theorem isEligibleIP_nodeAddr {name : Str}
    (printed : (nodeAddr nodes name family).isEmpty = false) :
    isEligibleIP nodes (nodeAddr nodes name family) := by
  unfold nodeAddr at printed ⊢
  split at printed
  · rename_i row found
    split at printed
    · simp at printed
    · rename_i present
      rw [if_neg present]
      refine List.any_eq_true.mpr ⟨row, List.mem_of_find?_eq_some found, ?_⟩
      cases family <;> simp [NodeRow.addr]
  · simp at printed

theorem chooseAddr_spec (chosen : chooseAddr view nodes svc family used = some ip) :
    isEligibleIP nodes ip ∧ ∀ port ∈ svc.ports, (ip, port) ∉ used := by
  rcases List.exists_of_findSome?_eq_some chosen with ⟨cand, _, picked⟩
  simp only at picked
  split at picked
  · simp at picked
  · rename_i printed
    split at picked
    · simp at picked
    · rename_i free
      obtain rfl := Option.some.inj picked
      exact ⟨isEligibleIP_nodeAddr (by simpa using printed), conflicts_eq_false (by simpa using free)⟩

/--
What an assignment may contain, seen from the claims at its beginning: each address is
eligible and claimed by now, and it is one of the old addresses of the Service unless all
its pairs were free.
-/
structure Sound (nodes : List NodeRow) (svc : Service) (used : Used)
    (assignment : Assignment) : Prop where
  grows : used ⊆ assignment.used
  claimed : ∀ ip ∈ assignment.wantIPs, ∀ port ∈ svc.ports, (ip, port) ∈ assignment.used
  oldOrFree : ∀ ip ∈ assignment.wantIPs, ip ∈ svc.ingress ∨
    isEligibleIP nodes ip = true ∧ ∀ port ∈ svc.ports, (ip, port) ∉ used

theorem Sound.add (sound : Sound nodes svc used acc) {keep : Str} (changed : Bool)
    (allowed : keep ∈ svc.ingress ∨
      isEligibleIP nodes keep ∧ ∀ port ∈ svc.ports, (keep, port) ∉ acc.used) :
    Sound nodes svc used ⟨acc.wantIPs ++ [keep], changed, claim keep svc.ports acc.used⟩ where
  grows := fun _ mem => mem_claim.mpr (Or.inl (sound.grows mem))
  claimed := by
    intro ip mem port isPort
    rcases List.mem_append.mp mem with old | new
    · exact mem_claim.mpr (Or.inl (sound.claimed ip old port isPort))
    · exact mem_claim.mpr (Or.inr ⟨List.mem_singleton.mp new, isPort⟩)
  oldOrFree := by
    intro ip mem
    rcases List.mem_append.mp mem with old | new
    · exact sound.oldOrFree ip old
    · obtain rfl := List.mem_singleton.mp new
      rcases allowed with kept | ⟨eligible, free⟩
      · exact Or.inl kept
      · exact Or.inr ⟨eligible, fun port isPort taken => free port isPort (sound.grows taken)⟩

theorem sound_assignFamily (sound : Sound nodes svc used acc) (family : Family) :
    Sound nodes svc used (assignFamily view nodes svc acc family) := by
  unfold assignFamily
  split
  · rename_i keep found
    exact sound.add _ (Or.inl (List.mem_of_find?_eq_some found))
  · split
    · rename_i keep chosen
      exact sound.add _ (Or.inr (chooseAddr_spec chosen))
    · exact sound

theorem sound_assign (view : View) (nodes : List NodeRow) (svc : Service) (used : Used) :
    Sound nodes svc used (assign view nodes svc used) := by
  have start : Sound nodes svc used ⟨[], false, used⟩ :=
    ⟨List.Subset.refl used, fun _ mem => absurd mem List.not_mem_nil,
      fun _ mem => absurd mem List.not_mem_nil⟩
  exact List.foldlRecOn _ _ start fun acc sound family _ => sound_assignFamily sound family

theorem mem_setIngress :
    svc ∈ (services.setIngress key ips).all ↔
      ∃ old ∈ services.all, svc = if old.key = key then { old with ingress := ips } else old := by
  simp [Services.setIngress, Services.modify, eq_comm]

theorem eq_of_key_eq {a b : Service} (memA : a ∈ services.all)
    (memB : b ∈ services.all) (same : a.key = b.key) : a = b :=
  List.inj_on_of_nodup_map services.distinct memA memB same

theorem Exclusive.setIngress (exclusive : Exclusive services)
    (claimed : Claimed nodes services.all used) (mem : svc ∈ services.all)
    (sound : Sound nodes svc used assignment) :
    Exclusive (services.setIngress svc.key assignment.wantIPs) := by
  -- A pair of the new status is not one of another Service: it is an old pair, or it was free.
  have separate : ∀ other ∈ services.all, other.key ≠ svc.key → ∀ ip ∈ assignment.wantIPs,
      ∀ port ∈ svc.ports, ¬ other.Holds ip port := by
    intro other otherMem differs ip wanted port isPort holds
    rcases sound.oldOrFree ip wanted with kept | ⟨eligible, free⟩
    · exact exclusive svc mem other otherMem differs.symm ip port ⟨kept, isPort⟩ holds
    · exact free port isPort (claimed other otherMem ip port holds eligible)
  have ports_eq : ∀ old ∈ services.all, old.key = svc.key → old.ports = svc.ports :=
    fun old oldMem same => congrArg Service.ports (eq_of_key_eq oldMem mem same)
  intro a memA b memB differ ip port holdsA holdsB
  rcases mem_setIngress.mp memA with ⟨oldA, oldMemA, rfl⟩
  rcases mem_setIngress.mp memB with ⟨oldB, oldMemB, rfl⟩
  by_cases isA : oldA.key = svc.key
  · by_cases isB : oldB.key = svc.key
    · rw [if_pos isA, if_pos isB] at differ
      exact differ (isA.trans isB.symm)
    · rw [if_pos isA] at holdsA
      rw [if_neg isB] at holdsB
      exact separate oldB oldMemB isB ip holdsA.1 port (ports_eq oldA oldMemA isA ▸ holdsA.2) holdsB
  · rw [if_neg isA] at holdsA differ
    by_cases isB : oldB.key = svc.key
    · rw [if_pos isB] at holdsB
      exact separate oldA oldMemA isA ip holdsB.1 port (ports_eq oldB oldMemB isB ▸ holdsB.2) holdsA
    · rw [if_neg isB] at holdsB differ
      exact exclusive oldA oldMemA oldB oldMemB differ ip port holdsA holdsB

theorem Claimed.mono {services : List Service} {used' : Used}
    (claimed : Claimed nodes services used) (grows : used ⊆ used') :
    Claimed nodes services used' :=
  fun svc mem ip port holds eligible => grows (claimed svc mem ip port holds eligible)

theorem Claimed.setIngress (claimed : Claimed nodes services.all used)
    (mem : svc ∈ services.all) (sound : Sound nodes svc used assignment) :
    Claimed nodes (services.setIngress svc.key assignment.wantIPs).all assignment.used := by
  intro new newMem ip port holds eligible
  rcases mem_setIngress.mp newMem with ⟨old, oldMem, rfl⟩
  by_cases same : old.key = svc.key
  · rw [if_pos same] at holds
    obtain rfl := eq_of_key_eq oldMem mem same
    exact sound.claimed ip holds.1 port holds.2
  · rw [if_neg same] at holds
    exact sound.grows (claimed old oldMem ip port holds eligible)

theorem mem_setIngress_of_ne (mem : svc ∈ services.all) (differs : svc.key ≠ key) :
    svc ∈ (services.setIngress key ips).all :=
  mem_setIngress.mpr ⟨svc, mem, (if_neg differs).symm⟩

theorem exclusive_secondSweep {rows : List Service} (distinct : (rows.map Service.key).Nodup)
    (current : ∀ svc ∈ rows, svc ∈ services.all) (claimed : Claimed nodes services.all used)
    (exclusive : Exclusive services) :
    Exclusive (secondSweep view nodes rows used services) := by
  induction rows generalizing used services with
  | nil => exact exclusive
  | cons svc rows ih =>
    rw [List.map_cons, List.nodup_cons] at distinct
    have mem := current svc List.mem_cons_self
    have sound := sound_assign view nodes svc used
    simp only [secondSweep, if_neg svc.namespaced]
    split
    · refine ih distinct.2 ?_ (claimed.setIngress mem sound) (exclusive.setIngress claimed mem sound)
      intro other otherMem
      apply mem_setIngress_of_ne (current other (List.mem_cons_of_mem _ otherMem))
      intro same
      exact distinct.1 (same ▸ List.mem_map_of_mem otherMem)
    · exact ih distinct.2 (fun other otherMem => current other (List.mem_cons_of_mem _ otherMem))
        (claimed.mono sound.grows) exclusive

theorem claimed_firstSweep (nodes : List NodeRow) (rows : List Service) (used : Used) :
    used ⊆ firstSweep nodes rows used ∧ Claimed nodes rows (firstSweep nodes rows used) := by
  induction rows generalizing used with
  | nil => exact ⟨List.Subset.refl _, fun _ mem => absurd mem List.not_mem_nil⟩
  | cons svc rows ih =>
    simp only [firstSweep, if_neg svc.namespaced]
    rcases ih ((svc.ingress.filter (isEligibleIP nodes)).foldl
      (fun used cur => claim cur svc.ports used) used) with ⟨grows, claimed⟩
    refine ⟨fun _ old => grows (mem_foldl_claim.mpr (Or.inl old)), ?_⟩
    intro other mem ip port holds eligible
    rcases List.mem_cons.mp mem with rfl | later
    · exact grows (mem_foldl_claim.mpr
        (Or.inr ⟨List.mem_filter.mpr ⟨holds.1, eligible⟩, holds.2⟩))
    · exact claimed other later ip port holds eligible

theorem Exclusive.pass (exclusive : Exclusive services) (view : View) :
    Exclusive (pass view services) := by
  unfold LoadBalancer.pass
  split
  · exact exclusive
  · rename_i nodes _
    split
    · exact exclusive
    · exact exclusive_secondSweep services.distinct (fun _ => id)
        (claimed_firstSweep nodes services.all []).2 exclusive

/-- What can happen to the Services: a pass, or a change by the users of the cluster. -/
inductive Step : Services → Services → Prop
  | pass (services : Services) (view : View) : Step services (pass view services)
  | create (services : Services) (svc : Service)
      (fresh : svc.key ∉ services.all.map Service.key) : Step services (services.create svc fresh)
  | delete (services : Services) (key : Str × Str) : Step services (services.delete key)

theorem Exclusive.create (exclusive : Exclusive services) (svc : Service)
    (fresh : svc.key ∉ services.all.map Service.key) : Exclusive (services.create svc fresh) := by
  intro a memA b memB differ ip port holdsA holdsB
  rcases List.mem_append.mp memA with oldA | newA
  · rcases List.mem_append.mp memB with oldB | newB
    · exact exclusive a oldA b oldB differ ip port holdsA holdsB
    · obtain rfl := List.mem_singleton.mp newB
      exact absurd holdsB.1 List.not_mem_nil
  · obtain rfl := List.mem_singleton.mp newA
    exact absurd holdsA.1 List.not_mem_nil

theorem Exclusive.delete (exclusive : Exclusive services)
    (key : Str × Str) : Exclusive (services.delete key) :=
  fun a memA b memB => exclusive a (List.mem_of_mem_filter memA) b (List.mem_of_mem_filter memB)

theorem Exclusive.step {next : Services} (exclusive : Exclusive services)
    (step : Step services next) : Exclusive next := by
  cases step with
  | pass view => exact exclusive.pass view
  | create svc fresh => exact exclusive.create svc fresh
  | delete key => exact exclusive.delete key

/--
kiac-lb never assigns a pair twice: whatever happens to nodes, endpoints, Services and
patches, the statuses of two Services share no address and port.
-/
theorem exclusive_of_reachable {services next : Services} (exclusive : Exclusive services)
    (reachable : Relation.ReflTransGen Step services next) : Exclusive next := by
  induction reachable with
  | refl => exact exclusive
  | tail _ step ih => exact ih.step step

theorem default_ne_nil : str "default" ≠ [] := by decide

def twoServices : Services where
  all := [⟨str "default", str "web", [str "80"], [str "IPv4"], [], default_ne_nil⟩,
    ⟨str "default", str "api", [str "80", str "443"], [str "IPv4"], [], default_ne_nil⟩]
  distinct := by decide

def twoWorkers : View where
  workers := some [[str "w1", str "10.0.0.1", str "True"], [str "w2", str "10.0.0.2", str "True"]]
  nodes := none
  servicesRead := true
  primary := []
  endpoints := fun _ => [str "w2"]
  patch := fun _ => .applied

/-- The Services get the two addresses of the two workers. -/
theorem exclusive_twoServices :
    Exclusive (pass twoWorkers twoServices) ∧
      (pass twoWorkers twoServices).all.map Service.ingress =
        [[str "10.0.0.2"], [str "10.0.0.1"]] := by
  refine ⟨exclusive_of_reachable ?_ (.single (.pass twoServices twoWorkers)), by decide⟩
  intro a memA b _ _ ip port holds
  have empty : ∀ svc ∈ twoServices.all, svc.ingress = [] := by decide
  rw [Service.Holds, empty a memA] at holds
  exact absurd holds.1 List.not_mem_nil

end Kiac.LoadBalancer
