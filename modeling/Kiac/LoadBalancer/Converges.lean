import Kiac.LoadBalancer.Sweep
import Mathlib

/-!
# The controller comes to rest

As long as nothing else changes, every patch makes progress: it gives the Service an address of a
requested family that it lacked, or it removes addresses that it should not have. So there are few
patches, and when there are no more, a Service lacks an address only if every address is taken.
-/

namespace Kiac.LoadBalancer

def patched (view : View) (services : Services) : List (Str × Str) :=
  match eligibleNodes view.workers view.nodes with
  | none => []
  | some nodes =>
    if nodes.isEmpty || !view.servicesRead then []
    else ((sweepStates view nodes services.all (firstSweep nodes services.all [])).filter
      fun state => (assign view nodes state.1 state.2).patches state.1).map fun state => state.1.key

variable {view : View} {lines : List (List Str)} {nodes : List NodeRow} {svc : Service} {used : Used}

structure Assigned (view : View) (nodes : List NodeRow) (svc : Service) (used : Used)
    (families : List Family) (acc : Assignment) : Prop where
  eligible : ∀ ip ∈ acc.wantIPs, famOf ip ∈ families ∧ isEligibleIP nodes ip = true
  kept : ∀ family ∈ families, ∀ ip, firstEligible nodes svc family = some ip → ip ∈ acc.wantIPs
  first : ∀ ip ∈ acc.wantIPs, ∀ old, firstEligible nodes svc (famOf ip) = some old → ip = old
  unique : ∀ a ∈ acc.wantIPs, ∀ b ∈ acc.wantIPs, famOf a = famOf b → a = b
  changed : acc.changed = true ↔ ∃ ip ∈ acc.wantIPs, firstEligible nodes svc (famOf ip) = none
  claims : ∀ pair ∈ acc.used, pair ∈ used ∨ pair.1 ∈ acc.wantIPs ∧ pair.2 ∈ svc.ports
  stuck : ∀ family ∈ families, firstEligible nodes svc family = none →
    (∃ ip ∈ acc.wantIPs, famOf ip = family) ∨ chooseAddr view nodes svc family acc.used = none

variable {family : Family} {families : List Family} {acc : Assignment}

theorem chooseAddr_eq_none_of_subset {used' : Used} (grows : used ⊆ used')
    (stuck : chooseAddr view nodes svc family used = none) :
    chooseAddr view nodes svc family used' = none := by
  rw [chooseAddr_eq_none_iff] at stuck ⊢
  intro row mem printed
  have taken := stuck row mem printed
  simp only [conflicts, List.any_eq_true, List.contains_iff_mem] at taken ⊢
  rcases taken with ⟨port, isPort, claimed⟩
  exact ⟨port, isPort, grows claimed⟩

theorem Assigned.add {ip : Str}
    {changed : Bool} (assigned : Assigned view nodes svc used families acc)
    (fresh : family ∉ families) (isFamily : famOf ip = family)
    (eligible : isEligibleIP nodes ip)
    (source : firstEligible nodes svc family = some ip ∧ changed = acc.changed ∨
      firstEligible nodes svc family = none ∧ changed) :
    Assigned view nodes svc used (families ++ [family])
      ⟨acc.wantIPs ++ [ip], changed, claim ip svc.ports acc.used⟩ := by
  subst isFamily
  have other : ∀ old ∈ acc.wantIPs, famOf old ≠ famOf ip :=
    fun old mem same => fresh (same ▸ (assigned.eligible old mem).1)
  constructor
  · intro a mem
    rcases List.mem_append.mp mem with old | new
    · exact ⟨List.mem_append_left _ (assigned.eligible a old).1, (assigned.eligible a old).2⟩
    · rw [List.mem_singleton.mp new]
      exact ⟨List.mem_append_right _ (List.mem_singleton_self _), eligible⟩
  · intro f mem a first
    rcases List.mem_append.mp mem with old | new
    · exact List.mem_append_left _ (assigned.kept f old a first)
    · rw [List.mem_singleton.mp new] at first
      rcases source with ⟨isFirst, _⟩ | ⟨none, _⟩
      · rw [first] at isFirst
        rw [Option.some.inj isFirst]
        exact List.mem_append_right _ (List.mem_singleton_self _)
      · rw [first] at none
        cases none
  · intro a mem old first
    rcases List.mem_append.mp mem with isOld | new
    · exact assigned.first a isOld old first
    · rw [List.mem_singleton.mp new] at first ⊢
      rcases source with ⟨isFirst, _⟩ | ⟨none, _⟩
      · rw [first] at isFirst
        exact (Option.some.inj isFirst).symm
      · rw [first] at none
        cases none
  · intro a memA b memB same
    rcases List.mem_append.mp memA with oldA | newA
    · rcases List.mem_append.mp memB with oldB | newB
      · exact assigned.unique a oldA b oldB same
      · rw [List.mem_singleton.mp newB] at same
        exact absurd same (other a oldA)
    · rcases List.mem_append.mp memB with oldB | newB
      · rw [List.mem_singleton.mp newA] at same
        exact absurd same.symm (other b oldB)
      · rw [List.mem_singleton.mp newA, List.mem_singleton.mp newB]
  · rcases source with ⟨isFirst, rfl⟩ | ⟨none, rfl⟩
    · simp only [List.mem_append, List.mem_singleton, assigned.changed]
      constructor
      · rintro ⟨a, mem, none⟩
        exact ⟨a, Or.inl mem, none⟩
      · rintro ⟨a, old | rfl, none⟩
        · exact ⟨a, old, none⟩
        · rw [isFirst] at none
          cases none
    · simp only [true_iff]
      exact ⟨ip, List.mem_append_right _ (List.mem_singleton_self _), none⟩
  · intro pair mem
    rcases mem_claim.mp mem with old | ⟨isIP, isPort⟩
    · rcases assigned.claims pair old with before | ⟨wanted, isPort⟩
      · exact Or.inl before
      · exact Or.inr ⟨List.mem_append_left _ wanted, isPort⟩
    · exact Or.inr ⟨List.mem_append_right _ (List.mem_singleton.mpr isIP), isPort⟩
  · intro f mem none
    rcases List.mem_append.mp mem with old | new
    · rcases assigned.stuck f old none with ⟨a, wanted, isFamily⟩ | stuck
      · exact Or.inl ⟨a, List.mem_append_left _ wanted, isFamily⟩
      · exact Or.inr (chooseAddr_eq_none_of_subset (fun _ mem => mem_claim.mpr (Or.inl mem)) stuck)
    · rw [List.mem_singleton.mp new]
      exact Or.inl ⟨ip, List.mem_append_right _ (List.mem_singleton_self _), rfl⟩

theorem Assigned.step (assigned : Assigned view (lines.filterMap eligibleRow) svc used families acc)
    (fresh : family ∉ families) :
    Assigned view (lines.filterMap eligibleRow) svc used (families ++ [family])
      (assignFamily view (lines.filterMap eligibleRow) svc acc family) := by
  rcases assignFamily_cases view (lines.filterMap eligibleRow) svc acc family with
    ⟨ip, first, same⟩ | ⟨ip, none, chosen, same⟩ | ⟨none, stuck, same⟩
  · rw [same]
    rcases firstEligible_spec first with ⟨_, isFamily, eligible⟩
    exact assigned.add fresh isFamily eligible (Or.inl ⟨first, rfl⟩)
  · rw [same]
    rcases chooseAddr_row chosen with ⟨present, row, mem, rfl⟩
    rcases List.mem_filterMap.mp mem with ⟨line, _, isRow⟩
    exact assigned.add fresh (addr_of_eligibleRow isRow family present).2
      (chooseAddr_spec chosen).1 (Or.inr ⟨none, rfl⟩)
  · rw [same]
    refine ⟨?_, ?_, assigned.first, assigned.unique, assigned.changed, assigned.claims, ?_⟩
    · intro ip mem
      exact ⟨List.mem_append_left _ (assigned.eligible ip mem).1, (assigned.eligible ip mem).2⟩
    · intro f mem ip first
      rcases List.mem_append.mp mem with old | new
      · exact assigned.kept f old ip first
      · rw [List.mem_singleton.mp new, none] at first
        cases first
    · intro f mem noFirst
      rcases List.mem_append.mp mem with old | new
      · exact assigned.stuck f old noFirst
      · rw [List.mem_singleton.mp new]
        exact Or.inr stuck

theorem assigned_foldl {rest : List Family}
    (assigned : Assigned view (lines.filterMap eligibleRow) svc used families acc)
    (nodup : (families ++ rest).Nodup) :
    Assigned view (lines.filterMap eligibleRow) svc used (families ++ rest)
      (rest.foldl (assignFamily view (lines.filterMap eligibleRow) svc) acc) := by
  induction rest generalizing families acc with
  | nil => rwa [List.append_nil]
  | cons family rest ih =>
    have fresh : family ∉ families := fun mem =>
      (List.nodup_append.mp nodup).2.2 family mem family List.mem_cons_self rfl
    rw [List.append_cons] at nodup ⊢
    exact ih (assigned.step fresh) nodup

theorem assigned_assign (nodup : svc.svcFamilies.Nodup) :
    Assigned view (lines.filterMap eligibleRow) svc used svc.svcFamilies
      (assign view (lines.filterMap eligibleRow) svc used) := by
  have start : Assigned view (lines.filterMap eligibleRow) svc used [] ⟨[], false, used⟩ := by
    refine ⟨by simp, by simp, by simp, by simp, by simp, fun _ mem => Or.inl mem, by simp⟩
  exact assigned_foldl start nodup

def missing (nodes : List NodeRow) (svc : Service) : ℕ :=
  svc.svcFamilies.countP fun family => (firstEligible nodes svc family).isNone

def Untidy (nodes : List NodeRow) (svc : Service) : Prop :=
  ∃ cur ∈ svc.ingress, ∀ family ∈ svc.svcFamilies, firstEligible nodes svc family ≠ some cur

instance (nodes : List NodeRow) (svc : Service) : Decidable (Untidy nodes svc) :=
  inferInstanceAs (Decidable (∃ cur ∈ svc.ingress, ∀ family ∈ svc.svcFamilies,
    firstEligible nodes svc family ≠ some cur))

def weight (nodes : List NodeRow) (svc : Service) : ℕ :=
  missing nodes svc + if Untidy nodes svc then 1 else 0

theorem countP_lt_countP {α : Type} {p q : α → Bool} {l : List α}
    (implies : ∀ x ∈ l, p x → q x) {x : α} (mem : x ∈ l) (only : q x)
    (fails : p x = false) : l.countP p < l.countP q := by
  rcases List.append_of_mem mem with ⟨before, after, rfl⟩
  have first := List.countP_mono_left fun y yMem =>
    implies y (List.mem_append_left _ yMem)
  have second := List.countP_mono_left fun y yMem =>
    implies y (List.mem_append_right _ (List.mem_cons_of_mem x yMem))
  rw [List.countP_append, List.countP_append, List.countP_cons_of_neg (by simp [fails]),
    List.countP_cons_of_pos only]
  omega

section Patched

variable {assignment : Assignment}
  (assigned : Assigned view nodes svc used svc.svcFamilies assignment)

include assigned

variable {family : Family}

theorem firstEligible_patched {ip : Str} :
    firstEligible nodes { svc with ingress := assignment.wantIPs } family = some ip ↔
      ip ∈ assignment.wantIPs ∧ famOf ip = family := by
  constructor
  · intro first
    rcases firstEligible_spec first with ⟨mem, isFamily, _⟩
    exact ⟨mem, isFamily⟩
  · rintro ⟨mem, rfl⟩
    cases found : firstEligible nodes { svc with ingress := assignment.wantIPs } (famOf ip) with
    | none =>
      have lost := firstEligible_eq_none_iff.mp found ip mem rfl
      rw [(assigned.eligible ip mem).2] at lost
      cases lost
    | some other =>
      rcases firstEligible_spec found with ⟨otherMem, same, _⟩
      rw [assigned.unique other otherMem ip mem same]

theorem isNone_patched
    (none : (firstEligible nodes { svc with ingress := assignment.wantIPs } family).isNone = true) :
    ∀ ip ∈ assignment.wantIPs, famOf ip ≠ family := by
  intro ip mem isFamily
  rw [(firstEligible_patched assigned).mpr ⟨mem, isFamily⟩] at none
  cases none

theorem isNone_of_patched (mem : family ∈ svc.svcFamilies)
    (none : (firstEligible nodes { svc with ingress := assignment.wantIPs } family).isNone = true) :
    (firstEligible nodes svc family).isNone = true := by
  cases first : firstEligible nodes svc family with
  | none => rfl
  | some ip =>
    exact absurd (firstEligible_spec first).2.1
      (isNone_patched assigned none ip (assigned.kept family mem ip first))

theorem tidy_patched : ¬Untidy nodes { svc with ingress := assignment.wantIPs } := by
  rintro ⟨cur, mem, none⟩
  exact none (famOf cur) (assigned.eligible cur mem).1
    ((firstEligible_patched assigned).mpr ⟨mem, rfl⟩)

theorem weight_patched (patches : assignment.patches svc) :
    weight nodes { svc with ingress := assignment.wantIPs } + 1 ≤ weight nodes svc := by
  have implies : ∀ family ∈ svc.svcFamilies,
      (firstEligible nodes { svc with ingress := assignment.wantIPs } family).isNone = true →
      (firstEligible nodes svc family).isNone = true :=
    fun _ mem none => isNone_of_patched assigned mem none
  rw [weight, if_neg (tidy_patched assigned), weight]
  rcases (patches_iff.mp patches).2 with changed | ⟨cur, mem, dropped⟩
  · rcases assigned.changed.mp changed with ⟨ip, wanted, none⟩
    have fewer : missing nodes { svc with ingress := assignment.wantIPs } < missing nodes svc := by
      refine countP_lt_countP implies (assigned.eligible ip wanted).1 (by rw [none]; rfl) ?_
      rw [(firstEligible_patched assigned).mpr ⟨wanted, rfl⟩]
      rfl
    omega
  · have untidy : Untidy nodes svc :=
      ⟨cur, mem, fun family inFamilies first => dropped (assigned.kept family inFamilies cur first)⟩
    have notMore : missing nodes { svc with ingress := assignment.wantIPs } ≤ missing nodes svc :=
      List.countP_mono_left implies
    rw [if_pos untidy]
    omega

end Patched

def Specified (services : Services) : Prop := ∀ svc ∈ services.all, svc.families.Nodup

theorem nodup_svcFamilies (nodup : svc.families.Nodup) : svc.svcFamilies.Nodup := by
  unfold Service.svcFamilies
  simp only
  split
  · exact List.nodup_singleton _
  · have named : ∀ text family, (if text = str "IPv4" then some Family.v4
        else if text = str "IPv6" then some Family.v6 else none) = some family →
        text = if family = .v4 then str "IPv4" else str "IPv6" := by
      intro text family isFamily
      split at isFamily
      · rename_i same
        obtain rfl := Option.some.inj isFamily
        exact same
      · split at isFamily
        · rename_i same
          obtain rfl := Option.some.inj isFamily
          exact same
        · cases isFamily
    exact nodup.filterMap fun a b family isA isB =>
      (named a family isA).trans (named b family isB).symm

variable {families : List Family} {state : Service × Used} {ip : Str} {all : List Service}
  {row : NodeRow}

theorem length_le_two (nodup : families.Nodup) : families.length ≤ 2 := by
  match families with
  | [] | [_] | [_, _] => simp
  | a :: b :: c :: rest =>
    cases a <;> cases b <;> cases c <;> simp at nodup

theorem weight_le (nodup : svc.families.Nodup) : weight nodes svc ≤ 3 := by
  have few := length_le_two (nodup_svcFamilies nodup)
  have some : missing nodes svc ≤ svc.svcFamilies.length := List.countP_le_length
  unfold weight
  split <;> omega

variable {services : Services}

theorem pass_of_empty (works : view.Works lines) (empty : lines.filterMap eligibleRow = []) :
    pass view services = services ∧ patched view services = [] := by
  simp [pass, patched, eligibleNodes_eq, works.read, empty]

theorem patched_eq (works : view.Works lines) (nonempty : lines.filterMap eligibleRow ≠ []) :
    patched view services =
      ((sweepStates view (lines.filterMap eligibleRow) services.all
        (firstSweep (lines.filterMap eligibleRow) services.all [])).filter fun state =>
          (assign view (lines.filterMap eligibleRow) state.1 state.2).patches state.1).map
            fun state => state.1.key := by
  have some_nodes : (lines.filterMap eligibleRow).isEmpty = false := by
    rwa [List.isEmpty_eq_false_iff]
  simp [patched, eligibleNodes_eq, works.read, some_nodes, works.services]

variable {rows : List Service} {family : Family}

theorem mem_of_mem_sweepStates
    (mem : state ∈ sweepStates view nodes rows used) : state.1 ∈ rows := by
  have isRow := List.mem_map_of_mem (f := Prod.fst) mem
  rwa [map_fst_sweepStates] at isRow

theorem exists_mem_sweepStates (view : View) (nodes : List NodeRow) (used : Used)
    (mem : svc ∈ rows) :
    ∃ state ∈ sweepStates view nodes rows used, state.1 = svc := by
  have isFirst : svc ∈ (sweepStates view nodes rows used).map Prod.fst := by
    rwa [map_fst_sweepStates]
  exact List.mem_map.mp isFirst

theorem specified_pass (works : view.Works lines) (specified : Specified services) :
    Specified (pass view services) := by
  by_cases empty : lines.filterMap eligibleRow = []
  · rwa [(pass_of_empty works empty).1]
  · intro svc mem
    rw [pass_all works empty] at mem
    rcases List.mem_map.mp mem with ⟨state, isState, rfl⟩
    rw [settle_families]
    exact specified _ (mem_of_mem_sweepStates isState)

theorem settle_weight (view : View) (lines : List (List Str)) (state : Service × Used)
    (nodup : state.1.families.Nodup) :
    weight (lines.filterMap eligibleRow) (settle view (lines.filterMap eligibleRow) state) +
      (if (assign view (lines.filterMap eligibleRow) state.1 state.2).patches state.1 then 1 else 0) ≤
        weight (lines.filterMap eligibleRow) state.1 := by
  unfold settle
  split
  · rename_i patches
    exact weight_patched (assigned_assign (nodup_svcFamilies nodup)) patches
  · exact le_rfl

theorem sum_weight_pass (works : view.Works lines) (specified : Specified services) :
    ((pass view services).all.map (weight (lines.filterMap eligibleRow))).sum +
      (patched view services).length ≤
        (services.all.map (weight (lines.filterMap eligibleRow))).sum := by
  by_cases empty : lines.filterMap eligibleRow = []
  · rw [(pass_of_empty works empty).1, (pass_of_empty works empty).2]
    exact le_rfl
  · have paid : ∀ states : List (Service × Used), (∀ state ∈ states, state.1.families.Nodup) →
        ((states.map (settle view (lines.filterMap eligibleRow))).map
          (weight (lines.filterMap eligibleRow))).sum +
        (states.filter fun state =>
          (assign view (lines.filterMap eligibleRow) state.1 state.2).patches state.1).length ≤
        ((states.map Prod.fst).map (weight (lines.filterMap eligibleRow))).sum := by
      intro states nodup
      induction states with
      | nil => simp
      | cons state states ih =>
        have here := settle_weight view lines state (nodup state List.mem_cons_self)
        have rest := ih fun other mem => nodup other (List.mem_cons_of_mem state mem)
        simp only [List.map_cons, List.sum_cons, List.filter_cons]
        split
        · rename_i patches
          rw [if_pos patches] at here
          rw [List.length_cons]
          omega
        · rename_i patches
          omega
    have all := paid (sweepStates view (lines.filterMap eligibleRow) services.all
      (firstSweep (lines.filterMap eligibleRow) services.all []))
      fun state mem => specified _ (mem_of_mem_sweepStates mem)
    rw [map_fst_sweepStates] at all
    rwa [pass_all works empty, patched_eq works empty, List.length_map]

theorem services_ext {left right : Services} (same : left.all = right.all) : left = right := by
  cases left
  cases right
  cases same
  rfl

theorem settle_of_not_patched (not : ¬(assign view nodes state.1 state.2).patches state.1) :
    settle view nodes state = state.1 := if_neg not

theorem not_patches_of_patched_nil (works : view.Works lines)
    (nonempty : lines.filterMap eligibleRow ≠ []) (rest : patched view services = []) :
    ∀ state ∈ sweepStates view (lines.filterMap eligibleRow) services.all
      (firstSweep (lines.filterMap eligibleRow) services.all []),
        ¬(assign view (lines.filterMap eligibleRow) state.1 state.2).patches state.1 := by
  rw [patched_eq works nonempty, List.map_eq_nil_iff, List.filter_eq_nil_iff] at rest
  exact rest

theorem pass_of_patched_nil (works : view.Works lines) (rest : patched view services = []) :
    pass view services = services := by
  by_cases empty : lines.filterMap eligibleRow = []
  · exact (pass_of_empty works empty).1
  · apply services_ext
    rw [pass_all works empty, List.map_congr_left fun state mem =>
      settle_of_not_patched (not_patches_of_patched_nil works empty rest state mem)]
    exact map_fst_sweepStates _ _

theorem firstEligible_pass (works : view.Works lines) (specified : Specified services)
    (mem : svc ∈ services.all) (requested : family ∈ svc.svcFamilies)
    (first : firstEligible (lines.filterMap eligibleRow) svc family = some ip) :
    ∃ svc' ∈ (pass view services).all, svc'.key = svc.key ∧ family ∈ svc'.svcFamilies ∧
      firstEligible (lines.filterMap eligibleRow) svc' family = some ip := by
  by_cases empty : lines.filterMap eligibleRow = []
  · rw [(pass_of_empty works empty).1]
    exact ⟨svc, mem, rfl, requested, first⟩
  · rw [pass_all works empty]
    rcases exists_mem_sweepStates view (lines.filterMap eligibleRow)
      (firstSweep (lines.filterMap eligibleRow) services.all []) mem with ⟨state, isState, rfl⟩
    refine ⟨_, List.mem_map_of_mem isState, settle_key state, ?_, ?_⟩
    · rw [Service.svcFamilies, settle_families]
      exact requested
    · unfold settle
      split
      · have assigned : Assigned view (lines.filterMap eligibleRow) state.1 state.2
            state.1.svcFamilies (assign view (lines.filterMap eligibleRow) state.1 state.2) :=
          assigned_assign (nodup_svcFamilies (specified state.1 mem))
        exact (firstEligible_patched assigned).mpr
          ⟨assigned.kept family requested ip first, (firstEligible_spec first).2.1⟩
      · exact first

def Held (services : List Service) (used : Used) : Prop :=
  ∀ pair ∈ used, ∃ svc ∈ services, svc.Holds pair.1 pair.2

theorem held_firstSweep (nodes : List NodeRow) (rows : List Service)
    (sub : ∀ svc ∈ rows, svc ∈ all) (used : Used) (held : Held all used) :
    Held all (firstSweep nodes rows used) := by
  induction rows generalizing used with
  | nil => exact held
  | cons svc rows ih =>
    simp only [firstSweep, if_neg svc.namespaced]
    refine ih (fun other mem => sub other (List.mem_cons_of_mem svc mem)) _ fun pair mem => ?_
    rcases mem_foldl_claim.mp mem with old | ⟨isIP, isPort⟩
    · exact held pair old
    · exact ⟨svc, sub svc List.mem_cons_self, (List.mem_filter.mp isIP).1, isPort⟩

theorem wanted_of_not_patched {assignment : Assignment}
    (assigned : Assigned view nodes svc used families assignment)
    (not : ¬assignment.patches svc) (wanted : ip ∈ assignment.wantIPs) :
    ∃ old, firstEligible nodes svc (famOf ip) = some old ∧ ip = old := by
  cases first : firstEligible nodes svc (famOf ip) with
  | some old => exact ⟨old, rfl, assigned.first ip wanted old first⟩
  | none =>
    have changed := assigned.changed.mpr ⟨ip, wanted, first⟩
    exact absurd (patches_iff.mpr ⟨List.ne_nil_of_mem wanted, Or.inl changed⟩) not

theorem held_sweepStates (sub : ∀ svc ∈ rows, svc ∈ all)
    (nodup : ∀ svc ∈ rows, svc.families.Nodup) {used : Used} (held : Held all used)
    (not : ∀ state ∈ sweepStates view (lines.filterMap eligibleRow) rows used,
      ¬(assign view (lines.filterMap eligibleRow) state.1 state.2).patches state.1) :
    ∀ state ∈ sweepStates view (lines.filterMap eligibleRow) rows used, Held all state.2 := by
  induction rows generalizing used with
  | nil => exact fun _ mem => absurd mem List.not_mem_nil
  | cons svc rows ih =>
    have assigned : Assigned view (lines.filterMap eligibleRow) svc used svc.svcFamilies
        (assign view (lines.filterMap eligibleRow) svc used) :=
      assigned_assign (nodup_svcFamilies (nodup svc List.mem_cons_self))
    have next : Held all (assign view (lines.filterMap eligibleRow) svc used).used := by
      intro pair mem
      rcases assigned.claims pair mem with old | ⟨wanted, isPort⟩
      · exact held pair old
      · rcases wanted_of_not_patched assigned (not (svc, used) List.mem_cons_self) wanted with
          ⟨old, first, same⟩
        exact ⟨svc, sub svc List.mem_cons_self, same ▸ (firstEligible_spec first).1, isPort⟩
    intro state mem
    rcases List.mem_cons.mp mem with rfl | later
    · exact held
    · exact ih (fun other mem => sub other (List.mem_cons_of_mem svc mem))
        (fun other mem => nodup other (List.mem_cons_of_mem svc mem)) next
        (fun other mem => not other (List.mem_cons_of_mem _ mem)) state later

theorem nodeAddr_of_mem (names : (nodes.map NodeRow.name).Nodup) (mem : row ∈ nodes)
    (present : row.addr family ≠ str "-") :
    nodeAddr nodes row.name family = row.addr family := by
  cases found : nodes.find? fun other => other.name == row.name with
  | none =>
    have missing := List.find?_eq_none.mp found row mem
    exact absurd (beq_self_eq_true _) missing
  | some other =>
    have named := List.find?_some (p := fun other : NodeRow => other.name == row.name) found
    have same := List.inj_on_of_nodup_map names (List.mem_of_find?_eq_some found) mem
      (beq_iff_eq.mp named)
    rw [nodeAddr, found]
    simp only [same, if_neg present]

theorem taken_of_patched_nil (works : view.Works lines) (specified : Specified services)
    (names : ((lines.filterMap eligibleRow).map NodeRow.name).Nodup)
    (rest : patched view services = []) (mem : svc ∈ services.all)
    (requested : family ∈ svc.svcFamilies)
    (lacks : firstEligible (lines.filterMap eligibleRow) svc family = none)
    (isRow : row ∈ lines.filterMap eligibleRow) (present : row.addr family ≠ str "-")
    (nonempty : row.addr family ≠ []) :
    ∃ other ∈ services.all, other.key ≠ svc.key ∧ ∃ port ∈ svc.ports,
      other.Holds (row.addr family) port := by
  have not := not_patches_of_patched_nil works (List.ne_nil_of_mem isRow) rest
  rcases exists_mem_sweepStates view (lines.filterMap eligibleRow)
    (firstSweep (lines.filterMap eligibleRow) services.all []) mem with ⟨state, isState, rfl⟩
  have held : Held services.all state.2 := by
    refine held_sweepStates (fun _ => id) specified ?_ not state isState
    exact held_firstSweep _ _ (fun _ => id) [] fun _ mem => absurd mem List.not_mem_nil
  have assigned : Assigned view (lines.filterMap eligibleRow) state.1 state.2
      state.1.svcFamilies (assign view (lines.filterMap eligibleRow) state.1 state.2) :=
    assigned_assign (nodup_svcFamilies (specified state.1 mem))
  -- No address of the family is wanted, since one that is kept would not be lacking.
  have unwanted : ∀ ip ∈ (assign view (lines.filterMap eligibleRow) state.1 state.2).wantIPs,
      famOf ip ≠ family := by
    rintro ip wanted rfl
    rcases wanted_of_not_patched assigned (not state isState) wanted with ⟨old, first, _⟩
    rw [lacks] at first
    cases first
  have ofFamily : famOf (row.addr family) = family := by
    rcases List.mem_filterMap.mp isRow with ⟨line, _, eligible⟩
    exact (addr_of_eligibleRow eligible family present).2
  have stuck := (assigned.stuck family requested lacks).resolve_left
    fun ⟨ip, wanted, isFamily⟩ => unwanted ip wanted isFamily
  have taken := chooseAddr_eq_none_iff.mp stuck row isRow
  rw [nodeAddr_of_mem names isRow present] at taken
  simp only [conflicts, List.any_eq_true, List.contains_iff_mem] at taken
  rcases taken nonempty with ⟨port, isPort, claimed⟩
  rcases assigned.claims _ claimed with before | ⟨wanted, _⟩
  · rcases held _ before with ⟨other, otherMem, holds⟩
    refine ⟨other, otherMem, fun same => ?_, port, isPort, holds⟩
    -- The Service itself does not hold the address.
    obtain rfl := eq_of_key_eq otherMem mem same
    have notEligible := firstEligible_eq_none_iff.mp lacks _ holds.1 ofFamily
    have eligible : isEligibleIP (lines.filterMap eligibleRow) (row.addr family) :=
      List.any_eq_true.mpr ⟨row, isRow, by cases family <;> simp [NodeRow.addr]⟩
    rw [eligible] at notEligible
    cases notEligible
  · exact absurd ofFamily (unwanted _ wanted)

section Passes

variable (works : view.Works lines) (specified : Specified services)

include works specified

theorem specified_passes (k : ℕ) : Specified ((pass view)^[k] services) := by
  induction k with
  | zero => exact specified
  | succ k ih =>
    rw [Function.iterate_succ_apply']
    exact specified_pass works ih

theorem sum_weight_passes (k : ℕ) :
    (((pass view)^[k] services).all.map (weight (lines.filterMap eligibleRow))).sum +
      ((List.range k).map fun i => (patched view ((pass view)^[i] services)).length).sum ≤
        (services.all.map (weight (lines.filterMap eligibleRow))).sum := by
  induction k with
  | zero => exact le_rfl
  | succ k ih =>
    have paid := sum_weight_pass works (specified_passes works specified k)
    rw [Function.iterate_succ_apply', List.range_succ, List.map_append, List.sum_append]
    simp only [List.map_cons, List.map_nil, List.sum_cons, List.sum_nil]
    omega

omit works in
theorem sum_weight_le :
    (services.all.map (weight (lines.filterMap eligibleRow))).sum ≤ 3 * services.all.length := by
  have bound := List.sum_le_card_nsmul (services.all.map (weight (lines.filterMap eligibleRow))) 3 ?_
  · rwa [List.length_map, smul_eq_mul, Nat.mul_comm] at bound
  · intro value mem
    rcases List.mem_map.mp mem with ⟨svc, isService, rfl⟩
    exact weight_le (specified svc isService)

theorem exists_rest : ∃ k, patched view ((pass view)^[k] services) = [] := by
  by_contra never
  have each : ∀ k, k ≤
      ((List.range k).map fun i => (patched view ((pass view)^[i] services)).length).sum := by
    intro k
    induction k with
    | zero => exact Nat.zero_le _
    | succ k ih =>
      have some := List.length_pos_iff.mpr fun none => never ⟨k, none⟩
      rw [List.range_succ, List.map_append, List.sum_append]
      simp only [List.map_cons, List.map_nil, List.sum_cons, List.sum_nil]
      omega
  have bound := sum_weight_passes works specified
    ((services.all.map (weight (lines.filterMap eligibleRow))).sum + 1)
  have many := each ((services.all.map (weight (lines.filterMap eligibleRow))).sum + 1)
  omega

theorem firstEligible_passes {i j : ℕ} (later : i ≤ j)
    (mem : svc ∈ ((pass view)^[i] services).all) {family : Family}
    (requested : family ∈ svc.svcFamilies) {ip : Str}
    (first : firstEligible (lines.filterMap eligibleRow) svc family = some ip) :
    ∃ svc' ∈ ((pass view)^[j] services).all, svc'.key = svc.key ∧ family ∈ svc'.svcFamilies ∧
      firstEligible (lines.filterMap eligibleRow) svc' family = some ip := by
  induction j, later using Nat.le_induction with
  | base => exact ⟨svc, mem, rfl, requested, first⟩
  | succ j _ ih =>
    rcases ih with ⟨svc', mem', same, requested', first'⟩
    rw [Function.iterate_succ_apply']
    rcases firstEligible_pass works (specified_passes works specified j) mem' requested' first' with
      ⟨svc'', mem'', same'', requested'', first''⟩
    exact ⟨svc'', mem'', same''.trans same, requested'', first''⟩

end Passes

omit services in
theorem passes_of_rest (works : view.Works lines) {services : Services} {k : ℕ}
    (rest : patched view ((pass view)^[k] services) = []) {j : ℕ} (later : k ≤ j) :
    (pass view)^[j] services = (pass view)^[k] services := by
  induction j, later using Nat.le_induction with
  | base => rfl
  | succ j _ ih =>
    rw [Function.iterate_succ_apply', ih]
    exact pass_of_patched_nil works rest

/-- With everything but the statuses fixed and every command succeeding, there are at most three
patches for each Service; a Service never loses its first eligible address of a requested family; and
after some pass nothing is patched any more, and a Service lacks an address of a requested family only
if every eligible address of the family carries one of its ports for another Service. -/
theorem controller_converges (works : view.Works lines) (specified : Specified services)
    (names : ((lines.filterMap eligibleRow).map NodeRow.name).Nodup) :
    (∀ k, ((List.range k).map fun i => (patched view ((pass view)^[i] services)).length).sum ≤
      3 * services.all.length) ∧
    (∀ i j, i ≤ j → ∀ svc ∈ ((pass view)^[i] services).all, ∀ family ∈ svc.svcFamilies, ∀ ip,
      firstEligible (lines.filterMap eligibleRow) svc family = some ip →
        ∃ svc' ∈ ((pass view)^[j] services).all, svc'.key = svc.key ∧
          firstEligible (lines.filterMap eligibleRow) svc' family = some ip) ∧
    ∃ k, (∀ j, k ≤ j → patched view ((pass view)^[j] services) = [] ∧
        (pass view)^[j] services = (pass view)^[k] services) ∧
      ∀ svc ∈ ((pass view)^[k] services).all, ∀ family ∈ svc.svcFamilies,
        firstEligible (lines.filterMap eligibleRow) svc family = none →
          ∀ row ∈ lines.filterMap eligibleRow, row.addr family ≠ str "-" → row.addr family ≠ [] →
            ∃ other ∈ ((pass view)^[k] services).all, other.key ≠ svc.key ∧
              ∃ port ∈ svc.ports, other.Holds (row.addr family) port := by
  refine ⟨fun k => ?_, ?_, ?_⟩
  · have paid := sum_weight_passes works specified k
    have bound : (services.all.map (weight (lines.filterMap eligibleRow))).sum ≤
        3 * services.all.length := sum_weight_le specified
    omega
  · intro i j later svc mem family requested ip first
    rcases firstEligible_passes works specified later mem requested first with
      ⟨svc', mem', same, _, first'⟩
    exact ⟨svc', mem', same, first'⟩
  · rcases exists_rest works specified with ⟨k, rest⟩
    refine ⟨k, fun j later => ?_, ?_⟩
    · have same := passes_of_rest works rest later
      exact ⟨by rw [same]; exact rest, same⟩
    · intro svc mem family requested lacks row isRow present nonempty
      exact taken_of_patched_nil works (specified_passes works specified k) names rest mem requested
        lacks isRow present nonempty

/-- Three new Services with port 80 for two workers: two patches, and one Service without address. -/
def threeServices : Services where
  all := [⟨str "default", str "web", [str "80"], [str "IPv4"], [], default_ne_nil⟩,
    ⟨str "default", str "api", [str "80", str "443"], [str "IPv4"], [], default_ne_nil⟩,
    ⟨str "default", str "late", [str "80"], [str "IPv4"], [], default_ne_nil⟩]
  distinct := by decide

theorem controller_converges_threeServices :
    (patched twoWorkers threeServices).length = 2 ∧
    ∀ k, ((List.range k).map fun i =>
      (patched twoWorkers ((pass twoWorkers)^[i] threeServices)).length).sum ≤ 9 := by
  have specified : ∀ svc ∈ threeServices.all, svc.families.Nodup := by decide
  exact ⟨by decide, (controller_converges works_twoWorkers specified (by decide)).1⟩

end Kiac.LoadBalancer
