import Kiac.LoadBalancer.Exclusive

/-!
# What a pass does when every command succeeds

The second sweep treats the Services one after another, each with the used file as the earlier ones
have left it. A pass in which every command succeeds replaces each status by what its assignment says.
-/

namespace Kiac.LoadBalancer

/-- The lines that `eligible_nodes` reads. -/
def View.lines (view : View) : Option (List (List Str)) := do
  let listed ← view.workers
  if listed.isEmpty then view.nodes else some listed

theorem eligibleNodes_eq (view : View) :
    eligibleNodes view.workers view.nodes = view.lines.map (List.filterMap eligibleRow) := by
  unfold eligibleNodes View.lines
  cases view.workers with
  | none => rfl
  | some listed =>
    by_cases noWorker : listed.isEmpty = true
    · simp only [Option.bind_eq_bind, Option.bind_some, if_pos noWorker]
      cases view.nodes <;> rfl
    · simp only [Option.bind_eq_bind, Option.bind_some, if_neg noWorker]
      rfl

structure View.Works (view : View) (lines : List (List Str)) : Prop where
  read : view.lines = some lines
  services : view.servicesRead = true
  patches : ∀ key, view.patch key = .applied

def sweepStates (view : View) (nodes : List NodeRow) : List Service → Used → List (Service × Used)
  | [], _ => []
  | svc :: rows, used =>
    (svc, used) :: sweepStates view nodes rows (assign view nodes svc used).used

theorem patches_iff {assignment : Assignment} {svc : Service} :
    assignment.patches svc ↔ assignment.wantIPs ≠ [] ∧
      (assignment.changed ∨ ∃ cur ∈ svc.ingress, cur ∉ assignment.wantIPs) := by
  simp [Assignment.patches]

def settle (view : View) (nodes : List NodeRow) (state : Service × Used) : Service :=
  if (assign view nodes state.1 state.2).patches state.1 then
    { state.1 with ingress := (assign view nodes state.1 state.2).wantIPs }
  else state.1

variable {view : View} {lines : List (List Str)} {nodes : List NodeRow} {svc : Service} {used : Used}

theorem map_fst_sweepStates (rows : List Service) (used : Used) :
    (sweepStates view nodes rows used).map Prod.fst = rows := by
  induction rows generalizing used with
  | nil => rfl
  | cons svc rows ih => rw [sweepStates, List.map_cons, ih]

theorem settle_key (state : Service × Used) : (settle view nodes state).key = state.1.key := by
  unfold settle
  split <;> rfl

theorem settle_families (state : Service × Used) :
    (settle view nodes state).families = state.1.families := by
  unfold settle
  split <;> rfl

theorem secondSweep_all (patches : ∀ key, view.patch key = .applied) (rows done : List Service)
    (used : Used) (services : Services) (whole : services.all = done ++ rows) :
    (secondSweep view nodes rows used services).all =
      done ++ (sweepStates view nodes rows used).map (settle view nodes) := by
  induction rows generalizing done used services with
  | nil => exact whole
  | cons svc rows ih =>
    have distinct := services.distinct
    rw [whole, List.map_append, List.map_cons] at distinct
    have others : ∀ other, other ∈ done ∨ other ∈ rows → other.key ≠ svc.key := by
      have apart := List.nodup_middle.mp distinct
      rw [List.nodup_cons, List.mem_append] at apart
      rintro other (mem | mem) same
      · exact apart.1 (Or.inl (same ▸ List.mem_map_of_mem mem))
      · exact apart.1 (Or.inr (same ▸ List.mem_map_of_mem mem))
    have next : ((if (assign view nodes svc used).patches svc && (view.patch svc.key).takesEffect
        then services.setIngress svc.key (assign view nodes svc used).wantIPs else services) :
        Services).all = (done ++ [settle view nodes (svc, used)]) ++ rows := by
      rw [patches, settle]
      simp only [Patch.takesEffect, Bool.and_true, List.append_assoc, List.singleton_append]
      split
      · have kept : ∀ part : List Service, (∀ other ∈ part, other.key ≠ svc.key) →
            part.map (fun other => if other.key = svc.key then
              { other with ingress := (assign view nodes svc used).wantIPs } else other) = part := by
          intro part differ
          rw [List.map_congr_left fun other mem => if_neg (differ other mem), List.map_id']
        simp only [Services.setIngress, Services.modify, whole, List.map_append, List.map_cons,
          if_true]
        rw [kept done fun other mem => others other (Or.inl mem),
          kept rows fun other mem => others other (Or.inr mem)]
      · exact whole
    rw [secondSweep, if_neg svc.namespaced]
    rw [ih _ _ _ next, sweepStates, List.map_cons, List.append_assoc, List.singleton_append]

theorem pass_all (works : view.Works lines) (nonempty : lines.filterMap eligibleRow ≠ [])
    (services : Services) :
    (pass view services).all =
      (sweepStates view (lines.filterMap eligibleRow) services.all
        (firstSweep (lines.filterMap eligibleRow) services.all [])).map
          (settle view (lines.filterMap eligibleRow)) := by
  have some_nodes : (lines.filterMap eligibleRow).isEmpty = false := by
    rwa [List.isEmpty_eq_false_iff]
  simp only [pass, eligibleNodes_eq, works.read, Option.map_some, some_nodes, works.services,
    Bool.not_true, Bool.or_self]
  exact secondSweep_all works.patches services.all [] _ services rfl

theorem addr_of_eligibleRow {line : List Str} {row : NodeRow} (eligible : eligibleRow line = some row)
    (family : Family) (present : row.addr family ≠ str "-") :
    row.addr family ∈ line.tail.dropLast ∧ famOf (row.addr family) = family := by
  cases line with
  | nil => cases eligible
  | cons name fields =>
    simp only [eligibleRow] at eligible
    split at eligible
    · obtain rfl := Option.some.inj eligible
      have found : ∀ ip, ((fields.dropLast.filter fun ip => famOf ip == family).getLast?).getD
          (str "-") = ip → ip ≠ str "-" → ip ∈ fields.dropLast ∧ famOf ip = family := by
        intro ip isLast present
        cases last : (fields.dropLast.filter fun ip => famOf ip == family).getLast? with
        | none =>
          rw [last] at isLast
          exact absurd isLast.symm present
        | some ip' =>
          rw [last] at isLast
          obtain rfl : ip' = ip := isLast
          have mem := List.mem_filter.mp (List.mem_of_getLast? last)
          exact ⟨mem.1, beq_iff_eq.mp mem.2⟩
      cases family with
      | v4 => exact found _ rfl present
      | v6 => exact found _ rfl present
    · cases eligible

variable {family : Family} {ip : Str}

theorem chooseAddr_row (chosen : chooseAddr view nodes svc family used = some ip) :
    ip ≠ str "-" ∧ ∃ row ∈ nodes, row.addr family = ip := by
  rcases List.exists_of_findSome?_eq_some chosen with ⟨cand, _, picked⟩
  simp only at picked
  split at picked
  · cases picked
  · rename_i printed
    split at picked
    · cases picked
    · obtain rfl := Option.some.inj picked
      unfold nodeAddr at printed ⊢
      split at printed
      · rename_i row found
        split at printed
        · exact absurd rfl printed
        · rename_i present
          rw [if_neg present]
          exact ⟨present, row, List.mem_of_find?_eq_some found, rfl⟩
      · exact absurd rfl printed

theorem chooseAddr_eq_none_iff :
    chooseAddr view nodes svc family used = none ↔
      ∀ row ∈ nodes, nodeAddr nodes row.name family ≠ [] →
        conflicts (nodeAddr nodes row.name family) svc.ports used := by
  have each : ∀ cand, (if (nodeAddr nodes cand family).isEmpty then none
      else if conflicts (nodeAddr nodes cand family) svc.ports used then none
      else some (nodeAddr nodes cand family)) = none ↔
      (nodeAddr nodes cand family ≠ [] →
        conflicts (nodeAddr nodes cand family) svc.ports used = true) := by
    intro cand
    by_cases empty : nodeAddr nodes cand family = []
    · simp [empty]
    · simp [empty]
  unfold chooseAddr
  rw [List.findSome?_eq_none_iff]
  simp only [each]
  constructor
  · intro all row mem
    exact all row.name (List.mem_append_right _ (List.mem_map_of_mem mem))
  · intro all cand _ printed
    have isName : ∃ row ∈ nodes, row.name = cand := by
      by_contra absent
      apply printed
      have missing : (nodes.find? fun row => row.name == cand) = none := by
        rw [List.find?_eq_none]
        intro row mem isCand
        exact absent ⟨row, mem, beq_iff_eq.mp isCand⟩
      rw [nodeAddr, missing]
    rcases isName with ⟨row, mem, rfl⟩
    exact all row mem printed

def firstEligible (nodes : List NodeRow) (svc : Service) (family : Family) : Option Str :=
  svc.ingress.find? fun cur => famOf cur == family && isEligibleIP nodes cur

theorem firstEligible_spec (first : firstEligible nodes svc family = some ip) :
    ip ∈ svc.ingress ∧ famOf ip = family ∧ isEligibleIP nodes ip := by
  have holds := List.find?_some first
  simp only [Bool.and_eq_true, beq_iff_eq] at holds
  exact ⟨List.mem_of_find?_eq_some first, holds.1, holds.2⟩

theorem firstEligible_eq_none_iff :
    firstEligible nodes svc family = none ↔
      ∀ ip ∈ svc.ingress, famOf ip = family → isEligibleIP nodes ip = false := by
  simp [firstEligible, List.find?_eq_none]

theorem assignFamily_cases (view : View) (nodes : List NodeRow) (svc : Service) (acc : Assignment)
    (family : Family) :
    (∃ ip, firstEligible nodes svc family = some ip ∧
      assignFamily view nodes svc acc family =
        ⟨acc.wantIPs ++ [ip], acc.changed, claim ip svc.ports acc.used⟩) ∨
    (∃ ip, firstEligible nodes svc family = none ∧
      chooseAddr view nodes svc family acc.used = some ip ∧
      assignFamily view nodes svc acc family =
        ⟨acc.wantIPs ++ [ip], true, claim ip svc.ports acc.used⟩) ∨
    firstEligible nodes svc family = none ∧ chooseAddr view nodes svc family acc.used = none ∧
      assignFamily view nodes svc acc family = acc := by
  unfold assignFamily
  cases first : firstEligible nodes svc family with
  | some ip =>
    unfold firstEligible at first
    exact Or.inl ⟨ip, rfl, by rw [first]⟩
  | none =>
    unfold firstEligible at first
    right
    cases chosen : chooseAddr view nodes svc family acc.used with
    | some ip => exact Or.inl ⟨ip, rfl, rfl, by simp only [first]⟩
    | none => exact Or.inr ⟨rfl, rfl, by simp only [first]⟩

theorem wantIPs_eq_nil_iff (families : List Family) (acc : Assignment) :
    (families.foldl (assignFamily view nodes svc) acc).wantIPs = [] ↔
      acc.wantIPs = [] ∧ ∀ family ∈ families, firstEligible nodes svc family = none ∧
        chooseAddr view nodes svc family acc.used = none := by
  induction families generalizing acc with
  | nil => simp
  | cons family families ih =>
    rw [List.foldl_cons, ih, List.forall_mem_cons]
    rcases assignFamily_cases view nodes svc acc family with
      ⟨ip, first, same⟩ | ⟨ip, first, chosen, same⟩ | ⟨first, chosen, same⟩
    · simp [same, first]
    · simp [same, chosen]
    · simp [same, first, chosen]

def workerLines : List (List Str) :=
  [[str "w1", str "10.0.0.1", str "True"], [str "w2", str "10.0.0.2", str "True"]]

theorem works_twoWorkers : twoWorkers.Works workerLines := ⟨rfl, rfl, fun _ => rfl⟩

end Kiac.LoadBalancer
