import Kiac.LoadBalancer.Sweep

/-!
# Addresses that no node has any more

A pass re-points a Service whose status holds an address of no eligible node, provided that it finds
at least one address for it. A Service for which it finds none is left with its old status.
-/

namespace Kiac.LoadBalancer

def NodeAddress (lines : List (List Str)) (ip : Str) : Prop :=
  ∃ line ∈ lines, (eligibleRow line).isSome = true ∧ ip ∈ line.tail.dropLast

instance (lines : List (List Str)) (ip : Str) : Decidable (NodeAddress lines ip) :=
  inferInstanceAs (Decidable (∃ line ∈ lines, (eligibleRow line).isSome = true ∧
    ip ∈ line.tail.dropLast))

/-- The Service has good addresses only, or it keeps one, or one is free for it. -/
def Replaceable (lines : List (List Str)) (svc : Service) (used : Used) : Prop :=
  (∀ ip ∈ svc.ingress, NodeAddress lines ip) ∨
  ∃ family ∈ svc.svcFamilies,
    (∃ ip ∈ svc.ingress, famOf ip = family ∧ isEligibleIP (lines.filterMap eligibleRow) ip = true) ∨
    ∃ row ∈ lines.filterMap eligibleRow,
      nodeAddr (lines.filterMap eligibleRow) row.name family ≠ [] ∧
        conflicts (nodeAddr (lines.filterMap eligibleRow) row.name family) svc.ports used = false

variable {view : View} {lines : List (List Str)} {svc : Service} {used : Used}

theorem nodeAddress_of_row {row : NodeRow} {family : Family}
    (mem : row ∈ lines.filterMap eligibleRow) (present : row.addr family ≠ str "-") :
    NodeAddress lines (row.addr family) := by
  rcases List.mem_filterMap.mp mem with ⟨line, isLine, eligible⟩
  exact ⟨line, isLine, by rw [eligible]; rfl, (addr_of_eligibleRow eligible family present).1⟩

theorem nodeAddress_of_isEligibleIP {ip : Str} (present : ip ≠ str "-")
    (eligible : isEligibleIP (lines.filterMap eligibleRow) ip) : NodeAddress lines ip := by
  rcases List.any_eq_true.mp eligible with ⟨row, mem, isAddr⟩
  rcases Bool.or_eq_true_iff.mp isAddr with v4 | v6
  · obtain rfl : row.addr .v4 = ip := beq_iff_eq.mp v4
    exact nodeAddress_of_row mem present
  · obtain rfl : row.addr .v6 = ip := beq_iff_eq.mp v6
    exact nodeAddress_of_row mem present

theorem nodeAddress_of_wanted (valid : str "-" ∉ svc.ingress) {ip : Str}
    (wanted : ip ∈ (assign view (lines.filterMap eligibleRow) svc used).wantIPs) :
    NodeAddress lines ip := by
  have all : ∀ ip ∈ (assign view (lines.filterMap eligibleRow) svc used).wantIPs,
      NodeAddress lines ip := by
    refine List.foldlRecOn (motive := fun acc : Assignment => ∀ ip ∈ acc.wantIPs, NodeAddress lines ip)
      _ _ (fun _ mem => absurd mem List.not_mem_nil) ?_
    intro acc good family _
    have added : ∀ new changed used', NodeAddress lines new →
        ∀ ip ∈ (⟨acc.wantIPs ++ [new], changed, used'⟩ : Assignment).wantIPs, NodeAddress lines ip := by
      intro new changed used' isGood ip mem
      rcases List.mem_append.mp mem with old | last
      · exact good ip old
      · rwa [List.mem_singleton.mp last]
    rcases assignFamily_cases view (lines.filterMap eligibleRow) svc acc family with
      ⟨ip, first, same⟩ | ⟨ip, _, chosen, same⟩ | ⟨_, _, same⟩
    · rw [same]
      rcases firstEligible_spec first with ⟨mem, _, eligible⟩
      exact added _ _ _ (nodeAddress_of_isEligibleIP (fun dash => valid (dash ▸ mem)) eligible)
    · rw [same]
      rcases chooseAddr_row chosen with ⟨present, row, mem, rfl⟩
      exact added _ _ _ (nodeAddress_of_row mem present)
    · rw [same]
      exact good
  exact all ip wanted

theorem settle_good_iff (valid : str "-" ∉ svc.ingress) :
    (∀ ip ∈ (settle view (lines.filterMap eligibleRow) (svc, used)).ingress, NodeAddress lines ip) ↔
      Replaceable lines svc used := by
  have found : (assign view (lines.filterMap eligibleRow) svc used).wantIPs ≠ [] ↔
      ∃ family ∈ svc.svcFamilies,
        (∃ ip ∈ svc.ingress, famOf ip = family ∧
          isEligibleIP (lines.filterMap eligibleRow) ip = true) ∨
        ∃ row ∈ lines.filterMap eligibleRow,
          nodeAddr (lines.filterMap eligibleRow) row.name family ≠ [] ∧
            conflicts (nodeAddr (lines.filterMap eligibleRow) row.name family) svc.ports used =
              false := by
    rw [ne_eq, assign, wantIPs_eq_nil_iff]
    simp only [firstEligible_eq_none_iff, chooseAddr_eq_none_iff, true_and, not_forall, not_and_or,
      exists_prop, Bool.not_eq_true, Bool.not_eq_false]
  have wanted : ∀ ip ∈ (assign view (lines.filterMap eligibleRow) svc used).wantIPs,
      NodeAddress lines ip := fun ip mem => nodeAddress_of_wanted valid mem
  unfold Replaceable
  rw [← found, settle]
  cases patched : (assign view (lines.filterMap eligibleRow) svc used).patches svc with
  | true =>
    exact ⟨fun _ => Or.inr (patches_iff.mp patched).1, fun _ => wanted⟩
  | false =>
    simp only [Bool.false_eq_true, if_false]
    refine ⟨Or.inl, ?_⟩
    rintro (good | nonempty)
    · exact good
    · intro ip mem
      -- Not patched although there are addresses: all of the old ones are among them.
      by_contra bad
      have patches := patches_iff.mpr
        ⟨nonempty, Or.inr ⟨ip, mem, fun kept => bad (wanted ip kept)⟩⟩
      rw [patched] at patches
      cases patches

theorem forall_mem_pass {services : Services} (works : view.Works lines)
    (nonempty : lines.filterMap eligibleRow ≠ []) {holds : Service → Prop} :
    (∀ svc ∈ (pass view services).all, holds svc) ↔
      ∀ state ∈ sweepStates view (lines.filterMap eligibleRow) services.all
        (firstSweep (lines.filterMap eligibleRow) services.all []),
          holds (settle view (lines.filterMap eligibleRow) state) := by
  rw [pass_all works nonempty, List.forall_mem_map]

/-- Services with port 80, of which the second has the address of a node that is gone. -/
def staleServices : Services where
  all := [⟨str "default", str "web", [str "80"], [str "IPv4"], [str "10.0.0.1"], default_ne_nil⟩,
    ⟨str "default", str "api", [str "80"], [str "IPv4"], [str "10.0.0.9"], default_ne_nil⟩]
  distinct := by decide

def oneWorker : View := { twoWorkers with workers := some (workerLines.take 1) }

end Kiac.LoadBalancer
