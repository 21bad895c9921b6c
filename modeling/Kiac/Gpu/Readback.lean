import Kiac.Gpu.Discipline

/-!
# What the probe reports

The probe returns no error only if its wait for the fence has succeeded and each word that it has
read back since is the sentinel. With what it leaves behind, this is all that its caller relies
on, whatever the driver does.
-/

namespace Kiac.Gpu

/-- A wait for the fence has succeeded, and each of the first words has since been read as the
sentinel. -/
def Passed (count : ℕ) (log : List Entry) : Prop :=
  ∃ before device fence timeout after,
    log = before ++ ⟨.waitForFences device fence timeout, vkSuccess⟩ :: after ∧
      ∀ index < count, (⟨.readWord index, vulkanProbeSentinel⟩ : Entry) ∈ after

section Steps

variable {ε : Type} {fail : ProbeErr → ε} {count : ℕ} {log : List Entry}

theorem Passed.snoc (passed : Passed count log) (entry : Entry) : Passed count (log ++ [entry]) := by
  rcases passed with ⟨before, device, fence, timeout, after, rfl, words⟩
  refine ⟨before, device, fence, timeout, after ++ [entry], by simp, ?_⟩
  intro index small
  exact List.mem_append_left _ (words index small)

theorem Passed.succ (passed : Passed count log) :
    Passed (count + 1) (log ++ [⟨.readWord count, vulkanProbeSentinel⟩]) := by
  rcases passed with ⟨before, device, fence, timeout, after, rfl, words⟩
  refine ⟨before, device, fence, timeout, after ++ [⟨.readWord count, vulkanProbeSentinel⟩],
    by simp, ?_⟩
  intro index small
  rcases Nat.lt_succ_iff_lt_or_eq.mp small with earlier | rfl
  · exact List.mem_append_left _ (words index earlier)
  · exact List.mem_append_right _ List.mem_cons_self

theorem triple_growing {α : Type} {invariant : List Entry → Prop}
    (grows : ∀ log entry, invariant log → invariant (log ++ [entry]))
    (program : Prog VkOp VkOp.Ans α) :
    Triple anyDriver invariant program fun _ => invariant := by
  induction program with
  | done value => exact fun _ => id
  | call op next ih =>
    intro log holds
    exact ⟨trivial, fun answers _ => ih _ _ (grows log ⟨op, answers op⟩ holds)⟩

theorem exits_any {α : Type} (program : VkAction ε α) :
    Exits anyDriver (fun _ => True) program (fun _ _ => True) fun _ _ => True := by
  apply (triple_growing (fun _ _ _ => trivial) program.run).weaken (fun _ _ => trivial)
  intro result log _
  cases result <;> trivial

theorem exits_passed {α : Type} (program : VkAction ε α) :
    Exits anyDriver (Passed count) program (fun _ => Passed count) fun _ _ => True := by
  apply (triple_growing (fun _ entry passed => passed.snoc entry) program.run).weaken
    (fun _ => id)
  intro result log passed
  cases result with
  | ok value => exact passed
  | error err => trivial

theorem exits_demand {pre : List Entry → Prop} {holds : Prop} [Decidable holds] {err : ProbeErr} :
    Exits anyDriver pre (require fail holds err) (fun _ log => pre log ∧ holds) fun _ _ => True :=
  exits_require fun _ _ _ => trivial

end Steps

section Body

variable {vk physical device queue command : Handle} {family : ℕ} {locals : Locals}

theorem passed_submitCommands :
    Exits anyDriver (fun _ => True) (submitCommands device queue command locals)
      (fun _ => Passed 0) fun _ _ => True := by
  refine (exits_any _).bind fun fence => ?_
  refine (exits_any _).bind fun _ => ?_
  refine (exits_any _).bind fun result => ?_
  refine (exits_any _).bind fun _ => ?_
  refine (exits_any _).bind fun _ => ?_
  refine (exits_any _).bind fun deadline => ?_
  refine (exits_any _).bind fun _ => ?_
  have waits : Triple anyDriver (fun _ => True) (Prog.perform (VkOp.waitForFences device fence
      (deadline.elim vulkanProbeFenceTimeout (min vulkanProbeFenceTimeout))))
      fun result log => result = vkSuccess → Passed 0 log := by
    apply triple_perform
    rintro log result _ rfl
    exact ⟨log, device, fence, _, [], rfl, by simp⟩
  refine (Exits.lift waits).bind fun result => ?_
  refine (exits_demand).bind fun _ => ?_
  apply Exits.assume
  intro _
  refine (exits_demand).bind fun _ => ?_
  apply Exits.assume
  intro successful
  exact Exits.pure fun log waited => waited successful

theorem passed_readBack (index count : ℕ) :
    Exits anyDriver (Passed index) (readBack locals index count)
      (fun _ => Passed (index + count)) fun _ _ => True := by
  induction count generalizing index with
  | zero => exact Exits.pure fun _ => id
  | succ count ih =>
    have reads : Triple anyDriver (Passed index) (Prog.perform (VkOp.readWord index))
        fun value log => value = vulkanProbeSentinel → Passed (index + 1) log := by
      apply triple_perform
      rintro log value passed rfl
      exact passed.succ
    refine (Exits.lift reads).bind fun value => ?_
    refine exits_demand.bind fun _ => ?_
    apply Exits.assume
    intro isSentinel
    have next := ih (index + 1)
    rw [Nat.add_right_comm] at next
    exact fun log passed => next log (passed isSentinel)

theorem passed_useDevice :
    Exits anyDriver (fun _ => True) (useDevice physical device family)
      (fun _ => Passed (vulkanProbeBytes / 4)) fun _ _ => True := by
  refine (exits_any _).bind fun _ => ?_
  refine (exits_any _).bind fun queue => ?_
  refine (exits_any _).bind fun _ => ?_
  refine (exits_any _).bind fun _ => ?_
  refine (exits_any _).bind fun locals => ?_
  refine (exits_any _).bind fun _ => ?_
  refine (exits_any _).bind fun ⟨locals, command⟩ => ?_
  refine (exits_any _).bind fun _ => ?_
  refine passed_submitCommands.bind fun locals => ?_
  refine (exits_passed _).bind fun _ => ?_
  refine (passed_readBack 0 _).bind fun _ => ?_
  apply Exits.pure
  intro log passed
  rwa [Nat.zero_add] at passed

theorem passed_useInstance :
    Triple anyDriver (fun _ => True) (useInstance vk)
      fun result log => result.1 = .ok () → Passed (vulkanProbeBytes / 4) log := by
  refine (triple_growing (fun _ _ _ => trivial) _).bind fun created => ?_
  rcases created with err | ⟨physical, family, device⟩
  · exact Triple.done fun _ _ impossible => by cases impossible
  · refine Triple.bind passed_useDevice fun result => ?_
    rcases result with ⟨locals, err⟩ | locals
    · refine (triple_growing (fun _ _ _ => trivial) _).bind fun running => ?_
      exact Triple.done fun _ _ impossible => by cases impossible
    · refine (triple_growing (fun _ entry passed => passed.snoc entry) _).bind fun running => ?_
      exact Triple.done fun _ passed _ => passed

theorem passed_probeVulkan :
    Exits anyDriver (fun _ => True) probeVulkan (fun _ => Passed (vulkanProbeBytes / 4))
      fun _ _ => True := by
  refine (exits_any _).bind fun _ => ?_
  refine (exits_any _).bind fun vk => ?_
  refine (Exits.lift passed_useInstance).bind fun ⟨result, running⟩ => ?_
  have destroys : Triple anyDriver
      (fun log => result = .ok () → Passed (vulkanProbeBytes / 4) log)
      (destroyIf (running = false) (Prog.perform (VkOp.destroyInstance vk)))
      fun _ log => result = .ok () → Passed (vulkanProbeBytes / 4) log :=
    triple_growing (fun _ entry passed isOk => (passed isOk).snoc entry) _
  refine (Exits.lift destroys).bind fun _ => ?_
  cases result with
  | error err => exact fun _ _ => trivial
  | ok value => exact fun _ passed => passed rfl

end Body

/-- The log of a run of the probe with a driver that answers as it likes, and what the probe
returns. -/
def probe (driver : List Entry → (op : VkOp) → op.Ans) : List Entry × Except ProbeErr Unit :=
  probeVulkan.run.follow vkMachine (fun _ log => driver log) []

/-- Whatever the driver answers, the probe returns and has destroyed what it has created, once
and in order, and nothing while commands may be running; it leaves something behind only if they
may still be, and reports success only if the fence was waited for and the words are right. -/
theorem probe_disciplined (driver : List Entry → (op : VkOp) → op.Ans) :
    Disciplined (probe driver).1 ∧
      (inFlight (probe driver).1 = false → ∀ object ∈ (probe driver).1.filterMap created,
        object ∈ (probe driver).1.filterMap destroyed) ∧
      ((probe driver).2 = .ok () → Passed 16 (probe driver).1) := by
  have settles : Triple anyDriver (Holds [] [] false) probeVulkan.run fun _ => Settled := by
    apply Triple.weaken exits_probeVulkan (fun _ => id)
    intro result log settled
    cases result with
    | ok value => exact settled
    | error err => exact settled
  have passes : Triple anyDriver (fun _ => True) probeVulkan.run
      fun result log => result = .ok () → Passed 16 log := by
    apply Triple.weaken passed_probeVulkan (fun _ => id)
    rintro result log passed rfl
    exact passed
  have settled : Settled (probe driver).1 :=
    Prog.wp_follow (fun _ _ => trivial) (settles [] Holds.initially)
  have passed : (probe driver).2 = .ok () → Passed 16 (probe driver).1 :=
    Prog.wp_follow (fun _ _ => trivial) (passes [] trivial)
  exact ⟨settled.1, settled.2, passed⟩

end Kiac.Gpu
