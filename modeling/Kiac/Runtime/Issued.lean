import Kiac.Program.Triple
import Kiac.Runtime.Routed

/-!
# What the routed runtime issues

Each helper of the routed runtime issues a few operations. Whatever they answer, a program
made of these helpers issues no others.
-/

namespace Kiac.Runtime

variable {allowed : Op → Prop} {α : Type}

variable {result : Except Err α} {post : α → Prop} {holds : Bool} {action : Action α}

@[simp]
theorem acts_fromResult_iff :
    Acts allowed post (fromResult result) ↔ ∀ value, result = .ok value → post value := by
  cases result with
  | ok value => exact ⟨fun holds _ same => Except.ok.inj same ▸ holds, fun holds => holds value rfl⟩
  | error err => exact ⟨fun _ _ same => (nomatch same), fun _ => trivial⟩

theorem acts_any :
    (∀ result, Acts allowed post (fromResult result)) ↔ ∀ value, post value := by
  simp only [acts_fromResult_iff]
  exact ⟨fun holds value => holds _ value rfl, fun holds _ value _ => holds value⟩

variable {name : Str} {post : Unit → Prop}

@[simp]
theorem issues_backendFor_iff {post : Backend → Prop} :
    Issues allowed post (backendFor name) ↔ allowed (.owns name) ∧ ∀ backend, post backend := by
  refine and_congr_right fun _ => ⟨fun holds backend => ?_, fun holds owned => ?_⟩
  · cases backend with
    | container => exact holds false
    | krunkit => exact holds true
  · cases owned <;> exact holds _

@[simp]
theorem acts_start_iff :
    Acts allowed post (start name) ↔
      allowed (.owns name) ∧ ∀ backend, allowed (.start backend name) ∧ ∀ out, post out :=
  Issues.bind_iff.trans (issues_backendFor_iff.trans (and_congr_right fun _ =>
    forall_congr' fun _ => and_congr_right fun _ => acts_any))

@[simp]
theorem acts_stop_iff :
    Acts allowed post (stop name) ↔
      allowed (.owns name) ∧ ∀ backend, allowed (.stop backend name) ∧ ∀ out, post out :=
  Issues.bind_iff.trans (issues_backendFor_iff.trans (and_congr_right fun _ =>
    forall_congr' fun _ => and_congr_right fun _ => acts_any))

@[simp]
theorem acts_guest_iff {node : Str} {step : GuestStep} {post : Str → Prop} :
    Acts allowed post (guest node step) ↔ allowed (.guest node step) ∧ ∀ out, post out :=
  and_congr_right fun _ => acts_any

@[simp]
theorem acts_host_iff {step : HostStep} {post : Str → Prop} :
    Acts allowed post (host step) ↔ allowed (.host step) ∧ ∀ out, post out :=
  and_congr_right fun _ => acts_any

@[simp]
theorem acts_runDetached {opts : RunOpts} (owns : allowed (.owns opts.name))
    (runs : ∀ backend, allowed (.run backend opts)) :
    Does allowed (runDetached opts) := by
  unfold runDetached
  split
  · exact ⟨runs _, fun _ => acts_any.mpr (fun _ => trivial) _⟩
  · refine Issues.bind_iff.mpr (issues_backendFor_iff.mpr ⟨owns, fun backend => ?_⟩)
    exact ⟨runs backend, fun _ => acts_any.mpr (fun _ => trivial) _⟩

theorem acts_list {start : Str} (lists : ∀ backend, allowed (.list backend start)) :
    Does allowed (list start) :=
  ⟨lists .container, fun _ => ⟨lists .krunkit, fun _ => acts_any.mpr (fun _ => trivial) _⟩⟩

theorem returns_fromResult {State : Type} {Choice : Type}
    {setting : Setting Op Op.Ans State Choice} {holds failed : State → Prop}
    (weaker : ∀ state, holds state → failed state) :
    Returns setting holds (fromResult result)
      (fun value state => holds state ∧ result = .ok value) failed := by
  cases result with
  | ok value => exact fun state before => ⟨before, rfl⟩
  | error err => exact weaker

@[simp]
theorem acts_check_iff {err : Err} :
    Acts allowed post (check holds err) ↔ (holds → post ()) := by
  unfold check
  split <;> simp [*]

@[simp]
theorem acts_onlyIf_iff :
    Acts allowed post (onlyIf holds action) ↔
      (holds → Acts allowed (fun _ => post ()) action) ∧ (holds = false → post ()) := by
  simp [onlyIf]

@[simp]
theorem acts_attempt_iff :
    Does allowed (attempt action) ↔ Does allowed action := by
  refine Issues.bind_iff.trans ⟨fun issues => ?_, fun acts => ?_⟩
  · exact issues.mono (fun _ => id) fun result _ => by
      cases result <;> trivial
  · exact Issues.mono acts (fun _ => id) fun _ _ => trivial

section Confinement

variable {only : Str → Prop} {backend : Backend} {name start node : Str} {step : GuestStep}

@[simp]
theorem touchesOnly_start_iff : (Op.start backend name).TouchesOnly only ↔ only name := by
  simp [Op.TouchesOnly, Op.touches]

@[simp]
theorem touchesOnly_stop_iff : (Op.stop backend name).TouchesOnly only ↔ only name := by
  simp [Op.TouchesOnly, Op.touches]

@[simp]
theorem touchesOnly_guest : (Op.guest node step).TouchesOnly only :=
  touchesOnly_of_quiet fun _ => rfl

@[simp]
theorem touchesOnly_host {step : HostStep} : (Op.host step).TouchesOnly only :=
  touchesOnly_of_quiet fun _ => rfl

@[simp]
theorem touchesOnly_list : (Op.list backend start).TouchesOnly only :=
  touchesOnly_of_quiet fun _ => rfl

@[simp]
theorem touchesOnly_owns : (Op.owns name).TouchesOnly only := touchesOnly_of_quiet fun _ => rfl

@[simp]
theorem touchesOnly_run {opts : RunOpts} : (Op.run backend opts).TouchesOnly only :=
  touchesOnly_of_quiet fun _ => rfl

variable {post : α → Prop}

theorem Confined.of_issues {program : Prog Op Op.Ans α}
    (issues : Issues (Op.TouchesOnly only) post program) : Confined only program post := by
  intro state
  induction program generalizing state with
  | done value => exact issues
  | call op next ih => exact ⟨issues.1, fun _ _ => ih _ (issues.2 _) _⟩

theorem Within.of_acts {action : Action α}
    (acts : Acts (Op.TouchesOnly only) post action) : Within only action post := by
  apply (Confined.of_issues acts).mono
  intro result holds
  cases result <;> exact holds

end Confinement

end Kiac.Runtime
