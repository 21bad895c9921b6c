import Kiac.Cluster.Retry

/-!
# Resuming again

After a `Resume` that stopped anywhere, a second one is run in which every command succeeds.
It heals the control plane unless the first one has left it torn: the second one reads the new
address from `admin.conf` and takes the control plane for healed.
-/

namespace Kiac.Cluster

open Kiac.Runtime

/-- Every command succeeds: a VM that is started comes up, containerd is active in it, and
every node has an IPv4 address. -/
def AllSucceed (cp : Str) (op : Op) (choice : HealChoice) (site : Site) : Prop :=
  Boots cp op choice site ∧ choice.command.succeeds = true ∧ choice.comesUp = true ∧
    (∀ node, op = .guest node .isActiveContainerd → choice.command.text = str "active") ∧
    (∀ node, op = .guest node .ip → (Net.parseIP choice.command.text).any Net.isV4 = true)

/-- The second `Resume`. -/
def resuming (cp new : Str) : Setting Op Op.Ans Site HealChoice where
  machine := healMachine cp new
  fair := AllSucceed cp
  guard := fun _ _ => True

def Succeeds {α : Type} (cp new : Str) (before : Site → Prop) (action : Action α)
    (after : α → Site → Prop) : Prop :=
  Returns (resuming cp new) before action after fun _ => False

def Up (holds : ControlPlaneVM → Prop) (site : Site) : Prop := site.vm.up = true ∧ holds site.vm

structure Heals (new : Str) (before after : ControlPlaneVM → Prop) : Prop where
  boots : ∀ vm choice, before vm → choice.disk.files .adminConf = vm.disk.files .adminConf →
    before (vm.boot choice)
  pins : ∀ vm choice, before vm → before (vm.pin choice)
  recorded : ∀ vm, before vm → ∃ old, vm.disk.recorded = some old ∧ (old = new → after vm) ∧
    (old ≠ new → ∀ choice : HealChoice, choice.command.succeeds = true →
      after (vm.heal choice old new))
  readable : ∀ vm, after vm → (vm.disk.files .adminConf).isSome = true

section Steps

variable {cp new : Str} {α β : Type} {holds before after : ControlPlaneVM → Prop}

variable {pre : Site → Prop} {step : GuestStep}

theorem Succeeds.bind {action : Action α} {next : α → Action β}
    {middle : α → Site → Prop} {post : β → Site → Prop}
    (first : Succeeds cp new pre action middle)
    (second : ∀ value, Succeeds cp new (middle value) (next value) post) :
    Succeeds cp new pre (action >>= next) post := Returns.bind first second

theorem succeeds_guest_cp {post : Str → Site → Prop}
    (steps : ∀ site choice, pre site → AllSucceed cp (.guest cp step) choice site →
      ∃ text, (site.vm.step new choice step).2 = .ok text ∧
        post text { site with vm := (site.vm.step new choice step).1 }) :
    Succeeds cp new pre (guest cp step) post := by
  refine Triple.perform (fun _ _ => trivial) ?_
  intro site choice isPre fair
  rcases steps site choice isPre fair with ⟨text, answer, isPost⟩
  have stepped : (resuming cp new).machine.step (.guest cp step) choice site =
      ({ site with vm := (site.vm.step new choice step).1 }, .ok text) := by
    rw [← answer]
    exact if_pos rfl
  rw [stepped]
  exact isPost

variable {choice : HealChoice} {node : Str}

theorem output_ok (succeeds : choice.command.succeeds) :
    choice.command.output = .ok choice.command.text := if_pos succeeds

theorem succeeds_guest_of_ne (other : node ≠ cp) :
    Succeeds cp new pre (guest node step) fun text site => pre site ∧
      (step = .isActiveContainerd → text = str "active") ∧
      (step = .ip → (Net.parseIP text).any Net.isV4) := by
  refine Triple.perform (fun _ _ => trivial) ?_
  intro site choice isPre fair
  have stepped : (resuming cp new).machine.step (.guest node step) choice site =
      (site, .ok choice.command.text) := by
    rw [← output_ok fair.2.1]
    exact if_neg other
  rw [stepped]
  refine ⟨isPre, ?_, ?_⟩
  · rintro rfl
    exact fair.2.2.2.1 node rfl
  · rintro rfl
    exact fair.2.2.2.2 node rfl

def GuestStep.Plain : GuestStep → Prop
  | .ip => False
  | .catAdminConf => False
  | step => GuestStep.Reads step

theorem step_of_plain (plain : GuestStep.Plain step) {vm : ControlPlaneVM} (up : vm.up) :
    vm.step new choice step = (vm, choice.command.output) := by
  rw [ControlPlaneVM.step.eq_def, if_pos up]
  cases step <;> first | rfl | exact plain.elim

theorem succeeds_plain (node : Str) (plain : GuestStep.Plain step) :
    Succeeds cp new (Up holds) (guest node step) fun text site => Up holds site ∧
      (step = .isActiveContainerd → text = str "active") := by
  by_cases isCP : node = cp
  · subst isCP
    refine succeeds_guest_cp ?_
    intro site choice isUp fair
    rw [step_of_plain plain isUp.1]
    refine ⟨_, output_ok fair.2.1, isUp, ?_⟩
    rintro rfl
    exact fair.2.2.2.1 node rfl
  · exact (succeeds_guest_of_ne isCP).weaken (fun _ => id)
      (fun _ _ post => ⟨post.1, post.2.1⟩) fun _ => id

theorem succeeds_reads (node : Str) (plain : GuestStep.Plain step) :
    Succeeds cp new (Up holds) (guest node step) fun _ => Up holds :=
  (succeeds_plain node plain).weaken (fun _ => id) (fun _ _ post => post.1)
    fun _ => id

theorem succeeds_ip :
    Succeeds cp new (Up holds) (guest cp .ip) fun text site => Up holds site ∧ text = new := by
  refine succeeds_guest_cp ?_
  intro site choice isUp fair
  refine ⟨new, ?_, ?_⟩
  · rw [ControlPlaneVM.step, if_pos isUp.1, output_ok fair.2.1]
    rfl
  · rw [step_of_reads .ip trivial]
    exact ⟨isUp, rfl⟩

theorem succeeds_ip_isV4 (isV4 : (Net.parseIP new).any Net.isV4) (node : Str) :
    Succeeds cp new (Up holds) (guest node .ip) fun text site =>
      Up holds site ∧ (Net.parseIP text).any Net.isV4 := by
  by_cases isCP : node = cp
  · subst isCP
    refine succeeds_ip.weaken (fun _ => id) ?_ fun _ => id
    rintro text site ⟨isUp, rfl⟩
    exact ⟨isUp, isV4⟩
  · exact (succeeds_guest_of_ne isCP).weaken (fun _ => id)
      (fun _ _ post => ⟨post.1, post.2.2 rfl⟩) fun _ => id

theorem succeeds_catAdminConf
    (readable : ∀ vm, holds vm → (vm.disk.files .adminConf).isSome) :
    Succeeds cp new (Up holds) (guest cp .catAdminConf) fun text site =>
      Up holds site ∧ site.vm.disk.files .adminConf = some text := by
  refine succeeds_guest_cp ?_
  intro site choice isUp fair
  rcases Option.isSome_iff_exists.mp (readable site.vm isUp.2) with ⟨content, exists'⟩
  refine ⟨content, ?_, ?_⟩
  · rw [ControlPlaneVM.step, if_pos isUp.1]
    simp only [exists', output_ok fair.2.1]
    rfl
  · rw [step_of_reads .catAdminConf trivial]
    exact ⟨isUp, exists'⟩

theorem succeeds_pin (kept : ∀ vm choice, holds vm → holds (vm.pin choice))
    (pins : ∀ (vm : ControlPlaneVM) choice, vm.up →
      vm.step new choice step = (vm.pin choice, choice.command.output)) (node : Str) :
    Succeeds cp new (Up holds) (guest node step) fun _ => Up holds := by
  by_cases isCP : node = cp
  · subst isCP
    refine succeeds_guest_cp ?_
    intro site choice isUp fair
    rw [pins site.vm choice isUp.1]
    refine ⟨_, output_ok fair.2.1, ?_, kept site.vm choice isUp.2⟩
    unfold ControlPlaneVM.pin
    split
    · exact isUp.1
    · split <;> exact isUp.1
  · exact (succeeds_guest_of_ne isCP).weaken (fun _ => id)
      (fun _ _ post => post.1) fun _ => id

theorem succeeds_host (step : HostStep) :
    Succeeds cp new pre (host step) fun _ => pre := by
  refine Triple.perform (fun _ _ => trivial) ?_
  intro site choice isPre fair
  have stepped : (resuming cp new).machine.step (.host step) choice site =
      (site, .ok choice.command.text) := by
    rw [← output_ok fair.2.1]
    rfl
  rw [stepped]
  exact isPre

theorem triple_backendFor (name : Str) :
    Triple (resuming cp new) pre (backendFor name) fun _ => pre := by
  have owns : Triple (resuming cp new) pre (Prog.perform (Op.owns name)) fun _ => pre :=
    Triple.perform (fun _ _ => trivial) fun _ _ isPre _ => isPre
  refine owns.bind fun owned => ?_
  cases owned <;> exact fun _ => id

theorem succeeds_start_cp (kept : ∀ vm choice, holds vm →
      choice.disk.files .adminConf = vm.disk.files .adminConf → holds (vm.boot choice)) :
    Succeeds cp new (fun site => holds site.vm) (start cp) fun _ => Up holds := by
  refine (triple_backendFor cp).bind fun backend => Triple.perform (fun _ _ => trivial) ?_
  intro site choice isBefore fair
  have result : choice.command.result = .ok () := if_pos fair.2.1
  have acts : choice.command.acts cp := by simp [Choice.acts, fair.2.1]
  have stepped : (resuming cp new).machine.step (.start backend cp) choice site =
      (⟨(Runtime.step (.start backend cp) choice.command site.host).1, site.vm.boot choice⟩,
        .ok ()) := by
    rw [← result]
    change (Site.mk _ (if _ then _ else _), _) = _
    rw [if_pos ⟨rfl, acts⟩]
  rw [stepped]
  refine ⟨?_, kept site.vm choice isBefore (fair.1 rfl)⟩
  unfold ControlPlaneVM.boot
  split
  · rename_i up
    exact up
  · exact fair.2.2.1

theorem succeeds_start_of_ne (other : node ≠ cp) :
    Succeeds cp new (Up holds) (start node) fun _ => Up holds := by
  refine (triple_backendFor node).bind fun backend => Triple.perform (fun _ _ => trivial) ?_
  intro site choice isUp fair
  have result : choice.command.result = .ok () := if_pos fair.2.1
  have stepped : (resuming cp new).machine.step (.start backend node) choice site =
      (⟨(Runtime.step (.start backend node) choice.command site.host).1, site.vm⟩, .ok ()) := by
    rw [← result]
    change (Site.mk _ (if _ then _ else _), _) = _
    rw [if_neg fun acts => other acts.1]
  rw [stepped]
  exact isUp

end Steps

section Actions

variable {cp new : Str} {α : Type} {before after holds : ControlPlaneVM → Prop}

variable {pre : Site → Prop} {action : Action α} {polls : ℕ} {old : Str}

theorem succeeds_check {isTrue : Bool} {err : Err} (holds : isTrue) :
    Succeeds cp new pre (check isTrue err) fun _ => pre := by
  rw [check, if_pos holds]
  exact Returns.pure fun _ => id

theorem succeeds_fromResult {result : Except Err α} {value : α} (ok : result = .ok value) :
    Succeeds cp new pre (fromResult result) fun returned site => pre site ∧ returned = value := by
  rw [ok]
  exact fun _ isPre => ⟨isPre, rfl⟩

theorem succeeds_onlyIf (isTrue : Bool) (succeeds : Succeeds cp new pre action fun _ => pre) :
    Succeeds cp new pre (onlyIf isTrue action) fun _ => pre := by
  unfold onlyIf
  split
  · exact succeeds.bind fun _ => Returns.pure fun _ => id
  · exact Returns.pure fun _ => id

theorem succeeds_attempt (succeeds : Succeeds cp new pre action fun _ => pre) :
    Succeeds cp new pre (attempt action) fun _ => pre := by
  refine Triple.bind succeeds fun result => ?_
  cases result with
  | ok value => exact fun _ => id
  | error err => exact fun _ impossible => impossible.elim

theorem succeeds_retry (succeeds : Succeeds cp new pre action fun _ => pre) (attempts : ℕ) :
    Succeeds cp new pre (retry action attempts) fun _ => pre := by
  cases attempts with
  | zero => exact succeeds
  | succ attempts =>
    refine Triple.bind succeeds fun result => ?_
    cases result with
    | ok value => exact fun _ => id
    | error err => exact fun _ impossible => impossible.elim

theorem succeeds_probe (node : Str) {step : GuestStep} (plain : GuestStep.Plain step) :
    Succeeds cp new (Up holds) (probe node step) fun found site => Up holds site ∧ found := by
  refine Triple.bind (succeeds_reads node plain) fun result => ?_
  cases result with
  | ok value => exact fun _ isUp => ⟨isUp, rfl⟩
  | error err => exact fun _ impossible => impossible.elim

theorem succeeds_restartKiacLB (node : Str) :
    Succeeds cp new (Up holds) (restartKiacLB node) fun _ => Up holds := by
  refine Succeeds.bind (succeeds_probe node trivial) fun installed => Returns.assume fun _ => ?_
  exact succeeds_onlyIf _ (succeeds_reads node trivial)

theorem succeeds_waitNodeBoot (waits : 0 < polls) (node : Str) :
    Succeeds cp new (Up holds) (waitNodeBoot polls node) fun died site =>
      Up holds site ∧ died = false := by
  rcases Nat.exists_eq_add_of_lt waits with ⟨more, rfl⟩
  have active : GuestStep.Plain .isActiveContainerd := trivial
  refine Triple.bind (succeeds_plain node active) fun result => ?_
  cases result with
  | error err => exact fun _ impossible => impossible.elim
  | ok text =>
    rintro site ⟨isUp, isActive⟩
    rw [isActive rfl]
    exact ⟨isUp, rfl⟩

theorem succeeds_bootAndWait (waits : 0 < polls) (node : Str) :
    Succeeds cp new (Up holds) (bootAndWait polls node) fun _ => Up holds := by
  refine (succeeds_waitNodeBoot waits node).bind fun died => Returns.assume ?_
  rintro rfl
  exact Returns.pure fun _ => id

theorem succeeds_bootKubeadmNode (waits : 0 < polls)
    (kept : ∀ vm choice, holds vm → holds (vm.pin choice)) (node : Str) :
    Succeeds cp new (Up holds) (bootKubeadmNode polls node) fun _ => Up holds := by
  refine (succeeds_bootAndWait waits node).bind fun _ => ?_
  refine Succeeds.bind (succeeds_reads node trivial) fun _ => ?_
  refine Succeeds.bind (succeeds_reads node trivial) fun _ => ?_
  refine (succeeds_pin kept ?_ node).bind fun _ => Returns.pure fun _ => id
  intro vm choice up
  rw [ControlPlaneVM.step, if_pos up]

theorem succeeds_bootKubeadmSystemdNode (isV4 : (Net.parseIP new).any Net.isV4)
    (kept : ∀ vm choice, holds vm → holds (vm.pin choice)) (node : Str) :
    Succeeds cp new (Up holds) (bootKubeadmSystemdNode node) fun _ => Up holds := by
  refine Succeeds.bind (succeeds_reads node trivial) fun _ => ?_
  refine Succeeds.bind (succeeds_reads node trivial) fun _ => ?_
  refine (succeeds_ip_isV4 isV4 node).bind fun nodeIP => Returns.assume fun nodeIsV4 => ?_
  refine (succeeds_check nodeIsV4).bind fun _ => ?_
  refine (succeeds_pin kept ?_ node).bind fun _ => Returns.pure fun _ => id
  intro vm choice up
  rw [ControlPlaneVM.step, if_pos up]

variable {name : Str} {workers : List Str}

theorem succeeds_startStopped {infos : List Info}
    (areWorkers : ∀ node ∈ workers, IsWorker name node)
    (kept : ∀ vm choice, holds vm →
      choice.disk.files .adminConf = vm.disk.files .adminConf → holds (vm.boot choice)) :
    Succeeds (controlPlane name) new (fun site => holds site.vm ∧
        (runningNode infos (controlPlane name) → site.vm.up))
      (startStopped infos (controlPlane name :: workers)) fun _ => Up holds := by
  have first : Succeeds (controlPlane name) new (fun site => holds site.vm ∧
        (runningNode infos (controlPlane name) = true → site.vm.up = true))
      (onlyIf (!runningNode infos (controlPlane name)) (start (controlPlane name)))
      fun _ => Up holds := by
    unfold onlyIf
    split
    · refine Succeeds.bind ?_ fun _ => Returns.pure fun _ => id
      exact (succeeds_start_cp kept).weaken (fun _ isPre => isPre.1) (fun _ _ => id)
        fun _ => id
    · rename_i running
      rw [Bool.not_eq_true', Bool.not_eq_false] at running
      exact Returns.pure fun site isPre => ⟨isPre.2 running, isPre.1⟩
  refine first.bind fun _ => ?_
  exact Returns.forM fun node mem =>
    succeeds_onlyIf _ (succeeds_start_of_ne (areWorkers node mem).2)

theorem succeeds_writeKubeconfig
    (readable : ∀ vm, holds vm → (vm.disk.files .adminConf).isSome) (name : Str) :
    Succeeds cp new (Up holds) (writeKubeconfig name cp .catAdminConf) fun _ => Up holds := by
  refine ((succeeds_catAdminConf readable).weaken (fun _ => id)
    (fun _ _ post => post.1) fun _ => id).bind fun _ => ?_
  refine (succeeds_host _).bind fun _ => ?_
  exact succeeds_attempt (succeeds_host _)

theorem succeeds_healScript (heals : Heals new before after) (differs : old ≠ new) :
    Succeeds cp new (fun site => Up before site ∧ site.vm.disk.recorded = some old)
      (guest cp (.healControlPlane old new)) fun _ => Up after := by
  refine succeeds_guest_cp ?_
  rintro site choice ⟨isUp, isRecorded⟩ fair
  have stepped : site.vm.step new choice (.healControlPlane old new) =
      (site.vm.heal choice old new, choice.command.output) := by
    rw [ControlPlaneVM.step, if_pos isUp.1]
  rw [stepped]
  refine ⟨_, output_ok fair.2.1, ?_, ?_⟩
  · exact (runCommands_frame _ site.vm).1.trans isUp.1
  · rcases heals.recorded site.vm isUp.2 with ⟨recorded, same, _, healed⟩
    rw [isRecorded, Option.some.injEq] at same
    subst same
    exact healed differs choice fair.2.1

theorem readable_of_heals (heals : Heals new before after) (vm : ControlPlaneVM)
    (isBefore : before vm) : (vm.disk.files .adminConf).isSome := by
  rcases heals.recorded vm isBefore with ⟨old, recorded, _⟩
  rcases Option.bind_eq_some_iff.mp recorded with ⟨content, exists', _⟩
  rw [exists']
  rfl

theorem succeeds_catRecorded (heals : Heals new before after) :
    Succeeds cp new (Up before) (guest cp .catAdminConf) fun text site =>
      Up before site ∧ ∃ old, apiServerIP text = some old ∧ site.vm.disk.recorded = some old := by
  refine (succeeds_catAdminConf (readable_of_heals heals)).weaken (fun _ => id) ?_
    fun _ => id
  rintro text site ⟨isUp, exists'⟩
  rcases heals.recorded site.vm isUp.2 with ⟨old, recorded, _⟩
  refine ⟨isUp, old, ?_, recorded⟩
  rw [Disk.recorded, exists'] at recorded
  exact recorded

theorem after_of_recorded (heals : Heals new before after) {site : Site}
    (isUp : Up before site) (recorded : site.vm.disk.recorded = some new) : Up after site := by
  refine ⟨isUp.1, ?_⟩
  rcases heals.recorded site.vm isUp.2 with ⟨old, same, unchanged, _⟩
  rw [recorded, Option.some.injEq] at same
  exact unchanged same.symm

theorem succeeds_onlyIf_heal (heals : Heals new before after) :
    Succeeds cp new (fun site => Up before site ∧ site.vm.disk.recorded = some old)
      (onlyIf (old != new) (guest cp (.healControlPlane old new))) fun _ => Up after := by
  unfold onlyIf
  split
  · rename_i differs
    exact (succeeds_healScript heals (bne_iff_ne.mp differs)).bind fun _ =>
      Returns.pure fun _ => id
  · rename_i same
    rw [bne_iff_ne, not_not] at same
    subst same
    exact Returns.pure fun _ isPre => after_of_recorded heals isPre.1 isPre.2

theorem succeeds_healControlPlane (isQuad : dottedQuad new) (heals : Heals new before after)
    (name : Str) :
    Succeeds cp new (Up before) (healControlPlane name cp) fun _ => Up after := by
  refine succeeds_ip.bind fun newIP => Returns.assume ?_
  rintro rfl
  refine (succeeds_check isQuad).bind fun _ => ?_
  refine (succeeds_catRecorded heals).bind fun adminRaw => ?_
  rintro site ⟨isUp, old, found, recorded⟩
  have rest : Succeeds cp newIP (fun site => Up before site ∧ site.vm.disk.recorded = some old)
      (onlyIf (old != newIP) (guest cp (.healControlPlane old newIP)) >>= fun _ => pure newIP)
      fun _ => Up after :=
    (succeeds_onlyIf_heal heals).bind fun _ => Returns.pure fun _ => id
  rw [recordedIP, found]
  exact rest site ⟨isUp, recorded⟩

theorem succeeds_healOrRestart (heals : Heals new before after) :
    Succeeds cp new (fun site => Up before site ∧ site.vm.disk.recorded = some old)
      (healOrRestart cp old new) fun _ => Up after := by
  unfold healOrRestart
  split
  · rename_i differs
    exact (succeeds_healScript heals differs).bind fun _ => Returns.pure fun _ => id
  · rename_i same
    rw [not_not] at same
    subst same
    refine Returns.weaken ?_ (fun site isPre => after_of_recorded heals isPre.1 isPre.2)
      (fun _ _ => id) fun _ => id
    refine Returns.bind (succeeds_probe cp trivial) fun active => Returns.assume ?_
    rintro rfl
    exact Returns.pure fun _ => id

theorem succeeds_healWorkers (areWorkers : ∀ node ∈ workers, IsWorker name node) (cpIP : Str) :
    Succeeds (controlPlane name) new (Up holds)
      (Prog.forAll (fun node => guest node (.healWorker cpIP)) workers) fun _ => Up holds :=
  Returns.forAll fun node mem =>
    (succeeds_guest_of_ne (areWorkers node mem).2).weaken (fun _ => id)
      (fun _ _ post => post.1) fun _ => id

end Actions

section Runs

variable {name new : Str} {before after : ControlPlaneVM → Prop}

def Shown (name : Str) (infos : List Info) (before : ControlPlaneVM → Prop) (site : Site) : Prop :=
  before site.vm ∧ (runningNode infos (controlPlane name) = true → site.vm.up = true)

variable {polls : ℕ} {infos : List Info}

theorem succeeds_resumeKubeadm (waits : 0 < polls)
    (isQuad : dottedQuad new) (heals : Heals new before after)
    {groups : Str × List Str} (ordered : orderNodes name infos = .ok groups) :
    Succeeds (controlPlane name) new (Shown name infos before) (resumeKubeadm polls name infos)
      fun _ => Up after := by
  refine (succeeds_fromResult ordered).bind fun returned => Returns.assume ?_
  rintro rfl
  rcases returned with ⟨cp, workers⟩
  rcases orderNodes_isWorker ordered with ⟨rfl, areWorkers⟩
  refine (succeeds_host _).bind fun _ => ?_
  refine (succeeds_startStopped areWorkers heals.boots).bind fun _ => ?_
  refine (Returns.forAll fun node _ =>
    succeeds_bootKubeadmNode waits heals.pins node).bind fun _ => ?_
  refine (succeeds_healControlPlane isQuad heals name).bind fun newIP => ?_
  refine (succeeds_healWorkers areWorkers newIP).bind fun _ => ?_
  refine Succeeds.bind (succeeds_reads _ trivial) fun _ => ?_
  have configMaps : GuestStep.Plain (.healConfigMaps newIP) := trivial
  refine (succeeds_retry (succeeds_reads _ configMaps) 5).bind fun _ => ?_
  refine Succeeds.bind (succeeds_reads _ trivial) fun _ => ?_
  refine Succeeds.bind (succeeds_attempt (succeeds_reads _ trivial)) fun _ => ?_
  exact succeeds_writeKubeconfig heals.readable name

theorem succeeds_resumeKubeadmSystemd
    (isV4 : (Net.parseIP new).any Net.isV4) (heals : Heals new before after)
    {groups : Str × List Str × List Str} (ordered : orderNodeGroups name infos = .ok groups) :
    Succeeds (controlPlane name) new (Shown name infos before) (resumeKubeadmSystemd name infos)
      fun _ => Up after := by
  refine (succeeds_fromResult ordered).bind fun returned => Returns.assume ?_
  rintro rfl
  rcases returned with ⟨cp, regular, gpu⟩
  rcases orderNodeGroups_isWorker ordered with ⟨rfl, areWorkers⟩
  refine (succeeds_host _).bind fun _ => ?_
  refine (succeeds_startStopped areWorkers heals.boots).bind fun _ => ?_
  refine (Returns.forAll fun node _ =>
    succeeds_bootKubeadmSystemdNode isV4 heals.pins node).bind fun updated => ?_
  refine succeeds_ip.bind fun newIP => Returns.assume ?_
  rintro rfl
  refine (succeeds_check isV4).bind fun _ => ?_
  refine (succeeds_catRecorded heals).bind fun adminRaw => ?_
  rintro site ⟨isUp, old, found, recorded⟩
  rw [found]
  refine (succeeds_healOrRestart heals).bind (fun _ => ?_) site ⟨isUp, recorded⟩
  refine Succeeds.bind (succeeds_reads _ trivial) fun _ => ?_
  refine (succeeds_healWorkers areWorkers newIP).bind fun _ => ?_
  have configMaps : GuestStep.Plain (.healConfigMaps newIP) := trivial
  refine (succeeds_retry (succeeds_reads _ configMaps) 5).bind fun _ => ?_
  refine Succeeds.bind (succeeds_reads _ trivial) fun _ => ?_
  refine Succeeds.bind (succeeds_onlyIf _ (succeeds_reads _ trivial)) fun _ => ?_
  refine Succeeds.bind (succeeds_onlyIf _ (succeeds_reads _ trivial)) fun _ => ?_
  refine Succeeds.bind (succeeds_reads _ trivial) fun _ => ?_
  refine Succeeds.bind (succeeds_reads _ trivial) fun _ => ?_
  refine (succeeds_restartKiacLB _).bind fun _ => ?_
  exact succeeds_writeKubeconfig heals.readable name

def clusterRows (name : Str) (host : Host) : List Info :=
  host.rows .container (nodePrefix name) ++ host.rows .krunkit (nodePrefix name)

structure KubeadmCluster (name : Str) (infos : List Info) : Prop where
  valid : validName name = true
  nonempty : infos ≠ []
  kubeadm : distroFromNodes infos = .kubeadm
  backends : ∃ krunkit, krunkitOnlyCluster infos = .ok krunkit
  ordered : ∃ groups, orderNodeGroups name infos = .ok groups

theorem succeeds_list {cp : Str} {pre : Site → Prop} (host : Host) (name : Str) :
    Succeeds cp new (fun site => pre site ∧ site.host = host) (list (nodePrefix name))
      fun infos site => pre site ∧ infos = clusterRows name host := by
  have rows : ∀ backend, Triple (resuming cp new) (fun site => pre site ∧ site.host = host)
      (Prog.perform (Op.list backend (nodePrefix name))) fun answer site =>
        (pre site ∧ site.host = host) ∧ answer = .ok (host.rows backend (nodePrefix name)) := by
    intro backend
    refine Triple.perform (fun _ _ => trivial) ?_
    rintro site choice ⟨isPre, rfl⟩ fair
    exact ⟨⟨isPre, rfl⟩, if_pos fair.2.1⟩
  refine (rows .container).bind fun primary => ?_
  rintro site ⟨isPre, rfl⟩
  refine (rows .krunkit).bind (fun alternate => ?_) site isPre
  rintro site ⟨isPre, rfl⟩
  rw [Prog.pure_eq_done, mergeRows_ok]
  exact ⟨isPre.1, rfl⟩

theorem succeeds_resume (waits : 0 < polls) {host : Host}
    (isQuad : dottedQuad new) (isV4 : (Net.parseIP new).any Net.isV4)
    (heals : Heals new before after) (cluster : KubeadmCluster name (clusterRows name host)) :
    Succeeds (controlPlane name) new
      (fun site => Shown name (clusterRows name host) before site ∧ site.host = host)
      (resume polls name) fun _ => Up after := by
  refine (succeeds_check cluster.valid).bind fun _ => ?_
  refine (succeeds_list host name).bind fun infos => Returns.assume ?_
  rintro rfl
  refine (succeeds_check (by simpa using cluster.nonempty)).bind fun _ => ?_
  rw [if_neg (by rw [cluster.kubeadm]; exact Distro.noConfusion)]
  rcases cluster.backends with ⟨krunkit, backends⟩
  rcases cluster.ordered with ⟨⟨cp, regular, gpu⟩, ordered⟩
  refine (succeeds_fromResult backends).bind fun returned => Returns.assume ?_
  rintro rfl
  cases returned with
  | true => exact succeeds_resumeKubeadmSystemd isV4 heals ordered
  | false =>
    have nodes : orderNodes name (clusterRows name host) = .ok (cp, regular ++ gpu) := by
      rw [orderNodes, ordered]
      rfl
    exact succeeds_resumeKubeadm waits isQuad heals nodes

end Runs

section Retries

variable {old new : Str}

theorem heals_fresh (differs : old ≠ new) :
    Heals new (Fresh old) fun vm =>
      Healed old new vm ∧ (vm.disk.files .adminConf).isSome = true where
  boots vm choice fresh kept := fresh_boot fresh kept
  pins vm choice fresh := fresh_pin fresh
  recorded vm fresh := by
    refine ⟨old, by rw [fresh.1]; exact fresh.2, fun same => absurd same differs, ?_⟩
    intro _ choice succeeds
    have healed : Healed old new (vm.heal choice old new) := by
      simp only [ControlPlaneVM.heal, succeeds, if_true]
      exact healed_script fresh
    refine ⟨healed, ?_⟩
    have sameBase : (vm.heal choice old new).base = vm.base := (runCommands_frame _ vm).2.2
    rcases Option.bind_eq_some_iff.mp fresh.2 with ⟨content, exists', _⟩
    rw [healed.1, sameBase]
    simp [Disk.heal, exists']
  readable vm healed := healed.2

variable {vm : ControlPlaneVM}

theorem heals_recorded (up : vm.up) (pinned : vm.pinned)
    (recorded : vm.disk.recorded = some new) : Heals new (· = vm) (· = vm) where
  boots other choice same _ := by
    rw [same, ControlPlaneVM.boot, if_pos up]
  pins other choice same := by
    rw [same, ControlPlaneVM.pin, if_pos pinned]
  recorded other same := by
    refine ⟨new, by rw [same]; exact recorded, fun _ => same, fun differs => absurd rfl differs⟩
  readable other same := by
    rcases Option.bind_eq_some_iff.mp recorded with ⟨content, exists', _⟩
    rw [same, exists']
    rfl

def assist (op : Op) (site : Site) : HealChoice where
  command :=
    { succeeds := true
      acted := fun _ => true
      text := match op with
        | .guest _ .ip => str "192.168.64.3"
        | _ => str "active" }
  cut := 0
  comesUp := true
  pinned := false
  stale := false
  disk := site.vm.disk

theorem allSucceed_assist (cp : Str) (op : Op) (site : Site) :
    AllSucceed cp op (assist op site) site := by
  refine ⟨?_, rfl, rfl, ?_, ?_⟩
  · cases op with
    | start backend name => exact fun _ => rfl
    | _ => trivial
  · rintro node rfl
    rfl
  · have isV4 : (Net.parseIP (str "192.168.64.3")).any Net.isV4 = true := by decide
    rintro node rfl
    exact isV4

/-- The end of a `Resume`. -/
def resumed (polls : ℕ) (name new : Str) (choices : List HealChoice) (site : Site) :
    Outcome Op Site HealChoice (Except Err Unit) :=
  (resume polls name).run.exec (healMachine (controlPlane name) new) choices site

/-- Every command of a `Resume` succeeds. -/
def AllSucceedIn (polls : ℕ) (name new : Str) (choices : List HealChoice) (site : Site) : Prop :=
  (resume polls name).run.FairRun (healMachine (controlPlane name) new)
    (AllSucceed (controlPlane name)) choices site

theorem after_of_resume {polls : ℕ} {name : Str} {host : Host}
    {before after : ControlPlaneVM → Prop} {choices : List HealChoice} {value : Except Err Unit}
    (waits : 0 < polls) (newQuad : Quad new) (isV4 : (Net.parseIP new).any Net.isV4)
    (heals : Heals new before after) (cluster : KubeadmCluster name (clusterRows name host))
    (truthful : runningNode (clusterRows name host) (controlPlane name) → vm.up)
    (isBefore : before vm) (succeed : AllSucceedIn polls name new choices ⟨host, vm⟩)
    (returns : (resumed polls name new choices ⟨host, vm⟩).value = some value) :
    value = .ok () ∧ after (resumed polls name new choices ⟨host, vm⟩).state.vm := by
  have again := succeeds_resume waits newQuad.dottedQuad isV4 heals cluster
  have ends := again.returned ⟨⟨isBefore, truthful⟩, rfl⟩ succeed returns
  cases value with
  | ok value => exact ⟨rfl, ends.2⟩
  | error err => exact ends.elim

end Retries

/-- However the first `Resume` ends, a second one in which every command succeeds returns
without an error. It heals the control plane exactly if the first one was not stopped between
the rewrite of `admin.conf` and the restart of kubelet. -/
theorem healed_again_iff_not_torn {polls again : ℕ} {name old new : Str} {site : Site}
    {host : Host} {choices : List HealChoice} (oldQuad : Quad old) (newQuad : Quad new)
    (isV4 : (Net.parseIP new).any Net.isV4 = true) (differs : old ≠ new)
    (fresh : Fresh old site.vm)
    (boots : (resume polls name).run.FairRun (healMachine (controlPlane name) new)
      (Boots (controlPlane name)) choices site)
    (waits : 0 < again) (cluster : KubeadmCluster name (clusterRows name host))
    (truthful : runningNode (clusterRows name host) (controlPlane name) = true →
      (resumed polls name new choices site).state.vm.up = true) :
    let left := (resumed polls name new choices site).state.vm
    (∃ later value, AllSucceedIn again name new later ⟨host, left⟩ ∧
      (resumed again name new later ⟨host, left⟩).value = some value) ∧
    ∀ later value, AllSucceedIn again name new later ⟨host, left⟩ →
      (resumed again name new later ⟨host, left⟩).value = some value →
      value = .ok () ∧ (Healed old new (resumed again name new later ⟨host, left⟩).state.vm ↔
        ¬(left.disk.recorded = some new ∧ left.stale = true)) := by
  intro left
  refine ⟨Prog.exists_fair_return _ assist (allSucceed_assist _) _ _, ?_⟩
  intro later value succeed returns
  have settled : Settled old new left := settled_of_resume oldQuad newQuad differs fresh boots
  rcases settled with isFresh | ⟨up, pinned, recorded, stale⟩ | ⟨up, pinned, recorded, healed⟩
  · rcases after_of_resume waits newQuad isV4 (heals_fresh differs) cluster truthful isFresh succeed
      returns with ⟨ok, healed, _⟩
    refine ⟨ok, iff_of_true healed ?_⟩
    rintro ⟨recorded, _⟩
    rw [isFresh.1, isFresh.2] at recorded
    exact differs (Option.some.inj recorded)
  · rcases after_of_resume waits newQuad isV4 (heals_recorded up pinned recorded) cluster truthful
      rfl succeed returns with ⟨ok, same⟩
    refine ⟨ok, iff_of_false ?_ (not_not_intro ⟨recorded, stale⟩)⟩
    rintro ⟨_, restarted⟩
    rw [same, stale] at restarted
    exact Bool.noConfusion restarted
  · rcases after_of_resume waits newQuad isV4 (heals_recorded up pinned recorded) cluster truthful
      rfl succeed returns with ⟨ok, same⟩
    refine ⟨ok, iff_of_true (by rw [same]; exact healed) ?_⟩
    rintro ⟨_, stale⟩
    rw [healed.2] at stale
    exact Bool.noConfusion stale

def movedHost : Host where
  vms := [⟨controlPlane (str "dev"), str "kindest/node", str "running", str "kubeadm", .container⟩]
  distinct := by decide

def movedDisk : Disk where
  files
    | .adminConf => some (str "server: https://192.168.64.2:6443")
    | .apiserverManifest => some (str "--advertise-address=192.168.64.2")
    | _ => none
  cert := some (str "192.168.64.2")

def movedSite : Site := ⟨movedHost, ⟨true, true, false, movedDisk, movedDisk⟩⟩

theorem movedSite_fresh : Fresh (str "192.168.64.2") movedSite.vm := ⟨rfl, by decide +kernel⟩

theorem movedHost_cluster : KubeadmCluster (str "dev") (clusterRows (str "dev") movedHost) where
  valid := by decide +kernel
  nonempty := by decide +kernel
  kubeadm := by decide +kernel
  backends := ⟨false, by decide +kernel⟩
  ordered := ⟨(controlPlane (str "dev"), [], []), by decide +kernel⟩

theorem movedQuads : Quad (str "192.168.64.2") ∧ Quad (str "192.168.64.9") := by
  have group : ∀ digits ∈ [str "192", str "168", str "64", str "2", str "9"], Group digits := by
    unfold Group
    decide +kernel
  constructor
  · exact ⟨str "192", str "168", str "64", str "2", group _ (by decide), group _ (by decide),
      group _ (by decide), group _ (by decide), by decide⟩
  · exact ⟨str "192", str "168", str "64", str "9", group _ (by decide), group _ (by decide),
      group _ (by decide), group _ (by decide), by decide⟩

/-- Killed before its first operation, a `Resume` is made up for by the next one. -/
theorem moved_healed_again :
    ∃ later, AllSucceedIn 1 (str "dev") (str "192.168.64.9") later movedSite ∧
      (resumed 1 (str "dev") (str "192.168.64.9") later movedSite).value = some (.ok ()) ∧
      Healed (str "192.168.64.2") (str "192.168.64.9")
        (resumed 1 (str "dev") (str "192.168.64.9") later movedSite).state.vm := by
  have differs : str "192.168.64.2" ≠ str "192.168.64.9" := by decide
  have left : (resumed 1 (str "dev") (str "192.168.64.9") [] movedSite).state = movedSite :=
    Prog.exec_nil_state _ _
  have stopped : (resume 1 (str "dev")).run.FairRun
      (healMachine (controlPlane (str "dev")) (str "192.168.64.9"))
      (Boots (controlPlane (str "dev"))) [] movedSite := trivial
  have again := healed_again_iff_not_torn movedQuads.1 movedQuads.2 (by decide) differs
    movedSite_fresh stopped Nat.one_pos movedHost_cluster (fun _ => by rw [left]; rfl)
  rcases again with ⟨⟨later, value, succeed, returns⟩, all⟩
  rcases all later value succeed returns with ⟨rfl, healed⟩
  refine ⟨later, succeed, returns, healed.mpr ?_⟩
  decide +kernel

/-- Everything succeeds, but the script that heals the control plane is cut after the rewrite
of `admin.conf`. -/
def cutting (op : Op) (site : Site) : HealChoice :=
  match op with
  | .guest _ (.healControlPlane _ _) =>
    { assist op site with command := ⟨false, fun _ => false, []⟩, cut := 1 }
  | op => assist op site

def tornSite : Site :=
  ((resume 1 (str "dev")).run.follow
    (healMachine (controlPlane (str "dev")) (str "192.168.64.9")) cutting movedSite).1

theorem boots_cutting (cp : Str) (op : Op) (site : Site) : Boots cp op (cutting op site) site := by
  cases op with
  | start backend name => exact fun _ => rfl
  | _ => trivial

/-- After a `Resume` whose script was cut, no `Resume` heals the control plane. -/
theorem torn_never_healed :
    Fresh (str "192.168.64.2") movedSite.vm ∧
    (∃ choices, (resume 1 (str "dev")).run.FairRun
        (healMachine (controlPlane (str "dev")) (str "192.168.64.9"))
        (Boots (controlPlane (str "dev"))) choices movedSite ∧
      (resumed 1 (str "dev") (str "192.168.64.9") choices movedSite).state = tornSite) ∧
    KubeadmCluster (str "dev") (clusterRows (str "dev") tornSite.host) ∧
    ∀ later value, AllSucceedIn 1 (str "dev") (str "192.168.64.9") later tornSite →
      (resumed 1 (str "dev") (str "192.168.64.9") later tornSite).value = some value →
      value = .ok () ∧ ¬Healed (str "192.168.64.2") (str "192.168.64.9")
        (resumed 1 (str "dev") (str "192.168.64.9") later tornSite).state.vm := by
  have vms : tornSite.host.vms = movedHost.vms := by decide +kernel
  have up : tornSite.vm.up := by decide +kernel
  have pinned : tornSite.vm.pinned := by decide +kernel
  have recorded : tornSite.vm.disk.recorded = some (str "192.168.64.9") := by decide +kernel
  have stale : tornSite.vm.stale := by decide +kernel
  have cluster : KubeadmCluster (str "dev") (clusterRows (str "dev") tornSite.host) := by
    have rows : clusterRows (str "dev") tornSite.host = clusterRows (str "dev") movedHost := by
      simp only [clusterRows, Host.rows, vms]
    rw [rows]
    exact movedHost_cluster
  refine ⟨movedSite_fresh, Prog.exists_fair_state _ cutting (boots_cutting _) _ _, cluster, ?_⟩
  intro later value succeed returns
  rcases after_of_resume Nat.one_pos movedQuads.2 (by decide) (heals_recorded up pinned recorded)
    cluster (fun _ => up) rfl succeed returns with ⟨ok, same⟩
  refine ⟨ok, ?_⟩
  rintro ⟨_, restarted⟩
  rw [same, stale] at restarted
  exact Bool.noConfusion restarted

end Kiac.Cluster
