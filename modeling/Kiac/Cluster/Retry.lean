import Kiac.Cluster.Heal

/-!
# A resume that stops

A `Resume` of a kubeadm cluster may stop anywhere, and the script that heals the control plane may
then have been carried out up to any of its commands. Whatever happens, the control plane is left as
the boot left it, torn or healed. A boot keeps `admin.conf`; the rest of the disk is up to the image.
-/

namespace Kiac.Cluster

open Kiac.Runtime

structure Site where
  host : Host
  vm : ControlPlaneVM

structure HealChoice where
  command : Choice
  /-- How many commands of a script are carried out if it fails. -/
  cut : ℕ
  /-- The control plane after a boot. -/
  comesUp : Bool
  pinned : Bool
  stale : Bool
  disk : Disk

namespace ControlPlaneVM

def boot (choice : HealChoice) (vm : ControlPlaneVM) : ControlPlaneVM :=
  if vm.up then vm else ⟨choice.comesUp, choice.pinned, choice.stale, choice.disk, choice.disk⟩

/-- The address that is pinned for kubelet is written if it is not current, after which
kubelet is restarted. -/
def pin (choice : HealChoice) (vm : ControlPlaneVM) : ControlPlaneVM :=
  if vm.pinned then vm
  else if choice.command.succeeds then { vm with pinned := true, stale := false }
  else { vm with pinned := decide (0 < choice.cut) }

def heal (choice : HealChoice) (old new : Str) (vm : ControlPlaneVM) : ControlPlaneVM :=
  let commands := healControlPlaneScript old vm.disk
  runCommands old new (if choice.command.succeeds then commands else commands.take choice.cut) vm

def step (address : Str) (choice : HealChoice) (vm : ControlPlaneVM) (step : GuestStep) :
    ControlPlaneVM × Except Err Str :=
  if vm.up then
    match step with
    | .ip => (vm, choice.command.output.map fun _ => address)
    | .catAdminConf =>
      (vm, match vm.disk.files .adminConf with
        | some content => choice.command.output.map fun _ => content
        | none => .error .command)
    | .healControlPlane old new => (vm.heal choice old new, choice.command.output)
    | .repinNodeIPIfNeeded => (vm.pin choice, choice.command.output)
    | .setKubeletSystemdNodeIP => (vm.pin choice, choice.command.output)
    | .restartKubelet =>
      (if choice.command.succeeds then { vm with stale := false } else vm,
        choice.command.output)
    | _ => (vm, choice.command.output)
  else (vm, .error .command)

end ControlPlaneVM

/-- The control plane `cp` has the given address. Workers are not modelled; the script for
them is not run in the control plane. -/
def healStep (cp address : Str) (op : Op) (choice : HealChoice) (site : Site) : Site × op.Ans :=
  match op with
  | .guest node step =>
    if node = cp then
      ({ site with vm := (site.vm.step address choice step).1 },
        (site.vm.step address choice step).2)
    else (site, choice.command.output)
  | .start backend name =>
    (⟨(Runtime.step (.start backend name) choice.command site.host).1,
        if name = cp ∧ choice.command.acts name then site.vm.boot choice else site.vm⟩,
      choice.command.result)
  | .stop backend name =>
    (⟨(Runtime.step (.stop backend name) choice.command site.host).1,
        if name = cp ∧ choice.command.acts name then { site.vm with up := false } else site.vm⟩,
      choice.command.result)
  | op =>
    ({ site with host := (Runtime.step op choice.command site.host).1 },
      (Runtime.step op choice.command site.host).2)

def healMachine (cp address : Str) : Machine Op Op.Ans Site HealChoice := ⟨healStep cp address⟩

/-- A boot leaves `admin.conf` as it is. -/
def Boots (cp : Str) (op : Op) (choice : HealChoice) (site : Site) : Prop :=
  match op with
  | .start _ name => name = cp → choice.disk.files .adminConf = site.vm.disk.files .adminConf
  | _ => True

def Done (old new : Str) (vm : ControlPlaneVM) : Prop :=
  vm.up = true ∧ vm.pinned = true ∧ vm.disk.recorded = some new ∧ Healed old new vm

/-- How an interrupted `Resume` can leave the control plane. -/
def Settled (old new : Str) (vm : ControlPlaneVM) : Prop :=
  Fresh old vm ∨ Torn new vm ∨ Done old new vm

/-- The script has not touched the disk, and everything before it has been done. -/
def Ready (old : Str) (vm : ControlPlaneVM) : Prop :=
  Fresh old vm ∧ vm.up = true ∧ vm.pinned = true

def GuestStep.Reads : GuestStep → Prop
  | .healControlPlane _ _ => False
  | .repinNodeIPIfNeeded => False
  | .setKubeletSystemdNodeIP => False
  | .restartKubelet => False
  | .healWorker _ => False
  | _ => True

def Op.Gentle (cp : Str) : Op → Prop
  | .guest node (.healControlPlane _ _) => node ≠ cp
  | _ => True

def Op.Spares (cp : Str) : Op → Prop
  | .guest node step => node = cp → GuestStep.Reads step
  | .start _ name => name ≠ cp
  | .stop _ name => name ≠ cp
  | _ => True

section Steps

variable {cp old new address : Str} {op : Op} {choice : HealChoice} {site : Site}
  {vm : ControlPlaneVM}

theorem step_of_reads (step : GuestStep) (reads : GuestStep.Reads step) :
    (vm.step address choice step).1 = vm := by
  unfold ControlPlaneVM.step
  split
  · cases step <;> first | rfl | exact reads.elim
  · rfl

variable {step : GuestStep}

theorem step_of_down (down : ¬vm.up) :
    vm.step address choice step = (vm, .error .command) := by
  exact if_neg down

theorem step_ok {text : Str} (ok : (vm.step address choice step).2 = .ok text) :
    vm.up ∧ choice.command.succeeds := by
  have output : ∀ (result : Str → Str), choice.command.output.map result = .ok text →
      choice.command.succeeds = true := by
    intro result printed
    by_contra fails
    simp [Choice.output, fails, Except.map] at printed
  have plain : choice.command.output = .ok text → choice.command.succeeds := by
    intro printed
    apply output id
    rw [printed]
    rfl
  unfold ControlPlaneVM.step at ok
  split at ok
  · rename_i up
    refine ⟨up, ?_⟩
    cases step with
    | ip => exact output _ ok
    | catAdminConf =>
      dsimp only at ok
      split at ok
      · exact output _ ok
      · cases ok
    | _ => exact plain ok
  · cases ok

theorem healStep_vm_of_spares (spares : Op.Spares cp op) :
    (healStep cp address op choice site).1.vm = site.vm := by
  cases op with
  | guest node step =>
    simp only [healStep]
    split
    · rename_i isCP
      exact step_of_reads step (spares isCP)
    · rfl
  | start backend name => exact if_neg fun acts => spares acts.1
  | stop backend name => exact if_neg fun acts => spares acts.1
  | _ => rfl

theorem fresh_boot (fresh : Fresh old vm)
    (kept : choice.disk.files .adminConf = vm.disk.files .adminConf) :
    Fresh old (vm.boot choice) := by
  unfold ControlPlaneVM.boot
  split
  · exact fresh
  · refine ⟨rfl, ?_⟩
    rw [Disk.recorded, kept, fresh.1]
    exact fresh.2

theorem fresh_pin (fresh : Fresh old vm) : Fresh old (vm.pin choice) := by
  unfold ControlPlaneVM.pin
  split
  · exact fresh
  · split <;> exact fresh

theorem fresh_healStep (gentle : Op.Gentle cp op) (boots : Boots cp op choice site)
    (fresh : Fresh old site.vm) : Fresh old (healStep cp address op choice site).1.vm := by
  cases op with
  | guest node step =>
    simp only [healStep]
    split
    · rename_i isCP
      unfold ControlPlaneVM.step
      split
      · cases step with
        | healControlPlane oldIP newIP => exact absurd isCP gentle
        | repinNodeIPIfNeeded => exact fresh_pin fresh
        | setKubeletSystemdNodeIP => exact fresh_pin fresh
        | restartKubelet =>
          dsimp only
          split <;> exact fresh
        | _ => exact fresh
      · exact fresh
    · exact fresh
  | start backend name =>
    simp only [healStep]
    split
    · rename_i acts
      exact fresh_boot fresh (boots acts.1)
    · exact fresh
  | stop backend name =>
    simp only [healStep]
    split <;> exact fresh
  | _ => exact fresh

theorem ready_pin (fresh : Fresh old vm) (up : vm.up)
    (succeeds : choice.command.succeeds) : Ready old (vm.pin choice) := by
  refine ⟨fresh_pin fresh, ?_⟩
  unfold ControlPlaneVM.pin
  split
  · rename_i pinned
    exact ⟨up, pinned⟩
  · exact ⟨up, rfl⟩

theorem done_of_healed (oldQuad : Quad old) (newQuad : Quad new) (up : vm.up)
    (pinned : vm.pinned) (recorded : vm.base.recorded = some old)
    (healed : Healed old new vm) : Done old new vm := by
  refine ⟨up, pinned, ?_, healed⟩
  rcases Option.bind_eq_some_iff.mp recorded with ⟨content, exists', address⟩
  have healedFile : vm.disk.files .adminConf = some (Str.replaceWord old new content) := by
    simp only [healed.1, Disk.heal, exists', Option.map_some]
  rw [Disk.recorded, healedFile]
  exact apiServerIP_replaceWord oldQuad newQuad address

theorem settled_heal (oldQuad : Quad old) (newQuad : Quad new) (differs : old ≠ new)
    (ready : Ready old vm) : Settled old new (vm.heal choice old new) := by
  rcases ready with ⟨fresh, up, pinned⟩
  have done : ∀ commands, Healed old new (runCommands old new commands vm) →
      Settled old new (runCommands old new commands vm) := by
    intro commands healed
    rcases runCommands_frame commands vm with ⟨sameUp, samePinned, sameBase⟩
    refine Or.inr (Or.inr (done_of_healed oldQuad newQuad (sameUp.trans up)
      (samePinned.trans pinned) ?_ healed))
    rw [sameBase]
    exact fresh.2
  unfold ControlPlaneVM.heal
  split
  · exact done _ (healed_script fresh)
  · rcases cut_script oldQuad newQuad differs fresh up pinned choice.cut with same | torn | healed
    · rw [same]
      exact Or.inl fresh
    · exact Or.inr (Or.inl torn)
    · exact done _ healed

end Steps

/-- The first `Resume`: it may stop wherever the control plane is settled. -/
def stopping (cp old new : Str) : Setting Op Op.Ans Site HealChoice where
  machine := healMachine cp new
  fair := Boots cp
  guard := fun _ site => Settled old new site.vm

section Gentle

variable {cp : Str}

theorem gentle_startStopped (infos : List Info) (nodes : List Str) :
    Does (Op.Gentle cp) (startStopped infos nodes) :=
  acts_startStopped infos (fun _ _ => trivial) fun _ _ _ => trivial

theorem gentle_reconnectAgent (infos : List Info) (targetURL node : Str) :
    Does (Op.Gentle cp) (reconnectAgent infos targetURL node) := by
  simp [reconnectAgent, rebootAgent, gentle_startStopped, Op.Gentle]

theorem gentle_reconcileK3sAgent (infos : List Info) (serverIP node : Str) :
    Does (Op.Gentle cp) (reconcileK3sAgent infos serverIP node) := by
  simp [reconcileK3sAgent, reconcileK3sNode, gentle_startStopped, Op.Gentle]

theorem gentle_resumeK3s (name : Str) (infos : List Info) :
    Does (Op.Gentle cp) (resumeK3s name infos) := by
  simp [resumeK3s, resumeK3sSystemd, resumeK3sContainer, gentle_startStopped, requireIPv4,
    gentle_reconnectAgent, gentle_reconcileK3sAgent, reconcileK3sNode, restartKiacLB,
    writeKubeconfig, Op.Gentle]

end Gentle

section Spares

variable {cp node : Str}

theorem spares_bootKubeadmNode (polls : ℕ) (other : node ≠ cp) :
    Does (Op.Spares cp) (bootKubeadmNode polls node) := by
  have boots : Does (Op.Spares cp) (bootAndWait polls node) :=
    acts_bootAndWait polls (fun _ => trivial) (fun _ => trivial) trivial fun _ => other
  simp [bootKubeadmNode, boots, Op.Spares, GuestStep.Reads, other]

theorem spares_bootKubeadmSystemdNode (other : node ≠ cp) :
    Does (Op.Spares cp) (bootKubeadmSystemdNode node) := by
  simp [bootKubeadmSystemdNode, requireIPv4, Op.Spares, GuestStep.Reads, other]

theorem spares_healWorkers {name : Str} {workers : List Str}
    (areWorkers : ∀ node ∈ workers, IsWorker name node) (cpIP : Str) :
    Does (Op.Spares (controlPlane name))
      (Prog.forAll (fun node => guest node (.healWorker cpIP)) workers) :=
  Acts.forAll fun node mem =>
    acts_guest_iff.mpr ⟨fun isCP => absurd isCP (areWorkers node mem).2, fun _ => trivial⟩

theorem spares_healConfigMaps (cp newIP : Str) :
    Does (Op.Spares cp) (retry (guest cp (.healConfigMaps newIP)) 5) :=
  acts_retry (acts_guest_iff.mpr ⟨fun _ => trivial, fun _ => trivial⟩) 5

end Spares

section Actions

variable {cp old new : Str} {α : Type}

variable {holds : ControlPlaneVM → Prop} {action : Action α} {step : GuestStep}

theorem triple_spares {program : Prog Op Op.Ans α} {post : α → Prop}
    (issues : Issues (Op.Spares cp) post program)
    (settles : ∀ vm, holds vm → Settled old new vm) :
    Triple (stopping cp old new) (fun site => holds site.vm) program
      fun _ site => holds site.vm := by
  refine (Issues.triple issues ?_ ?_).weaken (fun _ => id)
    fun _ _ after => after.1
  · intro op site _ before
    exact settles site.vm before
  · intro op choice site spares _ before
    change holds (healStep cp new op choice site).1.vm
    rwa [healStep_vm_of_spares spares]

theorem returns_spares (acts : Does (Op.Spares cp) action)
    (settles : ∀ vm, holds vm → Settled old new vm) :
    Returns (stopping cp old new) (fun site => holds site.vm) action
      (fun _ site => holds site.vm) fun site => Settled old new site.vm := by
  refine (triple_spares acts settles).weaken (fun _ => id) ?_
  intro result site after
  cases result with
  | ok value => exact after
  | error err => exact settles site.vm after

theorem returns_gentle (acts : Does (Op.Gentle cp) action) :
    Returns (stopping cp old new) (fun site => Fresh old site.vm) action
      (fun _ site => Fresh old site.vm) fun site => Settled old new site.vm := by
  refine (Acts.returns acts ?_ ?_).weaken (fun _ => id)
    (fun _ _ after => after.1) fun site before => Or.inl before
  · intro op site _ before
    exact Or.inl before
  · intro op choice site gentle boots before
    exact fresh_healStep gentle boots before

theorem returns_guest {before : ControlPlaneVM → Prop}
    (ok : Str → ControlPlaneVM → Prop) (settles : ∀ vm, before vm → Settled old new vm)
    (succeeds : ∀ vm choice text, before vm → vm.up → choice.command.succeeds →
      (vm.step new choice step).2 = .ok text → ok text (vm.step new choice step).1)
    (fails : ∀ vm choice, before vm → Settled old new (vm.step new choice step).1) :
    Returns (stopping cp old new) (fun site => before site.vm) (guest cp step)
      (fun text site => ok text site.vm) fun site => Settled old new site.vm := by
  refine Triple.perform (fun site holds => settles site.vm holds) ?_
  intro site choice holds _
  have stepped : (stopping cp old new).machine.step (.guest cp step) choice site =
      ({ site with vm := (site.vm.step new choice step).1 }, (site.vm.step new choice step).2) :=
    if_pos rfl
  rw [stepped]
  cases answer : (site.vm.step new choice step).2 with
  | ok text =>
    rcases step_ok answer with ⟨up, commandSucceeds⟩
    exact succeeds site.vm choice text holds up commandSucceeds answer
  | error err => exact fails site.vm choice holds

theorem settled_of_ready {vm : ControlPlaneVM} (ready : Ready old vm) : Settled old new vm :=
  Or.inl ready.1

theorem returns_pin
    (pins : ∀ (vm : ControlPlaneVM) choice, vm.up → (vm.step new choice step).1 = vm.pin choice) :
    Returns (stopping cp old new) (fun site => Fresh old site.vm) (guest cp step)
      (fun _ site => Ready old site.vm) fun site => Settled old new site.vm := by
  refine returns_guest (fun _ => Ready old) (fun _ fresh => Or.inl fresh) ?_ ?_
  · intro vm choice text fresh up succeeds _
    rw [pins vm choice up]
    exact ready_pin fresh up succeeds
  · intro vm choice fresh
    by_cases up : vm.up = true
    · rw [pins vm choice up]
      exact Or.inl (fresh_pin fresh)
    · rw [step_of_down up]
      exact Or.inl fresh

theorem returns_ip :
    Returns (stopping cp old new) (fun site => Ready old site.vm) (guest cp .ip)
      (fun text site => Ready old site.vm ∧ text = new) fun site => Settled old new site.vm := by
  refine returns_guest (fun text vm => Ready old vm ∧ text = new)
    (fun _ => settled_of_ready) ?_ ?_
  · intro vm choice text ready up succeeds answer
    rw [step_of_reads .ip trivial]
    refine ⟨ready, ?_⟩
    simpa [ControlPlaneVM.step, up, Choice.output, succeeds, Except.map] using answer.symm
  · intro vm choice ready
    rw [step_of_reads .ip trivial]
    exact settled_of_ready ready

theorem returns_catAdminConf :
    Returns (stopping cp old new) (fun site => Ready old site.vm) (guest cp .catAdminConf)
      (fun text site => Ready old site.vm ∧ apiServerIP text = some old)
      fun site => Settled old new site.vm := by
  refine returns_guest (fun text vm => Ready old vm ∧ apiServerIP text = some old)
    (fun _ => settled_of_ready) ?_ ?_
  · intro vm choice text ready up succeeds answer
    rw [step_of_reads .catAdminConf trivial]
    refine ⟨ready, ?_⟩
    have recorded := ready.1.2
    rw [← ready.1.1] at recorded
    rcases Option.bind_eq_some_iff.mp recorded with ⟨content, exists', address⟩
    have printed : content = text := by
      simpa [ControlPlaneVM.step, up, exists', Choice.output, succeeds, Except.map] using answer
    rw [← printed]
    exact address
  · intro vm choice ready
    rw [step_of_reads .catAdminConf trivial]
    exact settled_of_ready ready

theorem returns_healScript (oldQuad : Quad old) (newQuad : Quad new) (differs : old ≠ new) :
    Returns (stopping cp old new) (fun site => Ready old site.vm)
      (guest cp (.healControlPlane old new)) (fun _ site => Settled old new site.vm)
      fun site => Settled old new site.vm := by
  have settled : ∀ (vm : ControlPlaneVM) choice, Ready old vm →
      Settled old new (vm.step new choice (.healControlPlane old new)).1 := by
    intro vm choice ready
    rw [ControlPlaneVM.step, if_pos ready.2.1]
    exact settled_heal oldQuad newQuad differs ready
  refine returns_guest (fun _ => Settled old new) (fun _ => settled_of_ready) ?_ settled
  intro vm choice _ ready _ _ _
  exact settled vm choice ready

theorem returns_bootKubeadmNode (polls : ℕ) :
    Returns (stopping cp old new) (fun site => Fresh old site.vm) (bootKubeadmNode polls cp)
      (fun _ site => Ready old site.vm) fun site => Settled old new site.vm := by
  refine (returns_gentle (acts_bootAndWait polls trivial (fun _ => trivial) trivial
    fun _ => trivial)).bind fun _ => ?_
  refine (returns_gentle (by simp [Op.Gentle])).bind fun _ => ?_
  refine (returns_gentle (by simp [Op.Gentle])).bind fun _ => ?_
  refine (returns_pin ?_).bind fun _ => Returns.pure fun _ => id
  intro vm choice up
  rw [ControlPlaneVM.step, if_pos up]

theorem returns_bootKubeadmSystemdNode :
    Returns (stopping cp old new) (fun site => Fresh old site.vm) (bootKubeadmSystemdNode cp)
      (fun _ site => Ready old site.vm) fun site => Settled old new site.vm := by
  refine (returns_gentle (by simp [Op.Gentle])).bind fun _ => ?_
  refine (returns_gentle (by simp [Op.Gentle])).bind fun _ => ?_
  refine (returns_gentle (by simp [Op.Gentle])).bind fun _ => ?_
  refine (returns_gentle (by simp [requireIPv4])).bind fun _ => ?_
  refine (returns_pin ?_).bind fun _ => Returns.pure fun _ => id
  intro vm choice up
  rw [ControlPlaneVM.step, if_pos up]

theorem returns_bootAll {body : Str → Action α} {workers : List Str}
    (first : Returns (stopping cp old new) (fun site => Fresh old site.vm) (body cp)
      (fun _ site => Ready old site.vm) fun site => Settled old new site.vm)
    (others : ∀ node ∈ workers, Does (Op.Spares cp) (body node)) :
    Returns (stopping cp old new) (fun site => Fresh old site.vm)
      (Prog.forAll body (cp :: workers)) (fun _ site => Ready old site.vm)
      fun site => Settled old new site.vm :=
  Returns.forAll_cons first (triple_spares (Acts.forAll others) fun _ => settled_of_ready)
    (triple_spares (Acts.forAll others) fun _ => id) fun _ => settled_of_ready

theorem returns_healControlPlane (oldQuad : Quad old) (newQuad : Quad new) (differs : old ≠ new)
    (name : Str) :
    Returns (stopping cp old new) (fun site => Ready old site.vm) (healControlPlane name cp)
      (fun _ site => Settled old new site.vm) fun site => Settled old new site.vm := by
  refine returns_ip.bind fun newIP => Returns.assume ?_
  rintro rfl
  refine (returns_spares (by simp) fun _ => settled_of_ready).bind fun _ => ?_
  refine returns_catAdminConf.bind fun adminRaw => Returns.assume fun recorded => ?_
  rw [recordedIP, recorded]
  change Returns _ _ (onlyIf (old != newIP) (guest cp (.healControlPlane old newIP)) >>= _) _ _
  rw [onlyIf, if_pos (bne_iff_ne.mpr differs)]
  refine Returns.bind ?_ fun _ => Returns.pure fun _ => id
  exact (returns_healScript oldQuad newQuad differs).bind fun _ =>
    Returns.pure fun _ => id

theorem returns_healOrRestart (oldQuad : Quad old) (newQuad : Quad new) (differs : old ≠ new) :
    Returns (stopping cp old new) (fun site => Ready old site.vm) (healOrRestart cp old new)
      (fun _ site => Settled old new site.vm) fun site => Settled old new site.vm := by
  rw [healOrRestart, if_pos differs]
  exact (returns_healScript oldQuad newQuad differs).bind fun _ =>
    Returns.pure fun _ => id

end Actions

section Runs

variable {name old new : Str}

theorem returns_resumeKubeadm (oldQuad : Quad old) (newQuad : Quad new) (differs : old ≠ new)
    (polls : ℕ) (infos : List Info) :
    Returns (stopping (controlPlane name) old new) (fun site => Fresh old site.vm)
      (resumeKubeadm polls name infos) (fun _ site => Settled old new site.vm)
      fun site => Settled old new site.vm := by
  have settles : ∀ vm, Settled old new vm → Settled old new vm := fun _ => id
  refine (returns_fromResult fun _ => Or.inl).bind fun groups => Returns.assume ?_
  rcases groups with ⟨cp, workers⟩
  intro ordered
  rcases orderNodes_isWorker ordered with ⟨rfl, areWorkers⟩
  refine (returns_gentle (by simp [Op.Gentle])).bind fun _ => ?_
  refine (returns_gentle (gentle_startStopped infos _)).bind fun _ => ?_
  refine (returns_bootAll (returns_bootKubeadmNode polls) ?_).bind fun _ => ?_
  · intro node mem
    exact spares_bootKubeadmNode polls (areWorkers node mem).2
  refine (returns_healControlPlane oldQuad newQuad differs name).bind fun newIP => ?_
  refine returns_spares ?_ settles
  simp [spares_healWorkers areWorkers, spares_healConfigMaps, writeKubeconfig, Op.Spares,
    GuestStep.Reads]

theorem returns_resumeKubeadmSystemd (oldQuad : Quad old) (newQuad : Quad new)
    (differs : old ≠ new) (infos : List Info) :
    Returns (stopping (controlPlane name) old new) (fun site => Fresh old site.vm)
      (resumeKubeadmSystemd name infos) (fun _ site => Settled old new site.vm)
      fun site => Settled old new site.vm := by
  have settles : ∀ vm, Settled old new vm → Settled old new vm := fun _ => id
  refine (returns_fromResult fun _ => Or.inl).bind fun groups => Returns.assume ?_
  rcases groups with ⟨cp, regular, gpu⟩
  intro ordered
  rcases orderNodeGroups_isWorker ordered with ⟨rfl, areWorkers⟩
  refine (returns_gentle (by simp [Op.Gentle])).bind fun _ => ?_
  refine (returns_gentle (gentle_startStopped infos _)).bind fun _ => ?_
  refine (returns_bootAll returns_bootKubeadmSystemdNode ?_).bind fun updated => ?_
  · intro node mem
    exact spares_bootKubeadmSystemdNode (areWorkers node mem).2
  refine returns_ip.bind fun newIP => Returns.assume ?_
  rintro rfl
  refine (returns_spares (by simp [requireIPv4]) fun _ => settled_of_ready).bind fun _ => ?_
  refine returns_catAdminConf.bind fun adminRaw => Returns.assume fun recorded => ?_
  rw [recorded]
  refine (returns_fromResult fun _ => settled_of_ready).bind fun oldIP => Returns.assume ?_
  rintro ⟨⟩
  refine (returns_healOrRestart oldQuad newQuad differs).bind fun _ => ?_
  refine returns_spares ?_ settles
  simp [spares_healWorkers areWorkers, spares_healConfigMaps, restartKiacLB, writeKubeconfig,
    Op.Spares, GuestStep.Reads]

theorem returns_resume (oldQuad : Quad old) (newQuad : Quad new) (differs : old ≠ new)
    (polls : ℕ) (name : Str) :
    Returns (stopping (controlPlane name) old new) (fun site => Fresh old site.vm)
      (resume polls name) (fun _ site => Settled old new site.vm)
      fun site => Settled old new site.vm := by
  refine (returns_gentle (by simp)).bind fun _ => ?_
  refine (returns_gentle (acts_list fun _ => trivial)).bind fun infos => ?_
  refine (returns_gentle (by simp)).bind fun _ => ?_
  split
  · exact (returns_gentle (gentle_resumeK3s name infos)).weaken (fun _ => id)
      (fun _ _ => Or.inl) fun _ => id
  · refine (returns_gentle (by simp)).bind fun krunkit => ?_
    split
    · exact returns_resumeKubeadmSystemd oldQuad newQuad differs infos
    · exact returns_resumeKubeadm oldQuad newQuad differs polls infos

theorem settled_of_resume {polls : ℕ} {choices : List HealChoice} {site : Site}
    (oldQuad : Quad old) (newQuad : Quad new) (differs : old ≠ new) (fresh : Fresh old site.vm)
    (boots : (resume polls name).run.FairRun (healMachine (controlPlane name) new)
      (Boots (controlPlane name)) choices site) :
    Settled old new
      ((resume polls name).run.exec (healMachine (controlPlane name) new) choices site).state.vm := by
  have returns := returns_resume oldQuad newQuad differs polls name
  cases value : ((resume polls name).run.exec (stopping (controlPlane name) old new).machine choices
      site).value with
  | none =>
    rcases returns.interrupted fresh boots value with ⟨_, settled⟩
    exact settled
  | some result =>
    have settled := returns.returned fresh boots value
    cases result <;> exact settled

end Runs

end Kiac.Cluster
