import Kiac.Cluster.Boot
import Mathlib.Logic.Function.Basic

/-!
# K3s waits for its registry trust

The boot command of a K3s node waits for a marker file, which the script of `installRegistryTrust`
makes with its last command. The script refuses a node that has a `registries.yaml`, so it never
writes to a node with a marker. It may fail or be interrupted at any command.
-/

namespace Kiac.Cluster.RegistryGate

open Boot

structure CA where
  host : Str
  pem : Str

/-- The prepared CAs, the hash of a host that names its file, and the marshalled `registries.yaml`. -/
structure Trust where
  cas : List CA
  digest : Str → Str
  registries : Str

namespace Trust

variable (trust : Trust)

def path (ca : CA) : Str := str "/etc/kiac/registry-cas/" ++ trust.digest ca.host ++ str ".crt"

/-- What the payload has for a path: the last CA with it. -/
def payload (path : Str) : Str :=
  (((trust.cas.filter fun ca => trust.path ca == path).getLast?).map CA.pem).getD []

end Trust

abbrev Files := Str → Option Str

inductive Command where
  /-- A command that changes none of the files below: `mktemp`, `tar`, `install -d`, other tests. -/
  | prepare
  | requireAbsent (path : Str)
  | install (path content : Str)
  | move (source dest : Str)
  | touch (path : Str)

/-- A command that fails may leave anything in the file that it writes. -/
inductive Outcome where
  | done
  | failed (left : Option Str)

def Command.run (files : Files) : Command → Outcome → Files × Bool
  | .prepare, .done => (files, true)
  | .requireAbsent path, .done => (files, (files path).isNone)
  | .install path content, .done => (Function.update files path (some content), true)
  | .install path _, .failed left => (Function.update files path left, false)
  | .move source dest, .done =>
    (Function.update (Function.update files source none) dest (files source), true)
  | .touch path, .done => (Function.update files path (some []), true)
  | _, .failed _ => (files, false)

def registriesPath : Str := str "/etc/rancher/k3s/registries.yaml"

def tempPath (suffix : Str) : Str := str "/etc/rancher/k3s/registries.yaml.kiac." ++ suffix

def finish (trust : Trust) (suffix : Str) : List Command :=
  [.prepare, .prepare, .install (tempPath suffix) trust.registries,
    .move (tempPath suffix) registriesPath, .touch registryReadyPath]

/-- The script of `installRegistryTrust` for K3s, with the suffix that `mktemp` chooses. -/
def script (trust : Trust) (suffix : Str) : List Command :=
  [.prepare, .prepare, .requireAbsent registriesPath] ++
    (trust.cas.flatMap fun ca =>
      [.prepare, .install (trust.path ca) (trust.payload (trust.path ca))]) ++
    finish trust suffix

inductive Phase where
  | off
  | gate
  | preamble
  | k3s
deriving DecidableEq

structure Node where
  files : Files
  /-- The rest of the script that is being run. -/
  running : List Command
  boot : Phase

inductive Event where
  | start
  | stop
  | poll
  | exec
  | attempt (suffix : Str)
  | interrupt
  | command (outcome : Outcome)

/-- Without a CA there is no gate. -/
def gateOpen (trust : Trust) (files : Files) : Bool :=
  trust.cas.isEmpty || (files registryReadyPath).isSome

def act (trust : Trust) (node : Node) : Event → Node
  | .start => if node.boot = .off then { node with boot := .gate } else node
  | .stop => { node with boot := .off, running := [] }
  | .poll =>
    if node.boot = .gate ∧ gateOpen trust node.files then { node with boot := .preamble } else node
  | .exec => if node.boot = .preamble then { node with boot := .k3s } else node
  | .attempt suffix =>
    if node.running.isEmpty then { node with running := script trust suffix } else node
  | .interrupt => { node with running := [] }
  | .command outcome =>
    match node.running with
    | [] => node
    | command :: rest =>
      let (files, continues) := command.run node.files outcome
      { node with files := files, running := if continues then rest else [] }

def Installed (trust : Trust) (files : Files) : Prop :=
  files registriesPath = some trust.registries ∧
    ∀ ca ∈ trust.cas, files (trust.path ca) = some (trust.payload (trust.path ca))

def Sound (trust : Trust) (files : Files) : Prop :=
  (files registryReadyPath).isSome = true → Installed trust files

/-- Whatever becomes of the rest of a script, the files stay sound and the marker stays. -/
def Safe (trust : Trust) : List Command → Files → Prop
  | [], files => Sound trust files
  | command :: rest, files => Sound trust files ∧ ∀ outcome,
      ((files registryReadyPath).isSome = true →
        ((command.run files outcome).1 registryReadyPath).isSome = true) ∧
      if (command.run files outcome).2 then Safe trust rest (command.run files outcome).1
      else Sound trust (command.run files outcome).1

variable {trust : Trust} {files : Files} {rest : List Command}

theorem Safe.sound {commands : List Command} (safe : Safe trust commands files) :
    Sound trust files := by
  cases commands with
  | nil => exact safe
  | cons command rest => exact safe.1

theorem sound_of_not_ready (unmarked : files registryReadyPath = none) : Sound trust files := by
  intro marked
  simp [unmarked] at marked

theorem Safe.prepare (safe : Safe trust rest files) : Safe trust (.prepare :: rest) files := by
  refine ⟨safe.sound, fun outcome => ?_⟩
  cases outcome with
  | done => exact ⟨id, safe⟩
  | failed left => exact ⟨id, safe.sound⟩

theorem Safe.install {path content : Str} (other : path ≠ registryReadyPath)
    (unmarked : files registryReadyPath = none)
    (safe : Safe trust rest (Function.update files path (some content))) :
    Safe trust (.install path content :: rest) files := by
  refine ⟨sound_of_not_ready unmarked, fun outcome => ⟨by simp [unmarked], ?_⟩⟩
  cases outcome with
  | done => exact safe
  | failed left =>
    exact sound_of_not_ready (by simp [Command.run, Function.update_of_ne other.symm, unmarked])

theorem path_ne (trust : Trust) (ca : CA) :
    trust.path ca ≠ registriesPath ∧ trust.path ca ≠ registryReadyPath ∧
    ∀ suffix, trust.path ca ≠ tempPath suffix := by
  have differs : ∀ other : Str, other.take 6 = str "/etc/r" → trust.path ca ≠ other := by
    rintro other start rfl
    have own : (trust.path ca).take 6 = str "/etc/k" := rfl
    exact absurd (own.symm.trans start) (by decide)
  exact ⟨differs _ rfl, differs _ rfl, fun suffix => differs _ rfl⟩

theorem tempPath_ne (suffix : Str) :
    tempPath suffix ≠ registriesPath ∧ tempPath suffix ≠ registryReadyPath := by
  constructor <;> intro same
  · have longer := congrArg List.length same
    have lengths : (str "/etc/rancher/k3s/registries.yaml.kiac.").length = 38 ∧
        registriesPath.length = 32 := by decide
    rw [tempPath, List.length_append, lengths.1, lengths.2] at longer
    omega
  · have start : (tempPath suffix).take 18 = str "/etc/rancher/k3s/r" := rfl
    exact absurd (same ▸ start) (by decide)

theorem safe_finish (suffix : Str) (unmarked : files registryReadyPath = none)
    (copied : ∀ ca ∈ trust.cas, files (trust.path ca) = some (trust.payload (trust.path ca))) :
    Safe trust (finish trust suffix) files := by
  rcases tempPath_ne suffix with ⟨notRegistries, notReady⟩
  have apart : registriesPath ≠ registryReadyPath := by decide
  refine .prepare (.prepare (.install notReady unmarked ?_))
  refine ⟨sound_of_not_ready (by simp [notReady.symm, unmarked]), fun outcome => ?_⟩
  cases outcome with
  | failed left => simp [Command.run, sound_of_not_ready, notReady.symm, unmarked]
  | done =>
    refine ⟨by simp [notReady.symm, unmarked], sound_of_not_ready ?_, fun outcome => ?_⟩
    · simp [Command.run, notReady.symm, apart.symm, unmarked]
    · cases outcome with
      | failed left => simp [Command.run, sound_of_not_ready, notReady.symm, apart.symm, unmarked]
      | done =>
        refine ⟨by simp [Command.run], fun _ => ⟨by simp [Command.run, apart], fun ca mem => ?_⟩⟩
        rcases path_ne trust ca with ⟨one, two, three⟩
        simp [Command.run, one, two, three suffix, copied ca mem]

theorem safe_copies {todo : List CA} (unmarked : files registryReadyPath = none)
    (copied : ∀ ca ∈ trust.cas, ca ∈ todo ∨
      files (trust.path ca) = some (trust.payload (trust.path ca))) (suffix : Str) :
    Safe trust ((todo.flatMap fun ca =>
      [.prepare, .install (trust.path ca) (trust.payload (trust.path ca))]) ++
        finish trust suffix) files := by
  induction todo generalizing files with
  | nil => exact safe_finish suffix unmarked fun ca mem => (copied ca mem).resolve_left nofun
  | cons ca todo ih =>
    have notReady := (path_ne trust ca).2.1
    refine .prepare (.install notReady unmarked (ih (by simp [notReady.symm, unmarked]) ?_))
    intro other mem
    by_cases same : trust.path other = trust.path ca
    · exact Or.inr (by simp [same])
    · rw [Function.update_of_ne same]
      refine (copied other mem).imp_left fun later => ?_
      rcases List.mem_cons.mp later with rfl | later
      · exact absurd rfl same
      · exact later

theorem safe_script (sound : Sound trust files) (suffix : Str) :
    Safe trust (script trust suffix) files := by
  refine .prepare (.prepare ⟨sound, fun outcome => ?_⟩)
  cases outcome with
  | failed left => exact ⟨id, sound⟩
  | done =>
    refine ⟨id, ?_⟩
    cases absent : files registriesPath with
    | some content => simpa [Command.run, absent] using sound
    | none =>
      have unmarked : files registryReadyPath = none := by
        by_contra marked
        have installed := (sound (Option.isSome_iff_ne_none.mpr marked)).1
        simp [absent] at installed
      simpa [Command.run, absent] using safe_copies unmarked (fun ca mem => Or.inl mem) suffix

/-- The marker is there from the moment on that the gate lets the boot command pass. -/
structure Waiting (trust : Trust) (node : Node) : Prop where
  safe : Safe trust node.running node.files
  marked : node.boot = .preamble ∨ node.boot = .k3s →
    (node.files registryReadyPath).isSome = true

theorem Waiting.act {node : Node} (waiting : Waiting trust node) (hasCA : trust.cas ≠ [])
    (event : Event) : Waiting trust (act trust node event) := by
  rcases waiting with ⟨safe, marked⟩
  have gated : gateOpen trust node.files = (node.files registryReadyPath).isSome := by
    simp [gateOpen, hasCA]
  cases event with
  | command outcome =>
    simp only [RegistryGate.act]
    split
    · exact ⟨safe, marked⟩
    · rename_i command rest running
      rw [running] at safe
      rcases safe.2 outcome with ⟨stays, next⟩
      refine ⟨?_, fun passed => stays (marked passed)⟩
      split_ifs at next ⊢ <;> exact next
  | attempt suffix =>
    have starts := safe_script safe.sound suffix
    constructor <;> grind [RegistryGate.act]
  | _ =>
    have stops : Safe trust [] node.files := safe.sound
    constructor <;> grind [RegistryGate.act]

/-- Whenever the boot command has reached K3s, all of the trust is installed. -/
theorem k3s_trusts (trust : Trust) (hasCA : trust.cas ≠ []) (files : Files)
    (unmarked : files registryReadyPath = none) (events : List Event) :
    (events.foldl (act trust) ⟨files, [], .off⟩).boot = .k3s →
      Installed trust (events.foldl (act trust) ⟨files, [], .off⟩).files := by
  have waiting : ∀ node, Waiting trust node → Waiting trust (events.foldl (act trust) node) := by
    induction events with
    | nil => exact fun _ waiting => waiting
    | cons event events ih => exact fun node waiting => ih _ (waiting.act hasCA event)
  have final := waiting ⟨files, [], .off⟩ ⟨sound_of_not_ready unmarked, by simp⟩
  exact fun reached => final.safe.sound (final.marked (Or.inr reached))

theorem k3s_trusts_once :
    let trust : Trust := ⟨[⟨str "registry.lan", str "pem"⟩], id, str "configs"⟩
    let events := [Event.start, .poll, .attempt (str "x")] ++ List.replicate 10 (.command .done) ++
      [.poll, .exec]
    (events.foldl (act trust) ⟨fun _ => none, [], .off⟩).boot = .k3s ∧
      Installed trust (events.foldl (act trust) ⟨fun _ => none, [], .off⟩).files :=
  have reached := by decide
  ⟨reached, k3s_trusts _ (List.cons_ne_nil _ _) _ rfl _ reached⟩

end Kiac.Cluster.RegistryGate
