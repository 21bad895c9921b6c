import Kiac.Text.AddressPort

/-!
# Jobs of the dashboard

A call of `startJob` marks its cluster name busy, and its goroutine takes the mark away after the
process has ended and the job has its final status. Calls and goroutines run interleaved; what they
do while they have locked a mutex is one step, since nothing that it guards is used without it.
-/

namespace Kiac.WebUI

inductive Status where
  | running
  | done
  | failed
deriving DecidableEq

structure Job where
  status : Status
  log : Str
deriving DecidableEq

/-- What the goroutine records for the output of the process and its error. -/
def Job.final (out : Str) : Option Str → Job
  | some err => ⟨.failed, Str.trimSpace out ++ byte '\n' :: err⟩
  | none => ⟨.done, Str.trimSpace out⟩

/-- Where a call is, and then its goroutine, which has the number of the job. -/
inductive Phase where
  | entering
  | refused
  | starting (id : ℕ)
  | running (id : ℕ)
  | exited (id : ℕ) (out : Str) (err : Option Str)
  | recorded (id : ℕ) (out : Str) (err : Option Str)
  | ended (id : ℕ)

structure Server where
  busy : Str → Bool
  next : ℕ
  jobs : Str → Option Job
  phase : ℕ → Phase

inductive Action where
  | go (call : ℕ)
  | exit (call : ℕ) (out : Str) (err : Option Str)

namespace Server

def start : Server := ⟨fun _ => false, 0, fun _ => none, fun _ => .entering⟩

def goto (server : Server) (call : ℕ) (phase : Phase) : Server :=
  { server with phase := Function.update server.phase call phase }

def setBusy (server : Server) (name : Str) (value : Bool) : Server :=
  { server with busy := Function.update server.busy name value }

def setJob (server : Server) (id : ℕ) (job : Job) : Server :=
  { server with jobs := Function.update server.jobs (Str.itoa id) (some job) }

/-- The part of `startJob` before the goroutine. -/
def startJob (server : Server) (call : ℕ) (name : Str) : Server :=
  if server.busy name then server.goto call .refused
  else
    let id := server.next + 1
    (({ server with next := id }.setBusy name true).setJob id ⟨.running, []⟩).goto call
      (.starting id)

variable (name : ℕ → Str)

/-- The next step of a call with its cluster name, or of its goroutine; a process that cannot be
started ends at once. -/
def step (server : Server) : Action → Server
  | .go call =>
    match server.phase call with
    | .entering => server.startJob call (name call)
    | .starting id => server.goto call (.running id)
    | .exited id out err => (server.setJob id (.final out err)).goto call (.recorded id out err)
    | .recorded id _ _ => (server.setBusy (name call) false).goto call (.ended id)
    | _ => server
  | .exit call out err =>
    match server.phase call with
    | .starting id => server.goto call (.exited id out err)
    | .running id => server.goto call (.exited id out err)
    | _ => server

def run (actions : List Action) : Server := actions.foldl (step name) start

end Server

namespace Phase

/-- The phases from the mark of the name on. -/
@[grind =]
def owns : Phase → Bool
  | entering | refused | ended _ => false
  | _ => true

@[grind =]
def id : Phase → Option ℕ
  | entering | refused => none
  | starting id | running id | exited id _ _ | recorded id _ _ | ended id => some id

end Phase

structure Sound (name : ℕ → Str) (server : Server) : Prop where
  busy : ∀ call, (server.phase call).owns = true → server.busy (name call) = true
  owner : ∀ cluster, server.busy cluster = true →
    ∃ call, name call = cluster ∧ (server.phase call).owns = true
  unique : ∀ call other, (server.phase call).owns = true → (server.phase other).owns = true →
    name call = name other → call = other
  bounded : ∀ call id, (server.phase call).id = some id → id ≤ server.next
  distinct : ∀ call other id, (server.phase call).id = some id →
    (server.phase other).id = some id → call = other
  final : ∀ call id, (server.phase call).id = some id → ∀ out err,
    server.phase call = .recorded id out err → server.jobs (Str.itoa id) = some (.final out err)

variable {name : ℕ → Str} {server : Server} {call : ℕ}

theorem sound_start : Sound name .start := by
  constructor <;> simp [Server.start, Phase.owns, Phase.id]

theorem Sound.goto (sound : Sound name server) {phase : Phase}
    (owns : phase.owns = (server.phase call).owns) (id : phase.id = (server.phase call).id)
    (notRecorded : ∀ id out err, phase ≠ .recorded id out err) :
    Sound name (server.goto call phase) := by
  rcases sound with ⟨busy, owner, unique, bounded, distinct, final⟩
  constructor <;> simp only [Server.goto] <;> grind

theorem Sound.startJob (sound : Sound name server) (enters : server.phase call = .entering) :
    Sound name (server.startJob call (name call)) := by
  unfold Server.startJob
  split_ifs with isBusy
  · exact sound.goto (by rw [enters]; rfl) (by rw [enters]; rfl) nofun
  · rcases sound with ⟨busy, owner, unique, bounded, distinct, final⟩
    constructor <;> simp only [Server.goto, Server.setBusy, Server.setJob] <;>
      grind [Str.itoa_injective]

theorem Sound.record (sound : Sound name server) {id : ℕ} {out : Str} {err : Option Str}
    (exited : server.phase call = .exited id out err) :
    Sound name ((server.setJob id (.final out err)).goto call (.recorded id out err)) := by
  rcases sound with ⟨busy, owner, unique, bounded, distinct, final⟩
  constructor <;> simp only [Server.goto, Server.setJob] <;> grind [Str.itoa_injective]

theorem Sound.release (sound : Sound name server) {id : ℕ} {out : Str} {err : Option Str}
    (isRecorded : server.phase call = .recorded id out err) :
    Sound name ((server.setBusy (name call) false).goto call (.ended id)) := by
  rcases sound with ⟨busy, owner, unique, bounded, distinct, final⟩
  constructor <;> simp only [Server.goto, Server.setBusy] <;> grind

theorem Sound.step (sound : Sound name server) (action : Action) :
    Sound name (server.step name action) := by
  cases action with
  | go call =>
    simp only [Server.step]
    split <;> rename_i here
    · exact sound.startJob here
    · exact sound.goto (by rw [here]; rfl) (by rw [here]; rfl) nofun
    · exact sound.record here
    · exact sound.release here
    · exact sound
  | exit call out err =>
    simp only [Server.step]
    split <;> rename_i here
    · exact sound.goto (by rw [here]; rfl) (by rw [here]; rfl) nofun
    · exact sound.goto (by rw [here]; rfl) (by rw [here]; rfl) nofun
    · exact sound

theorem Sound.released (sound : Sound name server) {action : Action} {cluster : Str}
    (isBusy : server.busy cluster) (free : (server.step name action).busy cluster = false) :
    ∃ call id out err, name call = cluster ∧ server.phase call = .recorded id out err ∧
      (server.step name action).phase call = .ended id ∧
      (server.step name action).jobs (Str.itoa id) = some (.final out err) := by
  cases action with
  | exit call out err =>
    simp only [Server.step] at free
    split at free <;> simp [Server.goto, isBusy] at free
  | go call =>
    simp only [Server.step] at free ⊢
    split at free <;> rename_i here
    · unfold Server.startJob at free
      split_ifs at free with taken
      · simp [Server.goto, isBusy] at free
      · simp [Server.goto, Server.setJob, Server.setBusy, Function.update_apply, isBusy] at free
    · simp [Server.goto, isBusy] at free
    · simp [Server.goto, Server.setJob, isBusy] at free
    · rename_i id out err
      have same : name call = cluster := by
        by_contra other
        simp [Server.goto, Server.setBusy, Ne.symm other, isBusy] at free
      refine ⟨call, id, out, err, same, here, ?_, ?_⟩
      · simp [Server.goto]
      · simpa [here, Server.goto, Server.setBusy] using
          sound.final call id (by rw [here]; rfl) out err here
    · simp [isBusy] at free

theorem sound_run (name : ℕ → Str) (actions : List Action) : Sound name (.run name actions) := by
  have keeps : ∀ server, Sound name server → Sound name (actions.foldl (Server.step name) server) := by
    induction actions with
    | nil => exact fun _ => id
    | cons action actions ih => exact fun server sound => ih _ (sound.step action)
  exact keeps _ sound_start

/-- After any steps at most one process runs for a name, no two jobs have one ID, a call that enters
is refused exactly if a job of its name has its mark, and the step that takes the mark of a name away
leaves the job that had it with its final status and log. -/
theorem jobs_exclusive (name : ℕ → Str) (actions : List Action) :
    (∀ call other id id', (Server.run name actions).phase call = .running id →
      (Server.run name actions).phase other = .running id' → name call = name other →
        call = other) ∧
    (∀ call other id id', ((Server.run name actions).phase call).id = some id →
      ((Server.run name actions).phase other).id = some id' → Str.itoa id = Str.itoa id' →
        call = other) ∧
    (∀ call, (Server.run name actions).phase call = .entering →
      (((Server.run name (actions ++ [.go call])).phase call = .refused ↔
        (Server.run name actions).busy (name call) = true) ∧
      ((Server.run name actions).busy (name call) = true ↔ ∃ other, name other = name call ∧
        ((Server.run name actions).phase other).owns = true))) ∧
    ∀ action cluster, (Server.run name actions).busy cluster = true →
      (Server.run name (actions ++ [action])).busy cluster = false →
      ∃ call id out err, name call = cluster ∧
        (Server.run name actions).phase call = .recorded id out err ∧
        (Server.run name (actions ++ [action])).phase call = .ended id ∧
        (Server.run name (actions ++ [action])).jobs (Str.itoa id) = some (.final out err) := by
  have sound := sound_run name actions
  have next : ∀ action, Server.run name (actions ++ [action]) =
      (Server.run name actions).step name action := by
    simp [Server.run]
  simp only [next]
  generalize Server.run name actions = server at sound ⊢
  refine ⟨?_, ?_, ?_, ?_⟩
  · intro call other id id' runs runs' same
    exact sound.unique call other (by rw [runs]; rfl) (by rw [runs']; rfl) same
  · intro call other id id' isId isId' same
    obtain rfl : id = id' := by exact_mod_cast Str.itoa_injective same
    exact sound.distinct call other id isId isId'
  · intro call enters
    constructor
    · simp only [Server.step, enters, Server.startJob, Server.goto]
      split_ifs with isBusy <;> simp [isBusy]
    · exact ⟨sound.owner _, fun ⟨other, same, owns⟩ => same ▸ sound.busy other owns⟩
  · exact fun action cluster => sound.released

end Kiac.WebUI
