import Kiac.Gpu.Health

/-!
# Wake-ups on a change of health

The monitor closes its channel when it stores another state, and makes a new one. The streams of the
device plugin and the watcher of the driver take a snapshot of the state together with the channel,
and then wait for this channel or for a tick.
-/

namespace Kiac.Gpu.Wakeup

/-- The monitor with the channel in its field, the number of channels made so far and the closed
ones. -/
structure Hub where
  monitor : HealthMonitor
  channel : ℕ
  made : ℕ
  closed : List ℕ

inductive Event where
  | store (state : HealthState)
  | snapshot (watcher : ℕ) (now : Time)

namespace Hub

def start (identity : Identity) : Hub := ⟨newHealthMonitor identity, 0, 1, []⟩

/-- A second `close` of a channel panics. -/
def close (hub : Hub) : Option Hub :=
  if hub.channel ∈ hub.closed then none else some { hub with closed := hub.channel :: hub.closed }

def make (hub : Hub) : Hub := { hub with channel := hub.made, made := hub.made + 1 }

def store (hub : Hub) (state : HealthState) : Option Hub :=
  if state ≠ hub.monitor.state then
    ({ hub with monitor := hub.monitor.store state }.close).map make
  else some hub

def snapshot (hub : Hub) (now : Time) : HealthState × ℕ := (hub.monitor.snapshot now, hub.channel)

def step (hub : Hub) : Event → Option Hub
  | .store state => hub.store state
  | .snapshot _ _ => some hub

def run (hub : Hub) (events : List Event) : Option Hub := events.foldlM step hub

/-- Channels are closed in the order in which they are made, all but the last one. -/
structure Sound (hub : Hub) : Prop where
  made : hub.made = hub.channel + 1
  nodup : hub.closed.Nodup
  closed : ∀ channel, channel ∈ hub.closed ↔ channel < hub.channel

end Hub

def changes (stored : HealthState) : List Event → ℕ
  | [] => 0
  | .store state :: events =>
    if state ≠ stored then changes state events + 1 else changes stored events
  | .snapshot _ _ :: events => changes stored events

variable {hub : Hub}

theorem Hub.Sound.store (sound : hub.Sound) {state : HealthState}
    (differs : state ≠ hub.monitor.state) :
    ∃ after, hub.store state = some after ∧ after.Sound ∧ after.monitor.state = state ∧
      after.channel = hub.channel + 1 := by
  have isOpen : hub.channel ∉ hub.closed := fun mem => lt_irrefl _ ((sound.closed _).mp mem)
  have stored : (hub.monitor.store state).state = state := by simp [HealthMonitor.store, differs]
  refine ⟨⟨hub.monitor.store state, hub.made, hub.made + 1, hub.channel :: hub.closed⟩, ?_,
    ⟨rfl, ?_, ?_⟩, stored, sound.made⟩
  · simp [Hub.store, Hub.close, Hub.make, differs, isOpen]
  · exact List.nodup_cons.mpr ⟨isOpen, sound.nodup⟩
  · intro channel
    simp only [List.mem_cons, sound.closed, sound.made]
    omega

theorem Hub.Sound.run (sound : hub.Sound) (events : List Event) :
    ∃ after, hub.run events = some after ∧ after.Sound ∧
      after.channel = hub.channel + changes hub.monitor.state events := by
  induction events generalizing hub with
  | nil => exact ⟨hub, rfl, sound, rfl⟩
  | cons event events ih =>
    cases event with
    | snapshot watcher now => exact ih sound
    | store state =>
      by_cases differs : state ≠ hub.monitor.state
      · rcases sound.store differs with ⟨middle, stepped, sound', stored, next⟩
        rcases ih sound' with ⟨after, ran, sound'', channel⟩
        refine ⟨after, by simpa [Hub.run, Hub.step, stepped] using ran, sound'', ?_⟩
        rw [changes, if_pos differs, channel, stored, next]
        omega
      · rw [changes, if_neg differs]
        simpa [Hub.run, Hub.step, Hub.store, differs] using ih sound

/-- In every interleaving no channel is closed twice, the channel of a snapshot is closed exactly if
the stored state has changed since, and it is the channel of a later snapshot exactly if it has not. -/
theorem no_lost_wakeup (identity : Identity) (earlier later : List Event) (now now' : Time) :
    ∃ hub hub', (Hub.start identity).run earlier = some hub ∧ hub.run later = some hub' ∧
      hub'.closed.Nodup ∧
      ((hub.snapshot now).2 ∈ hub'.closed ↔ 0 < changes hub.monitor.state later) ∧
      ((hub'.snapshot now').2 = (hub.snapshot now).2 ↔ changes hub.monitor.state later = 0) := by
  have initially : (Hub.start identity).Sound := ⟨rfl, List.nodup_nil, by simp [Hub.start]⟩
  rcases initially.run earlier with ⟨hub, ran, sound, _⟩
  rcases sound.run later with ⟨hub', ran', sound', channel⟩
  refine ⟨hub, hub', ran, ran', sound'.nodup, ?_, ?_⟩
  · simp only [Hub.snapshot, sound'.closed, channel]
    omega
  · simp only [Hub.snapshot, channel]
    omega

end Kiac.Gpu.Wakeup
