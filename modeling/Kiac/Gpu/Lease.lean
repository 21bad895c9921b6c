import Kiac.Gpu.Health

/-!
# The health lease

The monitor refreshes its state while the device plugin and the driver answer requests, in any
order and at any times. Whenever the device is handed out, the last completed refresh has read
one bounded report of this Pod and this boot that calls the GPU healthy, and the check that it
reports is at most twenty seconds old at that very moment.
-/

namespace Kiac.Gpu

/-- The agent with its monitor, and the state that a refresh has read and not stored yet. -/
structure Agent where
  monitor : HealthMonitor
  reading : Option HealthState
  memoryMiB : ℤ
  renderDevice : Str
  optionalCard : Str

inductive Event where
  | readReport (file : ReportFile)
  | storeReport
  | snapshot
  | allocate (devices : Devices) (request : List (List Str))
  | prepare (devices : Devices) (claim : ResourceClaim)

inductive Answer where
  | nothing
  | state (state : HealthState)
  | allocated (response : Except (Code × Str) (List ContainerAllocateResponse))
  | prepared (result : PrepareResult)

namespace Agent

variable (decoder : ReportDecoder)

def start (identity : Identity) (memoryMiB : ℤ) (renderDevice optionalCard : Str) : Agent :=
  ⟨newHealthMonitor identity, none, memoryMiB, renderDevice, optionalCard⟩

def plugin (agent : Agent) : DevicePlugin :=
  ⟨some agent.monitor, agent.renderDevice, agent.optionalCard⟩

def driver (agent : Agent) : Driver :=
  ⟨agent.monitor.identity.nodeName, agent.memoryMiB, some agent.monitor, agent.renderDevice⟩

def step (agent : Agent) : Time × Event → Agent
  | (now, .readReport file) =>
    { agent with reading := some (agent.monitor.readReport decoder file now) }
  | (_, .storeReport) =>
    match agent.reading with
    | none => agent
    | some state =>
      { agent with
        monitor := agent.monitor.store state
        reading := none }
  | _ => agent

def answer (agent : Agent) : Time × Event → Answer
  | (_, .readReport _) => .nothing
  | (_, .storeReport) => .nothing
  | (now, .snapshot) => .state (agent.monitor.snapshot now)
  | (now, .allocate devices request) => .allocated (agent.plugin.allocate devices now request)
  | (now, .prepare devices claim) =>
    .prepared (agent.driver.prepareResourceClaim devices now claim)

def run (agent : Agent) (history : List (Time × Event)) : Agent :=
  history.foldl (step decoder) agent

end Agent

def Answer.HandsOut : Answer → Prop
  | .allocated (.ok responses) => ∃ response ∈ responses, response.devices ≠ []
  | .prepared result => result.devices ≠ []
  | _ => False

/-- The reads of the file: the one whose result is not stored yet, and the last one whose result
is. -/
structure Reads where
  reading : Option (Time × ReportFile)
  stored : Option (Time × ReportFile)

def Reads.follow (reads : Reads) : Time × Event → Reads
  | (now, .readReport file) => { reads with reading := some (now, file) }
  | (_, .storeReport) =>
    match reads.reading with
    | none => reads
    | some read => ⟨none, some read⟩
  | _ => reads

def lastRefresh (history : List (Time × Event)) : Option (Time × ReportFile) :=
  (history.foldl Reads.follow ⟨none, none⟩).stored

/-- The file is one bounded report of this Pod and this boot, which calls the GPU healthy and is
fresh when it is read. -/
structure Lease (decoder : ReportDecoder) (identity : Identity) (readAt : Time)
    (file : ReportFile) (report : HealthReport) : Prop where
  bounded : ∃ size text rest, file = .opened true size (.ok text) ∧ size ≤ 4096 ∧
    text.length ≤ 4096 ∧ decoder.decode text = .ok (report, rest) ∧ decoder.isEOF rest = true
  version : report.version = 1
  podUID : report.podUID = identity.podUID
  nodeName : report.nodeName = identity.nodeName
  bootID : report.bootID = identity.bootID
  healthy : report.healthy = true
  notAhead : report.checkedAt ≤ readAt + second
  fresh : readAt ≤ report.checkedAt + healthMaxAge

section Monitor

variable {decoder : ReportDecoder} {identity : Identity} {now readAt : Time} {file : ReportFile}
  {report : HealthReport} {state : HealthState}

variable {later earlier : Time} {devices : Devices}

theorem sub_le_iff :
    Time.sub later earlier ≤ healthMaxAge ↔ later ≤ earlier + healthMaxAge := by
  simp only [Time.sub, healthMaxAge, second, Time, Duration] at *
  omega

theorem le_sub_iff :
    -second ≤ Time.sub later earlier ↔ earlier ≤ later + second := by
  simp only [Time.sub, second, Time, Duration] at *
  omega

theorem checkReport_ok (checked : checkReport identity readAt report = .ok state) :
    report.version = 1 ∧ report.podUID = identity.podUID ∧ report.nodeName = identity.nodeName ∧
      report.bootID = identity.bootID ∧ report.checkedAt ≤ readAt + second ∧
      readAt ≤ report.checkedAt + healthMaxAge ∧
      state = ⟨report.healthy, report.checkedAt, report.message⟩ := by
  unfold checkReport at checked
  split_ifs at checked with foreign stale long
  simp_all [sub_le_iff, le_sub_iff]

theorem readHealthReport_ok (read : readHealthReport decoder identity file readAt = .ok state) :
    ∃ report size text rest, file = .opened true size (.ok text) ∧ size ≤ 4096 ∧
      text.length ≤ 4096 ∧ decoder.decode text = .ok (report, rest) ∧
      decoder.isEOF rest ∧ checkReport identity readAt report = .ok state := by
  cases file with
  | unopened err => simp [readHealthReport] at read
  | unstated err => simp [readHealthReport] at read
  | opened isRegular size content =>
    simp only [readHealthReport] at read
    split_ifs at read with irregular
    cases content with
    | error err => simp at read
    | ok text =>
      simp only at read
      split_ifs at read with long
      have whole : text.take 4097 = text := by
        apply List.take_of_length_le
        simp only [List.length_take] at long
        omega
      rw [whole] at read long
      split at read
      · cases read
      · rename_i report rest decoded
        split_ifs at read with trailing
        simp only [Bool.or_eq_true, Bool.not_eq_true', decide_eq_true_eq, not_or,
          Bool.not_eq_false, not_lt] at irregular trailing long
        exact ⟨report, size, text, rest, by rw [irregular.1], irregular.2, long, decoded,
          trailing, read⟩

theorem lease_of_readHealthReport
    (read : readHealthReport decoder identity file readAt = .ok state)
    (healthy : state.healthy) :
    ∃ report, Lease decoder identity readAt file report ∧ report.checkedAt = state.checkedAt := by
  rcases readHealthReport_ok read with
    ⟨report, size, text, rest, isFile, small, short, decoded, ends, checked⟩
  rcases checkReport_ok checked with
    ⟨version, podUID, nodeName, bootID, notAhead, fresh, rfl⟩
  exact ⟨report, ⟨⟨size, text, rest, isFile, small, short, decoded, ends⟩, version, podUID, nodeName,
    bootID, healthy, notAhead, fresh⟩, rfl⟩

/-- A monitor that is healthy when it is asked was healthy when it was refreshed, and the check
is still fresh. -/
theorem healthy_of_requireHealthy {monitor : HealthMonitor}
    (passes : requireHealthy (some monitor) now = .ok ()) :
    monitor.state.healthy ∧ now ≤ monitor.state.checkedAt + healthMaxAge := by
  simp only [requireHealthy, HealthMonitor.snapshot] at passes
  split_ifs at passes <;> simp_all [sub_le_iff]

theorem requireHealthy_of_allocate {plugin : DevicePlugin}
    {request : List (List Str)} {responses : List ContainerAllocateResponse}
    (allocated : plugin.allocate devices now request = .ok responses) :
    requireHealthy plugin.health now = .ok () := by
  unfold DevicePlugin.allocate at allocated
  split at allocated
  · cases allocated
  · assumption

theorem requireHealthy_of_prepare {driver : Driver} {claim : ResourceClaim}
    (prepared : (driver.prepareResourceClaim devices now claim).devices ≠ []) :
    requireHealthy driver.health now = .ok () := by
  unfold Driver.prepareResourceClaim at prepared
  split at prepared
  · simp at prepared
  · assumption

end Monitor

section Runs

variable {decoder : ReportDecoder} {identity : Identity}

structure Knows (decoder : ReportDecoder) (identity : Identity) (agent : Agent) (reads : Reads) :
    Prop where
  identity_eq : agent.monitor.identity = identity
  reading : agent.reading =
    reads.reading.map fun read => agent.monitor.readReport decoder read.2 read.1
  state : agent.monitor.state = match reads.stored with
    | none => (newHealthMonitor identity).state
    | some read => agent.monitor.readReport decoder read.2 read.1

theorem state_store (monitor : HealthMonitor) (state : HealthState) :
    (monitor.store state).state = state := by
  unfold HealthMonitor.store
  split_ifs with differs
  · rfl
  · exact (not_not.mp differs).symm

theorem identity_store (monitor : HealthMonitor) (state : HealthState) :
    (monitor.store state).identity = monitor.identity := by
  unfold HealthMonitor.store
  split_ifs <;> rfl

theorem readReport_store (monitor : HealthMonitor) (state : HealthState) (file : ReportFile)
    (now : Time) :
    (monitor.store state).readReport decoder file now = monitor.readReport decoder file now := by
  simp [HealthMonitor.readReport, identity_store]

variable {agent : Agent} {reads : Reads} {history : List (Time × Event)}

theorem Knows.step (knows : Knows decoder identity agent reads) (event : Time × Event) :
    Knows decoder identity (agent.step decoder event) (reads.follow event) := by
  rcases knows with ⟨same, reading, state⟩
  rcases event with ⟨now, file | _ | _ | ⟨devices, request⟩ | ⟨devices, claim⟩⟩
  · exact ⟨same, rfl, state⟩
  · cases found : reads.reading with
    | none =>
      have nothing : agent.reading = none := by simp [reading, found]
      simp only [Agent.step, Reads.follow, nothing, found]
      exact ⟨same, reading, state⟩
    | some read =>
      have something : agent.reading =
          some (agent.monitor.readReport decoder read.2 read.1) := by simp [reading, found]
      simp only [Agent.step, Reads.follow, something, found]
      constructor
      · rw [identity_store, same]
      · rfl
      · simp [state_store, readReport_store]
  all_goals exact ⟨same, reading, state⟩

theorem Knows.run (knows : Knows decoder identity agent reads) (history : List (Time × Event)) :
    Knows decoder identity (agent.run decoder history) (history.foldl Reads.follow reads) := by
  induction history generalizing agent reads with
  | nil => exact knows
  | cons event history ih => exact ih (knows.step event)

theorem mem_of_follow {event : Time × Event}
    (made : ∀ read, reads.reading = some read ∨ reads.stored = some read →
      (read.1, Event.readReport read.2) ∈ history) (read : Time × ReportFile)
    (found : (reads.follow event).reading = some read ∨ (reads.follow event).stored = some read) :
    (read.1, Event.readReport read.2) ∈ history ++ [event] := by
  rcases event with ⟨now, file | _ | _ | ⟨devices, request⟩ | ⟨devices, claim⟩⟩
  · rcases found with current | before
    · cases current
      simp
    · exact List.mem_append_left _ (made read (Or.inr before))
  · cases pending : reads.reading with
    | none =>
      simp only [Reads.follow, pending] at found
      exact List.mem_append_left _ (made read (Or.inr (found.resolve_left (by simp))))
    | some current =>
      simp only [Reads.follow, pending] at found
      exact List.mem_append_left _ (made read (Or.inl (by simpa [pending] using found)))
  all_goals exact List.mem_append_left _ (made read found)

theorem mem_of_lastRefresh {readAt : Time} {file : ReportFile}
    (last : lastRefresh history = some (readAt, file)) :
    (readAt, .readReport file) ∈ history := by
  have made : ∀ read, (history.foldl Reads.follow ⟨none, none⟩).reading = some read ∨
      (history.foldl Reads.follow ⟨none, none⟩).stored = some read →
      (read.1, Event.readReport read.2) ∈ history := by
    clear last
    induction history using List.reverseRecOn with
    | nil => simp
    | append_singleton history event ih =>
      rw [List.foldl_append]
      exact mem_of_follow ih
  exact made (readAt, file) (Or.inr last)

end Runs

/-- The device is only handed out on the lease of the last completed refresh: a report of this
Pod and this boot that was fresh when it was read, whose check is at most twenty seconds old
now. -/
theorem handsOut_on_lease (decoder : ReportDecoder) (identity : Identity) (memoryMiB : ℤ)
    (renderDevice optionalCard : Str) (history : List (Time × Event)) (now : Time) (event : Event)
    (handsOut : (((Agent.start identity memoryMiB renderDevice optionalCard).run decoder
      history).answer (now, event)).HandsOut) :
    ∃ readAt file report, lastRefresh history = some (readAt, file) ∧
      (readAt, .readReport file) ∈ history ∧ Lease decoder identity readAt file report ∧
      now - report.checkedAt ≤ 20 * second := by
  have initially : Knows decoder identity
      (Agent.start identity memoryMiB renderDevice optionalCard) ⟨none, none⟩ := ⟨rfl, rfl, rfl⟩
  rcases initially.run history with ⟨same, _, state⟩
  generalize (Agent.start identity memoryMiB renderDevice optionalCard).run decoder history =
    agent at handsOut same state
  have passes : requireHealthy (some agent.monitor) now = .ok () := by
    rcases event with file | _ | _ | ⟨devices, request⟩ | ⟨devices, claim⟩
    · exact handsOut.elim
    · exact handsOut.elim
    · exact handsOut.elim
    · cases allocated : agent.plugin.allocate devices now request with
      | error err => simp [Agent.answer, allocated, Answer.HandsOut] at handsOut
      | ok responses => exact requireHealthy_of_allocate allocated
    · exact requireHealthy_of_prepare handsOut
  rcases healthy_of_requireHealthy passes with ⟨healthy, fresh⟩
  rw [state] at healthy fresh
  cases last : (history.foldl Reads.follow ⟨none, none⟩).stored with
  | none => simp [last, newHealthMonitor] at healthy
  | some read =>
    simp only [last, HealthMonitor.readReport, same] at healthy fresh
    split at healthy
    · cases healthy
    · rename_i readState found
      rcases lease_of_readHealthReport found healthy with ⟨report, lease, checkedAt⟩
      refine ⟨read.1, read.2, report, last, mem_of_lastRefresh last, lease, ?_⟩
      rw [found] at fresh
      rw [checkedAt]
      exact sub_left_le_of_le_add fresh

section Sample

def sampleIdentity : Identity := ⟨str "pod-1", str "node-1", str "boot-1"⟩

/-- A decoder that knows one report, checked one hundred seconds after the zero time. -/
def sampleDecoder : ReportDecoder :=
  ⟨fun _ => .ok (⟨1, str "pod-1", str "node-1", str "boot-1", true, 100 * second, []⟩, []),
    List.isEmpty⟩

def sampleFile : ReportFile := .opened true 2 (.ok (str "rr"))

def sampleClaim : ResourceClaim :=
  ⟨str "claim", some [⟨str "gpu", driverName, str "node-1", deviceName, none, none⟩]⟩

def sampleHistory : List (Time × Event) :=
  [(101 * second, .readReport sampleFile), (102 * second, .storeReport)]

end Sample

/-- Twenty seconds after the check the device is still handed out. -/
theorem prepare_on_lease : ∃ readAt file report, lastRefresh sampleHistory = some (readAt, file) ∧
    (readAt, .readReport file) ∈ sampleHistory ∧
    Lease sampleDecoder sampleIdentity readAt file report ∧
    120 * second - report.checkedAt ≤ 20 * second :=
  handsOut_on_lease sampleDecoder sampleIdentity 8192 (str "/dev/dri/renderD128") [] sampleHistory
    (120 * second) (.prepare (fun _ => .ok true) sampleClaim) (List.cons_ne_nil _ _)

end Kiac.Gpu
