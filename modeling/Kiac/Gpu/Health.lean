import Mathlib.Data.Int.Order.Basic
import Mathlib.Order.Lattice
import Kiac.Text.Decimal

/-!
# The health of the GPU

A watchdog in another container probes the GPU and publishes reports in a file. The monitor of
the driver reads the file once a second and keeps what the last report said; the device plugin
and the driver for resource claims ask it before they hand out the device.

Times are nanoseconds since the zero time. The JSON decoder is a parameter.
-/

namespace Kiac.Gpu

abbrev Time := ℤ

abbrev Duration := ℤ

def second : Duration := 1000000000

def healthMaxAge : Duration := 20 * second

/-- `time.Time.Sub`, which saturates. -/
def Time.sub (later earlier : Time) : Duration :=
  max (-2 ^ 63) (min (2 ^ 63 - 1) (later - earlier))

structure HealthReport where
  version : ℤ
  podUID : Str
  nodeName : Str
  bootID : Str
  healthy : Bool
  checkedAt : Time
  message : Str
deriving DecidableEq

/-- The decoder of reports: the first value of a text with what follows it, and whether another
value is asked for at the end of the text. -/
structure ReportDecoder where
  decode : Str → Except Str (HealthReport × Str)
  isEOF : Str → Bool

structure HealthState where
  healthy : Bool
  checkedAt : Time
  message : Str
deriving DecidableEq

/-- What is found where the report should be. The file may grow after it has been looked at. -/
inductive ReportFile where
  | unopened (err : Str)
  | unstated (err : Str)
  | opened (isRegular : Bool) (size : ℕ) (content : Except Str Str)

structure Identity where
  podUID : Str
  nodeName : Str
  bootID : Str

def checkReport (identity : Identity) (now : Time) (report : HealthReport) :
    Except Str HealthState :=
  if report.version ≠ 1 ∨ identity.podUID = [] ∨ identity.bootID = [] ∨
      report.podUID ≠ identity.podUID ∨ report.nodeName ≠ identity.nodeName ∨
      report.bootID ≠ identity.bootID then
    .error (str "Vulkan health report identity does not match this Pod and VM boot")
  else if report.checkedAt = 0 ∨ Time.sub now report.checkedAt < -second ∨
      Time.sub now report.checkedAt > healthMaxAge then
    .error (str "Vulkan health report is stale or has an invalid timestamp")
  else if report.message.length > 1024 then
    .error (str "Vulkan health message exceeds limit")
  else .ok ⟨report.healthy, report.checkedAt, report.message⟩

def readHealthReport (decoder : ReportDecoder) (identity : Identity) (file : ReportFile)
    (now : Time) : Except Str HealthState :=
  match file with
  | .unopened err => .error (str "read Vulkan health report: " ++ err)
  | .unstated err => .error err
  | .opened isRegular size content =>
    if !isRegular || size > 4096 then
      .error (str "Vulkan health report is not a bounded regular file")
    else
      match content with
      | .error err => .error err
      | .ok text =>
        let raw := text.take 4097
        if raw.length > 4096 then .error (str "Vulkan health report exceeds 4096 bytes")
        else
          match decoder.decode raw with
          | .error err => .error (str "invalid Vulkan health report: " ++ err)
          | .ok (report, rest) =>
            if !decoder.isEOF rest then
              .error (str "Vulkan health report contains trailing data")
            else checkReport identity now report

/-- The monitor; `changed` counts the channels that have been closed. -/
structure HealthMonitor where
  identity : Identity
  state : HealthState
  changed : ℕ

def newHealthMonitor (identity : Identity) : HealthMonitor :=
  ⟨identity, ⟨false, 0, str "waiting for a fresh Vulkan transfer probe"⟩, 0⟩

namespace HealthMonitor

def readReport (monitor : HealthMonitor) (decoder : ReportDecoder) (file : ReportFile)
    (now : Time) : HealthState :=
  match readHealthReport decoder monitor.identity file now with
  | .error err => ⟨false, 0, err⟩
  | .ok state => state

def store (monitor : HealthMonitor) (state : HealthState) : HealthMonitor :=
  if state ≠ monitor.state then
    { monitor with
      state := state
      changed := monitor.changed + 1 }
  else monitor

def snapshot (monitor : HealthMonitor) (now : Time) : HealthState :=
  if monitor.state.healthy && Time.sub now monitor.state.checkedAt > healthMaxAge then
    { monitor.state with
      healthy := false
      message := str "Vulkan health report expired" }
  else monitor.state

end HealthMonitor

def requireHealthy (monitor : Option HealthMonitor) (now : Time) : Except Str Unit :=
  match monitor with
  | none => .error (str "Vulkan health monitor is not configured")
  | some monitor =>
    if !(monitor.snapshot now).healthy then
      .error (str "Venus GPU is unavailable: " ++ (monitor.snapshot now).message)
    else .ok ()

def deviceName : Str := str "venus-0"

def driverName : Str := str "gpu.kiac.dev"

def cdiDeviceID : Str := str "kiac.dev/gpu=venus"

abbrev Devices := Str → Except Str Bool

def requireCharacterDevice (devices : Devices) (path : Str) : Except Str Unit :=
  match devices path with
  | .error err => .error err
  | .ok false => .error (path ++ str " is not a character device")
  | .ok true => .ok ()

structure DeviceSpec where
  hostPath : Str
  containerPath : Str
  permissions : Str

structure ContainerAllocateResponse where
  devices : List DeviceSpec
  envs : List (Str × Str)

inductive Code where
  | unavailable
  | invalidArgument
deriving DecidableEq

structure DevicePlugin where
  health : Option HealthMonitor
  renderDevice : Str
  optionalCard : Str

namespace DevicePlugin

def containerDevices (plugin : DevicePlugin) (devices : Devices) : List DeviceSpec :=
  ⟨plugin.renderDevice, plugin.renderDevice, str "rw"⟩ ::
    if plugin.optionalCard ≠ [] ∧
        (requireCharacterDevice devices plugin.optionalCard).toBool = true then
      [⟨plugin.optionalCard, plugin.optionalCard, str "rw"⟩]
    else []

def allocate (plugin : DevicePlugin) (devices : Devices) (now : Time) (request : List (List Str)) :
    Except (Code × Str) (List ContainerAllocateResponse) :=
  match requireHealthy plugin.health now with
  | .error err => .error (.unavailable, err)
  | .ok () =>
    match requireCharacterDevice devices plugin.renderDevice with
    | .error err => .error (.unavailable, err)
    | .ok () =>
      request.mapM fun devicesIds =>
        if devicesIds ≠ [deviceName] then
          .error (.invalidArgument, str "only the published Venus device may be allocated")
        else
          .ok ⟨plugin.containerDevices devices,
            [(str "KIAC_GPU_API", str "venus"), (str "KIAC_GPU_PRODUCT", str "apple-silicon")]⟩

end DevicePlugin

structure DeviceRequestAllocationResult where
  request : Str
  driver : Str
  pool : Str
  device : Str
  shareID : Option Str
  /-- The text of the reserved memory. -/
  consumedMemory : Option Str

structure ResourceClaim where
  uid : Str
  allocation : Option (List DeviceRequestAllocationResult)

inductive DeviceAttribute where
  | stringValue (value : Str)
  | intValue (value : ℤ)
  | boolValue (value : Bool)

structure PreparedDevice where
  requests : List Str
  poolName : Str
  deviceName : Str
  cdiDeviceIDs : List Str
  shareID : Option Str
  metadata : List (Str × DeviceAttribute)

structure PrepareResult where
  devices : List PreparedDevice
  err : Option Str

structure Driver where
  nodeName : Str
  memoryMiB : ℤ
  health : Option HealthMonitor
  renderDevice : Str

namespace Driver

def gpuDeviceAttributes (memoryMiB : ℤ) : List (Str × DeviceAttribute) :=
  [(str "product", .stringValue (str "apple-silicon")), (str "api", .stringValue (str "venus")),
    (str "memoryMiB", .intValue memoryMiB)]

def deviceMetadata (driver : Driver) (allocation : DeviceRequestAllocationResult) :
    List (Str × DeviceAttribute) :=
  gpuDeviceAttributes driver.memoryMiB ++
    [(str "memoryAccounting", .stringValue (str "vm-window")),
      (str "memoryIsolated", .boolValue false)] ++
    (allocation.shareID.toList.map fun share => (str "shareID", .stringValue share)) ++
    allocation.consumedMemory.toList.map fun memory => (str "reservedMemory", .stringValue memory)

def preparedDevice (driver : Driver) (allocation : DeviceRequestAllocationResult) :
    PreparedDevice :=
  ⟨[allocation.request], allocation.pool, allocation.device, [cdiDeviceID], allocation.shareID,
    driver.deviceMetadata allocation⟩

/-- The loop over the devices of a claim; an allocation of another device ends it. -/
def prepareDevices (driver : Driver) (prepared : List PreparedDevice) :
    List DeviceRequestAllocationResult → PrepareResult
  | [] => ⟨prepared, none⟩
  | allocation :: allocations =>
    if allocation.driver ≠ driverName then driver.prepareDevices prepared allocations
    else if allocation.pool ≠ driver.nodeName ∨ allocation.device ≠ deviceName then
      ⟨[], some (str "unknown GPU allocation " ++ allocation.pool ++ str "/" ++
        allocation.device)⟩
    else driver.prepareDevices (prepared ++ [driver.preparedDevice allocation]) allocations

/-- One round of the loop of `PrepareResourceClaims`, which looks at the monitor again for each
claim. -/
def prepareResourceClaim (driver : Driver) (devices : Devices) (now : Time)
    (claim : ResourceClaim) : PrepareResult :=
  match requireHealthy driver.health now with
  | .error err => ⟨[], some err⟩
  | .ok () =>
    match requireCharacterDevice devices driver.renderDevice with
    | .error err => ⟨[], some (str "configured Venus render device is unavailable: " ++ err)⟩
    | .ok () =>
      match claim.allocation with
      | none => ⟨[], some (str "resource claim is not allocated")⟩
      | some allocations =>
        let prepared := driver.prepareDevices [] allocations
        if prepared.err = none ∧ prepared.devices = [] then
          ⟨[], some (str "resource claim has no allocation for gpu.kiac.dev")⟩
        else prepared

end Driver

end Kiac.Gpu
