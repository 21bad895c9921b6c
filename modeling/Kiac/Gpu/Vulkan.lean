import Kiac.Program.Triple
import Kiac.Text.Basic

/-!
# The Vulkan transfer probe

The probe creates an instance, a device and what a transfer on it needs, fills a buffer with a
sentinel, waits for the fence and reads the buffer back. The entry points of the loader, the context
and the mapped memory are operations that answer anything at all. The two deferred functions become
what follows a body that has returned.
-/

namespace Kiac.Gpu

abbrev Handle := UInt64

abbrev VkResult := ℤ

def vkSuccess : VkResult := 0

def vkTimeout : VkResult := 2

def vkDeviceLost : VkResult := -4

def vulkanProbeBytes : ℕ := 64

def vulkanProbeSentinel : UInt32 := 0x6b696163

def vulkanProbeFenceTimeout : ℤ := 2000000000

structure DeviceProperties where
  deviceType : UInt32
  name : Str

structure QueueFamily where
  flags : UInt32
  count : UInt32

structure MemoryRequirements where
  size : UInt64
  types : UInt32

structure MemoryProperties where
  typeCount : UInt32
  typeFlags : ℕ → UInt32
  typeHeap : ℕ → UInt32
  heapCount : UInt32
  heapSize : ℕ → UInt64

inductive VkOp where
  | contextErr
  | contextDeadline
  | createInstance
  | destroyInstance (vk : Handle)
  | countDevices (vk : Handle)
  | enumerateDevices (vk : Handle) (capacity : UInt32)
  | getProperties (physical : Handle)
  | countQueueFamilies (physical : Handle)
  | getQueueFamilies (physical : Handle) (capacity : UInt32)
  | createDevice (physical : Handle) (family : ℕ)
  | destroyDevice (device : Handle)
  | getDeviceQueue (device : Handle) (family : ℕ)
  | createBuffer (device : Handle) (size : ℕ)
  | destroyBuffer (device buffer : Handle)
  | getBufferRequirements (device buffer : Handle)
  | getMemoryProperties (physical : Handle)
  | allocateMemory (device : Handle) (size : UInt64) (memoryType : ℕ)
  | freeMemory (device memory : Handle)
  | bindBufferMemory (device buffer memory : Handle)
  | mapMemory (device memory : Handle) (size : ℕ)
  | clearWords
  | unmapMemory (device memory : Handle)
  | createCommandPool (device : Handle) (family : ℕ)
  | destroyCommandPool (device pool : Handle)
  | allocateCommands (device pool : Handle)
  | beginCommand (command : Handle)
  | fillBuffer (command buffer : Handle) (size : ℕ) (value : UInt32)
  | pipelineBarrier (command : Handle)
  | endCommand (command : Handle)
  | createFence (device : Handle)
  | destroyFence (device fence : Handle)
  | queueSubmit (queue command fence : Handle)
  | waitForFences (device fence : Handle) (timeout : ℤ)
  | deviceWaitIdle (device : Handle)
  | readWord (index : ℕ)

/-- A call that creates something answers a result and what it has left in the variable. An
enumeration answers a count and what it has left in the array. -/
abbrev VkOp.Ans : VkOp → Type
  | contextErr => Option Str
  | contextDeadline => Option ℤ
  | countDevices _ => VkResult × UInt32
  | enumerateDevices _ _ => VkResult × UInt32 × (ℕ → Handle)
  | getProperties _ => DeviceProperties
  | countQueueFamilies _ => UInt32
  | getQueueFamilies _ _ => UInt32 × (ℕ → QueueFamily)
  | createInstance | createDevice _ _ | createBuffer _ _ | allocateMemory _ _ _ => VkResult × Handle
  | createCommandPool _ _ | allocateCommands _ _ | createFence _ => VkResult × Handle
  | mapMemory _ _ _ => VkResult × Handle
  | getDeviceQueue _ _ => Handle
  | getBufferRequirements _ _ => MemoryRequirements
  | getMemoryProperties _ => MemoryProperties
  | bindBufferMemory _ _ _ | beginCommand _ | endCommand _ | queueSubmit _ _ _ => VkResult
  | waitForFences _ _ _ | deviceWaitIdle _ => VkResult
  | readWord _ => UInt32
  | _ => Unit

inductive ProbeErr where
  | context (err : Str)
  | deadlineExceeded
  | failed (operation : Str) (result : VkResult)
  | null (operation noun : Str)
  | deviceCount (count : UInt32)
  | deviceCountChanged
  | noDevice
  | queueFamilyCount (count : UInt32)
  | queueFamilyCountChanged
  | noQueueFamily
  | memoryRequirements
  | memoryPropertyCounts
  | noMemoryType
  | fenceTimeout (timeout : ℤ)
  | mismatch (word : ℕ)

section Steps

variable {ε : Type} (fail : ProbeErr → ε)

abbrev VkAction (ε α : Type) := ExceptT ε (Prog VkOp VkOp.Ans) α

def checkContext : VkAction ε Unit := do
  let err ← ExceptT.lift (Prog.perform VkOp.contextErr)
  match err with
  | none => return ()
  | some err => throw (fail (.context err))

def require (holds : Prop) [Decidable holds] (err : ProbeErr) : VkAction ε Unit :=
  if holds then return () else throw (fail err)

def vkResult (operation : Str) (result : VkResult) : VkAction ε Unit :=
  require fail (result = vkSuccess) (.failed operation result)

def create (operation noun : Str) (program : Prog VkOp VkOp.Ans (VkResult × Handle)) :
    VkAction ε Handle := do
  let (result, handle) ← ExceptT.lift program
  vkResult fail operation result
  require fail (handle ≠ 0) (.null operation noun)
  return handle

end Steps

def isVenus (properties : DeviceProperties) : Bool :=
  let name := properties.name.takeWhile (· != 0)
  properties.deviceType != 4 && Str.hasPrefix name (str "Virtio-GPU Venus (Apple ") &&
    (str ")").isSuffixOf name

def findVenus : List Handle → VkAction ProbeErr Handle
  | [] => throw .noDevice
  | device :: devices => do
      checkContext id
      if device = 0 then findVenus devices
      else
        let properties ← ExceptT.lift (Prog.perform (VkOp.getProperties device))
        if isVenus properties then return device else findVenus devices

def choosePhysical (vk : Handle) : VkAction ProbeErr Handle := do
  let (result, count) ← ExceptT.lift (Prog.perform (VkOp.countDevices vk))
  vkResult id (str "vkEnumeratePhysicalDevices") result
  require id (¬(count = 0 ∨ count > 32)) (.deviceCount count)
  let (result, found, devices) ← ExceptT.lift (Prog.perform (VkOp.enumerateDevices vk count))
  vkResult id (str "vkEnumeratePhysicalDevices") result
  require id (¬(found = 0 ∨ found > count)) .deviceCountChanged
  findVenus ((List.range found.toNat).map devices)

def chooseFamily (physical : Handle) : VkAction ProbeErr ℕ := do
  let count ← ExceptT.lift (Prog.perform (VkOp.countQueueFamilies physical))
  require id (¬(count = 0 ∨ count > 128)) (.queueFamilyCount count)
  let (found, families) ← ExceptT.lift (Prog.perform (VkOp.getQueueFamilies physical count))
  require id (¬(found = 0 ∨ found > count)) .queueFamilyCountChanged
  match (List.range found.toNat).find? fun family =>
      (families family).count > 0 && (families family).flags &&& 3 != 0 with
  | none => throw .noQueueFamily
  | some family => return family

structure Locals where
  buffer : Handle
  memory : Handle
  pool : Handle
  fence : Handle
  mapping : Bool
  submitted : Bool
  completed : Bool

def Locals.leave (locals : Locals) (err : ProbeErr) : Locals × ProbeErr := (locals, err)

abbrev DeviceAction (α : Type) := VkAction (Locals × ProbeErr) α

def chooseMemoryType (requirements : MemoryRequirements) (properties : MemoryProperties) :
    Option ℕ :=
  (List.range properties.typeCount.toNat).find? fun memoryType =>
    requirements.types &&& (1 <<< UInt32.ofNat memoryType) != 0 &&
      properties.typeFlags memoryType &&& 6 == 6 &&
      properties.typeHeap memoryType < properties.heapCount &&
      properties.heapSize (properties.typeHeap memoryType).toNat ≥ requirements.size

def prepareBuffer (physical device : Handle) (locals : Locals) : DeviceAction Locals := do
  let buffer ← create locals.leave (str "vkCreateBuffer") (str "buffer")
    (Prog.perform (VkOp.createBuffer device vulkanProbeBytes))
  let locals := { locals with buffer := buffer }
  checkContext locals.leave
  let requirements ← ExceptT.lift (Prog.perform (VkOp.getBufferRequirements device buffer))
  require locals.leave (¬(requirements.size < 64 ∨ requirements.size > 1048576 ∨
    requirements.types = 0)) .memoryRequirements
  checkContext locals.leave
  let properties ← ExceptT.lift (Prog.perform (VkOp.getMemoryProperties physical))
  require locals.leave (¬(properties.typeCount > 32 ∨ properties.heapCount > 16))
    .memoryPropertyCounts
  match chooseMemoryType requirements properties with
  | none => throw (locals.leave .noMemoryType)
  | some memoryType =>
    checkContext locals.leave
    let memory ← create locals.leave (str "vkAllocateMemory") (str "memory")
      (Prog.perform (VkOp.allocateMemory device requirements.size memoryType))
    let locals := { locals with memory := memory }
    checkContext locals.leave
    let result ← ExceptT.lift (Prog.perform (VkOp.bindBufferMemory device buffer memory))
    vkResult locals.leave (str "vkBindBufferMemory") result
    checkContext locals.leave
    let (result, mapped) ←
      ExceptT.lift (Prog.perform (VkOp.mapMemory device memory vulkanProbeBytes))
    vkResult locals.leave (str "vkMapMemory") result
    let locals := { locals with mapping := true }
    require locals.leave (mapped ≠ 0) (.null (str "vkMapMemory") (str "mapping"))
    ExceptT.lift (Prog.perform VkOp.clearWords)
    return locals

def recordCommands (device : Handle) (family : ℕ) (locals : Locals) :
    DeviceAction (Locals × Handle) := do
  let pool ← create locals.leave (str "vkCreateCommandPool") (str "pool")
    (Prog.perform (VkOp.createCommandPool device family))
  let locals := { locals with pool := pool }
  checkContext locals.leave
  let command ← create locals.leave (str "vkAllocateCommandBuffers") (str "command buffer")
    (Prog.perform (VkOp.allocateCommands device pool))
  checkContext locals.leave
  let result ← ExceptT.lift (Prog.perform (VkOp.beginCommand command))
  vkResult locals.leave (str "vkBeginCommandBuffer") result
  ExceptT.lift (Prog.perform
    (VkOp.fillBuffer command locals.buffer vulkanProbeBytes vulkanProbeSentinel))
  ExceptT.lift (Prog.perform (VkOp.pipelineBarrier command))
  let result ← ExceptT.lift (Prog.perform (VkOp.endCommand command))
  vkResult locals.leave (str "vkEndCommandBuffer") result
  return (locals, command)

def submitCommands (device queue command : Handle) (locals : Locals) : DeviceAction Locals := do
  let fence ← create locals.leave (str "vkCreateFence") (str "fence")
    (Prog.perform (VkOp.createFence device))
  let locals := { locals with fence := fence }
  checkContext locals.leave
  let result ← ExceptT.lift (Prog.perform (VkOp.queueSubmit queue command fence))
  vkResult locals.leave (str "vkQueueSubmit") result
  let locals := { locals with submitted := true }
  checkContext locals.leave
  let deadline ← ExceptT.lift (Prog.perform VkOp.contextDeadline)
  let timeout := deadline.elim vulkanProbeFenceTimeout (min vulkanProbeFenceTimeout)
  require locals.leave (0 < timeout) .deadlineExceeded
  let result ← ExceptT.lift (Prog.perform (VkOp.waitForFences device fence timeout))
  let locals := { locals with completed := result = vkSuccess ∨ result = vkDeviceLost }
  require locals.leave (result ≠ vkTimeout) (.fenceTimeout timeout)
  vkResult locals.leave (str "vkWaitForFences") result
  return locals

/-- The loop over the words of the buffer, the first of which has the given index. -/
def readBack (locals : Locals) (index : ℕ) : ℕ → DeviceAction Unit
  | 0 => return ()
  | count + 1 => do
      let value ← ExceptT.lift (Prog.perform (VkOp.readWord index))
      require locals.leave (value = vulkanProbeSentinel) (.mismatch index)
      readBack locals (index + 1) count

def useDevice (physical device : Handle) (family : ℕ) : DeviceAction Locals := do
  let locals : Locals := ⟨0, 0, 0, 0, false, false, false⟩
  checkContext locals.leave
  let queue ← ExceptT.lift (Prog.perform (VkOp.getDeviceQueue device family))
  require locals.leave (queue ≠ 0) (.null (str "vkGetDeviceQueue") (str "queue"))
  checkContext locals.leave
  let locals ← prepareBuffer physical device locals
  checkContext locals.leave
  let (locals, command) ← recordCommands device family locals
  checkContext locals.leave
  let locals ← submitCommands device queue command locals
  checkContext locals.leave
  readBack locals 0 (vulkanProbeBytes / 4)
  return locals

def destroyIf (there : Prop) [Decidable there] (program : Prog VkOp VkOp.Ans Unit) :
    Prog VkOp VkOp.Ans Unit :=
  if there then program else return ()

def destroyAll (device : Handle) (locals : Locals) : Prog VkOp VkOp.Ans Unit := do
  destroyIf (locals.fence ≠ 0) (Prog.perform (VkOp.destroyFence device locals.fence))
  destroyIf (locals.pool ≠ 0) (Prog.perform (VkOp.destroyCommandPool device locals.pool))
  destroyIf (locals.buffer ≠ 0) (Prog.perform (VkOp.destroyBuffer device locals.buffer))
  destroyIf (locals.mapping = true) (Prog.perform (VkOp.unmapMemory device locals.memory))
  destroyIf (locals.memory ≠ 0) (Prog.perform (VkOp.freeMemory device locals.memory))
  Prog.perform (VkOp.destroyDevice device)

def releaseDevice (device : Handle) (locals : Locals) : Prog VkOp VkOp.Ans Bool := do
  if locals.submitted && !locals.completed then
    let result ← Prog.perform (VkOp.deviceWaitIdle device)
    if result ≠ vkSuccess ∧ result ≠ vkDeviceLost then return true
    else
      destroyAll device locals
      return false
  else
    destroyAll device locals
    return false

/-- The body after the instance has been created, with the deferred function of the device. The
flag is that of the API, which is not set before. -/
def useInstance (vk : Handle) : Prog VkOp VkOp.Ans (Except ProbeErr Unit × Bool) := do
  let created ← ExceptT.run do
    checkContext id
    let physical ← choosePhysical vk
    checkContext id
    let family ← chooseFamily physical
    checkContext id
    let device ← create id (str "vkCreateDevice") (str "device")
      (Prog.perform (VkOp.createDevice physical family))
    return (physical, family, device)
  match created with
  | .error err => return (.error err, false)
  | .ok (physical, family, device) =>
    let result ← (useDevice physical device family).run
    match result with
    | .error (locals, err) =>
      let inFlight ← releaseDevice device locals
      return (.error err, inFlight)
    | .ok locals =>
      let inFlight ← releaseDevice device locals
      return (.ok (), inFlight)

def probeVulkan : VkAction ProbeErr Unit := do
  checkContext id
  let vk ← create id (str "vkCreateInstance") (str "instance") (Prog.perform VkOp.createInstance)
  let (result, inFlight) ← ExceptT.lift (useInstance vk)
  ExceptT.lift (destroyIf (inFlight = false) (Prog.perform (VkOp.destroyInstance vk)))
  ExceptT.mk (Prog.done result)

end Kiac.Gpu
