import Estela.Runtime.Libstrela

set_option autoImplicit false

namespace Estela.Runtime

open CallProgram (Prog)

/-- `iree_hal_strela_device_options_t`. -/
structure DeviceOptions where
  reserved : Int
  deriving DecidableEq, Repr

/-- `iree_hal_strela_device_options_verify`. -/
def deviceOptionsVerify (options : DeviceOptions) : CResult Unit :=
  if options.reserved ≠ 0 then makeStatus .invalidArgument "" else .ok ()

/-- The frontier of an `iree_hal_device_topology_info_t`. Its tracker is never
NULL: registering an axis reads it. -/
structure TopologyInfo where
  tracker : Nat
  baseAxis : BitVec 64
  deriving DecidableEq, Repr

/-- `iree_hal_strela_device_t`, at `address`. Pointers that may be NULL, and the
topology info, are none where the device is zeroed. -/
structure HalDevice where
  address : Nat
  identifier : String
  deviceAllocator : Option Nat
  proactorPool : Nat
  proactor : Option Nat
  frontierTracker : Option Nat
  axis : BitVec 64
  epoch : BitVec 64
  channelProvider : Option Nat
  topologyInfo : Option TopologyInfo
  dev : Option Nat
  deriving DecidableEq, Repr

/-- What `device_create` asks the host allocator for. -/
inductive DeviceObject
  | device (identifierSize : Nat)
  | allocator
  deriving DecidableEq, Repr

/-- Whose vtable an `iree_hal_resource_t` has. -/
inductive HalVtable
  | device
  | allocator
  | buffer
  deriving DecidableEq, Repr

/-- The calls of `device.c` into IREE and libstrela. -/
inductive DeviceCall
  | malloc (object : DeviceObject)
  | free (address : Nat)
  /-- `iree_hal_resource_initialize`: one reference, the caller's. -/
  | resourceInitialize (vtable : HalVtable) (address : Nat)
  /-- One reference less; the answer is whether it was the last. -/
  | resourceRelease (vtable : HalVtable) (address : Nat)
  | blockPoolInitialize (device blockSize : Nat)
  | blockPoolDeinit (device : Nat)
  | proactorPoolRetain (pool : Nat)
  | proactorPoolGet (pool index : Nat)
  | proactorPoolRelease (pool : Nat)
  | channelProviderRelease (provider : Nat)
  | devInit (index : Nat)
  | devOk (dev : Option Nat)
  | devGetErr (dev : Option Nat)
  | devDeinit (dev : Nat)
  | frontierTrackerRegisterAxis (tracker : Nat) (axis : BitVec 64)
  /-- With `IREE_STATUS_CANCELLED`. -/
  | frontierTrackerRetireAxis (tracker : Nat) (axis : BitVec 64)
  | frontierTrackerRetain (tracker : Nat)
  | frontierTrackerRelease (tracker : Nat)
  | semaphoreListWait (semaphores : List Nat)
  | semaphoreListSignal (semaphores : List Nat)
  | semaphoreListFail (semaphores : List Nat) (stop : Stop)
  | allocateBuffer (allocator : Option Nat) (allocationSize : BitVec 64)
  | bufferRelease (buffer : Nat)
  deriving DecidableEq, Repr

/-- An allocation that fails leaves the out pointer NULL. -/
def DeviceCall.Answer : DeviceCall → Type
  | .malloc _ => CResult Nat
  | .resourceRelease _ _ => Bool
  | .proactorPoolGet _ _ => CResult Nat
  | .devInit _ => Option Nat
  | .devOk _ => Bool
  | .devGetErr _ => Int
  | .frontierTrackerRegisterAxis _ _ => CResult Unit
  | .semaphoreListWait _ => CResult Unit
  | .semaphoreListSignal _ => CResult Unit
  | .allocateBuffer _ _ => CResult Nat
  | _ => Unit

abbrev DeviceProg (α : Type) := Prog DeviceCall DeviceCall.Answer α

def deviceCall (c : DeviceCall) : DeviceProg c.Answer := Prog.request c

/-- `iree_hal_strela_allocator_create`: a failed `malloc` is its only failure. -/
def allocatorCreate : DeviceProg (CResult Nat) := do
  let allocated : CResult Nat ← deviceCall (.malloc .allocator)
  match allocated with
  | .error stop => return .error stop
  | .ok allocator => do
    deviceCall (.resourceInitialize .allocator allocator)
    return .ok allocator

/-- `iree_hal_allocator_release`, with `iree_hal_strela_allocator_destroy`. -/
def allocatorRelease : Option Nat → DeviceProg Unit
  | none => return ()
  | some allocator => do
      let last : Bool ← deviceCall (.resourceRelease .allocator allocator)
      if last then
        deviceCall (.free allocator)

/-- `iree_hal_channel_provider_release`. -/
def channelProviderRelease : Option Nat → DeviceProg Unit
  | none => return ()
  | some provider => deviceCall (.channelProviderRelease provider)

/-- `iree_hal_strela_device_clear_topology_info`. -/
def deviceClearTopologyInfo (device : HalDevice) : DeviceProg HalDevice := do
  match device.frontierTracker with
  | none => return { device with topologyInfo := none }
  | some tracker => do
    deviceCall (.frontierTrackerRetireAxis tracker device.axis)
    deviceCall (.frontierTrackerRelease tracker)
    return { device with frontierTracker := none, axis := 0, topologyInfo := none }

/-- `iree_hal_strela_device_destroy`. -/
def deviceDestroy (device : HalDevice) : DeviceProg Unit := do
  let device ← deviceClearTopologyInfo device
  allocatorRelease device.deviceAllocator
  channelProviderRelease device.channelProvider
  deviceCall (.proactorPoolRelease device.proactorPool)
  match device.dev with
  | some dev => deviceCall (.devDeinit dev)
  | none => pure ()
  deviceCall (.blockPoolDeinit device.address)
  deviceCall (.free device.address)

/-- `iree_hal_device_release`. -/
def deviceRelease (device : HalDevice) : DeviceProg Unit := do
  let last : Bool ← deviceCall (.resourceRelease .device device.address)
  if last then
    deviceDestroy device

/-- `device_create` up to its `malloc`'s object: the zeroed device, initialized. -/
def deviceInitialize (identifier : String) (proactorPool address : Nat) : DeviceProg HalDevice := do
  deviceCall (.resourceInitialize .device address)
  deviceCall (.blockPoolInitialize address (32 * 1024))
  deviceCall (.proactorPoolRetain proactorPool)
  return {
    address
    identifier
    deviceAllocator := none
    proactorPool
    proactor := none
    frontierTracker := none
    axis := 0
    epoch := 0
    channelProvider := none
    topologyInfo := none
    dev := none }

/-- The part of `device_create` that opens STRELA. -/
def deviceOpenStrela (device : HalDevice) : DeviceProg (CResult Unit × HalDevice) := do
  let dev : Option Nat ← deviceCall (.devInit 0)
  let device := { device with dev }
  let ok : Bool ← deviceCall (.devOk device.dev)
  if ok then
    let created ← allocatorCreate
    match created with
    | .error stop => return (.error stop, device)
    | .ok allocator => return (.ok (), { device with deviceAllocator := some allocator })
  else
    let errnum : Int ← deviceCall (.devGetErr device.dev)
    return (makeStatus .unavailable
      s!"cannot open STRELA (libstrela error {errnum}); is strela2.ko loaded?", device)

/-- What `device_create` does with an initialized device. -/
def deviceOpen (device : HalDevice) : DeviceProg (CResult Unit × HalDevice) := do
  let proactor : CResult Nat ← deviceCall (.proactorPoolGet device.proactorPool 0)
  match proactor with
  | .error stop => return (.error stop, device)
  | .ok proactor => deviceOpenStrela { device with proactor := some proactor }

/-- The end of `device_create`. A device that could not be opened is released,
and left in `*out_device` all the same. -/
def deviceCreateEnd (status : CResult Unit) (device : HalDevice) :
    DeviceProg (CResult Unit × Option HalDevice) :=
  match status with
  | .ok _ => return (.ok (), some device)
  | .error stop => do
      deviceRelease device
      return (.error stop, some device)

/-- `iree_hal_strela_device_create`: its status, and what it leaves in `*out_device`. -/
def deviceCreate (identifier : String) (options : DeviceOptions) (proactorPool : Nat) :
    DeviceProg (CResult Unit × Option HalDevice) := do
  match deviceOptionsVerify options with
  | .error stop => return (.error stop, none)
  | .ok _ => do
    let allocated : CResult Nat ← deviceCall (.malloc (.device identifier.length))
    match allocated with
    | .error stop => return (.error stop, none)
    | .ok address => do
      let device ← deviceInitialize identifier proactorPool address
      let opened ← deviceOpen device
      deviceCreateEnd opened.1 opened.2

/-- `iree_hal_strela_device_assign_topology_info`: its status, and the device after it. -/
def deviceAssignTopologyInfo (device : HalDevice) (topologyInfo : Option TopologyInfo) :
    DeviceProg (CResult Unit × HalDevice) := do
  match topologyInfo with
  | none => do
    let device ← deviceClearTopologyInfo device
    return (.ok (), device)
  | some info => do
    let registered : CResult Unit ←
      deviceCall (.frontierTrackerRegisterAxis info.tracker info.baseAxis)
    match registered with
    | .error stop => return (.error stop, device)
    | .ok _ => do
      deviceCall (.frontierTrackerRetain info.tracker)
      return (.ok (), { device with
        topologyInfo := some info, frontierTracker := some info.tracker, axis := info.baseAxis })

/-- The allocation of `queue_alloca`, and the signal after it: its status and
`buffer`. -/
def queueAllocaSteps (device : HalDevice) (waitSemaphoreList signalSemaphoreList : List Nat)
    (allocationSize : BitVec 64) : DeviceProg (CResult Unit × Option Nat) := do
  let waited : CResult Unit ← deviceCall (.semaphoreListWait waitSemaphoreList)
  match waited with
  | .error stop => return (.error stop, none)
  | .ok _ => do
    let allocated : CResult Nat ← deviceCall (.allocateBuffer device.deviceAllocator allocationSize)
    match allocated with
    | .error stop => return (.error stop, none)
    | .ok buffer => do
      let signalled : CResult Unit ← deviceCall (.semaphoreListSignal signalSemaphoreList)
      return (signalled, some buffer)

/-- `iree_hal_strela_device_queue_alloca`: its status, and what it leaves in
`*out_buffer`. -/
def deviceQueueAlloca (device : HalDevice) (waitSemaphoreList signalSemaphoreList : List Nat)
    (allocationSize : BitVec 64) : DeviceProg (CResult Unit × Option Nat) := do
  let (status, buffer) ←
    queueAllocaSteps device waitSemaphoreList signalSemaphoreList allocationSize
  match status with
  | .ok _ => return (.ok (), buffer)
  | .error stop => do
    deviceCall (.semaphoreListFail signalSemaphoreList stop)
    match buffer with
    | some buffer => deviceCall (.bufferRelease buffer)
    | none => pure ()
    return (.error stop, buffer)

end Estela.Runtime
