import Estela.Lib.Ledger
import Estela.Runtime.Device

set_option autoImplicit false

/- What `device_create` and `queue_alloca` acquire, release and hand out, for
every choice of which of their steps fails. -/
namespace Estela.Runtime

open Ledger
open CallProgram (Prog)

/-- What the calls of `device.c` acquire and release. -/
inductive Resource
  | memory (address : Nat)
  | reference (vtable : HalVtable) (address : Nat)
  | blockPool (device : Nat)
  | proactorPool (pool : Nat)
  | channelProvider (provider : Nat)
  | strelaDev (dev : Nat)
  | axis (tracker : Nat) (axis : BitVec 64)
  | tracker (tracker : Nat)
  deriving DecidableEq, Repr

/-- The ledger since a point in time, latest entry first, and the semaphores
that have been failed. -/
structure World where
  entries : List (Entry Resource)
  failed : List Nat
  deriving DecidableEq, Repr

def World.empty : World := ⟨[], []⟩

def World.acquire (w : World) (r : Resource) : World :=
  { w with entries := .acquired r :: w.entries }

def World.release (w : World) (r : Resource) : World :=
  { w with entries := .released r :: w.entries }

/-- How each step that may fail goes. -/
structure Outcomes where
  mallocDevice : CResult Nat
  mallocAllocator : CResult Nat
  proactor : CResult Nat
  dev : Option Nat
  devOk : Bool
  errnum : Int
  register : CResult Unit
  wait : CResult Unit
  allocate : CResult Nat
  signal : CResult Unit

def Outcomes.malloc (o : Outcomes) : DeviceObject → CResult Nat
  | .device _ => o.mallocDevice
  | .allocator => o.mallocAllocator

/-- What acquires only if it succeeds. -/
def World.acquireOk {α : Type} (w : World) (result : CResult α) (r : α → Resource) : World :=
  match result with
  | .ok value => w.acquire (r value)
  | .error _ => w

/-- The answer to a call, and the world after it. -/
def Outcomes.answer (o : Outcomes) (w : World) : (c : DeviceCall) → c.Answer × World
  | .malloc object => (o.malloc object, w.acquireOk (o.malloc object) .memory)
  | .free address => ((), w.release (.memory address))
  | .resourceInitialize vtable address => ((), w.acquire (.reference vtable address))
  | .resourceRelease vtable address =>
      (decide (acquired w.entries (.reference vtable address) =
          released w.entries (.reference vtable address) + 1),
        w.release (.reference vtable address))
  | .blockPoolInitialize device _ => ((), w.acquire (.blockPool device))
  | .blockPoolDeinit device => ((), w.release (.blockPool device))
  | .proactorPoolRetain pool => ((), w.acquire (.proactorPool pool))
  | .proactorPoolGet _ _ => (o.proactor, w)
  | .proactorPoolRelease pool => ((), w.release (.proactorPool pool))
  | .channelProviderRelease provider => ((), w.release (.channelProvider provider))
  | .devInit _ => (o.dev, match o.dev with
      | some dev => w.acquire (.strelaDev dev)
      | none => w)
  | .devOk _ => (o.devOk, w)
  | .devGetErr _ => (o.errnum, w)
  | .devDeinit dev => ((), w.release (.strelaDev dev))
  | .frontierTrackerRegisterAxis tracker axis =>
      (o.register, w.acquireOk o.register fun _ => .axis tracker axis)
  | .frontierTrackerRetireAxis tracker axis => ((), w.release (.axis tracker axis))
  | .frontierTrackerRetain tracker => ((), w.acquire (.tracker tracker))
  | .frontierTrackerRelease tracker => ((), w.release (.tracker tracker))
  | .semaphoreListWait _ => (o.wait, w)
  | .semaphoreListSignal _ => (o.signal, w)
  | .semaphoreListFail semaphores _ => ((), { w with failed := semaphores ++ w.failed })
  | .allocateBuffer _ _ => (o.allocate, w.acquireOk o.allocate (.reference .buffer))
  | .bufferRelease buffer => ((), w.release (.reference .buffer buffer))

/-- The object is there, and its one reference is the caller's. -/
structure World.Live (w : World) (vtable : HalVtable) (address : Nat) : Prop where
  reference : acquired w.entries (.reference vtable address) =
    released w.entries (.reference vtable address) + 1
  memory : released w.entries (.memory address) = 0

/-- What a call may hand out by its out pointer. -/
structure HandsOut (vtable : HalVtable) (status : CResult Unit) (out : Option Nat) (after : World) :
    Prop where
  onOk : status = .ok () → ∃ address, out = some address ∧ after.Live vtable address
  onError : status ≠ .ok () → Settled after.entries ∧ out = none

section

variable (o : Outcomes)

def runQueueAlloca (device : HalDevice) (waits signals : List Nat) (allocationSize : BitVec 64) :
    (CResult Unit × Option Nat) × World :=
  (deviceQueueAlloca device waits signals allocationSize).eval o.answer .empty

def runDeviceCreate (identifier : String) (options : DeviceOptions) (proactorPool : Nat) :
    (CResult Unit × Option HalDevice) × World :=
  (deviceCreate identifier options proactorPool).eval o.answer .empty

/-- No step of `queue_alloca` fails once the buffer is there. -/
def AllocaFailsEarly : Prop :=
  o.wait = .ok () → (∃ buffer, o.allocate = .ok buffer) → o.signal = .ok ()

/-- No step of `device_create` fails once the device is there. -/
def CreateFailsEarly (options : DeviceOptions) : Prop :=
  deviceOptionsVerify options = .ok () → (∃ address, o.mallocDevice = .ok address) →
    (∃ proactor, o.proactor = .ok proactor) ∧ o.devOk = true ∧
      ∃ allocator, o.mallocAllocator = .ok allocator

/-- What `queue_alloca` does, by the first of its steps that fails. -/
inductive AllocaRun (signals : List Nat) : CResult Unit → Option Nat → World → Prop
  | early (stop : Stop)
      (before : o.wait = .error stop ∨ o.wait = .ok () ∧ o.allocate = .error stop) :
      AllocaRun signals (.error stop) none ⟨[], signals ++ []⟩
  | late (stop : Stop) (buffer : Nat) (waited : o.wait = .ok ())
      (allocated : o.allocate = .ok buffer)
      (signalled : o.signal = .error stop) :
      AllocaRun signals (.error stop) (some buffer)
        ⟨[.released (.reference .buffer buffer), .acquired (.reference .buffer buffer)],
          signals ++ []⟩
  | done (buffer : Nat) (waited : o.wait = .ok ()) (allocated : o.allocate = .ok buffer)
      (signalled : o.signal = .ok ()) :
      AllocaRun signals (.ok ()) (some buffer) ⟨[.acquired (.reference .buffer buffer)], []⟩

theorem queueAlloca_run (device : HalDevice) (waits signals : List Nat)
    (allocationSize : BitVec 64) :
    AllocaRun o signals (runQueueAlloca o device waits signals allocationSize).1.1
      (runQueueAlloca o device waits signals allocationSize).1.2
      (runQueueAlloca o device waits signals allocationSize).2 := by
  obtain ⟨mallocDevice, mallocAllocator, proactor, dev, devOk, errnum, register, wait,
    allocate, signal⟩ := o
  cases wait with
  | error stop => exact .early stop (Or.inl rfl)
  | ok _ =>
      cases allocate with
      | error stop => exact .early stop (Or.inr ⟨rfl, rfl⟩)
      | ok buffer =>
          cases signal with
          | error stop => exact .late stop buffer rfl rfl rfl
          | ok _ => exact .done buffer rfl rfl rfl

/-- The entries of an initialized device, whose own memory comes first. -/
def deviceEntries (proactorPool address : Nat) : List (Entry Resource) :=
  [.acquired (.proactorPool proactorPool), .acquired (.blockPool address),
    .acquired (.reference .device address), .acquired (.memory address)]

/-- The entries of a device that is released. -/
def destroyEntries (proactorPool address : Nat) (dev : Option Nat) : List (Entry Resource) :=
  [.released (.memory address), .released (.blockPool address)] ++
    (dev.map fun dev => .released (.strelaDev dev)).toList ++
    [.released (.proactorPool proactorPool), .released (.reference .device address)]

/-- The entries once STRELA has been opened, successfully or not. -/
def openedEntries (proactorPool address : Nat) : List (Entry Resource) :=
  (o.dev.map fun dev => .acquired (.strelaDev dev)).toList ++ deviceEntries proactorPool address

/-- What `device_create` does, by the first of its steps that fails. -/
inductive CreateRun (options : DeviceOptions) (proactorPool : Nat) :
    CResult Unit → Option HalDevice → World → Prop
  | early (stop : Stop) (before : deviceOptionsVerify options = .error stop ∨
        o.mallocDevice = .error stop) :
      CreateRun options proactorPool (.error stop) none .empty
  | noProactor (stop : Stop) (address : Nat) (device : HalDevice)
      (verified : deviceOptionsVerify options = .ok ())
      (allocated : o.mallocDevice = .ok address)
      (failed : o.proactor = .error stop) :
      CreateRun options proactorPool (.error stop) (some device)
        ⟨destroyEntries proactorPool address none ++ deviceEntries proactorPool address, []⟩
  | notOpen (stop : Stop) (address : Nat) (device : HalDevice)
      (verified : deviceOptionsVerify options = .ok ())
      (allocated : o.mallocDevice = .ok address)
      (failed : o.devOk = false ∨ o.mallocAllocator = .error stop) :
      CreateRun options proactorPool (.error stop) (some device)
        ⟨destroyEntries proactorPool address o.dev ++ openedEntries o proactorPool address, []⟩
  | done (address proactor allocator : Nat) (device : HalDevice) (there : device.address = address)
      (untracked : device.frontierTracker = none)
      (verified : deviceOptionsVerify options = .ok ())
      (allocated : o.mallocDevice = .ok address)
      (pooled : o.proactor = .ok proactor) (opened : o.devOk = true)
      (created : o.mallocAllocator = .ok allocator) :
      CreateRun options proactorPool (.ok ()) (some device)
        ⟨[.acquired (.reference .allocator allocator), .acquired (.memory allocator)] ++
          openedEntries o proactorPool address, []⟩

/-- Releasing the last reference to a device that has nothing but what it was
initialized with, and STRELA. -/
theorem deviceRelease_eval (w : World) (device : HalDevice)
    (untracked : device.frontierTracker = none)
    (noAllocator : device.deviceAllocator = none) (noProvider : device.channelProvider = none)
    (last : acquired w.entries (.reference .device device.address) =
      released w.entries (.reference .device device.address) + 1) :
    ((deviceRelease device).eval o.answer w).2 =
      ⟨destroyEntries device.proactorPool device.address device.dev ++ w.entries, w.failed⟩ := by
  have isLast : o.answer w (.resourceRelease .device device.address) =
      (true, w.release (.reference .device device.address)) :=
    Prod.ext (decide_eq_true last) rfl
  have step : (deviceRelease device).eval o.answer w =
      ((fun last : Bool => if last then deviceDestroy device else .ret ())
        (o.answer w (.resourceRelease .device device.address)).1).eval o.answer
        (o.answer w (.resourceRelease .device device.address)).2 := rfl
  rw [step, isLast]
  obtain ⟨address, identifier, _, proactorPool, proactor, _, axis, epoch, _, topologyInfo, dev⟩ :=
    device
  cases untracked
  cases noAllocator
  cases noProvider
  cases dev <;> rfl

/-- A new device that could not be opened. -/
theorem deviceCreateEnd_eval (w : World) (device : HalDevice) (stop : Stop)
    (untracked : device.frontierTracker = none) (noAllocator : device.deviceAllocator = none)
    (noProvider : device.channelProvider = none)
    (last : acquired w.entries (.reference .device device.address) =
      released w.entries (.reference .device device.address) + 1) :
    (deviceCreateEnd (.error stop) device).eval o.answer w = ((.error stop, some device),
      ⟨destroyEntries device.proactorPool device.address device.dev ++ w.entries, w.failed⟩) := by
  have step : (deviceCreateEnd (.error stop) device).eval o.answer w =
      ((.error stop, some device), ((deviceRelease device).eval o.answer w).2) :=
    Prog.eval_bind _ _ _ _
  rw [step, deviceRelease_eval o w device untracked noAllocator noProvider last]

/-- The device as `device_create` initializes it. -/
def initializedDevice (identifier : String) (proactorPool address : Nat) : HalDevice where
  address
  identifier
  deviceAllocator := none
  proactorPool
  proactor := none
  frontierTracker := none
  axis := 0
  epoch := 0
  channelProvider := none
  topologyInfo := none
  dev := none

/-- Opening an initialized device, and the world after it. -/
def runDeviceOpen (identifier : String) (proactorPool address : Nat) :
    (CResult Unit × HalDevice) × World :=
  (deviceOpen (initializedDevice identifier proactorPool address)).eval o.answer
    ⟨deviceEntries proactorPool address, []⟩

theorem runDeviceCreate_eq (identifier : String) (options : DeviceOptions) (proactorPool : Nat)
    {address : Nat} (verified : deviceOptionsVerify options = .ok ())
    (allocated : o.mallocDevice = .ok address) :
    runDeviceCreate o identifier options proactorPool =
      (deviceCreateEnd (runDeviceOpen o identifier proactorPool address).1.1
        (runDeviceOpen o identifier proactorPool address).1.2).eval o.answer
        (runDeviceOpen o identifier proactorPool address).2 := by
  simp only [runDeviceCreate, deviceCreate, verified]
  obtain ⟨mallocDevice, _, _, _, _, _, _, _, _, _⟩ := o
  cases allocated
  exact Prog.eval_bind _ (deviceOpen _) _ _

/-- A device that STRELA, or its allocator, was not there for. -/
theorem deviceCreate_notOpen (options : DeviceOptions) (identifier : String)
    (proactorPool address proactor : Nat) (stop : Stop)
    (verified : deviceOptionsVerify options = .ok ()) (allocated : o.mallocDevice = .ok address)
    (failed : o.devOk = false ∨ o.mallocAllocator = .error stop)
    (opened : runDeviceOpen o identifier proactorPool address = ((.error stop,
      { initializedDevice identifier proactorPool address with
        proactor := some proactor, dev := o.dev }),
      ⟨openedEntries o proactorPool address, []⟩)) :
    CreateRun o options proactorPool (runDeviceCreate o identifier options proactorPool).1.1
      (runDeviceCreate o identifier options proactorPool).1.2
      (runDeviceCreate o identifier options proactorPool).2 := by
  have last : acquired (openedEntries o proactorPool address) (.reference .device address) =
      released (openedEntries o proactorPool address) (.reference .device address) + 1 := by
    cases isDev : o.dev <;> simp [openedEntries, deviceEntries, isDev]
  rw [runDeviceCreate_eq o identifier options proactorPool verified allocated, opened,
    deviceCreateEnd_eval _ _ _ stop rfl rfl rfl last]
  exact .notOpen stop address _ verified allocated failed

theorem deviceCreate_run (identifier : String) (options : DeviceOptions) (proactorPool : Nat) :
    CreateRun o options proactorPool (runDeviceCreate o identifier options proactorPool).1.1
      (runDeviceCreate o identifier options proactorPool).1.2
      (runDeviceCreate o identifier options proactorPool).2 := by
  cases verified : deviceOptionsVerify options with
  | error stop =>
      simp only [runDeviceCreate, deviceCreate, verified]
      exact .early stop (Or.inl verified)
  | ok _ =>
  cases allocated : o.mallocDevice with
  | error stop =>
      simp only [runDeviceCreate, deviceCreate, verified]
      obtain ⟨mallocDevice, _, _, _, _, _, _, _, _, _⟩ := o
      cases allocated
      exact .early stop (Or.inr rfl)
  | ok address =>
  obtain ⟨mallocDevice, mallocAllocator, proactor, dev, devOk, errnum, register, wait, allocate,
    signal⟩ := o
  cases proactor with
  | error stop =>
      rw [runDeviceCreate_eq _ identifier options proactorPool verified allocated,
        show runDeviceOpen _ identifier proactorPool address = ((.error stop,
        initializedDevice identifier proactorPool address),
        ⟨deviceEntries proactorPool address, []⟩) from rfl,
        deviceCreateEnd_eval _ _ _ stop rfl rfl rfl (by simp [deviceEntries, initializedDevice])]
      exact .noProactor stop address _ verified allocated rfl
  | ok proactor =>
      cases devOk with
      | false =>
          let unavailable : Status := ⟨.unavailable, .text
            s!"cannot open STRELA (libstrela error {errnum}); is strela2.ko loaded?"⟩
          refine deviceCreate_notOpen _ options identifier proactorPool address proactor
            (.status unavailable) verified allocated (Or.inl rfl) ?_
          cases dev <;> rfl
      | true =>
          cases mallocAllocator with
          | error stop =>
              refine deviceCreate_notOpen _ options identifier proactorPool address proactor stop
                verified allocated (Or.inr rfl) ?_
              cases dev <;> rfl
          | ok allocator =>
              rw [runDeviceCreate_eq _ identifier options proactorPool verified allocated]
              cases dev <;>
                exact .done address proactor allocator _ rfl rfl verified allocated rfl rfl rfl

/-- The out pointer of `queue_alloca` is right, and so are its signals. -/
structure AllocaHandsOut (device : HalDevice) (waits signals : List Nat)
    (allocationSize : BitVec 64) :
    Prop where
  buffer : HandsOut .buffer (runQueueAlloca o device waits signals allocationSize).1.1
    (runQueueAlloca o device waits signals allocationSize).1.2
    (runQueueAlloca o device waits signals allocationSize).2
  signals : (runQueueAlloca o device waits signals allocationSize).1.1 ≠ .ok () →
    ∀ s ∈ signals, s ∈ (runQueueAlloca o device waits signals allocationSize).2.failed

/-- The out pointer of `device_create` is right. -/
def CreateHandsOut (identifier : String) (options : DeviceOptions) (proactorPool : Nat) : Prop :=
  HandsOut .device (runDeviceCreate o identifier options proactorPool).1.1
    ((runDeviceCreate o identifier options proactorPool).1.2.map HalDevice.address)
    (runDeviceCreate o identifier options proactorPool).2

theorem AllocaRun.error {signals : List Nat} {status : CResult Unit} {out : Option Nat}
    {after : World} (run : AllocaRun o signals status out after) (failed : status ≠ .ok ()) :
    Settled after.entries ∧ ∀ s ∈ signals, s ∈ after.failed := by
  cases run with
  | early stop before => exact ⟨.nil, fun s member => List.mem_append_left _ member⟩
  | late stop buffer waited allocated signalled =>
      exact ⟨fun r => by simp, fun s member => List.mem_append_left _ member⟩
  | done => exact absurd rfl failed

theorem AllocaRun.handsOut_iff {signals : List Nat} {status : CResult Unit} {out : Option Nat}
    {after : World} (run : AllocaRun o signals status out after) :
    HandsOut .buffer status out after ↔ AllocaFailsEarly o := by
  have settled := run.error
  cases run with
  | early stop before =>
      refine ⟨fun _ waited allocated => ?_, fun _ => ⟨fun ok => (nomatch ok), fun failed =>
        ⟨(settled failed).1, rfl⟩⟩⟩
      obtain ⟨buffer, allocated⟩ := allocated
      rcases before with wait | ⟨_, allocate⟩
      · rw [waited] at wait
        cases wait
      · rw [allocated] at allocate
        cases allocate
  | late stop buffer waited allocated signalled =>
      constructor
      · intro handsOut
        cases (handsOut.onError (fun ok => nomatch ok)).2
      · intro early
        rw [early waited ⟨buffer, allocated⟩] at signalled
        cases signalled
  | done buffer waited allocated signalled =>
      refine ⟨fun _ _ _ => signalled, fun _ => ⟨fun _ => ⟨buffer, rfl, by simp, by simp⟩, ?_⟩⟩
      exact fun failed => absurd rfl failed

/-- Whatever fails, `device_create` releases all it acquired, and once only. -/
theorem CreateRun.error {options : DeviceOptions} {proactorPool : Nat} {status : CResult Unit}
    {out : Option HalDevice} {after : World}
    (run : CreateRun o options proactorPool status out after)
    (failed : status ≠ .ok ()) : Settled after.entries := by
  cases run with
  | early stop before => exact .nil
  | noProactor stop address device verified allocated noProactor =>
      intro r
      simp [destroyEntries, deviceEntries]
      omega
  | notOpen stop address device verified allocated notOpen =>
      intro r
      cases isDev : o.dev with
      | none =>
          simp [destroyEntries, openedEntries, deviceEntries, isDev]
          omega
      | some dev =>
          simp [destroyEntries, openedEntries, deviceEntries, isDev]
          omega
  | done => exact absurd rfl failed

theorem CreateRun.handsOut_iff {options : DeviceOptions} {proactorPool : Nat}
    {status : CResult Unit}
    {out : Option HalDevice} {after : World}
    (run : CreateRun o options proactorPool status out after) :
    HandsOut .device status (out.map HalDevice.address) after ↔ CreateFailsEarly o options := by
  have settled := run.error
  cases run with
  | early stop before =>
      refine ⟨fun _ verified allocated => ?_, fun _ => ⟨fun ok => (nomatch ok), fun failed =>
        ⟨settled failed, rfl⟩⟩⟩
      obtain ⟨address, allocated⟩ := allocated
      rcases before with options | malloc
      · rw [verified] at options
        cases options
      · rw [allocated] at malloc
        cases malloc
  | noProactor stop address device verified allocated noProactor =>
      constructor
      · intro handsOut
        cases (handsOut.onError (fun ok => nomatch ok)).2
      · intro early
        obtain ⟨⟨proactor, pooled⟩, _⟩ := early verified ⟨address, allocated⟩
        rw [pooled] at noProactor
        cases noProactor
  | notOpen stop address device verified allocated notOpen =>
      constructor
      · intro handsOut
        cases (handsOut.onError (fun ok => nomatch ok)).2
      · intro early
        obtain ⟨_, opened, allocator, created⟩ := early verified ⟨address, allocated⟩
        rcases notOpen with closed | malloc
        · rw [opened] at closed
          cases closed
        · rw [created] at malloc
          cases malloc
  | done address proactor allocator device there untracked verified allocated
      pooled opened created =>
      refine ⟨fun _ _ _ => ⟨⟨proactor, pooled⟩, opened, allocator, created⟩,
        fun _ => ⟨fun _ => ⟨address, by simp [there], ?_, ?_⟩, fun failed => absurd rfl failed⟩⟩
      · cases isDev : o.dev <;> simp [openedEntries, deviceEntries, isDev]
      · cases isDev : o.dev <;> simp [openedEntries, deviceEntries, isDev]

/-- Neither call hands out an object that is gone, exactly if none of their steps
fails once the object is there: both publish the pointer they have released. -/
theorem device_handsOut_iff (device : HalDevice) (waits signals : List Nat)
    (allocationSize : BitVec 64) (identifier : String) (options : DeviceOptions)
    (proactorPool : Nat) :
    (AllocaHandsOut o device waits signals allocationSize ↔ AllocaFailsEarly o) ∧
      (CreateHandsOut o identifier options proactorPool ↔ CreateFailsEarly o options) := by
  have alloca := queueAlloca_run o device waits signals allocationSize
  refine ⟨⟨fun handsOut => alloca.handsOut_iff.mp handsOut.buffer, fun early =>
    ⟨alloca.handsOut_iff.mpr early, fun failed => (alloca.error o failed).2⟩⟩, ?_⟩
  exact (deviceCreate_run o identifier options proactorPool).handsOut_iff

end

/-- Every step succeeds but the signal, and libstrela is not there. -/
def sampleOutcomes : Outcomes where
  mallocDevice := .ok 0x1000
  mallocAllocator := .ok 0x2000
  proactor := .ok 0x3000
  dev := none
  devOk := false
  errnum := 2
  register := .ok ()
  wait := .ok ()
  allocate := .ok 0x4000
  signal := makeStatus .aborted "signal failed"

/-- The caller gets the buffer that has just been released. -/
theorem device_hands_out_released :
    ¬ ∀ (o : Outcomes) (device : HalDevice) (waits signals : List Nat) (allocationSize : BitVec 64)
      (identifier : String) (options : DeviceOptions) (proactorPool : Nat),
      AllocaHandsOut o device waits signals allocationSize ∧
        CreateHandsOut o identifier options proactorPool := by
  intro claim
  have both := claim sampleOutcomes
    (initializedDevice "strela" 0x3000 0x1000) [] [0x5000] 64 "strela"
    ⟨0⟩ 0x3000
  have released : (some 0x4000 : Option Nat) = none :=
    (both.1.buffer.onError fun ok => nomatch ok).2
  cases released

end Estela.Runtime
