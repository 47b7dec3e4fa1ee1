import Estela.Lib.FencedCalls
import Estela.Runtime.CommandBuffer
import Estela.Runtime.Device
import Mathlib.Data.Nat.Pairing

set_option autoImplicit false

/- The queue functions of a device, down to the semaphores and to the commands of
the command buffers they run. -/
namespace Estela.Runtime.Queue

open CallProgram (Prog)

/-- A semaphore, and a value of its timeline. -/
abbrev Timepoint := Nat × Nat

/-- A command of a command buffer, with its bindings resolved. -/
inductive Command
  | executionBarrier
  | signalEvent
  | resetEvent
  | waitEvents
  | adviseBuffer (bufferRef : BufferRef)
  | fillBuffer (targetRef : BufferRef) (pattern : List (BitVec 8))
  | updateBuffer (sourceBuffer : List (BitVec 8)) (sourceOffset : Nat) (targetRef : BufferRef)
  | copyBuffer (sourceRef targetRef : BufferRef)
  | flushBuffer (targetRef : BufferRef)
  | invalidateBuffer (targetRef : BufferRef)
  | collective
  | dispatch (executable : Executable) (function : BitVec 64) (constants : ConstByteSpan)
      (bindings : List BufferRef)
  deriving DecidableEq, Repr

/-- What the queue functions call, and the functions of command buffers and semaphores
that they call. -/
inductive QueueCall
  /-- `iree_hal_semaphore_list_wait`, with an infinite timeout. -/
  | semaphoreListWait (waitSemaphoreList : List Timepoint)
  | asyncSemaphoreAdvanceTimeline (semaphore newValue : Nat)
  | asyncSemaphoreDispatchTimepoints (semaphore newValue : Nat)
  | semaphoreFail (semaphore : Nat) (stop : Stop)
  | mallocCommandBuffer
  | commandBufferInitialize (address : Nat)
  /-- One reference less; the answer is whether it was the last. -/
  | commandBufferReleaseRef (address : Nat)
  | freeCommandBuffer (address : Nat)
  /-- `begin` and `end` of the vtable of the command buffer at `address`. -/
  | commandBufferBegin (address : Nat)
  | commandBufferEnd (address : Nat)
  /-- Another function of that vtable. -/
  | command (address : Nat) (command : Command)
  | device (c : DeviceCall)

def QueueCall.Answer : QueueCall → Type
  | .semaphoreListWait _ => CResult Unit
  | .asyncSemaphoreAdvanceTimeline _ _ => CResult Unit
  | .mallocCommandBuffer => CResult Nat
  | .commandBufferReleaseRef _ => Bool
  | .commandBufferBegin _ => CResult Unit
  | .commandBufferEnd _ => CResult Unit
  | .command _ _ => CResult Unit
  | .device c => c.Answer
  | _ => Unit

abbrev QueueProg (α : Type) := Prog QueueCall QueueCall.Answer α

def queueCall (c : QueueCall) : QueueProg c.Answer := Prog.request c

/-- `iree_hal_strela_async_semaphore_signal`. -/
def asyncSemaphoreSignal (semaphore newValue : Nat) : QueueProg (CResult Unit) := do
  let advanced : CResult Unit ← queueCall (.asyncSemaphoreAdvanceTimeline semaphore newValue)
  match advanced with
  | .error stop => return .error stop
  | .ok _ => do
    queueCall (.asyncSemaphoreDispatchTimepoints semaphore newValue)
    return .ok ()

/-- The functions of IREE that the queue functions make calls through, and that are no
part of the driver: `iree_hal_semaphore_list_signal`, `iree_hal_semaphore_list_fail` and
`iree_hal_deferred_command_buffer_apply`. -/
structure Iree where
  semaphoreListSignal : List Timepoint → QueueProg (CResult Unit)
  semaphoreListFail : Stop → List Timepoint → QueueProg Unit
  deferredCommandBufferApply : List Command → Nat → QueueProg (CResult Unit)

/-- Commands replayed in turn, up to the first error, between the begin and the end of
the command buffer they are replayed onto. -/
inductive Replays (direct : Nat) : List Command → QueueProg (CResult Unit) → Prop
  | done : Replays direct [] (.ret (.ok ()))
  | failed (commands : List Command) (stop : Stop) : Replays direct commands (.ret (.error stop))
  | bracket {commands : List Command} {c : QueueCall} {next : c.Answer → QueueProg (CResult Unit)}
      (which : c = .commandBufferBegin direct ∨ c = .commandBufferEnd direct)
      (rest : ∀ answer, Replays direct commands (next answer)) :
      Replays direct commands (.call c next)
  | command {c : Command} {commands : List Command} {next : CResult Unit → QueueProg (CResult Unit)}
      (good : Replays direct commands (next (.ok ())))
      (bad : ∀ stop, ∃ stop', next (.error stop) = .ret (.error stop')) :
      Replays direct (c :: commands) (.call (.command direct c) next)

/-- What is documented of them: a list is signalled entry by entry, up to the first error,
and failed whole, and the commands of a deferred command buffer are replayed. -/
structure Iree.Documented (iree : Iree) : Prop where
  signalsNone : iree.semaphoreListSignal [] = .ret (.ok ())
  signals : ∀ w rest, iree.semaphoreListSignal (w :: rest) =
    (asyncSemaphoreSignal w.1 w.2).bind fun status => match status with
      | .ok _ => iree.semaphoreListSignal rest
      | .error stop => .ret (.error stop)
  failsNone : ∀ stop, iree.semaphoreListFail stop [] = .ret ()
  fails : ∀ stop w rest, iree.semaphoreListFail stop (w :: rest) =
    .call (.semaphoreFail w.1 stop) fun _ => iree.semaphoreListFail stop rest
  replays : ∀ commands direct, Replays direct commands
    (iree.deferredCommandBufferApply commands direct)

section

variable (iree : Iree)

/-- What a queue function ends with: it signals, unless something before failed, and
fails what it could not signal. -/
def signalOrFail (status : CResult Unit) (signalSemaphoreList : List Timepoint) :
    QueueProg (CResult Unit) := do
  let status ← match status with
    | .ok _ => iree.semaphoreListSignal signalSemaphoreList
    | .error stop => pure (.error stop)
  match status with
  | .ok _ => return .ok ()
  | .error stop => do
    iree.semaphoreListFail stop signalSemaphoreList
    return .error stop

/-- `iree_hal_strela_device_queue_dealloca`. -/
def deviceQueueDealloca (waitSemaphoreList signalSemaphoreList : List Timepoint) :
    QueueProg (CResult Unit) := do
  let status : CResult Unit ← queueCall (.semaphoreListWait waitSemaphoreList)
  signalOrFail iree status signalSemaphoreList

/-- `iree_hal_strela_command_buffer_create`. -/
def commandBufferCreate : QueueProg (CResult Nat) := do
  let allocated : CResult Nat ← queueCall .mallocCommandBuffer
  match allocated with
  | .error stop => return .error stop
  | .ok address => do
    queueCall (.commandBufferInitialize address)
    return .ok address

/-- `iree_hal_command_buffer_release`, with `iree_hal_strela_command_buffer_destroy`. -/
def commandBufferRelease (address : Nat) : QueueProg Unit := do
  let last : Bool ← queueCall (.commandBufferReleaseRef address)
  if last then
    queueCall (.freeCommandBuffer address)

/-- An `iree_hal_command_buffer_t` as `queue_execute` is given it. The commands are
those of a deferred one, its binding table applied. -/
inductive CommandBuffer
  | deferred (commands : List Command)
  | foreign

/-- What `queue_execute` does between its wait and its signals. -/
def executeCommands : Option CommandBuffer → QueueProg (CResult Unit)
  | none => return .ok ()
  | some .foreign =>
      return makeStatus .invalidArgument "command buffer is not from a STRELA device"
  | some (.deferred commands) => do
      let created ← commandBufferCreate
      match created with
      | .error stop => return .error stop
      | .ok direct => do
        let status ← iree.deferredCommandBufferApply commands direct
        commandBufferRelease direct
        return status

/-- `iree_hal_strela_device_queue_execute`. -/
def deviceQueueExecute (waitSemaphoreList signalSemaphoreList : List Timepoint)
    (commandBuffer : Option CommandBuffer) : QueueProg (CResult Unit) := do
  let waited : CResult Unit ← queueCall (.semaphoreListWait waitSemaphoreList)
  match waited with
  | .error stop => signalOrFail iree (.error stop) signalSemaphoreList
  | .ok _ => do
    let status ← executeCommands iree commandBuffer
    signalOrFail iree status signalSemaphoreList

/-- The number that an entry of a semaphore list goes by in `deviceQueueAlloca`. -/
def entry (w : Timepoint) : Nat := Nat.pair w.1 w.2

/-- The calls of `device.c`, with those for a list of semaphores as calls for each. -/
def listCall : (c : DeviceCall) → QueueProg c.Answer
  | .semaphoreListWait semaphores => queueCall (.semaphoreListWait (semaphores.map Nat.unpair))
  | .semaphoreListSignal semaphores => iree.semaphoreListSignal (semaphores.map Nat.unpair)
  | .semaphoreListFail semaphores stop => iree.semaphoreListFail stop (semaphores.map Nat.unpair)
  | c => queueCall (.device c)

/-- One call of a queue function. -/
inductive QueueOp
  | alloca (device : HalDevice) (waitSemaphoreList signalSemaphoreList : List Timepoint)
      (allocationSize : BitVec 64)
  | dealloca (waitSemaphoreList signalSemaphoreList : List Timepoint)
  | execute (waitSemaphoreList signalSemaphoreList : List Timepoint)
      (commandBuffer : Option CommandBuffer)

def QueueOp.waits : QueueOp → List Timepoint
  | .alloca _ waits _ _ | .dealloca waits _ | .execute waits _ _ => waits

def QueueOp.signals : QueueOp → List Timepoint
  | .alloca _ _ signals _ | .dealloca _ signals | .execute _ signals _ => signals

/-- The status of an operation. -/
def QueueOp.run : QueueOp → QueueProg (CResult Unit)
  | .alloca device waits signals allocationSize =>
      ((deviceQueueAlloca device (waits.map entry) (signals.map entry) allocationSize).handle
        (listCall iree)).bind fun result => .ret result.1
  | .dealloca waits signals => deviceQueueDealloca iree waits signals
  | .execute waits signals commandBuffer => deviceQueueExecute iree waits signals commandBuffer

end

end Estela.Runtime.Queue
