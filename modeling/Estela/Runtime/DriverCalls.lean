import Estela.Runtime.Allocator
import Estela.Runtime.CommandBuffer

set_option autoImplicit false

/- Which calls the functions of the driver make at all. -/
namespace Estela.Runtime

open CallProgram

/-- Asking for the status of the device. -/
def Asking : Call → Prop
  | .devOk | .devGetErr | .devResetErr => True
  | _ => False

/-- Writing back what the CPU wrote. -/
def Flushing : Call → Prop
  | .bufferFlush _ _ _ => True
  | c => Asking c

/-- Keeping the CPU's view of STRELA memory in step with the memory. -/
def Syncing : Call → Prop
  | .bufferFlush _ _ _ | .bufferInval _ _ _ => True
  | c => Asking c

/-- Running a job, and keeping views in step around it. -/
def Dispatching : Call → Prop
  | .jobConfig _ _ | .jobSubmit _ | .jobWait _ _ | .jobPoll _ | .jobFree _ => True
  | c => Syncing c

/-- Obtaining, filling and giving back kernel slots, and host memory for them. -/
def Loading : Call → Prop
  | .kernelAlloc | .kernelSet _ _ | .kernelFree _ | .malloc _ | .free _ => True
  | c => Asking c

/-- Obtaining and giving back STRELA memory, and host memory for it. -/
def Buffering : Call → Prop
  | .bufferAlloc _ | .bufferToPtr _ | .bufferFree _ | .malloc _ | .free _ => True
  | c => Asking c

theorem Asking.flushing {c : Call} (asking : Asking c) : Flushing c := by
  cases c <;> first | exact trivial | exact asking.elim

theorem Flushing.syncing {c : Call} (flushing : Flushing c) : Syncing c := by
  cases c <;> first | exact trivial | exact flushing.elim

theorem Asking.syncing {c : Call} (asking : Asking c) : Syncing c := asking.flushing.syncing

theorem Syncing.dispatching {c : Call} (syncing : Syncing c) : Dispatching c := by
  cases c <;> first | exact trivial | exact syncing.elim

theorem Asking.loading {c : Call} (asking : Asking c) : Loading c := by
  cases c <;> first | exact trivial | exact asking.elim

theorem Asking.buffering {c : Call} (asking : Asking c) : Buffering c := by
  cases c <;> first | exact trivial | exact asking.elim

theorem call_calls {allowed : Call → Prop} {c : Call} (fits : allowed c) :
    (call c).Calls allowed := Prog.calls_request fits

theorem statusFromDev_calls (what : String) : (statusFromDev what).Calls Asking := by
  refine .bind (call_calls (c := .devOk) trivial) (fun ok => ?_)
  cases ok with
  | true => exact trivial
  | false =>
      refine .bind (call_calls (c := .devGetErr) trivial) (fun err => ?_)
      exact .bind (call_calls (c := .devResetErr) trivial) fun _ => trivial

theorem bufferFlushRange_calls (st : SizeT) (buffer : HalStrelaBuffer)
    (offset length : BitVec 64) : (bufferFlushRange st buffer offset length).Calls Flushing :=
  .bind (call_calls (c := .bufferFlush _ _ _) trivial) fun _ =>
    (statusFromDev_calls _).mono fun _ => Asking.flushing

theorem bufferInvalidateRange_calls (st : SizeT) (buffer : HalStrelaBuffer)
    (offset length : BitVec 64) : (bufferInvalidateRange st buffer offset length).Calls Syncing :=
  .bind (call_calls (c := .bufferFlush _ _ _) trivial) fun _ =>
    .bind (call_calls (c := .bufferInval _ _ _) trivial) fun _ =>
      (statusFromDev_calls _).mono fun _ => Asking.syncing

theorem whileOk_calls {allowed : Call → Prop} (status : CResult Unit)
    {next : Driver (CResult Unit)} (calls : next.Calls allowed) :
    (whileOk status next).Calls allowed := by
  cases status with
  | ok _ => exact calls
  | error stop => exact trivial

theorem forColumn_calls {allowed : Call → Prop}
    {sync : HalStrelaBuffer → BitVec 64 → BitVec 64 → Driver (CResult Unit)}
    (calls : ∀ buffer offset length, (sync buffer offset length).Calls allowed) (c : Column) :
    (forColumn sync c).Calls allowed := by
  unfold forColumn
  split
  · exact trivial
  · exact calls _ _ _

theorem flushColumns_calls (st : SizeT) (columns : List (Column × Column)) :
    (flushColumns st columns).Calls Flushing := by
  induction columns with
  | nil => exact trivial
  | cons pair rest ih =>
      refine .bind (forColumn_calls (bufferFlushRange_calls st) pair.1) (fun status => ?_)
      refine .bind (whileOk_calls status (forColumn_calls (bufferFlushRange_calls st) pair.2))
        (fun status => ?_)
      exact whileOk_calls status ih

theorem invalidateColumns_calls (st : SizeT) (columns : List (Column × Column)) :
    (invalidateColumns st columns).Calls Syncing := by
  induction columns with
  | nil => exact trivial
  | cons pair rest ih =>
      exact .bind (forColumn_calls (bufferInvalidateRange_calls st) pair.2)
        fun status => whileOk_calls status ih

theorem freeJob_calls (job : StrelaJob) (status : CResult Unit) {allowed : Call → Prop}
    (frees : allowed (.jobFree job)) (asks : ∀ c, Asking c → allowed c) :
    (freeJob job status).Calls allowed := by
  unfold freeJob
  split
  · exact .bind (call_calls frees) fun _ =>
      .bind ((statusFromDev_calls _).mono asks) fun _ => trivial
  · exact trivial

theorem commandBufferDispatch_calls (st : SizeT) (executable : Executable) (function : BitVec 64)
    (constants : ConstByteSpan) (bindings : List BufferRef) :
    (commandBufferDispatch st executable function constants bindings).Calls Dispatching := by
  have asked (what : String) : (statusFromDev what).Calls Dispatching :=
    (statusFromDev_calls what).mono fun _ asking => asking.syncing.dispatching
  have started (kernel : StrelaKernel) (conf : StrelaConf) (status : CResult Unit) :
      (startJob kernel conf status).Calls Dispatching := by
    cases status with
    | error stop => exact trivial
    | ok _ =>
        refine .bind (call_calls (c := .jobConfig kernel conf) trivial) fun job => ?_
        refine .bind (call_calls (c := .jobSubmit job) trivial) fun _ => ?_
        refine .bind (call_calls (c := .jobWait job (-1)) trivial) fun _ => ?_
        exact .bind (asked _) fun _ => trivial
  have polled (job : StrelaJob) : (pollJob job).Calls Dispatching :=
    .bind (call_calls (c := .jobPoll job) trivial) fun _ =>
      .bind (asked _) fun status => whileOk_calls status trivial
  unfold commandBufferDispatch
  split
  · exact trivial
  split
  · exact trivial
  refine .bind ((flushColumns_calls st _).mono fun _ flushing => flushing.syncing.dispatching)
    fun status => ?_
  refine .bind (started _ _ status) fun job => ?_
  refine .bind (whileOk_calls _ (polled job.1)) fun status => ?_
  refine .bind (freeJob_calls _ status trivial fun _ asking => asking.syncing.dispatching)
    fun status => ?_
  exact whileOk_calls status
    ((invalidateColumns_calls st _).mono fun _ => Syncing.dispatching)

theorem allocatorAllocateBuffer_calls (st : SizeT) (size : BitVec 64) :
    (allocatorAllocateBuffer st size).Calls Buffering := by
  have cleaned (sBuf : StrelaBuffer) (stop : Stop) :
      (allocateCleanup sBuf stop).Calls Buffering := by
    unfold allocateCleanup
    split
    · exact .bind (call_calls (c := .bufferFree sBuf) trivial) fun _ => trivial
    · exact trivial
  refine .bind (call_calls (c := .bufferAlloc _) trivial) fun sBuf => ?_
  refine .bind ((statusFromDev_calls _).mono fun _ => Asking.buffering) fun status => ?_
  cases status with
  | error stop => exact cleaned sBuf stop
  | ok _ =>
      refine .bind (call_calls (c := .bufferToPtr sBuf) trivial) fun hostPtr => ?_
      refine .bind (p := bufferWrap size sBuf hostPtr true) ?_ fun wrapped => ?_
      · refine .bind (call_calls (c := .malloc .buffer) trivial) fun allocated => ?_
        cases allocated <;> exact trivial
      · cases wrapped with
        | error stop => exact cleaned sBuf stop
        | ok buffer => exact trivial

theorem bufferDestroy_calls (buffer : HalStrelaBuffer) :
    (bufferDestroy buffer).Calls Buffering := by
  unfold bufferDestroy
  split
  · exact .bind (call_calls (c := .bufferFree _) trivial) fun _ =>
      .bind (call_calls (c := .free _) trivial) fun _ => trivial
  · exact .bind (call_calls (c := .free _) trivial) fun _ => trivial

theorem freeKernels_calls (exports : List Export) : (freeKernels exports).Calls Loading := by
  induction exports with
  | nil => exact trivial
  | cons export_ rest ih =>
      unfold freeKernels
      split
      · exact .bind (call_calls (c := .kernelFree _) trivial) fun _ => ih
      · exact ih

theorem executableDestroy_calls (executable : Executable) :
    (executableDestroy executable).Calls Loading :=
  .bind (freeKernels_calls _) fun _ =>
    .bind ((statusFromDev_calls _).mono fun _ => Asking.loading) fun _ =>
      call_calls (c := .free _) trivial

theorem loadBitstreams_calls (exports : List Export) : (loadBitstreams exports).Calls Loading := by
  induction exports with
  | nil => exact trivial
  | cons export_ rest ih =>
      refine .bind (call_calls (c := .kernelAlloc) trivial) fun kernel => ?_
      refine .bind (call_calls (c := .kernelSet _ _) trivial) fun _ => ?_
      refine .bind ((statusFromDev_calls _).mono fun _ => Asking.loading) fun status => ?_
      cases status with
      | error stop => exact trivial
      | ok _ => exact .bind ih fun _ => trivial

theorem executableCreate_calls (data : ExecutableData) :
    (executableCreate data).Calls Loading := by
  unfold executableCreate
  split
  · exact trivial
  split
  · exact trivial
  refine .bind (call_calls (c := .malloc _) trivial) fun allocated => ?_
  cases allocated with
  | error stop => exact trivial
  | ok address =>
      refine .bind (loadBitstreams_calls _) fun loaded => ?_
      split
      · exact trivial
      · exact .bind (executableDestroy_calls _) fun _ => trivial

end Estela.Runtime
