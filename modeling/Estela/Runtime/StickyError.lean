import Estela.Runtime.Allocator
import Estela.Runtime.CommandBuffer

set_option autoImplicit false

/- libstrela as a device with one sticky error, and the driver's operations run
on it one after the other. -/
namespace Estela.Runtime.Sticky

open CallProgram

/-- A libstrela call of an operation, and whether it raised an error. -/
structure Event where
  call : Call
  raised : Bool
  deriving DecidableEq, Repr

/-- The device, with the calls made since the current operation began. -/
structure Dev where
  err : Option StrelaErr
  log : List Event
  deriving DecidableEq, Repr

/-- Any libstrela call may raise an error, an error outlives every call but
`strela_dev_reset_err`, and the host allocator does not concern the device. -/
def Step (d : Dev) : (c : Call) → c.Answer → Dev → Prop
  | .devOk, ok, d' => ok = d.err.isNone ∧ d' = d
  | .devGetErr, err, d' => (∀ e, d.err = some e → err = e) ∧ d' = d
  | .devResetErr, _, d' => d' = { d with err := none }
  | .malloc _, _, d' => d' = d
  | .free _, _, d' => d' = d
  | c, _, d' => ∃ raised : Option StrelaErr,
      d' = { err := raised.or d.err, log := d.log ++ [⟨c, raised.isSome⟩] }

/-- The operations of the STRELA HAL that reach libstrela. -/
inductive HalOp
  | allocateBuffer (allocationSize : BitVec 64)
  | releaseBuffer (buffer : HalStrelaBuffer)
  | flushRange (buffer : HalStrelaBuffer) (offset length : BitVec 64)
  | invalidateRange (buffer : HalStrelaBuffer) (offset length : BitVec 64)
  | createExecutable (data : ExecutableData)
  | destroyExecutable (executable : Executable)
  | dispatch (executable : Executable) (function : BitVec 64) (constants : ConstByteSpan)
      (bindings : List BufferRef)

def HalOp.program (st : SizeT) : HalOp → Driver Unit
  | .allocateBuffer size => do let _ ← allocatorAllocateBuffer st size
  | .releaseBuffer buffer => bufferDestroy buffer
  | .flushRange buffer offset length => do let _ ← bufferFlushRange st buffer offset length
  | .invalidateRange buffer offset length => do
      let _ ← bufferInvalidateRange st buffer offset length
  | .createExecutable data => do let _ ← executableCreate data
  | .destroyExecutable executable => executableDestroy executable
  | .dispatch executable function constants bindings => do
      let _ ← commandBufferDispatch st executable function constants bindings

/-- A sequence of operations on one device, with the device after each. -/
inductive Session (st : SizeT) : Dev → List HalOp → List Dev → Prop
  | nil (d : Dev) : Session st d [] []
  | cons {d d' : Dev} {op : HalOp} {ops : List HalOp} {after : List Dev}
      (run : Run Step (op.program st) { d with log := [] } () d') (rest : Session st d' ops after) :
      Session st d (op :: ops) (d' :: after)

/-- The calls after which the driver does not ask for the status. -/
def Unchecked : Call → Prop
  | .bufferToPtr _ => True
  | .bufferFree _ => True
  | _ => False

/-- None of the calls that go unchecked raised an error. -/
def UncheckedFine (d : Dev) : Prop :=
  ∀ event ∈ d.log, event.raised = true → ¬ Unchecked event.call

def Clean (d : Dev) : Prop := d.err = none ∧ UncheckedFine d

/-- The sticky error is clear exactly if no unchecked call raised it. -/
def Settled (d : Dev) : Prop := d.err = none ↔ UncheckedFine d

theorem Clean.settled {d : Dev} (clean : Clean d) : Settled d :=
  ⟨fun _ => clean.2, fun _ => clean.1⟩

theorem uncheckedFine_append (log : List Event) (event : Event) (err err' : Option StrelaErr) :
    UncheckedFine ⟨err, log ++ [event]⟩ ↔
      UncheckedFine ⟨err', log⟩ ∧ (event.raised = true → ¬ Unchecked event.call) := by
  simp only [UncheckedFine, List.forall_mem_append, List.forall_mem_singleton]

/-- A call the driver checks leaves the unchecked ones as they were. -/
theorem step_fine {d d' : Dev} {c : Call} {answer : c.Answer} (checked : ¬ Unchecked c)
    (fine : UncheckedFine d) (move : Step d c answer d') : UncheckedFine d' := by
  have logged (event : Event) (same : event.call = c) (err : Option StrelaErr) :
      UncheckedFine ⟨err, d.log ++ [event]⟩ :=
    (uncheckedFine_append d.log event err d.err).mpr ⟨fine, fun _ => same ▸ checked⟩
  cases c
  case devOk => obtain ⟨_, rfl⟩ := move; exact fine
  case devGetErr => obtain ⟨_, rfl⟩ := move; exact fine
  case devResetErr => obtain rfl := move; exact fine
  case malloc => obtain rfl := move; exact fine
  case free => obtain rfl := move; exact fine
  all_goals
    obtain ⟨raised, rfl⟩ := move
    exact logged _ rfl _

theorem call_fine (c : Call) (checked : ¬ Unchecked c) :
    Triple Step UncheckedFine (call c) (fun _ => UncheckedFine) :=
  Triple.call c _ (fun _ => UncheckedFine) (fun _ _ _ fine move => step_fine checked fine move)
    (fun _ => Triple.ret _ (fun _ fine => fine))

theorem malloc_inv (inv : Dev → Prop) (object : HostObject) :
    Triple Step inv (call (.malloc object)) (fun _ => inv) :=
  Triple.call _ _ (fun _ => inv) (fun _ _ _ holds move => by obtain rfl := move; exact holds)
    (fun _ => Triple.ret _ (fun _ holds => holds))

theorem free_inv (inv : Dev → Prop) (address : Nat) :
    Triple Step inv (call (.free address)) (fun _ => inv) :=
  Triple.call _ _ (fun _ => inv) (fun _ _ _ holds move => by obtain rfl := move; exact holds)
    (fun _ => Triple.ret _ (fun _ holds => holds))

/-- Asking for the status clears whatever the calls before it raised. -/
theorem statusFromDev_clean (what : String) :
    Triple Step UncheckedFine (statusFromDev what) (fun _ => Clean) := by
  refine Triple.call Call.devOk _ (fun (ok : Bool) d => UncheckedFine d ∧ ok = d.err.isNone) ?_ ?_
  · intro d ok d' fine move
    obtain ⟨answer, rfl⟩ := move
    exact ⟨fine, answer⟩
  · intro ok
    cases ok with
    | true =>
        refine Triple.ret _ (fun d state => ⟨?_, state.1⟩)
        exact Option.isNone_iff_eq_none.mp state.2.symm
    | false =>
        refine Triple.pre UncheckedFine (fun _ state => state.1) ?_
        refine Triple.call Call.devGetErr _ (fun _ => UncheckedFine)
          (fun _ _ _ fine move => step_fine (c := .devGetErr) id fine move) (fun err => ?_)
        refine Triple.call Call.devResetErr _ (fun _ => Clean) ?_
          (fun _ => Triple.ret _ (fun _ clean => clean))
        intro d _ d' fine move
        obtain rfl := move
        exact ⟨rfl, fine⟩

theorem bufferFlushRange_clean (st : SizeT) (buffer : HalStrelaBuffer) (offset length : BitVec 64) :
    Triple Step Clean (bufferFlushRange st buffer offset length) (fun _ => Clean) := by
  refine Triple.pre UncheckedFine (fun _ clean => clean.2) ?_
  exact Triple.bind _ (call_fine _ id) (fun _ => statusFromDev_clean _)

theorem bufferInvalidateRange_clean (st : SizeT) (buffer : HalStrelaBuffer)
    (offset length : BitVec 64) :
    Triple Step Clean (bufferInvalidateRange st buffer offset length) (fun _ => Clean) := by
  refine Triple.pre UncheckedFine (fun _ clean => clean.2) ?_
  exact Triple.bind _ (call_fine _ id)
    (fun _ => Triple.bind _ (call_fine _ id) (fun _ => statusFromDev_clean _))

theorem ret_clean {α : Type} (value : α) :
    Triple Step Clean (.ret value : Driver α) (fun _ => Clean) :=
  Triple.ret value (fun _ clean => clean)

theorem whileOk_clean (status : CResult Unit) (next : Driver (CResult Unit))
    (clean : Triple Step Clean next (fun _ => Clean)) :
    Triple Step Clean (whileOk status next) (fun _ => Clean) := by
  cases status with
  | ok _ => exact clean
  | error stop => exact ret_clean _

theorem forColumn_clean
    (sync : HalStrelaBuffer → BitVec 64 → BitVec 64 → Driver (CResult Unit))
    (clean : ∀ buffer offset length, Triple Step Clean (sync buffer offset length) (fun _ => Clean))
    (column : Column) : Triple Step Clean (forColumn sync column) (fun _ => Clean) := by
  unfold forColumn
  split
  · exact ret_clean _
  · exact clean _ _ _

theorem flushColumns_clean (st : SizeT) (columns : List (Column × Column)) :
    Triple Step Clean (flushColumns st columns) (fun _ => Clean) := by
  induction columns with
  | nil => exact ret_clean _
  | cons pair rest ih =>
      have flush := forColumn_clean (bufferFlushRange st) (bufferFlushRange_clean st)
      exact Triple.bind _ (flush pair.1) (fun status =>
        Triple.bind _ (whileOk_clean status _ (flush pair.2))
          (fun status => whileOk_clean status _ ih))

theorem invalidateColumns_clean (st : SizeT) (columns : List (Column × Column)) :
    Triple Step Clean (invalidateColumns st columns) (fun _ => Clean) := by
  induction columns with
  | nil => exact ret_clean _
  | cons pair rest ih =>
      exact Triple.bind _ (forColumn_clean (bufferInvalidateRange st)
        (bufferInvalidateRange_clean st) pair.2)
        (fun status => whileOk_clean status _ ih)

theorem startJob_clean (kernel : StrelaKernel) (conf : StrelaConf) (status : CResult Unit) :
    Triple Step Clean (startJob kernel conf status) (fun _ => Clean) := by
  cases status with
  | error stop => exact ret_clean _
  | ok _ =>
      refine Triple.pre UncheckedFine (fun _ clean => clean.2) ?_
      refine Triple.bind _ (call_fine _ id) (fun job => ?_)
      refine Triple.bind _ (call_fine _ id) (fun _ => ?_)
      refine Triple.bind _ (call_fine _ id) (fun _ => ?_)
      exact Triple.bind _ (statusFromDev_clean _) (fun _ => ret_clean _)

theorem pollJob_clean (job : StrelaJob) :
    Triple Step Clean (pollJob job) (fun _ => Clean) := by
  refine Triple.pre UncheckedFine (fun _ clean => clean.2) ?_
  refine Triple.bind _ (call_fine _ id) (fun state => ?_)
  exact Triple.bind _ (statusFromDev_clean _) (fun status => whileOk_clean status _ (ret_clean _))

theorem freeJob_clean (job : StrelaJob) (status : CResult Unit) :
    Triple Step Clean (freeJob job status) (fun _ => Clean) := by
  unfold freeJob
  split
  · refine Triple.pre UncheckedFine (fun _ clean => clean.2) ?_
    exact Triple.bind _ (call_fine _ id)
      (fun _ => Triple.bind _ (statusFromDev_clean _) (fun _ => ret_clean _))
  · exact ret_clean _

theorem dispatchColumns_clean (st : SizeT) (kernel : StrelaKernel)
    (columns : List (Column × Column)) :
    Triple Step Clean (dispatchColumns st kernel columns) (fun _ => Clean) := by
  refine Triple.bind _ (flushColumns_clean st columns) (fun status => ?_)
  refine Triple.bind _ (startJob_clean kernel _ status) (fun started => ?_)
  refine Triple.bind _ (whileOk_clean started.2 _ (pollJob_clean started.1)) (fun status => ?_)
  refine Triple.bind _ (freeJob_clean started.1 status) (fun status => ?_)
  exact whileOk_clean status _ (invalidateColumns_clean st columns)

theorem commandBufferDispatch_clean (st : SizeT) (executable : Executable) (function : BitVec 64)
    (constants : ConstByteSpan) (bindings : List BufferRef) :
    Triple Step Clean (commandBufferDispatch st executable function constants bindings)
      (fun _ => Clean) := by
  unfold commandBufferDispatch
  split
  · exact ret_clean _
  · split
    · exact ret_clean _
    · exact dispatchColumns_clean st _ _

theorem loadBitstreams_clean (exports : List Export) :
    Triple Step Clean (loadBitstreams exports) (fun _ => Clean) := by
  induction exports with
  | nil => exact ret_clean _
  | cons export_ rest ih =>
      refine Triple.pre UncheckedFine (fun _ clean => clean.2) ?_
      refine Triple.bind _ (call_fine _ id) (fun kernel => ?_)
      refine Triple.bind _ (call_fine _ id) (fun _ => ?_)
      refine Triple.bind _ (statusFromDev_clean _) (fun status => ?_)
      cases status with
      | error stop => exact ret_clean _
      | ok _ => exact Triple.bind _ ih (fun _ => ret_clean _)

theorem freeKernels_fine (exports : List Export) :
    Triple Step UncheckedFine (freeKernels exports) (fun _ => UncheckedFine) := by
  induction exports with
  | nil => exact Triple.ret _ (fun _ fine => fine)
  | cons export_ rest ih =>
      unfold freeKernels
      split
      · exact Triple.bind _ (call_fine _ id) (fun _ => ih)
      · exact ih

theorem executableDestroy_clean (executable : Executable) :
    Triple Step Clean (executableDestroy executable) (fun _ => Clean) := by
  refine Triple.pre UncheckedFine (fun _ clean => clean.2) ?_
  refine Triple.bind _ (freeKernels_fine _) (fun _ => ?_)
  exact Triple.bind _ (statusFromDev_clean _) (fun _ => free_inv Clean _)

theorem executableCreate_clean (data : ExecutableData) :
    Triple Step Clean (executableCreate data) (fun _ => Clean) := by
  unfold executableCreate
  split
  · exact ret_clean _
  · split
    · exact ret_clean _
    · refine Triple.bind _ (malloc_inv Clean _) (fun allocated => ?_)
      cases allocated with
      | error stop => exact ret_clean _
      | ok address =>
          refine Triple.bind _ (loadBitstreams_clean _) (fun loaded => ?_)
          split
          · exact ret_clean _
          · exact Triple.bind _ (executableDestroy_clean _) (fun _ => ret_clean _)

/-- An unchecked call settles the device either way: what it raises stays. -/
theorem unchecked_settled (c : Call) (unchecked : Unchecked c) :
    Triple Step Settled (call c) (fun _ => Settled) := by
  refine Triple.call c _ (fun _ => Settled) ?_ (fun _ => Triple.ret _ (fun _ settled => settled))
  intro d answer d' settled move
  have logged (raised : Option StrelaErr)
      (eq : d' = { err := raised.or d.err, log := d.log ++ [⟨c, raised.isSome⟩] }) :
      Settled d' := by
    subst eq
    unfold Settled at settled ⊢
    rw [uncheckedFine_append d.log _ _ d.err]
    cases raised with
    | none => simpa using settled
    | some err => simp [unchecked]
  cases c with
  | bufferToPtr buffer => obtain ⟨raised, eq⟩ := move; exact logged raised eq
  | bufferFree buffer => obtain ⟨raised, eq⟩ := move; exact logged raised eq
  | _ => exact unchecked.elim

theorem allocateCleanup_settled (sBuf : StrelaBuffer) (stop : Stop) :
    Triple Step Settled (allocateCleanup sBuf stop) (fun _ => Settled) := by
  unfold allocateCleanup
  split
  · exact Triple.bind _ (unchecked_settled _ trivial)
      (fun _ => Triple.ret _ (fun _ settled => settled))
  · exact Triple.ret _ (fun _ settled => settled)

theorem bufferWrap_settled (allocationSize : BitVec 64) (sBuf : StrelaBuffer) (hostPtr : Nat)
    (releaseCallback : Bool) :
    Triple Step Settled (bufferWrap allocationSize sBuf hostPtr releaseCallback)
      (fun _ => Settled) := by
  refine Triple.bind _ (malloc_inv Settled _) (fun allocated => ?_)
  cases allocated <;> exact Triple.ret _ (fun _ settled => settled)

theorem allocateBuffer_settled (st : SizeT) (allocationSize : BitVec 64) :
    Triple Step Clean (allocatorAllocateBuffer st allocationSize) (fun _ => Settled) := by
  refine Triple.pre UncheckedFine (fun _ clean => clean.2) ?_
  refine Triple.bind _ (call_fine _ id) (fun sBuf => ?_)
  refine Triple.bind _ (statusFromDev_clean _) (fun status => ?_)
  refine Triple.pre Settled (fun _ clean => clean.settled) ?_
  cases status with
  | error stop => exact allocateCleanup_settled sBuf stop
  | ok _ =>
      refine Triple.bind _ (unchecked_settled _ trivial) (fun hostPtr => ?_)
      refine Triple.bind _ (bufferWrap_settled _ _ _ _) (fun wrapped => ?_)
      cases wrapped with
      | error stop => exact allocateCleanup_settled sBuf stop
      | ok buffer => exact Triple.ret _ (fun _ settled => settled)

theorem bufferDestroy_settled (buffer : HalStrelaBuffer) :
    Triple Step Settled (bufferDestroy buffer) (fun _ => Settled) := by
  unfold bufferDestroy
  split
  · exact Triple.bind _ (unchecked_settled _ trivial) (fun _ => free_inv Settled _)
  · exact free_inv Settled _

/-- What one operation leaves behind, from a clear device. -/
theorem HalOp.settled (st : SizeT) (op : HalOp) :
    Triple Step Clean (op.program st) (fun _ => Settled) := by
  have drop {α : Type} {p : Driver α} (clean : Triple Step Clean p (fun _ => Clean)) :
      Triple Step Clean (p.bind fun _ => .ret ()) (fun _ => Settled) :=
    Triple.bind _ clean (fun _ => Triple.ret _ (fun _ clean => clean.settled))
  cases op with
  | allocateBuffer size =>
      exact Triple.bind _ (allocateBuffer_settled st size)
        (fun _ => Triple.ret _ (fun _ settled => settled))
  | releaseBuffer buffer =>
      exact Triple.pre _ (fun _ clean => clean.settled) (bufferDestroy_settled buffer)
  | flushRange buffer offset length => exact drop (bufferFlushRange_clean st buffer offset length)
  | invalidateRange buffer offset length =>
      exact drop (bufferInvalidateRange_clean st buffer offset length)
  | createExecutable data => exact drop (executableCreate_clean data)
  | destroyExecutable executable =>
      exact Triple.post _ (executableDestroy_clean executable) (fun _ _ clean => clean.settled)
  | dispatch executable function constants bindings =>
      exact drop (commandBufferDispatch_clean st executable function constants bindings)

/-- In a session from a clear device the error is clear after every operation
exactly if none of the unchecked calls, `strela_buffer_to_ptr` and
`strela_buffer_free`, ever raises one. -/
theorem session_clear_iff (st : SizeT) (d : Dev) (ops : List HalOp) (after : List Dev)
    (clear : d.err = none) (session : Session st d ops after) :
    (∀ d' ∈ after, d'.err = none) ↔ ∀ d' ∈ after, UncheckedFine d' := by
  induction session with
  | nil d => simp
  | @cons d d' op ops after run rest ih =>
      have start : Clean { d with log := [] } := ⟨clear, by simp [UncheckedFine]⟩
      have settled : Settled d' := op.settled st _ _ _ start run
      simp only [List.forall_mem_cons]
      constructor
      · rintro ⟨first, later⟩
        exact ⟨settled.mp first, (ih first).mp later⟩
      · rintro ⟨first, later⟩
        have clear' := settled.mpr first
        exact ⟨clear', (ih clear').mpr later⟩

def sampleBuffer : HalStrelaBuffer where
  allocationSize := 64
  sBuf := { valid := true, offsetWordsFromBase := 0, words := 16 }
  hostPtr := 0x40000000
  releaseCallback := true
  address := 0x1000

/-- A flush that libstrela rejects. -/
theorem session_clear_iff_sample :
    (∀ d ∈ [(⟨none, [⟨.bufferFlush sampleBuffer.sBuf 0 16, true⟩]⟩ : Dev)], d.err = none) ↔
      ∀ d ∈ [(⟨none, [⟨.bufferFlush sampleBuffer.sBuf 0 16, true⟩]⟩ : Dev)], UncheckedFine d := by
  refine session_clear_iff .bits32 ⟨none, []⟩ [.flushRange sampleBuffer 0 64] _ rfl ?_
  refine .cons (.call () ⟨some .badArg, rfl⟩ (.call false ⟨rfl, rfl⟩ ?_)) (.nil _)
  refine .call StrelaErr.badArg ⟨?_, rfl⟩ (.call () rfl (.ret _ _))
  intro e raised
  cases raised
  rfl

/-- Releasing a buffer libstrela will not take back leaves its error behind. -/
theorem release_leaves_error :
    ¬ ∀ (st : SizeT) (ops : List HalOp) (after : List Dev),
      Session st ⟨none, []⟩ ops after → ∀ d ∈ after, d.err = none := by
  intro claim
  have left := claim .bits32 [.releaseBuffer sampleBuffer]
    [⟨some .badArg, [⟨.bufferFree sampleBuffer.sBuf, true⟩]⟩]
    (.cons (.call () ⟨some .badArg, rfl⟩ (.call () rfl (.ret _ _))) (.nil _))
  simp at left

end Estela.Runtime.Sticky
