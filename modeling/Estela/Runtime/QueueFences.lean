import Estela.Runtime.Queue

set_option autoImplicit false

/- What any number of queue operations do together, whatever threads make them and
however their calls are interleaved. -/
namespace Estela.Runtime.Queue

open CallProgram (Prog)
open FencedCalls Fences

/-- A step of the work of a queue operation. -/
inductive QueueAct
  | allocate (allocationSize : BitVec 64)
  | command (c : Command)
  deriving DecidableEq, Repr

def commandBufferWork : Option CommandBuffer → List QueueAct
  | some (.deferred commands) => commands.map .command
  | some .foreign | none => []

/-- What the operation does between its wait and its signals. -/
def QueueOp.work : QueueOp → List QueueAct
  | .alloca _ _ _ allocationSize => [.allocate allocationSize]
  | .dealloca _ _ => []
  | .execute _ _ commandBuffer => commandBufferWork commandBuffer

def QueueOp.job (op : QueueOp) : Job Nat Nat QueueAct := ⟨op.waits, op.work, op.signals⟩

def QueueCall.kind : QueueCall → Kind Nat Nat QueueAct
  | .semaphoreListWait waits => .wait waits
  | .asyncSemaphoreAdvanceTimeline semaphore newValue => .signal (semaphore, newValue)
  | .semaphoreFail semaphore _ => .fail semaphore
  | .command _ c => .act (.command c)
  | .device (.allocateBuffer _ allocationSize) => .act (.allocate allocationSize)
  | _ => .other

def QueueCall.ok : (c : QueueCall) → c.Answer → Bool
  | .semaphoreListWait _, answer => Except.isOk answer
  | .asyncSemaphoreAdvanceTimeline _ _, answer => Except.isOk answer
  | .command _ _, answer => Except.isOk answer
  | .device (.allocateBuffer _ _), answer => Except.isOk answer
  | _, _ => true

def meaning : Meaning QueueCall QueueCall.Answer (CResult Unit) Nat Nat QueueAct where
  kind := QueueCall.kind
  ok := QueueCall.ok
  done := Except.isOk

/-- The semaphores, and what the commands work on. Whoever waits for a semaphore is woken
when its timepoints are dispatched. -/
structure QueueWorld (M : Type) where
  value : Nat → Nat
  woken : Nat → Nat
  failed : Nat → Prop
  memory : M

variable {M : Type}

/-- What the world does in a call. A wait may fail for reasons of its own. -/
def QueueStep (effect : QueueAct → M → M) (w : QueueWorld M) :
    (c : QueueCall) → c.Answer → QueueWorld M → Prop
  | .semaphoreListWait waits, answer, w' =>
      w' = w ∧ (Except.isOk (answer : CResult Unit) → ∀ x ∈ waits, x.2 ≤ w.value x.1)
  | .asyncSemaphoreAdvanceTimeline semaphore newValue, answer, w' =>
      if Except.isOk (answer : CResult Unit)
      then w.value semaphore ≤ newValue ∧
        w' = { w with value := Function.update w.value semaphore newValue }
      else w' = w
  | .asyncSemaphoreDispatchTimepoints semaphore newValue, _, w' =>
      w' = { w with
        woken := Function.update w.woken semaphore (max (w.woken semaphore) newValue) }
  | .semaphoreFail semaphore _, _, w' =>
      w' = { w with failed := fun other => other = semaphore ∨ w.failed other }
  | .command _ c, answer, w' => ∃ memory, w' = { w with memory } ∧
      (Except.isOk (answer : CResult Unit) → memory = effect (.command c) w.memory)
  | .device (.allocateBuffer _ allocationSize), answer, w' => ∃ memory, w' = { w with memory } ∧
      (Except.isOk (answer : CResult Nat) → memory = effect (.allocate allocationSize) w.memory)
  | _, _, w' => w' = w

def view (w : QueueWorld M) : View Nat Nat M := ⟨w.value, w.failed, w.memory⟩

theorem obeys (effect : QueueAct → M → M) : Obeys meaning effect (QueueStep effect) view where
  wait w c answer w' waits step kind := by
    cases c with
    | semaphoreListWait list =>
        cases kind
        exact ⟨congrArg view step.1, step.2⟩
    | device c => cases c <;> cases kind
    | _ => cases kind
  act w c answer w' a step kind := by
    cases c with
    | command address c =>
        cases kind
        obtain ⟨memory, rfl, made⟩ := step
        exact ⟨rfl, rfl, made⟩
    | device c =>
        cases c with
        | allocateBuffer allocator size =>
            cases kind
            obtain ⟨memory, rfl, made⟩ := step
            exact ⟨rfl, rfl, made⟩
        | _ => cases kind
    | _ => cases kind
  signal w c answer w' x step kind := by
    cases c with
    | asyncSemaphoreAdvanceTimeline semaphore newValue =>
        cases kind
        cases success : meaning.ok (.asyncSemaphoreAdvanceTimeline semaphore newValue) answer with
        | true =>
            obtain ⟨grows, rfl⟩ := (if_pos success).mp step
            exact ⟨grows, rfl⟩
        | false => exact congrArg view ((if_neg (Bool.eq_false_iff.mp success)).mp step)
    | device c => cases c <;> cases kind
    | _ => cases kind
  fail w c answer w' k step kind := by
    cases c with
    | semaphoreFail semaphore stop =>
        cases kind
        exact congrArg view step
    | device c => cases c <;> cases kind
    | _ => cases kind
  other w c answer w' step kind := by
    cases c with
    | asyncSemaphoreDispatchTimepoints semaphore newValue =>
        obtain rfl := step
        rfl
    | device c => cases c <;> first | cases kind; done | exact congrArg view step
    | mallocCommandBuffer | commandBufferInitialize | commandBufferReleaseRef | freeCommandBuffer
    | commandBufferBegin | commandBufferEnd =>
        exact congrArg view step
    | _ => cases kind

/-! What is left of each part of a queue operation, and of whatever comes after it. -/

section

variable {iree : Iree} {job : Job Nat Nat QueueAct} {phase : Phase}

/-- The first `n` signals are done. -/
def Signalled (job : Job Nat Nat QueueAct) (n : Nat) (phase : Phase) : Prop :=
  phase = .signalling n ∨ phase = .working job.work.length ∧ n = 0

/-- The first `n` signals are failed. -/
def Failed (n : Nat) (phase : Phase) : Prop :=
  phase = .failing n ∨ (∃ m, phase = .working m) ∧ n = 0

theorem follows_wait {waits : List Timepoint} {next : CResult Unit → QueueProg (CResult Unit)}
    (same : waits = job.waits) (good : Follows meaning job (next (.ok ())) (.working 0))
    (bad : ∀ stop, Follows meaning job (next (.error stop)) (.failing 0)) :
    Follows meaning job (.call (.semaphoreListWait waits) next) .waiting := by
  refine ⟨rfl, same, fun answer => ?_⟩
  match answer with
  | .ok _ => exact good
  | .error stop => exact bad stop

theorem follows_command {address n : Nat} {c : Command}
    {next : CResult Unit → QueueProg (CResult Unit)} (isNext : job.work[n]? = some (.command c))
    (good : Follows meaning job (next (.ok ())) (.working (n + 1)))
    (bad : ∀ stop, Follows meaning job (next (.error stop)) (.failing 0)) :
    Follows meaning job (.call (.command address c) next) (.working n) := by
  refine ⟨n, rfl, isNext, fun answer => ?_⟩
  match answer with
  | .ok _ => exact good
  | .error stop => exact bad stop

theorem follows_allocate {allocator : Option Nat} {size : BitVec 64} {n : Nat}
    {next : CResult Nat → QueueProg (CResult Unit)} (isNext : job.work[n]? = some (.allocate size))
    (good : ∀ buffer, Follows meaning job (next (.ok buffer)) (.working (n + 1)))
    (bad : ∀ stop, Follows meaning job (next (.error stop)) (.failing 0)) :
    Follows meaning job (.call (.device (.allocateBuffer allocator size)) next) (.working n) := by
  refine ⟨n, rfl, isNext, fun answer => ?_⟩
  match answer with
  | .ok buffer => exact good buffer
  | .error stop => exact bad stop

theorem follows_signal {w : Timepoint} {before after : List Timepoint}
    {next : CResult Unit → QueueProg (CResult Unit)} (split : job.signals = before ++ w :: after)
    (signalled : Signalled job before.length phase)
    (good : Follows meaning job (next (.ok ())) (.signalling (before.length + 1)))
    (bad : ∀ stop, Follows meaning job (next (.error stop)) (.failing 0)) :
    Follows meaning job (.call (.asyncSemaphoreAdvanceTimeline w.1 w.2) next) phase := by
  refine ⟨before.length, signalled, by simp [split], fun answer => ?_⟩
  match answer with
  | .ok _ => exact good
  | .error stop => exact bad stop

theorem follows_list_signal (documented : iree.Documented)
    {rest : CResult Unit → QueueProg (CResult Unit)} (before list : List Timepoint)
    (split : job.signals = before ++ list) (signalled : Signalled job before.length phase)
    (good : ∀ phase, Signalled job job.signals.length phase →
      Follows meaning job (rest (.ok ())) phase)
    (bad : ∀ stop, Follows meaning job (rest (.error stop)) (.failing 0)) :
    Follows meaning job ((iree.semaphoreListSignal list).bind rest) phase := by
  induction list generalizing before phase with
  | nil =>
      rw [documented.signalsNone]
      exact good phase (by simpa [split] using signalled)
  | cons w after ih =>
      rw [documented.signals]
      refine follows_signal split signalled ?_ bad
      have split' : job.signals = (before ++ [w]) ++ after := by simp [split]
      exact fun _ => ih (before ++ [w]) split' (by simp [Signalled])

theorem follows_list_fail (documented : iree.Documented)
    {rest : Unit → QueueProg (CResult Unit)} (stop : Stop) (before list : List Timepoint)
    (split : job.signals = before ++ list) (failed : Failed before.length phase)
    (next : ∀ phase, Failed job.signals.length phase → Follows meaning job (rest ()) phase) :
    Follows meaning job ((iree.semaphoreListFail stop list).bind rest) phase := by
  induction list generalizing before phase with
  | nil =>
      rw [documented.failsNone]
      exact next phase (by simpa [split] using failed)
  | cons w after ih =>
      rw [documented.fails]
      refine ⟨before.length, w.2, failed, by simp [split], fun _ => ?_⟩
      exact ih (before ++ [w]) (by simp [split]) (by simp [Failed])

theorem follows_failed {stop : Stop} (failed : Failed job.signals.length phase) :
    Follows meaning job (.ret (.error stop)) phase := by
  rcases failed with failing | ⟨working, none_⟩
  · exact Or.inl failing
  · exact Or.inr ⟨working, List.length_eq_zero_iff.mp none_⟩

theorem follows_signalled (signalled : Signalled job job.signals.length phase) :
    Follows meaning job (.ret (.ok ())) phase := by
  rcases signalled with signalling | ⟨working, none_⟩
  · exact Or.inl signalling
  · exact Or.inr ⟨working, List.length_eq_zero_iff.mp none_⟩

theorem signalOrFail_failed (documented : iree.Documented) {stop : Stop} (failed : Failed 0 phase) :
    Follows meaning job (signalOrFail iree (.error stop) job.signals) phase :=
  follows_list_fail documented stop [] job.signals rfl failed fun _ => follows_failed

theorem signalOrFail_done (documented : iree.Documented)
    (working : phase = .working job.work.length) :
    Follows meaning job (signalOrFail iree (.ok ()) job.signals) phase :=
  follows_list_signal documented [] job.signals rfl (Or.inr ⟨working, rfl⟩)
    (fun _ => follows_signalled) fun _ => signalOrFail_failed documented (Or.inl rfl)

theorem deviceQueueDealloca_follows (documented : iree.Documented) (nothing : job.work = []) :
    Follows meaning job (deviceQueueDealloca iree job.waits job.signals) .waiting :=
  follows_wait rfl (signalOrFail_done documented (by simp [nothing]))
    fun _ => signalOrFail_failed documented (Or.inl rfl)

/-- Whatever begins and ends the command buffer, its commands are the work of the job. -/
theorem follows_replays {direct : Nat} {program : QueueProg (CResult Unit)}
    {rest : CResult Unit → QueueProg (CResult Unit)} {commands : List Command}
    (replays : Replays direct commands program) (before : List Command)
    (split : job.work = (before ++ commands).map .command)
    (good : Follows meaning job (rest (.ok ())) (.working job.work.length))
    (bad : ∀ stop phase, Failed 0 phase → Follows meaning job (rest (.error stop)) phase) :
    Follows meaning job (program.bind rest) (.working before.length) := by
  induction replays generalizing before with
  | done =>
      have all : job.work.length = before.length := by simp [split]
      rw [← all]
      exact good
  | failed commands stop => exact bad stop _ (Or.inr ⟨⟨_, rfl⟩, rfl⟩)
  | bracket which _ ih =>
      rcases which with rfl | rfl <;> exact fun answer => ih answer before split
  | @command c commands next _ stops ih =>
      refine follows_command (by simp [split]) ?_ fun stop => ?_
      · have after := ih (before ++ [c]) (by simp [split])
        rwa [List.length_append] at after
      · obtain ⟨stop', ends⟩ := stops stop
        rw [ends]
        exact bad stop' _ (Or.inl rfl)

theorem follows_release {address : Nat} {rest : Unit → QueueProg (CResult Unit)}
    (next : Follows meaning job (rest ()) phase) :
    Follows meaning job ((commandBufferRelease address).bind rest) phase := by
  intro last
  match last with
  | true => exact fun _ => next
  | false => exact next

theorem executeCommands_follows (documented : iree.Documented) (op : Option CommandBuffer)
    (work : job.work = commandBufferWork op) :
    Follows meaning job
      ((executeCommands iree op).bind fun status => signalOrFail iree status job.signals)
      (.working 0) := by
  have stopped (stop : Stop) {phase : Phase} (failed : Failed 0 phase) :
      Follows meaning job (signalOrFail iree (.error stop) job.signals) phase :=
    signalOrFail_failed documented failed
  match op with
  | none => exact signalOrFail_done documented (by rw [work]; rfl)
  | some .foreign => exact stopped _ (Or.inr ⟨⟨0, rfl⟩, rfl⟩)
  | some (.deferred commands) =>
      intro allocated
      match allocated with
      | .error stop => exact stopped stop (Or.inr ⟨⟨0, rfl⟩, rfl⟩)
      | .ok direct =>
          intro _
          have released (status : CResult Unit) {phase : Phase}
              (next : Follows meaning job (signalOrFail iree status job.signals) phase) :
              Follows meaning job (((commandBufferRelease direct).bind fun _ => .ret status).bind
                fun status => signalOrFail iree status job.signals) phase := by
            rw [Prog.bind_assoc]
            exact follows_release next
          have applied : Follows meaning job
              ((iree.deferredCommandBufferApply commands direct).bind fun status =>
                ((commandBufferRelease direct).bind fun _ => .ret status).bind
                  fun status => signalOrFail iree status job.signals) (.working 0) :=
            follows_replays (documented.replays commands direct) [] work
              (released (.ok ()) (signalOrFail_done documented rfl))
              fun stop _ failed => released (.error stop) (stopped stop failed)
          rw [← Prog.bind_assoc] at applied
          exact applied

theorem deviceQueueExecute_follows (documented : iree.Documented) (op : Option CommandBuffer)
    (work : job.work = commandBufferWork op) :
    Follows meaning job (deviceQueueExecute iree job.waits job.signals op) .waiting :=
  follows_wait rfl (executeCommands_follows documented op work)
    fun _ => signalOrFail_failed documented (Or.inl rfl)

end

theorem unpair_entry (list : List Timepoint) : (list.map entry).map Nat.unpair = list := by
  rw [List.map_map]
  exact (List.map_congr_left fun w _ => Nat.unpair_pair w.1 w.2).trans (List.map_id list)

section

variable {iree : Iree}

variable (iree) in
/-- The end of `deviceQueueAlloca`. -/
def allocaEnd (signals : List Timepoint) (status : CResult Unit) (buffer : Option Nat) :
    QueueProg (CResult Unit) :=
  match status with
  | .ok _ => .ret (.ok ())
  | .error stop => (iree.semaphoreListFail stop signals).bind fun _ =>
      match buffer with
      | some buffer => .call (.device (.bufferRelease buffer)) fun _ => .ret (.error stop)
      | none => .ret (.error stop)

variable (iree) in
def allocaAllocated (signals : List Timepoint) : CResult Nat → QueueProg (CResult Unit)
  | .error stop => allocaEnd iree signals (.error stop) none
  | .ok buffer => (iree.semaphoreListSignal signals).bind fun signalled =>
      allocaEnd iree signals signalled (some buffer)

variable (iree) in
def allocaWaited (device : HalDevice) (signals : List Timepoint) (size : BitVec 64) :
    CResult Unit → QueueProg (CResult Unit)
  | .error stop => allocaEnd iree signals (.error stop) none
  | .ok _ => .call (.device (.allocateBuffer device.deviceAllocator size))
      (allocaAllocated iree signals)

theorem alloca_run (device : HalDevice) (waits signals : List Timepoint) (size : BitVec 64) :
    (QueueOp.alloca device waits signals size).run iree =
      .call (.semaphoreListWait waits) (allocaWaited iree device signals size) := by
  have failed (stop : Stop) (buffer : Option Nat) :
      (((iree.semaphoreListFail stop ((signals.map entry).map Nat.unpair)).bind fun _ =>
        Prog.handle (listCall iree) (match buffer with
          | some address => (deviceCall (.bufferRelease address)).bind fun _ =>
              .ret ((.error stop, buffer) : CResult Unit × Option Nat)
          | none => .ret (.error stop, buffer))).bind fun result => .ret result.1) =
        allocaEnd iree signals (.error stop) buffer := by
    rw [unpair_entry, Prog.bind_assoc]
    cases buffer <;> rfl
  simp only [QueueOp.run, deviceQueueAlloca, queueAllocaSteps, Prog.bind_eq, Prog.handle_bind]
  change Prog.call (QueueCall.semaphoreListWait ((waits.map entry).map Nat.unpair)) _ = _
  rw [unpair_entry]
  congr 1
  funext waited
  cases waited with
  | error stop => exact failed stop none
  | ok _ =>
      show Prog.call (QueueCall.device _) _ = Prog.call _ _
      congr 1
      funext allocated
      cases allocated with
      | error stop => exact failed stop none
      | ok buffer =>
          refine (Prog.bind_assoc (Prog.bind
            (iree.semaphoreListSignal ((signals.map entry).map Nat.unpair)) _) _ _).trans ?_
          refine (Prog.bind_assoc _ _ _).trans ?_
          refine congrArg₂ Prog.bind (by rw [unpair_entry]) ?_
          funext signalled
          cases signalled with
          | ok _ => rfl
          | error stop => exact failed stop (some buffer)

theorem deviceQueueAlloca_follows (documented : iree.Documented) (device : HalDevice)
    (waits signals : List Timepoint) (size : BitVec 64) :
    Follows meaning (QueueOp.alloca device waits signals size).job
      ((QueueOp.alloca device waits signals size).run iree) .waiting := by
  have failed (stop : Stop) (buffer : Option Nat) :
      Follows meaning (QueueOp.alloca device waits signals size).job
        (allocaEnd iree signals (.error stop) buffer) (.failing 0) := by
    apply follows_list_fail documented stop [] signals rfl (Or.inl rfl)
    intro phase failed
    match buffer with
    | some _ => exact fun _ => follows_failed failed
    | none => exact follows_failed failed
  rw [alloca_run]
  apply follows_wait rfl _ fun stop => failed stop none
  apply follows_allocate rfl _ fun stop => failed stop none
  intro buffer
  exact follows_list_signal documented [] signals rfl (Or.inr ⟨rfl, rfl⟩)
    (fun _ => follows_signalled)
    fun stop => failed stop (some buffer)

/-- Each queue function does what its lists of semaphores and its commands say. -/
theorem QueueOp.follows (documented : iree.Documented) (op : QueueOp) :
    Follows meaning op.job (op.run iree) .waiting := by
  match op with
  | .alloca device waits signals size =>
      exact deviceQueueAlloca_follows documented device waits signals size
  | .dealloca waits signals => exact deviceQueueDealloca_follows documented rfl
  | .execute waits signals commandBuffer =>
      exact deviceQueueExecute_follows documented commandBuffer rfl

end

end Estela.Runtime.Queue
