import Mathlib.Data.List.Forall2
import Estela.Lib.Ledger
import Estela.Runtime.ArgumentChecks

set_option autoImplicit false

/- What a dispatch asks of libstrela, call by call, on a device where any call
may fail: what becomes of its job, and what its status says. -/
namespace Estela.Runtime.Jobs

open CallProgram Ledger

/-- A libstrela call, its answer, and the error on the device after it, if any. -/
structure Event where
  call : Call
  answer : call.Answer
  err : Option StrelaErr

/-- The device, with everything that was asked of it so far. -/
structure Dev where
  err : Option StrelaErr
  trace : List Event

/-- Any call may answer anything and raise an error, and every call but
`strela_dev_reset_err` leaves an error that is there. -/
def Step (d : Dev) : (c : Call) → c.Answer → Dev → Prop
  | .devOk, ok, d' => ok = d.err.isNone ∧ d' = d
  | .devGetErr, err, d' => (∀ e, d.err = some e → err = e) ∧ d' = d
  | .devResetErr, _, d' => d' = { d with err := none }
  | c, answer, d' => ∃ err : Option StrelaErr, (err = none → d.err = none) ∧
      d' = { err, trace := d.trace ++ [⟨c, answer, err⟩] }

/-- The state a poll reported. -/
def Event.polled : Event → Option StrelaJobState
  | ⟨.jobPoll _, state, _⟩ => some state
  | _ => none

/-- There is no error after the call and, if it was a poll, the job is done. -/
def Event.Succeeded (event : Event) : Prop :=
  event.err = none ∧ ∀ state, event.polled = some state → state = .ok

/-- The job a call hands out or takes back. An invalid handle is no job. -/
def Event.entry : Event → Option (Entry StrelaJob)
  | ⟨.jobConfig _ _, (job : StrelaJob), _⟩ => if job.valid then some (.acquired job) else none
  | ⟨.jobFree job, _, _⟩ => some (.released job)
  | _ => none

/-- The jobs of a trace, latest first. -/
def jobs (trace : List Event) : List (Entry StrelaJob) := (trace.filterMap Event.entry).reverse

/-- Column number `c` of an export, input and output, as `dispatch` resolves it. -/
structure ColumnResolves (st : SizeT) (exportDef : ExportDef) (constants : ConstByteSpan)
    (bindings : List BufferRef) (c : Nat) (input output : Column) : Prop where
  input : ∃ column, exportDef.inputs[c]? = some column ∧
    columnResolve st column true constants bindings = .ok input
  output : ∃ column, exportDef.outputs[c]? = some column ∧
    columnResolve st column false constants bindings = .ok output

/-- Why one of the eight columns does not resolve. -/
def Unresolved (st : SizeT) (exportDef : ExportDef) (constants : ConstByteSpan)
    (bindings : List BufferRef) (stop : Stop) : Prop :=
  ∃ c < columnCount, ∃ column,
    (exportDef.inputs[c]? = some column ∧
      columnResolve st column true constants bindings = .error stop) ∨
    (exportDef.outputs[c]? = some column ∧
      columnResolve st column false constants bindings = .error stop)

/-- The job of column `c` is what the column was resolved to. -/
def Programs (st : SizeT) (exportDef : ExportDef) (constants : ConstByteSpan)
    (bindings : List BufferRef) (conf : StrelaConf) : Prop :=
  conf.inp.length = columnCount ∧ conf.out.length = columnCount ∧
    ∀ c < columnCount, ∃ input output,
      ColumnResolves st exportDef constants bindings c input output ∧
      conf.inp[c]? = some ⟨input.wordsFromBase, input.wordCount, input.stride⟩ ∧
      conf.out[c]? = some ⟨output.wordsFromBase, output.wordCount⟩

/-- The call one column asks for, if it is in use. -/
def syncCalls (calls : StrelaBuffer → Nat → Nat → List Call) (st : SizeT) (column : Column) :
    List Call :=
  match column.buffer with
  | none => []
  | some buffer =>
      calls buffer.sBuf (bufferLines st column.offset column.length).1
        (bufferLines st column.offset column.length).2

def flushCalls (st : SizeT) (column : Column) : List Call :=
  syncCalls (fun buffer offset count => [.bufferFlush buffer offset count]) st column

def invalidateCalls (st : SizeT) (column : Column) : List Call :=
  syncCalls (fun buffer offset count =>
    [.bufferFlush buffer offset count, .bufferInval buffer offset count]) st column

/-- All that a dispatch asks of libstrela, if nothing fails. -/
def dispatchCalls (st : SizeT) (kernel : StrelaKernel) (columns : List (Column × Column))
    (job : StrelaJob) : List Call :=
  columns.flatMap (fun pair => flushCalls st pair.1 ++ flushCalls st pair.2) ++
    [.jobConfig kernel (strelaConf columns), .jobSubmit job, .jobWait job (-1), .jobPoll job] ++
    (if job.valid then [.jobFree job] else []) ++
    columns.flatMap (fun pair => invalidateCalls st pair.2)

/-- Calls made from `d` to `d'`, with no check between them. -/
structure Made (d : Dev) (events : List Event) (d' : Dev) : Prop where
  trace : d'.trace = d.trace ++ events
  err : d'.err = none ↔ ∀ event ∈ events, event.err = none
  sticky : d'.err = none → d.err = none

theorem Made.trans {d d' d'' : Dev} {events events' : List Event} (first : Made d events d')
    (second : Made d' events' d'') : Made d (events ++ events') d'' where
  trace := by rw [second.trace, first.trace, List.append_assoc]
  err := by
    rw [List.forall_mem_append, ← first.err, ← second.err]
    exact ⟨fun clear => ⟨second.sticky clear, clear⟩, And.right⟩
  sticky clear := first.sticky (second.sticky clear)

/-- A call that goes into the trace. -/
def Logged : Call → Prop
  | .devOk => False
  | .devGetErr => False
  | .devResetErr => False
  | _ => True

theorem Made.step {d d' : Dev} (c : Call) {answer : c.Answer} (logged : Logged c)
    (move : Step d c answer d') : ∃ err, Made d [⟨c, answer, err⟩] d' := by
  have made (err : Option StrelaErr) (sticky : err = none → d.err = none)
      (eq : d' = { err, trace := d.trace ++ [⟨c, answer, err⟩] }) :
      Made d [⟨c, answer, err⟩] d' := by
    subst eq
    exact ⟨rfl, by rw [List.forall_mem_singleton], sticky⟩
  cases c
  case devOk => exact logged.elim
  case devGetErr => exact logged.elim
  case devResetErr => exact logged.elim
  all_goals
    obtain ⟨err, sticky, eq⟩ := move
    exact ⟨err, made err sticky eq⟩

/-- Asking for the status tells whether there is an error. -/
theorem statusFromDev_run (what : String) (d d' : Dev) (status : CResult Unit)
    (run : Run Step (statusFromDev what) d status d') :
    d'.trace = d.trace ∧ (status = .ok () ↔ d.err = none) := by
  obtain ⟨ok, between, ⟨answer, same⟩, run⟩ := (run_request_iff _ _ _ _ _).mp run
  rw [same] at run
  cases ok with
  | true =>
      have clear : d.err = none := Option.isNone_iff_eq_none.mp answer.symm
      obtain ⟨rfl, rfl⟩ := (run_ret_iff _ _ _ _).mp run
      exact ⟨rfl, fun _ => clear, fun _ => rfl⟩
  | false =>
      simp only [Bool.false_eq_true, ↓reduceIte] at run
      obtain ⟨err, asked, ⟨_, same⟩, run⟩ := (run_request_iff _ _ _ _ _).mp run
      rw [same] at run
      obtain ⟨_, reset, cleared, run⟩ := (run_request_iff _ _ _ _ _).mp run
      obtain ⟨rfl, rfl⟩ := (run_ret_iff _ _ _ _).mp run
      rw [cleared]
      refine ⟨rfl, fun ok => ?_, fun clear => ?_⟩
      · cases err <;> cases ok
      · rw [clear] at answer
        cases answer

/-- A part of a dispatch that goes on while its calls succeed, and makes all of
`calls` if they do. -/
structure Segment (calls : List Call) (d : Dev) (status : CResult Unit) (d' : Dev)
    (events : List Event) : Prop where
  trace : d'.trace = d.trace ++ events
  among : events.map Event.call <+: calls
  onOk : status = .ok () → (∀ event ∈ events, event.Succeeded) ∧ events.map Event.call = calls
  onError : status ≠ .ok () → ∃ event ∈ events, ¬ event.Succeeded

theorem Segment.nil (d : Dev) : Segment [] d (.ok ()) d [] :=
  ⟨(List.append_nil _).symm, List.prefix_rfl, fun _ => ⟨by simp, rfl⟩,
    fun failed => absurd rfl failed⟩

/-- One part after another that did not fail. -/
theorem Segment.append {calls calls' : List Call} {d d' d'' : Dev} {status : CResult Unit}
    {events events' : List Event} (first : Segment calls d (.ok ()) d' events)
    (second : Segment calls' d' status d'' events') :
    Segment (calls ++ calls') d status d'' (events ++ events') := by
  obtain ⟨succeeded, made⟩ := first.onOk rfl
  refine ⟨?_, ?_, fun ok => ?_, fun failed => ?_⟩
  · rw [second.trace, first.trace, List.append_assoc]
  · rw [List.map_append, made]
    exact (List.prefix_append_right_inj _).mpr second.among
  · obtain ⟨succeeded', made'⟩ := second.onOk ok
    rw [List.map_append, made, made']
    exact ⟨List.forall_mem_append.mpr ⟨succeeded, succeeded'⟩, rfl⟩
  · obtain ⟨event, member, bad⟩ := second.onError failed
    exact ⟨event, List.mem_append_right _ member, bad⟩

/-- What the status says of the calls. -/
theorem Segment.status_iff {calls : List Call} {d d' : Dev} {status : CResult Unit}
    {events : List Event} (segment : Segment calls d status d' events) :
    status = .ok () ↔ ∀ event ∈ events, event.Succeeded := by
  refine ⟨fun ok => (segment.onOk ok).1, fun fine => ?_⟩
  by_contra failed
  obtain ⟨event, member, bad⟩ := segment.onError failed
  exact bad (fine event member)

/-- The next part, which is only there if nothing failed so far. -/
theorem Segment.andThen {calls calls' : List Call} {d d' d'' : Dev} {status status' : CResult Unit}
    {events : List Event} {next : Driver (CResult Unit)} (first : Segment calls d status d' events)
    (run : Run Step (whileOk status next) d' status' d'')
    (rest : Run Step next d' status' d'' → ∃ events', Segment calls' d' status' d'' events') :
    ∃ events', Segment (calls ++ calls') d status' d'' (events ++ events') ∧
      events'.map Event.call <+: calls' := by
  cases status with
  | error stop =>
      obtain ⟨rfl, rfl⟩ := (run_ret_iff _ _ _ _).mp run
      refine ⟨[], ?_, List.nil_prefix⟩
      rw [List.append_nil]
      exact ⟨first.trace, first.among.trans (List.prefix_append _ _), fun ok => (nomatch ok),
        fun _ => first.onError fun ok => nomatch ok⟩
  | ok _ =>
      obtain ⟨events', second⟩ := rest run
      exact ⟨events', first.append second, second.among⟩

/-- Calls other than polls, and the check after them. -/
theorem Segment.checked {calls : List Call} {d between d' : Dev} {status : CResult Unit}
    {events : List Event} (what : String) (made : Made d events between)
    (named : events.map Event.call = calls) (noPoll : ∀ event ∈ events, event.polled = none)
    (run : Run Step (statusFromDev what) between status d') : Segment calls d status d' events := by
  obtain ⟨trace, tells⟩ := statusFromDev_run what between d' status run
  have succeeded (event : Event) (member : event ∈ events) :
      event.Succeeded ↔ event.err = none := by
    simp [Event.Succeeded, noPoll event member]
  refine ⟨trace.trans made.trace, named ▸ List.prefix_rfl,
    fun ok => ⟨fun event member => ?_, named⟩,
    fun failed => ?_⟩
  · exact (succeeded event member).mpr (made.err.mp (tells.mp ok) event member)
  · by_contra fine
    push Not at fine
    exact failed (tells.mpr (made.err.mpr fun event member =>
      (succeeded event member).mp (fine event member)))

theorem bufferFlushRange_run (st : SizeT) (buffer : HalStrelaBuffer) (offset length : BitVec 64)
    {d d' : Dev} {status : CResult Unit}
    (run : Run Step (bufferFlushRange st buffer offset length) d status d') :
    ∃ events, Segment [.bufferFlush buffer.sBuf (bufferLines st offset length).1
      (bufferLines st offset length).2] d status d' events := by
  obtain ⟨_, between, flush, run⟩ := (run_request_iff _ _ _ _ _).mp run
  obtain ⟨raised, made⟩ := Made.step (.bufferFlush _ _ _) trivial flush
  exact ⟨_, .checked _ made rfl (by simp [Event.polled]) run⟩

theorem bufferInvalidateRange_run (st : SizeT) (buffer : HalStrelaBuffer)
    (offset length : BitVec 64) {d d' : Dev} {status : CResult Unit}
    (run : Run Step (bufferInvalidateRange st buffer offset length) d status d') :
    ∃ events, Segment [.bufferFlush buffer.sBuf (bufferLines st offset length).1
      (bufferLines st offset length).2, .bufferInval buffer.sBuf (bufferLines st offset length).1
      (bufferLines st offset length).2] d status d' events := by
  obtain ⟨_, flushed, flush, run⟩ := (run_request_iff _ _ _ _ _).mp run
  obtain ⟨_, between, inval, run⟩ := (run_request_iff _ _ _ _ _).mp run
  obtain ⟨raised, made⟩ := Made.step (.bufferFlush _ _ _) trivial flush
  obtain ⟨raised', made'⟩ := Made.step (.bufferInval _ _ _) trivial inval
  exact ⟨_, .checked _ (made.trans made') rfl (by simp [Event.polled]) run⟩

/-- A column's part of one of the two loops. -/
theorem forColumn_run (st : SizeT)
    (sync : HalStrelaBuffer → BitVec 64 → BitVec 64 → Driver (CResult Unit))
    (calls : StrelaBuffer → Nat → Nat → List Call)
    (spec : ∀ buffer offset length d status d', Run Step (sync buffer offset length) d status d' →
      ∃ events, Segment (calls buffer.sBuf (bufferLines st offset length).1
        (bufferLines st offset length).2) d status d' events)
    (column : Column) {d d' : Dev} {status : CResult Unit}
    (run : Run Step (forColumn sync column) d status d') :
    ∃ events, Segment (syncCalls calls st column) d status d' events := by
  unfold forColumn at run
  unfold syncCalls
  cases used : column.buffer with
  | none =>
      simp only [used] at run ⊢
      obtain ⟨rfl, rfl⟩ := (run_ret_iff _ _ _ _).mp run
      exact ⟨[], .nil d'⟩
  | some buffer =>
      simp only [used] at run ⊢
      exact spec _ _ _ _ _ _ run

theorem flushColumn_run (st : SizeT) (column : Column) {d d' : Dev} {status : CResult Unit}
    (run : Run Step (forColumn (bufferFlushRange st) column) d status d') :
    ∃ events, Segment (flushCalls st column) d status d' events :=
  forColumn_run st _ _ (fun _ _ _ _ _ _ => bufferFlushRange_run st _ _ _) column run

theorem invalidateColumn_run (st : SizeT) (column : Column) {d d' : Dev} {status : CResult Unit}
    (run : Run Step (forColumn (bufferInvalidateRange st) column) d status d') :
    ∃ events, Segment (invalidateCalls st column) d status d' events :=
  forColumn_run st _ _ (fun _ _ _ _ _ _ => bufferInvalidateRange_run st _ _ _) column run

theorem flushColumns_run (st : SizeT) (columns : List (Column × Column)) {d d' : Dev}
    {status : CResult Unit} (run : Run Step (flushColumns st columns) d status d') :
    ∃ events, Segment (columns.flatMap fun pair => flushCalls st pair.1 ++ flushCalls st pair.2)
      d status d' events := by
  induction columns generalizing d with
  | nil =>
      obtain ⟨rfl, rfl⟩ := (run_ret_iff _ _ _ _).mp run
      exact ⟨[], .nil d'⟩
  | cons pair rest ih =>
      obtain ⟨first, middle, inputRun, run⟩ := (run_bind_iff _ _ _ _ _).mp run
      obtain ⟨second, between, outputRun, run⟩ := (run_bind_iff _ _ _ _ _).mp run
      obtain ⟨events, input⟩ := flushColumn_run st pair.1 inputRun
      obtain ⟨events', both, _⟩ := input.andThen outputRun (flushColumn_run st pair.2)
      obtain ⟨events'', all, _⟩ := both.andThen run ih
      exact ⟨_, all⟩

theorem invalidateColumns_run (st : SizeT) (columns : List (Column × Column)) {d d' : Dev}
    {status : CResult Unit} (run : Run Step (invalidateColumns st columns) d status d') :
    ∃ events, Segment (columns.flatMap fun pair => invalidateCalls st pair.2) d
      status d' events := by
  induction columns generalizing d with
  | nil =>
      obtain ⟨rfl, rfl⟩ := (run_ret_iff _ _ _ _).mp run
      exact ⟨[], .nil d'⟩
  | cons pair rest ih =>
      obtain ⟨first, middle, outputRun, run⟩ := (run_bind_iff _ _ _ _ _).mp run
      obtain ⟨events, output⟩ := invalidateColumn_run st pair.2 outputRun
      obtain ⟨events', all, _⟩ := output.andThen run ih
      exact ⟨_, all⟩

/-- What configuring, submitting and waiting does. -/
theorem runJob_run (kernel : StrelaKernel) (conf : StrelaConf) {d d' : Dev}
    {started : StrelaJob × CResult Unit} (run : Run Step (runJob kernel conf) d started d') :
    ∃ configured submitted waited : Option StrelaErr,
      Segment [.jobConfig kernel conf, .jobSubmit started.1, .jobWait started.1 (-1)] d started.2 d'
        [⟨.jobConfig kernel conf, started.1, configured⟩, ⟨.jobSubmit started.1, (), submitted⟩,
          ⟨.jobWait started.1 (-1), (), waited⟩] := by
  obtain ⟨job, _, config, run⟩ := (run_request_iff _ _ _ _ _).mp run
  obtain ⟨_, _, submit, run⟩ := (run_request_iff _ _ _ _ _).mp run
  obtain ⟨_, _, wait, run⟩ := (run_request_iff _ _ _ _ _).mp run
  obtain ⟨status, between, statusRun, run⟩ := (run_bind_iff _ _ _ _ _).mp run
  obtain ⟨rfl, rfl⟩ := (run_ret_iff _ _ _ _).mp run
  obtain ⟨configured, first⟩ := Made.step (.jobConfig _ _) trivial config
  obtain ⟨submitted, second⟩ := Made.step (.jobSubmit _) trivial submit
  obtain ⟨waited, third⟩ := Made.step (.jobWait _ _) trivial wait
  exact ⟨configured, submitted, waited,
    .checked _ ((first.trans second).trans third) rfl (by simp [Event.polled]) statusRun⟩

theorem jobStateStatus_ok (state : StrelaJobState) :
    jobStateStatus state = .ok () ↔ state = .ok := by
  cases state <;> simp [jobStateStatus, makeStatus]

/-- A poll succeeds if it raises nothing and finds the job done. -/
theorem pollJob_run (job : StrelaJob) {d d' : Dev} {status : CResult Unit}
    (run : Run Step (pollJob job) d status d') :
    ∃ state err, Segment [.jobPoll job] d status d' [⟨.jobPoll job, state, err⟩] := by
  obtain ⟨state, _, poll, run⟩ := (run_request_iff _ _ _ _ _).mp run
  obtain ⟨polled, between, statusRun, run⟩ := (run_bind_iff _ _ _ _ _).mp run
  obtain ⟨err, made⟩ := Made.step (.jobPoll _) trivial poll
  obtain ⟨trace, tells⟩ := statusFromDev_run _ _ _ _ statusRun
  have same : d' = between ∧ (status = .ok () ↔ polled = .ok () ∧ state = StrelaJobState.ok) := by
    cases polled with
    | error stop =>
        obtain ⟨rfl, rfl⟩ := (run_ret_iff _ _ _ _).mp run
        exact ⟨rfl, by simp⟩
    | ok _ =>
        obtain ⟨rfl, rfl⟩ := (run_ret_iff _ _ _ _).mp run
        exact ⟨rfl, fun ok => ⟨rfl, (jobStateStatus_ok _).mp ok⟩,
          fun both => (jobStateStatus_ok _).mpr both.2⟩
  obtain ⟨rfl, exactly⟩ := same
  have succeeded : (⟨.jobPoll job, state, err⟩ : Event).Succeeded ↔
      err = none ∧ state = StrelaJobState.ok :=
    ⟨fun good => ⟨good.1, good.2 _ rfl⟩,
      fun good => ⟨good.1, fun _ same => (Option.some.inj same).symm.trans good.2⟩⟩
  have error := made.err
  rw [List.forall_mem_singleton] at error
  refine ⟨state, err, trace.trans made.trace, List.prefix_rfl, fun ok => ?_, fun failed => ?_⟩
  · obtain ⟨polledOk, done⟩ := exactly.mp ok
    exact ⟨List.forall_mem_singleton.mpr (succeeded.mpr ⟨error.mp (tells.mp polledOk), done⟩), rfl⟩
  · refine ⟨_, List.mem_singleton_self _, fun good => failed ?_⟩
    obtain ⟨clear, done⟩ := succeeded.mp good
    exact exactly.mpr ⟨tells.mpr (error.mpr clear), done⟩

def freeEvents (job : StrelaJob) (err : Option StrelaErr) : List Event :=
  if job.valid then [⟨.jobFree job, (), err⟩] else []

/-- A valid job is freed whatever happened to it, and an earlier error is kept. -/
theorem freeJob_run (job : StrelaJob) (status : CResult Unit) {d d' : Dev} {result : CResult Unit}
    (run : Run Step (freeJob job status) d result d') :
    ∃ raised, d'.trace = d.trace ++ freeEvents job raised ∧
      (status = .ok () →
        Segment (if job.valid then [.jobFree job] else []) d result d' (freeEvents job raised)) ∧
      (status ≠ .ok () → result ≠ .ok ()) := by
  unfold freeJob at run
  unfold freeEvents
  by_cases valid : job.valid
  · simp only [valid, ↓reduceIte] at run ⊢
    obtain ⟨_, between, free, run⟩ := (run_request_iff _ _ _ _ _).mp run
    obtain ⟨freed, checked, statusRun, run⟩ := (run_bind_iff _ _ _ _ _).mp run
    obtain ⟨rfl, rfl⟩ := (run_ret_iff _ _ _ _).mp run
    obtain ⟨raised, made⟩ := Made.step (.jobFree _) trivial free
    have segment := Segment.checked _ made rfl (by simp [Event.polled]) statusRun
    refine ⟨raised, segment.trace, fun ok => ?_, fun failed => ?_⟩
    · rw [ok]
      exact segment
    · cases status with
      | ok _ => exact absurd rfl failed
      | error stop => exact fun ok => nomatch ok
  · simp only [valid, Bool.false_eq_true, ↓reduceIte] at run ⊢
    obtain ⟨rfl, rfl⟩ := (run_ret_iff _ _ _ _).mp run
    refine ⟨none, (List.append_nil _).symm, fun ok => ?_, fun failed => failed⟩
    rw [ok]
    exact .nil d'

/-- Calls that neither hand out a job nor take one back. -/
def NoJob : Call → Prop
  | .jobConfig _ _ => False
  | .jobFree _ => False
  | _ => True

def Quiet (events : List Event) : Prop := ∀ event ∈ events, NoJob event.call

theorem Quiet.append {events events' : List Event} (first : Quiet events) (second : Quiet events') :
    Quiet (events ++ events') := List.forall_mem_append.mpr ⟨first, second⟩

theorem Quiet.entries {events : List Event} (quiet : Quiet events) :
    events.filterMap Event.entry = [] := by
  rw [List.filterMap_eq_nil_iff]
  rintro ⟨call, answer, raised⟩ member
  have noJob := quiet _ member
  cases call <;> first | rfl | exact noJob.elim

theorem Quiet.of_prefix {events : List Event} {calls : List Call}
    (among : events.map Event.call <+: calls) (noJob : ∀ call ∈ calls, NoJob call) : Quiet events :=
  fun _ member => noJob _ (among.subset (List.mem_map_of_mem member))

theorem flushCalls_noJob (st : SizeT) (columns : List (Column × Column)) :
    ∀ call ∈ columns.flatMap fun pair => flushCalls st pair.1 ++ flushCalls st pair.2,
      NoJob call := by
  have one (column : Column) : ∀ call ∈ flushCalls st column, NoJob call := by
    unfold flushCalls syncCalls
    split <;> simp [NoJob]
  intro call member
  obtain ⟨pair, _, here⟩ := List.mem_flatMap.mp member
  exact (List.mem_append.mp here).elim (one _ call) (one _ call)

theorem invalidateCalls_noJob (st : SizeT) (columns : List (Column × Column)) :
    ∀ call ∈ columns.flatMap fun pair => invalidateCalls st pair.2, NoJob call := by
  intro call member
  obtain ⟨pair, _, here⟩ := List.mem_flatMap.mp member
  unfold invalidateCalls syncCalls at here
  split at here
  · cases here
  · simp only [List.mem_cons, List.not_mem_nil, or_false] at here
    rcases here with rfl | rfl <;> trivial

/-- The job a call configures. -/
def callConf : Call → Option StrelaConf
  | .jobConfig _ conf => some conf
  | _ => none

theorem callConf_none {calls : List Call} (noJob : ∀ call ∈ calls, NoJob call) :
    calls.filterMap callConf = [] := by
  rw [List.filterMap_eq_nil_iff]
  intro call member
  have quiet := noJob call member
  cases call <;> first | rfl | exact quiet.elim

theorem dispatchCalls_conf (st : SizeT) (kernel : StrelaKernel) (columns : List (Column × Column))
    (job : StrelaJob) :
    (dispatchCalls st kernel columns job).filterMap callConf = [strelaConf columns] := by
  have freed : (if job.valid then [Call.jobFree job] else []).filterMap callConf = [] := by
    cases job.valid <;> rfl
  simp only [dispatchCalls, List.filterMap_append, callConf_none (flushCalls_noJob st columns),
    callConf_none (invalidateCalls_noJob st columns), freed]
  rfl

/-- What a dispatch did whose columns were resolved. -/
structure Accounted (st : SizeT) (kernel : StrelaKernel) (columns : List (Column × Column))
    (trace : List Event) (result : CResult Unit) : Prop where
  settled : Settled (jobs trace)
  status : result = .ok () ↔ ∀ event ∈ trace, event.Succeeded
  whole : result = .ok () → ∃ job, trace.map Event.call = dispatchCalls st kernel columns job
  configured : ∀ event ∈ trace, ∀ kernel' conf, event.call = .jobConfig kernel' conf →
    kernel' = kernel ∧ conf = strelaConf columns

section

variable {st : SizeT} {kernel : StrelaKernel} {columns : List (Column × Column)}

/-- A dispatch that never got a job. -/
theorem Accounted.idle {calls : List Call} {err : Option StrelaErr} {d' : Dev} {stop : Stop}
    {events : List Event} (segment : Segment calls ⟨err, []⟩ (.error stop) d' events)
    (quiet : Quiet events) : Accounted st kernel columns d'.trace (.error stop) := by
  have trace : d'.trace = events := segment.trace
  rw [trace]
  refine ⟨?_, segment.status_iff, fun ok => (nomatch ok), ?_⟩
  · rw [jobs, quiet.entries]
    exact .nil
  · intro event member kernel' conf config
    have noJob := quiet event member
    rw [config] at noJob
    exact noJob.elim

/-- The events of a dispatch that got a job: it is configured once and, if it is
valid, freed once. -/
theorem settled_jobs {before middle after : List Event} (job : StrelaJob)
    (configured freed : Option StrelaErr) (first : Quiet before) (second : Quiet middle)
    (third : Quiet after) (conf : StrelaConf) :
    Settled (jobs (before ++ (⟨.jobConfig kernel conf, job, configured⟩ :: middle) ++
      freeEvents job freed ++ after)) := by
  have entries : (freeEvents job freed).filterMap Event.entry =
      if job.valid then [.released job] else [] := by
    unfold freeEvents
    cases job.valid <;> rfl
  have config : Event.entry ⟨.jobConfig kernel conf, job, configured⟩ =
      if job.valid then some (.acquired job) else none := rfl
  simp only [jobs, List.filterMap_append, first.entries, third.entries, entries,
    List.filterMap_cons,
    config, second.entries]
  intro r
  cases job.valid <;> simp

/-- A dispatch that got a job, up to where it is freed. -/
theorem Accounted.ran {result : CResult Unit} {job : StrelaJob}
    {before middle after : List Event} {configured freed : Option StrelaErr} (first : Quiet before)
    (second : Quiet middle) (third : Quiet after)
    (status : result = .ok () ↔ ∀ event ∈
      before ++ (⟨.jobConfig kernel (strelaConf columns), job, configured⟩ :: middle) ++
        freeEvents job freed ++ after, event.Succeeded)
    (whole : result = .ok () →
      (before ++ (⟨.jobConfig kernel (strelaConf columns), job, configured⟩ :: middle) ++
        freeEvents job freed ++ after).map Event.call = dispatchCalls st kernel columns job) :
    Accounted st kernel columns
      (before ++ (⟨.jobConfig kernel (strelaConf columns), job, configured⟩ :: middle) ++
        freeEvents job freed ++ after) result := by
  refine ⟨settled_jobs job configured freed first second third _, status,
    fun ok => ⟨job, whole ok⟩, ?_⟩
  intro event member kernel' conf config
  have noConfig : ¬ NoJob event.call := by rw [config]; exact id
  simp only [List.mem_append, List.mem_cons, or_assoc] at member
  rcases member with early | rfl | inMiddle | inFree | late
  · exact absurd (first event early) noConfig
  · cases config
    exact ⟨rfl, rfl⟩
  · exact absurd (second event inMiddle) noConfig
  · unfold freeEvents at inFree
    split at inFree
    · obtain rfl := List.mem_singleton.mp inFree
      cases config
    · cases inFree
  · exact absurd (third event late) noConfig

end

/-- A dispatch with its columns resolved. -/
theorem dispatchColumns_run (st : SizeT) (kernel : StrelaKernel) (columns : List (Column × Column))
    {err : Option StrelaErr} {d' : Dev} {result : CResult Unit}
    (run : Run Step (dispatchColumns st kernel columns) ⟨err, []⟩ result d') :
    Accounted st kernel columns d'.trace result := by
  obtain ⟨flushed, d1, flushRun, run⟩ := (run_bind_iff _ _ _ _ _).mp run
  obtain ⟨⟨job, started⟩, d2, startRun, run⟩ := (run_bind_iff _ _ _ _ _).mp run
  obtain ⟨polled, d3, pollRun, run⟩ := (run_bind_iff _ _ _ _ _).mp run
  obtain ⟨freed, d4, freeRun, invalRun⟩ := (run_bind_iff _ _ _ _ _).mp run
  obtain ⟨before, first⟩ := flushColumns_run st columns flushRun
  have quiet := Quiet.of_prefix first.among (flushCalls_noJob st columns)
  cases flushed with
  | error stop =>
      -- `job` stays the invalid one, so nothing is polled, freed or invalidated
      obtain ⟨same, rfl⟩ := (run_ret_iff _ _ _ _).mp startRun
      obtain ⟨rfl, rfl⟩ := Prod.mk.inj same
      obtain ⟨rfl, rfl⟩ := (run_ret_iff _ _ _ _).mp pollRun
      obtain ⟨rfl, rfl⟩ := (run_ret_iff _ _ _ _).mp freeRun
      obtain ⟨rfl, rfl⟩ := (run_ret_iff _ _ _ _).mp invalRun
      exact .idle first quiet
  | ok _ =>
      obtain ⟨configured, submitted, waited, second⟩ := runJob_run kernel _ startRun
      obtain ⟨pollEvents, third, pollAmong⟩ := second.andThen pollRun fun run => by
        obtain ⟨state, err, poll⟩ := pollJob_run job run
        exact ⟨_, poll⟩
      have upto := first.append third
      have middle : Quiet ([⟨.jobSubmit job, (), submitted⟩, ⟨.jobWait job (-1), (), waited⟩] ++
          pollEvents) :=
        Quiet.append (by simp [Quiet, NoJob]) (Quiet.of_prefix pollAmong (by simp [NoJob]))
      obtain ⟨err, freeTrace, freeOk, freeFailed⟩ := freeJob_run job polled freeRun
      cases polled with
      | error stop =>
          have failed := freeFailed fun ok => nomatch ok
          cases freed with
          | ok _ => exact absurd rfl failed
          | error stop' =>
              obtain ⟨rfl, rfl⟩ := (run_ret_iff _ _ _ _).mp invalRun
              obtain ⟨event, member, bad⟩ := upto.onError fun ok => nomatch ok
              rw [freeTrace, upto.trace, ← List.append_nil (_ ++ freeEvents job err)]
              refine .ran quiet middle (by simp [Quiet]) ⟨fun ok => (nomatch ok), fun fine => ?_⟩
                fun ok => nomatch ok
              exact absurd (fine event (List.mem_append_left _ (List.mem_append_left _ member))) bad
      | ok _ =>
          obtain ⟨after, all, afterAmong⟩ :=
            (upto.append (freeOk rfl)).andThen invalRun (invalidateColumns_run st columns)
          have trace : d'.trace =
            before ++ (⟨.jobConfig kernel (strelaConf columns), job, configured⟩ ::
              ([⟨.jobSubmit job, (), submitted⟩, ⟨.jobWait job (-1), (), waited⟩] ++ pollEvents)) ++
                freeEvents job err ++ after := all.trace
          rw [trace]
          exact .ran quiet middle (Quiet.of_prefix afterAmong (invalidateCalls_noJob st columns))
            all.status_iff fun ok => (all.onOk ok).2

/-- The columns are those of the indices, in order. -/
theorem resolveColumns_ok (st : SizeT) (exportDef : ExportDef) (constants : ConstByteSpan)
    (bindings : List BufferRef) (indices : List Nat) (columns : List (Column × Column))
    (resolved : resolveColumns st exportDef.inputs exportDef.outputs constants bindings indices =
      .ok columns) :
    List.Forall₂ (fun c pair => ColumnResolves st exportDef constants bindings c pair.1 pair.2)
      indices columns := by
  induction indices generalizing columns with
  | nil =>
      cases resolved
      exact .nil
  | cons c rest ih =>
      simp only [resolveColumns, bind, Except.bind, pure, Except.pure] at resolved
      split at resolved
      · cases resolved
      rename_i inputDef inputFound
      split at resolved
      · cases resolved
      rename_i input inputResolved
      split at resolved
      · cases resolved
      rename_i outputDef outputFound
      split at resolved
      · cases resolved
      rename_i output outputResolved
      split at resolved
      · cases resolved
      rename_i others restResolved
      cases resolved
      exact .cons ⟨⟨inputDef, (vecAt_eq_ok _ _ _ _).mp inputFound, inputResolved⟩,
        ⟨outputDef, (vecAt_eq_ok _ _ _ _).mp outputFound, outputResolved⟩⟩ (ih others restResolved)

theorem resolveColumns_range (st : SizeT) (exportDef : ExportDef) (constants : ConstByteSpan)
    (bindings : List BufferRef) (columns : List (Column × Column))
    (resolved : resolveColumns st exportDef.inputs exportDef.outputs constants bindings
      (List.range columnCount) = .ok columns) :
    columns.length = columnCount ∧ ∀ c < columnCount, ∃ input output,
      columns[c]? = some (input, output) ∧
        ColumnResolves st exportDef constants bindings c input output := by
  have each := resolveColumns_ok st exportDef constants bindings _ columns resolved
  obtain ⟨length, get⟩ := List.forall₂_iff_get.mp each
  rw [List.length_range] at length
  refine ⟨length.symm, fun c inRange => ?_⟩
  have inside : c < columns.length := length ▸ inRange
  refine ⟨columns[c].1, columns[c].2, List.getElem?_eq_getElem inside, ?_⟩
  simpa using get c (by rwa [List.length_range]) inside

theorem strelaConf_programs (st : SizeT) (exportDef : ExportDef) (constants : ConstByteSpan)
    (bindings : List BufferRef) (columns : List (Column × Column))
    (resolved : resolveColumns st exportDef.inputs exportDef.outputs constants bindings
      (List.range columnCount) = .ok columns) :
    Programs st exportDef constants bindings (strelaConf columns) := by
  obtain ⟨length, each⟩ := resolveColumns_range st exportDef constants bindings columns resolved
  refine ⟨by simp [strelaConf, length], by simp [strelaConf, length], fun c inRange => ?_⟩
  obtain ⟨input, output, found, resolves⟩ := each c inRange
  exact ⟨input, output, resolves, by simp [strelaConf, found], by simp [strelaConf, found]⟩

/-- What stops the resolution is what one of the columns does. -/
theorem unresolved_of_error {exportDef : ExportDef} (verified : exportDef.Verified) (st : SizeT)
    (constants : ConstByteSpan) (bindings : List BufferRef) (stop : Stop)
    (stopped : resolveColumns st exportDef.inputs exportDef.outputs constants bindings
      (List.range columnCount) = .error stop) :
    Unresolved st exportDef constants bindings stop := by
  obtain ⟨before, column, isInput, after, split, _, failed⟩ :=
    (verified.resolveColumns_error st constants bindings stop).mp stopped
  have listed : (column, isInput) ∈ dispatchOrder exportDef := by
    rw [split]
    exact List.mem_append_right _ List.mem_cons_self
  obtain ⟨⟨input, output⟩, paired, here⟩ := List.mem_flatMap.mp listed
  obtain ⟨c, found⟩ := List.mem_iff_getElem?.mp paired
  obtain ⟨foundInput, foundOutput⟩ := List.getElem?_zip_eq_some.mp found
  have inRange : c < columnCount := by
    rw [← verified.inputs]
    exact (List.getElem?_eq_some_iff.mp foundInput).1
  simp only [List.mem_cons, Prod.mk.injEq, List.not_mem_nil, or_false] at here
  rcases here with ⟨rfl, rfl⟩ | ⟨rfl, rfl⟩
  · exact ⟨c, inRange, column, Or.inl ⟨foundInput, failed⟩⟩
  · exact ⟨c, inRange, column, Or.inr ⟨foundOutput, failed⟩⟩

theorem resolved_of_ok (st : SizeT) (exportDef : ExportDef) (constants : ConstByteSpan)
    (bindings : List BufferRef) (columns : List (Column × Column)) (stop : Stop)
    (resolved : resolveColumns st exportDef.inputs exportDef.outputs constants bindings
      (List.range columnCount) = .ok columns) :
    ¬ Unresolved st exportDef constants bindings stop := by
  obtain ⟨_, each⟩ := resolveColumns_range st exportDef constants bindings columns resolved
  rintro ⟨c, inRange, column, failed⟩
  obtain ⟨input, output, _, resolves⟩ := each c inRange
  obtain ⟨column', found, resolved⟩ := resolves.input
  obtain ⟨column'', found', resolved'⟩ := resolves.output
  rcases failed with ⟨here, failed⟩ | ⟨here, failed⟩
  · cases here.symm.trans found
    cases failed.symm.trans resolved
  · cases here.symm.trans found'
    cases failed.symm.trans resolved'

/-- A dispatch is refused before any call is made, or accounts for its job and
tells whether everything it asked for succeeded. -/
theorem commandBufferDispatch_accounts (st : SizeT) (data : ExecutableData)
    (executable : Executable) (function : BitVec 64) (constants : ConstByteSpan)
    (bindings : List BufferRef) (accepted : executableFlatbufferVerify data = .ok ())
    (holds : executable.Holds data) (err : Option StrelaErr) (result : CResult Unit) (d : Dev)
    (run : Run Step (commandBufferDispatch st executable function constants bindings) ⟨err, []⟩
      result d) :
    (executable.exports[function.toNat]? = none →
      result = makeStatus .outOfRange "no such STRELA function" ∧ d = ⟨err, []⟩) ∧
    ∀ export_, executable.exports[function.toNat]? = some export_ →
      ((∃ stop, Unresolved st export_.exportDef constants bindings stop) →
        d = ⟨err, []⟩ ∧
          ∃ stop, Unresolved st export_.exportDef constants bindings stop ∧ result = .error stop) ∧
      ((∀ stop, ¬ Unresolved st export_.exportDef constants bindings stop) →
        ∃ columns,
          resolveColumns st export_.exportDef.inputs export_.exportDef.outputs constants bindings
            (List.range columnCount) = .ok columns ∧
          Programs st export_.exportDef constants bindings (strelaConf columns) ∧
          Accounted st export_.kernel columns d.trace result) := by
  have verified := executableFlatbufferVerify_export data executable accepted holds
  unfold commandBufferDispatch at run
  split at run
  · rename_i missing
    obtain ⟨rfl, rfl⟩ := (run_ret_iff _ _ _ _).mp run
    refine ⟨fun _ => ⟨rfl, rfl⟩, fun export_ found => ?_⟩
    rw [missing] at found
    cases found
  · rename_i export_ found
    refine ⟨fun missing => ?_, fun export' found' => ?_⟩
    · rw [missing] at found
      cases found
    cases found.symm.trans found'
    split at run
    · rename_i stop stopped
      obtain ⟨rfl, rfl⟩ := (run_ret_iff _ _ _ _).mp run
      have unresolved := unresolved_of_error (verified _ (List.mem_of_getElem? found)) st constants
        bindings stop stopped
      exact ⟨fun _ => ⟨rfl, stop, unresolved, rfl⟩, fun none_ => absurd unresolved (none_ stop)⟩
    · rename_i columns resolved
      refine ⟨fun ⟨stop, unresolved⟩ => ?_, fun _ => ⟨columns, resolved, ?_, ?_⟩⟩
      · exact absurd unresolved (resolved_of_ok st _ constants bindings columns stop resolved)
      · exact strelaConf_programs st _ constants bindings columns resolved
      · exact dispatchColumns_run st _ columns run

/-- What a device answers on which nothing fails. -/
def granted : (c : Call) → c.Answer
  | .devOk => true
  | .devGetErr => StrelaErr.errnum 0
  | .devResetErr => ()
  | .bufferAlloc words => ({ valid := true, offsetWordsFromBase := 0, words } : StrelaBuffer)
  | .bufferFree _ => ()
  | .bufferToPtr _ => (0 : Nat)
  | .bufferFlush _ _ _ => ()
  | .bufferInval _ _ _ => ()
  | .kernelAlloc => ({ valid := true, handle := 0 } : StrelaKernel)
  | .kernelSet _ _ => ()
  | .kernelFree _ => ()
  | .jobConfig _ _ => ({ valid := true, handle := 1 } : StrelaJob)
  | .jobSubmit _ => ()
  | .jobWait _ _ => ()
  | .jobPoll _ => StrelaJobState.ok
  | .jobFree _ => ()
  | .malloc _ => (.ok 0x1000 : CResult Nat)
  | .free _ => ()

/-- The device on which nothing fails. -/
def granting (d : Dev) : (c : Call) → c.Answer × Dev
  | .devOk => (d.err.isNone, d)
  | .devGetErr => (d.err.getD (.errnum 0), d)
  | .devResetErr => ((), { d with err := none })
  | c => (granted c, { d with trace := d.trace ++ [⟨c, granted c, d.err⟩] })

theorem granting_allowed (d : Dev) (c : Call) : Step d c (granting d c).1 (granting d c).2 := by
  cases c
  case devOk => exact ⟨rfl, rfl⟩
  case devGetErr =>
    refine ⟨fun err pending => ?_, rfl⟩
    have same : d.err.getD (.errnum 0) = err := by rw [pending, Option.getD_some]
    exact same
  case devResetErr => exact rfl
  all_goals exact ⟨d.err, id, rfl⟩

theorem commandBufferDispatch_accounts_sample :
    ∃ d, Run Step (commandBufferDispatch .bits64 (oneExportExecutable (oneColumnExport 0 1 1 2)) 0
        (zeroConstants 8) [sampleRef]) ⟨none, []⟩ (.ok ()) d ∧
      Settled (jobs d.trace) ∧ ∀ event ∈ d.trace, event.Succeeded := by
  have run := Run.of_eval granting_allowed (commandBufferDispatch .bits64
    (oneExportExecutable (oneColumnExport 0 1 1 2)) 0 (zeroConstants 8) [sampleRef]) ⟨none, []⟩
  refine ⟨_, run, ?_⟩
  have accounts := (commandBufferDispatch_accounts .bits64 (oneExportData (oneColumnExport 0 1 1 2))
    (oneExportExecutable (oneColumnExport 0 1 1 2)) 0 (zeroConstants 8) [sampleRef] rfl rfl none _ _
    run).2 _ rfl
  obtain ⟨columns, _, _, accounted⟩ := accounts.2 fun stop =>
    resolved_of_ok .bits64 _ (zeroConstants 8) [sampleRef] _ stop rfl
  exact ⟨accounted.settled, accounted.status.mp rfl⟩

end Estela.Runtime.Jobs
