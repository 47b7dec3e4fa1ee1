import Estela.Lib.Streaming
import Estela.Runtime.Coherence
import Estela.Runtime.DriverCalls
import Estela.Runtime.KernelSlots

set_option autoImplicit false

/- What a dispatch does to the words of STRELA memory: the job streams columns
through the configuration of its kernel slot, while the driver waits. -/
namespace Estela.Runtime.KernelJobs

open CallProgram WriteBack Coherence
open Streaming (Plan)
open Relation (ReflTransGen)

/-- What leaves a column of the CGRA under a bitstream. -/
abbrev Fabric := List (BitVec 32) → Streaming.Fabric (BitVec 32) Nat Nat

/-- The words each column of a job goes through. -/
def plan (conf : StrelaConf) : Plan Word Nat Nat where
  reads i := match conf.inp[i]? with
    | some c => (List.range c.count).map fun k => c.offset + k * c.stride
    | none => []
  writes o := match conf.out[o]? with
    | some c => (List.range c.count).map fun k => c.offset + k
    | none => []

/-- The machine, the kernel slots, and how far the columns of the job are. -/
structure Board where
  machine : Machine
  slots : Slots.World
  program : Option (List (BitVec 32))
  got : Nat → List (BitVec 32)
  put : Nat → Nat

def Board.contents (init : Word → BitVec 32) (b : Board) : Word → BitVec 32 :=
  lastWrite init b.machine.log

def Board.stream (init : Word → BitVec 32) (b : Board) :
    Streaming.State Word (BitVec 32) Nat Nat where
  mem := b.contents init
  got := b.got
  put := b.put

def Board.read (b : Board) (i : Nat) (w : Word) : Board :=
  { b with
    machine := { b.machine with log := .read w (b.machine.cache.mem w) :: b.machine.log }
    got := Function.update b.got i (b.got i ++ [b.machine.cache.mem w]) }

def Board.write (b : Board) (o : Nat) (w : Word) (v : BitVec 32) : Board :=
  { b with
    machine := { b.machine with
      cache := memWrite b.machine.cache w v
      log := .write w v :: b.machine.log }
    put := Function.update b.put o (b.put o + 1) }

/-- What happens without a call. -/
inductive Move (fabric : Fabric) : Board → Board → Prop
  | evict (b : Board) (l : Nat) : Move fabric b
      { b with machine := { b.machine with cache := evict lineOf b.machine.cache l } }
  | prefetch (b : Board) (l : Nat) : Move fabric b
      { b with machine := { b.machine with cache := prefetch lineOf b.machine.cache l } }
  | read (b : Board) (job : StrelaJob) (conf : StrelaConf) (i : Nat) (w : Word)
      (running : b.machine.running = some (job, conf))
      (next : ((plan conf).reads i)[(b.got i).length]? = some w) : Move fabric b (b.read i w)
  | write (b : Board) (job : StrelaJob) (conf : StrelaConf) (bitstream : List (BitVec 32)) (o : Nat)
      (w : Word) (v : BitVec 32) (running : b.machine.running = some (job, conf))
      (programmed : b.program = some bitstream)
      (next : ((plan conf).writes o)[b.put o]? = some w)
      (emitted : fabric bitstream b.got o (b.put o) = some v) : Move fabric b (b.write o w v)

def Meanwhile (fabric : Fabric) : Board → Board → Prop := ReflTransGen (Move fabric)

/-- What a call means for the job. A configured job has the bitstream of its
kernel slot; a job that is reported as done has written all its words. -/
def Progress (b : Board) : (c : Call) → c.Answer → Board → Prop
  | .jobConfig kernel _, _, b' =>
      b'.program = b.slots.loaded kernel ∧ b'.got = (fun _ => []) ∧ b'.put = fun _ => 0
  | .jobPoll job, state, b' => (b'.program = b.program ∧ b'.got = b.got ∧ b'.put = b.put) ∧
      (state = StrelaJobState.ok → ∀ conf, b.machine.configured = some (job, conf) →
        (plan conf).Complete b.put)
  | _, _, b' => b'.program = b.program ∧ b'.got = b.got ∧ b'.put = b.put

def Step (fabric : Fabric) (b : Board) (c : Call) (answer : c.Answer) (b' : Board) : Prop :=
  ∃ between, Meanwhile fabric b between ∧ Effect between.machine c answer b'.machine ∧
    Slots.Step between.slots c answer b'.slots ∧ Progress between c answer b'

section

variable {fabric : Fabric} {b b' : Board}

theorem reads_of_plan {conf : StrelaConf} {i j : Nat} {w : Word}
    (there : ((plan conf).reads i)[j]? = some w) : Reads conf w := by
  simp only [plan] at there
  split at there
  · rename_i c found
    obtain ⟨k, inside, rfl⟩ := List.mem_map.mp (List.mem_of_getElem? there)
    exact ⟨c, List.mem_of_getElem? found, k, List.mem_range.mp inside, rfl⟩
  · cases there

theorem writes_of_plan {conf : StrelaConf} {o k : Nat} {w : Word}
    (there : ((plan conf).writes o)[k]? = some w) : Writes conf w := by
  simp only [plan] at there
  split at there
  · rename_i c found
    obtain ⟨k, inside, rfl⟩ := List.mem_map.mp (List.mem_of_getElem? there)
    exact ⟨c, List.mem_of_getElem? found, k, List.mem_range.mp inside, rfl⟩
  · cases there

theorem Move.background (move : Move fabric b b') : Background b.machine b'.machine := by
  cases move with
  | evict l => exact .evict _ l
  | prefetch l => exact .prefetch _ l
  | read job conf i w running next => exact .jobRead _ job conf w running (reads_of_plan next)
  | write job conf bitstream o w v running programmed next emitted =>
      exact .jobWrite _ job conf w v running (writes_of_plan next)

theorem Meanwhile.machine (moves : Meanwhile fabric b b') :
    Coherence.Meanwhile b.machine b'.machine := by
  induction moves with
  | refl => exact .refl
  | tail _ move ih => exact ih.tail move.background

/-- The kernel slots are the driver's alone. -/
theorem Meanwhile.slots (moves : Meanwhile fabric b b') : b'.slots = b.slots := by
  induction moves with
  | refl => rfl
  | tail _ move ih => cases move <;> exact ih

theorem Step.machine {c : Call} {answer : c.Answer} (step : Step fabric b c answer b') :
    Coherence.Step b.machine c answer b'.machine := by
  obtain ⟨between, moves, effect, -, -⟩ := step
  exact ⟨between.machine, moves.machine, effect⟩

theorem Step.slots {c : Call} {answer : c.Answer} (step : Step fabric b c answer b') :
    Slots.Step b.slots c answer b'.slots := by
  obtain ⟨between, moves, -, slots, -⟩ := step
  exact moves.slots ▸ slots

theorem run_machine {α : Type} {p : Driver α} {result : α} (run : Run (Step fabric) p b result b') :
    Run Coherence.Step p b.machine result b'.machine :=
  run.map Board.machine fun _ _ _ _ => Step.machine

theorem run_slots {α : Type} {p : Driver α} {result : α} (run : Run (Step fabric) p b result b') :
    Run Slots.Step p b.slots result b'.slots :=
  run.map Board.slots fun _ _ _ _ => Step.slots

end

/-- Calls that do not concern jobs, or end one that is over. -/
def Plain : Call → Prop
  | .jobConfig _ _ | .jobSubmit _ | .jobWait _ _ | .jobPoll _ => False
  | _ => True

/-- What a plain call leaves alone. -/
structure Untouched (b b' : Board) : Prop where
  log : b'.machine.log = b.machine.log
  configured : b'.machine.configured = b.machine.configured
  running : b'.machine.running = b.machine.running
  program : b'.program = b.program
  got : b'.got = b.got
  put : b'.put = b.put

theorem plain_untouched {b b' : Board} (c : Call) (answer : c.Answer) (plain : Plain c)
    (effect : Effect b.machine c answer b'.machine) (progress : Progress b c answer b') :
    Untouched b b' := by
  have same (unchanged : b'.machine = b.machine)
      (held : b'.program = b.program ∧ b'.got = b.got ∧ b'.put = b.put) : Untouched b b' :=
    ⟨by rw [unchanged], by rw [unchanged], by rw [unchanged], held.1, held.2.1, held.2.2⟩
  cases c
  case bufferAlloc words => exact same effect.1 progress
  case bufferFlush buffer offset count =>
    have changed : b'.machine = _ := effect
    exact ⟨by rw [changed], by rw [changed], by rw [changed], progress.1, progress.2.1,
      progress.2.2⟩
  case bufferInval buffer offset count =>
    have changed : b'.machine = _ := effect
    exact ⟨by rw [changed], by rw [changed], by rw [changed], progress.1, progress.2.1,
      progress.2.2⟩
  case jobConfig => exact plain.elim
  case jobSubmit => exact plain.elim
  case jobWait => exact plain.elim
  case jobPoll => exact plain.elim
  all_goals exact same effect progress

/-- No job runs, and memory holds `contents`, as far as the reads of jobs were
of what was written last. -/
structure Idle (init : Word → BitVec 32) (contents : (Word → BitVec 32) → Prop) (b : Board) :
    Prop where
  running : b.machine.running = none
  contents : ReadsLast init b.machine.log → contents (b.contents init)

/-- A job that started on `before` is on its way. -/
structure Busy (fabric : Fabric) (init before : Word → BitVec 32) (job : StrelaJob)
    (conf : StrelaConf) (bitstream : List (BitVec 32)) (b : Board) : Prop where
  configured : b.machine.configured = some (job, conf)
  running : b.machine.running = none ∨ b.machine.running = some (job, conf)
  program : b.program = some bitstream
  stream : ReadsLast init b.machine.log →
    Streaming.Inv (plan conf) (fabric bitstream) before (b.stream init)

/-- What the fabric and the columns of a job have to be for its interleavings
not to matter. -/
structure Streamable (fabric : Fabric) (bitstream : List (BitVec 32)) (plan : Plan Word Nat Nat) :
    Prop where
  steady : Streaming.Steady (fabric bitstream)
  apart : plan.Apart
  ordered : plan.Ordered (fabric bitstream)

section

variable {fabric : Fabric} {init before : Word → BitVec 32}
  {contents : (Word → BitVec 32) → Prop} {job : StrelaJob} {conf : StrelaConf}
  {bitstream : List (BitVec 32)} {b b' : Board}

theorem Idle.meanwhile (idle : Idle init contents b) (moves : Meanwhile fabric b b') :
    Idle init contents b' := by
  induction moves with
  | refl => exact idle
  | tail _ move ih =>
      cases move with
      | evict l => exact ⟨ih.running, ih.contents⟩
      | prefetch l => exact ⟨ih.running, ih.contents⟩
      | read job conf i w running next =>
          rw [ih.running] at running
          cases running
      | write job conf bitstream o w v running programmed next emitted =>
          rw [ih.running] at running
          cases running

theorem Idle.untouched (idle : Idle init contents b) (same : Untouched b b') :
    Idle init contents b' := by
  refine ⟨same.running.trans idle.running, ?_⟩
  rw [Board.contents, same.log]
  exact idle.contents

/-- Between two calls the job reads and writes as the plan has it. -/
theorem Busy.move (busy : Busy fabric init before job conf bitstream b)
    (streamable : Streamable fabric bitstream (plan conf)) (move : Move fabric b b') :
    Busy fabric init before job conf bitstream b' := by
  have current {job' : StrelaJob} {conf' : StrelaConf}
      (running : b.machine.running = some (job', conf')) : conf' = conf := by
    rcases busy.running with none_ | this
    · rw [none_] at running
      cases running
    · rw [this] at running
      cases running
      rfl
  cases move with
  | evict l => exact ⟨busy.configured, busy.running, busy.program, busy.stream⟩
  | prefetch l => exact ⟨busy.configured, busy.running, busy.program, busy.stream⟩
  | read job' conf' i w running next =>
      obtain rfl := current running
      refine ⟨busy.configured, busy.running, busy.program, ?_⟩
      rintro ⟨value, earlier⟩
      have moved :=
        (busy.stream earlier).read streamable.steady streamable.ordered i w next
      simpa [Board.stream, Board.contents, Board.read, Streaming.State.read, lastWrite,
        value] using moved
  | write job' conf' bitstream' o w v running programmed next emitted =>
      obtain rfl := current running
      rw [busy.program] at programmed
      cases programmed
      refine ⟨busy.configured, busy.running, busy.program, fun reads => ?_⟩
      exact (busy.stream reads).write streamable.apart o w v next emitted

theorem Busy.meanwhile (busy : Busy fabric init before job conf bitstream b)
    (streamable : Streamable fabric bitstream (plan conf)) (moves : Meanwhile fabric b b') :
    Busy fabric init before job conf bitstream b' := by
  induction moves with
  | refl => exact busy
  | tail _ move ih => exact ih.move streamable move

/-- A call that starts nothing but the job, and does not touch what it has done. -/
theorem Busy.kept (busy : Busy fabric init before job conf bitstream b)
    (log : b'.machine.log = b.machine.log)
    (configured : b'.machine.configured = b.machine.configured)
    (running : b'.machine.running = none ∨ b'.machine.running = some (job, conf))
    (progress : b'.program = b.program ∧ b'.got = b.got ∧ b'.put = b.put) :
    Busy fabric init before job conf bitstream b' := by
  obtain ⟨program, got, put⟩ := progress
  refine ⟨configured.trans busy.configured, running, program.trans busy.program, ?_⟩
  rw [Board.stream, Board.contents, log, got, put]
  exact busy.stream

theorem Busy.untouched (busy : Busy fabric init before job conf bitstream b)
    (same : Untouched b b') : Busy fabric init before job conf bitstream b' :=
  busy.kept same.log same.configured (same.running ▸ busy.running)
    ⟨same.program, same.got, same.put⟩

end

/-- Plain calls that leave what is loaded in the kernel slots. -/
def Driving : Call → Prop
  | .kernelAlloc | .kernelSet _ _ | .kernelFree _ => False
  | c => Plain c

theorem Driving.plain {c : Call} (driving : Driving c) : Plain c := by
  cases c <;> first | exact driving | exact driving.elim

theorem driving_of_syncing {c : Call} (syncing : Syncing c) : Driving c := by
  cases c <;> first | exact trivial | exact syncing.elim

theorem plain_of_syncing {c : Call} (syncing : Syncing c) : Plain c :=
  (driving_of_syncing syncing).plain

theorem driving_loaded {w w' : Slots.World} (c : Call) (answer : c.Answer) (driving : Driving c)
    (step : Slots.Step w c answer w') : w'.loaded = w.loaded := by
  cases c
  case devOk => rw [step.2]
  case devGetErr => rw [step.2]
  case devResetErr =>
    have same : w' = { w with err := none } := step
    rw [same]
  case kernelAlloc => exact driving.elim
  case kernelSet => exact driving.elim
  case kernelFree => exact driving.elim
  case malloc object =>
    cases answer with
    | ok address => rw [step.2]
    | error stop =>
        have same : w' = w := step
        rw [same]
  case free address =>
    have same : w' = { w with heap := w.heap.erase address } := step
    rw [same]
  all_goals
    obtain ⟨raised, same⟩ := step
    rw [same]

section

variable {fabric : Fabric} {init before : Word → BitVec 32}
  {contents : (Word → BitVec 32) → Prop} {job : StrelaJob} {conf : StrelaConf}
  {bitstream : List (BitVec 32)} {kernel : StrelaKernel}

/-- Plain calls disturb no memory while nothing runs. -/
theorem Idle.step {b b' : Board} (idle : Idle init contents b) (c : Call) (answer : c.Answer)
    (plain : Plain c) (step : Step fabric b c answer b') : Idle init contents b' := by
  obtain ⟨between, moves, effect, -, progress⟩ := step
  exact (idle.meanwhile moves).untouched (plain_untouched c answer plain effect progress)

theorem idle_calls {α : Type} {p : Driver α} (calls : p.Calls Plain) :
    Triple (Step fabric) (Idle init contents) p (fun _ => Idle init contents) :=
  Triple.of_calls calls fun c plain _ answer _ idle step => idle.step c answer plain step

theorem busy_calls {α : Type} {p : Driver α}
    (streamable : Streamable fabric bitstream (plan conf)) (calls : p.Calls Plain) :
    Triple (Step fabric) (Busy fabric init before job conf bitstream) p
      (fun _ => Busy fabric init before job conf bitstream) := by
  refine Triple.of_calls calls ?_
  rintro c plain b answer b' busy ⟨between, moves, effect, -, progress⟩
  exact (busy.meanwhile streamable moves).untouched
    (plain_untouched c answer plain effect progress)

/-- Nothing runs yet, and the slot of the kernel holds its bitstream. -/
def Ready (init before : Word → BitVec 32) (kernel : StrelaKernel) (bitstream : List (BitVec 32))
    (b : Board) : Prop :=
  Idle init (· = before) b ∧ b.slots.loaded kernel = some bitstream

theorem ready_calls {α : Type} {p : Driver α} (calls : p.Calls Driving) :
    Triple (Step fabric) (Ready init before kernel bitstream) p
      (fun _ => Ready init before kernel bitstream) := by
  refine Triple.of_calls calls ?_
  rintro c driving b answer b' ⟨idle, loaded⟩ step
  exact ⟨idle.step c answer driving.plain step,
    (driving_loaded c answer driving step.slots) ▸ loaded⟩

/-- The rule of a step that is only taken on OK. -/
theorem whileOk_done {between after : Board → Prop} {next : Driver (CResult Unit)}
    (status : CResult Unit)
    (tail : Triple (Step fabric) between next (fun status b => status = .ok () → after b)) :
    Triple (Step fabric) (fun b => status = .ok () → between b) (whileOk status next)
      (fun status b => status = .ok () → after b) := by
  cases status with
  | ok _ => exact Triple.pre _ (fun _ holds => holds rfl) tail
  | error stop => exact Triple.ret _ (fun _ _ failed => nomatch failed)

theorem whileOk_never {before : Board → Prop} {after : Board → Prop} {stop : Stop}
    {result : CResult Unit} (status : CResult Unit) (failed : result = .error stop) :
    Triple (Step fabric) before (whileOk status (pure result))
      (fun status b => status = .ok () → after b) := by
  subst failed
  cases status <;> exact Triple.ret _ (fun _ _ failed => nomatch failed)

/-- A job is configured with what its kernel slot holds, and runs at most from its
submission to the end of the wait. -/
theorem runJob_busy (streamable : Streamable fabric bitstream (plan conf)) :
    Triple (Step fabric) (Ready init before kernel bitstream) (runJob kernel conf)
      (fun started => Busy fabric init before started.1 conf bitstream) := by
  refine Triple.bind (fun job => Busy fabric init before job conf bitstream) ?_ (fun job => ?_)
  · refine Triple.call (Call.jobConfig kernel conf) _
      (fun job => Busy fabric init before job conf bitstream) ?_
      (fun job => Triple.ret job (fun _ busy => busy))
    rintro b job b' ⟨idle, loaded⟩ ⟨between, moves, effect, -, program, got, put⟩
    have still := idle.meanwhile moves
    have machine : b'.machine = { between.machine with configured := some (job, conf) } := effect
    refine ⟨by rw [machine], Or.inl (by rw [machine]; exact still.running),
      by rw [program, moves.slots, loaded], fun reads => ?_⟩
    have same : b'.contents init = before := by
      rw [machine] at reads
      rw [Board.contents, machine]
      exact still.contents reads
    rw [Board.stream, same, got, put]
    exact Streaming.Inv.start _ _ _
  refine Triple.bind (fun _ => Busy fabric init before job conf bitstream) ?_ (fun _ => ?_)
  · refine Triple.call (Call.jobSubmit job) _
      (fun _ => Busy fabric init before job conf bitstream) ?_
      (fun _ => Triple.ret _ (fun _ busy => busy))
    rintro b _ b' busy ⟨between, moves, effect, -, progress⟩
    have still := busy.meanwhile streamable moves
    rcases effect with same | ⟨conf', configured, same⟩
    · exact still.kept (by rw [same]) (by rw [same]) (same ▸ still.running) progress
    · rw [still.configured] at configured
      cases configured
      exact still.kept (by rw [same]) (by rw [same]) (Or.inr (by rw [same])) progress
  refine Triple.bind (fun _ => Busy fabric init before job conf bitstream) ?_ (fun _ => ?_)
  · refine Triple.call (Call.jobWait job (-1)) _
      (fun _ => Busy fabric init before job conf bitstream) ?_
      (fun _ => Triple.ret _ (fun _ busy => busy))
    rintro b _ b' busy ⟨between, moves, effect, -, progress⟩
    have still := busy.meanwhile streamable moves
    rcases effect with same | ⟨_, _, same⟩
    · exact still.kept (by rw [same]) (by rw [same]) (same ▸ still.running) progress
    · exact still.kept (by rw [same]) (by rw [same]) (Or.inl (by rw [same])) progress
  refine Triple.bind _ (busy_calls streamable ((statusFromDev_calls _).mono fun _ asking =>
    plain_of_syncing asking.syncing))
    (fun status => ?_)
  exact Triple.ret _ (fun _ busy => busy)

/-- The job is over, and has left what its fabric makes of `before`. -/
def Done (fabric : Fabric) (init before : Word → BitVec 32) (conf : StrelaConf)
    (bitstream : List (BitVec 32)) : Board → Prop :=
  Idle init (Streaming.Outcome (plan conf) (fabric bitstream) before)

theorem startJob_busy (streamable : Streamable fabric bitstream (plan conf))
    (status : CResult Unit) :
    Triple (Step fabric) (fun b => status = .ok () → Ready init before kernel bitstream b)
      (startJob kernel conf status)
      (fun started b => started.2 = .ok () →
        Busy fabric init before started.1 conf bitstream b) := by
  cases status with
  | error stop => exact Triple.ret _ (fun _ _ failed => nomatch failed)
  | ok _ =>
      refine Triple.pre _ (fun _ holds => holds rfl) ?_
      exact Triple.post _ (runJob_busy streamable) (fun _ _ busy _ => busy)

/-- On OK nothing is left to be read or written. -/
theorem pollJob_done (streamable : Streamable fabric bitstream (plan conf)) (job : StrelaJob) :
    Triple (Step fabric) (Busy fabric init before job conf bitstream) (pollJob job)
      (fun status b => status = .ok () → Done fabric init before conf bitstream b) := by
  refine Triple.bind (fun (state : StrelaJobState) b => state = .ok →
    Done fabric init before conf bitstream b) ?_ (fun state => ?_)
  · refine Triple.call (Call.jobPoll job) _ (fun (state : StrelaJobState) b => state = .ok →
      Done fabric init before conf bitstream b) ?_
        (fun state => Triple.ret state (fun _ done => done))
    rintro b (state : StrelaJobState) b' busy
      ⟨between, moves, ⟨same, ended⟩, -, ⟨-, -, -⟩, through⟩ ok
    have still := busy.meanwhile streamable moves
    refine ⟨?_, fun reads => ?_⟩
    · rw [same]
      exact still.running.resolve_right (ended ok conf)
    · rw [same] at reads
      rw [Board.contents, same]
      exact (still.stream reads).outcome streamable.steady (through ok conf still.configured)
  · cases state with
    | ok =>
        refine Triple.pre (Done fabric init before conf bitstream) (fun _ done => done rfl) ?_
        refine Triple.bind _ (idle_calls ((statusFromDev_calls _).mono fun _ asking =>
          plain_of_syncing asking.syncing))
          (fun status => ?_)
        exact Triple.pre _ (fun b done _ => done)
          (whileOk_done status (Triple.ret _ (fun _ done _ => done)))
    | pending =>
        refine Triple.bind (fun _ _ => True) (fun _ _ _ _ _ => trivial) (fun status => ?_)
        exact whileOk_never status rfl
    | failed =>
        refine Triple.bind (fun _ _ => True) (fun _ _ _ _ _ => trivial) (fun status => ?_)
        exact whileOk_never status rfl

theorem freeJob_done (job : StrelaJob) (status : CResult Unit) :
    Triple (Step fabric) (fun b => status = .ok () → Done fabric init before conf bitstream b)
      (freeJob job status)
      (fun status b => status = .ok () → Done fabric init before conf bitstream b) := by
  cases status with
  | ok _ =>
      refine Triple.pre _ (fun _ holds => holds rfl) ?_
      exact Triple.post _ (idle_calls (freeJob_calls job _ trivial fun _ asking =>
        plain_of_syncing asking.syncing))
        (fun _ _ done _ => done)
  | error stop =>
      unfold freeJob
      split
      · refine Triple.bind (fun _ _ => True) (fun _ _ _ _ _ => trivial) (fun _ => ?_)
        refine Triple.bind (fun _ _ => True) (fun _ _ _ _ _ => trivial) (fun _ => ?_)
        exact Triple.ret _ (fun _ _ failed => nomatch failed)
      · exact Triple.ret _ (fun _ _ failed => nomatch failed)

/-- A dispatch that returns OK leaves what the bitstream in its kernel slot makes of
the memory before it. -/
theorem dispatchColumns_done (st : SizeT) (columns : List (Column × Column))
    (streamable : Streamable fabric bitstream (plan (strelaConf columns))) :
    Triple (Step fabric) (Ready init before kernel bitstream) (dispatchColumns st kernel columns)
      (fun status b => status = .ok () →
        Done fabric init before (strelaConf columns) bitstream b) := by
  refine Triple.bind _ (ready_calls ((flushColumns_calls st columns).mono
    fun _ flushing => driving_of_syncing flushing.syncing)) (fun status => ?_)
  refine Triple.bind _ (Triple.pre _ (fun _ ready _ => ready) (startJob_busy streamable status))
    (fun started => ?_)
  refine Triple.bind _ (whileOk_done started.2 (pollJob_done streamable started.1))
    (fun status => ?_)
  refine Triple.bind _ (freeJob_done started.1 status) (fun status => ?_)
  refine whileOk_done status ?_
  exact Triple.post _ (idle_calls ((invalidateColumns_calls st columns).mono fun _ =>
    plain_of_syncing))
    (fun _ _ done _ => done)

end

end Estela.Runtime.KernelJobs
