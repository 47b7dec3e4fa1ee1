import Estela.Runtime.StaleOutcomes

set_option autoImplicit false

/- Whole host programs whose dispatches may fail: after which of them the CPU
may read something stale. -/
namespace Estela.Runtime.StaleViews

open CallProgram WriteBack Coherence

/-- Line `l` is one of an output of the dispatch. -/
def OutputLine (st : SizeT) (executable : Executable) (function : BitVec 64)
    (constants : ConstByteSpan) (bindings : List BufferRef) (l : Nat) : Prop :=
  ∃ e columns, executable.exports[function.toNat]? = some e ∧
    resolveColumns st e.exportDef.inputs e.exportDef.outputs constants bindings
      (List.range columnCount) = .ok columns ∧ outputLines st columns l

/-- libstrela carried out an invalidation of line `l`, and every call of the dispatch
before it and its own flush had succeeded. -/
def Invalidated (b : Board) (l : Nat) : Prop :=
  ∃ r ∈ b.carried, r.covers l = true ∧ ∀ event ∈ r.before.dropLast, event.Succeeded

/-- Of `lines`, those whose memory may have changed were invalidated. -/
def Spared (lines : Nat → Prop) (b b' : Board) : Prop :=
  ∀ l, lines l → Behind b.machine b'.machine l → Invalidated b' l

/-- The board with no call of the dispatch made yet. -/
def Board.begun (b : Board) : Board :=
  { b with dev := { b.dev with trace := [] }, carried := [] }

section

variable {st : SizeT} {executable : Executable} {function : BitVec 64} {constants : ConstByteSpan}
  {bindings : List BufferRef} {b b' : Board} {result : CResult Unit} {l : Nat}

theorem covered_invalidated (begun : b = b.begun)
    (run : Run Step (commandBufferDispatch st executable function constants bindings) b result b')
    (covered : Covered b'.carried l) : Invalidated b' l := by
  obtain ⟨⟨err, trace⟩, machine, carried⟩ := b
  obtain ⟨rfl, rfl⟩ : trace = [] ∧ carried = [] := by
    simp only [Board.begun, Board.mk.injEq, Jobs.Dev.mk.injEq] at begun
    exact ⟨begun.1.2, begun.2.2⟩
  obtain ⟨r, member, covers⟩ := covered
  have recorded : Recorded b' :=
    run.keeps Recorded (fun _ _ _ _ before move => before.step move) (fun _ => nofun)
  obtain ⟨event, after, trace, dropping⟩ := recorded r member
  have ordered := commandBufferDispatch_ordered st executable function constants bindings
    (run.map Board.dev fun _ _ _ _ => And.left)
  exact ⟨r, member, covers, ordered _ _ _ trace dropping⟩

/-- Nothing that an invalidation was carried out of is stale. -/
theorem dispatch_notStale (idle : b.machine.running = none)
    (run : Run Step (commandBufferDispatch st executable function constants bindings) b.begun
      result b')
    (spared : Behind b.machine b'.machine l → Covered b'.carried l) : ¬ Stale b'.machine l := by
  intro stale
  have after := commandBufferDispatch_after st executable function constants bindings b.begun
    result b' ⟨⟨.refl _ b.machine, rfl⟩, idle⟩ run
  obtain ⟨behind, uncovered⟩ := current_iff_outdated.mp after.1.current l stale
  exact uncovered (spared behind)

end

/-! ### A dispatch that returns OK -/

section

variable {l : Nat}

theorem statusFromDev_covered (what : String) :
    Triple Step (fun b => b.dev.err = none → Covered b.carried l) (statusFromDev what)
      (fun status b => status = .ok () → Covered b.carried l) := by
  intro b status b' covered run ok
  have told := (Jobs.statusFromDev_run what _ _ _ (run.map Board.dev fun _ _ _ _ => And.left)).2
  obtain ⟨r, member, covers⟩ := covered (told.mp ok)
  exact ⟨r, (run_carried run).subset member, covers⟩

theorem invalidateColumn_covered (st : SizeT) (c : Column) (output : columnLines st c l) :
    Triple Step (fun _ => True) (forColumn (bufferInvalidateRange st) c)
      (fun status b => status = .ok () → Covered b.carried l) := by
  obtain ⟨buffer, used, reached⟩ := output
  unfold forColumn
  rw [used]
  refine Triple.call (Call.bufferFlush _ _ _) _ (fun _ _ => True) (fun _ _ _ _ _ => trivial)
    (fun _ => ?_)
  refine Triple.call (Call.bufferInval _ _ _) _
    (fun _ b => b.dev.err = none → Covered b.carried l) ?_ (fun _ => statusFromDev_covered _)
  rintro b answer b' - ⟨_, _, _, ⟨-, -, carries⟩ | ⟨failed, -⟩⟩ clear
  · rw [carries]
    exact ⟨_, List.mem_cons_self, reached⟩
  · exact absurd clear failed

theorem invalidateColumns_covered (st : SizeT) (columns : List (Column × Column))
    (output : outputLines st columns l) :
    Triple Step (fun _ => True) (invalidateColumns st columns)
      (fun status b => status = .ok () → Covered b.carried l) := by
  induction columns with
  | nil =>
      obtain ⟨c, member, -⟩ := output
      cases member
  | cons pair rest ih =>
      intro b status b' _ run ok
      obtain ⟨first, middle, columnRun, run⟩ := (run_bind_iff _ _ _ _ _).mp run
      cases first with
      | error stop =>
          obtain ⟨rfl, -⟩ := (run_ret_iff _ _ _ _).mp run
          cases ok
      | ok _ =>
          rcases (outputLines_cons st pair rest l).mp output with here | later
          · obtain ⟨r, member, covers⟩ :=
              invalidateColumn_covered st pair.2 here _ _ _ trivial columnRun rfl
            exact ⟨r, (run_carried run).subset member, covers⟩
          · exact ih later _ _ _ trivial run ok

/-- It has reached the invalidation of every output, so all of them are spared. -/
theorem commandBufferDispatch_spared (st : SizeT) (executable : Executable) (function : BitVec 64)
    (constants : ConstByteSpan) (bindings : List BufferRef) (b b' : Board)
    (run : Run Step (commandBufferDispatch st executable function constants bindings) b.begun
      (.ok ()) b') :
    Spared (OutputLine st executable function constants bindings) b b' := by
  rintro l ⟨e, columns, found, resolved, output⟩ -
  refine covered_invalidated rfl run ?_
  unfold commandBufferDispatch at run
  rw [found] at run
  simp only [resolved] at run
  obtain ⟨_, _, _, run⟩ := (run_bind_iff _ _ _ _ _).mp run
  obtain ⟨_, _, _, run⟩ := (run_bind_iff _ _ _ _ _).mp run
  obtain ⟨_, _, _, run⟩ := (run_bind_iff _ _ _ _ _).mp run
  obtain ⟨status, between, _, run⟩ := (run_bind_iff _ _ _ _ _).mp run
  cases status with
  | error stop => exact nomatch ((run_ret_iff _ _ _ _).mp run).1
  | ok _ => exact invalidateColumns_covered st columns output _ _ _ trivial run rfl

end

/-! ### Host programs -/

/-- The board and the buffers the host program holds. -/
structure Host where
  board : Board
  live : List HalStrelaBuffer

/-- One operation of the host program, whatever its outcome: a call on its own
stands for every function of the driver that submits no job. -/
inductive Op (st : SizeT) (allowed : (Nat → Prop) → Board → Board → Prop) : Host → Host → Prop
  | allocate {b b' : Board} {live : List HalStrelaBuffer} (size : BitVec 64)
      (buffer : HalStrelaBuffer)
      (run : Run Step (allocatorAllocateBuffer st size) b (.ok buffer) b') :
      Op st allowed ⟨b, live⟩ ⟨b', buffer :: live⟩
  | call {b b' : Board} {live : List HalStrelaBuffer} (c : Call) (answer : c.Answer)
      (passive : Passive c) (move : Step b c answer b') : Op st allowed ⟨b, live⟩ ⟨b', live⟩
  | cpuRead {b : Board} {between : Machine} {live : List HalStrelaBuffer} (w : Word)
      (meanwhile : Meanwhile b.machine between) :
      Op st allowed ⟨b, live⟩ ⟨{ b with machine := between.cpuRead w }, live⟩
  | cpuWrite {b : Board} {between : Machine} {live : List HalStrelaBuffer} (w : Word)
      (v : BitVec 32) (meanwhile : Meanwhile b.machine between) :
      Op st allowed ⟨b, live⟩ ⟨{ b with machine := between.cpuWrite w v }, live⟩
  | dispatch {b b' : Board} {live : List HalStrelaBuffer} (executable : Executable)
      (function : BitVec 64) (constants : ConstByteSpan) (bindings : List BufferRef)
      (result : CResult Unit)
      (fits : ∀ e, executable.exports[function.toNat]? = some e →
        Dispatchable st live e.exportDef constants bindings)
      (run : Run Step (commandBufferDispatch st executable function constants bindings) b.begun
        result b')
      (permitted : allowed (OutputLine st executable function constants bindings) b b') :
      Op st allowed ⟨b, live⟩ ⟨b', live⟩

def Ops (st : SizeT) (allowed : (Nat → Prop) → Board → Board → Prop) : Host → Host → Prop :=
  Relation.ReflTransGen (Op st allowed)

/-- Where a host program starts: no job, no buffer, nothing stale. -/
structure Clear (s : Host) : Prop where
  notStale : ∀ l, ¬ Stale s.board.machine l
  running : s.board.machine.running = none
  live : s.live = []

/-- No job runs, and nothing is stale. -/
structure Still (m : Machine) : Prop where
  running : m.running = none
  notStale : ∀ l, ¬ Stale m l

section

variable {st : SizeT} {allowed : (Nat → Prop) → Board → Board → Prop} {s s' : Host}
  {b b' : Board} {m m' : Machine}

theorem Still.current (still : Still m) : Current lineOf (fun _ => False) m.cache :=
  current_iff_outdated.mpr still.notStale

theorem Still.of_current (running : m.running = none)
    (current : Current lineOf (fun _ => False) m.cache) : Still m :=
  ⟨running, current_iff_outdated.mp current⟩

theorem Still.meanwhile (still : Still m) (moves : Meanwhile m m') : Still m' := by
  induction moves with
  | refl => exact still
  | tail _ move ih =>
      have current := ih.current
      cases move with
      | evict l => exact .of_current ih.running (current.evict l)
      | prefetch l => exact .of_current ih.running (current.prefetch l)
      | jobRead job conf w running column => exact .of_current ih.running current
      | jobWrite job conf w v running column =>
          rw [ih.running] at running
          cases running

theorem Still.step {c : Call} {answer : c.Answer} (passive : Passive c) (still : Still b.machine)
    (move : Step b c answer b') : Still b'.machine := by
  have running := move.idle passive still.running
  obtain ⟨_, between, moves, ⟨done, -⟩ | ⟨-, -, same, -⟩⟩ := move
  · have current := (still.meanwhile moves).current
    refine .of_current running ?_
    rcases (effect_touched c answer done).cache with
      ⟨-, same | ⟨selected, same⟩⟩ | ⟨buffer, offset, count, -, same⟩
    · exact same ▸ current
    · exact same ▸ current.flush selected
    · exact same ▸ (current.inval _).mono fun _ => And.left
  · exact same ▸ still.meanwhile moves

theorem Op.running (op : Op st allowed s s') (idle : s.board.machine.running = none) :
    s'.board.machine.running = none := by
  cases op with
  | allocate size buffer run =>
      have keeps : ∀ c, Buffering c → ∀ b answer b', b.machine.running = none →
          Step b c answer b' → b'.machine.running = none :=
        fun c buffering b answer b' idle move => move.idle (buffering_passive c buffering) idle
      exact Triple.of_calls (allocatorAllocateBuffer_calls st size) keeps _ _ _ idle run
  | call c answer passive move => exact move.idle passive idle
  | cpuRead w meanwhile => exact (meanwhile_running meanwhile).trans idle
  | cpuWrite w v meanwhile => exact (meanwhile_running meanwhile).trans idle
  | dispatch executable function constants bindings result fits run permitted =>
      exact (commandBufferDispatch_after st executable function constants bindings _ _ _
        ⟨⟨.refl _ _, rfl⟩, idle⟩ run).2

theorem Ops.running (ops : Ops st allowed s s') (idle : s.board.machine.running = none) :
    s'.board.machine.running = none := by
  induction ops with
  | refl => exact idle
  | tail _ op ih => exact op.running ih

/-- What holds between the operations of the host program. -/
structure HostInv (s : Host) : Prop where
  still : Still s.board.machine
  lined : ∀ buffer ∈ s.live, Lined buffer

theorem allocatorAllocateBuffer_still (st : SizeT) (size : BitVec 64) :
    Triple Step (fun b => Still b.machine) (allocatorAllocateBuffer st size)
      (fun result b => ∀ buffer, result = .ok buffer → Still b.machine ∧ Lined buffer) := by
  refine allocatorAllocateBuffer_lined st size (fun c allocating => ?_) ?_
  · refine Triple.call c _ (fun _ b => Still b.machine) ?_
      (fun answer => Triple.ret answer (fun _ still => still))
    exact fun _ _ _ still move => still.step (by cases c <;> trivial) move
  · rintro _ _ _ _ ⟨_, _, _, ⟨done, -⟩ | ⟨-, other, -⟩⟩
    · exact done.2
    · exact other.elim

/-- A job writes lines of its dispatch's outputs only. -/
theorem commandBufferDispatch_within (st : SizeT) (live : List HalStrelaBuffer)
    (lined : ∀ buffer ∈ live, Lined buffer) (executable : Executable) (function : BitVec 64)
    (constants : ConstByteSpan) (bindings : List BufferRef)
    (fits : ∀ e, executable.exports[function.toNat]? = some e →
      Dispatchable st live e.exportDef constants bindings) (start : Machine) :
    Triple Step
      (Within start (OutputLine st executable function constants bindings))
      (commandBufferDispatch st executable function constants bindings)
      (fun _ => Within start (OutputLine st executable function constants bindings)) := by
  unfold commandBufferDispatch
  split
  · exact Triple.ret _ (fun _ within => within)
  rename_i export_ found
  have ready := fits export_ found
  split
  · exact Triple.ret _ (fun _ within => within)
  rename_i columns resolved
  have linedRefs : ∀ ref ∈ bindings, ∀ base buffer, ref.buffer = some base →
      base.allocated = .strela buffer → Lined buffer :=
    fun ref member base buffer present strela =>
      lined buffer (ready.live ref member base buffer present strela)
  have output : OutputLine st executable function constants bindings = outputLines st columns := by
    funext l
    refine propext ⟨?_, fun here => ⟨export_, columns, found, resolved, here⟩⟩
    rintro ⟨e, columns', found', resolved', here⟩
    rw [found] at found'
    cases found'
    rw [resolved] at resolved'
    cases resolved'
    exact here
  rw [output]
  refine dispatchColumns_within st export_.kernel columns ?_
  intro pair member k step
  obtain ⟨column, known, from_⟩ := (resolveColumns_mem st _ _ _ _ _ _ resolved pair member).2
  exact columnLines_word st column false constants bindings pair.2 from_ ready.valid linedRefs
    (ready.outputs column known) k step

theorem HostInv.op (inv : HostInv s) (op : Op st Spared s s') : HostInv s' := by
  have running := op.running inv.still.running
  obtain ⟨still, lined⟩ := inv
  cases op with
  | allocate size buffer run =>
      obtain ⟨after, made⟩ := allocatorAllocateBuffer_still st size _ _ _ still run buffer rfl
      exact ⟨after, List.forall_mem_cons.mpr ⟨made, lined⟩⟩
  | call c answer passive move => exact ⟨still.step passive move, lined⟩
  | cpuRead w meanwhile =>
      have after := still.meanwhile meanwhile
      exact ⟨⟨after.running, after.notStale⟩, lined⟩
  | cpuWrite w v meanwhile =>
      have after := still.meanwhile meanwhile
      exact ⟨.of_current after.running (after.current.cachedWrite w v), lined⟩
  | @dispatch b b' live executable function constants bindings result fits run spared =>
      refine ⟨⟨running, fun l => ?_⟩, lined⟩
      refine dispatch_notStale still.running run fun behind => ?_
      have within := commandBufferDispatch_within st live lined executable function constants
        bindings fits b.machine b.begun result b' ⟨List.suffix_rfl, fun _ wrote =>
          absurd wrote (not_wrote rfl), fun _ _ busy => by
            rw [show b.begun.machine.running = none from still.running] at busy
            cases busy⟩ run
      have wrote := behind.resolve_left (still.notStale l)
      obtain ⟨r, member, covers, -⟩ := spared l (within.wrote l wrote) behind
      exact ⟨r, member, covers⟩

theorem HostInv.ops (inv : HostInv s) (ops : Ops st Spared s s') : HostInv s' := by
  induction ops with
  | refl => exact inv
  | tail _ op ih => exact ih.op op

end

end Estela.Runtime.StaleViews
