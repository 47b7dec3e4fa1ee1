import Estela.Lib.Refinement
import Estela.Runtime.ExportPlan
import Estela.Runtime.SlotSessions

set_option autoImplicit false

/- What a host program sees of caches, jobs and kernel slots: a flat memory, and
executables whose dispatches happen at once. -/
namespace Estela.Runtime.FlatMemory

open CallProgram WriteBack Coherence KernelJobs Refinement

/-- What the program can tell of its operations. An executable goes by its address. -/
inductive Event
  | read (w : Word) (v : BitVec 32)
  | write (w : Word) (v : BitVec 32)
  | create (handle : Nat) (executableDef : ExecutableDef)
  | destroy (handle : Nat)
  | dispatch (handle : Nat) (function : BitVec 64) (constants : ConstByteSpan)
      (bindings : List BufferRef)

/-- A memory of words, and the executables there are. -/
structure Flat where
  contents : Word → BitVec 32
  executables : Nat → Option ExecutableDef

/-- Each operation at once: a dispatch leaves what the bitstream of the export makes of
the memory before it. -/
inductive FlatStep (fabric : Fabric) : Flat → Option Event → Flat → Prop
  | read (f : Flat) (w : Word) : FlatStep fabric f (some (.read w (f.contents w))) f
  | write (f : Flat) (w : Word) (v : BitVec 32) : FlatStep fabric f (some (.write w v))
      { f with contents := Function.update f.contents w v }
  | create (f : Flat) (handle : Nat) (executableDef : ExecutableDef)
      (fresh : f.executables handle = none) :
      FlatStep fabric f (some (.create handle executableDef))
      { f with executables := Function.update f.executables handle (some executableDef) }
  | destroy (f : Flat) (handle : Nat) (executableDef : ExecutableDef)
      (held : f.executables handle = some executableDef) :
      FlatStep fabric f (some (.destroy handle))
      { f with executables := Function.update f.executables handle none }
  | dispatch (f : Flat) (handle : Nat) (executableDef : ExecutableDef) (exportDef : ExportDef)
      (function : BitVec 64) (constants : ConstByteSpan) (bindings : List BufferRef)
      (after : Word → BitVec 32) (held : f.executables handle = some executableDef)
      (known : executableDef.exports[function.toNat]? = some (some exportDef))
      (outcome : Streaming.Outcome (exportPlan exportDef constants bindings)
        (fabric exportDef.bitstream) f.contents after) :
      FlatStep fabric f (some (.dispatch handle function constants bindings))
        { f with contents := after }

/-- The board, and what the program holds. -/
structure Session where
  board : Board
  executables : List Executable
  buffers : List HalStrelaBuffer

/-- Bindings as the HAL guarantees them, and columns that resolve without wrapping and
whose interleaving does not matter. -/
structure Sound (fabric : Fabric) (st : SizeT) (live : List HalStrelaBuffer) (exportDef : ExportDef)
    (constants : ConstByteSpan) (bindings : List BufferRef) : Prop where
  dispatchable : Dispatchable st live exportDef constants bindings
  streamable : Streamable fabric exportDef.bitstream (exportPlan exportDef constants bindings)

/-- The event of a creation, which a failed one does not show. -/
def createEvent (data : ExecutableData) : CResult Executable → Option Event
  | .ok executable => some (.create executable.address data.root)
  | .error _ => none

/-- One operation of the program on the board. A dispatch is refused before it makes any call,
or it is sound and returns OK; the others may fail anywhere. -/
inductive Op (fabric : Fabric) (st : SizeT) : Session → Option Event → Session → Prop
  | create {s : Session} (data : ExecutableData) (result : CResult Executable) (b : Board)
      (run : Run (Step fabric) (executableCreate data) s.board result b) :
      Op fabric st s (createEvent data result)
        ⟨b, Slots.executablesAfter s.executables result, s.buffers⟩
  | destroy {s : Session} (executable : Executable) (b : Board)
      (held : executable ∈ s.executables)
      (run : Run (Step fabric) (executableDestroy executable) s.board () b) :
      Op fabric st s (some (.destroy executable.address))
        ⟨b, s.executables.erase executable, s.buffers⟩
  | allocate {s : Session} (size : BitVec 64) (result : CResult HalStrelaBuffer) (b : Board)
      (run : Run (Step fabric) (allocatorAllocateBuffer st size) s.board result b) :
      Op fabric st s none ⟨b, s.executables, Slots.buffersAfter s.buffers result⟩
  | release {s : Session} (buffer : HalStrelaBuffer) (b : Board) (held : buffer ∈ s.buffers)
      (run : Run (Step fabric) (bufferDestroy buffer) s.board () b) :
      Op fabric st s none ⟨b, s.executables, s.buffers.erase buffer⟩
  | flushRange {s : Session} (buffer : HalStrelaBuffer) (offset length : BitVec 64)
      (result : CResult Unit) (b : Board) (held : buffer ∈ s.buffers)
      (run : Run (Step fabric) (bufferFlushRange st buffer offset length) s.board result b) :
      Op fabric st s none ⟨b, s.executables, s.buffers⟩
  | invalidateRange {s : Session} (buffer : HalStrelaBuffer) (offset length : BitVec 64)
      (result : CResult Unit) (b : Board) (held : buffer ∈ s.buffers)
      (run : Run (Step fabric) (bufferInvalidateRange st buffer offset length) s.board result b) :
      Op fabric st s none ⟨b, s.executables, s.buffers⟩
  | cpuRead {s : Session} (buffer : HalStrelaBuffer) (index : Nat) (b : Board)
      (held : buffer ∈ s.buffers) (mapped : 4 * index < buffer.allocationSize.toNat)
      (meanwhile : Meanwhile fabric s.board b) :
      Op fabric st s
        (some (.read (buffer.sBuf.offsetWordsFromBase + index)
          (view lineOf b.machine.cache (buffer.sBuf.offsetWordsFromBase + index))))
        ⟨{ b with machine := b.machine.cpuRead (buffer.sBuf.offsetWordsFromBase + index) },
          s.executables, s.buffers⟩
  | cpuWrite {s : Session} (buffer : HalStrelaBuffer) (index : Nat) (v : BitVec 32) (b : Board)
      (held : buffer ∈ s.buffers) (mapped : 4 * index < buffer.allocationSize.toNat)
      (meanwhile : Meanwhile fabric s.board b) :
      Op fabric st s (some (.write (buffer.sBuf.offsetWordsFromBase + index) v))
        ⟨{ b with machine := b.machine.cpuWrite (buffer.sBuf.offsetWordsFromBase + index) v },
          s.executables, s.buffers⟩
  | refuse {s : Session} (executable : Executable) (function : BitVec 64)
      (constants : ConstByteSpan) (bindings : List BufferRef) (stop : Stop)
      (refused : commandBufferDispatch st executable function constants bindings =
        .ret (.error stop)) : Op fabric st s none s
  | dispatch {s : Session} (executable : Executable) (function : BitVec 64)
      (constants : ConstByteSpan) (bindings : List BufferRef) (b : Board)
      (held : executable ∈ s.executables)
      (sound : ∀ e, executable.exports[function.toNat]? = some e →
        Sound fabric st s.buffers e.exportDef constants bindings)
      (run : Run (Step fabric) (commandBufferDispatch st executable function constants bindings)
        s.board (.ok ()) b) :
      Op fabric st s (some (.dispatch executable.address function constants bindings))
        ⟨b, s.executables, s.buffers⟩

/-- What the flat memory stands for. -/
structure Represents (init : Word → BitVec 32) (s : Session) (f : Flat) : Prop where
  machine : Inv init (fun _ => False) (fun _ => False) none s.board.machine
  lined : ∀ buffer ∈ s.buffers, Lined buffer
  kept : Slots.Kept s.executables s.buffers s.board.slots
  contents : s.board.contents init = f.contents
  executables : ∀ executable ∈ s.executables, ∃ executableDef,
    f.executables executable.address = some executableDef ∧
      executable.exports.map (fun export_ => some export_.exportDef) = executableDef.exports
  handles : ∀ handle, f.executables handle ≠ none →
    ∃ executable ∈ s.executables, executable.address = handle

/-- The rule of a dispatch. -/
theorem commandBufferDispatch_done {fabric : Fabric} {init before : Word → BitVec 32} (st : SizeT)
    (live : List HalStrelaBuffer) (executable : Executable) (function : BitVec 64)
    (constants : ConstByteSpan) (bindings : List BufferRef) (export_ : Export)
    (known : executable.exports[function.toNat]? = some export_)
    (sound : Sound fabric st live export_.exportDef constants bindings) :
    Triple (Step fabric) (Ready init before export_.kernel export_.exportDef.bitstream)
      (commandBufferDispatch st executable function constants bindings)
      (fun status b => status = .ok () →
        Idle init (Streaming.Outcome (exportPlan export_.exportDef constants bindings)
          (fabric export_.exportDef.bitstream) before) b) := by
  unfold commandBufferDispatch
  rw [known]
  dsimp only
  split
  · exact Triple.ret _ (fun _ _ failed => nomatch failed)
  rename_i columns resolved
  have same := plan_strelaConf st export_.exportDef constants bindings columns resolved
    sound.dispatchable.valid sound.dispatchable.inputs sound.dispatchable.outputs
  have streamable := sound.streamable
  rw [← same] at streamable ⊢
  exact dispatchColumns_done st columns streamable

section

variable {fabric : Fabric} {st : SizeT} {init : Word → BitVec 32} {s : Session} {f : Flat}

/-- Calls that leave cache and jobs alone keep what holds of the machine. -/
theorem machine_calls {α : Type} {p : Driver α} {allowed : Call → Prop} {b : Board} {result : α}
    (calls : p.Calls allowed)
    (passive : ∀ c, allowed c → ∀ m answer m', Effect m c answer m' → m' = m)
    (machine : Inv init (fun _ => False) (fun _ => False) none s.board.machine)
    (run : Run (Step fabric) p s.board result b) :
    Inv init (fun _ => False) (fun _ => False) none b.machine := by
  refine Triple.of_calls calls ?_ _ _ _ machine (run_machine run)
  rintro c fits m answer m' inv ⟨between, moves, effect⟩
  exact passive c fits _ _ _ effect ▸ inv.meanwhile moves

theorem loading_passive (c : Call) (loading : Loading c) (m : Machine) (answer : c.Answer)
    (m' : Machine) (effect : Effect m c answer m') : m' = m := by
  cases c <;> first | exact effect | exact loading.elim

theorem buffering_passive (c : Call) (buffering : Buffering c) (m : Machine) (answer : c.Answer)
    (m' : Machine) (effect : Effect m c answer m') : m' = m := by
  cases c <;> first | exact effect | exact effect.1 | exact buffering.elim

theorem plain_of_loading {c : Call} (loading : Loading c) : Plain c := by
  cases c <;> first | exact trivial | exact loading.elim

theorem plain_of_buffering {c : Call} (buffering : Buffering c) : Plain c := by
  cases c <;> first | exact trivial | exact buffering.elim

/-- Memory is the same after calls that do not concern jobs. -/
theorem Represents.contents_calls {α : Type} {p : Driver α} {b : Board} {result : α}
    (represents : Represents init s f) (calls : p.Calls Plain)
    (run : Run (Step fabric) p s.board result b)
    (machine : Inv init (fun _ => False) (fun _ => False) none b.machine) :
    b.contents init = f.contents := by
  have idle : Idle init (· = f.contents) s.board :=
    ⟨represents.machine.running.elim id id, fun _ => represents.contents⟩
  exact (idle_calls calls _ _ _ idle run).contents machine.reads

/-- What the host finds in memory. -/
theorem Represents.view (represents : Represents init s f) :
    view lineOf s.board.machine.cache = s.board.contents init := by
  funext w
  exact represents.machine.coherent.cache w id

/-- The slots of the kernels hold the bitstreams, whatever the program did before. -/
theorem Represents.ready (represents : Represents init s f) {executable : Executable}
    (held : executable ∈ s.executables) {export_ : Export} (among : export_ ∈ executable.exports) :
    Ready init f.contents export_.kernel export_.exportDef.bitstream s.board :=
  ⟨⟨represents.machine.running.elim id id, fun _ => represents.contents⟩,
    (represents.kept.loaded executable held export_ among).2⟩

/-- No two executables share a handle. -/
theorem Represents.address_ne (represents : Represents init s f) {executable other : Executable}
    (held : executable ∈ s.executables) (member : other ∈ s.executables.erase executable) :
    other.address ≠ executable.address := by
  have there : other.address ∈ Slots.addressesOf (s.executables.erase executable) s.buffers :=
    List.mem_append_left _ (List.mem_map_of_mem member)
  exact ((Slots.addressesOf_erase held represents.kept.allocations _).mp there).1

/-- An operation that changes neither memory nor executables. -/
theorem Represents.silent {b : Board} {buffers : List HalStrelaBuffer}
    (represents : Represents init s f)
    (machine : Inv init (fun _ => False) (fun _ => False) none b.machine)
    (lined : ∀ buffer ∈ buffers, Lined buffer)
    (kept : Slots.Kept s.executables buffers b.slots) (contents : b.contents init = f.contents) :
    ∃ f', Trace (FlatStep fabric) f (none : Option Event).toList f' ∧
      Represents init ⟨b, s.executables, buffers⟩ f' :=
  ⟨f, .nil f, machine, lined, kept, contents, represents.executables, represents.handles⟩

theorem Represents.create (represents : Represents init s f) {data : ExecutableData}
    {result : CResult Executable} {b : Board}
    (run : Run (Step fabric) (executableCreate data) s.board result b) :
    ∃ f', Trace (FlatStep fabric) f (createEvent data result).toList f' ∧
      Represents init ⟨b, Slots.executablesAfter s.executables result, s.buffers⟩ f' := by
  have machine := machine_calls (executableCreate_calls data) loading_passive represents.machine run
  have kept := represents.kept.create (run_slots run)
  have contents := represents.contents_calls
    ((executableCreate_calls data).mono fun _ => plain_of_loading) run machine
  cases result with
  | error stop => exact represents.silent machine represents.lined kept contents
  | ok executable =>
      have apart : executable.address ∉ Slots.addressesOf s.executables s.buffers :=
        (List.nodup_cons.mp kept.allocations).1
      have different : ∀ other ∈ s.executables, other.address ≠ executable.address :=
        fun other member same => apart
          (List.mem_append_left _ (List.mem_map.mpr ⟨other, member, same⟩))
      have fresh : f.executables executable.address = none := by
        by_contra taken
        obtain ⟨other, member, same⟩ := represents.handles _ taken
        exact different other member same
      have holds := executableCreate_defs data _ _ _ trivial run executable rfl
      refine ⟨_, .one (.create f executable.address data.root fresh), machine, represents.lined,
        kept, contents, fun other member => ?_, fun handle taken => ?_⟩
      · rcases List.mem_cons.mp member with rfl | old
        · exact ⟨data.root, by simp, holds⟩
        · obtain ⟨executableDef, known, same⟩ := represents.executables other old
          exact ⟨executableDef, by simpa [different other old] using known, same⟩
      · by_cases new : handle = executable.address
        · exact ⟨executable, List.mem_cons_self, new.symm⟩
        · obtain ⟨other, member, same⟩ := represents.handles handle (by simpa [new] using taken)
          exact ⟨other, List.mem_cons_of_mem _ member, same⟩

theorem Represents.destroy (represents : Represents init s f) {executable : Executable} {b : Board}
    (held : executable ∈ s.executables)
    (run : Run (Step fabric) (executableDestroy executable) s.board () b) :
    ∃ f', Trace (FlatStep fabric) f [Event.destroy executable.address] f' ∧
      Represents init ⟨b, s.executables.erase executable, s.buffers⟩ f' := by
  have calls := executableDestroy_calls executable
  have machine := machine_calls calls loading_passive represents.machine run
  have contents := represents.contents_calls (calls.mono fun _ => plain_of_loading) run machine
  obtain ⟨executableDef, known, -⟩ := represents.executables executable held
  refine ⟨_, .visible _ (.destroy f executable.address executableDef known) (.nil _), machine,
    represents.lined, represents.kept.destroy held (run_slots run), contents,
    fun other member => ?_, fun handle taken => ?_⟩
  · obtain ⟨otherDef, there, same⟩ :=
      represents.executables other (List.mem_of_mem_erase member)
    exact ⟨otherDef, by simpa [represents.address_ne held member] using there, same⟩
  · by_cases gone : handle = executable.address
    · simp [gone] at taken
    · obtain ⟨other, member, same⟩ := represents.handles handle (by simpa [gone] using taken)
      have kept : other ∈ s.executables.erase executable := by
        refine (List.mem_erase_of_ne ?_).mpr member
        rintro rfl
        exact gone same.symm
      exact ⟨other, kept, same⟩

theorem Represents.allocate (represents : Represents init s f) {size : BitVec 64}
    {result : CResult HalStrelaBuffer} {b : Board}
    (run : Run (Step fabric) (allocatorAllocateBuffer st size) s.board result b) :
    ∃ f', Trace (FlatStep fabric) f (none : Option Event).toList f' ∧
      Represents init ⟨b, s.executables, Slots.buffersAfter s.buffers result⟩ f' := by
  have calls := allocatorAllocateBuffer_calls st size
  have machine := machine_calls calls buffering_passive represents.machine run
  have contents := represents.contents_calls (calls.mono fun _ => plain_of_buffering) run machine
  have kept := represents.kept.allocate (run_slots run)
  cases result with
  | error stop => exact represents.silent machine represents.lined kept contents
  | ok buffer =>
      obtain ⟨_, made⟩ := allocatorAllocateBuffer_lined st size allocating_triple
        (fun _ _ _ _ ⟨_, _, _, start, words⟩ => ⟨start, words⟩) _ _ _ represents.machine
        (run_machine run) buffer rfl
      exact represents.silent machine (List.forall_mem_cons.mpr ⟨made, represents.lined⟩) kept
        contents

theorem Represents.release (represents : Represents init s f) {buffer : HalStrelaBuffer} {b : Board}
    (held : buffer ∈ s.buffers) (run : Run (Step fabric) (bufferDestroy buffer) s.board () b) :
    ∃ f', Trace (FlatStep fabric) f (none : Option Event).toList f' ∧
      Represents init ⟨b, s.executables, s.buffers.erase buffer⟩ f' := by
  have calls := bufferDestroy_calls buffer
  have machine := machine_calls calls buffering_passive represents.machine run
  exact represents.silent machine
    (fun other member => represents.lined other (List.mem_of_mem_erase member))
    (represents.kept.release held (run_slots run))
    (represents.contents_calls (calls.mono fun _ => plain_of_buffering) run machine)

/-- Syncs move no word that counts. -/
theorem Represents.sync (represents : Represents init s f) {p : Driver (CResult Unit)}
    {result : CResult Unit} {b : Board} (calls : p.Calls Syncing)
    (machine : Inv init (fun _ => False) (fun _ => False) none b.machine)
    (run : Run (Step fabric) p s.board result b) :
    ∃ f', Trace (FlatStep fabric) f (none : Option Event).toList f' ∧
      Represents init ⟨b, s.executables, s.buffers⟩ f' :=
  represents.silent machine represents.lined
    (represents.kept.same (Slots.passing_run (calls.mono fun _ syncing =>
      Slots.passing_of_dispatching syncing.dispatching) (run_slots run)))
    (represents.contents_calls (calls.mono fun _ => plain_of_syncing) run machine)

theorem Represents.flushRange (represents : Represents init s f) {buffer : HalStrelaBuffer}
    {offset length : BitVec 64} {result : CResult Unit} {b : Board}
    (run : Run (Step fabric) (bufferFlushRange st buffer offset length) s.board result b) :
    ∃ f', Trace (FlatStep fabric) f (none : Option Event).toList f' ∧
      Represents init ⟨b, s.executables, s.buffers⟩ f' := by
  have after := bufferFlushRange_triple st buffer offset length _ _ _ represents.machine
    (run_machine run)
  exact represents.sync ((bufferFlushRange_calls st buffer offset length).mono fun _ =>
    Flushing.syncing)
    (after.mono (fun _ => Or.inl) (fun _ => id) (fun _ => id)) run

theorem Represents.invalidateRange (represents : Represents init s f) {buffer : HalStrelaBuffer}
    {offset length : BitVec 64} {result : CResult Unit} {b : Board}
    (run : Run (Step fabric) (bufferInvalidateRange st buffer offset length) s.board result b) :
    ∃ f', Trace (FlatStep fabric) f (none : Option Event).toList f' ∧
      Represents init ⟨b, s.executables, s.buffers⟩ f' := by
  have after := bufferInvalidateRange_triple st buffer offset length _ _ _ represents.machine
    (run_machine run)
  exact represents.sync (bufferInvalidateRange_calls st buffer offset length)
    (after.mono (fun _ => Or.inl) (fun _ => And.left) (fun _ => id)) run

theorem Represents.meanwhile (represents : Represents init s f) {b : Board}
    (moves : Meanwhile fabric s.board b) :
    Represents init ⟨b, s.executables, s.buffers⟩ f := by
  have machine := represents.machine.meanwhile moves.machine
  have idle : Idle init (· = f.contents) s.board :=
    ⟨represents.machine.running.elim id id, fun _ => represents.contents⟩
  exact ⟨machine, represents.lined, moves.slots ▸ represents.kept,
    (idle.meanwhile moves).contents machine.reads, represents.executables, represents.handles⟩

theorem Represents.dispatch (represents : Represents init s f) {executable : Executable}
    {function : BitVec 64} {constants : ConstByteSpan} {bindings : List BufferRef} {b : Board}
    (held : executable ∈ s.executables)
    (sound : ∀ e, executable.exports[function.toNat]? = some e →
      Sound fabric st s.buffers e.exportDef constants bindings)
    (run : Run (Step fabric) (commandBufferDispatch st executable function constants bindings)
      s.board (.ok ()) b) :
    ∃ f', Trace (FlatStep fabric) f
        [Event.dispatch executable.address function constants bindings] f' ∧
      Represents init ⟨b, s.executables, s.buffers⟩ f' := by
  have machine := commandBufferDispatch_triple st s.buffers represents.lined executable function
    constants bindings (fun e known => (sound e known).dispatchable) _ _ _ represents.machine
    (run_machine run) rfl
  have calls := commandBufferDispatch_calls st executable function constants bindings
  have kept := represents.kept.same (Slots.passing_run
    (calls.mono fun _ => Slots.passing_of_dispatching) (run_slots run))
  cases known : executable.exports[function.toNat]? with
  | none =>
      unfold commandBufferDispatch at run
      rw [known] at run
      cases ((run_ret_iff _ _ _ _).mp run).1
  | some export_ =>
      have among := List.mem_of_getElem? known
      have done := commandBufferDispatch_done st s.buffers executable function constants bindings
        export_ known (sound export_ known) _ _ _ (represents.ready held among) run rfl
      obtain ⟨executableDef, handle, exports⟩ := represents.executables executable held
      have there : executableDef.exports[function.toNat]? = some (some export_.exportDef) := by
        rw [← exports, List.getElem?_map, known]
        rfl
      have move := FlatStep.dispatch f _ _ _ function constants bindings _ handle there
        (done.contents machine.reads)
      exact ⟨_, .visible _ move (.nil _), machine, represents.lined, kept, rfl,
        represents.executables, represents.handles⟩

end

/-- Each operation on the board is one of the flat memory. -/
theorem simulates (fabric : Fabric) (st : SizeT) (init : Word → BitVec 32) :
    Simulation (Op fabric st) (FlatStep fabric) (Represents init) := by
  intro s label s' f represents op
  cases op with
  | create data result b run => exact represents.create run
  | destroy executable b held run => exact represents.destroy held run
  | allocate size result b run => exact represents.allocate run
  | release buffer b held run => exact represents.release held run
  | flushRange buffer offset length result b held run => exact represents.flushRange run
  | invalidateRange buffer offset length result b held run => exact represents.invalidateRange run
  | cpuRead buffer index b held mapped meanwhile =>
      have now := represents.meanwhile meanwhile
      have value : view lineOf b.machine.cache (buffer.sBuf.offsetWordsFromBase + index) =
          f.contents (buffer.sBuf.offsetWordsFromBase + index) := by
        rw [now.machine.coherent.cache _ id, ← now.contents]
        rfl
      rw [value]
      exact ⟨f, .one (.read f _), now.machine.cpuRead _, now.lined, now.kept, now.contents,
        now.executables, now.handles⟩
  | cpuWrite buffer index v b held mapped meanwhile =>
      have now := represents.meanwhile meanwhile
      refine ⟨_, .one (.write f _ v), now.machine.cpuWrite _ v, now.lined, now.kept, ?_,
        now.executables, now.handles⟩
      rw [← now.contents]
      rfl
  | refuse => exact ⟨f, .nil f, represents⟩
  | dispatch executable function constants bindings b held sound run =>
      exact represents.dispatch held sound run

/-- Where a program starts: a cache over a memory, none of its lines behind it, and
nothing handed out. -/
structure Fresh (init : Word → BitVec 32) (s : Session) : Prop where
  coherent : Coherent lineOf (fun _ => False) (fun _ => False) init s.board.machine.cache
  log : s.board.machine.log = []
  running : s.board.machine.running = none
  slots : s.board.slots.live = []
  heap : s.board.slots.heap = []
  executables : s.executables = []
  buffers : s.buffers = []

theorem Fresh.represents {init : Word → BitVec 32} {s : Session} (fresh : Fresh init s) :
    Represents init s ⟨init, fun _ => none⟩ := by
  obtain ⟨coherent, log, running, slots, heap, executables, buffers⟩ := fresh
  refine ⟨⟨?_, ?_, Or.inl running, fun _ _ idle => nomatch idle⟩, ?_, ?_, ?_, ?_, ?_⟩
  · rw [log]
    exact coherent
  · rw [log]
    trivial
  · rw [buffers]
    exact fun _ member => absurd member List.not_mem_nil
  · rw [executables, buffers]
    exact .nothing slots heap
  · rw [Board.contents, log]
    rfl
  · rw [executables]
    exact fun _ member => absurd member List.not_mem_nil
  · exact fun _ taken => absurd rfl taken

/-- What a program sees of a run, whatever caches do on their own and however jobs
interleave their columns: a flat memory on which its dispatches happen at once. -/
theorem runs_refine_flat (fabric : Fabric) (st : SizeT) (init : Word → BitVec 32) (s s' : Session)
    (fresh : Fresh init s) (events : List Event) (run : Trace (Op fabric st) s events s') :
    ∃ f, Trace (FlatStep fabric) ⟨init, fun _ => none⟩ events f ∧
      s'.board.contents init = f.contents := by
  obtain ⟨f, upper, represents⟩ := (simulates fabric st init).trace run fresh.represents
  exact ⟨f, upper, represents.contents⟩

/-- What comes in by a column goes out by the same one, plus 1. -/
def incrementFabric : Fabric := fun _ got o k => ((got o)[k]?).map (· + 1)

def incrementDef : ExportDef where
  name := some "increment"
  bitstream := List.replicate strelaKernelSize 0
  inputs := ⟨0, 0, [], 1, 1⟩ :: List.replicate 3 ⟨0, 0, [], 0, 0⟩
  outputs := ⟨0, 4, [], 1, 0⟩ :: List.replicate 3 ⟨0, 0, [], 0, 0⟩
  constantCount := 0
  bindingCount := 1

/-- An executable of one export. -/
def singleData (exportDef : ExportDef) : ExecutableData where
  header := .ok ()
  verifyAsRoot := none
  root := { exports := [some exportDef] }
  flatbufferLength := 512

def singleExecutable (exportDef : ExportDef) : Executable where
  exports := [⟨exportDef, ⟨true, 0⟩⟩]
  address := 0x2000

def sampleSession : Session where
  board := {
    machine := sampleStart.machine
    slots := Slots.emptyWorld
    program := none
    got := fun _ => []
    put := fun _ => 0 }
  executables := []
  buffers := []

/-- A call during which nothing else happens. -/
theorem quiet_step {fabric : Fabric} {b : Board} {c : Call} {answer : c.Answer} {m : Machine}
    {w : Slots.World} {program : Option (List (BitVec 32))} {got : Nat → List (BitVec 32)}
    {put : Nat → Nat} (effect : Effect b.machine c answer m) (slots : Slots.Step b.slots c answer w)
    (progress : Progress b c answer ⟨m, w, program, got, put⟩) :
    Step fabric b c answer ⟨m, w, program, got, put⟩ := ⟨b, .refl, effect, slots, progress⟩

theorem incrementPlan :
    exportPlan incrementDef ⟨[]⟩ [sampleRef] =
      ⟨fun i => if i = 0 then [32] else [], fun o => if o = 0 then [33] else []⟩ := by
  unfold exportPlan
  congr 1 <;>
  · funext i
    rcases i with _ | _ | _ | _ | i <;> simp [incrementDef, columnCount]
    all_goals decide

theorem incrementSound :
    Sound incrementFabric .bits32 [sampleAllocated] incrementDef ⟨[]⟩ [sampleRef] := by
  refine ⟨⟨?_, ?_, ?_, ?_⟩, ⟨?_, ?_, ?_⟩⟩
  · simpa using sampleRef_valid .bits32
  · intro ref member base buffer present strela
    cases List.mem_singleton.mp member
    cases present
    cases strela
    exact List.mem_cons_self
  · unfold Fits NoWrap
    decide
  · unfold Fits NoWrap
    decide
  · intro got got' o k v more emitted
    obtain ⟨x, here, rfl⟩ := Option.map_eq_some_iff.mp emitted
    obtain ⟨rest, whole⟩ := more o
    have inside := (List.getElem?_eq_some_iff.mp here).1
    simp only [incrementFabric, ← whole, List.getElem?_append_left inside, here, Option.map_some]
  · rw [incrementPlan]
    intro o k o' k' w there there'
    dsimp only at there there'
    split at there <;> split at there'
    · have first := (List.getElem?_eq_some_iff.mp there).1
      have second := (List.getElem?_eq_some_iff.mp there').1
      simp at first second
      omega
    all_goals simp_all
  · rw [incrementPlan]
    intro i j o k w input output
    have reads := List.mem_of_getElem? input
    have writes := List.mem_of_getElem? output
    dsimp only at reads writes
    split at reads <;> split at writes <;> simp_all

/-- The board with the executable on it, and what else there is. -/
def singleBoard (exportDef : ExportDef) (heap : List Nat) : Board :=
  { sampleSession.board with slots := {
      err := none
      live := [⟨true, 0⟩]
      loaded := fun kernel => if kernel = ⟨true, 0⟩ then some exportDef.bitstream else none
      heap
      obtained := [⟨true, 0⟩]
      freed := [] } }

theorem single_created (fabric : Fabric) (exportDef : ExportDef)
    (verified : executableFlatbufferVerify (singleData exportDef) = .ok ()) :
    Run (Step fabric) (executableCreate (singleData exportDef)) sampleSession.board
      (.ok (singleExecutable exportDef)) (singleBoard exportDef [0x2000]) := by
  simp only [executableCreate, verified]
  refine .call (.ok 0x2000 : CResult Nat)
    (quiet_step rfl ⟨List.not_mem_nil, rfl⟩ ⟨rfl, rfl, rfl⟩) ?_
  refine .call (⟨true, 0⟩ : StrelaKernel)
    (quiet_step rfl ⟨none, List.not_mem_nil, rfl⟩ ⟨rfl, rfl, rfl⟩) ?_
  refine .call () (quiet_step rfl ⟨none, (singleBoard exportDef []).slots.loaded, rfl, ?_,
    fun _ _ => rfl⟩ ⟨rfl, rfl, rfl⟩) ?_
  · intro other different
    exact if_neg different
  refine .call true (quiet_step rfl ⟨rfl, rfl⟩ ⟨rfl, rfl, rfl⟩) ?_
  exact .ret _ _

theorem single_allocated (fabric : Fabric) (exportDef : ExportDef) :
    Run (Step fabric) (allocatorAllocateBuffer .bits32 128) (singleBoard exportDef [0x2000])
      (.ok sampleAllocated) (singleBoard exportDef [0x1000, 0x2000]) := by
  refine .call (⟨true, 16, 32⟩ : StrelaBuffer)
    (quiet_step ⟨rfl, rfl, Or.inl rfl⟩ ⟨none, rfl⟩ ⟨rfl, rfl, rfl⟩) ?_
  refine .call true (quiet_step rfl ⟨rfl, rfl⟩ ⟨rfl, rfl, rfl⟩) ?_
  refine .call (0x40000000 : Nat) (quiet_step rfl ⟨none, rfl⟩ ⟨rfl, rfl, rfl⟩) ?_
  have fresh : (0x1000 : Nat) ∉ [0x2000] := by decide
  refine .call (.ok 0x1000 : CResult Nat) (quiet_step rfl ⟨fresh, rfl⟩ ⟨rfl, rfl, rfl⟩) ?_
  exact .ret _ _

theorem sampleSession_fresh : Fresh (fun _ => 0) sampleSession :=
  ⟨⟨fun _ _ => rfl, fun _ none => none.elim, fun _ => id, fun _ _ => rfl⟩, rfl, rfl, rfl, rfl, rfl,
    rfl⟩

theorem exists_call {fabric : Fabric} {c : Call} {α : Type} {next : c.Answer → Driver α}
    {b b' : Board} {result : α} (answer : c.Answer) (step : Step fabric b c answer b')
    (rest : ∃ after, Run (Step fabric) (next answer) b' result after) :
    ∃ after, Run (Step fabric) (.call c next) b result after :=
  rest.imp fun _ run => .call answer step run

/-- While the driver waits, the job reads its word and writes it. -/
theorem increment_dispatched (m : Machine) : ∃ b, Run (Step incrementFabric)
    (commandBufferDispatch .bits32 (singleExecutable incrementDef) 0 ⟨[]⟩ [sampleRef])
    { singleBoard incrementDef [0x1000, 0x2000] with machine := m } (.ok ()) b := by
  -- The lines of the two columns are written back, and the job starts.
  refine exists_call () (quiet_step rfl ⟨none, rfl⟩ ⟨rfl, rfl, rfl⟩) ?_
  refine exists_call true (quiet_step rfl ⟨rfl, rfl⟩ ⟨rfl, rfl, rfl⟩) ?_
  refine exists_call () (quiet_step rfl ⟨none, rfl⟩ ⟨rfl, rfl, rfl⟩) ?_
  refine exists_call true (quiet_step rfl ⟨rfl, rfl⟩ ⟨rfl, rfl, rfl⟩) ?_
  refine exists_call (⟨true, 0⟩ : StrelaJob) (quiet_step rfl ⟨none, rfl⟩ ⟨rfl, rfl, rfl⟩) ?_
  refine exists_call () (quiet_step (Or.inr ⟨_, rfl, rfl⟩) ⟨none, rfl⟩ ⟨rfl, rfl, rfl⟩) ?_
  refine exists_call () (show Step incrementFabric _ _ _ ⟨_, _, _, _, _⟩ from
    ⟨_, (Relation.ReflTransGen.single (.read _ _ _ 0 32 rfl rfl)).tail
      (.write _ _ _ _ 0 33 _ rfl rfl rfl rfl), Or.inr ⟨_, rfl, rfl⟩, ⟨none, rfl⟩, rfl, rfl, rfl⟩) ?_
  refine exists_call true (quiet_step rfl ⟨rfl, rfl⟩ ⟨rfl, rfl, rfl⟩) ?_
  refine exists_call StrelaJobState.ok (quiet_step ⟨rfl, fun _ _ busy => nomatch busy⟩ ⟨none, rfl⟩
    ⟨⟨rfl, rfl, rfl⟩, fun _ conf configured o => ?_⟩) ?_
  · cases configured
    rcases o with _ | _ | _ | _ | o <;> rfl
  refine exists_call true (quiet_step rfl ⟨rfl, rfl⟩ ⟨rfl, rfl, rfl⟩) ?_
  refine exists_call () (quiet_step rfl ⟨none, rfl⟩ ⟨rfl, rfl, rfl⟩) ?_
  refine exists_call true (quiet_step rfl ⟨rfl, rfl⟩ ⟨rfl, rfl, rfl⟩) ?_
  refine exists_call () (quiet_step rfl ⟨none, rfl⟩ ⟨rfl, rfl, rfl⟩) ?_
  refine exists_call () (quiet_step rfl ⟨none, rfl⟩ ⟨rfl, rfl, rfl⟩) ?_
  refine exists_call true (quiet_step rfl ⟨rfl, rfl⟩ ⟨rfl, rfl, rfl⟩) ?_
  exact ⟨_, .ret _ _⟩

/-- The program creates the executable, writes its input, dispatches it and reads its
output. -/
theorem runs_refine_flat_sample : ∃ v s f,
    Trace (FlatStep incrementFabric) ⟨fun _ => 0, fun _ => none⟩
      [.create 0x2000 (singleData incrementDef).root, .write 32 7,
        .dispatch 0x2000 0 ⟨[]⟩ [sampleRef], .read 33 v] f ∧
      Board.contents (fun _ => 0) s = f.contents := by
  obtain ⟨b, dispatched⟩ := increment_dispatched (sampleSession.board.machine.cpuWrite 32 7)
  have run : Trace (Op incrementFabric .bits32) sampleSession
      [.create 0x2000 (singleData incrementDef).root, .write 32 7,
        .dispatch 0x2000 0 ⟨[]⟩ [sampleRef], .read 33 (view lineOf b.machine.cache 33)]
      ⟨{ b with machine := b.machine.cpuRead 33 }, [singleExecutable incrementDef],
        [sampleAllocated]⟩ := by
    refine .visible _ (.create (s := sampleSession) _ _ _ (single_created _ incrementDef rfl)) ?_
    refine .silent (.allocate (s := ⟨_, _, _⟩) _ _ _ (single_allocated _ incrementDef)) ?_
    refine .visible _ (.cpuWrite (s := ⟨_, _, _⟩) sampleAllocated 16 7 _ List.mem_cons_self
      (by decide) .refl) ?_
    refine .visible _ (.dispatch (s := ⟨_, _, _⟩) (singleExecutable incrementDef) 0 ⟨[]⟩
      [sampleRef] b List.mem_cons_self ?_ dispatched) ?_
    · intro e known
      cases known
      exact incrementSound
    exact .visible _ (.cpuRead (s := ⟨_, _, _⟩) sampleAllocated 17 b List.mem_cons_self (by decide)
      .refl) (.nil _)
  obtain ⟨f, upper, contents⟩ :=
    runs_refine_flat incrementFabric .bits32 _ _ _ sampleSession_fresh _ run
  exact ⟨_, _, f, upper, contents⟩

end Estela.Runtime.FlatMemory
