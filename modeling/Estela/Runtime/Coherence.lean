import Mathlib.Logic.Relation
import Estela.Lib.WriteBack
import Estela.Runtime.Allocator
import Estela.Runtime.ColumnBounds

set_option autoImplicit false

/- STRELA memory behind the CPU's cache: the driver's calls as moves of a
machine whose cache evicts and prefetches on its own, and whose jobs reach
memory past it. -/
namespace Estela.Runtime.Coherence

open CallProgram WriteBack

/-- Words from the base of STRELA memory; 16 of them are a line. -/
abbrev Word := Nat

def lineOf (w : Word) : Nat := w / 16

/-- The lines of `count` words from word `start` on. -/
def linesOf (start count : Nat) (l : Nat) : Bool :=
  decide (0 < count ∧ start < 16 * l + 16 ∧ 16 * l < start + count)

theorem linesOf_iff (start count l : Nat) :
    linesOf start count l = true ↔ ∃ w, start ≤ w ∧ w < start + count ∧ lineOf w = l := by
  simp only [linesOf, decide_eq_true_eq, lineOf]
  constructor
  · rintro ⟨some, before, after⟩
    exact ⟨max start (16 * l), by omega, by omega, by omega⟩
  · rintro ⟨w, lower, upper, rfl⟩
    omega

/-- The words a job reads. -/
def Reads (conf : StrelaConf) (w : Word) : Prop :=
  ∃ i ∈ conf.inp, ∃ k < i.count, w = i.offset + k * i.stride

/-- The words a job writes. -/
def Writes (conf : StrelaConf) (w : Word) : Prop :=
  ∃ o ∈ conf.out, ∃ k < o.count, w = o.offset + k

/-- `log` is what CPU and jobs did so far, latest first. -/
structure Machine where
  cache : WriteBack.State Word Nat (BitVec 32)
  log : List (Access Word (BitVec 32))
  configured : Option (StrelaJob × StrelaConf)
  running : Option (StrelaJob × StrelaConf)

/-- What happens without a call. -/
inductive Background : Machine → Machine → Prop
  | evict (m : Machine) (l : Nat) : Background m { m with cache := evict lineOf m.cache l }
  | prefetch (m : Machine) (l : Nat) : Background m { m with cache := prefetch lineOf m.cache l }
  | jobRead (m : Machine) (job : StrelaJob) (conf : StrelaConf) (w : Word)
      (running : m.running = some (job, conf)) (column : Reads conf w) :
      Background m { m with log := .read w (m.cache.mem w) :: m.log }
  | jobWrite (m : Machine) (job : StrelaJob) (conf : StrelaConf) (w : Word) (v : BitVec 32)
      (running : m.running = some (job, conf)) (column : Writes conf w) :
      Background m { m with cache := memWrite m.cache w v, log := .write w v :: m.log }

def Meanwhile : Machine → Machine → Prop := Relation.ReflTransGen Background

/-- A call itself. libstrela hands out whole lines for whole lines, its flush and
inval name words, and a job it reports as done is no longer running. -/
def Effect (m : Machine) : (c : Call) → c.Answer → Machine → Prop
  | .bufferAlloc words, buffer, m' => m' = m ∧ buffer.offsetWordsFromBase % 16 = 0 ∧
      (buffer.words = words ∨ buffer.words = 0)
  | .bufferFlush buffer offset count, _, m' => m' = { m with
      cache := flush lineOf m.cache (linesOf (buffer.offsetWordsFromBase + offset) count) }
  | .bufferInval buffer offset count, _, m' => m' = { m with
      cache := inval m.cache (linesOf (buffer.offsetWordsFromBase + offset) count) }
  | .jobConfig _ conf, job, m' => m' = { m with configured := some (job, conf) }
  | .jobSubmit job, _, m' => m' = m ∨
      ∃ conf, m.configured = some (job, conf) ∧ m' = { m with running := some (job, conf) }
  | .jobWait job _, _, m' => m' = m ∨
      ∃ conf, m.running = some (job, conf) ∧ m' = { m with running := none }
  | .jobPoll job, state, m' => m' = m ∧
      (state = StrelaJobState.ok → ∀ conf, m.running ≠ some (job, conf))
  | _, _, m' => m' = m

def Step (m : Machine) (c : Call) (answer : c.Answer) (m' : Machine) : Prop :=
  ∃ between, Meanwhile m between ∧ Effect between c answer m'

def Machine.cpuRead (m : Machine) (w : Word) : Machine :=
  { m with log := .read w (view lineOf m.cache w) :: m.log }

def Machine.cpuWrite (m : Machine) (w : Word) (v : BitVec 32) : Machine :=
  { m with cache := cachedWrite lineOf m.cache w v, log := .write w v :: m.log }

/-- The machine and the buffers the host program holds. -/
structure System where
  machine : Machine
  live : List HalStrelaBuffer

/-- The column has no use, or no sum of its resolution wraps. -/
def Fits (st : SizeT) (isInput : Bool) (constants : ConstByteSpan) (column : ColumnDef) : Prop :=
  column.wordCount.toNat ≠ 0 → NoWrap st column isInput constants

/-- Bindings as the HAL guarantees them for a dispatch of `exportDef`, whose columns resolve
without wrapping. -/
structure Dispatchable (st : SizeT) (live : List HalStrelaBuffer) (exportDef : ExportDef)
    (constants : ConstByteSpan) (bindings : List BufferRef) : Prop where
  valid : ∀ ref ∈ bindings, ref.Valid st
  live : ∀ ref ∈ bindings, ∀ base buffer, ref.buffer = some base → base.allocated = .strela buffer →
    buffer ∈ live
  inputs : ∀ column ∈ exportDef.inputs, Fits st true constants column
  outputs : ∀ column ∈ exportDef.outputs, Fits st false constants column

/-- One operation of the host program. A mapping starts at the buffer's first
word; a failed operation other than a dispatch leaves nothing to tell apart. -/
inductive Op (st : SizeT) : System → System → Prop
  | allocate {m m' : Machine} {live : List HalStrelaBuffer} (size : BitVec 64)
      (buffer : HalStrelaBuffer)
      (run : Run Step (allocatorAllocateBuffer st size) m (.ok buffer) m') :
      Op st ⟨m, live⟩ ⟨m', buffer :: live⟩
  | cpuRead {m between : Machine} {live : List HalStrelaBuffer} (buffer : HalStrelaBuffer)
      (index : Nat) (owned : buffer ∈ live) (mapped : 4 * index < buffer.allocationSize.toNat)
      (meanwhile : Meanwhile m between) :
      Op st ⟨m, live⟩ ⟨between.cpuRead (buffer.sBuf.offsetWordsFromBase + index), live⟩
  | cpuWrite {m between : Machine} {live : List HalStrelaBuffer} (buffer : HalStrelaBuffer)
      (index : Nat) (v : BitVec 32) (owned : buffer ∈ live)
      (mapped : 4 * index < buffer.allocationSize.toNat) (meanwhile : Meanwhile m between) :
      Op st ⟨m, live⟩ ⟨between.cpuWrite (buffer.sBuf.offsetWordsFromBase + index) v, live⟩
  | flushRange {m m' : Machine} {live : List HalStrelaBuffer} (buffer : HalStrelaBuffer)
      (offset length : BitVec 64) (result : CResult Unit) (owned : buffer ∈ live)
      (run : Run Step (bufferFlushRange st buffer offset length) m result m') :
      Op st ⟨m, live⟩ ⟨m', live⟩
  | invalidateRange {m m' : Machine} {live : List HalStrelaBuffer} (buffer : HalStrelaBuffer)
      (offset length : BitVec 64) (result : CResult Unit) (owned : buffer ∈ live)
      (run : Run Step (bufferInvalidateRange st buffer offset length) m result m') :
      Op st ⟨m, live⟩ ⟨m', live⟩
  | dispatch {m m' : Machine} {live : List HalStrelaBuffer} (executable : Executable)
      (function : BitVec 64) (constants : ConstByteSpan) (bindings : List BufferRef)
      (fits : ∀ e, executable.exports[function.toNat]? = some e →
        Dispatchable st live e.exportDef constants bindings)
      (run : Run Step (commandBufferDispatch st executable function constants bindings) m (.ok ())
        m') :
      Op st ⟨m, live⟩ ⟨m', live⟩

def Ops (st : SizeT) : System → System → Prop := Relation.ReflTransGen (Op st)

/-- Every line of the job's inputs is `quiet`, and of its outputs `stale`. -/
def Confined (conf : StrelaConf) (quiet stale : Nat → Prop) : Prop :=
  (∀ w, Reads conf w → quiet (lineOf w)) ∧ ∀ w, Writes conf w → stale (lineOf w)

/-- What holds between any two moves: cache and memory agree with the log up to
`stale` lines, no read was wrong, and at most the `active` job runs. -/
structure Inv (init : Word → BitVec 32) (quiet stale : Nat → Prop)
    (active : Option (StrelaJob × StrelaConf)) (m : Machine) : Prop where
  coherent : Coherent lineOf quiet stale (lastWrite init m.log) m.cache
  reads : ReadsLast init m.log
  running : m.running = none ∨ m.running = active
  confined : ∀ job conf, active = some (job, conf) → Confined conf quiet stale

section

variable {init : Word → BitVec 32} {quiet stale : Nat → Prop}
  {active : Option (StrelaJob × StrelaConf)} {m m' : Machine}

theorem Inv.job (inv : Inv init quiet stale active m) (job : StrelaJob) (conf : StrelaConf)
    (running : m.running = some (job, conf)) : Confined conf quiet stale := by
  rcases inv.running with idle | busy
  · rw [idle] at running
    cases running
  · exact inv.confined job conf (busy ▸ running)

theorem Inv.background (inv : Inv init quiet stale active m) (move : Background m m') :
    Inv init quiet stale active m' := by
  cases move with
  | evict l => exact ⟨inv.coherent.evict l, inv.reads, inv.running, inv.confined⟩
  | prefetch l => exact ⟨inv.coherent.prefetch l, inv.reads, inv.running, inv.confined⟩
  | jobRead job conf w running column =>
      have settled := (inv.job job conf running).1 w column
      exact ⟨inv.coherent, ⟨inv.coherent.mem_eq w settled, inv.reads⟩, inv.running, inv.confined⟩
  | jobWrite job conf w v running column =>
      have given := (inv.job job conf running).2 w column
      exact ⟨inv.coherent.memWrite w v given, inv.reads, inv.running, inv.confined⟩

theorem Inv.meanwhile (inv : Inv init quiet stale active m) (moves : Meanwhile m m') :
    Inv init quiet stale active m' := by
  induction moves with
  | refl => exact inv
  | tail _ move ih => exact ih.background move

/-- Between dispatches no line is stale, so the CPU reads what was last written. -/
theorem Inv.cpuRead (inv : Inv init quiet (fun _ => False) active m) (w : Word) :
    Inv init quiet (fun _ => False) active (m.cpuRead w) :=
  ⟨inv.coherent, ⟨inv.coherent.cache w id, inv.reads⟩, inv.running, inv.confined⟩

theorem Inv.cpuWrite (inv : Inv init (fun _ => False) stale active m) (w : Word) (v : BitVec 32) :
    Inv init (fun _ => False) stale active (m.cpuWrite w v) :=
  ⟨inv.coherent.cachedWrite w v id, inv.reads, inv.running, inv.confined⟩

theorem Inv.mono {quiet' stale' : Nat → Prop} (inv : Inv init quiet stale none m)
    (fewer : ∀ l, quiet' l → quiet l) (more : ∀ l, stale l → stale' l)
    (within : ∀ l, stale' l → quiet' l) : Inv init quiet' stale' none m :=
  ⟨inv.coherent.mono fewer more within, inv.reads, inv.running, fun _ _ idle => nomatch idle⟩

/-- The rule of a single call: what the machine does on its own keeps `Inv`. -/
theorem call_triple (c : Call) {after : c.Answer → Machine → Prop}
    (effect : ∀ m answer m', Inv init quiet stale active m → Effect m c answer m' →
      after answer m') :
    Triple Step (Inv init quiet stale active) (call c) after := by
  refine Triple.call c _ after ?_ (fun answer => Triple.ret answer (fun _ holds => holds))
  rintro m answer m' inv ⟨between, moves, done⟩
  exact effect between answer m' (inv.meanwhile moves) done

/-- A call that leaves the machine alone. -/
theorem passive_triple (c : Call) (passive : ∀ m answer m', Effect m c answer m' → m' = m) :
    Triple Step (Inv init quiet stale active) (call c) (fun _ => Inv init quiet stale active) :=
  call_triple c (fun m answer m' inv done => passive m answer m' done ▸ inv)

theorem statusFromDev_triple (what : String) :
    Triple Step (Inv init quiet stale active) (statusFromDev what)
      (fun _ => Inv init quiet stale active) := by
  refine Triple.bind _ (passive_triple .devOk fun _ _ _ => id) (fun ok => ?_)
  cases ok with
  | true => exact Triple.ret _ (fun _ inv => inv)
  | false =>
      refine Triple.bind _ (passive_triple .devGetErr fun _ _ _ => id) (fun err => ?_)
      refine Triple.bind _ (passive_triple .devResetErr fun _ _ _ => id) (fun _ => ?_)
      exact Triple.ret _ (fun _ inv => inv)

theorem flush_triple (buffer : StrelaBuffer) (offset count : Nat) :
    Triple Step (Inv init quiet stale none) (call (.bufferFlush buffer offset count))
      (fun _ => Inv init
        (fun l => quiet l ∨ linesOf (buffer.offsetWordsFromBase + offset) count l) stale none) := by
  refine call_triple _ (fun m _ m' inv done => ?_)
  obtain rfl := done
  exact ⟨inv.coherent.flush _, inv.reads, inv.running, fun _ _ idle => nomatch idle⟩

theorem inval_triple (buffer : StrelaBuffer) (offset count : Nat)
    (safe : ∀ l, linesOf (buffer.offsetWordsFromBase + offset) count l = true → quiet l) :
    Triple Step (Inv init quiet stale none) (call (.bufferInval buffer offset count))
      (fun _ => Inv init quiet
        (fun l => stale l ∧ linesOf (buffer.offsetWordsFromBase + offset) count l =
          false) none) := by
  refine call_triple _ (fun m _ m' inv done => ?_)
  obtain rfl := done
  exact ⟨inv.coherent.inval _ safe, inv.reads, inv.running, fun _ _ idle => nomatch idle⟩

end

/-- The lines `bufferFlushRange` and `bufferInvalidateRange` reach. -/
def rangeLines (st : SizeT) (buffer : HalStrelaBuffer) (offset length : BitVec 64) : Nat → Bool :=
  linesOf (buffer.sBuf.offsetWordsFromBase + (bufferLines st offset length).1)
    (bufferLines st offset length).2

section

variable {init : Word → BitVec 32} {quiet stale : Nat → Prop}

theorem bufferFlushRange_triple (st : SizeT) (buffer : HalStrelaBuffer)
    (offset length : BitVec 64) :
    Triple Step (Inv init quiet stale none) (bufferFlushRange st buffer offset length)
      (fun _ => Inv init (fun l => quiet l ∨ rangeLines st buffer offset length l) stale none) :=
  Triple.bind _ (flush_triple _ _ _) (fun _ => statusFromDev_triple _)

/-- The flush before it makes the invalidation safe, whatever the range. -/
theorem bufferInvalidateRange_triple (st : SizeT) (buffer : HalStrelaBuffer)
    (offset length : BitVec 64) :
    Triple Step (Inv init quiet stale none) (bufferInvalidateRange st buffer offset length)
      (fun _ => Inv init (fun l => quiet l ∨ rangeLines st buffer offset length l)
        (fun l => stale l ∧ rangeLines st buffer offset length l = false) none) :=
  Triple.bind _ (flush_triple _ _ _)
    (fun _ => Triple.bind _ (inval_triple _ _ _ (fun _ => Or.inr))
      (fun _ => statusFromDev_triple _))

end

/-- The lines the syncs of a column reach. -/
def columnLines (st : SizeT) (c : Column) (l : Nat) : Prop :=
  ∃ buffer, c.buffer = some buffer ∧ rangeLines st buffer c.offset c.length l = true

def inputLines (st : SizeT) (columns : List (Column × Column)) (l : Nat) : Prop :=
  ∃ c ∈ columns, columnLines st c.1 l

def outputLines (st : SizeT) (columns : List (Column × Column)) (l : Nat) : Prop :=
  ∃ c ∈ columns, columnLines st c.2 l

theorem inputLines_cons (st : SizeT) (pair : Column × Column) (rest : List (Column × Column))
    (l : Nat) :
    inputLines st (pair :: rest) l ↔ columnLines st pair.1 l ∨ inputLines st rest l := by
  simp only [inputLines, List.mem_cons, exists_eq_or_imp]

theorem outputLines_cons (st : SizeT) (pair : Column × Column) (rest : List (Column × Column))
    (l : Nat) :
    outputLines st (pair :: rest) l ↔ columnLines st pair.2 l ∨ outputLines st rest l := by
  simp only [outputLines, List.mem_cons, exists_eq_or_imp]

section

variable {init : Word → BitVec 32} {quiet stale : Nat → Prop}

/-- A next step that is only taken, and a result that only holds, on OK. -/
theorem whileOk_triple {between after : Machine → Prop} {next : Driver (CResult Unit)}
    (status : CResult Unit)
    (tail : Triple Step between next (fun status m => status = .ok () → after m)) :
    Triple Step (fun m => status = .ok () → between m) (whileOk status next)
      (fun status m => status = .ok () → after m) := by
  cases status with
  | ok _ => exact Triple.pre _ (fun _ holds => holds rfl) tail
  | error stop => exact Triple.ret _ (fun _ _ failed => nomatch failed)

theorem okThen {before between after : Machine → Prop} {first next : Driver (CResult Unit)}
    (head : Triple Step before first (fun status m => status = .ok () → between m))
    (tail : Triple Step between next (fun status m => status = .ok () → after m)) :
    Triple Step before (first.bind fun status => whileOk status next)
      (fun status m => status = .ok () → after m) :=
  Triple.bind _ head (fun status => whileOk_triple status tail)

theorem flushColumn_triple (st : SizeT) (c : Column) :
    Triple Step (Inv init quiet stale none) (forColumn (bufferFlushRange st) c)
      (fun status m => status = .ok () →
        Inv init (fun l => quiet l ∨ columnLines st c l) stale none m) := by
  unfold forColumn
  split
  · rename_i unused
    refine Triple.ret _ (fun m inv _ =>
      inv.mono ?_ (fun _ => id) (fun l => Or.inl ∘ inv.coherent.within l))
    rintro l (before | ⟨buffer, used, _⟩)
    · exact before
    · rw [unused] at used
      cases used
  · rename_i buffer used
    refine Triple.post _ (bufferFlushRange_triple st buffer c.offset c.length)
      (fun _ m inv _ => inv.mono ?_ (fun _ => id) ?_)
    · rintro l (before | ⟨buffer', used', reached⟩)
      · exact Or.inl before
      · rw [used] at used'
        cases used'
        exact Or.inr reached
    · intro l isStale
      rcases inv.coherent.within l isStale with before | reached
      · exact Or.inl before
      · exact Or.inr ⟨buffer, used, reached⟩

theorem invalidateColumn_triple (st : SizeT) (c : Column) :
    Triple Step (Inv init quiet stale none) (forColumn (bufferInvalidateRange st) c)
      (fun status m => status = .ok () →
        Inv init quiet (fun l => stale l ∧ ¬ columnLines st c l) none m) := by
  unfold forColumn
  split
  · rename_i unused
    refine Triple.ret _ (fun m inv _ => inv.mono (fun _ => id) (fun l isStale => ⟨isStale, ?_⟩)
      (fun l isStale => inv.coherent.within l isStale.1))
    rintro ⟨buffer, used, _⟩
    rw [unused] at used
    cases used
  · rename_i buffer used
    refine Triple.post _ (bufferInvalidateRange_triple st buffer c.offset c.length)
      (fun _ m inv _ => inv.mono (fun _ => Or.inl) ?_ ?_)
    · rintro l ⟨isStale, kept⟩
      refine ⟨isStale, ?_⟩
      rintro ⟨buffer', used', reached⟩
      rw [used] at used'
      cases used'
      rw [kept] at reached
      cases reached
    · rintro l ⟨isStale, outside⟩
      have kept : rangeLines st buffer c.offset c.length l = false :=
        Bool.eq_false_iff.mpr (fun reached => outside ⟨buffer, used, reached⟩)
      rcases inv.coherent.within l ⟨isStale, kept⟩ with before | reached
      · exact before
      · rw [kept] at reached
        cases reached

theorem flushColumns_triple (st : SizeT) (columns : List (Column × Column)) :
    Triple Step (Inv init quiet stale none) (flushColumns st columns)
      (fun status m => status = .ok () →
        Inv init (fun l => quiet l ∨ inputLines st columns l ∨
          outputLines st columns l) stale none m) := by
  induction columns generalizing quiet with
  | nil =>
      refine Triple.ret _ (fun m inv _ =>
        inv.mono ?_ (fun _ => id) (fun l => Or.inl ∘ inv.coherent.within l))
      rintro l (before | ⟨c, none, _⟩ | ⟨c, none, _⟩)
      · exact before
      · cases none
      · cases none
  | cons pair rest ih =>
      unfold flushColumns
      simp only [Prog.bind_eq]
      rw [← Prog.bind_assoc]
      refine Triple.post _ (okThen (okThen (flushColumn_triple st pair.1)
        (flushColumn_triple st pair.2)) ih) (fun status m holds ok => ?_)
      have inv := holds ok
      have same : ∀ l, (quiet l ∨ inputLines st (pair :: rest) l ∨
        outputLines st (pair :: rest) l) ↔
          (((quiet l ∨ columnLines st pair.1 l) ∨ columnLines st pair.2 l) ∨
            inputLines st rest l ∨ outputLines st rest l) := by
        intro l
        rw [inputLines_cons, outputLines_cons]
        tauto
      exact inv.mono (fun l => (same l).mp) (fun _ => id)
        (fun l isStale => (same l).mpr (inv.coherent.within l isStale))

theorem invalidateColumns_triple (st : SizeT) (columns : List (Column × Column)) :
    Triple Step (Inv init quiet stale none) (invalidateColumns st columns)
      (fun status m => status = .ok () →
        Inv init quiet (fun l => stale l ∧ ¬ outputLines st columns l) none m) := by
  induction columns generalizing stale with
  | nil =>
      refine Triple.ret _ (fun m inv _ => inv.mono (fun _ => id) (fun l isStale => ⟨isStale, ?_⟩)
        (fun l isStale => inv.coherent.within l isStale.1))
      rintro ⟨c, none, _⟩
      cases none
  | cons pair rest ih =>
      refine Triple.post _ (okThen (invalidateColumn_triple st pair.2) ih)
        (fun status m holds ok => ?_)
      have inv := holds ok
      have same : ∀ l, (stale l ∧ ¬ outputLines st (pair :: rest) l) ↔
          ((stale l ∧ ¬ columnLines st pair.2 l) ∧ ¬ outputLines st rest l) := by
        intro l
        rw [outputLines_cons]
        tauto
      exact inv.mono (fun _ => id) (fun l => (same l).mpr)
        (fun l isStale => inv.coherent.within l ((same l).mp isStale))

theorem Meanwhile.configured {m m' : Machine} (moves : Meanwhile m m') :
    m'.configured = m.configured := by
  induction moves with
  | refl => rfl
  | tail _ move ih => cases move <;> exact ih

theorem Inv.activate {m : Machine} (inv : Inv init quiet stale none m) (job : StrelaJob)
    (conf : StrelaConf) (confined : Confined conf quiet stale) :
    Inv init quiet stale (some (job, conf)) m :=
  ⟨inv.coherent, inv.reads, Or.inl (inv.running.elim id id),
    fun _ _ same => by cases same; exact confined⟩

theorem runJob_triple (kernel : StrelaKernel) (conf : StrelaConf)
    (confined : Confined conf quiet stale) :
    Triple Step (Inv init quiet stale none) (runJob kernel conf)
      (fun started => Inv init quiet stale (some (started.1, conf))) := by
  refine Triple.bind (fun job m => Inv init quiet stale none m ∧
    m.configured = some (job, conf)) ?_ (fun job => ?_)
  · refine call_triple (.jobConfig kernel conf) (fun m job m' inv done => ?_)
    obtain rfl := done
    exact ⟨⟨inv.coherent, inv.reads, inv.running, inv.confined⟩, rfl⟩
  refine Triple.bind (fun _ => Inv init quiet stale (some (job, conf))) ?_ (fun _ => ?_)
  · refine Triple.call _ _ (fun _ => Inv init quiet stale (some (job, conf))) ?_
      (fun _ => Triple.ret _ (fun _ inv => inv))
    rintro m _ m' ⟨inv, configured⟩ ⟨between, moves, done⟩
    have active := (inv.meanwhile moves).activate job conf confined
    rcases done with rfl | ⟨conf', latest, rfl⟩
    · exact active
    · rw [moves.configured, configured] at latest
      cases latest
      exact ⟨active.coherent, active.reads, Or.inr rfl, active.confined⟩
  refine Triple.bind (fun _ => Inv init quiet stale (some (job, conf))) ?_ (fun _ => ?_)
  · refine call_triple _ (fun m _ m' inv done => ?_)
    rcases done with rfl | ⟨_, _, rfl⟩
    · exact inv
    · exact ⟨inv.coherent, inv.reads, Or.inl rfl, inv.confined⟩
  exact Triple.bind _ (statusFromDev_triple _) (fun status => Triple.ret _ (fun _ inv => inv))

theorem startJob_triple (kernel : StrelaKernel) (conf : StrelaConf) (status : CResult Unit)
    (confined : Confined conf quiet stale) :
    Triple Step (fun m => status = .ok () → Inv init quiet stale none m)
      (startJob kernel conf status)
      (fun started m => started.2 = .ok () → Inv init quiet stale (some (started.1, conf)) m) := by
  cases status with
  | error stop => exact Triple.ret _ (fun _ _ failed => nomatch failed)
  | ok _ =>
      refine Triple.pre (Inv init quiet stale none) (fun _ holds => holds rfl) ?_
      exact Triple.post _ (runJob_triple kernel conf confined) (fun _ _ inv _ => inv)

/-- A job that is reported as done reaches nothing any more. -/
theorem pollJob_triple (job : StrelaJob) (conf : StrelaConf) :
    Triple Step (Inv init quiet stale (some (job, conf))) (pollJob job)
      (fun status m => status = .ok () → Inv init quiet stale none m) := by
  refine Triple.bind (fun (state : StrelaJobState) m =>
    Inv init quiet stale (if state = .ok then none else some (job, conf)) m) ?_ (fun state => ?_)
  · refine call_triple (.jobPoll job) (fun m (state : StrelaJobState) m' inv done => ?_)
    obtain ⟨rfl, ended⟩ := done
    split
    · rename_i ok
      refine ⟨inv.coherent, inv.reads, Or.inl ?_, fun _ _ idle => nomatch idle⟩
      rcases inv.running with idle | busy
      · exact idle
      · exact absurd busy (ended ok conf)
    · exact inv
  · refine Triple.bind _ (statusFromDev_triple _) (fun status => ?_)
    cases status with
    | error stop => exact Triple.ret _ (fun _ _ failed => nomatch failed)
    | ok _ =>
        refine Triple.ret _ (fun m inv done => ?_)
        cases state with
        | ok => exact inv
        | pending => cases done
        | failed => cases done

theorem freeJob_triple (job : StrelaJob) (status : CResult Unit) :
    Triple Step (fun m => status = .ok () → Inv init quiet stale none m) (freeJob job status)
      (fun status m => status = .ok () → Inv init quiet stale none m) := by
  unfold freeJob
  split
  · cases status with
    | error stop =>
        refine Triple.bind (fun _ _ => True) (fun _ _ _ _ _ => trivial) (fun _ => ?_)
        refine Triple.bind (fun _ _ => True) (fun _ _ _ _ _ => trivial) (fun _ => ?_)
        exact Triple.ret _ (fun _ _ failed => nomatch failed)
    | ok _ =>
        refine Triple.pre (Inv init quiet stale none) (fun _ holds => holds rfl) ?_
        refine Triple.bind _ (passive_triple _ fun _ _ _ => id) (fun _ => ?_)
        exact Triple.bind _ (statusFromDev_triple _) (fun _ => Triple.ret _ (fun _ inv _ => inv))
  · exact Triple.ret _ (fun _ holds => holds)

/-- A dispatch whose columns reach only lines it syncs leaves nothing stale. -/
theorem dispatchColumns_triple (st : SizeT) (kernel : StrelaKernel)
    (columns : List (Column × Column))
    (inputs : ∀ pair ∈ columns, ∀ k < pair.1.wordCount,
      columnLines st pair.1 (lineOf (pair.1.word true k)))
    (outputs : ∀ pair ∈ columns, ∀ k < pair.2.wordCount,
      columnLines st pair.2 (lineOf (pair.2.word false k))) :
    Triple Step (Inv init (fun _ => False) (fun _ => False) none)
      (dispatchColumns st kernel columns)
      (fun status m => status = .ok () → Inv init (fun _ => False) (fun _ => False) none m) := by
  have confined : Confined (strelaConf columns)
      (fun l => False ∨ inputLines st columns l ∨ outputLines st columns l)
      (outputLines st columns) := by
    constructor
    · rintro w ⟨conf, member, k, step, rfl⟩
      obtain ⟨pair, found, rfl⟩ := List.mem_map.mp member
      exact Or.inr (Or.inl ⟨pair, found, inputs pair found k step⟩)
    · rintro w ⟨conf, member, k, step, rfl⟩
      obtain ⟨pair, found, rfl⟩ := List.mem_map.mp member
      exact ⟨pair, found, outputs pair found k step⟩
  -- From the job's start on, the lines of the outputs count as stale.
  have flush : Triple Step (Inv init (fun _ => False) (fun _ => False) none)
      (flushColumns st columns)
      (fun status m => status = .ok () → Inv init
        (fun l => False ∨ inputLines st columns l ∨ outputLines st columns l)
        (outputLines st columns) none m) :=
    Triple.post _ (flushColumns_triple st columns) (fun status m holds ok =>
      (holds ok).mono (fun _ => id) (fun _ none => none.elim)
        (fun _ reached => Or.inr (Or.inr reached)))
  refine Triple.bind _ flush (fun status => ?_)
  refine Triple.bind _ (startJob_triple kernel _ status confined) (fun started => ?_)
  refine Triple.bind _ (whileOk_triple started.2 (pollJob_triple started.1 _)) (fun status => ?_)
  refine okThen (freeJob_triple started.1 status) ?_
  refine Triple.post _ (invalidateColumns_triple st columns) (fun status m holds ok => ?_)
  exact (holds ok).mono (fun _ none => none.elim) (fun _ left => left.2 left.1)
    (fun _ none => none.elim)

end

/-- Whole lines, starting at one: what libstrela makes of a padded size. -/
def Lined (buffer : HalStrelaBuffer) : Prop :=
  buffer.sBuf.offsetWordsFromBase % 16 = 0 ∧ buffer.sBuf.words % 16 = 0

/-- The lines the driver syncs for a column hold every word the column touches. -/
theorem columnLines_word (st : SizeT) (column : ColumnDef) (isInput : Bool)
    (constants : ConstByteSpan) (bindings : List BufferRef) (c : Column)
    (resolved : columnResolve st column isInput constants bindings = .ok c)
    (valid : ∀ ref ∈ bindings, ref.Valid st)
    (lined : ∀ ref ∈ bindings, ∀ base buffer, ref.buffer = some base →
      base.allocated = .strela buffer → Lined buffer)
    (fits : Fits st isInput constants column) (k : Nat) (step : k < c.wordCount) :
    columnLines st c (lineOf (c.word isInput k)) := by
  cases used : c.buffer with
  | none =>
      have empty := columnResolve_buffer st column isInput constants bindings c resolved used
      omega
  | some buffer =>
      obtain ⟨ref, base, byteOffset, spec⟩ :=
        columnResolve_spec st column isInput constants bindings c buffer resolved used
      have refValid := valid ref (List.mem_of_getElem? spec.bound)
      have noWrap := fits spec.used
      obtain ⟨exactOffset, exactLength, within⟩ := spec.exact noWrap
      have offset := spec.offset_toNat refValid (by omega)
      have start := (spec.inBounds refValid noWrap).start
      have last := spec.word_le k step
      have first : c.wordsFromBase ≤ c.word isInput k := Nat.le_add_right _ _
      have aligned := spec.aligned_toNat
      have range := refValid.range base spec.present
      have inside := (refValid.backed base buffer spec.present spec.strela).inside
      have mapped := (refValid.backed base buffer spec.present spec.strela).mapped
      have width := st.width_le
      obtain ⟨lineStart, wholeLines⟩ :=
        lined ref (List.mem_of_getElem? spec.bound) base buffer spec.present spec.strela
      refine ⟨buffer, used, (linesOf_iff _ _ _).mpr ⟨c.word isInput k, ?_, ?_, rfl⟩⟩
      all_goals rw [bufferLines_exact st c.offset c.length (by omega) (by omega)]
      · omega
      · omega

theorem resolveColumns_mem (st : SizeT) (inputs outputs : List ColumnDef)
    (constants : ConstByteSpan) (bindings : List BufferRef) (indices : List Nat)
    (columns : List (Column × Column))
    (resolved : resolveColumns st inputs outputs constants bindings indices = .ok columns)
    (pair : Column × Column) (member : pair ∈ columns) :
    (∃ column ∈ inputs, columnResolve st column true constants bindings = .ok pair.1) ∧
      ∃ column ∈ outputs, columnResolve st column false constants bindings = .ok pair.2 := by
  induction indices generalizing columns with
  | nil =>
      cases resolved
      cases member
  | cons c rest ih =>
      simp only [resolveColumns, bind, Except.bind, pure, Except.pure] at resolved
      split at resolved
      · cases resolved
      rename_i inputDef inputFound
      split at resolved
      · cases resolved
      rename_i input inputResolved
      split at resolved
      · cases resolved
      rename_i outputDef outputFound
      split at resolved
      · cases resolved
      rename_i output outputResolved
      split at resolved
      · cases resolved
      rename_i later laterResolved
      cases resolved
      rcases List.mem_cons.mp member with rfl | inLater
      · exact ⟨⟨inputDef, List.mem_of_getElem? ((vecAt_eq_ok _ _ _ _).mp inputFound),
          inputResolved⟩,
          ⟨outputDef, List.mem_of_getElem? ((vecAt_eq_ok _ _ _ _).mp outputFound), outputResolved⟩⟩
      · exact ih later laterResolved inLater

section

variable {init : Word → BitVec 32}

theorem commandBufferDispatch_triple (st : SizeT) (live : List HalStrelaBuffer)
    (lined : ∀ buffer ∈ live, Lined buffer) (executable : Executable) (function : BitVec 64)
    (constants : ConstByteSpan) (bindings : List BufferRef)
    (fits : ∀ e, executable.exports[function.toNat]? = some e →
      Dispatchable st live e.exportDef constants bindings) :
    Triple Step (Inv init (fun _ => False) (fun _ => False) none)
      (commandBufferDispatch st executable function constants bindings)
      (fun status m => status = .ok () → Inv init (fun _ => False) (fun _ => False) none m) := by
  unfold commandBufferDispatch
  split
  · exact Triple.ret _ (fun _ _ failed => nomatch failed)
  rename_i export_ found
  have ready := fits export_ found
  split
  · exact Triple.ret _ (fun _ _ failed => nomatch failed)
  rename_i columns resolved
  have linedRefs : ∀ ref ∈ bindings, ∀ base buffer, ref.buffer = some base →
      base.allocated = .strela buffer → Lined buffer :=
    fun ref member base buffer present strela =>
      lined buffer (ready.live ref member base buffer present strela)
  refine dispatchColumns_triple st export_.kernel columns ?_ ?_
  · intro pair member k step
    obtain ⟨column, known, from_⟩ := (resolveColumns_mem st _ _ _ _ _ _ resolved pair member).1
    exact columnLines_word st column true constants bindings pair.1 from_ ready.valid linedRefs
      (ready.inputs column known) k step
  · intro pair member k step
    obtain ⟨column, known, from_⟩ := (resolveColumns_mem st _ _ _ _ _ _ resolved pair member).2
    exact columnLines_word st column false constants bindings pair.2 from_ ready.valid linedRefs
      (ready.outputs column known) k step

end

/-- The calls `allocate_buffer` makes. -/
def Allocating : Call → Prop
  | .devOk | .devGetErr | .devResetErr => True
  | .bufferAlloc _ | .bufferToPtr _ | .bufferFree _ | .malloc _ => True
  | _ => False

section

variable {S : Type} {step : S → (c : Call) → c.Answer → S → Prop} {holds : S → Prop}

theorem allocateCleanup_triple (sBuf : StrelaBuffer) (stop : Stop)
    (after : HalStrelaBuffer → S → Prop) :
    Triple step holds (allocateCleanup sBuf stop)
      (fun result s => ∀ buffer, result = .ok buffer → after buffer s) := by
  unfold allocateCleanup
  split
  · refine Triple.bind (fun _ _ => True) (fun _ _ _ _ _ => trivial) (fun _ => ?_)
    exact Triple.ret _ (fun _ _ _ failed => nomatch failed)
  · exact Triple.ret _ (fun _ _ _ failed => nomatch failed)

/-- What `allocate_buffer` hands out consists of whole lines, where libstrela hands
out whole lines for whole lines. -/
theorem allocatorAllocateBuffer_lined (st : SizeT) (size : BitVec 64)
    (keeps : ∀ c, Allocating c → Triple step holds (call c) (fun _ => holds))
    (whole : ∀ s words (buffer : StrelaBuffer) s', step s (.bufferAlloc words) buffer s' →
      buffer.offsetWordsFromBase % 16 = 0 ∧ (buffer.words = words ∨ buffer.words = 0)) :
    Triple step holds (allocatorAllocateBuffer st size)
      (fun result s => ∀ buffer, result = .ok buffer → holds s ∧ Lined buffer) := by
  have checked (what : String) : Triple step holds (statusFromDev what) (fun _ => holds) := by
    refine Triple.bind _ (keeps .devOk trivial) (fun ok => ?_)
    cases ok with
    | true => exact Triple.ret _ (fun _ kept => kept)
    | false =>
        refine Triple.bind _ (keeps .devGetErr trivial) (fun err => ?_)
        refine Triple.bind _ (keeps .devResetErr trivial) (fun _ => ?_)
        exact Triple.ret _ (fun _ kept => kept)
  refine Triple.bind (fun (sBuf : StrelaBuffer) s =>
    holds s ∧ sBuf.offsetWordsFromBase % 16 = 0 ∧ sBuf.words % 16 = 0) ?_ (fun sBuf => ?_)
  · intro s answer s' before run
    have kept := keeps (.bufferAlloc _) trivial s answer s' before run
    obtain ⟨buffer, between, move, rest⟩ := (run_call_iff _ _ _ _ _).mp run
    obtain ⟨rfl, rfl⟩ := (run_ret_iff _ _ _ _).mp rest
    obtain ⟨start, words⟩ := whole _ _ _ _ move
    refine ⟨kept, start, ?_⟩
    rcases words with asked | none
    · rw [asked]
      exact paddedWords_whole st size
    · rw [none]
  refine Triple.given (fun lined => ?_)
  refine Triple.bind _ (checked _) (fun status => ?_)
  cases status with
  | error stop => exact allocateCleanup_triple sBuf stop _
  | ok _ =>
      refine Triple.bind _ (keeps (.bufferToPtr _) trivial) (fun hostPtr => ?_)
      refine Triple.bind (fun wrapped s => ∀ buffer, wrapped = .ok buffer →
        holds s ∧ Lined buffer) ?_
        (fun wrapped => ?_)
      · refine Triple.bind _ (keeps (.malloc _) trivial) (fun allocated => ?_)
        cases allocated with
        | error stop => exact Triple.ret _ (fun _ _ _ failed => nomatch failed)
        | ok address =>
            refine Triple.ret _ (fun s kept buffer made => ?_)
            cases made
            exact ⟨kept, lined⟩
      · cases wrapped with
        | error stop => exact allocateCleanup_triple sBuf stop _
        | ok buffer => exact Triple.ret _ (fun s holds => holds)

end

theorem allocating_triple {init : Word → BitVec 32} {quiet stale : Nat → Prop}
    {active : Option (StrelaJob × StrelaConf)} (c : Call) (allocating : Allocating c) :
    Triple Step (Inv init quiet stale active) (call c) (fun _ => Inv init quiet stale active) := by
  cases c
  case bufferAlloc words => exact passive_triple _ fun _ _ _ done => done.1
  all_goals first
    | exact allocating.elim
    | exact passive_triple _ fun _ _ _ done => done

/-- What holds between the operations of the host program. -/
structure SystemInv (init : Word → BitVec 32) (s : System) : Prop where
  machine : Inv init (fun _ => False) (fun _ => False) none s.machine
  lined : ∀ buffer ∈ s.live, Lined buffer

theorem SystemInv.op {st : SizeT} {init : Word → BitVec 32} {s s' : System}
    (inv : SystemInv init s) (op : Op st s s') : SystemInv init s' := by
  obtain ⟨machine, lined⟩ := inv
  cases op with
  | allocate size buffer run =>
      obtain ⟨after, made⟩ := allocatorAllocateBuffer_lined st size allocating_triple
        (fun _ _ _ _ ⟨_, _, _, start, words⟩ => ⟨start, words⟩) _ _ _ machine run buffer rfl
      exact ⟨after, List.forall_mem_cons.mpr ⟨made, lined⟩⟩
  | cpuRead buffer index owned mapped meanwhile =>
      exact ⟨(machine.meanwhile meanwhile).cpuRead _, lined⟩
  | cpuWrite buffer index v owned mapped meanwhile =>
      exact ⟨(machine.meanwhile meanwhile).cpuWrite _ v, lined⟩
  | flushRange buffer offset length result owned run =>
      have after := bufferFlushRange_triple st buffer offset length _ _ _ machine run
      exact ⟨after.mono (fun _ => Or.inl) (fun _ => id) (fun _ => id), lined⟩
  | invalidateRange buffer offset length result owned run =>
      have after := bufferInvalidateRange_triple st buffer offset length _ _ _ machine run
      exact ⟨after.mono (fun _ => Or.inl) (fun _ => And.left) (fun _ => id), lined⟩
  | dispatch executable function constants bindings fits run =>
      exact ⟨commandBufferDispatch_triple st _ lined executable function constants bindings fits
        _ _ _ machine run rfl, lined⟩

theorem SystemInv.ops {st : SizeT} {init : Word → BitVec 32} {s s' : System}
    (inv : SystemInv init s) (ops : Ops st s s') : SystemInv init s' := by
  induction ops with
  | refl => exact inv
  | tail _ op ih => exact ih.op op

/-- Any cache over a memory, none of its lines behind it: where a host program starts. -/
structure Fresh (init : Word → BitVec 32) (s : System) : Prop where
  coherent : Coherent lineOf (fun _ => False) (fun _ => False) init s.machine.cache
  log : s.machine.log = []
  running : s.machine.running = none
  live : s.live = []

/-- In every run of a host program, each read of the CPU and of a job returned
the last value written to its word, and no word has lost its last write: it is
what the CPU would read, and what its line would leave in memory. -/
theorem coherent_runs (st : SizeT) (init : Word → BitVec 32) (s s' : System) (fresh : Fresh init s)
    (ops : Ops st s s') :
    ReadsLast init s'.machine.log ∧
      ∀ w, view lineOf s'.machine.cache w = lastWrite init s'.machine.log w ∧
        (evict lineOf s'.machine.cache (lineOf w)).mem w = lastWrite init s'.machine.log w := by
  have start : SystemInv init s := by
    refine ⟨⟨?_, ?_, Or.inl fresh.running, fun _ _ idle => nomatch idle⟩, ?_⟩
    · rw [fresh.log]
      exact fresh.coherent
    · rw [fresh.log]
      trivial
    · rw [fresh.live]
      exact fun _ none => nomatch none
  have inv := (start.ops ops).machine
  refine ⟨inv.reads, fun w => ⟨inv.coherent.cache w id, ?_⟩⟩
  exact (inv.coherent.evict (lineOf w)).memory w (by simp [evict])

/-- Zeroed memory, nothing cached, no buffer. -/
def sampleStart : System where
  machine := {
    cache := { mem := fun _ => 0, cached := fun _ => 0, tag := fun _ => .absent }
    log := []
    configured := none
    running := none }
  live := []

def sampleAllocated : HalStrelaBuffer where
  allocationSize := 128
  sBuf := { valid := true, offsetWordsFromBase := 16, words := 32 }
  hostPtr := 0x40000000
  releaseCallback := true
  address := 0x1000

/-- One word of the second line of an allocation in, and its neighbour out. -/
def sampleExecutable : Executable where
  exports := [{
    exportDef := {
      name := some "increment"
      bitstream := []
      inputs := ⟨0, 0, [], 1, 1⟩ :: List.replicate 3 ⟨0, 0, [], 0, 0⟩
      outputs := ⟨0, 4, [], 1, 0⟩ :: List.replicate 3 ⟨0, 0, [], 0, 0⟩
      constantCount := 0
      bindingCount := 1 }
    kernel := { valid := true, handle := 0 } }]
  address := 0x2000

theorem sampleExecutable_run (m : Machine) :
    ∃ m' v, m'.log = .write 33 1 :: .read 32 v :: m.log ∧
      Run Step (commandBufferDispatch .bits32 sampleExecutable 0 ⟨[]⟩ [sampleRef]) m
        (.ok ()) m' := by
  refine ⟨?after, ?v, ?log, ?run⟩
  rotate_left 3
  -- Before the job: the lines of the two columns are written back.
  apply Run.call () ⟨_, .refl, rfl⟩
  apply Run.call true ⟨_, .refl, rfl⟩
  apply Run.call () ⟨_, .refl, rfl⟩
  apply Run.call true ⟨_, .refl, rfl⟩
  apply Run.call { valid := true, handle := 0 } ⟨_, .refl, rfl⟩
  apply Run.call () ⟨_, .refl, Or.inr ⟨_, rfl, rfl⟩⟩
  -- While the driver waits, the job reads its input and writes its output.
  apply Run.call ()
  · refine ⟨_, (Relation.ReflTransGen.single (.jobRead _ _ _ 32 rfl ?_)).tail
      (.jobWrite _ _ _ 33 1 rfl ?_), Or.inr ⟨_, rfl, rfl⟩⟩
    · exact ⟨_, List.mem_cons_self, 0, by decide, rfl⟩
    · exact ⟨_, List.mem_cons_self, 0, by decide, rfl⟩
  apply Run.call true ⟨_, .refl, rfl⟩
  apply Run.call StrelaJobState.ok ⟨_, .refl, rfl, fun _ _ busy => nomatch busy⟩
  apply Run.call true ⟨_, .refl, rfl⟩
  apply Run.call () ⟨_, .refl, rfl⟩
  apply Run.call true ⟨_, .refl, rfl⟩
  apply Run.call () ⟨_, .refl, rfl⟩
  apply Run.call () ⟨_, .refl, rfl⟩
  apply Run.call true ⟨_, .refl, rfl⟩
  · exact .ret _ _
  case log => rfl

theorem sampleDispatchable (e : Export) (found : sampleExecutable.exports[(0#64).toNat]? = some e) :
    Dispatchable .bits32 [sampleAllocated] e.exportDef ⟨[]⟩ [sampleRef] := by
  cases found
  refine ⟨?_, ?_, ?_, ?_⟩
  · simpa using sampleRef_valid .bits32
  · intro ref member base buffer present strela
    cases List.mem_singleton.mp member
    cases present
    cases strela
    exact List.mem_cons_self
  · unfold Fits NoWrap
    decide
  · unfold Fits NoWrap
    decide

/-- The CPU writes the job's input, and reads its output. -/
theorem coherent_runs_sample :
    ∃ s v v', Ops .bits32 sampleStart s ∧
      s.machine.log = [.read 33 v', .write 33 1, .read 32 v, .write 32 7] ∧
      ReadsLast (fun _ => 0) s.machine.log ∧
        ∀ w, view lineOf s.machine.cache w = lastWrite (fun _ => 0) s.machine.log w ∧
          (evict lineOf s.machine.cache (lineOf w)).mem w =
            lastWrite (fun _ => 0) s.machine.log w := by
  have fresh : Fresh (fun _ => 0) sampleStart :=
    ⟨⟨fun _ _ => rfl, fun _ none => none.elim, fun _ => id, fun _ _ => rfl⟩, rfl, rfl, rfl⟩
  obtain ⟨m, v, log, run⟩ := sampleExecutable_run (sampleStart.machine.cpuWrite 32 7)
  have allocate : Op .bits32 sampleStart ⟨sampleStart.machine, [sampleAllocated]⟩ := by
    refine .allocate 128 sampleAllocated ?_
    apply Run.call { valid := true, offsetWordsFromBase := 16, words := 32 }
      ⟨_, .refl, rfl, rfl, Or.inl rfl⟩
    apply Run.call true ⟨_, .refl, rfl⟩
    apply Run.call (0x40000000 : Nat) ⟨_, .refl, rfl⟩
    apply Run.call (.ok 0x1000 : CResult Nat) ⟨_, .refl, rfl⟩
    exact .ret _ _
  have write : Op .bits32 ⟨sampleStart.machine, [sampleAllocated]⟩
      ⟨sampleStart.machine.cpuWrite 32 7, [sampleAllocated]⟩ :=
    .cpuWrite sampleAllocated 16 7 List.mem_cons_self (by decide) .refl
  have dispatch : Op .bits32 ⟨sampleStart.machine.cpuWrite 32 7, [sampleAllocated]⟩
      ⟨m, [sampleAllocated]⟩ :=
    .dispatch sampleExecutable 0 ⟨[]⟩ [sampleRef] sampleDispatchable run
  have read : Op .bits32 ⟨m, [sampleAllocated]⟩ ⟨m.cpuRead 33, [sampleAllocated]⟩ :=
    .cpuRead sampleAllocated 17 List.mem_cons_self (by decide) .refl
  have ops := (((Relation.ReflTransGen.single allocate).tail write).tail dispatch).tail read
  exact ⟨_, v, _, ops, by rw [Machine.cpuRead, log]; rfl, coherent_runs .bits32 _ _ _ fresh ops⟩

end Estela.Runtime.Coherence
