import Estela.Runtime.CenteredGemm

set_option autoImplicit false

/- The surroundings of the matrix product: what the calls do to memory and what
they log, and what is known after each turn of its loops. -/
namespace Estela.Runtime.CenteredGemm

open CallProgram

/-- An element of a mapping or a word of a STRELA buffer, of `length` in all. -/
structure Access where
  index : Nat
  length : Nat
  deriving DecidableEq, Repr

/-- The mapped operands, the words of STRELA memory, and what happened so far. -/
structure World where
  /-- libstrela's sticky error. -/
  failed : Bool
  /-- An operand could not be mapped. -/
  unmapped : Bool
  x : List (BitVec 8)
  w : List (BitVec 8)
  y : List (BitVec 32)
  mem : Nat → BitVec 32
  buffers : List StrelaBuffer
  conf : StrelaConf
  jobs : List (StrelaConf × StrelaJobState)
  accesses : List Access

def World.contents (v : World) : Operand → List (BitVec 8)
  | .x => v.x
  | .w => v.w
  | .y => []

def World.access (v : World) (index length : Nat) : World :=
  { v with accesses := v.accesses ++ [⟨index, length⟩] }

def writeWord (mem : Nat → BitVec 32) (word : Nat) (value : BitVec 32) : Nat → BitVec 32 :=
  fun other => if other = word then value else mem other

/-- No word belongs to both. -/
def Apart (a b : StrelaBuffer) : Prop :=
  ∀ i < a.words, ∀ j < b.words, a.offsetWordsFromBase + i ≠ b.offsetWordsFromBase + j

/-- The words a job writes. -/
def written (conf : StrelaConf) : List Nat :=
  conf.out.flatMap fun o => List.range' o.offset o.count

/-- The sum over `count` words of two input columns, less the zero points. -/
def dotWords (mem : Nat → BitVec 32) (a b : InpConf) (zX zW : BitVec 32) : Nat → BitVec 32
  | 0 => 0
  | k + 1 => dotWords mem a b zX zW k +
      (mem (a.offset + k * a.stride) - zX) * (mem (b.offset + k * b.stride) - zW)

/-- A column of the kernel's in use has as many words as column 0, and one result. -/
def FedColumn (first input : InpConf) (output : OutConf) : Prop :=
  input.count = 0 ∧ output.count = 0 ∨ input.count = first.count ∧ output.count = 1

/-- How the kernel is to be fed: column 0, and each of the columns 1 to 3 or not at all. -/
inductive Fed : StrelaConf → Prop
  | intro (first i1 i2 i3 : InpConf) (o0 o1 o2 o3 : OutConf) (some_ : 1 ≤ first.count)
      (none_ : o0.count = 0) (fed1 : FedColumn first i1 o1) (fed2 : FedColumn first i2 o2)
      (fed3 : FedColumn first i3 o3) : Fed ⟨[first, i1, i2, i3], [o0, o1, o2, o3]⟩

/-- What the kernel then does: one word for each column in use, and nothing else. -/
structure JobDone (zX zW : BitVec 32) (conf : StrelaConf) (mem mem' : Nat → BitVec 32) : Prop where
  results : ∀ (c : Nat) (first input : InpConf) (output : OutConf), conf.inp[0]? = some first →
    conf.inp[c]? = some input → conf.out[c]? = some output → output.count = 1 →
    mem' output.offset = dotWords mem first input zX zW first.count
  rest : ∀ word, word ∉ written conf → mem' word = mem word

/-- What a call may answer and do. Of an allocation that raises no error the size
is known, and that a `size_t` counts its words; where more is `promised`, also that
no two of them overlap, and what the kernel computes for zero points `zX` and `zW`. -/
def Step (st : SizeT) (promised : Prop) (zX zW : BitVec 32) (v : World) :
    (c : GemmCall) → c.Answer → World → Prop
  | .mapRange _ _, (.ok _ : CResult Unit), v' => v' = v
  | .mapRange _ _, (.error _ : CResult Unit), v' => v' = { v with unmapped := true }
  | .unmapRange _, _, v' => v' = v
  | .bufferAlloc words, (buffer : StrelaBuffer), v' => ∃ failed : Bool,
      v' = { v with failed := v.failed || failed, buffers := v.buffers ++ [buffer] } ∧
        (failed = false → buffer.words = words ∧
          (words < 2 ^ st.width → buffer.offsetWordsFromBase + buffer.words ≤ 2 ^ st.width) ∧
          (promised → ∀ other ∈ v.buffers, Apart other buffer))
  | .devOk, (ok : Bool), v' => ok = !v.failed ∧ v' = v
  | .loadInt8 operand index, (value : BitVec 8), v' =>
      (∀ known, (v.contents operand)[index]? = some known → value = known) ∧
        v' = v.access index (v.contents operand).length
  | .loadWord buffer index, (value : BitVec 32), v' =>
      value = v.mem (buffer.offsetWordsFromBase + index) ∧ v' = v.access index buffer.words
  | .storeWord buffer index value, _, v' =>
      v' = { v with mem := writeWord v.mem (buffer.offsetWordsFromBase + index) value }.access
        index buffer.words
  | .loadInt32 index, (value : BitVec 32), v' =>
      (∀ known, v.y[index]? = some known → value = known) ∧ v' = v.access index v.y.length
  | .storeInt32 index value, _, v' =>
      v' = { v with y := v.y.set index value }.access index v.y.length
  | .config _ conf, _, v' => ∃ failed : Bool, v' = { v with failed := v.failed || failed, conf }
  | .execute, (state : StrelaJobState), v' => ∃ (failed : Bool) (mem : Nat → BitVec 32),
      v' = { v with failed := v.failed || failed, mem, jobs := v.jobs ++ [(v.conf, state)] } ∧
        (promised → state = .ok → Fed v.conf → JobDone zX zW v.conf v.mem mem)
  | .devInit, _, v' => ∃ failed : Bool, v' = { v with failed := v.failed || failed }
  | .bufferToPtr _, _, v' => ∃ failed : Bool, v' = { v with failed := v.failed || failed }
  | .bufferFree _, _, v' => ∃ failed : Bool, v' = { v with failed := v.failed || failed }

section Turns

variable {st : SizeT} {promised : Prop} {zX zW : BitVec 32}

theorem copyIn_turn (operand : Operand) (buffer : StrelaBuffer) (i : Nat) (v v' : World)
    (result : CResult Unit)
    (run : Run (Step st promised zX zW) (do
      let value : BitVec 8 ← ask (.loadInt8 operand i)
      ask (.storeWord buffer i (value.signExtend 32))
      return .ok ()) v result v') :
    result = .ok () ∧ ∃ value : BitVec 8,
      (∀ known, (v.contents operand)[i]? = some known → value = known) ∧
      v' = { v with
        mem := writeWord v.mem (buffer.offsetWordsFromBase + i) (value.signExtend 32)
        accesses := v.accesses ++ [⟨i, (v.contents operand).length⟩, ⟨i, buffer.words⟩] } := by
  obtain ⟨(value : BitVec 8), loaded, ⟨known, rfl⟩, run⟩ := (run_request_iff _ _ _ _ _).mp run
  obtain ⟨_, stored, rfl, run⟩ := (run_request_iff _ _ _ _ _).mp run
  obtain ⟨rfl, rfl⟩ := (run_ret_iff _ _ _ _).mp run
  refine ⟨rfl, value, known, ?_⟩
  simp only [World.access, List.append_assoc, List.singleton_append]

theorem executeTile_turn (sx sw sy : StrelaBuffer) (depth columns i j : Nat) (kernel : StrelaKernel)
    (v v' : World) (result : CResult Unit)
    (run : Run (Step st promised zX zW)
      (executeTile st sx sw sy depth columns kernel i j) v result v') :
    ∃ (state : StrelaJobState) (failed : Bool) (mem : Nat → BitVec 32),
      result = (if state = .ok then .ok () else
        makeStatus .internal "STRELA job did not complete") ∧
      v' = { v with
        failed := v.failed || failed
        mem
        conf := tileConf st sx sw sy depth columns i j
        jobs := v.jobs ++ [(tileConf st sx sw sy depth columns i j, state)] } ∧
      (promised → state = .ok → Fed (tileConf st sx sw sy depth columns i j) →
        JobDone zX zW (tileConf st sx sw sy depth columns i j) v.mem mem) := by
  obtain ⟨_, configured, ⟨failed, rfl⟩, run⟩ := (run_request_iff _ _ _ _ _).mp run
  obtain ⟨(state : StrelaJobState), executed, ⟨failed', mem, rfl, done⟩, run⟩ :=
    (run_request_iff _ _ _ _ _).mp run
  obtain ⟨rfl, rfl⟩ := (run_ret_iff _ _ _ _).mp run
  refine ⟨state, failed || failed', mem, rfl, ?_, done⟩
  simp only [Bool.or_assoc]

theorem accumulate_turn (sy : StrelaBuffer) (i : Nat) (v v' : World) (result : CResult Unit)
    (run : Run (Step st promised zX zW) (do
      let product : BitVec 32 ← ask (.loadWord sy i)
      let before : BitVec 32 ← ask (.loadInt32 i)
      ask (.storeInt32 i (before + product))
      return .ok ()) v result v') :
    result = .ok () ∧ ∃ before : BitVec 32,
      (∀ known, v.y[i]? = some known → before = known) ∧
      v' = { v with
        y := v.y.set i (before + v.mem (sy.offsetWordsFromBase + i))
        accesses := v.accesses ++ [⟨i, sy.words⟩, ⟨i, v.y.length⟩, ⟨i, v.y.length⟩] } := by
  obtain ⟨(product : BitVec 32), loaded, ⟨rfl, rfl⟩, run⟩ := (run_request_iff _ _ _ _ _).mp run
  obtain ⟨(before : BitVec 32), read, ⟨known, rfl⟩, run⟩ := (run_request_iff _ _ _ _ _).mp run
  obtain ⟨_, stored, rfl, run⟩ := (run_request_iff _ _ _ _ _).mp run
  obtain ⟨rfl, rfl⟩ := (run_ret_iff _ _ _ _).mp run
  refine ⟨rfl, before, known, ?_⟩
  simp only [World.access, List.append_assoc, List.cons_append, List.nil_append]

end Turns

/-- The words an input column reads belong to the buffer. -/
def InpInside (c : InpConf) (buffer : StrelaBuffer) : Prop :=
  ∀ k < c.count, buffer.offsetWordsFromBase ≤ c.offset + k * c.stride ∧
    c.offset + k * c.stride < buffer.offsetWordsFromBase + buffer.words

/-- The words an output column writes belong to the buffer. -/
def OutInside (o : OutConf) (buffer : StrelaBuffer) : Prop :=
  ∀ k < o.count, buffer.offsetWordsFromBase ≤ o.offset + k ∧
    o.offset + k < buffer.offsetWordsFromBase + buffer.words

/-- Column 0 reads x, the other columns w, and all outputs are in y's buffer. -/
structure ConfInside (sx sw sy : StrelaBuffer) (conf : StrelaConf) : Prop where
  first : ∀ c, conf.inp[0]? = some c → InpInside c sx
  others : ∀ n c, conf.inp[n + 1]? = some c → InpInside c sw
  outputs : ∀ o ∈ conf.out, OutInside o sy

/-- No access and no job so far went past what it is on. -/
structure World.Inside (v : World) : Prop where
  accesses : ∀ a ∈ v.accesses, a.index < a.length
  jobs : ∀ job ∈ v.jobs, ∃ sx sw sy, v.buffers = [sx, sw, sy] ∧ ConfInside sx sw sy job.1

theorem lt_tileCount (columns t : Nat) : t < tileCount columns ↔ 3 * t < columns := by
  unfold tileCount
  omega

/-- Element `j` of row `i` in row-major order. -/
theorem element_lt {rows columns i j : Nat} (row : i < rows) (column : j < columns) :
    i * columns + j < rows * columns := by
  have next : (i + 1) * columns ≤ rows * columns := Nat.mul_le_mul_right columns row
  rw [Nat.succ_mul] at next
  omega

theorem element_divMod {columns j : Nat} (i : Nat) (column : j < columns) :
    (i * columns + j) / columns = i ∧ (i * columns + j) % columns = j := by
  rw [Nat.mul_comm]
  constructor
  · rw [Nat.mul_add_div (by omega), Nat.div_eq_of_lt column, Nat.add_zero]
  · rw [Nat.mul_add_mod, Nat.mod_eq_of_lt column]

section

variable (st : SizeT) (promised : Prop) (zX zW : BitVec 32) (start : World)
  (sx sw sy : StrelaBuffer)
  (rows depth columns : Nat)

/-- The operands of the product, and the buffers allocated for it. -/
structure Setting : Prop where
  xLength : start.x.length = rows * depth
  wLength : start.w.length = columns * depth
  xFits : rows * depth < 2 ^ st.width
  wFits : columns * depth < 2 ^ st.width
  yFits : 4 * start.y.length < 2 ^ st.width
  sxWords : sx.words = rows * depth
  swWords : sw.words = columns * depth
  syWords : sy.words = st.wrap (rows * columns)
  sxRange : sx.offsetWordsFromBase + sx.words ≤ 2 ^ st.width
  swRange : sw.offsetWordsFromBase + sw.words ≤ 2 ^ st.width
  syRange : sy.offsetWordsFromBase + sy.words ≤ 2 ^ st.width
  apart : promised → Apart sx sw ∧ Apart sx sy ∧ Apart sw sy
  sized : promised → 1 ≤ depth ∧ rows * columns < 2 ^ st.width

/-- Element `n` of the product, as the plain loop sums it. -/
def product (n : Nat) : BitVec 32 :=
  plainAcc depth (fun i => start.x.getD i 0) (fun i => start.w.getD i 0) zX zW (n / columns)
    (n % columns) depth

/-- The words copied so far, and the first `done` elements of the product. -/
structure Memory (copiedX copiedW done : Nat) (mem : Nat → BitVec 32) : Prop where
  x : ∀ i < copiedX, mem (sx.offsetWordsFromBase + i) = (start.x.getD i 0).signExtend 32
  w : ∀ i < copiedW, mem (sw.offsetWordsFromBase + i) = (start.w.getD i 0).signExtend 32
  products : ∀ n < done, mem (sy.offsetWordsFromBase + n) =
    product zX zW start depth columns n

/-- How many elements have been computed before turn `tile` of row `row`. -/
def doneAt (row tile : Nat) : Nat := row * columns + min (3 * tile) columns

/-- The jobs run before turn `tile` of row `row`. -/
structure Jobs (row tile : Nat) (jobs : List (StrelaConf × StrelaJobState)) : Prop where
  each : ∀ job ∈ jobs, ∃ i t, i < rows ∧ t < tileCount columns ∧
    job.1 = tileConf st sx sw sy depth columns i (3 * t)
  reached : ∀ i t, t < tileCount columns → i < row ∨ i = row ∧ t < tile →
    ∃ job ∈ jobs, job.1 = tileConf st sx sw sy depth columns i (3 * t)
  writes : rows * columns < 2 ^ st.width → (jobs.flatMap fun job => written job.1) =
    List.range' sy.offsetWordsFromBase (doneAt columns row tile)
  allOk : ∀ job ∈ jobs, job.2 = .ok

end

theorem tileConf_writes (st : SizeT) (sx sw sy : StrelaBuffer) (rows depth columns i t : Nat)
    (row : i < rows) (tile : t < tileCount columns) (fits : rows * columns < 2 ^ st.width)
    (words : sy.words = st.wrap (rows * columns))
    (range : sy.offsetWordsFromBase + sy.words ≤ 2 ^ st.width) :
    written (tileConf st sx sw sy depth columns i (3 * t)) =
      List.range' (sy.offsetWordsFromBase + (i * columns + 3 * t)) (min 3 (columns - 3 * t)) := by
  rw [lt_tileCount] at tile
  rw [SizeT.wrap_of_lt st _ fits] at words
  have exact (j : Nat) (column : j < columns) :
      st.wrap (sy.offsetWordsFromBase + i * columns + j) =
        sy.offsetWordsFromBase + (i * columns + j) := by
    have inside := element_lt row column
    rw [Nat.add_assoc]
    exact SizeT.wrap_of_lt st _ (by omega)
  simp only [written, tileConf, List.flatMap_cons, List.flatMap_nil,
    List.range'_zero, List.nil_append, List.append_nil, exact (3 * t) tile]
  by_cases second : 3 * t + 1 < columns
  · simp only [if_pos second, exact _ second]
    by_cases third : 3 * t + 2 < columns
    · have all : min 3 (columns - 3 * t) = 3 := by omega
      simp only [if_pos third, exact _ third, all]
      rfl
    · have two : min 3 (columns - 3 * t) = 2 := by omega
      simp only [if_neg third, two, List.range'_zero, List.append_nil]
      rfl
  · have third : ¬ 3 * t + 2 < columns := by omega
    have one : min 3 (columns - 3 * t) = 1 := by omega
    simp only [if_neg second, if_neg third, one, List.range'_zero, List.append_nil]

theorem doneAt_succ (columns row tile : Nat) (more : tile < tileCount columns) :
    doneAt columns row (tile + 1) = row * columns + 3 * tile + min 3 (columns - 3 * tile) ∧
      doneAt columns row tile = row * columns + 3 * tile := by
  rw [lt_tileCount] at more
  unfold doneAt
  omega

/-- At the end of a row its elements are done, and the next row begins. -/
theorem doneAt_row (columns row : Nat) :
    doneAt columns row (tileCount columns) = doneAt columns (row + 1) 0 := by
  have next : (row + 1) * columns = row * columns + columns := Nat.succ_mul row columns
  unfold doneAt tileCount
  omega

section

variable (st : SizeT) (promised : Prop) (zX zW : BitVec 32) (start : World)
  (sx sw sy : StrelaBuffer)
  (rows depth columns : Nat)

/-- What is known between two turns: so many words copied, tiles run, elements added. -/
structure Progress (copiedX copiedW row tile added : Nat) (v : World) : Prop where
  x : v.x = start.x
  w : v.w = start.w
  y : ∀ i, v.y[i]? = if i < added then
    (start.y[i]?).map (· + v.mem (sy.offsetWordsFromBase + i)) else start.y[i]?
  buffers : v.buffers = [sx, sw, sy]
  memory : promised → Memory zX zW start sx sw sy depth columns copiedX copiedW
    (doneAt columns row tile) v.mem
  jobs : Jobs st sx sw sy rows depth columns row tile v.jobs
  inside : rows * columns ≤ start.y.length → ∀ a ∈ v.accesses, a.index < a.length
  logged : ∀ i < added, ⟨i, start.y.length⟩ ∈ v.accesses

end

section

variable {st : SizeT} {promised : Prop} {zX zW : BitVec 32} {start : World}
  {sx sw sy : StrelaBuffer}
  {rows depth columns : Nat}

theorem writeWord_same (mem : Nat → BitVec 32) (word : Nat) (value : BitVec 32) :
    writeWord mem word value word = value := if_pos rfl

theorem writeWord_other (mem : Nat → BitVec 32) (word other : Nat) (value : BitVec 32)
    (different : other ≠ word) : writeWord mem word value other = mem other := if_neg different

/-- Copying word `i` of x. -/
theorem Memory.copyX {copiedW i : Nat} {mem : Nat → BitVec 32}
    (setting : Setting st promised start sx sw sy rows depth columns) (holds : promised)
    (memory : Memory zX zW start sx sw sy depth columns i copiedW 0 mem) (below : i < rows * depth)
    (copied : copiedW ≤ columns * depth) :
    Memory zX zW start sx sw sy depth columns (i + 1) copiedW 0
      (writeWord mem (sx.offsetWordsFromBase + i) ((start.x.getD i 0).signExtend 32)) := by
  obtain ⟨apartW, _, _⟩ := setting.apart holds
  have sxWords := setting.sxWords
  have swWords := setting.swWords
  refine ⟨?_, ?_, fun n none_ => absurd none_ (Nat.not_lt_zero n)⟩
  · intro k known
    by_cases same : k = i
    · rw [same, writeWord_same]
    · rw [writeWord_other _ _ _ _ (by omega)]
      exact memory.x k (by omega)
  · intro k known
    rw [writeWord_other]
    · exact memory.w k known
    · exact (apartW i (by omega) k (by omega)).symm

/-- Copying word `i` of w. -/
theorem Memory.copyW {copiedX i : Nat} {mem : Nat → BitVec 32}
    (setting : Setting st promised start sx sw sy rows depth columns) (holds : promised)
    (memory : Memory zX zW start sx sw sy depth columns copiedX i 0 mem)
    (below : i < columns * depth) (copied : copiedX ≤ rows * depth) :
    Memory zX zW start sx sw sy depth columns copiedX (i + 1) 0
      (writeWord mem (sw.offsetWordsFromBase + i) ((start.w.getD i 0).signExtend 32)) := by
  obtain ⟨apartX, _, _⟩ := setting.apart holds
  have sxWords := setting.sxWords
  have swWords := setting.swWords
  refine ⟨?_, ?_, fun n none_ => absurd none_ (Nat.not_lt_zero n)⟩
  · intro k known
    rw [writeWord_other]
    · exact memory.x k known
    · exact apartX k (by omega) i (by omega)
  · intro k known
    by_cases same : k = i
    · rw [same, writeWord_same]
    · rw [writeWord_other _ _ _ _ (by omega)]
      exact memory.w k (by omega)

/-- Row `i` of an operand, in its buffer. -/
theorem row_inside (buffer : StrelaBuffer) (count i : Nat) (below : i < count)
    (words : buffer.words = count * depth)
    (range : buffer.offsetWordsFromBase + buffer.words ≤ 2 ^ st.width) :
    InpInside
      { offset := st.wrap (buffer.offsetWordsFromBase + i * depth), count := depth, stride := 1 }
      buffer := by
  intro k inRow
  change k < depth at inRow
  have inside := element_lt below inRow
  have exact := SizeT.wrap_of_lt st (buffer.offsetWordsFromBase + i * depth) (by omega)
  simp only [exact, Nat.mul_one]
  omega

theorem none_inside (buffer : StrelaBuffer) (offset stride : Nat) :
    InpInside { offset, count := 0, stride } buffer :=
  fun k none_ => absurd none_ (Nat.not_lt_zero k)

variable (sy) in
theorem element_inside (i j : Nat) (row : i < rows) (column : j < columns)
    (fits : rows * columns < 2 ^ st.width) (words : sy.words = st.wrap (rows * columns))
    (range : sy.offsetWordsFromBase + sy.words ≤ 2 ^ st.width) :
    OutInside { offset := st.wrap (sy.offsetWordsFromBase + i * columns + j), count := 1 } sy := by
  intro k first
  have inside := element_lt row column
  rw [SizeT.wrap_of_lt st _ fits] at words
  have exact := SizeT.wrap_of_lt st (sy.offsetWordsFromBase + i * columns + j) (by omega)
  simp only [exact] at first ⊢
  omega

/-- A tile stays in the buffers if the product has no more elements than a `size_t` counts. -/
theorem tileConf_inside (setting : Setting st promised start sx sw sy rows depth columns)
    (fits : rows * columns < 2 ^ st.width) (i t : Nat) (row : i < rows)
    (tile : t < tileCount columns) :
    ConfInside sx sw sy (tileConf st sx sw sy depth columns i (3 * t)) := by
  rw [lt_tileCount] at tile
  have wRow (j : Nat) : j < columns → InpInside
      { offset := st.wrap (sw.offsetWordsFromBase + j * depth), count := depth, stride := 1 } sw :=
    fun column => row_inside sw columns j column setting.swWords setting.swRange
  have wMaybe (j : Nat) : InpInside
      { offset := st.wrap (sw.offsetWordsFromBase + j * depth)
        count := if j < columns then depth else 0, stride := 1 } sw := by
    by_cases column : j < columns
    · rw [if_pos column]
      exact wRow j column
    · rw [if_neg column]
      exact none_inside sw _ _
  have yElement (j : Nat) (column : j < columns) :=
    element_inside sy i j row column fits setting.syWords setting.syRange
  have yMaybe (j : Nat) : OutInside { offset := st.wrap (sy.offsetWordsFromBase + i * columns + j)
                                      count := if j < columns then 1 else 0 } sy := by
    by_cases column : j < columns
    · rw [if_pos column]
      exact yElement j column
    · rw [if_neg column]
      exact fun k none_ => absurd none_ (Nat.not_lt_zero k)
  refine ⟨?_, ?_, ?_⟩
  · intro c found
    cases found
    exact row_inside sx rows i row setting.sxWords setting.sxRange
  · intro n c found
    match n, found with
    | 0, found => cases found; exact wRow _ tile
    | 1, found => cases found; exact wMaybe _
    | 2, found => cases found; exact wMaybe _
  · intro o member
    simp only [tileConf, List.mem_cons, List.not_mem_nil, or_false] at member
    rcases member with rfl | rfl | rfl | rfl
    · exact fun k none_ => absurd none_ (Nat.not_lt_zero k)
    · exact yElement _ tile
    · exact yMaybe _
    · exact yMaybe _

/-- What is left when the function gives up: y as it was, and a failure to show for it. -/
structure Halted (start : World) (rows columns : Nat) (v : World) : Prop where
  y : v.y = start.y
  inside : rows * columns ≤ start.y.length → v.Inside
  blame : v.unmapped = true ∨ v.failed = true ∨ ∃ job ∈ v.jobs, job.2 ≠ .ok

theorem Setting.elements (setting : Setting st promised start sx sw sy rows depth columns)
    (enough : rows * columns ≤ start.y.length) : rows * columns < 2 ^ st.width := by
  have fits := setting.yFits
  omega

/-- The jobs that belong to tiles are inside, as far as the elements are. -/
theorem Setting.jobsInside (setting : Setting st promised start sx sw sy rows depth columns)
    (enough : rows * columns ≤ start.y.length) (v : World) (buffers : v.buffers = [sx, sw, sy])
    (each : ∀ job ∈ v.jobs, ∃ i t, i < rows ∧ t < tileCount columns ∧
      job.1 = tileConf st sx sw sy depth columns i (3 * t)) :
    ∀ job ∈ v.jobs, ∃ sx sw sy, v.buffers = [sx, sw, sy] ∧ ConfInside sx sw sy job.1 := by
  intro job member
  obtain ⟨i, t, row, tile, conf⟩ := each job member
  refine ⟨sx, sw, sy, buffers, ?_⟩
  rw [conf]
  exact tileConf_inside setting (setting.elements enough) i t row tile

theorem Jobs.next {row tile : Nat} {jobs : List (StrelaConf × StrelaJobState)}
    (setting : Setting st promised start sx sw sy rows depth columns)
    (before : Jobs st sx sw sy rows depth columns row tile jobs) (rowBelow : row < rows)
    (tileBelow : tile < tileCount columns) :
    Jobs st sx sw sy rows depth columns row (tile + 1)
      (jobs ++ [(tileConf st sx sw sy depth columns row (3 * tile), .ok)]) := by
  refine ⟨?_, ?_, ?_, ?_⟩
  · intro job member
    rcases List.mem_append.mp member with old | new
    · exact before.each job old
    · cases List.mem_singleton.mp new
      exact ⟨row, tile, rowBelow, tileBelow, rfl⟩
  · intro i t below earlier
    by_cases last : i = row ∧ t = tile
    · obtain ⟨rfl, rfl⟩ := last
      exact ⟨_, List.mem_append_right _ List.mem_cons_self, rfl⟩
    · obtain ⟨job, member, conf⟩ := before.reached i t below (by omega)
      exact ⟨job, List.mem_append_left _ member, conf⟩
  · intro fits
    obtain ⟨next, now⟩ := doneAt_succ columns row tile tileBelow
    have here := tileConf_writes st sx sw sy rows depth columns row tile rowBelow tileBelow fits
      setting.syWords setting.syRange
    rw [List.flatMap_append, before.writes fits, List.flatMap_singleton, here, next, now]
    exact List.range'_append_1
  · intro job member
    rcases List.mem_append.mp member with old | new
    · exact before.allOk job old
    · cases List.mem_singleton.mp new
      rfl

variable (st sx sw sy columns) in
theorem tileConf_fed (i t : Nat) (some_ : 1 ≤ depth) :
    Fed (tileConf st sx sw sy depth columns i (3 * t)) := by
  have fed (j : Nat) (a b : Nat) : FedColumn
      { offset := st.wrap (sx.offsetWordsFromBase + i * depth), count := depth, stride := 1 }
      { offset := a, count := if j < columns then depth else 0, stride := 1 }
      { offset := b, count := if j < columns then 1 else 0 } := by
    by_cases column : j < columns
    · simp only [if_pos column]
      exact Or.inr ⟨rfl, rfl⟩
    · simp only [if_neg column]
      exact Or.inl ⟨rfl, rfl⟩
  exact .intro _ _ _ _ _ _ _ _ some_ rfl (Or.inr ⟨rfl, rfl⟩) (fed _ _ _) (fed _ _ _)

theorem product_element (i j : Nat) (column : j < columns) :
    product zX zW start depth columns (i * columns + j) =
      plainAcc depth (fun i => start.x.getD i 0) (fun i => start.w.getD i 0) zX zW i j depth := by
  obtain ⟨row, rest⟩ := element_divMod i column
  unfold product
  rw [row, rest]

/-- The kernel's sum over copied words is the plain one over the operands. -/
theorem Memory.dot {done : Nat} {mem : Nat → BitVec 32}
    (setting : Setting st promised start sx sw sy rows depth columns)
    (memory : Memory zX zW start sx sw sy depth columns (rows * depth) (columns * depth) done mem)
    (i j : Nat) (row : i < rows) (column : j < columns) (count : Nat) (below : count ≤ depth) :
    dotWords mem
      { offset := st.wrap (sx.offsetWordsFromBase + i * depth), count := depth, stride := 1 }
      { offset := st.wrap (sw.offsetWordsFromBase + j * depth), count := depth, stride := 1 }
      zX zW count =
      plainAcc depth (fun i => start.x.getD i 0) (fun i => start.w.getD i 0) zX zW i j count := by
  induction count with
  | zero => rfl
  | succ k ih =>
      have inX := element_lt row (show k < depth by omega)
      have inW := element_lt column (show k < depth by omega)
      have xRange := setting.sxRange
      have wRange := setting.swRange
      rw [setting.sxWords] at xRange
      rw [setting.swWords] at wRange
      have xExact := SizeT.wrap_of_lt st (sx.offsetWordsFromBase + i * depth) (by omega)
      have wExact := SizeT.wrap_of_lt st (sw.offsetWordsFromBase + j * depth) (by omega)
      rw [dotWords, plainAcc, ih (by omega)]
      simp only [xExact, wExact, Nat.mul_one, Nat.add_assoc]
      rw [memory.x _ inX, memory.w _ inW]

/-- Each column in use of a completed job leaves its element of the product. -/
theorem JobDone.element {computed row tile : Nat} {mem mem' : Nat → BitVec 32}
    (done : JobDone zX zW (tileConf st sx sw sy depth columns row (3 * tile)) mem mem')
    (setting : Setting st promised start sx sw sy rows depth columns) (holds : promised)
    (memory : Memory zX zW start sx sw sy depth columns (rows * depth)
      (columns * depth) computed mem)
    (rowBelow : row < rows) (c : Nat) (small : c < 3) (column : 3 * tile + c < columns) :
    mem' (sy.offsetWordsFromBase + (row * columns + (3 * tile + c))) =
      product zX zW start depth columns (row * columns + (3 * tile + c)) := by
  have words := setting.syWords
  rw [SizeT.wrap_of_lt st _ (setting.sized holds).2] at words
  have result (c' j : Nat) (column : j < columns)
      (input : (tileConf st sx sw sy depth columns row (3 * tile)).inp[c']? = some
        { offset := st.wrap (sw.offsetWordsFromBase + j * depth), count := depth, stride := 1 })
      (output : (tileConf st sx sw sy depth columns row (3 * tile)).out[c']? =
        some { offset := st.wrap (sy.offsetWordsFromBase + row * columns + j), count := 1 }) :
      mem' (sy.offsetWordsFromBase + (row * columns + j)) =
        product zX zW start depth columns (row * columns + j) := by
    have inside := element_lt rowBelow column
    have range := setting.syRange
    have exact : st.wrap (sy.offsetWordsFromBase + row * columns + j) =
        sy.offsetWordsFromBase + (row * columns + j) := by
      rw [Nat.add_assoc]
      exact SizeT.wrap_of_lt st _ (by omega)
    have stored := done.results c' _ _ _ rfl input output rfl
    rw [exact] at stored
    rw [stored, product_element row j column]
    exact memory.dot setting row j rowBelow column depth (Nat.le_refl depth)
  match c, small with
  | 0, _ => exact result 1 (3 * tile) column rfl rfl
  | 1, _ =>
      exact result 2 (3 * tile + 1) column (by simp only [tileConf, if_pos column]; rfl)
        (by simp only [tileConf, if_pos column]; rfl)
  | 2, _ =>
      exact result 3 (3 * tile + 2) column (by simp only [tileConf, if_pos column]; rfl)
        (by simp only [tileConf, if_pos column]; rfl)

/-- After a completed job the elements of its tile are there as well. -/
theorem Memory.tile {row tile : Nat} {mem mem' : Nat → BitVec 32}
    (setting : Setting st promised start sx sw sy rows depth columns) (holds : promised)
    (memory : Memory zX zW start sx sw sy depth columns (rows * depth) (columns * depth)
      (doneAt columns row tile) mem) (rowBelow : row < rows) (tileBelow : tile < tileCount columns)
    (done : JobDone zX zW (tileConf st sx sw sy depth columns row (3 * tile)) mem mem') :
    Memory zX zW start sx sw sy depth columns (rows * depth) (columns * depth)
      (doneAt columns row (tile + 1)) mem' := by
  obtain ⟨_, apartX, apartW⟩ := setting.apart holds
  obtain ⟨_, fits⟩ := setting.sized holds
  obtain ⟨next, now⟩ := doneAt_succ columns row tile tileBelow
  have writes := tileConf_writes st sx sw sy rows depth columns row tile rowBelow tileBelow fits
    setting.syWords setting.syRange
  have words := setting.syWords
  rw [SizeT.wrap_of_lt st _ fits] at words
  have sxWords := setting.sxWords
  have swWords := setting.swWords
  have inRow : 3 * tile < columns := (lt_tileCount columns tile).mp tileBelow
  have last : row * columns + columns ≤ rows * columns := by
    have all := Nat.mul_le_mul_right columns rowBelow
    rwa [Nat.succ_mul] at all
  refine ⟨?_, ?_, ?_⟩
  · intro k known
    rw [done.rest, memory.x k known]
    rw [writes, List.mem_range'_1]
    intro overlap
    exact apartX k (by omega) (sx.offsetWordsFromBase + k - sy.offsetWordsFromBase)
      (by omega) (by omega)
  · intro k known
    rw [done.rest, memory.w k known]
    rw [writes, List.mem_range'_1]
    intro overlap
    exact apartW k (by omega) (sw.offsetWordsFromBase + k - sy.offsetWordsFromBase)
      (by omega) (by omega)
  · intro n below
    by_cases old : n < doneAt columns row tile
    · rw [done.rest, memory.products n old]
      rw [writes, List.mem_range'_1]
      omega
    · obtain ⟨c, small, same⟩ : ∃ c < 3, n = row * columns + (3 * tile + c) :=
        ⟨n - (row * columns + 3 * tile), by omega, by omega⟩
      rw [same]
      exact done.element setting holds memory rowBelow c small (by omega)

end

end Estela.Runtime.CenteredGemm
