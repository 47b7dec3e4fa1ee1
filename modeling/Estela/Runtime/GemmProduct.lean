import Estela.Lib.NdArray
import Estela.Runtime.GemmBounds

set_option autoImplicit false

/- What the matrix product computes: on the accelerator, tile by tile, the same as
its plain loops. -/
namespace Estela.Runtime.CenteredGemm

open CallProgram

section

variable {st : SizeT} {promised : Prop} {zX zW : BitVec 32} {start : World}
  {rows depth columns : Nat}

/-- One reading of an operand, at an index it has. -/
theorem loadInt8_exact (operand : Operand) (index : Nat) (v v' : World) (value : BitVec 8)
    (move : Step st promised zX zW v (.loadInt8 operand index) value v')
    (below : index < (v.contents operand).length) :
    value = (v.contents operand).getD index 0 ∧ v'.x = v.x ∧ v'.w = v.w ∧ v'.mem = v.mem := by
  obtain ⟨known, rfl⟩ := move
  exact ⟨getD_of_contents _ index below value known, rfl, rfl, rfl⟩

/-- The innermost plain loop sums the rest of the products, and writes nothing. -/
theorem plainDot_ends (i j : Nat) (row : i < rows) (column : j < columns)
    (xLength : start.x.length = rows * depth) (wLength : start.w.length = columns * depth)
    (xFits : rows * depth < 2 ^ st.width) (wFits : columns * depth < 2 ^ st.width)
    (more k : Nat) (whole : k + more = depth) (acc : BitVec 32) (v v' : World) (result : BitVec 32)
    (sumSoFar : acc = plainAcc depth (fun i => start.x.getD i 0)
      (fun i => start.w.getD i 0) zX zW i j k)
    (sameX : v.x = start.x) (sameW : v.w = start.w)
    (run : Run (Step st promised zX zW) (plainDot st depth zX zW i j more k acc) v result v') :
    result = plainAcc depth (fun i => start.x.getD i 0)
      (fun i => start.w.getD i 0) zX zW i j depth ∧
      v'.x = start.x ∧ v'.w = start.w ∧ v'.mem = v.mem := by
  induction more generalizing k acc v with
  | zero =>
      obtain ⟨rfl, rfl⟩ := (run_ret_iff _ _ _ _).mp run
      have last : k = depth := whole
      rw [last] at sumSoFar
      exact ⟨sumSoFar, sameX, sameW, rfl⟩
  | succ more ih =>
      have inX := element_lt row (show k < depth by omega)
      have inW := element_lt column (show k < depth by omega)
      rw [plainDot, SizeT.wrap_of_lt st _ (Nat.lt_trans inX xFits),
        SizeT.wrap_of_lt st _ (Nat.lt_trans inW wFits)] at run
      obtain ⟨(xIn : BitVec 8), v1, loadX, run⟩ := (run_request_iff _ _ _ _ _).mp run
      obtain ⟨(wIn : BitVec 8), v2, loadW, run⟩ := (run_request_iff _ _ _ _ _).mp run
      obtain ⟨isX, x1, w1, mem1⟩ := loadInt8_exact .x _ v v1 xIn loadX (by
        change _ < v.x.length
        rw [sameX, xLength]
        exact inX)
      obtain ⟨isW, x2, w2, mem2⟩ := loadInt8_exact .w _ v1 v2 wIn loadW (by
        change _ < v1.w.length
        rw [w1, sameW, wLength]
        exact inW)
      change xIn = v.x.getD _ 0 at isX
      change wIn = v1.w.getD _ 0 at isW
      rw [sameX] at isX
      rw [w1, sameW] at isW
      have rest := ih (k + 1) (by omega) _ v2 (by rw [plainAcc, sumSoFar, isX, isW])
        (x2.trans (x1.trans sameX)) (w2.trans (w1.trans sameW)) run
      rw [mem2, mem1] at rest
      exact rest

variable (start depth columns) in
/-- What is known when the plain loops have computed `done` elements. -/
structure PlainProgress (zX zW : BitVec 32) (sy : StrelaBuffer) (done : Nat)
    (v : World) : Prop where
  x : v.x = start.x
  w : v.w = start.w
  products : ∀ n < done, v.mem (sy.offsetWordsFromBase + n) = product zX zW start depth columns n

variable (promised) in
/-- One turn of the inner plain loop computes one element. -/
theorem PlainProgress.turn (sy : StrelaBuffer) (row column : Nat) (rowBelow : row < rows)
    (columnBelow : column < columns)
    (xLength : start.x.length = rows * depth) (wLength : start.w.length = columns * depth)
    (xFits : rows * depth < 2 ^ st.width) (wFits : columns * depth < 2 ^ st.width)
    (fits : rows * columns < 2 ^ st.width) :
    Triple (Step st promised zX zW)
      (PlainProgress start depth columns zX zW sy (row * columns + column))
      (do
        let acc ← plainDot st depth zX zW row column depth 0 0
        ask (.storeWord sy (st.wrap (row * columns + column)) acc)
        return .ok ())
      (Always (PlainProgress start depth columns zX zW sy (row * columns + (column + 1)))) := by
  intro v result v' progress run
  obtain ⟨acc, v1, dotRun, run⟩ := (run_bind_iff _ _ _ _ _).mp run
  obtain ⟨sum, x1, w1, mem1⟩ :=
    plainDot_ends row column rowBelow columnBelow xLength wLength xFits wFits
    depth 0 (Nat.zero_add _) 0 v v1 acc rfl progress.x progress.w dotRun
  obtain ⟨_, v2, stored, run⟩ := (run_request_iff _ _ _ _ _).mp run
  have inside := element_lt rowBelow columnBelow
  rw [SizeT.wrap_of_lt st _ (Nat.lt_trans inside fits)] at stored
  obtain ⟨rfl, rfl⟩ := (run_ret_iff _ _ _ _).mp run
  have after : v' = { v1 with
    mem := writeWord v1.mem (sy.offsetWordsFromBase + (row * columns + column)) acc }.access
      (row * columns + column) sy.words := stored
  rw [after]
  refine ⟨x1, w1, ?_⟩
  intro n below
  change writeWord v1.mem _ acc (sy.offsetWordsFromBase + n) = _
  by_cases last : n = row * columns + column
  · rw [last, writeWord_same, sum, product_element row column columnBelow]
  · rw [writeWord_other _ _ _ _ (by omega), mem1]
    exact progress.products n (by omega)

variable (promised zX zW) in
/-- The plain loops compute the product. -/
theorem plainLoop_ends (sy : StrelaBuffer)
    (xLength : start.x.length = rows * depth) (wLength : start.w.length = columns * depth)
    (xFits : rows * depth < 2 ^ st.width) (wFits : columns * depth < 2 ^ st.width)
    (fits : rows * columns < 2 ^ st.width) :
    Triple (Step st promised zX zW) (PlainProgress start depth columns zX zW sy 0)
      (plainLoop st sy rows depth columns zX zW)
      (Always (PlainProgress start depth columns zX zW sy (rows * columns))) := by
  have row_ (row : Nat) (rowBelow : row < rows) :
      Triple (Step st promised zX zW) (PlainProgress start depth columns zX zW sy (row * columns))
        (Prog.forEach (fun j => do
          let acc ← plainDot st depth zX zW row j depth 0 0
          ask (.storeWord sy (st.wrap (row * columns + j)) acc)
          return .ok ()) (List.range' 0 columns))
        (Always (PlainProgress start depth columns zX zW sy ((row + 1) * columns))) := by
    have inner := Triple.forRange
      (fun column => PlainProgress start depth columns zX zW sy (row * columns + column))
      (fun _ _ => False) _ 0 columns
      (fun column _ columnBelow => PlainProgress.turn promised sy row column rowBelow (by omega)
        xLength wLength xFits wFits fits)
    rw [Nat.zero_add] at inner
    rw [Nat.succ_mul]
    exact inner
  have outer := Triple.forRange
    (fun row => PlainProgress start depth columns zX zW sy (row * columns)) (fun _ _ => False)
    _ 0 rows (fun row _ rowBelow => row_ row (by omega))
  rw [Nat.zero_mul, Nat.zero_add] at outer
  exact outer

/-- The loops over the tiles have been left at their end: the function returns OK, or
has all operands mapped and only then finds the device's error. -/
def LoopsEnded (result : CResult Unit) (after : World) : Prop :=
  result = .ok () ∨ result = .error wentWrong ∧ after.unmapped = false

end

/-- The result's buffer after the loops: every word written once, each with its element
of the product. -/
structure Computed (zX zW : BitVec 32) (start : World) (rows depth columns : Nat)
    (sx sw sy : StrelaBuffer) (after : World) : Prop where
  buffers : after.buffers = [sx, sw, sy]
  words : sy.words = rows * columns
  completed : ∀ job ∈ after.jobs, job.2 = .ok
  once : (after.jobs.flatMap fun job => written job.1) =
    List.range' sy.offsetWordsFromBase (rows * columns)
  products : ∀ n < rows * columns,
    after.mem (sy.offsetWordsFromBase + n) = product zX zW start depth columns n

section

variable {st : SizeT} {zX zW : BitVec 32} {start : World} {rows depth columns : Nat}

theorem Progress.computed {sx sw sy : StrelaBuffer} {added : Nat} {after : World}
    (setting : Setting st True start sx sw sy rows depth columns)
    (progress : Progress st True zX zW start sx sw sy rows depth columns
      (rows * depth) (columns * depth)
      rows 0 added after) : Computed zX zW start rows depth columns sx sw sy after := by
  have fits := (setting.sized trivial).2
  have words := setting.syWords
  rw [SizeT.wrap_of_lt st _ fits] at words
  have all : doneAt columns rows 0 = rows * columns := by
    unfold doneAt
    omega
  refine ⟨progress.buffers, words, progress.jobs.allOk, ?_, ?_⟩
  · rw [progress.jobs.writes fits, all]
  · rw [← all]
    exact (progress.memory trivial).products

/-- After the last loop y has the product added to it. -/
theorem Progress.added {sx sw sy : StrelaBuffer} {after : World}
    (setting : Setting st True start sx sw sy rows depth columns)
    (progress : Progress st True zX zW start sx sw sy rows depth columns
      (rows * depth) (columns * depth)
      rows 0 (st.wrap (rows * columns)) after) (length : start.y.length = rows * columns) :
    after.y = start.y.mapIdx fun n before => before + product zX zW start depth columns n := by
  have computed := progress.computed setting
  apply List.ext_getElem?
  intro n
  rw [progress.y n, SizeT.wrap_of_lt st _ (setting.sized trivial).2, List.getElem?_mapIdx]
  by_cases below : n < rows * columns
  · rw [if_pos below, computed.products n below]
  · rw [if_neg below, List.getElem?_eq_none (by omega)]
    rfl

end

/-- On operands of matching shapes, with a kernel that does its sums: nothing reads or writes
outside the buffers; once the loops have ended, the result's buffer has been written word by
word, once each, with what the plain loops would store there; on OK that has been added to y,
which every error leaves alone, a job's that did not complete among them. -/
theorem myCenteredGemm_agrees (st : SizeT) (zX zW : BitVec 32)
    (kernelHandle rows depth columns : Nat) (x w y : BufferView)
    (checked : Checked x w y rows depth columns) (yShape : y.shape = [rows, columns])
    (some_ : 1 ≤ depth) (dense : Dense st x w y) (start after : World) (called : Called start x w y)
    (result : CResult Unit)
    (run : Run (Step st True zX zW) (myCenteredGemm st kernelHandle x w y) start result after) :
    after.Inside ∧
    (LoopsEnded result after → ∃ sx sw sy, Computed zX zW start rows depth columns sx sw sy after ∧
      ∀ before plainResult plain, before.x = start.x → before.w = start.w →
        Run (Step st True zX zW) (plainLoop st sy rows depth columns zX zW) before
          plainResult plain →
        plainResult = .ok () ∧ ∀ n < rows * columns,
          after.mem (sy.offsetWordsFromBase + n) = plain.mem (sy.offsetWordsFromBase + n)) ∧
    (result = .ok () →
      after.y = start.y.mapIdx fun n before => before + product zX zW start depth columns n) ∧
    (result ≠ .ok () → after.y = start.y) ∧
    ((∃ job ∈ after.jobs, job.2 ≠ .ok) → result ≠ .ok ()) := by
  have yElements := elements_pair y rows columns yShape
  have length := called.elements dense
  rw [yElements] at length
  have fits : rows * columns < 2 ^ st.width := by
    have yBytes := dense.yBytes
    have yFits := dense.yFits
    omega
  have ready : Ready st True start rows depth columns :=
    called.ready checked dense (fun _ => ⟨some_, fits⟩)
  have ending := myCenteredGemm_ends kernelHandle checked ready after result run
  refine ⟨ending.inside result after (by omega), ?_, ?_, ?_, ?_⟩
  · intro ended
    obtain ⟨sx, sw, sy, added, setting, progress⟩ : ∃ sx sw sy added,
        Setting st True start sx sw sy rows depth columns ∧
          Progress st True zX zW start sx sw sy rows depth columns (rows * depth)
            (columns * depth) rows 0
            added after := by
      rcases ended with rfl | ⟨rfl, mapped⟩
      · obtain ⟨sx, sw, sy, setting, progress⟩ := ending
        exact ⟨sx, sw, sy, _, setting, progress⟩
      · obtain ⟨sx, sw, sy, setting, progress⟩ := ending.2 rfl mapped
        exact ⟨sx, sw, sy, _, setting, progress⟩
    have computed := progress.computed setting
    refine ⟨sx, sw, sy, computed, ?_⟩
    intro before plainResult plain sameX sameW plainRun
    have loop := plainLoop_ends True zX zW sy ready.xLength ready.wLength ready.xFits
      ready.wFits fits before plainResult plain
      ⟨sameX, sameW, fun n none_ => absurd none_ (Nat.not_lt_zero n)⟩ plainRun
    cases plainResult with
    | error stop => exact loop.elim
    | ok _ =>
      refine ⟨rfl, fun n below => ?_⟩
      rw [computed.products n below]
      exact (loop.products n below).symm
  · intro ok
    subst ok
    obtain ⟨sx, sw, sy, setting, progress⟩ := ending
    exact progress.added setting length
  · intro failed
    cases result with
    | error stop => exact ending.1.y
    | ok _ => exact absurd rfl failed
  · rintro ⟨job, member, incomplete⟩ ok
    subst ok
    obtain ⟨sx, sw, sy, setting, progress⟩ := ending
    exact incomplete (progress.jobs.allOk job member)

/-- The function as its caller sees it: the plain loops, added to y, of operands in
row-major order. -/
def centeredGemm (zX zW : BitVec 32) (x w : RowMajor.NdArray (BitVec 8))
    (y : RowMajor.NdArray (BitVec 32)) :
    CResult (RowMajor.NdArray (BitVec 32)) :=
  match x.shape, w.shape, y.shape with
  | [rows, depth], [columns, depth'], [_, _] =>
      if depth ≠ depth' then
        makeStatus .invalidArgument "Expected the input matrices to have compatible shapes"
      else
        .ok {
          shape := y.shape
          elements := y.elements.mapIdx fun n before =>
            if n < rows * columns then
              before + plainAcc depth (x.elements.getD · 0) (w.elements.getD · 0) zX zW
                (n / columns)
                (n % columns) depth
            else before
          whole := by rw [List.length_mapIdx, y.whole] }
  | _, _, _ => makeStatus .invalidArgument "Expected 2D matrices for GEMM"

/-- On operands of compatible shapes. -/
theorem centeredGemm_ok (zX zW : BitVec 32) (x w : RowMajor.NdArray (BitVec 8))
    (y : RowMajor.NdArray (BitVec 32)) (rows depth columns yRows yColumns : Nat)
    (xShape : x.shape = [rows, depth]) (wShape : w.shape = [columns, depth])
    (yShape : y.shape = [yRows, yColumns]) :
    ∃ result, centeredGemm zX zW x w y = .ok result ∧ result.shape = [yRows, yColumns] ∧
      result.elements = y.elements.mapIdx fun n before =>
        if n < rows * columns then
          before + plainAcc depth (x.elements.getD · 0) (w.elements.getD · 0) zX zW (n / columns)
            (n % columns) depth
        else before := by
  obtain ⟨_, xElements, xWhole⟩ := x
  obtain ⟨_, wElements, wWhole⟩ := w
  obtain ⟨_, yElements, yWhole⟩ := y
  subst xShape wShape yShape
  exact ⟨_, if_neg (not_not_intro rfl), rfl, rfl⟩

/-- Of other depths the function refuses them. -/
theorem centeredGemm_refused (zX zW : BitVec 32) (x w : RowMajor.NdArray (BitVec 8))
    (y : RowMajor.NdArray (BitVec 32)) (rows depth columns depth' : Nat)
    (xShape : x.shape = [rows, depth]) (wShape : w.shape = [columns, depth'])
    (different : depth ≠ depth') :
    ∀ result, centeredGemm zX zW x w y ≠ .ok result := by
  obtain ⟨_, xElements, xWhole⟩ := x
  obtain ⟨_, wElements, wWhole⟩ := w
  subst xShape wShape
  intro result accepted
  unfold centeredGemm at accepted
  split at accepted
  · rename_i xs ws ys
    cases xs
    cases ws
    rw [if_pos different] at accepted
    cases accepted
  · cases accepted

/-- The accelerator's run that returns OK leaves the caller's result in y. -/
theorem centeredGemm_run (st : SizeT) (zX zW : BitVec 32) (kernelHandle rows depth columns : Nat)
    (x w y : BufferView) (checked : Checked x w y rows depth columns)
    (yShape : y.shape = [rows, columns]) (some_ : 1 ≤ depth) (dense : Dense st x w y)
    (start after : World) (called : Called start x w y)
    (xArray wArray : RowMajor.NdArray (BitVec 8)) (yArray : RowMajor.NdArray (BitVec 32))
    (xHeld : xArray.shape = x.shape ∧ xArray.elements = start.x)
    (wHeld : wArray.shape = w.shape ∧ wArray.elements = start.w)
    (yHeld : yArray.shape = y.shape ∧ yArray.elements = start.y)
    (run : Run (Step st True zX zW) (myCenteredGemm st kernelHandle x w y) start (.ok ()) after) :
    (centeredGemm zX zW xArray wArray yArray).map (·.elements) = .ok after.y := by
  have length := called.elements dense
  rw [elements_pair y rows columns yShape] at length
  have fits : rows * columns < 2 ^ st.width := by
    have yBytes := dense.yBytes
    have yFits := dense.yFits
    have yElements := elements_pair y rows columns yShape
    omega
  have ready : Ready st True start rows depth columns :=
    called.ready checked dense (fun _ => ⟨some_, fits⟩)
  obtain ⟨sx, sw, sy, setting, progress⟩ :=
    myCenteredGemm_ends kernelHandle checked ready after _ run
  rw [progress.added setting length]
  obtain ⟨result, accepted, _, elements⟩ :=
    centeredGemm_ok zX zW xArray wArray yArray rows depth columns rows columns
      (xHeld.1.trans checked.xShape) (wHeld.1.trans checked.wShape) (yHeld.1.trans yShape)
  rw [accepted]
  change Except.ok result.elements = _
  rw [elements, xHeld.2, wHeld.2, yHeld.2]
  congr 1
  apply List.ext_getElem?
  intro n
  rw [List.getElem?_mapIdx, List.getElem?_mapIdx]
  by_cases below : n < rows * columns
  · simp only [if_pos below]
    rfl
  · rw [List.getElem?_eq_none (by omega)]
    rfl

/-! Surroundings in which nothing fails, and a job does the sums. -/

/-- The first word behind all buffers. -/
def nextWord (buffers : List StrelaBuffer) : Nat :=
  buffers.foldl (fun next b => max next (b.offsetWordsFromBase + b.words)) 0

/-- The word that a column in use leaves its sum in. -/
def performed (zX zW : BitVec 32) (conf : StrelaConf) (mem : Nat → BitVec 32) (word : Nat) :
    BitVec 32 :=
  match conf.inp[0]?,
    (conf.inp.zip conf.out).find? (fun c => c.2.count = 1 ∧ c.2.offset = word) with
  | some first, some c => dotWords mem first c.1 zX zW first.count
  | _, _ => mem word

def granting (zX zW : BitVec 32) (v : World) : (c : GemmCall) → c.Answer × World
  | .mapRange _ _ => ((.ok () : CResult Unit), v)
  | .unmapRange _ => ((), v)
  | .bufferAlloc words =>
      let buffer : StrelaBuffer := ⟨true, nextWord v.buffers, words⟩
      (buffer, { v with
        failed := v.failed || decide (2 ^ 64 < nextWord v.buffers + words)
        buffers := v.buffers ++ [buffer] })
  | .devOk => (!v.failed, v)
  | .loadInt8 operand index => ((v.contents operand)[index]?.getD 0,
      v.access index (v.contents operand).length)
  | .loadWord buffer index => (v.mem (buffer.offsetWordsFromBase + index),
      v.access index buffer.words)
  | .storeWord buffer index value => ((), { v with
      mem := writeWord v.mem (buffer.offsetWordsFromBase + index) value }.access index buffer.words)
  | .loadInt32 index => (v.y[index]?.getD 0, v.access index v.y.length)
  | .storeInt32 index value => ((), { v with y := v.y.set index value }.access index v.y.length)
  | .config _ conf => ((), { v with conf })
  | .execute =>
      let state : StrelaJobState := if (written v.conf).Nodup then .ok else .failed
      (state, { v with
        mem := performed zX zW v.conf v.mem
        jobs := v.jobs ++ [(v.conf, state)] })
  | .devInit => ((), v)
  | .bufferToPtr _ => ((0 : Nat), v)
  | .bufferFree _ => ((), v)

theorem nextWord_mono (buffers : List StrelaBuffer) (next : Nat) :
    next ≤ buffers.foldl (fun next b => max next (b.offsetWordsFromBase + b.words)) next := by
  induction buffers generalizing next with
  | nil => exact Nat.le_refl next
  | cons b rest ih => exact (Nat.le_max_left _ _).trans (ih _)

theorem le_nextWord {buffers : List StrelaBuffer} {b : StrelaBuffer} (member : b ∈ buffers) :
    b.offsetWordsFromBase + b.words ≤ nextWord buffers := by
  obtain ⟨before, later, rfl⟩ := List.append_of_mem member
  rw [nextWord, List.foldl_append, List.foldl_cons]
  exact (Nat.le_max_right _ _).trans (nextWord_mono later _)

theorem performed_done {zX zW : BitVec 32} {conf : StrelaConf} (fed : Fed conf)
    (once : (written conf).Nodup) (mem : Nat → BitVec 32) :
    JobDone zX zW conf mem (performed zX zW conf mem) := by
  obtain ⟨first, i1, i2, i3, o0, o1, o2, o3, some_, none_, fed1, fed2, fed3⟩ := fed
  have apart (o o' : OutConf) (rest : List Nat) (one : o.count = 1) (one' : o'.count = 1)
      (member : o'.offset ∈ rest)
      (once : (List.range' o.offset o.count ++ rest).Nodup) : o.offset ≠ o'.offset := by
    intro same
    rw [one] at once
    exact (List.nodup_cons.mp once).1 (same ▸ member)
  simp only [written, List.flatMap_cons, List.flatMap_nil, List.append_nil, none_, List.range'_zero,
    List.nil_append] at once
  have last := (List.nodup_append.mp once).2.1
  refine ⟨?_, fun word outside => ?_⟩
  · intro c first' input output isFirst isInput isOutput one
    cases isFirst
    rcases c with _ | _ | _ | _ | c
    · cases isOutput
      rw [none_] at one
      cases one
    · cases isInput
      cases isOutput
      simp [performed, none_, one]
    · cases isInput
      cases isOutput
      have other : ¬ (o1.count = 1 ∧ o1.offset = o2.offset) := by
        rintro ⟨one', same⟩
        exact apart o1 o2 _ one' one (by simp [one]) once same
      simp [performed, none_, one, other]
    · cases isInput
      cases isOutput
      have other : ¬ (o1.count = 1 ∧ o1.offset = o3.offset) := by
        rintro ⟨one', same⟩
        exact apart o1 o3 _ one' one (by simp [one]) once same
      have other' : ¬ (o2.count = 1 ∧ o2.offset = o3.offset) := by
        rintro ⟨one', same⟩
        exact apart o2 o3 _ one' one (by simp [one]) last same
      simp [performed, none_, one, other, other']
    · cases isInput
  · have nobody : ([first, i1, i2, i3].zip [o0, o1, o2, o3]).find?
        (fun c => c.2.count = 1 ∧ c.2.offset = word) = none := by
      refine List.find?_eq_none.mpr fun c member hit => ?_
      obtain ⟨one, rfl⟩ := of_decide_eq_true hit
      refine outside (List.mem_flatMap.mpr ⟨c.2, (List.of_mem_zip member).2, ?_⟩)
      rw [one]
      exact List.mem_singleton_self _
    simp only [performed, nobody]
    rfl

theorem granting_done {zX zW : BitVec 32} (v : World)
    (completed : (granting zX zW v .execute).1 = StrelaJobState.ok) (fed : Fed v.conf) :
    JobDone zX zW v.conf v.mem (performed zX zW v.conf v.mem) := by
  apply performed_done fed
  by_contra again
  simp [granting, again] at completed

theorem granting_allowed {promised : Prop} {zX zW zX' zW' : BitVec 32} (v : World) (c : GemmCall)
    (same : promised → c = .execute → zX' = zX ∧ zW' = zW) :
    Step .bits64 promised zX' zW' v c (granting zX zW v c).1 (granting zX zW v c).2 := by
  cases c with
  | bufferAlloc words =>
      refine ⟨_, rfl, fun well => ⟨rfl, fun _ => ?_, fun _ other member i inside j _ => ?_⟩⟩
      · exact Nat.not_lt.mp (of_decide_eq_false well)
      · have := le_nextWord member
        show other.offsetWordsFromBase + i ≠ nextWord v.buffers + j
        omega
  | execute =>
      refine ⟨false, performed zX zW v.conf v.mem, ?_, fun holds completed fed => ?_⟩
      · simp [granting]
      · obtain ⟨rfl, rfl⟩ := same holds rfl
        exact granting_done v completed fed
  | config => exact ⟨false, by simp [granting]⟩
  | devInit | bufferToPtr | bufferFree => exact ⟨false, by simp [granting]⟩
  | loadInt8 operand index => exact ⟨fun known found => by simp [granting, found], rfl⟩
  | loadInt32 index => exact ⟨fun known found => by simp [granting, found], rfl⟩
  | devOk | loadWord => exact ⟨rfl, rfl⟩
  | mapRange | unmapRange | storeWord | storeInt32 => rfl

/-- Two rows, of two tiles each. -/
def twoTilesX : BufferView := ⟨[2, 2], .int8, 4⟩

def twoTilesW : BufferView := ⟨[4, 2], .int8, 8⟩

def twoTilesY : BufferView := ⟨[2, 4], .int32, 32⟩

def twoTiles : World := .initial [3, -1, 2, 0] [4, 5, 0, 1, 2, 2, -6, 7] [5, 6, 7, 8, 0, 0, 0, 0]

theorem myCenteredGemm_agrees_sample : ∃ after,
    Run (Step .bits64 True 1 2) (myCenteredGemm .bits64 0 twoTilesX twoTilesW twoTilesY) twoTiles
      (.ok ()) after ∧ after.y = [3, 4, 7, -18, -1, -1, 0, -13] := by
  have allowed (v : World) (c : GemmCall) :
      Step .bits64 True 1 2 v c (granting 1 2 v c).1 (granting 1 2 v c).2 :=
    granting_allowed v c fun _ _ => ⟨rfl, rfl⟩
  have run := Run.of_eval allowed (myCenteredGemm .bits64 0 twoTilesX twoTilesW twoTilesY) twoTiles
  have agrees := myCenteredGemm_agrees .bits64 1 2 0 2 2 4 twoTilesX twoTilesW twoTilesY
    ⟨rfl, rfl, ⟨2, 4, rfl⟩, rfl, rfl, rfl⟩ rfl (by decide)
    ⟨rfl, rfl, rfl, by decide, by decide, by decide⟩ twoTiles _
    ⟨rfl, rfl, rfl, rfl, rfl, rfl, rfl⟩ (.ok ()) run
  exact ⟨_, run, agrees.2.2.1 rfl⟩

end Estela.Runtime.CenteredGemm
