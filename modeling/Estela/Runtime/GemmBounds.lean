import Estela.Runtime.GemmLoops

set_option autoImplicit false

/- Where the matrix product reads and writes: inside its operands and buffers, as far
as the output has room for the product. -/
namespace Estela.Runtime.CenteredGemm

open CallProgram

/-- The number of elements a shape speaks of. -/
def BufferView.elements (view : BufferView) : Nat := view.shape.foldl (· * ·) 1

/-- What the checks of the function let through. -/
structure Checked (x w y : BufferView) (rows depth columns : Nat) : Prop where
  xShape : x.shape = [rows, depth]
  wShape : w.shape = [columns, depth]
  yShape : ∃ yRows yColumns, y.shape = [yRows, yColumns]
  xType : x.elementType = .int8
  wType : w.elementType = .int8
  yType : y.elementType = .int32

/-- The elements of each view lie one after the other. -/
structure Dense (st : SizeT) (x w y : BufferView) : Prop where
  xBytes : x.byteLength = x.elements
  wBytes : w.byteLength = w.elements
  yBytes : y.byteLength = 4 * y.elements
  xFits : x.byteLength < 2 ^ st.width
  wFits : w.byteLength < 2 ^ st.width
  yFits : y.byteLength < 2 ^ st.width

/-- The function is called with nothing done yet, and the operands have the bytes their
views say. -/
structure Called (start : World) (x w y : BufferView) : Prop where
  unmapped : start.unmapped = false
  buffers : start.buffers = []
  jobs : start.jobs = []
  accesses : start.accesses = []
  xMapped : start.x.length = x.byteLength
  wMapped : start.w.length = w.byteLength
  yMapped : 4 * start.y.length = y.byteLength

section

variable {st : SizeT} {promised : Prop} {zX zW : BitVec 32} {start : World}
  {rows depth columns : Nat} {x w y : BufferView}

theorem elements_pair (view : BufferView) (first second : Nat)
    (shape : view.shape = [first, second]) :
    view.elements = first * second := by
  unfold BufferView.elements
  rw [shape, List.foldl_cons, List.foldl_cons, List.foldl_nil, Nat.one_mul]

/-- Past the checks are the mappings. -/
theorem myCenteredGemm_checked (kernelHandle : Nat) (checked : Checked x w y rows depth columns) :
    myCenteredGemm st kernelHandle x w y =
      scopedMap .x x (scopedMap .w w
        (scopedMap .y y (gemmBody st kernelHandle rows depth columns))) := by
  obtain ⟨yRows, yColumns, yShape⟩ := checked.yShape
  unfold myCenteredGemm
  rw [checked.xShape, checked.wShape, yShape]
  simp only [checked.xType, checked.wType, checked.yType, ne_eq, not_true_eq_false,
    or_self, if_false]

theorem Called.elements (dense : Dense st x w y) (called : Called start x w y) :
    start.y.length = y.elements := by
  have bytes := dense.yBytes
  have mapped := called.yMapped
  omega

theorem Called.ready (checked : Checked x w y rows depth columns) (dense : Dense st x w y)
    (called : Called start x w y) (sized : promised → 1 ≤ depth ∧ rows * columns < 2 ^ st.width) :
    Ready st promised start rows depth columns := by
  have xElements := elements_pair x rows depth checked.xShape
  have wElements := elements_pair w columns depth checked.wShape
  have xBytes := dense.xBytes
  have wBytes := dense.wBytes
  have xFits := dense.xFits
  have wFits := dense.wFits
  have yFits := dense.yFits
  have xMapped := called.xMapped
  have wMapped := called.wMapped
  have yMapped := called.yMapped
  refine ⟨called.buffers, called.jobs, called.accesses, ?_, ?_, ?_, ?_, ?_, sized⟩ <;> omega

theorem myCenteredGemm_ends (kernelHandle : Nat) (checked : Checked x w y rows depth columns)
    (ready : Ready st promised start rows depth columns) (after : World) (result : CResult Unit)
    (run : Run (Step st promised zX zW) (myCenteredGemm st kernelHandle x w y) start result after) :
    Ending st promised zX zW start rows depth columns result after := by
  rw [myCenteredGemm_checked kernelHandle checked] at run
  apply scopedMap_ends .x x _ ready after result _ run
  intro result after run
  apply scopedMap_ends .w w _ ready after result _ run
  intro result after run
  apply scopedMap_ends .y y _ ready after result _ run
  intro result after run
  exact gemmBody_ends kernelHandle ready after result run

/-- Where the output has an element for each of the product's, everything stays inside. -/
theorem Ending.inside (result : CResult Unit) (after : World)
    (enough : rows * columns ≤ start.y.length)
    (ending : Ending st promised zX zW start rows depth columns result after) : after.Inside := by
  cases result with
  | error stop => exact ending.1.inside enough
  | ok _ =>
    obtain ⟨sx, sw, sy, setting, progress⟩ := ending
    exact ⟨progress.inside enough, setting.jobsInside enough _ progress.buffers progress.jobs.each⟩

variable (st depth) in
/-- Every element is the output of a column in use, of some tile of its row. -/
theorem tileConf_element (sx sw sy : StrelaBuffer) (i j : Nat) (column : j < columns) :
    ∃ o ∈ (tileConf st sx sw sy depth columns i (3 * (j / 3))).out, o.count = 1 ∧
      o.offset = st.wrap (sy.offsetWordsFromBase + i * columns + j) := by
  obtain ⟨c, small, same⟩ : ∃ c < 3, j = 3 * (j / 3) + c := ⟨j % 3, by omega, by omega⟩
  generalize j / 3 = t at same
  subst same
  match c, small with
  | 0, _ => exact ⟨_, List.mem_cons_of_mem _ List.mem_cons_self, rfl, rfl⟩
  | 1, _ =>
    exact ⟨_, List.mem_cons_of_mem _ (List.mem_cons_of_mem _ List.mem_cons_self),
      if_pos column, rfl⟩
  | 2, _ =>
    exact ⟨_, List.mem_cons_of_mem _
      (List.mem_cons_of_mem _ (List.mem_cons_of_mem _ List.mem_cons_self)), if_pos column, rfl⟩

/-- The word after the last one of a buffer is outside, also where its offset wraps. -/
theorem wrap_outside (st : SizeT) (offset words : Nat) (small : words < 2 ^ st.width)
    (range : offset + words ≤ 2 ^ st.width) :
    ¬ (offset ≤ st.wrap (offset + words) + 0 ∧ st.wrap (offset + words) + 0 < offset + words) := by
  by_cases exact : offset + words < 2 ^ st.width
  · rw [SizeT.wrap_of_lt st _ exact]
    omega
  · have whole : offset + words = 2 ^ st.width := by omega
    have wrapped : st.wrap (offset + words) = 0 := by
      unfold SizeT.wrap
      rw [whole, Nat.mod_self]
    rw [wrapped]
    omega

/-- Where it has not, the last loop or a job goes past the end. -/
theorem Progress.outside {sx sw sy : StrelaBuffer} {after : World}
    (setting : Setting st promised start sx sw sy rows depth columns)
    (progress : Progress st promised zX zW start sx sw sy rows depth columns (rows * depth)
      (columns * depth) rows 0 (st.wrap (rows * columns)) after)
    (short : start.y.length < rows * columns) : ¬ after.Inside := by
  intro inside
  by_cases added : start.y.length < st.wrap (rows * columns)
  · have bad := inside.accesses _ (progress.logged _ added)
    exact Nat.lt_irrefl _ bad
  -- the count of the elements has wrapped, so the buffer has no word for element `past`
  · let past := st.wrap (rows * columns)
    have wrapped : past < rows * columns := by
      show st.wrap (rows * columns) < rows * columns
      omega
    have some_ : 0 < columns := by
      apply Nat.pos_of_ne_zero
      intro none_
      rw [none_, Nat.mul_zero] at wrapped
      exact Nat.not_lt_zero _ wrapped
    have row : past / columns < rows := Nat.div_lt_of_lt_mul (by rwa [Nat.mul_comm])
    have column : past % columns < columns := Nat.mod_lt _ some_
    have element : past / columns * columns + past % columns = past := Nat.div_add_mod' past columns
    obtain ⟨job, member, conf⟩ := progress.jobs.reached (past / columns) (past % columns / 3)
      ((lt_tileCount _ _).mpr (by omega)) (Or.inl row)
    obtain ⟨sx', sw', sy', buffers, confInside⟩ := inside.jobs job member
    rw [progress.buffers] at buffers
    cases buffers
    have range := setting.syRange
    have words : sy.words = past := setting.syWords
    obtain ⟨o, listed, one, offset⟩ :=
      tileConf_element st depth sx sw sy (past / columns) (past % columns) column
    rw [Nat.add_assoc, element] at offset
    rw [← conf] at listed
    have bad := confInside.outputs o listed 0 (by omega)
    rw [offset, words] at bad
    rw [words] at range
    exact wrap_outside st sy.offsetWordsFromBase past
      (Nat.mod_lt _ (Nat.two_pow_pos st.width)) range bad

/-- Nothing has failed so far. -/
structure Clear (v : World) : Prop where
  mapped : v.unmapped = false
  ok : v.failed = false
  jobs : ∀ job ∈ v.jobs, job.2 = .ok

variable (st zX zW) in
/-- Surroundings in which nothing fails. -/
def Smooth (v : World) (c : GemmCall) (answer : c.Answer) (v' : World) : Prop :=
  Step st False zX zW v c answer v' ∧ (Clear v → Clear v')

variable (st zX zW) in
theorem smooth_answers (v : World) (c : GemmCall) : ∃ answer v', Smooth st zX zW v c answer v' := by
  have same (v' : World) (unmapped : v'.unmapped = v.unmapped) (failed : v'.failed = v.failed)
      (jobs : v'.jobs = v.jobs) (clear : Clear v) : Clear v' :=
    ⟨unmapped.trans clear.mapped, failed.trans clear.ok, jobs ▸ clear.jobs⟩
  have still : (v.failed || false) = v.failed := Bool.or_false _
  cases c with
  | mapRange operand byteLength => exact ⟨(.ok () : CResult Unit), v, rfl, id⟩
  | unmapRange operand => exact ⟨(), v, rfl, id⟩
  | devInit => exact ⟨(), _, ⟨false, rfl⟩, same _ rfl still rfl⟩
  | bufferAlloc words =>
    refine ⟨(⟨true, 0, words⟩ : StrelaBuffer), _, ⟨false, rfl, ?_⟩, same _ rfl still rfl⟩
    intro _
    refine ⟨rfl, ?_, False.elim⟩
    intro small
    change 0 + words ≤ _
    omega
  | devOk => exact ⟨!v.failed, v, ⟨rfl, rfl⟩, id⟩
  | bufferToPtr buffer => exact ⟨(0 : Nat), _, ⟨false, rfl⟩, same _ rfl still rfl⟩
  | loadInt8 operand index =>
    refine ⟨(v.contents operand).getD index 0, _, ⟨?_, rfl⟩, same _ rfl rfl rfl⟩
    intro known found
    rw [List.getD_eq_getElem?_getD, found, Option.getD_some]
  | loadWord buffer index =>
      exact ⟨v.mem (buffer.offsetWordsFromBase + index), _, ⟨rfl, rfl⟩, same _ rfl rfl rfl⟩
  | storeWord buffer index value => exact ⟨(), _, rfl, same _ rfl rfl rfl⟩
  | loadInt32 index =>
    refine ⟨v.y.getD index 0, _, ⟨?_, rfl⟩, same _ rfl rfl rfl⟩
    intro known found
    rw [List.getD_eq_getElem?_getD, found, Option.getD_some]
  | storeInt32 index value => exact ⟨(), _, rfl, same _ rfl rfl rfl⟩
  | config kernel conf => exact ⟨(), _, ⟨false, rfl⟩, same _ rfl still rfl⟩
  | execute =>
    refine ⟨StrelaJobState.ok, _, ⟨false, v.mem, rfl, False.elim⟩, ?_⟩
    intro clear
    refine ⟨clear.mapped, still.trans clear.ok, ?_⟩
    intro job member
    rcases List.mem_append.mp member with old | new
    · exact clear.jobs job old
    · cases List.mem_singleton.mp new
      rfl
  | bufferFree buffer => exact ⟨(), _, ⟨false, rfl⟩, same _ rfl still rfl⟩

variable (zX zW) in
/-- Too small an output is run past by a call that returns OK. -/
theorem myCenteredGemm_outside (kernelHandle : Nat) (checked : Checked x w y rows depth columns)
    (dense : Dense st x w y) (called : Called start x w y) (clean : start.failed = false)
    (short : y.elements < rows * columns) :
    ∃ after, Run (Step st False zX zW) (myCenteredGemm st kernelHandle x w y) start (.ok ()) after ∧
      ¬ after.Inside := by
  obtain ⟨result, after, smooth⟩ :=
    exists_run (smooth_answers st zX zW) (myCenteredGemm st kernelHandle x w y) start
  have none_ : ∀ job ∈ start.jobs, job.2 = .ok := by
    rw [called.jobs]
    intro job member
    cases member
  have clear := Run.keeps Clear (fun _ _ _ _ holds move => move.2 holds) smooth
    ⟨called.unmapped, clean, none_⟩
  have run := Run.mono (fun _ _ _ _ move => move.1) smooth
  have ready : Ready st False start rows depth columns := called.ready checked dense False.elim
  have ending := myCenteredGemm_ends kernelHandle checked ready after result run
  cases result with
  | error stop =>
    rcases ending.1.blame with unmapped | failed | ⟨job, member, bad⟩
    · rw [clear.mapped] at unmapped
      cases unmapped
    · rw [clear.ok] at failed
      cases failed
    · exact absurd (clear.jobs job member) bad
  | ok _ =>
    obtain ⟨sx, sw, sy, setting, progress⟩ := ending
    refine ⟨after, run, progress.outside setting ?_⟩
    rw [called.elements dense]
    exact short

/-- The surroundings of a first call, with `x`, `w` and `y` for the operands' elements. -/
def World.initial (x w : List (BitVec 8)) (y : List (BitVec 32)) : World where
  failed := false
  unmapped := false
  x
  w
  y
  mem := fun _ => 0
  buffers := []
  conf := ⟨[], []⟩
  jobs := []
  accesses := []

/-- Every index is inside its operand or buffer, in every run, exactly if the output has
an element for each of the product's: its shape is not compared with the others'. -/
theorem myCenteredGemm_inside_iff (st : SizeT) (zX zW : BitVec 32)
    (kernelHandle rows depth columns : Nat) (x w y : BufferView)
    (checked : Checked x w y rows depth columns) (dense : Dense st x w y) :
    (∀ start, Called start x w y → ∀ result after,
      Run (Step st False zX zW) (myCenteredGemm st kernelHandle x w y) start result after →
        after.Inside) ↔
      rows * columns ≤ y.elements := by
  constructor
  · intro always
    by_cases enough : rows * columns ≤ y.elements
    · exact enough
    · let start := World.initial (List.replicate x.byteLength 0) (List.replicate w.byteLength 0)
        (List.replicate y.elements 0)
      have called : Called start x w y := by
        refine ⟨rfl, rfl, rfl, rfl, List.length_replicate, List.length_replicate, ?_⟩
        show 4 * (List.replicate y.elements 0).length = y.byteLength
        rw [List.length_replicate, dense.yBytes]
      obtain ⟨after, run, outside⟩ :=
        myCenteredGemm_outside zX zW kernelHandle checked dense called rfl (by omega)
      exact absurd (always start called _ after run) outside
  · intro enough start called result after run
    have ready : Ready st False start rows depth columns := called.ready checked dense False.elim
    have ending := myCenteredGemm_ends kernelHandle checked ready after result run
    exact ending.inside result after (by rw [called.elements dense]; exact enough)

/-- A product of 2x1 by 2x1 operands, with one element for its four results. -/
theorem myCenteredGemm_past_output :
    ¬ ∀ start, Called start ⟨[2, 1], .int8, 2⟩ ⟨[2, 1], .int8, 2⟩ ⟨[1, 1], .int32, 4⟩ →
      ∀ result after,
      Run (Step .bits32 False 0 0)
        (myCenteredGemm .bits32 0 ⟨[2, 1], .int8, 2⟩ ⟨[2, 1], .int8, 2⟩ ⟨[1, 1], .int32, 4⟩)
        start result after → after.Inside := by
  intro always
  have checked : Checked ⟨[2, 1], .int8, 2⟩ ⟨[2, 1], .int8, 2⟩ ⟨[1, 1], .int32, 4⟩ 2 1 2 :=
    ⟨rfl, rfl, ⟨1, 1, rfl⟩, rfl, rfl, rfl⟩
  have dense : Dense .bits32 ⟨[2, 1], .int8, 2⟩ ⟨[2, 1], .int8, 2⟩ ⟨[1, 1], .int32, 4⟩ :=
    ⟨rfl, rfl, rfl, by decide, by decide, by decide⟩
  have called : Called (.initial [1, 1] [1, 1] [0]) ⟨[2, 1], .int8, 2⟩ ⟨[2, 1], .int8, 2⟩
      ⟨[1, 1], .int32, 4⟩ := ⟨rfl, rfl, rfl, rfl, rfl, rfl, rfl⟩
  obtain ⟨after, run, outside⟩ := myCenteredGemm_outside 0 0 0 checked dense called rfl (by decide)
  exact outside (always _ called _ after run)

theorem myCenteredGemm_inside_iff_sample :
    (∀ start, Called start ⟨[1, 2], .int8, 2⟩ ⟨[3, 2], .int8, 6⟩ ⟨[1, 3], .int32, 12⟩ →
      ∀ result after,
      Run (Step .bits64 False 0 0)
        (myCenteredGemm .bits64 0 ⟨[1, 2], .int8, 2⟩ ⟨[3, 2], .int8, 6⟩ ⟨[1, 3], .int32, 12⟩)
        start result after → after.Inside) ↔ 1 * 3 ≤ 3 :=
  myCenteredGemm_inside_iff .bits64 0 0 0 1 2 3 ⟨[1, 2], .int8, 2⟩ ⟨[3, 2], .int8, 6⟩
    ⟨[1, 3], .int32, 12⟩
    ⟨rfl, rfl, ⟨1, 3, rfl⟩, rfl, rfl, rfl⟩ ⟨rfl, rfl, rfl, by decide, by decide, by decide⟩

end

end Estela.Runtime.CenteredGemm
