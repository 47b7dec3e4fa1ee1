import Estela.Runtime.GemmDevice

set_option autoImplicit false

/- The loops of the matrix product, turn by turn, and the function around them. -/
namespace Estela.Runtime.CenteredGemm

open CallProgram

/-- The message of an error found after the loops. -/
def wentWrong : Stop :=
  .status ⟨.internal, .text "STRELA something went wrong during the execution"⟩

/-- Giving up before the loops have ended. -/
def GaveUp (start : World) (rows columns : Nat) (stop : Stop) (v : World) : Prop :=
  stop ≠ wentWrong ∧ Halted start rows columns v

section

variable {st : SizeT} {promised : Prop} {zX zW : BitVec 32} {start : World}
  {sx sw sy : StrelaBuffer} {rows depth columns : Nat}

/-- The postcondition of what cannot fail. -/
def Always (holds : World → Prop) : CResult Unit → World → Prop :=
  Ended holds (fun _ _ => False)

theorem getD_of_contents (contents : List (BitVec 8)) (i : Nat) (below : i < contents.length)
    (value : BitVec 8) (known : ∀ found, contents[i]? = some found → value = found) :
    value = contents.getD i 0 := by
  have found := List.getElem?_eq_getElem below
  rw [known _ found, List.getD_eq_getElem?_getD, found, Option.getD_some]

theorem doneAt_zero (columns : Nat) : doneAt columns 0 0 = 0 := by
  unfold doneAt
  omega

/-- A word has been stored before the first job: memory moves on, nothing else does. -/
theorem Progress.stored {copiedX copiedW copiedX' copiedW' : Nat} {v : World}
    (progress : Progress st promised zX zW start sx sw sy rows depth columns
      copiedX copiedW 0 0 0 v)
    (mem : Nat → BitVec 32) (more : List Access)
    (memory : promised → Memory zX zW start sx sw sy depth columns copiedX' copiedW' 0 mem)
    (inside : ∀ a ∈ more, a.index < a.length) :
    Progress st promised zX zW start sx sw sy rows depth columns copiedX' copiedW' 0 0 0
      { v with mem, accesses := v.accesses ++ more } := by
  refine ⟨progress.x, progress.w, ?_, progress.buffers, ?_, progress.jobs, ?_, ?_⟩
  · intro i
    rw [if_neg (Nat.not_lt_zero i)]
    exact (progress.y i).trans (if_neg (Nat.not_lt_zero i))
  · intro holds
    rw [doneAt_zero]
    exact memory holds
  · intro fits a member
    rcases List.mem_append.mp member with old | new
    · exact progress.inside fits a old
    · exact inside a new
  · intro i none_
    exact absurd none_ (Nat.not_lt_zero i)

theorem Progress.copyX_turn (setting : Setting st promised start sx sw sy rows depth columns)
    (copiedW i : Nat) (below : i < rows * depth) (copied : copiedW ≤ columns * depth) :
    Triple (Step st promised zX zW)
      (Progress st promised zX zW start sx sw sy rows depth columns i copiedW 0 0 0)
      (do
        let value : BitVec 8 ← ask (.loadInt8 .x i)
        ask (.storeWord sx i (value.signExtend 32))
        return .ok ())
      (Always (Progress st promised zX zW start sx sw sy rows depth columns
        (i + 1) copiedW 0 0 0)) := by
  intro v result v' progress run
  obtain ⟨rfl, value, known, rfl⟩ := copyIn_turn .x sx i v v' result run
  have contents : v.contents .x = start.x := progress.x
  have length := setting.xLength
  have words := setting.sxWords
  rw [contents] at known ⊢
  apply progress.stored
  · intro holds
    have memory := progress.memory holds
    rw [doneAt_zero] at memory
    rw [getD_of_contents start.x i (by omega) value known]
    exact memory.copyX setting holds below copied
  · intro a member
    simp only [List.mem_cons, List.not_mem_nil, or_false] at member
    rcases member with rfl | rfl
    · change i < start.x.length
      omega
    · change i < sx.words
      omega

theorem Progress.copyW_turn (setting : Setting st promised start sx sw sy rows depth columns)
    (copiedX i : Nat) (below : i < columns * depth) (copied : copiedX ≤ rows * depth) :
    Triple (Step st promised zX zW)
      (Progress st promised zX zW start sx sw sy rows depth columns copiedX i 0 0 0)
      (do
        let value : BitVec 8 ← ask (.loadInt8 .w i)
        ask (.storeWord sw i (value.signExtend 32))
        return .ok ())
      (Always (Progress st promised zX zW start sx sw sy rows depth columns copiedX
        (i + 1) 0 0 0)) := by
  intro v result v' progress run
  obtain ⟨rfl, value, known, rfl⟩ := copyIn_turn .w sw i v v' result run
  have contents : v.contents .w = start.w := progress.w
  have length := setting.wLength
  have words := setting.swWords
  rw [contents] at known ⊢
  apply progress.stored
  · intro holds
    have memory := progress.memory holds
    rw [doneAt_zero] at memory
    rw [getD_of_contents start.w i (by omega) value known]
    exact memory.copyW setting holds below copied
  · intro a member
    simp only [List.mem_cons, List.not_mem_nil, or_false] at member
    rcases member with rfl | rfl
    · change i < start.w.length
      omega
    · change i < sw.words
      omega

theorem copyX_loop (setting : Setting st promised start sx sw sy rows depth columns) :
    Triple (Step st promised zX zW)
      (Progress st promised zX zW start sx sw sy rows depth columns 0 0 0 0 0)
      (copyIn .x sx (st.wrap (rows * depth)))
      (Always (Progress st promised zX zW start sx sw sy rows depth columns
        (rows * depth) 0 0 0 0)) := by
  have loop := Triple.forRange
    (fun i => Progress st promised zX zW start sx sw sy rows depth columns i 0 0 0 0)
      (fun _ _ => False) _
    0 (rows * depth) (fun i _ below => Progress.copyX_turn setting 0 i (by omega) (Nat.zero_le _))
  rw [Nat.zero_add] at loop
  unfold copyIn
  rw [SizeT.wrap_of_lt st _ setting.xFits]
  exact loop

theorem copyW_loop (setting : Setting st promised start sx sw sy rows depth columns) :
    Triple (Step st promised zX zW)
      (Progress st promised zX zW start sx sw sy rows depth columns (rows * depth) 0 0 0 0)
      (copyIn .w sw (st.wrap (columns * depth)))
      (Always (Progress st promised zX zW start sx sw sy rows depth columns (rows * depth)
        (columns * depth) 0 0 0)) := by
  have loop := Triple.forRange
    (fun i => Progress st promised zX zW start sx sw sy rows depth columns (rows * depth) i 0 0 0)
    (fun _ _ => False) _ 0 (columns * depth)
    (fun i _ below => Progress.copyW_turn setting (rows * depth) i (by omega) (Nat.le_refl _))
  rw [Nat.zero_add] at loop
  unfold copyIn
  rw [SizeT.wrap_of_lt st _ setting.wFits]
  exact loop

theorem Progress.y_same {copiedX copiedW row tile : Nat} {v : World}
    (progress : Progress st promised zX zW start sx sw sy rows depth columns copiedX
      copiedW row tile 0 v) :
    v.y = start.y := by
  apply List.ext_getElem?
  intro i
  exact (progress.y i).trans (if_neg (Nat.not_lt_zero i))

theorem Progress.tile_turn (setting : Setting st promised start sx sw sy rows depth columns)
    (kernel : StrelaKernel) (row tile : Nat) (rowBelow : row < rows)
    (tileBelow : tile < tileCount columns) :
    Triple (Step st promised zX zW)
      (Progress st promised zX zW start sx sw sy rows depth columns (rows * depth)
        (columns * depth) row tile 0)
      (executeTile st sx sw sy depth columns kernel row (3 * tile))
      (Ended (Progress st promised zX zW start sx sw sy rows depth columns
        (rows * depth) (columns * depth) row (tile + 1) 0) (GaveUp start rows columns)) := by
  intro v result v' progress run
  obtain ⟨state, failed, mem, rfl, rfl, done⟩ :=
    executeTile_turn sx sw sy depth columns row (3 * tile) kernel v v' result run
  by_cases completed : state = .ok
  · rw [if_pos completed]
    subst completed
    refine ⟨progress.x, progress.w, ?_, progress.buffers, ?_,
      progress.jobs.next setting rowBelow tileBelow,
      progress.inside, fun i none_ => absurd none_ (Nat.not_lt_zero i)⟩
    · intro i
      rw [if_neg (Nat.not_lt_zero i)]
      exact (progress.y i).trans (if_neg (Nat.not_lt_zero i))
    · intro holds
      have fed := tileConf_fed st sx sw sy columns row tile (setting.sized holds).1
      exact (progress.memory holds).tile setting holds rowBelow tileBelow (done holds rfl fed)
  · rw [if_neg completed]
    refine ⟨by decide, progress.y_same, ?_,
      Or.inr (Or.inr ⟨_, List.mem_append_right _ List.mem_cons_self, completed⟩)⟩
    intro enough
    refine ⟨progress.inside enough, setting.jobsInside enough _ progress.buffers ?_⟩
    intro job member
    rcases List.mem_append.mp member with old | new
    · exact progress.jobs.each job old
    · cases List.mem_singleton.mp new
      exact ⟨row, tile, rowBelow, tileBelow, rfl⟩

/-- At the end of a row the next one begins. -/
theorem Progress.nextRow {copiedX copiedW row : Nat} {v : World}
    (progress : Progress st promised zX zW start sx sw sy rows depth columns copiedX copiedW row
      (tileCount columns) 0 v) :
    Progress st promised zX zW start sx sw sy rows depth columns copiedX copiedW
    (row + 1) 0 0 v := by
  have done := doneAt_row columns row
  refine ⟨progress.x, progress.w, progress.y, progress.buffers, ?_, ?_,
    progress.inside, progress.logged⟩
  · rw [← done]
    exact progress.memory
  · refine ⟨progress.jobs.each, ?_, ?_, progress.jobs.allOk⟩
    · intro i t below earlier
      exact progress.jobs.reached i t below (by omega)
    · rw [← done]
      exact progress.jobs.writes

theorem tiledLoop_ends (setting : Setting st promised start sx sw sy rows depth columns)
    (kernel : StrelaKernel) :
    Triple (Step st promised zX zW)
      (Progress st promised zX zW start sx sw sy rows depth columns (rows * depth)
        (columns * depth) 0 0 0)
      (tiledLoop st sx sw sy rows depth columns kernel)
      (Ended (Progress st promised zX zW start sx sw sy rows depth columns
        (rows * depth) (columns * depth) rows 0 0) (GaveUp start rows columns)) := by
  have row_ (row : Nat) (rowBelow : row < rows) : Triple (Step st promised zX zW)
      (Progress st promised zX zW start sx sw sy rows depth columns (rows * depth)
        (columns * depth) row 0 0)
      (Prog.forEach (fun t => executeTile st sx sw sy depth columns kernel row (3 * t))
        (List.range' 0 (tileCount columns)))
      (Ended (Progress st promised zX zW start sx sw sy rows depth columns
        (rows * depth) (columns * depth) (row + 1) 0 0) (GaveUp start rows columns)) := by
    have inner := Triple.forRange
      (fun tile => Progress st promised zX zW start sx sw sy rows depth columns (rows * depth)
        (columns * depth) row tile 0) (GaveUp start rows columns) _ 0 (tileCount columns)
      (fun tile _ tileBelow =>
        Progress.tile_turn setting kernel row tile rowBelow (by omega))
    rw [Nat.zero_add] at inner
    refine Triple.post _ inner (fun result v ended => ?_)
    cases result with
    | error stop => exact ended
    | ok _ => exact Progress.nextRow ended
  have outer := Triple.forRange
    (fun row => Progress st promised zX zW start sx sw sy rows depth columns (rows * depth)
      (columns * depth) row 0 0) (GaveUp start rows columns)
    _ 0 rows (fun row _ rowBelow => row_ row (by omega))
  rw [Nat.zero_add] at outer
  exact outer

theorem Progress.y_length {copiedX copiedW row tile added : Nat} {v : World}
    (progress : Progress st promised zX zW start sx sw sy rows depth columns copiedX copiedW
      row tile added v) :
    v.y.length = start.y.length := by
  have last := progress.y start.y.length
  have last' := progress.y v.y.length
  rw [List.getElem?_eq_none (Nat.le_refl start.y.length), Option.map_none, ite_self,
    List.getElem?_eq_none_iff] at last
  rw [List.getElem?_eq_none (Nat.le_refl v.y.length)] at last'
  have none_ : start.y[v.y.length]? = none := by
    by_cases early : v.y.length < added
    · rw [if_pos early] at last'
      exact Option.map_eq_none_iff.mp last'.symm
    · rw [if_neg early] at last'
      exact last'.symm
  rw [List.getElem?_eq_none_iff] at none_
  omega

theorem Progress.accumulate_turn (setting : Setting st promised start sx sw sy rows depth columns)
    (i : Nat) (below : i < st.wrap (rows * columns)) :
    Triple (Step st promised zX zW)
      (Progress st promised zX zW start sx sw sy rows depth columns (rows * depth)
        (columns * depth) rows 0 i)
      (do
        let product : BitVec 32 ← ask (.loadWord sy i)
        let before : BitVec 32 ← ask (.loadInt32 i)
        ask (.storeInt32 i (before + product))
        return .ok ())
      (Always (Progress st promised zX zW start sx sw sy rows depth columns (rows * depth)
        (columns * depth) rows 0 (i + 1))) := by
  intro v result v' progress run
  obtain ⟨rfl, before, known, rfl⟩ := CenteredGemm.accumulate_turn sy i v v' result run
  have words := setting.syWords
  have whole : st.wrap (rows * columns) ≤ rows * columns := Nat.mod_le _ _
  have here : v.y[i]? = start.y[i]? := (progress.y i).trans (if_neg (Nat.lt_irrefl i))
  have length := progress.y_length
  refine ⟨progress.x, progress.w, ?_, progress.buffers, progress.memory, progress.jobs, ?_, ?_⟩
  · intro k
    change (v.y.set i (before + v.mem (sy.offsetWordsFromBase + i)))[k]? = _
    rw [List.getElem?_set]
    by_cases same : i = k
    · subst same
      rw [if_pos rfl, if_pos (Nat.lt_succ_self i), ← here]
      by_cases inside : i < v.y.length
      · have found := List.getElem?_eq_getElem inside
        rw [if_pos inside, found, known _ found]
        rfl
      · rw [if_neg inside, List.getElem?_eq_none (by omega)]
        rfl
    · rw [if_neg same, progress.y k]
      by_cases earlier : k < i
      · rw [if_pos earlier, if_pos (by omega)]
      · rw [if_neg earlier, if_neg (by omega)]
  · intro enough a member
    rcases List.mem_append.mp member with old | new
    · exact progress.inside enough a old
    · simp only [List.mem_cons, List.not_mem_nil, or_false] at new
      rcases new with rfl | rfl | rfl
      · change i < sy.words
        omega
      · change i < v.y.length
        omega
      · change i < v.y.length
        omega
  · intro k added
    by_cases same : k = i
    · refine List.mem_append_right _ ?_
      rw [same, ← length]
      exact List.mem_cons_of_mem _ List.mem_cons_self
    · exact List.mem_append_left _ (progress.logged k (by omega))

theorem accumulate_loop (setting : Setting st promised start sx sw sy rows depth columns) :
    Triple (Step st promised zX zW)
      (Progress st promised zX zW start sx sw sy rows depth columns (rows * depth)
        (columns * depth) rows 0 0)
      (accumulate sy (st.wrap (rows * columns)))
      (Always (Progress st promised zX zW start sx sw sy rows depth columns (rows * depth)
        (columns * depth) rows 0 (st.wrap (rows * columns)))) := by
  have loop := Triple.forRange
    (fun i => Progress st promised zX zW start sx sw sy rows depth columns (rows * depth)
      (columns * depth) rows 0 i) (fun _ _ => False) _ 0 (st.wrap (rows * columns))
    (fun i _ below => Progress.accumulate_turn setting i (by omega))
  rw [Nat.zero_add] at loop
  exact loop

/-- No call has been made yet, and the operands have the lengths their shapes say. -/
structure Ready (st : SizeT) (promised : Prop) (start : World) (rows depth columns : Nat) :
    Prop where
  buffers : start.buffers = []
  jobs : start.jobs = []
  accesses : start.accesses = []
  xLength : start.x.length = rows * depth
  wLength : start.w.length = columns * depth
  xFits : rows * depth < 2 ^ st.width
  wFits : columns * depth < 2 ^ st.width
  yFits : 4 * start.y.length < 2 ^ st.width
  sized : promised → 1 ≤ depth ∧ rows * columns < 2 ^ st.width

/-- What the function leaves behind, by its result. -/
def Ending (st : SizeT) (promised : Prop) (zX zW : BitVec 32) (start : World)
    (rows depth columns : Nat) :
    CResult Unit → World → Prop
  | .ok _, v => ∃ sx sw sy, Setting st promised start sx sw sy rows depth columns ∧
      Progress st promised zX zW start sx sw sy rows depth columns (rows * depth)
        (columns * depth) rows 0
        (st.wrap (rows * columns)) v
  | .error stop, v => Halted start rows columns v ∧
      (stop = wentWrong → v.unmapped = false → ∃ sx sw sy,
      Setting st promised start sx sw sy rows depth columns ∧
        Progress st promised zX zW start sx sw sy rows depth columns (rows * depth)
          (columns * depth) rows 0
          0 v)

theorem Progress.start_ (ready : Ready st promised start rows depth columns) (failed : Bool) :
    Progress st promised zX zW start sx sw sy rows depth columns 0 0 0 0 0
      { start with failed, buffers := start.buffers ++ [sx] ++ [sw] ++ [sy] } := by
  refine ⟨rfl, rfl, fun i => (if_neg (Nat.not_lt_zero i)).symm, ?_, ?_, ?_, ?_,
    fun i none_ => absurd none_ (Nat.not_lt_zero i)⟩
  · rw [ready.buffers]
    rfl
  · intro _
    rw [doneAt_zero]
    exact ⟨fun i none_ => absurd none_ (Nat.not_lt_zero i),
      fun i none_ => absurd none_ (Nat.not_lt_zero i),
      fun n none_ => absurd none_ (Nat.not_lt_zero n)⟩
  · rw [ready.jobs]
    refine ⟨fun job none_ => (List.not_mem_nil none_).elim, ?_, ?_,
      fun job none_ => (List.not_mem_nil none_).elim⟩
    · intro i t _ earlier
      omega
    · intro _
      rw [doneAt_zero]
      rfl
  · rw [ready.accesses]
    intro _ a none_
    cases none_

/-- The device's error is not something the loops look at. -/
theorem Progress.setFailed {copiedX copiedW row tile added : Nat} {v : World} (failed : Bool)
    (progress : Progress st promised zX zW start sx sw sy rows depth columns copiedX copiedW
      row tile added v) :
    Progress st promised zX zW start sx sw sy rows depth columns copiedX copiedW row tile added
      { v with failed } :=
  ⟨progress.x, progress.w, progress.y, progress.buffers, progress.memory,
    progress.jobs, progress.inside, progress.logged⟩

/-- Before any job, the function gives up with nothing done. -/
theorem Ready.halted (ready : Ready st promised start rows depth columns) (v : World)
    (y : v.y = start.y) (jobs : v.jobs = start.jobs) (accesses : v.accesses = start.accesses)
    (blame : v.unmapped = true ∨ v.failed = true) : Halted start rows columns v := by
  refine ⟨y, ?_, ?_⟩
  · intro _
    refine ⟨?_, ?_⟩
    · rw [accesses, ready.accesses]
      intro a none_
      cases none_
    · rw [jobs, ready.jobs]
      intro job none_
      cases none_
  · rcases blame with unmapped | failed
    · exact Or.inl unmapped
    · exact Or.inr (Or.inl failed)

/-- From the loops on. -/
theorem gemmLoops_ends (setting : Setting st promised start sx sw sy rows depth columns)
    (kernel : StrelaKernel) (v v' : World) (result : CResult Unit)
    (progress : Progress st promised zX zW start sx sw sy rows depth columns 0 0 0 0 0 v)
    (run : Run (Step st promised zX zW) (do
      let _copied ← copyIn .x sx (st.wrap (rows * depth))
      let _copied ← copyIn .w sw (st.wrap (columns * depth))
      let status ← tiledLoop st sx sw sy rows depth columns kernel
      match status with
      | .error stop => return .error stop
      | .ok _ => do
        let ok : Bool ← ask .devOk
        match ok with
        | false => return makeStatus .internal "STRELA something went wrong during the execution"
        | true => do
          let _added ← accumulate sy (st.wrap (rows * columns))
          ask (.bufferFree sx)
          ask (.bufferFree sw)
          ask (.bufferFree sy)
          return .ok ()) v result v') :
    Ending st promised zX zW start rows depth columns result v' := by
  obtain ⟨copied, v1, copyRun, run⟩ := (run_bind_iff _ _ _ _ _).mp run
  have afterX := copyX_loop setting v copied v1 progress copyRun
  cases copied with
  | error stop => exact afterX.elim
  | ok _ =>
    obtain ⟨copied, v2, copyRun, run⟩ := (run_bind_iff _ _ _ _ _).mp run
    have afterW := copyW_loop setting v1 copied v2 afterX copyRun
    cases copied with
    | error stop => exact afterW.elim
    | ok _ =>
      obtain ⟨status, v3, loopRun, run⟩ := (run_bind_iff _ _ _ _ _).mp run
      have afterLoop := tiledLoop_ends setting kernel v2 status v3 afterW loopRun
      cases status with
      | error stop =>
        obtain ⟨rfl, rfl⟩ := (run_ret_iff _ _ _ _).mp run
        exact ⟨afterLoop.2, fun bad _ => absurd bad afterLoop.1⟩
      | ok _ =>
        obtain ⟨(ok : Bool), v4, ⟨answer, rfl⟩, run⟩ := (run_request_iff _ _ _ _ _).mp run
        cases ok with
        | false =>
          obtain ⟨rfl, rfl⟩ := (run_ret_iff _ _ _ _).mp run
          refine ⟨⟨Progress.y_same afterLoop, ?_, Or.inr (Or.inl ?_)⟩,
            fun _ _ => ⟨sx, sw, sy, setting, afterLoop⟩⟩
          · intro enough
            exact ⟨afterLoop.inside enough,
              setting.jobsInside enough _ afterLoop.buffers afterLoop.jobs.each⟩
          · exact (Bool.not_eq_false' _).mp answer.symm
        | true =>
          obtain ⟨added, v5, addRun, run⟩ := (run_bind_iff _ _ _ _ _).mp run
          have afterAdd := accumulate_loop setting _ added v5 afterLoop addRun
          cases added with
          | error stop => exact afterAdd.elim
          | ok _ =>
            obtain ⟨_, v6, ⟨f6, rfl⟩, run⟩ := (run_request_iff _ _ _ _ _).mp run
            obtain ⟨_, v7, ⟨f7, rfl⟩, run⟩ := (run_request_iff _ _ _ _ _).mp run
            obtain ⟨_, v8, ⟨f8, rfl⟩, run⟩ := (run_request_iff _ _ _ _ _).mp run
            obtain ⟨rfl, rfl⟩ := (run_ret_iff _ _ _ _).mp run
            exact ⟨sx, sw, sy, setting, ((Progress.setFailed _ afterAdd).setFailed _).setFailed _⟩

theorem gemmBody_ends (kernelHandle : Nat) (ready : Ready st promised start rows depth columns)
    (v' : World) (result : CResult Unit)
    (run : Run (Step st promised zX zW)
      (gemmBody st kernelHandle rows depth columns) start result v') :
    Ending st promised zX zW start rows depth columns result v' := by
  obtain ⟨_, v1, ⟨f1, rfl⟩, run⟩ := (run_request_iff _ _ _ _ _).mp run
  obtain ⟨(sx : StrelaBuffer), v2, ⟨f2, rfl, allocX⟩, run⟩ := (run_request_iff _ _ _ _ _).mp run
  obtain ⟨(sw : StrelaBuffer), v3, ⟨f3, rfl, allocW⟩, run⟩ := (run_request_iff _ _ _ _ _).mp run
  obtain ⟨(sy : StrelaBuffer), v4, ⟨f4, rfl, allocY⟩, run⟩ := (run_request_iff _ _ _ _ _).mp run
  obtain ⟨(ok : Bool), v5, ⟨answer, rfl⟩, run⟩ := (run_request_iff _ _ _ _ _).mp run
  cases ok with
  | false =>
    obtain ⟨rfl, rfl⟩ := (run_ret_iff _ _ _ _).mp run
    refine ⟨ready.halted _ rfl rfl rfl (Or.inr ((Bool.not_eq_false' _).mp answer.symm)), ?_⟩
    intro bad
    exact absurd bad (by decide)
  | true =>
    have clear : f2 = false ∧ f3 = false ∧ f4 = false := by
      have none_ := (Bool.not_eq_true' _).mp answer.symm
      simp only [Bool.or_eq_false_iff] at none_
      exact ⟨none_.1.1.2, none_.1.2, none_.2⟩
    obtain ⟨xWords, xRange, _⟩ := allocX clear.1
    obtain ⟨wWords, wRange, wApart⟩ := allocW clear.2.1
    obtain ⟨yWords, yRange, yApart⟩ := allocY clear.2.2
    have small (words : Nat) : st.wrap words < 2 ^ st.width :=
      Nat.mod_lt _ (Nat.two_pow_pos st.width)
    rw [SizeT.wrap_of_lt st _ ready.xFits] at xWords
    rw [SizeT.wrap_of_lt st _ ready.wFits] at wWords
    have setting : Setting st promised start sx sw sy rows depth columns := by
      refine ⟨ready.xLength, ready.wLength, ready.xFits, ready.wFits, ready.yFits,
        xWords, wWords, yWords,
        xRange (small _), wRange (small _), yRange (small _), ?_, ready.sized⟩
      intro holds
      refine ⟨wApart holds sx ?_, yApart holds sx ?_, yApart holds sw ?_⟩
      · exact List.mem_append_right _ List.mem_cons_self
      · exact List.mem_append_left _ (List.mem_append_right _ List.mem_cons_self)
      · exact List.mem_append_right _ List.mem_cons_self
    obtain ⟨_, v6, ⟨f6, rfl⟩, run⟩ := (run_request_iff _ _ _ _ _).mp run
    obtain ⟨_, v7, ⟨f7, rfl⟩, run⟩ := (run_request_iff _ _ _ _ _).mp run
    obtain ⟨_, v8, ⟨f8, rfl⟩, run⟩ := (run_request_iff _ _ _ _ _).mp run
    exact gemmLoops_ends setting _ _ v' result (Progress.start_ ready _) run

/-- A mapping adds its own way to fail. -/
theorem scopedMap_ends (operand : Operand) (view : BufferView) (rest : Gemm (CResult Unit))
    (ready : Ready st promised start rows depth columns) (v' : World) (result : CResult Unit)
    (inner : ∀ result v', Run (Step st promised zX zW) rest start result v' →
      Ending st promised zX zW start rows depth columns result v')
    (run : Run (Step st promised zX zW) (scopedMap operand view rest) start result v') :
    Ending st promised zX zW start rows depth columns result v' := by
  obtain ⟨(status : CResult Unit), mapped, move, run⟩ := (run_request_iff _ _ _ _ _).mp run
  cases status with
  | error stop =>
    have unmapped : mapped = { start with unmapped := true } := move
    obtain ⟨rfl, rfl⟩ := (run_ret_iff _ _ _ _).mp run
    rw [unmapped]
    refine ⟨ready.halted _ rfl rfl rfl (Or.inl rfl), ?_⟩
    intro _ mapped
    cases mapped
  | ok _ =>
    have same : mapped = start := move
    rw [same] at run
    obtain ⟨ended, v1, restRun, run⟩ := (run_bind_iff _ _ _ _ _).mp run
    obtain ⟨_, v2, unmap, run⟩ := (run_request_iff _ _ _ _ _).mp run
    have kept : v2 = v1 := unmap
    rw [kept] at run
    obtain ⟨rfl, rfl⟩ := (run_ret_iff _ _ _ _).mp run
    exact inner result _ restRun

end

end Estela.Runtime.CenteredGemm
