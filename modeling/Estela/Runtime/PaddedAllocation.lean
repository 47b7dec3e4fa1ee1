import Estela.Runtime.StickyError

set_option autoImplicit false

/- Whole lines: whether an allocation has all that its size promises, and
whether explicit cache maintenance reaches all of a range. -/
namespace Estela.Runtime

open CallProgram

/-- Bytes rounded up to whole lines, in exact integers. -/
def wholeLines (bytes : Nat) : Nat := (bytes + 63) / 64 * 64

/-- `strela_buffer_alloc` reports an error, or returns as many words as it was asked for. -/
def AllocatesExactly (after : Sticky.Dev) : (c : Call) → c.Answer → Prop
  | .bufferAlloc words, (buffer : StrelaBuffer) => after.err = none → buffer.words = words
  | _, _ => True

def AllocStep (d : Sticky.Dev) (c : Call) (answer : c.Answer) (d' : Sticky.Dev) : Prop :=
  Sticky.Step d c answer d' ∧ AllocatesExactly d' c answer

/-- The words `allocate_buffer` asks for, in exact integers but for the wraps. -/
theorem paddedWords_eq (st : SizeT) (allocationSize : BitVec 64) :
    st.wrap (paddedSize allocationSize / BitVec.ofNat 64 wordBytes).toNat =
      ((allocationSize.toNat + 63) % 2 ^ 64 / 64 * 16) % 2 ^ st.width := by
  have padded : (paddedSize allocationSize).toNat =
      (allocationSize + (BitVec.ofNat 64 cacheLine - 1)).toNat / 64 * 64 := lineStart_toNat _
  have bytes : (BitVec.ofNat 64 wordBytes).toNat = 4 := rfl
  have sum : (allocationSize + (BitVec.ofNat 64 cacheLine - 1)).toNat =
      (allocationSize.toNat + 63) % 2 ^ 64 := BitVec.toNat_add _ _
  rw [BitVec.toNat_udiv, padded, bytes, sum, SizeT.wrap]
  congr 1
  omega

/-- An OK status means that no error was left to report. -/
theorem statusFromDev_ok (fact : Prop) (what : String) :
    Triple AllocStep (fun d => d.err = none → fact) (statusFromDev what)
      (fun status _ => status = .ok () → fact) := by
  refine Triple.call Call.devOk _ (fun (ok : Bool) _ => ok = true → fact) ?_ ?_
  · intro d ok d' given move
    obtain ⟨⟨answer, _⟩, _⟩ := move
    intro clear
    exact given (Option.isNone_iff_eq_none.mp (answer.symm.trans clear))
  · intro ok
    cases ok with
    | true => exact Triple.ret _ (fun _ given _ => given rfl)
    | false =>
        intro d status d' _ run ok
        subst ok
        obtain ⟨err, _, _, run⟩ := (run_call_iff _ _ _ _ _).mp run
        obtain ⟨_, _, _, run⟩ := (run_call_iff _ _ _ _ _).mp run
        obtain ⟨same, _⟩ := (run_ret_iff _ _ _ _).mp run
        cases err <;> cases same

theorem allocateCleanup_result (sBuf : StrelaBuffer) (stop : Stop) (d d' : Sticky.Dev)
    (result : CResult HalStrelaBuffer)
    (run : Run AllocStep (allocateCleanup sBuf stop) d result d') :
    result = .error stop := by
  cases valid : sBuf.valid with
  | false =>
      simp only [allocateCleanup, valid, Bool.false_eq_true, ↓reduceIte] at run
      exact ((run_ret_iff _ _ _ _).mp run).1
  | true =>
      simp only [allocateCleanup, valid, ↓reduceIte] at run
      obtain ⟨_, _, _, run⟩ := (run_request_iff _ _ _ _ _).mp run
      exact ((run_ret_iff _ _ _ _).mp run).1

/-- What a successful `allocate_buffer` leaves behind the HAL buffer. -/
theorem allocateBuffer_words (st : SizeT) (allocationSize : BitVec 64) (d d' : Sticky.Dev)
    (buffer : HalStrelaBuffer)
    (run : Run AllocStep (allocatorAllocateBuffer st allocationSize) d (.ok buffer) d') :
    buffer.allocationSize = allocationSize ∧
      buffer.sBuf.words = ((allocationSize.toNat + 63) % 2 ^ 64 / 64 * 16) % 2 ^ st.width := by
  rw [← paddedWords_eq]
  obtain ⟨sBuf, middle, alloc, run⟩ := (run_request_iff _ _ _ _ _).mp run
  obtain ⟨status, between, statusRun, run⟩ := (run_bind_iff _ _ _ _ _).mp run
  have words := statusFromDev_ok _ _ _ _ _ alloc.2 statusRun
  cases status with
  | error stop => cases allocateCleanup_result _ _ _ _ _ run
  | ok _ =>
      obtain ⟨hostPtr, _, _, run⟩ := (run_request_iff _ _ _ _ _).mp run
      obtain ⟨wrapped, _, wrapRun, run⟩ := (run_bind_iff _ _ _ _ _).mp run
      obtain ⟨allocated, _, _, wrapRun⟩ := (run_request_iff _ _ _ _ _).mp wrapRun
      cases allocated with
      | error stop =>
          obtain ⟨rfl, _⟩ := (run_ret_iff _ _ _ _).mp wrapRun
          cases allocateCleanup_result _ _ _ _ _ run
      | ok address =>
          obtain ⟨rfl, _⟩ := (run_ret_iff _ _ _ _).mp wrapRun
          cases ((run_ret_iff _ _ _ _).mp run).1
          exact ⟨rfl, words rfl⟩

/-- An allocation that succeeds, where neither libstrela nor the host fails. -/
theorem allocateBuffer_succeeds (st : SizeT) (allocationSize : BitVec 64) :
    ∃ buffer d', Run AllocStep (allocatorAllocateBuffer st allocationSize) ⟨none, []⟩
      (.ok buffer) d' := by
  let words := st.wrap (paddedSize allocationSize / BitVec.ofNat 64 wordBytes).toNat
  let sBuf : StrelaBuffer := ⟨true, 0, words⟩
  refine ⟨⟨allocationSize, sBuf, 0, true, 0⟩,
    ⟨none, [⟨.bufferAlloc words, false⟩, ⟨.bufferToPtr sBuf, false⟩]⟩, ?_⟩
  refine .call sBuf ⟨⟨none, rfl⟩, fun _ => rfl⟩ ?_
  refine .call true ⟨⟨rfl, rfl⟩, trivial⟩ ?_
  refine .call (0 : Nat) ⟨⟨none, rfl⟩, trivial⟩ ?_
  refine .call (.ok 0 : CResult Nat) ⟨rfl, trivial⟩ ?_
  exact .ret _ _

/-- Every buffer it returns has all the lines of its size exactly if the rounded
size is a 64 bit number and its words are a `size_t`. -/
theorem allocateBuffer_backed_iff (st : SizeT) (allocationSize : BitVec 64) :
    (∀ d buffer d', Run AllocStep (allocatorAllocateBuffer st allocationSize) d (.ok buffer) d' →
        wholeLines allocationSize.toNat ≤ 4 * buffer.sBuf.words) ↔
      wholeLines allocationSize.toNat < 2 ^ 64 ∧
        wholeLines allocationSize.toNat / 4 < 2 ^ st.width := by
  have size := allocationSize.isLt
  have arithmetic : wholeLines allocationSize.toNat ≤
        4 * (((allocationSize.toNat + 63) % 2 ^ 64 / 64 * 16) % 2 ^ st.width) ↔
      wholeLines allocationSize.toNat < 2 ^ 64 ∧
      wholeLines allocationSize.toNat / 4 < 2 ^ st.width := by
    unfold wholeLines
    cases st <;> simp only [SizeT.width] <;> omega
  rw [← arithmetic]
  constructor
  · intro backed
    obtain ⟨buffer, d', run⟩ := allocateBuffer_succeeds st allocationSize
    have words := (allocateBuffer_words st allocationSize _ _ _ run).2
    rw [← words]
    exact backed _ buffer d' run
  · intro enough d buffer d' run
    rw [(allocateBuffer_words st allocationSize d d' buffer run).2]
    exact enough

/-- 16 GiB and a line, on the board: 16 words. -/
theorem allocateBuffer_short :
    ¬ ∀ (st : SizeT) (allocationSize : BitVec 64) (d d' : Sticky.Dev) (buffer : HalStrelaBuffer),
      Run AllocStep (allocatorAllocateBuffer st allocationSize) d (.ok buffer) d' →
      wholeLines allocationSize.toNat ≤ 4 * buffer.sBuf.words := by
  intro claim
  obtain ⟨buffer, d', run⟩ := allocateBuffer_succeeds .bits32 0x400000040
  have short := claim .bits32 0x400000040 _ d' buffer run
  rw [(allocateBuffer_words .bits32 0x400000040 _ d' buffer run).2] at short
  revert short
  decide

/-- Where a referenced range starts and ends, in bytes of the allocation. -/
def rangeStart (base : HalBuffer) (ref : BufferRef) : Nat :=
  base.byteOffset.toNat + ref.offset.toNat

def rangeEnd (base : HalBuffer) (ref : BufferRef) : Nat :=
  rangeStart base ref + (boundLength base ref).toNat

/-- The range lies in its buffer, and the buffer in its allocation. -/
structure BufferRef.Inside (ref : BufferRef) (base : HalBuffer) (buffer : HalStrelaBuffer) :
    Prop where
  range : ref.offset.toNat + (boundLength base ref).toNat ≤ base.byteLength.toNat
  allocation : base.byteOffset.toNat + base.byteLength.toNat ≤ buffer.allocationSize.toNat

/-- The words given to libstrela have every byte of the range, and none past the
lines of the allocation. -/
structure SyncsRange (buffer : HalStrelaBuffer) (base : HalBuffer) (ref : BufferRef)
    (first count : Nat) : Prop where
  covers : ∀ byte, rangeStart base ref ≤ byte → byte < rangeEnd base ref →
    4 * first ≤ byte ∧ byte < 4 * (first + count)
  inside : 4 * (first + count) ≤ wholeLines buffer.allocationSize.toNat

/-- When a sync reaches all of a range. The end of a byte count must not wrap when
it is rounded up; to the end of the buffer, the range may reach neither
from the first two bytes of a line nor past the end of that line. -/
def SyncReaches (st : SizeT) (base : HalBuffer) (ref : BufferRef) : Prop :=
  (boundLength base ref).toNat = 0 ∨
    rangeStart base ref / 64 * 16 < 2 ^ st.width ∧
      if ref.length = wholeBuffer then
        2 ≤ rangeStart base ref % 64 ∧ rangeEnd base ref ≤ rangeStart base ref / 64 * 64 + 64
      else
        (wholeLines (rangeEnd base ref) - rangeStart base ref / 64 * 64) / 4 < 2 ^ st.width ∧
          (64 ≤ rangeStart base ref ∨ wholeLines (rangeEnd base ref) < 2 ^ 64)

/-- The lines of a range, with every wrap written out. -/
theorem bufferLines_eq (st : SizeT) (byteOffset byteLength : BitVec 64) :
    bufferLines st byteOffset byteLength = (byteOffset.toNat / 64 * 16 % 2 ^ st.width,
      (((byteOffset.toNat + byteLength.toNat) % 2 ^ 64 + 63) % 2 ^ 64 / 64 * 64 +
        (2 ^ 64 - byteOffset.toNat / 64 * 64)) % 2 ^ 64 / 4 % 2 ^ st.width) := by
  have start := lineStart_toNat byteOffset
  have stop : (deviceAlign (byteOffset + byteLength) (BitVec.ofNat 64 cacheLine)).toNat =
      ((byteOffset.toNat + byteLength.toNat) % 2 ^ 64 + 63) % 2 ^ 64 / 64 * 64 := by
    have aligned := lineStart_toNat (byteOffset + byteLength + (BitVec.ofNat 64 cacheLine - 1))
    rw [BitVec.toNat_add, BitVec.toNat_add] at aligned
    exact aligned
  have bytes : (BitVec.ofNat 64 wordBytes).toNat = 4 := rfl
  have first : byteOffset.toNat / 64 * 64 / 4 = byteOffset.toNat / 64 * 16 := by omega
  simp only [bufferLines, BitVec.toNat_udiv, BitVec.toNat_sub, bytes, start,
    stop, SizeT.wrap, first]
  rw [Nat.add_comm (2 ^ 64 - _)]

/-- An interval is covered if its ends are. -/
theorem covers_iff (first last start stop : Nat) :
    (∀ byte, start ≤ byte → byte < stop → 4 * first ≤ byte ∧ byte < 4 * last) ↔
      stop ≤ start ∨ 4 * first ≤ start ∧ stop ≤ 4 * last := by
  constructor
  · intro covers
    by_cases empty : stop ≤ start
    · exact Or.inl empty
    · have low := covers start (by omega) (by omega)
      have high := covers (stop - 1) (by omega) (by omega)
      omega
  · rintro (empty | ⟨low, high⟩) byte after before
    · omega
    · omega

/-- With the sentinel for a length the sum wraps: at most one line is left. -/
theorem toEnd_count (a : Nat) (bound : a < 2 ^ 64) :
    (((a + (2 ^ 64 - 1)) % 2 ^ 64 + 63) % 2 ^ 64 / 64 * 64 + (2 ^ 64 - a / 64 * 64)) % 2 ^ 64 / 4 =
      if 2 ≤ a % 64 then 16 else 0 := by
  by_cases zero : a = 0
  · subst zero
    decide
  · have before : (a + (2 ^ 64 - 1)) % 2 ^ 64 = a - 1 := by omega
    rw [before]
    by_cases fits : a - 1 + 63 < 2 ^ 64
    · rw [Nat.mod_eq_of_lt fits]
      split <;> omega
    · have wrapped : (a - 1 + 63) % 2 ^ 64 = a - 1 + 63 - 2 ^ 64 := by omega
      rw [wrapped]
      split <;> omega

/-- With a byte count only the rounded end may wrap. -/
theorem byteCount_count (a length : Nat) (bound : a + length < 2 ^ 64) :
    (((a + length) % 2 ^ 64 + 63) % 2 ^ 64 / 64 * 64 + (2 ^ 64 - a / 64 * 64)) % 2 ^ 64 / 4 =
      if 64 ≤ a ∨ (a + length + 63) / 64 * 64 < 2 ^ 64 then
        ((a + length + 63) / 64 * 64 - a / 64 * 64) / 4 else 0 := by
  rw [Nat.mod_eq_of_lt bound]
  by_cases fits : a + length + 63 < 2 ^ 64
  · rw [Nat.mod_eq_of_lt fits]
    split <;> omega
  · have wrapped : (a + length + 63) % 2 ^ 64 = a + length + 63 - 2 ^ 64 := by omega
    rw [wrapped]
    split <;> omega

theorem syncsRange_iff (st : SizeT) (buffer : HalStrelaBuffer) (base : HalBuffer) (ref : BufferRef)
    (valid : ref.Inside base buffer) :
    SyncsRange buffer base ref (bufferLines st (base.byteOffset + ref.offset) ref.length).1
        (bufferLines st (base.byteOffset + ref.offset) ref.length).2 ↔ SyncReaches st base ref := by
  have range := valid.range
  have allocation := valid.allocation
  have size := buffer.allocationSize.isLt
  have start : (base.byteOffset + ref.offset).toNat = rangeStart base ref := by
    rw [BitVec.toNat_add]
    exact Nat.mod_eq_of_lt (by omega)
  have ends : rangeEnd base ref ≤ buffer.allocationSize.toNat := by
    unfold rangeEnd rangeStart
    omega
  have split (first count : Nat) : SyncsRange buffer base ref first count ↔
      (rangeEnd base ref ≤ rangeStart base ref ∨
        4 * first ≤ rangeStart base ref ∧ rangeEnd base ref ≤ 4 * (first + count)) ∧
      4 * (first + count) ≤ wholeLines buffer.allocationSize.toNat := by
    rw [← covers_iff]
    exact ⟨fun syncs => ⟨syncs.covers, syncs.inside⟩, fun both => ⟨both.1, both.2⟩⟩
  have bound : rangeStart base ref < 2 ^ 64 := by
    rw [← start]
    exact (base.byteOffset + ref.offset).isLt
  rw [bufferLines_eq, start, split]
  unfold SyncReaches
  by_cases whole : ref.length = wholeBuffer
  · have sentinel : ref.length.toNat = 2 ^ 64 - 1 := by
      rw [whole]
      rfl
    rw [if_pos whole, sentinel, toEnd_count _ bound]
    unfold rangeEnd wholeLines at *
    generalize (boundLength base ref).toNat = length at *
    generalize rangeStart base ref = a at *
    by_cases far : 2 ≤ a % 64
    · rw [if_pos far]
      cases st <;> simp only [SizeT.width] <;> omega
    · rw [if_neg far]
      cases st <;> simp only [SizeT.width] <;> omega
  · have same : boundLength base ref = ref.length := if_neg whole
    unfold rangeEnd wholeLines at *
    rw [same] at ends ⊢
    rw [if_neg whole, byteCount_count _ _ (by omega)]
    generalize ref.length.toNat = length at *
    generalize rangeStart base ref = a at *
    by_cases fits : 64 ≤ a ∨ (a + length + 63) / 64 * 64 < 2 ^ 64
    · rw [if_pos fits]
      cases st <;> simp only [SizeT.width] <;> omega
    · rw [if_neg fits]
      cases st <;> simp only [SizeT.width] <;> omega

/-- `flush_buffer` and `invalidate_buffer` of a ref into STRELA memory give
libstrela one and the same range of words, and it is the right one exactly
where `SyncReaches` says. -/
theorem explicitSync_iff (st : SizeT) (ref : BufferRef) (base : HalBuffer)
    (buffer : HalStrelaBuffer) (bound : ref.buffer = some base)
    (strela : base.allocated = .strela buffer) (valid : ref.Inside base buffer) :
    ∃ first count,
      commandBufferFlushBuffer st ref = (do
        call (.bufferFlush buffer.sBuf first count)
        statusFromDev "flushing a STRELA buffer") ∧
      commandBufferInvalidateBuffer st ref = (do
        call (.bufferFlush buffer.sBuf first count)
        call (.bufferInval buffer.sBuf first count)
        statusFromDev "invalidating a STRELA buffer") ∧
      (SyncsRange buffer base ref first count ↔ SyncReaches st base ref) := by
  have resolved : bufferResolve base ref.offset = some (buffer, base.byteOffset + ref.offset) := by
    unfold bufferResolve
    rw [strela]
  refine ⟨_, _, ?_, ?_, syncsRange_iff st buffer base ref valid⟩
  · simp only [commandBufferFlushBuffer, syncTargetRef, bound, resolved, bufferFlushRange]
  · simp only [commandBufferInvalidateBuffer, syncTargetRef, bound, resolved, bufferInvalidateRange]

/-- An allocation of two lines. -/
def twoLines : HalStrelaBuffer where
  allocationSize := 128
  sBuf := { valid := true, offsetWordsFromBase := 0, words := 32 }
  hostPtr := 0x40000000
  releaseCallback := true
  address := 0x1000

/-- A ref to `length` bytes of the two lines, from `offset` on. -/
def twoLinesRef (offset length : BitVec 64) : BufferRef where
  buffer := some { allocated := .strela twoLines, byteOffset := 0, byteLength := 128 }
  offset
  length

theorem explicitSync_iff_sample :
    ∃ first count,
      commandBufferFlushBuffer .bits32 (twoLinesRef 70 58) = (do
        call (.bufferFlush twoLines.sBuf first count)
        statusFromDev "flushing a STRELA buffer") ∧
      commandBufferInvalidateBuffer .bits32 (twoLinesRef 70 58) = (do
        call (.bufferFlush twoLines.sBuf first count)
        call (.bufferInval twoLines.sBuf first count)
        statusFromDev "invalidating a STRELA buffer") ∧
      (SyncsRange twoLines ⟨.strela twoLines, 0, 128⟩ (twoLinesRef 70 58) first count ↔
        SyncReaches .bits32 ⟨.strela twoLines, 0, 128⟩ (twoLinesRef 70 58)) :=
  explicitSync_iff .bits32 (twoLinesRef 70 58) _ twoLines rfl rfl ⟨by decide, by decide⟩

/-- Flushing a whole buffer flushes nothing of it. -/
theorem explicitSync_misses_whole_buffer :
    ¬ ∀ (st : SizeT) (ref : BufferRef) (base : HalBuffer) (buffer : HalStrelaBuffer)
      (first count : Nat),
      ref.buffer = some base → base.allocated = .strela buffer → ref.Inside base buffer →
      commandBufferFlushBuffer st ref = (do
        call (.bufferFlush buffer.sBuf first count)
        statusFromDev "flushing a STRELA buffer") →
      SyncsRange buffer base ref first count := by
  intro claim
  have syncs := claim .bits64 (twoLinesRef 0 wholeBuffer) ⟨.strela twoLines, 0, 128⟩ twoLines 0 0
    rfl rfl ⟨by decide, by decide⟩ rfl
  have first := (syncs.covers 0 (by decide) (by decide)).2
  omega

end Estela.Runtime
