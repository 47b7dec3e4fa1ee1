import Estela.Runtime.CommandBuffer

set_option autoImplicit false

/- Which words of STRELA memory a resolved column reaches, against the range its
binding allows it. -/
namespace Estela.Runtime

/-- The push constants of a runtime offset, from constant number `i` on, in
exact integers. -/
def offsetSum (constants : ConstByteSpan) : List (BitVec 32) → Nat → Nat
  | [], _ => 0
  | ordinal :: rest, i =>
      ((constants.value ordinal.toNat).getD 0).toNat * 2 ^ (32 * i) +
        offsetSum constants rest (i + 1)

/-- The byte offset a column asks for within its bound range, in exact integers. -/
def columnByteOffset (column : ColumnDef) (constants : ConstByteSpan) : Nat :=
  column.byteOffset.toNat + offsetSum constants column.offsetConstants 0

/-- Words from the first to the last one a column touches, in exact integers. -/
def columnSpan (column : ColumnDef) (isInput : Bool) : Nat :=
  if isInput then (column.wordCount.toNat - 1) * column.stride.toNat + 1 else column.wordCount.toNat

/-- The word a column touches at its `k`-th step, from the base of STRELA memory. -/
def Column.word (c : Column) (isInput : Bool) (k : Nat) : Nat :=
  c.wordsFromBase + if isInput then k * c.stride else k

/-- A HAL buffer inside its STRELA buffer. libstrela maps all of STRELA memory
at once, so every byte of it has a host address. -/
structure Backed (st : SizeT) (base : HalBuffer) (buffer : HalStrelaBuffer) : Prop where
  inside : base.byteOffset.toNat + base.byteLength.toNat ≤ 4 * buffer.sBuf.words
  mapped : 4 * (buffer.sBuf.offsetWordsFromBase + buffer.sBuf.words) < 2 ^ st.width

/-- What the HAL guarantees of a ref: the range it binds lies in its buffer, and
the buffer in its allocation. -/
structure BufferRef.Valid (st : SizeT) (ref : BufferRef) : Prop where
  range : ∀ base, ref.buffer = some base →
    ref.offset.toNat + (boundLength base ref).toNat ≤ base.byteLength.toNat
  backed : ∀ base buffer, ref.buffer = some base → base.allocated = .strela buffer →
    Backed st base buffer

/-- First byte of the bound range, from the base of STRELA memory. -/
def boundStart (buffer : HalStrelaBuffer) (base : HalBuffer) (ref : BufferRef) : Nat :=
  4 * buffer.sBuf.offsetWordsFromBase + base.byteOffset.toNat + ref.offset.toNat

/-- Every word of the column lies in the bound range, and the column starts at
the exact sum of its offsets. -/
structure InBounds (column : ColumnDef) (isInput : Bool) (constants : ConstByteSpan)
    (ref : BufferRef) (base : HalBuffer) (buffer : HalStrelaBuffer) (c : Column) : Prop where
  inside : ∀ k < c.wordCount, boundStart buffer base ref ≤ 4 * c.word isInput k ∧
    4 * c.word isInput k + 4 ≤ boundStart buffer base ref + (boundLength base ref).toNat
  start : c.wordsFromBase = buffer.sBuf.offsetWordsFromBase +
    (base.byteOffset.toNat + ref.offset.toNat + columnByteOffset column constants) / 4

/-- No sum of the resolution leaves its type: the end of the column is a 64 bit
byte offset, and its length in bytes a `size_t`. -/
def NoWrap (st : SizeT) (column : ColumnDef) (isInput : Bool) (constants : ConstByteSpan) : Prop :=
  columnByteOffset column constants + 4 * columnSpan column isInput < 2 ^ 64 ∧
    4 * columnSpan column isInput < 2 ^ st.width

/-- All a column resolved to a buffer went through. -/
structure Resolved (st : SizeT) (column : ColumnDef) (isInput : Bool) (constants : ConstByteSpan)
    (bindings : List BufferRef) (c : Column) (buffer : HalStrelaBuffer)
    (ref : BufferRef) (base : HalBuffer) (byteOffset : BitVec 64) : Prop where
  used : column.wordCount.toNat ≠ 0
  bound : bindings[column.binding.toNat]? = some ref
  present : ref.buffer = some base
  strela : base.allocated = .strela buffer
  summed : addOffsetConstants st constants column.offsetConstants 0 column.byteOffset =
    .ok byteOffset
  length : c.length = BitVec.ofNat 64
    (st.wrap (spanWords st isInput c.wordCount c.stride * wordBytes))
  within : byteOffset + c.length ≤ boundLength base ref
  offset : c.offset = base.byteOffset + (ref.offset + byteOffset)
  aligned : c.offset % BitVec.ofNat 64 wordBytes = 0
  start : c.wordsFromBase = st.wrap ((BitVec.ofNat 64 buffer.sBuf.offsetWordsFromBase
    + c.offset / BitVec.ofNat 64 wordBytes).toNat)
  wordCount : c.wordCount = column.wordCount.toNat
  stride : c.stride = if isInput then column.stride.toNat else 0

theorem bufferResolve_some (base : HalBuffer) (offset allocatedOffset : BitVec 64)
    (buffer : HalStrelaBuffer)
    (resolved : bufferResolve base offset = some (buffer, allocatedOffset)) :
    base.allocated = .strela buffer ∧ allocatedOffset = base.byteOffset + offset := by
  unfold bufferResolve at resolved
  split at resolved
  · cases resolved
  · rename_i found
    cases resolved
    exact ⟨found, rfl⟩

/-- An unused column resolves to no buffer, any other one to a buffer. -/
theorem columnResolve_buffer (st : SizeT) (column : ColumnDef) (isInput : Bool)
    (constants : ConstByteSpan) (bindings : List BufferRef) (c : Column)
    (resolved : columnResolve st column isInput constants bindings = .ok c)
    (unused : c.buffer = none) : c.wordCount = 0 := by
  unfold columnResolve at resolved
  simp only [bind, Except.bind, pure, Except.pure, makeStatus] at resolved
  generalize (if isInput then column.stride.toNat else 0) = stride at resolved
  split at resolved
  · rename_i zero
    cases resolved
    exact zero
  · repeat' split at resolved
    all_goals cases resolved
    all_goals cases unused

/-- The one specification of `columnResolve` the proofs about columns use. -/
theorem columnResolve_spec (st : SizeT) (column : ColumnDef) (isInput : Bool)
    (constants : ConstByteSpan) (bindings : List BufferRef) (c : Column) (buffer : HalStrelaBuffer)
    (resolved : columnResolve st column isInput constants bindings = .ok c)
    (used : c.buffer = some buffer) :
    ∃ ref base byteOffset,
      Resolved st column isInput constants bindings c buffer ref base byteOffset := by
  unfold columnResolve at resolved
  simp only [bind, Except.bind, pure, Except.pure, makeStatus] at resolved
  generalize strideEq : (if isInput then column.stride.toNat else 0) = stride at resolved
  split at resolved
  · cases resolved
    cases used
  · rename_i nonempty
    split at resolved
    case h_2 => cases resolved
    rename_i ref refFound
    split at resolved
    case h_2 => cases resolved
    rename_i base baseFound
    split at resolved
    · cases resolved
    rename_i byteOffset summed
    split at resolved
    · cases resolved
    rename_i within
    split at resolved
    case h_2 => cases resolved
    rename_i buffer' offset found
    split at resolved
    · cases resolved
    rename_i aligned
    cases resolved
    cases used
    obtain ⟨strela, offsetEq⟩ := bufferResolve_some _ _ _ _ found
    exact ⟨ref, base, byteOffset, nonempty, refFound, baseFound, strela, summed, rfl,
      BitVec.not_lt.mp within, offsetEq, Decidable.not_not.mp aligned, rfl, rfl, strideEq.symm⟩

/-- The sum of the offsets, as the loop wraps it. -/
theorem addOffsetConstants_toNat (st : SizeT) (constants : ConstByteSpan)
    (ordinals : List (BitVec 32)) (i : Nat) (byteOffset result : BitVec 64)
    (summed : addOffsetConstants st constants ordinals i byteOffset = .ok result) :
    result.toNat = (byteOffset.toNat + offsetSum constants ordinals i) % 2 ^ 64 := by
  induction ordinals generalizing i byteOffset with
  | nil =>
      cases summed
      simp only [offsetSum, Nat.add_zero]
      exact (Nat.mod_eq_of_lt result.isLt).symm
  | cons ordinal rest ih =>
      unfold addOffsetConstants at summed
      split at summed
      · cases summed
      · split at summed
        · cases summed
        · rename_i value found
          split at summed
          · cases summed
          · have shifted : (value.setWidth 64 <<< (32 * i)).toNat =
                value.toNat * 2 ^ (32 * i) % 2 ^ 64 := by
              have small : value.toNat < 2 ^ 64 := Nat.lt_trans value.isLt (by decide)
              rw [BitVec.toNat_shiftLeft, BitVec.toNat_setWidth, Nat.mod_eq_of_lt small,
                Nat.shiftLeft_eq]
            rw [ih _ _ summed, offsetSum, found, Option.getD_some, BitVec.toNat_add, shifted]
            omega

/-- Without a wrap, the length the resolution checks is the exact one. -/
theorem spanBytes_exact (st : SizeT) (column : ColumnDef) (isInput : Bool)
    (used : column.wordCount.toNat ≠ 0)
    (fits : 4 * columnSpan column isInput < 2 ^ st.width) :
    st.wrap (spanWords st isInput column.wordCount.toNat
      (if isInput then column.stride.toNat else 0) * wordBytes) =
        4 * columnSpan column isInput := by
  cases isInput with
  | false =>
      simp only [columnSpan, spanWords, wordBytes, Bool.false_eq_true, false_and,
        ↓reduceIte] at fits ⊢
      rw [Nat.mul_comm, SizeT.wrap_of_lt st _ fits]
  | true =>
      simp only [columnSpan, spanWords, wordBytes, true_and, ↓reduceIte] at fits ⊢
      by_cases one : column.stride.toNat = 1
      · rw [one, Nat.mul_one] at fits ⊢
        have count : column.wordCount.toNat - 1 + 1 = column.wordCount.toNat := by omega
        rw [count] at fits ⊢
        rw [if_neg (by simp), Nat.mul_comm, SizeT.wrap_of_lt st _ fits]
      · have product := SizeT.wrap_of_lt st ((column.wordCount.toNat - 1) * column.stride.toNat)
          (by omega)
        have span := SizeT.wrap_of_lt st ((column.wordCount.toNat - 1) * column.stride.toNat + 1)
          (by omega)
        rw [if_pos one, product, span, Nat.mul_comm, SizeT.wrap_of_lt st _ fits]

section

variable {st : SizeT} {column : ColumnDef} {isInput : Bool} {constants : ConstByteSpan}
  {bindings : List BufferRef} {c : Column} {buffer : HalStrelaBuffer} {ref : BufferRef}
  {base : HalBuffer} {byteOffset : BitVec 64}

theorem Resolved.byteOffset_toNat
    (resolved : Resolved st column isInput constants bindings c buffer ref base byteOffset) :
    byteOffset.toNat = columnByteOffset column constants % 2 ^ 64 :=
  addOffsetConstants_toNat st constants _ 0 _ _ resolved.summed

/-- The steps of a column, from its first word to its last. -/
theorem Resolved.word_le
    (resolved : Resolved st column isInput constants bindings c buffer ref base byteOffset)
    (k : Nat) (step : k < c.wordCount) :
    c.word isInput k + 1 ≤ c.wordsFromBase + columnSpan column isInput := by
  have count := resolved.wordCount
  cases isInput with
  | false =>
      simp only [Column.word, columnSpan, Bool.false_eq_true, ↓reduceIte]
      omega
  | true =>
      have stride : c.stride = column.stride.toNat := resolved.stride
      have last : k * c.stride ≤ (column.wordCount.toNat - 1) * c.stride :=
        Nat.mul_le_mul_right _ (by omega)
      simp only [Column.word, columnSpan, ↓reduceIte, ← stride]
      omega

theorem Resolved.last_word
    (resolved : Resolved st column isInput constants bindings c buffer ref base byteOffset) :
    c.word isInput (c.wordCount - 1) + 1 = c.wordsFromBase + columnSpan column isInput := by
  have count := resolved.wordCount
  have used := resolved.used
  cases isInput with
  | false =>
      simp only [Column.word, columnSpan, Bool.false_eq_true, ↓reduceIte]
      omega
  | true =>
      have stride : c.stride = column.stride.toNat := resolved.stride
      simp only [Column.word, columnSpan, ↓reduceIte, ← stride, ← count]
      omega

/-- Where nothing wraps, offset and length are the exact ones and the check of
the bound range is the exact comparison. -/
theorem Resolved.exact
    (resolved : Resolved st column isInput constants bindings c buffer ref base byteOffset)
    (noWrap : NoWrap st column isInput constants) :
    byteOffset.toNat = columnByteOffset column constants ∧
      c.length.toNat = 4 * columnSpan column isInput ∧
      columnByteOffset column constants + 4 * columnSpan column isInput ≤
        (boundLength base ref).toNat := by
  obtain ⟨sumFits, spanFits⟩ := noWrap
  have offset : byteOffset.toNat = columnByteOffset column constants := by
    rw [resolved.byteOffset_toNat, Nat.mod_eq_of_lt (by omega)]
  have length : c.length.toNat = 4 * columnSpan column isInput := by
    rw [resolved.length, resolved.wordCount, resolved.stride,
      spanBytes_exact st column isInput resolved.used spanFits, BitVec.toNat_ofNat,
      Nat.mod_eq_of_lt (by omega)]
  refine ⟨offset, length, ?_⟩
  have within := BitVec.le_def.mp resolved.within
  rw [BitVec.toNat_add, offset, length, Nat.mod_eq_of_lt sumFits] at within
  exact within

/-- The offset in the allocation, where the bound range lies in the allocation. -/
theorem Resolved.offset_toNat
    (resolved : Resolved st column isInput constants bindings c buffer ref base byteOffset)
    (valid : ref.Valid st) (small : byteOffset.toNat ≤ (boundLength base ref).toNat) :
    c.offset.toNat = base.byteOffset.toNat + ref.offset.toNat + byteOffset.toNat := by
  have range := valid.range base resolved.present
  have backed := valid.backed base buffer resolved.present resolved.strela
  have inside := backed.inside
  have mapped := Nat.lt_of_lt_of_le backed.mapped st.width_le
  rw [resolved.offset, BitVec.toNat_add, BitVec.toNat_add]
  omega

theorem Resolved.aligned_toNat
    (resolved : Resolved st column isInput constants bindings c buffer ref base byteOffset) :
    c.offset.toNat % 4 = 0 := by
  have aligned := congrArg BitVec.toNat resolved.aligned
  rw [BitVec.toNat_umod] at aligned
  exact aligned

theorem Resolved.inBounds
    (resolved : Resolved st column isInput constants bindings c buffer ref base byteOffset)
    (valid : ref.Valid st) (noWrap : NoWrap st column isInput constants) :
    InBounds column isInput constants ref base buffer c := by
  obtain ⟨exactOffset, _, within⟩ := resolved.exact noWrap
  have range := valid.range base resolved.present
  have backed := valid.backed base buffer resolved.present resolved.strela
  have inside := backed.inside
  have mapped := backed.mapped
  have width := st.width_le
  have aligned := resolved.aligned_toNat
  have offset := resolved.offset_toNat valid (by omega)
  have start : c.wordsFromBase = buffer.sBuf.offsetWordsFromBase + c.offset.toNat / 4 := by
    have low : buffer.sBuf.offsetWordsFromBase + c.offset.toNat / 4 < 2 ^ st.width := by omega
    rw [resolved.start, BitVec.toNat_add, BitVec.toNat_udiv, BitVec.toNat_ofNat, BitVec.toNat_ofNat,
      Nat.mod_eq_of_lt (by omega : buffer.sBuf.offsetWordsFromBase < 2 ^ 64)]
    change st.wrap ((buffer.sBuf.offsetWordsFromBase + c.offset.toNat / 4) % 2 ^ 64) = _
    rw [Nat.mod_eq_of_lt (by omega), SizeT.wrap_of_lt st _ low]
  refine ⟨fun k step => ?_, ?_⟩
  · have last := resolved.word_le k step
    have first : c.wordsFromBase ≤ c.word isInput k := Nat.le_add_right _ _
    unfold boundStart
    omega
  · rw [start, offset, exactOffset]

theorem InBounds.noWrap
    (resolved : Resolved st column isInput constants bindings c buffer ref base byteOffset)
    (valid : ref.Valid st) (bounds : InBounds column isInput constants ref base buffer c) :
    NoWrap st column isInput constants := by
  have count := resolved.wordCount
  have used := resolved.used
  have last := (bounds.inside (c.wordCount - 1) (by omega)).2
  have word := resolved.last_word
  have start := bounds.start
  have range := valid.range base resolved.present
  have backed := valid.backed base buffer resolved.present resolved.strela
  have inside := backed.inside
  have mapped := backed.mapped
  have width := st.width_le
  -- The wrapped offset is aligned, and 2^64 is a multiple of the word.
  have aligned : (base.byteOffset.toNat + ref.offset.toNat +
      columnByteOffset column constants) % 4 = 0 := by
    have wrapped := resolved.aligned_toNat
    rw [resolved.offset, BitVec.toNat_add, BitVec.toNat_add, resolved.byteOffset_toNat] at wrapped
    omega
  unfold boundStart at last
  unfold NoWrap
  omega

end

/-- A used column stays in its bound range, and starts at the exact sum of its
offsets, exactly when no sum of its resolution wraps. -/
theorem columnResolve_inBounds_iff (st : SizeT) (column : ColumnDef) (isInput : Bool)
    (constants : ConstByteSpan) (bindings : List BufferRef) (c : Column) (buffer : HalStrelaBuffer)
    (valid : ∀ ref ∈ bindings, ref.Valid st)
    (resolved : columnResolve st column isInput constants bindings = .ok c)
    (used : c.buffer = some buffer) :
    ∃ ref base, bindings[column.binding.toNat]? = some ref ∧ ref.buffer = some base ∧
      (InBounds column isInput constants ref base buffer c ↔
        NoWrap st column isInput constants) := by
  obtain ⟨ref, base, byteOffset, spec⟩ :=
    columnResolve_spec st column isInput constants bindings c buffer resolved used
  have refValid := valid ref (List.mem_of_getElem? spec.bound)
  exact ⟨ref, base, spec.bound, spec.present, InBounds.noWrap spec refValid, spec.inBounds refValid⟩

/-- The second 64 bytes of an allocation of 128, bound as a whole. -/
def sampleRef : BufferRef where
  buffer := some {
    allocated := .strela {
      allocationSize := 128
      sBuf := { valid := true, offsetWordsFromBase := 16, words := 32 }
      hostPtr := 0x40000000
      releaseCallback := true
      address := 0x1000 }
    byteOffset := 64
    byteLength := 64 }
  offset := 0
  length := 64

theorem sampleRef_valid (st : SizeT) : sampleRef.Valid st := by
  refine ⟨?_, ?_⟩
  · intro base present
    cases present
    decide
  · intro base buffer present strela
    cases present
    cases strela
    cases st <;> exact ⟨by decide, by decide⟩

/-- Every other word of the bound range, from its second one on. -/
def sampleColumn : ColumnDef where
  binding := 0
  byteOffset := 4
  offsetConstants := []
  wordCount := 7
  stride := 2

theorem columnResolve_inBounds_iff_sample :
    ∃ ref base, [sampleRef][sampleColumn.binding.toNat]? = some ref ∧ ref.buffer = some base ∧
      InBounds sampleColumn true ⟨[]⟩ ref base
        { allocationSize := 128
          sBuf := { valid := true, offsetWordsFromBase := 16, words := 32 }
          hostPtr := 0x40000000
          releaseCallback := true
          address := 0x1000 }
        { buffer := some {
            allocationSize := 128
            sBuf := { valid := true, offsetWordsFromBase := 16, words := 32 }
            hostPtr := 0x40000000
            releaseCallback := true
            address := 0x1000 }
          offset := 68
          length := 52
          wordsFromBase := 33
          wordCount := 7
          stride := 2 } := by
  obtain ⟨ref, base, bound, present, iff⟩ :=
    columnResolve_inBounds_iff .bits32 sampleColumn true ⟨[]⟩
    [sampleRef] _ _ (by simpa using sampleRef_valid .bits32) rfl rfl
  exact ⟨ref, base, bound, present, iff.mpr ⟨by decide, by decide⟩⟩

/-- A compile-time offset one word short of 2^64: the end of the column wraps to
byte 4 of the bound range, and its first word lies before that range. -/
theorem columnResolve_before_bound_range :
    ¬ ∀ (st : SizeT) (column : ColumnDef) (isInput : Bool) (constants : ConstByteSpan)
        (bindings : List BufferRef) (bindingCount constantCount : BitVec 32) (c : Column)
        (buffer : HalStrelaBuffer),
      columnVerify column bindingCount constantCount = .ok () →
      (∀ ref ∈ bindings, ref.Valid st) →
      columnResolve st column isInput constants bindings = .ok c → c.buffer = some buffer →
      ∃ ref base, bindings[column.binding.toNat]? = some ref ∧ ref.buffer = some base ∧
        InBounds column isInput constants ref base buffer c := by
  intro claim
  obtain ⟨ref, base, bound, present, bounds⟩ := claim .bits32
    { binding := 0, byteOffset := 0xfffffffffffffffc, offsetConstants := [],
      wordCount := 2, stride := 1 }
    true ⟨[]⟩ [sampleRef] 1 0 _ _ rfl (by simpa using sampleRef_valid .bits32) rfl rfl
  cases bound
  cases present
  have first := (bounds.inside 0 (by decide)).1
  revert first
  decide

end Estela.Runtime
