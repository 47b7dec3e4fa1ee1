import Estela.Runtime.Libstrela

set_option autoImplicit false

namespace Estela.Runtime

/-- `iree_hal_strela_buffer_t`, as the STRELA allocator makes it. `address` is
its own host allocation and `hostPtr` where its STRELA memory is mapped. -/
structure HalStrelaBuffer where
  allocationSize : BitVec 64
  sBuf : StrelaBuffer
  hostPtr : Nat
  /-- Whether `iree_hal_strela_buffer_release_fn` is to be called. -/
  releaseCallback : Bool
  address : Nat
  deriving DecidableEq, Repr

/-- What `iree_hal_buffer_allocated_buffer` may lead to. -/
inductive AllocatedBuffer
  | strela (buffer : HalStrelaBuffer)
  | foreign
  deriving DecidableEq, Repr

/-- An `iree_hal_buffer_t`: an allocated buffer, or a subspan of one. -/
structure HalBuffer where
  allocated : AllocatedBuffer
  byteOffset : BitVec 64
  byteLength : BitVec 64
  deriving DecidableEq, Repr

/-- `iree_device_align`, for a power of two. -/
def deviceAlign (value alignment : BitVec 64) : BitVec 64 :=
  (value + (alignment - 1)) &&& ~~~(alignment - 1)

/-- `iree_hal_strela_buffer_lines`: the word offset and word count of the whole
lines around a byte range. -/
def bufferLines (st : SizeT) (byteOffset byteLength : BitVec 64) : Nat × Nat :=
  let start := byteOffset &&& ~~~(BitVec.ofNat 64 cacheLine - 1)
  let stop := deviceAlign (byteOffset + byteLength) (BitVec.ofNat 64 cacheLine)
  (st.wrap (start / BitVec.ofNat 64 wordBytes).toNat,
    st.wrap ((stop - start) / BitVec.ofNat 64 wordBytes).toNat)

/-- `iree_hal_strela_buffer_flush_range`. -/
def bufferFlushRange (st : SizeT) (buffer : HalStrelaBuffer)
    (localByteOffset localByteLength : BitVec 64) : Driver (CResult Unit) := do
  let (offset, count) := bufferLines st localByteOffset localByteLength
  call (.bufferFlush buffer.sBuf offset count)
  statusFromDev "flushing a STRELA buffer"

/-- `iree_hal_strela_buffer_invalidate_range`. -/
def bufferInvalidateRange (st : SizeT) (buffer : HalStrelaBuffer)
    (localByteOffset localByteLength : BitVec 64) : Driver (CResult Unit) := do
  let (offset, count) := bufferLines st localByteOffset localByteLength
  call (.bufferFlush buffer.sBuf offset count)
  call (.bufferInval buffer.sBuf offset count)
  statusFromDev "invalidating a STRELA buffer"

/-- `iree_hal_strela_buffer_resolve`. -/
def bufferResolve (base : HalBuffer) (offset : BitVec 64) : Option (HalStrelaBuffer × BitVec 64) :=
  match base.allocated with
  | .foreign => none
  | .strela buffer => some (buffer, base.byteOffset + offset)

/-- `iree_hal_strela_buffer_release_fn`. -/
def bufferReleaseFn (buffer : HalStrelaBuffer) : Driver Unit :=
  call (.bufferFree buffer.sBuf)

/-- `iree_hal_strela_buffer_destroy`. -/
def bufferDestroy (buffer : HalStrelaBuffer) : Driver Unit := do
  if buffer.releaseCallback then
    bufferReleaseFn buffer
  call (.free buffer.address)

/-- `iree_hal_strela_buffer_wrap`. A failed `malloc` is its only failure, and
leaves nothing to release. -/
def bufferWrap (allocationSize : BitVec 64) (sBuf : StrelaBuffer) (hostPtr : Nat)
    (releaseCallback : Bool) : Driver (CResult HalStrelaBuffer) := do
  let allocated : CResult Nat ← call (.malloc .buffer)
  match allocated with
  | .error stop => return .error stop
  | .ok address => return .ok { allocationSize, sBuf, hostPtr, releaseCallback, address }

private theorem mask_getLsbD (i : Nat) (inside : i < 64) :
    (~~~(63#64)).getLsbD i = decide (6 ≤ i) := by
  have all : ∀ j : Fin 64, (~~~(63#64)).getLsbD j.val = decide (6 ≤ j.val) := by decide
  exact all ⟨i, inside⟩

private theorem and_mask (value : BitVec 64) : value &&& ~~~(63#64) = (value >>> 6) <<< 6 := by
  apply BitVec.eq_of_getLsbD_eq
  intro i inside
  rw [BitVec.getLsbD_and, mask_getLsbD i inside]
  by_cases low : i < 6
  · simp [low]
  · have high : 6 ≤ i := by omega
    simp [low, high, inside]

/-- Clearing the low bits is rounding down to a line. -/
theorem lineStart_toNat (value : BitVec 64) :
    (value &&& ~~~(BitVec.ofNat 64 cacheLine - 1)).toNat = value.toNat / 64 * 64 := by
  have bound := value.isLt
  change (value &&& ~~~(63#64)).toNat = _
  rw [and_mask]
  simp only [BitVec.toNat_shiftLeft, BitVec.toNat_ushiftRight, Nat.shiftRight_eq_div_pow,
    Nat.shiftLeft_eq]
  omega

/-- Where the addition does not wrap, aligning is rounding up to a line. -/
theorem deviceAlign_toNat (value : BitVec 64) (fits : value.toNat + 63 < 2 ^ 64) :
    (deviceAlign value (BitVec.ofNat 64 cacheLine)).toNat = (value.toNat + 63) / 64 * 64 := by
  have start := lineStart_toNat (value + 63#64)
  have sum : (value + 63#64).toNat = value.toNat + 63 := by
    rw [BitVec.toNat_add]
    exact Nat.mod_eq_of_lt fits
  rw [sum] at start
  exact start

/-- Where nothing wraps, the lines around a range are the exact ones. -/
theorem bufferLines_exact (st : SizeT) (byteOffset byteLength : BitVec 64)
    (fits : byteOffset.toNat + byteLength.toNat + 63 < 2 ^ 64)
    (narrow : (byteOffset.toNat + byteLength.toNat + 63) / 64 * 64 < 2 ^ st.width) :
    bufferLines st byteOffset byteLength = (byteOffset.toNat / 64 * 16,
      ((byteOffset.toNat + byteLength.toNat + 63) / 64 - byteOffset.toNat / 64) * 16) := by
  have sum : (byteOffset + byteLength).toNat = byteOffset.toNat + byteLength.toNat := by
    rw [BitVec.toNat_add]
    exact Nat.mod_eq_of_lt (by omega)
  have start := lineStart_toNat byteOffset
  have stop := deviceAlign_toNat (byteOffset + byteLength) (by omega)
  rw [sum] at stop
  have bytes : (BitVec.ofNat 64 wordBytes).toNat = 4 := rfl
  simp only [bufferLines, BitVec.toNat_udiv, BitVec.toNat_sub, bytes, start, stop]
  rw [SizeT.wrap_of_lt st _ (by omega), SizeT.wrap_of_lt st _ (by omega)]
  simp only [Prod.mk.injEq]
  omega

end Estela.Runtime
