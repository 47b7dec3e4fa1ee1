import Estela.Runtime.Buffer

set_option autoImplicit false

namespace Estela.Runtime

/-- `iree_hal_buffer_compatibility_t`, by its bits. -/
structure BufferCompatibility where
  allocatable : Bool
  queueTransfer : Bool
  queueDispatch : Bool
  deriving DecidableEq, Repr

/-- `iree_hal_strela_allocator_query_buffer_compatibility`: its answer does not
depend on what is asked for. -/
def allocatorQueryBufferCompatibility : BufferCompatibility :=
  { allocatable := true, queueTransfer := true, queueDispatch := true }

/-- The size `allocate_buffer` asks libstrela for: whole lines, so that a sync
never reaches a neighbour. -/
def paddedSize (allocationSize : BitVec 64) : BitVec 64 :=
  deviceAlign allocationSize (BitVec.ofNat 64 cacheLine)

/-- The cleanup of a failed `allocate_buffer`. The HAL buffer is never there to
be released: wrapping is the last step that can fail. -/
def allocateCleanup (sBuf : StrelaBuffer) (stop : Stop) : Driver (CResult HalStrelaBuffer) := do
  if sBuf.valid then
    call (.bufferFree sBuf)
  return .error stop

/-- `iree_hal_strela_allocator_allocate_buffer`. -/
def allocatorAllocateBuffer (st : SizeT) (allocationSize : BitVec 64) :
    Driver (CResult HalStrelaBuffer) := do
  if ¬ allocatorQueryBufferCompatibility.allocatable then
    return makeStatus .invalidArgument
      "allocator cannot allocate a buffer with the given parameters"
  let words := st.wrap (paddedSize allocationSize / BitVec.ofNat 64 wordBytes).toNat
  let sBuf : StrelaBuffer ← call (.bufferAlloc words)
  let status ← statusFromDev "allocating a STRELA buffer"
  match status with
  | .error stop => allocateCleanup sBuf stop
  | .ok _ => do
    let hostPtr : Nat ← call (.bufferToPtr sBuf)
    let wrapped ← bufferWrap allocationSize sBuf hostPtr true
    match wrapped with
    | .error stop => allocateCleanup sBuf stop
    | .ok buffer => return .ok buffer

/-- The words asked for make whole lines, whatever wraps. -/
theorem paddedWords_whole (st : SizeT) (allocationSize : BitVec 64) :
    st.wrap (paddedSize allocationSize / BitVec.ofNat 64 wordBytes).toNat % 16 = 0 := by
  have padded : (paddedSize allocationSize).toNat =
      (allocationSize + (BitVec.ofNat 64 cacheLine - 1)).toNat / 64 * 64 := lineStart_toNat _
  have bytes : (BitVec.ofNat 64 wordBytes).toNat = 4 := rfl
  rw [BitVec.toNat_udiv, padded, bytes]
  cases st <;> simp only [SizeT.wrap, SizeT.width] <;> omega

end Estela.Runtime
