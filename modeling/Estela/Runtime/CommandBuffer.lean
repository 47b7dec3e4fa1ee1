import Estela.Runtime.Buffer
import Estela.Runtime.Executable

set_option autoImplicit false

namespace Estela.Runtime

/-- `iree_hal_buffer_ref_t`. -/
structure BufferRef where
  buffer : Option HalBuffer
  offset : BitVec 64
  length : BitVec 64
  deriving DecidableEq, Repr

/-- `IREE_HAL_WHOLE_BUFFER`. -/
def wholeBuffer : BitVec 64 := BitVec.allOnes 64

/-- The push constants, as the bytes of an `iree_const_byte_span_t`. -/
structure ConstByteSpan where
  data : List (BitVec 8)
  deriving DecidableEq, Repr

def ConstByteSpan.dataLength (span : ConstByteSpan) : Nat := span.data.length

/-- `values[ordinal]` of the span read as little-endian 32 bit words; undefined
past its end. -/
def ConstByteSpan.value (span : ConstByteSpan) (ordinal : Nat) : Option (BitVec 32) :=
  match span.data.drop (4 * ordinal) with
  | b0 :: b1 :: b2 :: b3 :: _ => some (b3 ++ b2 ++ b1 ++ b0)
  | _ => none

/-- `iree_hal_strela_column_t`: where one CGRA column reads or writes. -/
structure Column where
  buffer : Option HalStrelaBuffer
  offset : BitVec 64
  length : BitVec 64
  wordsFromBase : Nat
  wordCount : Nat
  stride : Nat
  deriving DecidableEq, Repr

/-- The loop of `column_resolve` over the push constants of a runtime offset,
from constant number `i` on. -/
def addOffsetConstants (st : SizeT) (constants : ConstByteSpan) :
    List (BitVec 32) → Nat → BitVec 64 → CResult (BitVec 64)
  | [], _, byteOffset => .ok byteOffset
  | ordinal :: rest, i, byteOffset =>
      if st.wrap (st.wrap (ordinal.toNat + 1) * 4) > constants.dataLength then
        makeStatus .invalidArgument "missing push constants"
      else
        match constants.value ordinal.toNat with
        | none => .error (.fault (.readsPast "constants"))
        | some value =>
            if 64 ≤ 32 * i then .error (.fault (.shiftsPast (32 * i)))
            else
              addOffsetConstants st constants rest (i + 1)
                (byteOffset + value.setWidth 64 <<< (32 * i))

/-- `span_words`: an input reads one word in every `stride`, the first one
repeatedly for 0. -/
def spanWords (st : SizeT) (isInput : Bool) (wordCount stride : Nat) : Nat :=
  if isInput ∧ stride ≠ 1 then st.wrap (st.wrap ((wordCount - 1) * stride) + 1) else wordCount

/-- The bytes a ref binds, from its offset on. -/
def boundLength (buffer : HalBuffer) (ref : BufferRef) : BitVec 64 :=
  if ref.length = wholeBuffer then buffer.byteLength - ref.offset else ref.length

/-- `iree_hal_strela_column_resolve`. -/
def columnResolve (st : SizeT) (column : ColumnDef) (isInput : Bool) (constants : ConstByteSpan)
    (bindings : List BufferRef) : CResult Column := do
  let wordCount := column.wordCount.toNat
  let stride := if isInput then column.stride.toNat else 0
  if wordCount = 0 then
    return { buffer := none, offset := 0, length := 0, wordsFromBase := 0, wordCount, stride }
  let binding := column.binding.toNat
  let some ref := bindings[binding]?
    | makeStatus .invalidArgument s!"binding {binding} is missing"
  let some base := ref.buffer
    | makeStatus .invalidArgument s!"binding {binding} is missing"
  let byteOffset ← addOffsetConstants st constants column.offsetConstants 0 column.byteOffset
  let length := BitVec.ofNat 64 (st.wrap (spanWords st isInput wordCount stride * wordBytes))
  if byteOffset + length > boundLength base ref then
    makeStatus .outOfRange s!"binding {binding}: column runs past the bound range"
  let some (buffer, offset) := bufferResolve base (ref.offset + byteOffset)
    | makeStatus .invalidArgument
        (s!"binding {binding} is not STRELA memory; the CGRA can only reach " ++
          "buffers from the STRELA allocator " ++
          "(see --device_lead_allocator and the device topology)")
  if offset % BitVec.ofNat 64 wordBytes ≠ 0 then
    makeStatus .invalidArgument s!"binding {binding} is not word aligned"
  return {
    buffer := some buffer
    offset
    length
    wordsFromBase := st.wrap ((BitVec.ofNat 64 buffer.sBuf.offsetWordsFromBase
      + offset / BitVec.ofNat 64 wordBytes).toNat)
    wordCount
    stride }

/-- The first loop of `dispatch`: the input and the output column of each index. -/
def resolveColumns (st : SizeT) (inputs outputs : List ColumnDef) (constants : ConstByteSpan)
    (bindings : List BufferRef) : List Nat → CResult (List (Column × Column))
  | [] => .ok []
  | c :: rest => do
      let inputDef ← vecAt "inputs" inputs c
      let input ← columnResolve st inputDef true constants bindings
      let outputDef ← vecAt "outputs" outputs c
      let output ← columnResolve st outputDef false constants bindings
      let columns ← resolveColumns st inputs outputs constants bindings rest
      return (input, output) :: columns

/-- The next step of a function that goes on only while its status is OK. -/
def whileOk (status : CResult Unit) (next : Driver (CResult Unit)) : Driver (CResult Unit) :=
  match status with
  | .ok _ => next
  | .error stop => return .error stop

/-- What a loop of `dispatch` does for one column, if it is in use. -/
def forColumn (sync : HalStrelaBuffer → BitVec 64 → BitVec 64 → Driver (CResult Unit))
    (column : Column) : Driver (CResult Unit) :=
  match column.buffer with
  | none => return .ok ()
  | some buffer => sync buffer column.offset column.length

/-- The loop of `dispatch` before the job. -/
def flushColumns (st : SizeT) : List (Column × Column) → Driver (CResult Unit)
  | [] => return .ok ()
  | (input, output) :: rest => do
      let status ← forColumn (bufferFlushRange st) input
      let status ← whileOk status (forColumn (bufferFlushRange st) output)
      whileOk status (flushColumns st rest)

/-- The loop of `dispatch` after the job. -/
def invalidateColumns (st : SizeT) : List (Column × Column) → Driver (CResult Unit)
  | [] => return .ok ()
  | (_, output) :: rest => do
      let status ← forColumn (bufferInvalidateRange st) output
      whileOk status (invalidateColumns st rest)

/-- The `strela_conf` of the resolved columns. -/
def strelaConf (columns : List (Column × Column)) : StrelaConf where
  inp := columns.map fun c =>
    { offset := c.1.wordsFromBase, count := c.1.wordCount, stride := c.1.stride }
  out := columns.map fun c => { offset := c.2.wordsFromBase, count := c.2.wordCount }

/-- Configuring, submitting and waiting for the job. -/
def runJob (kernel : StrelaKernel) (conf : StrelaConf) : Driver (StrelaJob × CResult Unit) := do
  let job : StrelaJob ← call (.jobConfig kernel conf)
  call (.jobSubmit job)
  call (.jobWait job (-1))
  let status ← statusFromDev "running a STRELA job"
  return (job, status)

/-- The job of a dispatch: the zeroed, invalid one unless all went well so far. -/
def startJob (kernel : StrelaKernel) (conf : StrelaConf) (status : CResult Unit) :
    Driver (StrelaJob × CResult Unit) :=
  match status with
  | .ok _ => runJob kernel conf
  | .error stop => return ({ valid := false, handle := 0 }, .error stop)

/-- The status of a polled job that did not complete. -/
def jobStateStatus (state : StrelaJobState) : CResult Unit :=
  match state with
  | .ok => .ok ()
  | .pending => makeStatus .aborted
      "STRELA job did not finish (the driver cancels jobs that do not finish in time)"
  | .failed => makeStatus .aborted
      "STRELA job failed (the driver cancels jobs that do not finish in time)"

def pollJob (job : StrelaJob) : Driver (CResult Unit) := do
  let state : StrelaJobState ← call (.jobPoll job)
  let status ← statusFromDev "polling a STRELA job"
  whileOk status (pure (jobStateStatus state))

def freeJob (job : StrelaJob) (status : CResult Unit) : Driver (CResult Unit) := do
  if job.valid then
    call (.jobFree job)
    let freed ← statusFromDev "freeing a STRELA job"
    return statusJoin status freed
  else
    return status

/-- `dispatch` once every column is resolved. -/
def dispatchColumns (st : SizeT) (kernel : StrelaKernel) (columns : List (Column × Column)) :
    Driver (CResult Unit) := do
  let status ← flushColumns st columns
  let (job, status) ← startJob kernel (strelaConf columns) status
  let status ← whileOk status (pollJob job)
  let status ← freeJob job status
  whileOk status (invalidateColumns st columns)

/-- `iree_hal_strela_command_buffer_dispatch`. -/
def commandBufferDispatch (st : SizeT) (executable : Executable) (function : BitVec 64)
    (constants : ConstByteSpan) (bindings : List BufferRef) : Driver (CResult Unit) :=
  match executable.exports[function.toNat]? with
  | none => return makeStatus .outOfRange "no such STRELA function"
  | some export_ =>
    match resolveColumns st export_.exportDef.inputs export_.exportDef.outputs constants bindings
        (List.range columnCount) with
    | .error stop => return .error stop
    | .ok columns => dispatchColumns st export_.kernel columns

/-- What `flush_buffer` and `invalidate_buffer` do with a ref: memory that is not
STRELA's needs no maintenance. A NULL buffer is read as if it were one. -/
def syncTargetRef (sync : HalStrelaBuffer → BitVec 64 → BitVec 64 → Driver (CResult Unit))
    (targetRef : BufferRef) : Driver (CResult Unit) :=
  match targetRef.buffer with
  | none => return .error (.fault (.readsPast "buffer"))
  | some base =>
    match bufferResolve base targetRef.offset with
    | none => return .ok ()
    | some (buffer, offset) => sync buffer offset targetRef.length

/-- `iree_hal_strela_command_buffer_flush_buffer`. -/
def commandBufferFlushBuffer (st : SizeT) (targetRef : BufferRef) : Driver (CResult Unit) :=
  syncTargetRef (bufferFlushRange st) targetRef

/-- `iree_hal_strela_command_buffer_invalidate_buffer`. -/
def commandBufferInvalidateBuffer (st : SizeT) (targetRef : BufferRef) : Driver (CResult Unit) :=
  syncTargetRef (bufferInvalidateRange st) targetRef

end Estela.Runtime
