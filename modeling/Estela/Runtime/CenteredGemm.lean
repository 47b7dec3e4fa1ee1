import Estela.Runtime.Libstrela

set_option autoImplicit false

/- The function the compiler's matrix products call, and the surroundings it runs in:
the mappings of its operands, the words of STRELA memory, and the accelerator. -/
namespace Estela.Runtime.CenteredGemm

open CallProgram

inductive ElementType
  | int8
  | int32
  | other
  deriving DecidableEq, Repr

/-- `iree_hal_buffer_view_t`. -/
structure BufferView where
  shape : List Nat
  elementType : ElementType
  byteLength : Nat
  deriving DecidableEq, Repr

inductive Operand
  | x
  | w
  | y
  deriving DecidableEq, Repr

/-- The calls of the module that leave it, and its accesses to memory: `loadInt8`
reads `x_in[i]` or `w_in[i]`, `loadInt32` and `storeInt32` are on `y_out`, `loadWord`
and `storeWord` on the pointer to a STRELA buffer. -/
inductive GemmCall
  | mapRange (operand : Operand) (byteLength : Nat)
  | unmapRange (operand : Operand)
  | devInit
  | bufferAlloc (words : Nat)
  | devOk
  | bufferToPtr (buffer : StrelaBuffer)
  | loadInt8 (operand : Operand) (index : Nat)
  | loadWord (buffer : StrelaBuffer) (index : Nat)
  | storeWord (buffer : StrelaBuffer) (index : Nat) (value : BitVec 32)
  | loadInt32 (index : Nat)
  | storeInt32 (index : Nat) (value : BitVec 32)
  | config (kernel : StrelaKernel) (conf : StrelaConf)
  | execute
  | bufferFree (buffer : StrelaBuffer)
  deriving DecidableEq, Repr

def GemmCall.Answer : GemmCall → Type
  | .mapRange _ _ => CResult Unit
  | .unmapRange _ => Unit
  | .devInit => Unit
  | .bufferAlloc _ => StrelaBuffer
  | .devOk => Bool
  | .bufferToPtr _ => Nat
  | .loadInt8 _ _ => BitVec 8
  | .loadWord _ _ => BitVec 32
  | .storeWord _ _ _ => Unit
  | .loadInt32 _ => BitVec 32
  | .storeInt32 _ _ => Unit
  | .config _ _ => Unit
  | .execute => StrelaJobState
  | .bufferFree _ => Unit

abbrev Gemm (α : Type) := Prog GemmCall GemmCall.Answer α

def ask (c : GemmCall) : Gemm c.Answer := Prog.request c

/-- `ScopedMap`: what follows runs under the mapping, which ends with it. -/
def scopedMap (operand : Operand) (view : BufferView) (rest : Gemm (CResult Unit)) :
    Gemm (CResult Unit) := do
  let status : CResult Unit ← ask (.mapRange operand view.byteLength)
  match status with
  | .error stop => return .error stop
  | .ok _ => do
    let result ← rest
    ask (.unmapRange operand)
    return result

/-- A loop that copies an operand to its STRELA buffer, widening the elements. -/
def copyIn (operand : Operand) (buffer : StrelaBuffer) (count : Nat) : Gemm (CResult Unit) :=
  Prog.forEach (fun i => do
    let value : BitVec 8 ← ask (.loadInt8 operand i)
    ask (.storeWord buffer i (value.signExtend 32))
    return .ok ()) (List.range' 0 count)

/-- `j += 3` from 0 to below `N`. It does not wrap: the largest `size_t` is a multiple of 3. -/
def tileCount (columns : Nat) : Nat := (columns + 2) / 3

section

variable (st : SizeT) (sx sw sy : StrelaBuffer) (rows depth columns : Nat)

/-- The `conf` of row `i` and of the columns from `j` on. Those past the last one
get no words: neither an input nor an output. -/
def tileConf (i j : Nat) : StrelaConf where
  inp := [
    { offset := st.wrap (sx.offsetWordsFromBase + i * depth), count := depth, stride := 1 },
    { offset := st.wrap (sw.offsetWordsFromBase + j * depth), count := depth, stride := 1 },
    { offset := st.wrap (sw.offsetWordsFromBase + (j + 1) * depth)
      count := if j + 1 < columns then depth else 0, stride := 1 },
    { offset := st.wrap (sw.offsetWordsFromBase + (j + 2) * depth)
      count := if j + 2 < columns then depth else 0, stride := 1 }]
  out := [
    { offset := 0, count := 0 },
    { offset := st.wrap (sy.offsetWordsFromBase + i * columns + j), count := 1 },
    { offset := st.wrap (sy.offsetWordsFromBase + i * columns + (j + 1))
      count := if j + 1 < columns then 1 else 0 },
    { offset := st.wrap (sy.offsetWordsFromBase + i * columns + (j + 2))
      count := if j + 2 < columns then 1 else 0 }]

/-- One turn of the inner loop. -/
def executeTile (kernel : StrelaKernel) (i j : Nat) : Gemm (CResult Unit) := do
  ask (.config kernel (tileConf st sx sw sy depth columns i j))
  let state : StrelaJobState ← ask .execute
  return if state = .ok then .ok () else makeStatus .internal "STRELA job did not complete"

/-- The loops over `i` and over `j` in steps of 3. -/
def tiledLoop (kernel : StrelaKernel) : Gemm (CResult Unit) :=
  Prog.forEach (fun i => Prog.forEach
      (fun t => executeTile st sx sw sy depth columns kernel i (3 * t))
    (List.range' 0 (tileCount columns))) (List.range' 0 rows)

/-- The sum of the plain loop, on `int32_t` that wrap. -/
def plainAcc (x w : Nat → BitVec 8) (zX zW : BitVec 32) (i j : Nat) : Nat → BitVec 32
  | 0 => 0
  | k + 1 => plainAcc x w zX zW i j k +
      ((x (i * depth + k)).signExtend 32 - zX) * ((w (j * depth + k)).signExtend 32 - zW)

/-- The innermost of the plain loops, from `k` on with the sum so far. -/
def plainDot (zX zW : BitVec 32) (i j : Nat) : Nat → Nat → BitVec 32 → Gemm (BitVec 32)
  | 0, _, acc => return acc
  | more + 1, k, acc => do
      let xIn : BitVec 8 ← ask (.loadInt8 .x (st.wrap (i * depth + k)))
      let wIn : BitVec 8 ← ask (.loadInt8 .w (st.wrap (j * depth + k)))
      plainDot zX zW i j more (k + 1)
        (acc + (xIn.signExtend 32 - zX) * (wIn.signExtend 32 - zW))

/-- The plain loops, in place of the tiled ones where those are compiled out. -/
def plainLoop (zX zW : BitVec 32) : Gemm (CResult Unit) :=
  Prog.forEach (fun i => Prog.forEach (fun j => do
    let acc ← plainDot st depth zX zW i j depth 0 0
    ask (.storeWord sy (st.wrap (i * columns + j)) acc)
    return .ok ()) (List.range' 0 columns)) (List.range' 0 rows)

end

/-- The last loop: the products are added to what is there. -/
def accumulate (sy : StrelaBuffer) (count : Nat) : Gemm (CResult Unit) :=
  Prog.forEach (fun i => do
    let product : BitVec 32 ← ask (.loadWord sy i)
    let before : BitVec 32 ← ask (.loadInt32 i)
    ask (.storeInt32 i (before + product))
    return .ok ()) (List.range' 0 count)

/-- From the mapped operands on. -/
def gemmBody (st : SizeT) (kernelHandle : Nat) (rows depth columns : Nat) :
    Gemm (CResult Unit) := do
  ask .devInit
  let sx : StrelaBuffer ← ask (.bufferAlloc (st.wrap (rows * depth)))
  let sw : StrelaBuffer ← ask (.bufferAlloc (st.wrap (columns * depth)))
  let sy : StrelaBuffer ← ask (.bufferAlloc (st.wrap (rows * columns)))
  let ok : Bool ← ask .devOk
  match ok with
  | false => return makeStatus .internal "STRELA something during initialization or allocation."
  | true => do
    let _sxPtr ← ask (.bufferToPtr sx)
    let _swPtr ← ask (.bufferToPtr sw)
    let _syPtr ← ask (.bufferToPtr sy)
    let _copied ← copyIn .x sx (st.wrap (rows * depth))
    let _copied ← copyIn .w sw (st.wrap (columns * depth))
    let status ← tiledLoop st sx sw sy rows depth columns { valid := true, handle := kernelHandle }
    match status with
    | .error stop => return .error stop
    | .ok _ => do
      let ok : Bool ← ask .devOk
      match ok with
      | false => return makeStatus .internal "STRELA something went wrong during the execution"
      | true => do
        let _added ← accumulate sy (st.wrap (rows * columns))
        ask (.bufferFree sx)
        ask (.bufferFree sw)
        ask (.bufferFree sy)
        return .ok ()

/-- `CustomModuleState::MyCenteredGemm`; what it returns on OK is `y` itself. The zero points
are in the kernel, and are arguments for the plain loops only. -/
def myCenteredGemm (st : SizeT) (kernelHandle : Nat) (x w y : BufferView) : Gemm (CResult Unit) :=
  match x.shape, w.shape, y.shape with
  | [rows, depth], [columns, depth'], [_, _] =>
      if x.elementType ≠ .int8 ∨ w.elementType ≠ .int8 ∨ y.elementType ≠ .int32 then
        return makeStatus .invalidArgument "Expected SINT_8 inputs and SINT_32 output"
      else if depth ≠ depth' then
        return makeStatus .invalidArgument "Expected the input matrices to have compatible shapes"
      else
        scopedMap .x x
          (scopedMap .w w (scopedMap .y y (gemmBody st kernelHandle rows depth columns)))
  | _, _, _ => return makeStatus .invalidArgument "Expected 2D matrices for GEMM"

end Estela.Runtime.CenteredGemm
