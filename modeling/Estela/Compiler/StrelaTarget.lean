import Estela.Compiler.MaterializeBindings
import Estela.Runtime.Executable

set_option autoImplicit false

namespace Estela.Compiler

open Ssa (Op Body definingOp uses)
open Estela.Runtime (ColumnDef ExportDef ExecutableDef columnCount)

/-- `StrelaKernel`: a configuration of the CGRA and the columns it uses. -/
structure StrelaKernel where
  bitstream : List (BitVec 32)
  inputCount : Nat
  inputColumns : List Nat
  outputColumn : Nat
  deriving DecidableEq, Repr

def addBitstream : List (BitVec 32) := [
  0x00000000, 0x00000000, 0x00000000, 0x00000000, 0x00000000,
  0x00000000, 0x00000000, 0x00000000, 0x00000000, 0x00000000,
  0x00000000, 0x00000000, 0x00000000, 0x00000000, 0x00000000,
  0x00000041, 0x00000000, 0x00000000, 0x00000000, 0x00000000,
  0x00000021, 0x00000000, 0x00000000, 0x00000000, 0x00000000,
  0x00000021, 0x00000000, 0x00000000, 0x00000000, 0x00000000,
  0x00000021, 0x00000000, 0x00000000, 0x00000000, 0x00000000,
  0x08000109, 0x003C0300, 0x00000080, 0x00000000, 0x00000000,
  0x00000000, 0x00000000, 0x00000000, 0x00000000, 0x00000000,
  0x00000000, 0x00000000, 0x00000000, 0x00000000, 0x00000000,
  0x00000000, 0x00000000, 0x00000000, 0x00000000, 0x00000000,
  0x00000041, 0x00000000, 0x00000000, 0x00000000, 0x00000000,
  0x00000021, 0x00000000, 0x00000000, 0x00000000, 0x00000000,
  0x00000021, 0x00000000, 0x00000000, 0x00000000, 0x00000000,
  0x00000021, 0x00000000, 0x00000000, 0x00000000, 0x00000000,
  0x08000109, 0x003C0300, 0x00000080, 0x00000000, 0x00000000]

def reluBitstream : List (BitVec 32) := [
  0x00000021, 0x00000000, 0x00000000, 0x00000000, 0x00000000,
  0x00000021, 0x00000000, 0x00000000, 0x00000000, 0x00000000,
  0x00004083, 0x20CC0300, 0x000000A0, 0x00000000, 0x00000000,
  0x00000241, 0x020C0300, 0x00000099, 0x00000000, 0x00000000,
  0x00000000, 0x00000000, 0x00000000, 0x00000000, 0x00000000,
  0x00000000, 0x00000000, 0x00000000, 0x00000000, 0x00000000,
  0x00000011, 0x00000000, 0x00000000, 0x00000000, 0x00000000,
  0x00400008, 0x00000200, 0x00000000, 0x00000000, 0x00000000,
  0x00000000, 0x00000000, 0x00000000, 0x00000000, 0x00000000,
  0x00000000, 0x00000000, 0x00000000, 0x00000000, 0x00000000,
  0x00000000, 0x00000000, 0x00000000, 0x00000000, 0x00000000,
  0x00000000, 0x00000000, 0x00000000, 0x00000000, 0x00000000,
  0x00000000, 0x00000000, 0x00000000, 0x00000000, 0x00000000,
  0x00000000, 0x00000000, 0x00000000, 0x00000000, 0x00000000,
  0x00000000, 0x00000000, 0x00000000, 0x00000000, 0x00000000,
  0x00000000, 0x00000000, 0x00000000, 0x00000000, 0x00000000]

def addKernel : StrelaKernel where
  bitstream := addBitstream
  inputCount := 2
  inputColumns := [0, 1, 0, 0]
  outputColumn := 1

def reluKernel : StrelaKernel where
  bitstream := reluBitstream
  inputCount := 1
  inputColumns := [0, 0, 0, 0]
  outputColumn := 0

/-- `StrelaColumn`: the DMA programme of one CGRA column. -/
structure StrelaColumn where
  binding : BitVec 32
  byteOffset : BitVec 64
  offsetConstants : List (BitVec 32)
  wordCount : BitVec 32
  stride : BitVec 32
  deriving DecidableEq, Repr

def unusedColumn : StrelaColumn where
  binding := 0
  byteOffset := 0
  offsetConstants := []
  wordCount := 0
  stride := 0

/-- `strelaMaxColumnWords`. -/
def strelaMaxColumnWords : Nat := 0xFFFF / 4

/-- `getColumn`, for either binding op. -/
def getColumn (op : BindingAttrs) (type : TensorType) (stride : BitVec 32) :
    Except String StrelaColumn :=
  match type.staticShape with
  | none => .error "STRELA needs a static shape"
  | some shape =>
      if shape.prod > strelaMaxColumnWords then
        .error (s!"moves {shape.prod} words, more than the {strelaMaxColumnWords} a STRELA " ++
          "column can in one job")
      else
        .ok {
          binding := op.binding.setWidth 32
          byteOffset := op.byteOffset.getD 0
          offsetConstants := (op.offsets.getD []).map (·.setWidth 32)
          wordCount := BitVec.ofNat 32 shape.prod
          stride }

theorem getColumn_ok {attrs : BindingAttrs} {type : TensorType} {stride : BitVec 32}
    {column : StrelaColumn} (got : getColumn attrs type stride = .ok column) :
    ∃ shape, type.staticShape = some shape ∧ shape.prod ≤ strelaMaxColumnWords ∧
      column = {
        binding := attrs.binding.setWidth 32
        byteOffset := attrs.byteOffset.getD 0
        offsetConstants := (attrs.offsets.getD []).map (·.setWidth 32)
        wordCount := BitVec.ofNat 32 shape.prod
        stride } := by
  unfold getColumn at got
  split at got
  · cases got
  · rename_i shape static
    split at got
    · cases got
    · rename_i small
      cases got
      exact ⟨shape, static, by omega, rfl⟩

/-- `StrelaExport`: the kernel of an export and its columns, by index. -/
structure StrelaExport where
  kernel : StrelaKernel
  inputs : List StrelaColumn
  outputs : List StrelaColumn
  deriving DecidableEq, Repr

/-- `getDefiningOp<BindingLoadOp>`, with the type of its result. -/
def bindingLoadOf (body : Body OpKind) (operand : Nat) : Option (BindingAttrs × TensorType) :=
  match definingOp body operand with
  | some (⟨.bindingLoad attrs type, _, _⟩, _) => some (attrs, type)
  | _ => none

/-- The loop of `getExport` over the operands: operand number `i` enters by the
`i`-th input column of the kernel. -/
def exportInputs (body : Body OpKind) (kernel : StrelaKernel) :
    List Nat → Nat → List StrelaColumn → Except String (List StrelaColumn)
  | [], _, inputs => .ok inputs
  | operand :: rest, i, inputs => do
      let some (attrs, type) := bindingLoadOf body operand
        | .error s!"operand {i} is not read straight from a binding"
      let column ← getColumn attrs type 1
      exportInputs body kernel rest (i + 1) (inputs.set (kernel.inputColumns.getD i 0) column)

/-- The column the result leaves by. -/
def exportOutput (body : Body OpKind) (result : Nat) (type : TensorType) :
    Except String StrelaColumn := do
  if (uses body).count result ≠ 1 then
    .error "result must be stored to exactly one binding"
  match body.find? (result ∈ ·.operands) with
  | some ⟨.bindingStore attrs, _, _⟩ => getColumn attrs type 0
  | _ => .error "result is not stored straight to a binding"

/-- The kernel of a STRELA op, and the type of its result. -/
def kernelOf : OpKind → Except String (StrelaKernel × TensorType)
  | .add type => .ok (addKernel, type)
  | .relu type => .ok (reluKernel, type)
  | _ => .error "cannot be serialized yet"

/-- `getExport`. -/
def getExport (funcOp : FuncOp) : Except String StrelaExport := do
  let kernelOps := funcOp.body.filter fun op => op.kind.strelaType.isSome
  let [kernelOp] := kernelOps
    | .error s!"expected exactly one STRELA operation, found {kernelOps.length}"
  let (kernel, type) ← kernelOf kernelOp.kind
  if kernelOp.operands.length ≠ kernel.inputCount then
    .error "operand count does not match its kernel"
  let inputs ← exportInputs funcOp.body kernel kernelOp.operands 0
    (List.replicate columnCount unusedColumn)
  let some result := kernelOp.results.head?
    | .error "result must be stored to exactly one binding"
  let output ← exportOutput funcOp.body result type
  return {
    kernel
    inputs
    outputs := (List.replicate columnCount unusedColumn).set kernel.outputColumn output }

/-- What `getExport` finds in a function it accepts. -/
structure ExportParts (funcOp : FuncOp) (strelaExport : StrelaExport) (kernelOp : Op OpKind)
    (kernel : StrelaKernel) (type : TensorType) (inputs : List StrelaColumn) (result : Nat)
    (output : StrelaColumn) : Prop where
  single : funcOp.body.filter (fun op => op.kind.strelaType.isSome) = [kernelOp]
  chosen : kernelOf kernelOp.kind = .ok (kernel, type)
  operands : kernelOp.operands.length = kernel.inputCount
  loaded : exportInputs funcOp.body kernel kernelOp.operands 0
    (List.replicate columnCount unusedColumn) = .ok inputs
  produced : kernelOp.results.head? = some result
  stored : exportOutput funcOp.body result type = .ok output
  whole : strelaExport = {
    kernel
    inputs
    outputs := (List.replicate columnCount unusedColumn).set kernel.outputColumn output }

theorem kernelOf_ok {kind : OpKind} {kernel : StrelaKernel} {type : TensorType}
    (chosen : kernelOf kind = .ok (kernel, type)) :
    kind = .add type ∧ kernel = addKernel ∨ kind = .relu type ∧ kernel = reluKernel := by
  unfold kernelOf at chosen
  split at chosen
  · cases chosen
    exact Or.inl ⟨rfl, rfl⟩
  · cases chosen
    exact Or.inr ⟨rfl, rfl⟩
  · cases chosen

theorem getExport_ok {funcOp : FuncOp} {strelaExport : StrelaExport}
    (got : getExport funcOp = .ok strelaExport) :
    ∃ kernelOp kernel type inputs result output,
      ExportParts funcOp strelaExport kernelOp kernel type inputs result output := by
  simp only [getExport, bind, Except.bind, pure, Except.pure] at got
  split at got
  case h_2 => cases got
  rename_i kernelOp single
  split at got
  · cases got
  rename_i chosen chosenGot
  split at got
  · cases got
  rename_i operands
  split at got
  · cases got
  rename_i inputs inputsGot
  split at got
  case h_2 => cases got
  rename_i result resultGot
  split at got
  · cases got
  rename_i output outputGot
  cases got
  exact ⟨kernelOp, chosen.1, chosen.2, inputs, result, output,
    single, chosenGot, Decidable.not_not.mp operands, inputsGot, resultGot, outputGot, rfl⟩

/-- `createColumns`, of one column. -/
def createColumn (column : StrelaColumn) : ColumnDef where
  binding := column.binding
  byteOffset := column.byteOffset
  offsetConstants := column.offsetConstants
  wordCount := column.wordCount
  stride := column.stride

/-- `hal.executable.export`: its ordinal, and the numbers of push constants and
bindings of its layout. -/
structure ExecutableExportOp where
  symName : String
  ordinal : Option Nat
  constants : Nat
  bindings : Nat
  deriving DecidableEq, Repr

/-- `hal.executable.variant`, with the functions of its inner module. -/
structure ExecutableVariantOp where
  exports : List ExecutableExportOp
  innerModule : Option (List FuncOp)
  deriving DecidableEq, Repr

/-- The `ExportDef` of one export op. -/
def exportDefOf (exportOp : ExecutableExportOp) (strelaExport : StrelaExport) : ExportDef where
  name := some exportOp.symName
  bitstream := strelaExport.kernel.bitstream
  inputs := strelaExport.inputs.map createColumn
  outputs := strelaExport.outputs.map createColumn
  constantCount := BitVec.ofNat 32 exportOp.constants
  bindingCount := BitVec.ofNat 32 exportOp.bindings

/-- The loop of `serializeExecutable`: it fills the slot of each export's ordinal. -/
def serializeExports (funcs : List FuncOp) :
    List ExecutableExportOp → List (Option ExportDef) → Except String (List (Option ExportDef))
  | [], exportRefs => .ok exportRefs
  | exportOp :: rest, exportRefs => do
      let some ordinal := exportOp.ordinal | .error "is missing its ordinal"
      let some funcOp := funcs.find? (·.symName = exportOp.symName)
        | .error "has no function in the inner module"
      let strelaExport ← getExport funcOp
      serializeExports funcs rest
        (exportRefs.set ordinal (some (exportDefOf exportOp strelaExport)))

/-- `StrelaTargetBackend::serializeExecutable`, as the tables it builds. -/
def serializeExecutable (variantOp : ExecutableVariantOp) : Except String ExecutableDef := do
  let some funcs := variantOp.innerModule | .error "has no inner module to serialize"
  let exports ← serializeExports funcs variantOp.exports
    (List.replicate variantOp.exports.length none)
  return { exports }

end Estela.Compiler
