import Estela.Runtime.Libstrela

set_option autoImplicit false

namespace Estela.Runtime

open CallProgram

/-- `IREE_HAL_STRELA_COLUMN_COUNT`: columns per direction. -/
def columnCount : Nat := 4

/-- `STRELA_KERNEL_SIZE`, the words of a bitstream. -/
def strelaKernelSize : Nat := 80

/-- The schema's `ColumnDef`. -/
structure ColumnDef where
  binding : BitVec 32
  byteOffset : BitVec 64
  offsetConstants : List (BitVec 32)
  wordCount : BitVec 32
  stride : BitVec 32
  deriving DecidableEq, Repr

/-- The schema's `ExportDef`; `name` is none where the field is not present. -/
structure ExportDef where
  name : Option String
  bitstream : List (BitVec 32)
  inputs : List ColumnDef
  outputs : List ColumnDef
  constantCount : BitVec 32
  bindingCount : BitVec 32
  deriving DecidableEq, Repr

/-- The schema's `ExecutableDef`; none is a null element of the vector. -/
structure ExecutableDef where
  exports : List (Option ExportDef)
  deriving DecidableEq, Repr

/-- The bytes of an executable as the readers outside the driver see them: the
verdict on its IREE header, flatcc's on its tables (an error string when they do
not verify), and the root table. -/
structure ExecutableData where
  header : CResult Unit
  verifyAsRoot : Option String
  root : ExecutableDef
  flatbufferLength : Nat

/-- A flatcc vector read, defined only inside the vector. -/
def vecAt {α : Type} (what : String) (items : List α) (index : Nat) : CResult α :=
  match items[index]? with
  | some item => .ok item
  | none => .error (.fault (.readsPast what))

theorem vecAt_eq_ok {α : Type} (what : String) (items : List α) (index : Nat) (item : α) :
    vecAt what items index = .ok item ↔ items[index]? = some item := by
  unfold vecAt
  cases items[index]? <;> simp

/-- The ordinals of `offset_constants`, checked one after the other. -/
def offsetConstantsVerify (constantCount : BitVec 32) : List (BitVec 32) → CResult Unit
  | [] => .ok ()
  | ordinal :: rest =>
      if ordinal ≥ constantCount then makeStatus .invalidArgument "offset constant out of range"
      else offsetConstantsVerify constantCount rest

/-- `iree_hal_strela_column_verify`. -/
def columnVerify (column : ColumnDef) (bindingCount constantCount : BitVec 32) : CResult Unit :=
  if column.wordCount = 0 then .ok ()
  else if column.binding ≥ bindingCount then
    makeStatus .invalidArgument "column binding out of range"
  else if column.byteOffset % BitVec.ofNat 64 wordBytes ≠ 0 then
    makeStatus .invalidArgument "column offset is not word aligned"
  else if column.offsetConstants.length > 2 then
    makeStatus .invalidArgument "a runtime offset takes one or two constants"
  else offsetConstantsVerify constantCount column.offsetConstants

/-- The columns of an export, input and output of each index in turn. -/
def columnsVerify (inputs outputs : List ColumnDef) (bindingCount constantCount : BitVec 32) :
    List Nat → CResult Unit
  | [] => .ok ()
  | c :: rest => do
      let input ← vecAt "inputs" inputs c
      columnVerify input bindingCount constantCount
      let output ← vecAt "outputs" outputs c
      columnVerify output bindingCount constantCount
      columnsVerify inputs outputs bindingCount constantCount rest

/-- The checks `flatbuffer_verify` makes of export number `i`. -/
def exportVerify (i : Nat) : Option ExportDef → CResult Unit
  | none => makeStatus .invalidArgument s!"export {i} has no name"
  | some exportDef =>
      if exportDef.name = none then makeStatus .invalidArgument s!"export {i} has no name"
      else if exportDef.bitstream.length ≠ strelaKernelSize then
        makeStatus .invalidArgument s!"export {i}: bitstream is not {strelaKernelSize} words"
      else if exportDef.inputs.length ≠ columnCount ∨ exportDef.outputs.length ≠ columnCount then
        makeStatus .invalidArgument s!"export {i}: expected {columnCount} input and output columns"
      else
        columnsVerify exportDef.inputs exportDef.outputs exportDef.bindingCount
          exportDef.constantCount (List.range columnCount)

def exportsVerify (i : Nat) : List (Option ExportDef) → CResult Unit
  | [] => .ok ()
  | exportDef :: rest => do
      exportVerify i exportDef
      exportsVerify (i + 1) rest

/-- `iree_hal_strela_executable_flatbuffer_verify`. -/
def executableFlatbufferVerify (data : ExecutableData) : CResult Unit :=
  match data.verifyAsRoot with
  | some reason => makeStatus .invalidArgument s!"flatbuffer verification failed: {reason}"
  | none => exportsVerify 0 data.root.exports

/-- `iree_hal_strela_export_t`. -/
structure Export where
  exportDef : ExportDef
  kernel : StrelaKernel
  deriving DecidableEq, Repr

/-- `iree_hal_strela_executable_t`. -/
structure Executable where
  exports : List Export
  address : Nat
  deriving DecidableEq, Repr

/-- Every export loaded with the zeroed kernel `create` starts it with. A null
element cannot be reached: verification has rejected it. -/
def zeroedExports (exports : List (Option ExportDef)) : List Export :=
  exports.filterMap fun exportDef =>
    exportDef.map fun exportDef => { exportDef, kernel := { valid := false, handle := 0 } }

/-- The loop of `create` that loads the bitstreams. It stops at the first
failure, with the kernel of that export already stored. -/
def loadBitstreams : List Export → Driver (List Export × CResult Unit)
  | [] => return ([], .ok ())
  | export_ :: rest => do
      let kernel : StrelaKernel ← call .kernelAlloc
      call (.kernelSet kernel export_.exportDef.bitstream)
      let status ← statusFromDev "loading a STRELA bitstream"
      match status with
      | .error stop => return ({ export_ with kernel } :: rest, .error stop)
      | .ok _ => do
        let loaded ← loadBitstreams rest
        return ({ export_ with kernel } :: loaded.1, loaded.2)

/-- The kernels `destroy` frees. -/
def freeKernels : List Export → Driver Unit
  | [] => return ()
  | export_ :: rest => do
      if export_.kernel.valid then
        call (.kernelFree export_.kernel)
      freeKernels rest

/-- `iree_hal_strela_executable_destroy`. -/
def executableDestroy (executable : Executable) : Driver Unit := do
  freeKernels executable.exports
  let _ignored ← statusFromDev "freeing a STRELA kernel"
  call (.free executable.address)

/-- `iree_hal_strela_executable_create`. -/
def executableCreate (data : ExecutableData) : Driver (CResult Executable) := do
  match data.header with
  | .error stop => return .error stop
  | .ok _ =>
  match executableFlatbufferVerify data with
  | .error stop => return .error stop
  | .ok _ => do
  let allocated : CResult Nat ←
    call (.malloc (.executable data.root.exports.length data.flatbufferLength))
  match allocated with
  | .error stop => return .error stop
  | .ok address => do
    let loaded ← loadBitstreams (zeroedExports data.root.exports)
    match loaded.2 with
    | .ok _ => return .ok { exports := loaded.1, address }
    | .error stop => do
      executableDestroy { exports := loaded.1, address }
      return .error stop

/-- `iree_hal_strela_executable_lookup_function_by_name`, from export `i` on. -/
def lookupExportFrom (name : String) : Nat → List Export → CResult Nat
  | _, [] => makeStatus .notFound s!"no STRELA function named '{name}'"
  | i, export_ :: rest =>
      if export_.exportDef.name = some name then .ok i else lookupExportFrom name (i + 1) rest

def executableLookupFunctionByName (executable : Executable) (name : String) : CResult Nat :=
  lookupExportFrom name 0 executable.exports

/-- `iree_hal_executable_function_info_t`, as far as `function_info` fills it. -/
structure FunctionInfo where
  name : Option String
  constantCount : BitVec 16
  bindingCount : BitVec 16
  workgroupSize : List Nat
  deriving DecidableEq, Repr

/-- `iree_hal_strela_executable_function_info`. -/
def executableFunctionInfo (executable : Executable) (function : BitVec 64) :
    CResult FunctionInfo :=
  match executable.exports[function.toNat]? with
  | none => makeStatus .outOfRange s!"function {function.toNat} out of range"
  | some export_ => .ok {
      name := export_.exportDef.name
      constantCount := export_.exportDef.constantCount.setWidth 16
      bindingCount := export_.exportDef.bindingCount.setWidth 16
      workgroupSize := [1, 1, 1] }

/-- The exports of an executable are those of the flatbuffer it was created from. -/
def Executable.Holds (executable : Executable) (data : ExecutableData) : Prop :=
  executable.exports.map (fun export_ => some export_.exportDef) = data.root.exports

theorem exportsVerify_some (i : Nat) (exports : List (Option ExportDef))
    (verified : exportsVerify i exports = .ok ()) (slot : Option ExportDef)
    (member : slot ∈ exports) :
    slot.isSome := by
  induction exports generalizing i with
  | nil => cases member
  | cons head rest ih =>
      simp only [exportsVerify, bind, Except.bind] at verified
      split at verified
      · cases verified
      rename_i headVerified
      rcases List.mem_cons.mp member with rfl | later
      · cases slot with
        | none => cases headVerified
        | some exportDef => rfl
      · exact ih (i + 1) verified later

/-- Zeroing an accepted flatbuffer's exports keeps all of them. -/
theorem zeroedExports_holds (data : ExecutableData)
    (accepted : executableFlatbufferVerify data = .ok ()) :
    (zeroedExports data.root.exports).map (fun export_ => some export_.exportDef) =
      data.root.exports := by
  have present := exportsVerify_some 0 data.root.exports (by
    unfold executableFlatbufferVerify at accepted
    split at accepted
    · cases accepted
    · exact accepted)
  unfold zeroedExports
  generalize data.root.exports = exports at present ⊢
  induction exports with
  | nil => rfl
  | cons slot rest ih =>
      have here := present slot List.mem_cons_self
      obtain ⟨exportDef, rfl⟩ := Option.isSome_iff_exists.mp here
      simpa using ih (fun slot member => present slot (List.mem_cons_of_mem _ member))

section

variable {S : Type} {step : S → (c : Call) → c.Answer → S → Prop}

/-- Loading bitstreams, successfully or not, leaves the tables as they are. -/
theorem loadBitstreams_defs (exports : List Export) :
    Triple step (fun _ => True) (loadBitstreams exports)
      (fun loaded _ => loaded.1.map Export.exportDef = exports.map Export.exportDef) := by
  induction exports with
  | nil => exact Triple.ret _ (fun _ _ => rfl)
  | cons export_ rest ih =>
      refine Triple.bind (fun _ _ => True) (fun _ _ _ _ _ => trivial) (fun kernel => ?_)
      refine Triple.bind (fun _ _ => True) (fun _ _ _ _ _ => trivial) (fun _ => ?_)
      refine Triple.bind (fun _ _ => True) (fun _ _ _ _ _ => trivial) (fun status => ?_)
      cases status with
      | error stop => exact Triple.ret _ (fun _ _ => rfl)
      | ok _ =>
          refine Triple.bind _ ih (fun loaded => Triple.ret _ (fun _ same => ?_))
          simp only [List.map_cons, same]

/-- An executable holds the tables of the data it was created from. -/
theorem executableCreate_defs (data : ExecutableData) :
    Triple step (fun _ => True) (executableCreate data) (fun result _ => ∀ executable,
      result = .ok executable → executable.Holds data) := by
  unfold executableCreate
  split
  · exact Triple.ret _ (fun _ _ _ failed => nomatch failed)
  split
  · exact Triple.ret _ (fun _ _ _ failed => nomatch failed)
  rename_i verified
  have zeroed := zeroedExports_holds data verified
  refine Triple.bind (fun _ _ => True) (fun _ _ _ _ _ => trivial) (fun allocated => ?_)
  cases allocated with
  | error stop => exact Triple.ret _ (fun _ _ _ failed => nomatch failed)
  | ok address =>
      refine Triple.bind _ (loadBitstreams_defs _) (fun loaded => ?_)
      split
      · refine Triple.ret _ (fun _ same executable made => ?_)
        cases made
        have mapped := congrArg (List.map some) same
        simp only [List.map_map] at mapped
        exact mapped.trans zeroed
      · refine Triple.bind (fun _ _ => True) (fun _ _ _ _ _ => trivial) (fun _ => ?_)
        exact Triple.ret _ (fun _ _ _ failed => nomatch failed)

end

end Estela.Runtime
