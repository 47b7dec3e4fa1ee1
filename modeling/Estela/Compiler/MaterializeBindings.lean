import Estela.Compiler.BindingOffset
import Mathlib.Data.List.Forall2

set_option autoImplicit false

namespace Estela.Compiler

open Ssa (Op Body definingOp uses)

/-- `strelaUnfusedBindingsHint`. -/
def strelaUnfusedBindingsHint : String :=
  "; retry with --iree-scheduling-optimize-bindings=false, which stops FuseDispatchBindings " ++
    "from folding per-dispatch-site offsets into push constants and leaves every subspan offset " ++
    "a literal zero"

/-- `coversWholeTensor`. -/
def coversWholeTensor (body : Body OpKind) (offsets strides : List (OpFoldResult Nat)) : Bool :=
  offsets.all (isConstantIntValue body · 0) && strides.all (isConstantIntValue body · 1)

/-- `matchBinding`: the binding a dispatch tensor is a view of. -/
def matchBinding (body : Body OpKind) (dispatchTensor : Nat) : Option StrelaBinding :=
  match definingOp body dispatchTensor with
  | some (⟨.bindingSubspan binding hasByteOffset _, operands, _⟩, _) =>
      (matchBindingOffset body (if hasByteOffset then operands.head? else none)).map
        fun (offsets, staticByteOffset) =>
          { binding := BitVec.ofNat 32 binding, offsets, staticByteOffset }
  | _ => none

/-- A dispatch tensor load, as `analyzeEntryPoint` looks at it. -/
structure LoadOp where
  slice : Slice
  type : TensorType
  source : Nat
  operands : List Nat
  deriving DecidableEq, Repr

/-- A dispatch tensor store. -/
structure StoreOp where
  slice : Slice
  value : Nat
  target : Nat
  operands : List Nat
  deriving DecidableEq, Repr

def asLoadOp (op : Op OpKind) : Option LoadOp :=
  match op with
  | ⟨.dispatchTensorLoad slice type, source :: operands, _⟩ =>
    some { slice, type, source, operands }
  | _ => none

def asStoreOp (op : Op OpKind) : Option StoreOp :=
  match op with
  | ⟨.dispatchTensorStore slice, value :: target :: operands, _⟩ =>
    some { slice, value, target, operands }
  | _ => none

/-- `StrelaEntryPointInfo`. The kernel op is known by its place in the body. -/
structure StrelaEntryPointInfo where
  kernelIndex : Nat
  kernelOp : Op OpKind
  operandOps : List LoadOp
  resultOp : StoreOp
  operands : List StrelaBinding
  result : StrelaBinding
  deriving DecidableEq, Repr

/-- `findKernelOp`. -/
def findKernelOp (body : Body OpKind) : Except String (Nat × Op OpKind) :=
  match body.zipIdx.filter fun (op, _) => op.kind.strelaType.isSome with
  | [] => .error ("no STRELA op in the dispatch body: LinalgToStrelaPass did not match " ++
      "anything, so there is no kernel to serialize")
  | [(op, index)] => .ok (index, op)
  | _ :: _ :: _ => .error ("second STRELA op in one dispatch; the backend can only serialize a " ++
      "single kernel per entry point")

/-- The loop of `analyzeEntryPoint` over the operands of the kernel. -/
def analyzeOperands (body : Body OpKind) : List Nat → Except String (List (LoadOp × StrelaBinding))
  | [] => .ok []
  | operand :: rest => do
      let some loadOp := (definingOp body operand).bind (asLoadOp ·.1)
        | .error ("operand is not loaded directly from a dispatch binding; the kernel would " ++
            "need a computation STRELA cannot perform")
      if ¬ coversWholeTensor body (loadOp.slice.getMixedOffsets loadOp.operands)
          (loadOp.slice.getMixedStrides loadOp.operands) then
        .error ("reads a strided or offset slice; STRELA kernels only take dense whole-tensor " ++
          "operands")
      let some binding := matchBinding body loadOp.source
        | .error ("could not resolve the binding and byte offset this operand comes from" ++
          strelaUnfusedBindingsHint)
      return (loadOp, binding) :: (← analyzeOperands body rest)

/-- The store that takes the result of the kernel back to a binding. -/
def analyzeResult (body : Body OpKind) (result : Nat) :
    Except String (StoreOp × StrelaBinding) := do
  if (uses body).count result ≠ 1 then
    .error "result must be stored to a binding exactly once"
  let some storeOp := (body.find? (result ∈ ·.operands)).bind asStoreOp
    | .error "result is consumed by something other than a dispatch store"
  if ¬ coversWholeTensor body (storeOp.slice.getMixedOffsets storeOp.operands)
      (storeOp.slice.getMixedStrides storeOp.operands) then
    .error ("writes a strided or offset slice; STRELA kernels only produce dense whole-tensor " ++
      "results")
  let some binding := matchBinding body storeOp.target
    | .error ("could not resolve the binding and byte offset the result goes to" ++
      strelaUnfusedBindingsHint)
  return (storeOp, binding)

/-- `analyzeEntryPoint`. -/
def analyzeEntryPoint (body : Body OpKind) : Except String StrelaEntryPointInfo := do
  let (kernelIndex, kernelOp) ← findKernelOp body
  if ¬ kernelOp.kind.strelaType.any TensorType.isRanked then
    .error "expected a ranked tensor result"
  let operands ← analyzeOperands body kernelOp.operands
  let some resultValue := kernelOp.results.head?
    | .error "result must be stored to a binding exactly once"
  let result ← analyzeResult body resultValue
  return {
    kernelIndex
    kernelOp
    operandOps := operands.map Prod.fst
    resultOp := result.1
    operands := operands.map Prod.snd
    result := result.2 }

/-- Where the one STRELA op of a body is. -/
structure KernelPlace (body : Body OpKind) (index : Nat) (kernelOp : Op OpKind) : Prop where
  there : body[index]? = some kernelOp
  strela : kernelOp.kind.strelaType.isSome = true
  only : ∀ j op, body[j]? = some op → op.kind.strelaType.isSome = true → j = index

theorem findKernelOp_ok {body : Body OpKind} {index : Nat} {kernelOp : Op OpKind}
    (found : findKernelOp body = .ok (index, kernelOp)) : KernelPlace body index kernelOp := by
  unfold findKernelOp at found
  split at found
  · cases found
  · rename_i op i single
    cases found
    have member (p : Op OpKind × Nat) : p ∈ [(kernelOp, index)] ↔
        body[p.2]? = some p.1 ∧ p.1.kind.strelaType.isSome = true := by
      rw [← single, List.mem_filter, List.mem_zipIdx_iff_getElem?]
    obtain ⟨there, strela⟩ := (member (kernelOp, index)).mp (List.mem_singleton_self _)
    refine ⟨there, strela, fun j op found isStrela => ?_⟩
    have same := List.mem_singleton.mp ((member (op, j)).mpr ⟨found, isStrela⟩)
    exact congrArg Prod.snd same
  · cases found

/-- What `analyzeEntryPoint` knows of an operand of the kernel. -/
structure OperandParts (body : Body OpKind) (operand : Nat) (loadOp : LoadOp)
    (binding : StrelaBinding) : Prop where
  loaded : ∃ op i, definingOp body operand = some (op, i) ∧ asLoadOp op = some loadOp
  covers : coversWholeTensor body (loadOp.slice.getMixedOffsets loadOp.operands)
    (loadOp.slice.getMixedStrides loadOp.operands) = true
  matched : matchBinding body loadOp.source = some binding

/-- What it knows of the result. -/
structure ResultParts (body : Body OpKind) (result : Nat) (storeOp : StoreOp)
    (binding : StrelaBinding) : Prop where
  once : (uses body).count result = 1
  stored : ∃ op, body.find? (result ∈ ·.operands) = some op ∧ asStoreOp op = some storeOp
  covers : coversWholeTensor body (storeOp.slice.getMixedOffsets storeOp.operands)
    (storeOp.slice.getMixedStrides storeOp.operands) = true
  matched : matchBinding body storeOp.target = some binding

structure EntryPointParts (body : Body OpKind) (info : StrelaEntryPointInfo)
    (result : Nat) : Prop where
  kernel : KernelPlace body info.kernelIndex info.kernelOp
  operands : List.Forall₂ (fun operand found => OperandParts body operand found.1 found.2)
    info.kernelOp.operands (info.operandOps.zip info.operands)
  lengths : info.operandOps.length = info.operands.length
  produced : info.kernelOp.results.head? = some result
  stored : ResultParts body result info.resultOp info.result

theorem analyzeOperands_ok {body : Body OpKind} {operands : List Nat}
    {found : List (LoadOp × StrelaBinding)} (analyzed : analyzeOperands body operands = .ok found) :
    List.Forall₂ (fun operand found => OperandParts body operand found.1 found.2)
      operands found := by
  induction operands generalizing found with
  | nil =>
      cases analyzed
      exact .nil
  | cons operand rest ih =>
      simp only [analyzeOperands, bind, Except.bind, pure, Except.pure] at analyzed
      split at analyzed
      case h_2 => cases analyzed
      rename_i loadOp isLoad
      split at analyzed
      · cases analyzed
      rename_i covers
      split at analyzed
      case h_2 => cases analyzed
      rename_i binding matched
      split at analyzed
      · cases analyzed
      rename_i tail tailFound
      cases analyzed
      obtain ⟨⟨op, i⟩, defined, load⟩ := Option.bind_eq_some_iff.mp isLoad
      exact .cons ⟨⟨op, i, defined, load⟩, Decidable.not_not.mp covers, matched⟩ (ih tailFound)

theorem analyzeResult_ok {body : Body OpKind} {result : Nat} {found : StoreOp × StrelaBinding}
    (analyzed : analyzeResult body result = .ok found) :
    ResultParts body result found.1 found.2 := by
  simp only [analyzeResult, bind, Except.bind, pure, Except.pure] at analyzed
  split at analyzed
  · cases analyzed
  rename_i once
  split at analyzed
  case h_2 => cases analyzed
  rename_i storeOp isStore
  split at analyzed
  · cases analyzed
  rename_i covers
  split at analyzed
  case h_2 => cases analyzed
  rename_i binding matched
  cases analyzed
  obtain ⟨op, user, store⟩ := Option.bind_eq_some_iff.mp isStore
  exact ⟨Decidable.not_not.mp once, ⟨op, user, store⟩, Decidable.not_not.mp covers, matched⟩

theorem analyzeEntryPoint_ok {body : Body OpKind} {info : StrelaEntryPointInfo}
    (analyzed : analyzeEntryPoint body = .ok info) :
    ∃ result, EntryPointParts body info result := by
  simp only [analyzeEntryPoint, bind, Except.bind, pure, Except.pure] at analyzed
  split at analyzed
  · cases analyzed
  rename_i kernel kernelFound
  split at analyzed
  · cases analyzed
  split at analyzed
  · cases analyzed
  rename_i operands operandsFound
  split at analyzed
  case h_2 => cases analyzed
  rename_i resultValue produced
  split at analyzed
  · cases analyzed
  rename_i result resultFound
  cases analyzed
  have paired : (operands.map Prod.fst).zip (operands.map Prod.snd) = operands := by
    rw [← List.unzip_fst, ← List.unzip_snd]
    exact List.zip_unzip operands
  refine ⟨resultValue, findKernelOp_ok kernelFound, ?_, by simp, produced,
    analyzeResult_ok resultFound⟩
  rw [paired]
  exact analyzeOperands_ok operandsFound

/-- Whether `wouldOpBeTriviallyDead`: no effect, and no terminator. -/
def OpKind.isPure : OpKind → Bool
  | .dispatchTensorStore _ => false
  | .bindingStore _ => false
  | .other _ pure => pure
  | _ => true

/-- `isOpTriviallyDead`, in a body made of `op` and the operations around it. -/
def isOpTriviallyDead (op : Op OpKind) (around : Body OpKind) : Bool :=
  op.kind.isPure && op.results.all (· ∉ uses around)

/-- The last loop of the pass: from the last operation back to the first. -/
def eraseTriviallyDead : Body OpKind → Body OpKind → Body OpKind
  | [], kept => kept
  | op :: earlier, kept =>
      if isOpTriviallyDead op (earlier ++ kept) then eraseTriviallyDead earlier kept
      else eraseTriviallyDead earlier (op :: kept)

/-- A number above every value of the body. -/
def freshValue (body : Body OpKind) : Nat :=
  ((Ssa.defs body ++ uses body).foldl max 0) + 1

/-- The rewrite of the pass before its last loop. -/
def materializeBindings (body : Body OpKind) (info : StrelaEntryPointInfo) : Body OpKind :=
  let keeps (op : Op OpKind) : Bool := info.kernelOp.results.all (· ∉ op.operands)
  let fresh := freshValue body
  let found := info.operandOps.zip info.operands
  let loads : Body OpKind := found.mapIdx fun index (loadOp, binding) =>
    ⟨.bindingLoad binding.attrs loadOp.type, [], [fresh + index]⟩
  let kernelOp := { info.kernelOp with operands := Ssa.defs loads }
  let store : Op OpKind := ⟨.bindingStore info.result.attrs, info.kernelOp.results, []⟩
  (body.take info.kernelIndex).filter keeps ++ loads ++ [kernelOp, store] ++
    (body.drop (info.kernelIndex + 1)).filter keeps

/-- `MaterializeBindingsPass::runOnOperation`. -/
def materializeBindingsPass (funcOp : FuncOp) : Except String FuncOp := do
  let info ← analyzeEntryPoint funcOp.body
  return { funcOp with
    body := eraseTriviallyDead (materializeBindings funcOp.body info).reverse [] }

end Estela.Compiler
