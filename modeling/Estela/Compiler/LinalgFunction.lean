import Estela.Compiler.ConvertLinalg
import Estela.Compiler.DispatchOnBoard
import Estela.Compiler.SplatInlining

set_option autoImplicit false

/- A dispatch function from linear algebra to the board: what the conversion of its
operations leaves of its meaning, and what the board makes of it then. -/
namespace Estela.Compiler

open Ssa (Op Body)
open Estela.Runtime hiding StrelaKernel
open Estela.Runtime.KernelJobs hiding plan
open Estela.Runtime.FlatMemory (Event Fresh Session exists_call quiet_step sampleSession
  sampleSession_fresh simulates singleBoard singleData singleExecutable single_allocated
  single_created)
open Estela.Runtime.Coherence (Dispatchable lineOf sampleAllocated)
open CallProgram (Run)
open Refinement (Trace)
open WriteBack (view)

/-- An operation of a dispatch function as the pass finds it. A generic op comes with the
bounds of its loops and the shapes of its operands. -/
inductive LinalgKind
  | dispatch (kind : OpKind)
  | generic (genericOp : GenericOp) (bounds : List Nat) (inputShapes initShapes : List (List Nat))
  deriving DecidableEq, Repr

def Val.asTensor (shape : List Nat) : Val → Option Tensor
  | .tensor words => if whole : words.length = shape.prod then some ⟨shape, words, whole⟩ else none
  | _ => none

def asTensors : List (List Nat) → List Val → Option (List Tensor)
  | [], [] => some []
  | shape :: shapes, v :: values => do
      let tensor ← v.asTensor shape
      let rest ← asTensors shapes values
      return tensor :: rest
  | _, _ => none

def tensorVals (tensors : List Tensor) : List Val := tensors.map fun tensor => .tensor tensor.words

/-- The operands of a generic op are its inputs, then its inits. -/
def linalgInterp (constants : Nat → BitVec 32) (others : OpKind → List Val → List Val)
    (scalars : Scalars) : Ssa.Interp LinalgKind Val DispatchState
  | .dispatch kind, values, s => dispatchInterp constants others kind values s
  | .generic genericOp bounds inputShapes initShapes, values, s =>
      match asTensors inputShapes (values.take genericOp.inputs.length),
        asTensors initShapes (values.drop genericOp.inputs.length) with
      | some inputs, some inits => (tensorVals (genericOp.denote scalars bounds inputs inits), s)
      | _, _ => ([], s)

/-- A run of the function, from the start. -/
def runLinalg (constants : Nat → BitVec 32) (others : OpKind → List Val → List Val)
    (scalars : Scalars) (body : Body LinalgKind) (memory : Nat → Nat → BitVec 32) :
    (Nat → Val) × DispatchState :=
  Ssa.exec (linalgInterp constants others scalars) body (fun _ => .other "undefined") ⟨memory, []⟩

/-- The patterns, on one operation. -/
def convertOp (op : Op LinalgKind) : Op LinalgKind :=
  match op.kind with
  | .dispatch _ => op
  | .generic genericOp _ _ _ =>
      match convertLinalgToStrela genericOp with
      | none => op
      | some strelaOp => {
          kind := .dispatch strelaOp.kind
          operands := strelaOp.inputs.filterMap (op.operands[·]?)
          results := op.results }

/-- `ConvertLinalgToStrelaPass::runOnOperation`. -/
def convertLinalgToStrelaPass (body : Body LinalgKind) : Body LinalgKind := body.map convertOp

/-- A generic op on values its operands may have, which agrees with what it is converted to. -/
structure Convertible (genericOp : GenericOp) (bounds : List Nat)
    (inputShapes initShapes : List (List Nat)) (values : List Val) : Prop where
  inputsShaped : List.Forall₂ (GenericOperand.Shaped bounds) genericOp.inputs inputShapes
  initsShaped : List.Forall₂ (GenericOperand.Shaped bounds) genericOp.inits initShapes
  held : ∃ inputs inits, values = tensorVals inputs ++ tensorVals inits ∧
    HoldAll genericOp.inputs inputShapes inputs ∧ HoldAll genericOp.inits initShapes inits
  agrees : isStrelaLinalgAdd genericOp = true ∨
    ReluAgrees genericOp bounds inputShapes initShapes

/-- Every generic op the pass converts is `Convertible` when a run comes to it. -/
def ConvertibleRun (interp : Ssa.Interp LinalgKind Val DispatchState) (body : Body LinalgKind)
    (env : Nat → Val) (s : DispatchState) : Prop :=
  ∀ before op after, body = before ++ op :: after →
    ∀ genericOp bounds inputShapes initShapes,
      op.kind = .generic genericOp bounds inputShapes initShapes →
        (convertLinalgToStrela genericOp).isSome = true →
          Convertible genericOp bounds inputShapes initShapes
            (op.operands.map (Ssa.exec interp before env s).1)

section

variable {genericOp : GenericOp} {bounds : List Nat} {inputShapes initShapes : List (List Nat)}

theorem asTensors_held {operands : List GenericOperand} {shapes : List (List Nat)}
    {tensors : List Tensor} (count : operands.length = shapes.length)
    (holds : HoldAll operands shapes tensors) :
    asTensors shapes (tensorVals tensors) = some tensors := by
  induction operands generalizing shapes tensors with
  | nil =>
      obtain rfl := List.length_eq_zero_iff.mp count.symm
      cases holds
      rfl
  | cons operand rest ih =>
      cases shapes with
      | nil => cases count
      | cons shape shapes =>
          cases holds with
          | cons head tail =>
              rename_i tensor tensors
              have later := ih (Nat.succ.inj count) tail
              obtain rfl := head.shaped
              simp only [tensorVals, List.map_cons, asTensors, Val.asTensor, tensor.whole,
                ↓reduceDIte]
              rw [show List.map (fun tensor => Val.tensor tensor.words) tensors =
                tensorVals tensors from rfl, later]
              rfl

/-- What a generic op does to the values of its tensors. -/
theorem linalgInterp_held {values : List Val} (constants : Nat → BitVec 32)
    (others : OpKind → List Val → List Val) (scalars : Scalars) (s : DispatchState)
    {inputs inits : List Tensor} (split : values = tensorVals inputs ++ tensorVals inits)
    (inputsShaped : List.Forall₂ (GenericOperand.Shaped bounds) genericOp.inputs inputShapes)
    (initsShaped : List.Forall₂ (GenericOperand.Shaped bounds) genericOp.inits initShapes)
    (inputsHold : HoldAll genericOp.inputs inputShapes inputs)
    (initsHold : HoldAll genericOp.inits initShapes inits) :
    linalgInterp constants others scalars (.generic genericOp bounds inputShapes initShapes)
      values s = (tensorVals (genericOp.denote scalars bounds inputs inits), s) := by
  have count : (tensorVals inputs).length = genericOp.inputs.length := by
    rw [← inputsHold.length_eq inputsShaped.length_eq]
    exact List.length_map _
  unfold linalgInterp
  dsimp only
  rw [split, List.take_left' count, List.drop_left' count,
    asTensors_held inputsShaped.length_eq inputsHold,
    asTensors_held initsShaped.length_eq initsHold]

/-- The op in place of a convertible one does the same. -/
theorem Convertible.interp_eq {values : List Val} {strelaOp : StrelaOp}
    (converted : convertLinalgToStrela genericOp = some strelaOp)
    (convertible : Convertible genericOp bounds inputShapes initShapes values)
    (constants : Nat → BitVec 32) (others : OpKind → List Val → List Val) (scalars : Scalars)
    (s : DispatchState) :
    dispatchInterp constants others strelaOp.kind (strelaOp.inputs.filterMap (values[·]?)) s =
      linalgInterp constants others scalars (.generic genericOp bounds inputShapes initShapes)
        values s := by
  obtain ⟨inputsShaped, initsShaped, ⟨inputs, inits, split, inputsHold, initsHold⟩, agrees⟩ :=
    convertible
  rw [linalgInterp_held constants others scalars s split inputsShaped initsShaped inputsHold
    initsHold]
  obtain ⟨type, -, ⟨isAdd, rfl⟩ | ⟨notAdd, isRelu, rfl⟩⟩ := convertLinalgToStrela_some converted
  · have preserved := add_preserved isAdd type scalars inputsShaped initsShaped inputs inits
      inputsHold initsHold
    obtain ⟨first, second, init, lhs, rhs, matched, isInputs, order, firstMap, secondMap,
      initMap⟩ :=
      isStrelaLinalgAdd_ok isAdd
    rw [isInputs] at inputsShaped
    rw [HoldAll, isInputs] at inputsHold
    obtain _ | ⟨firstShaped, _ | ⟨secondShaped, _ | _⟩⟩ := inputsShaped
    obtain _ | ⟨aHolds, _ | ⟨bHolds, _ | _⟩⟩ := inputsHold
    rename_i a b
    have same : a.shape = b.shape := by
      rw [aHolds.shaped, bHolds.shaped, firstShaped.identity firstMap,
        secondShaped.identity secondMap]
    rw [preserved, split]
    simp [StrelaOp.denote, Tensor.strelaAdd, same, tensorVals, dispatchInterp]
  · have reluAgrees : ReluAgrees genericOp bounds inputShapes initShapes :=
      agrees.resolve_left (by simp [notAdd])
    have preserved := (relu_preserved_iff isRelu type scalars inputsShaped initsShaped).mpr
      reluAgrees
      inputs inits inputsHold initsHold
    obtain ⟨input, zeros, init, rhs, matched, isInputs, zero⟩ := isStrelaLinalgRelu_ok isRelu
    rw [HoldAll, isInputs] at inputsHold
    rw [isInputs] at inputsShaped
    obtain _ | ⟨inputShaped, zerosShaped⟩ := inputsShaped
    obtain _ | ⟨aHolds, zerosHold⟩ := inputsHold
    rw [preserved, split]
    simp [StrelaOp.denote, Tensor.strelaRelu, tensorVals, dispatchInterp]

theorem results_convertOp (op : Op LinalgKind) : (convertOp op).results = op.results := by
  unfold convertOp
  split
  · rfl
  · split <;> rfl

/-- The pass leaves a function its meaning. -/
theorem exec_convertLinalgToStrelaPass (constants : Nat → BitVec 32)
    (others : OpKind → List Val → List Val) (scalars : Scalars) (body : Body LinalgKind)
    (env : Nat → Val) (s : DispatchState)
    (convertible : ConvertibleRun (linalgInterp constants others scalars) body env s) :
    Ssa.exec (linalgInterp constants others scalars) (convertLinalgToStrelaPass body) env s =
      Ssa.exec (linalgInterp constants others scalars) body env s := by
  apply Ssa.exec_map
  · exact fun op _ => results_convertOp op
  intro before op after split
  have here := convertible before op after split
  generalize (Ssa.exec (linalgInterp constants others scalars) before env s).1 = values at here ⊢
  generalize (Ssa.exec (linalgInterp constants others scalars) before env s).2 = state
  obtain ⟨kind, operands, results⟩ := op
  cases kind with
  | dispatch kind => rfl
  | generic genericOp bounds inputShapes initShapes =>
      cases converted : convertLinalgToStrela genericOp with
      | none => simp only [convertOp, converted]
      | some strelaOp =>
          have sound := here genericOp bounds inputShapes initShapes rfl (by rw [converted]; rfl)
          have moved : (strelaOp.inputs.filterMap (operands[·]?)).map values =
              strelaOp.inputs.filterMap ((operands.map values)[·]?) := by
            rw [List.map_filterMap]
            simp only [List.getElem?_map]
          simp only [convertOp, converted]
          rw [moved]
          exact sound.interp_eq converted constants others scalars state

end

/-- An operation no pattern is left for. -/
def dispatchOp (op : Op OpKind) : Op LinalgKind := ⟨.dispatch op.kind, op.operands, op.results⟩

theorem exec_dispatchOp (constants : Nat → BitVec 32) (others : OpKind → List Val → List Val)
    (scalars : Scalars) (body : Body OpKind) (env : Nat → Val) (s : DispatchState) :
    Ssa.exec (linalgInterp constants others scalars) (body.map dispatchOp) env s =
      Ssa.exec (dispatchInterp constants others) body env s := by
  induction body generalizing env s with
  | nil => rfl
  | cons op rest ih => exact ih _ _

/-- A function the pass converts as a whole runs as the function it was. -/
theorem runDispatch_converted {constants : Nat → BitVec 32} {others : OpKind → List Val → List Val}
    {scalars : Scalars} {linalgBody : Body LinalgKind} {body : Body OpKind}
    {memory : Nat → Nat → BitVec 32}
    (converted : convertLinalgToStrelaPass linalgBody = body.map dispatchOp)
    (convertible : ConvertibleRun (linalgInterp constants others scalars) linalgBody
      (fun _ => .other "undefined") ⟨memory, []⟩) :
    runDispatch constants others body memory =
      runLinalg constants others scalars linalgBody memory := by
  have passed := exec_convertLinalgToStrelaPass constants others scalars linalgBody _ _ convertible
  rw [converted, exec_dispatchOp] at passed
  exact passed

/-- From linear algebra to the board: whatever a program did before, a dispatch of the
export that the compiler made of the function leaves in memory what the function as it
came to the compiler writes. -/
theorem linalg_dispatch_on_board (fabric : Fabric) (st : SizeT) (init : Nat → BitVec 32)
    (s s' : Session) (fresh : Fresh init s) (events : List Event)
    (run : Trace (FlatMemory.Op fabric st) s events s') (executable : Executable)
    (held : executable ∈ s'.executables) (function : BitVec 64) (export_ : Export)
    (known : executable.exports[function.toNat]? = some export_)
    (others : OpKind → List Val → List Val) (scalars : Scalars) (linalgBody : Body LinalgKind)
    (funcOp : FuncOp)
    (converted : convertLinalgToStrelaPass linalgBody = funcOp.body.map dispatchOp)
    (info : StrelaEntryPointInfo) (type : TensorType)
    (compiled : Compiled funcOp info type export_.exportDef)
    (direct : Direct funcOp.body info type)
    (realizes : ∀ kernel, kernelOf info.kernelOp.kind = .ok (kernel, type) → Realizes fabric kernel)
    (span : ConstByteSpan) (bindings : List BufferRef)
    (dispatchable : Dispatchable st s'.buffers export_.exportDef span bindings)
    (full : ∀ access ∈ info.accesses, access.FullExtent (runDispatch (spanConstants span) others
      funcOp.body (boundMemory bindings (view lineOf s'.board.machine.cache))).1 type)
    (idle : OtherStoresIdle funcOp.body (runDispatch (spanConstants span) others funcOp.body
      (boundMemory bindings (view lineOf s'.board.machine.cache))).1 info.resultOp)
    (convertible : ConvertibleRun (linalgInterp (spanConstants span) others scalars) linalgBody
      (fun _ => .other "undefined")
      ⟨boundMemory bindings (view lineOf s'.board.machine.cache), []⟩)
    (apart : ¬ Hazardous funcOp.body info type span bindings) (b : Board)
    (dispatched : Run (Step fabric) (commandBufferDispatch st executable function span bindings)
      s'.board (.ok ()) b) :
    ∀ w, view lineOf b.machine.cache w =
      applyWrites bindings (view lineOf s'.board.machine.cache)
        (runLinalg (spanConstants span) others scalars linalgBody
          (boundMemory bindings (view lineOf s'.board.machine.cache))).2.writes w := by
  obtain ⟨f, -, represents⟩ := (simulates fabric st init).trace run fresh.represents
  rw [← runDispatch_converted converted convertible]
  exact compiled.dispatched represents held known direct realizes dispatchable full idle apart
    dispatched

def rowMap : AffineMap where
  numDims := 1
  results := [.dim 0]

def rowOperand : GenericOperand where
  value := 3
  type := rowType
  map := rowMap
  constant := none

/-- The largest of a word and zero, in place. -/
def rowRelu : GenericOp where
  inputs := [rowOperand]
  inits := [rowOperand]
  resultTypes := [rowType]
  iteratorTypes := [.parallel]
  block := ⟨[.maxsi (.argument 0) (.captured 5 (some ⟨32, 0⟩))], [.result 0]⟩
  pureTensorSemantics := true

def rowLinalg : Body LinalgKind := [
  ⟨.dispatch (.bindingSubspan 0 false [some 4]), [], [0]⟩,
  ⟨.dispatch (.bindingSubspan 1 false [some 4]), [], [1]⟩,
  ⟨.dispatch (.bindingSubspan 2 false [some 4]), [], [2]⟩,
  ⟨.dispatch (.dispatchTensorLoad rowSlice rowType), [0], [3]⟩,
  ⟨.generic rowRelu [4] [[4]] [[4]], [3, 3], [4]⟩,
  ⟨.dispatch (.dispatchTensorStore rowSlice), [4, 1], []⟩]

theorem rowShaped : GenericOperand.Shaped [4] rowOperand [4] where
  dims := rfl
  rank := rfl
  extents p i found := by
    match p with
    | 0 =>
        cases found
        rfl
    | p + 1 => cases found
  inside := by decide
  elements values constant := nomatch constant

theorem rowRelu_agrees : ReluAgrees rowRelu [4] [[4]] [[4]] := by
  have last : ∀ k < 4, RowMajor.lastWriter (rowMap.place [4]) (RowMajor.indices [4]) k =
    some [k] := by
    decide
  have own : ∀ k < 4, rowMap.place [4] [k] = k := by decide
  refine ⟨rowOperand, rowOperand, [4], rfl, rfl, rfl, rfl, fun k inside => ?_⟩
  change k < 4 at inside
  unfold ElementAgrees
  rw [show RowMajor.lastWriter (rowOperand.map.place [4]) _ k = _ from last k inside]
  exact Or.inl (own k inside)

theorem rowLinalg_convertible (constants : Nat → BitVec 32) (others : OpKind → List Val → List Val)
    (scalars : Scalars) (memory : Nat → Nat → BitVec 32) :
    ConvertibleRun (linalgInterp constants others scalars) rowLinalg (fun _ => .other "undefined")
      ⟨memory, []⟩ := by
  intro before op after split genericOp bounds inputShapes initShapes isGeneric _
  have there : rowLinalg[before.length]? = some op := by rw [split]; simp
  have first : rowLinalg.take before.length = before := by rw [split]; simp
  rw [← first]
  generalize before.length = n at there ⊢
  match n with
  | 4 =>
      cases there
      cases isGeneric
      exact ⟨.cons rowShaped .nil, .cons rowShaped .nil,
        ⟨[⟨[4], (List.range 4).map fun k => memory 0 (0 + 4 * k), by simp⟩],
          [⟨[4], (List.range 4).map fun k => memory 0 (0 + 4 * k), by simp⟩], rfl,
          .cons ⟨rfl, fun _ constant => nomatch constant⟩ .nil,
          .cons ⟨rfl, fun _ constant => nomatch constant⟩ .nil⟩,
        Or.inr rowRelu_agrees⟩
  | 0 | 1 | 2 | 3 | 5 =>
      cases there
      cases isGeneric
  | n + 6 => cases there

theorem linalg_dispatch_on_board_sample : ∃ s b : Board,
    Run (Step documentedFabric)
      (commandBufferDispatch .bits32 (singleExecutable rowDef) 0 ⟨[]⟩ [sampleRef, sampleRef])
      s (.ok ()) b ∧
    ∀ w, view lineOf b.machine.cache w =
      applyWrites [sampleRef, sampleRef] (view lineOf s.machine.cache)
        (runLinalg (spanConstants ⟨[]⟩) (fun _ _ => []) ⟨fun _ => 0, fun _ _ => 0⟩ rowLinalg
          (boundMemory [sampleRef, sampleRef] (view lineOf s.machine.cache))).2.writes w := by
  obtain ⟨b, dispatched⟩ := row_dispatched (sampleSession.board.machine.cpuWrite 32 7)
  refine ⟨_, b, dispatched, ?_⟩
  exact linalg_dispatch_on_board documentedFabric .bits32 _ _ _ sampleSession_fresh _ row_session
    (singleExecutable rowDef) List.mem_cons_self 0 _ rfl (fun _ _ => []) ⟨fun _ => 0, fun _ _ => 0⟩
    rowLinalg (rowFunc []) rfl rowInfo rowType rowDef_compiled row_direct row_realizes ⟨[]⟩
    [sampleRef, sampleRef] rowDef_dispatchable (row_full _ _) (row_idle _ _)
    (rowLinalg_convertible _ _ _ _) row_apart b dispatched

end Estela.Compiler
