import Estela.Lib.RowMajor
import Estela.Lib.Ssa

set_option autoImplicit false

/- The operations a dispatch function is made of when it reaches the STRELA
backend, and what they do to push constants and bindings. -/
namespace Estela.Compiler

open Ssa (Op Body definingOp)

/-- `llvm::APInt`; an `index` has 64 bits. -/
structure APInt where
  width : Nat
  bits : BitVec width
  deriving DecidableEq, Repr

def APInt.isNegative (a : APInt) : Bool := a.bits.msb

def APInt.isZero (a : APInt) : Bool := a.bits.toNat = 0

/-- `getActiveBits() > 64`. -/
def APInt.wide (a : APInt) : Bool := 2 ^ 64 ≤ a.bits.toNat

def APInt.getZExtValue (a : APInt) : BitVec 64 := a.bits.setWidth 64

inductive ElementType
  | integer (width : Nat)
  | other (name : String)
  deriving DecidableEq, Repr

/-- `mlir::TensorType`; a dynamic dimension is none. -/
inductive TensorType
  | ranked (shape : List (Option Nat)) (element : ElementType)
  | unranked (element : ElementType)
  deriving DecidableEq, Repr

def TensorType.isRanked : TensorType → Bool
  | .ranked _ _ => true
  | .unranked _ => false

/-- The shape of a type, where `hasStaticShape`. -/
def TensorType.staticShape : TensorType → Option (List Nat)
  | .ranked shape _ => shape.mapM id
  | .unranked _ => none

def TensorType.element : TensorType → ElementType
  | .ranked _ element => element
  | .unranked element => element

/-- `verifyCompatibleShape`: a dynamic dimension agrees with every other, and an
unranked shape with every shape. -/
def CompatibleShape : TensorType → TensorType → Prop
  | .ranked shape _, .ranked shape' _ =>
      List.Forall₂ (fun dim dim' => dim = none ∨ dim' = none ∨ dim = dim') shape shape'
  | _, _ => True

/-- `mlir::OpFoldResult`: an attribute, or a value. -/
inductive OpFoldResult (α : Type)
  | attr (value : Int)
  | value (value : α)
  deriving DecidableEq, Repr

def OpFoldResult.map {α β : Type} (f : α → β) : OpFoldResult α → OpFoldResult β
  | .attr n => .attr n
  | .value v => .value (f v)

/-- `getMixedValues`: the dynamic entries, none, take their turn from `values`. -/
def getMixedValues {α : Type} : List (Option Int) → List α → List (OpFoldResult α)
  | [], _ => []
  | some value :: rest, values => .attr value :: getMixedValues rest values
  | none :: rest, v :: values => .value v :: getMixedValues rest values
  | none :: _, [] => []

/-- The slice of a dispatch tensor load or store. Its operands follow the
dispatch tensor: that one's dynamic dims, then the dynamic entries of each list. -/
structure Slice where
  sourceDims : Nat
  offsets : List (Option Int)
  sizes : List (Option Int)
  strides : List (Option Int)
  deriving DecidableEq, Repr

section

variable {α β : Type}

def Slice.getMixedOffsets (slice : Slice) (operands : List α) : List (OpFoldResult α) :=
  getMixedValues slice.offsets (operands.drop slice.sourceDims)

def Slice.getMixedSizes (slice : Slice) (operands : List α) : List (OpFoldResult α) :=
  getMixedValues slice.sizes (operands.drop (slice.sourceDims + slice.offsets.count none))

def Slice.getMixedStrides (slice : Slice) (operands : List α) : List (OpFoldResult α) :=
  getMixedValues slice.strides
    (operands.drop (slice.sourceDims + slice.offsets.count none + slice.sizes.count none))

theorem getMixedValues_map (f : α → β) (statics : List (Option Int)) (values : List α) :
    getMixedValues statics (values.map f) =
      (getMixedValues statics values).map (OpFoldResult.map f) := by
  induction statics generalizing values with
  | nil => rfl
  | cons head rest ih =>
      cases head with
      | some value => simp [getMixedValues, OpFoldResult.map, ih]
      | none =>
          cases values with
          | nil => rfl
          | cons v values => simp [getMixedValues, OpFoldResult.map, ih]

end

/-- The attributes of `strela.binding_load` and `strela.binding_store`. -/
structure BindingAttrs where
  binding : BitVec 64
  offsets : Option (List (BitVec 64))
  byteOffset : Option (BitVec 64)
  deriving DecidableEq, Repr

/-- Operations, with their attributes and the types something looks at. Of all
others it only matters whether they have an effect. -/
inductive OpKind
  | constant (value : APInt)
  | interfaceConstantLoad (ordinal : Nat)
  | indexCastui (width : Nat)
  | extui (width : Nat)
  | shli
  | ori
  | assumeInt
  /-- The byte offset, if there is one, comes before the dynamic dims of `shape`. -/
  | bindingSubspan (binding : Nat) (hasByteOffset : Bool) (shape : List (Option Nat))
  | dispatchTensorLoad (slice : Slice) (type : TensorType)
  | dispatchTensorStore (slice : Slice)
  | add (type : TensorType)
  | relu (type : TensorType)
  | matvec (type : TensorType)
  | bindingLoad (attrs : BindingAttrs) (type : TensorType)
  | bindingStore (attrs : BindingAttrs)
  | other (name : String) (pure : Bool)
  deriving DecidableEq, Repr

/-- The result type of one of the STRELA ops. -/
def OpKind.strelaType : OpKind → Option TensorType
  | .add type => some type
  | .relu type => some type
  | .matvec type => some type
  | _ => none

/-- A `func::FuncOp` with its single block. -/
structure FuncOp where
  symName : String
  body : Body OpKind
  deriving DecidableEq, Repr

/-- `m_ConstantInt`. -/
def constantInt (body : Body OpKind) (v : Nat) : Option APInt :=
  match definingOp body v with
  | some (⟨.constant value, _, _⟩, _) => some value
  | _ => none

/-- `getDefiningOp<InterfaceConstantLoadOp>()->getOrdinal()`. -/
def constantLoadOrdinal (body : Body OpKind) (v : Nat) : Option Nat :=
  match definingOp body v with
  | some (⟨.interfaceConstantLoad ordinal, _, _⟩, _) => some ordinal
  | _ => none

/-- `isConstantIntValue`. -/
def isConstantIntValue (body : Body OpKind) (ofr : OpFoldResult Nat) (value : Int) : Bool :=
  match ofr with
  | .attr attr => attr = value
  | .value v => match constantInt body v with
    | some constant => constant.bits.toInt = value
    | none => false

/-- The number of results an operation has, where its kind settles it. -/
def OpKind.resultCount (kind : OpKind) (operands : Nat) : Option Nat :=
  match kind with
  | .assumeInt => some operands
  | .dispatchTensorStore _ => some 0
  | .bindingStore _ => some 0
  | .other _ _ => none
  | _ => some 1

/-- What MLIR's verifier promises of a body: dominance, the number of results,
and that `arith.extui` widens the push constants it is applied to. -/
structure WellFormed (body : Body OpKind) : Prop where
  dominated : Ssa.Dominated [] body
  results : ∀ op ∈ body, ∀ n, op.kind.resultCount op.operands.length = some n →
    op.results.length = n
  widens : ∀ op ∈ body, ∀ width operand ordinal, op.kind = .extui width → op.operands = [operand] →
    constantLoadOrdinal body operand = some ordinal → 32 < width

/-- What a value holds when the function runs. -/
inductive Val
  | int (value : APInt)
  | dispatchTensor (binding : Nat) (byteOffset : Nat) (dims : List Nat)
  | tensor (words : List (BitVec 32))
  | other (name : String)
  deriving DecidableEq, Repr

/-- A word written to a binding. -/
structure Write where
  binding : Nat
  byteOffset : Nat
  value : BitVec 32
  deriving DecidableEq, Repr

/-- The words of every binding by their byte offset, and every write in order. -/
structure DispatchState where
  memory : Nat → Nat → BitVec 32
  writes : List Write

def DispatchState.write (s : DispatchState) (w : Write) : DispatchState where
  memory := Function.update s.memory w.binding
    (Function.update (s.memory w.binding) w.byteOffset w.value)
  writes := s.writes ++ [w]

def DispatchState.writeAll (s : DispatchState) (ws : List Write) : DispatchState :=
  ws.foldl DispatchState.write s

/-- An entry of a slice as a number of elements. -/
def ofrElements : OpFoldResult Val → Nat
  | .attr value => value.toNat
  | .value (.int value) => value.bits.toNat
  | .value _ => 0

/-- The words of a dispatch tensor of shape `dims` a slice touches, in row-major
order of the slice's own sizes. -/
def sliceWords (dims offsets sizes strides : List Nat) : List Nat :=
  (RowMajor.indices sizes).map fun index =>
    RowMajor.linearize dims
      (List.zipWith (· + ·) offsets (List.zipWith (· * ·) index strides))

def Slice.words (slice : Slice) (dims : List Nat) (operands : List Val) : List Nat :=
  sliceWords dims ((slice.getMixedOffsets operands).map ofrElements)
    ((slice.getMixedSizes operands).map ofrElements)
    ((slice.getMixedStrides operands).map ofrElements)

/-- The run-time dims of a shape, its dynamic ones from `values`. -/
def runtimeDims : List (Option Nat) → List Val → List Nat
  | [], _ => []
  | some dim :: rest, values => dim :: runtimeDims rest values
  | none :: rest, .int value :: values => value.bits.toNat :: runtimeDims rest values
  | none :: _, _ => []

/-- `strela.add` on the words of its operands. -/
def strelaAdd (lhs rhs : List (BitVec 32)) : List (BitVec 32) := List.zipWith (· + ·) lhs rhs

/-- `arith.maxsi`. -/
def maxsi {w : Nat} (lhs rhs : BitVec w) : BitVec w := if rhs.slt lhs then lhs else rhs

/-- `strela.relu` on the words of its operand. -/
def strelaRelu (input : List (BitVec 32)) : List (BitVec 32) := input.map (maxsi · 0)

/-- What the operations compute. Push constant number `k` is `constants k`; the
operations the backend knows nothing about are `others`. -/
def dispatchInterp (constants : Nat → BitVec 32) (others : OpKind → List Val → List Val) :
    Ssa.Interp OpKind Val DispatchState
  | .constant value, _, s => ([.int value], s)
  | .interfaceConstantLoad ordinal, _, s => ([.int ⟨32, constants ordinal⟩], s)
  | .indexCastui width, [.int value], s => ([.int ⟨width, value.bits.setWidth width⟩], s)
  | .extui width, [.int value], s => ([.int ⟨width, value.bits.setWidth width⟩], s)
  | .shli, [.int lhs, .int rhs], s => ([.int ⟨lhs.width, lhs.bits <<< rhs.bits.toNat⟩], s)
  | .ori, [.int lhs, .int rhs], s =>
      ([.int ⟨lhs.width, lhs.bits ||| rhs.bits.setWidth lhs.width⟩], s)
  | .assumeInt, values, s => (values, s)
  | .bindingSubspan binding false shape, dims, s =>
      ([.dispatchTensor binding 0 (runtimeDims shape dims)], s)
  | .bindingSubspan binding true shape, .int byteOffset :: dims, s =>
      ([.dispatchTensor binding byteOffset.bits.toNat (runtimeDims shape dims)], s)
  | .dispatchTensorLoad slice _, .dispatchTensor binding byteOffset dims :: operands, s =>
      ([.tensor ((slice.words dims operands).map
        fun w => s.memory binding (byteOffset + 4 * w))], s)
  | .dispatchTensorStore slice,
      .tensor words :: .dispatchTensor binding byteOffset dims :: operands, s =>
      ([], s.writeAll (List.zipWith (fun w value => ⟨binding, byteOffset + 4 * w, value⟩)
        (slice.words dims operands) words))
  | .add _, [.tensor lhs, .tensor rhs], s => ([.tensor (strelaAdd lhs rhs)], s)
  | .relu _, [.tensor input], s => ([.tensor (strelaRelu input)], s)
  | kind, values, s => (others kind values, s)

/-- A run of the body, from the start. -/
def runDispatch (constants : Nat → BitVec 32) (others : OpKind → List Val → List Val)
    (body : Body OpKind) (memory : Nat → Nat → BitVec 32) : (Nat → Val) × DispatchState :=
  Ssa.exec (dispatchInterp constants others) body (fun _ => .other "undefined") ⟨memory, []⟩

/-- A value is what its operation computes from its operands. -/
theorem runDispatch_definingOp {body : Body OpKind} (wellFormed : WellFormed body)
    (constants : Nat → BitVec 32) (others : OpKind → List Val → List Val)
    (memory : Nat → Nat → BitVec 32) {v : Nat} {op : Op OpKind} {i : Nat}
    (found : definingOp body v = some (op, i)) :
    ∃ s, ∀ x, (dispatchInterp constants others op.kind
        (op.operands.map (runDispatch constants others body memory).1) s).1[i]? = some x →
      (runDispatch constants others body memory).1 v = x := by
  obtain ⟨before, after, rfl, -, result⟩ := Ssa.definingOp_split found
  exact ⟨_, fun x value => Ssa.exec_definingOp _ before after op _ _ [] wellFormed.dominated i v x
    result value⟩

/-- An operation with one result defines nothing else. -/
theorem WellFormed.single {body : Body OpKind} (wellFormed : WellFormed body) {v : Nat}
    {op : Op OpKind} {i : Nat} (found : definingOp body v = some (op, i))
    (one : op.kind.resultCount op.operands.length = some 1) : i = 0 := by
  obtain ⟨before, after, rfl, -, result⟩ := Ssa.definingOp_split found
  have length := wellFormed.results op (by simp) 1 one
  have below := (List.getElem?_eq_some_iff.mp result).1
  omega

theorem constantInt_value {body : Body OpKind} (wellFormed : WellFormed body)
    (constants : Nat → BitVec 32) (others : OpKind → List Val → List Val)
    (memory : Nat → Nat → BitVec 32) {v : Nat} {a : APInt} (found : constantInt body v = some a) :
    (runDispatch constants others body memory).1 v = .int a := by
  unfold constantInt at found
  split at found
  · rename_i value operands results i defined
    cases found
    obtain rfl := wellFormed.single defined rfl
    obtain ⟨s, value⟩ := runDispatch_definingOp wellFormed constants others memory defined
    exact value _ rfl
  · cases found

theorem constantLoadOrdinal_value {body : Body OpKind} (wellFormed : WellFormed body)
    (constants : Nat → BitVec 32) (others : OpKind → List Val → List Val)
    (memory : Nat → Nat → BitVec 32) {v ordinal : Nat}
    (found : constantLoadOrdinal body v = some ordinal) :
    (runDispatch constants others body memory).1 v = .int ⟨32, constants ordinal⟩ := by
  unfold constantLoadOrdinal at found
  split at found
  · rename_i ordinal operands results i defined
    cases found
    obtain rfl := wellFormed.single defined rfl
    obtain ⟨s, value⟩ := runDispatch_definingOp wellFormed constants others memory defined
    exact value _ rfl
  · cases found

end Estela.Compiler
