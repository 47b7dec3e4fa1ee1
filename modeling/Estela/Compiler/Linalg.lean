import Estela.Compiler.DispatchIr

set_option autoImplicit false

/- `linalg.generic` on tensors of i32: what it carries, and what it denotes. -/
namespace Estela.Compiler

/-- `mlir::AffineExpr`, without symbols. -/
inductive AffineExpr
  | dim (position : Nat)
  | constant (value : Int)
  | add (lhs rhs : AffineExpr)
  | mul (lhs rhs : AffineExpr)
  | mod (lhs rhs : AffineExpr)
  | floorDiv (lhs rhs : AffineExpr)
  | ceilDiv (lhs rhs : AffineExpr)
  deriving DecidableEq, Repr

def AffineExpr.eval (index : List Nat) : AffineExpr → Int
  | .dim position => index.getD position 0
  | .constant value => value
  | .add lhs rhs => lhs.eval index + rhs.eval index
  | .mul lhs rhs => lhs.eval index * rhs.eval index
  | .mod lhs rhs => (lhs.eval index).fmod (rhs.eval index)
  | .floorDiv lhs rhs => (lhs.eval index).fdiv (rhs.eval index)
  | .ceilDiv lhs rhs => -(-lhs.eval index).fdiv (rhs.eval index)

/-- `mlir::AffineMap`. -/
structure AffineMap where
  numDims : Nat
  results : List AffineExpr
  deriving DecidableEq, Repr

/-- `AffineMap::isIdentity`. -/
def AffineMap.isIdentity (map : AffineMap) : Bool := map.results = (List.range map.numDims).map .dim

/-- The element an iteration accesses. -/
def AffineMap.eval (map : AffineMap) (index : List Nat) : List Nat :=
  map.results.map fun result => (result.eval index).toNat

inductive IteratorType
  | parallel
  | reduction
  deriving DecidableEq, Repr

/-- `DenseIntElementsAttr`. -/
inductive DenseIntElementsAttr
  | splat (value : APInt)
  | list (values : List APInt)
  deriving DecidableEq, Repr

/-- The words of a constant of `n` elements. -/
def DenseIntElementsAttr.words (n : Nat) : DenseIntElementsAttr → List (BitVec 32)
  | .splat value => List.replicate n (value.bits.setWidth 32)
  | .list values => values.map (·.bits.setWidth 32)

/-- A scalar inside the block of a generic op. What comes from outside may be a
constant. -/
inductive BodyValue
  | argument (number : Nat)
  | result (op : Nat)
  | captured (value : Nat) (constant : Option APInt)
  deriving DecidableEq, Repr

inductive BodyOp
  | addi (lhs rhs : BodyValue)
  | maxsi (lhs rhs : BodyValue)
  | other (name : String) (operands : List BodyValue)
  deriving DecidableEq, Repr

/-- `mlir::Block`, its terminator a `linalg.yield`. -/
structure Block where
  ops : List BodyOp
  yield : List BodyValue
  deriving DecidableEq, Repr

/-- A DPS input or init of a generic op: the value, its type, the indexing map, and
the constant it is, if it is one. -/
structure GenericOperand where
  value : Nat
  type : TensorType
  map : AffineMap
  constant : Option DenseIntElementsAttr
  deriving DecidableEq, Repr

/-- `linalg::GenericOp`. -/
structure GenericOp where
  inputs : List GenericOperand
  inits : List GenericOperand
  resultTypes : List TensorType
  iteratorTypes : List IteratorType
  block : Block
  pureTensorSemantics : Bool
  deriving DecidableEq, Repr

/-- A tensor at run time, its words in row-major order. -/
structure Tensor where
  shape : List Nat
  words : List (BitVec 32)
  whole : words.length = shape.prod

/-- A shape a tensor of the type may have at run time. -/
def TensorType.Allows (type : TensorType) (shape : List Nat) : Prop :=
  match type with
  | .ranked dims _ =>
      List.Forall₂ (fun dim size => ∀ known, dim = some known → known = size) dims shape
  | .unranked _ => True

/-- The place of the element an iteration accesses in a tensor of some shape. -/
def AffineMap.place (map : AffineMap) (shape index : List Nat) : Nat :=
  RowMajor.linearize shape (map.eval index)

def Tensor.read (tensor : Tensor) (map : AffineMap) (index : List Nat) : BitVec 32 :=
  tensor.words.getD (map.place tensor.shape index) 0

def Tensor.write (tensor : Tensor) (map : AffineMap) (index : List Nat) (word : BitVec 32) :
    Tensor where
  shape := tensor.shape
  words := tensor.words.set (map.place tensor.shape index) word
  whole := by rw [List.length_set, tensor.whole]

/-- What surrounds a block: the scalars it captures, and the meaning of operations
no matcher knows. -/
structure Scalars where
  captured : Nat → BitVec 32
  other : String → List (BitVec 32) → BitVec 32

section

variable (scalars : Scalars) (arguments results : List (BitVec 32))

def BodyValue.eval : BodyValue → BitVec 32
  | .argument number => arguments.getD number 0
  | .result op => results.getD op 0
  | .captured _ (some constant) => constant.bits.setWidth 32
  | .captured value none => scalars.captured value

def BodyOp.eval : BodyOp → BitVec 32
  | .addi lhs rhs => lhs.eval scalars arguments results + rhs.eval scalars arguments results
  | .maxsi lhs rhs =>
      Estela.Compiler.maxsi (lhs.eval scalars arguments results)
        (rhs.eval scalars arguments results)
  | .other name operands => scalars.other name (operands.map (·.eval scalars arguments results))

end

/-- What a block yields. -/
def Block.eval (block : Block) (scalars : Scalars) (arguments : List (BitVec 32)) :
    List (BitVec 32) :=
  let results :=
    block.ops.foldl (fun results op => results ++ [op.eval scalars arguments results]) []
  block.yield.map (·.eval scalars arguments results)

/-- The scalars an iteration reads. -/
def readOperands (operands : List GenericOperand) (tensors : List Tensor) (index : List Nat) :
    List (BitVec 32) :=
  List.zipWith (fun operand tensor => tensor.read operand.map index) operands tensors

/-- One iteration. -/
def GenericOp.step (op : GenericOp) (scalars : Scalars) (inputs outs : List Tensor)
    (index : List Nat) :
    List Tensor :=
  let arguments := readOperands op.inputs inputs index ++ readOperands op.inits outs index
  List.zipWith (fun (out : GenericOperand × Tensor) word => out.2.write out.1.map index word)
    (op.inits.zip outs) (op.block.eval scalars arguments)

/-- The results of a generic op: a loop nest with the given bounds, run in order. -/
def GenericOp.denote (op : GenericOp) (scalars : Scalars) (bounds : List Nat)
    (inputs inits : List Tensor) :
    List Tensor :=
  (RowMajor.indices bounds).foldl (op.step scalars inputs) inits

/-- What the verifier promises of an operand of some run-time shape: a loop dimension
that indexes it has its extent, and no iteration leaves it. -/
structure GenericOperand.Shaped (bounds : List Nat) (operand : GenericOperand) (shape : List Nat) :
    Prop where
  dims : operand.map.numDims = bounds.length
  rank : operand.map.results.length = shape.length
  extents : ∀ (p i : Nat), operand.map.results[p]? = some (.dim i) → shape[p]? = bounds[i]?
  inside : ∀ index ∈ RowMajor.indices bounds, operand.map.eval index ∈ RowMajor.indices shape
  elements : ∀ values, operand.constant = some (.list values) → values.length = shape.prod

/-- A value the operand may have: any of its shape, or the constant it is. -/
structure GenericOperand.Holds (operand : GenericOperand) (shape : List Nat) (tensor : Tensor) :
    Prop where
  shaped : tensor.shape = shape
  fixed : ∀ attr, operand.constant = some attr → tensor.words = attr.words shape.prod

theorem GenericOperand.Shaped.place_lt {bounds shape index : List Nat} {operand : GenericOperand}
    (shaped : operand.Shaped bounds shape) (member : index ∈ RowMajor.indices bounds) :
    operand.map.place shape index < shape.prod :=
  RowMajor.linearize_lt (shaped.inside index member)

/-- Under an identity map, the operand has the shape of the loop nest. -/
theorem GenericOperand.Shaped.identity {bounds shape : List Nat} {operand : GenericOperand}
    (shaped : operand.Shaped bounds shape) (identity : operand.map.isIdentity = true) :
    shape = bounds := by
  have results : operand.map.results = (List.range bounds.length).map .dim := by
    rw [← shaped.dims]
    exact of_decide_eq_true identity
  have rank : shape.length = bounds.length := by simpa [results] using shaped.rank.symm
  refine List.ext_getElem? fun p => ?_
  by_cases inside : p < bounds.length
  · exact shaped.extents p p (by simp [results, inside])
  · rw [List.getElem?_eq_none (by omega), List.getElem?_eq_none (by omega)]

theorem AffineMap.eval_identity {map : AffineMap} {index : List Nat}
    (identity : map.isIdentity = true)
    (dims : index.length = map.numDims) : map.eval index = index := by
  have results : map.results = (List.range map.numDims).map .dim := of_decide_eq_true identity
  rw [AffineMap.eval, results, ← dims]
  refine List.ext_getElem (by simp) fun p first second => ?_
  simp [AffineExpr.eval, second]

end Estela.Compiler
