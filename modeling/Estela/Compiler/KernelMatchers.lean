import Estela.Compiler.Linalg

set_option autoImplicit false

namespace Estela.Compiler

/-- `Type::isInteger(32)` of the elements of a ranked tensor. -/
def TensorType.isInteger32 : TensorType → Bool
  | .ranked _ element => element = .integer 32
  | .unranked _ => false

/-- `allInputsInteger32`. -/
def allInputsInteger32 (genericOp : GenericOp) : Bool := genericOp.inputs.all (·.type.isInteger32)

/-- `m_ConstantInt` on a scalar of a block. -/
def BodyValue.constantInt : BodyValue → Option APInt
  | .captured _ constant => constant
  | _ => none

/-- `isStrelaLinalgAdd`. -/
def isStrelaLinalgAdd (genericOp : GenericOp) : Bool :=
  if genericOp.inputs.length ≠ 2 ∨ genericOp.inits.length ≠ 1 then false
  else if ¬ allInputsInteger32 genericOp then false
  else if ¬ genericOp.pureTensorSemantics then false
  else if ¬ genericOp.iteratorTypes.all (· = .parallel) then false
  else if ¬ (genericOp.inputs ++ genericOp.inits).all (·.map.isIdentity) then false
  else
    match genericOp.block.ops with
    | [.addi lhs rhs] =>
        ((lhs = .argument 0 ∧ rhs = .argument 1) ∨ (lhs = .argument 1 ∧ rhs = .argument 0)) ∧
          genericOp.block.yield = [.result 0]
    | _ => false

/-- The `zeroAttr` of a two-operand relu. -/
def isZeroSplat (operand : GenericOperand) : Bool :=
  match operand.constant with
  | some (.splat value) => value.isZero
  | _ => false

/-- `isStrelaLinalgRelu`. -/
def isStrelaLinalgRelu (genericOp : GenericOp) : Bool :=
  let numInputs := genericOp.inputs.length
  if (numInputs ≠ 1 ∧ numInputs ≠ 2) ∨ genericOp.inits.length ≠ 1 then false
  else if ¬ allInputsInteger32 genericOp then false
  else if ¬ genericOp.pureTensorSemantics then false
  else if ¬ genericOp.iteratorTypes.all (· = .parallel) then false
  else
    match genericOp.block.ops with
    | [.maxsi lhs rhs] =>
        if lhs ≠ .argument 0 then false
        else if numInputs = 2 ∧
          ¬ (rhs = .argument 1 ∧ genericOp.inputs[1]?.any isZeroSplat) then false
        else if numInputs = 1 ∧ ¬ rhs.constantInt.any APInt.isZero then false
        else genericOp.block.yield = [.result 0]
    | _ => false

/-- `linalg::BatchMatmulOp`: its DPS inputs and its init, with their types. `fill` is
there if a `linalg.fill` defines the init, with the constant it fills in if it is one. -/
structure BatchMatmulOp where
  lhs : Nat
  rhs : Nat
  out : Nat
  lhsType : TensorType
  rhsType : TensorType
  outType : TensorType
  pureTensorSemantics : Bool
  hasUserDefinedMaps : Bool
  fill : Option (Option APInt)
  deriving DecidableEq, Repr

/-- `getDimSize(0)`. -/
def TensorType.firstDim : TensorType → Option Nat
  | .ranked (dim :: _) _ => dim
  | _ => none

/-- `isStrelaLinalgMatvec`. -/
def isStrelaLinalgMatvec (op : BatchMatmulOp) : Bool :=
  if ¬ op.pureTensorSemantics ∨ op.hasUserDefinedMaps then false
  else if ¬ op.lhsType.isInteger32 ∨ ¬ op.rhsType.isInteger32 ∨ ¬ op.outType.isInteger32 then false
  else if op.lhsType.firstDim ≠ some 1 ∨ op.rhsType.staticShape.isNone then false
  else
    match op.fill with
    | some (some init) => init.isZero
    | _ => false

/-- `linalg::LinalgOp`, as the matchers tell them apart. -/
inductive LinalgOp
  | generic (op : GenericOp)
  | batchMatmul (op : BatchMatmulOp)
  | other (name : String)
  deriving DecidableEq, Repr

/-- `isSupportedByStrela`. -/
def isSupportedByStrela : LinalgOp → Bool
  | .generic op => isStrelaLinalgAdd op || isStrelaLinalgRelu op
  | .batchMatmul op => isStrelaLinalgMatvec op
  | .other _ => false

/-- What an accepted op is made of: tensors of i32, parallel loops, one init, and one
operation that the block yields. -/
structure Matched (genericOp : GenericOp) (bodyOp : BodyOp) (init : GenericOperand) : Prop where
  inits : genericOp.inits = [init]
  inputs : allInputsInteger32 genericOp = true
  pureTensor : genericOp.pureTensorSemantics = true
  parallel : genericOp.iteratorTypes.all (· = .parallel) = true
  block : genericOp.block = ⟨[bodyOp], [.result 0]⟩

theorem Block.eq_of_fields {block : Block} {ops : List BodyOp} {yield : List BodyValue}
    (isOps : block.ops = ops) (isYield : block.yield = yield) : block = ⟨ops, yield⟩ := by
  obtain ⟨ops', yield'⟩ := block
  rw [← isOps, ← isYield]

/-- What `isStrelaLinalgAdd` accepts: the inputs in either order, nothing permuted or
broadcast. -/
theorem isStrelaLinalgAdd_ok {genericOp : GenericOp}
    (accepted : isStrelaLinalgAdd genericOp = true) :
    ∃ first second init lhs rhs, Matched genericOp (.addi lhs rhs) init ∧
      genericOp.inputs = [first, second] ∧
      ((lhs = .argument 0 ∧ rhs = .argument 1) ∨ (lhs = .argument 1 ∧ rhs = .argument 0)) ∧
      first.map.isIdentity = true ∧ second.map.isIdentity = true ∧ init.map.isIdentity = true := by
  unfold isStrelaLinalgAdd at accepted
  split at accepted
  · cases accepted
  rename_i counts
  split at accepted
  · cases accepted
  rename_i inputs
  split at accepted
  · cases accepted
  rename_i pureTensor
  split at accepted
  · cases accepted
  rename_i parallel
  split at accepted
  · cases accepted
  rename_i maps
  split at accepted
  case h_2 => cases accepted
  rename_i lhs rhs isOps
  obtain ⟨order, isYield⟩ := of_decide_eq_true accepted
  simp only [ne_eq, not_or, Decidable.not_not] at counts inputs pureTensor parallel maps
  obtain ⟨first, second, isInputs⟩ := List.length_eq_two.mp counts.1
  obtain ⟨init, isInits⟩ := List.length_eq_one_iff.mp counts.2
  rw [isInputs, isInits] at maps
  simp only [List.cons_append, List.nil_append, List.all_cons, List.all_nil, Bool.and_true,
    Bool.and_eq_true] at maps
  exact ⟨first, second, init, lhs, rhs,
    ⟨isInits, inputs, pureTensor, parallel, Block.eq_of_fields isOps isYield⟩,
    isInputs, order, maps.1, maps.2.1, maps.2.2⟩

/-- What `isStrelaLinalgRelu` accepts: the zero is a splat operand or a constant of
the block. Nothing is said of the indexing maps. -/
theorem isStrelaLinalgRelu_ok {genericOp : GenericOp}
    (accepted : isStrelaLinalgRelu genericOp = true) :
    ∃ input zeros init rhs, Matched genericOp (.maxsi (.argument 0) rhs) init ∧
      genericOp.inputs = input :: zeros ∧
      ((zeros = [] ∧ rhs.constantInt.any APInt.isZero = true) ∨
        ∃ zero, zeros = [zero] ∧ rhs = .argument 1 ∧ isZeroSplat zero = true) := by
  unfold isStrelaLinalgRelu at accepted
  dsimp only at accepted
  split at accepted
  · cases accepted
  rename_i counts
  split at accepted
  · cases accepted
  rename_i inputs
  split at accepted
  · cases accepted
  rename_i pureTensor
  split at accepted
  · cases accepted
  rename_i parallel
  split at accepted
  case h_2 => cases accepted
  rename_i lhs rhs isOps
  split at accepted
  · cases accepted
  rename_i isLhs
  split at accepted
  · cases accepted
  rename_i two
  split at accepted
  · cases accepted
  rename_i one
  have isYield := of_decide_eq_true accepted
  simp only [ne_eq, not_or, Decidable.not_not] at counts inputs pureTensor parallel isLhs
  subst isLhs
  obtain ⟨init, isInits⟩ := List.length_eq_one_iff.mp counts.2
  have matched : Matched genericOp (.maxsi (.argument 0) rhs) init :=
    ⟨isInits, inputs, pureTensor, parallel, Block.eq_of_fields isOps isYield⟩
  by_cases single : genericOp.inputs.length = 1
  · obtain ⟨input, isInputs⟩ := List.length_eq_one_iff.mp single
    refine ⟨input, [], init, rhs, matched, isInputs, Or.inl ⟨rfl, ?_⟩⟩
    simpa [single] using one
  · have pair : genericOp.inputs.length = 2 := by
      by_contra other
      exact counts.1 ⟨single, other⟩
    obtain ⟨input, zero, isInputs⟩ := List.length_eq_two.mp pair
    have zeroOperand : rhs = .argument 1 ∧ genericOp.inputs[1]?.any isZeroSplat = true := by
      by_contra other
      exact two ⟨pair, other⟩
    rw [isInputs] at zeroOperand
    exact ⟨input, [zero], init, rhs, matched, isInputs, Or.inr ⟨zero, rfl, zeroOperand⟩⟩

/-- What `isStrelaLinalgMatvec` accepts accumulates in a fill of zero. -/
theorem isStrelaLinalgMatvec_ok {op : BatchMatmulOp} (accepted : isStrelaLinalgMatvec op = true) :
    op.pureTensorSemantics = true ∧ ∃ zero, op.fill = some (some zero) ∧ zero.isZero = true := by
  unfold isStrelaLinalgMatvec at accepted
  split at accepted
  · cases accepted
  rename_i semantics
  split at accepted
  · cases accepted
  split at accepted
  · cases accepted
  split at accepted
  case h_2 => cases accepted
  rename_i zero isFill
  simp only [not_or, Decidable.not_not] at semantics
  exact ⟨semantics.1, zero, isFill, accepted⟩

end Estela.Compiler
