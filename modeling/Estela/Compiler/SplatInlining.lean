import Estela.Compiler.ConvertLinalg

set_option autoImplicit false

/- Splat operands: left where they are when an op is put on STRELA, and gone when it
is lowered. -/
namespace Estela.Compiler

/-- `isInt32Immediate`. -/
def isInt32Immediate (constant : Option DenseIntElementsAttr) : Bool :=
  match constant with
  | some (.splat value) => value.width = 32
  | _ => false

def GenericOperand.isImmediate (operand : GenericOperand) : Bool :=
  isInt32Immediate operand.constant

/-- What becomes of a block argument when the splats among the inputs are inlined:
the scalar, or the argument of its operand in the new order. -/
def inlinedArgument (inputs : List GenericOperand) (number : Nat) : BodyValue :=
  match inputs[number]? with
  | some ⟨value, _, _, some (.splat constant)⟩ =>
      if constant.width = 32 then .captured value (some constant)
      else .argument (number - (inputs.take number).countP (·.isImmediate))
  | _ => .argument (number - (inputs.take number).countP (·.isImmediate))

def BodyValue.inline (inputs : List GenericOperand) : BodyValue → BodyValue
  | .argument number => inlinedArgument inputs number
  | value => value

def BodyOp.inline (inputs : List GenericOperand) : BodyOp → BodyOp
  | .addi lhs rhs => .addi (lhs.inline inputs) (rhs.inline inputs)
  | .maxsi lhs rhs => .maxsi (lhs.inline inputs) (rhs.inline inputs)
  | .other name operands => .other name (operands.map (·.inline inputs))

/-- The op dispatch formation leaves: without the inputs that are i32 splats. -/
def GenericOp.inlineSplats (op : GenericOp) : GenericOp where
  inputs := op.inputs.filter (! ·.isImmediate)
  inits := op.inits
  resultTypes := op.resultTypes
  iteratorTypes := op.iteratorTypes
  block := {
    ops := op.block.ops.map (·.inline op.inputs)
    yield := op.block.yield.map (·.inline op.inputs) }
  pureTensorSemantics := op.pureTensorSemantics

/-- The values of the inputs that are left. -/
def GenericOp.keptInputs (op : GenericOp) (inputs : List Tensor) : List Tensor :=
  ((op.inputs.zip inputs).filter fun p => ! p.1.isImmediate).map Prod.snd

/-- Shapes the operands of an op may have at run time, for loops of the given bounds. -/
structure GenericOp.Fits (op : GenericOp) (bounds : List Nat)
    (inputShapes initShapes : List (List Nat)) : Prop where
  inputs : List.Forall₂ (GenericOperand.Shaped bounds) op.inputs inputShapes
  inits : List.Forall₂ (GenericOperand.Shaped bounds) op.inits initShapes
  inputTypes : List.Forall₂ (fun operand shape => operand.type.Allows shape) op.inputs inputShapes
  initTypes : List.Forall₂ (fun operand shape => operand.type.Allows shape) op.inits initShapes

/-- A constant has the type of its operand. -/
def ConstantsTyped (op : GenericOp) : Prop :=
  ∀ operand ∈ op.inputs, ∀ value, operand.constant = some (.splat value) →
    operand.type.isInteger32 = true → value.width = 32

/-- What the verifiers promise: a result has the type of its init, the block yields words
of the type it computes on, and the static sizes that belong to one loop agree. -/
structure GenericOp.WellFormed (op : GenericOp) : Prop where
  constants : ConstantsTyped op
  results : op.resultTypes = op.inits.map (·.type)
  elements : ∀ lhs rhs, op.block.ops = [.addi lhs rhs] ∨ op.block.ops = [.maxsi lhs rhs] →
    op.block.yield = [.result 0] → ∀ number operand, lhs = .argument number →
    op.inputs[number]? = some operand → ∀ init ∈ op.inits, init.type.element = operand.type.element
  fits : ∃ bounds inputShapes initShapes, op.Fits bounds inputShapes initShapes

/-- What is left of an op lowers to a valid op that computes the tensor of the original,
whatever its shapes and operands are at run time. -/
def LowersInlined (op : GenericOp) : Prop :=
  ∃ lowered type, convertLinalgToStrela op.inlineSplats = some lowered ∧
    lowered.kind.strelaType = some type ∧
    (∀ i ∈ lowered.inputs, ∃ operand, op.inlineSplats.inputs[i]? = some operand ∧
      operand.type.element = type.element ∧ CompatibleShape operand.type type) ∧
    ∀ scalars bounds inputShapes initShapes inputs inits, op.Fits bounds inputShapes initShapes →
      HoldAll op.inputs inputShapes inputs → HoldAll op.inits initShapes inits →
      op.denote scalars bounds inputs inits = (lowered.denote (op.keptInputs inputs)).toList

/-- The only splat among the inputs, if any, is the zero of a relu. -/
def SplatsInPlace (op : GenericOp) : Prop :=
  ∀ (i : Nat) operand, op.inputs[i]? = some operand → operand.isImmediate = true →
    isStrelaLinalgRelu op = true ∧ i = 1

/-- No input is a splat but the zero of a relu, and a relu agrees with its input. -/
structure SplatsAgree (op : GenericOp) : Prop where
  splats : SplatsInPlace op
  meaning : isStrelaLinalgAdd op = true ∨ ∀ bounds inputShapes initShapes,
    op.Fits bounds inputShapes initShapes → ReluAgrees op bounds inputShapes initShapes

theorem isImmediate_iff {operand : GenericOperand} :
    operand.isImmediate = true ↔ ∃ value, operand.constant = some (.splat value) ∧
      value.width = 32 := by
  unfold GenericOperand.isImmediate isInt32Immediate
  split
  · rename_i value isConstant
    simp [isConstant]
  · rename_i other
    simp only [Bool.false_eq_true, false_iff, not_exists, not_and]
    exact fun value isConstant => absurd isConstant (other value)

theorem inlinedArgument_kept {inputs : List GenericOperand} {number : Nat}
    (kept : ∀ operand, inputs[number]? = some operand → operand.isImmediate = false) :
    inlinedArgument inputs number =
      .argument (number - (inputs.take number).countP (·.isImmediate)) := by
  unfold inlinedArgument
  split
  · rename_i value type map constant found
    have other := kept _ found
    rw [if_neg]
    intro width
    rw [isImmediate_iff.mpr ⟨constant, rfl, width⟩] at other
    cases other
  · rfl

theorem inlinedArgument_immediate {inputs : List GenericOperand} {number : Nat}
    {operand : GenericOperand} (found : inputs[number]? = some operand)
    (immediate : operand.isImmediate = true) :
    ∃ constant, operand.constant = some (.splat constant) ∧
      inlinedArgument inputs number = .captured operand.value (some constant) := by
  obtain ⟨constant, isConstant, width⟩ := isImmediate_iff.mp immediate
  obtain ⟨value, type, map, constant'⟩ := operand
  obtain rfl : constant' = some (.splat constant) := isConstant
  exact ⟨constant, rfl, by simp [inlinedArgument, found, width]⟩

/-- Without splats among the inputs, nothing is inlined. -/
theorem inlineSplats_eq {op : GenericOp}
    (none : ∀ operand ∈ op.inputs, operand.isImmediate = false) :
    op.inlineSplats = op := by
  have value (v : BodyValue) : v.inline op.inputs = v := by
    cases v with
    | argument number =>
        have early : (op.inputs.take number).countP (·.isImmediate) = 0 :=
          List.countP_eq_zero.mpr
            fun operand member => by simp [none operand (List.mem_of_mem_take member)]
        rw [BodyValue.inline, inlinedArgument_kept fun operand found =>
          none operand (List.mem_of_getElem? found), early, Nat.sub_zero]
    | result op => rfl
    | captured v constant => rfl
  have bodyOp (o : BodyOp) : o.inline op.inputs = o := by
    cases o <;> simp [BodyOp.inline, value]
  obtain ⟨inputs, inits, resultTypes, iteratorTypes, ⟨ops, yield⟩, pureTensor⟩ := op
  have kept : inputs.filter (! ·.isImmediate) = inputs :=
    List.filter_eq_self.mpr fun operand member => by simp [none operand member]
  simp only [GenericOp.inlineSplats, GenericOp.mk.injEq, Block.mk.injEq, kept, true_and, and_true]
  exact ⟨by simp [bodyOp], by simp [value]⟩

theorem keptInputs_eq {op : GenericOp} {inputs : List Tensor}
    (none : ∀ operand ∈ op.inputs, operand.isImmediate = false)
    (length : inputs.length = op.inputs.length) :
    op.keptInputs inputs = inputs := by
  rw [GenericOp.keptInputs, List.filter_eq_self.mpr fun p member => by
    simp [none p.1 (List.of_mem_zip member).1], List.map_snd_zip (Nat.le_of_eq length)]

theorem HoldAll.length_eq {operands : List GenericOperand} {shapes : List (List Nat)}
    {tensors : List Tensor} (hold : HoldAll operands shapes tensors)
    (shapes_length : operands.length = shapes.length) :
    tensors.length = operands.length := by
  have same := List.Forall₂.length_eq hold
  rw [List.length_zip, ← shapes_length, Nat.min_self] at same
  exact same.symm

/-- An op is an add or a relu by the operation in its block. -/
theorem supported_ops {op : GenericOp} (supported : isSupportedByStrela (.generic op) = true) :
    (isStrelaLinalgAdd op = true ∧ isStrelaLinalgRelu op = false ∧ ∃ lhs rhs,
      op.block.ops = [.addi lhs rhs]) ∨
      (isStrelaLinalgAdd op = false ∧ isStrelaLinalgRelu op = true ∧ ∃ rhs,
        op.block.ops = [.maxsi (.argument 0) rhs]) := by
  cases isAdd : isStrelaLinalgAdd op with
  | true =>
      obtain ⟨_, _, _, lhs, rhs, matched, -⟩ := isStrelaLinalgAdd_ok isAdd
      have isOps := congrArg Block.ops matched.block
      refine Or.inl ⟨rfl, ?_, lhs, rhs, isOps⟩
      by_contra isRelu
      obtain ⟨_, _, _, _, other, -⟩ := isStrelaLinalgRelu_ok (by simpa using isRelu)
      rw [congrArg Block.ops other.block] at isOps
      cases isOps
  | false =>
      have isRelu : isStrelaLinalgRelu op = true := by
        simpa [isSupportedByStrela, isAdd] using supported
      obtain ⟨_, _, _, rhs, matched, -⟩ := isStrelaLinalgRelu_ok isRelu
      exact Or.inr ⟨rfl, isRelu, rhs, congrArg Block.ops matched.block⟩

/-- What is left of an op only lowers if the splats were in place. -/
theorem splats_of_converted {op : GenericOp} (supported : isSupportedByStrela (.generic op) = true)
    {lowered : StrelaOp} (converted : convertLinalgToStrela op.inlineSplats = some lowered) :
    SplatsInPlace op := by
  obtain ⟨type, -, ⟨isAdd, -⟩ | ⟨-, isRelu, -⟩⟩ := convertLinalgToStrela_some converted
  · obtain ⟨first, second, _, _, _, matched, isInputs, -⟩ := isStrelaLinalgAdd_ok isAdd
    have isOps : op.block.ops.map (·.inline op.inputs) = _ := congrArg Block.ops matched.block
    rcases supported_ops supported with ⟨wasAdd, -⟩ | ⟨-, -, rhs, wasOps⟩
    · obtain ⟨_, _, _, _, _, -, wasInputs, -⟩ := isStrelaLinalgAdd_ok wasAdd
      have whole : (op.inputs.filter (! ·.isImmediate)).length = op.inputs.length := by
        rw [show op.inputs.filter (! ·.isImmediate) = [first, second] from isInputs, wasInputs]
        rfl
      intro i operand found immediate
      have kept := List.length_filter_eq_length_iff.mp whole operand (List.mem_of_getElem? found)
      simp [immediate] at kept
    · rw [wasOps] at isOps
      simp [BodyOp.inline] at isOps
  · obtain ⟨_, _, _, _, matched, -⟩ := isStrelaLinalgRelu_ok isRelu
    have isOps : op.block.ops.map (·.inline op.inputs) = _ := congrArg Block.ops matched.block
    rcases supported_ops supported with ⟨-, -, lhs, rhs, wasOps⟩ | ⟨-, wasRelu, rhs, wasOps⟩
    · rw [wasOps] at isOps
      simp [BodyOp.inline] at isOps
    · rw [wasOps] at isOps
      have first : inlinedArgument op.inputs 0 = .argument 0 := by
        simp only [List.map_cons, List.map_nil, BodyOp.inline, BodyValue.inline, List.cons.injEq,
          BodyOp.maxsi.injEq] at isOps
        exact isOps.1.1
      intro i operand found immediate
      refine ⟨wasRelu, ?_⟩
      obtain ⟨input, zeros, _, _, _, wasInputs, zero⟩ := isStrelaLinalgRelu_ok wasRelu
      have few : op.inputs.length ≤ 2 := by
        rcases zero with ⟨rfl, -⟩ | ⟨_, rfl, -⟩ <;> simp [wasInputs]
      have inside := (List.getElem?_eq_some_iff.mp found).1
      have notFirst : i ≠ 0 := by
        rintro rfl
        obtain ⟨_, -, captured⟩ := inlinedArgument_immediate found immediate
        rw [captured] at first
        cases first
      omega

/-- A relu of one input and a constant of zero is accepted. -/
theorem isStrelaLinalgRelu_single {op : GenericOp} {input : GenericOperand} (init : GenericOperand)
    (value : Nat) (zero : APInt)
    (matched : Matched op (.maxsi (.argument 0) (.captured value (some zero))) init)
    (isInputs : op.inputs = [input]) (isZero : zero.isZero = true) :
    isStrelaLinalgRelu op = true := by
  simp [isStrelaLinalgRelu, isInputs, matched.inits, matched.inputs, matched.pureTensor,
    matched.parallel, matched.block, BodyValue.constantInt, isZero]

/-- A relu whose zero is a splat stays a relu of its other input. -/
theorem inlineSplats_relu {op : GenericOp} {input zero : GenericOperand}
    (isInputs : op.inputs = [input, zero]) (isRelu : isStrelaLinalgRelu op = true)
    (kept : input.isImmediate = false) (immediate : zero.isImmediate = true) :
    op.inlineSplats.inputs = [input] ∧ isStrelaLinalgRelu op.inlineSplats = true := by
  obtain ⟨input', zeros, init, rhs, matched, isInputs', isZero⟩ := isStrelaLinalgRelu_ok isRelu
  rw [isInputs, List.cons.injEq] at isInputs'
  obtain ⟨rfl, rfl⟩ := isInputs'
  obtain ⟨rfl, zeroSplat⟩ : rhs = .argument 1 ∧ isZeroSplat zero = true := by
    rcases isZero with ⟨none, -⟩ | ⟨operand, same, isArgument, isSplat⟩
    · cases none
    · cases same
      exact ⟨isArgument, isSplat⟩
  have inputs : op.inlineSplats.inputs = [input] := by
    simp [GenericOp.inlineSplats, isInputs, kept, immediate]
  obtain ⟨constant, isConstant, captured⟩ :=
    inlinedArgument_immediate (show op.inputs[1]? = some zero by rw [isInputs]; rfl) immediate
  have first : inlinedArgument op.inputs 0 = .argument 0 :=
    inlinedArgument_kept fun operand found => by
    rw [isInputs] at found
    cases found
    exact kept
  have none : constant.isZero = true := by simpa [isZeroSplat, isConstant] using zeroSplat
  have allInputs := matched.inputs
  refine ⟨inputs, isStrelaLinalgRelu_single init zero.value constant ?_ inputs none⟩
  refine ⟨matched.inits, ?_, matched.pureTensor, matched.parallel, ?_⟩
  · rw [allInputsInteger32, isInputs] at allInputs
    rw [allInputsInteger32, inputs]
    simp only [List.all_cons, List.all_nil, Bool.and_true, Bool.and_eq_true] at allInputs ⊢
    exact allInputs.1
  · simp only [GenericOp.inlineSplats, matched.block, List.map_cons, List.map_nil, BodyOp.inline,
      BodyValue.inline, first, captured]

/-- With the splats in place, what is left of an op lowers as the op itself does. -/
theorem inlineSplats_same {op : GenericOp} (supported : isSupportedByStrela (.generic op) = true)
    (inPlace : SplatsInPlace op) :
    convertLinalgToStrela op.inlineSplats = convertLinalgToStrela op ∧
      ∀ lowered, convertLinalgToStrela op = some lowered →
        (∀ i ∈ lowered.inputs, op.inlineSplats.inputs[i]? = op.inputs[i]?) ∧
        ∀ inputShapes inputs, HoldAll op.inputs inputShapes inputs →
          op.inputs.length = inputShapes.length →
          lowered.denote (op.keptInputs inputs) = lowered.denote inputs := by
  by_cases none : ∀ operand ∈ op.inputs, operand.isImmediate = false
  · rw [inlineSplats_eq none]
    refine ⟨rfl, fun lowered _ => ⟨fun _ _ => rfl, fun inputShapes inputs hold shapes => ?_⟩⟩
    rw [keptInputs_eq none (hold.length_eq shapes)]
  · simp only [not_forall, Bool.not_eq_false] at none
    obtain ⟨zero, member, immediate⟩ := none
    obtain ⟨i, found⟩ := List.mem_iff_getElem?.mp member
    obtain ⟨isRelu, rfl⟩ := inPlace i zero found immediate
    obtain ⟨input, isInputs⟩ : ∃ input, op.inputs = [input, zero] := by
      obtain ⟨input, zeros, _, _, _, isInputs, isZero⟩ := isStrelaLinalgRelu_ok isRelu
      rw [isInputs] at found
      rcases isZero with ⟨rfl, -⟩ | ⟨operand, rfl, -⟩
      · cases found
      · cases found
        exact ⟨input, isInputs⟩
    have kept : input.isImmediate = false := by
      by_contra other
      have first := inPlace 0 input (by rw [isInputs]; rfl) (by simpa using other)
      exact absurd first.2 (by decide)
    obtain ⟨inputs, inlinedRelu⟩ := inlineSplats_relu isInputs isRelu kept immediate
    have notAdd : isStrelaLinalgAdd op = false := by
      rcases supported_ops supported with ⟨-, notRelu, -⟩ | ⟨notAdd, -⟩
      · rw [isRelu] at notRelu
        cases notRelu
      · exact notAdd
    have inlinedNotAdd : isStrelaLinalgAdd op.inlineSplats = false := by
      simp [isStrelaLinalgAdd, inputs]
    constructor
    · simp only [convertLinalgToStrela, convertLinalgAddToStrela, convertLinalgReluToStrela,
        notAdd, isRelu, inlinedNotAdd, inlinedRelu]
      rfl
    · intro lowered converted
      obtain ⟨type, -, ⟨isAdd, -⟩ | ⟨-, -, rfl⟩⟩ := convertLinalgToStrela_some converted
      · rw [notAdd] at isAdd
        cases isAdd
      refine ⟨by simp [inputs, isInputs], fun inputShapes tensors hold shapes => ?_⟩
      have length := hold.length_eq shapes
      rw [isInputs] at length
      obtain ⟨a, z, rfl⟩ := List.length_eq_two.mp length
      simp [GenericOp.keptInputs, isInputs, kept, immediate, StrelaOp.denote]

/-- Two types that allow one shape. -/
theorem CompatibleShape.of_allows {first second : TensorType} {shape : List Nat}
    (left : first.Allows shape) (right : second.Allows shape) : CompatibleShape first second := by
  cases first with
  | unranked element => trivial
  | ranked dims element =>
      cases second with
      | unranked element' => trivial
      | ranked dims' element' =>
          simp only [CompatibleShape, TensorType.Allows] at left right ⊢
          induction left generalizing dims' with
          | nil =>
              cases right
              exact .nil
          | @cons dim size dims sizes here _ ih =>
              obtain _ | ⟨here', later'⟩ := right
              refine .cons ?_ (ih _ later')
              rename_i dim' _
              cases dim with
              | none => exact Or.inl rfl
              | some known =>
                  cases dim' with
                  | none => exact Or.inr (Or.inl rfl)
                  | some known' =>
                      rw [here known rfl, here' known' rfl]
                      exact Or.inr (Or.inr rfl)

theorem TensorType.element_of_isInteger32 {type : TensorType}
    (isInteger32 : type.isInteger32 = true) : type.element = .integer 32 := by
  cases type with
  | ranked dims element => exact of_decide_eq_true isInteger32
  | unranked element => cases isInteger32

/-- An accepted op computes on the first argument or the second, which are of i32. -/
theorem GenericOp.WellFormed.result_element {op : GenericOp} (wellFormed : op.WellFormed)
    {lhs rhs : BodyValue} {init operand : GenericOperand} {number : Nat}
    (isOps : op.block.ops = [.addi lhs rhs] ∨ op.block.ops = [.maxsi lhs rhs])
    (isYield : op.block.yield = [.result 0]) (isLhs : lhs = .argument number)
    (found : op.inputs[number]? = some operand) (inputs : allInputsInteger32 op = true)
    (member : init ∈ op.inits) : init.type.element = .integer 32 := by
  rw [wellFormed.elements lhs rhs isOps isYield number operand isLhs found init member]
  exact TensorType.element_of_isInteger32
    (List.all_eq_true.mp inputs operand (List.mem_of_getElem? found))

/-- An add without splats still lowers. -/
theorem add_lowersInlined {op : GenericOp} (supported : isSupportedByStrela (.generic op) = true)
    (wellFormed : op.WellFormed) (isAdd : isStrelaLinalgAdd op = true)
    (inPlace : SplatsInPlace op) : LowersInlined op := by
  obtain ⟨same, facts⟩ := inlineSplats_same supported inPlace
  obtain ⟨first, second, init, lhs, rhs, matched, isInputs, order, firstMap, secondMap, initMap⟩ :=
    isStrelaLinalgAdd_ok isAdd
  have isResult : op.resultTypes.head? = some init.type := by
    rw [wellFormed.results, matched.inits]
    rfl
  have converted : convertLinalgToStrela op =
      some { kind := .add init.type, inputs := [0, 1] } := by
    simp [convertLinalgToStrela, convertLinalgAddToStrela, isAdd, isResult]
  obtain ⟨inputsSame, denoteSame⟩ := facts _ converted
  have isI32 (operand : GenericOperand) (member : operand ∈ op.inputs) :
      operand.type.element = .integer 32 :=
    TensorType.element_of_isInteger32 (List.all_eq_true.mp matched.inputs operand member)
  have element : init.type.element = .integer 32 := by
    have ops : op.block.ops = [.addi lhs rhs] := by rw [matched.block]
    have yield : op.block.yield = [.result 0] := by rw [matched.block]
    have member : init ∈ op.inits := by simp [matched.inits]
    rcases order with ⟨isLhs, -⟩ | ⟨isLhs, -⟩
    · exact wellFormed.result_element (Or.inl ops) yield isLhs
        (show op.inputs[0]? = some first by rw [isInputs]; rfl) matched.inputs member
    · exact wellFormed.result_element (Or.inl ops) yield isLhs
        (show op.inputs[1]? = some second by rw [isInputs]; rfl) matched.inputs member
  obtain ⟨bounds, inputShapes, initShapes, shaped, initShaped, allows, initAllows⟩ :=
    wellFormed.fits
  rw [isInputs] at shaped allows
  rw [matched.inits] at initShaped initAllows
  obtain _ | ⟨firstShaped, _ | ⟨secondShaped, _ | _⟩⟩ := shaped
  obtain _ | ⟨thisShaped, _ | _⟩ := initShaped
  obtain _ | ⟨firstAllows, _ | ⟨secondAllows, _ | _⟩⟩ := allows
  obtain _ | ⟨thisAllows, _ | _⟩ := initAllows
  -- Under identity maps every operand has the shape of the loop nest.
  obtain rfl := firstShaped.identity firstMap
  rw [secondShaped.identity secondMap] at secondAllows
  rw [thisShaped.identity initMap] at thisAllows
  refine ⟨_, init.type, same.trans converted, rfl, fun i read => ?_, ?_⟩
  · rw [inputsSame i read, isInputs]
    rcases List.mem_pair.mp read with rfl | rfl
    · exact ⟨first, rfl, (isI32 first (by simp [isInputs])).trans element.symm,
        .of_allows firstAllows thisAllows⟩
    · exact ⟨second, rfl, (isI32 second (by simp [isInputs])).trans element.symm,
        .of_allows secondAllows thisAllows⟩
  · intro scalars bounds inputShapes initShapes inputs inits fits inputsHold initsHold
    rw [denoteSame _ _ inputsHold fits.inputs.length_eq]
    exact add_preserved isAdd init.type scalars fits.inputs fits.inits inputs inits
      inputsHold initsHold

/-- A relu whose zero is its only splat still lowers. -/
theorem relu_lowersInlined {op : GenericOp} (supported : isSupportedByStrela (.generic op) = true)
    (wellFormed : op.WellFormed) (notAdd : isStrelaLinalgAdd op = false)
    (isRelu : isStrelaLinalgRelu op = true) (inPlace : SplatsInPlace op)
    (meaning : ∀ bounds inputShapes initShapes, op.Fits bounds inputShapes initShapes →
      ReluAgrees op bounds inputShapes initShapes) : LowersInlined op := by
  obtain ⟨same, facts⟩ := inlineSplats_same supported inPlace
  obtain ⟨input, zeros, init, rhs, matched, isInputs, -⟩ := isStrelaLinalgRelu_ok isRelu
  have isResult : op.resultTypes.head? = some init.type := by
    rw [wellFormed.results, matched.inits]
    rfl
  have converted : convertLinalgToStrela op = some { kind := .relu init.type, inputs := [0] } := by
    simp [convertLinalgToStrela, convertLinalgAddToStrela, convertLinalgReluToStrela,
      notAdd, isRelu, isResult]
  obtain ⟨inputsSame, denoteSame⟩ := facts _ converted
  have isI32 : input.type.element = .integer 32 :=
    TensorType.element_of_isInteger32
      (List.all_eq_true.mp matched.inputs input (by simp [isInputs]))
  have element : init.type.element = .integer 32 :=
    wellFormed.result_element (Or.inr (by rw [matched.block])) (by rw [matched.block]) rfl
      (by rw [isInputs]; rfl) matched.inputs (by simp [matched.inits])
  have compatible : CompatibleShape input.type init.type := by
    obtain ⟨bounds, inputShapes, initShapes, fits⟩ := wellFormed.fits
    obtain ⟨_, _, shape, -, -, isInput, isInit, -⟩ := meaning _ _ _ fits
    have allows := fits.inputTypes
    have initAllows := fits.initTypes
    rw [isInputs] at allows
    rw [matched.inits] at initAllows
    obtain _ | ⟨here, -⟩ := allows
    obtain _ | ⟨there, -⟩ := initAllows
    obtain rfl := Option.some.inj isInput
    obtain rfl := Option.some.inj isInit
    exact .of_allows here there
  refine ⟨_, init.type, same.trans converted, rfl, fun i read => ?_, ?_⟩
  · rw [inputsSame i read, isInputs]
    obtain rfl := List.mem_singleton.mp read
    exact ⟨input, rfl, isI32.trans element.symm, compatible⟩
  · intro scalars bounds inputShapes initShapes inputs inits fits inputsHold initsHold
    rw [denoteSame _ _ inputsHold fits.inputs.length_eq]
    exact (relu_preserved_iff isRelu init.type scalars fits.inputs fits.inits).mpr
      (meaning _ _ _ fits) inputs inits inputsHold initsHold

/-- An op that is put on STRELA still lowers once its splats are inlined, to a valid op
that computes the same tensor, exactly if none is a splat but the zero of a relu, and a
relu agrees with its input. -/
theorem inlineSplats_lowers_iff {op : GenericOp}
    (supported : isSupportedByStrela (.generic op) = true) (wellFormed : op.WellFormed) :
    LowersInlined op ↔ SplatsAgree op := by
  constructor
  · rintro ⟨lowered, type, converted, -, -, preserved⟩
    have inPlace := splats_of_converted supported converted
    obtain ⟨same, facts⟩ := inlineSplats_same supported inPlace
    rw [same] at converted
    obtain ⟨-, denoteSame⟩ := facts lowered converted
    refine ⟨inPlace, ?_⟩
    obtain ⟨type', -, ⟨isAdd, -⟩ | ⟨-, isRelu, rfl⟩⟩ := convertLinalgToStrela_some converted
    · exact Or.inl isAdd
    · refine Or.inr fun bounds inputShapes initShapes fits =>
        (relu_preserved_iff isRelu type' ⟨fun _ => 0, fun _ _ => 0⟩ fits.inputs fits.inits).mp ?_
      intro inputs inits inputsHold initsHold
      rw [preserved _ _ _ _ _ _ fits inputsHold initsHold,
        denoteSame _ _ inputsHold fits.inputs.length_eq]
  · rintro ⟨inPlace, meaning⟩
    rcases supported_ops supported with ⟨isAdd, -⟩ | ⟨notAdd, isRelu, -⟩
    · exact add_lowersInlined supported wellFormed isAdd inPlace
    · apply relu_lowersInlined supported wellFormed notAdd isRelu inPlace
      apply meaning.resolve_left
      rw [notAdd]
      exact Bool.false_ne_true

/-- The sum of a matrix of some type and a 2 by 2 one or, where it is uniform, a constant. -/
def squareAdd (type : TensorType) (constant : Option DenseIntElementsAttr) : GenericOp where
  inputs := [
    { value := 0, type, map := squareMap false, constant := none },
    { value := 1, type := squareType, map := squareMap false, constant }]
  inits := [{ value := 2, type := squareType, map := squareMap false, constant := none }]
  resultTypes := [squareType]
  iteratorTypes := [.parallel, .parallel]
  block := ⟨[.addi (.argument 0) (.argument 1)], [.result 0]⟩
  pureTensorSemantics := true

/-- Its first matrix may have two rows, and its constant, if there is one, is of i32. -/
theorem squareAdd_wellFormed {type : TensorType} {constant : Option DenseIntElementsAttr}
    (allows : type.Allows [2, 2]) (element : type.element = .integer 32)
    (constants : ∀ attr, constant = some attr → ∃ value, attr = .splat value ∧ value.width = 32) :
    (squareAdd type constant).WellFormed := by
  have plain : GenericOperand.Shaped [2, 2]
      { value := 0, type, map := squareMap false, constant := none } [2, 2] := by
    obtain ⟨dims, rank, extents, inside, elements⟩ := squareShaped 0 false
    exact ⟨dims, rank, extents, inside, elements⟩
  have shaped : GenericOperand.Shaped [2, 2]
      { value := 1, type := squareType, map := squareMap false, constant } [2, 2] := by
    obtain ⟨dims, rank, extents, inside, -⟩ := squareShaped 1 false
    refine ⟨dims, rank, extents, inside, fun values same => ?_⟩
    obtain ⟨_, isSplat, -⟩ := constants _ same
    cases isSplat
  have square : squareType.Allows [2, 2] := by simp [TensorType.Allows, squareType]
  refine ⟨?_, rfl, ?_, [2, 2], [[2, 2], [2, 2]], [[2, 2]],
    .cons plain (.cons shaped .nil), .cons (squareShaped 2 false) .nil,
    .cons allows (.cons square .nil), .cons square .nil⟩
  · intro operand member value isConstant _
    simp only [squareAdd, List.mem_cons, List.not_mem_nil, or_false] at member
    rcases member with rfl | rfl
    · cases isConstant
    · obtain ⟨value', isSplat, width⟩ := constants _ isConstant
      cases isSplat
      exact width
  · rintro lhs rhs isOps - number operand rfl found init member
    obtain rfl := List.mem_singleton.mp member
    obtain ⟨rfl, -⟩ : 0 = number ∧ .argument 1 = rhs := by simpa [squareAdd] using isOps
    obtain rfl := Option.some.inj found
    exact element.symm

/-- The number of rows of the first matrix need not be known. -/
theorem inlineSplats_lowers_iff_sample :
    LowersInlined (squareAdd (.ranked [none, some 2] (.integer 32)) none) ↔
      SplatsAgree (squareAdd (.ranked [none, some 2] (.integer 32)) none) :=
  inlineSplats_lowers_iff (by decide)
    (squareAdd_wellFormed (by simp [TensorType.Allows]) rfl (by simp))

/-- Adding a uniform constant is put on STRELA, and no matcher takes what is left of it. -/
theorem inlineSplats_loses_add :
    isSupportedByStrela (.generic (squareAdd squareType (some (.splat ⟨32, 5⟩)))) = true ∧
      (squareAdd squareType (some (.splat ⟨32, 5⟩))).WellFormed ∧
      convertLinalgToStrela (squareAdd squareType (some (.splat ⟨32, 5⟩))).inlineSplats = none ∧
      ¬ LowersInlined (squareAdd squareType (some (.splat ⟨32, 5⟩))) := by
  have none_ : convertLinalgToStrela
      (squareAdd squareType (some (.splat ⟨32, 5⟩))).inlineSplats = none := by decide
  refine ⟨by decide, ?_, none_, ?_⟩
  · refine squareAdd_wellFormed (by simp [TensorType.Allows, squareType]) rfl ?_
    rintro attr same
    cases same
    exact ⟨_, rfl, rfl⟩
  · rintro ⟨lowered, _, converted, -⟩
    rw [none_] at converted
    cases converted

end Estela.Compiler
