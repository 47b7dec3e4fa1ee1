import Estela.Compiler.KernelMatchers

set_option autoImplicit false

namespace Estela.Compiler

/-- The op a generic op is replaced by; its operands are DPS inputs of that one. -/
structure StrelaOp where
  kind : OpKind
  inputs : List Nat
  deriving DecidableEq, Repr

/-- `ConvertLinalgAddToStrela`. -/
def convertLinalgAddToStrela (genericOp : GenericOp) : Option StrelaOp :=
  if isStrelaLinalgAdd genericOp then
    genericOp.resultTypes.head?.map fun type => { kind := .add type, inputs := [0, 1] }
  else none

/-- `ConvertLinalgReluToStrela`. -/
def convertLinalgReluToStrela (genericOp : GenericOp) : Option StrelaOp :=
  if isStrelaLinalgRelu genericOp then
    genericOp.resultTypes.head?.map fun type => { kind := .relu type, inputs := [0] }
  else none

/-- `ConvertLinalgToStrelaPass`, on a generic op. -/
def convertLinalgToStrela (genericOp : GenericOp) : Option StrelaOp :=
  convertLinalgAddToStrela genericOp <|> convertLinalgReluToStrela genericOp

/-- `strela.add`, of tensors of one shape. -/
def Tensor.strelaAdd (lhs rhs : Tensor) : Option Tensor :=
  if same : lhs.shape = rhs.shape then
    some {
      shape := lhs.shape
      words := Estela.Compiler.strelaAdd lhs.words rhs.words
      whole := by simp [Estela.Compiler.strelaAdd, lhs.whole, rhs.whole, same] }
  else none

/-- `strela.relu`. -/
def Tensor.strelaRelu (input : Tensor) : Tensor where
  shape := input.shape
  words := Estela.Compiler.strelaRelu input.words
  whole := by simp [Estela.Compiler.strelaRelu, input.whole]

def StrelaOp.denote (op : StrelaOp) (inputs : List Tensor) : Option Tensor :=
  match op.kind, op.inputs.map (inputs[·]?) with
  | .add _, [some lhs, some rhs] => lhs.strelaAdd rhs
  | .relu _, [some input] => some input.strelaRelu
  | _, _ => none

theorem Tensor.ext_words {first second : Tensor} (shape : first.shape = second.shape)
    (words : ∀ k < first.shape.prod, first.words[k]? = second.words[k]?) : first = second := by
  obtain ⟨shape₁, words₁, whole₁⟩ := first
  obtain ⟨shape₂, words₂, whole₂⟩ := second
  obtain rfl : shape₁ = shape₂ := shape
  obtain rfl : words₁ = words₂ := by
    refine List.ext_getElem? fun k => ?_
    by_cases inside : k < shape₁.prod
    · exact words k inside
    · rw [List.getElem?_eq_none (by omega), List.getElem?_eq_none (by omega)]
  rfl

theorem Tensor.read_eq (tensor : Tensor) (map : AffineMap) (index : List Nat)
    (inside : map.place tensor.shape index < tensor.shape.prod) :
    tensor.words[map.place tensor.shape index]? = some (tensor.read map index) := by
  have bound : map.place tensor.shape index < tensor.words.length := by
    rw [tensor.whole]; exact inside
  rw [Tensor.read, List.getD_eq_getElem?_getD, List.getElem?_eq_getElem bound, Option.getD_some]

/-- An op with one init whose block never looks at it: each iteration writes its word. -/
theorem denote_scatter {genericOp : GenericOp} {init : GenericOperand}
    (isInits : genericOp.inits = [init]) (scalars : Scalars) (bounds : List Nat)
    (inputs : List Tensor) (out : Tensor) (word : List Nat → BitVec 32)
    (yields : ∀ index out', genericOp.block.eval scalars
      (readOperands genericOp.inputs inputs index ++ readOperands genericOp.inits [out'] index) =
        [word index]) :
    ∃ result, genericOp.denote scalars bounds inputs [out] = [result] ∧ result.shape = out.shape ∧
      result.words = RowMajor.scatter (init.map.place out.shape) word (RowMajor.indices bounds)
        out.words := by
  unfold GenericOp.denote RowMajor.scatter
  generalize RowMajor.indices bounds = order
  induction order generalizing out with
  | nil => exact ⟨out, rfl, rfl, rfl⟩
  | cons index rest ih =>
      have step : genericOp.step scalars inputs [out] index =
          [out.write init.map index (word index)] := by
        rw [GenericOp.step, yields, isInits]
        rfl
      rw [List.foldl_cons, step, List.foldl_cons]
      exact ih _

/-- The values operands of some shapes may have. -/
def HoldAll (operands : List GenericOperand) (shapes : List (List Nat)) (tensors : List Tensor) :
    Prop :=
  List.Forall₂ (fun operand tensor => operand.1.Holds operand.2 tensor)
    (operands.zip shapes) tensors

/-- Element `k` of a result of relu, from the iteration that writes it last. If there
is none, or it reads another element, only constants can make up for it. -/
def ElementAgrees (input init : GenericOperand) (bounds shape : List Nat) (k : Nat) : Prop :=
  match RowMajor.lastWriter (init.map.place shape) (RowMajor.indices bounds) k with
  | some index => input.map.place shape index = k ∨ ∃ attr, input.constant = some attr ∧
      (strelaRelu (attr.words shape.prod))[input.map.place shape index]? =
        (strelaRelu (attr.words shape.prod))[k]?
  | none => ∃ attr initAttr, input.constant = some attr ∧ init.constant = some initAttr ∧
      (initAttr.words shape.prod)[k]? = (strelaRelu (attr.words shape.prod))[k]?

/-- The input and the result of a relu have one shape, and the iteration that writes
an element of the result last reads the same element of the input. -/
def ReluAgrees (genericOp : GenericOp) (bounds : List Nat)
    (inputShapes initShapes : List (List Nat)) : Prop :=
  ∃ input init shape, genericOp.inputs.head? = some input ∧ genericOp.inits.head? = some init ∧
    inputShapes.head? = some shape ∧ initShapes.head? = some shape ∧
    ∀ k < shape.prod, ElementAgrees input init bounds shape k

/-- The op denotes what it is replaced by, whatever its operands hold. -/
def Preserved (genericOp : GenericOp) (op : StrelaOp) (scalars : Scalars) (bounds : List Nat)
    (inputShapes initShapes : List (List Nat)) : Prop :=
  ∀ inputs inits, HoldAll genericOp.inputs inputShapes inputs →
    HoldAll genericOp.inits initShapes inits →
    genericOp.denote scalars bounds inputs inits = (op.denote inputs).toList

/-- Every operand has a value, one with any given words unless it is a constant. -/
theorem GenericOperand.Shaped.exists_holds {bounds shape : List Nat} {operand : GenericOperand}
    (shaped : operand.Shaped bounds shape) (words : List (BitVec 32))
    (whole : words.length = shape.prod) :
    ∃ tensor, operand.Holds shape tensor ∧ (operand.constant = none → tensor.words = words) := by
  cases isConstant : operand.constant with
  | none => exact ⟨⟨shape, words, whole⟩, ⟨rfl, by simp [isConstant]⟩, fun _ => rfl⟩
  | some attr =>
      have length : (attr.words shape.prod).length = shape.prod := by
        cases attr with
        | splat value => simp [DenseIntElementsAttr.words]
        | list values => simpa [DenseIntElementsAttr.words] using shaped.elements values isConstant
      refine ⟨⟨shape, attr.words shape.prod, length⟩, ⟨rfl, fun attr' same => ?_⟩,
        fun none => by cases none⟩
      rw [isConstant] at same
      cases same
      rfl

section

variable {genericOp : GenericOp} {init : GenericOperand} (scalars : Scalars)

theorem eval_add {lhs rhs : BodyValue} (matched : Matched genericOp (.addi lhs rhs) init)
    (order : (lhs = .argument 0 ∧ rhs = .argument 1) ∨ (lhs = .argument 1 ∧ rhs = .argument 0))
    (a b : BitVec 32) (rest : List (BitVec 32)) :
    genericOp.block.eval scalars ([a, b] ++ rest) = [a + b] := by
  rw [matched.block]
  rcases order with ⟨rfl, rfl⟩ | ⟨rfl, rfl⟩
  · rfl
  · simp [Block.eval, BodyOp.eval, BodyValue.eval, BitVec.add_comm]

theorem eval_relu {rhs : BodyValue} (matched : Matched genericOp (.maxsi (.argument 0) rhs) init)
    (arguments : List (BitVec 32)) (zero : rhs.eval scalars arguments [] = 0) :
    genericOp.block.eval scalars arguments = [maxsi (arguments.getD 0 0) 0] := by
  rw [matched.block]
  simp only [Block.eval, List.foldl_cons, List.foldl_nil, List.nil_append,
    List.map_cons, List.map_nil, BodyOp.eval, zero]
  rfl

/-- A scalar constant of zero is zero. -/
theorem constantInt_zero {rhs : BodyValue} (isZero : rhs.constantInt.any APInt.isZero = true)
    (arguments results : List (BitVec 32)) : rhs.eval scalars arguments results = 0 := by
  unfold BodyValue.constantInt at isZero
  split at isZero
  · rename_i value constant
    cases constant with
    | none => cases isZero
    | some a =>
        have none : a.bits.toNat = 0 := by simpa [APInt.isZero] using isZero
        apply BitVec.eq_of_toNat_eq
        simp [BodyValue.eval, none]
  · cases isZero

end

theorem GenericOperand.Shaped.place_identity {bounds shape index : List Nat}
    {operand : GenericOperand} (shaped : operand.Shaped bounds shape)
    (identity : operand.map.isIdentity = true) (member : index ∈ RowMajor.indices bounds) :
    operand.map.place shape index = RowMajor.linearize bounds index := by
  rw [AffineMap.place, AffineMap.eval_identity identity, shaped.identity identity]
  rw [shaped.dims, RowMajor.length_of_mem_indices member]

/-- The words of an elementwise result, where each is written last by an iteration. -/
theorem scatter_eq {bounds shape : List Nat} {init : GenericOperand} {out : Tensor}
    (initShaped : init.Shaped bounds shape) (outShape : out.shape = shape)
    (word : List Nat → BitVec 32) (k : Nat) (inside : k < shape.prod) :
    (RowMajor.scatter (init.map.place out.shape) word (RowMajor.indices bounds) out.words)[k]? =
      (RowMajor.lastWriter (init.map.place shape) (RowMajor.indices bounds) k).elim out.words[k]?
        fun index => some (word index) := by
  subst outShape
  exact RowMajor.scatter_getElem? _ _ _ _ _ (by rw [out.whole]; exact inside)

/-- An accepted add adds, element by element. -/
theorem add_preserved {genericOp : GenericOp} (accepted : isStrelaLinalgAdd genericOp = true)
    (type : TensorType) (scalars : Scalars) {bounds : List Nat}
    {inputShapes initShapes : List (List Nat)}
    (inputsShaped : List.Forall₂ (GenericOperand.Shaped bounds) genericOp.inputs inputShapes)
    (initsShaped : List.Forall₂ (GenericOperand.Shaped bounds) genericOp.inits initShapes) :
    Preserved genericOp { kind := .add type, inputs := [0, 1] } scalars bounds
      inputShapes initShapes := by
  obtain ⟨first, second, init, lhs, rhs, matched, isInputs, order, firstMap, secondMap, initMap⟩ :=
    isStrelaLinalgAdd_ok accepted
  rw [isInputs] at inputsShaped
  rw [matched.inits] at initsShaped
  obtain _ | ⟨firstShaped, _ | ⟨secondShaped, _ | _⟩⟩ := inputsShaped
  obtain _ | ⟨initShaped, _ | _⟩ := initsShaped
  intro inputs inits inputsHold initsHold
  rw [HoldAll, isInputs] at inputsHold
  rw [HoldAll, matched.inits] at initsHold
  obtain _ | ⟨aHolds, _ | ⟨bHolds, _ | _⟩⟩ := inputsHold
  obtain _ | ⟨outHolds, _ | _⟩ := initsHold
  rename_i a b out
  have aShape := aHolds.shaped.trans (firstShaped.identity firstMap)
  have bShape := bHolds.shaped.trans (secondShaped.identity secondMap)
  have outShape := outHolds.shaped.trans (initShaped.identity initMap)
  obtain ⟨result, denotes, resultShape, resultWords⟩ :=
    denote_scatter matched.inits scalars bounds [a, b] out
    (fun index => a.read first.map index + b.read second.map index) fun index out' => by
      rw [isInputs]
      exact eval_add scalars matched order _ _ _
  have same : a.shape = b.shape := aShape.trans bShape.symm
  rw [denotes]
  simp only [StrelaOp.denote, List.map_cons, List.map_nil, List.getElem?_cons_zero,
    List.getElem?_cons_succ, Tensor.strelaAdd, same, ↓reduceDIte, Option.toList_some]
  congr 1
  refine Tensor.ext_words (by rw [resultShape, outShape, bShape]) fun k inside => ?_
  rw [resultShape, outHolds.shaped] at inside
  rw [resultWords, scatter_eq initShaped outHolds.shaped _ k inside]
  rw [initShaped.identity initMap] at inside
  -- The iteration of the element itself writes it, so some iteration does last.
  obtain ⟨own, ownMember, ownPlace⟩ := RowMajor.exists_index inside
  have initPlace := initShaped.place_identity initMap ownMember
  rw [ownPlace] at initPlace
  cases last : RowMajor.lastWriter (init.map.place _) (RowMajor.indices bounds) k with
  | none => exact absurd (initPlace ▸ last) (RowMajor.lastWriter_ne_none _ ownMember)
  | some index =>
      obtain ⟨member, place⟩ := RowMajor.lastWriter_some _ last
      rw [initShaped.place_identity initMap member] at place
      have aPlace : first.map.place a.shape index = k := by
        rw [aHolds.shaped, firstShaped.place_identity firstMap member, place]
      have bPlace : second.map.place b.shape index = k := by
        rw [bHolds.shaped, secondShaped.place_identity secondMap member, place]
      have aWord := Tensor.read_eq a first.map index
        (by rw [aPlace, aShape]; exact inside)
      have bWord := Tensor.read_eq b second.map index
        (by rw [bPlace, bShape]; exact inside)
      rw [aPlace] at aWord
      rw [bPlace] at bWord
      simp [Estela.Compiler.strelaAdd, List.getElem?_zipWith, aWord, bWord]

/-- A tensor of zeros reads as zero. -/
theorem read_zero {operand : GenericOperand} {shape : List Nat} {tensor : Tensor}
    (isZero : isZeroSplat operand = true) (holds : operand.Holds shape tensor) (index : List Nat) :
    tensor.read operand.map index = 0 := by
  unfold isZeroSplat at isZero
  split at isZero
  · rename_i value isConstant
    have none : value.bits.toNat = 0 := by simpa [APInt.isZero] using isZero
    have zero : value.bits.setWidth 32 = 0 := by
      apply BitVec.eq_of_toNat_eq
      simp [none]
    rw [Tensor.read, holds.fixed _ isConstant, DenseIntElementsAttr.words, zero,
      List.getD_eq_getElem?_getD, List.getElem?_replicate]
    split <;> rfl
  · cases isZero

section

variable {genericOp : GenericOp} {input init : GenericOperand} {zeros : List GenericOperand}
  {rhs : BodyValue} (matched : Matched genericOp (.maxsi (.argument 0) rhs) init)
  (isInputs : genericOp.inputs = input :: zeros)
  (zero : (zeros = [] ∧ rhs.constantInt.any APInt.isZero = true) ∨
    ∃ operand, zeros = [operand] ∧ rhs = .argument 1 ∧ isZeroSplat operand = true)
  (scalars : Scalars) (bounds : List Nat) {inputShape initShape : List Nat}
  {zeroShapes : List (List Nat)}
  (a out : Tensor) {zs : List Tensor} (zerosHold : HoldAll zeros zeroShapes zs)
  (shapes : zeros.length = zeroShapes.length)

include matched isInputs zero zerosHold shapes

/-- What an accepted relu denotes. -/
theorem relu_denotes :
    ∃ result, genericOp.denote scalars bounds (a :: zs) [out] = [result] ∧
      result.shape = out.shape ∧
      result.words = RowMajor.scatter (init.map.place out.shape)
        (fun index => maxsi (a.read input.map index) 0)
        (RowMajor.indices bounds) out.words := by
  refine denote_scatter matched.inits scalars bounds (a :: zs) out _ fun index out' => ?_
  rw [isInputs]
  refine eval_relu scalars matched _ ?_
  rcases zero with ⟨-, isConstant⟩ | ⟨operand, rfl, rfl, isZero⟩
  · exact constantInt_zero scalars isConstant _ _
  · obtain ⟨shape, rfl⟩ := List.length_eq_one_iff.mp shapes.symm
    obtain _ | ⟨holds, _ | _⟩ := zerosHold
    exact read_zero isZero holds index

end

theorem strelaRelu_getElem? (words : List (BitVec 32)) (k : Nat) :
    (strelaRelu words)[k]? = words[k]?.map (maxsi · 0) := by simp [strelaRelu]

/-- An element of the result and the element it should be, for some input and init. -/
theorem element_eq {bounds shape : List Nat} {input init : GenericOperand} {a out result : Tensor}
    (inputShaped : input.Shaped bounds shape) (initShaped : init.Shaped bounds shape)
    (aShape : a.shape = shape) (outShape : out.shape = shape)
    (words : result.words = RowMajor.scatter (init.map.place out.shape)
      (fun index => maxsi (a.read input.map index) 0) (RowMajor.indices bounds) out.words)
    (k : Nat) (inside : k < shape.prod) :
    result.words[k]? = (RowMajor.lastWriter (init.map.place shape) (RowMajor.indices bounds) k).elim
      out.words[k]? fun index => (strelaRelu a.words)[input.map.place shape index]? := by
  rw [words, scatter_eq initShaped outShape _ k inside]
  cases last : RowMajor.lastWriter (init.map.place shape) (RowMajor.indices bounds) k with
  | none => rfl
  | some index =>
      obtain ⟨member, -⟩ := RowMajor.lastWriter_some _ last
      have word := Tensor.read_eq a input.map index
        (by rw [aShape]; exact inputShaped.place_lt member)
      rw [aShape] at word
      simp [strelaRelu_getElem?, word]

/-- Relu never gives a negative word. -/
theorem maxsi_zero_ne (word : BitVec 32) : maxsi word 0 ≠ BitVec.allOnes 32 := by
  unfold maxsi
  split
  · rename_i positive
    rintro rfl
    exact absurd positive (by decide)
  · decide

/-- The values of an input and an init under which an element is right. -/
def ElementRight (input init : GenericOperand) (bounds shape : List Nat) (k : Nat)
    (a out : Tensor) : Prop :=
  (RowMajor.lastWriter (init.map.place shape) (RowMajor.indices bounds) k).elim out.words[k]?
    (fun index => (strelaRelu a.words)[input.map.place shape index]?) = (strelaRelu a.words)[k]?

section

variable {bounds shape : List Nat} {input init : GenericOperand}
  (inputShaped : input.Shaped bounds shape)

include inputShaped

/-- An element nothing is written to is right for all values only if constants make it so. -/
theorem unwritten_right_iff (initShaped : init.Shaped bounds shape) {k : Nat}
    (inside : k < shape.prod) :
    (∀ a out, input.Holds shape a → init.Holds shape out →
      out.words[k]? = (strelaRelu a.words)[k]?) ↔
      ∃ attr initAttr, input.constant = some attr ∧ init.constant = some initAttr ∧
        (initAttr.words shape.prod)[k]? = (strelaRelu (attr.words shape.prod))[k]? := by
  have some_in (word : BitVec 32) :=
    inputShaped.exists_holds (List.replicate shape.prod word) (by simp)
  constructor
  · intro right
    obtain ⟨out, outHolds, outWords⟩ :=
      initShaped.exists_holds (List.replicate shape.prod (BitVec.allOnes 32)) (by simp)
    cases isInit : init.constant with
    | none =>
        -- A result nothing is written to may be negative.
        obtain ⟨a, aHolds, -⟩ := some_in 0
        have equal := right a out aHolds outHolds
        have bound : k < a.words.length := by rw [a.whole, aHolds.shaped]; exact inside
        rw [outWords isInit, strelaRelu_getElem?, List.getElem?_replicate, if_pos inside,
          List.getElem?_eq_getElem bound, Option.map_some, Option.some.injEq] at equal
        exact absurd equal.symm (maxsi_zero_ne _)
    | some initAttr =>
        cases isInput : input.constant with
        | none =>
            obtain ⟨a, aHolds, aWords⟩ := some_in 0
            obtain ⟨b, bHolds, bWords⟩ := some_in 1
            have first := right a out aHolds outHolds
            have second := right b out bHolds outHolds
            rw [first, strelaRelu_getElem?, strelaRelu_getElem?, aWords isInput, bWords isInput,
              List.getElem?_replicate, List.getElem?_replicate, if_pos inside, if_pos inside,
              Option.map_some, Option.map_some, Option.some.injEq] at second
            exact absurd second (by decide)
        | some attr =>
            obtain ⟨a, aHolds, -⟩ := some_in 0
            refine ⟨attr, initAttr, rfl, rfl, ?_⟩
            rw [← outHolds.fixed _ isInit, ← aHolds.fixed _ isInput]
            exact right a out aHolds outHolds
  · rintro ⟨attr, initAttr, isInput, isInit, equal⟩ a out aHolds outHolds
    rw [outHolds.fixed _ isInit, aHolds.fixed _ isInput]
    exact equal

/-- An element written from the one in place `source` is right for all values only if it is
that element, or constants make it so. -/
theorem written_right_iff {k source : Nat} (inside : k < shape.prod) (reads : source < shape.prod) :
    (∀ a, input.Holds shape a → (strelaRelu a.words)[source]? = (strelaRelu a.words)[k]?) ↔
      source = k ∨ ∃ attr, input.constant = some attr ∧
        (strelaRelu (attr.words shape.prod))[source]? =
          (strelaRelu (attr.words shape.prod))[k]? := by
  constructor
  · intro right
    by_cases same : source = k
    · exact Or.inl same
    -- A word that is one in the place read, and zero in the place meant.
    obtain ⟨a, aHolds, aWords⟩ := inputShaped.exists_holds
      ((List.range shape.prod).map fun i => if i = k then 0 else 1) (by simp)
    have equal := right a aHolds
    cases isInput : input.constant with
    | none =>
        rw [strelaRelu_getElem?, strelaRelu_getElem?, aWords isInput, List.getElem?_map,
          List.getElem?_map, List.getElem?_range inside, List.getElem?_range reads] at equal
        simp only [Option.map_some, same, ↓reduceIte, Option.some.injEq] at equal
        exact absurd equal (by decide)
    | some attr =>
        refine Or.inr ⟨attr, rfl, ?_⟩
        rw [← aHolds.fixed _ isInput]
        exact equal
  · rintro (same | ⟨attr, isInput, equal⟩) a aHolds
    · rw [same]
    · rw [aHolds.fixed _ isInput]
      exact equal

theorem elementRight_iff (initShaped : init.Shaped bounds shape) (k : Nat)
    (inside : k < shape.prod) :
    (∀ a out, input.Holds shape a → init.Holds shape out →
      ElementRight input init bounds shape k a out) ↔
      ElementAgrees input init bounds shape k := by
  unfold ElementRight ElementAgrees
  cases last : RowMajor.lastWriter (init.map.place shape) (RowMajor.indices bounds) k with
  | none => exact unwritten_right_iff inputShaped initShaped inside
  | some index =>
      obtain ⟨member, -⟩ := RowMajor.lastWriter_some _ last
      obtain ⟨out, outHolds, -⟩ :=
        initShaped.exists_holds (List.replicate shape.prod (BitVec.allOnes 32)) (by simp)
      refine Iff.trans ⟨fun right a aHolds => right a out aHolds outHolds,
        fun right a _ aHolds _ => right a aHolds⟩ ?_
      exact written_right_iff inputShaped inside (inputShaped.place_lt member)

end

theorem exists_holdAll {bounds : List Nat} {operands : List GenericOperand}
    {shapes : List (List Nat)}
    (shaped : List.Forall₂ (GenericOperand.Shaped bounds) operands shapes) :
    ∃ tensors, HoldAll operands shapes tensors := by
  induction shaped with
  | nil => exact ⟨[], .nil⟩
  | @cons operand shape operands shapes head _ ih =>
      obtain ⟨tensors, rest⟩ := ih
      obtain ⟨tensor, holds, -⟩ := head.exists_holds (List.replicate shape.prod 0) (by simp)
      exact ⟨tensor :: tensors, .cons holds rest⟩

/-- An accepted relu is preserved exactly if its result agrees with its input. -/
theorem relu_preserved_iff {genericOp : GenericOp} (accepted : isStrelaLinalgRelu genericOp = true)
    (type : TensorType) (scalars : Scalars) {bounds : List Nat}
    {inputShapes initShapes : List (List Nat)}
    (inputsShaped : List.Forall₂ (GenericOperand.Shaped bounds) genericOp.inputs inputShapes)
    (initsShaped : List.Forall₂ (GenericOperand.Shaped bounds) genericOp.inits initShapes) :
    Preserved genericOp { kind := .relu type, inputs := [0] } scalars bounds
      inputShapes initShapes ↔
      ReluAgrees genericOp bounds inputShapes initShapes := by
  obtain ⟨input, zeros, init, rhs, matched, isInputs, zero⟩ := isStrelaLinalgRelu_ok accepted
  rw [isInputs] at inputsShaped
  rw [matched.inits] at initsShaped
  obtain _ | ⟨inputShaped, zerosShaped⟩ := inputsShaped
  obtain _ | ⟨initShaped, _ | _⟩ := initsShaped
  rename_i inputShape zeroShapes initShape
  have agrees_iff : ReluAgrees genericOp bounds (inputShape :: zeroShapes) [initShape] ↔
      inputShape = initShape ∧ ∀ k < initShape.prod,
      ElementAgrees input init bounds initShape k := by
    simp only [ReluAgrees, isInputs, matched.inits, List.head?_cons, Option.some.injEq]
    constructor
    · rintro ⟨_, _, shape, rfl, rfl, rfl, rfl, all⟩
      exact ⟨rfl, all⟩
    · rintro ⟨rfl, all⟩
      exact ⟨input, init, inputShape, rfl, rfl, rfl, rfl, all⟩
  have denotes (a out : Tensor) (zs : List Tensor) (zerosHold : HoldAll zeros zeroShapes zs) :=
    relu_denotes matched isInputs zero scalars bounds a out zerosHold zerosShaped.length_eq
  rw [agrees_iff]
  constructor
  · intro preserved
    obtain ⟨zs, zerosHold⟩ := exists_holdAll zerosShaped
    have whole (a out : Tensor) (aHolds : input.Holds inputShape a)
      (outHolds : init.Holds initShape out) :
        ∃ result, result.shape = out.shape ∧ result = a.strelaRelu ∧
          result.words = RowMajor.scatter (init.map.place out.shape)
            (fun index => maxsi (a.read input.map index) 0)
              (RowMajor.indices bounds) out.words := by
      obtain ⟨result, isResult, shape, words⟩ := denotes a out zs zerosHold
      refine ⟨result, shape, ?_, words⟩
      have same := preserved (a :: zs) [out]
        (by rw [HoldAll, isInputs]; exact .cons aHolds zerosHold)
        (by rw [HoldAll, matched.inits]; exact .cons outHolds .nil)
      rw [isResult] at same
      exact List.singleton_injective same
    obtain ⟨a, aHolds, -⟩ := inputShaped.exists_holds (List.replicate inputShape.prod 0) (by simp)
    obtain ⟨out, outHolds, -⟩ := initShaped.exists_holds (List.replicate initShape.prod 0) (by simp)
    obtain ⟨result, shape, isRelu, -⟩ := whole a out aHolds outHolds
    obtain rfl : inputShape = initShape := by
      rw [← aHolds.shaped, ← outHolds.shaped, ← shape, isRelu]
      rfl
    refine ⟨rfl, fun k inside => (elementRight_iff inputShaped initShaped k inside).mp ?_⟩
    intro a out aHolds outHolds
    obtain ⟨result, -, isRelu, words⟩ := whole a out aHolds outHolds
    have element := element_eq inputShaped initShaped aHolds.shaped outHolds.shaped words k inside
    rw [isRelu] at element
    exact element.symm
  · rintro ⟨rfl, agree⟩ inputs inits inputsHold initsHold
    rw [HoldAll, isInputs] at inputsHold
    rw [HoldAll, matched.inits] at initsHold
    obtain _ | ⟨aHolds, zerosHold⟩ := inputsHold
    obtain _ | ⟨outHolds, _ | _⟩ := initsHold
    rename_i a zs out
    obtain ⟨result, isResult, shape, words⟩ := denotes a out zs zerosHold
    rw [isResult]
    show [result] = [a.strelaRelu]
    congr 1
    refine Tensor.ext_words (by rw [shape, outHolds.shaped, ← aHolds.shaped]; rfl)
      fun k inside => ?_
    rw [shape, outHolds.shaped] at inside
    rw [element_eq inputShaped initShaped aHolds.shaped outHolds.shaped words k inside]
    exact (elementRight_iff inputShaped initShaped k inside).mpr
      (agree k inside) a out aHolds outHolds

/-- What a generic op may be replaced by. -/
theorem convertLinalgToStrela_some {genericOp : GenericOp} {lowered : StrelaOp}
    (converted : convertLinalgToStrela genericOp = some lowered) :
    ∃ type, genericOp.resultTypes.head? = some type ∧
      ((isStrelaLinalgAdd genericOp = true ∧ lowered = { kind := .add type, inputs := [0, 1] }) ∨
        (isStrelaLinalgAdd genericOp = false ∧ isStrelaLinalgRelu genericOp = true ∧
          lowered = { kind := .relu type, inputs := [0] })) := by
  unfold convertLinalgToStrela convertLinalgAddToStrela convertLinalgReluToStrela at converted
  cases isType : genericOp.resultTypes.head? with
  | none =>
      rw [isType] at converted
      simp only [Option.map_none, ite_self] at converted
      cases converted
  | some type =>
      refine ⟨type, rfl, ?_⟩
      rw [isType] at converted
      cases isAdd : isStrelaLinalgAdd genericOp with
      | true =>
          simp only [isAdd, ↓reduceIte] at converted
          cases converted
          exact Or.inl ⟨rfl, rfl⟩
      | false =>
          cases isRelu : isStrelaLinalgRelu genericOp with
          | true =>
              simp only [isAdd, isRelu, Bool.false_eq_true, ↓reduceIte] at converted
              cases converted
              exact Or.inr ⟨rfl, rfl, rfl⟩
          | false =>
              simp only [isAdd, isRelu, Bool.false_eq_true, ↓reduceIte] at converted
              cases converted

/-- The op that replaces a generic op computes what it denotes, whatever the operands
hold, exactly if it is an add, or a relu whose result agrees with its input. -/
theorem convertLinalgToStrela_preserved_iff {genericOp : GenericOp} {lowered : StrelaOp}
    (converted : convertLinalgToStrela genericOp = some lowered) (scalars : Scalars)
    {bounds : List Nat} {inputShapes initShapes : List (List Nat)}
    (inputsShaped : List.Forall₂ (GenericOperand.Shaped bounds) genericOp.inputs inputShapes)
    (initsShaped : List.Forall₂ (GenericOperand.Shaped bounds) genericOp.inits initShapes) :
    Preserved genericOp lowered scalars bounds inputShapes initShapes ↔
      isStrelaLinalgAdd genericOp = true ∨ ReluAgrees genericOp bounds inputShapes initShapes := by
  obtain ⟨type, -, ⟨isAdd, rfl⟩ | ⟨notAdd, isRelu, rfl⟩⟩ := convertLinalgToStrela_some converted
  · exact iff_of_true (add_preserved isAdd type scalars inputsShaped initsShaped) (Or.inl isAdd)
  · rw [relu_preserved_iff isRelu type scalars inputsShaped initsShaped, notAdd]
    simp

def squareType : TensorType := .ranked [some 2, some 2] (.integer 32)

def squareMap (transposed : Bool) : AffineMap where
  numDims := 2
  results := if transposed then [.dim 1, .dim 0] else [.dim 0, .dim 1]

/-- Relu of a 2 by 2 matrix, or of its transpose. -/
def squareRelu (transposed : Bool) : GenericOp where
  inputs := [{ value := 0, type := squareType, map := squareMap transposed, constant := none }]
  inits := [{ value := 1, type := squareType, map := squareMap false, constant := none }]
  resultTypes := [squareType]
  iteratorTypes := [.parallel, .parallel]
  block := ⟨[.maxsi (.argument 0) (.captured 2 (some ⟨32, 0⟩))], [.result 0]⟩
  pureTensorSemantics := true

theorem squareShaped (value : Nat) (transposed : Bool) :
    GenericOperand.Shaped [2, 2]
      { value, type := squareType, map := squareMap transposed, constant := none } [2, 2] where
  dims := by rfl
  rank := by cases transposed <;> rfl
  extents := by
    intro p i found
    obtain _ | _ | p := p <;> cases transposed <;> simp [squareMap] at found <;> subst found <;> rfl
  inside := by
    have all : ∀ transposed, ∀ index ∈ RowMajor.indices [2, 2],
        (squareMap transposed).eval index ∈ RowMajor.indices [2, 2] := by decide
    exact all transposed
  elements := by simp

theorem convertLinalgToStrela_preserved_iff_sample :
    Preserved (squareRelu false) { kind := .relu squareType, inputs := [0] }
      ⟨fun _ => 0, fun _ _ => 0⟩ [2, 2]
        [[2, 2]] [[2, 2]] ↔
      isStrelaLinalgAdd (squareRelu false) = true ∨
      ReluAgrees (squareRelu false) [2, 2] [[2, 2]] [[2, 2]] :=
  convertLinalgToStrela_preserved_iff (by decide) _ (.cons (squareShaped 0 false) .nil)
    (.cons (squareShaped 1 false) .nil)

def squareTensor (words : List (BitVec 32)) (whole : words.length = 4) : Tensor where
  shape := [2, 2]
  words := words
  whole := whole

/-- A relu of the transpose is replaced by one of the matrix as it is. -/
theorem convertLinalgToStrela_ignores_transpose :
    convertLinalgToStrela (squareRelu true) = some { kind := .relu squareType, inputs := [0] } ∧
      ¬ Preserved (squareRelu true) { kind := .relu squareType, inputs := [0] }
        ⟨fun _ => 0, fun _ _ => 0⟩ [2, 2]
        [[2, 2]] [[2, 2]] := by
  refine ⟨by decide, fun preserved => ?_⟩
  have same := congrArg (List.map Tensor.words) (preserved [squareTensor [0, 1, 0, 0] rfl]
    [squareTensor [0, 0, 0, 0] rfl] (.cons ⟨rfl, by simp⟩ .nil)
    (.cons ⟨rfl, by simp⟩ .nil))
  exact absurd same (by decide)

end Estela.Compiler
