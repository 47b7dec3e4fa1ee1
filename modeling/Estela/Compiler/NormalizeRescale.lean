import Estela.Lib.NdArray
import Estela.Compiler.DispatchIr

set_option autoImplicit false

/- The lowering of `tosa.rescale` with a dynamic batch to a loop over the batch, and what
the op and the loop denote. -/
namespace Estela.Compiler.NormalizeRescale

open RowMajor (NdArray Span indices slab)

inductive RoundingMode
  | singleRound
  | inexactRound
  | doubleRound
  deriving DecidableEq, Repr

/-- The attributes of `tosa.rescale`. -/
structure RescaleAttrs where
  scale32 : Bool
  roundingMode : RoundingMode
  perChannel : Bool
  inputUnsigned : Bool
  outputUnsigned : Bool
  deriving DecidableEq, Repr

/-- `tosa::RescaleOp`, without the operands that every rewrite hands on as they are. -/
structure RescaleOp where
  inputType : TensorType
  outputType : TensorType
  attrs : RescaleAttrs
  deriving DecidableEq, Repr

/-- The values inside the loop: its induction variable, and `tensor.dim` of the input. -/
inductive LoopValue
  | iv
  | inputDim (dim : Nat)
  deriving DecidableEq, Repr

/-- The `tensor.empty`, the `scf.for` and what is in its body. -/
structure DynamicBatchLoop where
  initShape : List (Option Nat)
  initElement : ElementType
  dynSizes : List LoopValue
  lowerBound : OpFoldResult LoopValue
  upperBound : OpFoldResult LoopValue
  step : OpFoldResult LoopValue
  offsets : List (OpFoldResult LoopValue)
  sizes : List (OpFoldResult LoopValue)
  strides : List (OpFoldResult LoopValue)
  newRescale : RescaleOp
  deriving DecidableEq, Repr

/-- `isDynamicDim` of every dimension, from number `first` on: the dynamic ones are read
off the input. -/
def dynSizesFrom : Nat → List (Option Nat) → List LoopValue
  | _, [] => []
  | first, some _ :: dims => dynSizesFrom (first + 1) dims
  | first, none :: dims => .inputDim first :: dynSizesFrom (first + 1) dims

/-- The sizes of a slice in dimension `first` and those after it. -/
def sliceSizesFrom : Nat → List (Option Nat) → List (OpFoldResult LoopValue)
  | _, [] => []
  | first, some size :: dims => .attr size :: sliceSizesFrom (first + 1) dims
  | first, none :: dims => .value (.inputDim first) :: sliceSizesFrom (first + 1) dims

/-- `DynamicBatchRewriter::matchAndRewrite`; none where the pattern does not apply. The
result of an op on a ranked tensor is ranked. -/
def dynamicBatchRewriter (rescaleOp : RescaleOp) : Option DynamicBatchLoop :=
  match rescaleOp.inputType, rescaleOp.outputType with
  | .ranked (none :: inputDims) inputElement, .ranked outputShape outputElement =>
      let rank := inputDims.length + 1
      some {
        initShape := outputShape
        initElement := outputElement
        dynSizes := dynSizesFrom 0 (outputShape.take rank)
        lowerBound := .attr 0
        upperBound := .value (.inputDim 0)
        step := .attr 1
        offsets := (List.replicate rank (.attr 0)).set 0 (.value .iv)
        sizes := .attr 1 :: sliceSizesFrom 1 inputDims
        strides := List.replicate rank (.attr 1)
        newRescale := {
          inputType := .ranked (some 1 :: inputDims) inputElement
          outputType := .ranked (outputShape.set 0 (some 1)) outputElement
          attrs := rescaleOp.attrs } }
  | _, _ => none

section

variable {α β μ σ ζ : Type}

/-- The operands after the first one: a multiplier and a shift for each channel, and the
zero points. -/
structure RescaleOperands (μ σ ζ : Type) where
  multiplier : Nat → μ
  shift : Nat → σ
  zeroPoints : ζ

/-- The channel of an element. -/
def RescaleAttrs.channel (attrs : RescaleAttrs) (index : List Nat) : Nat :=
  if attrs.perChannel then index.getLastD 0 else 0

variable (scale : RescaleAttrs → ζ → μ → σ → α → β) (operands : RescaleOperands μ σ ζ)

/-- One element: the arithmetic of `tosa.rescale`, whatever it is, with the parameters of a
channel. -/
def RescaleAttrs.rescale (attrs : RescaleAttrs) (channel : Nat) (value : α) : β :=
  scale attrs operands.zeroPoints (operands.multiplier channel) (operands.shift channel) value

/-- A value of the loop, and an attribute, in iteration `iv`. -/
def evalSize (input : NdArray α) (iv : Nat) : OpFoldResult LoopValue → Nat
  | .attr value => value.toNat
  | .value .iv => iv
  | .value (.inputDim dim) => input.shape.getD dim 0

/-- The window of the slices of iteration `iv`. -/
def DynamicBatchLoop.window (loop : DynamicBatchLoop) (input : NdArray α) (iv : Nat) : List Span :=
  List.zipWith (fun offset (size, stride) => ⟨offset, size, stride⟩)
    (loop.offsets.map (evalSize input iv))
    ((loop.sizes.map (evalSize input iv)).zip (loop.strides.map (evalSize input iv)))

variable [Inhabited α]

def RescaleOp.denote (rescaleOp : RescaleOp) (input : NdArray α) : NdArray β :=
  NdArray.ofFn input.shape fun index =>
    rescaleOp.attrs.rescale scale operands (rescaleOp.attrs.channel index) (input.get index)

/-- The body of the loop. -/
def DynamicBatchLoop.body (loop : DynamicBatchLoop) (input : NdArray α) (iv : Nat)
    (currentIterArg : NdArray (Option β)) : NdArray (Option β) :=
  let sliceInput := input.extractSlice (loop.window input iv)
  let rescaleResult := loop.newRescale.denote scale operands sliceInput
  NdArray.insertSlice (loop.window input iv) (rescaleResult.map some) currentIterArg

/-- The loop. An element of the `tensor.empty` is none. -/
def DynamicBatchLoop.denote (loop : DynamicBatchLoop) (input : NdArray α) : NdArray (Option β) :=
  let lowerBound := evalSize input 0 loop.lowerBound
  let upperBound := evalSize input 0 loop.upperBound
  let step := evalSize input 0 loop.step
  let dims := getMixedValues (loop.initShape.map (·.map Int.ofNat)) loop.dynSizes
  let initTensor := NdArray.ofFn (dims.map (evalSize input 0)) fun _ => none
  (List.range' lowerBound ((upperBound - lowerBound + step - 1) / step) step).foldl
    (fun currentIterArg iv => loop.body scale operands input iv currentIterArg) initTensor

end

/-- A dimension of a type, and a size it may have at run time. -/
def Agrees (dim : Option Nat) (size : Nat) : Prop := ∀ known, dim = some known → known = size

/-- The input has the given shape, and so has the output. -/
structure RescaleOp.Fits (rescaleOp : RescaleOp) (shape : List Nat) : Prop where
  input : ∃ dims element, rescaleOp.inputType = .ranked dims element ∧
    List.Forall₂ Agrees dims shape
  output : ∃ dims element, rescaleOp.outputType = .ranked dims element ∧
    List.Forall₂ Agrees dims shape

section

variable {α β μ σ ζ : Type} {input : NdArray α}

theorem inputDim_eval (before : List Nat) {size : Nat} {sizes : List Nat}
    (shape : input.shape = before ++ size :: sizes) : input.shape.getD before.length 0 = size := by
  rw [shape, List.getD_eq_getElem?_getD, List.getElem?_append_right (Nat.le_refl _), Nat.sub_self]
  rfl

/-- The sizes of a slice are those of the input. -/
theorem sliceSizes_eval (iv : Nat) (before : List Nat) {dims : List (Option Nat)} {sizes : List Nat}
    (shape : input.shape = before ++ sizes) (agrees : List.Forall₂ Agrees dims sizes) :
    (sliceSizesFrom before.length dims).map (evalSize input iv) = sizes := by
  induction agrees generalizing before with
  | nil => rfl
  | @cons dim size dims sizes here _ ih =>
      have rest := ih (before ++ [size]) (by rw [shape, List.append_assoc]; rfl)
      rw [List.length_append, List.length_singleton] at rest
      cases dim with
      | some known =>
          rw [sliceSizesFrom, List.map_cons, rest, here known rfl]
          rfl
      | none =>
          rw [sliceSizesFrom, List.map_cons, rest]
          exact congrArg (· :: sizes) (inputDim_eval before shape)

/-- The `tensor.empty` has the shape of the input. -/
theorem initSizes_eval (before : List Nat) {dims : List (Option Nat)} {sizes : List Nat}
    (shape : input.shape = before ++ sizes) (agrees : List.Forall₂ Agrees dims sizes) :
    (getMixedValues (dims.map (·.map Int.ofNat)) (dynSizesFrom before.length dims)).map
      (evalSize input 0) =
      sizes := by
  induction agrees generalizing before with
  | nil => rfl
  | @cons dim size dims sizes here _ ih =>
      have rest := ih (before ++ [size]) (by rw [shape, List.append_assoc]; rfl)
      rw [List.length_append, List.length_singleton] at rest
      cases dim with
      | some known =>
          rw [dynSizesFrom, List.map_cons, Option.map_some, getMixedValues, List.map_cons, rest,
            here known rfl]
          rfl
      | none =>
          rw [dynSizesFrom, List.map_cons, Option.map_none, getMixedValues, List.map_cons, rest]
          exact congrArg (· :: sizes) (inputDim_eval before shape)

/-- Offset 0 and stride 1 in every dimension but the first. -/
theorem window_whole (sizes : List Nat) :
    List.zipWith (fun offset (size, stride) => (⟨offset, size, stride⟩ : Span))
      (List.replicate sizes.length 0) (sizes.zip (List.replicate sizes.length 1)) =
      sizes.map fun size => ⟨0, size, 1⟩ := by
  induction sizes with
  | nil => rfl
  | cons size sizes ih =>
      rw [List.length_cons, List.replicate_succ, List.replicate_succ, List.zip_cons_cons,
        List.zipWith_cons_cons, ih, List.map_cons]

variable {rescaleOp : RescaleOp} {loop : DynamicBatchLoop}

/-- What the loop is made of, evaluated: iterations over the batch, a slab each. -/
structure Evaluated (rescaleOp : RescaleOp) (loop : DynamicBatchLoop) (input : NdArray α)
    (batch : Nat) (rest : List Nat) : Prop where
  shape : input.shape = batch :: rest
  init : (getMixedValues (loop.initShape.map (·.map Int.ofNat)) loop.dynSizes).map
      (evalSize input 0) =
    batch :: rest
  lower : evalSize input 0 loop.lowerBound = 0
  upper : evalSize input 0 loop.upperBound = batch
  step : evalSize input 0 loop.step = 1
  window : ∀ iv, loop.window input iv = slab iv rest
  attrs : loop.newRescale.attrs = rescaleOp.attrs

theorem dynamicBatchRewriter_evaluated (rewritten : dynamicBatchRewriter rescaleOp = some loop)
    (fits : rescaleOp.Fits input.shape) :
    ∃ batch rest, Evaluated rescaleOp loop input batch rest := by
  obtain ⟨inputDims, inputElement, inputType, inputAgrees⟩ := fits.input
  obtain ⟨outputDims, outputElement, outputType, outputAgrees⟩ := fits.output
  unfold dynamicBatchRewriter at rewritten
  rw [inputType, outputType] at rewritten
  cases shape : input.shape with
  | nil =>
      rw [shape, List.forall₂_nil_right_iff] at inputAgrees
      rw [inputAgrees] at rewritten
      cases rewritten
  | cons batch rest =>
      rw [shape] at inputAgrees outputAgrees
      cases inputAgrees with
      | @cons dim _ dims _ _ tail =>
        cases dim with
        | some known => cases rewritten
        | none =>
          cases rewritten
          have inputShape : input.shape = [batch] ++ rest := shape
          have upper : input.shape.getD 0 0 = batch := inputDim_eval [] shape
          have sizes (iv : Nat) : (sliceSizesFrom 1 dims).map (evalSize input iv) = rest :=
            sliceSizes_eval iv [batch] inputShape tail
          refine ⟨batch, rest, shape, ?_, rfl, ?_, rfl, ?_, rfl⟩
          · have rank : outputDims.length = dims.length + 1 := by
              rw [outputAgrees.length_eq, List.length_cons, tail.length_eq]
            rw [← rank, List.take_length]
            exact initSizes_eval [] shape outputAgrees
          · exact upper
          · intro iv
            have whole := window_whole rest
            unfold DynamicBatchLoop.window slab
            simp only [List.replicate_succ, List.set_cons_zero, List.map_cons, List.map_replicate,
              List.zip_cons_cons, List.zipWith_cons_cons, sizes iv, tail.length_eq]
            exact congrArg (⟨iv, 1, 1⟩ :: ·) whole

variable [Inhabited α] (scale : RescaleAttrs → ζ → μ → σ → α → β) (operands : RescaleOperands μ σ ζ)

/-- Every element is written, and with the channel it has in its slice. -/
theorem Evaluated.element {batch : Nat} {rest : List Nat}
    (evaluated : Evaluated rescaleOp loop input batch rest) :
    (loop.denote scale operands input).shape = batch :: rest ∧
      ∀ head < batch, ∀ tail ∈ indices rest,
        (loop.denote scale operands input).get (head :: tail) =
          some (rescaleOp.attrs.rescale scale operands (rescaleOp.attrs.channel (0 :: tail))
            (input.get (head :: tail))) := by
  have loop_ : loop.denote scale operands input =
      (List.range batch).foldl (fun acc iv => NdArray.insertSlice (slab iv rest)
        ((loop.newRescale.denote scale operands (input.extractSlice (slab iv rest))).map some) acc)
        (NdArray.ofFn (batch :: rest) fun _ => none) := by
    unfold DynamicBatchLoop.denote DynamicBatchLoop.body
    simp only [evaluated.lower, evaluated.upper, evaluated.step, evaluated.init, evaluated.window,
      Nat.sub_zero, Nat.add_sub_cancel, Nat.div_one]
    rw [List.range_eq_range']
  obtain ⟨shape, elements⟩ := NdArray.get_foldl_insert
    (fun iv => (loop.newRescale.denote scale operands (input.extractSlice (slab iv rest))).map some)
    (NdArray.ofFn (batch :: rest) fun _ => (none : Option β)) rfl batch
  rw [loop_]
  refine ⟨shape, fun head below tail member => ?_⟩
  have inSlice : 0 :: tail ∈ indices (input.extractSlice (slab head rest)).shape := by
    change 0 :: tail ∈ indices ((slab head rest).map (·.size))
    rw [RowMajor.slab_sizes]
    exact RowMajor.cons_mem_indices.mpr ⟨Nat.one_pos, member⟩
  rw [elements head below tail member, if_pos below]
  unfold RescaleOp.denote
  rw [NdArray.map_ofFn, NdArray.get_ofFn _ inSlice, NdArray.get_extract_slab input head member,
    evaluated.attrs]

/-- The channel of a slice's element is the element's own, unless the batch is the only
dimension: then it is channel 0. -/
theorem channel_slice (attrs : RescaleAttrs) (head : Nat) (tail : List Nat)
    (apart : tail ≠ [] ∨ attrs.perChannel = false) :
    attrs.channel (0 :: tail) = attrs.channel (head :: tail) := by
  unfold RescaleAttrs.channel
  rcases apart with some_ | whole
  · cases tail with
    | nil => exact absurd rfl some_
    | cons i tail => rfl
  · rw [whole]
    rfl

theorem channel_batch (attrs : RescaleAttrs) (head : Nat) (perChannel : attrs.perChannel = true) :
    attrs.channel [head] = head := by
  unfold RescaleAttrs.channel
  rw [perChannel]
  rfl

variable [Inhabited β]

/-- The loop computes what the op does exactly if the channels are not the slices: the rank is
at least 2, there is one multiplier and one shift for all, or every element of the vector
rescales alike with the parameters of its own channel and those of channel 0. -/
theorem dynamicBatchRewriter_denote_iff (rescaleOp : RescaleOp) (loop : DynamicBatchLoop)
    (rewritten : dynamicBatchRewriter rescaleOp = some loop) (input : NdArray α)
    (fits : rescaleOp.Fits input.shape) :
    ((loop.denote scale operands input).shape = input.shape ∧ ∀ index ∈ indices input.shape,
      (loop.denote scale operands input).get index =
        some ((rescaleOp.denote scale operands input).get index)) ↔
      2 ≤ input.shape.length ∨ rescaleOp.attrs.perChannel = false ∨
        ∀ channel < input.shape.getD 0 0,
          rescaleOp.attrs.rescale scale operands channel (input.get [channel]) =
            rescaleOp.attrs.rescale scale operands 0 (input.get [channel]) := by
  obtain ⟨batch, rest, evaluated⟩ := dynamicBatchRewriter_evaluated rewritten fits
  obtain ⟨shape, elements⟩ := evaluated.element scale operands
  have original (head : Nat) (below : head < batch) (tail : List Nat)
    (member : tail ∈ indices rest) :
      (rescaleOp.denote scale operands input).get (head :: tail) =
        rescaleOp.attrs.rescale scale operands (rescaleOp.attrs.channel (head :: tail))
          (input.get (head :: tail)) := by
    have inside : head :: tail ∈ indices input.shape := by
      rw [evaluated.shape]
      exact RowMajor.cons_mem_indices.mpr ⟨below, member⟩
    unfold RescaleOp.denote
    rw [NdArray.get_ofFn _ inside]
  rw [shape, evaluated.shape]
  constructor
  · rintro ⟨_, same⟩
    by_cases ranks : rest = []
    · subst ranks
      by_cases perChannel : rescaleOp.attrs.perChannel = false
      · exact Or.inr (Or.inl perChannel)
      · refine Or.inr (Or.inr fun channel below => ?_)
        have each := same [channel]
          (RowMajor.cons_mem_indices.mpr ⟨below, List.mem_singleton.mpr rfl⟩)
        rw [elements channel below [] (List.mem_singleton.mpr rfl),
          original channel below [] (List.mem_singleton.mpr rfl)] at each
        have true_ := Bool.of_not_eq_false perChannel
        rw [channel_batch _ 0 true_, channel_batch _ channel true_] at each
        exact (Option.some.inj each).symm
    · refine Or.inl ?_
      have some_ := List.length_pos_iff.mpr ranks
      rw [List.length_cons]
      omega
  · intro condition
    refine ⟨rfl, fun index member => ?_⟩
    cases index with
    | nil => cases (RowMajor.mem_indices _ _).mp member
    | cons head tail =>
        obtain ⟨below, inside⟩ := RowMajor.cons_mem_indices.mp member
        rw [elements head below tail inside, original head below tail inside]
        congr 1
        by_cases apart : tail ≠ [] ∨ rescaleOp.attrs.perChannel = false
        · rw [channel_slice _ head tail apart]
        · obtain ⟨none_, true_⟩ := not_or.mp apart
          have empty : tail = [] := not_not.mp none_
          subst empty
          have single : rest = [] := by
            rw [RowMajor.mem_indices, List.forall₂_nil_left_iff] at inside
            exact inside
          subst single
          have vector : ¬ 2 ≤ [batch].length := Nat.not_succ_le_self 1
          have alike := (condition.resolve_left vector).resolve_left true_ head below
          have channels := Bool.of_not_eq_false true_
          rw [channel_batch _ 0 channels, channel_batch _ head channels]
          exact alike.symm

end

/-- The arithmetic with single rounding, where nothing is clamped. -/
def singleRoundScale (_attrs : RescaleAttrs) (zeroPoints : Int × Int) (multiplier : Int)
    (shift : Nat) (value : Int) : Int :=
  ((value - zeroPoints.1) * multiplier + (1 <<< (shift - 1) : Nat)) >>> shift + zeroPoints.2

/-- A rescale of a vector of unknown length, each element a channel. -/
def vectorRescale : RescaleOp where
  inputType := .ranked [none] (.integer 8)
  outputType := .ranked [none] (.integer 8)
  attrs := ⟨true, .singleRound, true, false, false⟩

def vectorOperands : RescaleOperands Int Nat (Int × Int) where
  multiplier := fun channel => [4, 2].getD channel 0
  shift := fun channel => [2, 2].getD channel 0
  zeroPoints := (0, 0)

/-- The op keeps 8 in channel 0 and halves it in channel 1; the loop keeps it in both. -/
theorem dynamicBatchRewriter_channelZero : ∃ loop, dynamicBatchRewriter vectorRescale = some loop ∧
    vectorRescale.Fits [2] ∧
    (vectorRescale.denote singleRoundScale vectorOperands ⟨[2], [8, 8], rfl⟩).elements = [8, 4] ∧
    (loop.denote singleRoundScale vectorOperands ⟨[2], [8, 8], rfl⟩).elements = [some 8, some 8] ∧
    ¬ ∀ index ∈ indices [2],
      (loop.denote singleRoundScale vectorOperands ⟨[2], [8, 8], rfl⟩).get index =
        some ((vectorRescale.denote singleRoundScale vectorOperands
          ⟨[2], [8, 8], rfl⟩).get index) := by
  have agrees : List.Forall₂ Agrees [none] [2] := .cons (fun _ known => nomatch known) .nil
  refine ⟨_, rfl, ⟨⟨_, _, rfl, agrees⟩, ⟨_, _, rfl, agrees⟩⟩, by decide, by decide, ?_⟩
  intro same
  exact absurd (same [1] (by decide)) (by decide)

/-- A rescale of a batch of pairs, each with channels of its own. -/
def pairRescale : RescaleOp where
  inputType := .ranked [none, some 2] (.integer 8)
  outputType := .ranked [none, some 2] (.integer 8)
  attrs := ⟨true, .singleRound, true, false, false⟩

theorem dynamicBatchRewriter_denote_iff_sample :
    ∃ loop, dynamicBatchRewriter pairRescale = some loop ∧
    ∀ index ∈ indices [3, 2],
      (loop.denote singleRoundScale vectorOperands ⟨[3, 2], [8, 8, 4, 4, -8, -8], rfl⟩).get index =
        some ((pairRescale.denote singleRoundScale vectorOperands
          ⟨[3, 2], [8, 8, 4, 4, -8, -8], rfl⟩).get index) := by
  have agrees : List.Forall₂ Agrees [none, some 2] [3, 2] :=
    .cons (fun _ known => nomatch known) (.cons (fun _ known => (Option.some.inj known).symm) .nil)
  refine ⟨_, rfl, ?_⟩
  exact ((dynamicBatchRewriter_denote_iff singleRoundScale vectorOperands pairRescale _ rfl
    ⟨[3, 2], [8, 8, 4, 4, -8, -8], rfl⟩ ⟨⟨_, _, rfl, agrees⟩, ⟨_, _, rfl, agrees⟩⟩).mpr
    (Or.inl (Nat.le_refl 2))).2

end Estela.Compiler.NormalizeRescale
