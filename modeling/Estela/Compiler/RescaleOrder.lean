import Estela.Lib.Rewriting
import Estela.Compiler.NormalizeRescale

set_option autoImplicit false

/- The rewriting of a whole function by NormalizeRescale, in any order. -/
namespace Estela.Compiler.NormalizeRescale

open Rewriting (Forest Steps Stuck)

/-- The values DynamicBatchRewriter makes, by its names for them. -/
inductive Made
  | c0
  | batchSize
  | dimIdx (dim : Nat)
  | dynSize (dim : Nat)
  | initTensor
  | step
  | iv
  | currentIterArg
  | sliceDimIdx (dim : Nat)
  | sliceSize (dim : Nat)
  | sliceInput
  | rescaleResult
  | insertedSlice
  deriving DecidableEq, Repr

/-- A value of the function as it was, or one made for the rescale with a given result. -/
inductive Value
  | given (number : Nat)
  | made (result : Value) (name : Made)
  deriving DecidableEq, Repr

/-- A `tosa.rescale` with its place among the values; `params` are the operands after
the input. -/
structure Rescale where
  op : RescaleOp
  input : Value
  params : List Value
  result : Value
  deriving DecidableEq, Repr

/-- What else is in a function: other operations, and the regions and blocks of those. -/
inductive Node
  | constantIndex (value : Nat) (result : Value)
  | tensorDim (source index result : Value)
  | tensorEmpty (shape : List (Option Nat)) (element : ElementType) (dynSizes : List Value)
      (result : Value)
  | scfFor (lowerBound upperBound step initTensor result : Value)
  | extractSlice (type : TensorType) (source : Value)
    (offsets sizes strides : List (OpFoldResult Value))
      (result : Value)
  | insertSlice (source dest : Value) (offsets sizes strides : List (OpFoldResult Value))
      (result : Value)
  | scfYield (value : Value)
  | region
  | block (arguments : List Value)
  | other (name : String) (operands results : List Value)
  deriving DecidableEq, Repr

/-- A `func::FuncOp`, or a part of it. The rescale ops have no regions. -/
abbrev Func := Forest Rescale Node

def RescaleOp.setSingleRound (op : RescaleOp) : RescaleOp :=
  { op with attrs := { op.attrs with roundingMode := .singleRound } }

/-- `DoubleRoundRewriter::matchAndRewrite`. -/
def DoubleRoundRewriter.matchAndRewrite (rescaleOp : Rescale) : Option Func :=
  if rescaleOp.op.attrs.roundingMode ≠ .doubleRound then none
  else some (.leaf { rescaleOp with op := rescaleOp.op.setSingleRound } .nil)

section

variable (result : Value)

/-- A value of the loop by its name inside the body. -/
def LoopValue.inBody : LoopValue → Value
  | .iv => .made result .iv
  | .inputDim dim => .made result (.sliceSize dim)

/-- The sizes of the `tensor.empty`. -/
def dynSizeOps (input : Value) : LoopValue → List Node
  | .iv => []
  | .inputDim dim => [
      .constantIndex dim (.made result (.dimIdx dim)),
      .tensorDim input (.made result (.dimIdx dim)) (.made result (.dynSize dim))]

def LoopValue.dynSize : LoopValue → Value
  | .iv => .made result .iv
  | .inputDim dim => .made result (.dynSize dim)

/-- The sizes of the slices. -/
def sliceSizeOps (input : Value) : OpFoldResult LoopValue → List Node
  | .value (.inputDim dim) => [
      .constantIndex dim (.made result (.sliceDimIdx dim)),
      .tensorDim input (.made result (.sliceDimIdx dim)) (.made result (.sliceSize dim))]
  | _ => []

/-- The body of the loop; `scf.for` has one region with one block. -/
def DynamicBatchLoop.bodyOps (loop : DynamicBatchLoop) (input : Value) (params : List Value) :
    Func :=
  let ofr (entries : List (OpFoldResult LoopValue)) :=
    entries.map (OpFoldResult.map (·.inBody result))
  Forest.flat (loop.sizes.flatMap (sliceSizeOps result input) ++
    [.extractSlice loop.newRescale.inputType input (ofr loop.offsets) (ofr loop.sizes)
      (ofr loop.strides) (.made result .sliceInput)]) ++
  .leaf {
    op := loop.newRescale
    input := .made result .sliceInput
    params
    result := .made result .rescaleResult }
  (Forest.flat [
    .insertSlice (.made result .rescaleResult) (.made result .currentIterArg) (ofr loop.offsets)
      (ofr loop.sizes) (ofr loop.strides) (.made result .insertedSlice),
    .scfYield (.made result .insertedSlice)])

/-- What stands in the place of the rescale op. The loop takes over its result. -/
def DynamicBatchLoop.ops (loop : DynamicBatchLoop) (input : Value) (params : List Value) : Func :=
  Forest.flat ([
    .constantIndex 0 (.made result .c0),
    .tensorDim input (.made result .c0) (.made result .batchSize)] ++
    loop.dynSizes.flatMap (dynSizeOps result input) ++ [
    .tensorEmpty loop.initShape loop.initElement (loop.dynSizes.map (·.dynSize result))
      (.made result .initTensor),
    .constantIndex 1 (.made result .step)]) ++
  .node (.scfFor (.made result .c0) (.made result .batchSize) (.made result .step)
      (.made result .initTensor) result)
    (.node .region
      (.node (.block [.made result .iv, .made result .currentIterArg])
        (loop.bodyOps result input params) .nil) .nil) .nil

end

/-- `DynamicBatchRewriter::matchAndRewrite`, in its place. -/
def DynamicBatchRewriter.matchAndRewrite (rescaleOp : Rescale) : Option Func :=
  (dynamicBatchRewriter rescaleOp.op).map fun loop =>
    loop.ops rescaleOp.result rescaleOp.input rescaleOp.params

/-- The patterns of the pass. -/
inductive Pattern (rescaleOp : Rescale) (new : Func) : Prop
  | doubleRound (rewritten : DoubleRoundRewriter.matchAndRewrite rescaleOp = some new)
  | dynamicBatch (rewritten : DynamicBatchRewriter.matchAndRewrite rescaleOp = some new)

/-- A step of the greedy driver: some pattern, at some op it applies to. -/
abbrev Rewrites : Func → Func → Prop := Forest.Step Pattern

/-- The input has a dynamic leading dimension. -/
def RescaleOp.DynamicBatch (op : RescaleOp) : Prop :=
  ∃ dims element, op.inputType = .ranked (none :: dims) element

/-- What the cast of the result type asserts where the batch is dynamic. -/
def RescaleOp.Castable (op : RescaleOp) : Prop := op.DynamicBatch → op.outputType.isRanked = true

/-- The number of patterns that apply to an op. -/
def RescaleOp.patterns (op : RescaleOp) : Nat :=
  (if op.attrs.roundingMode = .doubleRound then 1 else 0) +
    (if (dynamicBatchRewriter op).isSome then 1 else 0)

/-- The number of rewrites a function is away from its final form. -/
def rewritesLeft (func : Func) : Nat := func.todo fun rescaleOp => rescaleOp.op.patterns

section

variable {op : RescaleOp} {loop : DynamicBatchLoop}

theorem dynamicBatchRewriter_isSome :
    (dynamicBatchRewriter op).isSome = true ↔ op.DynamicBatch ∧ op.outputType.isRanked = true := by
  unfold dynamicBatchRewriter
  split
  · rename_i inputDims inputElement outputShape outputElement inputType outputType
    simp [RescaleOp.DynamicBatch, inputType, outputType, TensorType.isRanked]
  · rename_i other
    refine iff_of_false (by simp) fun ⟨⟨dims, element, inputType⟩, ranked⟩ => ?_
    cases outputType : op.outputType with
    | ranked shape outputElement => exact other _ _ _ _ inputType outputType
    | unranked outputElement =>
        rw [outputType] at ranked
        cases ranked

/-- The op in the loop has the attributes of the op it comes from and a batch of one. -/
theorem newRescale_eq (rewritten : dynamicBatchRewriter op = some loop) :
    loop.newRescale.attrs = op.attrs ∧ ¬ loop.newRescale.DynamicBatch := by
  unfold dynamicBatchRewriter at rewritten
  split at rewritten
  · cases rewritten
    refine ⟨rfl, fun ⟨dims, element, inputType⟩ => ?_⟩
    cases inputType
  · cases rewritten

theorem patterns_newRescale (rewritten : dynamicBatchRewriter op = some loop) :
    loop.newRescale.patterns + 1 = op.patterns := by
  obtain ⟨attrs, static⟩ := newRescale_eq rewritten
  have no : (dynamicBatchRewriter loop.newRescale).isSome = false :=
    Bool.eq_false_iff.mpr fun some_ => static (dynamicBatchRewriter_isSome.mp some_).1
  simp [RescaleOp.patterns, attrs, no, rewritten]

/-- The loop is built alike with either rounding. -/
theorem dynamicBatchRewriter_setSingleRound :
    dynamicBatchRewriter op.setSingleRound =
      (dynamicBatchRewriter op).map fun loop =>
        { loop with newRescale := loop.newRescale.setSingleRound } := by
  unfold dynamicBatchRewriter RescaleOp.setSingleRound
  dsimp only
  split <;> rfl

theorem patterns_setSingleRound (double : op.attrs.roundingMode = .doubleRound) :
    op.setSingleRound.patterns + 1 = op.patterns := by
  have single : op.setSingleRound.attrs.roundingMode ≠ .doubleRound := fun same => by cases same
  have batch : (dynamicBatchRewriter op.setSingleRound).isSome =
      (dynamicBatchRewriter op).isSome := by
    rw [dynamicBatchRewriter_setSingleRound, Option.isSome_map]
  rw [RescaleOp.patterns, RescaleOp.patterns, if_neg single, if_pos double, batch]
  omega

end

section

variable {rescaleOp : Rescale} {new : Func}

theorem doubleRoundRewriter_eq_some :
    DoubleRoundRewriter.matchAndRewrite rescaleOp = some new ↔
      rescaleOp.op.attrs.roundingMode = .doubleRound ∧
        new = .leaf { rescaleOp with op := rescaleOp.op.setSingleRound } .nil := by
  unfold DoubleRoundRewriter.matchAndRewrite
  split
  · rename_i other
    simp [other]
  · rename_i double
    simp only [ne_eq, not_not] at double
    simp [double, eq_comm]

theorem dynamicBatchRewriter_eq_some :
    DynamicBatchRewriter.matchAndRewrite rescaleOp = some new ↔
      ∃ loop, dynamicBatchRewriter rescaleOp.op = some loop ∧
        loop.ops rescaleOp.result rescaleOp.input rescaleOp.params = new := by
  rw [DynamicBatchRewriter.matchAndRewrite, Option.map_eq_some_iff]

/-- The one rescale in what is built. -/
theorem leaves_ops (loop : DynamicBatchLoop) (result input : Value) (params : List Value) :
    (loop.ops result input params).leaves = [{
      op := loop.newRescale
      input := .made result .sliceInput
      params
      result := .made result .rescaleResult }] := by
  simp [DynamicBatchLoop.ops, DynamicBatchLoop.bodyOps, Forest.leaves]

theorem todo_ops (loop : DynamicBatchLoop) (result input : Value) (params : List Value) :
    rewritesLeft (loop.ops result input params) = loop.newRescale.patterns := by
  simp [rewritesLeft, DynamicBatchLoop.ops, DynamicBatchLoop.bodyOps, Forest.todo,
    Forest.todo_append, Forest.todo_flat]

theorem Pattern.spends (applies : Pattern rescaleOp new) :
    rewritesLeft new + 1 = rescaleOp.op.patterns := by
  cases applies with
  | doubleRound rewritten =>
      obtain ⟨double, rfl⟩ := doubleRoundRewriter_eq_some.mp rewritten
      exact patterns_setSingleRound double
  | dynamicBatch rewritten =>
      obtain ⟨loop, found, rfl⟩ := dynamicBatchRewriter_eq_some.mp rewritten
      rw [todo_ops]
      exact patterns_newRescale found

theorem exists_pattern (applies : 0 < rescaleOp.op.patterns) : ∃ new, Pattern rescaleOp new := by
  by_cases double : rescaleOp.op.attrs.roundingMode = .doubleRound
  · exact ⟨_, .doubleRound (doubleRoundRewriter_eq_some.mpr ⟨double, rfl⟩)⟩
  · have batch : (dynamicBatchRewriter rescaleOp.op).isSome = true := by
      by_contra no
      simp [RescaleOp.patterns, double, no] at applies
    obtain ⟨loop, found⟩ := Option.isSome_iff_exists.mp batch
    exact ⟨_, .dynamicBatch (dynamicBatchRewriter_eq_some.mpr ⟨loop, found, rfl⟩)⟩

/-- Rounding the op in the loop gives the loop of the rounded op. -/
theorem rewrites_ops {loop : DynamicBatchLoop} (result input : Value) (params : List Value)
    (double : loop.newRescale.attrs.roundingMode = .doubleRound) :
    Rewrites (loop.ops result input params)
      ({ loop with newRescale := loop.newRescale.setSingleRound }.ops result input params) := by
  unfold DynamicBatchLoop.ops
  refine .append_left _ (.inNode _ (.inNode _ (.inNode _ ?_ _) _) _)
  unfold DynamicBatchLoop.bodyOps
  dsimp only
  exact .append_left _
    (.here (Pattern.doubleRound (doubleRoundRewriter_eq_some.mpr ⟨double, rfl⟩)) _)

/-- Where both patterns apply to an op, the other still applies after the one. -/
theorem rewrites_both {rounded looped : Func}
    (first : DoubleRoundRewriter.matchAndRewrite rescaleOp = some rounded)
    (second : DynamicBatchRewriter.matchAndRewrite rescaleOp = some looped) :
    ∃ both, Rewrites rounded both ∧ Rewrites looped both := by
  obtain ⟨double, rfl⟩ := doubleRoundRewriter_eq_some.mp first
  obtain ⟨loop, found, rfl⟩ := dynamicBatchRewriter_eq_some.mp second
  refine ⟨_, ?_, rewrites_ops _ _ _ ((newRescale_eq found).1 ▸ double)⟩
  rw [← Forest.append_nil (DynamicBatchLoop.ops _ _ _ _)]
  refine .here (.dynamicBatch (dynamicBatchRewriter_eq_some.mpr ⟨_, ?_, rfl⟩)) .nil
  rw [dynamicBatchRewriter_setSingleRound, found]
  rfl

end

theorem rewrites_commutes : Rewriting.Commutes Rewrites := by
  refine Forest.step_commutes fun rescaleOp x y left right => ?_
  cases left with
  | doubleRound first =>
      cases right with
      | doubleRound again => exact Or.inl (Option.some.inj (first.symm.trans again))
      | dynamicBatch second => exact Or.inr (rewrites_both first second)
  | dynamicBatch first =>
      cases right with
      | doubleRound second =>
          obtain ⟨both, there, here⟩ := rewrites_both second first
          exact Or.inr ⟨both, here, there⟩
      | dynamicBatch again => exact Or.inl (Option.some.inj (first.symm.trans again))

theorem Pattern.castable {rescaleOp : Rescale} {new : Func} (applies : Pattern rescaleOp new)
    (castable : rescaleOp.op.Castable) : ∀ made ∈ new.leaves, made.op.Castable := by
  intro made member
  cases applies with
  | doubleRound rewritten =>
      obtain ⟨-, rfl⟩ := doubleRoundRewriter_eq_some.mp rewritten
      obtain rfl := List.mem_singleton.mp member
      exact castable
  | dynamicBatch rewritten =>
      obtain ⟨loop, found, rfl⟩ := dynamicBatchRewriter_eq_some.mp rewritten
      rw [leaves_ops] at member
      obtain rfl := List.mem_singleton.mp member
      exact fun batch => absurd batch (newRescale_eq found).2

theorem castable_steps {func func' : Func} {n : Nat} (run : Steps Rewrites n func func')
    (castable : ∀ rescaleOp ∈ func.leaves, rescaleOp.op.Castable) :
    ∀ rescaleOp ∈ func'.leaves, rescaleOp.op.Castable := by
  induction run with
  | nil _ => exact castable
  | cons first _ ih => exact ih (first.forall_leaves (fun _ _ => Pattern.castable) castable)

/-- What the patterns make of a function, whatever the order. -/
structure Normalizes (func final : Func) : Prop where
  reached : Steps Rewrites (rewritesLeft func) func final
  everyOrder : ∀ n func', Steps Rewrites n func func' →
    ∃ left, rewritesLeft func = n + left ∧ Steps Rewrites left func' final
  unique : ∀ n func', Steps Rewrites n func func' → Stuck Rewrites func' → func' = final
  stuck : Stuck Rewrites final
  noDoubleRound : ∀ rescaleOp ∈ final.leaves, rescaleOp.op.attrs.roundingMode ≠ .doubleRound
  noDynamicBatch : (∀ rescaleOp ∈ func.leaves, rescaleOp.op.Castable) →
    ∀ rescaleOp ∈ final.leaves, ¬ rescaleOp.op.DynamicBatch

/-- Every order of rewrites ends, all in the same function and after as many steps, and
in that function no pattern is left to apply. -/
theorem normalizeRescale_normalizes (func : Func) : ∃ final, Normalizes func final := by
  have spends (a b : Func) (step : Rewrites a b) : rewritesLeft b + 1 = rewritesLeft a :=
    step.spends fun _ _ => Pattern.spends
  obtain ⟨final, run, done⟩ := Rewriting.exists_last spends
    (fun a more => Forest.exists_step (fun _ => exists_pattern) a more) func
  have stuck : Stuck Rewrites final := fun b step => by
    have one := spends final b step
    omega
  have none_ := Forest.todo_eq_zero.mp done
  refine ⟨final, run, fun n func' other => rewrites_commutes.run_toward run stuck other,
    fun n func' other ends => ?_, stuck, fun rescaleOp member double => ?_,
    fun castable rescaleOp member batch => ?_⟩
  · obtain ⟨left, -, rest⟩ := rewrites_commutes.run_toward run stuck other
    cases rest with
    | nil _ => rfl
    | cons first _ => exact absurd first (ends _)
  · have zero := none_ rescaleOp member
    simp [RescaleOp.patterns, double] at zero
  · have zero := none_ rescaleOp member
    have applies := dynamicBatchRewriter_isSome.mpr
      ⟨batch, castable_steps run castable rescaleOp member batch⟩
    simp [RescaleOp.patterns, applies] at zero

/-- A dynamic batch that rounds twice takes two steps. -/
example : rewritesLeft (.leaf {
    op := { vectorRescale with attrs := { vectorRescale.attrs with roundingMode := .doubleRound } }
    input := .given 0
    params := []
    result := .given 1 } .nil) = 2 := by decide

end Estela.Compiler.NormalizeRescale
