import Mathlib.Data.List.Permutation
import Estela.Lib.NdArray
import Estela.Runtime.GemmProduct
import Estela.Compiler.FuseConv2D

set_option autoImplicit false

/- What a fused convolution denotes, before and after: a sum over its window, and a call
of the centered matrix product on operands collapsed to two dimensions. -/
namespace Estela.Compiler.FuseConv2D

open RowMajor (NdArray indices linearize)
open Estela.Runtime.CenteredGemm (centeredGemm plainAcc)

/-- The values a convolution and its weight's transpose read. -/
structure ConvValues where
  x : NdArray (BitVec 8)
  zX : BitVec 32
  w : NdArray (BitVec 8)
  transposeInput : NdArray (BitVec 8)
  zW : BitVec 32
  y : NdArray (BitVec 32)

/-- Element `[n, oh, ow, f]` of the convolution: the window is summed in the order of
`linalg`'s loops, on `i32` that wrap. -/
def Conv2DNhwcHwcfQOp.element (convOp : Conv2DNhwcHwcfQOp) (values : ConvValues) (n oh ow f : Nat) :
    BitVec 32 :=
  let stride (d : Nat) : Nat := (convOp.strides.getD d 1).toNat
  let dilation (d : Nat) : Nat := (convOp.dilations.getD d 1).toNat
  (indices (values.w.shape.take 3)).foldl (fun acc k =>
    let kh := k.getD 0 0
    let kw := k.getD 1 0
    let c := k.getD 2 0
    let x := values.x.get [n, oh * stride 0 + kh * dilation 0, ow * stride 1 + kw * dilation 1, c]
    let w := values.w.get [kh, kw, c, f]
    acc + (x.signExtend 32 - values.zX) * (w.signExtend 32 - values.zW))
      (values.y.get [n, oh, ow, f])

section

variable {α : Type}

/-- `tensor.collapse_shape` of dimensions 0 to 2. -/
def collapseShape (a : NdArray α) : NdArray α :=
  a.reshape [(a.shape.take 3).prod, (a.shape.drop 3).prod] (by
    rw [List.prod_cons, List.prod_singleton, List.prod_take_mul_prod_drop])

/-- The sizes of a group of dimensions `size` elements are expanded to. -/
def expandedSizes (dims : List (Option Nat)) (size : Nat) : List Nat :=
  dims.map (·.getD (size / (dims.map (·.getD 1)).prod))

/-- `tensor.expand_shape` to a type of four dimensions; none where the elements do not
fill it. -/
def expandShape (type : RankedTensorType) (a : NdArray α) : Option (NdArray α) :=
  let shape := expandedSizes (type.shape.take 3) (a.shape.getD 0 0) ++
    expandedSizes (type.shape.drop 3) (a.shape.getD 1 0)
  if same : a.shape.prod = shape.prod then some (a.reshape shape same) else none

end

/-- What the call is passed. -/
inductive Actual
  | kernelHandle
  | scalar (value : BitVec 32)
  | bytes (value : NdArray (BitVec 8))
  | words (value : NdArray (BitVec 32))

def CallOperand.eval (values : ConvValues) : CallOperand → Option Actual
  | .kernelHandle => some .kernelHandle
  | .scalar .zX => some (.scalar values.zX)
  | .scalar .zW => some (.scalar values.zW)
  | .collapsed .x _ _ => some (.bytes (collapseShape values.x))
  | .collapsed .w _ _ => some (.bytes (collapseShape values.w))
  | .collapsed .transposeInput _ _ => some (.bytes (collapseShape values.transposeInput))
  | .collapsed .y _ _ => some (.words (collapseShape values.y))
  | _ => none

/-- The result in place of the convolution's, where the ops are valid and the call
returns OK. -/
def Offload.denote (offload : Offload) (values : ConvValues) : Option (NdArray (BitVec 32)) :=
  if ¬ expandShapeValid offload.resultType offload.reassoc then none
  else
    match offload.callOperands.map (CallOperand.eval values) with
    | [some .kernelHandle, some (.bytes x), some (.scalar zX), some (.bytes w), some (.scalar zW),
        some (.words y)] =>
        match centeredGemm zX zW x w y with
        | .error _ => none
        | .ok result => expandShape offload.resultType result
    | _ => none

/-- What the verifiers promise of a convolution with a 1x1 kernel on a 1x1 image, and of
the transpose its weight comes from. -/
structure Operands (convOp : Conv2DNhwcHwcfQOp) (permutation : List Nat) (values : ConvValues)
    (batch channels features : Nat) : Prop where
  rank : values.transposeInput.shape.length = 4
  permutes : permutation.Perm (List.range 4)
  transposed : values.w = values.transposeInput.transpose permutation
  xShape : values.x.shape = [batch, 1, 1, channels]
  wShape : values.w.shape = [1, 1, channels, features]
  yShape : values.y.shape = [batch, 1, 1, features]
  yType : List.Forall₂ (fun dim size => ∀ known, dim = some known → known = size) convOp.yType.shape
    values.y.shape

/-- The matrix product is called on the matrices of the convolution, and its result is
the convolution's. -/
structure Replaces (convOp : Conv2DNhwcHwcfQOp) (offload : Offload) (values : ConvValues)
    (batch channels features : Nat) : Prop where
  xShape : (collapseShape values.x).shape = [batch, channels]
  wShape : (collapseShape values.transposeInput).shape = [features, channels]
  yShape : (collapseShape values.y).shape = [batch, features]
  weight : ∀ f < features, ∀ c < channels,
    (collapseShape values.transposeInput).get [f, c] = values.w.get [0, 0, c, f]
  accepted : ∃ product, centeredGemm values.zX values.zW (collapseShape values.x)
    (collapseShape values.transposeInput) (collapseShape values.y) = .ok product
  result : ∃ result, offload.denote values = some result ∧ ∀ n < batch, ∀ f < features,
    result.get [n, 0, 0, f] = convOp.element values n 0 0 f

/-- The permutations with `F` before `C` that take `C` from the last dimension. -/
def channelsLast : List (List Nat) :=
  [[0, 1, 3, 2], [1, 0, 3, 2], [0, 2, 3, 1], [2, 0, 3, 1], [1, 2, 3, 0], [2, 1, 3, 0]]

/-- Those with `F` before `C` that do not. -/
def channelsEarlier : List (List Nat) :=
  [[0, 3, 2, 1], [3, 0, 2, 1], [1, 3, 2, 0], [3, 1, 2, 0], [2, 3, 1, 0], [3, 2, 1, 0]]

theorem permutation_cases (permutation : List Nat) (permutes : permutation.Perm (List.range 4))
    (before : permutation.getD 3 0 < permutation.getD 2 0) :
    permutation ∈ channelsLast ∨ permutation ∈ channelsEarlier := by
  have all : ∀ p ∈ List.permutations' (List.range 4), p.getD 3 0 < p.getD 2 0 →
      p ∈ channelsLast ∨ p ∈ channelsEarlier := by decide
  exact all permutation (List.mem_permutations'.mpr permutes) before

theorem channelsLast_at {permutation : List Nat} (member : permutation ∈ channelsLast) :
    permutation.getD 2 0 = 3 := by
  have all : ∀ p ∈ channelsLast, p.getD 2 0 = 3 := by decide
  exact all permutation member

theorem channelsEarlier_at {permutation : List Nat} (member : permutation ∈ channelsEarlier) :
    permutation.getD 2 0 ≠ 3 := by
  have all : ∀ p ∈ channelsEarlier, p.getD 2 0 ≠ 3 := by decide
  exact all permutation member

/-- Where an index of the transposed weight lies in the weight. -/
def sourceIndex (permutation index : List Nat) : List Nat :=
  (List.range 4).map fun d => index.getD (permutation.idxOf d) 0

/-- With the channels last, the other three dimensions are the features. -/
theorem channelsLast_layout {permutation : List Nat} {s0 s1 s2 s3 channels features : Nat}
    (member : permutation ∈ channelsLast)
    (moved : permutation.map ([s0, s1, s2, s3].getD · 0) = [1, 1, channels, features]) :
    s0 * s1 * s2 = features ∧ s3 = channels ∧ ∀ c f,
      linearize [s0, s1, s2, s3] (sourceIndex permutation [0, 0, c, f]) = f * channels + c := by
  simp only [channelsLast, List.mem_cons, List.not_mem_nil, or_false] at member
  rcases member with rfl | rfl | rfl | rfl | rfl | rfl <;>
  · simp at moved
    obtain ⟨rfl, rfl, rfl, rfl⟩ := moved
    refine ⟨by simp, rfl, ?_⟩
    intro c f
    simp [sourceIndex, linearize, List.range_succ, List.idxOf_cons]

/-- Without, they are the features and the channels, and the last one has size 1. -/
theorem channelsEarlier_layout {permutation : List Nat} {s0 s1 s2 s3 channels features : Nat}
    (member : permutation ∈ channelsEarlier)
    (moved : permutation.map ([s0, s1, s2, s3].getD · 0) = [1, 1, channels, features]) :
    s0 * s1 * s2 = features * channels ∧ s3 = 1 ∧ ∀ f,
      linearize [s0, s1, s2, s3] (sourceIndex permutation [0, 0, 0, f]) = f * channels := by
  simp only [channelsEarlier, List.mem_cons, List.not_mem_nil, or_false] at member
  rcases member with rfl | rfl | rfl | rfl | rfl | rfl <;>
  · simp at moved
    obtain ⟨rfl, rfl, rfl, rfl⟩ := moved
    refine ⟨by simp, rfl, ?_⟩
    intro f
    simp [sourceIndex, linearize, List.range_succ, List.idxOf_cons]

section

variable {convOp : Conv2DNhwcHwcfQOp} {permutation : List Nat} {values : ConvValues}
  {batch channels features : Nat}

theorem shape_four {α : Type} (a : NdArray α) (rank : a.shape.length = 4) :
    ∃ s0 s1 s2 s3, a.shape = [s0, s1, s2, s3] := by
  match a.shape, rank with
  | [s0, s1, s2, s3], _ => exact ⟨s0, s1, s2, s3, rfl⟩

theorem collapseShape_shape {α : Type} (a : NdArray α) (s0 s1 s2 s3 : Nat)
    (shape : a.shape = [s0, s1, s2, s3]) : (collapseShape a).shape = [s0 * s1 * s2, s3] := by
  change [(a.shape.take 3).prod, (a.shape.drop 3).prod] = _
  rw [shape]
  simp [Nat.mul_assoc]

/-- The sizes of the weight, in the order of the convolution's. -/
theorem Operands.moved (operands : Operands convOp permutation values batch channels features) :
    permutation.map (values.transposeInput.shape.getD · 0) = [1, 1, channels, features] := by
  have shape := operands.wShape
  rw [operands.transposed] at shape
  exact shape

/-- Element `[0, 0, c, f]` of the transposed weight is an element of the weight. -/
theorem Operands.weight (operands : Operands convOp permutation values batch channels features)
    (c f : Nat) (channel : c < channels) (feature : f < features) :
    values.w.get [0, 0, c, f] =
      values.transposeInput.get (sourceIndex permutation [0, 0, c, f]) := by
  have member : [0, 0, c, f] ∈
      indices (permutation.map (values.transposeInput.shape.getD · 0)) := by
    rw [operands.moved, RowMajor.mem_indices]
    exact .cons Nat.one_pos (.cons Nat.one_pos (.cons channel (.cons feature .nil)))
  rw [operands.transposed]
  unfold NdArray.transpose
  rw [NdArray.get_ofFn _ member, operands.rank]
  rfl

/-- A sum from some value on is that value and the plain loop's sum. -/
theorem foldl_plainAcc (x w : Nat → BitVec 8) (zX zW init : BitVec 32) (depth i j count : Nat) :
    (List.range count).foldl (fun acc k => acc +
      ((x (i * depth + k)).signExtend 32 - zX) * ((w (j * depth + k)).signExtend 32 - zW)) init =
      init + plainAcc depth x w zX zW i j count := by
  induction count with
  | zero =>
      rw [plainAcc]
      exact (BitVec.add_zero init).symm
  | succ count ih =>
      rw [List.range_succ, List.foldl_append, ih, plainAcc]
      exact BitVec.add_assoc _ _ _

/-- The convolution's element is the plain loop's, where the weight lies row by row. -/
theorem Operands.element (operands : Operands convOp permutation values batch channels features)
    (n f : Nat)
    (rows : ∀ c < channels, values.w.get [0, 0, c, f] =
      values.transposeInput.elements.getD (f * channels + c) 0) :
    convOp.element values n 0 0 f = values.y.get [n, 0, 0, f] +
      plainAcc channels (values.x.elements.getD · 0) (values.transposeInput.elements.getD · 0)
        values.zX values.zW n f channels := by
  have window : indices (values.w.shape.take 3) = (List.range channels).map fun c => [0, 0, c] := by
    rw [operands.wShape]
    simp [indices, ← List.map_eq_flatMap]
  rw [← foldl_plainAcc]
  unfold Conv2DNhwcHwcfQOp.element
  rw [window, List.foldl_map]
  apply List.foldl_ext
  intro acc c member
  have channel : c < channels := List.mem_range.mp member
  have image : values.x.get [n, 0, 0, c] = values.x.elements.getD (n * channels + c) 0 := by
    unfold NdArray.get
    rw [operands.xShape]
    simp [linearize]
    rfl
  have weight := rows c channel
  simp only [List.getD_cons_zero, List.getD_cons_succ, Nat.zero_mul, Nat.add_zero]
  change acc + ((values.x.get [n, 0, 0, c]).signExtend 32 - values.zX) *
    ((values.w.get [0, 0, c, f]).signExtend 32 - values.zW) = _
  rw [image, weight]

/-- With one dynamic size at most, the leading sizes come out as they were. -/
theorem expandedSizes_leading (d0 d1 d2 : Option Nat)
    (h0 : ∀ known, d0 = some known → known = batch) (h1 : ∀ known, d1 = some known → known = 1)
    (h2 : ∀ known, d2 = some known → known = 1)
    (one : ([d0, d1, d2].filter (·.isNone)).length ≤ 1) :
    (expandedSizes [d0, d1, d2] batch).prod = batch ∧
      (0 < batch → expandedSizes [d0, d1, d2] batch = [batch, 1, 1]) := by
  cases d0 with
  | none =>
    cases d1 with
    | none => exact absurd one (by simp)
    | some k1 =>
      cases d2 with
      | none => exact absurd one (by simp)
      | some k2 =>
        obtain rfl := h1 k1 rfl
        obtain rfl := h2 k2 rfl
        simp [expandedSizes]
  | some k0 =>
    obtain rfl := h0 k0 rfl
    cases d1 with
    | none =>
      cases d2 with
      | none => exact absurd one (by simp)
      | some k2 =>
        obtain rfl := h2 k2 rfl
        -- an empty batch leaves nothing to divide by
        rcases Nat.eq_zero_or_pos k0 with rfl | some_
        · simp [expandedSizes]
        · simp [expandedSizes, Nat.div_self some_]
    | some k1 =>
      obtain rfl := h1 k1 rfl
      cases d2 with
      | none =>
        rcases Nat.eq_zero_or_pos k0 with rfl | some_
        · simp [expandedSizes]
        · simp [expandedSizes, Nat.div_self some_]
      | some k2 =>
        obtain rfl := h2 k2 rfl
        simp [expandedSizes]

/-- Where the sizes of the expanded dimensions can be told, they are the init's; only of
an empty batch they need not be. -/
theorem Operands.expanded (operands : Operands convOp permutation values batch channels features)
    (valid : expandShapeValid convOp.yType [[0, 1, 2], [3]] = true) (product : NdArray (BitVec 32))
    (shape : product.shape = [batch, features]) :
    ∃ result, expandShape convOp.yType product = some result ∧ result.elements = product.elements ∧
      (0 < batch → result.shape = [batch, 1, 1, features]) := by
  obtain ⟨d0, d1, d2, d3, dims⟩ : ∃ d0 d1 d2 d3, convOp.yType.shape = [d0, d1, d2, d3] := by
    have rank := operands.yType.length_eq
    rw [operands.yShape] at rank
    match convOp.yType.shape, rank with
    | [d0, d1, d2, d3], _ => exact ⟨d0, d1, d2, d3, rfl⟩
  have fits := operands.yType
  rw [dims, operands.yShape] at fits
  simp only [List.forall₂_cons, List.forall₂_nil_right_iff, and_true] at fits
  obtain ⟨h0, h1, h2, h3⟩ := fits
  have one : ([d0, d1, d2].filter (·.isNone)).length ≤ 1 := by
    have group : ([0, 1, 2].filter fun dim => (convOp.yType.getDimSize dim).isNone).length ≤ 1 := by
      simp only [expandShapeValid, List.all_cons, Bool.and_eq_true, decide_eq_true_eq] at valid
      exact valid.1
    have each : ([0, 1, 2].map convOp.yType.getDimSize) = [d0, d1, d2] := by
      change [convOp.yType.getDimSize 0, convOp.yType.getDimSize 1, convOp.yType.getDimSize 2] = _
      unfold RankedTensorType.getDimSize
      rw [dims]
      rfl
    rw [← each, List.filter_map, List.length_map]
    exact group
  obtain ⟨leading, same⟩ := expandedSizes_leading d0 d1 d2 h0 h1 h2 one
  have last : expandedSizes [d3] features = [features] := by
    cases d3 with
    | none => simp [expandedSizes]
    | some k3 =>
      obtain rfl := h3 k3 rfl
      rfl
  have sizes : expandedSizes (convOp.yType.shape.take 3) (product.shape.getD 0 0) ++
      expandedSizes (convOp.yType.shape.drop 3) (product.shape.getD 1 0) =
        expandedSizes [d0, d1, d2] batch ++ [features] := by
    rw [dims, shape]
    exact congrArg (expandedSizes [d0, d1, d2] batch ++ ·) last
  have whole : product.shape.prod =
      (expandedSizes (convOp.yType.shape.take 3) (product.shape.getD 0 0) ++
        expandedSizes (convOp.yType.shape.drop 3) (product.shape.getD 1 0)).prod := by
    rw [sizes, shape, List.prod_append, leading, List.prod_cons]
  refine ⟨product.reshape _ whole, dif_pos whole, rfl, ?_⟩
  intro some_
  change expandedSizes (convOp.yType.shape.take 3) (product.shape.getD 0 0) ++
      expandedSizes (convOp.yType.shape.drop 3) (product.shape.getD 1 0) = _
  rw [sizes, same some_]
  rfl

theorem isMatmulEquivalent_spec {analysis : Conv2DMatmulAnalysis}
    (accepted : isMatmulEquivalent convOp = some analysis) :
    ∃ transposeOp, convOp.transpose = some transposeOp ∧
      transposeOp.permutation.getD 3 0 < transposeOp.permutation.getD 2 0 ∧
      analysis.operands = [.x, .zX, .transposeInput, .zW, .y] := by
  simp only [isMatmulEquivalent, Option.bind_eq_bind, Option.bind_eq_some_iff] at accepted
  obtain ⟨zX, _, zW, _, rest⟩ := accepted
  split at rest
  · cases rest
  split at rest
  · cases rest
  split at rest
  · cases rest
  split at rest
  · cases rest
  split at rest
  · cases rest
  split at rest
  · cases rest
  split at rest
  · cases rest
  split at rest
  · cases rest
  split at rest
  · cases rest
  rename_i transposeOp defined
  split at rest
  · rename_i before
    cases rest
    exact ⟨transposeOp, defined, before, rfl⟩
  · cases rest

/-- What the call is passed, and what becomes of its result. -/
theorem Offload.denote_eq {offload : Offload} (rewritten : conv2DOffload convOp = some offload) :
    offload.denote values =
      if expandShapeValid convOp.yType [[0, 1, 2], [3]] then
        match centeredGemm values.zX values.zW (collapseShape values.x)
          (collapseShape values.transposeInput) (collapseShape values.y) with
        | .error _ => none
        | .ok product => expandShape convOp.yType product
      else none := by
  simp only [conv2DOffload, Option.bind_eq_bind, Option.bind_eq_some_iff] at rewritten
  obtain ⟨analysis, accepted, built⟩ := rewritten
  obtain ⟨transposeOp, _, _, passed⟩ := isMatmulEquivalent_spec accepted
  rw [passed] at built
  cases built
  unfold Offload.denote
  by_cases valid : expandShapeValid convOp.yType [[0, 1, 2], [3]] = true
  · rw [if_pos valid, if_neg (not_not_intro valid)]
    rfl
  · rw [if_neg valid, if_pos valid]

/-- Where the channels come last, or are one, the weight's matrix is the transposed one. -/
theorem Operands.layout (operands : Operands convOp permutation values batch channels features)
    (before : permutation.getD 3 0 < permutation.getD 2 0)
    (condition : permutation.getD 2 0 = 3 ∨ channels = 1) :
    (collapseShape values.transposeInput).shape = [features, channels] ∧
      ∀ c < channels, ∀ f < features, linearize values.transposeInput.shape
        (sourceIndex permutation [0, 0, c, f]) = f * channels + c := by
  obtain ⟨s0, s1, s2, s3, shape⟩ := shape_four values.transposeInput operands.rank
  have moved := operands.moved
  rw [collapseShape_shape _ s0 s1 s2 s3 shape, shape]
  rw [shape] at moved
  rcases permutation_cases permutation operands.permutes before with last | earlier
  · obtain ⟨rows, columns, place⟩ := channelsLast_layout last moved
    refine ⟨?_, fun c _ f _ => place c f⟩
    rw [rows, columns]
  · obtain ⟨rows, columns, place⟩ := channelsEarlier_layout earlier moved
    have one : channels = 1 := condition.resolve_left (channelsEarlier_at earlier)
    refine ⟨?_, fun c channel f _ => ?_⟩
    · rw [rows, columns, one, Nat.mul_one]
    · have first : c = 0 := by omega
      rw [first, place f, Nat.add_zero]

/-- Elsewhere it is a column. -/
theorem Operands.columnWeight
    (operands : Operands convOp permutation values batch channels features)
    (before : permutation.getD 3 0 < permutation.getD 2 0)
    (wShape : (collapseShape values.transposeInput).shape = [features, channels]) :
    permutation.getD 2 0 = 3 ∨ channels = 1 := by
  obtain ⟨s0, s1, s2, s3, shape⟩ := shape_four values.transposeInput operands.rank
  have moved := operands.moved
  rw [collapseShape_shape _ s0 s1 s2 s3 shape] at wShape
  rw [shape] at moved
  rcases permutation_cases permutation operands.permutes before with last | earlier
  · exact Or.inl (channelsLast_at last)
  · obtain ⟨_, columns, _⟩ := channelsEarlier_layout earlier moved
    rw [columns] at wShape
    cases wShape
    exact Or.inr rfl

/-- A column goes with one channel only: of more, or of none, the call is refused. -/
theorem Operands.refused {offload : Offload} (rewritten : conv2DOffload convOp = some offload)
    (operands : Operands convOp permutation values batch channels features)
    (before : permutation.getD 3 0 < permutation.getD 2 0) (earlier : permutation.getD 2 0 ≠ 3)
    (several : channels ≠ 1) : offload.denote values = none := by
  obtain ⟨s0, s1, s2, s3, shape⟩ := shape_four values.transposeInput operands.rank
  have moved := operands.moved
  rw [shape] at moved
  rcases permutation_cases permutation operands.permutes before with last | member
  · exact absurd (channelsLast_at last) earlier
  · obtain ⟨rows, columns, _⟩ := channelsEarlier_layout member moved
    have wShape : (collapseShape values.transposeInput).shape = [features * channels, 1] := by
      rw [collapseShape_shape _ s0 s1 s2 s3 shape, rows, columns]
    have xShape : (collapseShape values.x).shape = [batch, channels] := by
      rw [collapseShape_shape _ batch 1 1 channels operands.xShape, Nat.mul_one, Nat.mul_one]
    have refused := Estela.Runtime.CenteredGemm.centeredGemm_refused values.zX values.zW
      (collapseShape values.x) (collapseShape values.transposeInput) (collapseShape values.y)
      batch channels (features * channels) 1 xShape wShape several
    rw [Offload.denote_eq rewritten]
    cases call : centeredGemm values.zX values.zW (collapseShape values.x)
      (collapseShape values.transposeInput) (collapseShape values.y) with
    | error stop => exact ite_self none
    | ok product => exact absurd call (refused product)

/-- What the call leaves at the place of an element is the convolution's element. -/
theorem Operands.productElement
    (operands : Operands convOp permutation values batch channels features)
    (n f : Nat) (row : n < batch) (column : f < features)
    (rows : ∀ c < channels, values.w.get [0, 0, c, f] =
      values.transposeInput.elements.getD (f * channels + c) 0) :
    (values.y.elements.mapIdx fun k before =>
      if k < batch * features then
        before + plainAcc channels (values.x.elements.getD · 0)
          (values.transposeInput.elements.getD · 0) values.zX values.zW (k / features)
          (k % features) channels
      else before).getD (n * features + f) 0 = convOp.element values n 0 0 f := by
  have inside := Estela.Runtime.CenteredGemm.element_lt row column
  have whole : n * features + f < values.y.elements.length := by
    rw [values.y.whole, operands.yShape]
    simpa using inside
  obtain ⟨quotient, remainder⟩ := Estela.Runtime.CenteredGemm.element_divMod n column
  have initial : values.y.get [n, 0, 0, f] = values.y.elements[n * features + f] := by
    have position : linearize [batch, 1, 1, features] [n, 0, 0, f] = n * features + f := by
      simp [linearize]
    unfold NdArray.get
    rw [operands.yShape, position, List.getD_eq_getElem?_getD, List.getElem?_eq_getElem whole,
      Option.getD_some]
  rw [operands.element n f rows, initial, List.getD_eq_getElem?_getD, List.getElem?_mapIdx,
    List.getElem?_eq_getElem whole, Option.map_some, Option.getD_some, if_pos inside,
    quotient, remainder]

/-- The call and the expansion, where the weight is laid out for them. -/
theorem Operands.replaced {offload : Offload} (rewritten : conv2DOffload convOp = some offload)
    (operands : Operands convOp permutation values batch channels features)
    (before : permutation.getD 3 0 < permutation.getD 2 0)
    (condition : permutation.getD 2 0 = 3 ∨ channels = 1)
    (valid : expandShapeValid convOp.yType [[0, 1, 2], [3]] = true) :
    Replaces convOp offload values batch channels features := by
  obtain ⟨wShape, place⟩ := operands.layout before condition
  have xShape : (collapseShape values.x).shape = [batch, channels] := by
    rw [collapseShape_shape _ batch 1 1 channels operands.xShape, Nat.mul_one, Nat.mul_one]
  have yShape : (collapseShape values.y).shape = [batch, features] := by
    rw [collapseShape_shape _ batch 1 1 features operands.yShape, Nat.mul_one, Nat.mul_one]
  have rows (c : Nat) (channel : c < channels) (f : Nat) (feature : f < features) :
      values.w.get [0, 0, c, f] = values.transposeInput.elements.getD (f * channels + c) 0 := by
    rw [operands.weight c f channel feature]
    unfold NdArray.get
    rw [place c channel f feature]
    rfl
  obtain ⟨product, accepted, productShape, elements⟩ :=
    Estela.Runtime.CenteredGemm.centeredGemm_ok values.zX values.zW (collapseShape values.x)
      (collapseShape values.transposeInput) (collapseShape values.y) batch channels features
      batch features xShape wShape yShape
  obtain ⟨result, expanded, same, resultShape⟩ := operands.expanded valid product productShape
  refine ⟨xShape, wShape, yShape, ?_, ⟨product, accepted⟩, result, ?_, ?_⟩
  · intro f feature c channel
    rw [operands.weight c f channel feature]
    apply NdArray.get_reshape
    change [(values.transposeInput.shape.take 3).prod,
      (values.transposeInput.shape.drop 3).prod] = _ at wShape
    rw [place c channel f feature, wShape]
    simp only [linearize, List.prod_cons, List.prod_nil, Nat.mul_one, Nat.add_zero]
  · rw [Offload.denote_eq rewritten, if_pos valid, accepted]
    exact expanded
  · intro n row f column
    have position : linearize [batch, 1, 1, features] [n, 0, 0, f] = n * features + f := by
      simp [linearize]
    unfold NdArray.get
    rw [resultShape (by omega), position, same, elements]
    exact operands.productElement n f row column (fun c channel => rows c channel f column)

/-- The convolution is the matrix product that replaces it exactly if its channels are the
last dimension of the weight before the transpose or there is one of them only, and the
sizes the result is expanded to can be told. -/
theorem conv2DOffload_replaces_iff (convOp : Conv2DNhwcHwcfQOp) (transposeOp : TransposeOp)
    (offload : Offload) (rewritten : conv2DOffload convOp = some offload)
    (defined : convOp.transpose = some transposeOp) (values : ConvValues)
    (batch channels features : Nat)
    (operands : Operands convOp transposeOp.permutation values batch channels features) :
    Replaces convOp offload values batch channels features ↔
      (transposeOp.permutation.getD 2 0 = 3 ∨ channels = 1) ∧
        expandShapeValid convOp.yType [[0, 1, 2], [3]] = true := by
  have before : transposeOp.permutation.getD 3 0 < transposeOp.permutation.getD 2 0 := by
    obtain ⟨analysis, accepted, _⟩ := Option.bind_eq_some_iff.mp rewritten
    obtain ⟨found, source, before, _⟩ := isMatmulEquivalent_spec accepted
    rw [defined] at source
    cases source
    exact before
  constructor
  · intro replaces
    refine ⟨operands.columnWeight before replaces.wShape, ?_⟩
    obtain ⟨result, denoted, _⟩ := replaces.result
    rw [Offload.denote_eq rewritten] at denoted
    by_cases valid : expandShapeValid convOp.yType [[0, 1, 2], [3]] = true
    · exact valid
    · rw [if_neg valid] at denoted
      cases denoted
  · rintro ⟨condition, valid⟩
    exact operands.replaced rewritten before condition valid

end

/-- Values for a weight that comes from a transpose. -/
def ConvValues.ofTranspose (x transposeInput : NdArray (BitVec 8)) (y : NdArray (BitVec 32))
    (permutation : List Nat) : ConvValues where
  x
  zX := 0
  w := transposeInput.transpose permutation
  transposeInput
  zW := 0
  y

def sampleOffload : Offload where
  kernelBlob := centeredMatmulBitstream
  callOperands := [
    .kernelHandle,
    .collapsed .x ⟨[some 1, some 3], .integer 8⟩ ⟨[none, none], .integer 8⟩,
    .scalar .zX,
    .collapsed .transposeInput ⟨[some 2, some 3], .integer 8⟩ ⟨[none, none], .integer 8⟩,
    .scalar .zW,
    .collapsed .y ⟨[some 1, some 2], .integer 32⟩ ⟨[none, none], .integer 32⟩]
  callResultType := ⟨[none, none], .integer 32⟩
  castedResultType := ⟨[some 1, some 2], .integer 32⟩
  reassoc := [[0, 1, 2], [3]]
  resultType := ⟨[some 1, some 1, some 1, some 2], .integer 32⟩

/-- The weight of the sample is stored feature by feature, its channels last. -/
theorem conv2DOffload_replaces_iff_sample :
    Replaces (sampleConv 0 3) sampleOffload
      (.ofTranspose ⟨[1, 1, 1, 3], [1, 2, 3], rfl⟩ ⟨[2, 1, 1, 3], [4, 5, 6, 7, 8, 9], rfl⟩
        ⟨[1, 1, 1, 2], [10, 20], rfl⟩ [1, 2, 3, 0]) 1 3 2 :=
  (conv2DOffload_replaces_iff (sampleConv 0 3)
    ⟨⟨[some 2, some 1, some 1, some 3], .integer 8⟩, [1, 2, 3, 0]⟩
    sampleOffload (by decide) rfl _ 1 3 2
    ⟨rfl, by decide, rfl, rfl, rfl, rfl,
      .cons (by simp) (.cons (by simp) (.cons (by simp) (.cons (by simp) .nil)))⟩).mpr
    ⟨Or.inl rfl, by decide⟩

/-- A product of 2 channels by one feature, its weight stored with the channels in dimension 2. -/
def columnConv : Conv2DNhwcHwcfQOp where
  xType := ⟨[some 1, some 1, some 1, some 2], .integer 8⟩
  wType := ⟨[some 1, some 1, some 2, some 1], .integer 8⟩
  zX := ⟨some 32, .integer ⟨32, 0⟩⟩
  zW := ⟨some 32, .integer ⟨32, 0⟩⟩
  yType := ⟨[some 1, some 1, some 1, some 1], .integer 32⟩
  strides := [1, 1]
  dilations := [1, 1]
  transpose := some ⟨⟨[some 1, some 1, some 2, some 1], .integer 8⟩, [0, 3, 2, 1]⟩

/-- The matcher accepts it, but its weight collapses to a 2x1 matrix and not to a 1x2 one. -/
theorem conv2DOffload_column :
    ∃ offload values, conv2DOffload columnConv = some offload ∧
      Operands columnConv [0, 3, 2, 1] values 1 2 1 ∧ offload.denote values = none ∧
      ¬ Replaces columnConv offload values 1 2 1 := by
  have operands : Operands columnConv [0, 3, 2, 1]
      (.ofTranspose ⟨[1, 1, 1, 2], [1, 2], rfl⟩ ⟨[1, 1, 2, 1], [3, 4], rfl⟩ ⟨[1, 1, 1, 1], [0], rfl⟩
        [0, 3, 2, 1]) 1 2 1 :=
    ⟨rfl, by decide, rfl, rfl, rfl, rfl,
      .cons (by simp) (.cons (by simp) (.cons (by simp) (.cons (by simp) .nil)))⟩
  refine ⟨_, _, rfl, operands, ?_, ?_⟩
  · exact operands.refused rfl (by decide) (by decide) (by decide)
  · intro replaces
    have wShape := replaces.wShape
    exact absurd wShape (by decide)

end Estela.Compiler.FuseConv2D
