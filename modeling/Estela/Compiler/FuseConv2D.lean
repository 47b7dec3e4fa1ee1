import Estela.Compiler.DispatchIr

set_option autoImplicit false

/- The fusion of 1x1 convolutions into calls of the centered matrix product: what it
matches, and what it puts in their place. -/
namespace Estela.Compiler.FuseConv2D

/-- `RankedTensorType`; a dynamic dimension is none. -/
structure RankedTensorType where
  shape : List (Option Nat)
  element : ElementType
  deriving DecidableEq, Repr

/-- `getDimSize`. -/
def RankedTensorType.getDimSize (type : RankedTensorType) (dim : Nat) : Option Nat :=
  (type.shape[dim]?).join

/-- What defines a zero point. -/
inductive ZeroPointDef
  | integer (value : APInt)
  | otherConstant
  | otherOp
  deriving DecidableEq, Repr

/-- `z_x` or `z_w`: a scalar, with the width of its type if it is an integer. -/
structure ZeroPoint where
  width : Option Nat
  definingOp : ZeroPointDef
  deriving DecidableEq, Repr

/-- `linalg::TransposeOp`. -/
structure TransposeOp where
  inputType : RankedTensorType
  permutation : List Nat
  deriving DecidableEq, Repr

/-- `linalg::Conv2DNhwcHwcfQOp` on tensors; `transpose` is there if it defines the
weight. -/
structure Conv2DNhwcHwcfQOp where
  xType : RankedTensorType
  wType : RankedTensorType
  zX : ZeroPoint
  zW : ZeroPoint
  yType : RankedTensorType
  strides : List Int
  dilations : List Int
  transpose : Option TransposeOp
  deriving DecidableEq, Repr

/-- The values the call may be passed. -/
inductive ConvValue
  | x
  | zX
  | w
  | transposeInput
  | zW
  | y
  deriving DecidableEq, Repr

structure Conv2DMatmulAnalysis where
  zX : BitVec 32
  zW : BitVec 32
  inChan : BitVec 16
  operands : List ConvValue
  /-- The type of the weight that is passed. -/
  wToPassType : RankedTensorType
  deriving DecidableEq, Repr

/-- One round of the loop over the zero points. -/
def ZeroPoint.value (zp : ZeroPoint) : Option (BitVec 32) :=
  if zp.width ≠ some 32 then none
  else
    match zp.definingOp with
    | .integer value => some ((value.bits.signExtend 64).setWidth 32)
    | .otherConstant => none
    | .otherOp => none

def isAllOnes (attr : List Int) : Bool := attr.all (· = 1)

def isMatmulEquivalent (convOp : Conv2DNhwcHwcfQOp) : Option Conv2DMatmulAnalysis := do
  let zX ← convOp.zX.value
  let zW ← convOp.zW.value
  if ¬ isAllOnes convOp.strides ∨ ¬ isAllOnes convOp.dilations then none
  else if convOp.wType.element ≠ .integer 8 then none
  else if convOp.wType.getDimSize 0 ≠ some 1 ∨ convOp.wType.getDimSize 1 ≠ some 1 then none
  else
    match convOp.wType.getDimSize 2 with
    | none => none
    | some wCDimSize =>
        if 65535 < wCDimSize then none
        else if convOp.xType.element ≠ .integer 8 then none
        else if convOp.xType.getDimSize 1 ≠ some 1 ∨ convOp.xType.getDimSize 2 ≠ some 1 then none
        else if convOp.yType.element ≠ .integer 32 then none
        else
          match convOp.transpose with
          | none => none
          | some transposeOp =>
              let cBefore := transposeOp.permutation.getD 2 0
              let fBefore := transposeOp.permutation.getD 3 0
              if fBefore < cBefore then
                some {
                  zX
                  zW
                  inChan := BitVec.ofNat 16 wCDimSize
                  operands := [.x, .zX, .transposeInput, .zW, .y]
                  wToPassType := transposeOp.inputType }
              else none

/-- `centered_matmul_bitstream`. -/
def centeredMatmulBitstream : List (BitVec 32) := [
  0x00000000, 0x00000000, 0x00000000, 0x00000000, 0x00000000,
  0x00000000, 0x00000000, 0x00000000, 0x00000000, 0x00000000,
  0x00000041, 0x02000000, 0x00000000, 0x00000000, 0x00000000,
  0x00000201, 0x020C0300, 0x00000081, 0x00000000, 0xFFFFFFFF,

  0x00000021, 0x00000000, 0x00000000, 0x00000000, 0x00000000,
  0x00000201, 0xC0040400, 0xDDEE0080, 0x00000000, 0x00000000,
  0x08800109, 0x003C0340, 0x00000082, 0x00000000, 0x00000000,
  0x00000201, 0x020C0300, 0x00000081, 0x00000000, 0xFFFFFFFF,

  0x00000021, 0x00000000, 0x00000000, 0x00000000, 0x00000000,
  0x00000201, 0xC0040400, 0xDDEE0080, 0x00000000, 0x00000000,
  0x08800109, 0x003C0340, 0x00000082, 0x00000000, 0x00000000,
  0x00000201, 0x020C0300, 0x00000081, 0x00000000, 0xFFFFFFFF,

  0x00000021, 0x00000000, 0x00000000, 0x00000000, 0x00000000,
  0x00000201, 0xC0040400, 0xDDEE0080, 0x00000000, 0x00000000,
  0x08800109, 0x003C0340, 0x00000082, 0x00000000, 0x00000000,
  0x00000201, 0x020C0300, 0x00000081, 0x00000000, 0xFFFFFFFF]

/-- The accumulation length of PEs 9 to 11, with the rest of its word. -/
def delayWord (inChan : BitVec 16) : BitVec 32 := inChan.setWidth 32 <<< 16 ||| 0x0080

/-- `matvecBitstream`. -/
def matvecBitstream (inChan : BitVec 16) : List (BitVec 32) :=
  ((((((centeredMatmulBitstream.set 19 0).set 39 0).set 59 0).set 79 0).set 27
    (delayWord inChan)).set 47 (delayWord inChan)).set 67 (delayWord inChan)

/-- The copy the rewrite makes, with the words it stores to. -/
def patchedKernel (analysis : Conv2DMatmulAnalysis) : List (BitVec 32) :=
  ((((((centeredMatmulBitstream.set (5 * (3 + 0) + 4) analysis.zX).set (5 * (3 + 12) + 4)
    analysis.zW).set (5 * (3 + 8) + 4) analysis.zW).set (5 * (3 + 4) + 4) analysis.zW).set
    (5 * (5 + 8) + 2) (delayWord analysis.inChan)).set (5 * (5 + 4) + 2)
    (delayWord analysis.inChan)).set (5 * (5 + 0) + 2) (delayWord analysis.inChan)

/-- The type of a value that dimensions 0 to 2 have been collapsed of. -/
def collapseTo2D (type : RankedTensorType) : RankedTensorType where
  shape := [
    (do
      let dim0 ← type.getDimSize 0
      let dim1 ← type.getDimSize 1
      let dim2 ← type.getDimSize 2
      return dim0 * dim1 * dim2),
    type.getDimSize 3]
  element := type.element

/-- `getDynamicTensorType`. -/
def getDynamicTensorType (type : RankedTensorType) : RankedTensorType where
  shape := type.shape.map fun _ => none
  element := type.element

/-- `ExpandShapeOp` infers the sizes of its result only where no more than one dimension
of a group is dynamic; else the op it builds is not valid. -/
def expandShapeValid (type : RankedTensorType) (reassoc : List (List Nat)) : Bool :=
  reassoc.all fun group => (group.filter fun dim => (type.getDimSize dim).isNone).length ≤ 1

/-- The operand of the call: a scalar as it is, a tensor collapsed and then cast. -/
inductive CallOperand
  | kernelHandle
  | scalar (value : ConvValue)
  | collapsed (value : ConvValue) (type castType : RankedTensorType)
  deriving DecidableEq, Repr

/-- What stands in for the convolution. -/
structure Offload where
  /-- The constant passed to `custom.init_accelerator`. -/
  kernelBlob : List (BitVec 32)
  /-- The operands of `custom.my_centered_gemm`. -/
  callOperands : List CallOperand
  callResultType : RankedTensorType
  castedResultType : RankedTensorType
  reassoc : List (List Nat)
  resultType : RankedTensorType
  deriving DecidableEq, Repr

/-- `Conv2DOffload::matchAndRewrite`; none where the pattern does not apply. -/
def conv2DOffload (convOp : Conv2DNhwcHwcfQOp) : Option Offload := do
  let analysis ← isMatmulEquivalent convOp
  let _kernel := patchedKernel analysis
  let collapsedX := collapseTo2D convOp.xType
  let collapsedW := collapseTo2D analysis.wToPassType
  let collapsedY := collapseTo2D convOp.yType
  let collapsed (value : ConvValue) (type : RankedTensorType) : CallOperand :=
    .collapsed value type (getDynamicTensorType type)
  return {
    kernelBlob := centeredMatmulBitstream
    callOperands := [
      .kernelHandle,
      collapsed (analysis.operands.getD 0 .x) collapsedX,
      .scalar (analysis.operands.getD 1 .zX),
      collapsed (analysis.operands.getD 2 .w) collapsedW,
      .scalar (analysis.operands.getD 3 .zW),
      collapsed (analysis.operands.getD 4 .y) collapsedY]
    callResultType := getDynamicTensorType collapsedY
    castedResultType := collapsedY
    reassoc := [[0, 1, 2], [3]]
    resultType := convOp.yType }

/-- The position of a word of a PE in a configuration: the PEs column by column, each
column from its last row up, five words each. -/
def peWord (pe word : Nat) : Nat := 20 * (pe % 4) + 5 * (3 - pe / 4) + word

/-- The kernel a convolution needs: `z_x` in PE 0, `z_w` in PEs 1 to 3, and the number of
products to sum in PEs 9 to 11. -/
def configuredKernel (zX zW : BitVec 32) (inChan : BitVec 16) : List (BitVec 32) :=
  let zeroPoints := [1, 2, 3].foldl (fun kernel pe => kernel.set (peWord pe 4) zW)
    (centeredMatmulBitstream.set (peWord 0 4) zX)
  [9, 10, 11].foldl (fun kernel pe => kernel.set (peWord pe 2) (delayWord inChan)) zeroPoints

/-- The copy that is patched is the right one. -/
theorem patchedKernel_configured (analysis : Conv2DMatmulAnalysis) :
    patchedKernel analysis = configuredKernel analysis.zX analysis.zW analysis.inChan := by
  have order (kernel : List (BitVec 32)) (a b c : Nat) (value : BitVec 32) (ab : a ≠ b) (ac : a ≠ c)
      (bc : b ≠ c) : ((kernel.set a value).set b value).set c value =
        ((kernel.set c value).set b value).set a value := by
    rw [List.set_comm _ _ ab, List.set_comm _ _ ac, List.set_comm _ _ bc]
  unfold patchedKernel
  rw [order _ _ _ _ analysis.zW (by decide) (by decide) (by decide),
    order _ _ _ _ (delayWord analysis.inChan) (by decide) (by decide) (by decide)]
  rfl

/-- With zero points 0 it is the other function's kernel. -/
theorem configuredKernel_matvec (inChan : BitVec 16) :
    configuredKernel 0 0 inChan = matvecBitstream inChan := rfl

theorem delayWord_channels (inChan : BitVec 16) :
    (delayWord inChan >>> 16).setWidth 16 = inChan := by
  have low : ∀ i < 16, (0x0080 : BitVec 32).getLsbD (16 + i) = false := by decide
  unfold delayWord
  apply BitVec.eq_of_getLsbD_eq
  intro i below
  have inWord : 16 + i < 32 := by omega
  have shifted : ¬ 16 + i < 16 := by omega
  have back : 16 + i - 16 = i := by omega
  have narrow : i < 32 := by omega
  simp only [BitVec.getLsbD_setWidth, BitVec.getLsbD_ushiftRight, BitVec.getLsbD_or,
    BitVec.getLsbD_shiftLeft,
    low i below, below, inWord, shifted, back, narrow, decide_true, decide_false,
    Bool.true_and, Bool.not_false, Bool.or_false]

theorem delayWord_injective {a b : BitVec 16} (same : delayWord a = delayWord b) : a = b := by
  rw [← delayWord_channels a, same, delayWord_channels b]

/-- Each of the three parameters can be read back. -/
theorem configuredKernel_injective {zX zX' zW zW' : BitVec 32} {inChan inChan' : BitVec 16}
    (same : configuredKernel zX zW inChan = configuredKernel zX' zW' inChan') :
    zX = zX' ∧ zW = zW' ∧ inChan = inChan' := by
  have word (n : Nat) := congrArg (fun kernel : List (BitVec 32) => kernel[n]?) same
  have first := word 19
  have others := word 39
  have delay := word 27
  change some zX = some zX' at first
  change some zW = some zW' at others
  change some (delayWord inChan) = some (delayWord inChan') at delay
  exact ⟨Option.some.inj first, Option.some.inj others, delayWord_injective (Option.some.inj delay)⟩

/-- The words as they stand in the source are a configuration as well. -/
theorem centeredMatmulBitstream_configured :
    centeredMatmulBitstream = configuredKernel 0xFFFFFFFF 0xFFFFFFFF 0xDDEE := by decide

/-- The constant that is built is the one the patched copy was made of. -/
theorem conv2DOffload_kernelBlob {convOp : Conv2DNhwcHwcfQOp} {analysis : Conv2DMatmulAnalysis}
    (accepted : isMatmulEquivalent convOp = some analysis) :
    (conv2DOffload convOp).map Offload.kernelBlob = some centeredMatmulBitstream := by
  unfold conv2DOffload
  rw [accepted]
  rfl

/-- The accelerator gets the kernel of the convolution only for the zero points and the
channels that the source's words have in their place. -/
theorem conv2DOffload_configured_iff (convOp : Conv2DNhwcHwcfQOp) (analysis : Conv2DMatmulAnalysis)
    (accepted : isMatmulEquivalent convOp = some analysis) :
    ((conv2DOffload convOp).map Offload.kernelBlob =
        some (configuredKernel analysis.zX analysis.zW analysis.inChan) ∧
      (analysis.zX = 0 → analysis.zW = 0 →
        (conv2DOffload convOp).map Offload.kernelBlob = some (matvecBitstream analysis.inChan)) ∧
      ∀ zX zW inChan,
        (conv2DOffload convOp).map Offload.kernelBlob = some (configuredKernel zX zW inChan) →
          zX = analysis.zX ∧ zW = analysis.zW ∧ inChan = analysis.inChan) ↔
      analysis.zX = 0xFFFFFFFF ∧ analysis.zW = 0xFFFFFFFF ∧ analysis.inChan = 0xDDEE := by
  rw [conv2DOffload_kernelBlob accepted, centeredMatmulBitstream_configured]
  constructor
  · rintro ⟨configured, _, _⟩
    obtain ⟨zX, zW, inChan⟩ := configuredKernel_injective (Option.some.inj configured)
    exact ⟨zX.symm, zW.symm, inChan.symm⟩
  · rintro ⟨zX, zW, inChan⟩
    rw [zX, zW, inChan]
    refine ⟨rfl, ?_, ?_⟩
    · intro zero _
      exact absurd zero (by decide)
    · intro zX' zW' inChan' same
      obtain ⟨first, others, delay⟩ := configuredKernel_injective (Option.some.inj same)
      exact ⟨first.symm, others.symm, delay.symm⟩

/-- A product of 3 channels by 2 features, its weight stored feature by feature. -/
def sampleConv (z : BitVec 32) (channels : Nat) : Conv2DNhwcHwcfQOp where
  xType := ⟨[some 1, some 1, some 1, some channels], .integer 8⟩
  wType := ⟨[some 1, some 1, some channels, some 2], .integer 8⟩
  zX := ⟨some 32, .integer ⟨32, z⟩⟩
  zW := ⟨some 32, .integer ⟨32, z⟩⟩
  yType := ⟨[some 1, some 1, some 1, some 2], .integer 32⟩
  strides := [1, 1]
  dilations := [1, 1]
  transpose := some ⟨⟨[some 2, some 1, some 1, some channels], .integer 8⟩, [1, 2, 3, 0]⟩

def sampleAnalysis (z : BitVec 32) (inChan : BitVec 16) (channels : Nat) :
    Conv2DMatmulAnalysis where
  zX := z
  zW := z
  inChan
  operands := [.x, .zX, .transposeInput, .zW, .y]
  wToPassType := ⟨[some 2, some 1, some 1, some channels], .integer 8⟩

theorem conv2DOffload_configured_iff_sample :
    (conv2DOffload (sampleConv 0xFFFFFFFF 0xDDEE)).map Offload.kernelBlob =
      some (configuredKernel 0xFFFFFFFF 0xFFFFFFFF 0xDDEE) :=
  ((conv2DOffload_configured_iff (sampleConv 0xFFFFFFFF 0xDDEE)
    (sampleAnalysis 0xFFFFFFFF 0xDDEE 0xDDEE)
    (by decide)).mpr (by decide)).1

/-- Zero points 0 and 3 channels: the copy's words never reach the constant. -/
theorem conv2DOffload_unpatched :
    isMatmulEquivalent (sampleConv 0 3) = some (sampleAnalysis 0 3 3) ∧
      (conv2DOffload (sampleConv 0 3)).map Offload.kernelBlob ≠
      some (configuredKernel 0 0 3) := by decide

end Estela.Compiler.FuseConv2D
