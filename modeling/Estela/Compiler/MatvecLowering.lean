import Mathlib.Data.BitVec
import Estela.Lib.NdArray
import Estela.Compiler.KernelMatchers

set_option autoImplicit false

/- `strela.matvec` in place of a `linalg.batch_matmul`: its verifier, and what both
denote for every size of the dynamic dimensions. -/
namespace Estela.Compiler

open RowMajor (NdArray indices linearize accumulate)

/-- `strela::MatvecOp`. -/
structure MatvecOp where
  lhs : Nat
  rhs : Nat
  lhsType : TensorType
  rhsType : TensorType
  resultType : TensorType
  deriving DecidableEq, Repr

/-- The `I32Tensor` of its operands and its result. -/
def MatvecOp.isI32 (op : MatvecOp) : Bool :=
  op.lhsType.isInteger32 ∧ op.rhsType.isInteger32 ∧ op.resultType.isInteger32

/-- The loop bounds the types allow: each dimension of a tensor has the bound of the
loop that indexes it. -/
structure BatchMatmulOp.Allows (op : BatchMatmulOp) (batch rows columns reduction : Nat) :
    Prop where
  lhs : op.lhsType.Allows [batch, rows, reduction]
  rhs : op.rhsType.Allows [batch, reduction, columns]
  out : op.outType.Allows [batch, rows, columns]

/-- The static sizes that belong to one loop agree, so that the op can be run. -/
def BatchMatmulOp.WellFormed (op : BatchMatmulOp) : Prop :=
  ∃ batch rows columns reduction, op.Allows batch rows columns reduction

/-- What a `linalg.batch_matmul` denotes: a loop nest over batch, rows, columns and
reduction, on i32 that wrap. -/
def batchMatmul (bounds : List Nat) (lhs rhs init : NdArray (BitVec 32)) : NdArray (BitVec 32) where
  shape := init.shape
  elements := accumulate (fun loop => linearize init.shape (loop.take 3))
    (fun loop => lhs.get [loop.getD 0 0, loop.getD 1 0, loop.getD 3 0] *
      rhs.get [loop.getD 0 0, loop.getD 3 0, loop.getD 2 0])
    (indices bounds) init.elements
  whole := by rw [RowMajor.length_accumulate, init.whole]

/-- What a `strela.matvec` denotes. -/
def matvec (lhs rhs : NdArray (BitVec 32)) : NdArray (BitVec 32) :=
  NdArray.ofFn [1, lhs.shape.getD 1 0, rhs.shape.getD 2 0] fun index =>
    ((List.range (lhs.shape.getD 2 0)).map fun c =>
      lhs.get [0, index.getD 1 0, c] * rhs.get [0, c, index.getD 2 0]).sum

/-- The result of the op, of the tensors its operands are. -/
def BatchMatmulOp.denote (op : BatchMatmulOp) (bounds : List Nat)
    (tensors : Nat → NdArray (BitVec 32)) : NdArray (BitVec 32) :=
  batchMatmul bounds (tensors op.lhs) (tensors op.rhs) (tensors op.out)

def MatvecOp.denote (op : MatvecOp) (tensors : Nat → NdArray (BitVec 32)) : NdArray (BitVec 32) :=
  matvec (tensors op.lhs) (tensors op.rhs)

theorem TensorType.Allows.three {dims : List (Option Nat)} {element : ElementType} {a b c : Nat}
    (allows : (TensorType.ranked dims element).Allows [a, b, c]) :
    ∃ d e f, dims = [d, e, f] ∧ (∀ known, d = some known → known = a) ∧
      (∀ known, e = some known → known = b) ∧ ∀ known, f = some known → known = c := by
  obtain _ | ⟨first, _ | ⟨second, _ | ⟨third, _ | _⟩⟩⟩ := allows
  exact ⟨_, _, _, rfl, first, second, third⟩

end Estela.Compiler
