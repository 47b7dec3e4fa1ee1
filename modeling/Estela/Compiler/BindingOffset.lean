import Estela.Compiler.DispatchIr

set_option autoImplicit false

namespace Estela.Compiler

open Ssa (Op Body definingOp)

/-- `StrelaBinding`: where one kernel argument comes from. -/
structure StrelaBinding where
  binding : BitVec 32
  offsets : List (BitVec 32)
  staticByteOffset : Option (BitVec 64)
  deriving DecidableEq, Repr

/-- `lookThroughAssume`. The chain of assumes a value is seen through is no
longer than the body. -/
def lookThroughAssume (body : Body OpKind) (value : Nat) : Nat :=
  go body.length value
where
  go : Nat → Nat → Nat
    | 0, value => value
    | fuel + 1, value =>
        match definingOp body value with
        | some (⟨.assumeInt, operands, _⟩, resultNumber) =>
            match operands[resultNumber]? with
            | some operand => go fuel operand
            | none => value
        | _ => value

/-- `getDefiningOp<IndexCastUIOp>()->getIn()`. -/
def indexCastuiIn (body : Body OpKind) (value : Nat) : Option Nat :=
  match definingOp body value with
  | some (⟨.indexCastui _, [in_], _⟩, _) => some in_
  | _ => none

/-- The operands of `getDefiningOp<OrIOp>()`. -/
def oriOperands (body : Body OpKind) (value : Nat) : Option (Nat × Nat) :=
  match definingOp body value with
  | some (⟨.ori, [lhs, rhs], _⟩, _) => some (lhs, rhs)
  | _ => none

/-- The operands of `getDefiningOp<ShLIOp>()`. -/
def shliOperands (body : Body OpKind) (value : Nat) : Option (Nat × Nat) :=
  match definingOp body value with
  | some (⟨.shli, [lhs, rhs], _⟩, _) => some (lhs, rhs)
  | _ => none

/-- `getDefiningOp<ExtUIOp>()->getIn()`. -/
def extuiIn (body : Body OpKind) (value : Nat) : Option Nat :=
  match definingOp body value with
  | some (⟨.extui _, [in_], _⟩, _) => some in_
  | _ => none

/-- The width of the type an `arith.extui` or `arith.index_castui` casts to. -/
def castWidth (body : Body OpKind) (value : Nat) : Nat :=
  match definingOp body value with
  | some (⟨.indexCastui width, _, _⟩, _) => width
  | some (⟨.extui width, _, _⟩, _) => width
  | _ => 0

section

variable {body : Body OpKind} (wellFormed : WellFormed body) (constants : Nat → BitVec 32)
  (others : OpKind → List Val → List Val) (memory : Nat → Nat → BitVec 32)

include wellFormed

theorem lookThroughAssume_value (v : Nat) :
    (runDispatch constants others body memory).1 (lookThroughAssume body v) =
      (runDispatch constants others body memory).1 v := by
  unfold lookThroughAssume
  generalize body.length = fuel
  induction fuel generalizing v with
  | zero => rfl
  | succ fuel ih =>
      unfold lookThroughAssume.go
      split
      · rename_i operands results resultNumber defined
        split
        · rename_i operand forwarded
          obtain ⟨s, value⟩ := runDispatch_definingOp wellFormed constants others memory defined
          rw [ih operand]
          refine (value _ ?_).symm
          simp [dispatchInterp, forwarded]
        · rfl
      · rfl

theorem indexCastuiIn_value {v in_ : Nat} {a : APInt} (found : indexCastuiIn body v = some in_)
    (operand : (runDispatch constants others body memory).1 in_ = .int a) :
    (runDispatch constants others body memory).1 v =
      .int ⟨castWidth body v, a.bits.setWidth (castWidth body v)⟩ := by
  unfold indexCastuiIn at found
  split at found
  · rename_i width in_ results i defined
    cases found
    obtain rfl := wellFormed.single defined rfl
    obtain ⟨s, value⟩ := runDispatch_definingOp wellFormed constants others memory defined
    have cast : castWidth body v = width := by simp only [castWidth, defined]
    rw [cast]
    refine value _ ?_
    simp [dispatchInterp, operand]
  · cases found

theorem extuiIn_value {v in_ : Nat} {a : APInt} (found : extuiIn body v = some in_)
    (operand : (runDispatch constants others body memory).1 in_ = .int a) :
    (runDispatch constants others body memory).1 v =
      .int ⟨castWidth body v, a.bits.setWidth (castWidth body v)⟩ := by
  unfold extuiIn at found
  split at found
  · rename_i width in_ results i defined
    cases found
    obtain rfl := wellFormed.single defined rfl
    obtain ⟨s, value⟩ := runDispatch_definingOp wellFormed constants others memory defined
    have cast : castWidth body v = width := by simp only [castWidth, defined]
    rw [cast]
    refine value _ ?_
    simp [dispatchInterp, operand]
  · cases found

theorem shliOperands_value {v lhs rhs : Nat} {a b : APInt}
    (found : shliOperands body v = some (lhs, rhs))
    (left : (runDispatch constants others body memory).1 lhs = .int a)
    (right : (runDispatch constants others body memory).1 rhs = .int b) :
    (runDispatch constants others body memory).1 v = .int ⟨a.width, a.bits <<< b.bits.toNat⟩ := by
  unfold shliOperands at found
  split at found
  · rename_i lhs rhs results i defined
    cases found
    obtain rfl := wellFormed.single defined rfl
    obtain ⟨s, value⟩ := runDispatch_definingOp wellFormed constants others memory defined
    refine value _ ?_
    simp [dispatchInterp, left, right]
  · cases found

theorem oriOperands_value {v lhs rhs : Nat} {a b : APInt}
    (found : oriOperands body v = some (lhs, rhs))
    (left : (runDispatch constants others body memory).1 lhs = .int a)
    (right : (runDispatch constants others body memory).1 rhs = .int b) :
    (runDispatch constants others body memory).1 v =
      .int ⟨a.width, a.bits ||| b.bits.setWidth a.width⟩ := by
  unfold oriOperands at found
  split at found
  · rename_i lhs rhs results i defined
    cases found
    obtain rfl := wellFormed.single defined rfl
    obtain ⟨s, value⟩ := runDispatch_definingOp wellFormed constants others memory defined
    refine value _ ?_
    simp [dispatchInterp, left, right]
  · cases found

end

/-- The two ordinals under an `ori`, low word first. -/
def matchOrdinalPair (body : Body OpKind) (lhs rhs : Nat) : Option (Nat × Nat) := do
  let lowIn ← extuiIn body (lookThroughAssume body lhs)
  let (shiftLhs, shiftRhs) ← shliOperands body (lookThroughAssume body rhs)
  let shiftAmount ← constantInt body shiftRhs
  if shiftAmount.bits.toNat ≠ 32 then
    none
  let highIn ← extuiIn body (lookThroughAssume body shiftLhs)
  let low ← constantLoadOrdinal body lowIn
  let high ← constantLoadOrdinal body highIn
  return (low, high)

/-- `matchBindingOffset`: what it leaves in `offsets` and `staticByteOffset`. -/
def matchBindingOffset (body : Body OpKind) (byteOffset : Option Nat) :
    Option (List (BitVec 32) × Option (BitVec 64)) :=
  match byteOffset with
  | none => some ([], none)
  | some byteOffset =>
    let byteOffset := lookThroughAssume body byteOffset
    match constantInt body byteOffset with
    | some literal =>
        if literal.isNegative ∨ literal.wide then none
        else if literal.isZero then some ([], none)
        else some ([], some literal.getZExtValue)
    | none => do
        let in_ ← indexCastuiIn body byteOffset
        match constantLoadOrdinal body (lookThroughAssume body in_) with
        | some ordinal => return ([BitVec.ofNat 32 ordinal], none)
        | none =>
          let (lhs, rhs) ← oriOperands body (lookThroughAssume body in_)
          let (low, high) ← matchOrdinalPair body lhs rhs
          return ([BitVec.ofNat 32 low, BitVec.ofNat 32 high], none)

/-- `verifyBindingOffsets`, the verifier of both binding ops. -/
def verifyBindingOffsets (offsets : Option (List (BitVec 64))) (byteOffset : Option (BitVec 64)) :
    Except String Unit :=
  if offsets.any fun offsets => offsets.length ≠ 1 ∧ offsets.length ≠ 2 then
    .error ("expected one offset ordinal, or two for the low and high halves of the byte " ++
      s!"offset, but got {(offsets.getD []).length}")
  else if offsets.isSome ∧ byteOffset.isSome then
    .error ("carries both push constant offset ordinals and a static byte offset; the offset " ++
      "comes from one place or the other")
  else if byteOffset = some 0 then
    .error "a zero byte offset is expressed by omitting the attribute"
  else .ok ()

/-- The attributes `MaterializeBindings` gives the op for a binding. -/
def StrelaBinding.attrs (binding : StrelaBinding) : BindingAttrs where
  binding := binding.binding.setWidth 64
  offsets := if binding.offsets.isEmpty then none else some (binding.offsets.map (·.setWidth 64))
  byteOffset := binding.staticByteOffset

end Estela.Compiler
