import Estela.Compiler.MaterializeBindings

set_option autoImplicit false

/- Which words of a bound dispatch tensor the accesses of a kernel touch. -/
namespace Estela.Compiler

open Ssa (Op Body definingOp)

/-- A dispatch tensor load or store, as far as it touches memory. -/
structure Access where
  slice : Slice
  dispatchTensor : Nat
  operands : List Nat
  deriving DecidableEq, Repr

def LoadOp.access (loadOp : LoadOp) : Access where
  slice := loadOp.slice
  dispatchTensor := loadOp.source
  operands := loadOp.operands

def StoreOp.access (storeOp : StoreOp) : Access where
  slice := storeOp.slice
  dispatchTensor := storeOp.target
  operands := storeOp.operands

/-- The accesses that become columns. -/
def StrelaEntryPointInfo.accesses (info : StrelaEntryPointInfo) : List Access :=
  info.operandOps.map LoadOp.access ++ [info.resultOp.access]

section

variable (access : Access) (values : Nat → Val)

/-- The shape of the bound dispatch tensor. -/
def Access.dims : List Nat :=
  match values access.dispatchTensor with
  | .dispatchTensor _ _ dims => dims
  | _ => []

def Access.sizes : List Nat :=
  (access.slice.getMixedSizes (access.operands.map values)).map ofrElements

/-- The words it touches, from the byte offset of the subspan on. -/
def Access.words : List Nat :=
  access.slice.words (access.dims values) (access.operands.map values)

/-- What MLIR's verifier promises: an offset, a size and a stride for each dimension. -/
structure Access.Ranked : Prop where
  offsets : (access.slice.getMixedOffsets access.operands).length = (access.dims values).length
  sizes : (access.slice.getMixedSizes access.operands).length = (access.dims values).length
  strides : (access.slice.getMixedStrides access.operands).length = (access.dims values).length

end

/-- An access `coversWholeTensor` lets through. -/
def Access.Covers (access : Access) (body : Body OpKind) : Prop :=
  coversWholeTensor body (access.slice.getMixedOffsets access.operands)
    (access.slice.getMixedStrides access.operands) = true

theorem EntryPointParts.covers {body : Body OpKind} {info : StrelaEntryPointInfo} {result : Nat}
    (parts : EntryPointParts body info result) (access : Access) (member : access ∈ info.accesses) :
    access.Covers body := by
  rcases List.mem_append.mp member with load | store
  · obtain ⟨loadOp, among, rfl⟩ := List.mem_map.mp load
    obtain ⟨i, bound, rfl⟩ := List.mem_iff_getElem.mp among
    have paired : i < (info.operandOps.zip info.operands).length := by
      rw [List.length_zip, ← parts.lengths, Nat.min_self]
      exact bound
    have operand := (List.forall₂_iff_get.mp parts.operands).2 i
      (by rw [parts.operands.length_eq]; exact paired) paired
    simpa only [List.get_eq_getElem, List.getElem_zip, Access.Covers,
      LoadOp.access] using operand.covers
  · obtain rfl := List.mem_singleton.mp store
    exact parts.stored.covers

/-- A constant of zero or one is that many elements. -/
theorem isConstantIntValue_elements {body : Body OpKind} (wellFormed : WellFormed body)
    (constants : Nat → BitVec 32) (others : OpKind → List Val → List Val)
    (memory : Nat → Nat → BitVec 32) (ofr : OpFoldResult Nat) (n : Nat)
    (constant : isConstantIntValue body ofr n = true) :
    ofrElements (ofr.map (runDispatch constants others body memory).1) = n := by
  cases ofr with
  | attr value =>
      have same : value = n := by simpa [isConstantIntValue] using constant
      simp [OpFoldResult.map, ofrElements, same]
  | value v =>
      simp only [isConstantIntValue] at constant
      split at constant
      · rename_i a found
        have same : a.bits.toInt = n := by simpa using constant
        rw [OpFoldResult.map, constantInt_value wellFormed constants others memory found,
          ofrElements]
        rw [BitVec.toInt_eq_toNat_cond] at same
        have small := a.bits.isLt
        split at same <;> omega
      · cases constant

theorem map_ofrElements {body : Body OpKind} (wellFormed : WellFormed body)
    (constants : Nat → BitVec 32) (others : OpKind → List Val → List Val)
    (memory : Nat → Nat → BitVec 32) (entries : List (OpFoldResult Nat)) (n : Nat)
    (all : entries.all (isConstantIntValue body · n) = true) :
    (entries.map (OpFoldResult.map (runDispatch constants others body memory).1)).map ofrElements =
      List.replicate entries.length n := by
  rw [List.map_map, List.eq_replicate_iff]
  refine ⟨List.length_map _, fun elements member => ?_⟩
  obtain ⟨ofr, among, rfl⟩ := List.mem_map.mp member
  exact isConstantIntValue_elements wellFormed constants others memory ofr n
    (List.all_eq_true.mp all ofr among)

theorem getMixedOffsets_map {α β : Type} (slice : Slice) (f : α → β) (operands : List α) :
    slice.getMixedOffsets (operands.map f) =
      (slice.getMixedOffsets operands).map (OpFoldResult.map f) := by
  rw [Slice.getMixedOffsets, ← List.map_drop, getMixedValues_map]
  rfl

theorem getMixedSizes_map {α β : Type} (slice : Slice) (f : α → β) (operands : List α) :
    slice.getMixedSizes (operands.map f) =
      (slice.getMixedSizes operands).map (OpFoldResult.map f) := by
  rw [Slice.getMixedSizes, ← List.map_drop, getMixedValues_map]
  rfl

theorem getMixedStrides_map {α β : Type} (slice : Slice) (f : α → β) (operands : List α) :
    slice.getMixedStrides (operands.map f) =
      (slice.getMixedStrides operands).map (OpFoldResult.map f) := by
  rw [Slice.getMixedStrides, ← List.map_drop, getMixedValues_map]
  rfl

theorem zipWith_origin (index : List Nat) :
    List.zipWith (· + ·) (List.replicate index.length 0)
      (List.zipWith (· * ·) index (List.replicate index.length 1)) = index := by
  induction index with
  | nil => rfl
  | cons i rest ih => simpa [List.replicate_succ] using ih

/-- At the origin and with unit strides, the sizes alone say what is touched. -/
theorem sliceWords_origin (dims sizes : List Nat) :
    sliceWords dims (List.replicate sizes.length 0) sizes (List.replicate sizes.length 1) =
      RowMajor.addresses dims sizes := by
  apply List.map_congr_left
  intro index member
  rw [← RowMajor.length_of_mem_indices member, zipWith_origin]

section

variable {body : Body OpKind} (wellFormed : WellFormed body) (constants : Nat → BitVec 32)
  (others : OpKind → List Val → List Val) (memory : Nat → Nat → BitVec 32) {access : Access}
  (covers : access.Covers body)
  (ranked : access.Ranked (runDispatch constants others body memory).1)

theorem Access.Ranked.length_sizes {values : Nat → Val} (ranked : access.Ranked values) :
    (access.dims values).length = (access.sizes values).length := by
  rw [← ranked.sizes, Access.sizes, getMixedSizes_map, List.length_map, List.length_map]

include wellFormed covers ranked

theorem Access.words_origin :
    access.words (runDispatch constants others body memory).1 =
      RowMajor.addresses (access.dims (runDispatch constants others body memory).1)
        (access.sizes (runDispatch constants others body memory).1) := by
  obtain ⟨offsets, strides⟩ := Bool.and_eq_true_iff.mp covers
  have rank := ranked.length_sizes
  rw [Access.words, Slice.words, getMixedOffsets_map, getMixedStrides_map,
    map_ofrElements wellFormed constants others memory _ 0 offsets,
    map_ofrElements wellFormed constants others memory _ 1 strides, ranked.offsets,
    ranked.strides, rank]
  exact sliceWords_origin _ _

/-- An access that covers its tensor's origin is dense exactly if its sizes are. -/
theorem Access.words_eq_range_iff :
    access.words (runDispatch constants others body memory).1 =
        List.range (access.sizes (runDispatch constants others body memory).1).prod ↔
      (access.sizes (runDispatch constants others body memory).1).prod = 0 ∨
        RowMajor.Dense (access.dims (runDispatch constants others body memory).1)
          (access.sizes (runDispatch constants others body memory).1) := by
  rw [Access.words_origin wellFormed constants others memory covers ranked]
  by_cases empty : (access.sizes (runDispatch constants others body memory).1).prod = 0
  · simp only [empty, true_or, iff_true]
    exact List.length_eq_zero_iff.mp ((RowMajor.length_addresses _ _).trans empty)
  · rw [RowMajor.addresses_eq_range_iff _ _ ranked.length_sizes empty]
    simp [empty]

end

/-- The words an accepted access touches, in the order of its own sizes, are the
first ones of the tensor, as many as its sizes say, exactly if each dimension it is
wider than one in only has dimensions of full extent inside. -/
theorem analyzeEntryPoint_dense_iff {body : Body OpKind} (wellFormed : WellFormed body)
    {info : StrelaEntryPointInfo} (analyzed : analyzeEntryPoint body = .ok info)
    (constants : Nat → BitVec 32) (others : OpKind → List Val → List Val)
    (memory : Nat → Nat → BitVec 32) (access : Access) (member : access ∈ info.accesses)
    (ranked : access.Ranked (runDispatch constants others body memory).1) :
    let values := (runDispatch constants others body memory).1
    access.words values = List.range (access.sizes values).prod ↔
      (access.sizes values).prod = 0 ∨
      RowMajor.Dense (access.dims values) (access.sizes values) := by
  obtain ⟨result, parts⟩ := analyzeEntryPoint_ok analyzed
  exact access.words_eq_range_iff wellFormed constants others memory
    (parts.covers access member) ranked

/-- The top left corner of a matrix. -/
def cornerSlice (rows columns : Int) : Slice where
  sourceDims := 0
  offsets := [some 0, some 0]
  sizes := [some rows, some columns]
  strides := [some 1, some 1]

def cornerType (rows columns : Nat) : TensorType := .ranked [some rows, some columns] (.integer 32)

/-- The corner of the 4 by 4 matrix of binding 0, through `strela.relu`, into
binding 1. -/
def cornerBody (rows columns : Nat) : Body OpKind := [
  ⟨.bindingSubspan 0 false [some 4, some 4], [], [0]⟩,
  ⟨.bindingSubspan 1 false [some rows, some columns], [], [1]⟩,
  ⟨.dispatchTensorLoad (cornerSlice rows columns) (cornerType rows columns), [0], [2]⟩,
  ⟨.relu (cornerType rows columns), [2], [3]⟩,
  ⟨.dispatchTensorStore (cornerSlice rows columns), [3, 1], []⟩]

theorem cornerBody_wellFormed (rows columns : Nat) : WellFormed (cornerBody rows columns) where
  dominated := by simp [cornerBody, Ssa.Dominated]
  results := by simp [cornerBody, OpKind.resultCount]
  widens := by simp [cornerBody]

def cornerLoad (rows columns : Nat) : LoadOp where
  slice := cornerSlice rows columns
  type := cornerType rows columns
  source := 0
  operands := []

def cornerInfo (rows columns : Nat) : StrelaEntryPointInfo where
  kernelIndex := 3
  kernelOp := ⟨.relu (cornerType rows columns), [2], [3]⟩
  operandOps := [cornerLoad rows columns]
  resultOp := { slice := cornerSlice rows columns, value := 3, target := 1, operands := [] }
  operands := [{ binding := 0, offsets := [], staticByteOffset := none }]
  result := { binding := 1, offsets := [], staticByteOffset := none }

theorem analyzeEntryPoint_dense_iff_sample :
    let values := (runDispatch (fun _ => 0) (fun _ _ => []) (cornerBody 2 4) (fun _ _ => 0)).1
    (cornerLoad 2 4).access.words values = List.range ((cornerLoad 2 4).access.sizes values).prod ↔
      ((cornerLoad 2 4).access.sizes values).prod = 0 ∨
        RowMajor.Dense ((cornerLoad 2 4).access.dims values)
          ((cornerLoad 2 4).access.sizes values) :=
  analyzeEntryPoint_dense_iff (cornerBody_wellFormed 2 4) 
    (show analyzeEntryPoint (cornerBody 2 4) = .ok (cornerInfo 2 4) from rfl) _ _ _ _
    (by simp [StrelaEntryPointInfo.accesses, cornerInfo]) ⟨rfl, rfl, rfl⟩

/-- Two words of each of two rows are not the first four words. -/
theorem analyzeEntryPoint_accepts_corner :
    WellFormed (cornerBody 2 2) ∧ analyzeEntryPoint (cornerBody 2 2) = .ok (cornerInfo 2 2) ∧
      (cornerLoad 2 2).access ∈ (cornerInfo 2 2).accesses ∧
      let values := (runDispatch (fun _ => 0) (fun _ _ => []) (cornerBody 2 2) (fun _ _ => 0)).1
      (cornerLoad 2 2).access.Ranked values ∧ (cornerLoad 2 2).access.words values = [0, 1, 4, 5] ∧
        (cornerLoad 2 2).access.words values ≠
          List.range ((cornerLoad 2 2).access.sizes values).prod :=
  ⟨cornerBody_wellFormed 2 2, rfl, by simp [StrelaEntryPointInfo.accesses, cornerInfo],
    ⟨rfl, rfl, rfl⟩, rfl, by decide⟩

end Estela.Compiler
