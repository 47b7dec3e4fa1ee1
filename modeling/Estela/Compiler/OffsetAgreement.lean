import Estela.Compiler.StrelaTarget
import Estela.Runtime.CommandBuffer

set_option autoImplicit false

/- The byte offset of a subspan, from the expression in the executable source to
the address the driver computes. -/
namespace Estela.Compiler

open Ssa (Op Body definingOp)
open Estela.Runtime (SizeT ConstByteSpan addOffsetConstants)

/-- The forms a byte offset is recognized in, with what the recognizer looks at. -/
inductive OffsetForm
  | literal (value : BitVec 64)
  | single (ordinal : Nat)
  | pair (low high lowWidth highWidth : Nat)
  deriving DecidableEq, Repr

/-- The width the low word is extended to. -/
def lowWidth (body : Body OpKind) (value : Nat) : Nat :=
  castWidth body (lookThroughAssume body value)

/-- The width the high word is extended to before it is shifted. -/
def highWidth (body : Body OpKind) (value : Nat) : Nat :=
  match shliOperands body (lookThroughAssume body value) with
  | some (shiftLhs, _) => lowWidth body shiftLhs
  | none => 0

def offsetForm (body : Body OpKind) (byteOffset : Option Nat) : Option OffsetForm :=
  match byteOffset with
  | none => some (.literal 0)
  | some byteOffset =>
    let byteOffset := lookThroughAssume body byteOffset
    match constantInt body byteOffset with
    | some literal =>
        if literal.isNegative ∨ literal.wide then none else some (.literal literal.getZExtValue)
    | none => do
        let in_ ← indexCastuiIn body byteOffset
        match constantLoadOrdinal body (lookThroughAssume body in_) with
        | some ordinal => return .single ordinal
        | none =>
          let (lhs, rhs) ← oriOperands body (lookThroughAssume body in_)
          let (low, high) ← matchOrdinalPair body lhs rhs
          return .pair low high (lowWidth body lhs) (highWidth body rhs)

/-- What `matchOrdinalPair` goes through. -/
theorem matchOrdinalPair_some {body : Body OpKind} {lhs rhs low high : Nat}
    (found : matchOrdinalPair body lhs rhs = some (low, high)) :
    ∃ lowIn shiftLhs shiftRhs shiftAmount highIn,
      extuiIn body (lookThroughAssume body lhs) = some lowIn ∧
      shliOperands body (lookThroughAssume body rhs) = some (shiftLhs, shiftRhs) ∧
      constantInt body shiftRhs = some shiftAmount ∧ shiftAmount.bits.toNat = 32 ∧
      extuiIn body (lookThroughAssume body shiftLhs) = some highIn ∧
      constantLoadOrdinal body lowIn = some low ∧ constantLoadOrdinal body highIn = some high := by
  simp only [matchOrdinalPair, bind, Option.bind_eq_some_iff] at found
  obtain ⟨lowIn, lowFound, ⟨shiftLhs, shiftRhs⟩, shiftFound, shiftAmount, amountFound, rest⟩ :=
    found
  by_cases amount : shiftAmount.bits.toNat = 32
  · simp only [amount, ne_eq, not_true_eq_false, ↓reduceIte, Option.bind_eq_some_iff] at rest
    obtain ⟨highIn, highFound, low', lowOrdinal, high', highOrdinal, same⟩ := rest
    cases same
    exact ⟨lowIn, shiftLhs, shiftRhs, shiftAmount, highIn, lowFound, shiftFound,
      amountFound, amount, highFound, lowOrdinal, highOrdinal⟩
  · simp [amount] at rest

/-- A constant or a cast that stands for a byte offset has the type of an index. -/
def IndexTyped (body : Body OpKind) (byteOffset : Nat) : Prop :=
  match definingOp body (lookThroughAssume body byteOffset) with
  | some (⟨.constant value, _, _⟩, _) => value.width = 64
  | some (⟨.indexCastui width, _, _⟩, _) => width = 64
  | _ => True

section

variable {body : Body OpKind} (wellFormed : WellFormed body)

include wellFormed

theorem pair_value {lhs rhs low high : Nat}
    (found : matchOrdinalPair body lhs rhs = some (low, high)) (constants : Nat → BitVec 32)
    (others : OpKind → List Val → List Val) (memory : Nat → Nat → BitVec 32) :
    (runDispatch constants others body memory).1 lhs =
        .int ⟨lowWidth body lhs, (constants low).setWidth (lowWidth body lhs)⟩ ∧
      (runDispatch constants others body memory).1 rhs =
        .int ⟨highWidth body rhs, (constants high).setWidth (highWidth body rhs) <<< 32⟩ := by
  obtain ⟨lowIn, shiftLhs, shiftRhs, shiftAmount, highIn, lowFound, shiftFound, amountFound, amount,
    highFound, lowOrdinal, highOrdinal⟩ := matchOrdinalPair_some found
  have lowValue := extuiIn_value wellFormed constants others memory lowFound
    (constantLoadOrdinal_value wellFormed constants others memory lowOrdinal)
  have highValue := extuiIn_value wellFormed constants others memory highFound
    (constantLoadOrdinal_value wellFormed constants others memory highOrdinal)
  rw [lookThroughAssume_value wellFormed] at lowValue highValue
  have shifted := shliOperands_value wellFormed constants others memory shiftFound highValue
    (constantInt_value wellFormed constants others memory amountFound)
  rw [lookThroughAssume_value wellFormed, amount] at shifted
  have width : highWidth body rhs = castWidth body (lookThroughAssume body shiftLhs) := by
    simp only [highWidth, lowWidth, shiftFound]
  rw [width]
  exact ⟨lowValue, shifted⟩

theorem pair_widens {lhs rhs low high : Nat}
    (found : matchOrdinalPair body lhs rhs = some (low, high)) :
    32 < lowWidth body lhs ∧ 32 < highWidth body rhs := by
  have wide {v in_ ordinal : Nat} (cast : extuiIn body v = some in_)
      (load : constantLoadOrdinal body in_ = some ordinal) : 32 < castWidth body v := by
    unfold extuiIn at cast
    split at cast
    · rename_i width in_ results i defined
      cases cast
      obtain ⟨before, after, split, -⟩ := Ssa.definingOp_split defined
      have member : ⟨.extui width, [in_], results⟩ ∈ body := by simp [split]
      simp only [castWidth, defined]
      exact wellFormed.widens _ member width _ ordinal rfl rfl load
    · cases cast
  obtain ⟨lowIn, shiftLhs, shiftRhs, shiftAmount, highIn, lowFound, shiftFound, amountFound, amount,
    highFound, lowOrdinal, highOrdinal⟩ := matchOrdinalPair_some found
  refine ⟨wide lowFound lowOrdinal, ?_⟩
  simp only [highWidth, shiftFound]
  exact wide highFound highOrdinal

end

/-- What `matchBindingOffset` leaves of a form. -/
def OffsetForm.encode : OffsetForm → List (BitVec 32) × Option (BitVec 64)
  | .literal value => ([], if value = 0 then none else some value)
  | .single ordinal => ([BitVec.ofNat 32 ordinal], none)
  | .pair low high _ _ => ([BitVec.ofNat 32 low, BitVec.ofNat 32 high], none)

theorem isZero_iff {a : APInt} (narrow : ¬ a.wide = true) :
    a.isZero = true ↔ a.getZExtValue = 0 := by
  simp only [APInt.wide, decide_eq_true_eq, Nat.not_le] at narrow
  simp only [APInt.isZero, APInt.getZExtValue, decide_eq_true_eq]
  rw [← BitVec.toNat_inj, BitVec.toNat_setWidth, Nat.mod_eq_of_lt narrow]
  rfl

theorem matchBindingOffset_eq (body : Body OpKind) (byteOffset : Option Nat) :
    matchBindingOffset body byteOffset = (offsetForm body byteOffset).map OffsetForm.encode := by
  cases byteOffset with
  | none => rfl
  | some byteOffset =>
      simp only [matchBindingOffset, offsetForm]
      cases constantInt body (lookThroughAssume body byteOffset) with
      | some literal =>
          dsimp only
          by_cases rejected : literal.isNegative = true ∨ literal.wide = true
          · simp only [rejected, ↓reduceIte, Option.map_none]
          · have zero : literal.isZero = true ↔ literal.getZExtValue = 0 :=
              isZero_iff (fun wide => rejected (Or.inr wide))
            simp only [rejected, ↓reduceIte, Option.map_some, OffsetForm.encode, zero]
            split <;> rfl
      | none =>
          dsimp only
          cases indexCastuiIn body (lookThroughAssume body byteOffset) with
          | none => rfl
          | some in_ =>
              simp only [bind, Option.bind]
              cases constantLoadOrdinal body (lookThroughAssume body in_) with
              | some ordinal => rfl
              | none =>
                  cases oriOperands body (lookThroughAssume body in_) with
                  | none => rfl
                  | some operands =>
                      dsimp only
                      cases matchOrdinalPair body operands.1 operands.2 <;> rfl

/-- What the expression of a form evaluates to. -/
def OffsetForm.value (constants : Nat → BitVec 32) : OffsetForm → BitVec 64
  | .literal value => value
  | .single ordinal => (constants ordinal).setWidth 64
  | .pair low high lowWidth highWidth =>
      ((constants low).setWidth lowWidth |||
        ((constants high).setWidth highWidth <<< 32).setWidth lowWidth).setWidth 64

/-- What the driver computes from what is left of a form, in exact integers. -/
def OffsetForm.address (constants : Nat → BitVec 32) : OffsetForm → Nat
  | .literal value => value.toNat
  | .single ordinal => (constants (ordinal % 2 ^ 32)).toNat
  | .pair low high _ _ =>
      (constants (low % 2 ^ 32)).toNat + (constants (high % 2 ^ 32)).toNat * 2 ^ 32

/-- No ordinal loses bits in an attribute. -/
def OffsetForm.OrdinalsFit : OffsetForm → Prop
  | .literal _ => True
  | .single ordinal => ordinal < 2 ^ 32
  | .pair low high _ _ => low < 2 ^ 32 ∧ high < 2 ^ 32

/-- No part of the high word is lost in the type the words are put together in. -/
def OffsetForm.WordsFit : OffsetForm → Prop
  | .pair _ _ lowWidth highWidth => 64 ≤ lowWidth ∧ 64 ≤ highWidth
  | _ => True

/-- The type the words are put together in has room for the low word and more. -/
def OffsetForm.Widens : OffsetForm → Prop
  | .pair _ _ lowWidth highWidth => 32 < lowWidth ∧ 32 < highWidth
  | _ => True

/-- Words that fit side by side are put together without a loss. -/
theorem pair_toNat (low high : BitVec 32) (lowWidth highWidth : Nat)
    (lowRoom : (high.toNat + 1) * 2 ^ 32 ≤ 2 ^ lowWidth)
    (highRoom : (high.toNat + 1) * 2 ^ 32 ≤ 2 ^ highWidth) :
    ((low.setWidth lowWidth ||| (high.setWidth highWidth <<< 32).setWidth lowWidth).setWidth
      64).toNat =
      low.toNat + high.toNat * 2 ^ 32 := by
  have lowSmall := low.isLt
  have highSmall := high.isLt
  have parts : low.toNat ||| high.toNat * 2 ^ 32 = low.toNat + high.toNat * 2 ^ 32 := by
    have disjoint := Nat.shiftLeft_add_eq_or_of_lt lowSmall high.toNat
    rw [Nat.shiftLeft_eq] at disjoint
    rw [Nat.or_comm, ← disjoint, Nat.add_comm]
  simp only [BitVec.toNat_setWidth, BitVec.toNat_or, BitVec.toNat_shiftLeft, Nat.shiftLeft_eq]
  rw [Nat.mod_eq_of_lt (by omega : low.toNat < 2 ^ lowWidth),
    Nat.mod_eq_of_lt (by omega : high.toNat < 2 ^ highWidth),
    Nat.mod_eq_of_lt (by omega : high.toNat * 2 ^ 32 < 2 ^ highWidth),
    Nat.mod_eq_of_lt (by omega : high.toNat * 2 ^ 32 < 2 ^ lowWidth), parts,
    Nat.mod_eq_of_lt (by omega)]

/-- A type of fewer than 64 bits holds none of the offsets that need them all. -/
theorem pair_lt (low high : BitVec 32) (lowWidth highWidth : Nat) (widens : 32 < highWidth)
    (narrow : lowWidth < 64 ∨ highWidth < 64) :
    ((low.setWidth lowWidth ||| (high.setWidth highWidth <<< 32).setWidth lowWidth).setWidth
      64).toNat <
      2 ^ 64 - 1 := by
  have bound (n : Nat) (small : n < 64) : 2 ^ n ≤ 2 ^ 63 :=
    Nat.pow_le_pow_right (by decide) (by omega)
  rw [BitVec.toNat_setWidth]
  refine Nat.lt_of_le_of_lt (Nat.mod_le _ _) ?_
  rcases narrow with narrow | narrow
  · have small := (low.setWidth lowWidth |||
      (high.setWidth highWidth <<< 32).setWidth lowWidth).isLt
    have := bound _ narrow
    omega
  · have lowSmall : (low.setWidth lowWidth).toNat < 2 ^ highWidth := by
      have lowBound := low.isLt
      have room : 2 ^ 32 ≤ 2 ^ highWidth := Nat.pow_le_pow_right (by decide) (by omega)
      rw [BitVec.toNat_setWidth]
      exact Nat.lt_of_le_of_lt (Nat.mod_le _ _) (by omega)
    have highSmall : ((high.setWidth highWidth <<< 32).setWidth lowWidth).toNat <
        2 ^ highWidth := by
      rw [BitVec.toNat_setWidth]
      exact Nat.lt_of_le_of_lt (Nat.mod_le _ _) (BitVec.isLt _)
    have together := Nat.or_lt_two_pow lowSmall highSmall
    have := bound _ narrow
    rw [BitVec.toNat_or]
    omega

theorem APInt.eq_index (a : APInt) (width : a.width = 64) : a = ⟨64, a.bits.setWidth 64⟩ := by
  obtain ⟨w, bits⟩ := a
  subst width
  simp

section

variable {body : Body OpKind} (wellFormed : WellFormed body)

include wellFormed

/-- A byte offset is what its form says. -/
theorem offsetForm_value {byteOffset : Nat} {form : OffsetForm}
    (found : offsetForm body (some byteOffset) = some form) (index : IndexTyped body byteOffset)
    (constants : Nat → BitVec 32) (others : OpKind → List Val → List Val)
    (memory : Nat → Nat → BitVec 32) :
    (runDispatch constants others body memory).1 byteOffset = .int ⟨64, form.value constants⟩ := by
  rw [← lookThroughAssume_value wellFormed]
  simp only [offsetForm] at found
  unfold IndexTyped at index
  generalize lookThroughAssume body byteOffset = byteOffset at found index ⊢
  split at found
  · rename_i literal isConstant
    split at found
    · cases found
    cases found
    have width : literal.width = 64 := by
      unfold constantInt at isConstant
      split at isConstant
      · rename_i defined
        cases isConstant
        simpa only [defined] using index
      · cases isConstant
    rw [constantInt_value wellFormed constants others memory isConstant, literal.eq_index width]
    simp [OffsetForm.value, APInt.getZExtValue]
  · simp only [bind, Option.bind_eq_some_iff] at found
    obtain ⟨in_, cast, found⟩ := found
    have width : castWidth body byteOffset = 64 := by
      unfold indexCastuiIn at cast
      split at cast
      · rename_i defined
        simpa only [castWidth, defined] using index
      · cases cast
    have seen := lookThroughAssume_value wellFormed constants others memory in_
    split at found
    · rename_i ordinal isLoad
      cases found
      rw [constantLoadOrdinal_value wellFormed constants others memory isLoad] at seen
      rw [indexCastuiIn_value wellFormed constants others memory cast seen.symm, width]
      rfl
    · simp only [Option.bind_eq_some_iff] at found
      obtain ⟨⟨lhs, rhs⟩, isOr, ⟨low, high⟩, pair, found⟩ := found
      cases found
      obtain ⟨left, right⟩ := pair_value wellFormed pair constants others memory
      rw [oriOperands_value wellFormed constants others memory isOr left right] at seen
      rw [indexCastuiIn_value wellFormed constants others memory cast seen.symm, width]
      rfl

theorem offsetForm_widens {byteOffset : Option Nat} {form : OffsetForm}
    (found : offsetForm body byteOffset = some form) : form.Widens := by
  cases byteOffset with
  | none =>
      cases found
      trivial
  | some byteOffset =>
      simp only [offsetForm] at found
      split at found
      · split at found
        · cases found
        · cases found
          trivial
      · simp only [bind, Option.bind_eq_some_iff] at found
        obtain ⟨in_, -, found⟩ := found
        split at found
        · cases found
          trivial
        · simp only [Option.bind_eq_some_iff] at found
          obtain ⟨⟨lhs, rhs⟩, -, ⟨low, high⟩, pair, found⟩ := found
          cases found
          exact pair_widens wellFormed pair

end

theorem OffsetForm.address_lt (constants : Nat → BitVec 32) (form : OffsetForm) :
    form.address constants < 2 ^ 64 := by
  cases form with
  | literal value => exact value.isLt
  | single ordinal =>
      have small := (constants (ordinal % 2 ^ 32)).isLt
      simp only [OffsetForm.address]
      omega
  | pair low high lowWidth highWidth =>
      have lowSmall := (constants (low % 2 ^ 32)).isLt
      have highSmall := (constants (high % 2 ^ 32)).isLt
      simp only [OffsetForm.address]
      omega

/-- Where nothing is cut off, the driver computes the value of the expression. -/
theorem OffsetForm.value_eq_address (constants : Nat → BitVec 32) (form : OffsetForm)
    (ordinals : form.OrdinalsFit) (words : form.WordsFit) :
    (form.value constants).toNat = form.address constants := by
  cases form with
  | literal value => rfl
  | single ordinal =>
      have fits : ordinal < 2 ^ 32 := ordinals
      have small := (constants ordinal).isLt
      simp only [OffsetForm.value, OffsetForm.address, Nat.mod_eq_of_lt fits, BitVec.toNat_setWidth]
      omega
  | pair low high lowWidth highWidth =>
      obtain ⟨lowFits, highFits⟩ := ordinals
      obtain ⟨lowRoom, highRoom⟩ := words
      have room {width : Nat} (enough : 64 ≤ width) : ((constants high).toNat + 1) * 2 ^ 32 ≤
          2 ^ width := by
        have small := (constants high).isLt
        have pow : 2 ^ 64 ≤ 2 ^ width := Nat.pow_le_pow_right (by decide) enough
        omega
      simp only [OffsetForm.value, OffsetForm.address, Nat.mod_eq_of_lt lowFits,
        Nat.mod_eq_of_lt highFits]
      exact pair_toNat _ _ _ _ (room lowRoom) (room highRoom)

/-- Push constants that tell an ordinal from the one an attribute holds. -/
def lateConstants (ordinal : Nat) : BitVec 32 := if ordinal < 2 ^ 32 then 0 else 1

theorem lateConstants_mod (ordinal : Nat) : (lateConstants (ordinal % 2 ^ 32)).toNat = 0 := by
  rw [lateConstants, if_pos (Nat.mod_lt _ (by decide))]
  rfl

theorem lateConstants_le (ordinal : Nat) : (lateConstants ordinal).toNat ≤ 1 := by
  unfold lateConstants
  split <;> decide

theorem lateConstants_eq_zero {ordinal : Nat} (zero : (lateConstants ordinal).toNat = 0) :
    ordinal < 2 ^ 32 := by
  by_contra late
  rw [lateConstants, if_neg late] at zero
  cases zero

theorem OffsetForm.address_lateConstants (form : OffsetForm) :
    form.address lateConstants ≤ (form.value lateConstants).toNat := by
  cases form with
  | literal value => exact Nat.le_refl _
  | single ordinal => simp only [OffsetForm.address, lateConstants_mod, Nat.zero_le]
  | pair low high lowWidth highWidth =>
      simp only [OffsetForm.address, lateConstants_mod, Nat.zero_mul, Nat.add_zero, Nat.zero_le]

theorem OffsetForm.ordinalsFit_of_late (form : OffsetForm) (widens : form.Widens)
    (same : (form.value lateConstants).toNat = form.address lateConstants) : form.OrdinalsFit := by
  cases form with
  | literal value => trivial
  | single ordinal =>
      have small := lateConstants_le ordinal
      simp only [OffsetForm.value, OffsetForm.address, lateConstants_mod,
        BitVec.toNat_setWidth] at same
      exact lateConstants_eq_zero (by omega)
  | pair low high lowWidth highWidth =>
      have room {width : Nat} (enough : 32 < width) : ((lateConstants high).toNat + 1) * 2 ^ 32 ≤
          2 ^ width := by
        have small := lateConstants_le high
        have pow : 2 ^ 33 ≤ 2 ^ width := Nat.pow_le_pow_right (by decide) enough
        omega
      have whole := pair_toNat (lateConstants low) (lateConstants high) lowWidth highWidth
        (room widens.1) (room widens.2)
      simp only [OffsetForm.value, OffsetForm.address, lateConstants_mod] at same
      rw [whole] at same
      exact ⟨lateConstants_eq_zero (by omega), lateConstants_eq_zero (by omega)⟩

/-- Push constants that use every bit they have. -/
def fullConstants (_ : Nat) : BitVec 32 := BitVec.allOnes 32

theorem fullConstants_toNat (ordinal : Nat) : (fullConstants ordinal).toNat = 2 ^ 32 - 1 := rfl

theorem OffsetForm.address_fullConstants (low high lowWidth highWidth : Nat) :
    OffsetForm.address fullConstants (.pair low high lowWidth highWidth) = 2 ^ 64 - 1 := by
  simp only [OffsetForm.address, fullConstants_toNat]
  omega

theorem OffsetForm.value_fullConstants (form : OffsetForm) :
    (form.value fullConstants).toNat ≤ form.address fullConstants := by
  cases form with
  | literal value => exact Nat.le_refl _
  | single ordinal => exact Nat.le_refl _
  | pair low high lowWidth highWidth =>
      have small := (OffsetForm.value fullConstants (.pair low high lowWidth highWidth)).isLt
      rw [OffsetForm.address_fullConstants]
      omega

theorem OffsetForm.wordsFit_of_full (form : OffsetForm) (widens : form.Widens)
    (same : (form.value fullConstants).toNat = form.address fullConstants) : form.WordsFit := by
  cases form with
  | literal value => trivial
  | single ordinal => trivial
  | pair low high lowWidth highWidth =>
      by_contra narrow
      simp only [OffsetForm.WordsFit, not_and_or, Nat.not_le] at narrow
      have short := pair_lt (fullConstants low)
        (fullConstants high) lowWidth highWidth widens.2 narrow
      rw [OffsetForm.address_fullConstants] at same
      simp only [OffsetForm.value] at same
      omega

/-- The driver computes the value of an expression, for all push constants,
exactly if no ordinal and no part of a word is cut off. -/
theorem OffsetForm.exact_iff (form : OffsetForm) (widens : form.Widens) :
    (∀ constants, (form.value constants).toNat = form.address constants) ↔ form.OrdinalsFit ∧
      form.WordsFit := by
  constructor
  · intro exact_
    exact ⟨form.ordinalsFit_of_late widens (exact_ _), form.wordsFit_of_full widens (exact_ _)⟩
  · rintro ⟨ordinals, words⟩ constants
    exact form.value_eq_address constants ordinals words


/-- A word as the host's memory holds it. -/
def wordBytesLE (word : BitVec 32) : List (BitVec 8) :=
  [word.extractLsb' 0 8, word.extractLsb' 8 8, word.extractLsb' 16 8, word.extractLsb' 24 8]

/-- The first `n` push constants, as a dispatch gets them. -/
def pushConstants (n : Nat) (constants : Nat → BitVec 32) : ConstByteSpan where
  data := ((List.range n).map constants).flatMap wordBytesLE

theorem pushConstants_length (n : Nat) (constants : Nat → BitVec 32) :
    (pushConstants n constants).dataLength = 4 * n := by
  have bytes (words : List (BitVec 32)) : (words.flatMap wordBytesLE).length =
      4 * words.length := by
    induction words with
    | nil => rfl
    | cons word rest ih =>
        rw [List.flatMap_cons, List.length_append, ih, List.length_cons]
        simp only [wordBytesLE, List.length_cons, List.length_nil]
        omega
  rw [ConstByteSpan.dataLength, pushConstants, bytes, List.length_map, List.length_range]

theorem drop_wordBytesLE (words : List (BitVec 32)) (k : Nat) :
    (words.flatMap wordBytesLE).drop (4 * k) = (words.drop k).flatMap wordBytesLE := by
  induction k generalizing words with
  | zero => rfl
  | succ k ih =>
      cases words with
      | nil => simp
      | cons word rest => exact ih rest

/-- The driver reads the push constants the host wrote. -/
theorem pushConstants_value (n : Nat) (constants : Nat → BitVec 32) (ordinal : Nat)
    (declared : ordinal < n) :
    (pushConstants n constants).value ordinal = some (constants ordinal) := by
  have there : ordinal < ((List.range n).map constants).length := by simpa using declared
  rw [ConstByteSpan.value, pushConstants, drop_wordBytesLE, List.drop_eq_getElem_cons there]
  simp only [List.getElem_map, List.getElem_range, List.flatMap_cons, wordBytesLE, List.cons_append]
  rw [BitVec.extractLsb'_append_extractLsb'_eq_extractLsb' (by rfl),
    BitVec.extractLsb'_append_extractLsb'_eq_extractLsb' (by rfl),
    BitVec.extractLsb'_append_extractLsb'_eq_extractLsb' (by rfl), BitVec.extractLsb'_eq_self]

theorem addOffsetConstants_cons (st : SizeT) (n : Nat) (constants : Nat → BitVec 32)
    (ordinal : BitVec 32) (rest : List (BitVec 32)) (i : Nat) (byteOffset : BitVec 64)
    (declared : ordinal.toNat < n) (fits : 4 * n < 2 ^ st.width) (shift : i < 2) :
    addOffsetConstants st (pushConstants n constants) (ordinal :: rest) i byteOffset =
      addOffsetConstants st (pushConstants n constants) rest (i + 1)
        (byteOffset + (constants ordinal.toNat).setWidth 64 <<< (32 * i)) := by
  have next := st.wrap_of_lt (ordinal.toNat + 1) (by omega)
  have bytes := st.wrap_of_lt ((ordinal.toNat + 1) * 4) (by omega)
  rw [addOffsetConstants, next, bytes, pushConstants_length, if_neg (by omega),
    pushConstants_value n constants _ declared]
  dsimp only
  rw [if_neg (by omega)]

/-- The push constants of a runtime offset, from constant number `i` on, in exact
integers. -/
def ordinalSum (constants : Nat → BitVec 32) : List (BitVec 32) → Nat → Nat
  | [], _ => 0
  | ordinal :: rest, i =>
      (constants ordinal.toNat).toNat * 2 ^ (32 * i) + ordinalSum constants rest (i + 1)

/-- What the driver adds up. -/
theorem addOffsetConstants_sum (st : SizeT) (n : Nat) (constants : Nat → BitVec 32)
    (ordinals : List (BitVec 32)) (i : Nat) (byteOffset : BitVec 64)
    (declared : ∀ ordinal ∈ ordinals, ordinal.toNat < n) (fits : 4 * n < 2 ^ st.width)
    (few : i + ordinals.length ≤ 2) :
    addOffsetConstants st (pushConstants n constants) ordinals i byteOffset =
      .ok (byteOffset + BitVec.ofNat 64 (ordinalSum constants ordinals i)) := by
  induction ordinals generalizing i byteOffset with
  | nil => simp [addOffsetConstants, ordinalSum]
  | cons ordinal rest ih =>
      rw [List.length_cons] at few
      rw [addOffsetConstants_cons st n constants ordinal rest i byteOffset
          (declared _ (List.mem_cons_self ..)) fits (by omega),
        ih (i + 1) _ (fun o member => declared o (List.mem_cons_of_mem _ member)) (by omega),
        ordinalSum, BitVec.ofNat_add, BitVec.add_assoc]
      have shifted : (constants ordinal.toNat).setWidth 64 <<< (32 * i) =
          BitVec.ofNat 64 ((constants ordinal.toNat).toNat * 2 ^ (32 * i)) := by
        apply BitVec.eq_of_toNat_eq
        rw [BitVec.toNat_shiftLeft, BitVec.toNat_setWidth, BitVec.toNat_ofNat, Nat.shiftLeft_eq]
        have small : (constants ordinal.toNat).toNat < 2 ^ 64 :=
          Nat.lt_trans (constants ordinal.toNat).isLt (by decide)
        rw [Nat.mod_eq_of_lt small]
      rw [shifted]

/-- Where a column starts within its binding. -/
def StrelaColumn.start (column : StrelaColumn) (constants : Nat → BitVec 32) : Nat :=
  column.byteOffset.toNat + ordinalSum constants column.offsetConstants 0

theorem OffsetForm.start_eq (constants : Nat → BitVec 32) (form : OffsetForm) :
    (form.encode.2.getD 0).toNat + ordinalSum constants form.encode.1 0 =
      form.address constants := by
  cases form with
  | literal value =>
      simp only [OffsetForm.encode, ordinalSum, OffsetForm.address, Nat.add_zero]
      split
      · rename_i zero
        rw [zero]
        rfl
      · rfl
  | single ordinal => simp [OffsetForm.encode, ordinalSum, OffsetForm.address]
  | pair low high lowWidth highWidth => simp [OffsetForm.encode, ordinalSum, OffsetForm.address]

theorem OffsetForm.encode_length (form : OffsetForm) : form.encode.1.length ≤ 2 := by
  cases form <;> simp [OffsetForm.encode]

/-- The column of a binding op holds the binding as it was recognized. -/
theorem StrelaBinding.column_eq {binding : StrelaBinding} {type : TensorType} {stride : BitVec 32}
    {column : StrelaColumn} (emitted : getColumn binding.attrs type stride = .ok column) :
    column.binding = binding.binding ∧ column.offsetConstants = binding.offsets ∧
      column.byteOffset = binding.staticByteOffset.getD 0 := by
  obtain ⟨shape, -, -, rfl⟩ := getColumn_ok emitted
  have back (x : BitVec 32) : (x.setWidth 64).setWidth 32 = x := by simp
  refine ⟨back _, ?_, rfl⟩
  simp only [StrelaBinding.attrs]
  split
  · rename_i empty
    rw [List.isEmpty_iff.mp empty]
    rfl
  · simp [Function.comp_def]

/-- One way at most to describe an offset, and one the verifier accepts. -/
structure StrelaBinding.Described (binding : StrelaBinding) : Prop where
  exclusive : binding.offsets = [] ∨ binding.staticByteOffset = none
  ordinals : binding.offsets.length ≤ 2
  nonzero : binding.staticByteOffset ≠ some 0
  verified : verifyBindingOffsets binding.attrs.offsets binding.attrs.byteOffset = .ok ()

theorem OffsetForm.described (form : OffsetForm) (binding : StrelaBinding)
    (encoded : form.encode = (binding.offsets, binding.staticByteOffset)) : binding.Described := by
  obtain ⟨number, offsets, staticByteOffset⟩ := binding
  cases form with
  | literal value =>
      by_cases zero : value = 0
      · simp only [OffsetForm.encode, zero, ↓reduceIte, Prod.mk.injEq] at encoded
        obtain ⟨rfl, rfl⟩ := encoded
        exact ⟨Or.inl rfl, by simp, by simp, rfl⟩
      · simp only [OffsetForm.encode, zero, ↓reduceIte, Prod.mk.injEq] at encoded
        obtain ⟨rfl, rfl⟩ := encoded
        refine ⟨Or.inl rfl, by simp, by simpa using zero, ?_⟩
        simp [verifyBindingOffsets, StrelaBinding.attrs, show ¬ value = 0#64 from zero]
  | single ordinal =>
      cases encoded
      exact ⟨Or.inr rfl, by simp, by simp, rfl⟩
  | pair low high lowWidth highWidth =>
      cases encoded
      exact ⟨Or.inr rfl, by simp, by simp, rfl⟩

/-- The value of a byte offset; without one, a subspan starts at zero. -/
def HasByteOffset (values : Nat → Val) (byteOffset : Option Nat) (x : BitVec 64) : Prop :=
  match byteOffset with
  | none => x = 0
  | some v => values v = .int ⟨64, x⟩

/-- For all push constants that are there, the driver adds up the value of the
expression. -/
def DriverAgrees (body : Body OpKind) (byteOffset : Option Nat) (column : StrelaColumn) : Prop :=
  ∀ constants others memory (st : SizeT) n,
    (∀ ordinal ∈ column.offsetConstants, ordinal.toNat < n) → 4 * n < 2 ^ st.width →
    ∃ x, addOffsetConstants st (pushConstants n constants) (createColumn column).offsetConstants 0
        (createColumn column).byteOffset = .ok x ∧
      HasByteOffset (runDispatch constants others body memory).1 byteOffset x

/-- No ordinal of the expression needs more than 32 bits, and words are put
together in a type that has room for both. -/
def ExactOffset (body : Body OpKind) (byteOffset : Option Nat) : Prop :=
  ∀ form, offsetForm body byteOffset = some form → form.OrdinalsFit ∧ form.WordsFit

/-- The value of an expression in terms of its form. -/
theorem hasByteOffset_iff {body : Body OpKind} (wellFormed : WellFormed body)
    {byteOffset : Option Nat} {form : OffsetForm} (found : offsetForm body byteOffset = some form)
    (index : ∀ v, byteOffset = some v → IndexTyped body v) (constants : Nat → BitVec 32)
    (others : OpKind → List Val → List Val) (memory : Nat → Nat → BitVec 32) (x : BitVec 64) :
    HasByteOffset (runDispatch constants others body memory).1 byteOffset x ↔
      form.value constants = x := by
  cases byteOffset with
  | none =>
      cases found
      exact eq_comm
  | some v =>
      rw [HasByteOffset, offsetForm_value wellFormed found (index v rfl)]
      simp

/-- A recognized byte offset is described without contradiction, and the driver
computes it exactly for all push constants, unless the recognizer cut it off. -/
theorem matchBindingOffset_agrees_iff {body : Body OpKind} (wellFormed : WellFormed body)
    {byteOffset : Option Nat} {binding : StrelaBinding} {type : TensorType} {stride : BitVec 32}
    {column : StrelaColumn}
    (matched : matchBindingOffset body byteOffset =
      some (binding.offsets, binding.staticByteOffset))
      (index : ∀ v, byteOffset = some v → IndexTyped body v)
    (emitted : getColumn binding.attrs type stride = .ok column) :
    binding.Described ∧ DriverAgrees body byteOffset column ↔ ExactOffset body byteOffset := by
  rw [matchBindingOffset_eq, Option.map_eq_some_iff] at matched
  obtain ⟨form, found, encoded⟩ := matched
  obtain ⟨-, ordinalsEq, staticEq⟩ := StrelaBinding.column_eq emitted
  have sum (constants : Nat → BitVec 32) (st : SizeT) (n : Nat)
      (declared : ∀ ordinal ∈ column.offsetConstants, ordinal.toNat < n)
        (fits : 4 * n < 2 ^ st.width) :
      addOffsetConstants st (pushConstants n constants) (createColumn column).offsetConstants 0
        (createColumn column).byteOffset = .ok (BitVec.ofNat 64 (form.address constants)) := by
    have few := form.encode_length
    have start := form.start_eq constants
    rw [encoded] at few start
    rw [ordinalsEq] at declared
    simp only [createColumn, ordinalsEq, staticEq]
    rw [addOffsetConstants_sum st n constants _ 0 _ declared fits (by simpa using few), ← start,
      BitVec.ofNat_add, BitVec.ofNat_toNat, BitVec.setWidth_eq]
  have exact_ := form.exact_iff (offsetForm_widens wellFormed found)
  constructor
  · rintro ⟨-, agrees⟩ form' found'
    obtain rfl := Option.some.inj (found.symm.trans found')
    refine exact_.mp fun constants => ?_
    obtain ⟨x, summed, value⟩ := agrees constants (fun _ _ => []) (fun _ _ => 0) .bits64 (2 ^ 32)
      (fun ordinal _ => ordinal.isLt) (by decide)
    rw [sum _ _ _ (fun ordinal _ => ordinal.isLt) (by decide)] at summed
    cases summed
    rw [(hasByteOffset_iff wellFormed found index _ _ _ _).mp value, BitVec.toNat_ofNat,
      Nat.mod_eq_of_lt (form.address_lt constants)]
  · intro fits
    refine ⟨form.described binding encoded, fun constants others memory st n declared enough =>
      ⟨_, sum constants st n declared enough, ?_⟩⟩
    rw [hasByteOffset_iff wellFormed found index]
    apply BitVec.eq_of_toNat_eq
    rw [exact_.mpr (fits form found) constants, BitVec.toNat_ofNat,
      Nat.mod_eq_of_lt (form.address_lt constants)]

/-- A byte offset put together from push constants 0 and 1 in a type of some
width, the high word and the sum under assumes. -/
def pairBody (width : Nat) : Body OpKind := [
  ⟨.interfaceConstantLoad 0, [], [0]⟩,
  ⟨.interfaceConstantLoad 1, [], [1]⟩,
  ⟨.constant ⟨width, 32⟩, [], [2]⟩,
  ⟨.extui width, [0], [3]⟩,
  ⟨.extui width, [1], [4]⟩,
  ⟨.assumeInt, [4], [5]⟩,
  ⟨.shli, [5, 2], [6]⟩,
  ⟨.ori, [3, 6], [7]⟩,
  ⟨.indexCastui 64, [7], [8]⟩,
  ⟨.assumeInt, [8], [9]⟩]

theorem pairBody_wellFormed (width : Nat) (wide : 32 < width) : WellFormed (pairBody width) where
  dominated := by simp [pairBody, Ssa.Dominated]
  results := by simp [pairBody, OpKind.resultCount]
  widens := by
    intro op member width' operand ordinal kind
    simp only [pairBody, List.mem_cons, List.not_mem_nil, or_false] at member
    rcases member with rfl | rfl | rfl | rfl | rfl | rfl | rfl | rfl | rfl | rfl <;> cases kind
    · exact fun _ _ => wide
    · exact fun _ _ => wide

def pairBinding : StrelaBinding where
  binding := 0
  offsets := [0, 1]
  staticByteOffset := none

def pairColumn : StrelaColumn where
  binding := 0
  byteOffset := 0
  offsetConstants := [0, 1]
  wordCount := 4
  stride := 1

theorem matchBindingOffset_agrees_iff_sample :
    pairBinding.Described ∧ DriverAgrees (pairBody 64) (some 9) pairColumn ↔
      ExactOffset (pairBody 64) (some 9) :=
  matchBindingOffset_agrees_iff (pairBody_wellFormed 64 (by decide)) rfl
    (fun v same => by cases same; rfl)
    (rfl : getColumn pairBinding.attrs (.ranked [some 4] (.integer 32)) 1 = .ok pairColumn)

/-- In 48 bits the upper half of the high word is lost. -/
theorem matchBindingOffset_cuts_high :
    WellFormed (pairBody 48) ∧
      matchBindingOffset (pairBody 48) (some 9) =
        some (pairBinding.offsets, pairBinding.staticByteOffset) ∧
      getColumn pairBinding.attrs (.ranked [some 4] (.integer 32)) 1 = .ok pairColumn ∧
      ¬ DriverAgrees (pairBody 48) (some 9) pairColumn := by
  refine ⟨pairBody_wellFormed 48 (by decide), rfl, rfl, fun agrees => ?_⟩
  obtain ⟨x, summed, value⟩ := agrees fullConstants (fun _ _ => []) (fun _ _ => 0) .bits64 2
    (by simp [pairColumn]) (by decide)
  have driver : addOffsetConstants .bits64 (pushConstants 2 fullConstants) [0, 1] 0 0 =
      .ok (BitVec.allOnes 64) := by rfl
  have expression : (runDispatch fullConstants (fun _ _ => []) (pairBody 48) (fun _ _ => 0)).1 9 =
      .int ⟨64, (BitVec.allOnes 48).setWidth 64⟩ := by rfl
  obtain rfl : BitVec.allOnes 64 = x := Except.ok.inj (driver.symm.trans summed)
  rw [HasByteOffset, expression] at value
  exact absurd value (by decide)

end Estela.Compiler
