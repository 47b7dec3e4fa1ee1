import Estela.Runtime.PaddedAllocation

set_option autoImplicit false

/- Whole lines: the words a sync names, against the bytes they are for and the
words its allocation was given. -/
namespace Estela.Runtime

/-- The words `allocate_buffer` asks libstrela for. -/
def requestedWords (st : SizeT) (allocationSize : BitVec 64) : Nat :=
  st.wrap (paddedSize allocationSize / BitVec.ofNat 64 wordBytes).toNat

/-- The words from `first` on are the lines of a byte range, and those lines are
the allocation's. -/
structure RoundsOut (st : SizeT) (allocationSize : BitVec 64) (offset length first count : Nat) :
    Prop where
  start : 4 * first % cacheLine = 0
  stop : 4 * (first + count) % cacheLine = 0
  covers : ∀ byte, offset ≤ byte → byte < offset + length →
    4 * first ≤ byte ∧ byte < 4 * (first + count)
  /-- An empty range is in the line of its offset. -/
  meets : ∀ line, 4 * first ≤ cacheLine * line → cacheLine * line < 4 * (first + count) →
    (∃ byte, offset ≤ byte ∧ byte < offset + length ∧ byte / cacheLine = line) ∨
      length = 0 ∧ line = offset / cacheLine
  inside : first + count ≤ requestedWords st allocationSize

/-- The range ends among the words that are left of the padded allocation in a
`size_t`. An empty range between two lines names no word, and counts only by
where it starts. -/
def EndsInRequest (st : SizeT) (allocationSize offset length : Nat) : Prop :=
  wholeLines (offset + length) / 4 ≤ wholeLines allocationSize / 4 % 2 ^ st.width ∨
    length = 0 ∧ offset % 64 = 0 ∧
      offset / 4 % 2 ^ st.width ≤ wholeLines allocationSize / 4 % 2 ^ st.width

theorem requestedWords_eq (st : SizeT) (allocationSize : BitVec 64)
    (padded : allocationSize.toNat ≤ 2 ^ 64 - 64) :
    requestedWords st allocationSize = wholeLines allocationSize.toNat / 4 % 2 ^ st.width := by
  have words := paddedWords_eq st allocationSize
  rw [Nat.mod_eq_of_lt (show allocationSize.toNat + 63 < 2 ^ 64 by omega)] at words
  rw [requestedWords, words, wholeLines]
  congr 1
  omega

/-- The lines of a range in a padded allocation: only `size_t` may wrap. -/
theorem bufferLines_padded (st : SizeT) (offset length : BitVec 64)
    (padded : offset.toNat + length.toNat ≤ 2 ^ 64 - 64) :
    bufferLines st offset length = (offset.toNat / 64 * 16 % 2 ^ st.width,
      (wholeLines (offset.toNat + length.toNat) / 4 - offset.toNat / 64 * 16) % 2 ^ st.width) := by
  rw [bufferLines_eq, byteCount_count _ _ (by omega), if_pos (by omega), wholeLines]
  simp only [Prod.mk.injEq, true_and]
  congr 1
  omega

/-- A line that is reached meets the range if the reached words are its lines. -/
theorem line_meets (offset length line : Nat) (after : offset / 64 * 64 ≤ 64 * line)
    (before : 64 * line < wholeLines (offset + length)) :
    (∃ byte, offset ≤ byte ∧ byte < offset + length ∧ byte / 64 = line) ∨
      length = 0 ∧ line = offset / 64 := by
  unfold wholeLines at before
  by_cases empty : length = 0
  · exact Or.inr ⟨empty, by omega⟩
  · exact Or.inl ⟨max offset (64 * line), by omega, by omega, by omega⟩

/-- Whole lines stay whole lines in a `size_t`. -/
theorem SizeT.mod_lines (st : SizeT) (words : Nat) (whole : words % 16 = 0) :
    words % 2 ^ st.width % 16 = 0 := by
  cases st <;> simp only [SizeT.width] <;> omega

/-- Rounded out and among the words asked for, the range lost nothing to `size_t`. -/
theorem RoundsOut.endsInRequest {st : SizeT} {allocationSize : BitVec 64} {offset length : Nat}
    (padded : allocationSize.toNat ≤ 2 ^ 64 - 64)
    (rounds : RoundsOut st allocationSize offset length (offset / 64 * 16 % 2 ^ st.width)
      ((wholeLines (offset + length) / 4 - offset / 64 * 16) % 2 ^ st.width)) :
    EndsInRequest st allocationSize.toNat offset length := by
  have inside := rounds.inside
  have first := st.mod_lines (offset / 64 * 16) (by omega)
  have firstLe := Nat.mod_le (offset / 64 * 16) (2 ^ st.width)
  have count := st.mod_lines (wholeLines (offset + length) / 4 - offset / 64 * 16) (by
    unfold wholeLines
    omega)
  rw [requestedWords_eq st allocationSize padded] at inside
  unfold EndsInRequest
  by_cases empty : length = 0
  · by_cases between : offset % 64 = 0
    · refine Or.inr ⟨empty, between, ?_⟩
      rw [show offset / 4 = offset / 64 * 16 by omega]
      omega
    · -- The one line that is named must be the line of the offset.
      have one : wholeLines (offset + length) / 4 - offset / 64 * 16 = 16 := by
        unfold wholeLines
        omega
      have kept : 16 % 2 ^ st.width = 16 := by cases st <;> decide
      rw [one, kept] at inside
      obtain ⟨byte, after, before, _⟩ | ⟨_, same⟩ :=
        rounds.meets (offset / 64 * 16 % 2 ^ st.width / 16)
          (by unfold cacheLine; omega) (by rw [one, kept]; unfold cacheLine; omega)
      · omega
      · left
        unfold cacheLine at same
        omega
  · have low := (rounds.covers offset (by omega) (by omega)).1
    have high := (rounds.covers (offset + length - 1) (by omega) (by omega)).2
    left
    have reached : wholeLines (offset + length) ≤ 4 * (offset / 64 * 16 % 2 ^ st.width +
        (wholeLines (offset + length) / 4 - offset / 64 * 16) % 2 ^ st.width) := by
      generalize (wholeLines (offset + length) / 4 - offset / 64 * 16) % 2 ^ st.width = words at *
      unfold wholeLines
      omega
    omega

theorem EndsInRequest.roundsOut {st : SizeT} {allocationSize : BitVec 64} {offset length : Nat}
    (padded : allocationSize.toNat ≤ 2 ^ 64 - 64)
    (ends : EndsInRequest st allocationSize.toNat offset length) :
    RoundsOut st allocationSize offset length (offset / 64 * 16 % 2 ^ st.width)
      ((wholeLines (offset + length) / 4 - offset / 64 * 16) % 2 ^ st.width) := by
  have first := st.mod_lines (offset / 64 * 16) (by omega)
  have asked := requestedWords_eq st allocationSize padded
  rcases ends with ends | ⟨rfl, between, ends⟩
  · have narrow := Nat.mod_lt (wholeLines allocationSize.toNat / 4) (Nat.two_pow_pos st.width)
    have starts : offset / 64 * 16 ≤ wholeLines (offset + length) / 4 := by
      unfold wholeLines
      omega
    have bytes : 4 * (wholeLines (offset + length) / 4) = wholeLines (offset + length) := by
      unfold wholeLines
      omega
    have rounded : offset + length ≤ wholeLines (offset + length) := by
      unfold wholeLines
      omega
    have whole : wholeLines (offset + length) % 64 = 0 := by
      unfold wholeLines
      omega
    rw [Nat.mod_eq_of_lt (by omega), Nat.mod_eq_of_lt (by omega)]
    have sum : offset / 64 * 16 + (wholeLines (offset + length) / 4 - offset / 64 * 16) =
        wholeLines (offset + length) / 4 := by omega
    constructor
    · unfold cacheLine
      omega
    · rw [sum, bytes]
      exact whole
    · rw [sum, bytes]
      exact fun byte after before => ⟨by omega, by omega⟩
    · rw [sum, bytes]
      unfold cacheLine
      exact fun line after before => line_meets offset length line (by omega) before
    · omega
  · -- No word is named, and the first one is where the offset falls.
    have none : wholeLines (offset + 0) / 4 - offset / 64 * 16 = 0 := by
      unfold wholeLines
      omega
    rw [none, Nat.zero_mod]
    constructor
    · unfold cacheLine
      omega
    · unfold cacheLine
      omega
    · exact fun byte after before => ⟨by omega, by omega⟩
    · exact fun line after before => by omega
    · rw [asked, show offset / 64 * 16 = offset / 4 by omega]
      exact ends

/-- What a sync names is the range rounded out, exactly where the range ends
among the words that were asked for. -/
theorem bufferLines_roundsOut_iff (st : SizeT) (allocationSize byteOffset byteLength : BitVec 64)
    (padded : allocationSize.toNat ≤ 2 ^ 64 - 64)
    (inside : byteOffset.toNat + byteLength.toNat ≤ allocationSize.toNat) :
    RoundsOut st allocationSize byteOffset.toNat byteLength.toNat
        (bufferLines st byteOffset byteLength).1 (bufferLines st byteOffset byteLength).2 ↔
      EndsInRequest st allocationSize.toNat byteOffset.toNat byteLength.toNat := by
  rw [bufferLines_padded st _ _ (by omega)]
  exact ⟨fun rounds => rounds.endsInRequest padded, fun ends => ends.roundsOut padded⟩

/-- Two bytes across the end of the first line of an allocation of 100. -/
theorem bufferLines_roundsOut_iff_sample :
    RoundsOut .bits32 100 63 2 (bufferLines .bits32 63 2).1 (bufferLines .bits32 63 2).2 ↔
      EndsInRequest .bits32 100 63 2 :=
  bufferLines_roundsOut_iff .bits32 100 63 2 (by decide) (by decide)

/-- On a 64 bit host every range is rounded out. -/
theorem bufferLines_roundsOut_bits64 (allocationSize byteOffset byteLength : BitVec 64)
    (padded : allocationSize.toNat ≤ 2 ^ 64 - 64)
    (inside : byteOffset.toNat + byteLength.toNat ≤ allocationSize.toNat) :
    RoundsOut .bits64 allocationSize byteOffset.toNat byteLength.toNat
      (bufferLines .bits64 byteOffset byteLength).1
        (bufferLines .bits64 byteOffset byteLength).2 := by
  rw [bufferLines_padded _ _ _ (by omega)]
  refine EndsInRequest.roundsOut padded (Or.inl ?_)
  simp only [SizeT.width, wholeLines]
  omega

/-- On the board the word 2^32 of a 16 GiB allocation is taken for its first. -/
theorem bufferLines_reaches_first_line :
    ¬ ∀ (st : SizeT) (allocationSize byteOffset byteLength : BitVec 64),
      allocationSize.toNat ≤ 2 ^ 64 - 64 →
      byteOffset.toNat + byteLength.toNat ≤ allocationSize.toNat →
      RoundsOut st allocationSize byteOffset.toNat byteLength.toNat
        (bufferLines st byteOffset byteLength).1 (bufferLines st byteOffset byteLength).2 := by
  intro claim
  have rounds := claim .bits32 0x400000040 0x400000000 4 (by decide) (by decide)
  have lines : bufferLines .bits32 0x400000000 4 = (0, 16) := by decide
  rw [lines] at rounds
  have reached := (rounds.covers 0x400000000 (by decide) (by decide)).2
  omega

end Estela.Runtime
