import Estela.Compiler.ExportEffects
import Estela.Runtime.KernelJobs
import Mathlib.Data.Nat.Find

set_option autoImplicit false

/- The kernels as the CGRA runs them, word by word while their operands still come
in, and operands that overlap the result. -/
namespace Estela.Compiler

open Estela.Runtime.KernelJobs (Fabric)
open Relation (ReflTransGen)
open Streaming (Plan Outcome Move)

/-- The columns the operands enter by. -/
def StrelaKernel.sourceColumns (kernel : StrelaKernel) : List Nat :=
  kernel.inputColumns.take kernel.inputCount

/-- The fabric does with the bitstream of a kernel what `Bitstreams.h` says it does. -/
structure Realizes (fabric : Fabric) (kernel : StrelaKernel) : Prop where
  steady : Streaming.Steady (fabric kernel.bitstream)
  computes : ∀ got k, fabric kernel.bitstream got kernel.outputColumn k =
    (kernel.compute (kernel.sourceColumns.map got))[k]?

/-- The kernel on one word of each operand. -/
def StrelaKernel.combine (kernel : StrelaKernel) (values : List (BitVec 32)) : BitVec 32 :=
  (kernel.compute (values.map fun value => [value])).headD 0

/-- `n` words of every operand in, from the places they start at, and `n` words of the
result out. -/
def kernelPlan (kernel : StrelaKernel) (n target : Nat) (sources : List Nat) :
    Plan Nat Nat Nat where
  reads i := ((kernel.sourceColumns.zip sources).lookup i).elim [] fun source =>
    (List.range n).map (source + ·)
  writes o := if o = kernel.outputColumn then (List.range n).map (target + ·) else []

/-- A word goes out once it is there for every operand. -/
theorem compute_getElem? {kernel : StrelaKernel}
    (isKernel : kernel = addKernel ∨ kernel = reluKernel) {tensors : List (List (BitVec 32))}
    (count : tensors.length = kernel.inputCount) (k : Nat) (v : BitVec 32) :
    (kernel.compute tensors)[k]? = some v ↔
      ∃ values, tensors.map (·[k]?) = values.map some ∧ v = kernel.combine values := by
  rcases isKernel with rfl | rfl
  · obtain ⟨lhs, rhs, rfl⟩ := List.length_eq_two.mp count
    simp only [StrelaKernel.compute, ↓reduceIte, strelaAdd, List.getElem?_zipWith_eq_some,
      List.map_cons, List.map_nil]
    constructor
    · rintro ⟨x, y, left, right, rfl⟩
      exact ⟨[x, y], by simp [left, right], rfl⟩
    · rintro ⟨values, here, rfl⟩
      obtain ⟨x, y, rfl⟩ := List.length_eq_two.mp (by simpa using (congrArg List.length here).symm)
      simp only [List.map_cons, List.map_nil, List.cons.injEq, and_true] at here
      exact ⟨x, y, here.1, here.2, rfl⟩
  · obtain ⟨input, rfl⟩ := List.length_eq_one_iff.mp count
    have other : reluKernel ≠ addKernel := by decide
    simp only [StrelaKernel.compute, ↓reduceIte, strelaRelu, List.getElem?_map,
      Option.map_eq_some_iff, List.map_cons, List.map_nil]
    constructor
    · rintro ⟨x, there, rfl⟩
      exact ⟨[x], by simp [there], rfl⟩
    · rintro ⟨values, here, rfl⟩
      obtain ⟨x, rfl⟩ := List.length_eq_one_iff.mp (by simpa using (congrArg List.length here).symm)
      simp only [List.map_cons, List.map_nil, List.cons.injEq, and_true] at here
      exact ⟨x, here, rfl⟩

section

variable {fabric : Fabric} {kernel : StrelaKernel} {n target : Nat} {sources : List Nat}

theorem sourceColumns_length (isKernel : kernel = addKernel ∨ kernel = reluKernel) :
    kernel.sourceColumns.length = kernel.inputCount := by
  rcases isKernel with rfl | rfl <;> rfl

theorem kernelPlan_reads {i j w : Nat}
    (there : ((kernelPlan kernel n target sources).reads i)[j]? = some w) :
    ∃ source ∈ sources, i ∈ kernel.sourceColumns ∧ j < n ∧ w = source + j := by
  simp only [kernelPlan] at there
  cases found : (kernel.sourceColumns.zip sources).lookup i with
  | none =>
      rw [found] at there
      cases there
  | some source =>
      rw [found, Option.elim_some, List.getElem?_map] at there
      obtain ⟨k, here, rfl⟩ := Option.map_eq_some_iff.mp there
      obtain ⟨inside, same⟩ := List.getElem?_eq_some_iff.mp here
      obtain ⟨before, after, split, -⟩ := List.lookup_eq_some_iff.mp found
      have member : (i, source) ∈ kernel.sourceColumns.zip sources := by
        rw [split]
        exact List.mem_append_right _ List.mem_cons_self
      obtain ⟨column, among⟩ := List.of_mem_zip member
      exact ⟨source, among, column, by simpa using inside, by simpa using same.symm⟩

theorem kernelPlan_writes {o k w : Nat}
    (there : ((kernelPlan kernel n target sources).writes o)[k]? = some w) :
    o = kernel.outputColumn ∧ k < n ∧ w = target + k := by
  simp only [kernelPlan] at there
  split at there
  · rename_i same
    rw [List.getElem?_map] at there
    obtain ⟨k', here, rfl⟩ := Option.map_eq_some_iff.mp there
    obtain ⟨inside, value⟩ := List.getElem?_eq_some_iff.mp here
    exact ⟨same, by simpa using inside, by simpa using value.symm⟩
  · cases there

/-- An operand that starts before the result, and reaches into it. -/
def Hazard (n target source : Nat) : Prop := source < target ∧ target < source + n

theorem kernelPlan_apart : (kernelPlan kernel n target sources).Apart := by
  intro o k o' k' w there there'
  obtain ⟨rfl, -, rfl⟩ := kernelPlan_writes there
  obtain ⟨rfl, -, same⟩ := kernelPlan_writes there'
  exact ⟨rfl, by omega⟩

theorem kernelPlan_ordered (realizes : Realizes fabric kernel)
    (isKernel : kernel = addKernel ∨ kernel = reluKernel)
    (safe : ∀ source ∈ sources, ¬ Hazard n target source) :
    (kernelPlan kernel n target sources).Ordered (fabric kernel.bitstream) := by
  intro i j o k w input output got v emitted
  obtain ⟨source, among, column, below, rfl⟩ := kernelPlan_reads input
  obtain ⟨rfl, inside, same⟩ := kernelPlan_writes output
  rw [realizes.computes, compute_getElem? isKernel
    (by rw [List.length_map, sourceColumns_length isKernel])] at emitted
  obtain ⟨values, there, -⟩ := emitted
  have here : (got i)[k]? ∈ values.map some := by
    rw [← there, List.map_map]
    exact List.mem_map.mpr ⟨i, column, rfl⟩
  obtain ⟨value, -, isSome⟩ := List.mem_map.mp here
  have read : k < (got i).length := (List.getElem?_eq_some_iff.mp isSome.symm).1
  have apart := safe source among
  unfold Hazard at apart
  omega

/-- What comes in for the operands. -/
theorem kernelPlan_streams (isKernel : kernel = addKernel ∨ kernel = reluKernel)
    (count : sources.length = kernel.inputCount) (before : Nat → BitVec 32) :
    kernel.sourceColumns.map ((kernelPlan kernel n target sources).streams before) =
      sources.map fun source => (List.range n).map fun k => before (source + k) := by
  rcases isKernel with rfl | rfl
  · obtain ⟨lhs, rhs, rfl⟩ := List.length_eq_two.mp count
    simp [Plan.streams, kernelPlan, StrelaKernel.sourceColumns, addKernel, Function.comp_def,
      List.lookup_cons]
  · obtain ⟨input, rfl⟩ := List.length_eq_one_iff.mp count
    simp [Plan.streams, kernelPlan, StrelaKernel.sourceColumns, reluKernel, Function.comp_def]

/-- The words a kernel is to leave, one by one. -/
theorem kernelPlan_outcome (realizes : Realizes fabric kernel)
    (isKernel : kernel = addKernel ∨ kernel = reluKernel)
    (count : sources.length = kernel.inputCount) (before after : Nat → BitVec 32) :
    Outcome (kernelPlan kernel n target sources) (fabric kernel.bitstream) before after ↔
      (∀ k < n, after (target + k) =
        kernel.combine (sources.map fun source => before (source + k))) ∧
      ∀ w, ¬ (target ≤ w ∧ w < target + n) → after w = before w := by
  have emitted (k : Nat) (inside : k < n) :
      fabric kernel.bitstream ((kernelPlan kernel n target sources).streams before)
        kernel.outputColumn k =
        some (kernel.combine (sources.map fun source => before (source + k))) := by
    rw [realizes.computes, kernelPlan_streams isKernel count,
      compute_getElem? isKernel (by rw [List.length_map, count])]
    exact ⟨_, by simp [Function.comp_def, inside], rfl⟩
  have there (k : Nat) (inside : k < n) :
      ((kernelPlan kernel n target sources).writes kernel.outputColumn)[k]? =
        some (target + k) := by
    simp [kernelPlan, inside]
  constructor
  · intro outcome
    refine ⟨fun k inside => ?_, fun w outside => outcome.kept w fun o member => ?_⟩
    · have written := outcome.written _ k _ (there k inside)
      rw [emitted k inside] at written
      exact (Option.some.inj written).symm
    · obtain ⟨k, found⟩ := List.mem_iff_getElem?.mp member
      obtain ⟨-, inside, rfl⟩ := kernelPlan_writes found
      exact outside ⟨by omega, by omega⟩
  · rintro ⟨written, kept⟩
    refine ⟨fun o k w found => ?_, fun w untouched => kept w fun inside => ?_⟩
    · obtain ⟨rfl, inside, rfl⟩ := kernelPlan_writes found
      rw [emitted k inside, written k inside]
    · refine untouched kernel.outputColumn (List.mem_iff_getElem?.mpr ⟨w - target, ?_⟩)
      rw [there _ (by omega)]
      congr 1
      omega

/-- The memory after the first `k` words went through one by one. -/
def rounds (kernel : StrelaKernel) (target : Nat) (sources : List Nat) (before : Nat → BitVec 32) :
    Nat → Nat → BitVec 32
  | 0 => before
  | k + 1 => Function.update (rounds kernel target sources before k) (target + k)
      (kernel.combine (sources.map fun source =>
        rounds kernel target sources before k (source + k)))

theorem rounds_outside (before : Nat → BitVec 32) (k w : Nat)
    (outside : ¬ (target ≤ w ∧ w < target + k)) :
    rounds kernel target sources before k w = before w := by
  induction k with
  | zero => rfl
  | succ k ih =>
      rw [rounds, Function.update_of_ne (by omega), ih (by omega)]

theorem rounds_inside (before : Nat → BitVec 32) (k j : Nat) (inside : j < k) :
    rounds kernel target sources before k (target + j) =
      kernel.combine (sources.map fun source =>
        rounds kernel target sources before j (source + j)) := by
  induction k with
  | zero => omega
  | succ k ih =>
      by_cases last : j = k
      · subst last
        rw [rounds, Function.update_self]
      · rw [rounds, Function.update_of_ne (by omega), ih (by omega)]

/-- Where the operand of a column starts. -/
def sourceOf (kernel : StrelaKernel) (sources : List Nat) (i : Nat) : Nat :=
  ((kernel.sourceColumns.zip sources).lookup i).getD 0

theorem sourceOf_spec (n target : Nat) (isKernel : kernel = addKernel ∨ kernel = reluKernel)
    (count : sources.length = kernel.inputCount) :
    kernel.sourceColumns.Nodup ∧ kernel.sourceColumns.map (sourceOf kernel sources) = sources ∧
      ∀ i ∈ kernel.sourceColumns, (kernelPlan kernel n target sources).reads i =
        (List.range n).map (sourceOf kernel sources i + ·) := by
  rcases isKernel with rfl | rfl
  · obtain ⟨lhs, rhs, rfl⟩ := List.length_eq_two.mp count
    simp [sourceOf, kernelPlan, StrelaKernel.sourceColumns, addKernel, List.lookup_cons]
  · obtain ⟨input, rfl⟩ := List.length_eq_one_iff.mp count
    simp [sourceOf, kernelPlan, StrelaKernel.sourceColumns, reluKernel]

/-- A job may take its words one by one. -/
theorem rounds_reached (n target : Nat) (realizes : Realizes fabric kernel)
    (isKernel : kernel = addKernel ∨ kernel = reluKernel)
    (count : sources.length = kernel.inputCount) (before : Nat → BitVec 32) (k : Nat)
    (enough : k ≤ n) :
    ∃ got, ReflTransGen (Move (kernelPlan kernel n target sources) (fabric kernel.bitstream))
        (Streaming.start before)
        ⟨rounds kernel target sources before k, got,
          fun o => if o = kernel.outputColumn then k else 0⟩ ∧
      ∀ i ∈ kernel.sourceColumns, got i = (List.range k).map fun j =>
        rounds kernel target sources before j (sourceOf kernel sources i + j) := by
  obtain ⟨once, sourcesEq, reads⟩ := sourceOf_spec n target isKernel count
  induction k with
  | zero =>
      refine ⟨fun _ => [], ?_, fun i column => rfl⟩
      simp only [ite_self]
      exact .refl
  | succ k ih =>
      obtain ⟨got, moves, known⟩ := ih (by omega)
      obtain ⟨got', reading, after⟩ := Streaming.exists_reads
        (kernelPlan kernel n target sources) (fabric kernel.bitstream)
        (fun i => sourceOf kernel sources i + k) kernel.sourceColumns once
        ⟨rounds kernel target sources before k, got, _⟩ fun i column => by
          have inside : k < n := enough
          simp [reads i column, known i column, inside]
      have now (i : Nat) (column : i ∈ kernel.sourceColumns) :
          got' i = (List.range (k + 1)).map fun j =>
            rounds kernel target sources before j (sourceOf kernel sources i + j) := by
        rw [after, if_pos column, List.range_succ, List.map_append, ← known i column]
        rfl
      refine ⟨got', ?_, now⟩
      have emitted : fabric kernel.bitstream got' kernel.outputColumn k =
          some (kernel.combine (sources.map fun source =>
            rounds kernel target sources before k (source + k))) := by
        rw [realizes.computes, compute_getElem? isKernel
          (by rw [List.length_map, sourceColumns_length isKernel])]
        refine ⟨_, ?_, rfl⟩
        rw [← congrArg (List.map fun source =>
          rounds kernel target sources before k (source + k)) sourcesEq]
        simp only [List.map_map]
        refine List.map_congr_left fun i column => ?_
        simp [now i column]
      have inside : k < n := enough
      have write : Move (kernelPlan kernel n target sources) (fabric kernel.bitstream) _ _ :=
        .write ⟨rounds kernel target sources before k, got',
          fun o => if o = kernel.outputColumn then k else 0⟩ kernel.outputColumn (target + k) _
          (by simp [kernelPlan, inside]) (by simpa using emitted)
      have put : (fun o => if o = kernel.outputColumn then k + 1 else 0) =
          Function.update (fun o => if o = kernel.outputColumn then k else 0)
            kernel.outputColumn
            ((if kernel.outputColumn = kernel.outputColumn then k else 0) + 1) := by
        funext o
        by_cases same : o = kernel.outputColumn <;> simp [same]
      rw [put]
      exact (moves.trans reading).tail write

/-- The difference a hazard makes: the word the result starts with is read again `d`
words later, in place of what was there. -/
theorem combine_hazard (isKernel : kernel = addKernel ∨ kernel = reluKernel)
    (count : sources.length = kernel.inputCount) {source : Nat} (among : source ∈ sources)
    (x : Nat → BitVec 32) :
    kernel.combine (sources.map fun other => if other = source then
        kernel.combine (sources.map fun other => if other = source then 1 else 0)
      else x other) ≠
      kernel.combine (sources.map fun other => if other = source then 0 else x other) := by
  rcases isKernel with rfl | rfl
  · obtain ⟨lhs, rhs, rfl⟩ := List.length_eq_two.mp count
    have sum (a b : BitVec 32) : addKernel.combine [a, b] = a + b := rfl
    simp only [List.map_cons, List.map_nil, sum]
    by_cases left : lhs = source <;> by_cases right : rhs = source
    · simp only [left, right, ↓reduceIte]
      decide
    · simp only [left, right, ↓reduceIte]
      bv_omega
    · simp only [left, right, ↓reduceIte]
      bv_omega
    · simp [Ne.symm left, Ne.symm right] at among
  · obtain ⟨input, rfl⟩ := List.length_eq_one_iff.mp count
    obtain rfl := List.mem_singleton.mp among
    simp only [List.map_cons, List.map_nil, ↓reduceIte]
    decide

/-- A job of one of the kernels leaves what the kernel makes of the memory before it,
for every memory and however its columns are interleaved, exactly if no operand starts
before the result and reaches into it. -/
theorem kernel_interleaves_iff (fabric : Fabric) (kernel : StrelaKernel)
    (realizes : Realizes fabric kernel) (isKernel : kernel = addKernel ∨ kernel = reluKernel)
    (n target : Nat) (sources : List Nat) (count : sources.length = kernel.inputCount) :
    (∀ before s, ReflTransGen (Move (kernelPlan kernel n target sources) (fabric kernel.bitstream))
        (Streaming.start before) s → (kernelPlan kernel n target sources).Complete s.put →
        (∀ k < n, s.mem (target + k) =
          kernel.combine (sources.map fun source => before (source + k))) ∧
        ∀ w, ¬ (target ≤ w ∧ w < target + n) → s.mem w = before w) ↔
      ∀ source ∈ sources, ¬ Hazard n target source := by
  constructor
  · intro atomic hazardous among hazard
    -- The hazard that is met first: its source is the closest one before the result.
    have some_ : ∃ d, 0 < d ∧ ∃ source ∈ sources, source + d = target :=
      ⟨target - hazardous, by unfold Hazard at hazard; omega, hazardous, among, by
        unfold Hazard at hazard; omega⟩
    obtain ⟨d, ⟨positive, source, inSources, rfl⟩, closest⟩ :
        ∃ d, (0 < d ∧ ∃ source ∈ sources, source + d = target) ∧
          ∀ other ∈ sources, other < target → other + d ≤ target := by
      refine ⟨Nat.find some_, Nat.find_spec some_, fun other member before => ?_⟩
      have least : Nat.find some_ ≤ target - other :=
        Nat.find_min' some_ ⟨by omega, other, member, by omega⟩
      omega
    have below : d < n := by
      have near := closest hazardous among hazard.1
      unfold Hazard at hazard
      omega
    obtain ⟨got, moves, -⟩ := rounds_reached n (source + d) realizes isKernel count
      (fun w => if w = source then 1 else 0) n (Nat.le_refl n)
    have complete : (kernelPlan kernel n (source + d) sources).Complete
        fun o => if o = kernel.outputColumn then n else 0 := by
      intro o
      by_cases same : o = kernel.outputColumn <;> simp [kernelPlan, same]
    have written := (atomic _ _ moves complete).1 d below
    dsimp only at written
    rw [rounds_inside _ n d below] at written
    refine combine_hazard isKernel count inSources
      (fun other => if other + d = source then 1 else 0) ?_
    refine Eq.trans (Eq.trans ?_ written) ?_
    · congr 1
      refine List.map_congr_left fun other member => ?_
      split
      · rename_i same
        rw [same]
        have first : rounds kernel (source + d) sources (fun w => if w = source then 1 else 0) d
            (source + d + 0) = _ := rounds_inside _ d 0 positive
        simpa [rounds] using first.symm
      · rename_i different
        rw [rounds_outside _ d (other + d) (by have := closest other member; omega)]
    · congr 1
      refine List.map_congr_left fun other member => ?_
      by_cases same : other = source
      · rw [if_pos same, if_neg (by omega)]
      · rw [if_neg same]
  · intro safe before s moves complete
    exact (kernelPlan_outcome realizes isKernel count _ _).mp
      (Streaming.moves_outcome realizes.steady kernelPlan_apart
        (kernelPlan_ordered realizes isKernel safe) moves complete)

end

/-- A fabric for both bitstreams: the sums of two pairs of columns, or the rectified
first column. -/
def documentedFabric : Fabric := fun bitstream got o k =>
  if bitstream = addBitstream then
    if o = 1 then (strelaAdd (got 0) (got 1))[k]?
    else if o = 3 then (strelaAdd (got 2) (got 3))[k]?
    else none
  else if bitstream = reluBitstream then if o = 0 then (strelaRelu (got 0))[k]? else none
  else none

theorem documentedFabric_steady (bitstream : List (BitVec 32)) :
    Streaming.Steady (documentedFabric bitstream) := by
  have sum (left right left' right' : List (BitVec 32)) (k : Nat) (v : BitVec 32)
      (first : left <+: left') (second : right <+: right')
      (there : (strelaAdd left right)[k]? = some v) : (strelaAdd left' right')[k]? = some v := by
    obtain ⟨_, rfl⟩ := first
    obtain ⟨_, rfl⟩ := second
    obtain ⟨x, y, here, here', same⟩ := List.getElem?_zipWith_eq_some.mp there
    refine List.getElem?_zipWith_eq_some.mpr ⟨x, y, ?_, ?_, same⟩
    · rw [List.getElem?_append_left (List.getElem?_eq_some_iff.mp here).1, here]
    · rw [List.getElem?_append_left (List.getElem?_eq_some_iff.mp here').1, here']
  intro got got' o k v more emitted
  unfold documentedFabric at emitted ⊢
  split_ifs at emitted ⊢
  · exact sum _ _ _ _ k v (more 0) (more 1) emitted
  · exact sum _ _ _ _ k v (more 2) (more 3) emitted
  · obtain ⟨_, whole⟩ := more 0
    have inside := (List.getElem?_eq_some_iff.mp emitted).1
    rw [← whole, strelaRelu, List.map_append]
    exact (List.getElem?_append_left inside).trans emitted

theorem documentedFabric_realizes {kernel : StrelaKernel}
    (isKernel : kernel = addKernel ∨ kernel = reluKernel) : Realizes documentedFabric kernel := by
  refine ⟨documentedFabric_steady _, fun got k => ?_⟩
  rcases isKernel with rfl | rfl
  · rfl
  · have other : reluBitstream ≠ addBitstream := by decide
    simp [documentedFabric, reluKernel, other, StrelaKernel.sourceColumns, StrelaKernel.compute]

/-- The sum of 4 words from 16 on and 4 words from 20 on, left in place of the latter. -/
theorem kernel_interleaves_iff_sample :
    (∀ before s, ReflTransGen
        (Move (kernelPlan addKernel 4 20 [16, 20]) (documentedFabric addKernel.bitstream))
        (Streaming.start before) s → (kernelPlan addKernel 4 20 [16, 20]).Complete s.put →
        (∀ k < 4, s.mem (20 + k) =
          addKernel.combine ([16, 20].map fun source => before (source + k))) ∧
        ∀ w, ¬ (20 ≤ w ∧ w < 20 + 4) → s.mem w = before w) ↔
      ∀ source ∈ [16, 20], ¬ Hazard 4 20 source :=
  kernel_interleaves_iff documentedFabric addKernel (documentedFabric_realizes (Or.inl rfl))
    (Or.inl rfl) 4 20 [16, 20] rfl

end Estela.Compiler
