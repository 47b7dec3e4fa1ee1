import Mathlib.Algebra.BigOperators.Group.List.Basic
import Mathlib.Data.List.Forall2
import Mathlib.Data.List.Induction
import Mathlib.Data.List.Nodup
import Mathlib.Data.List.Range
import Mathlib.Tactic.Common

set_option autoImplicit false

/- Multi-indices in row-major order, and where they lie in a row-major array. -/
namespace RowMajor

/-- The multi-indices of a shape, the last one running fastest. -/
def indices : List Nat → List (List Nat)
  | [] => [[]]
  | d :: ds => (List.range d).flatMap fun i => (indices ds).map (i :: ·)

/-- The position of a multi-index in a row-major array of shape `dims`. -/
def linearize : List Nat → List Nat → Nat
  | _ :: ds, i :: is => i * ds.prod + linearize ds is
  | _, _ => 0

theorem mem_indices (shape index : List Nat) :
    index ∈ indices shape ↔ List.Forall₂ (· < ·) index shape := by
  induction shape generalizing index with
  | nil => simp [indices]
  | cons d ds ih =>
      simp only [indices, List.mem_flatMap, List.mem_range, List.mem_map, ih]
      constructor
      · rintro ⟨i, below, rest, inside, rfl⟩
        exact .cons below inside
      · rintro (_ | ⟨below, inside⟩)
        exact ⟨_, below, _, inside, rfl⟩

theorem length_of_mem_indices {shape index : List Nat} (member : index ∈ indices shape) :
    index.length = shape.length := ((mem_indices _ _).mp member).length_eq

/-- Blocks of `p` consecutive numbers, one after the other. -/
theorem flatMap_blocks (n p : Nat) :
    (List.range n).flatMap (fun i => (List.range p).map (i * p + ·)) = List.range (n * p) := by
  induction n with
  | zero => simp
  | succ n ih =>
      rw [List.range_succ, List.flatMap_append, ih, Nat.succ_mul, List.range_add]
      simp

/-- Addresses of a slice at the origin of an array of shape `dims`, in the
slice's own order. -/
def addresses (dims sizes : List Nat) : List Nat := (indices sizes).map (linearize dims)

theorem addresses_cons (d s : Nat) (ds ss : List Nat) :
    addresses (d :: ds) (s :: ss) =
      (List.range s).flatMap fun i => (addresses ds ss).map (i * ds.prod + ·) := by
  simp only [addresses, indices, List.map_flatMap, List.map_map]
  rfl

@[simp] theorem length_addresses (dims sizes : List Nat) :
    (addresses dims sizes).length = sizes.prod := by
  rw [addresses, List.length_map]
  induction sizes with
  | nil => rfl
  | cons s ss ih => simp [indices, ih]

/-- Row-major order is address order. -/
theorem addresses_self (shape : List Nat) : addresses shape shape = List.range shape.prod := by
  induction shape with
  | nil => rfl
  | cons d ds ih => rw [addresses_cons, ih, flatMap_blocks, List.prod_cons]

theorem linearize_lt {shape index : List Nat} (member : index ∈ indices shape) :
    linearize shape index < shape.prod := by
  have address : linearize shape index ∈ addresses shape shape := List.mem_map_of_mem member
  rw [addresses_self] at address
  exact List.mem_range.mp address

theorem exists_index {shape : List Nat} {k : Nat} (inside : k < shape.prod) :
    ∃ index ∈ indices shape, linearize shape index = k := by
  have address : k ∈ addresses shape shape := by
    rw [addresses_self]
    exact List.mem_range.mpr inside
  exact List.mem_map.mp address

/-- Wherever a slice is wider than one, what lies inside has its full extent. -/
def Dense : List Nat → List Nat → Prop
  | _ :: ds, s :: ss => (1 < s → ss.prod = ds.prod) ∧ Dense ds ss
  | _, _ => True

instance decidableDense : (dims sizes : List Nat) → Decidable (Dense dims sizes)
  | _ :: ds, s :: ss =>
      have := decidableDense ds ss
      inferInstanceAs (Decidable ((1 < s → ss.prod = ds.prod) ∧ Dense ds ss))
  | [], _ => isTrue (by simp [Dense])
  | _ :: _, [] => isTrue (by simp [Dense])

/-- A non-empty slice at the origin covers consecutive addresses exactly if it is
dense. -/
theorem addresses_eq_range_iff (dims sizes : List Nat) (rank : dims.length = sizes.length)
    (nonempty : sizes.prod ≠ 0) :
    addresses dims sizes = List.range sizes.prod ↔ Dense dims sizes := by
  induction sizes generalizing dims with
  | nil =>
      obtain rfl := List.length_eq_zero_iff.mp rank
      simp [addresses, indices, linearize, Dense]
  | cons s ss ih =>
      cases dims with
      | nil => cases rank
      | cons d ds =>
          simp only [List.prod_cons, ne_eq, Nat.mul_eq_zero, not_or] at nonempty
          obtain ⟨some, inner⟩ := nonempty
          have tail := ih ds (by simpa using rank) inner
          have positive : 0 < ss.prod := Nat.pos_of_ne_zero inner
          rw [addresses_cons, List.prod_cons, Dense]
          constructor
          · intro whole
            obtain ⟨n, rfl⟩ := Nat.exists_eq_succ_of_ne_zero some
            -- The first block is the slice of the inner dimensions.
            have first : addresses ds ss = List.range ss.prod := by
              have head := congrArg (List.take ss.prod) whole
              rw [List.take_range, List.range_succ_eq_map, List.flatMap_cons,
                List.take_left' (by simp)] at head
              rw [Nat.min_eq_left (Nat.le_mul_of_pos_left _ (Nat.succ_pos n))] at head
              simpa using head
            refine ⟨fun wide => ?_, tail.mp first⟩
            -- The second block starts where the first one ends.
            obtain ⟨m, rfl⟩ : ∃ m, n = m + 1 := ⟨n - 1, by omega⟩
            have second := congrArg (fun l => l[ss.prod]?) whole
            have later : ss.prod < (m + 1 + 1) * ss.prod := by
              have rest : 0 < (m + 1) * ss.prod := Nat.mul_pos (Nat.succ_pos m) positive
              rw [Nat.succ_mul]
              omega
            rw [first, List.range_succ_eq_map, List.flatMap_cons,
              List.range_succ_eq_map, List.map_cons,
              List.flatMap_cons, List.getElem?_append_right (by simp),
              List.getElem?_append_left (by simpa using positive),
              List.getElem?_range later] at second
            simpa [positive] using second.symm
          · rintro ⟨block, inside⟩
            rw [tail.mpr inside]
            by_cases wide : 1 < s
            · rw [← block wide, flatMap_blocks]
            · obtain rfl : s = 1 := by omega
              simp

section

variable {ι α : Type} (place : ι → Nat) (value : ι → α)

/-- An array after writes to it, one after the other. -/
def scatter (order : List ι) (words : List α) : List α :=
  order.foldl (fun words i => words.set (place i) (value i)) words

/-- Who writes a place last. -/
def lastWriter (order : List ι) (k : Nat) : Option ι := order.reverse.find? (place · = k)

@[simp] theorem length_scatter (order : List ι) (words : List α) :
    (scatter place value order words).length = words.length := by
  unfold scatter
  induction order generalizing words with
  | nil => rfl
  | cons i rest ih => rw [List.foldl_cons, ih, List.length_set]

theorem lastWriter_some {order : List ι} {k : Nat} {i : ι}
    (found : lastWriter place order k = some i) :
    i ∈ order ∧ place i = k :=
  ⟨List.mem_reverse.mp (List.mem_of_find?_eq_some found), by simpa using List.find?_some found⟩

theorem lastWriter_ne_none {order : List ι} {i : ι} (member : i ∈ order) :
    lastWriter place order (place i) ≠ none := by
  intro missing
  have other := List.find?_eq_none.mp missing i (List.mem_reverse.mpr member)
  simp at other

/-- The last one to write a place settles what is there. -/
theorem scatter_getElem? (order : List ι) (words : List α) (k : Nat) (inside : k < words.length) :
    (scatter place value order words)[k]? =
      (lastWriter place order k).elim words[k]? fun i => some (value i) := by
  induction order using List.reverseRecOn with
  | nil => rfl
  | append_singleton earlier i ih =>
      have step : scatter place value (earlier ++ [i]) words =
          (scatter place value earlier words).set (place i) (value i) := by
        simp [scatter, List.foldl_append]
      have last : lastWriter place (earlier ++ [i]) k =
          if place i = k then some i else lastWriter place earlier k := by
        by_cases here : place i = k <;> simp [lastWriter, here]
      rw [step, last, List.getElem?_set, length_scatter]
      by_cases here : place i = k
      · simp [here, inside]
      · simp only [here, ↓reduceIte, ih]

/-- An array after additions to it, one after the other. -/
def accumulate [Add α] (order : List ι) (words : List α) : List α :=
  order.foldl (fun words i => words.modify (place i) (· + value i)) words

@[simp] theorem length_accumulate [Add α] (order : List ι) (words : List α) :
    (accumulate place value order words).length = words.length := by
  unfold accumulate
  induction order generalizing words with
  | nil => rfl
  | cons i rest ih => rw [List.foldl_cons, ih, List.length_modify]

end

end RowMajor
