import Estela.Lib.RowMajor

set_option autoImplicit false

/- Arrays of any rank in row-major order: one element, another shape of the same
elements, dimensions in another order, and windows of an array. -/
namespace RowMajor

structure NdArray (α : Type) where
  shape : List Nat
  elements : List α
  whole : elements.length = shape.prod

theorem length_indices (shape : List Nat) : (indices shape).length = shape.prod := by
  have length := length_addresses shape shape
  rwa [addresses, List.length_map] at length

/-- Multi-indices are listed in the order of their positions. -/
theorem indices_linearize {shape index : List Nat} (member : index ∈ indices shape) :
    (indices shape)[linearize shape index]? = some index := by
  obtain ⟨p, found⟩ := List.mem_iff_getElem?.mp member
  have address : (addresses shape shape)[p]? = some (linearize shape index) := by
    rw [addresses, List.getElem?_map, found, Option.map_some]
  rw [addresses_self] at address
  obtain ⟨below, same⟩ := List.getElem?_eq_some_iff.mp address
  rw [List.getElem_range] at same
  rw [← same]
  exact found

namespace NdArray

variable {α β : Type}

def ofFn (shape : List Nat) (f : List Nat → α) : NdArray α where
  shape
  elements := (indices shape).map f
  whole := by rw [List.length_map, length_indices]

@[simp] theorem ofFn_shape (shape : List Nat) (f : List Nat → α) : (ofFn shape f).shape = shape :=
  rfl

theorem ofFn_getElem? {shape index : List Nat} (f : List Nat → α) (member : index ∈ indices shape) :
    (ofFn shape f).elements[linearize shape index]? = some (f index) := by
  rw [ofFn, List.getElem?_map, indices_linearize member, Option.map_some]

variable [Inhabited α]

def get (a : NdArray α) (index : List Nat) : α := a.elements.getD (linearize a.shape index) default

theorem get_ofFn {shape index : List Nat} (f : List Nat → α) (member : index ∈ indices shape) :
    (ofFn shape f).get index = f index := by
  rw [get, ofFn_shape, List.getD_eq_getElem?_getD, ofFn_getElem? f member]
  rfl

/-- The same elements in another shape. -/
def reshape (a : NdArray α) (shape : List Nat) (same : a.shape.prod = shape.prod) : NdArray α where
  shape
  elements := a.elements
  whole := a.whole.trans same

theorem get_reshape (a : NdArray α) (shape : List Nat) (same : a.shape.prod = shape.prod)
    (first second : List Nat) (position : linearize shape second = linearize a.shape first) :
    (a.reshape shape same).get second = a.get first := by
  unfold get
  exact congrArg (fun p => a.elements.getD p default) position

/-- Dimension `i` of the result is dimension `permutation[i]` of the array. -/
def transpose (permutation : List Nat) (a : NdArray α) : NdArray α :=
  ofFn (permutation.map (a.shape.getD · 0)) fun index =>
    a.get ((List.range a.shape.length).map fun d => index.getD (permutation.idxOf d) 0)

end NdArray

/-- What a window takes of one dimension. -/
structure Span where
  offset : Nat
  size : Nat
  stride : Nat
  deriving DecidableEq, Repr

/-- Where an element of a window lies in the array. -/
def source (spans : List Span) (index : List Nat) : List Nat :=
  List.zipWith (fun span i => span.offset + i * span.stride) spans index

/-- Which element of the span an element of the dimension is, if it is one. -/
def Span.locate (span : Span) (i : Nat) : Option Nat :=
  if span.offset ≤ i ∧ (i - span.offset) % span.stride = 0 ∧
      (i - span.offset) / span.stride < span.size then
    some ((i - span.offset) / span.stride)
  else none

/-- Which element of a window an element of the array is, if it is one. -/
def locate : List Span → List Nat → Option (List Nat)
  | [], [] => some []
  | span :: spans, i :: index => do
      let here ← span.locate i
      let rest ← locate spans index
      return here :: rest
  | _, _ => none

namespace NdArray

variable {α β : Type}

def map (f : α → β) (a : NdArray α) : NdArray β where
  shape := a.shape
  elements := a.elements.map f
  whole := by rw [List.length_map, a.whole]

theorem map_ofFn (f : α → β) (shape : List Nat) (g : List Nat → α) :
    (ofFn shape g).map f = ofFn shape fun index => f (g index) := by
  unfold map ofFn
  simp only [List.map_map]
  rfl

variable [Inhabited α]

def extractSlice (spans : List Span) (a : NdArray α) : NdArray α :=
  ofFn (spans.map (·.size)) fun index => a.get (source spans index)

def insertSlice (spans : List Span) (source dest : NdArray α) : NdArray α :=
  ofFn dest.shape fun index =>
    match locate spans index with
    | some inside => source.get inside
    | none => dest.get index

end NdArray

/-- The window of one index of the leading dimension, whole in the others. -/
def slab (i : Nat) (rest : List Nat) : List Span := ⟨i, 1, 1⟩ :: rest.map fun size => ⟨0, size, 1⟩

theorem slab_sizes (i : Nat) (rest : List Nat) : (slab i rest).map (·.size) = 1 :: rest := by
  simp [slab, Function.comp_def]

theorem cons_mem_indices {d head : Nat} {ds tail : List Nat} :
    head :: tail ∈ indices (d :: ds) ↔ head < d ∧ tail ∈ indices ds := by
  rw [mem_indices, mem_indices, List.forall₂_cons]

theorem locate_whole {sizes index : List Nat} (member : index ∈ indices sizes) :
    locate (sizes.map fun size => ⟨0, size, 1⟩) index = some index := by
  induction sizes generalizing index with
  | nil =>
      rw [mem_indices, List.forall₂_nil_right_iff] at member
      rw [member]
      rfl
  | cons d ds ih =>
      cases index with
      | nil => cases (mem_indices _ _).mp member
      | cons i index =>
          obtain ⟨below, inside⟩ := cons_mem_indices.mp member
          have here : Span.locate ⟨0, d, 1⟩ i = some i := by
            simp [Span.locate, Nat.mod_one, below]
          simp only [List.map_cons, locate, here, ih inside]
          rfl

theorem locate_slab (i head : Nat) {rest tail : List Nat} (member : tail ∈ indices rest) :
    locate (slab i rest) (head :: tail) = if head = i then some (0 :: tail) else none := by
  simp only [slab, locate, locate_whole member]
  by_cases same : head = i
  · have here : Span.locate ⟨i, 1, 1⟩ head = some 0 := by
      simp [Span.locate, same]
    rw [here, if_pos same]
    rfl
  · have outside : Span.locate ⟨i, 1, 1⟩ head = none := by
      unfold Span.locate
      apply if_neg
      simp only [Nat.mod_one, Nat.div_one]
      omega
    rw [outside, if_neg same]
    rfl

theorem source_whole {sizes index : List Nat} (member : index ∈ indices sizes) :
    source (sizes.map fun size => ⟨0, size, 1⟩) index = index := by
  induction sizes generalizing index with
  | nil =>
      rw [mem_indices, List.forall₂_nil_right_iff] at member
      rw [member]
      rfl
  | cons d ds ih =>
      cases index with
      | nil => cases (mem_indices _ _).mp member
      | cons i index =>
          obtain ⟨_, inside⟩ := cons_mem_indices.mp member
          have rest := ih inside
          unfold source at rest ⊢
          rw [List.map_cons, List.zipWith_cons_cons, rest, Nat.zero_add, Nat.mul_one]

theorem source_slab (i : Nat) {rest tail : List Nat} (member : tail ∈ indices rest) :
    source (slab i rest) (0 :: tail) = i :: tail := by
  have whole := source_whole member
  unfold source at whole ⊢
  rw [slab, List.zipWith_cons_cons, whole, Nat.zero_mul, Nat.add_zero]

namespace NdArray

variable {α : Type} [Inhabited α]

theorem get_extract_slab (a : NdArray α) (i : Nat) {rest tail : List Nat}
    (member : tail ∈ indices rest) :
    (a.extractSlice (slab i rest)).get (0 :: tail) = a.get (i :: tail) := by
  have inside : 0 :: tail ∈ indices ((slab i rest).map (·.size)) := by
    rw [slab_sizes]
    exact cons_mem_indices.mpr ⟨Nat.one_pos, member⟩
  unfold extractSlice
  rw [get_ofFn _ inside, source_slab i member]

theorem get_insert_slab (slice dest : NdArray α) (i head : Nat) {d : Nat} {rest tail : List Nat}
    (shape : dest.shape = d :: rest) (below : head < d) (member : tail ∈ indices rest) :
    (insertSlice (slab i rest) slice dest).get (head :: tail) =
      if head = i then slice.get (0 :: tail) else dest.get (head :: tail) := by
  have inside : head :: tail ∈ indices dest.shape := by
    rw [shape]
    exact cons_mem_indices.mpr ⟨below, member⟩
  unfold insertSlice
  rw [get_ofFn _ inside, locate_slab i head member]
  by_cases same : head = i
  · rw [if_pos same, if_pos same]
  · rw [if_neg same, if_neg same]

/-- Slabs put in one after the other, the first `count` of them: these have replaced what
was there, and the rest is as before. -/
theorem get_foldl_insert (slabs : Nat → NdArray α) (dest : NdArray α) {d : Nat} {rest : List Nat}
    (shape : dest.shape = d :: rest) (count : Nat) :
    ((List.range count).foldl (fun acc i => insertSlice (slab i rest) (slabs i) acc) dest).shape =
        d :: rest ∧
      ∀ head < d, ∀ tail ∈ indices rest,
        ((List.range count).foldl (fun acc i => insertSlice (slab i rest) (slabs i) acc) dest).get
            (head :: tail) =
          if head < count then (slabs head).get (0 :: tail) else dest.get (head :: tail) := by
  induction count with
  | zero =>
      refine ⟨shape, fun head _ tail _ => ?_⟩
      rw [if_neg (Nat.not_lt_zero head)]
      rfl
  | succ count ih =>
      obtain ⟨sameShape, elements⟩ := ih
      rw [List.range_succ, List.foldl_append]
      refine ⟨sameShape, fun head below tail member => ?_⟩
      rw [List.foldl_cons, List.foldl_nil, get_insert_slab _ _ count head sameShape below member]
      by_cases last : head = count
      · rw [if_pos last, if_pos (by omega), last]
      · rw [if_neg last, elements head below tail member]
        by_cases earlier : head < count
        · rw [if_pos earlier, if_pos (by omega)]
        · rw [if_neg earlier, if_neg (by omega)]

end NdArray

end RowMajor
