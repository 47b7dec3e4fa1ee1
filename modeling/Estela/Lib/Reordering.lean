import Mathlib.Data.List.Perm.Basic
import Mathlib.Tactic.Common

set_option autoImplicit false

/- Steps in two orders. What two orders of the same steps lead to is the same if any
two steps that change places commute. -/
namespace Reordering

variable {T S : Type}

/-- A step moves in front of steps it commutes with. -/
theorem foldl_middle (apply : S → T → S) (before after : List T) (x : T) (s : S)
    (commute : ∀ y ∈ before, ∀ s, apply (apply s x) y = apply (apply s y) x) :
    (before ++ x :: after).foldl apply s = (x :: (before ++ after)).foldl apply s := by
  induction before generalizing s with
  | nil => rfl
  | cons y rest ih =>
      have swap := commute y List.mem_cons_self s
      have later := ih (apply s y) fun z member => commute z (List.mem_cons_of_mem y member)
      simp only [List.cons_append, List.foldl_cons] at later ⊢
      rw [later, swap]

theorem foldl_eq_of_reorder (apply : S → T → S) (first second : List T) (same : first.Perm second)
    (commute : ∀ x y, [x, y].Sublist first → [y, x].Sublist second →
      ∀ s, apply (apply s x) y = apply (apply s y) x) (s : S) :
    first.foldl apply s = second.foldl apply s := by
  induction first generalizing second s with
  | nil => rw [List.nil_perm.mp same]
  | cons x rest ih =>
      obtain ⟨before, after, rfl⟩ := List.append_of_mem (same.subset List.mem_cons_self)
      have others : rest.Perm (before ++ after) :=
        (List.perm_cons x).mp (same.trans List.perm_middle)
      have front := foldl_middle apply before after x s fun y member => by
        apply commute
        · -- What is before `x` in the one order is after it in the other.
          have later : y ∈ rest := others.mem_iff.mpr (List.mem_append_left after member)
          exact (List.singleton_sublist.mpr later).cons_cons x
        · have earlier := List.singleton_sublist.mpr member
          exact earlier.append ((List.nil_sublist after).cons_cons x)
      rw [front, List.foldl_cons, List.foldl_cons]
      apply ih (before ++ after) others
      intro y z inFirst inSecond
      apply commute y z (inFirst.cons x)
      exact inSecond.trans ((List.Sublist.refl before).append (List.sublist_cons_self x after))

/-- Steps that agree for each key are the same steps. -/
theorem perm_of_filter {K : Type} [DecidableEq K] [DecidableEq T] (key : T → K)
    (first second : List T) (agree : ∀ k, first.filter (key · = k) = second.filter (key · = k)) :
    first.Perm second := by
  rw [List.perm_iff_count]
  intro x
  have counted (steps : List T) : steps.count x = (steps.filter (key · = key x)).count x := by
    rw [List.count_filter]
    simp
  rw [counted first, counted second, agree]

section

variable {K : Type} {key : T → K} {steps : K → List T}

end

end Reordering
