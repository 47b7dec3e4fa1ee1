import Mathlib.Data.List.Count

set_option autoImplicit false

/- What a run acquired and released, entry by entry. Nothing here fixes what
the resources are. -/
namespace Ledger

inductive Entry (R : Type)
  | acquired (resource : R)
  | released (resource : R)
  deriving DecidableEq, Repr

variable {R : Type} [DecidableEq R]

/-- How often a resource was acquired. -/
def acquired (entries : List (Entry R)) (r : R) : Nat := entries.count (.acquired r)

def released (entries : List (Entry R)) (r : R) : Nat := entries.count (.released r)

@[simp] theorem acquired_nil (r : R) : acquired [] r = 0 := rfl

@[simp] theorem released_nil (r : R) : released [] r = 0 := rfl

@[simp] theorem acquired_acquired (entries : List (Entry R)) (s r : R) :
    acquired (.acquired s :: entries) r = acquired entries r + if s = r then 1 else 0 := by
  simp [acquired, List.count_cons]

@[simp] theorem acquired_released (entries : List (Entry R)) (s r : R) :
    acquired (.released s :: entries) r = acquired entries r := by
  simp [acquired]

@[simp] theorem released_released (entries : List (Entry R)) (s r : R) :
    released (.released s :: entries) r = released entries r + if s = r then 1 else 0 := by
  simp [released, List.count_cons]

@[simp] theorem released_acquired (entries : List (Entry R)) (s r : R) :
    released (.acquired s :: entries) r = released entries r := by
  simp [released]

/-- Everything that was acquired was released exactly once. -/
def Settled (entries : List (Entry R)) : Prop := ∀ r, acquired entries r = released entries r

theorem Settled.nil : Settled ([] : List (Entry R)) := fun _ => rfl

end Ledger
