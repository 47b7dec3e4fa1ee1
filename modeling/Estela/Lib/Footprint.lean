import Mathlib.Data.Set.Basic
import Mathlib.Tactic.Common

set_option autoImplicit false

/- Changes of a memory by the addresses they read and write. Two of them commute if
neither writes what the other reads or writes. -/
namespace Footprint

variable {A V : Type}

/-- What a change writes comes of what it reads, and of what it writes over. -/
structure Within (reads writes : Set A) (change : (A → V) → A → V) : Prop where
  kept : ∀ memory, ∀ a ∉ writes, change memory a = memory a
  written : ∀ memory memory', (∀ a, a ∈ reads ∨ a ∈ writes → memory a = memory' a) →
    ∀ a ∈ writes, change memory a = change memory' a

/-- One of them writes what the other one reads or writes. -/
def Clash (reads writes reads' writes' : Set A) : Prop :=
  ∃ a, a ∈ writes ∧ (a ∈ reads' ∨ a ∈ writes') ∨ a ∈ writes' ∧ a ∈ reads

theorem Clash.symm {reads writes reads' writes' : Set A}
    (clash : Clash reads writes reads' writes') : Clash reads' writes' reads writes := by
  obtain ⟨a, ⟨first, reads⟩ | ⟨second, reads⟩⟩ := clash
  · rcases reads with read | written
    · exact ⟨a, Or.inr ⟨first, read⟩⟩
    · exact ⟨a, Or.inl ⟨written, Or.inr first⟩⟩
  · exact ⟨a, Or.inl ⟨second, Or.inl reads⟩⟩

/-- A change that leaves everything as it is. -/
theorem Within.nothing (reads : Set A) : Within reads ∅ (fun memory : A → V => memory) where
  kept _ _ _ := rfl
  written _ _ _ _ member := absurd member (Set.notMem_empty _)

section

variable {reads writes reads' writes' : Set A} {change change' : (A → V) → A → V}

/-- A change sees no difference in what the other one leaves alone. -/
theorem Within.unseen (within : Within reads writes change)
    (within' : Within reads' writes' change') (apart : ¬ Clash reads writes reads' writes')
    (memory : A → V) {a : A} (written : a ∈ writes) :
    change (change' memory) a = change memory a := by
  apply within.written _ _ _ a written
  intro b used
  apply within'.kept
  intro there
  rcases used with read | overwritten
  · exact apart ⟨b, Or.inr ⟨there, read⟩⟩
  · exact apart ⟨b, Or.inl ⟨overwritten, Or.inr there⟩⟩

theorem Within.commute (within : Within reads writes change)
    (within' : Within reads' writes' change') (apart : ¬ Clash reads writes reads' writes')
    (memory : A → V) : change' (change memory) = change (change' memory) := by
  have apart' : ¬ Clash reads' writes' reads writes := fun clash => apart clash.symm
  funext a
  by_cases first : a ∈ writes
  · have second : a ∉ writes' := fun there => apart ⟨a, Or.inl ⟨first, Or.inr there⟩⟩
    rw [within'.kept _ a second, within.unseen within' apart memory first]
  · rw [within.kept _ a first]
    by_cases second : a ∈ writes'
    · exact within'.unseen within apart' memory second
    · rw [within'.kept _ a second, within'.kept _ a second, within.kept _ a first]

end

end Footprint
