import Mathlib.Data.List.Basic
import Mathlib.Tactic.Common

set_option autoImplicit false

/- Rewriting whose steps commute, and the rewriting of the leaves of a forest by a rule
that looks at one leaf at a time. -/
namespace Rewriting

section

variable {α : Type}

/-- So many steps from one to the other. -/
inductive Steps (step : α → α → Prop) : Nat → α → α → Prop
  | nil (a : α) : Steps step 0 a a
  | cons {n : Nat} {a b c : α} (first : step a b) (rest : Steps step n b c) :
      Steps step (n + 1) a c

def Stuck (step : α → α → Prop) (a : α) : Prop := ∀ b, ¬ step a b

/-- Two steps from the same place end in the same place, or one step from it. -/
def Commutes (step : α → α → Prop) : Prop :=
  ∀ a b c, step a b → step a c → b = c ∨ ∃ d, step b d ∧ step c d

variable {step : α → α → Prop} (commutes : Commutes step)

include commutes

/-- A step is one of those that are needed to the end. -/
theorem Commutes.step_toward {a b last : α} {n : Nat} (run : Steps step n a last)
    (stuck : Stuck step last) (first : step a b) :
    ∃ m, n = m + 1 ∧ Steps step m b last := by
  induction run generalizing b with
  | nil a => exact absurd first (stuck b)
  | @cons n a a' last next rest ih =>
      refine ⟨n, rfl, ?_⟩
      rcases commutes a a' b next first with rfl | ⟨d, left, right⟩
      · exact rest
      · obtain ⟨m, rfl, run⟩ := ih stuck left
        exact .cons right run

/-- If one run ends, so does each, in the same place and after as many steps. -/
theorem Commutes.run_toward {a b last : α} {m n : Nat} (run : Steps step n a last)
    (stuck : Stuck step last) (other : Steps step m a b) :
    ∃ left, n = m + left ∧ Steps step left b last := by
  induction other generalizing n with
  | nil a => exact ⟨n, (Nat.zero_add n).symm, run⟩
  | @cons m a b c first rest ih =>
      obtain ⟨k, rfl, shorter⟩ := commutes.step_toward run stuck first
      obtain ⟨left, rfl, whole⟩ := ih shorter
      exact ⟨left, by omega, whole⟩

omit commutes in
/-- Steps that each use up one of what there is to do come to an end. -/
theorem exists_last {todo : α → Nat} (spends : ∀ a b, step a b → todo b + 1 = todo a)
    (moves : ∀ a, 0 < todo a → ∃ b, step a b) (a : α) :
    ∃ last, Steps step (todo a) a last ∧ todo last = 0 := by
  generalize count : todo a = n
  induction n generalizing a with
  | zero => exact ⟨a, .nil a, count⟩
  | succ n ih =>
      obtain ⟨b, first⟩ := moves a (by omega)
      have one := spends a b first
      obtain ⟨last, run, done⟩ := ih b (by omega)
      exact ⟨last, .cons first run, done⟩

end

/-- Leaves, and nodes with more of them below. -/
inductive Forest (α β : Type)
  | nil
  | leaf (a : α) (rest : Forest α β)
  | node (b : β) (children rest : Forest α β)
  deriving DecidableEq, Repr

namespace Forest

variable {α β : Type}

def append : Forest α β → Forest α β → Forest α β
  | .nil, last => last
  | .leaf a rest, last => .leaf a (rest.append last)
  | .node b children rest, last => .node b children (rest.append last)

instance : Append (Forest α β) := ⟨append⟩

@[simp] theorem nil_append (last : Forest α β) : (.nil : Forest α β) ++ last = last := rfl

@[simp] theorem append_nil (first : Forest α β) : first ++ (.nil : Forest α β) = first := by
  induction first with
  | nil => rfl
  | leaf a rest ih => exact congrArg (Forest.leaf a) ih
  | node b children rest _ ih => exact congrArg (Forest.node b children) ih

@[simp] theorem leaf_append (a : α) (rest last : Forest α β) :
    Forest.leaf a rest ++ last = .leaf a (rest ++ last) := rfl

@[simp] theorem node_append (b : β) (children rest last : Forest α β) :
    Forest.node b children rest ++ last = .node b children (rest ++ last) := rfl

def leaves : Forest α β → List α
  | .nil => []
  | .leaf a rest => a :: rest.leaves
  | .node _ children rest => children.leaves ++ rest.leaves

@[simp] theorem leaves_append (first last : Forest α β) :
    (first ++ last).leaves = first.leaves ++ last.leaves := by
  induction first with
  | nil => rfl
  | leaf a rest ih => simp [leaves, ih]
  | node b children rest _ ih => simp [leaves, ih]

/-- Nodes with nothing below them, one after the other. -/
def flat (bs : List β) : Forest α β := bs.foldr (fun b rest => .node b .nil rest) .nil

@[simp] theorem leaves_flat (bs : List β) : (flat bs : Forest α β).leaves = [] := by
  induction bs with
  | nil => rfl
  | cons b rest ih => exact ih

/-- One leaf, at any depth, becomes what the rule makes of it. -/
inductive Step (rule : α → Forest α β → Prop) : Forest α β → Forest α β → Prop
  | here {a : α} {new : Forest α β} (applies : rule a new) (rest : Forest α β) :
      Step rule (.leaf a rest) (new ++ rest)
  | afterLeaf (a : α) {rest rest' : Forest α β} (later : Step rule rest rest') :
      Step rule (.leaf a rest) (.leaf a rest')
  | inNode (b : β) {children children' : Forest α β} (inside : Step rule children children')
      (rest : Forest α β) : Step rule (.node b children rest) (.node b children' rest)
  | afterNode (b : β) (children : Forest α β) {rest rest' : Forest α β}
      (later : Step rule rest rest') : Step rule (.node b children rest) (.node b children rest')

variable {rule : α → Forest α β → Prop}

theorem Step.append_left (first : Forest α β) {last last' : Forest α β}
    (step : Step rule last last') : Step rule (first ++ last) (first ++ last') := by
  induction first with
  | nil => exact step
  | leaf a rest ih => exact .afterLeaf a ih
  | node b children rest _ ih => exact .afterNode b children ih

theorem Step.append_right {first first' : Forest α β} (step : Step rule first first')
    (last : Forest α β) : Step rule (first ++ last) (first' ++ last) := by
  induction step with
  | @here a new applies rest =>
      have assoc (new : Forest α β) : (new ++ rest) ++ last = new ++ (rest ++ last) := by
        induction new with
        | nil => rfl
        | leaf a rest ih => simp [ih]
        | node b children rest _ ih => simp [ih]
      rw [assoc]
      exact .here applies _
  | afterLeaf a _ ih => exact .afterLeaf a ih
  | inNode b inside rest _ => exact .inNode b inside _
  | afterNode b children _ ih => exact .afterNode b children ih

/-- Steps commute if those at one leaf do: leaves apart from each other do not meet. -/
theorem step_commutes (local_ : ∀ a x y, rule a x → rule a y → x = y ∨
      ∃ z, Step rule x z ∧ Step rule y z) :
    Rewriting.Commutes (Step rule) := by
  intro f g h left right
  induction left generalizing h with
  | @here a new applies rest =>
      cases right with
      | @here _ other applies' _ =>
          rcases local_ a new other applies applies' with rfl | ⟨z, first, second⟩
          · exact Or.inl rfl
          · exact Or.inr ⟨z ++ rest, first.append_right rest, second.append_right rest⟩
      | afterLeaf _ later => exact Or.inr ⟨_, later.append_left new, .here applies _⟩
  | @afterLeaf a rest rest' later ih =>
      cases right with
      | here applies _ => exact Or.inr ⟨_, .here applies _, later.append_left _⟩
      | afterLeaf _ later' =>
          rcases ih _ later' with rfl | ⟨z, first, second⟩
          · exact Or.inl rfl
          · exact Or.inr ⟨.leaf a z, .afterLeaf a first, .afterLeaf a second⟩
  | @inNode b children children' inside rest ih =>
      cases right with
      | inNode _ inside' _ =>
          rcases ih _ inside' with rfl | ⟨z, first, second⟩
          · exact Or.inl rfl
          · exact Or.inr ⟨.node b z rest, .inNode b first rest, .inNode b second rest⟩
      | afterNode _ _ later =>
          exact Or.inr ⟨_, .afterNode b children' later, .inNode b inside _⟩
  | @afterNode b children rest rest' later ih =>
      cases right with
      | inNode _ inside _ => exact Or.inr ⟨_, .inNode b inside rest', .afterNode b _ later⟩
      | afterNode _ _ later' =>
          rcases ih _ later' with rfl | ⟨z, first, second⟩
          · exact Or.inl rfl
          · exact Or.inr ⟨.node b children z, .afterNode b children first,
              .afterNode b children second⟩

/-- What there is to do in all leaves together. -/
def todo (weight : α → Nat) : Forest α β → Nat
  | .nil => 0
  | .leaf a rest => weight a + rest.todo weight
  | .node _ children rest => children.todo weight + rest.todo weight

variable {weight : α → Nat}

theorem todo_append (first last : Forest α β) :
    (first ++ last).todo weight = first.todo weight + last.todo weight := by
  induction first with
  | nil => exact (Nat.zero_add _).symm
  | leaf a rest ih =>
      rw [leaf_append, todo, todo, ih]
      omega
  | node b children rest _ ih =>
      rw [node_append, todo, todo, ih]
      omega

theorem todo_flat (bs : List β) : (flat bs : Forest α β).todo weight = 0 := by
  induction bs with
  | nil => rfl
  | cons b rest ih => exact (Nat.zero_add _).trans ih

theorem Step.spends (spent : ∀ a new, rule a new → new.todo weight + 1 = weight a)
    {f g : Forest α β} (step : Step rule f g) : g.todo weight + 1 = f.todo weight := by
  induction step with
  | @here a new applies rest =>
      have one := spent a new applies
      rw [todo_append, todo]
      omega
  | afterLeaf a _ ih =>
      rw [todo, todo]
      omega
  | inNode b _ rest ih =>
      rw [todo, todo]
      omega
  | afterNode b children _ ih =>
      rw [todo, todo]
      omega

theorem Step.forall_leaves {P : α → Prop}
    (keeps : ∀ a new, rule a new → P a → ∀ a' ∈ new.leaves, P a') {f g : Forest α β}
    (step : Step rule f g) (all : ∀ a ∈ f.leaves, P a) : ∀ a ∈ g.leaves, P a := by
  induction step with
  | @here a new applies rest =>
      intro a' member
      rw [leaves_append, List.mem_append] at member
      rcases member with made | old
      · exact keeps a new applies (all a (List.mem_cons_self ..)) a' made
      · exact all a' (List.mem_cons_of_mem _ old)
  | afterLeaf a _ ih =>
      simp only [leaves, List.mem_cons, forall_eq_or_imp] at all ⊢
      exact ⟨all.1, ih all.2⟩
  | inNode b _ rest ih =>
      simp only [leaves, List.mem_append, or_imp, forall_and] at all ⊢
      exact ⟨ih all.1, all.2⟩
  | afterNode b children _ ih =>
      simp only [leaves, List.mem_append, or_imp, forall_and] at all ⊢
      exact ⟨all.1, ih all.2⟩

theorem exists_step (moves : ∀ a, 0 < weight a → ∃ new, rule a new) (f : Forest α β)
    (more : 0 < f.todo weight) : ∃ g, Step rule f g := by
  induction f with
  | nil => exact absurd more (Nat.lt_irrefl 0)
  | leaf a rest ih =>
      rw [todo] at more
      by_cases here : 0 < weight a
      · obtain ⟨new, applies⟩ := moves a here
        exact ⟨_, .here applies rest⟩
      · obtain ⟨g, step⟩ := ih (by omega)
        exact ⟨_, .afterLeaf a step⟩
  | node b children rest childrenIh restIh =>
      rw [todo] at more
      by_cases inside : 0 < children.todo weight
      · obtain ⟨g, step⟩ := childrenIh inside
        exact ⟨_, .inNode b step rest⟩
      · obtain ⟨g, step⟩ := restIh (by omega)
        exact ⟨_, .afterNode b children step⟩

theorem todo_eq_zero {f : Forest α β} : f.todo weight = 0 ↔ ∀ a ∈ f.leaves, weight a = 0 := by
  induction f with
  | nil => simp [todo, leaves]
  | leaf a rest ih => simp [todo, leaves, ih]
  | node b children rest childrenIh restIh =>
      simp only [todo, leaves, Nat.add_eq_zero_iff, childrenIh, restIh, List.mem_append, or_imp,
        forall_and]

end Forest

end Rewriting
