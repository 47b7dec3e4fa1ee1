import Estela.Lib.Ssa
import Mathlib.Data.List.Forall2

set_option autoImplicit false

/- Rewriting a body by adding operations and by passing values on through copies: the
rewritten body computes what the original one does. -/
namespace Ssa

variable {K V S : Type}

/-- The first value is a copy of the second, made by operations that return their
first operand. -/
inductive Carries (copies : K → Prop) (body : Body K) : Nat → Nat → Prop
  | refl (v : Nat) : Carries copies body v v
  | copy {op : Op K} {w source v : Nat} {rest : List Nat} : op ∈ body → copies op.kind →
    op.results = [w] →
      op.operands = source :: rest → Carries copies body source v → Carries copies body w v

theorem Carries.trans {copies : K → Prop} {body : Body K} {u v w : Nat}
    (first : Carries copies body u v)
    (second : Carries copies body v w) : Carries copies body u w := by
  induction first with
  | refl => exact second
  | copy member isCopy results operands _ ih =>
      exact .copy member isCopy results operands (ih second)

/-- A rewritten body in which each copy still is one, of a copy of the same value. -/
theorem Carries.rewrite {copies : K → Prop} {body body' : Body K}
    (kept : ∀ op ∈ body, copies op.kind → ∀ w source rest, op.results = [w] →
      op.operands = source :: rest →
      Carries copies body' w source)
    {u v : Nat} (carries : Carries copies body u v) : Carries copies body' u v := by
  induction carries with
  | refl => exact .refl _
  | copy member isCopy results operands _ ih =>
      exact (kept _ member isCopy _ _ _ results operands).trans ih

/-- A copy has the value of what it copies. -/
theorem Carries.exec_eq {copies : K → Prop} {body : Body K} {defined : List Nat}
    (dominated : Dominated defined body) {interp : Interp K V S}
    (copied : ∀ kind, copies kind → ∀ x rest state, interp kind (x :: rest) state = ([x], state))
    (env : Nat → V) (state : S) {u v : Nat} (carries : Carries copies body u v) :
    (exec interp body env state).1 u = (exec interp body env state).1 v := by
  induction carries with
  | refl => rfl
  | @copy op w source v rest member isCopy results operands _ ih =>
      obtain ⟨before, after, rfl⟩ := List.append_of_mem member
      refine (exec_definingOp interp before after op env state defined dominated 0 w _
        (by rw [results]; rfl) ?_).trans ih
      rw [operands, List.map_cons, copied _ isCopy]
      rfl

/-- The second body is the first with operations added, kinds exchanged for equivalent
ones, and operands for values that carry them. -/
inductive Aligned (same : K → K → Prop) (extra : K → Prop) (carries : Nat → Nat → Prop) :
    Body K → Body K → Prop
  | nil : Aligned same extra carries [] []
  | extra {body body' : Body K} {op : Op K} : extra op.kind →
    Aligned same extra carries body body' →
      Aligned same extra carries body (op :: body')
  | keep {body body' : Body K} {op op' : Op K} : same op.kind op'.kind → op'.results = op.results →
      List.Forall₂ carries op'.operands op.operands → Aligned same extra carries body body' →
      Aligned same extra carries (op :: body) (op' :: body')

/-- An operation with its operands exchanged for values that carry what they carried. -/
structure Rewires (carries carries' : Nat → Nat → Prop) (op op' : Op K) : Prop where
  kind : op'.kind = op.kind
  results : op'.results = op.results
  operands : List.Forall₂ (fun w' w => ∀ v, carries w v → carries' w' v) op'.operands op.operands

theorem forall₂_comp {R R' : Nat → Nat → Prop} {first second third : List Nat}
    (outer : List.Forall₂ (fun w' w => ∀ v, R w v → R' w' v) first second)
    (inner : List.Forall₂ R second third) :
    List.Forall₂ R' first third := by
  induction outer generalizing third with
  | nil =>
      cases inner
      exact .nil
  | cons head _ ih =>
      obtain _ | ⟨carried, tail⟩ := inner
      exact .cons (head _ carried) (ih tail)

section

variable {same : K → K → Prop} {extra : K → Prop} {carries carries' : Nat → Nat → Prop}

theorem Rewires.self (more : ∀ w v, carries w v → carries' w v) (op : Op K) :
    Rewires carries carries' op op :=
  ⟨rfl, rfl, List.forall₂_same.mpr fun w _ v => more w v⟩

theorem Aligned.map {body : Body K} {f : Op K → Op K} (kinds : ∀ op, same op.kind (f op).kind)
    (results : ∀ op, (f op).results = op.results) (operands : ∀ op, (f op).operands = op.operands)
    (reflexive : ∀ v, carries v v) : Aligned same extra carries body (body.map f) := by
  induction body with
  | nil => exact .nil
  | cons op rest ih =>
      refine .keep (kinds op) (results op) ?_ ih
      rw [operands]
      exact List.forall₂_same.mpr fun v _ => reflexive v

theorem Aligned.prepend {new body body' : Body K} (aligned : Aligned same extra carries body body')
    (added : ∀ op ∈ new, extra op.kind) : Aligned same extra carries body (new ++ body') := by
  induction new with
  | nil => exact aligned
  | cons op rest ih =>
      exact .extra (added op (List.mem_cons_self ..))
        (ih fun op' member => added op' (List.mem_cons_of_mem _ member))

theorem Aligned.insert {new body first second : Body K}
    (aligned : Aligned same extra carries body (first ++ second))
    (added : ∀ op ∈ new, extra op.kind) :
    Aligned same extra carries body (first ++ new ++ second) := by
  rw [List.append_assoc]
  induction first generalizing body with
  | nil => exact aligned.prepend added
  | cons op rest ih =>
      cases aligned with
      | extra isExtra tail => exact .extra isExtra (ih tail)
      | keep kinds results operands tail => exact .keep kinds results operands (ih tail)

theorem Aligned.rewire {body first second : Body K}
    (aligned : Aligned same extra carries body first)
    (rewires : List.Forall₂ (Rewires carries carries') first second) :
    Aligned same extra carries' body second := by
  induction aligned generalizing second with
  | nil =>
      cases rewires
      exact .nil
  | extra isExtra _ ih =>
      obtain _ | ⟨head, tail⟩ := rewires
      exact .extra (head.kind ▸ isExtra) (ih tail)
  | keep kinds results operands _ ih =>
      obtain _ | ⟨head, tail⟩ := rewires
      exact .keep (head.kind ▸ kinds) (head.results.trans results)
        (forall₂_comp head.operands operands) (ih tail)

end

section

variable {same : K → K → Prop} {extra : K → Prop} {carries : Nat → Nat → Prop}
  {interp : Interp K V S} (equivalent : ∀ kind kind', same kind kind' → interp kind' = interp kind)
  (quiet : ∀ kind, extra kind → ∀ values state, (interp kind values state).2 = state)

include equivalent quiet

/-- What is left of the two bodies computes the same, from environments that differ in
values of added operations only. -/
theorem Aligned.exec_rest (before : Body K) {body body' : Body K} {defined known : List Nat}
    {env₀ : Nat → V} (env : Nat → V) {state₀ : S} (state : S)
    (aligned : Aligned same extra carries body body') (dominated : Dominated known body)
    (dominated' : Dominated defined (before ++ body'))
    (earlier : ∀ v ∈ known, v ∈ defs before ++ defined)
    (reads : ∀ w v, carries w v → (exec interp (before ++ body') env₀ state₀).1 w =
      (exec interp (before ++ body') env₀ state₀).1 v)
    (values : ∀ v, (v ∈ defs before → v ∈ known) → (exec interp before env₀ state₀).1 v = env v)
    (states : (exec interp before env₀ state₀).2 = state) :
    (∀ v, (v ∈ defs (before ++ body') → v ∈ defs body ++ known) →
      (exec interp (before ++ body') env₀ state₀).1 v = (exec interp body env state).1 v) ∧
    (exec interp (before ++ body') env₀ state₀).2 = (exec interp body env state).2 := by
  induction aligned generalizing before known env state with
  | nil =>
      rw [List.append_nil]
      exact ⟨fun v old => values v (by simpa using old), states⟩
  | @extra body body' op isExtra _ ih =>
      have split : before ++ op :: body' = (before ++ [op]) ++ body' := by simp
      obtain ⟨_, _, fresh, _, _⟩ := (dominated_append _ _ _).mp dominated'
      rw [split] at dominated' reads ⊢
      refine ih _ _ _ dominated dominated' (fun v old => ?_) reads (fun v old => ?_) ?_
      · have := earlier v old
        simp only [defs_append, List.mem_append] at this ⊢
        tauto
      · rw [exec_append]
        have other : v ∉ op.results := fun here =>
          fresh v here (earlier v (old (by simp [here])))
        exact (assign_other _ _ _ _ other).trans (values v fun made => old (by simp [made]))
      · rw [exec_append]
        exact (quiet _ isExtra _ _).trans states
  | @keep body body' op op' kinds results operands _ ih =>
      have split : before ++ op' :: body' = (before ++ [op']) ++ body' := by simp
      obtain ⟨_, usedNew, freshNew, _, _⟩ := (dominated_append _ _ _).mp dominated'
      obtain ⟨usedOld, freshOld, _, tail⟩ := dominated
      have sameOperands : op'.operands.map (exec interp before env₀ state₀).1 =
          op.operands.map env := by
        refine List.forall₂_eq_eq_eq ▸ List.forall₂_map_left_iff.mpr
          (List.forall₂_map_right_iff.mpr ?_)
        refine List.forall₂_iff_zip.mpr ⟨operands.length_eq, fun {w v} pair => ?_⟩
        have usedW := usedNew w (List.of_mem_zip pair).1
        have usedV := usedOld v (List.of_mem_zip pair).2
        -- Values defined so far are final, and a final value is that of what it carries.
        rw [← exec_defined interp dominated' env₀ state₀ usedW,
          reads w v (List.forall₂_zip operands pair),
          exec_defined interp dominated' env₀ state₀ (earlier v usedV)]
        exact values v fun _ => usedV
      rw [split] at dominated' reads ⊢
      have stepped : exec interp (before ++ [op']) env₀ state₀ =
          (assign (exec interp before env₀ state₀).1 op.results
            (interp op.kind (op.operands.map env) state).1,
            (interp op.kind (op.operands.map env) state).2) := by
        rw [exec_append]
        simp only [exec, sameOperands, results, equivalent _ _ kinds, states]
      have earlier' (v : Nat) (old : v ∈ op.results ++ known) :
          v ∈ defs (before ++ [op']) ++ defined := by
        rcases List.mem_append.mp old with here | before'
        · simp [results, here]
        · have := earlier v before'
          simp only [defs_append, List.mem_append] at this ⊢
          tauto
      have values' (v : Nat) (old : v ∈ defs (before ++ [op']) → v ∈ op.results ++ known) :
          (exec interp (before ++ [op']) env₀ state₀).1 v =
            assign env op.results (interp op.kind (op.operands.map env) state).1 v := by
        rw [stepped]
        refine assign_congr _ _ _ _ _ (values v fun made => ?_)
        rcases List.mem_append.mp (old (by simp [made])) with here | known'
        · exact absurd (List.mem_append_left _ made) (freshNew v (results ▸ here))
        · exact known'
      obtain ⟨valuesEq, statesEq⟩ :=
        ih _ _ _ tail dominated' earlier' reads values' (by rw [stepped])
      refine ⟨fun v old => valuesEq v fun made => ?_, statesEq⟩
      have := old made
      simp only [defs_cons, List.mem_append] at this ⊢
      tauto

/-- The rewritten body gives every value of the original one, and the same state. -/
theorem Aligned.exec_eq {body body' : Body K} {defined : List Nat}
    (aligned : Aligned same extra carries body body') (dominated : Dominated defined body)
    (dominated' : Dominated defined body') (env : Nat → V) (state : S)
    (reads : ∀ w v, carries w v →
      (exec interp body' env state).1 w = (exec interp body' env state).1 v) :
    (∀ v ∈ defs body ++ defined, (exec interp body' env state).1 v =
      (exec interp body env state).1 v) ∧
      (exec interp body' env state).2 = (exec interp body env state).2 := by
  obtain ⟨values, states⟩ :=
    Aligned.exec_rest equivalent quiet [] env state aligned dominated dominated'
    (by simp) reads (fun _ _ => rfl) rfl
  exact ⟨fun v known => values v fun _ => known, states⟩

end

/-- A body that reads other values in the place of some. -/
def renameUses (f : Nat → Nat) (body : Body K) : Body K :=
  body.map fun op => { op with operands := op.operands.map f }

@[simp] theorem defs_renameUses (f : Nat → Nat) (body : Body K) :
    defs (renameUses f body) = defs body := List.flatMap_map ..

/-- Nothing is renamed that is read. -/
theorem renameUses_self {f : Nat → Nat} {body : Body K} (fixed : ∀ v ∈ uses body, f v = v) :
    renameUses f body = body := by
  refine (List.map_congr_left fun op member => ?_).trans (List.map_id body)
  have same : op.operands.map f = op.operands :=
    (List.map_congr_left fun v used => fixed v (mem_uses member used)).trans (List.map_id _)
  rw [same]
  rfl

/-- A body computes the same from an environment that has the values where they are
read now. -/
theorem exec_renameUses (interp : Interp K V S) {f : Nat → Nat} {body : Body K} {known : List Nat}
    (dominated : Dominated known body) (fixed : ∀ v ∈ defs body, f v = v)
    (apart : ∀ v ∈ known, f v ∉ defs body) {env env' : Nat → V} (state : S)
    (same : ∀ v ∈ defs body ++ known, env' (f v) = env v) :
    (∀ v ∈ defs body ++ known, (exec interp (renameUses f body) env' state).1 (f v) =
      (exec interp body env state).1 v) ∧
      (exec interp (renameUses f body) env' state).2 = (exec interp body env state).2 := by
  induction body generalizing known env env' state with
  | nil => exact ⟨same, rfl⟩
  | cons op rest ih =>
      obtain ⟨operands, fresh, _, tail⟩ := dominated
      have read : (op.operands.map f).map env' = op.operands.map env := by
        rw [List.map_map]
        exact List.map_congr_left fun v used => same v (List.mem_append_right _ (operands v used))
      have later (v : Nat) : v ∈ defs rest ++ (op.results ++ known) ↔
          v ∈ defs (op :: rest) ++ known := by
        simp only [defs_cons, List.mem_append]
        tauto
      -- What the operation does not define is where it was, and what it defines is its own.
      have assigned (values : List V) (v : Nat) (old : v ∈ defs rest ++ (op.results ++ known)) :
          assign env' op.results values (f v) = assign env op.results values v := by
        by_cases here : v ∈ op.results
        · have own : f v = v := fixed v (List.mem_append_left _ here)
          have before := same v ((later v).mp old)
          rw [own] at before ⊢
          exact assign_congr _ _ _ _ _ before
        · have elsewhere : f v ∉ op.results := by
            rcases List.mem_append.mp ((later v).mp old) with made | before
            · rw [fixed v made]
              exact here
            · exact fun there => apart v before (List.mem_append_left _ there)
          rw [assign_other _ _ _ _ elsewhere, assign_other _ _ _ _ here]
          exact same v ((later v).mp old)
      have apart' (v : Nat) (old : v ∈ op.results ++ known) : f v ∉ defs rest := by
        rcases List.mem_append.mp old with here | before
        · rw [fixed v (List.mem_append_left _ here)]
          exact fun made => tail.fresh v made (List.mem_append_left _ here)
        · exact fun made => apart v before (List.mem_append_right _ made)
      obtain ⟨values, states⟩ :=
        ih tail (fun v made => fixed v (List.mem_append_right _ made)) apart'
        (interp op.kind (op.operands.map env) state).2
        (assigned (interp op.kind (op.operands.map env) state).1)
      simp only [renameUses, List.map_cons, exec, read] at values states ⊢
      exact ⟨fun v old => values v ((later v).mpr old), states⟩

/-- Where one operation is replaced by others, and its results by values of those, the rest
computes the same. -/
theorem exec_replaceOp (interp : Interp K V S) {f : Nat → Nat} {before new after : Body K}
    {op : Op K} {defined : List Nat} (dominated : Dominated defined (before ++ op :: after))
    (fixed : ∀ v, v ∉ op.results → f v = v) (apart : ∀ v ∈ op.results, f v ∉ defs after)
    (env : Nat → V) (state : S)
    (same : ∀ v ∈ defs (before ++ op :: after) ++ defined,
      (exec interp (before ++ new) env state).1 (f v) =
        (exec interp (before ++ [op]) env state).1 v)
    (states : (exec interp (before ++ new) env state).2 =
      (exec interp (before ++ [op]) env state).2) :
    ∀ v ∈ defs (before ++ op :: after) ++ defined,
      (exec interp (before ++ new ++ renameUses f after) env state).1 (f v) =
        (exec interp (before ++ op :: after) env state).1 v := by
  obtain ⟨_, _, _, _, tail⟩ := (dominated_append _ _ _).mp dominated
  have everything (v : Nat) : v ∈ defs (before ++ op :: after) ++ defined ↔
      v ∈ defs after ++ (op.results ++ (defs before ++ defined)) := by
    simp only [defs_append, defs_cons, List.mem_append]
    tauto
  intro v member
  rw [exec_append interp (before ++ new), states,
    show before ++ op :: after = (before ++ [op]) ++ after by simp,
    exec_append interp (before ++ [op])]
  refine (exec_renameUses interp tail (fun w made => fixed w fun here => ?_) (fun w known => ?_) _
    fun w known => same w ((everything w).mpr known)).1 v ((everything v).mp member)
  · exact tail.fresh w made (List.mem_append_left _ here)
  · by_cases here : w ∈ op.results
    · exact apart w here
    · rw [fixed w here]
      exact fun made => tail.fresh w made known

/-- The operands of the operations of some kinds, in order. -/
def operandsOf (selected : K → Bool) (body : Body K) : List Nat :=
  (body.filter fun op => selected op.kind).flatMap Op.operands

theorem mem_operandsOf {selected : K → Bool} {body : Body K} {v : Nat}
    (member : v ∈ operandsOf selected body) :
    v ∈ uses body := by
  obtain ⟨op, inside, used⟩ := List.mem_flatMap.mp member
  exact mem_uses (List.mem_of_mem_filter inside) used

/-- Operations that are kept read values that carry what the original ones read. -/
theorem Aligned.operandsOf_carries {same : K → K → Prop} {extra : K → Prop}
    {carries : Nat → Nat → Prop} {selected : K → Bool}
    (respected : ∀ kind kind', same kind kind' → selected kind' = selected kind)
    (skipped : ∀ kind, extra kind → selected kind = false) {body body' : Body K}
    (aligned : Aligned same extra carries body body') :
    List.Forall₂ carries (operandsOf selected body') (operandsOf selected body) := by
  induction aligned with
  | nil => exact .nil
  | extra isExtra _ ih => simpa [operandsOf, skipped _ isExtra] using ih
  | @keep body body' op op' kinds _ operands _ ih =>
      by_cases here : selected op.kind
      · have there := (respected _ _ kinds).trans here
        simpa [operandsOf, here, there] using List.rel_append operands ih
      · have there := (respected _ _ kinds).trans (eq_false_of_ne_true here)
        simpa [operandsOf, here, there] using ih

end Ssa
