import Mathlib.Data.List.Basic
import Mathlib.Tactic.Common

set_option autoImplicit false

/- Straight-line code in static single assignment: operations over numbered
values, where each value is defined once and before its uses. What the
operations are, and what they compute, are parameters. -/
namespace Ssa

variable {K V S : Type}

@[ext] structure Op (K : Type) where
  kind : K
  operands : List Nat
  results : List Nat
  deriving DecidableEq, Repr

abbrev Body (K : Type) := List (Op K)

def defs (body : Body K) : List Nat := body.flatMap Op.results

def uses (body : Body K) : List Nat := body.flatMap Op.operands

@[simp] theorem defs_nil : defs ([] : Body K) = [] := rfl

@[simp] theorem defs_cons (op : Op K) (rest : Body K) :
    defs (op :: rest) = op.results ++ defs rest := rfl

@[simp] theorem defs_append (first second : Body K) :
    defs (first ++ second) = defs first ++ defs second := List.flatMap_append

@[simp] theorem uses_cons (op : Op K) (rest : Body K) :
    uses (op :: rest) = op.operands ++ uses rest := rfl

@[simp] theorem uses_append (first second : Body K) :
    uses (first ++ second) = uses first ++ uses second := List.flatMap_append

/-- Every operand is defined before its use, and no value is defined twice. -/
def Dominated (defined : List Nat) : Body K → Prop
  | [] => True
  | op :: rest => (∀ v ∈ op.operands, v ∈ defined) ∧ (∀ v ∈ op.results, v ∉ defined) ∧
      op.results.Nodup ∧ Dominated (op.results ++ defined) rest

/-- Only which values are defined matters, not in which order. -/
theorem Dominated.congr {body : Body K} {defined defined' : List Nat}
    (same : ∀ v, v ∈ defined ↔ v ∈ defined') (dominated : Dominated defined body) :
    Dominated defined' body := by
  induction body generalizing defined defined' with
  | nil => trivial
  | cons op rest ih =>
      obtain ⟨operands, fresh, once, tail⟩ := dominated
      refine ⟨fun v used => (same v).mp (operands v used),
        fun v made known => fresh v made ((same v).mpr known), once, ih (fun v => ?_) tail⟩
      simp only [List.mem_append, same]

theorem dominated_append (first second : Body K) (defined : List Nat) :
    Dominated defined (first ++ second) ↔ Dominated defined first ∧
      Dominated (defs first ++ defined) second := by
  induction first generalizing defined with
  | nil => simp [Dominated]
  | cons op rest ih =>
      have same : ∀ v, v ∈ defs rest ++ (op.results ++ defined) ↔
          v ∈ defs (op :: rest) ++ defined := by
        intro v
        simp only [defs_cons, List.mem_append]
        tauto
      simp only [List.cons_append, Dominated, ih, and_assoc]
      constructor
      · rintro ⟨operands, fresh, once, tail, later⟩
        exact ⟨operands, fresh, once, tail, later.congr same⟩
      · rintro ⟨operands, fresh, once, tail, later⟩
        exact ⟨operands, fresh, once, tail, later.congr (fun v => (same v).symm)⟩

/-- Such a body defines only new values. -/
theorem Dominated.fresh {body : Body K} {defined : List Nat} (dominated : Dominated defined body)
    (v : Nat) (made : v ∈ defs body) : v ∉ defined := by
  induction body generalizing defined with
  | nil => cases made
  | cons op rest ih =>
      obtain ⟨_, fresh, _, tail⟩ := dominated
      rcases List.mem_append.mp made with here | later
      · exact fresh v here
      · exact fun known => ih tail later (List.mem_append_right _ known)

theorem Dominated.uses_defined {body : Body K} {defined : List Nat}
    (dominated : Dominated defined body) (v : Nat)
    (used : v ∈ uses body) : v ∈ defs body ++ defined := by
  induction body generalizing defined with
  | nil => cases used
  | cons op rest ih =>
      obtain ⟨operands, _, _, tail⟩ := dominated
      rcases List.mem_append.mp used with here | later
      · exact List.mem_append_right _ (operands v here)
      · have known := ih tail later
        simp only [defs_cons, List.mem_append] at known ⊢
        tauto

/-- A result is used after its operation only. -/
theorem Dominated.unused {before after : Body K} {op : Op K} {defined : List Nat}
    (dominated : Dominated defined (before ++ op :: after)) {v : Nat} (made : v ∈ op.results) :
    v ∉ uses (before ++ [op]) := by
  obtain ⟨first, operands, fresh, _⟩ := (dominated_append _ _ _).mp dominated
  intro used
  rw [uses_append, List.mem_append] at used
  refine fresh v made (used.elim (first.uses_defined v) fun here => operands v ?_)
  simpa [uses] using here

/-- The operation that defines a value, and the number of its result. -/
def definingOp (body : Body K) (v : Nat) : Option (Op K × Nat) :=
  body.findSome? fun op => if v ∈ op.results then some (op, op.results.idxOf v) else none

theorem definingOp_split {body : Body K} {v : Nat} {op : Op K} {i : Nat}
    (found : definingOp body v = some (op, i)) :
    ∃ before after, body = before ++ op :: after ∧ v ∉ defs before ∧ op.results[i]? = some v := by
  induction body with
  | nil => cases found
  | cons head rest ih =>
      simp only [definingOp, List.findSome?_cons] at found
      by_cases here : v ∈ head.results
      · simp only [here, ↓reduceIte, Option.some.injEq, Prod.mk.injEq] at found
        obtain ⟨rfl, rfl⟩ := found
        exact ⟨[], rest, rfl, by simp, List.getElem?_idxOf here⟩
      · simp only [here, ↓reduceIte] at found
        obtain ⟨before, after, split, earlier, result⟩ := ih found
        refine ⟨head :: before, after, by rw [split]; rfl, ?_, result⟩
        simp only [defs_cons, List.mem_append, not_or]
        exact ⟨here, earlier⟩

theorem mem_defs {body : Body K} {op : Op K} {v : Nat} (member : op ∈ body)
    (result : v ∈ op.results) :
    v ∈ defs body := List.mem_flatMap.mpr ⟨op, member, result⟩

theorem mem_uses {body : Body K} {op : Op K} {v : Nat} (member : op ∈ body)
    (operand : v ∈ op.operands) :
    v ∈ uses body := List.mem_flatMap.mpr ⟨op, member, operand⟩

/-- A value is defined in the part of a body that its operation is in. -/
theorem Dominated.mem_left {before after : Body K} {defined : List Nat} {op : Op K} {v : Nat}
    (dominated : Dominated defined (before ++ after)) (member : op ∈ before ++ after)
    (result : v ∈ op.results) (early : v ∈ defs before) : op ∈ before := by
  rcases List.mem_append.mp member with left | right
  · exact left
  · have tail := ((dominated_append _ _ _).mp dominated).2
    exact absurd (List.mem_append_left _ early) (tail.fresh v (mem_defs right result))

theorem definingOp_of_mem {body : Body K} {defined : List Nat} {op : Op K} {v : Nat}
    (dominated : Dominated defined body) (member : op ∈ body) (result : v ∈ op.results) :
    definingOp body v = some (op, op.results.idxOf v) := by
  induction body generalizing defined with
  | nil => cases member
  | cons head rest ih =>
      obtain ⟨_, _, _, tail⟩ := dominated
      simp only [definingOp, List.findSome?_cons]
      rcases List.mem_cons.mp member with rfl | later
      · simp only [result, ↓reduceIte]
      · have other : v ∉ head.results := fun here =>
          tail.fresh v (mem_defs later result) (List.mem_append_left _ here)
        simp only [other, ↓reduceIte]
        exact ih tail later

/-- A value has one defining operation. -/
theorem Dominated.unique {body : Body K} {defined : List Nat} (dominated : Dominated defined body)
    {first second : Op K} {v : Nat} (firstIn : first ∈ body) (secondIn : second ∈ body)
    (left : v ∈ first.results) (right : v ∈ second.results) : first = second := by
  have found := definingOp_of_mem dominated firstIn left
  rw [definingOp_of_mem dominated secondIn right] at found
  exact (Prod.mk.inj (Option.some.inj found)).1.symm

/-- More values may be defined beforehand, as long as the body defines none of them. -/
theorem Dominated.mono {body : Body K} {defined defined' : List Nat}
    (dominated : Dominated defined body) (more : ∀ v ∈ defined, v ∈ defined')
    (fresh : ∀ v ∈ defs body, v ∉ defined') :
    Dominated defined' body := by
  induction body generalizing defined defined' with
  | nil => trivial
  | cons op rest ih =>
      obtain ⟨operands, _, once, tail⟩ := dominated
      refine ⟨fun v used => more v (operands v used),
        fun v made => fresh v (List.mem_append_left _ made), once,
        ih tail (fun v known => ?_) fun v made known => ?_⟩
      · rcases List.mem_append.mp known with here | earlier
        · exact List.mem_append_left _ here
        · exact List.mem_append_right _ (more v earlier)
      · rcases List.mem_append.mp known with here | earlier
        · exact tail.fresh v made (List.mem_append_left _ here)
        · exact fresh v (List.mem_append_right _ made) earlier

/-- Other operations may define what an operation did, and new values. -/
theorem Dominated.replace {before new after : Body K} {op : Op K} {defined : List Nat}
    (dominated : Dominated defined (before ++ op :: after))
    (inserted : Dominated (defs before ++ defined) new)
    (made : ∀ v ∈ op.results, v ∈ defs new)
    (fresh : ∀ v ∈ defs new, v ∈ op.results ∨ v ∉ defs after) :
    Dominated defined (before ++ new ++ after) := by
  obtain ⟨first, _, _, _, second⟩ := (dominated_append _ _ _).mp dominated
  rw [List.append_assoc, dominated_append, dominated_append]
  refine ⟨first, inserted, second.mono (fun v known => ?_) fun v later known => ?_⟩
  · exact (List.mem_append.mp known).elim (fun here => List.mem_append_left _ (made v here))
      (List.mem_append_right _)
  · rcases List.mem_append.mp known with here | earlier
    · refine (fresh v here).elim (fun old => ?_) fun new => new later
      exact second.fresh v later (List.mem_append_left _ old)
    · exact second.fresh v later (List.mem_append_right _ earlier)

/-- Operations without operands need nothing before them. -/
theorem dominated_of_no_operands {body : Body K} {defined : List Nat}
    (closed : ∀ op ∈ body, op.operands = []) (once : (defs body).Nodup)
    (fresh : ∀ v ∈ defs body, v ∉ defined) : Dominated defined body := by
  induction body generalizing defined with
  | nil => trivial
  | cons op rest ih =>
      rw [defs_cons, List.nodup_append] at once
      obtain ⟨here, later, apart⟩ := once
      refine ⟨fun v used => ?_, fun v made => fresh v (List.mem_append_left _ made), here,
        ih (fun op' member => closed op' (List.mem_cons_of_mem _ member)) later
          fun v made known => ?_⟩
      · rw [closed op (List.mem_cons_self ..)] at used
        cases used
      · rcases List.mem_append.mp known with mine | old
        · exact apart v mine v made rfl
        · exact fresh v (List.mem_append_right _ made) old

theorem Dominated.insert {before new after : Body K} {defined : List Nat}
    (dominated : Dominated defined (before ++ after))
    (inserted : Dominated (defs before ++ defined) new)
    (fresh : ∀ v ∈ defs new, v ∉ defs after) : Dominated defined (before ++ new ++ after) := by
  obtain ⟨first, second⟩ := (dominated_append _ _ _).mp dominated
  rw [List.append_assoc, dominated_append, dominated_append]
  refine ⟨first, inserted, second.mono (fun v known => List.mem_append_right _ known)
    fun v made known => ?_⟩
  rcases List.mem_append.mp known with here | earlier
  · exact fresh v here made
  · exact second.fresh v made earlier

theorem Dominated.map {body : Body K} {defined : List Nat} (dominated : Dominated defined body)
    {f : Op K → Op K} (results : ∀ op, (f op).results = op.results)
    (operands : ∀ op ∈ body, ∀ w ∈ (f op).operands, w ∈ op.operands ∨ w ∈ defined) :
    Dominated defined (body.map f) := by
  induction body generalizing defined with
  | nil => trivial
  | cons op rest ih =>
      obtain ⟨used, fresh, once, tail⟩ := dominated
      rw [List.map_cons, Dominated, results]
      refine ⟨fun w member => ?_, fresh, once, ih tail fun op' member w known => ?_⟩
      · exact (operands op (List.mem_cons_self ..) w member).elim (used w) id
      · exact (operands op' (List.mem_cons_of_mem _ member) w known).imp_right
          (List.mem_append_right _)

theorem Dominated.setOperands {before after : Body K} {op : Op K} {defined operands : List Nat}
    (dominated : Dominated defined (before ++ op :: after))
    (known : ∀ w ∈ operands, w ∈ defs before ++ defined) :
    Dominated defined (before ++ { op with operands := operands } :: after) := by
  rw [dominated_append] at dominated ⊢
  exact ⟨dominated.1, known, dominated.2.2⟩

theorem Dominated.pairwise {body : Body K} {defined : List Nat}
    (dominated : Dominated defined body) :
    body.Pairwise fun first second => ∀ v ∈ first.results, v ∉ second.results := by
  induction body generalizing defined with
  | nil => exact .nil
  | cons op rest ih =>
      obtain ⟨_, _, _, tail⟩ := dominated
      exact .cons (fun other member v here there =>
        tail.fresh v (mem_defs member there) (List.mem_append_left _ here)) (ih tail)

/-- The results of one operation, bound in an environment. -/
def assign (env : Nat → V) (results : List Nat) (values : List V) (v : Nat) : V :=
  ((results.zip values).lookup v).getD (env v)

theorem assign_other (env : Nat → V) (results : List Nat) (values : List V) (v : Nat)
    (other : v ∉ results) : assign env results values v = env v := by
  have missing : (results.zip values).lookup v = none := by
    rw [List.lookup_eq_none_iff]
    intro p member
    have known := (List.of_mem_zip member).1
    simp only [bne_iff_ne, ne_eq]
    rintro rfl
    exact other known
  rw [assign, missing, Option.getD_none]

theorem assign_result (env : Nat → V) (results : List Nat) (values : List V) (i v : Nat) (x : V)
    (once : results.Nodup) (result : results[i]? = some v) (value : values[i]? = some x) :
    assign env results values v = x := by
  induction results generalizing i values with
  | nil => cases result
  | cons r rest ih =>
      cases values with
      | nil => cases value
      | cons y values =>
          cases i with
          | zero =>
              cases result
              cases value
              simp [assign]
          | succ i =>
              have tail : v ∈ rest := List.mem_of_getElem? (i := i) result
              have other : v ≠ r := fun same => (List.nodup_cons.mp once).1 (same ▸ tail)
              have later := ih values i (List.nodup_cons.mp once).2 result value
              simpa [assign, List.lookup_cons, beq_eq_false_iff_ne.mpr other] using later

/-- The results read from other values in their place, where those hold the same. -/
theorem assign_lookup (env env' : Nat → V) (results values : List Nat) (v : Nat)
    (kept : env' v = env v) :
    assign env results (values.map env') v = env' (((results.zip values).lookup v).getD v) := by
  have mapped : (results.zip (values.map env')).lookup v =
      ((results.zip values).lookup v).map env' := by
    induction results generalizing values with
    | nil => rfl
    | cons r rest ih =>
        cases values with
        | nil => rfl
        | cons w values =>
            rw [List.map_cons, List.zip_cons_cons, List.zip_cons_cons, List.lookup_cons,
              List.lookup_cons, ih]
            cases v == r <;> rfl
  rw [assign, mapped]
  cases (results.zip values).lookup v with
  | none => exact kept.symm
  | some w => rfl

/-- Two environments that agree on a value still do after the same results. -/
theorem assign_congr (env env' : Nat → V) (results : List Nat) (values : List V) (v : Nat)
    (same : env v = env' v) : assign env results values v = assign env' results values v := by
  simp only [assign, same]

/-- What an operation computes from its operands, and does to the state. -/
abbrev Interp (K V S : Type) := K → List V → S → List V × S

def exec (interp : Interp K V S) : Body K → (Nat → V) → S → (Nat → V) × S
  | [], env, state => (env, state)
  | op :: rest, env, state =>
      exec interp rest
        (assign env op.results (interp op.kind (op.operands.map env) state).1)
        (interp op.kind (op.operands.map env) state).2

theorem exec_append (interp : Interp K V S) (first second : Body K) (env : Nat → V) (state : S) :
    exec interp (first ++ second) env state =
      exec interp second (exec interp first env state).1 (exec interp first env state).2 := by
  induction first generalizing env state with
  | nil => rfl
  | cons op rest ih => exact ih _ _

/-- Only what its own operations compute matters. -/
theorem exec_congr {interp interp' : Interp K V S} {body : Body K}
    (same : ∀ op ∈ body, interp op.kind = interp' op.kind) (env : Nat → V) (state : S) :
    exec interp body env state = exec interp' body env state := by
  induction body generalizing env state with
  | nil => rfl
  | cons op rest ih =>
      rw [exec, exec, same op (List.mem_cons_self ..),
        ih fun op' member => same op' (List.mem_cons_of_mem _ member)]

/-- Operations may be replaced by others that do the same to the values they get there. -/
theorem exec_map (interp : Interp K V S) (rewrite : Op K → Op K) (body : Body K) (env : Nat → V)
    (state : S) (results : ∀ op ∈ body, (rewrite op).results = op.results)
    (same : ∀ before op after, body = before ++ op :: after →
      interp (rewrite op).kind ((rewrite op).operands.map (exec interp before env state).1)
          (exec interp before env state).2 =
        interp op.kind (op.operands.map (exec interp before env state).1)
          (exec interp before env state).2) :
    exec interp (body.map rewrite) env state = exec interp body env state := by
  induction body generalizing env state with
  | nil => rfl
  | cons op rest ih =>
      have first := same [] op rest rfl
      simp only [exec] at first
      rw [List.map_cons, exec, exec, first, results op List.mem_cons_self]
      apply ih
      · exact fun other member => results other (List.mem_cons_of_mem op member)
      · intro before other after split
        exact same (op :: before) other after (by rw [split]; rfl)

/-- A body leaves alone what it does not define. -/
theorem exec_other (interp : Interp K V S) (body : Body K) (env : Nat → V) (state : S) (v : Nat)
    (other : v ∉ defs body) : (exec interp body env state).1 v = env v := by
  induction body generalizing env state with
  | nil => rfl
  | cons op rest ih =>
      simp only [defs_cons, List.mem_append, not_or] at other
      exact (ih _ _ other.2).trans (assign_other _ _ _ _ other.1)

/-- A value defined in the first part of a body, or before it, is final after that part. -/
theorem exec_defined (interp : Interp K V S) {before after : Body K} {defined : List Nat}
    (dominated : Dominated defined (before ++ after)) (env : Nat → V) (state : S) {v : Nat}
    (known : v ∈ defs before ++ defined) :
    (exec interp (before ++ after) env state).1 v = (exec interp before env state).1 v := by
  rw [exec_append]
  exact exec_other _ _ _ _ _ fun made =>
    ((dominated_append _ _ _).mp dominated).2.fresh v made known

/-- What the first part of a body does to the state, in terms of the final values. -/
theorem exec_state (interp : Interp K V S) (before after : Body K) (env : Nat → V) (state : S)
    (defined : List Nat) (dominated : Dominated defined (before ++ after)) :
    (exec interp before env state).2 = before.foldl
      (fun s op => (interp op.kind
        (op.operands.map (exec interp (before ++ after) env state).1) s).2)
      state := by
  induction before generalizing env state defined with
  | nil => rfl
  | cons op rest ih =>
      have old (w : Nat) (used : w ∈ op.operands) :
          (exec interp (op :: rest ++ after) env state).1 w = env w :=
        exec_other _ _ _ _ _ fun made => dominated.fresh w made (dominated.1 w used)
      rw [List.foldl_cons, List.map_congr_left old]
      exact ih _ _ _ dominated.2.2.2

/-- The value of a result is what its operation computes from the final values
of its operands, in the state it was executed in. -/
theorem exec_definingOp (interp : Interp K V S) (before after : Body K) (op : Op K) (env : Nat → V)
    (state : S) (defined : List Nat) (dominated : Dominated defined (before ++ op :: after))
    (i v : Nat) (x : V) (result : op.results[i]? = some v) :
    let final := (exec interp (before ++ op :: after) env state).1
    (interp op.kind (op.operands.map final) (exec interp before env state).2).1[i]? = some x →
      final v = x := by
  intro final value
  obtain ⟨_, operands, _, once, tail⟩ := (dominated_append _ _ _).mp dominated
  have same : op.operands.map final = op.operands.map (exec interp before env state).1 :=
    List.map_congr_left fun w used => exec_defined _ dominated _ _ (operands w used)
  have made := List.mem_of_getElem? result
  rw [same] at value
  have executed : final v = assign (exec interp before env state).1 op.results
      (interp op.kind (op.operands.map (exec interp before env state).1)
        (exec interp before env state).2).1 v := by
    simp only [final, exec_append, exec]
    exact exec_other _ _ _ _ _ fun later => tail.fresh v later (List.mem_append_left _ made)
  rw [executed]
  exact assign_result _ _ _ i v x once result value

end Ssa
