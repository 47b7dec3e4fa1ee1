import Estela.Lib.Ssa

set_option autoImplicit false

/- Dead code in a body: what is live, and the sweep from the last operation back to
the first that keeps exactly that. -/
namespace Ssa

variable {K : Type}

/-- Nothing in `around` uses the results of the operation, and it has no effect. -/
def isDead (removable : K → Bool) (op : Op K) (around : Body K) : Bool :=
  removable op.kind && op.results.all (· ∉ uses around)

/-- Looks at each operation once. The earlier ones come last first. -/
def sweep (removable : K → Bool) : Body K → Body K → Body K
  | [], kept => kept
  | op :: earlier, kept =>
      if isDead removable op (earlier ++ kept) then sweep removable earlier kept
      else sweep removable earlier (op :: kept)

/-- An operation with an effect, or one that a live operation uses. -/
inductive Live (removable : K → Bool) (body : Body K) : Op K → Prop
  | effect {op : Op K} (member : op ∈ body) (effect : removable op.kind = false) :
      Live removable body op
  | used {op user : Op K} {v : Nat} (member : op ∈ body) (live : Live removable body user)
      (made : v ∈ op.results) (use : v ∈ user.operands) : Live removable body op

open scoped Classical in
noncomputable def isLive (removable : K → Bool) (body : Body K) (op : Op K) : Bool :=
  decide (Live removable body op)

theorem isLive_iff {removable : K → Bool} {body : Body K} {op : Op K} :
    isLive removable body op = true ↔ Live removable body op := by
  simp [isLive]

theorem isDead_iff {removable : K → Bool} {op : Op K} {around : Body K} :
    isDead removable op around = true ↔
      removable op.kind = true ∧ ∀ v ∈ op.results, v ∉ uses around := by
  simp [isDead]

section

variable {removable : K → Bool} {body : Body K} {defined : List Nat}

theorem Live.mem {op : Op K} (live : Live removable body op) : op ∈ body := by
  cases live with
  | effect member _ => exact member
  | used member _ _ _ => exact member

theorem not_isDead_iff {op : Op K} {around : Body K} :
    isDead removable op around = false ↔
      removable op.kind = false ∨ ∃ v ∈ op.results, v ∈ uses around := by
  rw [← Bool.not_eq_true, isDead_iff, not_and_or, Bool.not_eq_true]
  simp only [not_forall, not_not, exists_prop]

/-- One step of the sweep: once only live operations are left behind it, the next one
is dead exactly if it is not live. -/
theorem isDead_step (removable : K → Bool) {earlier later : Body K} {op : Op K}
    (dominated : Dominated defined (earlier ++ op :: later)) :
    isDead removable op (earlier ++ later.filter
        (isLive removable (earlier ++ op :: later))) = true ↔
      ¬ Live removable (earlier ++ op :: later) op := by
  have member : op ∈ earlier ++ op :: later := List.mem_append_right _ (List.mem_cons_self ..)
  have early {v : Nat} (made : v ∈ op.results) : v ∉ uses (earlier ++ [op]) :=
    dominated.unused made
  rw [← not_iff_not, not_not, Bool.not_eq_true, not_isDead_iff]
  constructor
  · rintro (effect | ⟨v, made, use⟩)
    · exact .effect member effect
    rw [uses_append, List.mem_append] at use
    rcases use with before | after
    · refine absurd ?_ (early made)
      rw [uses_append]
      exact List.mem_append_left _ before
    · obtain ⟨user, userIn, use⟩ := List.mem_flatMap.mp after
      exact .used member (isLive_iff.mp (List.mem_filter.mp userIn).2) made use
  · intro live
    cases live with
    | effect _ effect => exact Or.inl effect
    | @used _ user v _ live made use =>
        refine Or.inr ⟨v, made, ?_⟩
        rw [uses_append]
        have after : user ∈ later := by
          have place := live.mem
          rw [show earlier ++ op :: later = (earlier ++ [op]) ++ later by simp,
            List.mem_append] at place
          exact place.resolve_left fun here => early made (mem_uses here use)
        exact List.mem_append_right _
          (mem_uses (List.mem_filter.mpr ⟨after, isLive_iff.mpr live⟩) use)

theorem isDead_reverse (op : Op K) (earlier later : Body K) :
    isDead removable op (earlier ++ later) = isDead removable op (earlier.reverse ++ later) := by
  simp [isDead, uses]

theorem sweep_from (earlier later : Body K)
    (dominated : Dominated defined (earlier.reverse ++ later)) :
    sweep removable earlier (later.filter (isLive removable (earlier.reverse ++ later))) =
      (earlier.reverse ++ later).filter (isLive removable (earlier.reverse ++ later)) := by
  induction earlier generalizing later with
  | nil => rfl
  | cons op earlier ih =>
      have split : (op :: earlier).reverse ++ later = earlier.reverse ++ op :: later := by simp
      rw [split] at dominated ⊢
      have step := isDead_step removable dominated
      rw [← ih (op :: later) dominated, sweep, isDead_reverse]
      by_cases live : Live removable (earlier.reverse ++ op :: later) op
      · rw [if_neg (mt step.mp (not_not.mpr live)), List.filter_cons_of_pos (isLive_iff.mpr live)]
      · rw [if_pos (step.mpr live), List.filter_cons_of_neg (mt isLive_iff.mp live)]

/-- One sweep keeps the live operations, in order, and nothing else. -/
theorem sweep_eq_live (dominated : Dominated defined body) :
    sweep removable body.reverse [] = body.filter (isLive removable body) := by
  simpa using sweep_from body.reverse [] (by simpa using dominated)

/-- What is live keeps its users: none of it is dead once the rest is gone. -/
theorem live_not_dead {op : Op K} (member : op ∈ body.filter (isLive removable body)) :
    isDead removable op (body.filter (isLive removable body)) = false := by
  obtain ⟨_, live⟩ := List.mem_filter.mp member
  refine not_isDead_iff.mpr ?_
  cases isLive_iff.mp live with
  | effect _ effect => exact Or.inl effect
  | used _ live made use =>
      exact Or.inr ⟨_, made, mem_uses (List.mem_filter.mpr ⟨live.mem, isLive_iff.mpr live⟩) use⟩

/-- A part of a body that keeps what it uses is one. -/
theorem Dominated.filter {keep : Op K → Bool} (dominated : Dominated defined body)
    (closed : ∀ op ∈ body, ∀ user ∈ body, keep user = true → ∀ v ∈ op.results,
      v ∈ user.operands → keep op = true) :
    Dominated defined (body.filter keep) := by
  have part (before after : Body K) (dominated : Dominated defined (before ++ after))
      (closed : ∀ op ∈ before ++ after, ∀ user ∈ before ++ after, keep user = true →
        ∀ v ∈ op.results, v ∈ user.operands → keep op = true) :
      Dominated (defs (before.filter keep) ++ defined) (after.filter keep) := by
    induction after generalizing before with
    | nil => trivial
    | cons op rest ih =>
        have shifted : before ++ op :: rest = (before ++ [op]) ++ rest := by simp
        have tail := ih (before ++ [op]) (shifted ▸ dominated) (shifted ▸ closed)
        have here := ((dominated_append _ _ _).mp dominated).2
        by_cases kept : keep op = true
        · rw [List.filter_cons_of_pos kept]
          refine ⟨fun v use => ?_, fun v made known => ?_, here.2.2.1, ?_⟩
          · rcases List.mem_append.mp (here.1 v use) with early | outside
            · obtain ⟨maker, makerIn, made⟩ := List.mem_flatMap.mp early
              refine List.mem_append_left _ (mem_defs (List.mem_filter.mpr ⟨makerIn, ?_⟩) made)
              exact closed maker (List.mem_append_left _ makerIn) op
                (List.mem_append_right _ (List.mem_cons_self ..)) kept v made use
            · exact List.mem_append_right _ outside
          · refine here.2.1 v made ((List.mem_append.mp known).elim (fun early => ?_)
              (List.mem_append_right _))
            obtain ⟨maker, makerIn, made⟩ := List.mem_flatMap.mp early
            exact List.mem_append_left _ (mem_defs (List.mem_filter.mp makerIn).1 made)
          · refine tail.congr fun v => ?_
            simp only [List.filter_append, List.filter_cons_of_pos kept, List.filter_nil,
              defs_append, defs_cons, defs_nil, List.append_nil, List.mem_append]
            tauto
        · rw [List.filter_cons_of_neg kept]
          simpa only [List.filter_append, List.filter_cons_of_neg kept, List.filter_nil,
            List.append_nil] using tail
  exact part [] body dominated closed

theorem Dominated.live (dominated : Dominated defined body) :
    Dominated defined (body.filter (isLive removable body)) :=
  dominated.filter fun _ member _ _ live _ made use =>
    isLive_iff.mpr (.used member (isLive_iff.mp live) made use)

end

end Ssa
