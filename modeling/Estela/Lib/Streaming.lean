import Estela.Lib.Footprint
import Mathlib.Logic.Function.Basic
import Mathlib.Logic.Relation
import Mathlib.Tactic.Common

set_option autoImplicit false

/- Jobs that stream: columns that read words of a memory in order, a fabric that
turns what has come in into what goes out, and columns that write words in
order, all of them interleaved. Which words are read and which are written may
overlap. -/
namespace Streaming

open Relation (ReflTransGen)

variable {W V I O : Type}

/-- The words every column reads or writes, in order. -/
structure Plan (W I O : Type) where
  reads : I → List W
  writes : O → List W

/-- The `k`-th value out of a column, for what has come in so far; none while
the fabric still waits for more. -/
abbrev Fabric (V I O : Type) := (I → List V) → O → Nat → Option V

/-- What came in does not change what has gone out. -/
def Steady (emit : Fabric V I O) : Prop :=
  ∀ got got' o k v, (∀ i, got i <+: got' i) → emit got o k = some v → emit got' o k = some v

structure State (W V I O : Type) where
  mem : W → V
  got : I → List V
  put : O → Nat

def start (mem : W → V) : State W V I O where
  mem := mem
  got := fun _ => []
  put := fun _ => 0

def State.read [DecidableEq I] (s : State W V I O) (i : I) (w : W) : State W V I O :=
  { s with got := Function.update s.got i (s.got i ++ [s.mem w]) }

def State.write [DecidableEq W] [DecidableEq O] (s : State W V I O) (o : O) (w : W) (v : V) :
    State W V I O :=
  { s with mem := Function.update s.mem w v, put := Function.update s.put o (s.put o + 1) }

/-- One column reads its next word, or writes the next value that is there for it. -/
inductive Move [DecidableEq W] [DecidableEq I] [DecidableEq O] (plan : Plan W I O)
    (emit : Fabric V I O) : State W V I O → State W V I O → Prop
  | read (s : State W V I O) (i : I) (w : W)
      (next : (plan.reads i)[(s.got i).length]? = some w) : Move plan emit s (s.read i w)
  | write (s : State W V I O) (o : O) (w : W) (v : V) (next : (plan.writes o)[s.put o]? = some w)
      (emitted : emit s.got o (s.put o) = some v) : Move plan emit s (s.write o w v)

/-- Every column has written all its words. -/
def Plan.Complete (plan : Plan W I O) (put : O → Nat) : Prop :=
  ∀ o, put o = (plan.writes o).length

/-- All that the columns read of a memory. -/
def Plan.streams (plan : Plan W I O) (mem : W → V) (i : I) : List V := (plan.reads i).map mem

/-- What a job is for: of the memory it starts with, all at once. -/
structure Outcome (plan : Plan W I O) (emit : Fabric V I O) (before after : W → V) : Prop where
  written : ∀ o k w, (plan.writes o)[k]? = some w →
    emit (plan.streams before) o k = some (after w)
  kept : ∀ w, (∀ o, w ∉ plan.writes o) → after w = before w

/-- No two writes go to the same word. -/
def Plan.Apart (plan : Plan W I O) : Prop :=
  ∀ (o : O) (k : Nat) (o' : O) (k' : Nat) (w : W),
    (plan.writes o)[k]? = some w → (plan.writes o')[k']? = some w → o = o' ∧ k = k'

/-- A value that goes out to a word some column reads needs that column to have
read it. -/
def Plan.Ordered (plan : Plan W I O) (emit : Fabric V I O) : Prop :=
  ∀ (i : I) (j : Nat) (o : O) (k : Nat) (w : W),
    (plan.reads i)[j]? = some w → (plan.writes o)[k]? = some w →
      ∀ got v, emit got o k = some v → j < (got i).length

/-- What a job is for, for columns that are those of a list. -/
def Plan.perform [DecidableEq W] (plan : Plan W I O) (emit : Fabric V I O) (columns : List O)
    (before : W → V) (w : W) : V :=
  (columns.findSome? fun o =>
    if w ∈ plan.writes o then emit (plan.streams before) o ((plan.writes o).idxOf w)
    else none).getD (before w)

theorem Plan.perform_kept [DecidableEq W] (plan : Plan W I O) (emit : Fabric V I O)
    (columns : List O) (before : W → V) {w : W} (apart : ∀ o ∈ columns, w ∉ plan.writes o) :
    plan.perform emit columns before w = before w := by
  have nothing : (columns.findSome? fun o =>
      if w ∈ plan.writes o then emit (plan.streams before) o ((plan.writes o).idxOf w)
      else none) = none := by
    rw [List.findSome?_eq_none_iff]
    intro o member
    exact if_neg (apart o member)
  rw [perform, nothing, Option.getD_none]

theorem Outcome.perform [DecidableEq W] {plan : Plan W I O} {emit : Fabric V I O}
    {before after : W → V} (outcome : Outcome plan emit before after) (columns : List O)
    (all : ∀ o, o ∉ columns → plan.writes o = []) : after = plan.perform emit columns before := by
  funext w
  by_cases target : ∃ o ∈ columns, w ∈ plan.writes o
  · have value (o : O) (there : w ∈ plan.writes o) :
        emit (plan.streams before) o ((plan.writes o).idxOf w) = some (after w) := by
      apply outcome.written
      rw [List.getElem?_eq_getElem (List.idxOf_lt_length_iff.mpr there), List.getElem_idxOf]
    obtain ⟨o, member, there⟩ := target
    have found : (columns.findSome? fun o =>
        if w ∈ plan.writes o then emit (plan.streams before) o ((plan.writes o).idxOf w)
        else none).isSome := by
      rw [List.findSome?_isSome_iff]
      exact ⟨o, member, by rw [if_pos there, value o there]; rfl⟩
    obtain ⟨v, here⟩ := Option.isSome_iff_exists.mp found
    obtain ⟨o', -, emitted⟩ := List.exists_of_findSome?_eq_some here
    rw [Plan.perform, here, Option.getD_some]
    by_cases inside : w ∈ plan.writes o'
    · rw [if_pos inside, value o' inside] at emitted
      exact Option.some.inj emitted
    · rw [if_neg inside] at emitted
      cases emitted
  · have apart : ∀ o ∈ columns, w ∉ plan.writes o := fun o member there =>
      target ⟨o, member, there⟩
    rw [plan.perform_kept emit columns before apart]
    apply outcome.kept
    intro o there
    by_cases member : o ∈ columns
    · exact apart o member there
    · rw [all o member] at there
      exact List.not_mem_nil there

/-- What holds between any two moves of a job that started with `before`. -/
structure Inv (plan : Plan W I O) (emit : Fabric V I O) (before : W → V) (s : State W V I O) :
    Prop where
  got : ∀ i, s.got i <+: plan.streams before i
  put : ∀ o, s.put o ≤ (plan.writes o).length
  written : ∀ o k w, (plan.writes o)[k]? = some w → k < s.put o →
    emit s.got o k = some (s.mem w)
  kept : ∀ w, (∀ o k, (plan.writes o)[k]? = some w → s.put o ≤ k) → s.mem w = before w

theorem Inv.start (plan : Plan W I O) (emit : Fabric V I O) (before : W → V) :
    Inv plan emit before (start before) where
  got _ := List.nil_prefix
  put _ := Nat.zero_le _
  written _ _ _ _ early := absurd early (Nat.not_lt_zero _)
  kept _ _ := rfl

theorem State.got_prefix [DecidableEq I] (s : State W V I O) (i : I) (w : W) (i' : I) :
    s.got i' <+: (s.read i w).got i' := by
  by_cases same : i' = i
  · subst same
    simp [State.read]
  · simp [State.read, same]

/-- A word that is still to be read has not been overwritten. -/
theorem Inv.unread {plan : Plan W I O} {emit : Fabric V I O} {before : W → V} {s : State W V I O}
    (inv : Inv plan emit before s) (ordered : plan.Ordered emit) (i : I) (w : W)
    (next : (plan.reads i)[(s.got i).length]? = some w) : s.mem w = before w := by
  apply inv.kept
  intro o k target
  by_contra overwritten
  have emitted := inv.written o k w target (by omega)
  exact Nat.lt_irrefl _ (ordered i _ o k w next target s.got _ emitted)

/-- A job that is through has done what it is for. -/
theorem Inv.outcome {plan : Plan W I O} {emit : Fabric V I O} {before : W → V}
    {s : State W V I O} (inv : Inv plan emit before s) (steady : Steady emit)
    (complete : plan.Complete s.put) : Outcome plan emit before s.mem where
  written o k w target := by
    have inside : k < (plan.writes o).length := (List.getElem?_eq_some_iff.mp target).1
    exact steady _ _ _ _ _ inv.got (inv.written o k w target (complete o ▸ inside))
  kept w untouched :=
    inv.kept w fun o _ target => absurd (List.mem_of_getElem? target) (untouched o)

section

variable [DecidableEq W] [DecidableEq I] [DecidableEq O] {plan : Plan W I O}
  {emit : Fabric V I O} {before : W → V} {s s' : State W V I O}

omit [DecidableEq W] [DecidableEq O] in
theorem Inv.read (inv : Inv plan emit before s) (steady : Steady emit)
    (ordered : plan.Ordered emit) (i : I) (w : W)
    (next : (plan.reads i)[(s.got i).length]? = some w) :
    Inv plan emit before (s.read i w) := by
  have value := inv.unread ordered i w next
  refine ⟨fun i' => ?_, inv.put, fun o k w' target early => ?_, inv.kept⟩
  · by_cases same : i' = i
    · subst same
      obtain ⟨rest, whole⟩ := inv.got i'
      have here : (plan.streams before i')[(s.got i').length]? = some (before w) := by
        simp [Plan.streams, next]
      rw [← whole, List.getElem?_append_right (Nat.le_refl _), Nat.sub_self] at here
      obtain ⟨tail, rfl⟩ : ∃ tail, rest = before w :: tail := by
        cases rest with
        | nil => cases here
        | cons head tail =>
            cases here
            exact ⟨tail, rfl⟩
      refine ⟨tail, ?_⟩
      simp only [State.read, Function.update_self, value, List.append_assoc, List.singleton_append]
      exact whole
    · simpa [State.read, same] using inv.got i'
  · exact steady _ _ _ _ _ (s.got_prefix i w) (inv.written o k w' target early)

omit [DecidableEq I] in
theorem Inv.write (inv : Inv plan emit before s) (apart : plan.Apart) (o : O) (w : W) (v : V)
    (next : (plan.writes o)[s.put o]? = some w) (emitted : emit s.got o (s.put o) = some v) :
    Inv plan emit before (s.write o w v) := by
  have inside : s.put o < (plan.writes o).length := (List.getElem?_eq_some_iff.mp next).1
  have grows : ∀ o', s.put o' ≤ (s.write o w v).put o' := by
    intro o'
    by_cases same : o' = o
    · subst same
      simp [State.write]
    · simp [State.write, same]
  refine ⟨inv.got, fun o' => ?_, fun o' k w' target early => ?_, fun w' untouched => ?_⟩
  · by_cases same : o' = o
    · subst same
      simp only [State.write, Function.update_self]
      exact inside
    · simpa [State.write, same] using inv.put o'
  · by_cases same : w' = w
    · subst same
      obtain ⟨rfl, rfl⟩ := apart o (s.put o) o' k w' next target
      simpa [State.write] using emitted
    · have before_ : k < s.put o' := by
        by_cases column : o' = o
        · subst column
          have other : k ≠ s.put o' := by
            rintro rfl
            exact same (Option.some.inj (target.symm.trans next))
          simp only [State.write, Function.update_self] at early
          omega
        · simpa [State.write, column] using early
      simpa [State.write, same] using inv.written o' k w' target before_
  · have other : w' ≠ w := by
      rintro rfl
      have late := untouched o (s.put o) next
      simp only [State.write, Function.update_self] at late
      omega
    have kept := inv.kept w' fun o' k target => Nat.le_trans (grows o') (untouched o' k target)
    simpa [State.write, other] using kept

theorem Inv.move (inv : Inv plan emit before s) (steady : Steady emit) (apart : plan.Apart)
    (ordered : plan.Ordered emit) (move : Move plan emit s s') : Inv plan emit before s' := by
  cases move with
  | read i w next => exact inv.read steady ordered i w next
  | write o w v next emitted => exact inv.write apart o w v next emitted

/-- However the columns are interleaved. -/
theorem moves_outcome (steady : Steady emit) (apart : plan.Apart) (ordered : plan.Ordered emit)
    (moves : ReflTransGen (Move plan emit) (start before) s) (complete : plan.Complete s.put) :
    Outcome plan emit before s.mem := by
  have inv : Inv plan emit before s := by
    clear complete
    induction moves with
    | refl => exact .start plan emit before
    | tail _ move ih => exact ih.move steady apart ordered move
  exact inv.outcome steady complete

/-- The columns of a list can read their next words one after the other. -/
theorem exists_reads (plan : Plan W I O) (emit : Fabric V I O) (word : I → W) (columns : List I)
    (once : columns.Nodup) (s : State W V I O)
    (next : ∀ i ∈ columns, (plan.reads i)[(s.got i).length]? = some (word i)) :
    ∃ got, ReflTransGen (Move plan emit) s { s with got } ∧
      ∀ i, got i = if i ∈ columns then s.got i ++ [s.mem (word i)] else s.got i := by
  induction columns generalizing s with
  | nil => exact ⟨s.got, .refl, by simp⟩
  | cons i rest ih =>
      obtain ⟨apart, once⟩ := List.nodup_cons.mp once
      have other : ∀ i' ∈ rest, i' ≠ i := fun i' member same => apart (same ▸ member)
      obtain ⟨got, moves, read⟩ := ih once (s.read i (word i)) fun i' member => by
        simpa [State.read, other i' member] using next i' (List.mem_cons_of_mem i member)
      refine ⟨got, .head (.read s i _ (next i List.mem_cons_self)) moves, fun i' => ?_⟩
      rw [read]
      by_cases same : i' = i
      · subst same
        simp [State.read, apart]
      · simp [State.read, same]

end

end Streaming
