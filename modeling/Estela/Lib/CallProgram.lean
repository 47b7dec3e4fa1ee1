import Mathlib.Tactic.Common

set_option autoImplicit false

/- Programs whose only effects are calls into an environment, the relational
runs of such a program over a stateful environment, and the rules of partial
correctness for them. Nothing here fixes the calls or the environment. -/
namespace CallProgram

/-- A finite tree of calls: a request `C`, and one continuation for each answer
the environment may give to it. -/
inductive Prog (C : Type) (R : C → Type) (α : Type) : Type
  | ret (value : α)
  | call (request : C) (next : R request → Prog C R α)

variable {C : Type} {R : C → Type} {α β γ : Type}

namespace Prog

def bind : Prog C R α → (α → Prog C R β) → Prog C R β
  | .ret value, rest => rest value
  | .call request next, rest => .call request (fun answer => (next answer).bind rest)

/-- A single call, returning its answer. -/
def request (c : C) : Prog C R (R c) := .call c .ret

instance : Monad (Prog C R) where
  pure := .ret
  bind := bind

@[simp] theorem bind_eq (p : Prog C R α) (rest : α → Prog C R β) : p >>= rest = p.bind rest := rfl

theorem bind_assoc (p : Prog C R α) (first : α → Prog C R β) (second : β → Prog C R γ) :
    (p.bind first).bind second = p.bind (fun value => (first value).bind second) := by
  induction p with
  | ret value => rfl
  | call c next ih =>
      simp only [bind]
      congr 1
      funext answer
      exact ih answer

/-- A loop over a list, left at the first error. -/
def forEach {ι ε : Type} (body : ι → Prog C R (Except ε Unit)) : List ι → Prog C R (Except ε Unit)
  | [] => .ret (.ok ())
  | item :: rest => (body item).bind fun result =>
      match result with
      | .error stop => .ret (.error stop)
      | .ok _ => forEach body rest

/-- Every call run as a program of other calls. -/
def handle {D : Type} {Q : D → Type} (call : (c : C) → Prog D Q (R c)) : Prog C R α → Prog D Q α
  | .ret value => .ret value
  | .call c next => (call c).bind fun answer => (next answer).handle call

theorem handle_bind {D : Type} {Q : D → Type} (call : (c : C) → Prog D Q (R c)) (p : Prog C R α)
    (rest : α → Prog C R β) : (p.bind rest).handle call =
      (p.handle call).bind fun value => (rest value).handle call := by
  induction p with
  | ret value => rfl
  | call c next ih =>
      simp only [bind, handle, bind_assoc]
      congr 1
      funext answer
      exact ih answer

/-- The run in an environment that answers by a function. -/
def eval {S : Type} (answer : S → (c : C) → R c × S) : Prog C R α → S → α × S
  | .ret value, state => (value, state)
  | .call c next, state => (next (answer state c).1).eval answer (answer state c).2

@[simp] theorem eval_ret {S : Type} (answer : S → (c : C) → R c × S) (value : α) (state : S) :
    (.ret value : Prog C R α).eval answer state = (value, state) := rfl

@[simp] theorem eval_request {S : Type} (answer : S → (c : C) → R c × S) (c : C) (state : S) :
    (request c : Prog C R (R c)).eval answer state = answer state c := rfl

@[simp] theorem eval_bind {S : Type} (answer : S → (c : C) → R c × S) (p : Prog C R α)
    (rest : α → Prog C R β) (state : S) :
    (p.bind rest).eval answer state =
      (rest (p.eval answer state).1).eval answer (p.eval answer state).2 := by
  induction p generalizing state with
  | ret value => rfl
  | call c next ih => exact ih _ _

end Prog

section Runs

variable {S : Type} (step : S → (c : C) → R c → S → Prop)

/-- One complete run: every call is answered by some move of the environment. -/
inductive Run : Prog C R α → S → α → S → Prop
  | ret (value : α) (state : S) : Run (.ret value) state value state
  | call {c : C} {next : R c → Prog C R α} {before between after : S} {value : α} (answer : R c)
      (move : step before c answer between) (rest : Run (next answer) between value after) :
      Run (.call c next) before value after

variable {step}

@[simp] theorem run_ret_iff (value result : α) (before after : S) :
    Run step (.ret value : Prog C R α) before result after ↔ result = value ∧ after = before := by
  constructor
  · intro run
    cases run
    exact ⟨rfl, rfl⟩
  · rintro ⟨rfl, rfl⟩
    exact .ret _ _

theorem run_call_iff (c : C) (next : R c → Prog C R α) (before after : S) (result : α) :
    Run step (.call c next) before result after ↔
      ∃ answer between, step before c answer between ∧
        Run step (next answer) between result after := by
  constructor
  · intro run
    cases run with
    | call answer move rest => exact ⟨answer, _, move, rest⟩
  · rintro ⟨answer, between, move, rest⟩
    exact .call answer move rest

/-- A call that begins a sequence. -/
theorem run_request_iff (c : C) (rest : R c → Prog C R α) (before after : S) (result : α) :
    Run step ((Prog.request c).bind rest) before result after ↔
      ∃ answer between, step before c answer between ∧
        Run step (rest answer) between result after :=
  run_call_iff c rest before after result

/-- A run of a sequence is a run of its first part followed by a run of the rest. -/
theorem run_bind_iff (p : Prog C R α) (rest : α → Prog C R β) (before after : S) (result : β) :
    Run step (p.bind rest) before result after ↔
      ∃ value between, Run step p before value between ∧
        Run step (rest value) between result after := by
  induction p generalizing before with
  | ret value =>
      constructor
      · intro run
        exact ⟨value, before, .ret _ _, run⟩
      · rintro ⟨value', between, first, second⟩
        obtain ⟨rfl, rfl⟩ := (run_ret_iff _ _ _ _).mp first
        exact second
  | call c next ih =>
      simp only [Prog.bind, run_call_iff]
      constructor
      · rintro ⟨answer, between, move, run⟩
        obtain ⟨value, middle, first, second⟩ := (ih answer between).mp run
        exact ⟨value, middle, ⟨answer, between, move, first⟩, second⟩
      · rintro ⟨value, middle, ⟨answer, between, move, first⟩, second⟩
        exact ⟨answer, between, move, (ih answer between).mpr ⟨value, middle, first, second⟩⟩

/-- An environment that answers by a function is one run. -/
theorem Run.of_eval {answer : S → (c : C) → R c × S}
    (allowed : ∀ state c, step state c (answer state c).1 (answer state c).2) (p : Prog C R α)
    (state : S) : Run step p state (p.eval answer state).1 (p.eval answer state).2 := by
  induction p generalizing state with
  | ret value => exact .ret _ _
  | call c next ih => exact .call _ (allowed state c) (ih _ _)

variable (step)

/-- Partial correctness, with the result available to the postcondition. -/
def Triple (before : S → Prop) (p : Prog C R α) (after : α → S → Prop) : Prop :=
  ∀ state result final, before state → Run step p state result final → after result final

variable {step}

theorem Triple.ret {before : S → Prop} {after : α → S → Prop} (value : α)
    (implies : ∀ state, before state → after value state) :
    Triple step before (.ret value : Prog C R α) after := by
  intro state result final holds run
  obtain ⟨rfl, rfl⟩ := (run_ret_iff _ _ _ _).mp run
  exact implies _ holds

theorem Triple.call {before : S → Prop} {after : α → S → Prop} (c : C) (next : R c → Prog C R α)
    (between : R c → S → Prop)
    (move : ∀ state answer state', before state → step state c answer state' →
      between answer state')
    (rest : ∀ answer, Triple step (between answer) (next answer) after) :
    Triple step before (.call c next) after := by
  intro state result final holds run
  obtain ⟨answer, middle, moved, run⟩ := (run_call_iff _ _ _ _ _).mp run
  exact rest answer middle result final (move state answer middle holds moved) run

theorem Triple.bind {before : S → Prop} (between : α → S → Prop) {after : β → S → Prop}
    {p : Prog C R α} {rest : α → Prog C R β} (first : Triple step before p between)
    (second : ∀ value, Triple step (between value) (rest value) after) :
    Triple step before (p.bind rest) after := by
  intro state result final holds run
  obtain ⟨value, middle, head, tail⟩ := (run_bind_iff _ _ _ _ _).mp run
  exact second value middle result final (first state value middle holds head) tail

theorem Triple.pre (before : S → Prop) {before' : S → Prop} {after : α → S → Prop}
    {p : Prog C R α} (weaker : ∀ state, before' state → before state)
    (triple : Triple step before p after) : Triple step before' p after :=
  fun state result final holds run => triple state result final (weaker state holds) run

theorem Triple.post (after : α → S → Prop) {before : S → Prop} {after' : α → S → Prop}
    {p : Prog C R α} (triple : Triple step before p after)
    (stronger : ∀ value state, after value state → after' value state) :
    Triple step before p after' :=
  fun state result final holds run => stronger _ _ (triple state result final holds run)

/-- An environment of which nothing is known. -/
def AnyAnswer (_before : Unit) (c : C) (_answer : R c) (_after : Unit) : Prop := True

/-- A fact about no state moves out of the precondition. -/
theorem Triple.given {fact : Prop} {before : S → Prop} {after : α → S → Prop} {p : Prog C R α}
    (triple : fact → Triple step before p after) :
    Triple step (fun state => before state ∧ fact) p after :=
  fun state result final holds run => triple holds.2 state result final holds.1 run

/-- How a loop, or one turn of it, may end. -/
def Ended {ε : Type} (done : S → Prop) (failed : ε → S → Prop) : Except ε Unit → S → Prop
  | .ok _, state => done state
  | .error stop, state => failed stop state

/-- The rule of a counted loop, from count `first` on. -/
theorem Triple.forRange {ε : Type} (inv : Nat → S → Prop) (failed : ε → S → Prop)
    (body : Nat → Prog C R (Except ε Unit)) (first count : Nat)
    (turn : ∀ i, first ≤ i → i < first + count →
      Triple step (inv i) (body i) (Ended (inv (i + 1)) failed)) :
    Triple step (inv first) (Prog.forEach body (List.range' first count))
      (Ended (inv (first + count)) failed) := by
  induction count generalizing first with
  | zero => exact Triple.ret _ (fun _ holds => holds)
  | succ count ih =>
      rw [List.range'_succ]
      refine Triple.bind _ (turn first (Nat.le_refl _) (by omega)) (fun result => ?_)
      cases result with
      | error stop => exact Triple.ret _ (fun _ holds => holds)
      | ok _ =>
          have rest := ih (first + 1) (fun i above below => turn i (by omega) (by omega))
          rw [Nat.add_right_comm] at rest
          exact rest

/-- Every call the program makes is one of the `allowed`. -/
def Prog.Calls (allowed : C → Prop) : Prog C R α → Prop
  | .ret _ => True
  | .call c next => allowed c ∧ ∀ answer, (next answer).Calls allowed

@[simp] theorem Prog.calls_ret (allowed : C → Prop) (value : α) :
    (.ret value : Prog C R α).Calls allowed := trivial

theorem Prog.calls_request {allowed : C → Prop} {c : C} (fits : allowed c) :
    (request c : Prog C R (R c)).Calls allowed := ⟨fits, fun _ => trivial⟩

theorem Prog.Calls.bind {allowed : C → Prop} {p : Prog C R α} {rest : α → Prog C R β}
    (first : p.Calls allowed) (second : ∀ value, (rest value).Calls allowed) :
    (p.bind rest).Calls allowed := by
  induction p with
  | ret value => exact second value
  | call c next ih => exact ⟨first.1, fun answer => ih answer (first.2 answer)⟩

theorem Prog.Calls.forEach {ι ε : Type} {allowed : C → Prop} {body : ι → Prog C R (Except ε Unit)}
    {items : List ι} (each : ∀ item, (body item).Calls allowed) :
    (Prog.forEach body items).Calls allowed := by
  induction items with
  | nil => trivial
  | cons item rest ih =>
      apply Prog.Calls.bind (each item)
      intro result
      cases result with
      | error stop => trivial
      | ok _ => exact ih

theorem Prog.Calls.mono {allowed more : C → Prop} {p : Prog C R α} (calls : p.Calls allowed)
    (wider : ∀ c, allowed c → more c) : p.Calls more := by
  induction p with
  | ret value => trivial
  | call c next ih => exact ⟨wider c calls.1, fun answer => ih answer (calls.2 answer)⟩

/-- What each of its calls keeps, a program keeps. -/
theorem Triple.of_calls {allowed : C → Prop} {inv : S → Prop} {p : Prog C R α}
    (calls : p.Calls allowed)
    (keeps : ∀ c, allowed c → ∀ state answer state', inv state → step state c answer state' →
      inv state') : Triple step inv p (fun _ => inv) := by
  intro state result final holds run
  induction run with
  | ret value state => exact holds
  | call answer move rest ih => exact ih (calls.2 answer) (keeps _ calls.1 _ _ _ holds move)

/-- In an environment that can always answer, every program has a run. -/
theorem exists_run (answers : ∀ state (c : C), ∃ answer state', step state c answer state')
    (p : Prog C R α) (before : S) : ∃ result after, Run step p before result after := by
  induction p generalizing before with
  | ret value => exact ⟨value, before, .ret _ _⟩
  | call c next ih =>
      obtain ⟨answer, between, move⟩ := answers before c
      obtain ⟨result, after, run⟩ := ih answer between
      exact ⟨result, after, .call answer move run⟩

/-- What every move keeps, every run keeps. -/
theorem Run.keeps (inv : S → Prop)
    (keeps : ∀ state c answer state', inv state → step state c answer state' → inv state')
    {p : Prog C R α} {before after : S} {result : α} (run : Run step p before result after)
    (holds : inv before) : inv after := by
  induction run with
  | ret value state => exact holds
  | call answer move rest ih => exact ih (keeps _ _ _ _ holds move)

/-- A run seen through a part of the state. -/
theorem Run.map {T : Type} {step' : T → (c : C) → R c → T → Prop} (part : S → T)
    (moves : ∀ state c answer state', step state c answer state' →
      step' (part state) c answer (part state'))
    {p : Prog C R α} {before after : S} {result : α} (run : Run step p before result after) :
    Run step' p (part before) result (part after) := by
  induction run with
  | ret value state => exact .ret value _
  | call answer move rest ih => exact .call answer (moves _ _ _ _ move) ih

/-- A run in an environment is one in every environment that can do more. -/
theorem Run.mono {step' : S → (c : C) → R c → S → Prop}
    (more : ∀ state c answer state', step state c answer state' → step' state c answer state')
    {p : Prog C R α} {before after : S} {result : α} (run : Run step p before result after) :
    Run step' p before result after := run.map id more

end Runs

end CallProgram
