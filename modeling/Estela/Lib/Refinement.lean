import Mathlib.Tactic.Common

set_option autoImplicit false

/- Systems whose steps may show an event, and simulation between two of them. -/
namespace Refinement

variable {S T L : Type}

/-- A run, with the events it shows in order. -/
inductive Trace (step : S → Option L → S → Prop) : S → List L → S → Prop
  | nil (s : S) : Trace step s [] s
  | silent {s between s' : S} {events : List L} (move : step s none between)
      (rest : Trace step between events s') : Trace step s events s'
  | visible {s between s' : S} {events : List L} (event : L) (move : step s (some event) between)
      (rest : Trace step between events s') : Trace step s (event :: events) s'

theorem Trace.append {step : S → Option L → S → Prop} {s between s' : S} {first second : List L}
    (head : Trace step s first between) (tail : Trace step between second s') :
    Trace step s (first ++ second) s' := by
  induction head with
  | nil s => exact tail
  | silent move rest ih => exact .silent move (ih tail)
  | visible event move rest ih => exact .visible event move (ih tail)

theorem Trace.one {step : S → Option L → S → Prop} {s s' : S} {label : Option L}
    (move : step s label s') : Trace step s label.toList s' := by
  cases label with
  | none => exact .silent move (.nil s')
  | some event => exact .visible event move (.nil s')

/-- Every step of the lower system is matched by a run of the upper one that shows
the same. -/
def Simulation (step : S → Option L → S → Prop) (step' : T → Option L → T → Prop)
    (related : S → T → Prop) : Prop :=
  ∀ s label s' t, related s t → step s label s' →
    ∃ t', Trace step' t label.toList t' ∧ related s' t'

/-- What the lower system can show, the upper one can. -/
theorem Simulation.trace {step : S → Option L → S → Prop} {step' : T → Option L → T → Prop}
    {related : S → T → Prop} (simulation : Simulation step step' related) {s s' : S}
    {events : List L} (run : Trace step s events s') {t : T} (start : related s t) :
    ∃ t', Trace step' t events t' ∧ related s' t' := by
  induction run generalizing t with
  | nil s => exact ⟨t, .nil t, start⟩
  | silent move rest ih =>
      obtain ⟨between, first, together⟩ := simulation _ _ _ _ start move
      obtain ⟨t', second, after⟩ := ih together
      exact ⟨t', first.append second, after⟩
  | visible event move rest ih =>
      obtain ⟨between, first, together⟩ := simulation _ _ _ _ start move
      obtain ⟨t', second, after⟩ := ih together
      exact ⟨t', first.append second, after⟩

end Refinement
