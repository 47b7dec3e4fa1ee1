import Estela.Lib.Reordering
import Mathlib.Order.Basic
import Mathlib.Logic.Relation
import Mathlib.Data.List.Basic

set_option autoImplicit false

/- Jobs ordered by timeline semaphores. A job waits until its semaphores have reached
its values, does its work, and signals values of its own; if any of that fails, it
fails the semaphores it would have signalled. Jobs run concurrently, in any
interleaving of their steps. -/
namespace Fences

variable {J K V A : Type}

structure Job (K V A : Type) where
  waits : List (K × V)
  work : List A
  signals : List (K × V)

/-- How far a job is. -/
inductive Phase
  | waiting
  | working (done : Nat)
  | signalling (done : Nat)
  | failing (done : Nat)
  | finished
  | aborted
  deriving DecidableEq, Repr

def Phase.Over : Phase → Prop
  | .finished | .aborted => True
  | _ => False

inductive Event
  | started
  | acted (n : Nat)
  | worked
  deriving DecidableEq, Repr

structure State (J K V : Type) where
  value : K → V
  failed : K → Prop
  phase : J → Phase
  history : List (J × Event)

variable [DecidableEq J] [DecidableEq K]

def State.to (s : State J K V) (j : J) (phase : Phase) : State J K V :=
  { s with phase := Function.update s.phase j phase }

def State.log (s : State J K V) (j : J) (event : Event) : State J K V :=
  { s with history := s.history ++ [(j, event)] }

def State.reach (s : State J K V) (k : K) (v : V) : State J K V :=
  { s with value := Function.update s.value k v }

def State.fail (s : State J K V) (k : K) : State J K V :=
  { s with failed := fun k' => k' = k ∨ s.failed k' }

variable [Preorder V]

/-- A job starts once those that come before it are over. A semaphore never goes back. -/
inductive Step (jobs : J → Job K V A) (order : J → J → Prop) : State J K V → State J K V → Prop
  | start (s : State J K V) (j : J) (waiting : s.phase j = .waiting)
      (turn : ∀ i, order i j → (s.phase i).Over)
      (reached : ∀ w ∈ (jobs j).waits, w.2 ≤ s.value w.1) :
      Step jobs order s ((s.to j (.working 0)).log j .started)
  | refuse (s : State J K V) (j : J) (waiting : s.phase j = .waiting)
      (turn : ∀ i, order i j → (s.phase i).Over) : Step jobs order s (s.to j (.failing 0))
  | act (s : State J K V) (j : J) (n : Nat) (working : s.phase j = .working n)
      (next : n < (jobs j).work.length) :
      Step jobs order s ((s.to j (.working (n + 1))).log j (.acted n))
  | stop (s : State J K V) (j : J) (n : Nat) (working : s.phase j = .working n) :
      Step jobs order s (s.to j (.failing 0))
  | worked (s : State J K V) (j : J) (working : s.phase j = .working (jobs j).work.length) :
      Step jobs order s ((s.to j (.signalling 0)).log j .worked)
  | signal (s : State J K V) (j : J) (n : Nat) (w : K × V) (signalling : s.phase j = .signalling n)
      (next : (jobs j).signals[n]? = some w) (grows : s.value w.1 ≤ w.2) :
      Step jobs order s ((s.to j (.signalling (n + 1))).reach w.1 w.2)
  | giveUp (s : State J K V) (j : J) (n : Nat) (signalling : s.phase j = .signalling n) :
      Step jobs order s (s.to j (.failing 0))
  | finish (s : State J K V) (j : J)
      (signalling : s.phase j = .signalling (jobs j).signals.length) :
      Step jobs order s (s.to j .finished)
  | fail (s : State J K V) (j : J) (n : Nat) (w : K × V) (failing : s.phase j = .failing n)
      (next : (jobs j).signals[n]? = some w) :
      Step jobs order s ((s.to j (.failing (n + 1))).fail w.1)
  | abort (s : State J K V) (j : J) (failing : s.phase j = .failing (jobs j).signals.length) :
      Step jobs order s (s.to j .aborted)

def start (initial : K → V) (failed : K → Prop) : State J K V where
  value := initial
  failed
  phase := fun _ => .waiting
  history := []

/-- What was there before an event. -/
def Justified (jobs : J → Job K V A) (initial : K → V) (past : List (J × Event)) :
    J × Event → Prop
  | (j, .started) => ∀ w ∈ (jobs j).waits, w.2 ≤ initial w.1 ∨
      ∃ i v, (w.1, v) ∈ (jobs i).signals ∧ w.2 ≤ v ∧ (i, .worked) ∈ past
  | (j, .acted _) => (j, .started) ∈ past ∧ (j, .worked) ∉ past
  | (j, .worked) => (j, .started) ∈ past

/-- Something that holds of every event and what was before it. -/
def Always (holds : List (J × Event) → J × Event → Prop) (history : List (J × Event)) : Prop :=
  ∀ past event later, history = past ++ event :: later → holds past event

omit [DecidableEq J] in
theorem Always.snoc {holds : List (J × Event) → J × Event → Prop} {history : List (J × Event)}
    (always : Always holds history) {event : J × Event} (last : holds history event) :
    Always holds (history ++ [event]) := by
  intro past e later split
  rcases List.eq_nil_or_concat later with rfl | ⟨rest, final, rfl⟩
  · obtain ⟨rfl, same⟩ := List.append_inj' split rfl
    cases same
    exact last
  · rw [List.concat_eq_append, ← List.cons_append, ← List.append_assoc] at split
    obtain ⟨same, -⟩ := List.append_inj' split rfl
    exact always past e rest same

/-- The steps of work in a history. -/
def acts (history : List (J × Event)) : List (J × Nat) :=
  history.filterMap fun entry => match entry.2 with
    | .acted n => some (entry.1, n)
    | _ => none

/-- The first `n` steps of a job. -/
def steps (j : J) (n : Nat) : List (J × Nat) := (List.range n).map (j, ·)

omit [DecidableEq J] in
theorem acts_snoc (history : List (J × Event)) (j : J) (event : Event) :
    acts (history ++ [(j, event)]) = acts history ++ match event with
      | .acted n => [(j, n)]
      | _ => [] := by
  cases event <;> simp [acts]

/-- What the phase of a job says of it. -/
def PhaseOk (jobs : J → Job K V A) (s : State J K V) (j : J) : Phase → Prop
  | .waiting => (j, .worked) ∉ s.history ∧ (acts s.history).filter (·.1 = j) = steps j 0
  | .working n => (j, .started) ∈ s.history ∧ (j, .worked) ∉ s.history ∧
      (acts s.history).filter (·.1 = j) = steps j n
  | .signalling n => (j, .worked) ∈ s.history ∧
      (acts s.history).filter (·.1 = j) = steps j (jobs j).work.length ∧
      ∀ w ∈ (jobs j).signals.take n, w.2 ≤ s.value w.1
  | .failing n => ∀ w ∈ (jobs j).signals.take n, s.failed w.1
  | .finished => (j, .worked) ∈ s.history ∧
      (acts s.history).filter (·.1 = j) = steps j (jobs j).work.length ∧
      ∀ w ∈ (jobs j).signals, w.2 ≤ s.value w.1
  | .aborted => ∀ w ∈ (jobs j).signals, s.failed w.1

/-- What holds in every state of a run. -/
structure Inv (jobs : J → Job K V A) (order : J → J → Prop) (initial : K → V) (s : State J K V) :
    Prop where
  justified : Always (Justified jobs initial) s.history
  turned : Always (fun past e => e.2 = .started →
    ∀ i, order i e.1 → (i, .worked) ∈ past ∨ s.phase i = .aborted) s.history
  reached : ∀ k v, v ≤ s.value k → v ≤ initial k ∨
    ∃ i v', (k, v') ∈ (jobs i).signals ∧ v ≤ v' ∧ (i, .worked) ∈ s.history
  phases : ∀ j, PhaseOk jobs s j (s.phase j)
  partly : ∀ j, ∃ n ≤ (jobs j).work.length, (acts s.history).filter (·.1 = j) = steps j n
  grown : ∀ k, initial k ≤ s.value k
  behind : ∀ j, s.phase j ≠ .waiting → ∀ i, order i j → (s.phase i).Over

section

variable {jobs : J → Job K V A} {order : J → J → Prop} {initial : K → V} {s s' : State J K V}

omit [DecidableEq K] in
theorem inv_start (failed : K → Prop) :
    Inv jobs order initial (start initial failed : State J K V) where
  justified past e later split := absurd split (by simp [start])
  turned past e later split := absurd split (by simp [start])
  reached k v below := Or.inl below
  phases j := by simp [PhaseOk, start, acts, steps]
  partly j := ⟨0, Nat.zero_le _, rfl⟩
  grown k := le_refl _
  behind j moved := absurd rfl moved

omit [DecidableEq K] in
/-- What a step of another job leaves true. -/
theorem PhaseOk.frame {j i : J} (other : j ≠ i) {phase : Phase} (ok : PhaseOk jobs s j phase)
    {events : List Event} (history : s'.history = s.history ++ events.map (i, ·))
    (value : ∀ k, s.value k ≤ s'.value k) (failed : ∀ k, s.failed k → s'.failed k) :
    PhaseOk jobs s' j phase := by
  have mem (event : Event) : (j, event) ∈ s'.history ↔ (j, event) ∈ s.history := by
    simp [history, Ne.symm other]
  have same : (acts s'.history).filter (·.1 = j) = (acts s.history).filter (·.1 = j) := by
    rw [history, acts, List.filterMap_append, List.filter_append, ← acts]
    rw [List.append_right_eq_self, List.filter_eq_nil_iff]
    intro act member
    obtain ⟨entry, inside, found⟩ := List.mem_filterMap.mp member
    obtain ⟨event, -, rfl⟩ := List.mem_map.mp inside
    cases event with
    | acted n =>
        cases found
        simpa using Ne.symm other
    | started => cases found
    | worked => cases found
  have raised (signals : List (K × V)) (below : ∀ w ∈ signals, w.2 ≤ s.value w.1) :
      ∀ w ∈ signals, w.2 ≤ s'.value w.1 := fun w member =>
    (below w member).trans (value w.1)
  cases phase with
  | waiting => exact ⟨by rw [mem]; exact ok.1, same.trans ok.2⟩
  | working n => exact ⟨by rw [mem]; exact ok.1, by rw [mem]; exact ok.2.1, same.trans ok.2.2⟩
  | signalling n => exact ⟨by rw [mem]; exact ok.1, same.trans ok.2.1, raised _ ok.2.2⟩
  | failing n => exact fun w member => failed w.1 (ok w member)
  | finished => exact ⟨by rw [mem]; exact ok.1, same.trans ok.2.1, raised _ ok.2.2⟩
  | aborted => exact fun w member => failed w.1 (ok w member)

/-- One step of job `j`: what it logs, if anything, and what it changes. -/
structure Advance (jobs : J → Job K V A) (order : J → J → Prop) (initial : K → V)
    (s s' : State J K V) (j : J) (phase : Phase) (event : Option Event) : Prop where
  moved : s'.phase = Function.update s.phase j phase
  history : s'.history = s.history ++ event.toList.map (j, ·)
  value : ∀ k, s.value k ≤ s'.value k
  failed : ∀ k, s.failed k → s'.failed k
  alive : ¬ (s.phase j).Over
  turn : ∀ i, order i j → (s.phase i).Over
  justified : ∀ e, event = some e → Justified jobs initial s.history (j, e)
  ok : PhaseOk jobs s' j phase

omit [DecidableEq K] in
theorem Inv.advance (inv : Inv jobs order initial s) {j : J} {phase : Phase} {event : Option Event}
    (step : Advance jobs order initial s s' j phase event)
    (reached : ∀ k v, v ≤ s'.value k → v ≤ s.value k ∨
      ∃ v', (k, v') ∈ (jobs j).signals ∧ v ≤ v' ∧ (j, .worked) ∈ s.history)
    (partly : ∃ n ≤ (jobs j).work.length, (acts s'.history).filter (·.1 = j) = steps j n) :
    Inv jobs order initial s' := by
  have grows (e : J × Event) (there : e ∈ s.history) : e ∈ s'.history := by
    rw [step.history]
    exact List.mem_append_left _ there
  have still (i : J) (ended : (s.phase i).Over) : s'.phase i = s.phase i := by
    have other : i ≠ j := by
      rintro rfl
      exact step.alive ended
    rw [step.moved, Function.update_of_ne other]
  have aborted (i : J) (gone : s.phase i = .aborted) : s'.phase i = .aborted :=
    (still i (by rw [gone]; trivial)).trans gone
  have turned : Always (fun past e => e.2 = .started →
      ∀ i, order i e.1 → (i, .worked) ∈ past ∨ s'.phase i = .aborted) s.history :=
    fun past e later split isStart i before =>
      (inv.turned past e later split isStart i before).imp_right (aborted i)
  refine ⟨?_, ?_, fun k v below => ?_, fun i => ?_, fun i => ?_,
    fun k => (inv.grown k).trans (step.value k), fun i moved l before => ?_⟩
  · rw [step.history]
    cases event with
    | none => simpa using inv.justified
    | some e => exact inv.justified.snoc (step.justified e rfl)
  · rw [step.history]
    cases event with
    | none => simpa using turned
    | some e =>
        apply turned.snoc
        rintro rfl i before
        have ended := step.turn i before
        have ok := inv.phases i
        cases now : s.phase i with
        | finished =>
            rw [now] at ok
            exact Or.inl ok.1
        | aborted => exact Or.inr (aborted i now)
        | waiting | working | signalling | failing =>
            rw [now] at ended
            exact ended.elim
  · rcases reached k v below with old | ⟨v', signal, above, there⟩
    · rcases inv.reached k v old with first | ⟨i, v', signal, above, there⟩
      · exact Or.inl first
      · exact Or.inr ⟨i, v', signal, above, grows _ there⟩
    · exact Or.inr ⟨j, v', signal, above, grows _ there⟩
  · by_cases same : i = j
    · subst same
      rw [step.moved, Function.update_self]
      exact step.ok
    · rw [step.moved, Function.update_of_ne same]
      exact (inv.phases i).frame same step.history step.value step.failed
  · by_cases same : i = j
    · subst same
      exact partly
    · obtain ⟨n, below, done⟩ := inv.partly i
      refine ⟨n, below, ?_⟩
      rw [← done, step.history]
      cases event with
      | none => simp
      | some e =>
          rw [Option.toList_some, List.map_singleton, acts_snoc, List.filter_append]
          cases e <;> simp [Ne.symm same]
  · have ended : (s.phase l).Over := by
      by_cases same : i = j
      · exact step.turn l (same ▸ before)
      · rw [step.moved, Function.update_of_ne same] at moved
        exact inv.behind i moved l before
    rwa [still l ended]

omit [DecidableEq J] in
theorem steps_succ (j : J) (n : Nat) : steps j (n + 1) = steps j n ++ [(j, n)] := by
  simp [steps, List.range_succ]

omit [DecidableEq K] in
theorem Inv.quiet (inv : Inv jobs order initial s) (j : J) (history : s'.history = s.history) :
    ∃ n ≤ (jobs j).work.length, (acts s'.history).filter (·.1 = j) = steps j n := by
  rw [history]
  exact inv.partly j

theorem acts_plain (history : List (J × Event)) (j : J) (event : Event)
    (plain : ∀ n, event ≠ .acted n) :
    (acts (history ++ [(j, event)])).filter (·.1 = j) = (acts history).filter (·.1 = j) := by
  rw [acts_snoc]
  cases event with
  | acted n => exact absurd rfl (plain n)
  | started | worked => simp

omit [DecidableEq K] in
theorem Inv.start (inv : Inv jobs order initial s) {j : J} (waiting : s.phase j = .waiting)
    (turn : ∀ i, order i j → (s.phase i).Over)
    (reached : ∀ w ∈ (jobs j).waits, w.2 ≤ s.value w.1) :
    Inv jobs order initial ((s.to j (.working 0)).log j .started) := by
  have ok := inv.phases j
  rw [waiting] at ok
  have none_ := (acts_plain s.history j .started nofun).trans ok.2
  have advance : Advance jobs order initial s ((s.to j (.working 0)).log j .started) j
      (.working 0) (some .started) := by
    refine ⟨rfl, rfl, fun _ => le_refl _, fun _ => id, by simp [waiting, Phase.Over], turn, ?_, ?_⟩
    · rintro e ⟨⟩ w member
      exact inv.reached w.1 w.2 (reached w member)
    · exact ⟨by simp [State.log], by simpa [State.log, State.to] using ok.1, none_⟩
  exact inv.advance advance (fun k v => Or.inl) ⟨0, Nat.zero_le _, none_⟩

omit [DecidableEq K] in
theorem Inv.act (inv : Inv jobs order initial s) {j : J} {n : Nat}
    (working : s.phase j = .working n) (next : n < (jobs j).work.length) :
    Inv jobs order initial ((s.to j (.working (n + 1))).log j (.acted n)) := by
  have ok := inv.phases j
  rw [working] at ok
  have done : (acts (s.history ++ [(j, .acted n)])).filter (·.1 = j) = steps j (n + 1) := by
    rw [acts_snoc, List.filter_append, ok.2.2, steps_succ]
    simp
  have advance : Advance jobs order initial s ((s.to j (.working (n + 1))).log j (.acted n)) j
      (.working (n + 1)) (some (.acted n)) := by
    refine ⟨rfl, rfl, fun _ => le_refl _, fun _ => id, by simp [working, Phase.Over],
      inv.behind j (by simp [working]), ?_, ?_⟩
    · rintro e ⟨⟩
      exact ⟨ok.1, ok.2.1⟩
    · exact ⟨List.mem_append_left _ ok.1, by simpa [State.log, State.to] using ok.2.1, done⟩
  exact inv.advance advance (fun k v => Or.inl) ⟨n + 1, next, done⟩

omit [DecidableEq K] in
theorem Inv.worked (inv : Inv jobs order initial s) {j : J}
    (working : s.phase j = .working (jobs j).work.length) :
    Inv jobs order initial ((s.to j (.signalling 0)).log j .worked) := by
  have ok := inv.phases j
  rw [working] at ok
  have done := (acts_plain s.history j .worked nofun).trans ok.2.2
  have advance : Advance jobs order initial s ((s.to j (.signalling 0)).log j .worked) j
      (.signalling 0) (some .worked) := by
    refine ⟨rfl, rfl, fun _ => le_refl _, fun _ => id, by simp [working, Phase.Over],
      inv.behind j (by simp [working]), ?_, ?_⟩
    · rintro e ⟨⟩
      exact ok.1
    · exact ⟨by simp [State.log], done, by simp⟩
  exact inv.advance advance (fun k v => Or.inl) ⟨_, Nat.le_refl _, done⟩

omit [DecidableEq K] in
/-- A job that begins to fail, whatever it was at. -/
theorem Inv.fails (inv : Inv jobs order initial s) {j : J} (alive : ¬ (s.phase j).Over)
    (turn : ∀ i, order i j → (s.phase i).Over) :
    Inv jobs order initial (s.to j (.failing 0)) := by
  have advance : Advance jobs order initial s (s.to j (.failing 0)) j (.failing 0) none :=
    ⟨rfl, by simp [State.to], fun _ => le_refl _, fun _ => id, alive, turn, nofun,
      by simp [PhaseOk]⟩
  exact inv.advance advance (fun k v => Or.inl) (inv.quiet j rfl)

theorem Inv.signal (inv : Inv jobs order initial s) {j : J} {n : Nat} {w : K × V}
    (signalling : s.phase j = .signalling n) (next : (jobs j).signals[n]? = some w)
    (grows : s.value w.1 ≤ w.2) :
    Inv jobs order initial ((s.to j (.signalling (n + 1))).reach w.1 w.2) := by
  have ok := inv.phases j
  rw [signalling] at ok
  have mono (k : K) : s.value k ≤ Function.update s.value w.1 w.2 k := by
    by_cases same : k = w.1
    · subst same
      rwa [Function.update_self]
    · rw [Function.update_of_ne same]
  have advance : Advance jobs order initial s ((s.to j (.signalling (n + 1))).reach w.1 w.2) j
      (.signalling (n + 1)) none := by
    refine ⟨rfl, by simp [State.to, State.reach], mono, fun _ => id,
      by simp [signalling, Phase.Over], inv.behind j (by simp [signalling]), nofun,
      ok.1, ok.2.1, ?_⟩
    rw [List.take_add_one, next]
    intro x member
    rcases List.mem_append.mp member with earlier | last
    · exact (ok.2.2 x earlier).trans (mono x.1)
    · obtain rfl := List.mem_singleton.mp last
      simp [State.reach]
  refine inv.advance advance (fun k v below => ?_) (inv.quiet j rfl)
  by_cases same : k = w.1
  · subst same
    have reached : v ≤ w.2 := by simpa [State.reach] using below
    exact Or.inr ⟨w.2, List.mem_of_getElem? next, reached, ok.1⟩
  · exact Or.inl (by simpa [State.reach, State.to, same] using below)

omit [DecidableEq K] in
theorem Inv.finish (inv : Inv jobs order initial s) {j : J}
    (signalling : s.phase j = .signalling (jobs j).signals.length) :
    Inv jobs order initial (s.to j .finished) := by
  have ok := inv.phases j
  rw [signalling] at ok
  have advance : Advance jobs order initial s (s.to j .finished) j .finished none := by
    refine ⟨rfl, by simp [State.to], fun _ => le_refl _, fun _ => id,
      by simp [signalling, Phase.Over], inv.behind j (by simp [signalling]), nofun,
      ok.1, ok.2.1, ?_⟩
    have reached := ok.2.2
    rwa [List.take_length] at reached
  exact inv.advance advance (fun k v => Or.inl) (inv.quiet j rfl)

omit [DecidableEq K] in
theorem Inv.fail (inv : Inv jobs order initial s) {j : J} {n : Nat} {w : K × V}
    (failing : s.phase j = .failing n) (next : (jobs j).signals[n]? = some w) :
    Inv jobs order initial ((s.to j (.failing (n + 1))).fail w.1) := by
  have ok := inv.phases j
  rw [failing] at ok
  have advance : Advance jobs order initial s ((s.to j (.failing (n + 1))).fail w.1) j
      (.failing (n + 1)) none := by
    refine ⟨rfl, by simp [State.to, State.fail], fun _ => le_refl _, fun _ => Or.inr,
      by simp [failing, Phase.Over], inv.behind j (by simp [failing]), nofun, ?_⟩
    intro x member
    rw [List.take_add_one, next] at member
    rcases List.mem_append.mp member with earlier | last
    · exact Or.inr (ok x earlier)
    · exact Or.inl (congrArg Prod.fst (List.mem_singleton.mp last))
  exact inv.advance advance (fun k v => Or.inl) (inv.quiet j rfl)

omit [DecidableEq K] in
theorem Inv.abort (inv : Inv jobs order initial s) {j : J}
    (failing : s.phase j = .failing (jobs j).signals.length) :
    Inv jobs order initial (s.to j .aborted) := by
  have ok := inv.phases j
  rw [failing] at ok
  have advance : Advance jobs order initial s (s.to j .aborted) j .aborted none := by
    refine ⟨rfl, by simp [State.to], fun _ => le_refl _, fun _ => id, by simp [failing, Phase.Over],
      inv.behind j (by simp [failing]), nofun, ?_⟩
    rwa [PhaseOk, List.take_length] at ok
  exact inv.advance advance (fun k v => Or.inl) (inv.quiet j rfl)

/-- Every step keeps what holds. -/
theorem Inv.step (inv : Inv jobs order initial s) (step : Step jobs order s s') :
    Inv jobs order initial s' := by
  have turn (j : J) (moved : s.phase j ≠ .waiting) := inv.behind j moved
  cases step with
  | start j waiting turn reached => exact inv.start waiting turn reached
  | refuse j waiting turn => exact inv.fails (by simp [waiting, Phase.Over]) turn
  | act j n working next => exact inv.act working next
  | stop j n working => exact inv.fails (by simp [working, Phase.Over]) (turn j (by simp [working]))
  | worked j working => exact inv.worked working
  | signal j n w signalling next grows => exact inv.signal signalling next grows
  | giveUp j n signalling =>
      exact inv.fails (by simp [signalling, Phase.Over]) (turn j (by simp [signalling]))
  | finish j signalling => exact inv.finish signalling
  | fail j n w failing next => exact inv.fail failing next
  | abort j failing => exact inv.abort failing

end

/-- Job `i` is over with its work before job `j` starts: `j` comes later in order, or waits
for a value that nothing signals but `i`, and jobs that come after `i`. -/
inductive Ordered (jobs : J → Job K V A) (order : J → J → Prop) (initial : K → V) : J → J → Prop
  | order {i j : J} (earlier : order i j) : Ordered jobs order initial i j
  | fence {i j : J} (k : K) (v : V) (waits : (k, v) ∈ (jobs j).waits) (fresh : ¬ v ≤ initial k)
      (only : ∀ i' v', (k, v') ∈ (jobs i').signals → v ≤ v' → i' ≠ i →
        Ordered jobs order initial i i') : Ordered jobs order initial i j
  | trans {i j l : J} (first : Ordered jobs order initial i j)
      (second : Ordered jobs order initial j l) : Ordered jobs order initial i l

section

variable {jobs : J → Job K V A} {order order' : J → J → Prop} {initial : K → V} {s : State J K V}

omit [DecidableEq J] [DecidableEq K] in
theorem started_of_worked {history : List (J × Event)}
    (justified : Always (Justified jobs initial) history) {past later : List (J × Event)}
    (split : history = past ++ later) {i : J} (there : (i, .worked) ∈ past) :
    ∃ before after, past = before ++ (i, .started) :: after := by
  obtain ⟨before, after, rfl⟩ := List.append_of_mem there
  have started : (i, .started) ∈ before :=
    justified before (i, .worked) (after ++ later) (by rw [split]; simp)
  obtain ⟨first, rest, rfl⟩ := List.append_of_mem started
  exact ⟨first, rest ++ (i, .worked) :: after, by simp⟩

omit [DecidableEq K] in
theorem Ordered.before (inv : Inv jobs order initial s) {i j : J}
    (ordered : Ordered jobs order' initial i j)
    (turns : ∀ i j, order' i j → order i j ∧ s.phase i ≠ .aborted) {past later : List (J × Event)}
    (split : s.history = past ++ (j, .started) :: later) : (i, .worked) ∈ past := by
  induction ordered generalizing past later with
  | order earlier =>
      obtain ⟨before, alive⟩ := turns _ _ earlier
      exact (inv.turned past _ later split rfl _ before).resolve_right alive
  | @fence i j k v waits fresh only ih =>
      have reached := inv.justified past _ later split (k, v) waits
      obtain ⟨i', v', signal, above, worked⟩ := reached.resolve_left fresh
      by_cases same : i' = i
      · exact same ▸ worked
      · obtain ⟨before, after, rfl⟩ := started_of_worked inv.justified split worked
        have earlier := ih i' v' signal above same (by rw [split]; simp; rfl)
        exact List.mem_append_left _ earlier
  | trans first second ih ih' =>
      obtain ⟨before, after, rfl⟩ := started_of_worked inv.justified split (ih' split)
      have earlier := ih (by rw [split]; simp; rfl)
      exact List.mem_append_left _ earlier

omit [DecidableEq J] in
theorem acts_split {history : List (J × Event)} {x y : J × Nat}
    (sub : [x, y].Sublist (acts history)) :
    ∃ past rest, history = past ++ (x.1, .acted x.2) :: rest ∧ (y.1, .acted y.2) ∈ rest := by
  induction history with
  | nil => cases sub
  | cons entry rest ih =>
      have later (inRest : [x, y].Sublist (acts rest)) : ∃ past rest', entry :: rest =
          past ++ (x.1, .acted x.2) :: rest' ∧ (y.1, .acted y.2) ∈ rest' := by
        obtain ⟨past, rest', rfl, there⟩ := ih inRest
        exact ⟨entry :: past, rest', rfl, there⟩
      obtain ⟨i, event⟩ := entry
      cases event with
      | started | worked => exact later sub
      | acted n =>
          cases sub with
          | cons _ inRest => exact later inRest
          | cons_cons _ inRest =>
              refine ⟨[], rest, rfl, ?_⟩
              have there := List.singleton_sublist.mp inRest
              obtain ⟨⟨i', event'⟩, member, found⟩ := List.mem_filterMap.mp there
              cases event' with
              | started | worked => cases found
              | acted n' =>
                  cases found
                  exact member

omit [DecidableEq K] in
/-- What comes later in order does nothing before. -/
theorem Ordered.acts (inv : Inv jobs order initial s) {i j : J}
    (ordered : Ordered jobs order' initial i j)
    (turns : ∀ i j, order' i j → order i j ∧ s.phase i ≠ .aborted) (m n : Nat) :
    ¬ [(j, n), (i, m)].Sublist (acts s.history) := by
  intro sub
  obtain ⟨past, rest, split, later⟩ := acts_split sub
  obtain ⟨started, -⟩ := inv.justified past _ rest split
  obtain ⟨before, after, rfl⟩ := List.append_of_mem started
  have worked := ordered.before inv turns (by rw [split]; simp; rfl)
  obtain ⟨middle, end_, rfl⟩ := List.append_of_mem later
  have again := inv.justified (before ++ (j, .started) :: after ++ (j, .acted n) :: middle)
    (i, .acted m) end_ (by rw [split]; simp)
  exact again.2 (by simp [worked])

omit [DecidableEq K] in
theorem acts_finished (inv : Inv jobs order initial s) {j : J} (finished : s.phase j = .finished) :
    (acts s.history).filter (·.1 = j) = steps j (jobs j).work.length := by
  have ok := inv.phases j
  rw [finished] at ok
  exact ok.2.1

omit [DecidableEq J] [DecidableEq K] [Preorder V] in
theorem steps_sublist {j : J} {l m n : Nat} (sub : [(j, m), (j, n)].Sublist (steps j l)) :
    m < n ∧ n < l := by
  have sorted : ((List.range l).map fun n => (j, n)).Pairwise fun x y => x.2 < y.2 :=
    List.pairwise_map.mpr List.pairwise_lt_range
  have pair := sorted.sublist sub
  refine ⟨by simpa using pair, ?_⟩
  have member : (j, n) ∈ steps j l := sub.subset (by simp)
  simpa [steps] using member

omit [DecidableEq K] in
/-- Runs in which every job finishes do the same, in any order of the steps of jobs
that the order and the semaphores leave open, if those steps commute. -/
theorem finished_agree {M : Type} (apply : M → J × Nat → M) {s s' : State J K V}
    (inv : Inv jobs order initial s) (inv' : Inv jobs order initial s')
    (finished : ∀ j, s.phase j = .finished) (finished' : ∀ j, s'.phase j = .finished)
    (apart : ∀ i j, i ≠ j → Ordered jobs order initial i j ∨ Ordered jobs order initial j i ∨
      ∀ m < (jobs i).work.length, ∀ n < (jobs j).work.length, ∀ mem,
        apply (apply mem (i, m)) (j, n) = apply (apply mem (j, n)) (i, m)) (mem : M) :
    (acts s.history).foldl apply mem = (acts s'.history).foldl apply mem := by
  have same (j : J) : (acts s.history).filter (·.1 = j) = (acts s'.history).filter (·.1 = j) :=
    (acts_finished inv (finished j)).trans (acts_finished inv' (finished' j)).symm
  have inside {i : J} {m : Nat} (there : (i, m) ∈ acts s.history) : m < (jobs i).work.length := by
    have kept : (i, m) ∈ (acts s.history).filter (·.1 = i) := by simpa using there
    rw [acts_finished inv (finished i)] at kept
    simpa [steps] using kept
  apply Reordering.foldl_eq_of_reorder apply _ _ (Reordering.perm_of_filter Prod.fst _ _ same)
  rintro ⟨i, m⟩ ⟨j, n⟩ sub sub'
  by_cases one : i = j
  · subst one
    have first := sub.filter (·.1 = i)
    have second := sub'.filter (·.1 = i)
    rw [acts_finished inv (finished i)] at first
    rw [acts_finished inv' (finished' i)] at second
    have before := (steps_sublist (by simpa using first)).1
    have after := (steps_sublist (by simpa using second)).1
    omega
  · rcases apart i j one with ordered | ordered | commute
    · exact absurd sub' (ordered.acts inv' (fun i j before => ⟨before, by simp [finished' i]⟩) m n)
    · exact absurd sub (ordered.acts inv (fun i j before => ⟨before, by simp [finished i]⟩) n m)
    · exact fun mem => commute m (inside (sub.subset (by simp))) n
        (inside (sub.subset (by simp))) mem

/-- The job has a step, whatever else happens. A wait is over once its semaphores have
reached their values, or one of them has failed. -/
def Enabled (jobs : J → Job K V A) (order : J → J → Prop) (s : State J K V) (j : J) : Prop :=
  match s.phase j with
  | .waiting => (∀ i, order i j → (s.phase i).Over) ∧
      ((∀ w ∈ (jobs j).waits, w.2 ≤ s.value w.1) ∨ ∃ w ∈ (jobs j).waits, s.failed w.1)
  | phase => ¬ phase.Over

omit [DecidableEq K] in
/-- Jobs that wait only for what earlier jobs signal never wait for each other. -/
theorem exists_enabled (inv : Inv jobs order initial s) (rank : J → Nat)
    (turns : ∀ i j, order i j → rank i < rank j)
    (signalled : ∀ j, ∀ w ∈ (jobs j).waits, w.2 ≤ initial w.1 ∨
      ∃ i v, (w.1, v) ∈ (jobs i).signals ∧ w.2 ≤ v ∧ rank i < rank j)
    (j : J) (left : ¬ (s.phase j).Over) : ∃ i, Enabled jobs order s i := by
  induction bound : rank j using Nat.strongRecOn generalizing j with
  | ind _ ih =>
      subst bound
      by_cases earlier : ∃ i, rank i < rank j ∧ ¬ (s.phase i).Over
      · obtain ⟨i, below, leftOver⟩ := earlier
        exact ih (rank i) below i leftOver rfl
      · have ended (i : J) (below : rank i < rank j) : (s.phase i).Over :=
          Classical.byContradiction fun leftOver => earlier ⟨i, below, leftOver⟩
        refine ⟨j, ?_⟩
        unfold Enabled
        split
        · refine ⟨fun i before => ended i (turns i j before), ?_⟩
          by_cases failed : ∃ w ∈ (jobs j).waits, s.failed w.1
          · exact Or.inr failed
          · left
            intro w member
            rcases signalled j w member with first | ⟨i, v, signal, above, below⟩
            · exact first.trans (inv.grown w.1)
            · have done := ended i below
              have ok := inv.phases i
              cases phase : s.phase i with
              | finished =>
                  rw [phase] at ok
                  exact above.trans (ok.2.2 _ signal)
              | aborted =>
                  rw [phase] at ok
                  exact absurd ⟨w, member, ok (w.1, v) signal⟩ failed
              | waiting | working | signalling | failing =>
                  rw [phase] at done
                  exact done.elim
        · exact left

end

end Fences
