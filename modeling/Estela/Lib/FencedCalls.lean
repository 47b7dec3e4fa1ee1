import Estela.Lib.CallProgram
import Estela.Lib.Fences
import Mathlib.Data.DFinsupp.WellFounded

set_option autoImplicit false

/- Programs that are jobs ordered by semaphores: what each of their calls may be at
each point, and what any number of them does when their calls are interleaved. -/
namespace FencedCalls

open CallProgram (Prog)
open Fences
open Relation (ReflTransGen)

variable {C : Type} {R : C → Type} {α J K V A M W : Type}

/-- What a call means for the semaphores. -/
inductive Kind (K V A : Type)
  | wait (waits : List (K × V))
  | act (a : A)
  | signal (w : K × V)
  | fail (k : K)
  | other

/-- What the calls mean, and which answers and results are a success. -/
structure Meaning (C : Type) (R : C → Type) (α K V A : Type) where
  kind : C → Kind K V A
  ok : (c : C) → R c → Bool
  done : α → Bool

/-- What is left of a program is what is left of a job in this phase. -/
def Follows (meaning : Meaning C R α K V A) (job : Job K V A) : Prog C R α → Phase → Prop
  | .ret value, phase => if meaning.done value
      then phase = .signalling job.signals.length ∨
        phase = .working job.work.length ∧ job.signals = []
      else phase = .failing job.signals.length ∨ (∃ m, phase = .working m) ∧ job.signals = []
  | .call c next, phase => match meaning.kind c with
    | .wait waits => phase = .waiting ∧ waits = job.waits ∧ ∀ answer,
        Follows meaning job (next answer) (if meaning.ok c answer then .working 0 else .failing 0)
    | .act a => ∃ n, phase = .working n ∧ job.work[n]? = some a ∧ ∀ answer,
        Follows meaning job (next answer)
          (if meaning.ok c answer then .working (n + 1) else .failing 0)
    | .signal w => ∃ n, (phase = .signalling n ∨ phase = .working job.work.length ∧ n = 0) ∧
        job.signals[n]? = some w ∧ ∀ answer, Follows meaning job (next answer)
          (if meaning.ok c answer then .signalling (n + 1) else .failing 0)
    | .fail k => ∃ n v, (phase = .failing n ∨ (∃ m, phase = .working m) ∧ n = 0) ∧
        job.signals[n]? = some (k, v) ∧ ∀ answer, Follows meaning job (next answer)
          (.failing (n + 1))
    | .other => ∀ answer, Follows meaning job (next answer) phase

/-- What counts of the world the programs run in. -/
structure View (K V M : Type) where
  value : K → V
  failed : K → Prop
  memory : M

variable [DecidableEq J] [DecidableEq K] [Preorder V]

/-- The world goes by what the calls mean. Nothing is said of what a step of work
leaves that fails. -/
structure Obeys (meaning : Meaning C R α K V A) (effect : A → M → M)
    (step : W → (c : C) → R c → W → Prop) (view : W → View K V M) : Prop where
  wait : ∀ w c answer w' waits, step w c answer w' → meaning.kind c = .wait waits →
    view w' = view w ∧ (meaning.ok c answer → ∀ x ∈ waits, x.2 ≤ (view w).value x.1)
  act : ∀ w c answer w' a, step w c answer w' → meaning.kind c = .act a →
    (view w').value = (view w).value ∧ (view w').failed = (view w).failed ∧
      (meaning.ok c answer → (view w').memory = effect a (view w).memory)
  signal : ∀ w c answer w' x, step w c answer w' → meaning.kind c = .signal x →
    if meaning.ok c answer
    then (view w).value x.1 ≤ x.2 ∧
      view w' = { view w with value := Function.update (view w).value x.1 x.2 }
    else view w' = view w
  fail : ∀ w c answer w' k, step w c answer w' → meaning.kind c = .fail k →
    view w' = { view w with failed := fun k' => k' = k ∨ (view w).failed k' }
  other : ∀ w c answer w', step w c answer w' → meaning.kind c = .other → view w' = view w

/-- Programs that run together, and the steps of work they have tried. -/
structure Pool (C : Type) (R : C → Type) (α J A W : Type) where
  progs : J → Prog C R α
  world : W
  log : List (J × A × Bool)

/-- A call of one of them, whose turn it is once those before it have returned. -/
inductive Move (meaning : Meaning C R α K V A) (order : J → J → Prop)
    (step : W → (c : C) → R c → W → Prop) : Pool C R α J A W → Pool C R α J A W → Prop
  | call (p : Pool C R α J A W) (j : J) (c : C) (next : R c → Prog C R α)
      (here : p.progs j = .call c next) (turn : ∀ i, order i j → ∃ value, p.progs i = .ret value)
      (answer : R c) (w : W) (move : step p.world c answer w) :
      Move meaning order step p
        { progs := Function.update p.progs j (next answer)
          world := w
          log := match meaning.kind c with
            | .act a => p.log ++ [(j, a, meaning.ok c answer)]
            | _ => p.log }

/-- What a job has tried, and with what success. -/
def tried (log : List (J × A × Bool)) (j : J) : List (A × Bool) :=
  (log.filter (·.1 = j)).map Prod.snd

/-- Steps of work that all succeeded. -/
def succeeded (work : List A) : List (A × Bool) := work.map (·, true)

/-- A phase that nothing has failed in. -/
def Clean : Phase → Prop
  | .failing _ | .aborted => False
  | _ => True

def LogOk (job : Job K V A) (tries : List (A × Bool)) : Phase → Prop
  | .waiting => tries = []
  | .working n => tries = succeeded (job.work.take n)
  | .signalling _ | .finished => tries = succeeded job.work
  | .failing _ | .aborted => True

/-- A step of work, by its number in its job. -/
def perform (jobs : J → Job K V A) (effect : A → M → M) (memory : M) (x : J × Nat) : M :=
  ((jobs x.1).work[x.2]?).elim memory fun a => effect a memory

/-- The memory after a move of job `j` that logs an event, if any. -/
def after (jobs : J → Job K V A) (effect : A → M → M) (memory : M) (j : J) : Option Event → M
  | some (.acted n) => perform jobs effect memory (j, n)
  | _ => memory

/-- A program that has returned has a job that is over. -/
def Doing (meaning : Meaning C R α K V A) (job : Job K V A) : Prog C R α → Phase → Prop
  | .ret value, phase => phase = if meaning.done value then .finished else .aborted
  | .call c next, phase => Follows meaning job (.call c next) phase

/-- A pool, and the jobs it stands for, but for what is left of the program of one. -/
structure Between (jobs : J → Job K V A) (effect : A → M → M) (view : W → View K V M)
    (memory : M) (doing : J → Prog C R α → Phase → Prop) (p : Pool C R α J A W)
    (s : State J K V) : Prop where
  value : (view p.world).value = s.value
  failed : (view p.world).failed = s.failed
  memory : (∀ j, Clean (s.phase j)) →
    (view p.world).memory = (acts s.history).foldl (perform jobs effect) memory
  doing : ∀ j, doing j (p.progs j) (s.phase j)
  logs : ∀ j, LogOk (jobs j) (tried p.log j) (s.phase j)
  worked : ∀ j, (j, .worked) ∈ s.history → tried p.log j = succeeded (jobs j).work
  started : ∀ j, tried p.log j ≠ [] → (j, .started) ∈ s.history

/-- A pool, and the jobs it stands for. -/
def Related (meaning : Meaning C R α K V A) (jobs : J → Job K V A) (effect : A → M → M)
    (view : W → View K V M) (memory : M) : Pool C R α J A W → State J K V → Prop :=
  Between jobs effect view memory fun j => Doing meaning (jobs j)

section

variable {meaning : Meaning C R α K V A} {jobs : J → Job K V A} {order : J → J → Prop}
  {effect : A → M → M} {step : W → (c : C) → R c → W → Prop} {view : W → View K V M} {memory : M}
  {p : Pool C R α J A W} {s s' : State J K V}

/-- What a move of job `j` does to the jobs, and what has to hold of it. -/
structure Turn (jobs : J → Job K V A) (effect : A → M → M) (view : W → View K V M)
    (doing : J → Prog C R α → Phase → Prop) (s s' : State J K V) (j : J) (phase : Phase)
    (event : Option Event) (p p' : Pool C R α J A W) (prog : Prog C R α) : Prop where
  moved : s'.phase = Function.update s.phase j phase
  history : s'.history = s.history ++ event.toList.map (j, ·)
  progs : p'.progs = Function.update p.progs j prog
  value : (view p'.world).value = s'.value
  failed : (view p'.world).failed = s'.failed
  clean : Clean phase → Clean (s.phase j)
  memory : Clean phase → (view p'.world).memory = after jobs effect (view p.world).memory j event
  others : ∀ i ≠ j, tried p'.log i = tried p.log i
  doing : doing j prog phase
  log : LogOk (jobs j) (tried p'.log j) phase
  worked : (j, .worked) ∈ s'.history → tried p'.log j = succeeded (jobs j).work
  started : tried p'.log j ≠ [] → (j, .started) ∈ s'.history

omit [DecidableEq K] [Preorder V] in
theorem Turn.between {doing doing' : J → Prog C R α → Phase → Prop} {j : J} {phase : Phase}
    {event : Option Event} {p' : Pool C R α J A W} {prog : Prog C R α}
    (between : Between jobs effect view memory doing p s)
    (turn : Turn jobs effect view doing' s s' j phase event p p' prog)
    (same : ∀ i ≠ j, ∀ prog phase, doing i prog phase → doing' i prog phase) :
    Between jobs effect view memory doing' p' s' := by
  have mem (i : J) (other : i ≠ j) (e : Event) : (i, e) ∈ s'.history ↔ (i, e) ∈ s.history := by
    simp [turn.history, Ne.symm other]
  refine ⟨turn.value, turn.failed, fun clean => ?_, fun i => ?_, fun i => ?_, fun i there => ?_,
    fun i some_ => ?_⟩
  · have now := clean j
    rw [turn.moved, Function.update_self] at now
    have before : ∀ i, Clean (s.phase i) := by
      intro i
      by_cases same : i = j
      · exact same ▸ turn.clean now
      · have kept := clean i
        rwa [turn.moved, Function.update_of_ne same] at kept
    rw [turn.memory now, turn.history, between.memory before]
    cases event with
    | none => simp [after]
    | some e =>
        rw [Option.toList_some, List.map_singleton, acts_snoc, List.foldl_append]
        cases e <;> rfl
  · by_cases one : i = j
    · subst one
      rw [turn.progs, turn.moved, Function.update_self, Function.update_self]
      exact turn.doing
    · rw [turn.progs, turn.moved, Function.update_of_ne one, Function.update_of_ne one]
      exact same i one _ _ (between.doing i)
  · by_cases same : i = j
    · subst same
      rw [turn.moved, Function.update_self]
      exact turn.log
    · rw [turn.moved, Function.update_of_ne same, turn.others i same]
      exact between.logs i
  · by_cases same : i = j
    · subst same
      exact turn.worked there
    · rw [turn.others i same]
      exact between.worked i ((mem i same _).mp there)
  · by_cases same : i = j
    · subst same
      exact turn.started some_
    · rw [turn.others i same] at some_
      exact (mem i same _).mpr (between.started i some_)

/-- The relation while job `j` may have returned without being over. -/
def Returning (meaning : Meaning C R α K V A) (jobs : J → Job K V A) (j : J) (i : J)
    (prog : Prog C R α) (phase : Phase) : Prop :=
  if i = j then Follows meaning (jobs i) prog phase else Doing meaning (jobs i) prog phase

/-- A job that gives its work up without a call is failing all the same. -/
theorem exists_failing (order : J → J → Prop) {j : J} {n : Nat}
    (phase : s.phase j = .failing n ∨ (∃ m, s.phase j = .working m) ∧ n = 0) :
    ∃ s', ReflTransGen (Step jobs order) s s' ∧
      s'.phase = Function.update s.phase j (.failing n) ∧ s'.phase j = .failing n ∧
      s'.history = s.history ∧ s'.value = s.value ∧ s'.failed = s.failed := by
  rcases phase with failing | ⟨⟨m, working⟩, rfl⟩
  · exact ⟨s, .refl, by rw [← failing, Function.update_eq_self], failing, rfl, rfl, rfl⟩
  · exact ⟨_, .single (.stop s j m working), rfl, by simp [State.to], rfl, rfl, rfl⟩

/-- A job whose program has returned is over. -/
theorem Between.settle {j : J} (order : J → J → Prop)
    (between : Between jobs effect view memory (Returning meaning jobs j) p s) :
    ∃ s', ReflTransGen (Step jobs order) s s' ∧ Related meaning jobs effect view memory p s' := by
  have own := between.doing j
  rw [Returning, if_pos rfl] at own
  have others : ∀ i ≠ j, ∀ prog phase, Returning meaning jobs j i prog phase →
      Doing meaning (jobs i) prog phase := fun i other prog phase doing => by
    rwa [Returning, if_neg other] at doing
  cases here : p.progs j with
  | call c next =>
      refine ⟨s, .refl, { between with doing := fun i => ?_ }⟩
      by_cases same : i = j
      · subst same
        rw [here] at own ⊢
        exact own
      · exact others i same _ _ (between.doing i)
  | ret value =>
      rw [here, Follows] at own
      have log := between.logs j
      have ends {s' : State J K V} {phase : Phase} {event : Option Event}
          (moved : s'.phase = Function.update s.phase j phase)
          (history : s'.history = s.history ++ event.toList.map (j, ·))
          (plain : event = none ∨ event = some .worked) (values : s'.value = s.value)
          (fails : s'.failed = s.failed) (clean : Clean phase → Clean (s.phase j))
          (doing : Doing meaning (jobs j) (.ret value) phase)
          (now : LogOk (jobs j) (tried p.log j) phase)
          (worked : event = some .worked → tried p.log j = succeeded (jobs j).work) :
          Related meaning jobs effect view memory p s' := by
        have turn : Turn jobs effect view (fun i => Doing meaning (jobs i)) s s' j phase event p p
            (.ret value) := by
          refine ⟨moved, history, by rw [← here, Function.update_eq_self],
            between.value.trans values.symm, between.failed.trans fails.symm, clean, fun _ => ?_,
            fun _ _ => rfl, doing, now, fun there => ?_, fun some_ => ?_⟩
          · rcases plain with rfl | rfl <;> rfl
          · rw [history, List.mem_append] at there
            rcases there with old | new
            · exact between.worked j old
            · rcases plain with rfl | rfl
              · cases new
              · exact worked rfl
          · rw [history]
            exact List.mem_append_left _ (between.started j some_)
        exact turn.between between others
      split at own
      · rename_i done
        have result : Doing meaning (jobs j) (.ret value : Prog C R α) .finished := by
          rw [Doing, if_pos done]
        rcases own with signalling | ⟨working, none_⟩
        · rw [signalling] at log
          exact ⟨_, .single (.finish s j signalling), ends rfl (by simp [State.to]) (Or.inl rfl) rfl
            rfl (fun _ => by simp [signalling, Clean]) result log nofun⟩
        · rw [working, LogOk, List.take_length] at log
          have worked : Step jobs order s ((s.to j (.signalling 0)).log j .worked) :=
            .worked s j working
          have finish : Step jobs order _
              (((s.to j (.signalling 0)).log j .worked).to j .finished) :=
            .finish _ j (by simp [State.to, State.log, none_])
          exact ⟨_, (ReflTransGen.single worked).tail finish,
            ends (by simp [State.to, State.log]) rfl
            (Or.inr rfl) rfl rfl (fun _ => by simp [working, Clean]) result log fun _ => log⟩
      · rename_i done
        have result : Doing meaning (jobs j) (.ret value : Prog C R α) .aborted := by
          rw [Doing, if_neg done]
        obtain ⟨s', steps, moved, failing, history, value, failed⟩ :=
          exists_failing (n := (jobs j).signals.length) order
            (own.imp_right fun stopped => ⟨stopped.1, by simp [stopped.2]⟩)
        exact ⟨_, steps.tail (.abort s' j failing), ends (by simp [State.to, moved])
          (by simp [State.to, history]) (Or.inl rfl) value failed False.elim result trivial nofun⟩

omit [DecidableEq K] [Preorder V] in
theorem over_of_ret (related : Related meaning jobs effect view memory p s) {i : J}
    (returned : ∃ value, p.progs i = .ret value) : (s.phase i).Over := by
  obtain ⟨value, here⟩ := returned
  have doing := related.doing i
  rw [here, Doing] at doing
  rw [doing]
  split <;> trivial

omit [DecidableEq K] [Preorder V] in
theorem tried_snoc (log : List (J × A × Bool)) (i j : J) (try_ : A × Bool) :
    tried (log ++ [(j, try_)]) i = if i = j then tried log i ++ [try_] else tried log i := by
  unfold tried
  by_cases same : i = j
  · simp [same]
  · simp [same, Ne.symm same]

/-- A call in terms of what it means. -/
structure Calling (meaning : Meaning C R α K V A) (jobs : J → Job K V A) (effect : A → M → M)
    (order : J → J → Prop) (step : W → (c : C) → R c → W → Prop) (view : W → View K V M)
    (memory : M) (initial : K → V) (p : Pool C R α J A W) (s : State J K V) (j : J) (c : C)
    (next : R c → Prog C R α) (answer : R c) (w : W) : Prop where
  related : Related meaning jobs effect view memory p s
  inv : Inv jobs order initial s
  here : p.progs j = .call c next
  turn : ∀ i, order i j → (s.phase i).Over
  move : step p.world c answer w

section

variable {initial : K → V} {j : J} {c : C} {next : R c → Prog C R α} {answer : R c} {w : W}

omit [DecidableEq K] in
theorem Calling.own
    (calling : Calling meaning jobs effect order step view memory initial p s j c next answer w) :
    Follows meaning (jobs j) (.call c next) (s.phase j) := by
  have doing := calling.related.doing j
  rwa [calling.here] at doing

omit [DecidableEq K] in
/-- A call that is no step of work. -/
theorem Calling.plain
    (calling : Calling meaning jobs effect order step view memory initial p s j c next answer w)
    {phase : Phase} {event : Option Event} (moved : s'.phase = Function.update s.phase j phase)
    (history : s'.history = s.history ++ event.toList.map (j, ·))
    (plain : event = none ∨ event = some .started ∨ event = some .worked)
    (value : (view w).value = s'.value) (failed : (view w).failed = s'.failed)
    (same : (view w).memory = (view p.world).memory)
    (clean : Clean phase → Clean (s.phase j))
    (follows : Follows meaning (jobs j) (next answer) phase)
    (log : LogOk (jobs j) (tried p.log j) phase)
    (worked : event = some .worked → tried p.log j = succeeded (jobs j).work) :
    Between jobs effect view memory (Returning meaning jobs j)
      ⟨Function.update p.progs j (next answer), w, p.log⟩ s' := by
  have turn : Turn jobs effect view (Returning meaning jobs j) s s' j phase event p
      ⟨Function.update p.progs j (next answer), w, p.log⟩ (next answer) := by
    refine ⟨moved, history, rfl, value, failed, clean, fun _ => ?_, fun _ _ => rfl, ?_, log,
      fun there => ?_, fun some_ => ?_⟩
    · rcases plain with rfl | rfl | rfl <;> exact same
    · rwa [Returning, if_pos rfl]
    · rw [history, List.mem_append] at there
      rcases there with old | new
      · exact calling.related.worked j old
      · rcases plain with rfl | rfl | rfl
        · cases new
        · simp at new
        · exact worked rfl
    · rw [history]
      exact List.mem_append_left _ (calling.related.started j some_)
  refine turn.between calling.related fun i other prog phase doing => ?_
  rwa [Returning, if_neg other]

theorem Calling.wait
    (calling : Calling meaning jobs effect order step view memory initial p s j c next answer w)
    (obeys : Obeys meaning effect step view) {waits : List (K × V)}
    (kind : meaning.kind c = .wait waits) :
    ∃ s', ReflTransGen (Step jobs order) s s' ∧
      Between jobs effect view memory (Returning meaning jobs j)
        ⟨Function.update p.progs j (next answer), w, p.log⟩ s' := by
  have own := calling.own
  simp only [Follows, kind] at own
  obtain ⟨waiting, rfl, rest⟩ := own
  obtain ⟨same, reached⟩ := obeys.wait _ _ _ _ _ calling.move kind
  have value := (congrArg View.value same).trans calling.related.value
  have failed := (congrArg View.failed same).trans calling.related.failed
  have memory := congrArg View.memory same
  have log := calling.related.logs j
  have follows := rest answer
  rw [waiting] at log
  cases success : meaning.ok c answer with
  | true =>
      rw [success] at follows reached
      have there := reached rfl
      rw [calling.related.value] at there
      exact ⟨_, .single (.start s j waiting calling.turn there),
        calling.plain rfl rfl (Or.inr (Or.inl rfl)) value failed memory
          (fun _ => by simp [waiting, Clean]) follows (by simpa [LogOk, succeeded] using log) nofun⟩
  | false =>
      rw [success] at follows
      exact ⟨_, .single (.refuse s j waiting calling.turn),
        calling.plain rfl (by simp [State.to]) (Or.inl rfl) value failed memory
          (fun clean => clean.elim) follows trivial nofun⟩

theorem Calling.act
    (calling : Calling meaning jobs effect order step view memory initial p s j c next answer w)
    (obeys : Obeys meaning effect step view) {a : A} (kind : meaning.kind c = .act a) :
    ∃ s', ReflTransGen (Step jobs order) s s' ∧
      Between jobs effect view memory (Returning meaning jobs j)
        ⟨Function.update p.progs j (next answer), w,
          p.log ++ [(j, a, meaning.ok c answer)]⟩ s' := by
  have own := calling.own
  simp only [Follows, kind] at own
  obtain ⟨n, working, isNext, rest⟩ := own
  obtain ⟨values, fails, effects⟩ := obeys.act _ _ _ _ _ calling.move kind
  have value := values.trans calling.related.value
  have failed := fails.trans calling.related.failed
  have log := calling.related.logs j
  have follows := rest answer
  have ok := calling.inv.phases j
  rw [working] at log ok
  have others : ∀ i ≠ j, tried (p.log ++ [(j, a, meaning.ok c answer)]) i = tried p.log i :=
    fun i other => by rw [tried_snoc, if_neg other]
  have inside : n < (jobs j).work.length := (List.getElem?_eq_some_iff.mp isNext).1
  have kept : ∀ i ≠ j, ∀ (prog : Prog C R α) phase, Doing meaning (jobs i) prog phase →
      Returning meaning jobs j i prog phase := fun i other prog phase doing => by
    rwa [Returning, if_neg other]
  cases success : meaning.ok c answer with
  | true =>
      rw [success] at follows others
      have now : tried (p.log ++ [(j, a, true)]) j = succeeded ((jobs j).work.take (n + 1)) := by
        rw [tried_snoc, if_pos rfl, log, List.take_add_one, isNext]
        simp [succeeded]
      have turn : Turn jobs effect view (Returning meaning jobs j) s
          ((s.to j (.working (n + 1))).log j (.acted n)) j (.working (n + 1)) (some (.acted n)) p
          ⟨Function.update p.progs j (next answer), w, p.log ++ [(j, a, true)]⟩ (next answer) := by
        refine ⟨rfl, rfl, rfl, value, failed, fun _ => by simp [working, Clean],
          fun _ => ?_, others,
          ?_, now, fun there => ?_, fun _ => List.mem_append_left _ ok.1⟩
        · rw [after, perform, isNext, Option.elim_some, effects success]
        · rwa [Returning, if_pos rfl]
        · exact absurd there (by simpa [State.log, State.to] using ok.2.1)
      exact ⟨_, .single (.act s j n working inside), turn.between calling.related kept⟩
  | false =>
      rw [success] at follows others
      have turn : Turn jobs effect view (Returning meaning jobs j) s (s.to j (.failing 0)) j
          (.failing 0) none p
          ⟨Function.update p.progs j (next answer), w, p.log ++ [(j, a, false)]⟩ (next answer) := by
        refine ⟨rfl, by simp [State.to], rfl, value, failed, fun clean => clean.elim,
          fun clean => clean.elim, others, ?_, trivial, fun there => absurd there ok.2.1,
          fun _ => ok.1⟩
        rwa [Returning, if_pos rfl]
      exact ⟨_, .single (.stop s j n working), turn.between calling.related kept⟩

theorem Calling.signal
    (calling : Calling meaning jobs effect order step view memory initial p s j c next answer w)
    (obeys : Obeys meaning effect step view) {x : K × V} (kind : meaning.kind c = .signal x) :
    ∃ s', ReflTransGen (Step jobs order) s s' ∧
      Between jobs effect view memory (Returning meaning jobs j)
        ⟨Function.update p.progs j (next answer), w, p.log⟩ s' := by
  have own := calling.own
  simp only [Follows, kind] at own
  obtain ⟨n, phase, isNext, rest⟩ := own
  have obeyed := obeys.signal _ _ _ _ _ calling.move kind
  have log := calling.related.logs j
  have follows := rest answer
  -- Whether the work is over already, or only now, the log is that of all of it.
  have whole : tried p.log j = succeeded (jobs j).work := by
    rcases phase with signalling | ⟨working, -⟩
    · rwa [signalling] at log
    · rwa [working, LogOk, List.take_length] at log
  have clean : Clean (s.phase j) := by
    rcases phase with signalling | ⟨working, -⟩
    · rw [signalling]
      trivial
    · rw [working]
      trivial
  obtain ⟨s', steps, event, plain, moved, history, value, failed, signalling⟩ :
      ∃ s', ReflTransGen (Step jobs order) s s' ∧ ∃ event, (event = none ∨ event = some .worked) ∧
        s'.phase = Function.update s.phase j (.signalling n) ∧
        s'.history = s.history ++ event.toList.map (j, ·) ∧ s'.value = s.value ∧
        s'.failed = s.failed ∧ s'.phase j = .signalling n := by
    rcases phase with signalling | ⟨working, rfl⟩
    · exact ⟨s, .refl, none, Or.inl rfl, by rw [← signalling, Function.update_eq_self],
        by simp, rfl,
        rfl, signalling⟩
    · exact ⟨_, .single (.worked s j working), some .worked, Or.inr rfl, rfl, rfl, rfl, rfl,
        by simp [State.to, State.log]⟩
  have plain' : event = none ∨ event = some .started ∨ event = some .worked :=
    plain.imp_right Or.inr
  cases success : meaning.ok c answer with
  | true =>
      rw [success] at follows
      rw [if_pos success] at obeyed
      obtain ⟨grows, changed⟩ := obeyed
      rw [calling.related.value, ← value] at grows
      refine ⟨_, steps.tail (.signal s' j n x signalling isNext grows),
        calling.plain ?_ history plain' ?_ ?_ (by rw [changed]) (fun _ => clean)
          follows whole fun _ => whole⟩
      · simp [State.to, State.reach, moved]
      · rw [changed, calling.related.value, ← value]
        rfl
      · rw [changed]
        exact calling.related.failed.trans failed.symm
  | false =>
      rw [success] at follows
      rw [if_neg (by simp [success])] at obeyed
      refine ⟨_, steps.tail (.giveUp s' j n signalling), calling.plain ?_ history plain' ?_ ?_
        (congrArg View.memory obeyed) (fun _ => clean) follows trivial fun _ => whole⟩
      · simp [State.to, moved]
      · rw [obeyed]
        exact calling.related.value.trans value.symm
      · rw [obeyed]
        exact calling.related.failed.trans failed.symm

theorem Calling.fail
    (calling : Calling meaning jobs effect order step view memory initial p s j c next answer w)
    (obeys : Obeys meaning effect step view) {k : K} (kind : meaning.kind c = .fail k) :
    ∃ s', ReflTransGen (Step jobs order) s s' ∧
      Between jobs effect view memory (Returning meaning jobs j)
        ⟨Function.update p.progs j (next answer), w, p.log⟩ s' := by
  have own := calling.own
  simp only [Follows, kind] at own
  obtain ⟨n, v, phase, isNext, rest⟩ := own
  obtain ⟨s', steps, moved, failing, history, value, failed⟩ := exists_failing order phase
  have changed := obeys.fail _ _ _ _ _ calling.move kind
  refine ⟨_, steps.tail (.fail s' j n (k, v) failing isNext), calling.plain
    (by simp [State.to, State.fail, moved]) (by simp [State.to, State.fail, history]) (Or.inl rfl)
    ?_ ?_ (by rw [changed]) False.elim (rest answer) trivial nofun⟩
  · rw [changed]
    exact calling.related.value.trans value.symm
  · rw [changed, calling.related.failed, ← failed]
    rfl

theorem Calling.other
    (calling : Calling meaning jobs effect order step view memory initial p s j c next answer w)
    (obeys : Obeys meaning effect step view) (kind : meaning.kind c = .other) :
    ∃ s', ReflTransGen (Step jobs order) s s' ∧
      Between jobs effect view memory (Returning meaning jobs j)
        ⟨Function.update p.progs j (next answer), w, p.log⟩ s' := by
  have own := calling.own
  simp only [Follows, kind] at own
  have same := obeys.other _ _ _ _ calling.move kind
  have value := (congrArg View.value same).trans calling.related.value
  have failed := (congrArg View.failed same).trans calling.related.failed
  have memory := congrArg View.memory same
  exact ⟨s, .refl, calling.plain (Function.update_eq_self j s.phase).symm (by simp) (Or.inl rfl)
    value failed memory id (own answer) (calling.related.logs j) nofun⟩

end

/-- Every move of the pool is one of the jobs. -/
theorem Move.simulates {initial : K → V} (obeys : Obeys meaning effect step view)
    (related : Related meaning jobs effect view memory p s) (inv : Inv jobs order initial s)
    {p' : Pool C R α J A W} (move : Move meaning order step p p') :
    ∃ s', ReflTransGen (Step jobs order) s s' ∧
      Related meaning jobs effect view memory p' s' := by
  obtain ⟨j, c, next, here, turn, answer, w, moved⟩ := move
  have calling : Calling meaning jobs effect order step view memory initial p s j c next answer w :=
    ⟨related, inv, here, fun i before => over_of_ret related (turn i before), moved⟩
  obtain ⟨between, first, returning⟩ : ∃ s', ReflTransGen (Step jobs order) s s' ∧
      Between jobs effect view memory (Returning meaning jobs j)
        ⟨Function.update p.progs j (next answer), w, match meaning.kind c with
          | .act a => p.log ++ [(j, a, meaning.ok c answer)]
          | _ => p.log⟩ s' := by
    cases kind : meaning.kind c with
    | wait waits => exact calling.wait obeys kind
    | act a => exact calling.act obeys kind
    | signal x => exact calling.signal obeys kind
    | fail k => exact calling.fail obeys kind
    | other => exact calling.other obeys kind
  obtain ⟨s', second, related'⟩ := returning.settle order
  exact ⟨s', first.trans second, related'⟩

/-- The pool before any call. -/
def Pool.start (progs : J → Prog C R α) (world : W) : Pool C R α J A W := ⟨progs, world, []⟩

omit [DecidableEq K] [Preorder V] in
theorem related_start {progs : J → Prog C R α} (world : W)
    (follow : ∀ j, Follows meaning (jobs j) (progs j) .waiting) :
    Related meaning jobs effect view (view world).memory (Pool.start progs world)
      (start (view world).value (view world).failed) := by
  refine ⟨rfl, rfl, fun _ => rfl, fun j => ?_, fun j => rfl, fun j there => ?_, fun j some_ => ?_⟩
  · have follows := follow j
    cases here : progs j with
    | call c next =>
        rw [here] at follows
        show Doing meaning (jobs j) (progs j) .waiting
        rw [here]
        exact follows
    | ret value =>
        rw [here, Follows] at follows
        split at follows <;> simp at follows
  · exact absurd there List.not_mem_nil
  · exact absurd rfl some_

/-- What the programs do together, from their first calls on. -/
def Reaches (meaning : Meaning C R α K V A) (order : J → J → Prop)
    (step : W → (c : C) → R c → W → Prop) (progs : J → Prog C R α) (world : W)
    (p : Pool C R α J A W) : Prop :=
  ReflTransGen (Move meaning order step) (Pool.start progs world) p

section

variable {progs : J → Prog C R α} {world : W}

omit [DecidableEq K] [Preorder V] in
/-- A program may run with nothing else in between. -/
theorem Reaches.run (reaches : Reaches meaning order step progs world p) {j : J}
    (turn : ∀ i, order i j → ∃ value, p.progs i = .ret value) {w : W} {value : α}
    (run : CallProgram.Run step (p.progs j) p.world value w) :
    ∃ log : List (A × Bool), Reaches meaning order step progs world
      ⟨Function.update p.progs j (.ret value), w, p.log ++ log.map fun a => (j, a)⟩ := by
  generalize here : p.progs j = prog at run
  generalize at_ : p.world = before at run
  induction run generalizing p with
  | ret value state =>
      refine ⟨[], ?_⟩
      rw [← here, ← at_, Function.update_eq_self, List.map_nil, List.append_nil]
      exact reaches
  | @call c next before between after value answer move rest ih =>
      subst at_
      have moved := reaches.tail (Move.call p j c next here turn answer between move)
      obtain ⟨log, after⟩ := ih moved
        (fun i earlier => by
          obtain ⟨value, returned⟩ := turn i earlier
          have other : i ≠ j := by
            rintro rfl
            rw [here] at returned
            cases returned
          exact ⟨value, (Function.update_of_ne other _ _).trans returned⟩)
        (Function.update_self j _ _) rfl
      simp only [Function.update_idem] at after
      cases kind : meaning.kind c with
      | act a =>
          refine ⟨(a, meaning.ok c answer) :: log, ?_⟩
          simpa [kind] using after
      | wait | signal | fail | other =>
          refine ⟨log, ?_⟩
          simpa [kind] using after

theorem Reaches.related (obeys : Obeys meaning effect step view)
    (follow : ∀ j, Follows meaning (jobs j) (progs j) .waiting)
    (reaches : Reaches meaning order step progs world p) :
    ∃ s, Inv jobs order (view world).value s ∧
      Related meaning jobs effect view (view world).memory p s := by
  induction reaches with
  | refl => exact ⟨_, inv_start _, related_start world follow⟩
  | tail _ move ih =>
      obtain ⟨s, inv, related⟩ := ih
      obtain ⟨s', steps, related'⟩ := move.simulates obeys related inv
      refine ⟨s', ?_, related'⟩
      clear related'
      induction steps with
      | refl => exact inv
      | tail _ step ih => exact ih.step step

/-- By the time a program tries anything, what its semaphores order before it is done. -/
theorem Reaches.ordered (obeys : Obeys meaning effect step view)
    (follow : ∀ j, Follows meaning (jobs j) (progs j) .waiting)
    (reaches : Reaches meaning order step progs world p) {i j : J}
    (ordered : Ordered jobs (fun _ _ => False) (view world).value i j)
    (tries : tried p.log j ≠ []) : tried p.log i = succeeded (jobs i).work := by
  obtain ⟨s, inv, related⟩ := reaches.related obeys follow
  obtain ⟨past, later, split⟩ := List.append_of_mem (related.started j tries)
  have worked := ordered.before inv (fun _ _ => False.elim) split
  refine related.worked i ?_
  rw [split]
  exact List.mem_append_left _ worked

/-- What a semaphore has reached, it had reached before, or a program has done its work. -/
theorem Reaches.reached (obeys : Obeys meaning effect step view)
    (follow : ∀ j, Follows meaning (jobs j) (progs j) .waiting)
    (reaches : Reaches meaning order step progs world p) {k : K} {v : V}
    (there : v ≤ (view p.world).value k) : v ≤ (view world).value k ∨
      ∃ i v', (k, v') ∈ (jobs i).signals ∧ v ≤ v' ∧ tried p.log i = succeeded (jobs i).work := by
  obtain ⟨s, inv, related⟩ := reaches.related obeys follow
  rw [related.value] at there
  refine (inv.reached k v there).imp_right ?_
  rintro ⟨i, v', signal, above, worked⟩
  exact ⟨i, v', signal, above, related.worked i worked⟩

/-- What a program has done when it returns. -/
theorem Reaches.returned (obeys : Obeys meaning effect step view)
    (follow : ∀ j, Follows meaning (jobs j) (progs j) .waiting)
    (reaches : Reaches meaning order step progs world p) {j : J} {value : α}
    (returned : p.progs j = .ret value) :
    if meaning.done value
    then tried p.log j = succeeded (jobs j).work ∧
      ∀ x ∈ (jobs j).signals, x.2 ≤ (view p.world).value x.1
    else ∀ x ∈ (jobs j).signals, (view p.world).failed x.1 := by
  obtain ⟨s, inv, related⟩ := reaches.related obeys follow
  have doing := related.doing j
  have ok := inv.phases j
  have log := related.logs j
  rw [returned, Doing] at doing
  rw [doing] at ok log
  split
  · rename_i done
    rw [if_pos done] at ok log
    rw [related.value]
    exact ⟨log, ok.2.2⟩
  · rename_i done
    rw [if_neg done] at ok
    rw [related.failed]
    exact ok

/-- Programs that all succeed have tried nothing that failed. -/
theorem Reaches.clean (obeys : Obeys meaning effect step view)
    (follow : ∀ j, Follows meaning (jobs j) (progs j) .waiting)
    (reaches : Reaches meaning order step progs world p)
    (succeed : ∀ j, ∃ value, p.progs j = .ret value ∧ meaning.done value) :
    ∀ entry ∈ p.log, entry.2.2 = true := by
  intro entry member
  obtain ⟨value, here, done⟩ := succeed entry.1
  have outcome := reaches.returned obeys follow here
  rw [if_pos done] at outcome
  have tries : entry.2 ∈ tried p.log entry.1 :=
    List.mem_map_of_mem (List.mem_filter.mpr ⟨member, by simp⟩)
  rw [outcome.1] at tries
  obtain ⟨a, -, same⟩ := List.mem_map.mp tries
  rw [← same]

omit [DecidableEq K] [Preorder V] in
/-- What programs do in one world they do in the world it stands for, as long as none of
their work fails. -/
theorem Reaches.refine {W' : Type} {step' : W' → (c : C) → R c → W' → Prop} (standsFor : W → W')
    (keeps : W → Prop) (simulates : ∀ w c answer w', keeps w → step w c answer w' →
      (∀ a, meaning.kind c = .act a → meaning.ok c answer) →
      keeps w' ∧ step' (standsFor w) c answer (standsFor w'))
    (holds : keeps world) (reaches : Reaches meaning order step progs world p)
    (clean : ∀ entry ∈ p.log, entry.2.2 = true) :
    keeps p.world ∧ Reaches meaning order step' progs (standsFor world)
      ⟨p.progs, standsFor p.world, p.log⟩ := by
  induction reaches with
  | refl => exact ⟨holds, .refl⟩
  | @tail q _ _ move ih =>
      cases move with
      | call j c next here turn answer w moved =>
          have before : ∀ entry ∈ q.log, entry.2.2 = true := by
            intro entry member
            apply clean entry
            dsimp only
            split
            · exact List.mem_append_left _ member
            · exact member
          obtain ⟨kept, reached⟩ := ih before
          have went : ∀ a, meaning.kind c = .act a → meaning.ok c answer := by
            intro a act
            apply clean (j, a, meaning.ok c answer)
            simp only [act]
            exact List.mem_append_right _ (List.mem_singleton_self _)
          obtain ⟨kept', moved'⟩ := simulates _ _ _ _ kept moved went
          refine ⟨kept', reached.tail ?_⟩
          exact .call ⟨q.progs, standsFor q.world, q.log⟩ j c next here turn answer _ moved'

/-- Programs that all succeed have done their work, in some order. -/
theorem Reaches.finished (obeys : Obeys meaning effect step view)
    (follow : ∀ j, Follows meaning (jobs j) (progs j) .waiting)
    (reaches : Reaches meaning order step progs world p)
    (succeed : ∀ j, ∃ value, p.progs j = .ret value ∧ meaning.done value) :
    ∃ s, Inv jobs order (view world).value s ∧ (∀ j, s.phase j = .finished) ∧
      (view p.world).memory = (acts s.history).foldl (perform jobs effect) (view world).memory := by
  obtain ⟨s, inv, related⟩ := reaches.related obeys follow
  have all (j : J) : s.phase j = .finished := by
    obtain ⟨value, here, done⟩ := succeed j
    have doing := related.doing j
    rwa [here, Doing, if_pos done] at doing
  exact ⟨s, inv, all, related.memory fun j => by simp [all, Clean]⟩

omit [DecidableEq J] [DecidableEq K] [Preorder V] in
theorem perform_commute {i j : J}
    (commute : ∀ a ∈ (jobs i).work, ∀ b ∈ (jobs j).work, ∀ memory,
      effect b (effect a memory) = effect a (effect b memory)) :
    ∀ m < (jobs i).work.length, ∀ n < (jobs j).work.length, ∀ memory,
      perform jobs effect (perform jobs effect memory (i, m)) (j, n) =
        perform jobs effect (perform jobs effect memory (j, n)) (i, m) := by
  intro m below n below' memory
  simp only [perform, List.getElem?_eq_getElem below, List.getElem?_eq_getElem below',
    Option.elim_some]
  exact commute _ (List.getElem_mem below) _ (List.getElem_mem below') memory

/-- Programs that all succeed leave the same memory, however their calls were
interleaved. -/
theorem Reaches.agree (obeys : Obeys meaning effect step view)
    (follow : ∀ j, Follows meaning (jobs j) (progs j) .waiting)
    {p' : Pool C R α J A W} (reaches : Reaches meaning order step progs world p)
    (reaches' : Reaches meaning order step progs world p')
    (succeed : ∀ j, ∃ value, p.progs j = .ret value ∧ meaning.done value)
    (succeed' : ∀ j, ∃ value, p'.progs j = .ret value ∧ meaning.done value)
    (apart : ∀ i j, i ≠ j → Ordered jobs order (view world).value i j ∨
      Ordered jobs order (view world).value j i ∨
      ∀ a ∈ (jobs i).work, ∀ b ∈ (jobs j).work, ∀ memory,
        effect b (effect a memory) = effect a (effect b memory)) :
    (view p.world).memory = (view p'.world).memory := by
  obtain ⟨s, inv, all, left⟩ := reaches.finished obeys follow succeed
  obtain ⟨s', inv', all', left'⟩ := reaches'.finished obeys follow succeed'
  rw [left, left']
  apply finished_agree (perform jobs effect) inv inv' all all'
  intro i j other
  exact (apart i j other).imp_right fun rest => rest.imp_right perform_commute

omit [DecidableEq J] [DecidableEq K] [Preorder V] in
/-- What is left of a program is not over. -/
theorem Follows.left {job : Job K V A} {prog : Prog C R α} {phase : Phase}
    (answers : ∀ c, meaning.kind c = .other → Nonempty (R c))
    (follows : Follows meaning job prog phase) : ¬ phase.Over := by
  induction prog generalizing phase with
  | ret value =>
      rw [Follows] at follows
      split at follows
      · rcases follows with rfl | ⟨rfl, -⟩ <;> exact id
      · rcases follows with rfl | ⟨⟨n, rfl⟩, -⟩ <;> exact id
  | call c next ih =>
      rw [Follows] at follows
      split at follows
      · rw [follows.1]
        exact id
      · obtain ⟨n, rfl, -⟩ := follows
        exact id
      · obtain ⟨n, rfl | ⟨rfl, -⟩, -⟩ := follows <;> exact id
      · obtain ⟨n, v, rfl | ⟨⟨m, rfl⟩, -⟩, -⟩ := follows <;> exact id
      · rename_i other
        obtain ⟨answer⟩ := answers c other
        exact ih answer (follows answer)

/-- What is left of a program after its next call. -/
inductive Rest : Prog C R α → Prog C R α → Prop
  | next (c : C) (next : R c → Prog C R α) (answer : R c) : Rest (next answer) (.call c next)

omit [DecidableEq J] [DecidableEq K] [Preorder V] in
theorem rest_wellFounded : WellFounded (Rest : Prog C R α → Prog C R α → Prop) := by
  refine ⟨fun prog => ?_⟩
  induction prog with
  | ret value => exact ⟨_, nofun⟩
  | call c next ih =>
      refine ⟨_, ?_⟩
      rintro _ ⟨_, _, answer⟩
      exact ih answer

omit [DecidableEq K] [Preorder V] in
/-- Finitely many programs are over at some time. -/
theorem moves_wellFounded [Finite J] :
    WellFounded fun p' p : Pool C R α J A W => Move meaning order step p p' := by
  have lex : WellFounded (Pi.Lex WellOrderingRel
      fun {_ : J} => (Rest : Prog C R α → Prog C R α → Prop)) :=
    Pi.Lex.wellFounded _ fun _ => rest_wellFounded
  apply Subrelation.wf (r := InvImage _ Pool.progs) _ (InvImage.wf Pool.progs lex)
  rintro _ _ ⟨j, c, next, here, turn, answer, w, moved⟩
  refine ⟨j, fun i before => Function.update_of_ne ?_ _ _, ?_⟩
  · rintro rfl
    exact irrefl _ before
  · rw [here]
    simpa using Rest.next c next answer

/-- Programs that wait only for what earlier ones signal never wait for each other:
the next call of one of them is no wait, or a wait that is over. -/
theorem Reaches.exists_ready (obeys : Obeys meaning effect step view)
    (inhabited : ∀ c, meaning.kind c = .other → Nonempty (R c))
    (follow : ∀ j, Follows meaning (jobs j) (progs j) .waiting)
    (reaches : Reaches meaning order step progs world p) (rank : J → Nat)
    (turns : ∀ i j, order i j → rank i < rank j)
    (signalled : ∀ j, ∀ x ∈ (jobs j).waits, x.2 ≤ (view world).value x.1 ∨
      ∃ i v, (x.1, v) ∈ (jobs i).signals ∧ x.2 ≤ v ∧ rank i < rank j)
    (j : J) (left : ∀ value, p.progs j ≠ .ret value) :
    ∃ i c next, p.progs i = .call c next ∧ (∀ l, order l i → ∃ value, p.progs l = .ret value) ∧
      ∀ waits, meaning.kind c = .wait waits → (∀ x ∈ waits, x.2 ≤ (view p.world).value x.1) ∨
        ∃ x ∈ waits, (view p.world).failed x.1 := by
  obtain ⟨s, inv, related⟩ := reaches.related obeys follow
  have overOnly (i : J) (ended : (s.phase i).Over) : ∃ value, p.progs i = .ret value := by
    cases here : p.progs i with
    | ret value => exact ⟨value, rfl⟩
    | call c next =>
        have doing := related.doing i
        rw [here, Doing] at doing
        exact absurd ended (doing.left inhabited)
  have unfinished : ¬ (s.phase j).Over := fun ended => by
    obtain ⟨value, here⟩ := overOnly j ended
    exact left value here
  obtain ⟨i, enabled⟩ := exists_enabled inv rank turns signalled j unfinished
  have alive : ¬ (s.phase i).Over := by
    unfold Enabled at enabled
    split at enabled
    · rename_i waiting
      rw [waiting]
      exact id
    · exact enabled
  have turn : ∀ l, order l i → ∃ value, p.progs l = .ret value := by
    intro l before
    apply overOnly
    by_cases waiting : s.phase i = .waiting
    · rw [Enabled, waiting] at enabled
      exact enabled.1 l before
    · exact inv.behind i waiting l before
  cases here : p.progs i with
  | ret value => exact absurd (over_of_ret related ⟨value, here⟩) alive
  | call c next =>
      refine ⟨i, c, next, here, turn, fun waits wait => ?_⟩
      have doing := related.doing i
      rw [here, Doing, Follows, wait] at doing
      obtain ⟨waiting, rfl, -⟩ := doing
      rw [Enabled, waiting] at enabled
      rw [related.value, related.failed]
      exact enabled.2

end

end

end FencedCalls
