import Estela.Lib.LongCalls
import Estela.Runtime.QueueFences
import Mathlib.Order.OrderIsoNat

set_option autoImplicit false

/- Runs of queue operations. -/
namespace Estela.Runtime.Queue

open CallProgram (Prog)
open FencedCalls Fences
open LongCalls (Course Threads)

variable {J M α β : Type}

/-- Whoever advances a timeline goes on to dispatch its timepoints. -/
def Dispatches : (c : QueueCall) → (c.Answer → QueueProg α) → Prop
  | .asyncSemaphoreAdvanceTimeline semaphore newValue, next => ∃ rest,
      next (.ok ()) = .call (.asyncSemaphoreDispatchTimepoints semaphore newValue) rest
  | _, _ => True

def Wakes : QueueProg α → Prop
  | .ret _ => True
  | .call c next => Dispatches c next ∧ ∀ answer, Wakes (next answer)

theorem Wakes.bind {p : QueueProg α} {rest : α → QueueProg β} (first : Wakes p)
    (second : ∀ value, Wakes (rest value)) : Wakes (p.bind rest) := by
  induction p with
  | ret value => exact second value
  | call c next ih =>
      refine ⟨?_, fun answer => ih answer (first.2 answer)⟩
      cases c with
      | asyncSemaphoreAdvanceTimeline semaphore newValue =>
          obtain ⟨after, dispatches⟩ := first.1
          refine ⟨fun answer => (after answer).bind rest, ?_⟩
          show (next (.ok ())).bind rest = _
          rw [dispatches]
          rfl
      | _ => trivial

theorem asyncSemaphoreSignal_wakes (semaphore newValue : Nat) :
    Wakes (asyncSemaphoreSignal semaphore newValue) := by
  refine ⟨⟨_, rfl⟩, fun answer => ?_⟩
  match answer with
  | .ok _ => exact ⟨trivial, fun _ => trivial⟩
  | .error stop => trivial

section

variable {iree : Iree} (documented : iree.Documented)

include documented

theorem semaphoreListSignal_wakes (list : List Timepoint) :
    Wakes (iree.semaphoreListSignal list) := by
  induction list with
  | nil =>
      rw [documented.signalsNone]
      trivial
  | cons w rest ih =>
      rw [documented.signals]
      refine (asyncSemaphoreSignal_wakes w.1 w.2).bind fun signalled => ?_
      match signalled with
      | .ok _ => exact ih
      | .error stop => trivial

theorem semaphoreListFail_wakes (stop : Stop) (list : List Timepoint) :
    Wakes (iree.semaphoreListFail stop list) := by
  induction list with
  | nil =>
      rw [documented.failsNone]
      trivial
  | cons w rest ih =>
      rw [documented.fails]
      exact ⟨trivial, fun _ => ih⟩

omit documented in
theorem Replays.wakes {direct : Nat} {commands : List Command} {p : QueueProg (CResult Unit)}
    (replays : Replays direct commands p) : Wakes p := by
  induction replays with
  | done | failed => trivial
  | bracket which _ ih => rcases which with rfl | rfl <;> exact ⟨trivial, ih⟩
  | command _ stops ih =>
      refine ⟨trivial, fun answer => ?_⟩
      match answer with
      | .ok _ => exact ih
      | .error stop =>
          obtain ⟨stop', ends⟩ := stops stop
          rw [ends]
          trivial

theorem signalOrFail_wakes (status : CResult Unit) (list : List Timepoint) :
    Wakes (signalOrFail iree status list) := by
  have failed (stop : Stop) : Wakes ((iree.semaphoreListFail stop list).bind fun _ =>
      (.ret (.error stop) : QueueProg (CResult Unit))) :=
    (semaphoreListFail_wakes documented stop list).bind fun _ => trivial
  match status with
  | .error stop => exact failed stop
  | .ok _ =>
      refine (semaphoreListSignal_wakes documented list).bind fun signalled => ?_
      match signalled with
      | .ok _ => trivial
      | .error stop => exact failed stop

theorem executeCommands_wakes (op : Option CommandBuffer) : Wakes (executeCommands iree op) := by
  match op with
  | none | some .foreign => trivial
  | some (.deferred commands) =>
      refine Wakes.bind ⟨trivial, fun allocated => ?_⟩ fun created => ?_
      · match allocated with
        | .ok _ => exact ⟨trivial, fun _ => trivial⟩
        | .error stop => trivial
      · match created with
        | .error stop => trivial
        | .ok direct =>
            refine (documented.replays commands direct).wakes.bind fun _ => ?_
            refine Wakes.bind ⟨trivial, fun last => ?_⟩ fun _ => trivial
            match last with
            | true => exact ⟨trivial, fun _ => trivial⟩
            | false => trivial

theorem handle_wakes (p : DeviceProg α) : Wakes (p.handle (listCall iree)) := by
  induction p with
  | ret value => trivial
  | call c next ih =>
      refine Wakes.bind ?_ ih
      cases c with
      | semaphoreListSignal => exact semaphoreListSignal_wakes documented _
      | semaphoreListFail => exact semaphoreListFail_wakes documented _ _
      | _ => exact ⟨trivial, fun _ => trivial⟩

theorem QueueOp.wakes (op : QueueOp) : Wakes (op.run iree) := by
  match op with
  | .alloca device waits signals size => exact (handle_wakes documented _).bind fun _ => trivial
  | .dealloca waits signals =>
      exact ⟨trivial, fun waited => signalOrFail_wakes documented waited signals⟩
  | .execute waits signals commandBuffer =>
      refine ⟨trivial, fun waited => ?_⟩
      match waited with
      | .error stop => exact signalOrFail_wakes documented (.error stop) signals
      | .ok _ =>
          exact (executeCommands_wakes documented commandBuffer).bind
            fun _ => signalOrFail_wakes documented _ signals

end

abbrev QueuePool (J M : Type) :=
  Pool QueueCall QueueCall.Answer (CResult Unit) J QueueAct (QueueWorld M)

section

variable [DecidableEq J] {iree : Iree} {ops : J → QueueOp} {order : J → J → Prop}
  {effect : QueueAct → M → M} {w : QueueWorld M} {p p' : QueuePool J M}

/-- What the operations do together, from their first calls on. Those that `order` puts
first have returned before: they are made by the same thread. -/
def Runs (iree : Iree) (ops : J → QueueOp) (order : J → J → Prop) (effect : QueueAct → M → M)
    (w : QueueWorld M) (p : QueuePool J M) : Prop :=
  Reaches meaning order (QueueStep effect) (fun j => (ops j).run iree) w p

/-- A timeline that was advanced has woken those that wait, or someone is about to. -/
structure Awake (order : J → J → Prop) (p : QueuePool J M) : Prop where
  wakes : ∀ j, Wakes (p.progs j)
  woken : ∀ k, p.world.value k ≤ p.world.woken k ∨ ∃ j v rest, p.world.value k = v ∧
    p.progs j = .call (.asyncSemaphoreDispatchTimepoints k v) rest ∧
      ∀ i, order i j → ∃ value, p.progs i = .ret value

/-- Calls that neither advance a timeline nor wake anyone. -/
def Calm : QueueCall → Prop
  | .asyncSemaphoreAdvanceTimeline _ _ | .asyncSemaphoreDispatchTimepoints _ _ => False
  | _ => True

omit [DecidableEq J] in
theorem QueueStep.calm {w w' : QueueWorld M} {c : QueueCall} {answer : c.Answer}
    (step : QueueStep effect w c answer w') (calm : Calm c) :
    w'.value = w.value ∧ w'.woken = w.woken := by
  cases c with
  | asyncSemaphoreAdvanceTimeline | asyncSemaphoreDispatchTimepoints => exact calm.elim
  | semaphoreListWait =>
      obtain ⟨rfl, -⟩ := step
      exact ⟨rfl, rfl⟩
  | command =>
      obtain ⟨memory, rfl, -⟩ := step
      exact ⟨rfl, rfl⟩
  | device c =>
      cases c with
      | allocateBuffer =>
          obtain ⟨memory, rfl, -⟩ := step
          exact ⟨rfl, rfl⟩
      | _ =>
          obtain rfl := step
          exact ⟨rfl, rfl⟩
  | _ =>
      obtain rfl := step
      exact ⟨rfl, rfl⟩

theorem Awake.move (awake : Awake order p) (move : Move meaning order (QueueStep effect) p p') :
    Awake order p' := by
  obtain ⟨j, c, next, here, turn, answer, w', step⟩ := move
  have own := awake.wakes j
  rw [here] at own
  have returned (i : J) (done : ∃ value, p.progs i = .ret value) :
      ∃ value, Function.update p.progs j (next answer) i = .ret value := by
    obtain ⟨value, ends⟩ := done
    have other : i ≠ j := by
      rintro rfl
      rw [here] at ends
      cases ends
    exact ⟨value, (Function.update_of_ne other _ _).trans ends⟩
  refine ⟨fun i => ?_, fun k => ?_⟩
  · show Wakes (Function.update p.progs j (next answer) i)
    by_cases same : i = j
    · subst same
      rw [Function.update_self]
      exact own.2 answer
    · rw [Function.update_of_ne same]
      exact awake.wakes i
  -- Whoever was about to wake still is, unless it is the one that moves.
  have carry (value : w'.value k = p.world.value k) (woken : p.world.woken k ≤ w'.woken k)
      (moving : ∀ v rest, p.progs j = .call (.asyncSemaphoreDispatchTimepoints k v) rest →
        v ≤ w'.woken k) :
      w'.value k ≤ w'.woken k ∨ ∃ j' v rest, w'.value k = v ∧
        Function.update p.progs j (next answer) j' =
          .call (.asyncSemaphoreDispatchTimepoints k v) rest ∧
            ∀ i, order i j' → ∃ value, Function.update p.progs j (next answer) i = .ret value := by
    rw [value]
    rcases awake.woken k with already | ⟨j', v, rest, now, about, turn'⟩
    · exact Or.inl (already.trans woken)
    · by_cases same : j' = j
      · subst same
        exact Or.inl (now ▸ moving v rest about)
      · exact Or.inr ⟨j', v, rest, now, (Function.update_of_ne same _ _).trans about,
          fun i before => returned i (turn' i before)⟩
  cases c with
  | asyncSemaphoreAdvanceTimeline semaphore newValue =>
      have still (v) (rest) (about : p.progs j =
          .call (.asyncSemaphoreDispatchTimepoints k v) rest) : v ≤ w'.woken k := by
        rw [here] at about
        cases about
      obtain ⟨rest, dispatches⟩ := own.1
      match answer with
      | .error stop =>
          obtain rfl : w' = p.world := step
          exact carry rfl (le_refl _) still
      | .ok _ =>
          obtain ⟨-, rfl⟩ : p.world.value semaphore ≤ newValue ∧ w' =
            { p.world with value := Function.update p.world.value semaphore newValue } := step
          by_cases same : k = semaphore
          · subst same
            exact Or.inr ⟨j, newValue, rest, Function.update_self ..,
              (Function.update_self ..).trans dispatches,
              fun i before => returned i (turn i before)⟩
          · exact carry (Function.update_of_ne same _ _) (le_refl _) still
  | asyncSemaphoreDispatchTimepoints semaphore newValue =>
      obtain rfl := step
      apply carry rfl
      · by_cases same : k = semaphore
        · subst same
          simp
        · simp [same]
      · intro v rest about
        rw [here] at about
        cases about
        simp
  | _ =>
      obtain ⟨value, woken⟩ := step.calm trivial
      apply carry (congrFun value k) (le_of_eq (congrFun woken k).symm)
      intro v rest about
      rw [here] at about
      cases about

theorem Runs.awake (documented : iree.Documented) (calm : ∀ k, w.value k ≤ w.woken k)
    (runs : Runs iree ops order effect w p) : Awake order p := by
  induction runs with
  | refl => exact ⟨fun j => (ops j).wakes documented, fun k => Or.inl (calm k)⟩
  | tail _ move ih => exact ih.move move

/-- A wait is over once it is woken, or fails with a semaphore. -/
def Promptly (effect : QueueAct → M → M) (w : QueueWorld M) (c : QueueCall) (answer : c.Answer)
    (w' : QueueWorld M) : Prop :=
  QueueStep effect w c answer w' ∧ ∀ waits, c.kind = .wait waits →
    if c.ok answer then ∀ x ∈ waits, x.2 ≤ w.woken x.1 else ∃ x ∈ waits, w.failed x.1

/-- A status of no particular kind. -/
def anyStop : Stop := .status ⟨.internal, .text ""⟩

theorem deviceCall_answers (c : DeviceCall) : Nonempty c.Answer := by
  cases c <;> first
    | exact ⟨()⟩
    | exact ⟨(.error anyStop : CResult Nat)⟩
    | exact ⟨(.error anyStop : CResult Unit)⟩
    | exact ⟨true⟩
    | exact ⟨(none : Option Nat)⟩
    | exact ⟨(0 : Int)⟩

omit [DecidableEq J] in
theorem exists_promptly (effect : QueueAct → M → M) (w : QueueWorld M) (c : QueueCall)
    (ready : ∀ waits, c.kind = .wait waits →
      (∀ x ∈ waits, x.2 ≤ w.value x.1 ∧ x.2 ≤ w.woken x.1) ∨ ∃ x ∈ waits, w.failed x.1) :
    ∃ answer w', Promptly effect w c answer w' := by
  cases c with
  | semaphoreListWait waits =>
      rcases ready waits rfl with there | failed
      · refine ⟨.ok (), w, ⟨rfl, fun _ x member => (there x member).1⟩, ?_⟩
        rintro _ ⟨⟩
        exact fun x member => (there x member).2
      · refine ⟨.error anyStop, w, ⟨rfl, nofun⟩, ?_⟩
        rintro _ ⟨⟩
        exact failed
  | asyncSemaphoreAdvanceTimeline => exact ⟨.error anyStop, w, rfl, nofun⟩
  | mallocCommandBuffer => exact ⟨.error anyStop, w, rfl, nofun⟩
  | commandBufferReleaseRef => exact ⟨true, w, rfl, nofun⟩
  | commandBufferBegin => exact ⟨.ok (), w, rfl, nofun⟩
  | commandBufferEnd => exact ⟨.ok (), w, rfl, nofun⟩
  | command => exact ⟨.error anyStop, w, ⟨w.memory, rfl, nofun⟩, nofun⟩
  | device c =>
      obtain ⟨answer⟩ := deviceCall_answers c
      cases c with
      | allocateBuffer => exact ⟨.error anyStop, w, ⟨w.memory, rfl, nofun⟩, nofun⟩
      | _ => exact ⟨answer, w, rfl, nofun⟩
  | _ => exact ⟨(), _, rfl, nofun⟩

theorem Runs.exists_move (documented : iree.Documented) (calm : ∀ k, w.value k ≤ w.woken k)
    (rank : J → Nat) (turns : ∀ i j, order i j → rank i < rank j)
    (signalled : ∀ j, ∀ x ∈ (ops j).waits, x.2 ≤ w.value x.1 ∨
      ∃ i v, (x.1, v) ∈ (ops i).signals ∧ x.2 ≤ v ∧ rank i < rank j)
    (runs : Runs iree ops order effect w p) (j : J) (left : ∀ status, p.progs j ≠ .ret status) :
    ∃ p', Move meaning order (Promptly effect) p p' := by
  have inhabited (c : QueueCall) (other : meaning.kind c = .other) : Nonempty c.Answer := by
    obtain ⟨answer, -⟩ := exists_promptly effect w c fun waits wait => by
      cases other.symm.trans wait
    exact ⟨answer⟩
  obtain ⟨i, c, next, here, turn, ready⟩ := Reaches.exists_ready (obeys effect) inhabited
    (fun j => (ops j).follows documented) runs rank turns signalled j left
  by_cases prompt : ∀ waits, c.kind = .wait waits →
      (∀ x ∈ waits, x.2 ≤ p.world.value x.1 ∧ x.2 ≤ p.world.woken x.1) ∨
        ∃ x ∈ waits, p.world.failed x.1
  · obtain ⟨answer, w', moved⟩ := exists_promptly effect p.world c prompt
    exact ⟨_, .call p i c next here turn answer w' moved⟩
  · -- The wait is for a timeline whose timepoints are about to be dispatched.
    push Not at prompt
    obtain ⟨waits, wait, ⟨x, member, late⟩, unfailed⟩ := prompt
    have there := (ready waits wait).resolve_right fun ⟨x, member, failed⟩ =>
      unfailed x member failed
    have asleep := late (there x member)
    rcases (runs.awake documented calm).woken x.1 with already | ⟨l, v, rest, now, about, turn'⟩
    · exact absurd ((there x member).trans already) (by omega)
    · obtain ⟨answer, w', moved⟩ :=
        exists_promptly effect p.world (.asyncSemaphoreDispatchTimepoints x.1 v) nofun
      exact ⟨_, .call p l _ rest about turn' answer w' moved⟩

end

/-! Commands that take several moves of the memory. -/

section

variable {P : Type} {effect : QueueAct → M → M} {course : Course QueueCall QueueCall.Answer M P}

/-- A piece of work that nothing comes in between has its effect, if it succeeds, and
other calls have none. -/
structure Performs (effect : QueueAct → M → M) (course : Course QueueCall QueueCall.Answer M P) :
    Prop where
  work : ∀ c a m answer m', c.kind = .act a → course.Whole m c answer m' → c.ok answer →
    m' = effect a m
  others : ∀ c m answer m', (∀ a, c.kind ≠ .act a) → course.Whole m c answer m' → m' = m

/-- The semaphores alone. -/
def QueueWorld.semaphores (w : QueueWorld M) : QueueWorld Unit := { w with memory := () }

def QueueWorld.with (w : QueueWorld Unit) (memory : M) : QueueWorld M := { w with memory }

abbrev QueueThreads (J M P : Type) :=
  Threads QueueCall QueueCall.Answer (CResult Unit) J QueueAct (QueueWorld Unit) M P

/-- What calls do to the semaphores. -/
abbrev SemaphoreStep : QueueWorld Unit → (c : QueueCall) → c.Answer → QueueWorld Unit → Prop :=
  QueueStep fun _ => id

/-- A call goes about the semaphores whatever there is in memory. -/
theorem QueueStep.semaphores {w w' : QueueWorld M} {c : QueueCall} {answer : c.Answer}
    (step : QueueStep effect w c answer w') :
    SemaphoreStep w.semaphores c answer w'.semaphores := by
  cases c with
  | semaphoreListWait =>
      obtain ⟨rfl, reached⟩ := step
      exact ⟨rfl, reached⟩
  | asyncSemaphoreAdvanceTimeline semaphore newValue =>
      match answer with
      | .ok _ =>
          obtain ⟨grows, rfl⟩ := step
          exact ⟨grows, rfl⟩
      | .error stop => exact congrArg QueueWorld.semaphores step
  | command =>
      obtain ⟨memory, rfl, -⟩ := step
      exact ⟨(), rfl, fun _ => rfl⟩
  | device c =>
      cases c with
      | allocateBuffer =>
          obtain ⟨memory, rfl, -⟩ := step
          exact ⟨(), rfl, fun _ => rfl⟩
      | _ => exact congrArg QueueWorld.semaphores step
  | _ => exact congrArg QueueWorld.semaphores step

/-- Only work touches the memory. -/
theorem QueueStep.memory {w w' : QueueWorld M} {c : QueueCall} {answer : c.Answer}
    (step : QueueStep effect w c answer w') (idle : ∀ a, c.kind ≠ .act a) :
    w'.memory = w.memory := by
  cases c with
  | semaphoreListWait => exact congrArg QueueWorld.memory step.1
  | asyncSemaphoreAdvanceTimeline semaphore newValue =>
      match answer with
      | .ok _ =>
          obtain ⟨-, rfl⟩ := step
          rfl
      | .error stop => exact congrArg QueueWorld.memory step
  | asyncSemaphoreDispatchTimepoints | semaphoreFail =>
      obtain rfl := step
      rfl
  | command address c => exact absurd rfl (idle (.command c))
  | device c =>
      cases c with
      | allocateBuffer allocator size => exact absurd rfl (idle (.allocate size))
      | _ => exact congrArg QueueWorld.memory step
  | _ => exact congrArg QueueWorld.memory step

/-- A call on the semaphores, of work that has its effect in memory. -/
theorem QueueStep.with {w w' : QueueWorld Unit} {c : QueueCall} {answer : c.Answer}
    (step : SemaphoreStep w c answer w') {memory memory' : M}
    (work : ∀ a, c.kind = .act a → c.ok answer → memory' = effect a memory)
    (others : (∀ a, c.kind ≠ .act a) → memory' = memory) :
    QueueStep effect (w.with memory) c answer (w'.with memory') := by
  cases c with
  | semaphoreListWait =>
      obtain rfl := others fun a kind => by cases kind
      obtain ⟨rfl, reached⟩ := step
      exact ⟨rfl, reached⟩
  | asyncSemaphoreAdvanceTimeline semaphore newValue =>
      obtain rfl := others fun a kind => by cases kind
      match answer with
      | .ok _ =>
          obtain ⟨grows, rfl⟩ := step
          exact ⟨grows, rfl⟩
      | .error stop =>
          obtain rfl : w' = w := step
          rfl
  | command address c =>
      obtain ⟨_, rfl, -⟩ := step
      exact ⟨memory', rfl, work _ rfl⟩
  | device c =>
      cases c with
      | allocateBuffer =>
          obtain ⟨_, rfl, -⟩ := step
          exact ⟨memory', rfl, work _ rfl⟩
      | _ =>
          obtain rfl := others fun a kind => by cases kind
          obtain rfl := step
          rfl
  | _ =>
      obtain rfl := others fun a kind => by cases kind
      obtain rfl := step
      rfl

/-- A call at once is one of the semaphores and the memory together. -/
theorem atOnce_step (performs : Performs effect course) {w w' : QueueWorld Unit × M}
    {c : QueueCall} {answer : c.Answer} (step : course.AtOnce SemaphoreStep w c answer w') :
    QueueStep effect (w.1.with w.2) c answer (w'.1.with w'.2) :=
  step.1.with (fun a kind => performs.work c a _ answer _ kind step.2)
    fun idle => performs.others c _ answer _ idle step.2

theorem obeys_atOnce (performs : Performs effect course) :
    Obeys meaning effect (course.AtOnce SemaphoreStep) (fun w => view (w.1.with w.2)) where
  wait _ c answer _ waits step :=
    (obeys effect).wait _ c answer _ waits (atOnce_step performs step)
  act _ c answer _ a step := (obeys effect).act _ c answer _ a (atOnce_step performs step)
  signal _ c answer _ x step := (obeys effect).signal _ c answer _ x (atOnce_step performs step)
  fail _ c answer _ k step := (obeys effect).fail _ c answer _ k (atOnce_step performs step)
  other _ c answer _ step := (obeys effect).other _ c answer _ (atOnce_step performs step)

/-- What the operations do together while they keep to a lock: one thread at a time is in
a command or an allocation. The driver has no such lock, so its user must. -/
abbrev LockedRuns [DecidableEq J] (iree : Iree) (ops : J → QueueOp) (order : J → J → Prop)
    (course : Course QueueCall QueueCall.Answer M P) (w : QueueWorld Unit × M)
    (q : QueueThreads J M P) : Prop :=
  LongCalls.Locked meaning order SemaphoreStep course (fun j => (ops j).run iree) w q

end

/-! Three operations: the last waits for the other two. -/

/-- Functions that do what is documented of those of IREE. -/
def plainIree : Iree where
  semaphoreListSignal := Prog.forEach fun w => asyncSemaphoreSignal w.1 w.2
  semaphoreListFail stop list := list.foldr
    (fun w rest => .call (.semaphoreFail w.1 stop) fun _ => rest) (.ret ())
  deferredCommandBufferApply commands direct := do
    let begun : CResult Unit ← queueCall (.commandBufferBegin direct)
    match begun with
    | .error stop => return .error stop
    | .ok _ => do
      let status ← Prog.forEach (fun c => queueCall (.command direct c)) commands
      match status with
      | .error stop => return .error stop
      | .ok _ => queueCall (.commandBufferEnd direct)

theorem plainIree_documented : plainIree.Documented where
  signalsNone := rfl
  signals w rest := by
    simp only [plainIree, Prog.forEach]
    congr 1
    funext status
    cases status <;> rfl
  failsNone _ := rfl
  fails _ _ _ := rfl
  replays commands direct := by
    refine .bracket (Or.inl rfl) fun begun => ?_
    match begun with
    | .error stop => exact .failed commands stop
    | .ok _ =>
        induction commands with
        | nil =>
            refine .bracket (Or.inr rfl) fun ended => ?_
            match ended with
            | .ok _ => exact .done
            | .error stop => exact .failed [] stop
        | cons c rest ih => exact .command ih fun stop => ⟨stop, rfl⟩

/-- Two bytes. -/
def fillOf (value : BitVec 8) : Command :=
  .fillBuffer ⟨none, 2 * value.setWidth 64, 2⟩ [value]

def sampleOps (j : Fin 3) : QueueOp :=
  match j with
  | 0 => .execute [] [(0, 1)] (some (.deferred [fillOf 5]))
  | 1 => .execute [] [(1, 1)] (some (.deferred [fillOf 6]))
  | 2 => .execute [(0, 1), (1, 1)] [] (some (.deferred [fillOf 7]))

abbrev Bytes := Nat → BitVec 8

/-- What a fill sets to its pattern. -/
def sampleWrites : QueueAct → List (Nat × BitVec 8)
  | .command (.fillBuffer targetRef pattern) =>
      (List.range targetRef.length.toNat).map fun i =>
        (targetRef.offset.toNat + i, pattern.headD 0)
  | _ => []

def writeBytes (bytes : List (Nat × BitVec 8)) (memory : Bytes) : Bytes :=
  bytes.foldl (fun memory byte => Function.update memory byte.1 byte.2) memory

def sampleEffect (a : QueueAct) (memory : Bytes) : Bytes := writeBytes (sampleWrites a) memory

def sampleQueue : QueueWorld Bytes := ⟨fun _ => 0, fun _ => 0, fun _ => False, fun _ => 0⟩

/-- Calls that may go about more than the semaphores. -/
def Beyond : QueueCall → Prop
  | .command _ _ | .device _ => True
  | _ => False

section

variable {S : Type} {step : S → (c : QueueCall) → c.Answer → S → Prop}
  (state : QueueWorld Unit → M → S)

theorem listSignal_run (short : ∀ w w' m c answer, ¬ Beyond c → SemaphoreStep w c answer w' →
      step (state w m) c answer (state w' m)) (w : QueueWorld Unit) (m : M)
    (signal : Option Timepoint) (grows : ∀ x ∈ signal, w.value x.1 ≤ x.2) :
    ∃ w', CallProgram.Run step (plainIree.semaphoreListSignal signal.toList) (state w m) (.ok ())
        (state w' m) ∧
      w'.value = signal.elim w.value fun x => Function.update w.value x.1 x.2 := by
  cases signal with
  | none => exact ⟨w, .ret _ _, rfl⟩
  | some x =>
      let raised := { w with value := Function.update w.value x.1 x.2 }
      have advance : step (state w m) (.asyncSemaphoreAdvanceTimeline x.1 x.2) (.ok ())
          (state raised m) := short _ _ _ _ _ id ⟨grows x rfl, rfl⟩
      exact ⟨_, .call _ advance (.call () (short _ _ _ _ _ id rfl) (.ret _ _)), rfl⟩

/-- An operation of one command, with nothing else in between. -/
theorem execute_run (short : ∀ w w' m c answer, ¬ Beyond c → SemaphoreStep w c answer w' →
      step (state w m) c answer (state w' m)) (w : QueueWorld Unit) {m m' : M}
    (waits : List Timepoint) (signal : Option Timepoint) {c : Command}
    (reached : ∀ x ∈ waits, x.2 ≤ w.value x.1) (grows : ∀ x ∈ signal, w.value x.1 ≤ x.2)
    (command : step (state w m) (.command 0 c) (.ok () : CResult Unit) (state w m')) :
    ∃ w', CallProgram.Run step
        (deviceQueueExecute plainIree waits signal.toList (some (.deferred [c]))) (state w m)
        (.ok ()) (state w' m') ∧
      w'.value = signal.elim w.value fun x => Function.update w.value x.1 x.2 := by
  obtain ⟨w', run, value⟩ := listSignal_run state short w m' signal grows
  have ended : CallProgram.Run step (signalOrFail plainIree (.ok ()) signal.toList) (state w m')
      (.ok ()) (state w' m') :=
    (CallProgram.run_bind_iff _ _ _ _ _).mpr ⟨.ok (), state w' m', run, .ret _ _⟩
  have quiet (m : M) (c : QueueCall) (answer : c.Answer) (within : ¬ Beyond c)
      (same : SemaphoreStep w c answer w) : step (state w m) c answer (state w m) :=
    short w w m c answer within same
  refine ⟨w', .call (.ok ()) (quiet m _ _ id ⟨rfl, fun _ => reached⟩) ?_, value⟩
  refine .call (.ok 0) (quiet m _ _ id rfl) (.call () (quiet m _ _ id rfl) ?_)
  refine .call (.ok ()) (quiet m _ _ id rfl) (.call (.ok ()) command ?_)
  refine .call (.ok ()) (quiet m' _ _ id rfl) ?_
  exact .call true (quiet m' _ _ id rfl) (.call () (quiet m' _ _ id rfl) ended)

end

theorem sample_short (w w' : QueueWorld Unit) (memory : Bytes) (c : QueueCall) (answer : c.Answer)
    (within : ¬ Beyond c) (step : SemaphoreStep w c answer w') :
    QueueStep sampleEffect (w.with memory) c answer (w'.with memory) := by
  refine step.with (fun a kind => absurd ?_ within) fun _ => rfl
  cases c with
  | command | device => trivial
  | _ => cases kind

abbrev SampleRuns (p : QueuePool (Fin 3) Bytes) : Prop :=
  Runs plainIree sampleOps (fun _ _ => False) sampleEffect sampleQueue p

theorem sample_next {p : QueuePool (Fin 3) Bytes} (runs : SampleRuns p)
    (j : Fin 3) (fresh : p.progs j = (sampleOps j).run plainIree)
    (reached : ∀ x ∈ (sampleOps j).waits, x.2 ≤ p.world.value x.1)
    (grows : ∀ x ∈ (sampleOps j).signals, p.world.value x.1 ≤ x.2) :
    ∃ p', SampleRuns p' ∧ p'.progs = Function.update p.progs j (.ret (.ok ())) ∧
      p'.world.value = (sampleOps j).signals.head?.elim p.world.value
        fun x => Function.update p.world.value x.1 x.2 := by
  have alone (waits : List Timepoint) (signal : Option Timepoint) (c : Command)
      (shape : sampleOps j = .execute waits signal.toList (some (.deferred [c]))) :
      ∃ p', SampleRuns p' ∧ p'.progs = Function.update p.progs j (.ret (.ok ())) ∧
        p'.world.value = signal.elim p.world.value
          fun x => Function.update p.world.value x.1 x.2 := by
    rw [shape] at fresh reached grows
    obtain ⟨w', run, value⟩ := execute_run QueueWorld.with sample_short
      p.world.semaphores (m := p.world.memory) waits signal reached
      (fun x member => grows x (Option.mem_toList.mpr member)) ⟨_, rfl, fun _ => rfl⟩
    rw [← show p.progs j = deviceQueueExecute plainIree waits signal.toList _ from fresh] at run
    obtain ⟨log, after⟩ := Reaches.run runs (fun _ => False.elim) run
    exact ⟨_, after, rfl, value⟩
  match j with
  | 0 => exact alone [] (some (0, 1)) (fillOf 5) rfl
  | 1 => exact alone [] (some (1, 1)) (fillOf 6) rfl
  | 2 => exact alone [(0, 1), (1, 1)] none (fillOf 7) rfl

/-- The first two may run in either order. -/
theorem exists_sample_runs (first second : Fin 3)
    (order : first = 0 ∧ second = 1 ∨ first = 1 ∧ second = 0) :
    ∃ p, SampleRuns p ∧ ∀ j, p.progs j = .ret (.ok ()) := by
  have start : SampleRuns (Pool.start (fun j => (sampleOps j).run plainIree) sampleQueue) := .refl
  obtain ⟨p, runs, progs, value⟩ := sample_next start first rfl
    (by rcases order with ⟨rfl, rfl⟩ | ⟨rfl, rfl⟩ <;> exact nofun)
    (fun x _ => Nat.zero_le _)
  obtain ⟨p', runs', progs', value'⟩ := sample_next runs second
    (by rcases order with ⟨rfl, rfl⟩ | ⟨rfl, rfl⟩ <;> rw [progs] <;> rfl)
    (by rcases order with ⟨rfl, rfl⟩ | ⟨rfl, rfl⟩ <;> exact nofun)
    (by rcases order with ⟨rfl, rfl⟩ | ⟨rfl, rfl⟩ <;> rw [value] <;> decide)
  obtain ⟨p'', runs'', progs'', -⟩ := sample_next runs' 2
    (by rcases order with ⟨rfl, rfl⟩ | ⟨rfl, rfl⟩ <;> rw [progs', progs] <;> rfl)
    (by rcases order with ⟨rfl, rfl⟩ | ⟨rfl, rfl⟩ <;> rw [value', value] <;> decide) nofun
  refine ⟨p'', runs'', fun j => ?_⟩
  rw [progs'', progs', progs]
  rcases order with ⟨rfl, rfl⟩ | ⟨rfl, rfl⟩ <;> match j with
    | 0 | 1 | 2 => rfl

theorem sample_fenced (j : Fin 3) (first : j = 0 ∨ j = 1) (order : Fin 3 → Fin 3 → Prop) :
    Ordered (fun j => (sampleOps j).job) order sampleQueue.value j 2 := by
  rcases first with rfl | rfl
  · refine .fence 0 1 (by decide) (by decide) fun i v signal _ other => ?_
    match i with
    | 0 => exact absurd rfl other
    | 1 | 2 => simp [sampleOps, QueueOp.job, QueueOp.signals] at signal
  · refine .fence 1 1 (by decide) (by decide) fun i v signal _ other => ?_
    match i with
    | 1 => exact absurd rfl other
    | 0 | 2 => simp [sampleOps, QueueOp.job, QueueOp.signals] at signal

/-- By the time a queue operation tries any of its work, every operation that its
semaphores order before it has done all of its own, and none of it failed. -/
theorem fenced_in_order [DecidableEq J] (iree : Iree) (documented : iree.Documented)
    (ops : J → QueueOp) (order : J → J → Prop) (effect : QueueAct → M → M) (w : QueueWorld M)
    (p : QueuePool J M) (runs : Runs iree ops order effect w p) (i j : J)
    (fenced : Ordered (fun j => (ops j).job) (fun _ _ => False) w.value i j)
    (tries : tried p.log j ≠ []) : tried p.log i = succeeded (ops i).work :=
  Reaches.ordered (obeys effect) (fun j => (ops j).follows documented) runs fenced tries

theorem fenced_in_order_sample : ∃ p, SampleRuns p ∧
    tried p.log 0 = [(.command (fillOf 5), true)] := by
  obtain ⟨p, runs, ends⟩ := exists_sample_runs 0 1 (by decide)
  have last : tried p.log 2 = succeeded (sampleOps 2).work :=
    (Reaches.returned (obeys sampleEffect) (fun j => (sampleOps j).follows plainIree_documented)
      runs (ends 2)).1
  exact ⟨p, runs, fenced_in_order plainIree plainIree_documented sampleOps _ sampleEffect
    sampleQueue p runs 0 2 (sample_fenced 0 (Or.inl rfl) _) (by rw [last]; nofun)⟩

/-- A queue operation returns OK with its work done and its semaphores signalled, and
else has failed them. A semaphore has its values from operations whose work is done. -/
theorem operation_outcome [DecidableEq J] (iree : Iree) (documented : iree.Documented)
    (ops : J → QueueOp) (order : J → J → Prop) (effect : QueueAct → M → M) (w : QueueWorld M)
    (p : QueuePool J M) (runs : Runs iree ops order effect w p) :
    (∀ j, p.progs j = .ret (.ok ()) → tried p.log j = succeeded (ops j).work ∧
      ∀ x ∈ (ops j).signals, x.2 ≤ p.world.value x.1) ∧
    (∀ j stop, p.progs j = .ret (.error stop) → ∀ x ∈ (ops j).signals, p.world.failed x.1) ∧
    ∀ k v, v ≤ p.world.value k → v ≤ w.value k ∨
      ∃ i v', (k, v') ∈ (ops i).signals ∧ v ≤ v' ∧ tried p.log i = succeeded (ops i).work := by
  have outcome (j : J) (status : CResult Unit) (returned : p.progs j = .ret status) :=
    Reaches.returned (obeys effect) (fun j => (ops j).follows documented) runs returned
  refine ⟨fun j returned => ?_, fun j stop returned => ?_, fun k v there => ?_⟩
  · exact outcome j (.ok ()) returned
  · exact outcome j (.error stop) returned
  · exact Reaches.reached (obeys effect) (fun j => (ops j).follows documented) runs there

theorem operation_outcome_sample : ∃ p, SampleRuns p ∧
    tried p.log 1 = [(.command (fillOf 6), true)] ∧ 1 ≤ p.world.value 1 := by
  obtain ⟨p, runs, ends⟩ := exists_sample_runs 0 1 (by decide)
  obtain ⟨done, signalled⟩ :=
    (operation_outcome plainIree plainIree_documented sampleOps _ sampleEffect sampleQueue p
      runs).1 1 (ends 1)
  exact ⟨p, runs, done, signalled (1, 1) (by decide)⟩

/-- However queue operations that all succeed were interleaved, they leave the same
memory, if commands that do not commute are ordered by semaphores or by their thread, and
one thread at a time is in a command or an allocation. -/
theorem interleavings_agree {P : Type} [DecidableEq J] (iree : Iree)
    (documented : iree.Documented) (ops : J → QueueOp) (order : J → J → Prop)
    (effect : QueueAct → M → M) (course : Course QueueCall QueueCall.Answer M P)
    (performs : Performs effect course) (w : QueueWorld Unit × M) (q q' : QueueThreads J M P)
    (runs : LockedRuns iree ops order course w q) (runs' : LockedRuns iree ops order course w q')
    (succeed : ∀ j, q.pool.progs j = .ret (.ok ()))
    (succeed' : ∀ j, q'.pool.progs j = .ret (.ok ()))
    (apart : ∀ i j, i ≠ j → Ordered (fun j => (ops j).job) order w.1.value i j ∨
      Ordered (fun j => (ops j).job) order w.1.value j i ∨
      ∀ a ∈ (ops i).work, ∀ b ∈ (ops j).work, ∀ memory,
        effect b (effect a memory) = effect a (effect b memory)) :
    q.pool.world.2 = q'.pool.world.2 :=
  Reaches.agree (obeys_atOnce performs) (fun j => (ops j).follows documented)
    (runs.atOnce fun j => ⟨_, succeed j⟩) (runs'.atOnce fun j => ⟨_, succeed' j⟩)
    (fun j => ⟨.ok (), succeed j, rfl⟩) (fun j => ⟨.ok (), succeed' j, rfl⟩) apart

/-- A fill goes byte by byte. -/
def sampleCourse : Course QueueCall QueueCall.Answer Bytes (List (Nat × BitVec 8)) where
  long c := ∃ a, c.kind = .act a
  enter c _ part := ∃ a, c.kind = .act a ∧ part = sampleWrites a
  move x y := ∃ byte, x.1 = byte :: y.1 ∧ y.2 = Function.update x.2 byte.1 byte.2
  leave c part m answer m' := m' = m ∧ (c.ok answer → part = [])

theorem sampleCourse_moves {x y : List (Nat × BitVec 8) × Bytes}
    (moves : Relation.ReflTransGen sampleCourse.move x y) :
    writeBytes y.1 y.2 = writeBytes x.1 x.2 := by
  induction moves with
  | refl => rfl
  | @tail y z _ move ih =>
      obtain ⟨byte, here, after⟩ :
          ∃ byte, y.1 = byte :: z.1 ∧ z.2 = Function.update y.2 byte.1 byte.2 := move
      rw [← ih, here, after]
      rfl

theorem sampleCourse_writes (bytes : List (Nat × BitVec 8)) (memory : Bytes) :
    Relation.ReflTransGen sampleCourse.move (bytes, memory) ([], writeBytes bytes memory) := by
  induction bytes generalizing memory with
  | nil => exact .refl
  | cons byte rest ih => exact .head ⟨byte, rfl, rfl⟩ (ih _)

theorem sampleCourse_performs : Performs sampleEffect sampleCourse where
  work c a m answer m' kind whole success := by
    cases whole with
    | short short => exact absurd ⟨a, kind⟩ short
    | long _ enter moves leave =>
        obtain ⟨a', kind', rfl⟩ := enter
        obtain rfl : a = a' := by simpa [kind] using kind'
        obtain ⟨rfl, rest⟩ := leave
        have written := sampleCourse_moves moves
        rw [rest success] at written
        exact written
  others c m answer m' kind whole := by
    cases whole with
    | short short => rfl
    | long isLong enter moves leave => exact absurd isLong.choose_spec (kind _)

/-- Calls at once are calls of the bytes one by one. -/
theorem sampleCourse_step (w : QueueWorld Bytes) (c : QueueCall) (answer : c.Answer)
    (w' : QueueWorld Bytes) (step : QueueStep sampleEffect w c answer w')
    (went : ∀ a, meaning.kind c = .act a → meaning.ok c answer) :
    sampleCourse.AtOnce SemaphoreStep (w.semaphores, w.memory) c answer
      (w'.semaphores, w'.memory) := by
  refine ⟨step.semaphores, ?_⟩
  by_cases long : ∃ a, c.kind = .act a
  · obtain ⟨a, kind⟩ := long
    obtain ⟨-, -, made⟩ := (obeys sampleEffect).act w c answer w' a step kind
    have memory : w'.memory = sampleEffect a w.memory := made (went a kind)
    rw [memory]
    have enter : sampleCourse.enter c w.memory (sampleWrites a) := ⟨a, kind, rfl⟩
    have leave : sampleCourse.leave c [] (sampleEffect a w.memory) answer
        (sampleEffect a w.memory) := ⟨rfl, fun _ => rfl⟩
    have long : sampleCourse.long c := ⟨a, kind⟩
    exact .long long enter (sampleCourse_writes _ _) leave
  · rw [step.memory fun a kind => long ⟨a, kind⟩]
    exact .short long

/-- The run of a pool, as one that keeps to the lock. -/
theorem sample_locked {p : QueuePool (Fin 3) Bytes} (runs : SampleRuns p)
    (ends : ∀ j, p.progs j = .ret (.ok ())) :
    ∃ q, LockedRuns plainIree sampleOps (fun _ _ => False) sampleCourse
      (sampleQueue.semaphores, sampleQueue.memory) q ∧ ∀ j, q.pool.progs j = .ret (.ok ()) := by
  have clean := Reaches.clean (obeys sampleEffect)
    (fun j => (sampleOps j).follows plainIree_documented) runs fun j => ⟨.ok (), ends j, rfl⟩
  obtain ⟨-, atOnce⟩ := Reaches.refine (fun w => (w.semaphores, w.memory)) (fun _ => True)
    (fun w c answer w' _ step went => ⟨trivial, sampleCourse_step w c answer w' step went⟩)
    trivial runs clean
  exact ⟨_, LongCalls.locked_of_reaches atOnce, ends⟩

theorem interleavings_agree_sample : ∃ q q',
    LockedRuns plainIree sampleOps (fun _ _ => False) sampleCourse
      (sampleQueue.semaphores, sampleQueue.memory) q ∧
    LockedRuns plainIree sampleOps (fun _ _ => False) sampleCourse
      (sampleQueue.semaphores, sampleQueue.memory) q' ∧
    q.pool.world.2 = q'.pool.world.2 := by
  obtain ⟨p, runs, ends⟩ := exists_sample_runs 0 1 (by decide)
  obtain ⟨p', runs', ends'⟩ := exists_sample_runs 1 0 (by decide)
  obtain ⟨q, locked, returned⟩ := sample_locked runs ends
  obtain ⟨q', locked', returned'⟩ := sample_locked runs' ends'
  refine ⟨q, q', locked, locked', interleavings_agree plainIree plainIree_documented sampleOps _
    sampleEffect sampleCourse sampleCourse_performs _ q q' locked locked' returned returned'
    fun i j other => ?_⟩
  -- The first two fill different bytes, and the last waits for both.
  have apart : ∀ a ∈ (sampleOps 0).work, ∀ b ∈ (sampleOps 1).work, ∀ memory,
      sampleEffect b (sampleEffect a memory) = sampleEffect a (sampleEffect b memory) := by
    intro a inFirst b inSecond memory
    obtain rfl := List.mem_singleton.mp inFirst
    obtain rfl := List.mem_singleton.mp inSecond
    show Function.update (Function.update (Function.update (Function.update memory 10 5) 11 5)
        12 6) 13 6 =
      Function.update (Function.update (Function.update (Function.update memory 12 6) 13 6)
        10 5) 11 5
    funext byte
    simp only [Function.update_apply]
    split_ifs <;> first | rfl | omega
  match i, j with
  | 0, 1 => exact Or.inr (Or.inr apart)
  | 1, 0 => exact Or.inr (Or.inr fun a inFirst b inSecond memory =>
      (apart b inSecond a inFirst memory).symm)
  | 0, 2 => exact Or.inl (sample_fenced 0 (Or.inl rfl) _)
  | 1, 2 => exact Or.inl (sample_fenced 1 (Or.inr rfl) _)
  | 2, 0 => exact Or.inr (Or.inl (sample_fenced 0 (Or.inl rfl) _))
  | 2, 1 => exact Or.inr (Or.inl (sample_fenced 1 (Or.inr rfl) _))
  | 0, 0 | 1, 1 | 2, 2 => exact absurd rfl other

/-- Finitely many queue operations end in every run, and none is left waiting, if each
waits for what is there or for what one of lower rank signals. -/
theorem queue_drains [DecidableEq J] [Finite J] (iree : Iree) (documented : iree.Documented)
    (ops : J → QueueOp) (order : J → J → Prop) (effect : QueueAct → M → M) (w : QueueWorld M)
    (calm : ∀ k, w.value k ≤ w.woken k) (rank : J → Nat)
    (turns : ∀ i j, order i j → rank i < rank j)
    (signalled : ∀ j, ∀ x ∈ (ops j).waits, x.2 ≤ w.value x.1 ∨
      ∃ i v, (x.1, v) ∈ (ops i).signals ∧ x.2 ≤ v ∧ rank i < rank j)
    (p : QueuePool J M) (runs : Runs iree ops order effect w p) :
    (¬ ∃ run : Nat → QueuePool J M, run 0 = p ∧
      ∀ n, Move meaning order (QueueStep effect) (run n) (run (n + 1))) ∧
    ((∀ p', ¬ Move meaning order (Promptly effect) p p') →
      ∀ j, ∃ status, p.progs j = .ret status) := by
  refine ⟨?_, fun stuck j => ?_⟩
  · rintro ⟨run, -, moves⟩
    have ends := wellFounded_iff_isEmpty_descending_chain.mp
      (moves_wellFounded : WellFounded fun p' p : QueuePool J M =>
        Move meaning order (QueueStep effect) p p')
    exact ends.false ⟨run, moves⟩
  · refine Classical.byContradiction fun left => ?_
    obtain ⟨p', move⟩ := runs.exists_move documented calm rank turns signalled j
      fun status returned => left ⟨status, returned⟩
    exact stuck p' move

theorem queue_drains_sample : ∃ p, SampleRuns p ∧
    ((∀ p', ¬ Move meaning (fun _ _ => False) (Promptly sampleEffect) p p') →
      ∀ j, ∃ status, p.progs j = .ret status) := by
  refine ⟨_, .refl, (queue_drains plainIree plainIree_documented sampleOps (fun _ _ => False)
    sampleEffect sampleQueue (fun _ => le_refl _) (fun j => if j = 2 then 1 else 0)
      (fun _ _ => False.elim) ?_ _ .refl).2⟩
  intro j x member
  match j with
  | 0 | 1 => exact absurd member List.not_mem_nil
  | 2 =>
      right
      rcases List.mem_cons.mp member with rfl | member
      · exact ⟨0, 1, by decide, by decide, by decide⟩
      · obtain rfl := List.mem_singleton.mp member
        exact ⟨1, 1, by decide, by decide, by decide⟩

end Estela.Runtime.Queue
