import Estela.Runtime.Coherence
import Estela.Runtime.DriverCalls
import Estela.Runtime.JobAccounting

set_option autoImplicit false

/- The cache after dispatches that may fail: whether the CPU keeps a clean copy
of what a job has overwritten. -/
namespace Estela.Runtime.StaleViews

open CallProgram WriteBack Coherence

/-- An invalidation that libstrela carried out, and the calls made before it. -/
structure Carried where
  before : List Jobs.Event
  start : Nat
  count : Nat

def Carried.covers (r : Carried) (l : Nat) : Bool := linesOf r.start r.count l

/-- The machine behind a device any call of which may fail. -/
structure Board where
  dev : Jobs.Dev
  machine : Machine
  carried : List Carried

/-- What is carried out once the call is. -/
def Board.carry (b : Board) : Call → List Carried
  | .bufferInval buffer offset count =>
      ⟨b.dev.trace, buffer.offsetWordsFromBase + offset, count⟩ :: b.carried
  | _ => b.carried

/-- No job outlives the wait for it: the driver cancels one that hangs. -/
def Ended (m : Machine) : Call → Prop
  | .jobWait job _ => ∀ conf, m.running ≠ some (job, conf)
  | _ => True

def Maintenance : Call → Prop
  | .bufferFlush _ _ _ => True
  | .bufferInval _ _ _ => True
  | _ => False

/-- A flush or an invalidation that fails may have done nothing. -/
def Step (b : Board) (c : Call) (answer : c.Answer) (b' : Board) : Prop :=
  Jobs.Step b.dev c answer b'.dev ∧ ∃ between, Meanwhile b.machine between ∧
    (Effect between c answer b'.machine ∧ Ended b'.machine c ∧ b'.carried = b.carry c ∨
      b'.dev.err ≠ none ∧ Maintenance c ∧ b'.machine = between ∧ b'.carried = b.carried)

/-- Line `l` is cached clean, and the memory behind it is different. -/
def Stale (m : Machine) (l : Nat) : Prop := Outdated lineOf m.cache l

/-- The words written so far, latest first. -/
def written (m : Machine) : List Word :=
  m.log.filterMap fun access => match access with
    | .read _ _ => none
    | .write w _ => some w

/-- A word of line `l` was written. While a dispatch runs, only its job writes. -/
def Wrote (m m' : Machine) (l : Nat) : Prop :=
  ∃ fresh, written m' = fresh ++ written m ∧ ∃ w ∈ fresh, lineOf w = l

/-- The memory behind line `l` may have changed since it was cached. -/
def Behind (m m' : Machine) (l : Nat) : Prop := Stale m l ∨ Wrote m m' l

def Covered (carried : List Carried) (l : Nat) : Prop := ∃ r ∈ carried, r.covers l = true

section

variable {m m' m'' : Machine} {l : Nat}

theorem Wrote.more (wrote : Wrote m m' l) (second : written m' <:+ written m'') :
    Wrote m m'' l := by
  obtain ⟨fresh, more, w, member, here⟩ := wrote
  obtain ⟨later, same⟩ := second
  refine ⟨later ++ fresh, ?_, w, List.mem_append_right _ member, here⟩
  rw [← same, more, List.append_assoc]

theorem Wrote.of_later (wrote : Wrote m' m'' l) (first : written m <:+ written m') :
    Wrote m m'' l := by
  obtain ⟨fresh, more, w, member, here⟩ := wrote
  obtain ⟨earlier, same⟩ := first
  refine ⟨fresh ++ earlier, ?_, w, List.mem_append_left _ member, here⟩
  rw [more, ← same, List.append_assoc]

theorem Wrote.split (wrote : Wrote m m'' l) (first : written m <:+ written m')
    (second : written m' <:+ written m'') : Wrote m m' l ∨ Wrote m' m'' l := by
  obtain ⟨fresh, more, w, member, here⟩ := wrote
  obtain ⟨earlier, same⟩ := first
  obtain ⟨later, same'⟩ := second
  have parts : fresh = later ++ earlier := by
    have same : fresh ++ written m = (later ++ earlier) ++ written m := by
      rw [← more, List.append_assoc, same, same']
    exact List.append_cancel_right same
  rw [parts, List.mem_append] at member
  rcases member with late | early
  · exact Or.inr ⟨later, same'.symm, w, late, here⟩
  · exact Or.inl ⟨earlier, same.symm, w, early, here⟩

theorem not_wrote (same : written m' = written m) : ¬ Wrote m m' l := by
  rintro ⟨fresh, more, w, member, -⟩
  rw [same] at more
  rw [List.self_eq_append_left.mp more] at member
  cases member

theorem wrote_cons (m : Machine) (cache : WriteBack.State Word Nat (BitVec 32)) (w : Word)
    (v : BitVec 32) :
    Wrote m { m with cache := cache, log := .write w v :: m.log } l ↔ l = lineOf w := by
  constructor
  · rintro ⟨fresh, more, w', member, rfl⟩
    have same : [w] ++ written m = fresh ++ written m := more
    have one : fresh = [w] := (List.append_cancel_right same).symm
    rw [one] at member
    rw [List.mem_singleton.mp member]
  · rintro rfl
    exact ⟨[w], rfl, w, List.mem_singleton_self w, rfl⟩

theorem background_suffix (move : Background m m') : written m <:+ written m' := by
  cases move with
  | jobWrite job conf w v running column => exact List.suffix_cons w _
  | _ => exact List.suffix_rfl

theorem background_running (move : Background m m') : m'.running = m.running := by
  cases move <;> rfl

theorem meanwhile_suffix (moves : Meanwhile m m') : written m <:+ written m' := by
  induction moves with
  | refl => exact List.suffix_rfl
  | tail _ move ih => exact ih.trans (background_suffix move)

theorem meanwhile_running (moves : Meanwhile m m') : m'.running = m.running := by
  induction moves with
  | refl => rfl
  | tail _ move ih => exact (background_running move).trans ih

end

/-- Calls that start no job. -/
def Passive : Call → Prop
  | .jobSubmit _ => False
  | _ => True

/-- Calls that drop nothing from the cache. -/
def Keeping : Call → Prop
  | .bufferInval _ _ _ => False
  | _ => True

theorem Board.carry_keeping (b : Board) {c : Call} (keeping : Keeping c) :
    b.carry c = b.carried := by
  cases c <;> first | rfl | exact keeping.elim

/-- What a call does to log, cache and jobs. -/
structure Touched (c : Call) (m m' : Machine) : Prop where
  log : m'.log = m.log
  cache : Keeping c ∧ (m'.cache = m.cache ∨ ∃ selected, m'.cache = flush lineOf m.cache selected) ∨
    ∃ buffer offset count, c = .bufferInval buffer offset count ∧
      m'.cache = inval m.cache (linesOf (buffer.offsetWordsFromBase + offset) count)
  running : Passive c → m'.running = m.running ∨ m'.running = none

section

variable {m m' : Machine}

theorem Touched.same {c : Call} (keeping : Keeping c) (same : m' = m) : Touched c m m' :=
  same ▸ ⟨rfl, Or.inl ⟨keeping, Or.inl rfl⟩, fun _ => Or.inl rfl⟩

theorem Touched.words {c : Call} (touched : Touched c m m') : written m' = written m := by
  rw [written, touched.log, written]

theorem effect_touched (c : Call) (answer : c.Answer) (done : Effect m c answer m') :
    Touched c m m' := by
  cases c
  case bufferAlloc words => exact .same trivial done.1
  case bufferFlush buffer offset count =>
    obtain rfl := done
    exact ⟨rfl, Or.inl ⟨trivial, Or.inr ⟨_, rfl⟩⟩, fun _ => Or.inl rfl⟩
  case bufferInval buffer offset count =>
    obtain rfl := done
    exact ⟨rfl, Or.inr ⟨buffer, offset, count, rfl, rfl⟩, fun _ => Or.inl rfl⟩
  case jobConfig kernel conf =>
    obtain rfl := done
    exact ⟨rfl, Or.inl ⟨trivial, Or.inl rfl⟩, fun _ => Or.inl rfl⟩
  case jobSubmit job =>
    rcases done with same | ⟨_, _, rfl⟩
    · exact .same trivial same
    · exact ⟨rfl, Or.inl ⟨trivial, Or.inl rfl⟩, fun passive => passive.elim⟩
  case jobWait job timeout =>
    rcases done with same | ⟨_, _, rfl⟩
    · exact .same trivial same
    · exact ⟨rfl, Or.inl ⟨trivial, Or.inl rfl⟩, fun _ => Or.inr rfl⟩
  case jobPoll job => exact .same trivial done.1
  all_goals exact .same trivial done

end

section

variable {b b' : Board} {c : Call} {answer : c.Answer}

theorem Step.suffix (move : Step b c answer b') : written b.machine <:+ written b'.machine := by
  obtain ⟨_, between, moves, ⟨done, -⟩ | ⟨-, -, same, -⟩⟩ := move
  · rw [(effect_touched c answer done).words]
    exact meanwhile_suffix moves
  · rw [same]
    exact meanwhile_suffix moves

theorem Step.running (passive : Passive c) (move : Step b c answer b') :
    b'.machine.running = b.machine.running ∨ b'.machine.running = none := by
  obtain ⟨_, between, moves, ⟨done, -⟩ | ⟨-, -, same, -⟩⟩ := move
  · rw [← meanwhile_running moves]
    exact (effect_touched c answer done).running passive
  · rw [same]
    exact Or.inl (meanwhile_running moves)

theorem Step.idle (passive : Passive c) (move : Step b c answer b')
    (idle : b.machine.running = none) : b'.machine.running = none :=
  (move.running passive).elim (fun same => same.trans idle) id

theorem Step.carried (keeping : Keeping c) (move : Step b c answer b') :
    b'.carried = b.carried := by
  obtain ⟨_, _, _, ⟨-, -, carries⟩ | ⟨-, -, -, carries⟩⟩ := move
  · exact carries.trans (b.carry_keeping keeping)
  · exact carries

end

/-- Only lines whose memory may have changed since the start, and that no invalidation
carried out covers, may be stale. -/
structure Tracked (start : Machine) (b : Board) : Prop where
  suffix : written start <:+ written b.machine
  current : Current lineOf (fun l => Behind start b.machine l ∧ ¬ Covered b.carried l)
    b.machine.cache

section

variable {start : Machine} {b b' : Board}

theorem covered_cons {r : Carried} {carried : List Carried} {l : Nat} :
    Covered (r :: carried) l ↔ r.covers l = true ∨ Covered carried l := by
  simp only [Covered, List.mem_cons, exists_eq_or_imp]

theorem not_covered_nil (l : Nat) : ¬ Covered [] l := fun covered => nomatch covered.choose_spec.1

theorem Tracked.refl (dev : Jobs.Dev) (m : Machine) : Tracked m ⟨dev, m, []⟩ :=
  ⟨List.suffix_rfl, current_iff_outdated.mpr fun l stale => ⟨Or.inl stale, not_covered_nil l⟩⟩

/-- A job does not write once something is invalidated. -/
theorem Tracked.background {dev : Jobs.Dev} {m m' : Machine} {carried : List Carried}
    (tracked : Tracked start ⟨dev, m, carried⟩) (free : carried = [] ∨ m.running = none)
    (move : Background m m') : Tracked start ⟨dev, m', carried⟩ := by
  obtain ⟨suffix, current⟩ := tracked
  have suffix' := background_suffix move
  refine ⟨suffix.trans suffix', ?_⟩
  have more (l : Nat) (before : Behind start m l ∧ ¬ Covered carried l) :
      Behind start m' l ∧ ¬ Covered carried l :=
    ⟨before.1.imp_right fun wrote => wrote.more suffix', before.2⟩
  cases move with
  | evict l => exact (current.evict l).mono more
  | prefetch l => exact (current.prefetch l).mono more
  | jobRead job conf w running column => exact current.mono more
  | jobWrite job conf w v running column =>
      refine (current.mono more).memWrite w v ⟨Or.inr ?_, ?_⟩
      · exact ((wrote_cons m _ w v).mpr rfl).of_later suffix
      · rcases free with rfl | idle
        · exact not_covered_nil _
        · rw [idle] at running
          cases running

theorem Tracked.meanwhile {dev : Jobs.Dev} {m m' : Machine} {carried : List Carried}
    (tracked : Tracked start ⟨dev, m, carried⟩) (free : carried = [] ∨ m.running = none)
    (moves : Meanwhile m m') : Tracked start ⟨dev, m', carried⟩ := by
  induction moves with
  | refl => exact tracked
  | tail moves move ih =>
      exact ih.background (free.imp_right fun idle => (meanwhile_running moves).trans idle) move

theorem Tracked.step {c : Call} {answer : c.Answer} (tracked : Tracked start b)
    (free : b.carried = [] ∨ b.machine.running = none) (move : Step b c answer b') :
    Tracked start b' := by
  have suffix := tracked.suffix.trans move.suffix
  obtain ⟨_, between, moves, ⟨done, -, carries⟩ | ⟨-, -, same, carries⟩⟩ := move
  · obtain ⟨-, current⟩ := tracked.meanwhile free moves
    have touched := effect_touched c answer done
    have more (l : Nat) (before : Behind start between l) : Behind start b'.machine l :=
      before.imp_right fun wrote => wrote.more (touched.words ▸ List.suffix_rfl)
    refine ⟨suffix, ?_⟩
    rw [carries]
    rcases touched.cache with ⟨keeping, kept⟩ | ⟨buffer, offset, count, rfl, same⟩
    · rw [b.carry_keeping keeping]
      have still : Current lineOf (fun l => Behind start between l ∧ ¬ Covered b.carried l)
          b'.machine.cache := by
        rcases kept with same | ⟨selected, same⟩
        · rw [same]
          exact current
        · rw [same]
          exact current.flush selected
      exact still.mono fun l here => ⟨more l here.1, here.2⟩
    · rw [same]
      refine (current.inval _).mono fun l here => ⟨more l here.1.1, ?_⟩
      show ¬ Covered (_ :: b.carried) l
      rw [covered_cons]
      rintro (covers | before)
      · exact absurd (covers.symm.trans here.2) (by decide)
      · exact here.1.2 before
  · have after := (tracked.meanwhile free moves).current
    refine ⟨suffix, ?_⟩
    rw [same, carries]
    exact after

end

section

variable {start : Machine}

/-- Before the job runs, and while it does. -/
def Ahead (start : Machine) (b : Board) : Prop := Tracked start b ∧ b.carried = []

/-- After the job. -/
def After (start : Machine) (b : Board) : Prop := Tracked start b ∧ b.machine.running = none

theorem Ahead.step {b b' : Board} {c : Call} {answer : c.Answer} (keeping : Keeping c)
    (ahead : Ahead start b) (move : Step b c answer b') : Ahead start b' :=
  ⟨ahead.1.step (Or.inl ahead.2) move, (move.carried keeping).trans ahead.2⟩

theorem After.step {b b' : Board} {c : Call} {answer : c.Answer} (passive : Passive c)
    (after : After start b) (move : Step b c answer b') : After start b' :=
  ⟨after.1.step (Or.inr after.2) move, move.idle passive after.2⟩

theorem asking_passive (c : Call) (asking : Asking c) : Passive c := by
  cases c <;> first | exact trivial | exact asking.elim

theorem syncing_passive (c : Call) (syncing : Syncing c) : Passive c := by
  cases c <;> first | exact trivial | exact syncing.elim

theorem buffering_passive (c : Call) (buffering : Buffering c) : Passive c := by
  cases c <;> first | exact trivial | exact buffering.elim

theorem flushing_keeping (c : Call) (flushing : Flushing c) : Keeping c := by
  cases c <;> first | exact trivial | exact flushing.elim

theorem after_triple {α : Type} {p : Driver α} (calls : p.Calls Passive) :
    Triple Step (After start) p (fun _ => After start) :=
  .of_calls calls fun _ passive _ _ _ after move => after.step passive move

theorem flushColumns_ahead (st : SizeT) (columns : List (Column × Column)) :
    Triple Step (fun b => Ahead start b ∧ b.machine.running = none) (flushColumns st columns)
      (fun _ b => Ahead start b ∧ b.machine.running = none) := by
  refine Triple.of_calls (flushColumns_calls st columns) ?_
  rintro c flushing b answer b' ⟨ahead, idle⟩ move
  exact ⟨ahead.step (flushing_keeping c flushing) move,
    move.idle (syncing_passive c flushing.syncing) idle⟩

/-- The wait is over when the job is. -/
theorem runJob_after (kernel : StrelaKernel) (conf : StrelaConf) :
    Triple Step (fun b => Ahead start b ∧ b.machine.running = none) (runJob kernel conf)
      (fun _ => After start) := by
  refine Triple.bind (fun job b => Ahead start b ∧ b.machine.running = none) ?_ (fun job => ?_)
  · refine Triple.call (Call.jobConfig kernel conf) _ _ ?_
      (fun job => Triple.ret job (fun _ both => both))
    rintro b job b' ⟨ahead, idle⟩ move
    exact ⟨ahead.step (c := .jobConfig kernel conf) trivial move,
      move.idle (c := .jobConfig kernel conf) trivial idle⟩
  refine Triple.bind (fun _ b => Ahead start b ∧
    ∀ other conf', b.machine.running = some (other, conf') → other = job) ?_ (fun _ => ?_)
  · refine Triple.call (Call.jobSubmit job) _ _ ?_ (fun _ => Triple.ret _ (fun _ both => both))
    rintro b _ b' ⟨ahead, idle⟩ move
    refine ⟨ahead.step (c := .jobSubmit job) trivial move, fun other conf' running => ?_⟩
    obtain ⟨_, between, moves, ⟨done, -⟩ | ⟨-, other, -⟩⟩ := move
    · rcases done with same | ⟨latest, -, same⟩
      · rw [same, meanwhile_running moves, idle] at running
        cases running
      · rw [same] at running
        exact (Prod.mk.inj (Option.some.inj running)).1.symm
    · exact other.elim
  refine Triple.bind (fun _ => After start) ?_ (fun _ => ?_)
  · refine Triple.call (Call.jobWait job (-1)) _ _ ?_ (fun _ => Triple.ret _ (fun _ both => both))
    rintro b answer b' ⟨ahead, mine⟩ move
    refine ⟨(ahead.step (c := .jobWait job (-1)) trivial move).1, ?_⟩
    have running := move.running (c := .jobWait job (-1)) trivial
    obtain ⟨_, between, _, ⟨-, ended, -⟩ | ⟨-, other, -⟩⟩ := move
    · cases left : b'.machine.running with
      | none => rfl
      | some entry =>
          obtain ⟨other, conf'⟩ := entry
          rw [left] at running
          have same := mine other conf' (running.resolve_right (by simp)).symm
          exact absurd (same ▸ left) (ended conf')
    · exact other.elim
  exact after_triple (.bind ((statusFromDev_calls _).mono asking_passive) fun _ => trivial)

theorem afterJob_calls (st : SizeT) (columns : List (Column × Column))
    (started : StrelaJob × CResult Unit) :
    ((whileOk started.2 (pollJob started.1)).bind fun status =>
      (freeJob started.1 status).bind fun status =>
        whileOk status (invalidateColumns st columns)).Calls Passive := by
  refine .bind (whileOk_calls _ (.bind (call_calls (c := .jobPoll _) trivial) fun _ => ?_))
    fun status => ?_
  · exact .bind ((statusFromDev_calls _).mono asking_passive) fun _ => whileOk_calls _ trivial
  refine .bind (freeJob_calls _ status trivial asking_passive) fun status => ?_
  exact whileOk_calls status ((invalidateColumns_calls st columns).mono syncing_passive)

/-- Whatever fails, no job is left running, and only lines that no invalidation carried
out covers are stale. -/
theorem dispatchColumns_after (st : SizeT) (kernel : StrelaKernel)
    (columns : List (Column × Column)) :
    Triple Step (fun b => Ahead start b ∧ b.machine.running = none)
      (dispatchColumns st kernel columns) (fun _ => After start) := by
  refine Triple.bind _ (flushColumns_ahead st columns) (fun status => ?_)
  refine Triple.bind (fun _ => After start) ?_ (fun started => ?_)
  · cases status with
    | ok _ => exact runJob_after kernel _
    | error stop => exact Triple.ret _ (fun _ both => ⟨both.1.1, both.2⟩)
  exact after_triple (afterJob_calls st columns started)

theorem commandBufferDispatch_after (st : SizeT) (executable : Executable) (function : BitVec 64)
    (constants : ConstByteSpan) (bindings : List BufferRef) :
    Triple Step (fun b => Ahead start b ∧ b.machine.running = none)
      (commandBufferDispatch st executable function constants bindings)
      (fun _ => After start) := by
  unfold commandBufferDispatch
  split
  · exact Triple.ret _ (fun _ both => ⟨both.1.1, both.2⟩)
  split
  · exact Triple.ret _ (fun _ both => ⟨both.1.1, both.2⟩)
  exact dispatchColumns_after st _ _

end

end Estela.Runtime.StaleViews
