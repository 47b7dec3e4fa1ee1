import Estela.Runtime.StaleViews

set_option autoImplicit false

/- Which dispatches leave the CPU with a stale view: those that reach no
invalidation of a line whose memory has changed. -/
namespace Estela.Runtime.StaleViews

open CallProgram WriteBack Coherence

/-! ### What the job writes -/

/-- Jobs write `lines` only, and have done so since the start. -/
structure Within (start : Machine) (lines : Nat → Prop) (b : Board) : Prop where
  suffix : written start <:+ written b.machine
  wrote : ∀ l, Wrote start b.machine l → lines l
  running : ∀ job conf, b.machine.running = some (job, conf) → ∀ w, Writes conf w → lines (lineOf w)

section

variable {start : Machine} {lines : Nat → Prop} {b b' : Board}

theorem Within.meanwhile {dev : Jobs.Dev} {m m' : Machine} {carried : List Carried}
    (within : Within start lines ⟨dev, m, carried⟩) (moves : Meanwhile m m') :
    Within start lines ⟨dev, m', carried⟩ := by
  induction moves with
  | refl => exact within
  | @tail between _ _ move ih =>
      obtain ⟨suffix, wrote, running⟩ := ih
      have suffix' := background_suffix move
      refine ⟨suffix.trans suffix', fun l later => ?_, ?_⟩
      · rcases later.split suffix suffix' with before | now
        · exact wrote l before
        · cases move with
          | jobWrite job conf w v busy column =>
              rw [(wrote_cons between _ w v).mp now]
              exact running job conf busy w column
          | _ => exact absurd now (not_wrote rfl)
      · rw [background_running move]
        exact running

theorem Within.step {c : Call} {answer : c.Answer} (within : Within start lines b)
    (submits : ∀ job conf, c = .jobSubmit job → b.machine.configured = some (job, conf) →
      ∀ w, Writes conf w → lines (lineOf w))
    (move : Step b c answer b') : Within start lines b' := by
  have suffix := within.suffix.trans move.suffix
  have passive := fun idle : Passive c => move.running idle
  obtain ⟨_, between, moves, ⟨done, -, -⟩ | ⟨-, -, same, -⟩⟩ := move
  · obtain ⟨-, wrote, -⟩ := within.meanwhile moves
    have words := (effect_touched c answer done).words
    refine ⟨suffix, fun l here => wrote l (here.more (words ▸ List.suffix_rfl)), ?_⟩
    intro job conf busy
    cases c
    case jobSubmit job' =>
      rcases done with same | ⟨latest, configured, same⟩
      · rw [same, meanwhile_running moves] at busy
        exact within.running job conf busy
      · rw [same] at busy
        obtain ⟨rfl, rfl⟩ := Prod.mk.inj (Option.some.inj busy)
        exact submits _ _ rfl (moves.configured ▸ configured)
    all_goals
      rcases passive trivial with same | idle
      · exact within.running job conf (same ▸ busy)
      · rw [idle] at busy
        cases busy
  · obtain ⟨-, wrote, running⟩ := within.meanwhile moves
    rw [← same] at wrote running
    exact ⟨suffix, wrote, running⟩

theorem Within.passive {c : Call} {answer : c.Answer} (passive : Passive c)
    (within : Within start lines b) (move : Step b c answer b') : Within start lines b' := by
  refine within.step ?_ move
  rintro job conf rfl
  exact passive.elim

theorem within_triple {α : Type} {p : Driver α} (calls : p.Calls Passive) :
    Triple Step (Within start lines) p (fun _ => Within start lines) :=
  .of_calls calls fun _ passive _ _ _ within move => within.passive passive move

theorem runJob_within (kernel : StrelaKernel) (conf : StrelaConf)
    (confined : ∀ w, Writes conf w → lines (lineOf w)) :
    Triple Step (Within start lines) (runJob kernel conf) (fun _ => Within start lines) := by
  refine Triple.bind (fun job b => Within start lines b ∧
    b.machine.configured = some (job, conf)) ?_ (fun job => ?_)
  · refine Triple.call (Call.jobConfig kernel conf) _ _ ?_
      (fun job => Triple.ret job (fun _ both => both))
    intro b job b' within move
    refine ⟨within.passive (c := .jobConfig kernel conf) trivial move, ?_⟩
    obtain ⟨_, between, _, ⟨done, -⟩ | ⟨-, other, -⟩⟩ := move
    · have same : b'.machine = { between with configured := some (job, conf) } := done
      rw [same]
    · exact other.elim
  refine Triple.bind (fun _ => Within start lines) ?_ (fun _ => ?_)
  · refine Triple.call (Call.jobSubmit job) _ _ ?_ (fun _ => Triple.ret _ (fun _ both => both))
    rintro b _ b' ⟨within, configured⟩ move
    refine within.step (c := .jobSubmit job) (fun job' conf' same configured' => ?_) move
    cases same
    rw [configured] at configured'
    cases configured'
    exact confined
  refine within_triple (.bind (call_calls (c := .jobWait job (-1)) trivial) fun _ => ?_)
  exact .bind ((statusFromDev_calls _).mono asking_passive) fun _ => trivial

/-- The job of a dispatch writes lines of its outputs only. -/
theorem dispatchColumns_within (st : SizeT) (kernel : StrelaKernel)
    (columns : List (Column × Column)) (outputs : ∀ pair ∈ columns, ∀ k < pair.2.wordCount,
      columnLines st pair.2 (lineOf (pair.2.word false k))) :
    Triple Step (Within start (outputLines st columns)) (dispatchColumns st kernel columns)
      (fun _ => Within start (outputLines st columns)) := by
  have confined : ∀ w, Writes (strelaConf columns) w → outputLines st columns (lineOf w) := by
    rintro w ⟨conf, member, k, step, rfl⟩
    obtain ⟨pair, found, rfl⟩ := List.mem_map.mp member
    exact ⟨pair, found, outputs pair found k step⟩
  refine Triple.bind _ (within_triple ((flushColumns_calls st columns).mono fun c flushing =>
    syncing_passive c flushing.syncing)) (fun status => ?_)
  refine Triple.bind (fun _ => Within start (outputLines st columns)) ?_ (fun started => ?_)
  · cases status with
    | ok _ => exact runJob_within kernel _ confined
    | error stop => exact Triple.ret _ (fun _ within => within)
  exact within_triple (afterJob_calls st columns started)

end

/-! ### What was asked before an invalidation -/

/-- When the driver came to an invalidation and the flush before it, every earlier call
had succeeded. -/
def Ordered (trace : List Jobs.Event) : Prop :=
  ∀ before event after, trace = before ++ event :: after → ¬ Keeping event.call →
    ∀ earlier ∈ before.dropLast, earlier.Succeeded

/-- The calls before the first invalidation. -/
def Early (status : CResult Unit) (d : Jobs.Dev) : Prop :=
  (∀ event ∈ d.trace, Keeping event.call) ∧
    (status = .ok () → ∀ event ∈ d.trace, event.Succeeded)

section

variable {d d' : Jobs.Dev} {status : CResult Unit}

theorem Ordered.keeping {trace : List Jobs.Event} (keeping : ∀ event ∈ trace, Keeping event.call) :
    Ordered trace := by
  rintro before event after rfl dropping
  exact absurd (keeping event (by simp)) dropping

theorem Early.segment {calls : List Call} {events : List Jobs.Event} (early : Early (.ok ()) d)
    (segment : Jobs.Segment calls d status d' events) (keeping : ∀ c ∈ calls, Keeping c) :
    Early status d' := by
  unfold Early
  rw [segment.trace]
  refine ⟨List.forall_mem_append.mpr ⟨early.1, fun event member => ?_⟩, fun ok => ?_⟩
  · exact keeping _ (segment.among.subset (List.mem_map_of_mem member))
  · exact List.forall_mem_append.mpr ⟨early.2 rfl, (segment.onOk ok).1⟩

/-- One column: its flush and its invalidation, with no check between them. -/
theorem Ordered.column (st : SizeT) (column : Column) {events : List Jobs.Event}
    (ordered : Ordered d.trace) (fine : ∀ event ∈ d.trace, event.Succeeded)
    (segment : Jobs.Segment (Jobs.invalidateCalls st column) d status d' events) :
    Ordered d'.trace := by
  rw [segment.trace]
  intro before event after same dropping earlier member
  rcases List.append_eq_append_iff.mp same with ⟨made, rfl, rest⟩ | ⟨made, given, rest⟩
  · -- at most the column's own flush was made after `d`
    have few : events.length ≤ 2 := by
      have short := segment.among.length_le
      rw [List.length_map] at short
      refine Nat.le_trans short ?_
      unfold Jobs.invalidateCalls Jobs.syncCalls
      split <;> simp
    rw [rest, List.length_append, List.length_cons] at few
    match made, few, rest with
    | [], _, _ =>
        rw [List.append_nil] at member
        exact fine earlier (List.dropLast_subset _ member)
    | [own], _, _ =>
        rw [List.dropLast_concat] at member
        exact fine earlier member
    | _ :: _ :: _, few, _ =>
        simp only [List.length_cons] at few
        omega
  · cases made with
    | nil =>
        rw [List.append_nil] at given
        rw [← given] at member
        exact fine earlier (List.dropLast_subset _ member)
    | cons first more =>
        obtain ⟨rfl, -⟩ := List.cons.inj rest
        exact ordered before event more given dropping earlier member

theorem invalidateColumns_ordered (st : SizeT) (columns : List (Column × Column))
    (ordered : Ordered d.trace) (fine : ∀ event ∈ d.trace, event.Succeeded)
    (run : Run Jobs.Step (invalidateColumns st columns) d status d') : Ordered d'.trace := by
  induction columns generalizing d with
  | nil =>
      obtain ⟨-, rfl⟩ := (run_ret_iff _ _ _ _).mp run
      exact ordered
  | cons pair rest ih =>
      obtain ⟨first, middle, outputRun, run⟩ := (run_bind_iff _ _ _ _ _).mp run
      obtain ⟨events, segment⟩ := Jobs.invalidateColumn_run st pair.2 outputRun
      have after := ordered.column st pair.2 fine segment
      cases first with
      | error stop =>
          obtain ⟨-, rfl⟩ := (run_ret_iff _ _ _ _).mp run
          exact after
      | ok _ =>
          refine ih after ?_ run
          rw [segment.trace]
          exact List.forall_mem_append.mpr ⟨fine, (segment.onOk rfl).1⟩

theorem flushCalls_keeping (st : SizeT) (columns : List (Column × Column)) :
    ∀ c ∈ columns.flatMap fun pair => Jobs.flushCalls st pair.1 ++ Jobs.flushCalls st pair.2,
      Keeping c := by
  have one (column : Column) : ∀ c ∈ Jobs.flushCalls st column, Keeping c := by
    unfold Jobs.flushCalls Jobs.syncCalls
    split <;> simp [Keeping]
  intro c member
  obtain ⟨pair, _, here⟩ := List.mem_flatMap.mp member
  exact (List.mem_append.mp here).elim (one _ c) (one _ c)

/-- Everything a dispatch does before its last loop. -/
theorem dispatchColumns_early (st : SizeT) (kernel : StrelaKernel)
    (columns : List (Column × Column)) {err : Option StrelaErr} {result : CResult Unit}
    (run : Run Jobs.Step (dispatchColumns st kernel columns) ⟨err, []⟩ result d') :
    ∃ status between, Early status between ∧
      Run Jobs.Step (whileOk status (invalidateColumns st columns)) between result d' := by
  obtain ⟨flushed, d1, flushRun, run⟩ := (run_bind_iff _ _ _ _ _).mp run
  obtain ⟨⟨job, started⟩, d2, startRun, run⟩ := (run_bind_iff _ _ _ _ _).mp run
  obtain ⟨polled, d3, pollRun, run⟩ := (run_bind_iff _ _ _ _ _).mp run
  obtain ⟨freed, d4, freeRun, invalRun⟩ := (run_bind_iff _ _ _ _ _).mp run
  refine ⟨freed, d4, ?_, invalRun⟩
  have early : Early (.ok ()) ⟨err, []⟩ := ⟨fun _ => nofun, fun _ _ => nofun⟩
  obtain ⟨before, flushes⟩ := Jobs.flushColumns_run st columns flushRun
  have early1 := early.segment flushes (flushCalls_keeping st columns)
  have early2 : Early started d2 := by
    cases flushed with
    | error stop =>
        obtain ⟨same, rfl⟩ := (run_ret_iff _ _ _ _).mp startRun
        obtain ⟨-, rfl⟩ := Prod.mk.inj same
        exact early1
    | ok _ =>
        obtain ⟨_, _, _, segment⟩ := Jobs.runJob_run kernel _ startRun
        exact early1.segment segment (by simp [Keeping])
  have early3 : Early polled d3 := by
    cases started with
    | error stop =>
        obtain ⟨rfl, rfl⟩ := (run_ret_iff _ _ _ _).mp pollRun
        exact early2
    | ok _ =>
        obtain ⟨_, _, segment⟩ := Jobs.pollJob_run job pollRun
        exact early2.segment segment (by simp [Keeping])
  obtain ⟨raised, trace, onOk, onError⟩ := Jobs.freeJob_run job polled freeRun
  cases polled with
  | error stop =>
      refine ⟨?_, fun ok => absurd ok (onError nofun)⟩
      rw [trace]
      refine List.forall_mem_append.mpr ⟨early3.1, ?_⟩
      unfold Jobs.freeEvents
      split <;> simp [Keeping]
  | ok _ => exact early3.segment (onOk rfl) (by split <;> simp [Keeping])

theorem commandBufferDispatch_ordered (st : SizeT) (executable : Executable) (function : BitVec 64)
    (constants : ConstByteSpan) (bindings : List BufferRef) {err : Option StrelaErr}
    {result : CResult Unit}
    (run : Run Jobs.Step (commandBufferDispatch st executable function constants bindings)
      ⟨err, []⟩ result d') : Ordered d'.trace := by
  unfold commandBufferDispatch at run
  split at run
  · obtain ⟨-, rfl⟩ := (run_ret_iff _ _ _ _).mp run
    exact .keeping nofun
  split at run
  · obtain ⟨-, rfl⟩ := (run_ret_iff _ _ _ _).mp run
    exact .keeping nofun
  obtain ⟨status, between, early, run⟩ := dispatchColumns_early st _ _ run
  cases status with
  | error stop =>
      obtain ⟨-, rfl⟩ := (run_ret_iff _ _ _ _).mp run
      exact .keeping early.1
  | ok _ => exact invalidateColumns_ordered st _ (.keeping early.1) (early.2 rfl) run

end

/-- Where in the trace an invalidation was carried out. -/
def Recorded (b : Board) : Prop :=
  ∀ r ∈ b.carried, ∃ event after, b.dev.trace = r.before ++ event :: after ∧ ¬ Keeping event.call

theorem step_trace {d d' : Jobs.Dev} {c : Call} {answer : c.Answer}
    (told : Jobs.Step d c answer d') : d.trace <+: d'.trace := by
  cases c
  case devOk => exact told.2 ▸ List.prefix_rfl
  case devGetErr => exact told.2 ▸ List.prefix_rfl
  case devResetErr => exact told ▸ List.prefix_rfl
  all_goals
    obtain ⟨err, -, same⟩ := told
    rw [same]
    exact List.prefix_append _ _

theorem Recorded.step {b b' : Board} {c : Call} {answer : c.Answer} (recorded : Recorded b)
    (move : Step b c answer b') : Recorded b' := by
  obtain ⟨told, _, _, ⟨-, -, carries⟩ | ⟨-, -, -, carries⟩⟩ := move
  all_goals
    obtain ⟨more, trace⟩ := step_trace told
    have kept : ∀ r ∈ b.carried, ∃ event after, b'.dev.trace = r.before ++ event :: after ∧
        ¬ Keeping event.call := by
      intro r member
      obtain ⟨event, after, same, dropping⟩ := recorded r member
      exact ⟨event, after ++ more, by rw [← trace, same, List.append_assoc, List.cons_append],
        dropping⟩
  · unfold Recorded
    rw [carries]
    cases c
    case bufferInval buffer offset count =>
      obtain ⟨err, -, same⟩ := told
      refine List.forall_mem_cons.mpr
        ⟨⟨⟨.bufferInval buffer offset count, answer, err⟩, [], ?_, id⟩, kept⟩
      rw [same]
    all_goals exact kept
  · unfold Recorded
    rw [carries]
    exact kept

/-! ### The same calls and writes, with another cache -/

/-- The same jobs and the same words written. -/
structure Mirror (m n : Machine) : Prop where
  words : written n = written m
  configured : n.configured = m.configured
  running : n.running = m.running

section

variable {m m' n : Machine} {l : Nat}

/-- Line `l` comes in right before the job writes it, and a value it does not hold. -/
theorem Mirror.background (mirror : Mirror m n) (move : Background m m') (l : Nat) :
    ∃ n', Meanwhile n n' ∧ Mirror m' n' ∧ (Stale n l ∨ Wrote m m' l → Stale n' l) := by
  obtain ⟨same, configured, running⟩ := mirror
  cases move with
  | jobWrite job conf w v busy column =>
      rw [wrote_cons m _ w v]
      by_cases here : l = lineOf w
      · let brought := prefetch lineOf (evict lineOf n.cache (lineOf w)) (lineOf w)
        let v' : BitVec 32 := brought.cached w + 1
        refine ⟨{ n with cache := memWrite brought w v', log := .write w v' :: n.log }, ?_,
          ⟨congrArg (w :: ·) same, configured, running⟩, fun _ => ?_⟩
        · refine ((Relation.ReflTransGen.single (.evict n (lineOf w))).tail
            (.prefetch _ (lineOf w))).tail (.jobWrite _ job conf w v' ?_ column)
          exact running.trans busy
        · rw [here]
          exact outdated_memWrite n.cache w (by simp [v', brought])
      · refine ⟨{ n with cache := memWrite n.cache w v, log := .write w v :: n.log },
          .single (.jobWrite n job conf w v (running.trans busy) column),
          ⟨congrArg (w :: ·) same, configured, running⟩, ?_⟩
        rintro (stale | now)
        · exact stale.memWrite v fun same => here same.symm
        · exact absurd now here
  | _ => exact ⟨n, .refl, ⟨same, configured, running⟩,
      fun either => either.resolve_right (not_wrote rfl)⟩

theorem Mirror.meanwhile (mirror : Mirror m n) (moves : Meanwhile m m') (l : Nat) :
    ∃ n', Meanwhile n n' ∧ Mirror m' n' ∧ (Stale n l ∨ Wrote m m' l → Stale n' l) := by
  induction moves with
  | refl =>
      exact ⟨n, .refl, mirror, fun either => either.resolve_right (not_wrote rfl)⟩
  | tail moves move ih =>
      obtain ⟨between, first, mirror', stales⟩ := ih
      obtain ⟨n', second, mirror'', stales'⟩ := mirror'.background move l
      refine ⟨n', first.trans second, mirror'', ?_⟩
      rintro (before | wrote)
      · exact stales' (Or.inl (stales (Or.inl before)))
      · rcases wrote.split (meanwhile_suffix moves) (background_suffix move) with early | now
        · exact stales' (Or.inl (stales (Or.inr early)))
        · exact stales' (Or.inr now)

theorem Mirror.effect {c : Call} {answer : c.Answer} (mirror : Mirror m n)
    (done : Effect m c answer m') (l : Nat) :
    ∃ n', Effect n c answer n' ∧ Mirror m' n' ∧
      ((∀ buffer offset count, c = .bufferInval buffer offset count →
        linesOf (buffer.offsetWordsFromBase + offset) count l = false) →
          Stale n l → Stale n' l) := by
  obtain ⟨same, configured, running⟩ := mirror
  have untouched (given : m' = m) : Mirror m' n := given ▸ ⟨same, configured, running⟩
  cases c
  case bufferAlloc words =>
    obtain ⟨given, rest⟩ := done
    exact ⟨n, ⟨rfl, rest⟩, untouched given, fun _ => id⟩
  case bufferFlush buffer offset count =>
    obtain rfl := done
    exact ⟨_, rfl, ⟨same, configured, running⟩, fun _ stale => stale.flush _⟩
  case bufferInval buffer offset count =>
    obtain rfl := done
    exact ⟨_, rfl, ⟨same, configured, running⟩, fun kept stale => stale.inval (kept _ _ _ rfl)⟩
  case jobConfig kernel conf =>
    obtain rfl := done
    exact ⟨{ n with configured := some (answer, conf) }, rfl, ⟨same, rfl, running⟩, fun _ => id⟩
  case jobSubmit job =>
    rcases done with given | ⟨conf, latest, rfl⟩
    · exact ⟨n, Or.inl rfl, untouched given, fun _ => id⟩
    · exact ⟨{ n with running := some (job, conf) }, Or.inr ⟨conf, configured.trans latest, rfl⟩,
        ⟨same, configured, rfl⟩, fun _ => id⟩
  case jobWait job timeout =>
    rcases done with given | ⟨conf, busy, rfl⟩
    · exact ⟨n, Or.inl rfl, untouched given, fun _ => id⟩
    · exact ⟨{ n with running := none }, Or.inr ⟨conf, running.trans busy, rfl⟩,
        ⟨same, configured, rfl⟩, fun _ => id⟩
  case jobPoll job =>
    obtain ⟨given, ended⟩ := done
    refine ⟨n, ⟨rfl, fun ok conf => ?_⟩, untouched given, fun _ => id⟩
    rw [running]
    exact ended ok conf
  all_goals exact ⟨n, rfl, untouched done, fun _ => id⟩

end

section

variable {b b' : Board} {l : Nat}

theorem Step.carried_suffix {c : Call} {answer : c.Answer} (move : Step b c answer b') :
    b.carried <:+ b'.carried := by
  obtain ⟨_, _, _, ⟨-, -, carries⟩ | ⟨-, -, -, carries⟩⟩ := move
  · rw [carries]
    cases c
    case bufferInval => exact List.suffix_cons _ _
    all_goals exact List.suffix_rfl
  · exact carries ▸ List.suffix_rfl

theorem run_carried {α : Type} {p : Driver α} {result : α} (run : Run Step p b result b') :
    b.carried <:+ b'.carried :=
  run.keeps (fun between => b.carried <:+ between.carried)
    (fun _ _ _ _ before move => before.trans move.carried_suffix) List.suffix_rfl

theorem run_suffix {α : Type} {p : Driver α} {result : α} (run : Run Step p b result b') :
    written b.machine <:+ written b'.machine :=
  run.keeps (fun between => written b.machine <:+ written between.machine)
    (fun _ _ _ _ before move => before.trans move.suffix) List.suffix_rfl

theorem Mirror.step {n : Machine} {c : Call} {answer : c.Answer} (mirror : Mirror b.machine n)
    (move : Step b c answer b') (uncovered : ¬ Covered b'.carried l) :
    ∃ n', Step ⟨b.dev, n, b.carried⟩ c answer ⟨b'.dev, n', b'.carried⟩ ∧ Mirror b'.machine n' ∧
      (Stale n l ∨ Wrote b.machine b'.machine l → Stale n' l) := by
  obtain ⟨told, between, moves, ⟨done, ended, carries⟩ | ⟨failed, maintenance, rfl, carries⟩⟩ :=
    move
  · obtain ⟨middle, moves', mirror', stales⟩ := mirror.meanwhile moves l
    obtain ⟨n', done', mirror'', stales'⟩ := mirror'.effect done l
    have words := (effect_touched c answer done).words
    refine ⟨n', ⟨told, middle, moves', Or.inl ⟨done', ?_, carries⟩⟩, mirror'', fun either => ?_⟩
    · cases c
      case jobWait job timeout =>
        intro conf
        rw [mirror''.running]
        exact ended conf
      all_goals trivial
    · refine stales' ?_ (stales (either.imp_right fun here => here.more (words ▸ List.suffix_rfl)))
      rintro buffer offset count rfl
      rw [carries] at uncovered
      exact Bool.eq_false_iff.mpr fun covers => uncovered ⟨_, List.mem_cons_self, covers⟩
  · obtain ⟨n', moves', mirror', stales⟩ := mirror.meanwhile moves l
    exact ⟨n', ⟨told, n', moves', Or.inr ⟨failed, maintenance, rfl, carries⟩⟩, mirror', stales⟩

/-- With another cache, the same run leaves line `l` stale unless something
invalidates it. -/
theorem Mirror.run {α : Type} {p : Driver α} {result : α} {n : Machine}
    (mirror : Mirror b.machine n) (run : Run Step p b result b')
    (uncovered : ¬ Covered b'.carried l) :
    ∃ n', Run Step p ⟨b.dev, n, b.carried⟩ result ⟨b'.dev, n', b'.carried⟩ ∧
      Mirror b'.machine n' ∧ (Stale n l ∨ Wrote b.machine b'.machine l → Stale n' l) := by
  induction run generalizing n with
  | ret value state =>
      exact ⟨n, .ret _ _, mirror, fun either => either.resolve_right (not_wrote rfl)⟩
  | @call c next before between after value answer move rest ih =>
      have uncovered' : ¬ Covered between.carried l := fun ⟨r, member, covers⟩ =>
        uncovered ⟨r, (run_carried rest).subset member, covers⟩
      obtain ⟨middle, move', mirror', stales⟩ := mirror.step move uncovered'
      obtain ⟨n', rest', mirror'', stales'⟩ := ih mirror' uncovered
      refine ⟨n', .call answer move' rest', mirror'', ?_⟩
      rintro (before | wrote)
      · exact stales' (Or.inl (stales (Or.inl before)))
      · rcases wrote.split move.suffix (run_suffix rest) with early | late
        · exact stales' (Or.inl (stales (Or.inr early)))
        · exact stales' (Or.inr late)

end

end Estela.Runtime.StaleViews
