import Mathlib.Data.List.Induction
import Estela.Runtime.DeviceObjects

set_option autoImplicit false

/- Which axis a device has registered with a frontier tracker, over any life of
the device: assigned, assigned again, cleared and destroyed in any order. -/
namespace Estela.Runtime

open Ledger
open CallProgram (Prog)

/-- What registering with a frontier tracker acquires. -/
def Resource.IsFrontier : Resource → Prop
  | .axis _ _ => True
  | .tracker _ => True
  | _ => False

/-- One `assign_topology_info`, and how its steps go. -/
structure Assignment where
  info : Option TopologyInfo
  outcomes : Outcomes

/-- The device, and the ledger of all calls so far. -/
structure Life where
  device : HalDevice
  world : World

def Life.assign (s : Life) (step : Assignment) : CResult Unit × Life :=
  let run := (deviceAssignTopologyInfo s.device step.info).eval step.outcomes.answer s.world
  (run.1.1, ⟨run.1.2, run.2⟩)

def Life.after (s : Life) (steps : List Assignment) : Life :=
  steps.foldl (fun s step => (s.assign step).2) s

def Life.destroy (s : Life) (o : Outcomes) : World :=
  ((deviceDestroy s.device).eval o.answer s.world).2

/-- No tracker yet, and nothing left over from one. -/
structure Life.Fresh (s : Life) : Prop where
  untracked : s.device.frontierTracker = none
  settled : ∀ r : Resource, r.IsFrontier → acquired s.world.entries r = released s.world.entries r

/-- Registered on behalf of the device is the axis it has recorded, once, and no other. -/
def Life.Registered (s : Life) : Prop :=
  ∀ tracker axis, acquired s.world.entries (.axis tracker axis) =
    released s.world.entries (.axis tracker axis) +
      if s.device.frontierTracker = some tracker ∧ s.device.axis = axis then 1 else 0

/-- A life, from `s` on to its end. -/
structure Life.Balanced (s : Life) (steps : List Assignment) (o : Outcomes) : Prop where
  registered : ∀ before after, steps = before ++ after → (s.after before).Registered
  failed : ∀ before step after, steps = before ++ step :: after →
    ((s.after before).assign step).1 ≠ .ok () → ((s.after before).assign step).2 = s.after before
  ended : ∀ r : Resource, r.IsFrontier → acquired ((s.after steps).destroy o).entries r =
    released ((s.after steps).destroy o).entries r

/-- An info is only ever registered where no tracker is recorded. -/
def Life.ClearsFirst (s : Life) (steps : List Assignment) : Prop :=
  ∀ before step after, steps = before ++ step :: after → step.info ≠ none →
    step.outcomes.register = .ok () → (s.after before).device.frontierTracker = none

/-- What the device has recorded. -/
def HalDevice.recorded (device : HalDevice) (r : Resource) : Nat :=
  match device.frontierTracker with
  | none => 0
  | some tracker =>
      (if Resource.axis tracker device.axis = r then 1 else 0) +
        if Resource.tracker tracker = r then 1 else 0

/-- The device holds the axis and the tracker it has recorded, and no other. -/
def Life.Inv (s : Life) : Prop :=
  ∀ r : Resource, r.IsFrontier →
    acquired s.world.entries r = released s.world.entries r + s.device.recorded r

theorem Life.Fresh.inv {s : Life} (fresh : s.Fresh) : s.Inv := by
  intro r frontier
  simp only [HalDevice.recorded, fresh.untracked]
  exact fresh.settled r frontier

theorem Life.Inv.registered {s : Life} (inv : s.Inv) : s.Registered := by
  intro tracker axis
  rw [inv (.axis tracker axis) trivial, HalDevice.recorded]
  cases recorded : s.device.frontierTracker with
  | none => simp
  | some known => simp [Resource.axis.injEq]

/-- What an assignment can do. -/
inductive Assigned (s : Life) : Assignment → CResult Unit → Life → Prop
  | cleared (o : Outcomes) (untracked : s.device.frontierTracker = none) :
      Assigned s ⟨none, o⟩ (.ok ()) { s with device := { s.device with topologyInfo := none } }
  | retired (o : Outcomes) (tracker : Nat) (tracked : s.device.frontierTracker = some tracker) :
      Assigned s ⟨none, o⟩ (.ok ()) {
        device := { s.device with frontierTracker := none, axis := 0, topologyInfo := none }
        world := (s.world.release (.axis tracker s.device.axis)).release (.tracker tracker) }
  | failed (o : Outcomes) (info : TopologyInfo) (stop : Stop)
    (register : o.register = .error stop) :
      Assigned s ⟨some info, o⟩ (.error stop) s
  | registered (o : Outcomes) (info : TopologyInfo) (register : o.register = .ok ()) :
      Assigned s ⟨some info, o⟩ (.ok ()) {
        device := { s.device with
          topologyInfo := some info, frontierTracker := some info.tracker, axis := info.baseAxis }
        world := (s.world.acquire (.axis info.tracker info.baseAxis)).acquire
          (.tracker info.tracker) }

theorem Life.assigned (s : Life) (step : Assignment) :
    Assigned s step (s.assign step).1 (s.assign step).2 := by
  obtain ⟨⟨address, identifier, deviceAllocator, proactorPool, proactor, tracker, axis, epoch,
    channelProvider, topologyInfo, dev⟩, world⟩ := s
  obtain ⟨info, o⟩ := step
  cases info with
  | none =>
      cases tracker with
      | none => exact .cleared o rfl
      | some tracker => exact .retired o tracker rfl
  | some info =>
      obtain ⟨_, _, _, _, _, _, register, _, _, _⟩ := o
      cases register with
      | error stop => exact .failed _ info stop rfl
      | ok _ => exact .registered _ info rfl

/-- The assignment does not overwrite a recorded tracker. -/
def Assignment.Clears (step : Assignment) (s : Life) : Prop :=
  step.info ≠ none → step.outcomes.register = .ok () → s.device.frontierTracker = none

theorem Life.Inv.assign {s s' : Life} {step : Assignment} {status : CResult Unit} (inv : s.Inv)
    (assigned : Assigned s step status s') (clears : step.Clears s) : s'.Inv := by
  intro r frontier
  have before := inv r frontier
  cases assigned with
  | cleared o untracked => exact before
  | retired o tracker tracked =>
      simp only [HalDevice.recorded, tracked] at before
      simp only [World.release, acquired_released, released_released, HalDevice.recorded]
      omega
  | failed o info stop register => exact before
  | registered o info register =>
      simp only [HalDevice.recorded, clears (Option.some_ne_none _) register] at before
      simp only [World.acquire, acquired_acquired, released_acquired, HalDevice.recorded]
      omega

/-- An overwritten tracker stays registered. -/
theorem Life.Registered.clears {s s' : Life} {step : Assignment} {status : CResult Unit}
    (before : s.Registered) (assigned : Assigned s step status s') (after : s'.Registered) :
    step.Clears s := by
  intro nonNull register
  cases assigned with
  | cleared => exact absurd rfl nonNull
  | retired => exact absurd rfl nonNull
  | failed o info stop failed =>
      rw [register] at failed
      cases failed
  | registered o info _ =>
      by_contra tracked
      obtain ⟨tracker, tracked⟩ := Option.ne_none_iff_exists'.mp tracked
      have old := before tracker s.device.axis
      have new := after tracker s.device.axis
      simp only [tracked, and_self, ↓reduceIte] at old
      simp only [World.acquire, acquired_acquired, released_acquired, reduceCtorEq, ↓reduceIte,
        Resource.axis.injEq, Option.some.injEq] at new
      omega

theorem Life.after_append (s : Life) (before after : List Assignment) :
    s.after (before ++ after) = (s.after before).after after := List.foldl_append

theorem Life.after_snoc (s : Life) (before : List Assignment) (step : Assignment) :
    s.after (before ++ [step]) = ((s.after before).assign step).2 := s.after_append before [step]

theorem Life.Inv.after {s : Life} (inv : s.Inv) (steps : List Assignment)
    (clears : s.ClearsFirst steps) :
    ∀ before after, steps = before ++ after → (s.after before).Inv := by
  intro before
  induction before using List.reverseRecOn with
  | nil => exact fun _ _ => inv
  | append_singleton before step ih =>
      intro after split
      rw [List.append_assoc] at split
      rw [s.after_snoc]
      exact (ih _ split).assign (Life.assigned _ step) (clears before step after split)

/-- A change that no axis and no tracker is part of. -/
def World.SameFrontier (w w' : World) : Prop :=
  ∀ r : Resource, r.IsFrontier →
    acquired w'.entries r = acquired w.entries r ∧ released w'.entries r = released w.entries r

theorem World.SameFrontier.refl (w : World) : w.SameFrontier w := fun _ _ => ⟨rfl, rfl⟩

theorem World.SameFrontier.trans {w w' w'' : World} (first : w.SameFrontier w')
    (second : w'.SameFrontier w'') : w.SameFrontier w'' := fun r frontier =>
  ⟨(second r frontier).1.trans (first r frontier).1,
    (second r frontier).2.trans (first r frontier).2⟩

theorem World.sameFrontier_release (w : World) (r : Resource) (other : ¬ r.IsFrontier) :
    w.SameFrontier (w.release r) := by
  intro r' frontier
  have different : r ≠ r' := fun same => other (same ▸ frontier)
  simp [World.release, different]

theorem allocatorRelease_sameFrontier (o : Outcomes) (w : World) (allocator : Option Nat) :
    w.SameFrontier ((allocatorRelease allocator).eval o.answer w).2 := by
  cases allocator with
  | none => exact .refl w
  | some allocator =>
      have step : (allocatorRelease (some allocator)).eval o.answer w =
          ((fun last : Bool => if last then deviceCall (.free allocator) else .ret ())
            (o.answer w (.resourceRelease .allocator allocator)).1).eval o.answer
            (w.release (.reference .allocator allocator)) := rfl
      rw [step]
      generalize (o.answer w (.resourceRelease .allocator allocator)).1 = last
      have released := w.sameFrontier_release (.reference .allocator allocator) id
      cases last with
      | false => exact released
      | true => exact released.trans (World.sameFrontier_release _ (.memory allocator) id)

theorem channelProviderRelease_sameFrontier (o : Outcomes) (w : World) (provider : Option Nat) :
    w.SameFrontier ((channelProviderRelease provider).eval o.answer w).2 := by
  cases provider with
  | none => exact .refl w
  | some provider => exact w.sameFrontier_release (.channelProvider provider) id

/-- A cleared device holds neither axis nor tracker. -/
theorem Life.Inv.clear {s : Life} (inv : s.Inv) (o : Outcomes) (r : Resource)
    (frontier : r.IsFrontier) :
    acquired ((deviceClearTopologyInfo s.device).eval o.answer s.world).2.entries r =
      released ((deviceClearTopologyInfo s.device).eval o.answer s.world).2.entries r := by
  have cleared : (s.assign ⟨none, o⟩).2.Inv :=
    inv.assign (s.assigned ⟨none, o⟩) fun null => absurd rfl null
  have none : (s.assign ⟨none, o⟩).2.device.recorded r = 0 := by
    have assigned := s.assigned ⟨none, o⟩
    generalize s.assign ⟨none, o⟩ = run at assigned
    obtain ⟨status, s'⟩ := run
    cases assigned with
    | cleared o untracked => simp only [HalDevice.recorded, untracked]
    | retired o tracker tracked => rfl
  have same : (s.assign ⟨Option.none, o⟩).2.world =
      ((deviceClearTopologyInfo s.device).eval o.answer s.world).2 := by
    simp only [Life.assign, deviceAssignTopologyInfo, Prog.bind_eq, Prog.eval_bind]
    rfl
  have settled := cleared r frontier
  rwa [none, same] at settled

/-- What else a device releases when it is destroyed. -/
theorem deviceDestroy_rest (o : Outcomes) (device : HalDevice) (w : World) :
    w.SameFrontier ((do
      deviceCall (.proactorPoolRelease device.proactorPool)
      match device.dev with
      | some dev => deviceCall (.devDeinit dev)
      | none => pure ()
      deviceCall (.blockPoolDeinit device.address)
      deviceCall (.free device.address) : DeviceProg Unit).eval o.answer w).2 := by
  have pool := w.sameFrontier_release (.proactorPool device.proactorPool) id
  cases device.dev with
  | none =>
      exact (pool.trans (World.sameFrontier_release _ (.blockPool device.address) id)).trans
        (World.sameFrontier_release _ (.memory device.address) id)
  | some dev =>
      exact ((pool.trans (World.sameFrontier_release _ (.strelaDev dev) id)).trans
        (World.sameFrontier_release _ (.blockPool device.address) id)).trans
        (World.sameFrontier_release _ (.memory device.address) id)

/-- Of axis and tracker, a destroyed device keeps nothing. -/
theorem Life.Inv.destroy {s : Life} (inv : s.Inv) (o : Outcomes) (r : Resource)
    (frontier : r.IsFrontier) :
    acquired (s.destroy o).entries r = released (s.destroy o).entries r := by
  have settled := inv.clear o r frontier
  simp only [Life.destroy, deviceDestroy, Prog.bind_eq, Prog.eval_bind]
  generalize (deviceClearTopologyInfo s.device).eval o.answer s.world = run at settled
  obtain ⟨device, w⟩ := run
  have same := ((allocatorRelease_sameFrontier o w device.deviceAllocator).trans
    (channelProviderRelease_sameFrontier o _ device.channelProvider)).trans
    (deviceDestroy_rest o device _) r frontier
  exact (same.1.trans settled).trans same.2.symm

/-- A life is balanced exactly if no registration that succeeds overwrites a
recorded tracker. -/
theorem life_balanced_iff (s : Life) (steps : List Assignment) (o : Outcomes) (fresh : s.Fresh) :
    s.Balanced steps o ↔ s.ClearsFirst steps := by
  constructor
  · intro balanced before step after split nonNull register
    have now := balanced.registered before (step :: after) split
    have next := balanced.registered (before ++ [step]) after
      (by rw [split, List.append_assoc]; rfl)
    rw [s.after_snoc] at next
    exact now.clears (Life.assigned _ step) next nonNull register
  · intro clears
    have inv := fresh.inv.after steps clears
    refine ⟨fun before after split => (inv before after split).registered, ?_, ?_⟩
    · intro before step after _ notOk
      have assigned := (s.after before).assigned step
      generalize (s.after before).assign step = run at assigned notOk
      obtain ⟨status, s'⟩ := run
      cases assigned with
      | failed o info stop register => rfl
      | _ => exact absurd rfl notOk
    · exact (inv steps [] (List.append_nil steps).symm).destroy o

/-- A device begins its life fresh. -/
theorem deviceCreate_fresh (o : Outcomes) (identifier : String) (options : DeviceOptions)
    (proactorPool : Nat) (device : HalDevice)
    (created : (runDeviceCreate o identifier options proactorPool).1 = (.ok (), some device)) :
    Life.Fresh ⟨device, (runDeviceCreate o identifier options proactorPool).2⟩ := by
  have run := deviceCreate_run o identifier options proactorPool
  rw [created] at run
  generalize (runDeviceCreate o identifier options proactorPool).2 = w at run
  cases run with
  | done address proactor allocator _ _ untracked =>
      refine ⟨untracked, fun r frontier => ?_⟩
      cases r with
      | axis tracker axis => cases isDev : o.dev <;> simp [openedEntries, deviceEntries, isDev]
      | tracker tracker => cases isDev : o.dev <;> simp [openedEntries, deviceEntries, isDev]
      | _ => exact frontier.elim

/-- Outcomes of a device whose every registration succeeds. -/
def registeringOutcomes : Outcomes := { sampleOutcomes with signal := .ok () }

/-- A new device, and nothing in its ledger. -/
def newLife : Life := ⟨initializedDevice "strela" 0x3000 0x1000, .empty⟩

theorem newLife_fresh : newLife.Fresh := ⟨rfl, fun _ _ => rfl⟩

/-- An info registered, cleared and registered again. -/
theorem life_balanced_iff_sample :
    newLife.Balanced [⟨some ⟨0x5000, 1⟩, registeringOutcomes⟩, ⟨none, registeringOutcomes⟩,
        ⟨some ⟨0x5000, 2⟩, registeringOutcomes⟩] registeringOutcomes ↔
      newLife.ClearsFirst [⟨some ⟨0x5000, 1⟩, registeringOutcomes⟩, ⟨none, registeringOutcomes⟩,
        ⟨some ⟨0x5000, 2⟩, registeringOutcomes⟩] :=
  life_balanced_iff newLife _ registeringOutcomes newLife_fresh

/-- A second info leaves the axis of the first one registered for good. -/
theorem reassigning_leaks_axis :
    ¬ ∀ (s : Life) (steps : List Assignment) (o : Outcomes), s.Fresh → s.Balanced steps o := by
  intro claim
  have balanced := claim newLife
    [⟨some ⟨0x5000, 1⟩, registeringOutcomes⟩, ⟨some ⟨0x5000, 2⟩, registeringOutcomes⟩]
    registeringOutcomes newLife_fresh
  exact absurd (balanced.ended (.axis 0x5000 1) trivial) (by decide)

end Estela.Runtime
