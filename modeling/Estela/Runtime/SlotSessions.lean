import Mathlib.Data.List.Flatten
import Mathlib.Data.List.Nodup
import Mathlib.Logic.Relation
import Estela.Runtime.DriverCalls
import Estela.Runtime.KernelSlots

set_option autoImplicit false

/- Kernel slots and host memory over the life of a program: executables and
buffers come and go, and any call on the way may fail. -/
namespace Estela.Runtime.Slots

open CallProgram
open Relation (ReflTransGen)

/-- The kernels of executables, in order. -/
def kernelsOf (executables : List Executable) : List StrelaKernel :=
  executables.flatMap fun executable => executable.exports.map Export.kernel

/-- The host allocations of executables and buffers. -/
def addressesOf (executables : List Executable) (buffers : List HalStrelaBuffer) : List Nat :=
  executables.map Executable.address ++ buffers.map HalStrelaBuffer.address

/-- What the program holds is what is handed out: each kernel slot to one export,
loaded with its bitstream, and each host allocation to one object. -/
structure Kept (executables : List Executable) (buffers : List HalStrelaBuffer) (w : World) :
    Prop where
  slots : ∀ slot, slot ∈ w.live ↔ slot ∈ kernelsOf executables
  apart : (kernelsOf executables).Nodup
  once : w.live.Nodup
  loaded : ∀ executable ∈ executables, ∀ export_ ∈ executable.exports,
    export_.kernel.valid = true ∧ w.loaded export_.kernel = some export_.exportDef.bitstream
  heap : ∀ address, address ∈ w.heap ↔ address ∈ addressesOf executables buffers
  allocations : (addressesOf executables buffers).Nodup
  allocated : w.heap.Nodup

/-- No call hands out what is handed out already. -/
theorem step_nodup {w w' : World} (c : Call) (answer : c.Answer)
    (inv : w.live.Nodup ∧ w.heap.Nodup) (step : Step w c answer w') :
    w'.live.Nodup ∧ w'.heap.Nodup := by
  cases c
  case devOk => exact step.2 ▸ inv
  case devGetErr => exact step.2 ▸ inv
  case devResetErr =>
    have same : w' = { w with err := none } := step
    rw [same]
    exact inv
  case kernelAlloc =>
    obtain ⟨raised, outcome⟩ := step
    split at outcome
    · obtain ⟨fresh, rfl⟩ := outcome
      exact ⟨List.nodup_cons.mpr ⟨fresh, inv.1⟩, inv.2⟩
    · rw [outcome.2]
      exact inv
  case kernelSet kernel bitstream =>
    obtain ⟨raised, loaded, rfl, -⟩ := step
    exact inv
  case kernelFree kernel =>
    obtain ⟨raised, rfl⟩ := step
    exact ⟨inv.1.erase kernel, inv.2⟩
  case malloc object =>
    cases answer with
    | ok address =>
        obtain ⟨fresh, rfl⟩ := step
        exact ⟨inv.1, List.nodup_cons.mpr ⟨fresh, inv.2⟩⟩
    | error stop =>
        have same : w' = w := step
        rw [same]
        exact inv
  case free address =>
    have same : w' = { w with heap := w.heap.erase address } := step
    rw [same]
    exact ⟨inv.1, inv.2.erase address⟩
  all_goals
    obtain ⟨raised, rfl⟩ := step
    exact inv

theorem run_nodup {α : Type} {p : Driver α} {w w' : World} {result : α}
    (run : Run Step p w result w') (live : w.live.Nodup) (heap : w.heap.Nodup) :
    w'.live.Nodup ∧ w'.heap.Nodup :=
  run.keeps (fun w => w.live.Nodup ∧ w.heap.Nodup)
    (fun _ c answer _ inv step => step_nodup c answer inv step) ⟨live, heap⟩

/-- Calls that neither hand out nor take back anything, nor load a bitstream. -/
def Passing : Call → Prop
  | .kernelAlloc | .kernelSet _ _ | .kernelFree _ | .malloc _ | .free _ => False
  | _ => True

/-- The world but for its error. -/
structure SameWorld (w w' : World) : Prop where
  live : w'.live = w.live
  loaded : w'.loaded = w.loaded
  heap : w'.heap = w.heap

theorem passing_same {w w' : World} (c : Call) (answer : c.Answer) (passing : Passing c)
    (step : Step w c answer w') : SameWorld w w' := by
  cases c
  case devOk => exact step.2 ▸ ⟨rfl, rfl, rfl⟩
  case devGetErr => exact step.2 ▸ ⟨rfl, rfl, rfl⟩
  case devResetErr =>
    have same : w' = { w with err := none } := step
    rw [same]
    exact ⟨rfl, rfl, rfl⟩
  case kernelAlloc => exact passing.elim
  case kernelSet => exact passing.elim
  case kernelFree => exact passing.elim
  case malloc => exact passing.elim
  case free => exact passing.elim
  all_goals
    obtain ⟨raised, rfl⟩ := step
    exact ⟨rfl, rfl, rfl⟩

theorem passing_run {α : Type} {p : Driver α} {w w' : World} {result : α}
    (calls : p.Calls Passing) (run : Run Step p w result w') : SameWorld w w' := by
  refine (Triple.of_calls calls ?_ : Triple Step (SameWorld w) p _) w result w' ⟨rfl, rfl, rfl⟩ run
  intro c passing v answer v' same step
  have next := passing_same c answer passing step
  exact ⟨next.live.trans same.live, next.loaded.trans same.loaded, next.heap.trans same.heap⟩

section

variable {executables : List Executable} {buffers : List HalStrelaBuffer} {w w' : World}

theorem Kept.same (kept : Kept executables buffers w) (same : SameWorld w w') :
    Kept executables buffers w' := by
  obtain ⟨live, loaded, heap⟩ := same
  refine ⟨?_, kept.apart, ?_, ?_, ?_, kept.allocations, ?_⟩
  · rw [live]
    exact kept.slots
  · rw [live]
    exact kept.once
  · rw [loaded]
    exact kept.loaded
  · rw [heap]
    exact kept.heap
  · rw [heap]
    exact kept.allocated

theorem Kept.nothing (slots : w.live = []) (heap : w.heap = []) : Kept [] [] w := by
  refine ⟨fun slot => ?_, List.nodup_nil, slots ▸ List.nodup_nil, fun _ none => (nomatch none),
    fun address => ?_, List.nodup_nil, heap ▸ List.nodup_nil⟩
  · rw [slots]
    exact Iff.rfl
  · rw [heap]
    exact Iff.rfl

/-- Freeing the kernels of an executable takes just these slots back. -/
theorem freeKernels_live (exports : List Export) (once : w.live.Nodup)
    (run : Run Step (freeKernels exports) w () w') :
    (∀ slot, slot ∈ w'.live ↔ slot ∈ w.live ∧ slot ∉ slotsOf exports) ∧
      w'.loaded = w.loaded := by
  induction exports generalizing w with
  | nil =>
      obtain ⟨_, rfl⟩ := (run_ret_iff _ _ _ _).mp run
      refine ⟨fun slot => ?_, rfl⟩
      simp [slotsOf]
  | cons export_ rest ih =>
      rw [slotsOf_cons]
      cases valid : export_.kernel.valid with
      | true =>
          simp only [freeKernels, valid, ↓reduceIte] at run ⊢
          obtain ⟨_, between, ⟨raised, rfl⟩, run⟩ := (run_request_iff _ _ _ _ _).mp run
          obtain ⟨live, loaded⟩ := ih (once.erase export_.kernel) run
          refine ⟨fun slot => ?_, loaded⟩
          rw [live, once.mem_erase_iff]
          simp only [List.singleton_append, List.mem_cons, not_or]
          tauto
      | false =>
          simp only [freeKernels, valid, Bool.false_eq_true, ↓reduceIte] at run ⊢
          exact ih once run

/-- Destroying gives back the slots of the exports and the host memory. -/
theorem executableDestroy_live (executable : Executable) (once : w.live.Nodup)
    (run : Run Step (executableDestroy executable) w () w') :
    (∀ slot, slot ∈ w'.live ↔ slot ∈ w.live ∧ slot ∉ slotsOf executable.exports) ∧
      w'.loaded = w.loaded ∧ w'.heap = w.heap.erase executable.address := by
  obtain ⟨_, middle, freeRun, run⟩ := (run_bind_iff _ _ _ _ _).mp run
  obtain ⟨status, cleared, statusRun, run⟩ := (run_bind_iff _ _ _ _ _).mp run
  obtain ⟨_, final, released, run⟩ := (run_request_iff _ _ _ _ _).mp run
  obtain ⟨_, rfl⟩ := (run_ret_iff _ _ _ _).mp run
  obtain ⟨live, loaded⟩ := freeKernels_live _ once freeRun
  obtain ⟨_, _, heap⟩ := freeKernels_run _ _ _ freeRun
  obtain ⟨rfl, _⟩ := statusFromDev_run _ _ _ _ statusRun
  have same : w' = { middle with err := none, heap := middle.heap.erase executable.address } :=
    released
  rw [same]
  exact ⟨live, loaded, by rw [← heap]⟩

theorem kernelsOf_erase {executable : Executable} (held : executable ∈ executables)
    (apart : (kernelsOf executables).Nodup) (slot : StrelaKernel) :
    slot ∈ kernelsOf (executables.erase executable) ↔
      slot ∈ kernelsOf executables ∧ slot ∉ executable.exports.map Export.kernel := by
  have split := (List.perm_cons_erase held).flatMap_right
    fun executable => executable.exports.map Export.kernel
  have nodup := split.nodup_iff.mp apart
  rw [List.flatMap_cons, List.nodup_append] at nodup
  unfold kernelsOf
  rw [split.mem_iff, List.flatMap_cons, List.mem_append]
  constructor
  · intro other
    exact ⟨Or.inr other, fun own => nodup.2.2 slot own slot other rfl⟩
  · rintro ⟨own | other, apart⟩
    · exact absurd own apart
    · exact other

theorem Kept.slotsOf (kept : Kept executables buffers w) {executable : Executable}
    (held : executable ∈ executables) :
    Slots.slotsOf executable.exports = executable.exports.map Export.kernel :=
  slotsOf_valid _ fun export_ member => (kept.loaded executable held export_ member).1

theorem addressesOf_erase {executable : Executable} (held : executable ∈ executables)
    (allocations : (addressesOf executables buffers).Nodup) (address : Nat) :
    address ∈ addressesOf (executables.erase executable) buffers ↔
      address ≠ executable.address ∧ address ∈ addressesOf executables buffers := by
  have split := ((List.perm_cons_erase held).map Executable.address).append_right
    (buffers.map HalStrelaBuffer.address)
  have nodup := split.nodup_iff.mp allocations
  rw [List.map_cons, List.cons_append, List.nodup_cons] at nodup
  unfold addressesOf
  rw [split.mem_iff, List.map_cons, List.cons_append, List.mem_cons]
  constructor
  · intro other
    exact ⟨fun same => nodup.1 (same ▸ other), Or.inr other⟩
  · rintro ⟨different, same | other⟩
    · exact absurd same different
    · exact other

theorem Kept.destroy (kept : Kept executables buffers w) {executable : Executable}
    (held : executable ∈ executables) (run : Run Step (executableDestroy executable) w () w') :
    Kept (executables.erase executable) buffers w' := by
  obtain ⟨live, loaded, heap⟩ := executableDestroy_live executable kept.once run
  obtain ⟨once, allocated⟩ := run_nodup run kept.once kept.allocated
  rw [kept.slotsOf held] at live
  have fewer := List.erase_sublist (a := executable) (l := executables)
  refine ⟨fun slot => ?_, kept.apart.sublist (fewer.flatMap _), once,
    fun other member export_ among => ?_, fun address => ?_, ?_, allocated⟩
  · rw [live, kernelsOf_erase held kept.apart, kept.slots]
  · rw [loaded]
    exact kept.loaded other (fewer.subset member) export_ among
  · rw [heap, kept.allocated.mem_erase_iff, addressesOf_erase held kept.allocations, kept.heap]
  · exact kept.allocations.sublist ((fewer.map _).append_right _)

/-- The slots of a loop that ended badly, given back, leave what was there before. -/
theorem Loaded.withdrawn {exports stored : List Export} {middle : World} {stop : Stop}
    {address : Nat} (kept : Kept executables buffers w) (fresh : address ∉ w.heap)
    (loaded : Slots.Loaded exports { w with heap := address :: w.heap } stored (.error stop) middle)
    (once : middle.live.Nodup)
    (run : Run Step (executableDestroy { exports := stored, address }) middle () w') :
    Kept executables buffers w' := by
  obtain ⟨live, contents, heap⟩ := executableDestroy_live _ once run
  have heap_ : w'.heap = w.heap := by
    rw [heap, loaded.heap]
    exact List.erase_cons_head _ _
  have live_ : ∀ slot, slot ∈ w'.live ↔ slot ∈ w.live := by
    intro slot
    rw [live, loaded.live]
    constructor
    · rintro ⟨own | old, given⟩
      · exact absurd own given
      · exact old
    · exact fun old => ⟨Or.inr old, fun own => loaded.fresh slot own old⟩
  have nodup := run_nodup run once (by rw [loaded.heap]; exact kept.allocated.cons fresh)
  refine ⟨fun slot => (live_ slot).trans (kept.slots slot), kept.apart, nodup.1,
    fun executable held export_ among => ?_, ?_, kept.allocations, nodup.2⟩
  · obtain ⟨valid, there⟩ := kept.loaded executable held export_ among
    have owned : export_.kernel ∈ w.live := (kept.slots _).mpr
      (List.mem_flatMap.mpr ⟨executable, held, List.mem_map_of_mem among⟩)
    exact ⟨valid, by rw [contents, loaded.frame _ owned valid]; exact there⟩
  · rw [heap_]
    exact kept.heap

/-- A loop that ended well, on the exports of accepted data, makes an executable of
slots nobody held. -/
theorem Loaded.kept {exports stored : List Export} {address : Nat}
    (kept : Kept executables buffers w) (fresh : address ∉ w.heap)
    (loaded : Slots.Loaded exports { w with heap := address :: w.heap } stored (.ok ()) w')
    (nodup : w'.live.Nodup) : Kept ({ exports := stored, address } :: executables) buffers w' := by
  have all := loaded.all rfl
  have slots := slotsOf_valid stored fun export_ member => (all export_ member).1
  have live := loaded.live
  have heap := loaded.heap
  rw [slots] at live
  refine ⟨fun slot => ?_, ?_, nodup, ?_, fun other => ?_, ?_, ?_⟩
  · rw [live, kernelsOf, List.flatMap_cons, List.mem_append]
    exact or_congr_right (kept.slots slot)
  · rw [kernelsOf, List.flatMap_cons, List.nodup_append]
    refine ⟨slots ▸ loaded.once, kept.apart, fun slot own other old => ?_⟩
    rintro rfl
    exact loaded.fresh slot (slots ▸ own) ((kept.slots slot).mpr old)
  · intro executable held export_ among
    rcases List.mem_cons.mp held with rfl | before
    · exact all export_ among
    · obtain ⟨valid, there⟩ := kept.loaded executable before export_ among
      have owned : export_.kernel ∈ w.live := (kept.slots _).mpr
        (List.mem_flatMap.mpr ⟨executable, before, List.mem_map_of_mem among⟩)
      exact ⟨valid, by rw [loaded.frame _ owned valid]; exact there⟩
  · rw [heap, addressesOf, List.map_cons, List.cons_append, List.mem_cons, List.mem_cons]
    exact or_congr_right (kept.heap other)
  · rw [addressesOf, List.map_cons, List.cons_append, List.nodup_cons]
    exact ⟨fun member => fresh ((kept.heap _).mpr member), kept.allocations⟩
  · rw [heap]
    exact kept.allocated.cons fresh

/-- The executables after a creation. -/
def executablesAfter (executables : List Executable) : CResult Executable → List Executable
  | .ok executable => executable :: executables
  | .error _ => executables

theorem Kept.create (kept : Kept executables buffers w) {data : ExecutableData}
    {result : CResult Executable} (run : Run Step (executableCreate data) w result w') :
    Kept (executablesAfter executables result) buffers w' := by
  unfold executableCreate at run
  split at run
  · obtain ⟨rfl, rfl⟩ := (run_ret_iff _ _ _ _).mp run
    exact kept
  split at run
  · obtain ⟨rfl, rfl⟩ := (run_ret_iff _ _ _ _).mp run
    exact kept
  obtain ⟨(allocated : CResult Nat), between, malloc, run⟩ := (run_request_iff _ _ _ _ _).mp run
  cases allocated with
  | error stop =>
      have same : between = w := malloc
      rw [same] at run
      obtain ⟨rfl, rfl⟩ := (run_ret_iff _ _ _ _).mp run
      exact kept
  | ok address =>
      obtain ⟨fresh, rfl⟩ := malloc
      obtain ⟨loaded, middle, loadRun, run⟩ := (run_bind_iff _ _ _ _ _).mp run
      have spec := loadBitstreams_run _ (zeroedExports_invalid _) _ _ _ loadRun
      have once := (run_nodup loadRun kept.once (kept.allocated.cons fresh)).1
      split at run
      · rename_i ok
        obtain ⟨rfl, rfl⟩ := (run_ret_iff _ _ _ _).mp run
        rw [ok] at spec
        exact spec.kept kept fresh once
      · rename_i stop failed
        obtain ⟨_, final, destroyRun, run⟩ := (run_bind_iff _ _ _ _ _).mp run
        obtain ⟨rfl, rfl⟩ := (run_ret_iff _ _ _ _).mp run
        rw [failed] at spec
        exact spec.withdrawn kept fresh once destroyRun

theorem Kept.buffer (kept : Kept executables buffers w) (buffer : HalStrelaBuffer)
    (fresh : buffer.address ∉ w.heap) :
    Kept executables (buffer :: buffers) { w with heap := buffer.address :: w.heap } := by
  have middle : (addressesOf executables (buffer :: buffers)).Perm
      (buffer.address :: addressesOf executables buffers) := List.perm_middle
  refine ⟨kept.slots, kept.apart, kept.once, kept.loaded, fun address => ?_, ?_,
    kept.allocated.cons fresh⟩
  · rw [middle.mem_iff, List.mem_cons, List.mem_cons]
    exact or_congr_right (kept.heap address)
  · rw [middle.nodup_iff, List.nodup_cons]
    exact ⟨fun member => fresh ((kept.heap _).mpr member), kept.allocations⟩

theorem Kept.withoutBuffer (kept : Kept executables buffers w) {buffer : HalStrelaBuffer}
    (held : buffer ∈ buffers) :
    Kept executables (buffers.erase buffer) { w with heap := w.heap.erase buffer.address } := by
  have middle : (addressesOf executables buffers).Perm
      (buffer.address :: addressesOf executables (buffers.erase buffer)) :=
    (((List.perm_cons_erase held).map _).append_left _).trans List.perm_middle
  obtain ⟨other, rest⟩ := List.nodup_cons.mp (middle.nodup_iff.mp kept.allocations)
  refine ⟨kept.slots, kept.apart, kept.once, kept.loaded, fun address => ?_, rest,
    kept.allocated.erase _⟩
  rw [kept.allocated.mem_erase_iff, kept.heap, middle.mem_iff, List.mem_cons]
  constructor
  · rintro ⟨different, same | there⟩
    · exact absurd same different
    · exact there
  · exact fun there => ⟨fun same => other (same ▸ there), Or.inr there⟩

/-- The buffers after an allocation. -/
def buffersAfter (buffers : List HalStrelaBuffer) : CResult HalStrelaBuffer → List HalStrelaBuffer
  | .ok buffer => buffer :: buffers
  | .error _ => buffers

theorem passing_of_dispatching {c : Call} (dispatching : Dispatching c) : Passing c := by
  cases c <;> first | exact trivial | exact dispatching.elim

theorem passing_of_asking {c : Call} (asking : Asking c) : Passing c :=
  passing_of_dispatching asking.syncing.dispatching

theorem allocateCleanup_passing (sBuf : StrelaBuffer) (stop : Stop) :
    (allocateCleanup sBuf stop).Calls Passing := by
  unfold allocateCleanup
  split
  · exact .bind (call_calls (c := .bufferFree sBuf) trivial) fun _ => trivial
  · exact trivial

theorem allocateCleanup_fails {sBuf : StrelaBuffer} {stop : Stop}
    {result : CResult HalStrelaBuffer}
    (run : Run Step (allocateCleanup sBuf stop) w result w') : result = .error stop := by
  unfold allocateCleanup at run
  split at run
  · obtain ⟨_, _, _, run⟩ := (run_request_iff _ _ _ _ _).mp run
    exact ((run_ret_iff _ _ _ _).mp run).1
  · exact ((run_ret_iff _ _ _ _).mp run).1

/-- A failed allocation has no host memory to give back: it comes last. -/
theorem Kept.allocate (kept : Kept executables buffers w) {st : SizeT} {size : BitVec 64}
    {result : CResult HalStrelaBuffer}
    (run : Run Step (allocatorAllocateBuffer st size) w result w') :
    Kept executables (buffersAfter buffers result) w' := by
  have cleaned {v : World} (before : Kept executables buffers v) {sBuf : StrelaBuffer} {stop : Stop}
      (run : Run Step (allocateCleanup sBuf stop) v result w') :
      Kept executables (buffersAfter buffers result) w' := by
    rw [allocateCleanup_fails run]
    exact before.same (passing_run (allocateCleanup_passing _ _) run)
  obtain ⟨(sBuf : StrelaBuffer), asked, alloc, run⟩ := (run_request_iff _ _ _ _ _).mp run
  obtain ⟨status, checked, statusRun, run⟩ := (run_bind_iff _ _ _ _ _).mp run
  have first := (kept.same (passing_same (.bufferAlloc _) sBuf trivial alloc)).same
    (passing_run ((statusFromDev_calls _).mono fun _ => passing_of_asking) statusRun)
  cases status with
  | error stop => exact cleaned first run
  | ok _ =>
      obtain ⟨(hostPtr : Nat), mapped, toPtr, run⟩ := (run_request_iff _ _ _ _ _).mp run
      obtain ⟨wrapped, between, wrapRun, last⟩ :=
        (run_bind_iff (bufferWrap size sBuf hostPtr true) _ _ _ _).mp run
      have second := first.same (passing_same (.bufferToPtr sBuf) hostPtr trivial toPtr)
      obtain ⟨(answer : CResult Nat), given, malloc, wrapRun⟩ :=
        (run_request_iff _ _ _ _ _).mp wrapRun
      cases answer with
      | error stop =>
          have same : given = mapped := malloc
          rw [same] at wrapRun
          obtain ⟨rfl, rfl⟩ := (run_ret_iff _ _ _ _).mp wrapRun
          exact cleaned second last
      | ok address =>
          obtain ⟨fresh, rfl⟩ := malloc
          obtain ⟨rfl, rfl⟩ := (run_ret_iff _ _ _ _).mp wrapRun
          obtain ⟨rfl, rfl⟩ := (run_ret_iff _ _ _ _).mp last
          exact second.buffer ⟨size, sBuf, hostPtr, true, address⟩ fresh

/-- Releasing a buffer the allocator made. -/
theorem Kept.release (kept : Kept executables buffers w) {buffer : HalStrelaBuffer}
    (held : buffer ∈ buffers) (run : Run Step (bufferDestroy buffer) w () w') :
    Kept executables (buffers.erase buffer) w' := by
  have freed {v : World} (same : SameWorld w v)
      (run : Run Step ((call (.free buffer.address)).bind Prog.ret) v () w') :
      Kept executables (buffers.erase buffer) w' := by
    obtain ⟨_, between, released, last⟩ := (run_request_iff _ _ _ _ _).mp run
    obtain ⟨_, same_⟩ := (run_ret_iff _ _ _ _).mp last
    have after : between = { v with heap := v.heap.erase buffer.address } := released
    rw [same_, after]
    exact (kept.same same).withoutBuffer held
  unfold bufferDestroy at run
  split at run
  · obtain ⟨_, between, freeRun, run⟩ := (run_bind_iff (bufferReleaseFn buffer) _ _ _ _).mp run
    exact freed (passing_run (call_calls (c := .bufferFree _) trivial) freeRun) run
  · exact freed ⟨rfl, rfl, rfl⟩ run

end

/-- What a program holds, and the world behind it. -/
structure Session where
  executables : List Executable
  buffers : List HalStrelaBuffer
  world : World

/-- One operation of a program, any of its calls failing or not. -/
inductive Op (st : SizeT) : Session → Session → Prop
  | create {s : Session} (data : ExecutableData) (result : CResult Executable) (w : World)
      (run : Run Step (executableCreate data) s.world result w) :
      Op st s ⟨executablesAfter s.executables result, s.buffers, w⟩
  | destroy {s : Session} (executable : Executable) (w : World) (held : executable ∈ s.executables)
      (run : Run Step (executableDestroy executable) s.world () w) :
      Op st s ⟨s.executables.erase executable, s.buffers, w⟩
  | allocate {s : Session} (size : BitVec 64) (result : CResult HalStrelaBuffer) (w : World)
      (run : Run Step (allocatorAllocateBuffer st size) s.world result w) :
      Op st s ⟨s.executables, buffersAfter s.buffers result, w⟩
  | release {s : Session} (buffer : HalStrelaBuffer) (w : World) (held : buffer ∈ s.buffers)
      (run : Run Step (bufferDestroy buffer) s.world () w) :
      Op st s ⟨s.executables, s.buffers.erase buffer, w⟩
  | flushRange {s : Session} (buffer : HalStrelaBuffer) (offset length : BitVec 64)
      (result : CResult Unit) (w : World)
      (run : Run Step (bufferFlushRange st buffer offset length) s.world result w) :
      Op st s ⟨s.executables, s.buffers, w⟩
  | invalidateRange {s : Session} (buffer : HalStrelaBuffer) (offset length : BitVec 64)
      (result : CResult Unit) (w : World)
      (run : Run Step (bufferInvalidateRange st buffer offset length) s.world result w) :
      Op st s ⟨s.executables, s.buffers, w⟩
  | dispatch {s : Session} (executable : Executable) (function : BitVec 64)
      (constants : ConstByteSpan) (bindings : List BufferRef) (result : CResult Unit) (w : World)
      (run : Run Step (commandBufferDispatch st executable function constants bindings) s.world
        result w) : Op st s ⟨s.executables, s.buffers, w⟩

theorem Kept.op {st : SizeT} {s s' : Session} (kept : Kept s.executables s.buffers s.world)
    (op : Op st s s') : Kept s'.executables s'.buffers s'.world := by
  cases op with
  | create data result w run => exact kept.create run
  | destroy executable w held run => exact kept.destroy held run
  | allocate size result w run => exact kept.allocate run
  | release buffer w held run => exact kept.release held run
  | flushRange buffer offset length result w run =>
      exact kept.same (passing_run ((bufferFlushRange_calls st buffer offset length).mono
        fun _ flushing => passing_of_dispatching flushing.syncing.dispatching) run)
  | invalidateRange buffer offset length result w run =>
      exact kept.same (passing_run ((bufferInvalidateRange_calls st buffer offset length).mono
        fun _ syncing => passing_of_dispatching syncing.dispatching) run)
  | dispatch executable function constants bindings result w run =>
      exact kept.same (passing_run ((commandBufferDispatch_calls st executable function constants
        bindings).mono fun _ => passing_of_dispatching) run)

/-- In every run of a program, from nothing: the slots handed out are those of the
exports of its executables, each loaded with the bitstream of its export and none
with two owners, and the host memory handed out is that of its executables and
buffers. -/
theorem sessions_kept (st : SizeT) (w : World) (slots : w.live = []) (heap : w.heap = [])
    (s : Session) (ops : ReflTransGen (Op st) ⟨[], [], w⟩ s) :
    Kept s.executables s.buffers s.world := by
  induction ops with
  | refl => exact Kept.nothing slots heap
  | tail _ op ih => exact ih.op op

/-- The executable of `twoExports`. -/
def twoLoaded : Executable where
  exports := ["first", "second"].zipIdx.map fun named => {
    exportDef := {
      name := some named.1
      bitstream := List.replicate strelaKernelSize 0
      inputs := List.replicate columnCount ⟨0, 0, [], 0, 1⟩
      outputs := List.replicate columnCount ⟨0, 0, [], 0, 0⟩
      constantCount := 0
      bindingCount := 0 }
    kernel := ⟨true, named.2⟩ }
  address := 0x1000

def twoWorld : World where
  err := none
  live := [⟨true, 1⟩, ⟨true, 0⟩]
  loaded := fun kernel =>
    if kernel = ⟨true, 0⟩ ∨ kernel = ⟨true, 1⟩
    then some (List.replicate strelaKernelSize 0) else none
  heap := [0x1000]
  obtained := [⟨true, 0⟩, ⟨true, 1⟩]
  freed := []

def lineBuffer : HalStrelaBuffer :=
  ⟨64, ⟨true, 16, 16⟩, 0x40, true, 0x2000⟩

def lastWorld : World := { twoWorld with
  live := [], heap := [], freed := [⟨true, 0⟩, ⟨true, 1⟩] }

/-- A creation, an allocation and a dispatch, and everything given back. -/
theorem sessions_kept_sample :
    Kept [twoLoaded] [lineBuffer] { twoWorld with heap := [0x2000, 0x1000] } ∧
      Kept [] [] lastWorld := by
  have create : Op .bits32 ⟨[], [], emptyWorld⟩ ⟨[twoLoaded], [], twoWorld⟩ := by
    refine Op.create (s := ⟨[], [], emptyWorld⟩) twoExports (.ok twoLoaded) twoWorld ?_
    refine .call (.ok 0x1000 : CResult Nat) ⟨List.not_mem_nil, rfl⟩ ?_
    refine .call (⟨true, 0⟩ : StrelaKernel) ⟨none, List.not_mem_nil, rfl⟩ ?_
    refine .call () ⟨none, halfLoaded.loaded, rfl, ?_, fun _ _ => rfl⟩ ?_
    · intro other different
      exact if_neg different
    refine .call true ⟨rfl, rfl⟩ ?_
    refine .call (⟨true, 1⟩ : StrelaKernel) ⟨none, by decide, rfl⟩ ?_
    refine .call () ⟨none, twoWorld.loaded, rfl, ?_, fun _ _ => rfl⟩ ?_
    · intro other different
      simp [twoWorld, halfLoaded, different]
    exact .call true ⟨rfl, rfl⟩ (.ret _ _)
  have allocate : Op .bits32 ⟨[twoLoaded], [], twoWorld⟩
      ⟨[twoLoaded], [lineBuffer], { twoWorld with heap := [0x2000, 0x1000] }⟩ := by
    refine Op.allocate (s := ⟨[twoLoaded], [], twoWorld⟩) 64 (.ok lineBuffer) _ ?_
    refine .call (⟨true, 16, 16⟩ : StrelaBuffer) ⟨none, rfl⟩ (.call true ⟨rfl, rfl⟩ ?_)
    refine .call (0x40 : Nat) ⟨none, rfl⟩ ?_
    exact .call (.ok 0x2000 : CResult Nat) ⟨by decide, rfl⟩ (.ret _ _)
  have dispatch : Op .bits32
      ⟨[twoLoaded], [lineBuffer], { twoWorld with heap := [0x2000, 0x1000] }⟩
      ⟨[twoLoaded], [lineBuffer], { twoWorld with heap := [0x2000, 0x1000] }⟩ := by
    refine Op.dispatch (s := ⟨_, _, _⟩) twoLoaded 1 ⟨[]⟩ [] (.ok ()) _ ?_
    refine .call (⟨true, 0⟩ : StrelaJob) ⟨none, rfl⟩ (.call () ⟨none, rfl⟩ ?_)
    refine .call () ⟨none, rfl⟩ (.call true ⟨rfl, rfl⟩ ?_)
    refine .call StrelaJobState.ok ⟨none, rfl⟩ (.call true ⟨rfl, rfl⟩ ?_)
    exact .call () ⟨none, rfl⟩ (.call true ⟨rfl, rfl⟩ (.ret _ _))
  have release : Op .bits32
      ⟨[twoLoaded], [lineBuffer], { twoWorld with heap := [0x2000, 0x1000] }⟩
      ⟨[twoLoaded], [], twoWorld⟩ := by
    refine Op.release (s := ⟨_, _, _⟩) lineBuffer _ List.mem_cons_self ?_
    exact .call () ⟨none, rfl⟩ (.call () rfl (.ret _ _))
  have destroy : Op .bits32 ⟨[twoLoaded], [], twoWorld⟩ ⟨[], [], lastWorld⟩ := by
    refine Op.destroy (s := ⟨_, _, _⟩) twoLoaded _ List.mem_cons_self ?_
    refine .call () ⟨none, rfl⟩ (.call () ⟨none, rfl⟩ (.call true ⟨rfl, rfl⟩ ?_))
    exact .call () rfl (.ret _ _)
  have dispatched := ((ReflTransGen.single create).tail allocate).tail dispatch
  exact ⟨sessions_kept .bits32 emptyWorld rfl rfl _ dispatched,
    sessions_kept .bits32 emptyWorld rfl rfl _ ((dispatched.tail release).tail destroy)⟩

end Estela.Runtime.Slots
