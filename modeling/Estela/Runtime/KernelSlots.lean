import Estela.Runtime.Executable

set_option autoImplicit false

/- Who owns the kernel slots of the device: an executable from its creation to
its destruction, and nobody when the creation fails. -/
namespace Estela.Runtime.Slots

open CallProgram

/-- The kernel slots that are handed out, what is loaded in each, the host
memory that is allocated, and all slots obtained and freed so far. -/
structure World where
  err : Option StrelaErr
  live : List StrelaKernel
  loaded : StrelaKernel → Option (List (BitVec 32))
  heap : List Nat
  obtained : List StrelaKernel
  freed : List StrelaKernel

/-- Any call may fail. A valid kernel is a slot nobody holds, an invalid one
comes with an error, and a bitstream is loaded if there is no error after it. -/
def Step (w : World) : (c : Call) → c.Answer → World → Prop
  | .devOk, ok, w' => ok = w.err.isNone ∧ w' = w
  | .devGetErr, err, w' => (∀ e, w.err = some e → err = e) ∧ w' = w
  | .devResetErr, _, w' => w' = { w with err := none }
  | .kernelAlloc, (kernel : StrelaKernel), w' => ∃ raised : Option StrelaErr,
      if kernel.valid then
        kernel ∉ w.live ∧ w' = { w with
          err := raised.or w.err
          live := kernel :: w.live
          obtained := w.obtained ++ [kernel] }
      else raised ≠ none ∧ w' = { w with err := raised.or w.err }
  | .kernelSet kernel bitstream, _, w' => ∃ (raised : Option StrelaErr)
      (loaded : StrelaKernel → Option (List (BitVec 32))),
      w' = { w with err := raised.or w.err, loaded } ∧
        (∀ other, other ≠ kernel → loaded other = w.loaded other) ∧
        (raised.or w.err = none → kernel.valid = true → loaded kernel = some bitstream)
  | .kernelFree kernel, _, w' => ∃ raised : Option StrelaErr, w' = { w with
      err := raised.or w.err
      live := w.live.erase kernel
      freed := w.freed ++ [kernel] }
  | .malloc _, (.ok address : CResult Nat), w' =>
      address ∉ w.heap ∧ w' = { w with heap := address :: w.heap }
  | .malloc _, (.error _ : CResult Nat), w' => w' = w
  | .free address, _, w' => w' = { w with heap := w.heap.erase address }
  | _, _, w' => ∃ raised : Option StrelaErr, w' = { w with err := raised.or w.err }

/-- The slots among the kernels of an executable. -/
def slotsOf (exports : List Export) : List StrelaKernel :=
  (exports.map Export.kernel).filter fun kernel => kernel.valid

/-- Asking for the status tells whether there was an error, and clears it. -/
theorem statusFromDev_run (what : String) (w w' : World) (status : CResult Unit)
    (run : Run Step (statusFromDev what) w status w') :
    w' = { w with err := none } ∧ (status = .ok () → w.err = none) := by
  obtain ⟨ok, between, ⟨answer, same⟩, run⟩ := (run_request_iff _ _ _ _ _).mp run
  rw [same] at run
  cases ok with
  | true =>
      have clear : w.err = none := Option.isNone_iff_eq_none.mp answer.symm
      obtain ⟨_, rfl⟩ := (run_ret_iff _ _ _ _).mp run
      refine ⟨?_, fun _ => clear⟩
      rw [← clear]
  | false =>
      simp only [Bool.false_eq_true, ↓reduceIte] at run
      obtain ⟨err, asked, ⟨_, same⟩, run⟩ := (run_request_iff _ _ _ _ _).mp run
      rw [same] at run
      obtain ⟨_, reset, cleared, run⟩ := (run_request_iff _ _ _ _ _).mp run
      obtain ⟨rfl, rfl⟩ := (run_ret_iff _ _ _ _).mp run
      refine ⟨cleared, fun ok => ?_⟩
      cases err <;> cases ok

/-- What one turn of the loading loop leaves behind, with the kernel it stored. -/
structure LoadedOne (bitstream : List (BitVec 32)) (w : World) (kernel : StrelaKernel)
    (status : CResult Unit) (w' : World) : Prop where
  fresh : kernel.valid = true → kernel ∉ w.live
  obtained : w'.obtained = w.obtained ++ if kernel.valid then [kernel] else []
  live : ∀ slot, slot ∈ w'.live ↔ (slot = kernel ∧ kernel.valid = true) ∨ slot ∈ w.live
  freed : w'.freed = w.freed
  heap : w'.heap = w.heap
  frame : ∀ slot ∈ w.live, slot.valid = true → w'.loaded slot = w.loaded slot
  loaded : status = .ok () → kernel.valid = true ∧ w'.loaded kernel = some bitstream

theorem loadOne_run (bitstream : List (BitVec 32)) (w allocated loaded w' : World)
    (kernel : StrelaKernel) (status : CResult Unit) (alloc : Step w .kernelAlloc kernel allocated)
    (set_ : Step allocated (.kernelSet kernel bitstream) () loaded)
    (run : Run Step (statusFromDev "loading a STRELA bitstream") loaded status w') :
    LoadedOne bitstream w kernel status w' := by
  obtain ⟨rfl, clear⟩ := statusFromDev_run _ _ _ _ run
  obtain ⟨raised', contents, rfl, others, stored⟩ := set_
  obtain ⟨raised, outcome⟩ := alloc
  cases valid : kernel.valid with
  | true =>
      rw [if_pos valid] at outcome
      obtain ⟨fresh, rfl⟩ := outcome
      refine ⟨fun _ => fresh, by rw [valid]; rfl, ?_, rfl, rfl, ?_,
        fun ok => ⟨valid, stored (clear ok) valid⟩⟩
      · intro slot
        simp only [List.mem_cons, valid, and_true]
      · intro slot held _
        apply others
        rintro rfl
        exact fresh held
  | false =>
      rw [if_neg (by rw [valid]; exact Bool.false_ne_true)] at outcome
      obtain ⟨failed, rfl⟩ := outcome
      obtain ⟨err, rfl⟩ := Option.ne_none_iff_exists'.mp failed
      refine ⟨fun bad => ?_, by rw [valid]; exact (List.append_nil _).symm, ?_, rfl,
        rfl, ?_, fun ok => ?_⟩
      · rw [valid] at bad
        cases bad
      · intro slot
        simp only [valid, Bool.false_eq_true, and_false, false_or]
      · intro slot _ slotValid
        apply others
        rintro rfl
        rw [valid] at slotValid
        cases slotValid
      · have none_ := clear ok
        cases raised' <;> cases none_

/-- What the loading loop leaves behind, with the exports it stored. -/
structure Loaded (exports : List Export) (w : World) (stored : List Export) (status : CResult Unit)
    (w' : World) : Prop where
  defs : stored.map Export.exportDef = exports.map Export.exportDef
  fresh : ∀ slot ∈ slotsOf stored, slot ∉ w.live
  once : (slotsOf stored).Nodup
  obtained : w'.obtained = w.obtained ++ slotsOf stored
  live : ∀ slot, slot ∈ w'.live ↔ slot ∈ slotsOf stored ∨ slot ∈ w.live
  freed : w'.freed = w.freed
  heap : w'.heap = w.heap
  frame : ∀ slot ∈ w.live, slot.valid = true → w'.loaded slot = w.loaded slot
  all : status = .ok () → ∀ export_ ∈ stored,
    export_.kernel.valid = true ∧ w'.loaded export_.kernel = some export_.exportDef.bitstream

theorem slotsOf_zeroed (exports : List Export)
    (zeroed : ∀ export_ ∈ exports, export_.kernel.valid = false) : slotsOf exports = [] := by
  unfold slotsOf
  rw [List.filter_eq_nil_iff]
  intro kernel member
  obtain ⟨export_, known, rfl⟩ := List.mem_map.mp member
  rw [zeroed export_ known]
  exact Bool.false_ne_true

theorem slotsOf_cons (export_ : Export) (rest : List Export) :
    slotsOf (export_ :: rest) = (if export_.kernel.valid then [export_.kernel] else []) ++
      slotsOf rest := by
  unfold slotsOf
  rw [List.map_cons, List.filter_cons]
  split <;> rfl

/-- A turn that fails ends the loop: the exports after it are still zeroed. -/
theorem LoadedOne.stopped {export_ : Export} {rest : List Export} {w w' : World}
    {kernel : StrelaKernel} {stop : Stop}
    (one : LoadedOne export_.exportDef.bitstream w kernel (.error stop) w')
    (zeroed : ∀ export_ ∈ rest, export_.kernel.valid = false) :
    Loaded (export_ :: rest) w ({ export_ with kernel } :: rest) (.error stop) w' := by
  have slots : slotsOf ({ export_ with kernel } :: rest) =
      if kernel.valid then [kernel] else [] := by
    rw [slotsOf_cons, slotsOf_zeroed rest zeroed]
    exact List.append_nil _
  refine ⟨rfl, ?_, ?_, by rw [slots]; exact one.obtained, ?_, one.freed, one.heap, one.frame, ?_⟩
  · intro slot member
    rw [slots] at member
    split at member
    · rename_i valid
      cases List.mem_singleton.mp member
      exact one.fresh valid
    · cases member
  · rw [slots]
    split
    · exact List.nodup_cons.mpr ⟨List.not_mem_nil, List.nodup_nil⟩
    · exact List.nodup_nil
  · intro slot
    rw [one.live, slots]
    cases valid : kernel.valid with
    | true => simp only [and_true, ↓reduceIte, List.mem_singleton]
    | false => simp only [Bool.false_eq_true, and_false, ↓reduceIte, List.not_mem_nil]
  · intro ok
    cases ok

/-- A turn that succeeds, and the rest of the loop after it. -/
theorem LoadedOne.followed {export_ : Export} {rest stored : List Export} {w middle w' : World}
    {kernel : StrelaKernel} {status : CResult Unit}
    (one : LoadedOne export_.exportDef.bitstream w kernel (.ok ()) middle)
    (others : Loaded rest middle stored status w') :
    Loaded (export_ :: rest) w ({ export_ with kernel } :: stored) status w' := by
  obtain ⟨valid, loaded⟩ := one.loaded rfl
  have slots : slotsOf ({ export_ with kernel } :: stored) = kernel :: slotsOf stored := by
    rw [slotsOf_cons]
    simp only [valid, ↓reduceIte, List.cons_append, List.nil_append]
  have held : kernel ∈ middle.live := (one.live kernel).mpr (Or.inl ⟨rfl, valid⟩)
  refine ⟨?_, ?_, ?_, ?_, ?_, others.freed.trans one.freed, others.heap.trans one.heap, ?_, ?_⟩
  · simp only [List.map_cons, others.defs]
  · intro slot member old
    rw [slots] at member
    rcases List.mem_cons.mp member with rfl | later
    · exact one.fresh valid old
    · exact others.fresh slot later ((one.live slot).mpr (Or.inr old))
  · rw [slots, List.nodup_cons]
    exact ⟨fun again => others.fresh kernel again held, others.once⟩
  · rw [others.obtained, one.obtained, slots, if_pos valid, List.append_assoc,
      List.singleton_append]
  · intro slot
    rw [others.live, one.live, slots, List.mem_cons]
    simp only [valid, and_true]
    exact or_left_comm.trans or_assoc.symm
  · intro slot old slotValid
    rw [others.frame slot ((one.live slot).mpr (Or.inr old)) slotValid]
    exact one.frame slot old slotValid
  · intro ok e member
    rcases List.mem_cons.mp member with rfl | later
    · refine ⟨valid, ?_⟩
      rw [others.frame kernel held valid]
      exact loaded
    · exact others.all ok e later

/-- The loop, on exports that are still zeroed. -/
theorem loadBitstreams_run (exports : List Export)
    (zeroed : ∀ export_ ∈ exports, export_.kernel.valid = false) (w w' : World)
    (result : List Export × CResult Unit) (run : Run Step (loadBitstreams exports) w result w') :
    Loaded exports w result.1 result.2 w' := by
  induction exports generalizing w result with
  | nil =>
      obtain ⟨rfl, rfl⟩ := (run_ret_iff _ _ _ _).mp run
      refine ⟨rfl, ?_, List.nodup_nil, (List.append_nil _).symm, ?_, rfl, rfl, fun _ _ _ => rfl, ?_⟩
      · intro slot member
        cases member
      · intro slot
        simp [slotsOf]
      · intro _ export_ member
        cases member
  | cons export_ rest ih =>
      have zeroedRest : ∀ export_ ∈ rest, export_.kernel.valid = false :=
        fun export_ member => zeroed export_ (List.mem_cons_of_mem _ member)
      obtain ⟨(kernel : StrelaKernel), allocated, alloc, run⟩ := (run_request_iff _ _ _ _ _).mp run
      obtain ⟨_, set_, setRun, run⟩ := (run_request_iff _ _ _ _ _).mp run
      obtain ⟨status, middle, statusRun, run⟩ := (run_bind_iff _ _ _ _ _).mp run
      have one := loadOne_run _ w allocated set_ middle kernel status alloc setRun statusRun
      cases status with
      | error stop =>
          obtain ⟨rfl, rfl⟩ := (run_ret_iff _ _ _ _).mp run
          exact one.stopped zeroedRest
      | ok _ =>
          obtain ⟨loaded, final, restRun, run⟩ := (run_bind_iff _ _ _ _ _).mp run
          obtain ⟨rfl, rfl⟩ := (run_ret_iff _ _ _ _).mp run
          exact one.followed (ih zeroedRest middle loaded restRun)

/-- Freeing gives back the slots among the kernels, in order. -/
theorem freeKernels_run (exports : List Export) (w w' : World)
    (run : Run Step (freeKernels exports) w () w') :
    w'.freed = w.freed ++ slotsOf exports ∧ w'.obtained = w.obtained ∧ w'.heap = w.heap := by
  induction exports generalizing w with
  | nil =>
      obtain ⟨_, rfl⟩ := (run_ret_iff _ _ _ _).mp run
      exact ⟨(List.append_nil _).symm, rfl, rfl⟩
  | cons export_ rest ih =>
      rw [slotsOf_cons]
      cases valid : export_.kernel.valid with
      | true =>
          simp only [freeKernels, valid, ↓reduceIte] at run ⊢
          obtain ⟨_, between, ⟨raised, rfl⟩, run⟩ := (run_request_iff _ _ _ _ _).mp run
          obtain ⟨freed, obtained, heap⟩ := ih _ run
          exact ⟨by rw [freed, List.append_assoc], obtained, heap⟩
      | false =>
          simp only [freeKernels, valid, Bool.false_eq_true, ↓reduceIte] at run ⊢
          exact ih w run

/-- What a destroyed executable has given back. -/
structure Destroyed (executable : Executable) (w w' : World) : Prop where
  freed : w'.freed = w.freed ++ slotsOf executable.exports
  obtained : w'.obtained = w.obtained
  heap : w'.heap = w.heap.erase executable.address

theorem executableDestroy_run (executable : Executable) (w w' : World)
    (run : Run Step (executableDestroy executable) w () w') : Destroyed executable w w' := by
  obtain ⟨_, middle, freeRun, run⟩ := (run_bind_iff _ _ _ _ _).mp run
  obtain ⟨status, cleared, statusRun, run⟩ := (run_bind_iff _ _ _ _ _).mp run
  obtain ⟨_, final, released, run⟩ := (run_request_iff _ _ _ _ _).mp run
  obtain ⟨_, rfl⟩ := (run_ret_iff _ _ _ _).mp run
  obtain ⟨freed, obtained, heap⟩ := freeKernels_run _ _ _ freeRun
  obtain ⟨rfl, _⟩ := statusFromDev_run _ _ _ _ statusRun
  rw [released]
  exact ⟨freed, obtained, by rw [heap]⟩

/-- A creation that failed: what it obtained, it has freed, each slot once. -/
structure Undone (w w' : World) : Prop where
  slots : ∃ slots : List StrelaKernel, slots.Nodup ∧
    (∀ slot ∈ slots, slot.valid = true ∧ slot ∉ w.live) ∧
    w'.obtained = w.obtained ++ slots ∧ w'.freed = w.freed ++ slots
  heap : w'.heap = w.heap

/-- A creation that succeeded: one slot of its own for each export, loaded with
the bitstream of that export. -/
structure Owned (data : ExecutableData) (executable : Executable) (w w' : World) : Prop where
  count : executable.exports.length = data.root.exports.length
  valid : ∀ export_ ∈ executable.exports, export_.kernel.valid = true ∧ export_.kernel ∈ w'.live
  once : (executable.exports.map Export.kernel).Nodup
  obtained : w'.obtained = w.obtained ++ executable.exports.map Export.kernel
  freed : w'.freed = w.freed
  loaded : ∀ (i : Nat) exportDef, data.root.exports[i]? = some (some exportDef) →
    ∃ export_, executable.exports[i]? = some export_ ∧ export_.exportDef = exportDef ∧
      w'.loaded export_.kernel = some exportDef.bitstream
  heap : w'.heap = executable.address :: w.heap

theorem zeroedExports_invalid (exports : List (Option ExportDef)) :
    ∀ export_ ∈ zeroedExports exports, export_.kernel.valid = false := by
  intro export_ member
  obtain ⟨slot, _, made⟩ := List.mem_filterMap.mp member
  obtain ⟨exportDef, _, rfl⟩ := Option.map_eq_some_iff.mp made
  rfl

theorem slotsOf_valid (exports : List Export)
    (valid : ∀ export_ ∈ exports, export_.kernel.valid = true) :
    slotsOf exports = exports.map Export.kernel := by
  unfold slotsOf
  rw [List.filter_eq_self]
  intro kernel member
  obtain ⟨export_, known, rfl⟩ := List.mem_map.mp member
  exact valid export_ known

/-- The loop ended well, on the exports of accepted data. -/
theorem Loaded.owned {data : ExecutableData} {w w' : World} {stored : List Export} {address : Nat}
    (accepted : executableFlatbufferVerify data = .ok ())
    (loaded : Loaded (zeroedExports data.root.exports) { w with heap := address :: w.heap } stored
      (.ok ()) w') :
    Owned data { exports := stored, address } w w' := by
  have all := loaded.all rfl
  have slots := slotsOf_valid stored (fun export_ member => (all export_ member).1)
  have holds : stored.map (fun export_ => some export_.exportDef) = data.root.exports := by
    have mapped := congrArg (List.map some) loaded.defs
    simp only [List.map_map] at mapped
    exact mapped.trans (zeroedExports_holds data accepted)
  refine ⟨?_, ?_, ?_, ?_, loaded.freed, ?_, loaded.heap⟩
  · rw [← holds, List.length_map]
  · intro export_ member
    refine ⟨(all export_ member).1, (loaded.live _).mpr (Or.inl ?_)⟩
    rw [slots]
    exact List.mem_map_of_mem member
  · rw [← slots]
    exact loaded.once
  · rw [← slots]
    exact loaded.obtained
  · intro i exportDef found
    rw [← holds, List.getElem?_map] at found
    obtain ⟨export_, here, same⟩ := Option.map_eq_some_iff.mp found
    cases same
    exact ⟨export_, here, rfl, (all export_ (List.mem_of_getElem? here)).2⟩

/-- The loop ended badly, and the cleanup ran over all of the exports. -/
theorem Loaded.undone {exports stored : List Export} {w middle w' : World} {stop : Stop}
    {address : Nat}
    (loaded : Loaded exports { w with heap := address :: w.heap } stored (.error stop) middle)
    (destroyed : Destroyed { exports := stored, address } middle w') : Undone w w' := by
  refine ⟨⟨slotsOf stored, loaded.once, ?_, ?_, ?_⟩, ?_⟩
  · intro slot member
    exact ⟨(List.mem_filter.mp member).2, loaded.fresh slot member⟩
  · rw [destroyed.obtained, loaded.obtained]
  · rw [destroyed.freed, loaded.freed]
  · rw [destroyed.heap, loaded.heap]
    exact List.erase_cons_head _ _

/-- What a creation leaves behind, by its result. -/
def Outcome (data : ExecutableData) (w w' : World) : CResult Executable → Prop
  | .error _ => Undone w w'
  | .ok executable => Owned data executable w w'

theorem undone_refl (w : World) : Undone w w := by
  refine ⟨⟨[], List.nodup_nil, ?_, (List.append_nil _).symm, (List.append_nil _).symm⟩, rfl⟩
  intro slot member
  cases member

theorem executableCreate_outcome (data : ExecutableData) (w w' : World)
    (result : CResult Executable)
    (run : Run Step (executableCreate data) w result w') : Outcome data w w' result := by
  unfold executableCreate at run
  split at run
  · obtain ⟨rfl, rfl⟩ := (run_ret_iff _ _ _ _).mp run
    exact undone_refl _
  split at run
  · obtain ⟨rfl, rfl⟩ := (run_ret_iff _ _ _ _).mp run
    exact undone_refl _
  rename_i accepted
  obtain ⟨(allocated : CResult Nat), between, malloc, run⟩ := (run_request_iff _ _ _ _ _).mp run
  cases allocated with
  | error stop =>
      have same : between = w := malloc
      rw [same] at run
      obtain ⟨rfl, rfl⟩ := (run_ret_iff _ _ _ _).mp run
      exact undone_refl _
  | ok address =>
      obtain ⟨_, rfl⟩ := malloc
      obtain ⟨loaded, middle, loadRun, run⟩ := (run_bind_iff _ _ _ _ _).mp run
      have spec := loadBitstreams_run _ (zeroedExports_invalid _) _ _ _ loadRun
      split at run
      · rename_i ok
        obtain ⟨rfl, rfl⟩ := (run_ret_iff _ _ _ _).mp run
        rw [ok] at spec
        exact spec.owned accepted
      · rename_i stop failed
        obtain ⟨_, final, destroyRun, run⟩ := (run_bind_iff _ _ _ _ _).mp run
        obtain ⟨rfl, rfl⟩ := (run_ret_iff _ _ _ _).mp run
        rw [failed] at spec
        exact spec.undone (executableDestroy_run _ _ _ destroyRun)

/-- Whichever of its calls fail, a creation leaves every kernel slot it obtained
with exactly one owner: the executable, which frees it once when it is
destroyed, or libstrela, which has it back. -/
theorem executableCreate_owns (data : ExecutableData) (w w' : World) (result : CResult Executable)
    (run : Run Step (executableCreate data) w result w') :
    (∀ stop, result = .error stop → Undone w w') ∧
      ∀ executable, result = .ok executable → Owned data executable w w' ∧
        ∀ v v', Run Step (executableDestroy executable) v () v' →
          v'.freed = v.freed ++ executable.exports.map Export.kernel ∧ v'.obtained = v.obtained ∧
            v'.heap = v.heap.erase executable.address := by
  have outcome := executableCreate_outcome data w w' result run
  constructor
  · rintro stop rfl
    exact outcome
  · rintro executable rfl
    refine ⟨outcome, fun v v' destroyRun => ?_⟩
    have destroyed := executableDestroy_run executable v v' destroyRun
    rw [← slotsOf_valid _ (fun export_ member => (Owned.valid outcome export_ member).1)]
    exact ⟨destroyed.freed, destroyed.obtained, destroyed.heap⟩

/-- Data of two exports. -/
def twoExports : ExecutableData where
  header := .ok ()
  verifyAsRoot := none
  root := { exports := ["first", "second"].map fun name => some {
    name := some name
    bitstream := List.replicate strelaKernelSize 0
    inputs := List.replicate columnCount ⟨0, 0, [], 0, 1⟩
    outputs := List.replicate columnCount ⟨0, 0, [], 0, 0⟩
    constantCount := 0
    bindingCount := 0 } }
  flatbufferLength := 1024

def emptyWorld : World where
  err := none
  live := []
  loaded := fun _ => none
  heap := []
  obtained := []
  freed := []

/-- The world once the first slot of `twoExports` is loaded, and loading the second has failed. -/
def halfLoaded : World where
  err := some .badArg
  live := [⟨true, 1⟩, ⟨true, 0⟩]
  loaded := fun kernel =>
    if kernel = ⟨true, 0⟩ then some (List.replicate strelaKernelSize 0) else none
  heap := [0x1000]
  obtained := [⟨true, 0⟩, ⟨true, 1⟩]
  freed := []

/-- Both slots are given back when libstrela rejects the second bitstream. -/
theorem executableCreate_owns_sample :
    Undone emptyWorld { halfLoaded with
      err := none, live := [], heap := [], freed := [⟨true, 0⟩, ⟨true, 1⟩] } := by
  refine (executableCreate_owns twoExports emptyWorld _
    (makeStatus .invalidArgument "loading a STRELA bitstream: rejected by libstrela") ?_).1 _ rfl
  refine .call (.ok 0x1000 : CResult Nat) ⟨List.not_mem_nil, rfl⟩ ?_
  refine .call (⟨true, 0⟩ : StrelaKernel) ⟨none, List.not_mem_nil, rfl⟩ ?_
  refine .call () ⟨none, halfLoaded.loaded, rfl, ?_, fun _ _ => rfl⟩ ?_
  · intro other different
    exact if_neg different
  refine .call true ⟨rfl, rfl⟩ ?_
  refine .call (⟨true, 1⟩ : StrelaKernel) ⟨none, by decide, rfl⟩ ?_
  refine .call () ⟨some .badArg, halfLoaded.loaded, rfl, fun _ _ => rfl,
    fun clear _ => nomatch clear⟩ ?_
  refine .call false ⟨rfl, rfl⟩ ?_
  refine .call StrelaErr.badArg ⟨fun e raised => Option.some.inj raised, rfl⟩ ?_
  refine .call () rfl ?_
  refine .call () ⟨none, rfl⟩ ?_
  refine .call () ⟨none, rfl⟩ ?_
  refine .call true ⟨rfl, rfl⟩ ?_
  exact .call () rfl (.ret _ _)

end Estela.Runtime.Slots
