import Estela.Runtime.CustomModule

set_option autoImplicit false

/- What holds over every session of the custom module. -/
namespace Estela.Runtime.CenteredGemm

open CallProgram
open RowMajor (NdArray)

variable {α β : Type}

/-! A product executes what it has configured, for its own kernel. -/

def GemmCall.configures : GemmCall → Bool
  | .config _ _ => true
  | _ => false

/-- The call fits a kernel that sums `depth` products; `fed` tells whether there has been
a configuration. -/
def Fits (kernel : StrelaKernel) (depth : Nat) (fed : Bool) : GemmCall → Prop
  | .config used conf => used = kernel ∧ ∃ first, conf.inp[0]? = some first ∧ first.count = depth
  | .execute => fed = true
  | _ => True

def Feeds (kernel : StrelaKernel) (depth : Nat) : Gemm α → Bool → Prop
  | .ret _, _ => True
  | .call c next, fed => Fits kernel depth fed c ∧
      ∀ answer, Feeds kernel depth (next answer) (fed || c.configures)

section

variable {kernel : StrelaKernel} {depth : Nat}

theorem Feeds.mono {p : Gemm α} {fed : Bool} (feeds : Feeds kernel depth p false) :
    Feeds kernel depth p fed := by
  cases fed with
  | false => exact feeds
  | true =>
      induction p with
      | ret value => trivial
      | call c next ih =>
          obtain ⟨fits, later⟩ := feeds
          refine ⟨?_, fun answer => ?_⟩
          · cases c with
            | execute => rfl
            | _ => exact fits
          · have rest := later answer
            cases configures : c.configures with
            | true => simpa [configures] using rest
            | false =>
                rw [configures] at rest
                exact ih answer rest

theorem Feeds.bind {p : Gemm α} {rest : α → Gemm β} {fed : Bool} (first : Feeds kernel depth p fed)
    (second : ∀ value, Feeds kernel depth (rest value) false) :
    Feeds kernel depth (p.bind rest) fed := by
  induction p generalizing fed with
  | ret value => exact (second value).mono
  | call c next ih => exact ⟨first.1, fun answer => ih answer (first.2 answer)⟩

theorem Feeds.forEach {ι ε : Type} {body : ι → Gemm (Except ε Unit)} {items : List ι}
    (each : ∀ item ∈ items, Feeds kernel depth (body item) false) :
    Feeds kernel depth (Prog.forEach body items) false := by
  induction items with
  | nil => trivial
  | cons item rest ih =>
      apply Feeds.bind (each item List.mem_cons_self)
      intro result
      cases result with
      | error stop => trivial
      | ok _ => exact ih fun other member => each other (List.mem_cons_of_mem item member)

theorem copyIn_feeds (operand : Operand) (buffer : StrelaBuffer) (count : Nat) :
    Feeds kernel depth (copyIn operand buffer count) false := by
  apply Feeds.forEach
  intro i _
  exact ⟨trivial, fun _ => ⟨trivial, fun _ => trivial⟩⟩

theorem accumulate_feeds (sy : StrelaBuffer) (count : Nat) :
    Feeds kernel depth (accumulate sy count) false := by
  apply Feeds.forEach
  intro i _
  exact ⟨trivial, fun _ => ⟨trivial, fun _ => ⟨trivial, fun _ => trivial⟩⟩⟩

theorem tiledLoop_feeds (st : SizeT) (sx sw sy : StrelaBuffer) (rows columns : Nat) :
    Feeds kernel depth (tiledLoop st sx sw sy rows depth columns kernel) false := by
  apply Feeds.forEach
  intro i _
  apply Feeds.forEach
  intro t _
  exact ⟨⟨rfl, _, rfl, rfl⟩, fun _ => ⟨rfl, fun _ => trivial⟩⟩

theorem gemmBody_feeds (st : SizeT) (handle rows columns : Nat) :
    Feeds ⟨true, handle⟩ depth (gemmBody st handle rows depth columns) false := by
  refine ⟨trivial, fun _ => ⟨trivial, fun sx => ⟨trivial, fun sw => ⟨trivial, fun sy => ?_⟩⟩⟩⟩
  refine ⟨trivial, fun ok => ?_⟩
  cases ok with
  | false => trivial
  | true =>
      refine ⟨trivial, fun _ => ⟨trivial, fun _ => ⟨trivial, fun _ => ?_⟩⟩⟩
      apply Feeds.bind (copyIn_feeds .x sx _)
      intro _
      apply Feeds.bind (copyIn_feeds .w sw _)
      intro _
      apply Feeds.bind (tiledLoop_feeds st sx sw sy rows columns)
      intro status
      cases status with
      | error stop => trivial
      | ok _ =>
          refine ⟨trivial, fun ok => ?_⟩
          cases ok with
          | false => trivial
          | true =>
              apply Feeds.bind (accumulate_feeds sy _)
              intro _
              exact ⟨trivial, fun _ => ⟨trivial, fun _ => ⟨trivial, fun _ => trivial⟩⟩⟩

theorem scopedMap_feeds {operand : Operand} {view : BufferView} {rest : Gemm (CResult Unit)}
    (feeds : Feeds kernel depth rest false) :
    Feeds kernel depth (scopedMap operand view rest) false := by
  refine ⟨trivial, fun status => ?_⟩
  cases status with
  | error stop => trivial
  | ok _ => exact feeds.bind fun result => ⟨trivial, fun _ => trivial⟩

end

section

variable {st : SizeT} {sums : Sums} {d d' : Device} {world : World} {c : GemmCall}
  {answer : c.Answer}

@[simp] theorem Device.note_world : (d.note world c answer).world = world := by
  cases c with
  | mapRange => cases answer <;> rfl
  | _ => rfl

@[simp] theorem Device.note_loaded : (d.note world c answer).loaded = d.loaded := by
  cases c with
  | mapRange => cases answer <;> rfl
  | _ => rfl

@[simp] theorem Device.note_slots : (d.note world c answer).slots = d.slots := by
  cases c with
  | mapRange => cases answer <;> rfl
  | _ => rfl

theorem Device.note_kernel (other : c.configures = false) :
    (d.note world c answer).kernel = d.kernel := by
  cases c with
  | mapRange => cases answer <;> rfl
  | config => cases other
  | _ => rfl

/-- No call but a configuration changes what is configured. -/
theorem step_conf {promised : Prop} {zX zW : BitVec 32} {v v' : World} {c : GemmCall}
    {answer : c.Answer} (other : c.configures = false)
    (step : Step st promised zX zW v c answer v') : v'.conf = v.conf := by
  cases c with
  | mapRange => cases answer <;> (cases step; rfl)
  | unmapRange | storeWord | storeInt32 => cases step; rfl
  | devOk => rw [step.2]
  | loadInt8 | loadWord | loadInt32 => rw [step.2]; rfl
  | bufferAlloc =>
      obtain ⟨failed, rfl, _⟩ := step
      rfl
  | execute =>
      obtain ⟨failed, mem, rfl, _⟩ := step
      rfl
  | config => cases other
  | devInit | bufferToPtr | bufferFree =>
      obtain ⟨failed, rfl⟩ := step
      rfl

/-- An error of the device stays. -/
theorem step_failed {promised : Prop} {zX zW : BitVec 32} {v v' : World} {c : GemmCall}
    {answer : c.Answer} (step : Step st promised zX zW v c answer v')
    (well : v'.failed = false) : v.failed = false := by
  cases c with
  | mapRange => cases answer <;> (cases step; exact well)
  | unmapRange | storeWord | storeInt32 => cases step; exact well
  | devOk | loadInt8 | loadWord | loadInt32 =>
      rw [step.2] at well
      exact well
  | bufferAlloc =>
      obtain ⟨failed, rfl, _⟩ := step
      exact (Bool.or_eq_false_iff.mp well).1
  | execute =>
      obtain ⟨failed, mem, rfl, _⟩ := step
      exact (Bool.or_eq_false_iff.mp well).1
  | config | devInit | bufferToPtr | bufferFree =>
      obtain ⟨failed, rfl⟩ := step
      exact (Bool.or_eq_false_iff.mp well).1

end

section

variable {st : SizeT} {sums : Sums} {kernel : StrelaKernel} {depth : Nat} {zX zW : BitVec 32}
  {bitstream : List (BitVec 32)} {d d' : Device}

/-- The device is set up for jobs of the kernel, as far as it has been configured. -/
def Configured (kernel : StrelaKernel) (depth : Nat) (fed : Bool) (d : Device) : Prop :=
  fed = true → d.kernel = kernel ∧ ∃ first, d.world.conf.inp[0]? = some first ∧ first.count = depth

theorem Configured.step {fed : Bool} {c : GemmCall} {answer : c.Answer}
    (configured : Configured kernel depth fed d) (fits : Fits kernel depth fed c)
    (step : GemmStep st sums d c answer d') :
    Configured kernel depth (fed || c.configures) d' := by
  obtain ⟨world, rfl, step, _⟩ := step
  intro fed'
  cases configures : c.configures with
  | true =>
      cases c with
      | config used conf =>
          obtain ⟨same, first⟩ := fits
          obtain ⟨failed, rfl⟩ := step
          exact ⟨same, first⟩
      | _ => cases configures
  | false =>
      rw [configures, Bool.or_false] at fed'
      obtain ⟨same, first⟩ := configured fed'
      rw [Device.note_kernel configures, Device.note_world, step_conf configures step]
      exact ⟨same, first⟩

/-- A call of the module is one of a product with the kernel that is loaded. -/
theorem GemmStep.product {fed : Bool} {c : GemmCall} {answer : c.Answer}
    (configured : Configured kernel depth fed d) (fits : Fits kernel depth fed c)
    (loaded : d.loaded kernel = some bitstream) (right : sums bitstream zX zW depth)
    (step : GemmStep st sums d c answer d') : Step st True zX zW d.world c answer d'.world := by
  obtain ⟨world, rfl, step, honest⟩ := step
  rw [Device.note_world]
  cases c with
  | mapRange => cases answer <;> exact step
  | bufferAlloc words =>
      obtain ⟨failed, after, known⟩ := step
      refine ⟨failed, after, ?_⟩
      intro well
      obtain ⟨size, range, apart⟩ := known well
      exact ⟨size, range, fun _ => apart (by simp)⟩
  | execute =>
      obtain ⟨failed, mem, rfl, _⟩ := step
      refine ⟨failed, mem, rfl, ?_⟩
      intro _ completed
      obtain ⟨same, first, isFirst, count⟩ := configured fits
      rw [← count] at right
      rw [← same] at loaded
      exact honest completed bitstream zX zW first loaded isFirst right
  | _ => exact step

/-- So is a whole run. -/
theorem product_run {p : Gemm α} {fed : Bool} {result : α} (feeds : Feeds kernel depth p fed)
    (configured : Configured kernel depth fed d) (loaded : d.loaded kernel = some bitstream)
    (right : sums bitstream zX zW depth) (run : Run (GemmStep st sums) p d result d') :
    Run (Step st True zX zW) p d.world result d'.world := by
  induction run generalizing fed with
  | ret value d => exact .ret value _
  | call answer move rest ih =>
      obtain ⟨fits, later⟩ := feeds
      apply Run.call answer (move.product configured fits loaded right)
      apply ih (later answer) (configured.step fits move)
      obtain ⟨world, rfl, _, _⟩ := move
      rw [Device.note_loaded]
      exact loaded

end

/-! What a product maps it unmaps, and what it allocates it frees unless it fails. -/

/-- The call neither maps nor allocates, and undoes neither. -/
def GemmCall.Keeps : GemmCall → Prop
  | .mapRange _ _ => False
  | .unmapRange _ => False
  | .bufferAlloc _ => False
  | .bufferFree _ => False
  | _ => True

/-- The product was called on the device `before`, and has allocated `held` since. Of an
allocation that failed there may be no buffer. -/
structure Holding (before : Device) (held : List StrelaBuffer) (d : Device) : Prop where
  mapped : d.mapped = before.mapped
  live : d.world.failed = false → d.live.Perm (held ++ before.live)
  few : d.live.length ≤ held.length + before.live.length

/-- The product has found the device well, with its buffers. -/
structure Owned (before : Device) (held : List StrelaBuffer) (d : Device) : Prop where
  mapped : d.mapped = before.mapped
  live : d.live.Perm (held ++ before.live)

/-- The product has come to its end. -/
structure Settled (before : Device) (result : CResult Unit) (d : Device) : Prop where
  mapped : d.mapped = before.mapped
  freed : result = .ok () → d.live.Perm before.live
  few : d.live.length ≤ before.live.length + 3

section

variable {st : SizeT} {sums : Sums} {before d d' : Device} {held : List StrelaBuffer}

theorem GemmStep.kept {c : GemmCall} {answer : c.Answer} (keeps : c.Keeps)
    (step : GemmStep st sums d c answer d') : d'.mapped = d.mapped ∧ d'.live = d.live ∧
      (d'.world.failed = false → d.world.failed = false) := by
  obtain ⟨world, rfl, step, _⟩ := step
  rw [Device.note_world]
  cases c with
  | mapRange | unmapRange | bufferAlloc | bufferFree => exact keeps.elim
  | _ => exact ⟨rfl, rfl, step_failed step⟩

theorem Holding.kept {c : GemmCall} {answer : c.Answer} (holding : Holding before held d)
    (step : GemmStep st sums d c answer d') (keeps : c.Keeps) : Holding before held d' := by
  obtain ⟨mapped, live, failed⟩ := step.kept keeps
  refine ⟨mapped.trans holding.mapped, ?_, ?_⟩
  · intro well
    rw [live]
    exact holding.live (failed well)
  · rw [live]
    exact holding.few

theorem Holding.alloc {words : Nat} {buffer : StrelaBuffer} (holding : Holding before held d)
    (step : GemmStep st sums d (.bufferAlloc words) buffer d') :
    Holding before (buffer :: held) d' := by
  obtain ⟨world, rfl, step, honest⟩ := step
  have failed := step_failed step
  change buffer.valid = false → world.failed = true at honest
  refine ⟨holding.mapped, ?_, ?_⟩
  · intro well
    change world.failed = false at well
    have valid : buffer.valid = true := by
      cases valid : buffer.valid with
      | true => rfl
      | false =>
          have broken := honest valid
          rw [well] at broken
          cases broken
    change (if buffer.valid then buffer :: d.live else d.live).Perm _
    rw [if_pos valid]
    exact (holding.live (failed well)).cons buffer
  · have few := holding.few
    change (if buffer.valid then buffer :: d.live else d.live).length ≤ _
    split <;> simp only [List.length_cons] <;> omega

theorem Holding.settled {result : CResult Unit} (holding : Holding before held d)
    (three : held.length ≤ 3) (failed : result ≠ .ok ()) : Settled before result d := by
  have few := holding.few
  exact ⟨holding.mapped, fun ok => absurd ok failed, by omega⟩

theorem devOk_well (step : GemmStep st sums d .devOk true d') : d'.world.failed = false := by
  obtain ⟨world, rfl, ⟨ok, rfl⟩, _⟩ := step
  exact Bool.not_eq_eq_eq_not.mp ok.symm

theorem Holding.owned {sx sw sy : StrelaBuffer} (holding : Holding before [sy, sw, sx] d)
    (well : d.world.failed = false) : Owned before [sx, sw, sy] d := by
  have inOrder : [sy, sw, sx].Perm [sx, sw, sy] := List.reverse_perm [sx, sw, sy]
  exact ⟨holding.mapped, (holding.live well).trans (inOrder.append_right before.live)⟩

theorem Owned.settled (owned : Owned before [] d) : Settled before (.ok ()) d := by
  have few := owned.live.length_eq
  rw [List.nil_append] at few
  exact ⟨owned.mapped, fun _ => owned.live, by omega⟩

theorem holding_kept {p : Gemm (CResult Unit)} (calls : p.Calls GemmCall.Keeps) :
    Triple (GemmStep st sums) (Holding before held) p (fun _ => Holding before held) :=
  Triple.of_calls calls fun _ keeps _ _ _ holding step => holding.kept step keeps

theorem copyIn_keeps (operand : Operand) (buffer : StrelaBuffer) (count : Nat) :
    (copyIn operand buffer count).Calls GemmCall.Keeps :=
  .forEach fun _ => ⟨trivial, fun _ => ⟨trivial, fun _ => trivial⟩⟩

theorem accumulate_keeps (sy : StrelaBuffer) (count : Nat) :
    (accumulate sy count).Calls GemmCall.Keeps :=
  .forEach fun _ => ⟨trivial, fun _ => ⟨trivial, fun _ => ⟨trivial, fun _ => trivial⟩⟩⟩

theorem tiledLoop_keeps (sx sw sy : StrelaBuffer) (rows depth columns : Nat)
    (kernel : StrelaKernel) :
    (tiledLoop st sx sw sy rows depth columns kernel).Calls GemmCall.Keeps :=
  .forEach fun _ => .forEach fun _ => ⟨trivial, fun _ => ⟨trivial, fun _ => trivial⟩⟩

theorem Owned.kept {p : Gemm (CResult Unit)} (calls : p.Calls GemmCall.Keeps) :
    Triple (GemmStep st sums) (Owned before held) p (fun _ => Owned before held) := by
  apply Triple.of_calls calls
  intro c keeps d answer d' owned step
  obtain ⟨mapped, live, _⟩ := step.kept keeps
  refine ⟨mapped.trans owned.mapped, ?_⟩
  rw [live]
  exact owned.live

theorem Owned.free {buffer : StrelaBuffer} {answer : Unit}
    (owned : Owned before (buffer :: held) d)
    (step : GemmStep st sums d (.bufferFree buffer) answer d') : Owned before held d' := by
  obtain ⟨world, rfl, _, _⟩ := step
  refine ⟨owned.mapped, ?_⟩
  have rest := owned.live.erase buffer
  rw [List.cons_append, List.erase_cons_head] at rest
  exact rest

/-- Once the loops have ended without an error, the buffers are freed again. -/
theorem gemmBody_settled (handle rows depth columns : Nat) {result : CResult Unit}
    (run : Run (GemmStep st sums) (gemmBody st handle rows depth columns) before result d') :
    Settled before result d' := by
  have start : Holding before [] before := ⟨rfl, fun _ => .refl _, Nat.le_add_left _ _⟩
  obtain ⟨_, d1, move, run⟩ := (run_request_iff _ _ _ _ _).mp run
  have holding := start.kept move trivial
  obtain ⟨sx, d2, move, run⟩ := (run_request_iff _ _ _ _ _).mp run
  have holding := holding.alloc move
  obtain ⟨sw, d3, move, run⟩ := (run_request_iff _ _ _ _ _).mp run
  have holding := holding.alloc move
  obtain ⟨sy, d4, move, run⟩ := (run_request_iff _ _ _ _ _).mp run
  have holding := holding.alloc move
  obtain ⟨ok, d5, move, run⟩ := (run_request_iff _ _ _ _ _).mp run
  have holding := holding.kept move trivial
  cases ok with
  | false =>
      obtain ⟨rfl, rfl⟩ := (run_ret_iff _ _ _ _).mp run
      exact holding.settled (Nat.le_refl 3) nofun
  | true =>
      obtain ⟨_, d6, move, run⟩ := (run_request_iff _ _ _ _ _).mp run
      have holding := holding.kept move trivial
      obtain ⟨_, d7, move, run⟩ := (run_request_iff _ _ _ _ _).mp run
      have holding := holding.kept move trivial
      obtain ⟨_, d8, move, run⟩ := (run_request_iff _ _ _ _ _).mp run
      have holding := holding.kept move trivial
      obtain ⟨_, d9, copied, run⟩ := (run_bind_iff _ _ _ _ _).mp run
      have holding := holding_kept (copyIn_keeps .x sx _) _ _ _ holding copied
      obtain ⟨_, d10, copied, run⟩ := (run_bind_iff _ _ _ _ _).mp run
      have holding := holding_kept (copyIn_keeps .w sw _) _ _ _ holding copied
      obtain ⟨status, d11, executed, run⟩ := (run_bind_iff _ _ _ _ _).mp run
      have holding := holding_kept (tiledLoop_keeps sx sw sy _ _ _ _) _ _ _ holding executed
      cases status with
      | error stop =>
          obtain ⟨rfl, rfl⟩ := (run_ret_iff _ _ _ _).mp run
          exact holding.settled (Nat.le_refl 3) nofun
      | ok _ =>
          obtain ⟨ok, d12, move, run⟩ := (run_request_iff _ _ _ _ _).mp run
          have holding := holding.kept move trivial
          cases ok with
          | false =>
              obtain ⟨rfl, rfl⟩ := (run_ret_iff _ _ _ _).mp run
              exact holding.settled (Nat.le_refl 3) nofun
          | true =>
              have owned := holding.owned (devOk_well move)
              obtain ⟨_, d13, added, run⟩ := (run_bind_iff _ _ _ _ _).mp run
              have owned := Owned.kept (accumulate_keeps sy _) _ _ _ owned added
              obtain ⟨_, d14, move, run⟩ := (run_request_iff _ _ _ _ _).mp run
              have owned := owned.free move
              obtain ⟨_, d15, move, run⟩ := (run_request_iff _ _ _ _ _).mp run
              have owned := owned.free move
              obtain ⟨_, d16, move, run⟩ := (run_request_iff _ _ _ _ _).mp run
              have owned := owned.free move
              obtain ⟨rfl, rfl⟩ := (run_ret_iff _ _ _ _).mp run
              exact owned.settled

/-- A mapping ends with what runs under it. -/
theorem scopedMap_settled (operand : Operand) (view : BufferView) (rest : Gemm (CResult Unit))
    (body : ∀ before result d', Run (GemmStep st sums) rest before result d' →
      Settled before result d') {result : CResult Unit}
    (run : Run (GemmStep st sums) (scopedMap operand view rest) before result d') :
    Settled before result d' := by
  obtain ⟨status, d1, ⟨world, rfl, _, _⟩, run⟩ := (run_request_iff _ _ _ _ _).mp run
  cases status with
  | error stop =>
      obtain ⟨rfl, rfl⟩ := (run_ret_iff _ _ _ _).mp run
      exact ⟨rfl, nofun, Nat.le_add_right _ _⟩
  | ok _ =>
      obtain ⟨result, d2, inner, run⟩ := (run_bind_iff _ _ _ _ _).mp run
      have settled := body _ _ _ inner
      obtain ⟨_, d3, ⟨world, rfl, _, _⟩, run⟩ := (run_request_iff _ _ _ _ _).mp run
      obtain ⟨rfl, rfl⟩ := (run_ret_iff _ _ _ _).mp run
      refine ⟨?_, settled.freed, settled.few⟩
      show d2.mapped.erase (.operand operand) = before.mapped
      rw [settled.mapped]
      exact List.erase_cons_head _ _

theorem myCenteredGemm_settled (handle : Nat) (x w y : BufferView) {result : CResult Unit}
    (run : Run (GemmStep st sums) (myCenteredGemm st handle x w y) before result d') :
    Settled before result d' := by
  have refused {code : StatusCode} {message : String}
      (run : Run (GemmStep st sums) (.ret (makeStatus code message)) before result d') :
      Settled before result d' := by
    obtain ⟨rfl, rfl⟩ := (run_ret_iff _ _ _ _).mp run
    exact ⟨rfl, nofun, Nat.le_add_right _ _⟩
  unfold myCenteredGemm at run
  split at run
  · split at run
    · exact refused run
    · split at run
      · exact refused run
      · apply scopedMap_settled .x x _ _ run
        intro _ _ _ run
        apply scopedMap_settled .w w _ _ run
        intro _ _ _ run
        apply scopedMap_settled .y y _ _ run
        intro _ _ _ run
        exact gemmBody_settled _ _ _ _ run
  · exact refused run

end

/-! The kernels that are set up stay. -/

section

variable {st : SizeT} {sums : Sums} {d d' : Device}

theorem gemm_kernels {α : Type} {p : Gemm α} {result : α}
    (run : Run (GemmStep st sums) p d result d') :
    d'.slots = d.slots ∧ d'.loaded = d.loaded := by
  apply run.keeps (fun now => now.slots = d.slots ∧ now.loaded = d.loaded) _ ⟨rfl, rfl⟩
  intro now c answer next kept step
  obtain ⟨world, rfl, _, _⟩ := step
  rw [Device.note_slots, Device.note_loaded]
  exact kept

/-- What setting a kernel up leaves: a kernel of its own if it says so, and all others as they
were. -/
structure SetUp (before : Device) (data : List (BitVec 32)) (result : CResult (BitVec 32))
    (d : Device) : Prop where
  mapped : d.mapped = before.mapped
  live : d.live = before.live
  grows : ∃ fresh, d.slots = fresh ++ before.slots
  others : ∀ kernel ∈ before.slots, kernel.valid = true → d.loaded kernel = before.loaded kernel
  own : ∀ handle, result = .ok handle → (⟨true, handle.toNat⟩ : StrelaKernel) ∉ before.slots ∧
    (⟨true, handle.toNat⟩ : StrelaKernel) ∈ d.slots ∧
    d.loaded ⟨true, handle.toNat⟩ = some data

/-- What an allocation of a kernel leaves. -/
structure Allocated (before : Device) (kernel : StrelaKernel) (d : Device) : Prop where
  mapped : d.mapped = before.mapped
  live : d.live = before.live
  loaded : d.loaded = before.loaded
  grows : ∃ fresh, d.slots = fresh ++ before.slots
  other : ∀ slot ∈ before.slots, slot.valid = true → slot ≠ kernel
  own : d.world.failed = false → kernel ∉ before.slots ∧ kernel ∈ d.slots ∧
    kernel = ⟨true, (BitVec.ofNat 32 kernel.handle).toNat⟩

theorem kernelAlloc_allocated {data : List (BitVec 32)} {kernel : StrelaKernel}
    (step : ModuleStep st sums data d .kernelAlloc kernel d') : Allocated d kernel d' := by
  obtain ⟨failed, step⟩ := step
  obtain ⟨valid, handle⟩ := kernel
  cases valid with
  | false =>
      obtain ⟨rfl, rfl⟩ := step
      refine ⟨rfl, rfl, rfl, ⟨[], rfl⟩, ?_, ?_⟩
      · intro slot _ valid same
        rw [same] at valid
        cases valid
      · intro well
        exact absurd (Bool.or_eq_false_iff.mp well).2 nofun
  | true =>
      obtain ⟨fresh, small, rfl⟩ := step
      refine ⟨rfl, rfl, rfl, ⟨[_], rfl⟩, ?_, ?_⟩
      · intro slot member _ same
        rw [same] at member
        exact fresh member
      · intro _
        refine ⟨fresh, List.mem_cons_self, ?_⟩
        rw [BitVec.toNat_ofNat, Nat.mod_eq_of_lt small]

theorem initAccelerator_setUp (view : BufferView) (data : List (BitVec 32))
    {result : CResult (BitVec 32)}
    (run : Run (ModuleStep st sums data) (initAccelerator view) d result d') :
    SetUp d data result d' := by
  have refused {before : Device} {stop : Stop}
      (run : Run (ModuleStep st sums data) (.ret (.error stop)) before result d')
      (same : before = d) : SetUp d data result d' := by
    obtain ⟨rfl, rfl⟩ := (run_ret_iff _ _ _ _).mp run
    subst same
    exact ⟨rfl, rfl, ⟨[], rfl⟩, fun _ _ _ => rfl, nofun⟩
  unfold initAccelerator at run
  split at run
  · exact refused run rfl
  split at run
  · exact refused run rfl
  obtain ⟨mapped, d1, move, run⟩ := (run_request_iff _ _ _ _ _).mp run
  cases mapped with
  | error stop => exact refused run move
  | ok words =>
      obtain ⟨rfl, _, rfl⟩ := move
      obtain ⟨_, d2, ⟨w2, rfl, ⟨f2, rfl⟩, _⟩, run⟩ := (run_request_iff _ _ _ _ _).mp run
      obtain ⟨kernel, d3, alloc, run⟩ := (run_request_iff _ _ _ _ _).mp run
      have allocated := kernelAlloc_allocated alloc
      obtain ⟨_, d4, ⟨f4, loaded, rfl, others, own⟩, run⟩ := (run_request_iff _ _ _ _ _).mp run
      obtain ⟨ok, d5, ⟨w5, rfl, ⟨isOk, rfl⟩, _⟩, run⟩ := (run_request_iff _ _ _ _ _).mp run
      have mapped : d3.mapped.erase .bitstream = d.mapped := by
        rw [allocated.mapped]
        exact List.erase_cons_head _ _
      have kept (slot : StrelaKernel) (member : slot ∈ d.slots) (valid : slot.valid = true) :
          loaded slot = d.loaded slot :=
        (others slot (allocated.other slot member valid)).trans (congrFun allocated.loaded slot)
      cases ok with
      | false =>
          obtain ⟨_, d6, rfl, run⟩ := (run_request_iff _ _ _ _ _).mp run
          obtain ⟨rfl, rfl⟩ := (run_ret_iff _ _ _ _).mp run
          exact ⟨mapped, allocated.live, allocated.grows, kept, nofun⟩
      | true =>
          obtain ⟨_, d6, rfl, run⟩ := (run_request_iff _ _ _ _ _).mp run
          obtain ⟨rfl, rfl⟩ := (run_ret_iff _ _ _ _).mp run
          have well : (d3.world.failed || f4) = false := Bool.not_eq_eq_eq_not.mp isOk.symm
          obtain ⟨fresh, member, same⟩ := allocated.own (Bool.or_eq_false_iff.mp well).1
          refine ⟨mapped, allocated.live, allocated.grows, kept, ?_⟩
          intro handle returned
          obtain rfl := Except.ok.inj returned
          rw [← same]
          exact ⟨fresh, member, own well (by rw [same])⟩

end

/-! Whole sessions. -/

/-- What holds after the events of a session. -/
structure Kept (first : Device) (events : List ModuleEvent) (d : Device) : Prop where
  mapped : d.mapped = first.mapped
  live : d.live.length ≤ first.live.length + 3 * events.countP ModuleEvent.failedProduct
  distinct : (events.filterMap ModuleEvent.handle?).Nodup
  kernels : ∀ bitstream handle, .initialized bitstream (.ok handle) ∈ events →
    (⟨true, handle.toNat⟩ : StrelaKernel) ∈ d.slots ∧
    d.loaded ⟨true, handle.toNat⟩ = some bitstream

section

variable {st : SizeT} {sums : Sums} {first d d' : Device} {events : List ModuleEvent}

theorem mem_handles {handle : BitVec 32} (given : handle ∈ events.filterMap ModuleEvent.handle?) :
    ∃ bitstream, ModuleEvent.initialized bitstream (.ok handle) ∈ events := by
  obtain ⟨event, member, isHandle⟩ := List.mem_filterMap.mp given
  cases event with
  | multiplied => cases isHandle
  | initialized bitstream result =>
      cases result with
      | error stop => cases isHandle
      | ok handle =>
          obtain rfl := Option.some.inj isHandle
          exact ⟨bitstream, member⟩

theorem Kept.init {view : BufferView} {data : List (BitVec 32)} {result : CResult (BitVec 32)}
    (kept : Kept first events d)
    (run : Run (ModuleStep st sums data) (initAccelerator view) d result d') :
    Kept first (events ++ [.initialized data result]) d' := by
  have setUp := initAccelerator_setUp view data run
  obtain ⟨fresh, slots⟩ := setUp.grows
  refine ⟨setUp.mapped.trans kept.mapped, ?_, ?_, ?_⟩
  · rw [setUp.live, List.countP_append]
    exact Nat.le_trans kept.live (by omega)
  · rw [List.filterMap_append]
    cases result with
    | error stop =>
        rw [show [ModuleEvent.initialized data (.error stop)].filterMap ModuleEvent.handle? = []
          from rfl, List.append_nil]
        exact kept.distinct
    | ok handle =>
        apply List.nodup_append'.mpr
        refine ⟨kept.distinct, List.nodup_singleton handle, ?_⟩
        intro other old same
        obtain rfl := List.mem_singleton.mp same
        obtain ⟨bitstream, member⟩ := mem_handles old
        exact (setUp.own _ rfl).1 (kept.kernels bitstream _ member).1
  · intro bitstream handle member
    rcases List.mem_append.mp member with old | new
    · obtain ⟨slot, loaded⟩ := kept.kernels bitstream handle old
      rw [setUp.others _ slot rfl, slots]
      exact ⟨List.mem_append_right fresh slot, loaded⟩
    · cases List.mem_singleton.mp new
      exact (setUp.own handle rfl).2

theorem Kept.gemm {handle : BitVec 32} {x w : Passed (BitVec 8)} {y : Passed (BitVec 32)}
    {result : CResult Unit} (kept : Kept first events d)
    (run : Run (GemmStep st sums) (myCenteredGemm st handle.toNat x.view w.view y.view)
      (d.called x.contents w.contents y.contents) result d') :
    Kept first (events ++ [.multiplied handle x w y (result.map fun _ => d'.world.y)]) d' := by
  have settled := myCenteredGemm_settled _ _ _ _ run
  obtain ⟨slots, loaded⟩ := gemm_kernels run
  refine ⟨settled.mapped.trans kept.mapped, ?_, ?_, ?_⟩
  · have live := kept.live
    rw [List.countP_append]
    cases result with
    | error stop =>
        have few : d'.live.length ≤ d.live.length + 3 := settled.few
        show d'.live.length ≤ first.live.length + 3 * (_ + 1)
        omega
    | ok _ =>
        have freed : d'.live.length = d.live.length := (settled.freed rfl).length_eq
        rw [freed]
        exact Nat.le_trans live (by omega)
  · rw [List.filterMap_append]
    show (_ ++ []).Nodup
    rw [List.append_nil]
    exact kept.distinct
  · intro bitstream handle member
    rw [slots, loaded]
    rcases List.mem_append.mp member with old | new
    · exact kept.kernels bitstream handle old
    · cases List.mem_singleton.mp new

theorem Session.kept (session : Session st sums first events d) : Kept first events d := by
  induction session with
  | start => exact ⟨rfl, Nat.le_refl _, List.nodup_nil, nofun⟩
  | op _ event move kept =>
      cases move with
      | init view data result run => exact kept.init run
      | gemm handle x w y result run => exact kept.gemm run

/-- Every event of a session is a call on the device the earlier ones left. -/
theorem Session.split {earlier later : List ModuleEvent} {event : ModuleEvent}
    (session : Session st sums first (earlier ++ event :: later) d) :
    ∃ before after, Session st sums first earlier before ∧ ModuleOp st sums before event after := by
  generalize whole : earlier ++ event :: later = all at session
  induction session generalizing later with
  | start => exact absurd whole (by simp)
  | @op events before after session last move ih =>
      rcases List.eq_nil_or_concat later with rfl | ⟨middle, tail, rfl⟩
      · obtain ⟨rfl, same⟩ := List.append_inj' whole rfl
        obtain rfl := List.singleton_inj.mp same
        exact ⟨before, after, session, move⟩
      · rw [List.concat_eq_append, ← List.cons_append, ← List.append_assoc] at whole
        exact ih (List.append_inj' whole rfl).1

theorem int8_whole (a : NdArray (BitVec 8)) : a.elements.length = (int8View a).elements :=
  a.whole.trans List.prod_eq_foldl

theorem int32_whole (a : NdArray (BitVec 32)) : a.elements.length = (int32View a).elements :=
  a.whole.trans List.prod_eq_foldl

/-- A product that returns OK, with a kernel that is loaded for its zero points and depth. -/
theorem gemm_product {handle : BitVec 32} {bitstream : List (BitVec 32)}
    {x w : NdArray (BitVec 8)} {y : NdArray (BitVec 32)} {zX zW : BitVec 32}
    {rows depth columns : Nat} (loaded : d.loaded ⟨true, handle.toNat⟩ = some bitstream)
    (right : sums bitstream zX zW depth) (xShape : x.shape = [rows, depth])
    (wShape : w.shape = [columns, depth]) (yShape : y.shape = [rows, columns]) (some_ : 1 ≤ depth)
    (xFits : x.elements.length < 2 ^ st.width) (wFits : w.elements.length < 2 ^ st.width)
    (yFits : 4 * y.elements.length < 2 ^ st.width)
    (run : Run (GemmStep st sums)
      (myCenteredGemm st handle.toNat (int8View x) (int8View w) (int32View y))
      (d.called x.elements w.elements y.elements) (.ok ()) d') :
    (centeredGemm zX zW x w y).map (·.elements) = .ok d'.world.y := by
  have checked : Checked (int8View x) (int8View w) (int32View y) rows depth columns :=
    ⟨xShape, wShape, ⟨rows, columns, yShape⟩, rfl, rfl, rfl⟩
  have dense : Dense st (int8View x) (int8View w) (int32View y) :=
    ⟨int8_whole x, int8_whole w, congrArg (4 * ·) (int32_whole y), xFits, wFits, yFits⟩
  have called : Called (d.called x.elements w.elements y.elements).world (int8View x) (int8View w)
      (int32View y) :=
    ⟨rfl, rfl, rfl, rfl, rfl, rfl, rfl⟩
  have feeds : Feeds ⟨true, handle.toNat⟩ depth
      (myCenteredGemm st handle.toNat (int8View x) (int8View w) (int32View y)) false := by
    rw [myCenteredGemm_checked handle.toNat checked]
    exact scopedMap_feeds (scopedMap_feeds (scopedMap_feeds (gemmBody_feeds st _ rows columns)))
  exact centeredGemm_run st zX zW handle.toNat rows depth columns _ _ _ checked yShape some_ dense
    _ _ called x w y ⟨rfl, rfl⟩ ⟨rfl, rfl⟩ ⟨rfl, rfl⟩
    (product_run feeds nofun loaded right run)

end

/-- In every session, whatever fails in it: nothing stays mapped; the buffers that stay
allocated are at most three for each product that failed; no handle is given twice; and a product
that returns OK with a handle it was given earlier is the plain one, less the zero points that
handle's bitstream is for. -/
theorem session_products (st : SizeT) (sums : Sums) (first d : Device) (events : List ModuleEvent)
    (session : Session st sums first events d) :
    d.mapped = first.mapped ∧
    d.live.length ≤ first.live.length + 3 * events.countP ModuleEvent.failedProduct ∧
    (events.filterMap ModuleEvent.handle?).Nodup ∧
    ∀ earlier later bitstream handle x w y after zX zW rows depth columns,
      events = earlier ++
        .multiplied handle (passInt8 x) (passInt8 w) (passInt32 y) (.ok after) :: later →
      .initialized bitstream (.ok handle) ∈ earlier → sums bitstream zX zW depth →
      x.shape = [rows, depth] → w.shape = [columns, depth] → y.shape = [rows, columns] →
      1 ≤ depth → x.elements.length < 2 ^ st.width → w.elements.length < 2 ^ st.width →
      4 * y.elements.length < 2 ^ st.width →
      (centeredGemm zX zW x w y).map (·.elements) = .ok after := by
  have kept := session.kept
  refine ⟨kept.mapped, kept.live, kept.distinct, ?_⟩
  intro earlier later bitstream handle x w y after zX zW rows depth columns order given right
    xShape wShape yShape some_ xFits wFits yFits
  rw [order] at session
  obtain ⟨before, d', session, move⟩ := session.split
  obtain ⟨_, loaded⟩ := session.kept.kernels bitstream handle given
  generalize isResult : (Except.ok after : CResult (List (BitVec 32))) = shown at move
  cases move with
  | gemm handle x w y result run =>
      cases result with
      | error stop => cases isResult
      | ok _ =>
          obtain rfl := Except.ok.inj isResult
          exact gemm_product loaded right xShape wShape yShape some_ xFits wFits yFits run

/-- A device on which nothing has happened. -/
def Device.blank : Device where
  world := .initial [] [] []
  kernel := ⟨false, 0⟩
  loaded := fun _ => none
  slots := []
  live := []
  mapped := []

/-- One bitstream, for sums of two products less 1 and 2. -/
def twoSums (data : List (BitVec 32)) : Sums := fun bitstream zX zW depth =>
  bitstream = data ∧ zX = 1 ∧ zW = 2 ∧ depth = 2

/-- The device once the bitstream is set up. -/
def Device.setUp (data : List (BitVec 32)) : Device where
  world := .initial [] [] []
  kernel := ⟨false, 0⟩
  loaded kernel := if kernel = ⟨true, 0⟩ then some data else none
  slots := [⟨true, 0⟩]
  live := []
  mapped := []

theorem setUp_run (data : List (BitVec 32)) (whole : data.length = strelaKernelSize) :
    Run (ModuleStep .bits64 (twoSums data) data)
      (initAccelerator ⟨[strelaKernelSize], .int32, 4 * strelaKernelSize⟩) .blank (.ok 0)
      (.setUp data) :=
  .call (.ok data : CResult (List (BitVec 32))) ⟨rfl, congrArg (4 * ·) whole, rfl⟩
    (.call () ⟨_, rfl, ⟨false, rfl⟩, trivial⟩
      (.call (⟨true, 0⟩ : StrelaKernel) ⟨false, nofun, by decide, rfl⟩
        (.call () ⟨false, (Device.setUp data).loaded, rfl, fun _ different => if_neg different,
            fun _ _ => rfl⟩
          (.call true ⟨_, rfl, ⟨rfl, rfl⟩, trivial⟩ (.call () rfl (.ret _ _))))))

/-- The device on which no product fails. -/
def grantingDevice (d : Device) (c : GemmCall) : c.Answer × Device :=
  ((granting 1 2 d.world c).1, d.note (granting 1 2 d.world c).2 c (granting 1 2 d.world c).1)

theorem grantingDevice_allowed (data : List (BitVec 32)) (d : Device) (c : GemmCall) :
    GemmStep .bits64 (twoSums data) d c (grantingDevice d c).1 (grantingDevice d c).2 := by
  refine ⟨_, rfl, granting_allowed _ c fun other isExecute => absurd isExecute other, ?_⟩
  cases c with
  | bufferAlloc => exact nofun
  | execute =>
      rintro completed bitstream zX zW first - - ⟨-, rfl, rfl, -⟩ fed
      exact granting_done d.world completed fed
  | _ => trivial

/-- The second call has the wrong kind of result. -/
def sampleCalls (after : List (BitVec 32)) : List ModuleEvent :=
  [.initialized (.replicate strelaKernelSize 7) (.ok 0),
    .multiplied 0 ⟨twoTilesX, []⟩ ⟨twoTilesW, []⟩ ⟨twoTilesX, []⟩
      (makeStatus .invalidArgument "Expected SINT_8 inputs and SINT_32 output"),
    .multiplied 0 (passInt8 ⟨[2, 2], [3, -1, 2, 0], rfl⟩)
      (passInt8 ⟨[4, 2], [4, 5, 0, 1, 2, 2, -6, 7], rfl⟩)
      (passInt32 ⟨[2, 4], [5, 6, 7, 8, 0, 0, 0, 0], rfl⟩) (.ok after)]

theorem session_products_sample : ∃ d after,
    Session .bits64 (twoSums (.replicate strelaKernelSize 7)) .blank (sampleCalls after) d ∧
      after = [3, 4, 7, -18, -1, -1, 0, -13] ∧ d.mapped = [] := by
  have initRun := setUp_run (.replicate strelaKernelSize 7) List.length_replicate
  have refused : Run (GemmStep .bits64 (twoSums (.replicate strelaKernelSize 7)))
      (myCenteredGemm .bits64 0 twoTilesX twoTilesW twoTilesX)
      ((Device.setUp (.replicate strelaKernelSize 7)).called [] [] []) _ _ := .ret _ _
  have gemmRun := Run.of_eval (grantingDevice_allowed (.replicate strelaKernelSize 7))
    (myCenteredGemm .bits64 0 twoTilesX twoTilesW twoTilesY)
    (((Device.setUp (.replicate strelaKernelSize 7)).called [] [] []).called [3, -1, 2, 0]
      [4, 5, 0, 1, 2, 2, -6, 7] [5, 6, 7, 8, 0, 0, 0, 0])
  have session :
      Session .bits64 (twoSums (.replicate strelaKernelSize 7)) .blank (sampleCalls _) _ :=
    ((Session.op .start _ (.init _ _ _ initRun)).op _
      (.gemm 0 ⟨twoTilesX, []⟩ ⟨twoTilesW, []⟩ ⟨twoTilesX, []⟩ _ refused)).op _
      (.gemm 0 (passInt8 ⟨[2, 2], [3, -1, 2, 0], rfl⟩)
        (passInt8 ⟨[4, 2], [4, 5, 0, 1, 2, 2, -6, 7], rfl⟩)
        (passInt32 ⟨[2, 4], [5, 6, 7, 8, 0, 0, 0, 0], rfl⟩) (.ok ()) gemmRun)
  obtain ⟨mapped, _, _, products⟩ := session_products .bits64 _ _ _ _ session
  refine ⟨_, _, session, ?_, mapped⟩
  have product := products [_, _] [] _ 0 _ _ _ _ 1 2 2 2 4 rfl List.mem_cons_self
    ⟨rfl, rfl, rfl, rfl⟩ rfl rfl rfl (by decide) (by decide) (by decide) (by decide)
  exact (Except.ok.inj product).symm

end Estela.Runtime.CenteredGemm
