import Estela.Runtime.Executable
import Estela.Runtime.GemmProduct

set_option autoImplicit false

/- The custom module over a whole session: kernels that are set up once, and products
that use them, on one device. -/
namespace Estela.Runtime.CenteredGemm

open CallProgram
open RowMajor (NdArray)

/-- The calls of the module: those of `MyCenteredGemm`, and those that set a kernel up. -/
inductive ModuleCall
  | gemm (c : GemmCall)
  | mapBitstream (byteLength : Nat)
  | unmapBitstream
  | kernelAlloc
  | kernelSet (kernel : StrelaKernel) (data : List (BitVec 32))
  deriving DecidableEq, Repr

/-- The answer to a mapping is what it shows. -/
def ModuleCall.Answer : ModuleCall → Type
  | .gemm c => c.Answer
  | .mapBitstream _ => CResult (List (BitVec 32))
  | .unmapBitstream => Unit
  | .kernelAlloc => StrelaKernel
  | .kernelSet _ _ => Unit

abbrev ModuleProg (α : Type) := Prog ModuleCall ModuleCall.Answer α

def moduleCall (c : ModuleCall) : ModuleProg c.Answer := Prog.request c

/-- `CustomModuleState::InitAccelerator`. Its result is an `int32_t`. -/
def initAccelerator (kernelBitstream : BufferView) : ModuleProg (CResult (BitVec 32)) :=
  if kernelBitstream.elementType ≠ .int32 then
    return makeStatus .invalidArgument "Expected kernel_bitstream to be UINT_32"
  else if kernelBitstream.byteLength ≠ 4 * strelaKernelSize then
    return makeStatus .invalidArgument "Expected kernel_bitstream to have the correct length"
  else do
    let mapped : CResult (List (BitVec 32)) ←
      moduleCall (.mapBitstream kernelBitstream.byteLength)
    match mapped with
    | .error stop => return .error stop
    | .ok data => do
      moduleCall (.gemm .devInit)
      let kernel : StrelaKernel ← moduleCall .kernelAlloc
      moduleCall (.kernelSet kernel data)
      let ok : Bool ← moduleCall (.gemm .devOk)
      match ok with
      | false => do
        moduleCall .unmapBitstream
        return makeStatus .internal "strela_dev failed to initialize or set kernel"
      | true => do
        moduleCall .unmapBitstream
        return .ok (BitVec.ofNat 32 kernel.handle)

inductive Mapping
  | operand (operand : Operand)
  | bitstream
  deriving DecidableEq, Repr

/-- The device between the calls of a session, and what the module still holds of it. -/
structure Device where
  world : World
  /-- The kernel of the last configuration. -/
  kernel : StrelaKernel
  loaded : StrelaKernel → Option (List (BitVec 32))
  slots : List StrelaKernel
  live : List StrelaBuffer
  mapped : List Mapping

/-- What a call of a product changes besides the world. -/
def Device.note (d : Device) (world : World) : (c : GemmCall) → c.Answer → Device
  | .mapRange operand _, (.ok _ : CResult Unit) =>
      { d with world, mapped := .operand operand :: d.mapped }
  | .unmapRange operand, _ => { d with world, mapped := d.mapped.erase (.operand operand) }
  | .bufferAlloc _, (buffer : StrelaBuffer) =>
      { d with world, live := if buffer.valid then buffer :: d.live else d.live }
  | .bufferFree buffer, _ => { d with world, live := d.live.erase buffer }
  | .config kernel _, _ => { d with world, kernel }
  | _, _ => { d with world }

/-- Which sums a bitstream configures the accelerator for: less these zero points, and of
this many products. -/
abbrev Sums := List (BitVec 32) → BitVec 32 → BitVec 32 → Nat → Prop

/-- An invalid buffer comes with an error. A job that completes has made the sums its
kernel is for, if it was fed what they need. -/
def Honest (sums : Sums) (d : Device) (world : World) : (c : GemmCall) → c.Answer → Prop
  | .bufferAlloc _, (buffer : StrelaBuffer) => buffer.valid = false → world.failed = true
  | .execute, (state : StrelaJobState) => state = .ok → ∀ bitstream zX zW first,
      d.loaded d.kernel = some bitstream → d.world.conf.inp[0]? = some first →
      sums bitstream zX zW first.count → Fed d.world.conf →
      JobDone zX zW d.world.conf d.world.mem world.mem
  | _, _ => True

def GemmStep (st : SizeT) (sums : Sums) (d : Device) (c : GemmCall) (answer : c.Answer)
    (d' : Device) : Prop :=
  ∃ world, d' = d.note world c answer ∧ Step st (c ≠ .execute) 0 0 d.world c answer world ∧
    Honest sums d world c answer

/-- A valid kernel is a slot nobody has, and an invalid one comes with an error. `data` is
what the bitstream's buffer holds. -/
def ModuleStep (st : SizeT) (sums : Sums) (data : List (BitVec 32)) (d : Device) :
    (c : ModuleCall) → c.Answer → Device → Prop
  | .gemm c, answer, d' => GemmStep st sums d c answer d'
  | .mapBitstream byteLength, (.ok words : CResult (List (BitVec 32))), d' =>
      words = data ∧ 4 * words.length = byteLength ∧
        d' = { d with mapped := .bitstream :: d.mapped }
  | .mapBitstream _, (.error _ : CResult (List (BitVec 32))), d' => d' = d
  | .unmapBitstream, _, d' => d' = { d with mapped := d.mapped.erase .bitstream }
  | .kernelAlloc, (kernel : StrelaKernel), d' => ∃ failed : Bool,
      let world := { d.world with failed := d.world.failed || failed }
      if kernel.valid then
        kernel ∉ d.slots ∧ kernel.handle < 2 ^ 32 ∧
          d' = { d with world, slots := kernel :: d.slots }
      else failed = true ∧ d' = { d with world }
  | .kernelSet kernel bitstream, _, d' => ∃ (failed : Bool)
      (loaded : StrelaKernel → Option (List (BitVec 32))),
      d' = { d with world := { d.world with failed := d.world.failed || failed }, loaded } ∧
        (∀ other, other ≠ kernel → loaded other = d.loaded other) ∧
        (d'.world.failed = false → kernel.valid = true → loaded kernel = some bitstream)

/-- The views of operands whose elements lie one after the other. -/
def int8View (a : NdArray (BitVec 8)) : BufferView := ⟨a.shape, .int8, a.elements.length⟩

def int32View (a : NdArray (BitVec 32)) : BufferView := ⟨a.shape, .int32, 4 * a.elements.length⟩

/-- What a program passes: a view, and what there is behind it. -/
structure Passed (α : Type) where
  view : BufferView
  contents : List α

def passInt8 (a : NdArray (BitVec 8)) : Passed (BitVec 8) := ⟨int8View a, a.elements⟩

def passInt32 (a : NdArray (BitVec 32)) : Passed (BitVec 32) := ⟨int32View a, a.elements⟩

/-- The device as a call finds it, nothing of which has been done yet. -/
def Device.called (d : Device) (x w : List (BitVec 8)) (y : List (BitVec 32)) : Device :=
  { d with world := { d.world with
      unmapped := false
      x
      w
      y
      buffers := []
      jobs := []
      accesses := [] } }

/-- What the program sees of its calls; a product that returns OK shows what is in `y`. -/
inductive ModuleEvent
  | initialized (bitstream : List (BitVec 32)) (result : CResult (BitVec 32))
  | multiplied (handle : BitVec 32) (x w : Passed (BitVec 8)) (y : Passed (BitVec 32))
      (result : CResult (List (BitVec 32)))

/-- One call of the module's functions, on whatever views and whatever fails in it. -/
inductive ModuleOp (st : SizeT) (sums : Sums) : Device → ModuleEvent → Device → Prop
  | init {d d' : Device} (kernelBitstream : BufferView) (data : List (BitVec 32))
      (result : CResult (BitVec 32))
      (run : Run (ModuleStep st sums data) (initAccelerator kernelBitstream) d result d') :
      ModuleOp st sums d (.initialized data result) d'
  | gemm {d d' : Device} (handle : BitVec 32) (x w : Passed (BitVec 8)) (y : Passed (BitVec 32))
      (result : CResult Unit)
      (run : Run (GemmStep st sums) (myCenteredGemm st handle.toNat x.view w.view y.view)
        (d.called x.contents w.contents y.contents) result d') :
      ModuleOp st sums d (.multiplied handle x w y (result.map fun _ => d'.world.y)) d'

/-- A session, with what the program saw in order. -/
inductive Session (st : SizeT) (sums : Sums) (d₀ : Device) : List ModuleEvent → Device → Prop
  | start : Session st sums d₀ [] d₀
  | op {events : List ModuleEvent} {d d' : Device} (earlier : Session st sums d₀ events d)
      (event : ModuleEvent) (move : ModuleOp st sums d event d') :
      Session st sums d₀ (events ++ [event]) d'

/-- The handle the program was given. -/
def ModuleEvent.handle? : ModuleEvent → Option (BitVec 32)
  | .initialized _ (.ok handle) => some handle
  | _ => none

def ModuleEvent.failedProduct : ModuleEvent → Bool
  | .multiplied _ _ _ _ (.error _) => true
  | _ => false

end Estela.Runtime.CenteredGemm
