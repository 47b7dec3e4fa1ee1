import Estela.Runtime.FlatMemory
import Estela.Runtime.QueueRuns

set_option autoImplicit false

/- Queue operations whose commands run on the board: what any number of them leave in
memory, if commands that clash are in operations that semaphores or threads order. -/
namespace Estela.Runtime.Queue

open CallProgram (Run run_ret_iff)
open FencedCalls Fences Footprint Refinement WriteBack Coherence KernelJobs FlatMemory
open LongCalls (Course)
open Relation (ReflTransGen)

/-- The words with a byte in the range a ref binds: none where it is not STRELA memory. -/
def refWords (ref : BufferRef) : List Word :=
  match ref.buffer with
  | none => []
  | some base => match base.allocated with
    | .foreign => []
    | .strela buffer =>
        let start := boundStart buffer base ref
        List.range' (start / 4) ((start + (boundLength base ref).toNat + 3) / 4 - start / 4)

/-- The words a command reads. A copy takes its length from its target. -/
def Command.reads : Command → Set Word
  | .copyBuffer sourceRef targetRef =>
      {w | w ∈ refWords { sourceRef with length := targetRef.length }}
  | .dispatch executable function constants bindings =>
      {w | ∃ export_ ∈ executable.exports[function.toNat]?,
        ∃ i, w ∈ (exportPlan export_.exportDef constants bindings).reads i}
  | _ => ∅

def Command.writes : Command → Set Word
  | .fillBuffer targetRef _ | .updateBuffer _ _ targetRef | .copyBuffer _ targetRef =>
      {w | w ∈ refWords targetRef}
  | .dispatch executable function constants bindings =>
      {w | ∃ export_ ∈ executable.exports[function.toNat]?,
        ∃ o, w ∈ (exportPlan export_.exportDef constants bindings).writes o}
  | _ => ∅

def QueueAct.reads : QueueAct → Set Word
  | .allocate _ => ∅
  | .command c => c.reads

def QueueAct.writes : QueueAct → Set Word
  | .allocate _ => ∅
  | .command c => c.writes

inductive Access
  | read (w : Word) (v : BitVec 32)
  | write (w : Word) (v : BitVec 32)

def Access.event : Access → FlatMemory.Event
  | .read w v => .read w v
  | .write w v => .write w v

def leave (memory : Word → BitVec 32) : List Access → Word → BitVec 32
  | [] => memory
  | .read _ _ :: rest => leave memory rest
  | .write w v :: rest => leave (Function.update memory w v) rest

/-- What the calls that go on the board end with. -/
inductive Done
  | status (status : CResult Unit)
  | allocated (result : CResult HalStrelaBuffer)
  | released (buffer : HalStrelaBuffer)
  /-- The allocator of the device may be another one than that of STRELA. -/
  | elsewhere

/-- What is left of such a call: libstrela calls, or accesses through a mapping. -/
inductive Part
  | calling (left : Driver Done)
  | accessing (log : List Access)

def Part.run {α : Type} (p : Driver α) (done : α → Done) : Part :=
  .calling (p.bind fun value => .ret (done value))

def Part.returns (status : CResult Unit) : Part := .calling (.ret (.status status))

section

variable (fabric : Fabric) (st : SizeT) (accesses : Command → List Access → Prop)

/-- One libstrela call, or one access. -/
inductive Moves : Part × Session → Part × Session → Prop
  | call {c : Call} (next : c.Answer → Driver Done) (s : Session) (answer : c.Answer) (b : Board)
      (step : Step fabric s.board c answer b) :
      Moves (.calling (.call c next), s) (.calling (next answer), { s with board := b })
  | access (access : Access) (log : List Access) (s s' : Session)
      (op : Op fabric st s (some access.event) s') :
      Moves (.accessing (access :: log), s) (.accessing log, s')

end

/-- What a command does to a flat memory. -/
def commandEffect (fabric : Fabric) (transfer : Command → (Word → BitVec 32) → Word → BitVec 32)
    (c : Command) (memory : Word → BitVec 32) : Word → BitVec 32 :=
  match c with
  | .fillBuffer _ _ | .updateBuffer _ _ _ | .copyBuffer _ _ => transfer c memory
  | .dispatch executable function constants bindings =>
      match executable.exports[function.toNat]? with
      | none => memory
      | some e => (exportPlan e.exportDef constants bindings).perform
          (fabric e.exportDef.bitstream) (List.range columnCount) memory
  | _ => memory

def effect (fabric : Fabric) (transfer : Command → (Word → BitVec 32) → Word → BitVec 32) :
    QueueAct → (Word → BitVec 32) → Word → BitVec 32
  | .allocate _, memory => memory
  | .command c, memory => commandEffect fabric transfer c memory

section

variable {fabric : Fabric} {st : SizeT} {init : Word → BitVec 32} {s s' : Session} {f : Flat}
  {accesses : Command → List Access → Prop}
  {transfer : Command → (Word → BitVec 32) → Word → BitVec 32}

end

section

variable {fabric : Fabric} {st : SizeT} {init : Word → BitVec 32}
  {accesses : Command → List Access → Prop}
  {transfer : Command → (Word → BitVec 32) → Word → BitVec 32}

end

end Estela.Runtime.Queue
