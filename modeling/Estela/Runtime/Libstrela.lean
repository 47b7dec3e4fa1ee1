import Mathlib.Algebra.Group.Nat.Defs
import Estela.Lib.CallProgram

set_option autoImplicit false

/- What the driver sees of its surroundings: statuses, the two widths of
`size_t`, and the calls it makes into libstrela and the host allocator. -/
namespace Estela.Runtime

open CallProgram (Prog)

/-- `size_t` of the two builds: 32 bits on the armhf board, 64 on a host. -/
inductive SizeT
  | bits32
  | bits64
  deriving DecidableEq, Repr

def SizeT.width : SizeT → Nat
  | .bits32 => 32
  | .bits64 => 64

/-- Conversion of an unsigned result to `size_t`. -/
def SizeT.wrap (st : SizeT) (value : Nat) : Nat := value % 2 ^ st.width

theorem SizeT.wrap_of_lt (st : SizeT) (value : Nat) (fits : value < 2 ^ st.width) :
    st.wrap value = value := Nat.mod_eq_of_lt fits

/-- A `size_t` never holds more than 64 bits. -/
theorem SizeT.width_le (st : SizeT) : 2 ^ st.width ≤ 2 ^ 64 := by
  cases st <;> decide

inductive StatusCode
  | invalidArgument
  | outOfRange
  | notFound
  | aborted
  | resourceExhausted
  | internal
  | unavailable
  | unimplemented
  /-- `iree_status_code_from_errno`. -/
  | ofErrno (errnum : Nat)
  deriving DecidableEq, Repr

/-- A message the driver spells out, or one that ends in `strerror(errnum)`. -/
inductive Message
  | text (message : String)
  | strerror (what : String) (errnum : Nat)
  deriving DecidableEq, Repr

/-- A status other than OK. -/
structure Status where
  code : StatusCode
  message : Message
  deriving DecidableEq, Repr

/-- What C leaves undefined, where the driver could run into it. -/
inductive Fault
  | readsPast (what : String)
  | shiftsPast (amount : Nat)
  deriving DecidableEq, Repr

/-- Why a function does not return OK: with a status, or not at all. -/
inductive Stop
  | status (status : Status)
  | fault (fault : Fault)
  deriving DecidableEq, Repr

/-- The driver's results: a value on OK. `CResult Unit` is an `iree_status_t`. -/
abbrev CResult (α : Type) := Except Stop α

def makeStatus {α : Type} (code : StatusCode) (message : String) : CResult α :=
  .error (.status ⟨code, .text message⟩)

/-- `iree_status_join`: the first status that is not OK. -/
def statusJoin (first second : CResult Unit) : CResult Unit :=
  match first with
  | .ok _ => second
  | .error stop => .error stop

/-- `strela_buffer`: a run of words of STRELA memory, handed out by libstrela.
`words` is its length, which libstrela keeps with the handle. -/
structure StrelaBuffer where
  valid : Bool
  offsetWordsFromBase : Nat
  words : Nat
  deriving DecidableEq, Repr

structure StrelaKernel where
  valid : Bool
  handle : Nat
  deriving DecidableEq, Repr

structure StrelaJob where
  valid : Bool
  handle : Nat
  deriving DecidableEq, Repr

/-- `inpN_offset`, `inpN_count` and `inpN_stride` of a `strela_conf`. -/
structure InpConf where
  offset : Nat
  count : Nat
  stride : Nat
  deriving DecidableEq, Repr

/-- `outN_offset` and `outN_count` of a `strela_conf`. -/
structure OutConf where
  offset : Nat
  count : Nat
  deriving DecidableEq, Repr

/-- `strela_conf`, indexed by CGRA column. -/
structure StrelaConf where
  inp : List InpConf
  out : List OutConf
  deriving DecidableEq, Repr

inductive StrelaJobState
  | ok
  | pending
  | failed
  deriving DecidableEq, Repr

/-- The device's sticky error: a positive `errnum`, or a negated `STRELA_ERR_*`. -/
inductive StrelaErr
  | errnum (errnum : Nat)
  | noMem
  | badArg
  | other (errnum : Int)
  deriving DecidableEq, Repr

/-- What the driver asks the host allocator for. -/
inductive HostObject
  | buffer
  | executable (exportCount flatbufferLength : Nat)
  deriving DecidableEq, Repr

/-- The calls of the driver that leave it. `malloc` and `free` are the host
allocator's; every other call is libstrela's, on the one device. -/
inductive Call
  | devOk
  | devGetErr
  | devResetErr
  | bufferAlloc (words : Nat)
  | bufferFree (buffer : StrelaBuffer)
  | bufferToPtr (buffer : StrelaBuffer)
  | bufferFlush (buffer : StrelaBuffer) (offset count : Nat)
  | bufferInval (buffer : StrelaBuffer) (offset count : Nat)
  | kernelAlloc
  | kernelSet (kernel : StrelaKernel) (bitstream : List (BitVec 32))
  | kernelFree (kernel : StrelaKernel)
  | jobConfig (kernel : StrelaKernel) (conf : StrelaConf)
  | jobSubmit (job : StrelaJob)
  | jobWait (job : StrelaJob) (timeout : Int)
  | jobPoll (job : StrelaJob)
  | jobFree (job : StrelaJob)
  | malloc (object : HostObject)
  | free (address : Nat)
  deriving DecidableEq, Repr

def Call.Answer : Call → Type
  | .devOk => Bool
  | .devGetErr => StrelaErr
  | .devResetErr => Unit
  | .bufferAlloc _ => StrelaBuffer
  | .bufferFree _ => Unit
  | .bufferToPtr _ => Nat
  | .bufferFlush _ _ _ => Unit
  | .bufferInval _ _ _ => Unit
  | .kernelAlloc => StrelaKernel
  | .kernelSet _ _ => Unit
  | .kernelFree _ => Unit
  | .jobConfig _ _ => StrelaJob
  | .jobSubmit _ => Unit
  | .jobWait _ _ => Unit
  | .jobPoll _ => StrelaJobState
  | .jobFree _ => Unit
  | .malloc _ => CResult Nat
  | .free _ => Unit

abbrev Driver (α : Type) := Prog Call Call.Answer α

def call (c : Call) : Driver c.Answer := Prog.request c

/-- The status a sticky error turns into. -/
def statusOfErr (what : String) : StrelaErr → CResult Unit
  | .errnum errnum => .error (.status ⟨.ofErrno errnum, .strerror what errnum⟩)
  | .noMem => makeStatus .resourceExhausted s!"{what}: out of STRELA memory"
  | .badArg => makeStatus .invalidArgument s!"{what}: rejected by libstrela"
  | .other errnum => makeStatus .internal s!"{what}: libstrela error {errnum}"

/-- `iree_hal_strela_status_from_dev`: the sticky error as a status, cleared. -/
def statusFromDev (what : String) : Driver (CResult Unit) := do
  let ok : Bool ← call .devOk
  if ok then
    return .ok ()
  let err : StrelaErr ← call .devGetErr
  call .devResetErr
  return statusOfErr what err

/-- `IREE_HAL_STRELA_CACHE_LINE`, in bytes. -/
def cacheLine : Nat := 64

/-- `sizeof(strela_word)`. -/
def wordBytes : Nat := 4

end Estela.Runtime
