import Estela.Compiler.SplatInlining
import Estela.Lib.Rewiring

set_option autoImplicit false

/- A `util.func` before dispatches are formed, and the pass that puts ops on STRELA. -/
namespace Estela.Compiler

def BodyOp.operands : BodyOp → List BodyValue
  | .addi lhs rhs => [lhs, rhs]
  | .maxsi lhs rhs => [lhs, rhs]
  | .other _ operands => operands

def Block.usesArgument (block : Block) (number : Nat) : Bool :=
  block.ops.any (·.operands.any (· = .argument number)) || block.yield.any (· = .argument number)

/-- The values a block captures, from their numbers, with the constants they are. -/
def BodyValue.capture (captures : List (Nat × Option APInt)) : BodyValue → BodyValue
  | .captured number constant =>
      match captures[number]? with
      | some (value, constant) => .captured value constant
      | none => .captured number constant
  | value => value

def BodyOp.capture (captures : List (Nat × Option APInt)) : BodyOp → BodyOp
  | .addi lhs rhs => .addi (lhs.capture captures) (rhs.capture captures)
  | .maxsi lhs rhs => .maxsi (lhs.capture captures) (rhs.capture captures)
  | .other name operands => .other name (operands.map (·.capture captures))

def Block.capture (captures : List (Nat × Option APInt)) (block : Block) : Block where
  ops := block.ops.map (·.capture captures)
  yield := block.yield.map (·.capture captures)

namespace Flow

open Ssa (Op Body defs uses definingOp)

/-- `#hal.device.affinity`. -/
structure DeviceAffinity where
  device : String
  queueMask : Int
  deriving DecidableEq, Repr

/-- What a `linalg.generic` carries besides its operands: inputs, inits, and then the
values its block captures, which the block numbers in order. -/
structure GenericAttrs where
  inputs : List (TensorType × AffineMap)
  inits : List (TensorType × AffineMap)
  resultTypes : List TensorType
  iteratorTypes : List IteratorType
  block : Block
  pureTensorSemantics : Bool
  affinity : Option DeviceAffinity
  deriving DecidableEq, Repr

structure BatchMatmulAttrs where
  lhsType : TensorType
  rhsType : TensorType
  outType : TensorType
  pureTensorSemantics : Bool
  hasUserDefinedMaps : Bool
  affinity : Option DeviceAffinity
  deriving DecidableEq, Repr

inductive AbiOp
  | tensorImport
  | tensorExport
  | tensorAlias
  deriving DecidableEq, Repr

inductive Kind
  | constant (attr : DenseIntElementsAttr)
  | constantInt (value : APInt)
  | generic (attrs : GenericAttrs)
  | batchMatmul (attrs : BatchMatmulAttrs)
  | fill
  | linalg (name : String) (numInputs numInits : Nat) (payloadUsesInits : Bool)
  | transfer (target : DeviceAffinity)
  | abi (op : AbiOp) (affinity : Option DeviceAffinity)
  | ret
  | other (name : String) (isPure : Bool)
  deriving DecidableEq, Repr

/-- `DestinationStyleOpInterface`: the number of inputs and of inits of a linalg op. -/
def Kind.dps : Kind → Option (Nat × Nat)
  | .generic attrs => some (attrs.inputs.length, attrs.inits.length)
  | .batchMatmul _ => some (2, 1)
  | .fill => some (1, 1)
  | .linalg _ numInputs numInits _ => some (numInputs, numInits)
  | _ => none

def Kind.isTransfer : Kind → Bool
  | .transfer _ => true
  | _ => false

/-- Operations without effects, which shapes are computed by. -/
def Kind.isPure : Kind → Bool
  | .constantInt _ => true
  | .other _ isPure => isPure
  | _ => false

def Kind.pureTensorSemantics : Kind → Bool
  | .generic attrs => attrs.pureTensorSemantics
  | .batchMatmul attrs => attrs.pureTensorSemantics
  | _ => false

/-- `AffinityOpInterface::getAffinityAttr`, or the attribute `stream.affinity`. -/
def Kind.affinity : Kind → Option DeviceAffinity
  | .generic attrs => attrs.affinity
  | .batchMatmul attrs => attrs.affinity
  | .abi _ affinity => affinity
  | _ => none

/-- A `util.global`, with the device ID of the target it is initialized to, if it is one. -/
structure GlobalOp where
  symName : String
  deviceID : Option String
  deriving DecidableEq, Repr

/-- What is around a function: its module's globals, the affinity of an op it is in, and
`stream.affinity.default`. -/
structure Scope where
  globals : List GlobalOp
  affinity : Option DeviceAffinity
  defaultAffinity : Option DeviceAffinity

/-- `AffinityAttr::lookupOrDefault`. -/
def lookupOrDefault (scope : Scope) (kind : Kind) : Option DeviceAffinity :=
  kind.affinity <|> scope.affinity <|> scope.defaultAffinity

/-- `findStrelaAffinity`. -/
def findStrelaAffinity (scope : Scope) : Option DeviceAffinity :=
  (scope.globals.find? (·.deviceID = some "strela")).map fun globalOp =>
    { device := globalOp.symName, queueMask := -1 }

/-- `m_Constant`, of a tensor. -/
def constantOf (body : Body Kind) (v : Nat) : Option DenseIntElementsAttr :=
  match definingOp body v with
  | some (⟨.constant attr, _, _⟩, _) => some attr
  | _ => none

/-- `m_ConstantInt`. -/
def constantInt (body : Body Kind) (v : Nat) : Option APInt :=
  match definingOp body v with
  | some (⟨.constantInt value, _, _⟩, _) => some value
  | _ => none

/-- The inputs of the `linalg::FillOp` that defines a value, if one does. -/
def definingFill (body : Body Kind) (v : Nat) : Option (List Nat) :=
  match definingOp body v with
  | some (⟨.fill, operands, _⟩, _) => some operands
  | _ => none

def genericOperand (body : Body Kind) (attrs : TensorType × AffineMap)
    (value : Nat) : GenericOperand where
  value := value
  type := attrs.1
  map := attrs.2
  constant := constantOf body value

def GenericAttrs.op (attrs : GenericAttrs) (body : Body Kind) (operands : List Nat) : GenericOp :=
  let inits := operands.drop attrs.inputs.length
  let captures := inits.drop attrs.inits.length
  { inputs := List.zipWith (genericOperand body) attrs.inputs operands
    inits := List.zipWith (genericOperand body) attrs.inits inits
    resultTypes := attrs.resultTypes
    iteratorTypes := attrs.iteratorTypes
    block := attrs.block.capture (captures.map fun value => (value, constantInt body value))
    pureTensorSemantics := attrs.pureTensorSemantics }

/-- `dyn_cast<linalg::LinalgOp>`, with what the matchers ask about its operands. -/
def linalgOp (body : Body Kind) (op : Op Kind) : Option LinalgOp :=
  match op.kind with
  | .generic attrs => some (.generic (attrs.op body op.operands))
  | .batchMatmul attrs =>
      some (.batchMatmul {
        lhs := op.operands.getD 0 0
        rhs := op.operands.getD 1 0
        out := op.operands.getD 2 0
        lhsType := attrs.lhsType
        rhsType := attrs.rhsType
        outType := attrs.outType
        pureTensorSemantics := attrs.pureTensorSemantics
        hasUserDefinedMaps := attrs.hasUserDefinedMaps
        fill := op.operands[2]?.bind fun init =>
          (definingFill body init).map fun inputs => inputs.head?.bind (constantInt body) })
  | .fill => some (.other "linalg.fill")
  | .linalg name _ _ _ => some (.other name)
  | _ => none

/-- `payloadUsesValueFromOperand`, of an init. -/
def Kind.payloadUsesInit (number : Nat) : Kind → Bool
  | .generic attrs => attrs.block.usesArgument (attrs.inputs.length + number)
  | .batchMatmul _ => true
  | .linalg _ _ _ payloadUsesInits => payloadUsesInits
  | _ => false

/-- `flow.tensor.transfer`. -/
def tensorTransfer (target : DeviceAffinity) (source : Nat) (dims : List Nat)
    (result : Nat) : Op Kind where
  kind := .transfer target
  operands := source :: dims
  results := [result]

/-- An op and what is around it: the rewriter inserts before it. -/
structure Cursor where
  before : Body Kind
  op : Op Kind
  after : Body Kind

def Cursor.body (cursor : Cursor) : Body Kind := cursor.before ++ cursor.op :: cursor.after

/-- The op with some results. -/
def Cursor.find (results : List Nat) : Body Kind → Option Cursor
  | [] => none
  | op :: rest =>
      if op.results = results then some ⟨[], op, rest⟩
      else (Cursor.find results rest).map fun cursor =>
        { cursor with before := op :: cursor.before }

def Cursor.insert (cursor : Cursor) (ops : Body Kind) : Cursor :=
  { cursor with before := cursor.before ++ ops }

def freshValue (args : List Nat) (body : Body Kind) : Nat := (args ++ defs body).foldr max 0 + 1

/-- `replaceAllUsesExcept` on one op; the one left out is the one that makes the new value. -/
def replaceUses (result back : Nat) (op : Op Kind) : Op Kind :=
  if op.results = [back] then op
  else { op with operands := op.operands.map fun v => if v = result then back else v }

def replaceAllUsesExcept (result back : Nat) (body : Body Kind) : Body Kind :=
  body.map (replaceUses result back)

section

/-- The ops that compute the dims of a value before an insertion point, and the dims:
from the arguments, what is before and after the point, and the value. -/
abbrev DimsBuilder := List Nat → Body Kind → Body Kind → Nat → Body Kind × List Nat

variable (buildDynamicDimsForValue : DimsBuilder) (args : List Nat)

def Cursor.buildDims (cursor : Cursor) (value : Nat) : Cursor × List Nat :=
  let built := buildDynamicDimsForValue args cursor.before (cursor.op :: cursor.after) value
  (cursor.insert built.1, built.2)

/-- The first loop of `wrapInTransfers`, over inits and their numbers. Nothing is
returned if the assertion fails. -/
def buildResultDims : List (Nat × Nat) → Cursor → Option (Cursor × List (List Nat))
  | [], cursor => some (cursor, [])
  | (init, number) :: rest, cursor =>
      if cursor.op.kind.payloadUsesInit number ∧ (definingFill cursor.body init).isNone then none
      else
        let built := cursor.buildDims buildDynamicDimsForValue args init
        (buildResultDims rest built.1).map
          fun (cursor, resultDims) => (cursor, built.2 :: resultDims)

/-- The second loop, for an input and its number. -/
def transferInput (strela : DeviceAffinity) (cursor : Cursor) (input : Nat × Nat) : Cursor :=
  if isInt32Immediate (constantOf cursor.body input.1) then cursor
  else
    let built := cursor.buildDims buildDynamicDimsForValue args input.1
    let transfer := freshValue args built.1.body
    let cursor := built.1.insert [tensorTransfer strela input.1 built.2 transfer]
    { cursor with op := { cursor.op with operands := cursor.op.operands.set input.2 transfer } }

/-- The third loop, for a result and its dims. The op is before the insertion point. -/
def transferBack (host : DeviceAffinity) (point : Body Kind × Body Kind) (result : Nat × List Nat) :
    Body Kind × Body Kind :=
  let back := freshValue args (point.1 ++ point.2)
  (replaceAllUsesExcept result.1 back (point.1 ++ [tensorTransfer host result.1 result.2 back]),
    replaceAllUsesExcept result.1 back point.2)

/-- `wrapInTransfers`, for the op with some results. -/
def wrapInTransfers (strela host : DeviceAffinity) (results : List Nat) (body : Body Kind) :
    Option (Body Kind) := do
  let cursor ← Cursor.find results body
  let (numInputs, numInits) ← cursor.op.kind.dps
  let inits := ((cursor.op.operands.drop numInputs).take numInits).zipIdx
  let inputs := (cursor.op.operands.take numInputs).zipIdx
  let (cursor, resultDims) ← buildResultDims buildDynamicDimsForValue args inits cursor
  let cursor := inputs.foldl (transferInput buildDynamicDimsForValue args strela) cursor
  let point := (results.zip resultDims).foldl (transferBack args host)
    (cursor.before ++ [cursor.op], cursor.after)
  some (point.1 ++ point.2)

end

/-- An affinity that is already there is not overwritten. -/
def Kind.pin (scope : Scope) : Kind → Kind
  | .abi op none => .abi op (lookupOrDefault scope (.abi op none))
  | kind => kind

/-- `pinAbiToDefaultDevice`. -/
def pinAbiToDefaultDevice (scope : Scope) (body : Body Kind) : Body Kind :=
  body.map fun op => { op with kind := op.kind.pin scope }

/-- The ops to put on STRELA, in walk order. -/
def candidates (body : Body Kind) : List (Op Kind) :=
  body.filter fun op => (linalgOp body op).any isSupportedByStrela

/-- `TransferWrapPass`. Nothing is returned if an assertion fails. -/
def transferWrapPass (buildDynamicDimsForValue : DimsBuilder) (scope : Scope) (args : List Nat)
    (body : Body Kind) :
    Option (Body Kind) :=
  match findStrelaAffinity scope with
  | none => some body
  | some strela =>
      let pinned := pinAbiToDefaultDevice scope body
      (candidates pinned).foldlM (fun body op =>
        match lookupOrDefault scope op.kind with
        | none => some body
        | some host => wrapInTransfers buildDynamicDimsForValue args strela host op.results body)
        pinned

end Flow

end Estela.Compiler
