import Estela.Lib.Rewiring
import Estela.Compiler.ExportEffects
import Estela.Runtime.JobAccounting

set_option autoImplicit false

/- The workgroup counts of the exports: what ResolveWorkgroupCount makes of their count
regions, and what those give for a workload. -/
namespace Estela.Compiler

open Ssa (Op Body definingOp)
open Estela.Runtime (SizeT Executable ConstByteSpan BufferRef StrelaErr commandBufferDispatch)

/-- `iree_tensor_ext.dispatch.workload.ordinal`. -/
def workloadOrdinalOp : OpKind := .other "iree_tensor_ext.dispatch.workload.ordinal" true

/-- A dispatch function with what its workgroup count is computed from beside its body: the
types of its values, and the ordinals of those that are workload values. -/
structure DispatchFunc where
  funcOp : FuncOp
  typeOf : Nat → Option TensorType
  ordinals : Nat → Option (BitVec 64)
  ordinalOps : ∀ v ordinal, ordinals v = some ordinal →
    ∃ op i, definingOp funcOp.body v = some (op, i) ∧ op.kind = workloadOrdinalOp

/-- The operations of a workgroup count region. -/
inductive CountOp
  | constantIndex (value : BitVec 64)
  | workgroupCountFromSlice
  | other (name : String)
  deriving DecidableEq, Repr

/-- A workgroup count region. Its arguments are the values from 0 on: the device, then
the workload. -/
structure CountRegion where
  numArguments : Nat
  body : Body CountOp
  returned : List Nat
  deriving DecidableEq, Repr

/-- `hal.executable.export`, with its region unless that is empty. -/
structure CountedExportOp where
  symName : String
  workgroupCount : Option CountRegion
  deriving DecidableEq, Repr

/-- `strelaMatvecFeaturesPerJob`. -/
def strelaMatvecFeaturesPerJob : Nat := 3

/-- `getConstantIntValue`. -/
def getConstantIntValue (body : Body OpKind) : OpFoldResult Nat → Option (BitVec 64)
  | .attr value => some (BitVec.ofInt 64 value)
  | .value v => (constantInt body v).map fun a => BitVec.ofInt 64 a.bits.toInt

def OpKind.isMatvec : OpKind → Bool
  | .matvec _ => true
  | _ => false

/-- The `strela.matvec` ops of a function, as the walk meets them. -/
def DispatchFunc.matvecOps (func : DispatchFunc) : Body OpKind :=
  func.funcOp.body.filter (·.kind.isMatvec)

/-- `rhsType.getDimSize(2)`, if it is static. -/
def DispatchFunc.features (func : DispatchFunc) (matvecOp : Op OpKind) : Option Nat :=
  match matvecOp.operands[1]?.bind func.typeOf with
  | some (.ranked shape _) => shape[2]?.join
  | _ => none

/-- The load of the lhs. -/
def DispatchFunc.lhsLoad (func : DispatchFunc) (matvecOp : Op OpKind) : Option LoadOp :=
  (matvecOp.operands[0]?.bind (definingOp func.funcOp.body)).bind (asLoadOp ·.1)

/-- `getMixedSizes()[1]`. -/
def LoadOp.rows (lhsLoad : LoadOp) : Option (OpFoldResult Nat) :=
  (lhsLoad.slice.getMixedSizes lhsLoad.operands)[1]?

/-- `resolveSize`: the operations it builds, the first new value being `next`, and the value
that has the size. -/
def resolveSize (func : DispatchFunc) (numArguments next : Nat) (size : OpFoldResult Nat) :
    Option (Body CountOp × Nat) :=
  match getConstantIntValue func.funcOp.body size, size with
  | some c, _ => some ([⟨.constantIndex c, [], [next]⟩], next)
  | none, .attr _ => none
  | none, .value v =>
      match func.ordinals v with
      | none => none
      | some ordinal =>
          -- an `unsigned`, whatever the 64 bits of the sum are
          let index := (1 + ordinal).setWidth 32
          if numArguments ≤ index.toNat then none else some ([], index.toNat)

/-- `buildCount`: the operations it builds, and the three values of the count. -/
def buildCount (func : DispatchFunc) (numArguments next : Nat) :
    Except String (Body CountOp × List Nat) :=
  let one : Op CountOp := ⟨.constantIndex 1, [], [next]⟩
  -- each op the walk meets replaces the one before it
  match func.matvecOps.getLast? with
  | none => .ok ([one], [next, next, next])
  | some matvecOp => do
      let some features := func.features matvecOp
        | .error s!"needs a static F of at least {strelaMatvecFeaturesPerJob}"
      if features < strelaMatvecFeaturesPerJob then
        .error s!"needs a static F of at least {strelaMatvecFeaturesPerJob}"
      let jobs := (features + strelaMatvecFeaturesPerJob - 1) / strelaMatvecFeaturesPerJob
      let x : Op CountOp := ⟨.constantIndex (BitVec.ofNat 64 jobs), [], [next + 1]⟩
      let some lhsLoad := func.lhsLoad matvecOp
        | .error ("lhs is not a dispatch tensor load; the workgroup count must run before " ++
            "MaterializeBindings")
      let some (built, y) := lhsLoad.rows.bind (resolveSize func numArguments (next + 2))
        | .error "cannot tell which workload value is N"
      return (one :: x :: built, [next + 1, y, next])

/-- A number above every value of the region. -/
def CountRegion.freshValue (region : CountRegion) : Nat :=
  let values := Ssa.defs region.body ++ Ssa.uses region.body ++ region.returned
  (region.numArguments :: values).foldl max 0 + 1

/-- What a value is replaced by when the first ones are by the second. -/
def replacement (results count : List Nat) (v : Nat) : Nat := ((results.zip count).lookup v).getD v

/-- The loop body of the pass, for the region of an export and its function. -/
def resolveRegion (func : DispatchFunc) (region : CountRegion) : Except String CountRegion := do
  let [fromSliceOp] := region.body.filter (·.kind = .workgroupCountFromSlice)
    | .error ("expected one iree_tensor_ext.dispatch.workgroup_count_from_slice placeholder in " ++
        "the workgroup count region")
  let (built, count) ← buildCount func region.numArguments region.freshValue
  let replaced := replacement fromSliceOp.results count
  return { region with
    body := region.body.flatMap fun op =>
      if op.kind = .workgroupCountFromSlice then built
      else [{ op with operands := op.operands.map replaced }]
    returned := region.returned.map replaced }

def resolveExport (funcs : List DispatchFunc) (exportOp : CountedExportOp) :
    Except String CountedExportOp :=
  match exportOp.workgroupCount with
  | none => .ok exportOp
  | some region => do
      let some func := funcs.find? (·.funcOp.symName = exportOp.symName)
        | .error "has no function in the inner module"
      return { exportOp with workgroupCount := some (← resolveRegion func region) }

/-- `StrelaResolveWorkgroupCountPass::runOnOperation`, on the functions of the inner module. -/
def resolveWorkgroupCountPass (funcs : List DispatchFunc) :
    List CountedExportOp → Except String (List CountedExportOp)
  | [] => .ok []
  | exportOp :: rest => do
      let resolved ← resolveExport funcs exportOp
      return resolved :: (← resolveWorkgroupCountPass funcs rest)

/-- What a value of a count region holds. -/
inductive CountVal
  | device
  | index (bits : BitVec 64)
  | other (name : String)
  deriving DecidableEq, Repr

/-- What the operations of a count region compute, if the placeholder stands for `grid`. -/
def countInterp (others : String → List CountVal → List CountVal) (grid : List CountVal) :
    Ssa.Interp CountOp CountVal Unit
  | .constantIndex value, _, s => ([.index value], s)
  | .workgroupCountFromSlice, _, s => (grid, s)
  | .other name, values, s => (others name values, s)

/-- The arguments of a count region. -/
def countArguments (workload : List (BitVec 64)) (v : Nat) : CountVal :=
  (CountVal.device :: workload.map .index).getD v (.other "undefined")

/-- The count a region returns for a workload. -/
def CountRegion.eval (region : CountRegion) (others : String → List CountVal → List CountVal)
    (grid : List CountVal) (workload : List (BitVec 64)) : List CountVal :=
  region.returned.map
    (Ssa.exec (countInterp others grid) region.body (countArguments workload) ()).1

/-- A size as `resolveSize` finds it: the new operations for it, the value, and what that
is for a workload. -/
inductive SizeParts (func : DispatchFunc) (numArguments next : Nat) (size : OpFoldResult Nat) :
    Body CountOp → Nat → (List (BitVec 64) → CountVal) → Prop
  | constant {c : BitVec 64} (found : getConstantIntValue func.funcOp.body size = some c) :
      SizeParts func numArguments next size [⟨.constantIndex c, [], [next]⟩] next fun _ => .index c
  | argument {v : Nat} {ordinal : BitVec 64} (dynamic : size = .value v)
      (found : func.ordinals v = some ordinal)
      (inside : ((1 + ordinal).setWidth 32).toNat < numArguments) :
      SizeParts func numArguments next size [] ((1 + ordinal).setWidth 32).toNat
        fun workload => countArguments workload ((1 + ordinal).setWidth 32).toNat

theorem resolveSize_parts {func : DispatchFunc} {numArguments next : Nat} {size : OpFoldResult Nat}
    {built : Body CountOp} {y : Nat}
    (resolved : resolveSize func numArguments next size = some (built, y)) :
    ∃ value, SizeParts func numArguments next size built y value := by
  unfold resolveSize at resolved
  split at resolved
  · rename_i c found
    cases resolved
    exact ⟨_, .constant found⟩
  · cases resolved
  · rename_i v _
    split at resolved
    · cases resolved
    · rename_i ordinal found
      dsimp only at resolved
      split at resolved
      · cases resolved
      · rename_i inside
        cases resolved
        exact ⟨_, .argument rfl found (Nat.lt_of_not_le inside)⟩

/-- The number of jobs for the columns of the rhs. -/
def jobsFor (features : Nat) : BitVec 64 :=
  BitVec.ofNat 64 ((features + strelaMatvecFeaturesPerJob - 1) / strelaMatvecFeaturesPerJob)

/-- What the count is made from when a matvec decides it. -/
structure MatvecParts (func : DispatchFunc) (matvecOp : Op OpKind) (features : Nat)
    (size : OpFoldResult Nat) : Prop where
  static : func.features matvecOp = some features
  enough : strelaMatvecFeaturesPerJob ≤ features
  rows : (func.lhsLoad matvecOp).bind LoadOp.rows = some size

/-- A count as `buildCount` makes it, and the grid it is for a workload. -/
inductive CountParts (func : DispatchFunc) (numArguments next : Nat) :
    Body CountOp → List Nat → (List (BitVec 64) → List CountVal) → Prop
  | one (none_ : func.matvecOps = []) :
      CountParts func numArguments next [⟨.constantIndex 1, [], [next]⟩] [next, next, next]
        fun _ => [.index 1, .index 1, .index 1]
  | matvec {matvecOp : Op OpKind} {features : Nat} {size : OpFoldResult Nat} {built : Body CountOp}
      {y : Nat} {value : List (BitVec 64) → CountVal}
      (last : func.matvecOps.getLast? = some matvecOp)
      (parts : MatvecParts func matvecOp features size)
      (resolved : SizeParts func numArguments (next + 2) size built y value) :
      CountParts func numArguments next
        (⟨.constantIndex 1, [], [next]⟩ ::
          ⟨.constantIndex (jobsFor features), [], [next + 1]⟩ :: built) [next + 1, y, next]
        fun workload => [.index (jobsFor features), value workload, .index 1]

theorem buildCount_parts {func : DispatchFunc} {numArguments next : Nat} {built : Body CountOp}
    {count : List Nat} (counted : buildCount func numArguments next = .ok (built, count)) :
    ∃ grid, CountParts func numArguments next built count grid := by
  simp only [buildCount, bind, Except.bind, pure, Except.pure] at counted
  split at counted
  · rename_i none_
    cases counted
    exact ⟨_, .one (List.getLast?_eq_none_iff.mp none_)⟩
  rename_i matvecOp last
  split at counted
  case h_2 => cases counted
  rename_i features isFeatures
  split at counted
  · cases counted
  rename_i enough
  split at counted
  case h_2 => cases counted
  rename_i lhsLoad isLoad
  split at counted
  case h_2 => cases counted
  rename_i built' y isSize
  cases counted
  obtain ⟨size, rows, resolved⟩ := Option.bind_eq_some_iff.mp isSize
  obtain ⟨value, parts⟩ := resolveSize_parts resolved
  exact ⟨_, .matvec last ⟨isFeatures, Nat.le_of_not_lt enough, by rw [isLoad]; exact rows⟩ parts⟩

section

variable {func : DispatchFunc} {numArguments next : Nat} {built : Body CountOp}
  (others : String → List CountVal → List CountVal) (grid₀ : List CountVal) {env : Nat → CountVal}

theorem exec_constantIndex (value : BitVec 64) (v : Nat) (rest : Body CountOp) :
    Ssa.exec (countInterp others grid₀) (⟨.constantIndex value, [], [v]⟩ :: rest) env () =
      Ssa.exec (countInterp others grid₀) rest (Function.update env v (.index value)) () := by
  rw [Ssa.exec]
  congr 1
  funext w
  by_cases same : w = v
  · subst same
    simp [Ssa.assign, countInterp]
  · rw [Ssa.assign_other _ _ _ _ (by simpa using same), Function.update_of_ne same]

/-- The operations that are built leave the values there were, and give the count. -/
theorem CountParts.exec {count : List Nat} {grid : List (BitVec 64) → List CountVal}
    (parts : CountParts func numArguments next built count grid) (below : numArguments < next)
    (workload : List (BitVec 64))
    (arguments : ∀ v < numArguments, env v = countArguments workload v) :
    (∀ v < next, (Ssa.exec (countInterp others grid₀) built env ()).1 v = env v) ∧
      count.map (Ssa.exec (countInterp others grid₀) built env ()).1 = grid workload := by
  cases parts with
  | one none_ =>
      rw [exec_constantIndex]
      refine ⟨fun v old => ?_, ?_⟩
      · exact Function.update_of_ne (Nat.ne_of_lt old) _ _
      · simp [Ssa.exec]
  | @matvec matvecOp features size built y value last parts resolved =>
      rw [exec_constantIndex, exec_constantIndex]
      cases resolved with
      | constant found =>
          rw [exec_constantIndex]
          refine ⟨fun v old => ?_, ?_⟩
          · have first : v ≠ next := by omega
            have second : v ≠ next + 1 := by omega
            have third : v ≠ next + 2 := by omega
            simp [Ssa.exec, first, second, third]
          · simp [Ssa.exec]
      | @argument v ordinal dynamic found inside =>
          generalize ((1 + ordinal).setWidth 32).toNat = y at inside
          refine ⟨fun v old => ?_, ?_⟩
          · have first : v ≠ next := by omega
            have second : v ≠ next + 1 := by omega
            simp [Ssa.exec, first, second]
          · have first : y ≠ next := by omega
            have second : y ≠ next + 1 := by omega
            simp [Ssa.exec, first, second, arguments y inside]

theorem CountParts.count_apart {count : List Nat} {grid : List (BitVec 64) → List CountVal}
    (parts : CountParts func numArguments next built count grid) :
    ∀ v ∈ count, v < numArguments ∨ next ≤ v := by
  cases parts with
  | one none_ => simp
  | matvec last parts resolved =>
      cases resolved with
      | constant found => simp
      | argument dynamic found inside => simpa using Or.inl inside

theorem CountParts.built_plain {count : List Nat} {grid : List (BitVec 64) → List CountVal}
    (parts : CountParts func numArguments next built count grid) :
    ∀ op ∈ built, op.kind ≠ .workgroupCountFromSlice := by
  cases parts with
  | one none_ => simp
  | matvec last parts resolved => cases resolved <;> simp

end

/-- What MLIR's verifier promises of a count region, and dispatch creation: it has the device
as an argument, and returns the three results of its placeholder. -/
structure CountRegion.WellFormed (region : CountRegion) : Prop where
  device : 0 < region.numArguments
  dominated : Ssa.Dominated (List.range region.numArguments) region.body
  returns : ∀ op ∈ region.body, op.kind = .workgroupCountFromSlice → op.results = region.returned
  three : region.returned.length = 3

theorem CountRegion.lt_freshValue {region : CountRegion} {v : Nat}
    (known : v ∈ Ssa.defs region.body ∨ v ∈ Ssa.uses region.body) : v < region.freshValue := by
  refine Nat.lt_succ_of_le ((le_foldl_max _ 0).2 v ?_)
  simp only [List.mem_cons, List.mem_append]
  tauto

theorem CountRegion.numArguments_lt (region : CountRegion) :
    region.numArguments < region.freshValue :=
  Nat.lt_succ_of_le ((le_foldl_max _ 0).2 _ (List.mem_cons_self ..))

/-- A value that is no result of the placeholder stays itself. -/
theorem replacement_other {results count : List Nat} {v : Nat} (other : v ∉ results) :
    replacement results count v = v := by
  have missing : (results.zip count).lookup v = none := by
    rw [List.lookup_eq_none_iff]
    intro p member
    simp only [bne_iff_ne, ne_eq]
    rintro rfl
    exact other (List.of_mem_zip member).1
  rw [replacement, missing]
  rfl

theorem replacement_mem (results count : List Nat) (v : Nat) :
    replacement results count v = v ∨ replacement results count v ∈ count := by
  unfold replacement
  cases found : (results.zip count).lookup v with
  | none => exact Or.inl rfl
  | some w =>
      obtain ⟨_, _, split, _⟩ := List.lookup_eq_some_iff.mp found
      have member : (v, w) ∈ results.zip count := by
        rw [split]
        exact List.mem_append_right _ (List.mem_cons_self ..)
      exact Or.inr (List.of_mem_zip member).2

/-- The rewritten region, with the placeholder's place in the original one. -/
structure RegionParts (func : DispatchFunc) (region resolved : CountRegion)
    (grid : List (BitVec 64) → List CountVal) : Prop where
  parts : ∃ before fromSliceOp after built count,
    region.body = before ++ fromSliceOp :: after ∧
    fromSliceOp.kind = .workgroupCountFromSlice ∧
    (∀ op ∈ before ++ after, op.kind ≠ .workgroupCountFromSlice) ∧
    CountParts func region.numArguments region.freshValue built count grid ∧
    resolved.body =
      Ssa.renameUses (replacement fromSliceOp.results count) before ++ built ++
        Ssa.renameUses (replacement fromSliceOp.results count) after ∧
    resolved.returned = region.returned.map (replacement fromSliceOp.results count)
  arguments : resolved.numArguments = region.numArguments

theorem resolveRegion_parts {func : DispatchFunc} {region resolved : CountRegion}
    (passed : resolveRegion func region = .ok resolved) :
    ∃ grid, RegionParts func region resolved grid := by
  simp only [resolveRegion, bind, Except.bind, pure, Except.pure] at passed
  split at passed
  case h_2 => cases passed
  rename_i fromSliceOp single
  split at passed
  · cases passed
  rename_i counted isCounted
  cases passed
  obtain ⟨grid, parts⟩ := buildCount_parts isCounted
  obtain ⟨before, after, split, noneBefore, isPlaceholder, rest⟩ :=
    List.filter_eq_cons_iff.mp single
  have noneAfter := List.filter_eq_nil_iff.mp rest
  have plain : ∀ op ∈ before ++ after, op.kind ≠ .workgroupCountFromSlice := by
    intro op member
    rcases List.mem_append.mp member with early | late
    · simpa using noneBefore op early
    · simpa using noneAfter op late
  have placeholder : fromSliceOp.kind = .workgroupCountFromSlice := by simpa using isPlaceholder
  have renamed (ops : Body CountOp) (others : ∀ op ∈ ops, op.kind ≠ .workgroupCountFromSlice)
      (f : Nat → Nat) : (ops.flatMap fun op => if op.kind = .workgroupCountFromSlice then counted.1
        else [{ op with operands := op.operands.map f }]) = Ssa.renameUses f ops := by
    induction ops with
    | nil => rfl
    | cons op rest ih =>
        rw [List.flatMap_cons, if_neg (others op (List.mem_cons_self ..)),
          ih fun op' member => others op' (List.mem_cons_of_mem _ member)]
        rfl
  refine ⟨grid, ⟨before, fromSliceOp, after, counted.1, counted.2, split, placeholder, plain, parts,
    ?_, rfl⟩, rfl⟩
  dsimp only
  rw [split, List.flatMap_append, List.flatMap_cons, if_pos placeholder,
    renamed before (fun op member => plain op (List.mem_append_left _ member)),
    renamed after (fun op member => plain op (List.mem_append_right _ member)), List.append_assoc]

theorem countInterp_plain {kind : CountOp} (plain : kind ≠ .workgroupCountFromSlice)
    (others : String → List CountVal → List CountVal) (grid grid' : List CountVal) :
    countInterp others grid kind = countInterp others grid' kind := by
  cases kind with
  | workgroupCountFromSlice => exact absurd rfl plain
  | _ => rfl

/-- The values of a region are below its new ones. -/
theorem CountRegion.known_lt {region : CountRegion} {v : Nat}
    (known : v ∈ Ssa.defs region.body ++ List.range region.numArguments) :
    v < region.freshValue := by
  rcases List.mem_append.mp known with made | argument
  · exact CountRegion.lt_freshValue (Or.inl made)
  · exact Nat.lt_trans (List.mem_range.mp argument) region.numArguments_lt

section

variable {func : DispatchFunc} {region : CountRegion} {before after built : Body CountOp}
  {fromSliceOp : Op CountOp} {count : List Nat} {grid : List (BitVec 64) → List CountVal}
  (split : region.body = before ++ fromSliceOp :: after)
  (counted : CountParts func region.numArguments region.freshValue built count grid)
  (dominated : Ssa.Dominated (List.range region.numArguments) region.body)

include split counted dominated

/-- The operations that are built leave the values there are, and their values are what the
results of the placeholder hold. -/
theorem CountParts.exec_placeholder (placeholder : fromSliceOp.kind = .workgroupCountFromSlice)
    (others : String → List CountVal → List CountVal) (workload : List (BitVec 64)) {v : Nat}
    (known : v ∈ Ssa.defs region.body ++ List.range region.numArguments) :
    (Ssa.exec (countInterp others (grid workload)) (before ++ built)
        (countArguments workload) ()).1 (replacement fromSliceOp.results count v) =
      (Ssa.exec (countInterp others (grid workload)) (before ++ [fromSliceOp])
        (countArguments workload) ()).1 v := by
  rw [split] at dominated
  obtain ⟨first, -⟩ := (Ssa.dominated_append _ _ _).mp dominated
  rw [Ssa.exec_append, Ssa.exec_append, Ssa.exec, placeholder]
  generalize run : (Ssa.exec (countInterp others (grid workload)) before
    (countArguments workload) ()).1 = env
  have arguments : ∀ v < region.numArguments, env v = countArguments workload v := by
    intro v argument
    rw [← run]
    exact Ssa.exec_other _ _ _ _ _ fun made => first.fresh v made (List.mem_range.mpr argument)
  obtain ⟨kept, count_⟩ :=
    counted.exec others (grid workload) region.numArguments_lt workload arguments
  have read := Ssa.assign_lookup env
    (Ssa.exec (countInterp others (grid workload)) built env ()).1 fromSliceOp.results count v
    (kept v (CountRegion.known_lt known))
  rw [count_] at read
  exact read.symm

/-- No operation after the placeholder defines a value of the count. -/
theorem CountParts.replacement_apart {v : Nat} (made : v ∈ fromSliceOp.results) :
    replacement fromSliceOp.results count v ∉ Ssa.defs after := by
  have small (w : Nat) (later : w ∈ Ssa.defs after) : w < region.freshValue :=
    CountRegion.lt_freshValue (Or.inl (by
      rw [split, Ssa.defs_append]
      exact List.mem_append_right _ (List.mem_append_right _ later)))
  rw [split] at dominated
  obtain ⟨_, _, _, _, tail⟩ := (Ssa.dominated_append _ _ _).mp dominated
  have known (w : Nat) (old : w ∈ fromSliceOp.results ++
      (Ssa.defs before ++ List.range region.numArguments)) : w ∉ Ssa.defs after :=
    fun later => tail.fresh w later old
  rcases replacement_mem fromSliceOp.results count v with same | inCount
  · rw [same]
    exact known v (List.mem_append_left _ made)
  · rcases counted.count_apart _ inCount with argument | new
    · exact known _ (List.mem_append_right _
        (List.mem_append_right _ (List.mem_range.mpr argument)))
    · exact fun later => absurd (small _ later) (Nat.not_lt.mpr new)

end

section

variable {func : DispatchFunc} {region resolved : CountRegion}
  {grid : List (BitVec 64) → List CountVal} (parts : RegionParts func region resolved grid)
  (others : String → List CountVal → List CountVal) (workload : List (BitVec 64))

include parts

/-- No placeholder is left. -/
theorem RegionParts.plain {op : Op CountOp} (member : op ∈ resolved.body) :
    op.kind ≠ .workgroupCountFromSlice := by
  obtain ⟨before, fromSliceOp, after, built, count, -, -, plain, counted, body, -⟩ := parts.parts
  rw [body] at member
  simp only [List.mem_append, Ssa.renameUses, List.mem_map] at member
  rcases member with (⟨old, inside, rfl⟩ | new) | ⟨old, inside, rfl⟩
  · exact plain old (List.mem_append_left _ inside)
  · exact counted.built_plain op new
  · exact plain old (List.mem_append_right _ inside)

/-- The rewritten region is the original one with its placeholder for the grid. -/
theorem RegionParts.eval_eq
    (dominated : Ssa.Dominated (List.range region.numArguments) region.body)
    (returned : ∀ v ∈ region.returned,
      v ∈ Ssa.defs region.body ++ List.range region.numArguments) :
    resolved.eval others [] workload = region.eval others (grid workload) workload := by
  have interp : ∀ op ∈ resolved.body,
      countInterp others [] op.kind = countInterp others (grid workload) op.kind :=
    fun op member => countInterp_plain (parts.plain member) _ _ _
  obtain ⟨before, fromSliceOp, after, built, count, split, placeholder, -, counted, body,
    results⟩ := parts.parts
  have placed {v : Nat} := counted.exec_placeholder split dominated placeholder others workload
    (v := v)
  have apart {v : Nat} := counted.replacement_apart split dominated (v := v)
  -- nothing before the placeholder reads its results
  have untouched : Ssa.renameUses (replacement fromSliceOp.results count) before = before := by
    refine Ssa.renameUses_self fun v used => replacement_other fun made => ?_
    refine (split ▸ dominated).unused made ?_
    rw [Ssa.uses_append]
    exact List.mem_append_left _ used
  unfold CountRegion.eval
  rw [results, List.map_map, Ssa.exec_congr interp, body, untouched]
  rw [split] at dominated returned placed ⊢
  refine List.map_congr_left fun v member => ?_
  exact Ssa.exec_replaceOp _ dominated (fun _ other => replacement_other other)
    (fun _ made => apart made) _ () (fun _ known => placed known) rfl v (returned v member)

/-- A region that returns the results of its placeholder gives the grid. -/
theorem RegionParts.eval_grid (wellFormed : region.WellFormed) :
    resolved.eval others [] workload = grid workload := by
  obtain ⟨before, fromSliceOp, after, built, count, split, placeholder, -, counted, -, -⟩ :=
    parts.parts
  have member : fromSliceOp ∈ region.body := by
    rw [split]
    exact List.mem_append_right _ (List.mem_cons_self ..)
  have results := wellFormed.returns fromSliceOp member placeholder
  rw [parts.eval_eq others workload wellFormed.dominated fun v returned =>
    List.mem_append_left _ (Ssa.mem_defs member (results ▸ returned))]
  have three : (grid workload).length = 3 := by cases counted <;> rfl
  have result (i v : Nat) (x : CountVal) (isResult : region.returned[i]? = some v)
      (isCount : (grid workload)[i]? = some x) :
      (Ssa.exec (countInterp others (grid workload)) region.body (countArguments workload) ()).1 v =
        x := by
    have dominated := wellFormed.dominated
    rw [split] at dominated ⊢
    refine Ssa.exec_definingOp _ before after fromSliceOp _ () _ dominated i _ _ ?_ ?_
    · rw [results]
      exact isResult
    · rw [placeholder]
      exact isCount
  unfold CountRegion.eval
  refine List.ext_getElem (by rw [List.length_map, wellFormed.three, three])
    fun i first second => ?_
  rw [List.getElem_map]
  exact result i _ _ (List.getElem?_eq_getElem _) (List.getElem?_eq_getElem second)

end

/-- What a size is for a workload: a constant, or the workload value of its ordinal. -/
def DispatchFunc.sizeFor (func : DispatchFunc) (workload : List (BitVec 64))
    (size : OpFoldResult Nat) :
    Option (BitVec 64) :=
  match getConstantIntValue func.funcOp.body size, size with
  | some c, _ => some c
  | none, .attr _ => none
  | none, .value v => (func.ordinals v).bind fun ordinal => workload[ordinal.toNat]?

/-- What it is in a run of the function. -/
def sizeValue (values : Nat → Val) : OpFoldResult Nat → Option (BitVec 64)
  | .attr value => some (BitVec.ofInt 64 value)
  | .value v => match values v with
    | .int a => some (BitVec.ofInt 64 a.bits.toInt)
    | _ => none

/-- The run is one for the workload: each ordinal has its value. -/
def DispatchFunc.Denotes (func : DispatchFunc) (workload : List (BitVec 64)) (values : Nat → Val) :
    Prop :=
  ∀ v ordinal n, func.ordinals v = some ordinal → workload[ordinal.toNat]? = some n →
    values v = .int ⟨64, n⟩

/-- The grid of a function's kernel for a workload: a job for each row and three columns of
its only matvec, or one job. -/
inductive GridCorrect (func : DispatchFunc) (workload : List (BitVec 64)) (grid : List CountVal) :
    Prop
  | one (none_ : func.matvecOps = []) (grid_ : grid = [.index 1, .index 1, .index 1])
  | matvec {matvecOp : Op OpKind} {features : Nat} {size : OpFoldResult Nat} {rows : BitVec 64}
      (single : func.matvecOps = [matvecOp]) (parts : MatvecParts func matvecOp features size)
      (rows_ : func.sizeFor workload size = some rows)
      (runs : ∀ constants others memory,
        func.Denotes workload (runDispatch constants others func.funcOp.body memory).1 →
        sizeValue (runDispatch constants others func.funcOp.body memory).1 size = some rows)
      (grid_ : grid = [.index (jobsFor features), .index rows, .index 1])

/-- The function has at most one matvec, and the number of its rows is no workload value
whose region argument has a number of more than 32 bits. -/
structure SingleMatvec (func : DispatchFunc) : Prop where
  single : func.matvecOps.length ≤ 1
  ordinal : ∀ matvecOp ∈ func.matvecOps, ∀ v ordinal,
    (func.lhsLoad matvecOp).bind LoadOp.rows = some (.value v) → func.ordinals v = some ordinal →
      1 + ordinal.toNat < 2 ^ 32

theorem countArguments_succ {workload : List (BitVec 64)} {k : Nat} {n : BitVec 64} :
    countArguments workload (k + 1) = .index n ↔ workload[k]? = some n := by
  unfold countArguments
  rw [List.getD_cons_succ, List.getD_eq_getElem?_getD, List.getElem?_map]
  cases workload[k]? <;> simp

/-- A workload value is no constant. -/
theorem DispatchFunc.constantInt_ordinal {func : DispatchFunc} {v : Nat} {ordinal : BitVec 64}
    (found : func.ordinals v = some ordinal) :
    getConstantIntValue func.funcOp.body (.value v) = none := by
  obtain ⟨op, i, defined, kind⟩ := func.ordinalOps v ordinal found
  obtain ⟨_, operands, results⟩ := op
  subst kind
  rw [getConstantIntValue, constantInt, defined]
  rfl

theorem DispatchFunc.sizeFor_run {func : DispatchFunc} (wellFormed : WellFormed func.funcOp.body)
    {workload : List (BitVec 64)} {size : OpFoldResult Nat} {n : BitVec 64}
    (found : func.sizeFor workload size = some n) (constants : Nat → BitVec 32)
    (others : OpKind → List Val → List Val) (memory : Nat → Nat → BitVec 32)
    (denotes : func.Denotes workload (runDispatch constants others func.funcOp.body memory).1) :
    sizeValue (runDispatch constants others func.funcOp.body memory).1 size = some n := by
  cases size with
  | attr value => exact found
  | value v =>
      cases isConstant : getConstantIntValue func.funcOp.body (.value v) with
      | some c =>
          simp only [DispatchFunc.sizeFor, isConstant] at found
          cases found
          obtain ⟨a, isInt, rfl⟩ := Option.map_eq_some_iff.mp isConstant
          rw [sizeValue, constantInt_value wellFormed constants others memory isInt]
      | none =>
          simp only [DispatchFunc.sizeFor, isConstant] at found
          obtain ⟨ordinal, isOrdinal, entry⟩ := Option.bind_eq_some_iff.mp found
          rw [sizeValue, denotes v ordinal n isOrdinal entry]
          exact congrArg some (BitVec.ofInt_toInt)

/-- The number of the region argument for an ordinal: what is left of it in 32 bits. -/
theorem argument_toNat (ordinal : BitVec 64) :
    ((1 + ordinal).setWidth 32).toNat = (1 + ordinal.toNat) % 2 ^ 32 := by
  have one : (1 : BitVec 64).toNat = 1 := rfl
  rw [BitVec.toNat_setWidth, BitVec.toNat_add, one]
  omega

section

variable {func : DispatchFunc} {region resolved : CountRegion}
  {grid : List (BitVec 64) → List CountVal}

/-- A size that is found is what the code says it is, if no number is cut off. -/
theorem SizeParts.value_eq {numArguments next : Nat} {size : OpFoldResult Nat}
    {built : Body CountOp} {y : Nat} {value : List (BitVec 64) → CountVal}
    (parts : SizeParts func numArguments next size built y value)
    (fits : ∀ v ordinal, size = .value v → func.ordinals v = some ordinal →
      1 + ordinal.toNat < 2 ^ 32)
    (workload : List (BitVec 64)) (length : workload.length + 1 = numArguments) :
    ∃ rows, func.sizeFor workload size = some rows ∧ value workload = .index rows := by
  cases parts with
  | @constant c found =>
      refine ⟨c, ?_, rfl⟩
      unfold DispatchFunc.sizeFor
      rw [found]
  | @argument v ordinal dynamic found inside =>
      have small := fits v ordinal dynamic found
      have index : ((1 + ordinal).setWidth 32).toNat = ordinal.toNat + 1 := by
        rw [argument_toNat, Nat.mod_eq_of_lt small, Nat.add_comm]
      rw [index] at inside
      have inList : ordinal.toNat < workload.length := by omega
      have entry := List.getElem?_eq_getElem inList
      refine ⟨workload[ordinal.toNat], ?_, ?_⟩
      · rw [dynamic]
        simp only [DispatchFunc.sizeFor, func.constantInt_ordinal found, found]
        exact entry
      · rw [index]
        exact countArguments_succ.mpr entry

/-- The ordinal that is cut off reads another value of some workload. -/
theorem SizeParts.fits {numArguments next : Nat} {size : OpFoldResult Nat} {built : Body CountOp}
    {y : Nat} {value : List (BitVec 64) → CountVal}
    (parts : SizeParts func numArguments next size built y value)
    (right : ∀ workload : List (BitVec 64), workload.length + 1 = numArguments →
      ∃ rows, func.sizeFor workload size = some rows ∧ value workload = .index rows)
    (device : 0 < numArguments) (v : Nat) (ordinal : BitVec 64) (dynamic : size = .value v)
    (found : func.ordinals v = some ordinal) : 1 + ordinal.toNat < 2 ^ 32 := by
  by_contra large
  subst dynamic
  have isDynamic := func.constantInt_ordinal found
  cases parts with
  | constant isConstant =>
      rw [isDynamic] at isConstant
      cases isConstant
  | @argument _ ordinal' same found' inside =>
      cases same
      cases found.symm.trans found'
      obtain ⟨rows, isRows, isValue⟩ := right
        ((List.replicate (numArguments - 1) 0).set ordinal.toNat 1) (by simp; omega)
      simp only [DispatchFunc.sizeFor, isDynamic, found] at isRows
      have inList : ordinal.toNat < (List.replicate (numArguments - 1) (0 : BitVec 64)).length := by
        simpa using (List.getElem?_eq_some_iff.mp isRows).1
      have one : (1 : BitVec 64) = rows := by
        have entry := List.getElem?_set_self (a := (1 : BitVec 64)) inList
        exact Option.some.inj (entry.symm.trans isRows)
      have less : ((1 + ordinal).setWidth 32).toNat < 2 ^ 32 := BitVec.isLt _
      generalize ((1 + ordinal).setWidth 32).toNat = argument at isValue less
      cases argument with
      | zero => cases isValue
      | succ k =>
          have other := countArguments_succ.mp isValue
          rw [List.getElem?_set_ne (by omega), List.getElem?_replicate] at other
          split at other
          · have zero := Option.some.inj other
            exact absurd (one.trans zero.symm) (by decide)
          · cases other

/-- A resolved region that gives the grid for every workload: the function has one matvec at
most, and the ordinal of its rows is not cut off. -/
theorem RegionParts.singleMatvec (wellFormed : region.WellFormed)
    (parts : RegionParts func region resolved grid)
    (correct : ∀ workload, workload.length + 1 = region.numArguments →
      GridCorrect func workload (grid workload)) : SingleMatvec func := by
  obtain ⟨_, _, _, _, _, _, _, _, counted, _, _⟩ := parts.parts
  have device := wellFormed.device
  have atZero :=
    correct (List.replicate (region.numArguments - 1) 0) (by rw [List.length_replicate]; omega)
  refine ⟨?_, fun matvecOp member v ordinal rows found => ?_⟩
  · cases atZero with
    | one none_ _ => simp [none_]
    | matvec single _ _ _ _ => simp [single]
  · cases counted with
    | one none_ =>
        rw [none_] at member
        cases member
    | @matvec last features size built y value isLast isParts resolvedSize =>
        have only (workload : List (BitVec 64))
            (length : workload.length + 1 = region.numArguments) :
            func.matvecOps = [last] ∧
              ∃ rows, func.sizeFor workload size = some rows ∧ value workload = .index rows := by
          cases correct workload length with
          | one none_ _ => simp [none_] at isLast
          | matvec single isParts' found _ grid_ =>
              rw [single] at isLast
              cases isLast
              obtain rfl := Option.some.inj (isParts.rows.symm.trans isParts'.rows)
              have isValue := (List.cons.inj (List.cons.inj grid_).2).1
              exact ⟨single, _, found, isValue⟩
        obtain ⟨single, -⟩ :=
          only (List.replicate (region.numArguments - 1) 0) (by rw [List.length_replicate]; omega)
        rw [single] at member
        obtain rfl := List.mem_singleton.mp member
        refine resolvedSize.fits (fun workload length => (only workload length).2) device v ordinal
          ?_ found
        exact Option.some.inj (isParts.rows.symm.trans rows)

/-- With one matvec at most whose ordinal is not cut off, a resolved region gives the grid. -/
theorem RegionParts.gridCorrect (body : WellFormed func.funcOp.body)
    (parts : RegionParts func region resolved grid) (plain : SingleMatvec func)
    (workload : List (BitVec 64)) (length : workload.length + 1 = region.numArguments) :
    GridCorrect func workload (grid workload) := by
  obtain ⟨_, _, _, _, _, _, _, _, counted, _, _⟩ := parts.parts
  cases counted with
  | one none_ => exact .one none_ rfl
  | @matvec last features size built y value isLast isParts resolvedSize =>
      have single : func.matvecOps = [last] := by
        have few := plain.single
        match ops : func.matvecOps with
        | [] => simp [ops] at isLast
        | [op] => simpa [ops] using isLast
        | _ :: _ :: _ => simp [ops] at few
      have member : last ∈ func.matvecOps := by rw [single]; exact List.mem_singleton_self _
      obtain ⟨rows, found, isValue⟩ := resolvedSize.value_eq
        (fun v ordinal dynamic => plain.ordinal last member v ordinal (dynamic ▸ isParts.rows))
        workload length
      refine .matvec single isParts found
        (fun constants others memory => func.sizeFor_run body found constants others memory) ?_
      exact congrArg (fun y => [.index (jobsFor features), y, .index 1]) isValue

/-- What a resolved region gives for every workload is the grid of the kernel exactly if the
function has one matvec at most and the ordinal of its rows is not cut off. -/
theorem RegionParts.correct_iff (body : WellFormed func.funcOp.body)
    (wellFormed : region.WellFormed) (parts : RegionParts func region resolved grid) :
    (∀ others workload, workload.length + 1 = region.numArguments →
      GridCorrect func workload (resolved.eval others [] workload)) ↔ SingleMatvec func := by
  constructor
  · intro correct
    refine parts.singleMatvec wellFormed fun workload length => ?_
    rw [← parts.eval_grid (fun _ _ => []) workload wellFormed]
    exact correct (fun _ _ => []) workload length
  · intro plain others workload length
    rw [parts.eval_grid others workload wellFormed]
    exact parts.gridCorrect body plain workload length

end

/-- A function whose export is accepted has no matvec. -/
theorem matvecOps_accepted {func : DispatchFunc} {lowered : FuncOp} {strelaExport : StrelaExport}
    (passed : materializeBindingsPass func.funcOp = .ok lowered)
    (accepted : getExport lowered = .ok strelaExport) : func.matvecOps = [] := by
  have analyzed : ∃ info, analyzeEntryPoint func.funcOp.body = .ok info := by
    simp only [materializeBindingsPass, bind, Except.bind] at passed
    split at passed
    · cases passed
    · rename_i info found
      exact ⟨info, found⟩
  obtain ⟨info, analyzed⟩ := analyzed
  obtain ⟨result, parts⟩ := analyzeEntryPoint_ok analyzed
  obtain ⟨kernelOp, kernel, type, inputs, result', output, export_⟩ := getExport_ok accepted
  have isKernel := export_kernelOp (materializeBindingsPass_ok analyzed passed) export_.single
  have kind : kernelOp.kind = info.kernelOp.kind := by rw [isKernel]
  have chosen := kernelOf_ok export_.chosen
  rw [kind] at chosen
  refine List.filter_eq_nil_iff.mpr fun op member isMatvec => ?_
  obtain ⟨i, there⟩ := List.mem_iff_getElem?.mp member
  have strela : op.kind.strelaType.isSome = true := by
    cases isKind : op.kind <;> simp_all [OpKind.isMatvec, OpKind.strelaType]
  obtain rfl := parts.kernel.only i op there strela
  have same := Option.some.inj (there.symm.trans parts.kernel.there)
  rw [same] at isMatvec
  rcases chosen with ⟨add, -⟩ | ⟨relu, -⟩
  · rw [add] at isMatvec
    cases isMatvec
  · rw [relu] at isMatvec
    cases isMatvec

/-- A dispatch that succeeds has configured one job, whatever grid it was given. -/
theorem dispatch_one_job (st : SizeT) (executable : Executable) (function : BitVec 64)
    (constants : ConstByteSpan) (bindings : List BufferRef) (err : Option StrelaErr)
    (d : Runtime.Jobs.Dev)
    (run : CallProgram.Run Runtime.Jobs.Step
      (commandBufferDispatch st executable function constants bindings)
      ⟨err, []⟩ (.ok ()) d) :
    ((d.trace.map Runtime.Jobs.Event.call).filterMap Runtime.Jobs.callConf).length = 1 := by
  unfold commandBufferDispatch at run
  split at run
  · obtain ⟨missing, -⟩ := (CallProgram.run_ret_iff _ _ _ _).mp run
    cases missing
  · split at run
    · obtain ⟨stopped, -⟩ := (CallProgram.run_ret_iff _ _ _ _).mp run
      cases stopped
    · obtain ⟨job, calls⟩ := (Runtime.Jobs.dispatchColumns_run st _ _ run).whole rfl
      rw [calls, Runtime.Jobs.dispatchCalls_conf]
      rfl

/-- What the pass makes of one export. -/
inductive ExportResolved (funcs : List DispatchFunc) (exportOp resolved : CountedExportOp) : Prop
  | empty (none_ : exportOp.workgroupCount = none) (same : resolved = exportOp)
  | region {func : DispatchFunc} {region region' : CountRegion}
      (found : funcs.find? (·.funcOp.symName = exportOp.symName) = some func)
      (old : exportOp.workgroupCount = some region)
      (new : resolved = { exportOp with workgroupCount := some region' })
      (correct : (∀ others workload, workload.length + 1 = region.numArguments →
        GridCorrect func workload (region'.eval others [] workload)) ↔ SingleMatvec func)
      (accepted : ∀ lowered strelaExport, materializeBindingsPass func.funcOp = .ok lowered →
        getExport lowered = .ok strelaExport →
        ∀ others workload, workload.length + 1 = region.numArguments →
          region'.eval others [] workload = [.index 1, .index 1, .index 1])

theorem resolveExport_resolved {funcs : List DispatchFunc} {exportOp resolved : CountedExportOp}
    (bodies : ∀ func ∈ funcs, WellFormed func.funcOp.body)
    (wellFormed : ∀ region, exportOp.workgroupCount = some region → region.WellFormed)
    (passed : resolveExport funcs exportOp = .ok resolved) :
    ExportResolved funcs exportOp resolved := by
  simp only [resolveExport, bind, Except.bind, pure, Except.pure] at passed
  split at passed
  · rename_i none_
    cases passed
    exact .empty none_ rfl
  rename_i region isRegion
  split at passed
  case h_2 => cases passed
  rename_i func found
  split at passed
  · cases passed
  rename_i region' resolvedRegion
  cases passed
  obtain ⟨grid, parts⟩ := resolveRegion_parts resolvedRegion
  have correct := parts.correct_iff (bodies func (List.mem_of_find?_eq_some found))
    (wellFormed region isRegion)
  refine .region found isRegion rfl correct fun lowered strelaExport lower accepted others workload
    length => ?_
  have none_ := matvecOps_accepted lower accepted
  have plain : SingleMatvec func := ⟨by simp [none_], fun op member => by simp [none_] at member⟩
  cases correct.mpr plain others workload length with
  | one _ grid_ => exact grid_
  | matvec single _ _ _ _ => simp [none_] at single

/-- The counts the pass resolves are right for all workloads exactly where the function has
one matvec at most and no ordinal is cut off; an export that is accepted later has the grid
of the one job that a dispatch runs. -/
theorem resolveWorkgroupCountPass_grid_iff (funcs : List DispatchFunc)
    (exports resolved : List CountedExportOp)
    (bodies : ∀ func ∈ funcs, WellFormed func.funcOp.body)
    (regions : ∀ exportOp ∈ exports, ∀ region, exportOp.workgroupCount = some region →
      region.WellFormed)
    (passed : resolveWorkgroupCountPass funcs exports = .ok resolved) :
    List.Forall₂ (ExportResolved funcs) exports resolved ∧
      ∀ st executable function constants bindings err d,
        CallProgram.Run Runtime.Jobs.Step
          (commandBufferDispatch st executable function constants bindings)
          ⟨err, []⟩ (.ok ()) d →
        ((d.trace.map Runtime.Jobs.Event.call).filterMap Runtime.Jobs.callConf).length = 1 := by
  refine ⟨?_, dispatch_one_job⟩
  induction exports generalizing resolved with
  | nil =>
      cases passed
      exact .nil
  | cons exportOp rest ih =>
      simp only [resolveWorkgroupCountPass, bind, Except.bind, pure, Except.pure] at passed
      split at passed
      · cases passed
      rename_i first isFirst
      split at passed
      · cases passed
      rename_i others isRest
      cases passed
      refine .cons (resolveExport_resolved bodies ?_ isFirst) (ih others ?_ isRest)
      · exact regions exportOp (List.mem_cons_self ..)
      · exact fun exportOp' member => regions exportOp' (List.mem_cons_of_mem _ member)

def matrixType (rows columns : Option Nat) : TensorType :=
  .ranked [some 1, rows, columns] (.integer 32)

/-- All of a matrix, of which the number of rows may be dynamic. -/
def matrixSlice (rows : Option Nat) (columns : Nat) : Slice where
  sourceDims := [rows].count none
  offsets := [some 0, some 0, some 0]
  sizes := [some 1, rows.map Int.ofNat, some columns]
  strides := [some 1, some 1, some 1]

/-- N rows of 16 by 16 rows of 9, where N is workload value 0. -/
def dynamicMatvec : DispatchFunc where
  funcOp := {
    symName := "matvec_dynamic"
    body := [
      ⟨.constant ⟨64, 0⟩, [], [0]⟩,
      ⟨.interfaceConstantLoad 0, [], [1]⟩,
      ⟨.indexCastui 64, [1], [2]⟩,
      ⟨workloadOrdinalOp, [2], [3]⟩,
      ⟨.bindingSubspan 0 true [some 1, none, some 16], [0, 3], [4]⟩,
      ⟨.bindingSubspan 1 true [some 1, some 16, some 9], [0], [5]⟩,
      ⟨.bindingSubspan 2 true [some 1, none, some 9], [0, 3], [6]⟩,
      ⟨.dispatchTensorLoad (matrixSlice none 16) (matrixType none (some 16)), [4, 3, 3], [7]⟩,
      ⟨.dispatchTensorLoad (matrixSlice (some 16) 9) (matrixType (some 16) (some 9)), [5], [8]⟩,
      ⟨.matvec (matrixType none (some 9)), [7, 8], [9]⟩,
      ⟨.dispatchTensorStore (matrixSlice none 9), [9, 6, 3, 3], []⟩] }
  typeOf := fun v => [(7, matrixType none (some 16)), (8, matrixType (some 16) (some 9)),
    (9, matrixType none (some 9))].lookup v
  ordinals := fun v => if v = 3 then some 0 else none
  ordinalOps := fun v ordinal found => by
    split at found
    · rename_i same
      subst same
      exact ⟨_, _, rfl, rfl⟩
    · cases found

/-- A count region with a workload of so many values. -/
def countRegion (workload : Nat) : CountRegion where
  numArguments := workload + 1
  body := [⟨.workgroupCountFromSlice, (List.range workload).map (· + 1),
    [workload + 1, workload + 2, workload + 3]⟩]
  returned := [workload + 1, workload + 2, workload + 3]

theorem countRegion_wellFormed (workload : Nat) : (countRegion workload).WellFormed where
  device := Nat.succ_pos _
  dominated := by
    refine ⟨fun v used => ?_, fun v made => ?_, by simp, trivial⟩
    · obtain ⟨i, below, rfl⟩ := List.mem_map.mp used
      have inside := List.mem_range.mp below
      simp only [countRegion, List.mem_range]
      omega
    · simp only [countRegion, List.mem_cons, List.not_mem_nil, or_false, List.mem_range] at made ⊢
      omega
  returns := fun op member _ => by
    obtain rfl := List.mem_singleton.mp member
    rfl
  three := rfl

/-- Three jobs for each row, of which there are as many as the argument says. -/
theorem resolveWorkgroupCountPass_grid_iff_sample :
    List.Forall₂ (ExportResolved [dynamicMatvec]) [⟨"matvec_dynamic", some (countRegion 1)⟩]
      [⟨"matvec_dynamic", some {
        numArguments := 2
        body := [⟨.constantIndex 1, [], [5]⟩, ⟨.constantIndex 3, [], [6]⟩]
        returned := [6, 1, 5] }⟩] := by
  refine (resolveWorkgroupCountPass_grid_iff [dynamicMatvec]
    [⟨"matvec_dynamic", some (countRegion 1)⟩] _ (fun func member => ?_)
    (fun exportOp member region isRegion => ?_) rfl).1
  · obtain rfl := List.mem_singleton.mp member
    exact {
      dominated := by simp [dynamicMatvec, Ssa.Dominated]
      results := by simp [dynamicMatvec, OpKind.resultCount, workloadOrdinalOp]
      widens := by simp [dynamicMatvec, workloadOrdinalOp] }
  · obtain rfl := List.mem_singleton.mp member
    obtain rfl := Option.some.inj isRegion
    exact countRegion_wellFormed 1

/-- Four rows by 3 columns, and the same rows by 6. -/
def twoMatvecs : DispatchFunc where
  funcOp := {
    symName := "two"
    body := [
      ⟨.bindingSubspan 0 false [some 1, some 4, some 8], [], [0]⟩,
      ⟨.bindingSubspan 1 false [some 1, some 8, some 3], [], [1]⟩,
      ⟨.bindingSubspan 2 false [some 1, some 8, some 6], [], [2]⟩,
      ⟨.bindingSubspan 3 false [some 1, some 4, some 3], [], [3]⟩,
      ⟨.bindingSubspan 4 false [some 1, some 4, some 6], [], [4]⟩,
      ⟨.dispatchTensorLoad (matrixSlice (some 4) 8) (matrixType (some 4) (some 8)), [0], [5]⟩,
      ⟨.dispatchTensorLoad (matrixSlice (some 8) 3) (matrixType (some 8) (some 3)), [1], [6]⟩,
      ⟨.dispatchTensorLoad (matrixSlice (some 8) 6) (matrixType (some 8) (some 6)), [2], [7]⟩,
      ⟨.matvec (matrixType (some 4) (some 3)), [5, 6], [8]⟩,
      ⟨.matvec (matrixType (some 4) (some 6)), [5, 7], [9]⟩,
      ⟨.dispatchTensorStore (matrixSlice (some 4) 3), [8, 3], []⟩,
      ⟨.dispatchTensorStore (matrixSlice (some 4) 6), [9, 4], []⟩] }
  typeOf := fun v => [(5, matrixType (some 4) (some 8)), (6, matrixType (some 8) (some 3)),
    (7, matrixType (some 8) (some 6)), (8, matrixType (some 4) (some 3)),
    (9, matrixType (some 4) (some 6))].lookup v
  ordinals := fun _ => none
  ordinalOps := fun _ _ found => by cases found

/-- The pass takes the grid of the second one for both. -/
theorem resolveWorkgroupCountPass_twoMatvecs : ∃ resolved,
    resolveWorkgroupCountPass [twoMatvecs] [⟨"two", some (countRegion 0)⟩] =
      .ok [⟨"two", some resolved⟩] ∧
    WellFormed twoMatvecs.funcOp.body ∧ (countRegion 0).WellFormed ∧
    twoMatvecs.matvecOps.length = 2 ∧
    resolved.eval (fun _ _ => []) [] [] = [.index 2, .index 4, .index 1] ∧
    ¬ GridCorrect twoMatvecs [] (resolved.eval (fun _ _ => []) [] []) := by
  refine ⟨_, rfl, ⟨?_, ?_, ?_⟩, countRegion_wellFormed 0, rfl, rfl, fun correct => ?_⟩
  · simp [twoMatvecs, Ssa.Dominated]
  · simp [twoMatvecs, OpKind.resultCount]
  · simp [twoMatvecs]
  · cases correct with
    | one none_ _ => cases none_
    | matvec single _ _ _ _ => cases single

end Estela.Compiler
