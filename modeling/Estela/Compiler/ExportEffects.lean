import Estela.Compiler.DispatchEffects
import Mathlib.Algebra.Order.BigOperators.Group.List
import Mathlib.Algebra.Order.Group.Nat
import Mathlib.Algebra.Order.Ring.Nat

set_option autoImplicit false

/- What an export writes when its kernel runs, against the function it comes from. -/
namespace Estela.Compiler

open Ssa (Op Body definingOp)
open Estela.Runtime (columnCount)

/-- The columns the operands of the kernel come in by, in order. -/
def StrelaExport.operandColumns (strelaExport : StrelaExport) : List StrelaColumn :=
  (List.range strelaExport.kernel.inputCount).map fun i =>
    strelaExport.inputs.getD (strelaExport.kernel.inputColumns.getD i 0) unusedColumn

/-- The column the result goes out by. -/
def StrelaExport.resultColumn (strelaExport : StrelaExport) : StrelaColumn :=
  strelaExport.outputs.getD strelaExport.kernel.outputColumn unusedColumn

/-- The words an input column delivers. -/
def StrelaColumn.read (column : StrelaColumn) (constants : Nat → BitVec 32)
    (memory : Nat → Nat → BitVec 32) : List (BitVec 32) :=
  (List.range column.wordCount.toNat).map fun k =>
    memory column.binding.toNat (column.start constants + 4 * (k * column.stride.toNat))

/-- The single column write an export describes. -/
def StrelaExport.writes (strelaExport : StrelaExport) (constants : Nat → BitVec 32)
    (memory : Nat → Nat → BitVec 32) : List Write :=
  let result := strelaExport.resultColumn
  columnWrites result.wordCount.toNat (result.binding.toNat, result.start constants)
    (strelaExport.kernel.compute (strelaExport.operandColumns.map (·.read constants memory)))

theorem le_foldl_max (vs : List Nat) (start : Nat) :
    start ≤ vs.foldl max start ∧ ∀ v ∈ vs, v ≤ vs.foldl max start := by
  induction vs generalizing start with
  | nil => simp
  | cons w rest ih =>
      obtain ⟨above, all⟩ := ih (max start w)
      refine ⟨Nat.le_trans (Nat.le_max_left _ _) above, fun v member => ?_⟩
      rcases List.mem_cons.mp member with rfl | later
      · exact Nat.le_trans (Nat.le_max_right _ _) above
      · exact all v later

theorem lt_freshValue {body : Body OpKind} {v : Nat} (known : v ∈ Ssa.defs body ++ Ssa.uses body) :
    v < freshValue body :=
  Nat.lt_succ_of_le ((le_foldl_max _ 0).2 v known)

theorem mem_eraseTriviallyDead {ops kept : Body OpKind} {op : Op OpKind}
    (member : op ∈ eraseTriviallyDead ops kept) : op ∈ ops ∨ op ∈ kept := by
  induction ops generalizing kept with
  | nil => exact Or.inr member
  | cons head earlier ih =>
      unfold eraseTriviallyDead at member
      split at member
      · exact (ih member).imp_left (List.mem_cons_of_mem _)
      · rcases ih member with old | new
        · exact Or.inl (List.mem_cons_of_mem _ old)
        · rcases List.mem_cons.mp new with rfl | already
          · exact Or.inl (List.mem_cons_self ..)
          · exact Or.inr already

/-- The values the new loads define. -/
def newOperands (body : Body OpKind) (info : StrelaEntryPointInfo) : List Nat :=
  (List.range (info.operandOps.zip info.operands).length).map (freshValue body + ·)

/-- The operations of the rewritten function: those kept from before, which neither
are the kernel nor use its result, and those that are new. -/
inductive Materialized (body : Body OpKind) (info : StrelaEntryPointInfo) : Op OpKind → Prop
  | kept (op : Op OpKind) (old : op ∈ body) (plain : op.kind.strelaType = none)
      (apart : ∀ v ∈ info.kernelOp.results, v ∉ op.operands) : Materialized body info op
  | load (i : Nat) (loadOp : LoadOp) (binding : StrelaBinding)
      (found : (info.operandOps.zip info.operands)[i]? = some (loadOp, binding)) :
      Materialized body info ⟨.bindingLoad binding.attrs loadOp.type, [], [freshValue body + i]⟩
  | kernel : Materialized body info { info.kernelOp with operands := newOperands body info }
  | store : Materialized body info ⟨.bindingStore info.result.attrs, info.kernelOp.results, []⟩

theorem defs_loads (pairs : List (LoadOp × StrelaBinding)) (fresh : Nat) :
    Ssa.defs (pairs.mapIdx fun index found =>
      (⟨.bindingLoad found.2.attrs found.1.type, [], [fresh + index]⟩ : Op OpKind)) =
      (List.range pairs.length).map (fresh + ·) := by
  have single (entries : List ((LoadOp × StrelaBinding) × Nat)) :
      entries.flatMap (fun entry => [fresh + entry.2]) =
        (entries.map Prod.snd).map (fresh + ·) := by
    induction entries with
    | nil => rfl
    | cons entry rest ih => simp [ih]
  rw [Ssa.defs, List.mapIdx_eq_zipIdx_map, List.flatMap_map]
  dsimp only
  rw [single, List.zipIdx_map_snd, List.range_eq_range']

theorem mem_materializeBindings {body : Body OpKind} {info : StrelaEntryPointInfo} {result : Nat}
    (parts : EntryPointParts body info result) {op : Op OpKind}
    (member : op ∈ materializeBindings body info) :
    Materialized body info op := by
  have keeps (rest : Body OpKind)
      (among : ∀ (i : Nat) op, rest[i]? = some op → ∃ j : Nat, body[j]? = some op ∧
        j ≠ info.kernelIndex)
      (kept : op ∈ rest.filter fun op => info.kernelOp.results.all (· ∉ op.operands)) :
      Materialized body info op := by
    obtain ⟨old, unused⟩ := List.mem_filter.mp kept
    obtain ⟨i, there⟩ := List.mem_iff_getElem?.mp old
    obtain ⟨j, inBody, apart⟩ := among i op there
    refine .kept op (List.mem_of_getElem? inBody) ?_ (by simpa using unused)
    by_contra strela
    exact apart (parts.kernel.only _ op inBody (Option.isSome_iff_ne_none.mpr strela))
  unfold materializeBindings at member
  simp only [List.mem_append] at member
  rcases member with ((early | load) | new) | late
  · refine keeps _ (fun i op there => ?_) early
    rw [List.getElem?_take] at there
    split at there
    · exact ⟨i, there, by omega⟩
    · cases there
  · obtain ⟨i, bound, rfl⟩ := List.mem_mapIdx.mp load
    exact .load i _ _ (List.getElem?_eq_getElem bound)
  · rw [show (info.operandOps.zip info.operands).mapIdx _ = _ from rfl, defs_loads] at new
    simp only [List.mem_cons, List.not_mem_nil, or_false] at new
    rcases new with rfl | rfl
    · exact .kernel
    · exact .store
  · refine keeps _ (fun i op there => ?_) late
    rw [List.getElem?_drop] at there
    exact ⟨_, there, by omega⟩

/-- Columns put where the kernel takes its operands, from operand number `i` on. -/
def placeColumns (kernel : StrelaKernel) :
    List StrelaColumn → Nat → List StrelaColumn → List StrelaColumn
  | [], _, inputs => inputs
  | column :: rest, i, inputs =>
      placeColumns kernel rest (i + 1) (inputs.set (kernel.inputColumns.getD i 0) column)

theorem exportInputs_ok {body : Body OpKind} {kernel : StrelaKernel} {operands : List Nat} {i : Nat}
    {inputs result : List StrelaColumn}
    (got : exportInputs body kernel operands i inputs = .ok result) :
    ∃ columns, List.Forall₂ (fun operand column => ∃ attrs type,
        bindingLoadOf body operand = some (attrs, type) ∧ getColumn attrs type 1 = .ok column)
      operands columns ∧ result = placeColumns kernel columns i inputs := by
  induction operands generalizing i inputs with
  | nil =>
      cases got
      exact ⟨[], .nil, rfl⟩
  | cons operand rest ih =>
      simp only [exportInputs, bind, Except.bind] at got
      split at got
      case h_2 => cases got
      rename_i attrs type found
      split at got
      · cases got
      rename_i column made
      obtain ⟨columns, later, placed⟩ := ih got
      exact ⟨column :: columns, .cons ⟨attrs, type, found, made⟩ later, placed⟩

/-- Each operand comes in by its own column. -/
theorem operandColumns_placeColumns {kind : OpKind} {kernel : StrelaKernel} {type : TensorType}
    (chosen : kernelOf kind = .ok (kernel, type)) {columns : List StrelaColumn}
    (count : columns.length = kernel.inputCount) (outputs : List StrelaColumn) :
    StrelaExport.operandColumns
      ⟨kernel, placeColumns kernel columns 0 (List.replicate columnCount unusedColumn),
      outputs⟩ = columns := by
  rcases kernelOf_ok chosen with ⟨-, rfl⟩ | ⟨-, rfl⟩
  · obtain ⟨lhs, rhs, rfl⟩ := List.length_eq_two.mp count
    rfl
  · obtain ⟨input, rfl⟩ := List.length_eq_one_iff.mp count
    rfl

theorem resultColumn_set {kind : OpKind} {kernel : StrelaKernel} {type : TensorType}
    (chosen : kernelOf kind = .ok (kernel, type)) (inputs : List StrelaColumn)
    (column : StrelaColumn) :
    StrelaExport.resultColumn ⟨kernel, inputs,
      (List.replicate columnCount unusedColumn).set kernel.outputColumn column⟩ = column := by
  rcases kernelOf_ok chosen with ⟨-, rfl⟩ | ⟨-, rfl⟩ <;> rfl

section

variable {body lowered : Body OpKind} {info : StrelaEntryPointInfo}
  (materialized : ∀ op ∈ lowered, Materialized body info op)

include materialized

theorem bindingLoadOf_new {i : Nat} {attrs : BindingAttrs} {type : TensorType}
    (kernelInBody : info.kernelOp ∈ body)
    (found : bindingLoadOf lowered (freshValue body + i) = some (attrs, type)) :
    ∃ loadOp binding, (info.operandOps.zip info.operands)[i]? = some (loadOp, binding) ∧
      attrs = binding.attrs ∧ type = loadOp.type := by
  unfold bindingLoadOf at found
  split at found
  case h_2 => cases found
  rename_i attrs' type' operands results j defined
  cases found
  obtain ⟨before, after, split, -, result⟩ := Ssa.definingOp_split defined
  have made := List.mem_of_getElem? result
  have member : ⟨.bindingLoad attrs type, operands, results⟩ ∈ lowered := by
    rw [split]
    exact List.mem_append_right _ (List.mem_cons_self ..)
  generalize isOp : (⟨.bindingLoad attrs type, operands, results⟩ : Op OpKind) = op at member
  cases materialized op member with
  | kept op old _ _ =>
      have known := lt_freshValue
        (List.mem_append_left (Ssa.uses body) (Ssa.mem_defs old (isOp ▸ made)))
      omega
  | load k loadOp binding place =>
      cases isOp
      obtain rfl : i = k := by simpa using made
      exact ⟨loadOp, binding, place, rfl, rfl⟩
  | kernel =>
      have results : results = info.kernelOp.results := congrArg Op.results isOp
      have known := lt_freshValue (List.mem_append_left (Ssa.uses body)
        (Ssa.mem_defs kernelInBody (results ▸ made)))
      omega
  | store => cases isOp

theorem exportOutput_new {result : Nat} {type : TensorType} {column : StrelaColumn}
    (produced : result ∈ info.kernelOp.results) (kernelInBody : info.kernelOp ∈ body)
    (got : exportOutput lowered result type = .ok column) :
    getColumn info.result.attrs type 0 = .ok column := by
  simp only [exportOutput, bind, Except.bind] at got
  split at got
  · cases got
  split at got
  case h_2 => cases got
  rename_i attrs operands results user
  have used : result ∈ operands := by simpa using List.find?_some user
  have member := List.mem_of_find?_eq_some user
  generalize isOp : (⟨.bindingStore attrs, operands, results⟩ : Op OpKind) = op at member
  cases materialized op member with
  | kept op _ _ apart => exact absurd (isOp ▸ used) (apart result produced)
  | load k loadOp binding place => cases isOp
  | kernel =>
      have operandsEq : operands = newOperands body info := congrArg Op.operands isOp
      rw [operandsEq, newOperands, List.mem_map] at used
      obtain ⟨k, -, same⟩ := used
      have known := lt_freshValue
        (List.mem_append_left (Ssa.uses body) (Ssa.mem_defs kernelInBody produced))
      omega
  | store =>
      cases isOp
      exact got

end

/-- Where the driver finds a recognized dispatch tensor. -/
def resolved (constants : Nat → BitVec 32) (found : Nat × OffsetForm) : Nat × Nat :=
  (found.1 % 2 ^ 32, found.2.address constants)

/-- The column of a recognized dispatch tensor. -/
theorem getColumn_place {found : Nat × OffsetForm} {type : TensorType} {shape : List Nat}
    {stride : BitVec 32} {column : StrelaColumn} (static : type.staticShape = some shape)
    (got : getColumn (encodeBinding found.1 found.2).attrs type stride = .ok column)
    (constants : Nat → BitVec 32) :
    column.wordCount.toNat = shape.prod ∧ column.stride = stride ∧
      (column.binding.toNat, column.start constants) = resolved constants found := by
  obtain ⟨binding, ordinals, byteOffset⟩ := StrelaBinding.column_eq got
  obtain ⟨shape', static', small, rfl⟩ := getColumn_ok got
  obtain rfl := Option.some.inj (static.symm.trans static')
  refine ⟨?_, rfl, ?_⟩
  · rw [BitVec.toNat_ofNat]
    exact Nat.mod_eq_of_lt (Nat.lt_of_le_of_lt small (by decide))
  · rw [StrelaColumn.start, ordinals, byteOffset, binding, resolved, ← found.2.start_eq constants]
    simp [encodeBinding]

theorem read_eq_block {found : Nat × OffsetForm} {type : TensorType} {shape : List Nat}
    {column : StrelaColumn} (static : type.staticShape = some shape)
    (got : getColumn (encodeBinding found.1 found.2).attrs type 1 = .ok column)
    (constants : Nat → BitVec 32) (memory : Nat → Nat → BitVec 32) :
    column.read constants memory = block memory shape.prod (resolved constants found) := by
  obtain ⟨words, stride, place⟩ := getColumn_place static got constants
  rw [StrelaColumn.read, words, stride, block, ← place]
  simp

theorem materializeBindingsPass_ok {funcOp lowered : FuncOp} {info : StrelaEntryPointInfo}
    (analyzed : analyzeEntryPoint funcOp.body = .ok info)
    (passed : materializeBindingsPass funcOp = .ok lowered) (op : Op OpKind)
    (member : op ∈ lowered.body) :
    Materialized funcOp.body info op := by
  obtain ⟨result, parts⟩ := analyzeEntryPoint_ok analyzed
  simp only [materializeBindingsPass, bind, Except.bind, analyzed, pure, Except.pure] at passed
  cases passed
  rcases mem_eraseTriviallyDead member with new | none
  · exact mem_materializeBindings parts (List.mem_reverse.mp new)
  · cases none

/-- The kernel op of the rewritten function is that of the original. -/
theorem export_kernelOp {body lowered : Body OpKind} {info : StrelaEntryPointInfo}
    {kernelOp : Op OpKind} (materialized : ∀ op ∈ lowered, Materialized body info op)
    (single : lowered.filter (fun op => op.kind.strelaType.isSome) = [kernelOp]) :
    kernelOp = { info.kernelOp with operands := newOperands body info } := by
  obtain ⟨member, strela⟩ := List.mem_filter.mp (single ▸ List.mem_singleton_self kernelOp)
  cases materialized kernelOp member with
  | kept _ _ plain _ => simp [plain] at strela
  | load i loadOp binding place => cases strela
  | kernel => rfl
  | store => cases strela

/-- Every binding the analysis resolves is one it recognizes. -/
theorem sources_found {body : Body OpKind} {operands : List Nat}
    {found : List (LoadOp × StrelaBinding)}
    (loaded : List.Forall₂
      (fun operand found => OperandParts body operand found.1 found.2) operands found) :
    ∃ sources : List (Nat × OffsetForm),
      found.map (fun p => bindingForm body p.1.source) = sources.map some ∧
      found.map Prod.snd = sources.map fun source => encodeBinding source.1 source.2 := by
  induction loaded with
  | nil => exact ⟨[], rfl, rfl⟩
  | @cons operand p operands found parts _ ih =>
      obtain ⟨sources, places, bindings⟩ := ih
      have matched := parts.matched
      rw [matchBinding_eq] at matched
      obtain ⟨source, isSource, encoded⟩ := Option.map_eq_some_iff.mp matched
      exact ⟨source :: sources, by simp [places, isSource], by simp [bindings, encoded]⟩

/-- The columns of the new operands read the blocks the driver finds the operands at. -/
theorem newColumns_read {body lowered : Body OpKind} {info : StrelaEntryPointInfo}
    {type : TensorType} {shape : List Nat} {sources : List (Nat × OffsetForm)}
    {columns : List StrelaColumn} (materialized : ∀ op ∈ lowered, Materialized body info op)
    (kernelInBody : info.kernelOp ∈ body) (typed : ∀ loadOp ∈ info.operandOps, loadOp.type = type)
    (static : type.staticShape = some shape)
    (bindings : (info.operandOps.zip info.operands).map Prod.snd =
      sources.map fun source => encodeBinding source.1 source.2)
    (loaded : List.Forall₂ (fun operand column => ∃ attrs type,
        bindingLoadOf lowered operand = some (attrs, type) ∧ getColumn attrs type 1 = .ok column)
      (newOperands body info) columns)
    (constants : Nat → BitVec 32) (memory : Nat → Nat → BitVec 32) :
    columns.map (·.read constants memory) =
      (sources.map (resolved constants)).map (block memory shape.prod) := by
  have sourceCount : sources.length = (info.operandOps.zip info.operands).length := by
    simpa using (congrArg List.length bindings).symm
  have columnCount : columns.length = sources.length := by
    rw [← loaded.length_eq, sourceCount, newOperands]
    simp
  rw [List.map_map]
  refine List.ext_getElem (by simp [columnCount]) ?_
  intro i first second
  have third : i < sources.length := by simpa using second
  obtain ⟨attrs, loadType, isLoad, made⟩ := (List.forall₂_iff_get.mp loaded).2 i
    (by rw [loaded.length_eq]; simpa using first) (by simpa using first)
  have operand : (newOperands body info).get ⟨i, by rw [loaded.length_eq]; simpa using first⟩ =
      freshValue body + i := by simp [newOperands]
  rw [operand] at isLoad
  obtain ⟨loadOp, binding, pair, rfl, rfl⟩ := bindingLoadOf_new materialized kernelInBody isLoad
  have inOps := (List.of_mem_zip (List.mem_of_getElem? pair)).1
  have isSource : binding = encodeBinding sources[i].1 sources[i].2 := by
    have entry := congrArg (·[i]?) bindings
    simpa [pair, third] using entry
  rw [typed loadOp inOps, isSource] at made
  simpa using read_eq_block static made constants memory

/-- A function that is lowered and accepted is one of a kernel, and its export does
what the kernel does at the places the driver finds. -/
theorem kernelFunction_of_export {funcOp lowered : FuncOp} {info : StrelaEntryPointInfo}
    {strelaExport : StrelaExport} {type : TensorType} (function : DispatchFunction funcOp.body)
    (analyzed : analyzeEntryPoint funcOp.body = .ok info)
    (kernelType : info.kernelOp.kind.strelaType = some type)
    (typed : ∀ loadOp ∈ info.operandOps, loadOp.type = type)
    (passed : materializeBindingsPass funcOp = .ok lowered)
    (accepted : getExport lowered = .ok strelaExport) :
    ∃ result kernel shape sources target,
      KernelFunction funcOp.body info result kernel type shape sources target ∧
      ∀ constants memory, strelaExport.writes constants memory =
        jobWrites kernel memory shape.prod (resolved constants target)
          (sources.map (resolved constants)) := by
  have materialized := materializeBindingsPass_ok analyzed passed
  obtain ⟨result, parts⟩ := analyzeEntryPoint_ok analyzed
  obtain ⟨kernelOp, kernel, type', inputs, result', output, export_⟩ := getExport_ok accepted
  have isKernel := export_kernelOp materialized export_.single
  have chosen : kernelOf info.kernelOp.kind = .ok (kernel, type') := by
    have same : kernelOp.kind = info.kernelOp.kind := by rw [isKernel]
    rw [← same]
    exact export_.chosen
  obtain rfl : type' = type := by
    rcases kernelOf_ok chosen with ⟨kind, -⟩ | ⟨kind, -⟩ <;>
    · rw [kind] at kernelType
      exact Option.some.inj kernelType
  have kernelInBody := List.mem_of_getElem? parts.kernel.there
  have resultMem := List.mem_of_head? parts.produced
  obtain rfl : result' = result := by
    have same : kernelOp.results = info.kernelOp.results := by rw [isKernel]
    have produced := export_.produced
    rw [same, parts.produced] at produced
    exact (Option.some.inj produced).symm
  have stored := exportOutput_new materialized resultMem kernelInBody export_.stored
  obtain ⟨shape, static, -, -⟩ := getColumn_ok stored
  obtain ⟨sources, places, bindings⟩ := sources_found parts.operands
  have operandsEq : kernelOp.operands = newOperands funcOp.body info := by rw [isKernel]
  have count : info.kernelOp.operands.length = kernel.inputCount := by
    rw [parts.operands.length_eq, ← export_.operands, operandsEq, newOperands]
    simp
  have matched := parts.stored.matched
  rw [matchBinding_eq] at matched
  obtain ⟨target, isTarget, encoded⟩ := Option.map_eq_some_iff.mp matched
  refine ⟨result', kernel, shape, sources, target,
    ⟨function, parts, chosen, count, typed, static, places, isTarget⟩,
    fun constants memory => ?_⟩
  obtain ⟨columns, loaded, placed⟩ := exportInputs_ok export_.loaded
  have columnCount : columns.length = kernel.inputCount := by
    rw [← loaded.length_eq, export_.operands]
  rw [operandsEq] at loaded
  have reads :=
    newColumns_read materialized kernelInBody typed static bindings loaded constants memory
  have words := (getColumn_place static (encoded ▸ stored) constants).1
  have place := (getColumn_place static (encoded ▸ stored) constants).2.2
  rw [export_.whole, StrelaExport.writes, resultColumn_set chosen, words, place, placed,
    operandColumns_placeColumns chosen columnCount, reads, jobWrites]

/-- The same writes, as a set and in number: none is left out, and none is left out
for another one like it. -/
structure SameWrites (original exported : List Write) : Prop where
  same : ∀ w, w ∈ original ↔ w ∈ exported
  count : original.length = exported.length

theorem mem_columnWrites {n : Nat} {place : Nat × Nat} {words : List (BitVec 32)} {w : Write} :
    w ∈ columnWrites n place words ↔
      ∃ k value, k < n ∧ words[k]? = some value ∧ w = ⟨place.1, place.2 + 4 * k, value⟩ := by
  rw [columnWrites, List.mem_iff_getElem?]
  simp only [List.getElem?_zipWith_eq_some]
  constructor
  · rintro ⟨k, x, value, isIndex, isValue, rfl⟩
    obtain ⟨below, same⟩ := List.getElem?_eq_some_iff.mp isIndex
    obtain rfl : k = x := by simpa using same
    exact ⟨k, value, by simpa using below, isValue, rfl⟩
  · rintro ⟨k, value, below, isValue, rfl⟩
    exact ⟨k, k, value, List.getElem?_range below, isValue, rfl⟩

/-- A column write that is not empty shows where it starts, and its first word. -/
theorem columnWrites_inj {n : Nat} (some_ : 0 < n) {place place' : Nat × Nat}
    {words words' : List (BitVec 32)} (whole : words.length = n) (whole' : words'.length = n)
    (same : ∀ w, w ∈ columnWrites n place words ↔ w ∈ columnWrites n place' words') :
    place = place' ∧ words[0]? = words'[0]? := by
  have first : words[0]? = some words[0] := List.getElem?_eq_getElem (by omega)
  have first' : words'[0]? = some words'[0] := List.getElem?_eq_getElem (by omega)
  obtain ⟨k, value, -, isValue, there⟩ :=
    mem_columnWrites.mp ((same _).mp (mem_columnWrites.mpr ⟨0, _, some_, first, rfl⟩))
  obtain ⟨k', value', -, -, there'⟩ :=
    mem_columnWrites.mp ((same _).mpr (mem_columnWrites.mpr ⟨0, _, some_, first', rfl⟩))
  simp only [Write.mk.injEq] at there there'
  obtain rfl : k = 0 := by omega
  refine ⟨Prod.ext there.1 (by omega), ?_⟩
  rw [first, isValue, there.2.2]

/-- A memory that is zero but for one word. -/
def bump (place : Nat × Nat) (binding byteOffset : Nat) : BitVec 32 :=
  if (binding, byteOffset) = place then 1 else 0

theorem block_bump {n : Nat} (some_ : 0 < n) (place source : Nat × Nat) :
    (block (bump place) n source)[0]? = some (if source = place then 1 else 0) := by
  simp [block, List.getElem?_range some_, bump]

/-- Such a memory shows how often a kernel reads the word. -/
theorem compute_bump {kind : OpKind} {kernel : StrelaKernel} {type : TensorType}
    (chosen : kernelOf kind = .ok (kernel, type)) {sources : List (Nat × Nat)}
    (count : sources.length = kernel.inputCount) {n : Nat} (some_ : 0 < n) (place : Nat × Nat) :
    (kernel.compute (sources.map (block (bump place) n)))[0]? =
      some (BitVec.ofNat 32 (sources.count place)) := by
  rcases kernelOf_ok chosen with ⟨-, rfl⟩ | ⟨-, rfl⟩
  · obtain ⟨lhs, rhs, rfl⟩ := List.length_eq_two.mp count
    simp only [List.map_cons, List.map_nil, StrelaKernel.compute, ↓reduceIte, strelaAdd,
      List.getElem?_zipWith, block_bump some_, List.count_cons, List.count_nil, beq_iff_eq]
    split <;> split <;> rfl
  · obtain ⟨input, rfl⟩ := List.length_eq_one_iff.mp count
    have other : reluKernel ≠ addKernel := by decide
    simp only [List.map_cons, List.map_nil, StrelaKernel.compute, ↓reduceIte, strelaRelu,
      List.getElem?_map, block_bump some_, List.count_cons, List.count_nil, beq_iff_eq]
    split <;> rfl

/-- Kernels that write the same for every memory write to the same place, and read the
same places. -/
theorem jobWrites_inj {kind : OpKind} {kernel : StrelaKernel} {type : TensorType}
    (chosen : kernelOf kind = .ok (kernel, type)) {n : Nat} (some_ : 0 < n)
    (target target' : Nat × Nat) (sources sources' : List (Nat × Nat))
    (count : sources.length = kernel.inputCount) (count' : sources'.length = kernel.inputCount)
    (same : ∀ memory w, w ∈ jobWrites kernel memory n target sources ↔
      w ∈ jobWrites kernel memory n target' sources') :
    target = target' ∧ sources.Perm sources' := by
  have whole (memory : Nat → Nat → BitVec 32) (places : List (Nat × Nat))
      (known : places.length = kernel.inputCount) :
      (kernel.compute (places.map (block memory n))).length = n :=
    length_compute chosen (by simpa using known) fun words member => by
      obtain ⟨place, -, rfl⟩ := List.mem_map.mp member
      exact length_block memory n place
  have all (memory : Nat → Nat → BitVec 32) := columnWrites_inj some_ (whole memory sources count)
    (whole memory sources' count') (same memory)
  refine ⟨(all fun _ _ => 0).1, List.perm_iff_count.mpr fun place => ?_⟩
  have first := (all (bump place)).2
  rw [compute_bump chosen count some_, compute_bump chosen count' some_, Option.some.injEq] at first
  have few := List.count_le_length (a := place) (l := sources)
  have few' := List.count_le_length (a := place) (l := sources')
  have two : kernel.inputCount ≤ 2 := by
    rcases kernelOf_ok chosen with ⟨-, rfl⟩ | ⟨-, rfl⟩ <;> decide
  have words := congrArg BitVec.toNat first
  rw [BitVec.toNat_ofNat, BitVec.toNat_ofNat, Nat.mod_eq_of_lt (by omega),
    Nat.mod_eq_of_lt (by omega)] at words
  exact words

/-- The driver finds a dispatch tensor where it is, for all push constants. -/
def ExactPlace (found : Nat × OffsetForm) : Prop :=
  found.1 < 2 ^ 32 ∧ found.2.OrdinalsFit ∧ found.2.WordsFit

theorem ExactPlace.located_eq {found : Nat × OffsetForm} (exact_ : ExactPlace found)
    (constants : Nat → BitVec 32) : located constants found = resolved constants found := by
  obtain ⟨binding, ordinals, words⟩ := exact_
  rw [located, resolved, Nat.mod_eq_of_lt binding,
    found.2.value_eq_address constants ordinals words]

/-- Numbers that are pairwise in order and have the same sum are the same. -/
theorem eq_of_sum_eq {α : Type} {items : List α} {f g : α → Nat} (ordered : ∀ x ∈ items, f x ≤ g x)
    (sums : (items.map f).sum = (items.map g).sum) : ∀ x ∈ items, f x = g x := by
  induction items with
  | nil => simp
  | cons head rest ih =>
      have first := ordered head (List.mem_cons_self ..)
      have later := List.sum_le_sum fun x member => ordered x (List.mem_cons_of_mem head member)
      simp only [List.map_cons, List.sum_cons] at sums
      intro x member
      rcases List.mem_cons.mp member with rfl | tail
      · omega
      · exact ih (fun y inside => ordered y (List.mem_cons_of_mem _ inside)) (by omega) x tail

/-- Places the driver finds up to their order, for all push constants, it finds
exactly: an ordinal or a word that is cut off always moves a sum the same way. -/
theorem exactPlace_of_perm (found : List (Nat × OffsetForm)) (widens : ∀ f ∈ found, f.2.Widens)
    (perm : ∀ constants, (found.map (located constants)).Perm (found.map (resolved constants))) :
    ∀ f ∈ found, ExactPlace f := by
  have offsets (constants : Nat → BitVec 32) :
      (found.map fun f => (f.2.value constants).toNat).sum =
        (found.map fun f => f.2.address constants).sum := by
    simpa [List.map_map, Function.comp_def, located,
      resolved] using ((perm constants).map Prod.snd).sum_eq
  have bindings : (found.map fun f => f.1 % 2 ^ 32).sum = (found.map fun f => f.1).sum := by
    simpa [List.map_map, Function.comp_def, located, resolved] using
      ((perm lateConstants).map Prod.fst).sum_eq.symm
  have late := eq_of_sum_eq (fun f _ => f.2.address_lateConstants) (offsets lateConstants).symm
  have full := eq_of_sum_eq (fun f _ => f.2.value_fullConstants) (offsets fullConstants)
  have binding := eq_of_sum_eq (fun f _ => Nat.mod_le f.1 (2 ^ 32)) bindings
  intro f member
  have small := Nat.mod_lt f.1 (Nat.two_pow_pos 32)
  exact ⟨(binding f member) ▸ small, f.2.ordinalsFit_of_late (widens f member) (late f member).symm,
    f.2.wordsFit_of_full (widens f member) (full f member)⟩

/-- What is recognized of a dispatch tensor is exact. -/
def ExactBinding (body : Body OpKind) (dispatchTensor : Nat) : Prop :=
  ∀ found, bindingForm body dispatchTensor = some found → ExactPlace found

theorem exactBinding_iff {body : Body OpKind} {info : StrelaEntryPointInfo} {result : Nat}
    {kernel : StrelaKernel} {type : TensorType} {shape : List Nat}
    {sources : List (Nat × OffsetForm)} {target : Nat × OffsetForm}
    (function : KernelFunction body info result kernel type shape sources target) :
    (∀ access ∈ info.accesses, ExactBinding body access.dispatchTensor) ↔
      (∀ source ∈ sources, ExactPlace source) ∧ ExactPlace target := by
  have firsts : (info.operandOps.zip info.operands).map Prod.fst = info.operandOps :=
    List.map_fst_zip (Nat.le_of_eq function.parts.lengths)
  constructor
  · intro all
    refine ⟨fun source member => ?_,
      all info.resultOp.access (by simp [StrelaEntryPointInfo.accesses]) _
      function.targetFound⟩
    have there := List.mem_map_of_mem (f := some) member
    rw [← function.sourcesFound] at there
    obtain ⟨p, pair, isSource⟩ := List.mem_map.mp there
    exact all p.1.access
      (List.mem_append_left _ (List.mem_map_of_mem (List.of_mem_zip pair).1)) _ isSource
  · rintro ⟨operands, resultExact⟩ access member found isFound
    rcases List.mem_append.mp member with load | store
    · obtain ⟨loadOp, among, rfl⟩ := List.mem_map.mp load
      rw [← firsts] at among
      obtain ⟨p, pair, rfl⟩ := List.mem_map.mp among
      have there := List.mem_map_of_mem (f := fun p => bindingForm body p.1.source) pair
      rw [function.sourcesFound] at there
      obtain ⟨source, inSources, same⟩ := List.mem_map.mp there
      obtain rfl : source = found := Option.some.inj (same.trans isFound)
      exact operands source inSources
    · obtain rfl := List.mem_singleton.mp store
      obtain rfl : target = found := Option.some.inj (function.targetFound.symm.trans isFound)
      exact resultExact

/-- The export of a function does what the function does, for all push constants and
memories, exactly if the function stores no other word than those of its result and,
unless the result has none, the driver finds what it reads and writes. -/
theorem export_carries_writes_iff {funcOp lowered : FuncOp} {info : StrelaEntryPointInfo}
    {strelaExport : StrelaExport} {type : TensorType} {others : OpKind → List Val → List Val}
    (function : DispatchFunction funcOp.body) (analyzed : analyzeEntryPoint funcOp.body = .ok info)
    (kernelType : info.kernelOp.kind.strelaType = some type)
    (typed : ∀ loadOp ∈ info.operandOps, loadOp.type = type)
    (full : ∀ constants memory, ∀ access ∈ info.accesses,
      access.FullExtent (runDispatch constants others funcOp.body memory).1 type)
    (passed : materializeBindingsPass funcOp = .ok lowered)
    (accepted : getExport lowered = .ok strelaExport) :
    (∀ constants memory, SameWrites (runDispatch constants others funcOp.body memory).2.writes
        (strelaExport.writes constants memory)) ↔
      (∀ constants memory, OtherStoresIdle funcOp.body
        (runDispatch constants others funcOp.body memory).1
        info.resultOp) ∧
      (type.staticShape.any (·.prod = 0) ∨
        ∀ access ∈ info.accesses, ExactBinding funcOp.body access.dispatchTensor) := by
  obtain ⟨result, kernel, shape, sources, target, kernelFunction, exported⟩ :=
    kernelFunction_of_export function analyzed kernelType typed passed accepted
  have sourceCount : sources.length = kernel.inputCount := by
    rw [← kernelFunction.count, kernelFunction.parts.operands.length_eq]
    simpa using (congrArg List.length kernelFunction.sourcesFound).symm
  have length (constants : Nat → BitVec 32) (memory : Nat → Nat → BitVec 32) :
      (strelaExport.writes constants memory).length = shape.prod := by
    rw [exported, jobWrites]
    refine length_columnWrites
      (length_compute kernelFunction.chosen (by simpa using sourceCount) ?_)
    intro words member
    obtain ⟨place, -, rfl⟩ := List.mem_map.mp member
    exact length_block memory shape.prod place
  rw [exactBinding_iff kernelFunction, kernelFunction.static]
  simp only [Option.any_some, decide_eq_true_eq]
  constructor
  · intro carried
    have idle (constants : Nat → BitVec 32) (memory : Nat → Nat → BitVec 32) :=
      (dispatch_writes kernelFunction constants others memory (full constants memory)).1
        ((carried constants memory).count.trans (length constants memory))
    refine ⟨idle, ?_⟩
    by_cases empty : shape.prod = 0
    · exact Or.inl empty
    · have inj (constants : Nat → BitVec 32) :=
        jobWrites_inj kernelFunction.chosen (Nat.pos_of_ne_zero empty)
        (located constants target) (resolved constants target)
        (sources.map (located constants)) (sources.map (resolved constants))
        (by simpa using sourceCount) (by simpa using sourceCount) fun memory w => by
          rw [← exported, ← (dispatch_writes kernelFunction constants others memory
            (full constants memory)).2 (idle constants memory)]
          exact (carried constants memory).same w
      have widens : ∀ source ∈ sources, source.2.Widens := by
        intro source member
        have there := List.mem_map_of_mem (f := some) member
        rw [← kernelFunction.sourcesFound] at there
        obtain ⟨p, -, isSource⟩ := List.mem_map.mp there
        exact bindingForm_widens function isSource
      refine Or.inr ⟨exactPlace_of_perm sources widens fun constants => (inj constants).2, ?_⟩
      refine exactPlace_of_perm [target] ?_ (fun constants => ?_) target (List.mem_singleton_self _)
      · simpa using bindingForm_widens function kernelFunction.targetFound
      · simpa using (inj constants).1
  · rintro ⟨idle, exact_⟩ constants memory
    have writes := (dispatch_writes kernelFunction constants others memory
      (full constants memory)).2
      (idle constants memory)
    have same : (runDispatch constants others funcOp.body memory).2.writes =
        strelaExport.writes constants memory := by
      rw [writes, exported]
      rcases exact_ with empty | ⟨sourcesExact, targetExact⟩
      · simp [jobWrites, columnWrites, empty]
      · rw [targetExact.located_eq constants,
          List.map_congr_left fun source member =>
          (sourcesExact source member).located_eq constants]
    rw [same]
    exact ⟨fun _ => Iff.rfl, rfl⟩

def rowType : TensorType := .ranked [some 4] (.integer 32)

/-- All of a vector of 4. -/
def rowSlice : Slice where
  sourceDims := 0
  offsets := [some 0]
  sizes := [some 4]
  strides := [some 1]

/-- `strela.relu` of binding 0 into binding 1, and what else there is to do. -/
def rowFunc (more : Body OpKind) : FuncOp where
  symName := "relu"
  body := [
    ⟨.bindingSubspan 0 false [some 4], [], [0]⟩,
    ⟨.bindingSubspan 1 false [some 4], [], [1]⟩,
    ⟨.bindingSubspan 2 false [some 4], [], [2]⟩,
    ⟨.dispatchTensorLoad rowSlice rowType, [0], [3]⟩,
    ⟨.relu rowType, [3], [4]⟩,
    ⟨.dispatchTensorStore rowSlice, [4, 1], []⟩] ++ more

def rowInfo : StrelaEntryPointInfo where
  kernelIndex := 4
  kernelOp := ⟨.relu rowType, [3], [4]⟩
  operandOps := [{ slice := rowSlice, type := rowType, source := 0, operands := [] }]
  resultOp := { slice := rowSlice, value := 4, target := 1, operands := [] }
  operands := [{ binding := 0, offsets := [], staticByteOffset := none }]
  result := { binding := 1, offsets := [], staticByteOffset := none }

/-- The kernel of the rewritten function. -/
def rowKernel : Body OpKind := [
  ⟨.bindingLoad ⟨0, none, none⟩ rowType, [], [5]⟩,
  ⟨.relu rowType, [5], [4]⟩,
  ⟨.bindingStore ⟨1, none, none⟩, [4], []⟩]

def rowExport : StrelaExport where
  kernel := reluKernel
  inputs := [{ unusedColumn with wordCount := 4, stride := 1 },
    unusedColumn, unusedColumn, unusedColumn]
  outputs := [{ unusedColumn with binding := 1, wordCount := 4 },
    unusedColumn, unusedColumn, unusedColumn]

theorem rowFunc_dispatch (more : Body OpKind)
    (stores : more = [] ∨ more = [⟨.dispatchTensorStore rowSlice, [3, 2], []⟩]) :
    DispatchFunction (rowFunc more).body where
  dominated := by rcases stores with rfl | rfl <;> simp [rowFunc, Ssa.Dominated]
  results := by rcases stores with rfl | rfl <;> simp [rowFunc, OpKind.resultCount]
  widens := by rcases stores with rfl | rfl <;> simp [rowFunc]
  subspans := by rcases stores with rfl | rfl <;> simp [rowFunc]
  entries := by rcases stores with rfl | rfl <;> simp [rowFunc, asStoreOp]
  bindingOps := by rcases stores with rfl | rfl <;> simp [rowFunc]

theorem export_carries_writes_iff_sample :
    (∀ constants memory,
        SameWrites (runDispatch constants (fun _ _ => []) (rowFunc []).body memory).2.writes
          (rowExport.writes constants memory)) ↔
      (∀ constants memory, OtherStoresIdle (rowFunc []).body
        (runDispatch constants (fun _ _ => []) (rowFunc []).body memory).1 rowInfo.resultOp) ∧
      (rowType.staticShape.any (·.prod = 0) ∨
        ∀ access ∈ rowInfo.accesses, ExactBinding (rowFunc []).body access.dispatchTensor) := by
  refine export_carries_writes_iff (rowFunc_dispatch [] (Or.inl rfl)) rfl rfl
    (by simp [rowInfo]) (fun constants memory access member => ?_)
    (show materializeBindingsPass (rowFunc []) = .ok ⟨"relu", rowKernel⟩ from rfl) rfl
  simp only [rowInfo, StrelaEntryPointInfo.accesses, List.map_cons, List.map_nil, List.cons_append,
    List.nil_append, List.mem_cons, List.not_mem_nil, or_false] at member
  rcases member with rfl | rfl
  · exact ⟨⟨rfl, rfl, rfl⟩, rfl, fun shape static => by cases static; rfl⟩
  · exact ⟨⟨rfl, rfl, rfl⟩, rfl, fun shape static => by cases static; rfl⟩

/-- A store of the loaded operand to another binding is accepted and forgotten. -/
theorem export_drops_store :
    let funcOp := rowFunc [⟨.dispatchTensorStore rowSlice, [3, 2], []⟩]
    DispatchFunction funcOp.body ∧ analyzeEntryPoint funcOp.body = .ok rowInfo ∧
      (∃ lowered, materializeBindingsPass funcOp = .ok lowered ∧
        getExport lowered = .ok rowExport) ∧
      ⟨2, 0, 0⟩ ∈ (runDispatch (fun _ => 0) (fun _ _ => []) funcOp.body (fun _ _ => 0)).2.writes ∧
      ⟨2, 0, 0⟩ ∉ rowExport.writes (fun _ => 0) (fun _ _ => 0) :=
  ⟨rowFunc_dispatch _ (Or.inr rfl), rfl, ⟨_, rfl, rfl⟩, by decide, by decide⟩

end Estela.Compiler
