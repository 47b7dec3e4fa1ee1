import Estela.Compiler.ExportColumns
import Estela.Compiler.KernelStreams
import Estela.Runtime.FlatMemory

set_option autoImplicit false

/- A dispatch function from the compiler to the board: what it leaves in STRELA
memory when its export is dispatched there. -/
namespace Estela.Compiler

open Ssa (Body)
open Estela.Runtime hiding StrelaKernel
open Estela.Runtime.KernelJobs hiding plan
open Estela.Runtime.FlatMemory (Event Flat Fresh Op Represents Session Sound
  commandBufferDispatch_done exists_call quiet_step sampleSession sampleSession_fresh simulates
  singleBoard singleData singleExecutable single_allocated single_created)
open Estela.Runtime.Coherence (Dispatchable commandBufferDispatch_triple lineOf sampleAllocated)
open CallProgram (Run)
open Refinement (Trace)
open Streaming (Outcome)
open WriteBack (view)

/-- The push constants as the compiler numbers them. -/
def spanConstants (span : ConstByteSpan) (ordinal : Nat) : BitVec 32 := (span.value ordinal).getD 0

theorem offsetSum_eq (span : ConstByteSpan) (ordinals : List (BitVec 32)) (i : Nat) :
    offsetSum span ordinals i = ordinalSum (spanConstants span) ordinals i := by
  induction ordinals generalizing i with
  | nil => rfl
  | cons ordinal rest ih => rw [offsetSum, ordinalSum, ih, spanConstants]

/-- The first byte of what is bound, from the base of STRELA memory. -/
def bindingStart (bindings : List BufferRef) (binding : Nat) : Option Nat := do
  let ref ← bindings[binding]?
  let base ← ref.buffer
  match base.allocated with
  | .foreign => none
  | .strela buffer => some (boundStart buffer base ref)

/-- The word of STRELA memory a byte offset in a binding is in. -/
def wordAt (bindings : List BufferRef) (place : Nat × Nat) : Nat :=
  ((bindingStart bindings place.1).getD 0 + place.2) / 4

theorem wordAt_add (bindings : List BufferRef) (place : Nat × Nat) (k : Nat) :
    wordAt bindings (place.1, place.2 + 4 * k) = wordAt bindings place + k := by
  simp only [wordAt]
  omega

/-- STRELA memory as a function sees it through its bindings. -/
def boundMemory (bindings : List BufferRef) (contents : Nat → BitVec 32)
    (binding byteOffset : Nat) :
    BitVec 32 := contents (wordAt bindings (binding, byteOffset))

/-- The writes of a function, in STRELA memory. -/
def applyWrites (bindings : List BufferRef) (contents : Nat → BitVec 32) (writes : List Write) :
    Nat → BitVec 32 :=
  writes.foldl (fun contents w =>
    Function.update contents (wordAt bindings (w.binding, w.byteOffset)) w.value) contents

theorem block_boundMemory (bindings : List BufferRef) (contents : Nat → BitVec 32) (n : Nat)
    (place : Nat × Nat) : block (boundMemory bindings contents) n place =
      (List.range n).map fun k => contents (wordAt bindings place + k) := by
  simp only [block, boundMemory, wordAt_add]

theorem applyWrites_append (bindings : List BufferRef) (contents : Nat → BitVec 32)
    (first second : List Write) : applyWrites bindings contents (first ++ second) =
      applyWrites bindings (applyWrites bindings contents first) second := List.foldl_append

/-- A column write, word by word. -/
theorem applyWrites_columnWrites (bindings : List BufferRef) (contents : Nat → BitVec 32)
    (place : Nat × Nat) (words : List (BitVec 32)) :
    applyWrites bindings contents (columnWrites words.length place words) =
      fun w => if wordAt bindings place ≤ w
        then (words[w - wordAt bindings place]?).getD (contents w)
        else contents w := by
  induction words using List.reverseRecOn with
  | nil =>
      funext w
      simp [columnWrites, applyWrites]
  | append_singleton words value ih =>
      have last : columnWrites (words ++ [value]).length place (words ++ [value]) =
          columnWrites words.length place words ++
            [⟨place.1, place.2 + 4 * words.length, value⟩] := by
        simp [columnWrites, List.range_succ, List.zipWith_append]
      rw [last, applyWrites_append, ih]
      simp only [applyWrites, List.foldl_cons, List.foldl_nil]
      rw [show wordAt bindings (place.1, place.2 + 4 * words.length) = _ from
        wordAt_add bindings place words.length]
      funext w
      by_cases here : w = wordAt bindings place + words.length
      · simp [here]
      · rw [Function.update_of_ne here]
        by_cases before : wordAt bindings place ≤ w
        · simp only [before, ↓reduceIte]
          rcases Nat.lt_or_ge (w - wordAt bindings place) words.length with inside | past
          · rw [List.getElem?_append_left inside]
          · rw [List.getElem?_eq_none past, List.getElem?_eq_none (by simp; omega)]
        · simp only [before, ↓reduceIte]

section

variable {body lowered : Body OpKind} {info : StrelaEntryPointInfo} {type : TensorType}
  {shape : List Nat}

/-- A column moves the words of a recognized dispatch tensor. -/
structure Moves (column : StrelaColumn) (n : Nat) (stride : BitVec 32) (found : Nat × OffsetForm) :
    Prop where
  words : column.wordCount.toNat = n
  stride : column.stride = stride
  placed : ∀ constants, (column.binding.toNat, column.start constants) = resolved constants found

/-- The columns of the new operands move the dispatch tensors of the old ones. -/
theorem newColumns_moves {sources : List (Nat × OffsetForm)} {columns : List StrelaColumn}
    (materialized : ∀ op ∈ lowered, Materialized body info op)
    (kernelInBody : info.kernelOp ∈ body) (typed : ∀ loadOp ∈ info.operandOps, loadOp.type = type)
    (static : type.staticShape = some shape)
    (bindings : (info.operandOps.zip info.operands).map Prod.snd =
      sources.map fun source => encodeBinding source.1 source.2)
    (loaded : List.Forall₂ (fun operand column => ∃ attrs type,
        bindingLoadOf lowered operand = some (attrs, type) ∧ getColumn attrs type 1 = .ok column)
      (newOperands body info) columns) :
    List.Forall₂ (fun column source => Moves column shape.prod 1 source) columns sources := by
  have sourceCount : sources.length = (info.operandOps.zip info.operands).length := by
    simpa using (congrArg List.length bindings).symm
  have columnCount : columns.length = sources.length := by
    rw [← loaded.length_eq, sourceCount, newOperands]
    simp
  refine List.forall₂_iff_get.mpr ⟨columnCount, fun i first second => ?_⟩
  obtain ⟨attrs, loadType, isLoad, made⟩ := (List.forall₂_iff_get.mp loaded).2 i
    (loaded.length_eq ▸ first) first
  have operand : (newOperands body info).get ⟨i, loaded.length_eq ▸ first⟩ =
      freshValue body + i := by simp [newOperands]
  rw [operand] at isLoad
  obtain ⟨loadOp, binding, pair, rfl, rfl⟩ := bindingLoadOf_new materialized kernelInBody isLoad
  have inOps := (List.of_mem_zip (List.mem_of_getElem? pair)).1
  have isSource : binding = encodeBinding sources[i].1 sources[i].2 := by
    have entry := congrArg (·[i]?) bindings
    simpa [pair, second] using entry
  rw [typed loadOp inOps, isSource] at made
  exact ⟨(getColumn_place static made fun _ => 0).1, (getColumn_place static made fun _ => 0).2.1,
    fun constants => (getColumn_place static made constants).2.2⟩

/-- An export with all its columns move: those of the kernel's operands, and that of
its result. -/
structure ExportMoves (strelaExport : StrelaExport) (kernel : StrelaKernel) (n : Nat)
    (sources : List (Nat × OffsetForm)) (target : Nat × OffsetForm)
    (columns : List StrelaColumn) (output : StrelaColumn) : Prop where
  whole : strelaExport = {
    kernel
    inputs := placeColumns kernel columns 0 (List.replicate columnCount unusedColumn)
    outputs := (List.replicate columnCount unusedColumn).set kernel.outputColumn output }
  count : columns.length = kernel.inputCount
  operands : List.Forall₂ (fun column source => Moves column n 1 source) columns sources
  result : Moves output n 0 target

/-- A function that is lowered and accepted is one of a kernel, and its export moves
the dispatch tensors it loads and stores. -/
theorem exportMoves_of_function {funcOp lowered : FuncOp} {strelaExport : StrelaExport}
    (function : DispatchFunction funcOp.body) (analyzed : analyzeEntryPoint funcOp.body = .ok info)
    (kernelType : info.kernelOp.kind.strelaType = some type)
    (typed : ∀ loadOp ∈ info.operandOps, loadOp.type = type)
    (passed : materializeBindingsPass funcOp = .ok lowered)
    (accepted : getExport lowered = .ok strelaExport) :
    ∃ result kernel shape sources target columns output,
      KernelFunction funcOp.body info result kernel type shape sources target ∧
      ExportMoves strelaExport kernel shape.prod sources target columns output := by
  have materialized := materializeBindingsPass_ok analyzed passed
  obtain ⟨result, parts⟩ := analyzeEntryPoint_ok analyzed
  obtain ⟨kernelOp, kernel, type', inputs, result', output, export_⟩ := getExport_ok accepted
  have isKernel := export_kernelOp materialized export_.single
  have chosen : kernelOf info.kernelOp.kind = .ok (kernel, type') := by
    have same : kernelOp.kind = info.kernelOp.kind := by rw [isKernel]
    rw [← same]
    exact export_.chosen
  obtain rfl : type' = type := by
    rcases kernelOf_ok chosen with ⟨kind, -⟩ | ⟨kind, -⟩ <;>
    · rw [kind] at kernelType
      exact Option.some.inj kernelType
  have kernelInBody := List.mem_of_getElem? parts.kernel.there
  have resultMem := List.mem_of_head? parts.produced
  obtain rfl : result' = result := by
    have same : kernelOp.results = info.kernelOp.results := by rw [isKernel]
    have produced := export_.produced
    rw [same, parts.produced] at produced
    exact (Option.some.inj produced).symm
  have stored := exportOutput_new materialized resultMem kernelInBody export_.stored
  obtain ⟨shape, static, -, -⟩ := getColumn_ok stored
  obtain ⟨sources, places, bindings⟩ := sources_found parts.operands
  have operandsEq : kernelOp.operands = newOperands funcOp.body info := by rw [isKernel]
  have count : info.kernelOp.operands.length = kernel.inputCount := by
    rw [parts.operands.length_eq, ← export_.operands, operandsEq, newOperands]
    simp
  have matched := parts.stored.matched
  rw [matchBinding_eq] at matched
  obtain ⟨target, isTarget, encoded⟩ := Option.map_eq_some_iff.mp matched
  obtain ⟨columns, loaded, placed⟩ := exportInputs_ok export_.loaded
  have columnCount : columns.length = kernel.inputCount := by
    rw [← loaded.length_eq, export_.operands]
  rw [operandsEq] at loaded
  have stores := getColumn_place static (encoded ▸ stored)
  refine ⟨result', kernel, shape, sources, target, columns, output,
    ⟨function, parts, chosen, count, typed, static, places, isTarget⟩,
    by rw [export_.whole, placed], columnCount,
    newColumns_moves materialized kernelInBody typed static bindings loaded,
    (stores fun _ => 0).1, (stores fun _ => 0).2.1, fun constants => (stores constants).2.2⟩

end

section

variable {span : ConstByteSpan} {bindings : List BufferRef}

theorem place_createColumn (column : StrelaColumn) :
    place (createColumn column) span bindings =
      (bindingStart bindings column.binding.toNat).map fun start =>
        (start + column.start (spanConstants span)) / 4 := by
  simp only [place, bindingStart, createColumn, columnByteOffset, offsetSum_eq, StrelaColumn.start]
  cases bindings[column.binding.toNat]? with
  | none => rfl
  | some ref =>
      cases found : ref.buffer with
      | none => simp [found]
      | some base =>
          cases strela : base.allocated <;> simp [found, strela]

theorem columnWords_unused (isInput : Bool) :
    columnWords isInput span bindings (createColumn unusedColumn) = [] := by
  unfold columnWords
  cases place (createColumn unusedColumn) span bindings <;> rfl

/-- A binding that words go through is STRELA memory. -/
def Backs (bindings : List BufferRef) (n : Nat) (place : Nat × Nat) : Prop :=
  n ≠ 0 → (bindingStart bindings place.1).isSome

theorem Moves.columnWords_eq {column : StrelaColumn} {n : Nat} {stride : BitVec 32}
    {found : Nat × OffsetForm} (moves : Moves column n stride found)
    (backs : Backs bindings n (resolved (spanConstants span) found)) (isInput : Bool)
    (dense : isInput = true → stride = 1) :
    columnWords isInput span bindings (createColumn column) =
      (List.range n).map (wordAt bindings (resolved (spanConstants span) found) + ·) := by
  have count : (createColumn column).wordCount.toNat = n := moves.words
  rw [columnWords, count]
  by_cases empty : n = 0
  · subst empty
    cases place (createColumn column) span bindings <;> rfl
  have here := moves.placed (spanConstants span)
  obtain ⟨start, isStart⟩ := Option.isSome_iff_exists.mp (backs empty)
  rw [← here] at isStart ⊢
  rw [place_createColumn, isStart, Option.map_some]
  refine List.map_congr_left fun k _ => ?_
  rw [wordAt, isStart, Option.getD_some]
  cases isInput with
  | false => rfl
  | true =>
      have stride : (createColumn column).stride = 1 := moves.stride.trans (dense rfl)
      simp [stride]

/-- What a dispatch of the export goes through is what its kernel does. -/
theorem ExportMoves.exportPlan_eq {strelaExport : StrelaExport} {kernel : StrelaKernel} {n : Nat}
    {sources : List (Nat × OffsetForm)} {target : Nat × OffsetForm} {columns : List StrelaColumn}
    {output : StrelaColumn} (exportOp : ExecutableExportOp)
    (isKernel : kernel = addKernel ∨ kernel = reluKernel)
    (moves : ExportMoves strelaExport kernel n sources target columns output)
    (backed : ∀ source ∈ sources, Backs bindings n (resolved (spanConstants span) source))
    (targetBacked : Backs bindings n (resolved (spanConstants span) target)) :
    exportPlan (exportDefOf exportOp strelaExport) span bindings =
      kernelPlan kernel n (wordAt bindings (resolved (spanConstants span) target))
        (sources.map fun source => wordAt bindings (resolved (spanConstants span) source)) := by
  have out := moves.result.columnWords_eq targetBacked false (fun never => nomatch never)
  have operands := moves.operands
  have count := moves.count
  unfold exportPlan kernelPlan exportDefOf
  rw [moves.whole]
  rcases isKernel with rfl | rfl
  · obtain ⟨first, second, rfl⟩ := List.length_eq_two.mp count
    obtain ⟨lhs, rest, left, others, rfl⟩ := List.forall₂_cons_left_iff.mp operands
    obtain ⟨rhs, none_, right, last, rfl⟩ := List.forall₂_cons_left_iff.mp others
    obtain rfl := List.forall₂_nil_left_iff.mp last
    have leftWords := left.columnWords_eq (backed lhs (by simp)) true fun _ => rfl
    have rightWords := right.columnWords_eq (backed rhs (by simp)) true fun _ => rfl
    congr 1
    · funext i
      rcases i with _ | _ | _ | _ | i <;>
      simp [placeColumns, addKernel, columnCount, StrelaKernel.sourceColumns, columnWords_unused,
        leftWords, rightWords, List.lookup_cons]
    · funext o
      rcases o with _ | _ | _ | _ | o <;>
      simp [addKernel, columnCount, columnWords_unused, out]
  · obtain ⟨input, rfl⟩ := List.length_eq_one_iff.mp count
    obtain ⟨source, none_, only, last, rfl⟩ := List.forall₂_cons_left_iff.mp operands
    obtain rfl := List.forall₂_nil_left_iff.mp last
    have words := only.columnWords_eq (backed source (by simp)) true fun _ => rfl
    congr 1
    · funext i
      rcases i with _ | _ | _ | _ | i <;>
      simp [placeColumns, reluKernel, columnCount, StrelaKernel.sourceColumns, columnWords_unused,
        words]
    · funext o
      rcases o with _ | _ | _ | _ | o <;>
      simp [reluKernel, columnCount, columnWords_unused, out]

/-- What a job of the kernel leaves is what its function writes. -/
theorem outcome_applyWrites {fabric : Fabric} {kind : OpKind} {kernel : StrelaKernel}
    {type : TensorType} {n : Nat} {target : Nat × Nat} {sources : List (Nat × Nat)}
    (realizes : Realizes fabric kernel) (chosen : kernelOf kind = .ok (kernel, type))
    (count : sources.length = kernel.inputCount) (before after : Nat → BitVec 32)
    (outcome : Outcome (kernelPlan kernel n (wordAt bindings target)
      (sources.map (wordAt bindings))) (fabric kernel.bitstream) before after) :
    after = applyWrites bindings before
      (jobWrites kernel (boundMemory bindings before) n target sources) := by
  have isKernel := (kernelOf_ok chosen).imp And.right And.right
  obtain ⟨written, kept⟩ := (kernelPlan_outcome realizes isKernel
    (by rw [List.length_map, count]) before after).mp outcome
  have words (k : Nat) (inside : k < n) :
      (kernel.compute (sources.map (block (boundMemory bindings before) n)))[k]? =
        some (after (wordAt bindings target + k)) := by
    rw [compute_getElem? isKernel (by rw [List.length_map, count]), written k inside]
    exact ⟨_, by simp [block_boundMemory, inside, Function.comp_def], rfl⟩
  have length : (kernel.compute (sources.map (block (boundMemory bindings before) n))).length =
      n := by
    refine length_compute chosen (by rw [List.length_map, count]) fun tensor member => ?_
    obtain ⟨place, -, rfl⟩ := List.mem_map.mp member
    exact length_block _ n place
  have whole := applyWrites_columnWrites bindings before target
    (kernel.compute (sources.map (block (boundMemory bindings before) n)))
  rw [length] at whole
  rw [jobWrites, whole]
  funext w
  by_cases inside : wordAt bindings target ≤ w ∧ w < wordAt bindings target + n
  · have there := words (w - wordAt bindings target) (by omega)
    rw [if_pos inside.1, there, Option.getD_some]
    congr 1
    omega
  · rw [kept w inside]
    split
    · rw [List.getElem?_eq_none (by omega), Option.getD_none]
    · rfl

/-- A column the driver resolves has STRELA memory behind it. -/
theorem backs_of_resolve {st : SizeT} {column : StrelaColumn} {isInput : Bool} {c : Column}
    {n : Nat} {stride : BitVec 32} {found : Nat × OffsetForm} (moves : Moves column n stride found)
    (made : columnResolve st (createColumn column) isInput span bindings = .ok c) :
    Backs bindings n (resolved (spanConstants span) found) := by
  intro some_
  rw [← moves.placed]
  cases used : c.buffer with
  | none =>
      have empty := columnResolve_buffer st _ isInput span bindings c made used
      rw [columnResolve_wordCount st _ isInput span bindings c made] at empty
      exact absurd (moves.words.symm.trans empty) some_
  | some buffer =>
      obtain ⟨ref, base, byteOffset, spec⟩ :=
        columnResolve_spec st _ isInput span bindings c buffer made used
      have bound : bindings[column.binding.toNat]? = some ref := spec.bound
      simp [bindingStart, bound, spec.present, spec.strela]

end

/-- An export the compiler makes of a function. -/
structure Compiled (funcOp : FuncOp) (info : StrelaEntryPointInfo) (type : TensorType)
    (exportDef : ExportDef) : Prop where
  function : DispatchFunction funcOp.body
  analyzed : analyzeEntryPoint funcOp.body = .ok info
  kernelType : info.kernelOp.kind.strelaType = some type
  serialized : ∃ lowered strelaExport exportOp, materializeBindingsPass funcOp = .ok lowered ∧
    getExport lowered = .ok strelaExport ∧ exportDef = exportDefOf exportOp strelaExport

/-- The compiler takes the kernel's operands for whole tensors of its type, at offsets that
are what it makes of them. It does not check all of that. -/
structure Direct (body : Body OpKind) (info : StrelaEntryPointInfo) (type : TensorType) : Prop where
  typed : ∀ loadOp ∈ info.operandOps, loadOp.type = type
  found : ∀ access ∈ info.accesses, ExactBinding body access.dispatchTensor

/-- An operand of the kernel that starts before the result in STRELA memory, and reaches
into it. -/
def Hazardous (body : Body OpKind) (info : StrelaEntryPointInfo) (type : TensorType)
    (span : ConstByteSpan) (bindings : List BufferRef) : Prop :=
  ∃ loadOp ∈ info.operandOps, ∃ source target shape, bindingForm body loadOp.source = some source ∧
    bindingForm body info.resultOp.target = some target ∧ type.staticShape = some shape ∧
    Hazard shape.prod (wordAt bindings (located (spanConstants span) target))
      (wordAt bindings (located (spanConstants span) source))

section

variable {fabric : Fabric} {st : SizeT} {funcOp : FuncOp} {info : StrelaEntryPointInfo}
  {type : TensorType} {exportDef : ExportDef}

/-- Every column of an export that resolves has STRELA memory behind it. -/
theorem ExportMoves.backed {strelaExport : StrelaExport} {kind : OpKind} {kernel : StrelaKernel}
    {n : Nat} {sources : List (Nat × OffsetForm)} {target : Nat × OffsetForm}
    {columns : List StrelaColumn} {output : StrelaColumn} (exportOp : ExecutableExportOp)
    (chosen : kernelOf kind = .ok (kernel, type))
    (moves : ExportMoves strelaExport kernel n sources target columns output)
    {span : ConstByteSpan} {bindings : List BufferRef}
    (resolves : ∀ c < columnCount, ∃ input result,
      Runtime.Jobs.ColumnResolves st (exportDefOf exportOp strelaExport) span bindings c
        input result) :
    (∀ source ∈ sources, Backs bindings n (resolved (spanConstants span) source)) ∧
      Backs bindings n (resolved (spanConstants span) target) := by
  have input (c : Nat) (column : StrelaColumn) (source : Nat × OffsetForm) (below : c < columnCount)
      (there : (exportDefOf exportOp strelaExport).inputs[c]? = some (createColumn column))
      (operand : Moves column n 1 source) :
      Backs bindings n (resolved (spanConstants span) source) := by
    obtain ⟨_, -, ⟨_, known, made⟩, -⟩ := resolves c below
    cases there.symm.trans known
    exact backs_of_resolve operand made
  constructor
  · have operands := moves.operands
    have count := moves.count
    have inputs : strelaExport.inputs =
        placeColumns kernel columns 0 (List.replicate columnCount unusedColumn) := by
      rw [moves.whole]
    rcases kernelOf_ok chosen with ⟨-, rfl⟩ | ⟨-, rfl⟩
    · obtain ⟨first, second, rfl⟩ := List.length_eq_two.mp count
      obtain ⟨lhs, rest, left, others, rfl⟩ := List.forall₂_cons_left_iff.mp operands
      obtain ⟨rhs, none_, right, last, rfl⟩ := List.forall₂_cons_left_iff.mp others
      obtain rfl := List.forall₂_nil_left_iff.mp last
      simp only [List.mem_cons, List.not_mem_nil, or_false, forall_eq_or_imp, forall_eq]
      exact ⟨input 0 first lhs (by decide) (by rw [exportDefOf, inputs]; rfl) left,
        input 1 second rhs (by decide) (by rw [exportDefOf, inputs]; rfl) right⟩
    · obtain ⟨only, rfl⟩ := List.length_eq_one_iff.mp count
      obtain ⟨source, none_, move, last, rfl⟩ := List.forall₂_cons_left_iff.mp operands
      obtain rfl := List.forall₂_nil_left_iff.mp last
      simp only [List.mem_cons, List.not_mem_nil, or_false, forall_eq]
      exact input 0 only source (by decide) (by rw [exportDefOf, inputs]; rfl) move
  · obtain ⟨_, _, -, ⟨_, known, made⟩⟩ := resolves _ (outputColumn_lt chosen)
    have there : (exportDefOf exportOp strelaExport).outputs[kernel.outputColumn]? =
        some (createColumn output) := by
      rw [exportDefOf, moves.whole]
      rcases kernelOf_ok chosen with ⟨-, rfl⟩ | ⟨-, rfl⟩ <;> rfl
    cases there.symm.trans known
    exact backs_of_resolve moves.result made

/-- What a dispatch goes through, and what is to come of it, when the driver accepts its
columns. -/
theorem Compiled.outcome (others : OpKind → List Val → List Val)
    (compiled : Compiled funcOp info type exportDef) (direct : Direct funcOp.body info type)
    (realizes : ∀ kernel, kernelOf info.kernelOp.kind = .ok (kernel, type) → Realizes fabric kernel)
    {span : ConstByteSpan} {bindings : List BufferRef}
    (resolves : ∀ c < columnCount, ∃ input result,
      Runtime.Jobs.ColumnResolves st exportDef span bindings c input result)
    (apart : ¬ Hazardous funcOp.body info type span bindings) :
    Streamable fabric exportDef.bitstream (exportPlan exportDef span bindings) ∧
      ∀ before after, Outcome (exportPlan exportDef span bindings) (fabric exportDef.bitstream)
          before after →
        (∀ access ∈ info.accesses, access.FullExtent (runDispatch (spanConstants span) others
          funcOp.body (boundMemory bindings before)).1 type) →
        OtherStoresIdle funcOp.body (runDispatch (spanConstants span) others funcOp.body
          (boundMemory bindings before)).1 info.resultOp →
        after = applyWrites bindings before (runDispatch (spanConstants span) others funcOp.body
          (boundMemory bindings before)).2.writes := by
  obtain ⟨lowered, strelaExport, exportOp, passed, accepted, rfl⟩ := compiled.serialized
  obtain ⟨result, kernel, shape, sources, target, columns, output, kernelFunction, moves⟩ :=
    exportMoves_of_function compiled.function compiled.analyzed compiled.kernelType direct.typed
      passed accepted
  have chosen := kernelFunction.chosen
  have isKernel := (kernelOf_ok chosen).imp And.right And.right
  have fabricRealizes := realizes kernel chosen
  obtain ⟨backed, targetBacked⟩ := moves.backed exportOp chosen resolves
  have plan := moves.exportPlan_eq exportOp isKernel backed targetBacked
  have bitstream : (exportDefOf exportOp strelaExport).bitstream = kernel.bitstream := by
    rw [exportDefOf, moves.whole]
  have count : sources.length = kernel.inputCount := moves.operands.length_eq ▸ moves.count
  obtain ⟨sourcesExact, targetExact⟩ := (exactBinding_iff kernelFunction).mp direct.found
  have safe : ∀ source ∈ sources.map fun source =>
        wordAt bindings (resolved (spanConstants span) source),
      ¬ Hazard shape.prod (wordAt bindings (resolved (spanConstants span) target)) source := by
    intro place member hazard
    obtain ⟨source, among, rfl⟩ := List.mem_map.mp member
    have there := List.mem_map_of_mem (f := some) among
    rw [← kernelFunction.sourcesFound] at there
    obtain ⟨p, pair, isSource⟩ := List.mem_map.mp there
    rw [← targetExact.located_eq, ← (sourcesExact source among).located_eq] at hazard
    exact apart ⟨p.1, (List.of_mem_zip pair).1, source, target, shape, isSource,
      kernelFunction.targetFound, kernelFunction.static, hazard⟩
  rw [plan, bitstream]
  refine ⟨⟨fabricRealizes.steady, kernelPlan_apart,
      kernelPlan_ordered fabricRealizes isKernel safe⟩,
    fun before after outcome full idle => ?_⟩
  rw [show sources.map (fun source => wordAt bindings (resolved (spanConstants span) source)) =
    (sources.map (resolved (spanConstants span))).map (wordAt bindings) by
      rw [List.map_map]; rfl] at outcome
  have writes := (dispatch_writes kernelFunction (spanConstants span) others
    (boundMemory bindings before) full).2 idle
  rw [outcome_applyWrites fabricRealizes chosen (by rw [List.length_map, count]) before
      after outcome,
    writes, targetExact.located_eq]
  congr 2
  exact List.map_congr_left fun source among => ((sourcesExact source among).located_eq _).symm

end

theorem resolveColumns_of_dispatch {fabric : Fabric} {st : SizeT} {executable : Executable}
    {function : BitVec 64} {export_ : Export} {span : ConstByteSpan} {bindings : List BufferRef}
    {b b' : Board} (known : executable.exports[function.toNat]? = some export_)
    (dispatched : Run (Step fabric) (commandBufferDispatch st executable function span bindings)
      b (.ok ()) b') :
    ∃ columns, resolveColumns st export_.exportDef.inputs export_.exportDef.outputs span bindings
      (List.range columnCount) = .ok columns := by
  unfold commandBufferDispatch at dispatched
  rw [known] at dispatched
  dsimp only at dispatched
  split at dispatched
  · cases ((CallProgram.run_ret_iff _ _ _ _).mp dispatched).1
  · exact ⟨_, by assumption⟩

/-- On a board that represents a flat memory, a dispatch leaves there what its function does. -/
theorem Compiled.dispatched {fabric : Fabric} {st : SizeT} {init : Nat → BitVec 32} {s : Session}
    {f : Flat} (represents : Represents init s f) {executable : Executable}
    (held : executable ∈ s.executables) {function : BitVec 64} {export_ : Export}
    (known : executable.exports[function.toNat]? = some export_)
    {others : OpKind → List Val → List Val} {funcOp : FuncOp} {info : StrelaEntryPointInfo}
    {type : TensorType} (compiled : Compiled funcOp info type export_.exportDef)
    (direct : Direct funcOp.body info type)
    (realizes : ∀ kernel, kernelOf info.kernelOp.kind = .ok (kernel, type) → Realizes fabric kernel)
    {span : ConstByteSpan} {bindings : List BufferRef}
    (dispatchable : Dispatchable st s.buffers export_.exportDef span bindings)
    (full : ∀ access ∈ info.accesses, access.FullExtent (runDispatch (spanConstants span) others
      funcOp.body (boundMemory bindings (view lineOf s.board.machine.cache))).1 type)
    (idle : OtherStoresIdle funcOp.body (runDispatch (spanConstants span) others funcOp.body
      (boundMemory bindings (view lineOf s.board.machine.cache))).1 info.resultOp)
    (apart : ¬ Hazardous funcOp.body info type span bindings) {b : Board}
    (run : Run (Step fabric) (commandBufferDispatch st executable function span bindings)
      s.board (.ok ()) b) :
    ∀ w, view lineOf b.machine.cache w =
      applyWrites bindings (view lineOf s.board.machine.cache)
        (runDispatch (spanConstants span) others funcOp.body
          (boundMemory bindings (view lineOf s.board.machine.cache))).2.writes w := by
  obtain ⟨columns, resolved⟩ := resolveColumns_of_dispatch known run
  obtain ⟨-, each⟩ := Jobs.resolveColumns_range st export_.exportDef span bindings columns resolved
  obtain ⟨streamable, outcome⟩ := compiled.outcome others direct realizes (fun c below => by
    obtain ⟨input, result, -, resolves⟩ := each c below
    exact ⟨input, result, resolves⟩) apart
  have machine := commandBufferDispatch_triple st s.buffers represents.lined executable
    function span
    bindings (fun e found => Option.some.inj (known.symm.trans found) ▸ dispatchable) _ _ _
    represents.machine (run_machine run) rfl
  have done := commandBufferDispatch_done st s.buffers executable function span bindings export_
    known ⟨dispatchable, streamable⟩ _ _ _
    (represents.ready held (List.mem_of_getElem? known)) run rfl
  have before : view lineOf s.board.machine.cache = f.contents :=
    represents.view.trans represents.contents
  intro w
  rw [before] at full idle ⊢
  rw [machine.coherent.cache w id]
  exact congrFun (outcome _ _ (done.contents machine.reads) full idle) w

/-- Whatever a program did before, and however caches and columns interleave, a dispatch
leaves in memory what its function does, as the host sees them before and after: if the
function moves whole tensors and stores nothing besides, and no operand is hazardous. -/
theorem compiled_dispatch_on_board (fabric : Fabric) (st : SizeT) (init : Nat → BitVec 32)
    (s s' : Session) (fresh : Fresh init s) (events : List Event)
    (run : Trace (Op fabric st) s events s') (executable : Executable)
    (held : executable ∈ s'.executables) (function : BitVec 64) (export_ : Export)
    (known : executable.exports[function.toNat]? = some export_)
    (others : OpKind → List Val → List Val) (funcOp : FuncOp) (info : StrelaEntryPointInfo)
    (type : TensorType) (compiled : Compiled funcOp info type export_.exportDef)
    (direct : Direct funcOp.body info type)
    (realizes : ∀ kernel, kernelOf info.kernelOp.kind = .ok (kernel, type) → Realizes fabric kernel)
    (span : ConstByteSpan) (bindings : List BufferRef)
    (dispatchable : Dispatchable st s'.buffers export_.exportDef span bindings)
    (full : ∀ access ∈ info.accesses, access.FullExtent (runDispatch (spanConstants span) others
      funcOp.body (boundMemory bindings (view lineOf s'.board.machine.cache))).1 type)
    (idle : OtherStoresIdle funcOp.body (runDispatch (spanConstants span) others funcOp.body
      (boundMemory bindings (view lineOf s'.board.machine.cache))).1 info.resultOp)
    (apart : ¬ Hazardous funcOp.body info type span bindings) (b : Board)
    (dispatched : Run (Step fabric) (commandBufferDispatch st executable function span bindings)
      s'.board (.ok ()) b) :
    ∀ w, view lineOf b.machine.cache w =
      applyWrites bindings (view lineOf s'.board.machine.cache)
        (runDispatch (spanConstants span) others funcOp.body
          (boundMemory bindings (view lineOf s'.board.machine.cache))).2.writes w := by
  obtain ⟨f, -, represents⟩ := (simulates fabric st init).trace run fresh.represents
  exact compiled.dispatched represents held known direct realizes dispatchable full idle apart
    dispatched

/-- The export of `strela.relu` on a vector of 4. -/
def rowDef : ExportDef := exportDefOf ⟨"relu", some 0, 0, 2⟩ rowExport

/-- `strela.relu` in place: the job has all its words in before the first goes out. -/
theorem row_dispatched (m : Coherence.Machine) : ∃ b, Run (Step documentedFabric)
    (commandBufferDispatch .bits32 (singleExecutable rowDef) 0 ⟨[]⟩ [sampleRef, sampleRef])
    { singleBoard rowDef [0x1000, 0x2000] with machine := m } (.ok ()) b := by
  refine exists_call () (quiet_step rfl ⟨none, rfl⟩ ⟨rfl, rfl, rfl⟩) ?_
  refine exists_call true (quiet_step rfl ⟨rfl, rfl⟩ ⟨rfl, rfl, rfl⟩) ?_
  refine exists_call () (quiet_step rfl ⟨none, rfl⟩ ⟨rfl, rfl, rfl⟩) ?_
  refine exists_call true (quiet_step rfl ⟨rfl, rfl⟩ ⟨rfl, rfl, rfl⟩) ?_
  refine exists_call (⟨true, 0⟩ : StrelaJob) (quiet_step rfl ⟨none, rfl⟩ ⟨rfl, rfl, rfl⟩) ?_
  refine exists_call () (quiet_step (Or.inr ⟨_, rfl, rfl⟩) ⟨none, rfl⟩ ⟨rfl, rfl, rfl⟩) ?_
  refine exists_call () (show Step documentedFabric _ _ _ ⟨_, _, _, _, _⟩ from
    ⟨_, ((((((((Relation.ReflTransGen.single (.read _ _ _ 0 32 rfl rfl)).tail
      (.read _ _ _ 0 33 rfl rfl)).tail (.read _ _ _ 0 34 rfl rfl)).tail
      (.read _ _ _ 0 35 rfl rfl)).tail (.write _ _ _ _ 0 32 _ rfl rfl rfl rfl)).tail
      (.write _ _ _ _ 0 33 _ rfl rfl rfl rfl)).tail (.write _ _ _ _ 0 34 _ rfl rfl rfl rfl)).tail
      (.write _ _ _ _ 0 35 _ rfl rfl rfl rfl)),
    Or.inr ⟨_, rfl, rfl⟩, ⟨none, rfl⟩, rfl, rfl, rfl⟩) ?_
  refine exists_call true (quiet_step rfl ⟨rfl, rfl⟩ ⟨rfl, rfl, rfl⟩) ?_
  refine exists_call StrelaJobState.ok (quiet_step ⟨rfl, fun _ _ busy => nomatch busy⟩ ⟨none, rfl⟩
    ⟨⟨rfl, rfl, rfl⟩, fun _ conf configured o => ?_⟩) ?_
  · cases configured
    rcases o with _ | _ | _ | _ | o <;> rfl
  refine exists_call true (quiet_step rfl ⟨rfl, rfl⟩ ⟨rfl, rfl, rfl⟩) ?_
  refine exists_call () (quiet_step rfl ⟨none, rfl⟩ ⟨rfl, rfl, rfl⟩) ?_
  refine exists_call true (quiet_step rfl ⟨rfl, rfl⟩ ⟨rfl, rfl, rfl⟩) ?_
  refine exists_call () (quiet_step rfl ⟨none, rfl⟩ ⟨rfl, rfl, rfl⟩) ?_
  refine exists_call () (quiet_step rfl ⟨none, rfl⟩ ⟨rfl, rfl, rfl⟩) ?_
  refine exists_call true (quiet_step rfl ⟨rfl, rfl⟩ ⟨rfl, rfl, rfl⟩) ?_
  exact ⟨_, .ret _ _⟩

theorem rowDef_compiled : Compiled (rowFunc []) rowInfo rowType rowDef where
  function := rowFunc_dispatch [] (Or.inl rfl)
  analyzed := rfl
  kernelType := rfl
  serialized := ⟨⟨"relu", rowKernel⟩, rowExport, _, rfl, rfl, rfl⟩

theorem row_full (constants : Nat → BitVec 32) (memory : Nat → Nat → BitVec 32) :
    ∀ access ∈ rowInfo.accesses, access.FullExtent
      (runDispatch constants (fun _ _ => []) (rowFunc []).body memory).1 rowType := by
  intro access member
  simp only [rowInfo, StrelaEntryPointInfo.accesses, List.map_cons, List.map_nil,
    List.cons_append, List.nil_append, List.mem_cons, List.not_mem_nil, or_false] at member
  rcases member with rfl | rfl <;>
  exact ⟨⟨rfl, rfl, rfl⟩, rfl, fun shape static => by cases static; rfl⟩

theorem row_idle (constants : Nat → BitVec 32) (memory : Nat → Nat → BitVec 32) :
    OtherStoresIdle (rowFunc []).body
      (runDispatch constants (fun _ _ => []) (rowFunc []).body memory).1 rowInfo.resultOp := by
  intro op member other
  simp only [rowFunc, List.append_nil, List.mem_cons, List.not_mem_nil, or_false] at member
  rcases member with rfl | rfl | rfl | rfl | rfl | rfl
  all_goals first | rfl | exact absurd rfl other

theorem row_direct : Direct (rowFunc []).body rowInfo rowType where
  typed := by simp [rowInfo]
  found access member found isFound := by
    simp only [rowInfo, StrelaEntryPointInfo.accesses, List.map_cons, List.map_nil,
      List.cons_append, List.nil_append, List.mem_cons, List.not_mem_nil, or_false] at member
    rcases member with rfl | rfl <;>
    · cases isFound
      exact ⟨by decide, trivial, trivial⟩

theorem rowDef_dispatchable :
    Dispatchable .bits32 [sampleAllocated] rowDef ⟨[]⟩ [sampleRef, sampleRef] := by
  refine ⟨?_, ?_, ?_, ?_⟩
  · simpa using sampleRef_valid .bits32
  · intro ref member base buffer present strela
    simp only [List.mem_cons, List.not_mem_nil, or_false, or_self] at member
    subst member
    cases present
    cases strela
    exact List.mem_cons_self
  · unfold Coherence.Fits NoWrap
    decide
  · unfold Coherence.Fits NoWrap
    decide

/-- The program so far: it has created the executable, allocated a buffer and written a word. -/
theorem row_session : Trace (Op documentedFabric .bits32) sampleSession
    [.create 0x2000 (singleData rowDef).root, .write 32 7]
    ⟨{ singleBoard rowDef [0x1000, 0x2000] with
        machine := sampleSession.board.machine.cpuWrite 32 7 },
      [singleExecutable rowDef], [sampleAllocated]⟩ := by
  refine .visible _ (.create (s := sampleSession) _ _ _ (single_created _ rowDef rfl)) ?_
  refine .silent (.allocate (s := ⟨_, _, _⟩) _ _ _ (single_allocated _ rowDef)) ?_
  exact .visible _ (.cpuWrite (s := ⟨_, _, _⟩) sampleAllocated 16 7 _ List.mem_cons_self
    (by decide) .refl) (.nil _)

theorem row_realizes (kernel : StrelaKernel)
    (chosen : kernelOf rowInfo.kernelOp.kind = .ok (kernel, rowType)) :
    Realizes documentedFabric kernel :=
  documentedFabric_realizes ((kernelOf_ok chosen).imp And.right And.right)

theorem row_apart :
    ¬ Hazardous (rowFunc []).body rowInfo rowType ⟨[]⟩ [sampleRef, sampleRef] := by
  rintro ⟨loadOp, member, source, target, shape, isSource, isTarget, static, hazard⟩
  obtain rfl := List.mem_singleton.mp member
  cases isSource
  cases isTarget
  exact absurd hazard.1 (by decide)

theorem compiled_dispatch_on_board_sample : ∃ s b : Board,
    Run (Step documentedFabric)
      (commandBufferDispatch .bits32 (singleExecutable rowDef) 0 ⟨[]⟩ [sampleRef, sampleRef])
      s (.ok ()) b ∧
    ∀ w, view lineOf b.machine.cache w =
      applyWrites [sampleRef, sampleRef] (view lineOf s.machine.cache)
        (runDispatch (spanConstants ⟨[]⟩) (fun _ _ => []) (rowFunc []).body
          (boundMemory [sampleRef, sampleRef] (view lineOf s.machine.cache))).2.writes w := by
  obtain ⟨b, dispatched⟩ := row_dispatched (sampleSession.board.machine.cpuWrite 32 7)
  refine ⟨_, b, dispatched, ?_⟩
  exact compiled_dispatch_on_board documentedFabric .bits32 _ _ _ sampleSession_fresh _ row_session
    (singleExecutable rowDef) List.mem_cons_self 0 _ rfl (fun _ _ => [])
    (rowFunc []) rowInfo rowType
    rowDef_compiled row_direct row_realizes ⟨[]⟩ [sampleRef, sampleRef] rowDef_dispatchable
    (row_full _ _) (row_idle _ _) row_apart b dispatched

end Estela.Compiler
