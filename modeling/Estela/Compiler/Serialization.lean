import Estela.Compiler.StrelaTarget

set_option autoImplicit false

/- What the compiler serializes, read back by the runtime. -/
namespace Estela.Compiler

open Ssa (Op Body definingOp uses)
open CallProgram
open Estela.Runtime hiding StrelaKernel

/-- The attributes of the binding ops of a function. -/
def bindingAttrsOf (body : Body OpKind) : List BindingAttrs :=
  body.filterMap fun op => match op.kind with
    | .bindingLoad attrs _ => some attrs
    | .bindingStore attrs => some attrs
    | _ => none

/-- What the HAL and the verifier of the binding ops promise of one of them,
under the layout of its export. -/
structure Promised (exportOp : ExecutableExportOp) (attrs : BindingAttrs) : Prop where
  binding : attrs.binding.toNat < exportOp.bindings
  ordinals : ∀ ordinal ∈ attrs.offsets.getD [], ordinal.toNat < exportOp.constants
  aligned : attrs.byteOffset.getD 0 % BitVec.ofNat 64 wordBytes = 0
  verified : verifyBindingOffsets attrs.offsets attrs.byteOffset = .ok ()

/-- The layout of an executable variant as the HAL hands it to a backend. -/
structure HalVariant (variantOp : ExecutableVariantOp) (funcs : List FuncOp) : Prop where
  innerModule : variantOp.innerModule = some funcs
  ordinals : (variantOp.exports.map ExecutableExportOp.ordinal).Perm
    ((List.range variantOp.exports.length).map some)
  names : (variantOp.exports.map ExecutableExportOp.symName).Nodup
  promised : ∀ exportOp ∈ variantOp.exports, ∀ funcOp,
    funcs.find? (·.symName = exportOp.symName) = some funcOp →
      ∀ attrs ∈ bindingAttrsOf funcOp.body, Promised exportOp attrs

/-- A column in use is one of the binding ops, with nothing cut off its attributes. -/
structure Describes (column : ColumnDef) (attrs : BindingAttrs) (type : TensorType)
    (stride : BitVec 32) : Prop where
  binding : column.binding.toNat = attrs.binding.toNat
  byteOffset : column.byteOffset = attrs.byteOffset.getD 0
  ordinals : column.offsetConstants.map BitVec.toNat = (attrs.offsets.getD []).map BitVec.toNat
  wordCount : ∃ shape, type.staticShape = some shape ∧ column.wordCount.toNat = shape.prod
  stride : column.stride = stride

/-- An `ExportDef` holds all there is to its export op. -/
structure ReadsBack (exportOp : ExecutableExportOp) (funcOp : FuncOp) (strelaExport : StrelaExport)
    (exportDef : ExportDef) : Prop where
  name : exportDef.name = some exportOp.symName
  bitstream : exportDef.bitstream = strelaExport.kernel.bitstream ∧
    exportDef.bitstream.length = strelaKernelSize
  constantCount : exportDef.constantCount.toNat = exportOp.constants
  bindingCount : exportDef.bindingCount.toNat = exportOp.bindings
  inputs : exportDef.inputs = strelaExport.inputs.map createColumn ∧
    exportDef.inputs.length = columnCount
  outputs : exportDef.outputs = strelaExport.outputs.map createColumn ∧
    exportDef.outputs.length = columnCount
  columns : ∀ column ∈ exportDef.inputs ++ exportDef.outputs, column = createColumn unusedColumn ∨
    ∃ attrs ∈ bindingAttrsOf funcOp.body, ∃ type stride, Describes column attrs type stride

/-- The counts of a layout fit the fields of an `ExportDef`. -/
def ExecutableExportOp.Narrow (exportOp : ExecutableExportOp) : Prop :=
  exportOp.constants < 2 ^ 32 ∧ exportOp.bindings < 2 ^ 32

/-- `getColumn` of some binding op of the function, or the unused column. -/
def FromBindingOp (body : Body OpKind) (column : StrelaColumn) : Prop :=
  column = unusedColumn ∨ ∃ attrs ∈ bindingAttrsOf body, ∃ type stride,
    getColumn attrs type stride = .ok column

theorem bindingLoadOf_mem {body : Body OpKind} {operand : Nat} {attrs : BindingAttrs}
    {type : TensorType} (found : bindingLoadOf body operand = some (attrs, type)) :
    attrs ∈ bindingAttrsOf body := by
  unfold bindingLoadOf at found
  split at found
  · rename_i attrs' type' operands results i defined
    cases found
    obtain ⟨before, after, rfl, -, -⟩ := Ssa.definingOp_split defined
    simp [bindingAttrsOf]
  · cases found

theorem exportInputs_spec (body : Body OpKind) (kernel : StrelaKernel) (operands : List Nat)
    (i : Nat) (inputs result : List StrelaColumn)
    (before : ∀ column ∈ inputs, FromBindingOp body column)
    (got : exportInputs body kernel operands i inputs = .ok result) :
    result.length = inputs.length ∧ ∀ column ∈ result, FromBindingOp body column := by
  induction operands generalizing i inputs with
  | nil =>
      cases got
      exact ⟨rfl, before⟩
  | cons operand rest ih =>
      simp only [exportInputs, bind, Except.bind] at got
      split at got
      case h_2 => cases got
      rename_i attrs type found
      split at got
      · cases got
      rename_i column made
      have after : ∀ c ∈ inputs.set (kernel.inputColumns.getD i 0) column,
          FromBindingOp body c := by
        intro c member
        rcases List.mem_or_eq_of_mem_set member with old | rfl
        · exact before c old
        · exact Or.inr ⟨attrs, bindingLoadOf_mem found, type, 1, made⟩
      obtain ⟨length, columns⟩ := ih _ _ after got
      exact ⟨by rw [length, List.length_set], columns⟩

theorem exportOutput_spec (body : Body OpKind) (result : Nat) (type : TensorType)
    (column : StrelaColumn)
    (got : exportOutput body result type = .ok column) : FromBindingOp body column := by
  simp only [exportOutput, bind, Except.bind] at got
  split at got
  · cases got
  · split at got
    · rename_i attrs operands results found
      refine Or.inr ⟨attrs, ?_, type, 0, got⟩
      exact List.mem_filterMap.mpr ⟨_, List.mem_of_find?_eq_some found, rfl⟩
    · cases got

theorem getExport_spec (funcOp : FuncOp) (strelaExport : StrelaExport)
    (got : getExport funcOp = .ok strelaExport) :
    strelaExport.kernel.bitstream.length = strelaKernelSize ∧
      strelaExport.inputs.length = columnCount ∧ strelaExport.outputs.length = columnCount ∧
      ∀ column ∈ strelaExport.inputs ++ strelaExport.outputs, FromBindingOp funcOp.body column := by
  obtain ⟨kernelOp, kernel, type, inputs, result, output, parts⟩ := getExport_ok got
  have unused : ∀ column ∈ List.replicate columnCount unusedColumn,
      FromBindingOp funcOp.body column :=
      fun column member => Or.inl (List.eq_of_mem_replicate member)
  obtain ⟨length, columns⟩ := exportInputs_spec _ _ _ _ _ _ unused parts.loaded
  have outputColumn := exportOutput_spec _ _ _ _ parts.stored
  rw [parts.whole]
  refine ⟨?_, by simpa using length, by simp, ?_⟩
  · rcases kernelOf_ok parts.chosen with ⟨-, rfl⟩ | ⟨-, rfl⟩ <;> rfl
  · intro column member
    rcases List.mem_append.mp member with input | output
    · exact columns column input
    · rcases List.mem_or_eq_of_mem_set output with old | rfl
      · exact unused column old
      · exact outputColumn

section

variable {exportOp : ExecutableExportOp} {attrs : BindingAttrs}

/-- Under a layout that fits its fields, no attribute loses bits on the way. -/
theorem Promised.describes (promised : Promised exportOp attrs) (narrow : exportOp.Narrow)
    {type : TensorType} {stride : BitVec 32} {column : StrelaColumn}
    (got : getColumn attrs type stride = .ok column) :
    Describes (createColumn column) attrs type stride := by
  obtain ⟨shape, static, small, rfl⟩ := getColumn_ok got
  have binding := promised.binding
  obtain ⟨constants, bindings⟩ := narrow
  refine ⟨?_, rfl, ?_, ⟨shape, static, ?_⟩, rfl⟩
  · simp only [createColumn, BitVec.toNat_setWidth]
    exact Nat.mod_eq_of_lt (by omega)
  · simp only [createColumn, List.map_map]
    refine List.map_congr_left (fun ordinal member => ?_)
    have small := promised.ordinals ordinal member
    simp only [Function.comp, BitVec.toNat_setWidth]
    exact Nat.mod_eq_of_lt (by omega)
  · have bound : strelaMaxColumnWords < 2 ^ 32 := by decide
    simp only [createColumn, BitVec.toNat_ofNat]
    exact Nat.mod_eq_of_lt (by omega)

theorem Promised.offsets_length (promised : Promised exportOp attrs) :
    (attrs.offsets.getD []).length ≤ 2 := by
  have verified := promised.verified
  unfold verifyBindingOffsets at verified
  split at verified
  · cases verified
  · rename_i sizes
    cases offsets : attrs.offsets with
    | none => simp
    | some ordinals =>
        simp only [offsets, Option.any_some, decide_eq_true_eq] at sizes
        simp only [Option.getD_some]
        omega

theorem offsetConstantsVerify_ok (constantCount : BitVec 32) (ordinals : List (BitVec 32))
    (inside : ∀ ordinal ∈ ordinals, ordinal.toNat < constantCount.toNat) :
    offsetConstantsVerify constantCount ordinals = .ok () := by
  induction ordinals with
  | nil => rfl
  | cons ordinal rest ih =>
      have here := inside ordinal List.mem_cons_self
      have notPast : ¬ ordinal ≥ constantCount := BitVec.not_le.mpr (BitVec.lt_def.mpr here)
      rw [offsetConstantsVerify, if_neg notPast]
      exact ih (fun o member => inside o (List.mem_cons_of_mem _ member))

/-- The runtime accepts what it is promised. -/
theorem Promised.columnVerify (promised : Promised exportOp attrs) (narrow : exportOp.Narrow)
    {type : TensorType} {stride : BitVec 32} {column : StrelaColumn}
    (got : getColumn attrs type stride = .ok column) :
    columnVerify (createColumn column) (BitVec.ofNat 32 exportOp.bindings)
      (BitVec.ofNat 32 exportOp.constants) = .ok () := by
  have exact_ := promised.describes narrow got
  obtain ⟨constants, bindings⟩ := narrow
  have binding := promised.binding
  unfold Estela.Runtime.columnVerify
  split
  · rfl
  rw [if_neg, if_neg, if_neg]
  · refine offsetConstantsVerify_ok _ _ (fun ordinal member => ?_)
    have mapped := List.mem_map_of_mem (f := BitVec.toNat) member
    rw [exact_.ordinals] at mapped
    obtain ⟨original, known, same⟩ := List.mem_map.mp mapped
    have small := promised.ordinals original known
    rw [BitVec.toNat_ofNat, Nat.mod_eq_of_lt constants]
    omega
  · have length := congrArg List.length exact_.ordinals
    simp only [List.length_map] at length
    have two := promised.offsets_length
    omega
  · rw [exact_.byteOffset]
    exact fun unaligned => unaligned promised.aligned
  · rw [ge_iff_le, BitVec.le_def, exact_.binding, BitVec.toNat_ofNat, Nat.mod_eq_of_lt bindings]
    omega

end

theorem columnVerify_unused (bindingCount constantCount : BitVec 32) :
    columnVerify (createColumn unusedColumn) bindingCount constantCount = .ok () := rfl

theorem columnsVerify_ok (inputs outputs : List ColumnDef) (bindingCount constantCount : BitVec 32)
    (indices : List Nat) (length : ∀ c ∈ indices, c < inputs.length ∧ c < outputs.length)
    (columns : ∀ column ∈ inputs ++ outputs,
      columnVerify column bindingCount constantCount = .ok ()) :
    columnsVerify inputs outputs bindingCount constantCount indices = .ok () := by
  induction indices with
  | nil => rfl
  | cons c rest ih =>
      obtain ⟨input, output⟩ := length c List.mem_cons_self
      have inputFound := (vecAt_eq_ok "inputs" inputs c _).mpr (List.getElem?_eq_getElem input)
      have outputFound := (vecAt_eq_ok "outputs" outputs c _).mpr (List.getElem?_eq_getElem output)
      have inputOk := columns _ (List.mem_append_left _ (List.getElem_mem input))
      have outputOk := columns _ (List.mem_append_right _ (List.getElem_mem output))
      simp only [columnsVerify, bind, Except.bind, inputFound, outputFound, inputOk, outputOk]
      exact ih (fun c member => length c (List.mem_cons_of_mem _ member))

/-- What `serializeExports` took into account for one export op. -/
structure Serialized (funcs : List FuncOp) (exportOp : ExecutableExportOp) (k : Nat)
    (funcOp : FuncOp) (strelaExport : StrelaExport) : Prop where
  ordinal : exportOp.ordinal = some k
  found : funcs.find? (·.symName = exportOp.symName) = some funcOp
  got : getExport funcOp = .ok strelaExport

/-- Slots are filled by ordinal, whatever the order of the ops. -/
theorem serializeExports_spec (funcs : List FuncOp) (exports : List ExecutableExportOp)
    (exportRefs result : List (Option ExportDef))
    (distinct : (exports.map ExecutableExportOp.ordinal).Nodup)
    (inside : ∀ exportOp ∈ exports, ∀ k, exportOp.ordinal = some k → k < exportRefs.length)
    (got : serializeExports funcs exports exportRefs = .ok result) :
    result.length = exportRefs.length ∧
      (∀ k, some k ∉ exports.map ExecutableExportOp.ordinal → result[k]? = exportRefs[k]?) ∧
      ∀ exportOp ∈ exports, ∃ k funcOp strelaExport,
        Serialized funcs exportOp k funcOp strelaExport ∧
          result[k]? = some (some (exportDefOf exportOp strelaExport)) := by
  induction exports generalizing exportRefs with
  | nil =>
      cases got
      exact ⟨rfl, fun _ _ => rfl, fun _ none => nomatch none⟩
  | cons exportOp rest ih =>
      simp only [serializeExports, bind, Except.bind] at got
      split at got
      case h_2 => cases got
      rename_i ordinal ordinalFound
      split at got
      case h_2 => cases got
      rename_i funcOp funcFound
      split at got
      · cases got
      rename_i strelaExport exportGot
      obtain ⟨notLater, distinct⟩ := List.nodup_cons.mp distinct
      rw [ordinalFound] at notLater
      obtain ⟨length, others, filled⟩ := ih _ distinct
        (fun e member k eq => by simpa using inside e (List.mem_cons_of_mem _ member) k eq) got
      refine ⟨by simpa using length, fun k absent => ?_, fun e member => ?_⟩
      · rw [List.map_cons, List.mem_cons, not_or, ordinalFound] at absent
        have other : ordinal ≠ k := fun same => absent.1 (by rw [same])
        rw [others k absent.2, List.getElem?_set_ne other]
      · rcases List.mem_cons.mp member with rfl | later
        · refine ⟨ordinal, funcOp, strelaExport, ⟨ordinalFound, funcFound, exportGot⟩, ?_⟩
          rw [others ordinal notLater]
          exact List.getElem?_set_self (inside e List.mem_cons_self ordinal ordinalFound)
        · exact filled e later

theorem serializeExecutable_ok {variantOp : ExecutableVariantOp} {funcs : List FuncOp}
    {executableDef : ExecutableDef} (module_ : variantOp.innerModule = some funcs)
    (got : serializeExecutable variantOp = .ok executableDef) :
    serializeExports funcs variantOp.exports (List.replicate variantOp.exports.length none) =
      .ok executableDef.exports := by
  simp only [serializeExecutable, bind, Except.bind, pure, Except.pure, module_] at got
  split at got
  · cases got
  · rename_i exports exportsGot
    cases got
    exact exportsGot

/-- The export ops of a variant, each with the slot it filled. -/
theorem HalVariant.slots {variantOp : ExecutableVariantOp} {funcs : List FuncOp}
    {executableDef : ExecutableDef} (hal : HalVariant variantOp funcs)
    (got : serializeExecutable variantOp = .ok executableDef) :
    executableDef.exports.length = variantOp.exports.length ∧
      ∀ exportOp ∈ variantOp.exports, ∃ k funcOp strelaExport,
        Serialized funcs exportOp k funcOp strelaExport ∧
          executableDef.exports[k]? = some (some (exportDefOf exportOp strelaExport)) := by
  have distinct : (variantOp.exports.map ExecutableExportOp.ordinal).Nodup :=
    hal.ordinals.nodup_iff.mpr (List.nodup_range.map (fun _ _ => Option.some.inj))
  have inside : ∀ exportOp ∈ variantOp.exports, ∀ k, exportOp.ordinal = some k →
      k < variantOp.exports.length := by
    intro exportOp member k eq
    have mapped := hal.ordinals.subset
      (List.mem_map_of_mem (f := ExecutableExportOp.ordinal) member)
    obtain ⟨i, below, same⟩ := List.mem_map.mp mapped
    rw [eq] at same
    cases same
    exact List.mem_range.mp below
  obtain ⟨length, -, filled⟩ := serializeExports_spec funcs variantOp.exports _ _ distinct
    (by simpa using inside) (serializeExecutable_ok hal.innerModule got)
  exact ⟨by simpa using length, filled⟩

/-- No slot is left empty. -/
theorem HalVariant.slot_mem {variantOp : ExecutableVariantOp} {funcs : List FuncOp}
    {executableDef : ExecutableDef} (hal : HalVariant variantOp funcs)
    (got : serializeExecutable variantOp = .ok executableDef) (slot : Option ExportDef)
    (member : slot ∈ executableDef.exports) :
    ∃ exportOp ∈ variantOp.exports, ∃ k funcOp strelaExport,
      Serialized funcs exportOp k funcOp strelaExport ∧ executableDef.exports[k]? = some slot ∧
        slot = some (exportDefOf exportOp strelaExport) := by
  obtain ⟨length, filled⟩ := hal.slots got
  obtain ⟨k, below, rfl⟩ := List.mem_iff_getElem.mp member
  have taken : some k ∈ variantOp.exports.map ExecutableExportOp.ordinal :=
    hal.ordinals.symm.subset (List.mem_map_of_mem (f := some) (List.mem_range.mpr (length ▸ below)))
  obtain ⟨exportOp, known, ordinal⟩ := List.mem_map.mp taken
  obtain ⟨k', funcOp, strelaExport, serialized, found⟩ := filled exportOp known
  obtain rfl : k' = k := by
    have same := serialized.ordinal
    rw [ordinal] at same
    exact (Option.some.inj same).symm
  rw [List.getElem?_eq_getElem below] at found
  exact ⟨exportOp, known, k', funcOp, strelaExport, serialized, List.getElem?_eq_getElem below,
    Option.some.inj found⟩

theorem exportsVerify_ok (i : Nat) (exports : List (Option ExportDef))
    (each : ∀ slot ∈ exports, ∀ j, exportVerify j slot = .ok ()) :
    exportsVerify i exports = .ok () := by
  induction exports generalizing i with
  | nil => rfl
  | cons slot rest ih =>
      have here := each slot List.mem_cons_self i
      simp only [exportsVerify, bind, Except.bind, here]
      exact ih (i + 1) (fun slot member => each slot (List.mem_cons_of_mem _ member))

theorem lookupExportFrom_ok (name : String) (i k : Nat) (exports : List Export)
    (here : (exports[k]?).bind (·.exportDef.name) = some name)
    (before : ∀ j < k, (exports[j]?).bind (·.exportDef.name) ≠ some name) :
    lookupExportFrom name i exports = .ok (i + k) := by
  induction exports generalizing i k with
  | nil => cases here
  | cons export_ rest ih =>
      cases k with
      | zero =>
          have found : export_.exportDef.name = some name := here
          rw [lookupExportFrom, if_pos found]
          rfl
      | succ k =>
          have other : export_.exportDef.name ≠ some name := before 0 (Nat.succ_pos k)
          rw [lookupExportFrom, if_neg other, ih (i + 1) k here
            (fun j below => before (j + 1) (Nat.succ_lt_succ below))]
          congr 1
          omega

theorem lookupExportFrom_notFound (name : String) (i : Nat) (exports : List Export)
    (absent : ∀ e ∈ exports, e.exportDef.name ≠ some name) :
    lookupExportFrom name i exports =
      makeStatus .notFound s!"no STRELA function named '{name}'" := by
  induction exports generalizing i with
  | nil => rfl
  | cons export_ rest ih =>
      rw [lookupExportFrom, if_neg (absent export_ List.mem_cons_self)]
      exact ih (i + 1) (fun e member => absent e (List.mem_cons_of_mem _ member))

/-- The bytes of an executable, once flatcc and IREE's header have read them back. -/
def readBack (executableDef : ExecutableDef) (flatbufferLength : Nat) : ExecutableData where
  header := .ok ()
  verifyAsRoot := none
  root := executableDef
  flatbufferLength

/-- What the runtime makes of the data of a variant. -/
structure Agreement (variantOp : ExecutableVariantOp) (funcs : List FuncOp)
    (data : ExecutableData) :
    Prop where
  verified : executableFlatbufferVerify data = .ok ()
  exports : ∀ exportOp ∈ variantOp.exports, ∃ k funcOp strelaExport exportDef,
    Serialized funcs exportOp k funcOp strelaExport ∧
      data.root.exports[k]? = some (some exportDef) ∧
        ReadsBack exportOp funcOp strelaExport exportDef
  lookup : ∀ {S : Type} (step : S → (c : Call) → c.Answer → S → Prop) (s s' : S)
    (executable : Executable),
    Run step (executableCreate data) s (.ok executable) s' →
      (∀ exportOp ∈ variantOp.exports, ∃ k, exportOp.ordinal = some k ∧
        executableLookupFunctionByName executable exportOp.symName = .ok k) ∧
      ∀ name ∉ variantOp.exports.map ExecutableExportOp.symName, ∃ message,
        executableLookupFunctionByName executable name = makeStatus .notFound message

section

variable {variantOp : ExecutableVariantOp} {funcs : List FuncOp} {executableDef : ExecutableDef}

theorem HalVariant.readsBack (hal : HalVariant variantOp funcs) (exportOp : ExecutableExportOp)
    (member : exportOp ∈ variantOp.exports) (narrow : exportOp.Narrow) {k : Nat} {funcOp : FuncOp}
    {strelaExport : StrelaExport} (serialized : Serialized funcs exportOp k funcOp strelaExport) :
    ReadsBack exportOp funcOp strelaExport (exportDefOf exportOp strelaExport) := by
  obtain ⟨bitstream, inputs, outputs, columns⟩ := getExport_spec funcOp strelaExport serialized.got
  have promised := hal.promised exportOp member funcOp serialized.found
  refine ⟨rfl, ⟨rfl, bitstream⟩, ?_, ?_, ⟨rfl, by simpa [exportDefOf] using inputs⟩,
    ⟨rfl, by simpa [exportDefOf] using outputs⟩, ?_⟩
  · exact Nat.mod_eq_of_lt narrow.1
  · exact Nat.mod_eq_of_lt narrow.2
  · intro column known
    simp only [exportDefOf, ← List.map_append] at known
    obtain ⟨source, inside, rfl⟩ := List.mem_map.mp known
    rcases columns source inside with rfl | ⟨attrs, used, type, stride, got⟩
    · exact Or.inl rfl
    · exact Or.inr ⟨attrs, used, type, stride, (promised attrs used).describes narrow got⟩

theorem HalVariant.exportVerify (hal : HalVariant variantOp funcs) (exportOp : ExecutableExportOp)
    (member : exportOp ∈ variantOp.exports) (narrow : exportOp.Narrow) {k : Nat} {funcOp : FuncOp}
    {strelaExport : StrelaExport} (serialized : Serialized funcs exportOp k funcOp strelaExport)
    (i : Nat) :
    exportVerify i (some (exportDefOf exportOp strelaExport)) = .ok () := by
  obtain ⟨bitstream, inputs, outputs, columns⟩ := getExport_spec funcOp strelaExport serialized.got
  have promised := hal.promised exportOp member funcOp serialized.found
  simp only [Estela.Runtime.exportVerify, exportDefOf, List.length_map, bitstream, inputs, outputs,
    ne_eq, not_true_eq_false, or_self, reduceCtorEq, ↓reduceIte]
  refine columnsVerify_ok _ _ _ _ _ ?_ (fun column known => ?_)
  · intro c below
    simpa [inputs, outputs] using below
  · rw [← List.map_append] at known
    obtain ⟨source, inside, rfl⟩ := List.mem_map.mp known
    rcases columns source inside with rfl | ⟨attrs, used, type, stride, got⟩
    · exact columnVerify_unused _ _
    · exact (promised attrs used).columnVerify narrow got

theorem HalVariant.verified (hal : HalVariant variantOp funcs)
    (accepted : serializeExecutable variantOp = .ok executableDef)
    (narrow : ∀ exportOp ∈ variantOp.exports, exportOp.Narrow) (flatbufferLength : Nat) :
    executableFlatbufferVerify (readBack executableDef flatbufferLength) = .ok () := by
  refine exportsVerify_ok 0 executableDef.exports (fun slot member j => ?_)
  obtain ⟨exportOp, known, k, funcOp, strelaExport, serialized, -, rfl⟩ :=
    hal.slot_mem accepted slot member
  exact hal.exportVerify exportOp known (narrow exportOp known) serialized j

/-- Looking a name up finds the slot of its export, and no other name finds one. -/
theorem HalVariant.lookup (hal : HalVariant variantOp funcs)
    (accepted : serializeExecutable variantOp = .ok executableDef) (executable : Executable)
    (holds : executable.exports.map (fun e => some e.exportDef) = executableDef.exports) :
    (∀ exportOp ∈ variantOp.exports, ∃ k, exportOp.ordinal = some k ∧
        executableLookupFunctionByName executable exportOp.symName = .ok k) ∧
      ∀ name ∉ variantOp.exports.map ExecutableExportOp.symName, ∃ message,
        executableLookupFunctionByName executable name = makeStatus .notFound message := by
  obtain ⟨length, filled⟩ := hal.slots accepted
  have slotOf (j : Nat) (name : String)
      (found : (executable.exports[j]?).bind (·.exportDef.name) = some name) :
      ∃ e ∈ variantOp.exports, e.ordinal = some j ∧ e.symName = name := by
    obtain ⟨export_, at_, named⟩ := Option.bind_eq_some_iff.mp found
    have slot : executableDef.exports[j]? = some (some export_.exportDef) := by
      rw [← holds, List.getElem?_map, at_]
      rfl
    have below := (List.getElem?_eq_some_iff.mp slot).1
    have taken : some j ∈ variantOp.exports.map ExecutableExportOp.ordinal :=
      hal.ordinals.symm.subset
        (List.mem_map_of_mem (f := some) (List.mem_range.mpr (length ▸ below)))
    obtain ⟨e, known, ordinal⟩ := List.mem_map.mp taken
    obtain ⟨k, funcOp, strelaExport, serialized, filledSlot⟩ := filled e known
    have same := serialized.ordinal
    rw [ordinal] at same
    cases same
    rw [slot] at filledSlot
    have defs := Option.some.inj (Option.some.inj filledSlot)
    rw [defs] at named
    exact ⟨e, known, ordinal, Option.some.inj named⟩
  constructor
  · intro exportOp member
    obtain ⟨k, funcOp, strelaExport, serialized, slot⟩ := filled exportOp member
    have here : (executable.exports[k]?).bind (·.exportDef.name) = some exportOp.symName := by
      rw [← holds, List.getElem?_map, Option.map_eq_some_iff] at slot
      obtain ⟨export_, at_, defs⟩ := slot
      rw [at_, Option.bind_some, Option.some.inj defs]
      rfl
    refine ⟨k, serialized.ordinal, ?_⟩
    have found := lookupExportFrom_ok exportOp.symName 0 k executable.exports here
      (fun j below found => ?_)
    · rw [Nat.zero_add] at found
      exact found
    · obtain ⟨e, known, ordinal, named⟩ := slotOf j _ found
      obtain rfl : e = exportOp := List.inj_on_of_nodup_map hal.names known member named
      rw [serialized.ordinal] at ordinal
      cases ordinal
      exact Nat.lt_irrefl _ below
  · intro name unknown
    refine ⟨_, lookupExportFrom_notFound name 0 executable.exports (fun e member named => ?_)⟩
    obtain ⟨j, below, rfl⟩ := List.mem_iff_getElem.mp member
    obtain ⟨e, known, -, rfl⟩ := slotOf j name (by rw [List.getElem?_eq_getElem below]; exact named)
    exact unknown (List.mem_map_of_mem known)

end

/-- What the compiler serializes the runtime accepts and reads back unchanged,
exactly if the push constants and bindings of each layout are fewer than 2^32. -/
theorem serializeExecutable_agreement_iff (variantOp : ExecutableVariantOp) (funcs : List FuncOp)
    (executableDef : ExecutableDef) (flatbufferLength : Nat) (hal : HalVariant variantOp funcs)
    (accepted : serializeExecutable variantOp = .ok executableDef) :
    Agreement variantOp funcs (readBack executableDef flatbufferLength) ↔
      ∀ exportOp ∈ variantOp.exports, exportOp.Narrow := by
  constructor
  · intro agreement exportOp member
    obtain ⟨k, funcOp, strelaExport, exportDef, -, -, same⟩ := agreement.exports exportOp member
    have constants := exportDef.constantCount.isLt
    have bindings := exportDef.bindingCount.isLt
    rw [same.constantCount] at constants
    rw [same.bindingCount] at bindings
    exact ⟨constants, bindings⟩
  · intro narrow
    refine ⟨hal.verified accepted narrow flatbufferLength, fun exportOp member => ?_, ?_⟩
    · obtain ⟨k, funcOp, strelaExport, serialized, slot⟩ := (hal.slots accepted).2 exportOp member
      exact ⟨k, funcOp, strelaExport, _, serialized, slot,
        hal.readsBack exportOp member (narrow exportOp member) serialized⟩
    · intro S step s s' executable run
      exact hal.lookup accepted executable
        (executableCreate_defs _ _ _ _ trivial run executable rfl)

def sampleType : TensorType := .ranked [some 4] (.integer 32)

/-- Four words of binding 0, from byte 64 on, into binding 1. -/
def sampleRelu : FuncOp where
  symName := "relu"
  body := [
    ⟨.bindingLoad ⟨0, none, some 64⟩ sampleType, [], [0]⟩,
    ⟨.relu sampleType, [0], [1]⟩,
    ⟨.bindingStore ⟨1, none, none⟩, [1], []⟩]

/-- Bindings 0 and 1, the latter at a runtime offset, into binding 1. -/
def sampleAdd : FuncOp where
  symName := "add"
  body := [
    ⟨.bindingLoad ⟨0, none, none⟩ sampleType, [], [0]⟩,
    ⟨.bindingLoad ⟨1, some [0, 1], none⟩ sampleType, [], [1]⟩,
    ⟨.add sampleType, [0, 1], [2]⟩,
    ⟨.bindingStore ⟨1, none, none⟩, [2], []⟩]

/-- Two exports, the second one first. -/
def sampleVariant (constants : Nat) : ExecutableVariantOp where
  exports := [
    { symName := "relu", ordinal := some 1, constants, bindings := 2 },
    { symName := "add", ordinal := some 0, constants := 2, bindings := 2 }]
  innerModule := some [sampleAdd, sampleRelu]

def sampleExportDef (name : String) (bitstream : List (BitVec 32))
    (inputs outputs : List StrelaColumn) (constants : Nat) : ExportDef where
  name := some name
  bitstream := bitstream
  inputs := inputs.map createColumn
  outputs := outputs.map createColumn
  constantCount := BitVec.ofNat 32 constants
  bindingCount := 2

def sampleExecutableDef (constants : Nat) : ExecutableDef where
  exports := [
    some (sampleExportDef "add" addBitstream
      [⟨0, 0, [], 4, 1⟩, ⟨1, 0, [0, 1], 4, 1⟩, unusedColumn, unusedColumn]
      [unusedColumn, ⟨1, 0, [], 4, 0⟩, unusedColumn, unusedColumn] 2),
    some (sampleExportDef "relu" reluBitstream
      [⟨0, 64, [], 4, 1⟩, unusedColumn, unusedColumn, unusedColumn]
      [⟨1, 0, [], 4, 0⟩, unusedColumn, unusedColumn, unusedColumn] constants)]

theorem sampleVariant_hal (constants : Nat) :
    HalVariant (sampleVariant constants) [sampleAdd, sampleRelu] := by
  have names : ["relu", "add"].Nodup := by decide
  refine ⟨rfl, List.Perm.swap _ _ _, names, ?_⟩
  intro exportOp member funcOp found attrs used
  simp only [sampleVariant, List.mem_cons, List.not_mem_nil, or_false] at member
  rcases member with rfl | rfl
  · cases found
    have listed : attrs ∈ [⟨0, none, some 64⟩, ⟨1, none, none⟩] := used
    simp only [List.mem_cons, List.not_mem_nil, or_false] at listed
    rcases listed with rfl | rfl <;> exact ⟨by simp, by simp, by decide, by decide⟩
  · cases found
    have listed : attrs ∈ [⟨0, none, none⟩, ⟨1, some [0, 1], none⟩, ⟨1, none, none⟩] := used
    simp only [List.mem_cons, List.not_mem_nil, or_false] at listed
    rcases listed with rfl | rfl | rfl <;> exact ⟨by simp, by simp, by decide, by decide⟩

theorem serializeExecutable_agreement_iff_sample :
    Agreement (sampleVariant 0) [sampleAdd, sampleRelu] (readBack (sampleExecutableDef 0) 0) := by
  refine (serializeExecutable_agreement_iff (sampleVariant 0) _ _ 0
    (sampleVariant_hal 0) rfl).mpr ?_
  intro exportOp member
  simp only [sampleVariant, List.mem_cons, List.not_mem_nil, or_false] at member
  rcases member with rfl | rfl <;> exact ⟨by decide, by decide⟩

/-- A layout of 2^32 push constants reads back as one of none. -/
theorem serializeExecutable_cuts_constants :
    ¬ ∀ (variantOp : ExecutableVariantOp) (funcs : List FuncOp) (executableDef : ExecutableDef)
        (flatbufferLength : Nat), HalVariant variantOp funcs →
      serializeExecutable variantOp = .ok executableDef →
      Agreement variantOp funcs (readBack executableDef flatbufferLength) := by
  intro claim
  have agreement := claim (sampleVariant (2 ^ 32)) _ (sampleExecutableDef (2 ^ 32)) 0
    (sampleVariant_hal _) rfl
  obtain ⟨k, funcOp, strelaExport, exportDef, -, -, same⟩ := agreement.exports _ List.mem_cons_self
  have constants := exportDef.constantCount.isLt
  rw [same.constantCount] at constants
  exact Nat.lt_irrefl _ constants

end Estela.Compiler
