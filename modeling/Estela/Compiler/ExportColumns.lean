import Estela.Compiler.ExportEffects
import Mathlib.Tactic.IntervalCases

set_option autoImplicit false

/- Which columns of an export are in use, and what for. -/
namespace Estela.Compiler

open Ssa (Op Body uses)
open Estela.Runtime (columnCount)

/-- The trait of `strela.add` and `strela.relu`, as far as operands loaded from
bindings are concerned. -/
def SameOperandsAndResultType (body : Body OpKind) : Prop :=
  ∀ op ∈ body, ∀ type, op.kind = .add type ∨ op.kind = .relu type →
    ∀ operand ∈ op.operands, ∀ attrs operandType, bindingLoadOf body operand =
      some (attrs, operandType) →
      operandType.element = type.element ∧ CompatibleShape operandType type

/-- The kernel op of an exported function, what loads its operands, its result,
and what stores that. -/
structure ExportedKernel (body : Body OpKind) (kernelOp : Op OpKind)
    (loads : List (BindingAttrs × TensorType)) (result : Nat) (store : BindingAttrs)
    (type : TensorType) : Prop where
  single : body.filter (fun op => op.kind.strelaType.isSome) = [kernelOp]
  typed : kernelOp.kind.strelaType = some type
  loads : kernelOp.operands.map (bindingLoadOf body) = loads.map some
  produced : kernelOp.results.head? = some result
  once : (uses body).count result = 1
  store : ∃ storeOp, body.find? (result ∈ ·.operands) = some storeOp ∧
    storeOp.kind = .bindingStore store

/-- The column moves the words of a tensor of type `type`, at the place a binding
op names. -/
structure StrelaColumn.Describes (column : StrelaColumn) (attrs : BindingAttrs) (type : TensorType)
    (stride : Nat) : Prop where
  binding : column.binding.toNat = attrs.binding.toNat
  byteOffset : column.byteOffset = attrs.byteOffset.getD 0
  offsetConstants : column.offsetConstants.map (·.toNat) = (attrs.offsets.getD []).map (·.toNat)
  words : ∃ shape, type.staticShape = some shape ∧ column.wordCount.toNat = shape.prod
  stride : column.stride.toNat = stride

/-- A column in use, by the runtime's convention. -/
def StrelaColumn.InUse (column : StrelaColumn) : Prop := 0 < column.wordCount.toNat

instance (column : StrelaColumn) : Decidable column.InUse :=
  inferInstanceAs (Decidable (0 < column.wordCount.toNat))

/-- An export uses its kernel's columns and no other, in lock-step. -/
structure UsesKernelColumns (strelaExport : StrelaExport) (loads : List (BindingAttrs × TensorType))
    (store : BindingAttrs) (type : TensorType) : Prop where
  inputs : ∀ c < columnCount, (strelaExport.inputs.getD c unusedColumn).InUse ↔
    c ∈ strelaExport.kernel.inputColumns.take strelaExport.kernel.inputCount
  operands : loads.length = strelaExport.kernel.inputCount ∧ ∀ i load, loads[i]? = some load →
    (strelaExport.inputs.getD (strelaExport.kernel.inputColumns.getD i 0) unusedColumn).Describes
      load.1 load.2 1
  outputs : ∀ c < columnCount, (strelaExport.outputs.getD c unusedColumn).InUse ↔
    c = strelaExport.kernel.outputColumn
  result : (strelaExport.outputs.getD strelaExport.kernel.outputColumn unusedColumn).Describes
    store type 0
  lockstep : ∃ words, 1 ≤ words ∧ words ≤ strelaMaxColumnWords ∧
    ∀ column ∈ strelaExport.inputs ++ strelaExport.outputs,
      column.InUse → column.wordCount.toNat = words
  columns : strelaExport.inputs.length = columnCount ∧ strelaExport.outputs.length = columnCount

/-- What a column can hold of the attributes of a binding op. -/
def BindingAttrs.FitColumn (attrs : BindingAttrs) : Prop :=
  attrs.binding.toNat < 2 ^ 32 ∧ ∀ ordinal ∈ attrs.offsets.getD [], ordinal.toNat < 2 ^ 32

/-- The kernel moves at least one word, and every place fits its column. -/
structure ColumnsFit (loads : List (BindingAttrs × TensorType)) (store : BindingAttrs)
    (type : TensorType) : Prop where
  nonempty : ∀ shape, type.staticShape = some shape → 0 ∉ shape
  loads : ∀ load ∈ loads, load.1.FitColumn
  store : store.FitColumn

/-- Static shapes that are compatible are the same. -/
theorem CompatibleShape.staticShape_eq {first second : TensorType} {shape shape' : List Nat}
    (compatible : CompatibleShape first second) (static : first.staticShape = some shape)
    (static' : second.staticShape = some shape') : shape = shape' := by
  cases first with
  | unranked => cases static
  | ranked dims element =>
      cases second with
      | unranked => cases static'
      | ranked dims' element' =>
          simp only [TensorType.staticShape] at static static'
          induction compatible generalizing shape shape' with
          | nil =>
              cases static
              cases static'
              rfl
          | @cons dim dim' dims dims' agree _ ih =>
              simp only [List.mapM_cons, id_eq, Option.bind_eq_bind, Option.bind_eq_some_iff,
                Option.pure_def, Option.some.injEq] at static static'
              obtain ⟨head, rfl, tail, isTail, rfl⟩ := static
              obtain ⟨head', rfl, tail', isTail', rfl⟩ := static'
              rw [ih isTail isTail']
              rcases agree with none | none | same
              · cases none
              · cases none
              · cases same
                rfl

/-- What a column keeps of its binding op. -/
theorem getColumn_describes_iff {attrs : BindingAttrs} {type : TensorType} {stride : BitVec 32}
    {column : StrelaColumn} (got : getColumn attrs type stride = .ok column) :
    column.Describes attrs type stride.toNat ↔ attrs.FitColumn := by
  obtain ⟨shape, static, small, rfl⟩ := getColumn_ok got
  have cut (word : BitVec 64) : (word.setWidth 32).toNat = word.toNat ↔ word.toNat < 2 ^ 32 := by
    rw [BitVec.toNat_setWidth]
    omega
  have ordinals : ((attrs.offsets.getD []).map (·.setWidth 32)).map (·.toNat) =
      (attrs.offsets.getD []).map (·.toNat) ↔
      ∀ ordinal ∈ attrs.offsets.getD [], ordinal.toNat < 2 ^ 32 := by
    rw [List.map_map, List.map_inj_left]
    exact forall₂_congr fun ordinal _ => cut ordinal
  constructor
  · intro describes
    exact ⟨(cut _).mp describes.binding, ordinals.mp describes.offsetConstants⟩
  · rintro ⟨binding, inside⟩
    refine ⟨(cut _).mpr binding, rfl, ordinals.mpr inside, ⟨shape, static, ?_⟩, rfl⟩
    rw [BitVec.toNat_ofNat]
    exact Nat.mod_eq_of_lt (Nat.lt_of_le_of_lt small (by decide))

theorem getColumn_wordCount {attrs : BindingAttrs} {type : TensorType} {stride : BitVec 32}
    {column : StrelaColumn} {shape : List Nat} (got : getColumn attrs type stride = .ok column)
    (static : type.staticShape = some shape) :
    column.wordCount.toNat = shape.prod ∧ shape.prod ≤ strelaMaxColumnWords := by
  obtain ⟨shape', static', small, rfl⟩ := getColumn_ok got
  obtain rfl := Option.some.inj (static.symm.trans static')
  rw [BitVec.toNat_ofNat]
  exact ⟨Nat.mod_eq_of_lt (Nat.lt_of_le_of_lt small (by decide)), small⟩

/-- What the columns of the operands are made from. -/
theorem exportInputs_loads {body : Body OpKind} {operands : List Nat} {columns : List StrelaColumn}
    (loaded : List.Forall₂ (fun operand column => ∃ attrs type,
        bindingLoadOf body operand = some (attrs, type) ∧ getColumn attrs type 1 = .ok column)
      operands columns) :
    ∃ loads : List (BindingAttrs × TensorType), operands.map (bindingLoadOf body) = loads.map some ∧
      List.Forall₂ (fun load column => getColumn load.1 load.2 1 = .ok column) loads columns := by
  induction loaded with
  | nil => exact ⟨[], rfl, .nil⟩
  | cons head _ ih =>
      obtain ⟨attrs, type, found, made⟩ := head
      obtain ⟨loads, same, later⟩ := ih
      exact ⟨(attrs, type) :: loads, by simp [found, same], .cons made later⟩

theorem exportOutput_ok {body : Body OpKind} {result : Nat} {type : TensorType}
    {column : StrelaColumn} (got : exportOutput body result type = .ok column) :
    (uses body).count result = 1 ∧ ∃ storeOp store,
      body.find? (result ∈ ·.operands) = some storeOp ∧
      storeOp.kind = .bindingStore store ∧ getColumn store type 0 = .ok column := by
  simp only [exportOutput, bind, Except.bind] at got
  split at got
  · cases got
  rename_i once
  split at got
  case h_2 => cases got
  rename_i store operands results user
  exact ⟨Decidable.not_not.mp once, _, store, user, rfl, got⟩

theorem mem_placeColumns {kernel : StrelaKernel} {columns inputs : List StrelaColumn} {i : Nat}
    {column : StrelaColumn} (member : column ∈ placeColumns kernel columns i inputs) :
    column ∈ columns ∨ column ∈ inputs := by
  induction columns generalizing i inputs with
  | nil => exact Or.inr member
  | cons head rest ih =>
      rcases ih member with later | placed
      · exact Or.inl (List.mem_cons_of_mem _ later)
      · rcases List.mem_or_eq_of_mem_set placed with before | rfl
        · exact Or.inr before
        · exact Or.inl (List.mem_cons_self ..)

theorem length_placeColumns (kernel : StrelaKernel) (columns inputs : List StrelaColumn) (i : Nat) :
    (placeColumns kernel columns i inputs).length = inputs.length := by
  induction columns generalizing i inputs with
  | nil => rfl
  | cons head rest ih =>
      rw [placeColumns, ih]
      exact List.length_set

section

variable {kind : OpKind} {kernel : StrelaKernel} {type : TensorType}
  (chosen : kernelOf kind = .ok (kernel, type))

include chosen

/-- Only the columns of operands are in use. -/
theorem placeColumns_inUse {columns : List StrelaColumn}
    (count : columns.length = kernel.inputCount)
    (moves : ∀ column ∈ columns, column.InUse) (c : Nat) (below : c < columnCount) :
    ((placeColumns kernel columns 0 (List.replicate columnCount unusedColumn)).getD c
      unusedColumn).InUse ↔ c ∈ kernel.inputColumns.take kernel.inputCount := by
  have unused : ¬ unusedColumn.InUse := by simp [StrelaColumn.InUse, unusedColumn]
  unfold columnCount at below ⊢
  rcases kernelOf_ok chosen with ⟨-, rfl⟩ | ⟨-, rfl⟩
  · obtain ⟨lhs, rhs, rfl⟩ := List.length_eq_two.mp count
    have left := moves lhs (by simp)
    have right := moves rhs (by simp)
    interval_cases c <;> simp [placeColumns, addKernel, left, right, unused]
  · obtain ⟨input, rfl⟩ := List.length_eq_one_iff.mp count
    have used := moves input (by simp)
    interval_cases c <;> simp [placeColumns, reluKernel, used, unused]

theorem outputColumn_inUse {output : StrelaColumn} (moves : output.InUse) (c : Nat)
    (below : c < columnCount) :
    (((List.replicate columnCount unusedColumn).set kernel.outputColumn output).getD c
      unusedColumn).InUse ↔ c = kernel.outputColumn := by
  have unused : ¬ unusedColumn.InUse := by simp [StrelaColumn.InUse, unusedColumn]
  unfold columnCount at below ⊢
  rcases kernelOf_ok chosen with ⟨-, rfl⟩ | ⟨-, rfl⟩
  · interval_cases c <;> simp [addKernel, moves, unused]
  · interval_cases c <;> simp [reluKernel, moves, unused]

theorem outputColumn_lt : kernel.outputColumn < columnCount := by
  rcases kernelOf_ok chosen with ⟨-, rfl⟩ | ⟨-, rfl⟩ <;> decide

end

/-- What an accepted function is exported as: its columns hold what `getColumn`
makes of the loads and of the store, all from tensors of one static shape. -/
structure ColumnParts (strelaExport : StrelaExport) (loads : List (BindingAttrs × TensorType))
    (store : BindingAttrs) (type : TensorType) (shape : List Nat) (columns : List StrelaColumn)
    (output : StrelaColumn) : Prop where
  chosen : ∃ kind, kernelOf kind = .ok (strelaExport.kernel, type)
  count : columns.length = strelaExport.kernel.inputCount
  inputs : strelaExport.inputs =
    placeColumns strelaExport.kernel columns 0 (List.replicate columnCount unusedColumn)
  outputs : strelaExport.outputs =
    (List.replicate columnCount unusedColumn).set strelaExport.kernel.outputColumn output
  loads : List.Forall₂ (fun load column => getColumn load.1 load.2 1 = .ok column) loads columns
  store : getColumn store type 0 = .ok output
  static : type.staticShape = some shape
  words : ∀ column ∈ columns, column.wordCount.toNat = shape.prod

theorem getExport_columnParts {funcOp : FuncOp} {strelaExport : StrelaExport}
    (verified : SameOperandsAndResultType funcOp.body) (got : getExport funcOp = .ok strelaExport) :
    ∃ kernelOp loads result store type shape columns output,
      ExportedKernel funcOp.body kernelOp loads result store type ∧
      ColumnParts strelaExport loads store type shape columns output := by
  obtain ⟨kernelOp, kernel, type, inputs, result, output, parts⟩ := getExport_ok got
  obtain ⟨columns, loaded, placed⟩ := exportInputs_ok parts.loaded
  obtain ⟨loads, found, made⟩ := exportInputs_loads loaded
  obtain ⟨once, storeOp, store, user, isStore, stored⟩ := exportOutput_ok parts.stored
  obtain ⟨shape, static, -, -⟩ := getColumn_ok stored
  have kind : kernelOp.kind = .add type ∨ kernelOp.kind = .relu type :=
    (kernelOf_ok parts.chosen).imp And.left And.left
  have typed : kernelOp.kind.strelaType = some type := by
    rcases kind with add | relu
    · rw [add]
      rfl
    · rw [relu]
      rfl
  have member : kernelOp ∈ funcOp.body :=
    (List.mem_filter.mp (parts.single ▸ List.mem_singleton_self kernelOp)).1
  refine ⟨kernelOp, loads, result, store, type, shape, columns, output,
    ⟨parts.single, typed, found, parts.produced, once, storeOp, user, isStore⟩, ?_⟩
  rw [parts.whole]
  refine ⟨⟨_, parts.chosen⟩, by rw [← loaded.length_eq, parts.operands], placed, rfl, made, stored,
    static, fun column isColumn => ?_⟩
  -- The trait makes every operand as large as the result.
  obtain ⟨i, below, rfl⟩ := List.mem_iff_getElem.mp isColumn
  obtain ⟨attrs, operandType, isLoad, fromLoad⟩ :=
    (List.forall₂_iff_get.mp loaded).2 i (loaded.length_eq ▸ below) below
  obtain ⟨operandShape, operandStatic, -, -⟩ := getColumn_ok fromLoad
  have compatible := (verified kernelOp member type kind _ (List.get_mem _ _) attrs operandType
    isLoad).2
  rw [← compatible.staticShape_eq operandStatic static]
  exact (getColumn_wordCount fromLoad operandStatic).1

section

variable {strelaExport : StrelaExport} {loads : List (BindingAttrs × TensorType)}
  {store : BindingAttrs} {type : TensorType} {shape : List Nat} {columns : List StrelaColumn}
  {output : StrelaColumn} (parts : ColumnParts strelaExport loads store type shape columns output)

include parts

/-- Operand number `i` comes in by column number `inputColumns[i]`. -/
theorem ColumnParts.operand (i : Nat) (below : i < columns.length) :
    strelaExport.inputs.getD (strelaExport.kernel.inputColumns.getD i 0) unusedColumn =
      columns[i] := by
  obtain ⟨kind, chosen⟩ := parts.chosen
  have all := operandColumns_placeColumns chosen parts.count strelaExport.outputs
  rw [← parts.inputs] at all
  have entry := congrArg (·[i]?) all
  have inRange : i < strelaExport.kernel.inputCount := parts.count ▸ below
  simpa [StrelaExport.operandColumns, inRange, below] using entry

theorem ColumnParts.result :
    strelaExport.outputs.getD strelaExport.kernel.outputColumn unusedColumn = output := by
  obtain ⟨kind, chosen⟩ := parts.chosen
  have all := resultColumn_set chosen strelaExport.inputs output
  rw [← parts.outputs] at all
  exact all

theorem ColumnParts.usesKernelColumns (fit : ColumnsFit loads store type) :
    UsesKernelColumns strelaExport loads store type := by
  obtain ⟨kind, chosen⟩ := parts.chosen
  obtain ⟨outputWords, small⟩ := getColumn_wordCount parts.store parts.static
  have some_ : 0 < shape.prod := List.prod_pos_iff_forall_pos_nat.mpr fun dim member =>
    Nat.pos_of_ne_zero fun empty => fit.nonempty shape parts.static (empty ▸ member)
  have moves : ∀ column ∈ columns, column.InUse := fun column member => by
    rw [StrelaColumn.InUse, parts.words column member]
    exact some_
  refine ⟨?_, ⟨parts.loads.length_eq.trans parts.count, fun i load found => ?_⟩, ?_, ?_, ?_, ?_⟩
  · rw [parts.inputs]
    exact placeColumns_inUse chosen parts.count moves
  · obtain ⟨below, isLoad⟩ := List.getElem?_eq_some_iff.mp found
    have made := (List.forall₂_iff_get.mp parts.loads).2 i below (parts.loads.length_eq ▸ below)
    rw [parts.operand i (parts.loads.length_eq ▸ below), ← isLoad]
    exact (getColumn_describes_iff made).mpr (fit.loads _ (List.getElem_mem below))
  · rw [parts.outputs]
    refine outputColumn_inUse chosen ?_
    rw [StrelaColumn.InUse, outputWords]
    exact some_
  · rw [parts.result]
    exact (getColumn_describes_iff parts.store).mpr fit.store
  · refine ⟨shape.prod, some_, small, fun column member used => ?_⟩
    have unused : column ∉ List.replicate columnCount unusedColumn := fun spare => by
      rw [(List.mem_replicate.mp spare).2] at used
      cases used
    rw [parts.inputs, parts.outputs, List.mem_append] at member
    rcases member with input | result
    · exact parts.words column ((mem_placeColumns input).resolve_right unused)
    · rw [(List.mem_or_eq_of_mem_set result).resolve_left unused]
      exact outputWords
  · rw [parts.inputs, parts.outputs, length_placeColumns, List.length_set]
    exact ⟨List.length_replicate, List.length_replicate⟩

theorem ColumnParts.columnsFit (uses : UsesKernelColumns strelaExport loads store type) :
    ColumnsFit loads store type := by
  obtain ⟨kind, chosen⟩ := parts.chosen
  refine ⟨fun shape' static empty => ?_, fun load member => ?_, ?_⟩
  · have used := (uses.outputs _ (outputColumn_lt chosen)).mpr rfl
    rw [parts.result, StrelaColumn.InUse, (getColumn_wordCount parts.store static).1,
      List.prod_eq_zero_iff_exists_zero_nat.mpr ⟨0, empty, rfl⟩] at used
    cases used
  · obtain ⟨i, below, rfl⟩ := List.mem_iff_getElem.mp member
    have made := (List.forall₂_iff_get.mp parts.loads).2 i below (parts.loads.length_eq ▸ below)
    have describes := uses.operands.2 i _ (List.getElem?_eq_getElem below)
    rw [parts.operand i (parts.loads.length_eq ▸ below)] at describes
    exact (getColumn_describes_iff made).mp describes
  · have describes := uses.result
    rw [parts.result] at describes
    exact (getColumn_describes_iff parts.store).mp describes

end

/-- An export uses its kernel's columns, and those only, exactly if the kernel
moves a word and its places fit: an empty tensor leaves all columns unused. -/
theorem getExport_columns_iff {funcOp : FuncOp} {strelaExport : StrelaExport}
    (verified : SameOperandsAndResultType funcOp.body) (got : getExport funcOp = .ok strelaExport) :
    ∃ kernelOp loads result store type,
      ExportedKernel funcOp.body kernelOp loads result store type ∧
      (UsesKernelColumns strelaExport loads store type ↔ ColumnsFit loads store type) := by
  obtain ⟨kernelOp, loads, result, store, type, _, _, _, exported, parts⟩ :=
    getExport_columnParts verified got
  exact ⟨kernelOp, loads, result, store, type, exported, parts.columnsFit, parts.usesKernelColumns⟩

/-- `strela.relu` of `n` words, from binding 0 to binding 1. -/
def reluFunction (n : Nat) : FuncOp where
  symName := "relu"
  body := [
    ⟨.bindingLoad ⟨0, none, none⟩ (.ranked [some n] (.integer 32)), [], [0]⟩,
    ⟨.relu (.ranked [some n] (.integer 32)), [0], [1]⟩,
    ⟨.bindingStore ⟨1, none, none⟩, [1], []⟩,
    ⟨.other "func.return" false, [], []⟩]

theorem reluFunction_verified (n : Nat) : SameOperandsAndResultType (reluFunction n).body := by
  intro op member type isKernel operand isOperand attrs operandType loaded
  simp only [reluFunction, List.mem_cons, List.not_mem_nil, or_false] at member
  rcases member with rfl | rfl | rfl | rfl
  · simp at isKernel
  · obtain rfl : operand = 0 := List.mem_singleton.mp isOperand
    cases loaded
    obtain rfl : type = .ranked [some n] (.integer 32) := by simpa [eq_comm] using isKernel
    exact ⟨rfl, .cons (Or.inr (Or.inr rfl)) .nil⟩
  · simp at isKernel
  · simp at isKernel

/-- What `reluFunction n` is exported as. -/
def reluExport (n : Nat) : StrelaExport where
  kernel := reluKernel
  inputs := { unusedColumn with wordCount := BitVec.ofNat 32 n, stride := 1 } ::
    List.replicate 3 unusedColumn
  outputs := { unusedColumn with binding := 1, wordCount := BitVec.ofNat 32 n } ::
    List.replicate 3 unusedColumn

theorem getExport_columns_iff_sample :
    ∃ kernelOp loads result store type,
      ExportedKernel (reluFunction 4).body kernelOp loads result store type ∧
      (UsesKernelColumns (reluExport 4) loads store type ↔ ColumnsFit loads store type) :=
  getExport_columns_iff (reluFunction_verified 4) rfl

/-- The export of an empty tensor has no column in use. -/
theorem getExport_empty_unused :
    ¬ ∀ (funcOp : FuncOp) (strelaExport : StrelaExport), SameOperandsAndResultType funcOp.body →
      getExport funcOp = .ok strelaExport → ∃ kernelOp loads result store type,
        ExportedKernel funcOp.body kernelOp loads result store type ∧
        UsesKernelColumns strelaExport loads store type := by
  intro claim
  obtain ⟨_, _, _, _, _, _, uses⟩ := claim (reluFunction 0) (reluExport 0)
    (reluFunction_verified 0) rfl
  have used := (uses.outputs 0 (by decide)).mpr rfl
  exact absurd used (by decide)

end Estela.Compiler
