import Estela.Compiler.DenseAccess
import Estela.Compiler.OffsetAgreement

set_option autoImplicit false

/- What a dispatch function reads and writes when it runs. -/
namespace Estela.Compiler

open Ssa (Op Body definingOp)

/-- The words an operation writes. -/
def OpKind.writes : OpKind → List Val → List Write
  | .dispatchTensorStore slice,
      .tensor words :: .dispatchTensor binding byteOffset dims :: operands =>
      List.zipWith (fun w value => ⟨binding, byteOffset + 4 * w, value⟩)
        (slice.words dims operands) words
  | _, _ => []

def bodyWrites (values : Nat → Val) (body : Body OpKind) : List Write :=
  body.flatMap fun op => op.kind.writes (op.operands.map values)

@[simp] theorem writeAll_nil (s : DispatchState) : s.writeAll [] = s := rfl

theorem writeAll_append (s : DispatchState) (first second : List Write) :
    s.writeAll (first ++ second) = (s.writeAll first).writeAll second := List.foldl_append

theorem writeAll_writes (s : DispatchState) (ws : List Write) :
    (s.writeAll ws).writes = s.writes ++ ws := by
  induction ws generalizing s with
  | nil => simp
  | cons w rest ih =>
      have step : (s.writeAll (w :: rest)).writes = (s.write w).writes ++ rest := ih (s.write w)
      rw [step, DispatchState.write, List.append_assoc]
      rfl

/-- All an operation does to the state is its writes. -/
theorem dispatchInterp_state (constants : Nat → BitVec 32) (others : OpKind → List Val → List Val)
    (kind : OpKind) (operands : List Val) (s : DispatchState) :
    (dispatchInterp constants others kind operands s).2 = s.writeAll (kind.writes operands) := by
  cases kind with
  | dispatchTensorStore slice =>
      rcases operands with _ | ⟨value, _ | ⟨target, rest⟩⟩
      · rfl
      · cases value <;> rfl
      · cases value <;> cases target <;> rfl
  | _ =>
      unfold dispatchInterp
      split <;> first | rfl | contradiction

section

variable {body : Body OpKind} (wellFormed : WellFormed body) (constants : Nat → BitVec 32)
  (others : OpKind → List Val → List Val) (memory : Nat → Nat → BitVec 32)

include wellFormed

/-- The state a part of the function leaves, in terms of the final values. -/
theorem runDispatch_before {before after : Body OpKind} (split : body = before ++ after) :
    (Ssa.exec (dispatchInterp constants others) before (fun _ => .other "undefined")
      ⟨memory, []⟩).2 =
      (DispatchState.mk memory []).writeAll
        (bodyWrites (runDispatch constants others body memory).1 before) := by
  have dominated := wellFormed.dominated
  subst split
  rw [Ssa.exec_state _ before after _ _ _ dominated, runDispatch]
  generalize (Ssa.exec _ (before ++ after) _ _).1 = final
  generalize DispatchState.mk memory [] = state
  clear dominated wellFormed
  induction before generalizing state with
  | nil => rfl
  | cons op rest ih =>
      rw [List.foldl_cons, ih, dispatchInterp_state, ← writeAll_append]
      rfl

/-- A value is what its operation computes in the memory the operations before it
leave. -/
theorem runDispatch_definingOp_before {v : Nat} {op : Op OpKind} {i : Nat}
    (found : definingOp body v = some (op, i)) :
    ∃ before after, body = before ++ op :: after ∧ op.results[i]? = some v ∧
      ∀ x, (dispatchInterp constants others op.kind
          (op.operands.map (runDispatch constants others body memory).1)
          ((DispatchState.mk memory []).writeAll
            (bodyWrites (runDispatch constants others body memory).1 before))).1[i]? = some x →
        (runDispatch constants others body memory).1 v = x := by
  obtain ⟨before, after, split, -, result⟩ := Ssa.definingOp_split found
  refine ⟨before, after, split, result, fun x value => ?_⟩
  rw [← runDispatch_before wellFormed constants others memory split] at value
  have dominated := wellFormed.dominated
  subst split
  exact Ssa.exec_definingOp _ before after op _ _ [] dominated i v x result value

theorem runDispatch_writes :
    (runDispatch constants others body memory).2.writes =
      bodyWrites (runDispatch constants others body memory).1 body := by
  have whole := runDispatch_before wellFormed constants others memory (List.append_nil body).symm
  rw [← runDispatch] at whole
  rw [whole, writeAll_writes]
  rfl

end

/-- The words of memory from a place on: a binding and a byte offset. -/
def block (memory : Nat → Nat → BitVec 32) (n : Nat) (place : Nat × Nat) : List (BitVec 32) :=
  (List.range n).map fun k => memory place.1 (place.2 + 4 * k)

@[simp] theorem length_block (memory : Nat → Nat → BitVec 32) (n : Nat) (place : Nat × Nat) :
    (block memory n place).length = n := by simp [block]

/-- What a kernel makes of the words that come in for its operands. -/
def StrelaKernel.compute (kernel : StrelaKernel) (operands : List (List (BitVec 32))) :
    List (BitVec 32) :=
  match operands with
  | [lhs, rhs] => if kernel = addKernel then strelaAdd lhs rhs else []
  | [input] => if kernel = reluKernel then strelaRelu input else []
  | _ => []

/-- What the verifiers promise of a dispatch function: besides what they do of any
body, a subspan has its byte offset, an index, in front of its dynamic dims, and the
entries of a slice are no tensors. The binding ops come later. -/
structure DispatchFunction (body : Body OpKind) : Prop extends WellFormed body where
  subspans : ∀ op ∈ body, ∀ binding shape, op.kind = .bindingSubspan binding true shape →
    ∃ byteOffset dims, op.operands = byteOffset :: dims ∧ IndexTyped body byteOffset
  entries : ∀ op ∈ body, ∀ storeOp, asStoreOp op = some storeOp → ∀ v ∈ storeOp.operands,
    ∀ kernelOp i, definingOp body v = some (kernelOp, i) → kernelOp.kind.strelaType = none
  bindingOps : ∀ op ∈ body, ∀ attrs type, op.kind ≠ .bindingLoad attrs type ∧
    op.kind ≠ .bindingStore attrs

/-- The binding and the form of the byte offset a dispatch tensor is recognized by. -/
def bindingForm (body : Body OpKind) (dispatchTensor : Nat) : Option (Nat × OffsetForm) :=
  match definingOp body dispatchTensor with
  | some (⟨.bindingSubspan binding hasByteOffset _, operands, _⟩, _) =>
      (offsetForm body (if hasByteOffset then operands.head? else none)).map
        fun form => (binding, form)
  | _ => none

/-- What `matchBinding` leaves of it. -/
def encodeBinding (binding : Nat) (form : OffsetForm) : StrelaBinding where
  binding := BitVec.ofNat 32 binding
  offsets := form.encode.1
  staticByteOffset := form.encode.2

theorem matchBinding_eq (body : Body OpKind) (dispatchTensor : Nat) :
    matchBinding body dispatchTensor =
      (bindingForm body dispatchTensor).map fun found => encodeBinding found.1 found.2 := by
  unfold matchBinding bindingForm
  cases definingOp body dispatchTensor with
  | none => rfl
  | some defined =>
      obtain ⟨⟨kind, operands, results⟩, i⟩ := defined
      cases kind <;> try rfl
      simp only [matchBindingOffset_eq, Option.map_map]
      rfl

section

variable {body : Body OpKind} (function : DispatchFunction body) (constants : Nat → BitVec 32)
  (others : OpKind → List Val → List Val) (memory : Nat → Nat → BitVec 32)

include function

theorem bindingForm_widens {dispatchTensor binding : Nat} {form : OffsetForm}
    (found : bindingForm body dispatchTensor = some (binding, form)) : form.Widens := by
  unfold bindingForm at found
  split at found
  · obtain ⟨form, isForm, same⟩ := Option.map_eq_some_iff.mp found
    cases same
    exact offsetForm_widens function.toWellFormed isForm
  · cases found

/-- A recognized dispatch tensor is where its form says. -/
theorem bindingForm_value {dispatchTensor binding : Nat} {form : OffsetForm}
    (found : bindingForm body dispatchTensor = some (binding, form)) :
    ∃ dims, (runDispatch constants others body memory).1 dispatchTensor =
      .dispatchTensor binding (form.value constants).toNat dims := by
  unfold bindingForm at found
  split at found
  case h_2 => cases found
  rename_i binding hasByteOffset shape operands results i defined
  obtain ⟨form, isForm, same⟩ := Option.map_eq_some_iff.mp found
  cases same
  obtain rfl := function.single defined rfl
  obtain ⟨s, value⟩ := runDispatch_definingOp function.toWellFormed constants others memory defined
  cases hasByteOffset with
  | false =>
      cases isForm
      exact ⟨_, value _ rfl⟩
  | true =>
      obtain ⟨before, after, split, -⟩ := Ssa.definingOp_split defined
      obtain ⟨byteOffset, dims, rfl, index⟩ :=
        function.subspans _ (by rw [split]; exact List.mem_append_right _ (List.mem_cons_self ..))
          _ _ rfl
      have offset := offsetForm_value function.toWellFormed isForm index constants others memory
      refine ⟨runtimeDims shape (dims.map (runDispatch constants others body memory).1), value _ ?_⟩
      simp only [dispatchInterp, List.map_cons, offset]
      rfl

end

/-- What the verifier promises of an access of full extent: its sizes are those of
the dispatch tensor, with as many elements as the tensor type it has. -/
structure Access.FullExtent (access : Access) (values : Nat → Val) (type : TensorType) : Prop where
  ranked : access.Ranked values
  whole : access.sizes values = access.dims values
  typed : ∀ shape, type.staticShape = some shape → (access.dims values).prod = shape.prod

theorem asLoadOp_some {op : Op OpKind} {loadOp : LoadOp} (found : asLoadOp op = some loadOp) :
    op.kind = .dispatchTensorLoad loadOp.slice loadOp.type ∧
      op.operands = loadOp.source :: loadOp.operands := by
  unfold asLoadOp at found
  split at found
  · cases found
    exact ⟨rfl, rfl⟩
  · cases found

theorem asStoreOp_some {op : Op OpKind} {storeOp : StoreOp} (found : asStoreOp op = some storeOp) :
    op.kind = .dispatchTensorStore storeOp.slice ∧
      op.operands = storeOp.value :: storeOp.target :: storeOp.operands := by
  unfold asStoreOp at found
  split at found
  · cases found
    exact ⟨rfl, rfl⟩
  · cases found

section

variable {body : Body OpKind} (function : DispatchFunction body) (constants : Nat → BitVec 32)
  (others : OpKind → List Val → List Val) (memory : Nat → Nat → BitVec 32)

include function

/-- An access of full extent touches the words of its tensor in order. -/
theorem Access.FullExtent.words {access : Access} {type : TensorType} {shape : List Nat}
    (full : access.FullExtent (runDispatch constants others body memory).1 type)
    (covers : access.Covers body) (static : type.staticShape = some shape) :
    access.words (runDispatch constants others body memory).1 = List.range shape.prod := by
  rw [Access.words_origin function.toWellFormed constants others memory covers full.ranked,
    full.whole, RowMajor.addresses_self, full.typed shape static]

/-- An operand of the kernel is the block of memory it is loaded from, as it is
when the load runs. -/
theorem OperandParts.value {operand : Nat} {loadOp : LoadOp} {found : StrelaBinding} {binding : Nat}
    {form : OffsetForm} {type : TensorType} {shape : List Nat}
    (parts : OperandParts body operand loadOp found)
    (full : loadOp.access.FullExtent (runDispatch constants others body memory).1 type)
    (static : type.staticShape = some shape)
    (place : bindingForm body loadOp.source = some (binding, form)) :
    ∃ before op after, body = before ++ op :: after ∧ operand ∈ op.results ∧
      (runDispatch constants others body memory).1 operand = .tensor
        (block ((DispatchState.mk memory []).writeAll
          (bodyWrites (runDispatch constants others body memory).1 before)).memory shape.prod
          (binding, (form.value constants).toNat)) := by
  obtain ⟨op, i, defined, isLoad⟩ := parts.loaded
  obtain ⟨kind, operands⟩ := asLoadOp_some isLoad
  obtain rfl := function.single defined (by rw [kind]; rfl)
  obtain ⟨before, after, split, result, value⟩ :=
    runDispatch_definingOp_before function.toWellFormed constants others memory defined
  obtain ⟨dims, view⟩ := bindingForm_value function constants others memory place
  have words := full.words function constants others memory parts.covers static
  simp only [Access.words, Access.dims, LoadOp.access, view] at words
  refine ⟨before, op, after, split, List.mem_of_getElem? result, value _ ?_⟩
  simp only [kind, operands, List.map_cons, view, dispatchInterp, words, List.getElem?_cons_zero]
  rfl

theorem KernelPlace.definingOp {index result : Nat} {kernelOp : Op OpKind}
    (place : KernelPlace body index kernelOp) (produced : kernelOp.results.head? = some result) :
    Ssa.definingOp body result = some (kernelOp, 0) := by
  have member := List.mem_of_getElem? place.there
  have result_mem := List.mem_of_head? produced
  obtain ⟨tail, results⟩ := List.head?_eq_some_iff.mp produced
  rw [Ssa.definingOp_of_mem function.dominated member result_mem, results]
  simp

/-- What the kernel produces of its operands. -/
theorem kernel_value {index result : Nat} {kernelOp : Op OpKind} {kernel : StrelaKernel}
    {type : TensorType} (place : KernelPlace body index kernelOp)
    (produced : kernelOp.results.head? = some result)
    (chosen : kernelOf kernelOp.kind = .ok (kernel, type))
    (count : kernelOp.operands.length = kernel.inputCount) {tensors : List (List (BitVec 32))}
    (operands : kernelOp.operands.map (runDispatch constants others body memory).1 =
      tensors.map .tensor) :
    (runDispatch constants others body memory).1 result = .tensor (kernel.compute tensors) := by
  have defined := place.definingOp function produced
  obtain ⟨s, value⟩ := runDispatch_definingOp function.toWellFormed constants others memory defined
  apply value
  have length : tensors.length = kernel.inputCount := by
    simpa [count] using (congrArg List.length operands).symm
  rw [operands]
  rcases kernelOf_ok chosen with ⟨kind, rfl⟩ | ⟨kind, rfl⟩
  · obtain ⟨lhs, rhs, rfl⟩ := List.length_eq_two.mp length
    rw [kind]
    rfl
  · obtain ⟨input, rfl⟩ := List.length_eq_one_iff.mp length
    rw [kind]
    rfl

end

theorem length_compute {kind : OpKind} {kernel : StrelaKernel} {type : TensorType}
    (chosen : kernelOf kind = .ok (kernel, type)) {tensors : List (List (BitVec 32))} {n : Nat}
    (count : tensors.length = kernel.inputCount) (same : ∀ words ∈ tensors, words.length = n) :
    (kernel.compute tensors).length = n := by
  rcases kernelOf_ok chosen with ⟨-, rfl⟩ | ⟨-, rfl⟩
  · obtain ⟨lhs, rhs, rfl⟩ := List.length_eq_two.mp count
    simp only [List.mem_cons, List.not_mem_nil, or_false, forall_eq_or_imp, forall_eq] at same
    simp [StrelaKernel.compute, strelaAdd, same]
  · obtain ⟨input, rfl⟩ := List.length_eq_one_iff.mp count
    have one := same input (List.mem_singleton_self _)
    have other : reluKernel ≠ addKernel := by decide
    simp [StrelaKernel.compute, strelaRelu, one]

/-- The writes of `n` words, in order, from a place on. -/
def columnWrites (n : Nat) (place : Nat × Nat) (words : List (BitVec 32)) : List Write :=
  List.zipWith (fun k value => ⟨place.1, place.2 + 4 * k, value⟩) (List.range n) words

/-- No operation writes a word, the store of the kernel's result apart. -/
def OtherStoresIdle (body : Body OpKind) (values : Nat → Val) (resultOp : StoreOp) : Prop :=
  ∀ op ∈ body, asStoreOp op ≠ some resultOp → op.kind.writes (op.operands.map values) = []

/-- The one use of a value that is used once. -/
theorem split_of_count {body : Body OpKind} {v : Nat} {op : Op OpKind}
    (once : (Ssa.uses body).count v = 1) (found : body.find? (v ∈ ·.operands) = some op) :
    ∃ before after, body = before ++ op :: after ∧ v ∈ op.operands ∧ v ∉ Ssa.uses before ∧
      v ∉ Ssa.uses after := by
  obtain ⟨user, before, after, rfl, -⟩ := List.find?_eq_some_iff_append.mp found
  have used : v ∈ op.operands := by simpa using user
  have here := List.count_pos_iff.mpr used
  rw [Ssa.uses_append, Ssa.uses_cons, List.count_append, List.count_append] at once
  exact ⟨before, after, rfl, used, List.count_eq_zero.mp (by omega),
    List.count_eq_zero.mp (by omega)⟩

/-- Where a recognized dispatch tensor is when the function runs. -/
def located (constants : Nat → BitVec 32) (found : Nat × OffsetForm) : Nat × Nat :=
  (found.1, (found.2.value constants).toNat)

theorem bodyWrites_eq_nil {values : Nat → Val} {body : Body OpKind} :
    bodyWrites values body = [] ↔ ∀ op ∈ body, op.kind.writes (op.operands.map values) = [] := by
  simp [bodyWrites, List.flatMap_eq_nil_iff]

section

variable {body : Body OpKind} (function : DispatchFunction body) (constants : Nat → BitVec 32)
  (others : OpKind → List Val → List Val) (memory : Nat → Nat → BitVec 32) {type : TensorType}
  {shape : List Nat} (static : type.staticShape = some shape)

include function static

/-- What the operands of the kernel hold: blocks of the memory the function starts
with, if nothing is written before they are loaded. -/
theorem operands_value {operands : List Nat} {found : List (LoadOp × StrelaBinding)}
    {sources : List (Nat × OffsetForm)}
    (loaded : List.Forall₂
      (fun operand found => OperandParts body operand found.1 found.2) operands found)
    (places : found.map (fun p => bindingForm body p.1.source) = sources.map some)
    (full : ∀ p ∈ found, p.1.access.FullExtent (runDispatch constants others body memory).1 type) :
    ∃ tensors, operands.map (runDispatch constants others body memory).1 = tensors.map .tensor ∧
      (∀ words ∈ tensors, words.length = shape.prod) ∧
      ((∀ before op after, body = before ++ op :: after → ∀ operand ∈ operands,
        operand ∈ op.results →
          bodyWrites (runDispatch constants others body memory).1 before = []) →
        tensors = sources.map fun source =>
          block memory shape.prod (located constants source)) := by
  induction loaded generalizing sources with
  | nil =>
      obtain rfl : sources = [] := by simpa using places.symm
      exact ⟨[], rfl, by simp, fun _ => rfl⟩
  | @cons operand p operands found parts tail ih =>
      obtain ⟨source, sources, rfl⟩ : ∃ source rest, sources = source :: rest := by
        cases sources with
        | nil => cases places
        | cons source rest => exact ⟨source, rest, rfl⟩
      simp only [List.map_cons, List.cons.injEq] at places
      obtain ⟨before, op, after, split, made, value⟩ := parts.value function constants others memory
        (full p (List.mem_cons_self ..)) static places.1
      obtain ⟨tensors, values, lengths, first⟩ :=
        ih places.2 fun q member => full q (List.mem_cons_of_mem _ member)
      refine ⟨_ :: tensors, by rw [List.map_cons, value, values]; rfl, ?_, fun idle => ?_⟩
      · simpa using lengths
      · rw [idle before op after split operand (List.mem_cons_self ..) made,
          first fun b o a split' v member =>
          idle b o a split' v (List.mem_cons_of_mem _ member)]
        rfl

end

section

variable {body : Body OpKind} (function : DispatchFunction body) {info : StrelaEntryPointInfo}
  {result : Nat} (parts : EntryPointParts body info result)

include function parts

/-- The store of the kernel's result stores it. -/
theorem EntryPointParts.stored_value : info.resultOp.value = result := by
  obtain ⟨op, found, isStore⟩ := parts.stored.stored
  have used : result ∈ op.operands := by simpa using List.find?_some found
  have member := List.mem_of_find?_eq_some found
  have defined := parts.kernel.definingOp function parts.produced
  rw [(asStoreOp_some isStore).2, List.mem_cons, List.mem_cons] at used
  rcases used with value | target | entry
  · exact value.symm
  · have matched := parts.stored.matched
    rw [← target, matchBinding, defined] at matched
    have strela := parts.kernel.strela
    split at matched
    · rename_i same
      have isSubspan := congrArg Prod.fst (Option.some.inj same)
      dsimp only at isSubspan
      rw [isSubspan] at strela
      cases strela
    · cases matched
  · have none := function.entries op member _ isStore result entry _ _ defined
    have strela := parts.kernel.strela
    rw [none] at strela
    cases strela

/-- The store of the result is the only operation that uses it. -/
theorem EntryPointParts.uses_of_store {op : Op OpKind}
    (isStore : asStoreOp op = some info.resultOp) :
    result ∈ op.operands := by
  rw [(asStoreOp_some isStore).2, parts.stored_value function]
  exact List.mem_cons_self ..

/-- What the kernel reads is loaded before its result is stored. -/
theorem EntryPointParts.loaded_before {before after : Body OpKind} {op : Op OpKind}
    (split : body = before ++ op :: after) {operand : Nat} (used : operand ∈ info.kernelOp.operands)
    (made : operand ∈ op.results) : result ∉ Ssa.uses before := by
  intro early
  have dominated := function.dominated
  rw [split] at dominated
  obtain ⟨head, _, fresh, _⟩ := (Ssa.dominated_append _ _ _).mp dominated
  have here : info.kernelOp ∈ before := by
    refine dominated.mem_left (v := result) ?_ (List.mem_of_head? parts.produced) ?_
    · rw [← split]
      exact List.mem_of_getElem? parts.kernel.there
    · simpa using head.uses_defined result early
  exact fresh operand made (head.uses_defined operand (Ssa.mem_uses here used))

/-- The writes of the function: those of the kernel's store, and what others write
before and after it. -/
theorem EntryPointParts.split_writes (values : Nat → Val) :
    ∃ before op after, body = before ++ op :: after ∧ asStoreOp op = some info.resultOp ∧
      bodyWrites values body =
        bodyWrites values before ++ op.kind.writes (op.operands.map values) ++
        bodyWrites values after ∧
      (OtherStoresIdle body values info.resultOp ↔
        bodyWrites values before = [] ∧ bodyWrites values after = []) := by
  obtain ⟨op, found, isStore⟩ := parts.stored.stored
  obtain ⟨before, after, split, used, earlier, later⟩ := split_of_count parts.stored.once found
  refine ⟨before, op, after, split, isStore, by simp [split, bodyWrites], ?_⟩
  rw [bodyWrites_eq_nil, bodyWrites_eq_nil]
  constructor
  · intro idle
    refine ⟨fun other member => idle other (by simp [split, member]) fun same =>
      earlier (Ssa.mem_uses member (parts.uses_of_store function same)),
      fun other member => idle other (by simp [split, member]) fun same =>
      later (Ssa.mem_uses member (parts.uses_of_store function same))⟩
  · rintro ⟨first, second⟩ other member notStore
    rw [split] at member
    rcases List.mem_append.mp member with left | right
    · exact first other left
    · rcases List.mem_cons.mp right with rfl | right
      · exact absurd isStore notStore
      · exact second other right

end

/-- What a kernel writes to a place when it reads its operands from others. -/
def jobWrites (kernel : StrelaKernel) (memory : Nat → Nat → BitVec 32) (n : Nat)
    (target : Nat × Nat) (sources : List (Nat × Nat)) : List Write :=
  columnWrites n target (kernel.compute (sources.map (block memory n)))

theorem length_columnWrites {n : Nat} {place : Nat × Nat} {words : List (BitVec 32)}
    (whole : words.length = n) :
    (columnWrites n place words).length = n := by
  simp [columnWrites, whole]

/-- A function the backend takes for a kernel, with all it goes by. -/
structure KernelFunction (body : Body OpKind) (info : StrelaEntryPointInfo) (result : Nat)
    (kernel : StrelaKernel) (type : TensorType) (shape : List Nat)
    (sources : List (Nat × OffsetForm)) (target : Nat × OffsetForm) : Prop
    extends DispatchFunction body where
  parts : EntryPointParts body info result
  chosen : kernelOf info.kernelOp.kind = .ok (kernel, type)
  count : info.kernelOp.operands.length = kernel.inputCount
  typed : ∀ loadOp ∈ info.operandOps, loadOp.type = type
  static : type.staticShape = some shape
  sourcesFound : (info.operandOps.zip info.operands).map
      (fun found => bindingForm body found.1.source) =
    sources.map some
  targetFound : bindingForm body info.resultOp.target = some target

section

variable {body : Body OpKind} {info : StrelaEntryPointInfo} {result : Nat} {kernel : StrelaKernel}
  {type : TensorType} {shape : List Nat} {sources : List (Nat × OffsetForm)}
  {target : Nat × OffsetForm}
  (function : KernelFunction body info result kernel type shape sources target)
  (constants : Nat → BitVec 32) (others : OpKind → List Val → List Val)
  (memory : Nat → Nat → BitVec 32)
  (full : ∀ access ∈ info.accesses,
    access.FullExtent (runDispatch constants others body memory).1 type)

include function full

theorem store_writes {op : Op OpKind} (isStore : asStoreOp op = some info.resultOp)
    {words : List (BitVec 32)}
    (value : (runDispatch constants others body memory).1 result = .tensor words) :
    op.kind.writes (op.operands.map (runDispatch constants others body memory).1) =
      columnWrites shape.prod (located constants target) words := by
  obtain ⟨kind, operands⟩ := asStoreOp_some isStore
  obtain ⟨dims, view⟩ :=
    bindingForm_value function.toDispatchFunction constants others memory function.targetFound
  have touched := (full info.resultOp.access (by simp [StrelaEntryPointInfo.accesses])).words
    function.toDispatchFunction constants others memory function.parts.stored.covers function.static
  simp only [Access.words, Access.dims, StoreOp.access, view] at touched
  rw [kind, operands, List.map_cons, List.map_cons, view,
    function.parts.stored_value function.toDispatchFunction, value, OpKind.writes, touched]
  rfl

/-- The function writes as many words as its result has exactly if nothing but the
result is stored, and then it writes what its kernel makes of the memory it starts
with. -/
theorem dispatch_writes :
    ((runDispatch constants others body memory).2.writes.length = shape.prod →
      OtherStoresIdle body (runDispatch constants others body memory).1 info.resultOp) ∧
    (OtherStoresIdle body (runDispatch constants others body memory).1 info.resultOp →
      (runDispatch constants others body memory).2.writes =
        jobWrites kernel memory shape.prod (located constants target)
          (sources.map (located constants))) := by
  have dispatch := function.toDispatchFunction
  have loads : ∀ p ∈ info.operandOps.zip info.operands,
      p.1.access.FullExtent (runDispatch constants others body memory).1 type := fun p member =>
    full _ (List.mem_append_left _ (List.mem_map.mpr ⟨p.1, (List.of_mem_zip member).1, rfl⟩))
  obtain ⟨tensors, values, lengths, first⟩ := operands_value dispatch constants others memory
    function.static function.parts.operands function.sourcesFound loads
  have tensorCount : tensors.length = kernel.inputCount := by
    simpa [function.count] using (congrArg List.length values).symm
  have value := kernel_value dispatch constants others memory function.parts.kernel
    function.parts.produced
    function.chosen function.count values
  obtain ⟨before, op, after, split, isStore, whole, idle_iff⟩ :=
    function.parts.split_writes dispatch (runDispatch constants others body memory).1
  rw [store_writes function constants others memory full isStore value] at whole
  rw [runDispatch_writes dispatch.toWellFormed, whole]
  constructor
  · intro count
    rw [List.length_append, List.length_append,
      length_columnWrites (length_compute function.chosen tensorCount lengths)] at count
    exact idle_iff.mpr ⟨List.length_eq_zero_iff.mp (by omega),
      List.length_eq_zero_iff.mp (by omega)⟩
  · intro idle
    obtain ⟨nothingBefore, nothingAfter⟩ := idle_iff.mp idle
    rw [nothingBefore, nothingAfter, first, jobWrites, List.map_map]
    · simp [Function.comp_def]
    · intro early load late splitLoad operand used made
      refine bodyWrites_eq_nil.mpr fun other member =>
        idle other (by simp [splitLoad, member]) fun same => ?_
      exact function.parts.loaded_before dispatch splitLoad used made
        (Ssa.mem_uses member (function.parts.uses_of_store dispatch same))

end

end Estela.Compiler
