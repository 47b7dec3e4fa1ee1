import Estela.Lib.DeadCode
import Estela.Compiler.ExportEffects

set_option autoImplicit false

/- What the last loop of MaterializeBindings leaves of a function. Operations have
regions here, with operations of their own: the loop visits the operations of the
function's block and no other, but a value is used wherever an operation reads it. -/
namespace Estela.Compiler.Nested

open Ssa (Op Body)

/-- `HasRecursiveMemoryEffects` and `IsTerminator`. -/
structure Traits where
  recursive : Bool
  terminator : Bool
  deriving DecidableEq, Repr

/-- The operations in the regions of an operation, one after the other, each with the
operations of its own regions. `arguments` are the arguments of the blocks of those. -/
inductive Region
  | nil
  | cons (op : Op OpKind) (arguments : List Nat) (traits : Traits) (nested rest : Region)
  deriving DecidableEq, Repr

/-- An operation and its regions. -/
structure RegionOp where
  op : Op OpKind
  arguments : List Nat
  traits : Traits
  region : Region
  deriving DecidableEq, Repr

/-- An operation without regions, and no terminator. -/
def ofOp (op : Op OpKind) : RegionOp := ⟨op, [], ⟨false, false⟩, .nil⟩

structure FuncOp where
  symName : String
  body : List RegionOp
  deriving DecidableEq, Repr

/-- Every operation, at whatever depth. -/
def Region.walk : Region → Body OpKind
  | .nil => []
  | .cons op _ _ nested rest => op :: (nested.walk ++ rest.walk)

def Region.blockArguments : Region → List Nat
  | .nil => []
  | .cons _ arguments _ nested rest => arguments ++ nested.blockArguments ++ rest.blockArguments

/-- The same with the regions of each. -/
def Region.nestedOps : Region → List RegionOp
  | .nil => []
  | .cons op arguments traits nested rest =>
      ⟨op, arguments, traits, nested⟩ :: (nested.nestedOps ++ rest.nestedOps)

def RegionOp.walk (o : RegionOp) : Body OpKind := o.op :: o.region.walk

def walk (body : List RegionOp) : Body OpKind := body.flatMap RegionOp.walk

/-- The operations of a block and of all regions in it. -/
def everyOp (body : List RegionOp) : List RegionOp := body.flatMap fun o => o :: o.region.nestedOps

/-- The values defined in the regions of an operation. -/
def RegionOp.inner (o : RegionOp) : List Nat :=
  o.arguments ++ o.region.blockArguments ++ Ssa.defs o.region.walk

/-- The values its regions use from outside. -/
def RegionOp.captured (o : RegionOp) : List Nat :=
  (Ssa.uses o.region.walk).filter (· ∉ o.inner)

/-- An operation as one that uses what its regions use. -/
def RegionOp.outline (o : RegionOp) : Op RegionOp := ⟨o, o.op.operands ++ o.captured, o.op.results⟩

/-- Whether none of the operations has an effect. -/
def Region.isPure : Region → Bool
  | .nil => true
  | .cons op _ traits nested rest =>
      op.kind.isPure && (!traits.recursive || nested.isPure) && rest.isPure

/-- `wouldOpBeTriviallyDead`. -/
def RegionOp.wouldOpBeTriviallyDead (o : RegionOp) : Bool :=
  !o.traits.terminator && (o.op.kind.isPure && (!o.traits.recursive || o.region.isPure))

/-- `isOpTriviallyDead`, in a body made of `o` and the operations around it. -/
def isOpTriviallyDead (o : RegionOp) (around : List RegionOp) : Bool :=
  o.wouldOpBeTriviallyDead && o.op.results.all (· ∉ Ssa.uses (walk around))

/-- The last loop of the pass: from the last operation back to the first. -/
def eraseTriviallyDead : List RegionOp → List RegionOp → List RegionOp
  | [], kept => kept
  | o :: earlier, kept =>
      if isOpTriviallyDead o (earlier ++ kept) then eraseTriviallyDead earlier kept
      else eraseTriviallyDead earlier (o :: kept)

/-- `analyzeEntryPoint`. The kernel is looked for in the block, the user of its result
everywhere. -/
def analyzeEntryPoint (body : List RegionOp) : Except String StrelaEntryPointInfo := do
  let (kernelIndex, kernelOp) ← findKernelOp (body.map RegionOp.op)
  if ¬ kernelOp.kind.strelaType.any TensorType.isRanked then
    .error "expected a ranked tensor result"
  let operands ← analyzeOperands (walk body) kernelOp.operands
  let some resultValue := kernelOp.results.head?
    | .error "result must be stored to a binding exactly once"
  let result ← analyzeResult (walk body) resultValue
  return {
    kernelIndex
    kernelOp
    operandOps := operands.map Prod.fst
    resultOp := result.1
    operands := operands.map Prod.snd
    result := result.2 }

/-- A number above every value of the body. -/
def freshValue (body : List RegionOp) : Nat :=
  (Ssa.defs (walk body) ++ Ssa.uses (walk body) ++ body.flatMap RegionOp.inner).foldl max 0 + 1

def Region.erase (erased : Op OpKind → Bool) : Region → Region
  | .nil => .nil
  | .cons op arguments traits nested rest =>
      if erased op then rest.erase erased
      else .cons op arguments traits (nested.erase erased) (rest.erase erased)

/-- Whether an operation is the store of the result, its one user. -/
def storesResult (info : StrelaEntryPointInfo) (op : Op OpKind) : Bool :=
  info.kernelOp.results.any (· ∈ op.operands)

/-- An operation once the store of the result is erased from its regions. -/
def RegionOp.withoutStore (info : StrelaEntryPointInfo) (o : RegionOp) : RegionOp :=
  { o with region := o.region.erase (storesResult info) }

def eraseStore (info : StrelaEntryPointInfo) (body : List RegionOp) : List RegionOp :=
  (body.filter fun o => !storesResult info o.op).map (RegionOp.withoutStore info)

/-- The new loads, one for each operand of the kernel. -/
def bindingLoads (body : List RegionOp) (info : StrelaEntryPointInfo) : Body OpKind :=
  (info.operandOps.zip info.operands).mapIdx fun index (loadOp, binding) =>
    ⟨.bindingLoad binding.attrs loadOp.type, [], [freshValue body + index]⟩

/-- The rewrite of the pass before its last loop. -/
def materializeBindings (body : List RegionOp) (info : StrelaEntryPointInfo) : List RegionOp :=
  let loads := bindingLoads body info
  let kernelOp := { info.kernelOp with operands := Ssa.defs loads }
  let store : Op OpKind := ⟨.bindingStore info.result.attrs, info.kernelOp.results, []⟩
  eraseStore info (body.take info.kernelIndex) ++ loads.map ofOp ++ [ofOp kernelOp, ofOp store] ++
    eraseStore info (body.drop (info.kernelIndex + 1))

/-- `MaterializeBindingsPass::runOnOperation`. -/
def materializeBindingsPass (funcOp : FuncOp) : Except String FuncOp := do
  let info ← analyzeEntryPoint funcOp.body
  return { funcOp with
    body := eraseTriviallyDead (materializeBindings funcOp.body info).reverse [] }

/-- The stores among the operations have no regions. -/
def Region.Bare : Region → Prop
  | .nil => True
  | .cons op arguments _ nested rest =>
      ((asStoreOp op).isSome = true → arguments = [] ∧ nested = .nil) ∧ nested.Bare ∧ rest.Bare

theorem Region.walk_eq (region : Region) : region.walk = region.nestedOps.map RegionOp.op := by
  induction region with
  | nil => rfl
  | cons op arguments traits nested rest nestedIh restIh =>
      simp [Region.walk, Region.nestedOps, nestedIh, restIh]

theorem mem_everyOp {body : List RegionOp} {o : RegionOp} :
    o ∈ everyOp body ↔ o ∈ body ∨ ∃ p ∈ body, o ∈ p.region.nestedOps := by
  simp only [everyOp, List.mem_flatMap, List.mem_cons]
  constructor
  · rintro ⟨p, member, rfl | inside⟩
    · exact Or.inl member
    · exact Or.inr ⟨p, member, inside⟩
  · rintro (member | ⟨p, member, inside⟩)
    · exact ⟨o, member, Or.inl rfl⟩
    · exact ⟨p, member, Or.inr inside⟩

theorem walk_eq (body : List RegionOp) : walk body = (everyOp body).map RegionOp.op := by
  rw [walk, everyOp, List.map_flatMap]
  refine congrArg (body.flatMap ·) (funext fun o => ?_)
  rw [RegionOp.walk, Region.walk_eq, List.map_cons]

/-- What an operation in its regions defines. -/
theorem RegionOp.mem_inner {o nested : RegionOp} (inside : nested ∈ o.region.nestedOps) {v : Nat}
    (made : v ∈ nested.op.results) : v ∈ o.inner := by
  refine List.mem_append_right _ (Ssa.mem_defs ?_ made)
  rw [Region.walk_eq]
  exact List.mem_map_of_mem inside

section

variable (body : Body OpKind)

theorem walk_ofOp : walk (body.map ofOp) = body := by
  simp [walk, List.flatMap_map, RegionOp.walk, ofOp, Region.walk]

theorem op_ofOp : (body.map ofOp).map RegionOp.op = body := by
  simp [Function.comp_def, ofOp]

theorem analyzeEntryPoint_ofOp :
    analyzeEntryPoint (body.map ofOp) = Compiler.analyzeEntryPoint body := by
  rw [analyzeEntryPoint, walk_ofOp, op_ofOp]
  rfl

theorem freshValue_ofOp : freshValue (body.map ofOp) = Compiler.freshValue body := by
  have inner : (body.map ofOp).flatMap RegionOp.inner = [] := by
    simp [RegionOp.inner, ofOp, Region.blockArguments, Region.walk]
  rw [freshValue, walk_ofOp, inner, List.append_nil]
  rfl

theorem eraseStore_ofOp (info : StrelaEntryPointInfo) :
    eraseStore info (body.map ofOp) =
      (body.filter fun op => info.kernelOp.results.all (· ∉ op.operands)).map ofOp := by
  have keeps (op : Op OpKind) : (!storesResult info (ofOp op).op) =
      info.kernelOp.results.all (· ∉ op.operands) := by
    show (!storesResult info op) = _
    simp [storesResult, List.not_any_eq_all_not]
  rw [eraseStore, List.filter_map, List.map_map]
  simp only [Function.comp_def, keeps]
  rfl

theorem materializeBindings_ofOp (info : StrelaEntryPointInfo) :
    materializeBindings (body.map ofOp) info =
      (Compiler.materializeBindings body info).map ofOp := by
  simp only [materializeBindings, Compiler.materializeBindings, bindingLoads, freshValue_ofOp,
    ← List.map_take, ← List.map_drop, eraseStore_ofOp, List.map_append, List.map_cons, List.map_nil]

theorem eraseTriviallyDead_ofOp (earlier kept : Body OpKind) :
    eraseTriviallyDead (earlier.map ofOp) (kept.map ofOp) =
      (Compiler.eraseTriviallyDead earlier kept).map ofOp := by
  induction earlier generalizing kept with
  | nil => rfl
  | cons op earlier ih =>
      have dead : isOpTriviallyDead (ofOp op) (earlier.map ofOp ++ kept.map ofOp) =
          Compiler.isOpTriviallyDead op (earlier ++ kept) := by
        rw [isOpTriviallyDead, ← List.map_append, walk_ofOp]
        simp [RegionOp.wouldOpBeTriviallyDead, Compiler.isOpTriviallyDead, ofOp]
      rw [List.map_cons, eraseTriviallyDead, Compiler.eraseTriviallyDead, dead]
      split
      · exact ih kept
      · exact ih (op :: kept)

end

/-- On a function without regions this is the pass the other modules know. -/
theorem materializeBindingsPass_ofOp (funcOp : Compiler.FuncOp) :
    materializeBindingsPass ⟨funcOp.symName, funcOp.body.map ofOp⟩ =
      (Compiler.materializeBindingsPass funcOp).map fun lowered =>
        ⟨lowered.symName, lowered.body.map ofOp⟩ := by
  simp only [materializeBindingsPass, Compiler.materializeBindingsPass, analyzeEntryPoint_ofOp]
  cases Compiler.analyzeEntryPoint funcOp.body with
  | error message => rfl
  | ok info =>
      have swept := eraseTriviallyDead_ofOp
        (Compiler.materializeBindings funcOp.body info).reverse []
      rw [List.map_reverse, ← materializeBindings_ofOp] at swept
      exact congrArg (fun body => Except.ok (FuncOp.mk funcOp.symName body)) swept

/-- What MLIR's verifier promises of the function: at each operation all is defined that
it and its regions use, values have one definition, and stores have no results and no
regions. -/
structure WellFormed (body : List RegionOp) : Prop where
  dominated : Ssa.Dominated [] (body.map RegionOp.outline)
  apart : ∀ o ∈ body, ∀ v ∈ o.inner, ∀ top ∈ body, v ∉ top.op.results
  distinct : (body.flatMap RegionOp.inner).Nodup
  results : ∀ op ∈ walk body, ∀ n, op.kind.resultCount op.operands.length = some n →
    op.results.length = n
  bare : ∀ o ∈ body, o.region.Bare

section

variable {body : List RegionOp} {info : StrelaEntryPointInfo} {v : Nat}

theorem mem_uses_walk : v ∈ Ssa.uses (walk body) ↔
    ∃ o ∈ body, v ∈ o.op.operands ∨ v ∈ Ssa.uses o.region.walk := by
  simp only [walk, Ssa.uses, List.flatMap_assoc, RegionOp.walk, List.mem_flatMap,
    List.flatMap_cons, List.mem_append]

theorem mem_uses_outline : v ∈ Ssa.uses (body.map RegionOp.outline) ↔
    ∃ o ∈ body, v ∈ o.op.operands ∨ v ∈ Ssa.uses o.region.walk ∧ v ∉ o.inner := by
  simp only [Ssa.uses, List.flatMap_map, List.mem_flatMap, RegionOp.outline, List.mem_append,
    RegionOp.captured, List.mem_filter, decide_eq_true_eq]

/-- A value no region defines is used where some outline uses it. -/
theorem isOpTriviallyDead_outline (o : RegionOp) (around : List RegionOp)
    (apart : ∀ v ∈ o.op.results, ∀ other ∈ around, v ∉ other.inner) :
    isOpTriviallyDead o around =
      Ssa.isDead RegionOp.wouldOpBeTriviallyDead o.outline (around.map RegionOp.outline) := by
  refine congrArg (o.wouldOpBeTriviallyDead && ·) (Bool.eq_iff_iff.mpr ?_)
  simp only [RegionOp.outline, List.all_eq_true, decide_eq_true_eq]
  refine forall₂_congr fun v made => not_congr ?_
  rw [mem_uses_walk, mem_uses_outline]
  refine exists_congr fun other => and_congr_right fun member => or_congr_right ?_
  exact (and_iff_left (apart v made other member)).symm

/-- No region defines a value that an operation of the block defines. -/
def Apart (body : List RegionOp) : Prop :=
  ∀ o ∈ body, ∀ v ∈ o.op.results, ∀ other ∈ body, v ∉ other.inner

theorem eraseTriviallyDead_outline (earlier kept : List RegionOp)
    (apart : Apart (earlier ++ kept)) :
    (eraseTriviallyDead earlier kept).map RegionOp.outline =
      Ssa.sweep RegionOp.wouldOpBeTriviallyDead (earlier.map RegionOp.outline)
        (kept.map RegionOp.outline) := by
  induction earlier generalizing kept with
  | nil => rfl
  | cons o earlier ih =>
      have dead := isOpTriviallyDead_outline o (earlier ++ kept)
        fun v made other member => apart o (List.mem_append_left _ (List.mem_cons_self ..)) v made
          other (List.mem_cons_of_mem o member)
      rw [List.map_append] at dead
      rw [List.map_cons, eraseTriviallyDead, Ssa.sweep, ← dead]
      split
      · exact ih kept fun o' member v made other there =>
          apart o' (List.mem_cons_of_mem o member) v made other (List.mem_cons_of_mem o there)
      · have moved (o' : RegionOp) : o' ∈ earlier ++ o :: kept ↔ o' ∈ o :: earlier ++ kept := by
          simp only [List.mem_append, List.mem_cons]
          tauto
        exact ih (o :: kept) fun o' member v made other there =>
          apart o' ((moved o').mp member) v made other ((moved other).mp there)

/-- An operation of the block that has an effect, or that a live operation uses, in its
regions or not. -/
def Live (body : List RegionOp) (o : RegionOp) : Prop :=
  Ssa.Live RegionOp.wouldOpBeTriviallyDead (body.map RegionOp.outline) o.outline

noncomputable def isLive (body : List RegionOp) (o : RegionOp) : Bool :=
  Ssa.isLive RegionOp.wouldOpBeTriviallyDead (body.map RegionOp.outline) o.outline

theorem isLive_iff {o : RegionOp} : isLive body o = true ↔ Live body o := Ssa.isLive_iff

theorem outline_injective : Function.Injective RegionOp.outline := fun _ _ same =>
  congrArg Op.kind same

/-- The loop keeps what is live, in order, and nothing else. -/
theorem eraseTriviallyDead_eq_live (apart : Apart body)
    (dominated : Ssa.Dominated [] (body.map RegionOp.outline)) :
    eraseTriviallyDead body.reverse [] = body.filter (isLive body) := by
  refine outline_injective.list_map ?_
  have reversed : Apart (body.reverse ++ []) := by
    simpa [Apart] using apart
  rw [eraseTriviallyDead_outline _ _ reversed, List.map_reverse, List.map_nil,
    Ssa.sweep_eq_live dominated, List.filter_map]
  rfl

end

theorem Region.erase_walk (erased : Op OpKind → Bool) (region : Region) :
    (region.erase erased).walk.Sublist region.walk := by
  induction region with
  | nil => exact .slnil
  | cons op arguments traits nested rest nestedIh restIh =>
      rw [Region.erase]
      split
      · exact (restIh.trans (List.sublist_append_right _ _)).cons _
      · exact (nestedIh.append restIh).cons_cons _

/-- What is left in the regions of an operation was there before. -/
theorem Region.mem_erase {erased : Op OpKind → Bool} {region : Region} {o : RegionOp}
    (member : o ∈ (region.erase erased).nestedOps) :
    ∃ nested ∈ region.nestedOps, erased nested.op = false ∧
      o = { nested with region := nested.region.erase erased } := by
  induction region with
  | nil => cases member
  | cons op arguments traits nested rest nestedIh restIh =>
      rw [Region.erase] at member
      split at member
      · obtain ⟨before, inside, left⟩ := restIh member
        exact ⟨before, List.mem_cons_of_mem _ (List.mem_append_right _ inside), left⟩
      · rename_i isKept
        simp only [Region.nestedOps, List.mem_cons, List.mem_append] at member
        rcases member with rfl | inNested | inRest
        · exact ⟨_, List.mem_cons_self .., by simpa using isKept, rfl⟩
        · obtain ⟨before, inside, left⟩ := nestedIh inNested
          exact ⟨before, List.mem_cons_of_mem _ (List.mem_append_left _ inside), left⟩
        · obtain ⟨before, inside, left⟩ := restIh inRest
          exact ⟨before, List.mem_cons_of_mem _ (List.mem_append_right _ inside), left⟩

theorem Region.erase_self {erased : Op OpKind → Bool} {region : Region}
    (none_ : ∀ op ∈ region.walk, erased op = false) : region.erase erased = region := by
  induction region with
  | nil => rfl
  | cons op arguments traits nested rest nestedIh restIh =>
      have here := none_ op (List.mem_cons_self ..)
      rw [Region.erase, here, nestedIh fun op' member => none_ op'
          (List.mem_cons_of_mem _ (List.mem_append_left _ member)),
        restIh fun op' member =>
        none_ op' (List.mem_cons_of_mem _ (List.mem_append_right _ member))]
      rfl

/-- Erasing stores takes no value away. -/
theorem Region.erase_values (erased : Op OpKind → Bool) {region : Region} (bare : region.Bare)
    (stores : ∀ op ∈ region.walk, erased op = true →
      (asStoreOp op).isSome = true ∧ op.results = []) :
    (region.erase erased).blockArguments = region.blockArguments ∧
      Ssa.defs (region.erase erased).walk = Ssa.defs region.walk := by
  induction region with
  | nil => exact ⟨rfl, rfl⟩
  | cons op arguments traits nested rest nestedIh restIh =>
      obtain ⟨alone, nestedBare, restBare⟩ := bare
      obtain ⟨restArguments, restDefs⟩ := restIh restBare fun op' member =>
        stores op' (List.mem_cons_of_mem _ (List.mem_append_right _ member))
      rw [Region.erase]
      split
      · rename_i isErased
        obtain ⟨isStore, noResults⟩ := stores op (List.mem_cons_self ..) isErased
        obtain ⟨rfl, rfl⟩ := alone isStore
        simp [Region.blockArguments, Region.walk, noResults, restArguments, restDefs]
      · obtain ⟨nestedArguments, nestedDefs⟩ := nestedIh nestedBare fun op' member =>
          stores op' (List.mem_cons_of_mem _ (List.mem_append_left _ member))
        simp [Region.blockArguments, Region.walk, nestedArguments, restArguments, nestedDefs,
          restDefs]

/-- What the analysis found in a well-formed function. -/
structure Entry (body : List RegionOp) (info : StrelaEntryPointInfo) (result : Nat) : Prop where
  wellFormed : WellFormed body
  kernel : KernelPlace (body.map RegionOp.op) info.kernelIndex info.kernelOp
  produced : info.kernelOp.results = [result]
  stored : ResultParts (walk body) result info.resultOp info.result

theorem mem_walk {body : List RegionOp} {o : RegionOp} (member : o ∈ body) {op : Op OpKind}
    (inside : op ∈ o.walk) : op ∈ walk body :=
  List.mem_flatMap.mpr ⟨o, member, inside⟩

theorem analyzeEntryPoint_entry {body : List RegionOp} {info : StrelaEntryPointInfo}
    (wellFormed : WellFormed body) (analyzed : analyzeEntryPoint body = .ok info) :
    ∃ result, Entry body info result := by
  simp only [analyzeEntryPoint, bind, Except.bind, pure, Except.pure] at analyzed
  split at analyzed
  · cases analyzed
  rename_i kernel kernelFound
  split at analyzed
  · cases analyzed
  split at analyzed
  · cases analyzed
  split at analyzed
  case h_2 => cases analyzed
  rename_i resultValue produced
  split at analyzed
  · cases analyzed
  rename_i result resultFound
  cases analyzed
  have place := findKernelOp_ok kernelFound
  refine ⟨resultValue, wellFormed, place, ?_, analyzeResult_ok resultFound⟩
  obtain ⟨o, member, isKernel⟩ := List.mem_map.mp (List.mem_of_getElem? place.there)
  have one : kernel.2.kind.resultCount kernel.2.operands.length = some 1 := by
    have strela := place.strela
    cases isKind : kernel.2.kind <;> simp_all [OpKind.strelaType, OpKind.resultCount]
  have length := wellFormed.results kernel.2
    (mem_walk member (isKernel ▸ List.mem_cons_self ..)) 1 one
  obtain ⟨value, single⟩ := List.length_eq_one_iff.mp length
  rw [single] at produced ⊢
  exact congrArg (fun v => [v]) (Option.some.inj produced)

section

variable {body : List RegionOp} {info : StrelaEntryPointInfo} {result : Nat}
  (entry : Entry body info result)

include entry

/-- The result has one user, and that is a store. -/
theorem Entry.store {op : Op OpKind} (member : op ∈ walk body)
    (stores : storesResult info op = true) :
    (asStoreOp op).isSome = true ∧ op.results = [] := by
  have used : result ∈ op.operands := by simpa [storesResult, entry.produced] using stores
  obtain ⟨user, found, isStore⟩ := entry.stored.stored
  obtain ⟨before, after, split, -, earlier, later⟩ := split_of_count entry.stored.once found
  have same : op = user := by
    rw [split, List.mem_append, List.mem_cons] at member
    rcases member with early | here | late
    · exact absurd (Ssa.mem_uses early used) earlier
    · exact here
    · exact absurd (Ssa.mem_uses late used) later
  subst same
  refine ⟨Option.isSome_iff_exists.mpr ⟨_, isStore⟩, ?_⟩
  have kind : ∃ slice, op.kind = .dispatchTensorStore slice := by
    unfold asStoreOp at isStore
    split at isStore
    · exact ⟨_, rfl⟩
    · cases isStore
  obtain ⟨slice, kind⟩ := kind
  exact List.length_eq_zero_iff.mp (entry.wellFormed.results op member 0 (by rw [kind]; rfl))

theorem Entry.withoutStore_inner {o : RegionOp} (member : o ∈ body) :
    (o.withoutStore info).inner = o.inner := by
  obtain ⟨arguments, values⟩ := Region.erase_values (storesResult info)
    (entry.wellFormed.bare o member) fun op inside =>
      entry.store (mem_walk member (List.mem_cons_of_mem _ inside))
  simp only [RegionOp.inner, RegionOp.withoutStore, arguments, values]

theorem Entry.withoutStore_operands {o : RegionOp} (member : o ∈ body) {v : Nat}
    (used : v ∈ (o.withoutStore info).outline.operands) : v ∈ o.outline.operands := by
  have same := entry.withoutStore_inner member
  simp only [RegionOp.outline, RegionOp.captured, List.mem_append, List.mem_filter,
    same] at used ⊢
  refine used.imp_right fun inside => ⟨?_, inside.2⟩
  obtain ⟨op, there, operand⟩ := List.mem_flatMap.mp inside.1
  exact Ssa.mem_uses ((Region.erase_walk _ o.region).subset there) operand

/-- An operation of the block with the store of the result erased from its regions. -/
def rewired (info : StrelaEntryPointInfo) (op : Op RegionOp) : Op RegionOp where
  kind := op.kind.withoutStore info
  operands := (op.kind.withoutStore info).outline.operands
  results := op.results

omit entry in
theorem eraseStore_outline (ops : List RegionOp) :
    (eraseStore info ops).map RegionOp.outline =
      ((ops.map RegionOp.outline).filter fun op => !storesResult info op.kind.op).map
        (rewired info) := by
  rw [eraseStore, List.filter_map, List.map_map, List.map_map]
  rfl

theorem Entry.eraseStore_dominated :
    Ssa.Dominated [] ((eraseStore info body).map RegionOp.outline) := by
  rw [eraseStore_outline]
  refine (entry.wellFormed.dominated.filter fun op member user _ _ v made _ => ?_).map
    (fun _ => rfl) fun op kept v used => Or.inl ?_
  · obtain ⟨o, inBody, rfl⟩ := List.mem_map.mp member
    cases stores : storesResult info o.outline.kind.op
    · rfl
    · have none_ := (entry.store (mem_walk inBody (List.mem_cons_self ..)) stores).2
      have made : v ∈ o.op.results := made
      rw [none_] at made
      cases made
  · obtain ⟨o, inBody, rfl⟩ := List.mem_map.mp (List.mem_filter.mp kept).1
    exact entry.withoutStore_operands inBody used

/-- Where the kernel is. -/
theorem Entry.split : ∃ before kernel after, body = before ++ kernel :: after ∧
    kernel.op = info.kernelOp ∧ body.take info.kernelIndex = before ∧
    body.drop (info.kernelIndex + 1) = after := by
  have there := entry.kernel.there
  rw [List.getElem?_map, Option.map_eq_some_iff] at there
  obtain ⟨kernel, found, isKernel⟩ := there
  obtain ⟨below, same⟩ := List.getElem?_eq_some_iff.mp found
  refine ⟨_, kernel, _, ?_, isKernel, rfl, rfl⟩
  rw [← same, ← List.drop_eq_getElem_cons below, List.take_append_drop]

/-- The kernel does not use its own result. -/
theorem Entry.kernel_kept {kernel : RegionOp} {before after : List RegionOp}
    (split : body = before ++ kernel :: after) (isKernel : kernel.op = info.kernelOp) :
    storesResult info kernel.op = false := by
  have dominated := entry.wellFormed.dominated
  rw [split, List.map_append, List.map_cons] at dominated
  have made : result ∈ kernel.outline.results := by
    show result ∈ kernel.op.results
    rw [isKernel, entry.produced]
    exact List.mem_singleton_self _
  have unused := dominated.unused made
  rw [← Bool.not_eq_true]
  intro stores
  have used : result ∈ kernel.op.operands := by
    simpa [storesResult, entry.produced] using stores
  refine unused (Ssa.mem_uses (List.mem_append_right _ (List.mem_singleton_self _)) ?_)
  exact List.mem_append_left _ used

end

theorem lt_freshValue {body : List RegionOp} {v : Nat}
    (known : v ∈ Ssa.defs (walk body) ∨ v ∈ Ssa.uses (walk body) ∨ ∃ o ∈ body, v ∈ o.inner) :
    v < freshValue body := by
  refine Nat.lt_succ_of_le ((le_foldl_max _ 0).2 v ?_)
  simp only [List.mem_append, List.mem_flatMap]
  tauto

@[simp] theorem outline_ofOp (op : Op OpKind) :
    (ofOp op).outline = ⟨ofOp op, op.operands, op.results⟩ := by
  simp [RegionOp.outline, RegionOp.captured, ofOp, Region.walk, Ssa.uses]

theorem defs_ofOp (ops : Body OpKind) :
    Ssa.defs ((ops.map ofOp).map RegionOp.outline) = Ssa.defs ops := by
  simp [Ssa.defs, List.flatMap_map]

theorem defs_bindingLoads (body : List RegionOp) (info : StrelaEntryPointInfo) :
    Ssa.defs (bindingLoads body info) =
      (List.range (info.operandOps.zip info.operands).length).map (freshValue body + ·) :=
  defs_loads _ _

theorem freshValue_le {body : List RegionOp} {info : StrelaEntryPointInfo} {v : Nat}
    (made : v ∈ Ssa.defs (bindingLoads body info)) : freshValue body ≤ v := by
  rw [defs_bindingLoads, List.mem_map] at made
  obtain ⟨i, -, rfl⟩ := made
  exact Nat.le_add_right _ _

theorem bindingLoads_operands {body : List RegionOp} {info : StrelaEntryPointInfo} {op : Op OpKind}
    (member : op ∈ bindingLoads body info) : op.operands = [] := by
  obtain ⟨i, bound, rfl⟩ := List.mem_mapIdx.mp member
  rfl

/-- What is in the body is numbered below what is added. -/
theorem eraseStore_lt_freshValue {body : List RegionOp} {info : StrelaEntryPointInfo} {v : Nat}
    (made : v ∈ Ssa.defs ((eraseStore info body).map RegionOp.outline)) : v < freshValue body := by
  simp only [eraseStore, Ssa.defs, List.mem_flatMap, List.mem_map, List.mem_filter] at made
  obtain ⟨_, ⟨_, ⟨o, ⟨member, _⟩, rfl⟩, rfl⟩, made⟩ := made
  exact lt_freshValue (Or.inl (Ssa.mem_defs (mem_walk member (List.mem_cons_self ..)) made))

/-- The loads can stand after anything in the body. -/
theorem bindingLoads_dominated {body : List RegionOp} {info : StrelaEntryPointInfo}
    {known : List Nat} (old : ∀ v ∈ known, v < freshValue body) :
    Ssa.Dominated known (((bindingLoads body info).map ofOp).map RegionOp.outline) := by
  refine Ssa.dominated_of_no_operands (fun op member => ?_) ?_ fun v made earlier => ?_
  · obtain ⟨o, inLoads, rfl⟩ := List.mem_map.mp member
    obtain ⟨load, isLoad, rfl⟩ := List.mem_map.mp inLoads
    rw [outline_ofOp]
    exact bindingLoads_operands isLoad
  · rw [defs_ofOp, defs_bindingLoads]
    exact List.nodup_range.map fun i j same => Nat.add_left_cancel same
  · rw [defs_ofOp] at made
    exact absurd (old v earlier) (Nat.not_lt.mpr (freshValue_le made))

section

variable {body : List RegionOp} {info : StrelaEntryPointInfo} {result : Nat}
  (entry : Entry body info result)

include entry

theorem Entry.materializeBindings_dominated :
    Ssa.Dominated [] ((materializeBindings body info).map RegionOp.outline) := by
  obtain ⟨before, kernel, after, split, isKernel, early, late⟩ := entry.split
  have kept := entry.kernel_kept split isKernel
  have dominated := entry.eraseStore_dominated
  have parts : eraseStore info body =
      eraseStore info before ++ kernel.withoutStore info :: eraseStore info after := by
    rw [split]
    simp [eraseStore, kept]
  have old (v : Nat) (made : v ∈ Ssa.defs ((eraseStore info body).map RegionOp.outline)) :
      v < freshValue body := eraseStore_lt_freshValue made
  rw [parts, List.map_append, List.map_cons] at dominated old
  have kernelResults : (kernel.withoutStore info).outline.results = [result] :=
    (congrArg Op.results isKernel).trans entry.produced
  have resultOld : result < freshValue body := old result (by simp [kernelResults])
  have place := (Ssa.dominated_append _ _ _).mp dominated
  rw [materializeBindings, early, late]
  simp only [List.append_assoc, List.map_append]
  rw [← List.append_assoc _ _ ((eraseStore info after).map _), ← List.append_assoc]
  refine dominated.replace ?_ (fun v made => ?_) fun v made => ?_
  · refine (Ssa.dominated_append _ _ _).mpr ⟨?_, ?_⟩
    · refine bindingLoads_dominated fun v known => old v ?_
      rw [Ssa.defs_append]
      exact List.mem_append_left _ (by simpa using known)
    · rw [defs_ofOp]
      simp only [List.map_cons, List.map_nil, outline_ofOp, Ssa.Dominated, entry.produced]
      refine ⟨fun v used => List.mem_append_left _ used, fun v made known => ?_,
        List.nodup_singleton _, fun v used => List.mem_append_left _ used, by simp, by simp,
        trivial⟩
      obtain rfl := List.mem_singleton.mp made
      rcases List.mem_append.mp known with new | earlier
      · exact absurd resultOld (Nat.not_lt.mpr (freshValue_le new))
      · exact place.2.2.1 v (by rw [kernelResults]; exact made) earlier
  · rw [kernelResults] at made
    rw [Ssa.defs_append]
    refine List.mem_append_right _ ?_
    simpa [entry.produced] using made
  · rw [Ssa.defs_append, defs_ofOp, List.mem_append] at made
    rcases made with new | made
    · refine Or.inr fun later => absurd (old v ?_) (Nat.not_lt.mpr (freshValue_le new))
      rw [Ssa.defs_append]
      exact List.mem_append_right _ (List.mem_append_right _ later)
    · refine Or.inl ?_
      rw [kernelResults]
      simpa [entry.produced] using made

end

/-- The operations the last loop starts from. -/
inductive Rewritten (body : List RegionOp) (info : StrelaEntryPointInfo) : RegionOp → Prop
  | kept {o : RegionOp} (member : o ∈ body) (plain : o.op.kind.strelaType = none)
      (apart : storesResult info o.op = false) : Rewritten body info (o.withoutStore info)
  | load {op : Op OpKind} (member : op ∈ bindingLoads body info) : Rewritten body info (ofOp op)
  | kernel : Rewritten body info
      (ofOp { info.kernelOp with operands := Ssa.defs (bindingLoads body info) })
  | store : Rewritten body info
      (ofOp ⟨.bindingStore info.result.attrs, info.kernelOp.results, []⟩)

/-- An operation the rewrite has nothing to do with: not the kernel, and without the store
of the result. -/
def untouched (info : StrelaEntryPointInfo) (o : RegionOp) : Bool :=
  o.op.kind.strelaType.isNone && o.walk.all (!storesResult info ·)

/-- An operation of the block with an effect besides the store of the result, or one that
such an operation uses, in its regions or not. The kernel has other operands now. -/
inductive Stays (body : List RegionOp) (info : StrelaEntryPointInfo) : RegionOp → Prop
  | effect {o : RegionOp} (member : o ∈ body) (plain : o.op ≠ info.kernelOp)
      (apart : storesResult info o.op = false)
      (effect : (o.withoutStore info).wouldOpBeTriviallyDead = false) : Stays body info o
  | used {o user : RegionOp} {v : Nat} (member : o ∈ body) (plain : o.op ≠ info.kernelOp)
      (stays : Stays body info user) (made : v ∈ o.op.results)
      (use : v ∈ (user.withoutStore info).outline.operands) : Stays body info o

/-- In the regions of what stays, once the store of the result is gone, every operation
without effects is used. -/
def NestedUsed (body : List RegionOp) (info : StrelaEntryPointInfo) : Prop :=
  ∀ o, Stays body info o → ∀ nested ∈ (o.withoutStore info).region.nestedOps,
    nested.wouldOpBeTriviallyDead = true →
    ∃ v ∈ nested.op.results, v ∈ Ssa.uses (o.withoutStore info).region.walk

/-- An operation, in a region or not, without effects besides the store of the result, whose
values go to nothing but what the pass replaces: the kernel, the store of its result, and
operations like it. -/
inductive FedInterface (body : List RegionOp) (info : StrelaEntryPointInfo) : RegionOp → Prop
  | mk {o : RegionOp} (member : o ∈ everyOp body)
      (pure : (o.withoutStore info).wouldOpBeTriviallyDead = true) (plain : o.op ≠ info.kernelOp)
      (users : ∀ user ∈ everyOp body, user.op ≠ info.kernelOp →
        storesResult info user.op = false → ∀ v ∈ o.op.results, v ∈ user.op.operands →
          FedInterface body info user) :
      FedInterface body info o

/-- The operations of the rewritten block that are live. -/
noncomputable def liveOps (body : List RegionOp) (info : StrelaEntryPointInfo) : List RegionOp :=
  (materializeBindings body info).filter (isLive (materializeBindings body info))

/-- What the last loop is to leave, of what it starts from and of the original function. -/
structure Cleaned (body : List RegionOp) (info : StrelaEntryPointInfo) (lowered : List RegionOp) :
    Prop where
  noneDead : ∀ o ∈ everyOp lowered, isOpTriviallyDead o lowered = false
  dominated : Ssa.Dominated [] (lowered.map RegionOp.outline)
  exact_ : lowered = liveOps body info
  kept : (body.filter fun o => isLive (materializeBindings body info) o && untouched info o).Sublist
    lowered
  gone : ∀ o, FedInterface body info o → o.withoutStore info ∉ everyOp lowered ∧
    ∀ v ∈ o.op.results, v ∉ Ssa.defs (walk lowered)

section

variable {body : List RegionOp} {info : StrelaEntryPointInfo} {result : Nat}
  (entry : Entry body info result)

include entry

theorem Entry.plain_of_ne {before after : List RegionOp} {kernel o : RegionOp}
    (split : body = before ++ kernel :: after) (index : body.take info.kernelIndex = before)
    (member : o ∈ before ∨ o ∈ after) : o.op.kind.strelaType = none := by
  have below : info.kernelIndex < body.length := by
    simpa using (List.getElem?_eq_some_iff.mp entry.kernel.there).1
  have length : before.length = info.kernelIndex := by
    rw [← index, List.length_take]
    omega
  by_contra strela
  have isSome := Option.isSome_iff_ne_none.mpr strela
  have at_ (j : Nat) (there : body[j]? = some o) : j = info.kernelIndex :=
    entry.kernel.only j o.op (by rw [List.getElem?_map, there]; rfl) isSome
  rcases member with early | late
  · obtain ⟨i, bound, rfl⟩ := List.mem_iff_getElem.mp early
    have same := at_ i (by rw [split, List.getElem?_append_left bound,
      List.getElem?_eq_getElem bound])
    omega
  · obtain ⟨i, bound, rfl⟩ := List.mem_iff_getElem.mp late
    have same := at_ (before.length + 1 + i) (by
      rw [split, List.getElem?_append_right (by omega), show before.length + 1 + i - before.length =
        i + 1 by omega, List.getElem?_cons_succ, List.getElem?_eq_getElem bound])
    omega

theorem Entry.rewritten {o : RegionOp} (member : o ∈ materializeBindings body info) :
    Rewritten body info o := by
  obtain ⟨before, kernel, after, split, isKernel, early, late⟩ := entry.split
  have keeps (ops : List RegionOp) (among : ∀ o ∈ ops, o ∈ before ∨ o ∈ after)
      (kept : o ∈ eraseStore info ops) : Rewritten body info o := by
    obtain ⟨original, inOps, rfl⟩ := List.mem_map.mp kept
    obtain ⟨there, apart⟩ := List.mem_filter.mp inOps
    refine .kept ?_ (entry.plain_of_ne split early (among original there)) (by simpa using apart)
    rw [split]
    rcases among original there with inBefore | inAfter
    · exact List.mem_append_left _ inBefore
    · exact List.mem_append_right _ (List.mem_cons_of_mem _ inAfter)
  rw [materializeBindings, early, late] at member
  simp only [List.mem_append, List.mem_map, List.mem_cons, List.not_mem_nil, or_false] at member
  rcases member with ((first | ⟨load, isLoad, rfl⟩) | rfl | rfl) | last
  · exact keeps before (fun _ => Or.inl) first
  · exact .load isLoad
  · exact .kernel
  · exact .store
  · exact keeps after (fun _ => Or.inr) last

theorem Entry.kept_mem {o : RegionOp} (member : o ∈ body) (plain : o.op.kind.strelaType = none)
    (apart : storesResult info o.op = false) :
    o.withoutStore info ∈ materializeBindings body info := by
  obtain ⟨before, kernel, after, split, isKernel, early, late⟩ := entry.split
  have keeps (ops : List RegionOp) (inOps : o ∈ ops) : o.withoutStore info ∈ eraseStore info ops :=
    List.mem_map_of_mem (List.mem_filter.mpr ⟨inOps, by rw [apart]; rfl⟩)
  rw [split, List.mem_append, List.mem_cons] at member
  rw [materializeBindings, early, late]
  rcases member with inBefore | rfl | inAfter
  · simp only [List.mem_append]
    exact Or.inl (Or.inl (Or.inl (keeps before inBefore)))
  · have strela := entry.kernel.strela
    rw [← isKernel, plain] at strela
    cases strela
  · exact List.mem_append_right _ (keeps after inAfter)

/-- A value the function's regions define is none that the rewritten block does. -/
theorem Entry.materializeBindings_apart : Apart (materializeBindings body info) := by
  have results (o : RegionOp) (rewritten : Rewritten body info o) (v : Nat)
      (made : v ∈ o.op.results) :
      (∃ top ∈ body, v ∈ top.op.results) ∨ freshValue body ≤ v := by
    cases rewritten with
    | kept member _ _ => exact Or.inl ⟨_, member, made⟩
    | load member => exact Or.inr (freshValue_le (Ssa.mem_defs member made))
    | kernel =>
        obtain ⟨o, inBody, isKernel⟩ :=
          List.mem_map.mp (List.mem_of_getElem? entry.kernel.there)
        exact Or.inl ⟨o, inBody, by rw [isKernel]; exact made⟩
    | store => cases made
  intro o member v made other there inside
  obtain ⟨original, inBody, inner⟩ : ∃ original ∈ body, v ∈ original.inner := by
    cases entry.rewritten there with
    | kept inBody _ _ => exact ⟨_, inBody, entry.withoutStore_inner inBody ▸ inside⟩
    | load _ => cases inside
    | kernel => cases inside
    | store => cases inside
  rcases results o (entry.rewritten member) v made with ⟨top, inTop, old⟩ | new
  · exact entry.wellFormed.apart original inBody v inner top inTop old
  · exact absurd (lt_freshValue (Or.inr (Or.inr ⟨original, inBody, inner⟩))) (Nat.not_lt.mpr new)

/-- An operation of the block that stays is still there, and is not the store. -/
theorem Entry.stays_there {o : RegionOp} (stays : Stays body info o) :
    o ∈ body ∧ o.op ≠ info.kernelOp ∧ storesResult info o.op = false := by
  cases stays with
  | effect member plain apart _ => exact ⟨member, plain, apart⟩
  | used member plain _ made _ =>
      refine ⟨member, plain, ?_⟩
      rw [← Bool.not_eq_true]
      intro stores
      rw [(entry.store (mem_walk member (List.mem_cons_self ..)) stores).2] at made
      cases made

theorem Entry.plain_iff {o : RegionOp} (member : o ∈ body) :
    o.op ≠ info.kernelOp ↔ o.op.kind.strelaType = none := by
  constructor
  · intro plain
    by_contra strela
    obtain ⟨i, bound, found⟩ := List.mem_iff_getElem.mp member
    have there : (body.map RegionOp.op)[i]? = some o.op := by
      rw [List.getElem?_map, List.getElem?_eq_getElem bound, found]
      rfl
    obtain rfl := entry.kernel.only i o.op there (Option.isSome_iff_ne_none.mpr strela)
    exact plain (Option.some.inj (there.symm.trans entry.kernel.there))
  · intro none_ same
    have strela := entry.kernel.strela
    rw [← same, none_] at strela
    cases strela

/-- The kernel is in the block, and no region defines its result. -/
theorem Entry.result_apart {o : RegionOp} (member : o ∈ body) : result ∉ o.inner := by
  obtain ⟨kernel, inBody, isKernel⟩ := List.mem_map.mp (List.mem_of_getElem? entry.kernel.there)
  intro inside
  refine entry.wellFormed.apart o member result inside kernel inBody ?_
  rw [isKernel, entry.produced]
  exact List.mem_singleton_self _

/-- What the block defines that an operation of the rewritten block uses, it uses as an
operation of the original one. -/
theorem Entry.user_kept {user : RegionOp} (rewritten : Rewritten body info user) {v : Nat}
    (use : v ∈ user.outline.operands) (old : v < freshValue body) (other : v ≠ result) :
    ∃ o ∈ body, o.op ≠ info.kernelOp ∧ storesResult info o.op = false ∧
      user = o.withoutStore info := by
  cases rewritten with
  | kept inBody plain apart => exact ⟨_, inBody, (entry.plain_iff inBody).mpr plain, apart, rfl⟩
  | load inLoads =>
      rw [outline_ofOp, bindingLoads_operands inLoads] at use
      cases use
  | kernel =>
      rw [outline_ofOp] at use
      exact absurd old (Nat.not_lt.mpr (freshValue_le use))
  | store =>
      rw [outline_ofOp, entry.produced] at use
      exact absurd (List.mem_singleton.mp use) other

/-- No other operation of the block defines the result. -/
theorem Entry.made_ne {o : RegionOp} (member : o ∈ body) (plain : o.op ≠ info.kernelOp) {v : Nat}
    (made : v ∈ o.op.results) : v ≠ result := by
  rintro rfl
  obtain ⟨kernel, inBody, isKernel⟩ := List.mem_map.mp (List.mem_of_getElem? entry.kernel.there)
  have same := entry.wellFormed.dominated.unique (List.mem_map_of_mem member)
    (List.mem_map_of_mem inBody) (show v ∈ o.outline.results from made)
    (show v ∈ kernel.op.results by rw [isKernel, entry.produced]; exact List.mem_singleton_self _)
  exact plain ((congrArg RegionOp.op (outline_injective same)).trans isKernel)

/-- What stays is what is live once the interface is replaced. -/
theorem Entry.stays_of_live {op : Op RegionOp}
    (live : Ssa.Live RegionOp.wouldOpBeTriviallyDead
      ((materializeBindings body info).map RegionOp.outline) op) {o : RegionOp} (member : o ∈ body)
    (plain : o.op ≠ info.kernelOp) (apart : storesResult info o.op = false)
    (same : op = (o.withoutStore info).outline) : Stays body info o := by
  induction live generalizing o with
  | effect _ effect =>
      subst same
      exact .effect member plain apart effect
  | @used _ user v _ live made use ih =>
      subst same
      obtain ⟨user, inside, rfl⟩ := List.mem_map.mp live.mem
      have made : v ∈ o.op.results := made
      have old : v < freshValue body := lt_freshValue (Or.inl (Ssa.mem_defs
        (mem_walk member (List.mem_cons_self ..)) made))
      obtain ⟨original, inBody, plain', apart', rfl⟩ :=
        entry.user_kept (entry.rewritten inside) use old (entry.made_ne member plain made)
      exact .used member plain (ih inBody plain' apart' rfl) made use

theorem Entry.live_of_stays {o : RegionOp} (stays : Stays body info o) :
    Live (materializeBindings body info) (o.withoutStore info) := by
  induction stays with
  | effect member plain apart effect =>
      exact .effect (List.mem_map_of_mem
        (entry.kept_mem member ((entry.plain_iff member).mp plain) apart)) effect
  | @used o user v member plain stays made use live =>
      have apart := (entry.stays_there (.used member plain stays made use)).2.2
      exact .used (List.mem_map_of_mem
        (entry.kept_mem member ((entry.plain_iff member).mp plain) apart)) live made use

/-- What the last loop leaves of the rewritten block. -/
inductive Left (body : List RegionOp) (info : StrelaEntryPointInfo) : RegionOp → Prop
  | stays {o : RegionOp} (stays : Stays body info o) : Left body info (o.withoutStore info)
  | load {op : Op OpKind} (member : op ∈ bindingLoads body info) : Left body info (ofOp op)
  | kernel : Left body info
      (ofOp { info.kernelOp with operands := Ssa.defs (bindingLoads body info) })
  | store : Left body info (ofOp ⟨.bindingStore info.result.attrs, info.kernelOp.results, []⟩)

theorem Entry.left {o : RegionOp} (member : o ∈ liveOps body info) : Left body info o := by
  obtain ⟨there, live⟩ := List.mem_filter.mp member
  cases entry.rewritten there with
  | kept inBody plain apart =>
      exact .stays (entry.stays_of_live (isLive_iff.mp live) inBody
        ((entry.plain_iff inBody).mpr plain) apart rfl)
  | load inLoads => exact .load inLoads
  | kernel => exact .kernel
  | store => exact .store

theorem Entry.stays_left {o : RegionOp} (stays : Stays body info o) :
    o.withoutStore info ∈ liveOps body info := by
  obtain ⟨member, plain, apart⟩ := entry.stays_there stays
  refine List.mem_filter.mpr ⟨?_, isLive_iff.mpr (entry.live_of_stays stays)⟩
  exact entry.kept_mem member ((entry.plain_iff member).mp plain) apart

omit entry in
/-- What is in a region at the end. -/
theorem Left.nested {o nested : RegionOp} (left : Left body info o)
    (inside : nested ∈ o.region.nestedOps) :
    ∃ original, Stays body info original ∧ o = original.withoutStore info := by
  cases left with
  | stays stays => exact ⟨_, stays, rfl⟩
  | load _ => cases inside
  | kernel => cases inside
  | store => cases inside

/-- The operations the rewrite has nothing to do with are there for the last loop, as
they were. -/
theorem Entry.untouched_sublist :
    (body.filter (untouched info)).Sublist (materializeBindings body info) := by
  obtain ⟨before, kernel, after, split, isKernel, early, late⟩ := entry.split
  have part (ops : List RegionOp) :
      (ops.filter (untouched info)).Sublist (eraseStore info ops) := by
    induction ops with
    | nil => exact .slnil
    | cons o rest ih =>
        by_cases free : untouched info o = true
        · simp only [untouched, RegionOp.walk, List.all_cons, Bool.and_eq_true, List.all_eq_true,
            Bool.not_eq_true'] at free
          have same : o.withoutStore info = o := by
            rw [RegionOp.withoutStore, Region.erase_self free.2.2]
          rw [List.filter_cons_of_pos (by simpa [untouched, RegionOp.walk] using free), eraseStore,
            List.filter_cons_of_pos (by rw [free.2.1]; rfl), List.map_cons, same]
          exact ih.cons_cons o
        · rw [List.filter_cons_of_neg free]
          refine ih.trans ?_
          rw [eraseStore, eraseStore]
          exact ((List.sublist_cons_self o rest).filter _).map _
  have strela : untouched info kernel = false := by
    have isSome := entry.kernel.strela
    rw [← isKernel] at isSome
    simp [untouched, Option.isNone_eq_false_iff.mpr isSome]
  rw [materializeBindings, early, late]
  conv_lhs => rw [split, List.filter_append, List.filter_cons_of_neg (by simp [strela])]
  rw [List.append_assoc, List.append_assoc]
  refine (part before).append ((part after).trans ?_)
  rw [← List.append_assoc]
  exact List.sublist_append_right _ _

end

section

variable {body : List RegionOp} {info : StrelaEntryPointInfo} {result : Nat}

theorem eq_of_nodup_flatMap {α : Type} {f : α → List Nat} {l : List α} {a b : α} {v : Nat}
    (nodup : (l.flatMap f).Nodup) (left : a ∈ l) (right : b ∈ l) (inLeft : v ∈ f a)
    (inRight : v ∈ f b) : a = b := by
  by_contra other
  have symmetric : Std.Symm (Function.onFun List.Disjoint f) := ⟨fun _ _ => List.disjoint_symm⟩
  exact (List.nodup_flatMap.mp nodup).2.forall left right other inLeft inRight

/-- Two operations in the regions of one define different values. -/
theorem WellFormed.nested_eq (wellFormed : WellFormed body) {o first second : RegionOp}
    (member : o ∈ body) (left : first ∈ o.region.nestedOps) (right : second ∈ o.region.nestedOps)
    {v : Nat} (inLeft : v ∈ first.op.results) (inRight : v ∈ second.op.results) :
    first = second := by
  have inner : o.inner.Nodup := (List.nodup_flatMap.mp wellFormed.distinct).1 o member
  have defs : (Ssa.defs o.region.walk).Nodup := (List.nodup_append.mp inner).2.1
  rw [Region.walk_eq, Ssa.defs, List.flatMap_map] at defs
  exact eq_of_nodup_flatMap defs left right inLeft inRight

theorem WellFormed.not_outside (wellFormed : WellFormed body) {o user : RegionOp}
    (member : o ∈ body) (there : user ∈ body) {v : Nat} (inner : v ∈ o.inner) :
    v ∉ user.outline.operands := by
  intro use
  have known := wellFormed.dominated.uses_defined v
    (Ssa.mem_uses (List.mem_map_of_mem (f := RegionOp.outline) there) use)
  rw [List.append_nil] at known
  obtain ⟨_, inOutline, made⟩ := List.mem_flatMap.mp known
  obtain ⟨top, inBody, rfl⟩ := List.mem_map.mp inOutline
  exact wellFormed.apart o member v inner top inBody made

theorem isOpTriviallyDead_false_iff {o : RegionOp} {around : List RegionOp} :
    isOpTriviallyDead o around = false ↔
      (o.wouldOpBeTriviallyDead = true → ∃ v ∈ o.op.results, v ∈ Ssa.uses (walk around)) := by
  rw [isOpTriviallyDead, Bool.and_eq_false_imp]
  refine imp_congr_right fun _ => ?_
  simp

theorem liveOps_outline (body : List RegionOp) (info : StrelaEntryPointInfo) :
    (liveOps body info).map RegionOp.outline =
      ((materializeBindings body info).map RegionOp.outline).filter
        (Ssa.isLive RegionOp.wouldOpBeTriviallyDead
          ((materializeBindings body info).map RegionOp.outline)) := by
  rw [liveOps, List.filter_map]
  rfl

theorem FedInterface.congr {o other : RegionOp} (fed : FedInterface body info o)
    (member : other ∈ everyOp body) (same : other.withoutStore info = o.withoutStore info) :
    FedInterface body info other := by
  have isOp : (other.withoutStore info).op = (o.withoutStore info).op := congrArg RegionOp.op same
  change other.op = o.op at isOp
  cases fed with
  | mk _ pure plain users =>
      refine .mk member (same ▸ pure) (isOp ▸ plain) ?_
      rw [isOp]
      exact users

variable (entry : Entry body info result)

include entry

/-- A value of a region that stays is used in that region only. -/
theorem Entry.used_inside {o : RegionOp} (stays : Stays body info o) {v : Nat} (inner : v ∈ o.inner)
    (used : v ∈ Ssa.uses (walk (liveOps body info))) :
    v ∈ Ssa.uses (o.withoutStore info).region.walk := by
  have member := (entry.stays_there stays).1
  have old : v < freshValue body := lt_freshValue (Or.inr (Or.inr ⟨o, member, inner⟩))
  obtain ⟨user, there, use⟩ := mem_uses_walk.mp used
  cases entry.left there with
  | @stays original stays' =>
      have inBody := (entry.stays_there stays').1
      have outside := entry.wellFormed.not_outside member inBody inner
      rcases use with direct | nested
      · exact absurd (List.mem_append_left _ direct) outside
      · by_cases same : original = o
        · exact same ▸ nested
        · refine absurd (entry.withoutStore_operands inBody ?_) outside
          refine List.mem_append_right _ (List.mem_filter.mpr ⟨nested, decide_eq_true ?_⟩)
          rw [entry.withoutStore_inner inBody]
          exact fun inside => same
            (eq_of_nodup_flatMap entry.wellFormed.distinct inBody member inside inner)
  | load inLoads =>
      have none_ := bindingLoads_operands inLoads
      simp [ofOp, none_, Region.walk, Ssa.uses] at use
  | kernel =>
      have fresh : v ∈ Ssa.defs (bindingLoads body info) := by
        simpa [ofOp, Region.walk, Ssa.uses] using use
      exact absurd old (Nat.not_lt.mpr (freshValue_le fresh))
  | store =>
      have isResult : v = result := by
        simpa [ofOp, Region.walk, Ssa.uses, entry.produced] using use
      exact absurd (isResult ▸ inner) (entry.result_apart member)

/-- What is used where it stays is not what fed the old interface only. -/
theorem Entry.fed_gone (used : NestedUsed body info) {o : RegionOp}
    (fed : FedInterface body info o) :
    ¬ Stays body info o ∧ ∀ around, Stays body info around →
      o.withoutStore info ∉ (around.withoutStore info).region.nestedOps := by
  induction fed with
  | @mk o member pure plain users ih =>
      -- A user in a region that stays is one the pass does not replace.
      have nestedUser {around nested : RegionOp} {v : Nat} (stays : Stays body info around)
          (inside : nested ∈ (around.withoutStore info).region.nestedOps)
          (made : v ∈ o.op.results) (use : v ∈ nested.op.operands) : False := by
        have there := (entry.stays_there stays).1
        obtain ⟨user, inRegion, apart, rfl⟩ := Region.mem_erase inside
        have notKernel : user.op ≠ info.kernelOp := by
          intro isKernel
          refine entry.result_apart there (RegionOp.mem_inner inRegion ?_)
          rw [isKernel, entry.produced]
          exact List.mem_singleton_self _
        exact (ih user (mem_everyOp.mpr (Or.inr ⟨around, there, inRegion⟩)) notKernel apart v
          made use).2 around stays inside
      constructor
      · intro stays
        cases stays with
        | effect _ _ _ effect => exact absurd (pure.symm.trans effect) (by decide)
        | @used _ user v _ _ stays made use =>
            obtain ⟨there, notKernel, apart⟩ := entry.stays_there stays
            rcases List.mem_append.mp use with direct | captured
            · exact (ih user (mem_everyOp.mpr (Or.inl there)) notKernel apart v made direct).1 stays
            · have inRegion := (List.mem_filter.mp captured).1
              rw [Region.walk_eq] at inRegion
              obtain ⟨_, isNested, use⟩ := List.mem_flatMap.mp inRegion
              obtain ⟨nested, inside, rfl⟩ := List.mem_map.mp isNested
              exact nestedUser stays inside made use
      · intro around stays inside
        obtain ⟨v, made, use⟩ := used around stays _ inside pure
        rw [Region.walk_eq] at use
        obtain ⟨_, isNested, use⟩ := List.mem_flatMap.mp use
        obtain ⟨nested, inside', rfl⟩ := List.mem_map.mp isNested
        exact nestedUser stays inside' made use

/-- What is left is an operation that stays, or a new one without regions, for a value that
is new or the result. -/
theorem Entry.left_cases {o : RegionOp} (member : o ∈ liveOps body info) :
    (∃ original, Stays body info original ∧ o = original.withoutStore info) ∨
      (o.region = .nil ∧ (o.wouldOpBeTriviallyDead = true → o.op.results ≠ []) ∧
        ∀ v ∈ o.op.results, freshValue body ≤ v ∨ v = result) := by
  cases entry.left member with
  | stays stays => exact Or.inl ⟨_, stays, rfl⟩
  | load inLoads =>
      refine Or.inr ⟨rfl, fun _ none_ => ?_, fun v made => ?_⟩
      · obtain ⟨i, bound, rfl⟩ := List.mem_mapIdx.mp inLoads
        cases none_
      · exact Or.inl (freshValue_le (Ssa.mem_defs inLoads made))
  | kernel =>
      refine Or.inr ⟨rfl, fun _ => ?_, fun v made => Or.inr ?_⟩
      · simp [ofOp, entry.produced]
      · simpa [ofOp, entry.produced] using made
  | store =>
      refine Or.inr ⟨rfl, fun pure => ?_, fun v made => ?_⟩
      · cases pure
      · cases made

/-- So it is gone, and so are its values. -/
theorem Entry.gone (used : NestedUsed body info) {o : RegionOp} (fed : FedInterface body info o) :
    o.withoutStore info ∉ everyOp (liveOps body info) ∧
      ∀ v ∈ o.op.results, v ∉ Ssa.defs (walk (liveOps body info)) := by
  obtain ⟨notStays, notNested⟩ := entry.fed_gone used fed
  obtain ⟨member, pure, plain⟩ : o ∈ everyOp body ∧
      (o.withoutStore info).wouldOpBeTriviallyDead = true ∧ o.op ≠ info.kernelOp := by
    cases fed with
    | mk member pure plain _ => exact ⟨member, pure, plain⟩
  have old (v : Nat) (made : v ∈ o.op.results) : v < freshValue body := by
    refine lt_freshValue (Or.inl (Ssa.mem_defs ?_ made))
    rw [walk_eq]
    exact List.mem_map_of_mem member
  have notResult (v : Nat) (made : v ∈ o.op.results) : v ≠ result := by
    rcases mem_everyOp.mp member with inBody | ⟨around, there, inside⟩
    · exact entry.made_ne inBody plain made
    · rintro rfl
      exact entry.result_apart there (RegionOp.mem_inner inside made)
  constructor
  · intro left
    rcases mem_everyOp.mp left with inBlock | ⟨around, there, inside⟩
    · rcases entry.left_cases inBlock with ⟨original, stays, same⟩ | ⟨-, some_, new⟩
      · have inBody := mem_everyOp.mpr (Or.inl (entry.stays_there stays).1)
        exact (entry.fed_gone used (fed.congr inBody same.symm)).1 stays
      · obtain ⟨v, made⟩ := List.exists_mem_of_ne_nil _ (some_ pure)
        rcases new v made with fresh | isResult
        · exact absurd (old v made) (Nat.not_lt.mpr fresh)
        · exact notResult v made isResult
    · obtain ⟨original, stays, rfl⟩ := (entry.left there).nested inside
      exact notNested original stays inside
  · intro v made known
    rw [walk_eq] at known
    obtain ⟨_, inWalk, defines⟩ := List.mem_flatMap.mp known
    obtain ⟨other, there, rfl⟩ := List.mem_map.mp inWalk
    rcases mem_everyOp.mp there with inBlock | ⟨around, inBlock, inside⟩
    · rcases entry.left_cases inBlock with ⟨original, stays, rfl⟩ | ⟨-, -, new⟩
      · have inBody := (entry.stays_there stays).1
        rcases mem_everyOp.mp member with here | ⟨region, here, inRegion⟩
        · have same := entry.wellFormed.dominated.unique (List.mem_map_of_mem here)
            (List.mem_map_of_mem inBody) (show v ∈ o.outline.results from made) defines
          exact notStays (outline_injective same ▸ stays)
        · exact entry.wellFormed.apart region here v (RegionOp.mem_inner inRegion made) original
            inBody defines
      · rcases new v defines with fresh | isResult
        · exact absurd (old v made) (Nat.not_lt.mpr fresh)
        · exact notResult v made isResult
    · obtain ⟨original, stays, rfl⟩ := (entry.left inBlock).nested inside
      have inBody := (entry.stays_there stays).1
      obtain ⟨nested, inOriginal, -, rfl⟩ := Region.mem_erase inside
      have inner := RegionOp.mem_inner inOriginal defines
      rcases mem_everyOp.mp member with here | ⟨region, here, inRegion⟩
      · exact entry.wellFormed.apart original inBody v inner o here made
      · obtain rfl := eq_of_nodup_flatMap entry.wellFormed.distinct here inBody
          (RegionOp.mem_inner inRegion made) inner
        obtain rfl := entry.wellFormed.nested_eq here inRegion inOriginal made defines
        exact notNested region stays inside

/-- In the block itself the last loop leaves nothing dead. In a region that stays it leaves
what is not used there. -/
theorem Entry.noneDead_iff :
    (∀ o ∈ everyOp (liveOps body info), isOpTriviallyDead o (liveOps body info) = false) ↔
      NestedUsed body info := by
  constructor
  · intro noneDead o stays nested inside pure
    have there : nested ∈ everyOp (liveOps body info) :=
      mem_everyOp.mpr (Or.inr ⟨_, entry.stays_left stays, inside⟩)
    obtain ⟨v, made, use⟩ := isOpTriviallyDead_false_iff.mp (noneDead nested there) pure
    refine ⟨v, made, entry.used_inside stays ?_ use⟩
    rw [← entry.withoutStore_inner (entry.stays_there stays).1]
    exact RegionOp.mem_inner inside made
  · intro used o member
    rcases mem_everyOp.mp member with inBlock | ⟨around, inBlock, inside⟩
    · have apart := entry.materializeBindings_apart
      rw [isOpTriviallyDead_outline o (liveOps body info) fun v made other there =>
        apart o (List.mem_filter.mp inBlock).1 v made other (List.mem_filter.mp there).1,
        liveOps_outline]
      apply Ssa.live_not_dead
      rw [← liveOps_outline]
      exact List.mem_map_of_mem inBlock
    · obtain ⟨original, stays, rfl⟩ := (entry.left inBlock).nested inside
      refine isOpTriviallyDead_false_iff.mpr fun pure => ?_
      obtain ⟨v, made, use⟩ := used original stays o inside pure
      exact ⟨v, made, mem_uses_walk.mpr ⟨_, inBlock, Or.inr use⟩⟩

end

/-- The last loop of the pass leaves no use without its definition before it. Of the
operations it starts from it keeps those of the block that have an effect or a live user, in
order. Of the others it drops all, and all that only fed the old interface, exactly if the
regions of what stays hold none of them: it never looks there. -/
theorem materializeBindingsPass_cleans_iff {funcOp lowered : FuncOp}
    (wellFormed : WellFormed funcOp.body)
    (passed : materializeBindingsPass funcOp = .ok lowered) :
    ∃ info, analyzeEntryPoint funcOp.body = .ok info ∧
      (Cleaned funcOp.body info lowered.body ↔ NestedUsed funcOp.body info) := by
  simp only [materializeBindingsPass, bind, Except.bind, pure, Except.pure] at passed
  split at passed
  · cases passed
  rename_i info analyzed
  cases passed
  obtain ⟨result, entry⟩ := analyzeEntryPoint_entry wellFormed analyzed
  have dominated := entry.materializeBindings_dominated
  have swept : eraseTriviallyDead (materializeBindings funcOp.body info).reverse [] =
      liveOps funcOp.body info :=
    eraseTriviallyDead_eq_live entry.materializeBindings_apart dominated
  refine ⟨info, analyzed, ?_⟩
  simp only [swept]
  constructor
  · exact fun cleaned => entry.noneDead_iff.mp cleaned.noneDead
  · intro used
    refine ⟨entry.noneDead_iff.mpr used, ?_, rfl, ?_, fun o fed => entry.gone used fed⟩
    · rw [liveOps_outline]
      exact dominated.live
    · rw [← List.filter_filter]
      exact entry.untouched_sublist.filter _

/-- A relu of binding 0 into binding 1, all of them at the offset %2. A loop of eight steps
still uses binding 0 in its region. -/
def loopFunc : FuncOp where
  symName := "relu"
  body := [
    ofOp ⟨.bindingSubspan 0 false [some 4], [], [0]⟩,
    ofOp ⟨.bindingSubspan 1 false [some 4], [], [1]⟩,
    ofOp ⟨.constant ⟨64, 0⟩, [], [2]⟩,
    ofOp ⟨.constant ⟨64, 8⟩, [], [6]⟩,
    ofOp ⟨.constant ⟨64, 1⟩, [], [7]⟩,
    ofOp ⟨.dispatchTensorLoad { rowSlice with offsets := [none] } rowType, [0, 2], [3]⟩,
    ofOp ⟨.relu rowType, [3], [4]⟩,
    ofOp ⟨.dispatchTensorStore { rowSlice with offsets := [none] }, [4, 1, 2], []⟩,
    ⟨⟨.other "scf.for" true, [2, 6, 7], []⟩, [5], ⟨true, false⟩,
      .cons ⟨.indexCastui 32, [5], [8]⟩ [] ⟨false, false⟩ .nil
        (.cons ⟨.other "vector.print" false, [0, 8], []⟩ [] ⟨false, false⟩ .nil
          (.cons ⟨.other "scf.yield" true, [], []⟩ [] ⟨false, true⟩ .nil .nil))⟩]

def loopLowered : List RegionOp := [
  ofOp ⟨.bindingSubspan 0 false [some 4], [], [0]⟩,
  ofOp ⟨.constant ⟨64, 0⟩, [], [2]⟩,
  ofOp ⟨.constant ⟨64, 8⟩, [], [6]⟩,
  ofOp ⟨.constant ⟨64, 1⟩, [], [7]⟩,
  ofOp ⟨.bindingLoad ⟨0, none, none⟩ rowType, [], [9]⟩,
  ofOp ⟨.relu rowType, [9], [4]⟩,
  ofOp ⟨.bindingStore ⟨1, none, none⟩, [4], []⟩,
  ⟨⟨.other "scf.for" true, [2, 6, 7], []⟩, [5], ⟨true, false⟩,
    .cons ⟨.indexCastui 32, [5], [8]⟩ [] ⟨false, false⟩ .nil
      (.cons ⟨.other "vector.print" false, [0, 8], []⟩ [] ⟨false, false⟩ .nil
        (.cons ⟨.other "scf.yield" true, [], []⟩ [] ⟨false, true⟩ .nil .nil))⟩]

theorem loopFunc_wellFormed : WellFormed loopFunc.body where
  dominated := by
    simp [loopFunc, Ssa.Dominated, RegionOp.outline, RegionOp.captured, RegionOp.inner, ofOp,
      Region.walk, Region.blockArguments, Ssa.uses, Ssa.defs]
  apart := by
    simp [loopFunc, RegionOp.inner, ofOp, Region.walk, Region.blockArguments, Ssa.defs]
  distinct := by decide
  results := by
    simp [loopFunc, walk, RegionOp.walk, Region.walk, ofOp, OpKind.resultCount]
  bare := by simp [loopFunc, ofOp, Region.Bare, asStoreOp]

theorem materializeBindingsPass_cleans_iff_sample :
    ∃ info, analyzeEntryPoint loopFunc.body = .ok info ∧
      (Cleaned loopFunc.body info loopLowered ↔ NestedUsed loopFunc.body info) :=
  @materializeBindingsPass_cleans_iff loopFunc ⟨"relu", loopLowered⟩ loopFunc_wellFormed rfl

/-- The same relu with the view of binding 1 and the store of the result in the loop. -/
def nestedFunc : FuncOp where
  symName := "relu"
  body := [
    ofOp ⟨.bindingSubspan 0 false [some 4], [], [0]⟩,
    ofOp ⟨.constant ⟨64, 0⟩, [], [1]⟩,
    ofOp ⟨.constant ⟨64, 8⟩, [], [2]⟩,
    ofOp ⟨.constant ⟨64, 1⟩, [], [3]⟩,
    ofOp ⟨.dispatchTensorLoad rowSlice rowType, [0], [4]⟩,
    ofOp ⟨.relu rowType, [4], [5]⟩,
    ⟨⟨.other "scf.for" true, [1, 2, 3], []⟩, [6], ⟨true, false⟩,
      .cons ⟨.bindingSubspan 1 false [some 4], [], [7]⟩ [] ⟨false, false⟩ .nil
        (.cons ⟨.dispatchTensorStore rowSlice, [5, 7], []⟩ [] ⟨false, false⟩ .nil
          (.cons ⟨.other "vector.print" false, [6], []⟩ [] ⟨false, false⟩ .nil
            (.cons ⟨.other "scf.yield" true, [], []⟩ [] ⟨false, true⟩ .nil .nil)))⟩]

def nestedLowered : List RegionOp := [
  ofOp ⟨.constant ⟨64, 0⟩, [], [1]⟩,
  ofOp ⟨.constant ⟨64, 8⟩, [], [2]⟩,
  ofOp ⟨.constant ⟨64, 1⟩, [], [3]⟩,
  ofOp ⟨.bindingLoad ⟨0, none, none⟩ rowType, [], [8]⟩,
  ofOp ⟨.relu rowType, [8], [5]⟩,
  ofOp ⟨.bindingStore ⟨1, none, none⟩, [5], []⟩,
  ⟨⟨.other "scf.for" true, [1, 2, 3], []⟩, [6], ⟨true, false⟩,
    .cons ⟨.bindingSubspan 1 false [some 4], [], [7]⟩ [] ⟨false, false⟩ .nil
      (.cons ⟨.other "vector.print" false, [6], []⟩ [] ⟨false, false⟩ .nil
        (.cons ⟨.other "scf.yield" true, [], []⟩ [] ⟨false, true⟩ .nil .nil))⟩]

/-- The store is erased, and the view of binding 1 that only it used is left in the loop. -/
theorem materializeBindingsPass_leaves_subspan :
    WellFormed nestedFunc.body ∧
      materializeBindingsPass nestedFunc = .ok ⟨"relu", nestedLowered⟩ ∧
      ofOp ⟨.bindingSubspan 1 false [some 4], [], [7]⟩ ∈ everyOp nestedLowered ∧
      isOpTriviallyDead (ofOp ⟨.bindingSubspan 1 false [some 4], [], [7]⟩) nestedLowered = true ∧
      ∀ info, ¬ Cleaned nestedFunc.body info nestedLowered := by
  refine ⟨⟨?_, ?_, by decide, ?_, ?_⟩, rfl, by decide, by decide, fun info cleaned => ?_⟩
  · simp [nestedFunc, Ssa.Dominated, RegionOp.outline, RegionOp.captured, RegionOp.inner, ofOp,
      Region.walk, Region.blockArguments, Ssa.uses, Ssa.defs]
  · simp [nestedFunc, RegionOp.inner, ofOp, Region.walk, Region.blockArguments, Ssa.defs]
  · simp [nestedFunc, walk, RegionOp.walk, Region.walk, ofOp, OpKind.resultCount]
  · simp [nestedFunc, ofOp, Region.Bare, asStoreOp]
  · have alive := cleaned.noneDead (ofOp ⟨.bindingSubspan 1 false [some 4], [], [7]⟩) (by decide)
    exact absurd alive (by decide)

end Estela.Compiler.Nested
