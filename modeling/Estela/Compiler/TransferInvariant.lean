import Estela.Compiler.TransferWrap

set_option autoImplicit false

/- What the ops on STRELA read and what reads them, and what keeps it so while others
are wrapped. -/
namespace Estela.Compiler.Flow

open Ssa (Op Body defs uses definingOp Dominated Carries Aligned Rewires)

/-- The results of linalg ops; on tensors, none of them is an index. -/
def linalgResults (body : Body Kind) : List Nat := defs (body.filter (·.kind.dps.isSome))

/-- What the verifier promises of a body: a linalg op has its operands, and a result for
each init if it is on tensors; the dims of a transfer are indices. -/
structure Verified (body : Body Kind) : Prop where
  operands : ∀ op ∈ body, ∀ numInputs numInits, op.kind.dps = some (numInputs, numInits) →
    numInputs + numInits ≤ op.operands.length
  results : ∀ op ∈ body, op.kind.pureTensorSemantics = true →
    op.kind.dps.map Prod.snd = some op.results.length
  dims : ∀ op ∈ body, op.kind.isTransfer = true → ∀ dim ∈ op.operands.tail, dim ∉ linalgResults body

/-- What `buildDynamicDimsForValue` is relied on for, wherever it inserts: the ops it
makes have no effects, define new values, and read the value it is asked about and
indices only; the dims are indices that are defined there. -/
structure BuildsDims (buildDynamicDimsForValue : DimsBuilder) : Prop where
  dominated : ∀ args before after value, Dominated args (before ++ after) →
    Verified (before ++ after) →
    value ∈ defs before ++ args →
    Dominated (defs before ++ args) (buildDynamicDimsForValue args before after value).1
  fresh : ∀ args before after value, Dominated args (before ++ after) → Verified (before ++ after) →
    value ∈ defs before ++ args →
    ∀ v ∈ defs (buildDynamicDimsForValue args before after value).1, v ∉ defs after
  pureOps : ∀ args before after value, ∀ op ∈ (buildDynamicDimsForValue args before after value).1,
    op.kind.isPure = true
  reads : ∀ args before after value, Dominated args (before ++ after) → Verified (before ++ after) →
    value ∈ defs before ++ args →
    ∀ v ∈ uses (buildDynamicDimsForValue args before after value).1, v = value ∨
      v ∈ defs (buildDynamicDimsForValue args before after value).1 ∨
        v ∉ linalgResults (before ++ after)
  dims : ∀ args before after value, Dominated args (before ++ after) → Verified (before ++ after) →
    value ∈ defs before ++ args →
    ∀ dim ∈ (buildDynamicDimsForValue args before after value).2,
      dim ∈ defs (buildDynamicDimsForValue args before after value).1 ++ (defs before ++ args) ∧
        dim ∉ linalgResults (before ++ after)

/-- Kinds the pass inserts. -/
def Inserted (kind : Kind) : Prop := kind.isTransfer = true ∨ kind.isPure = true

/-- Kinds that differ in what an op of the ABI is pinned to. -/
def SameKind (kind kind' : Kind) : Prop :=
  kind' = kind ∨ ∃ op affinity affinity', kind = .abi op affinity ∧ kind' = .abi op affinity'

/-- The first value is the second one, transferred any number of times. -/
abbrev Transferred (body : Body Kind) : Nat → Nat → Prop :=
  Carries (fun kind => kind.isTransfer = true) body

/-- A value an op on STRELA may read: an i32 splat, or the result of a transfer to STRELA. -/
def Settled (strela : DeviceAffinity) (body : Body Kind) (v : Nat) : Prop :=
  (∃ op ∈ body, v ∈ op.results ∧
    ∃ attr, op.kind = .constant attr ∧ isInt32Immediate (some attr) = true) ∨
    ∃ op ∈ body, op.results = [v] ∧ op.kind = .transfer strela

/-- A value whose only user is a transfer to the host. -/
def Guarded (host : DeviceAffinity) (body : Body Kind) (v : Nat) : Prop :=
  ∃ dims back, tensorTransfer host v dims back ∈ body ∧ v ∉ dims ∧
    ∀ user ∈ body, v ∈ user.operands → user = tensorTransfer host v dims back

/-- The op reads settled inputs only, and its results are guarded. -/
structure Isolated (strela host : DeviceAffinity) (body : Body Kind) (op : Op Kind) : Prop where
  inputs : ∃ op' ∈ body, op'.kind = op.kind ∧ op'.results = op.results ∧
    ∀ numInputs numInits, op.kind.dps = some (numInputs, numInits) →
      ∀ v ∈ op'.operands.take numInputs, Settled strela body v
  results : ∀ v ∈ op.results, Guarded host body v

/-- A value a `linalg.fill` defines. -/
def Filled (body : Body Kind) (v : Nat) : Prop :=
  ∃ fill ∈ body, fill.kind = .fill ∧ v ∈ fill.results

/-- An op that is yet to be wrapped: the init it accumulates in, if it does, is filled. -/
def Pending (body : Body Kind) (op : Op Kind) : Prop :=
  ∃ op' ∈ body, op'.kind = op.kind ∧ op'.results = op.results ∧
    ∀ numInputs, op.kind.dps = some (numInputs, 1) → op.kind.payloadUsesInit 0 = true →
      ∀ init, op'.operands[numInputs]? = some init → Filled body init

theorem mem_linalgResults {body : Body Kind} {v : Nat} :
    v ∈ linalgResults body ↔ ∃ op ∈ body, op.kind.dps.isSome = true ∧ v ∈ op.results := by
  simp only [linalgResults, defs, List.mem_flatMap, List.mem_filter, and_assoc]

theorem Inserted.dps {kind : Kind} (inserted : Inserted kind) : kind.dps = none := by
  cases kind <;> simp [Inserted, Kind.isTransfer, Kind.isPure] at inserted <;> rfl

theorem Inserted.pureTensorSemantics {kind : Kind} (inserted : Inserted kind) :
    kind.pureTensorSemantics = false := by
  cases kind <;> simp [Inserted, Kind.isTransfer, Kind.isPure] at inserted <;> rfl

theorem isTransfer_iff {kind : Kind} :
    kind.isTransfer = true ↔ ∃ target, kind = .transfer target := by
  cases kind <;> simp [Kind.isTransfer]

theorem dps_of_isTransfer {kind : Kind} (isTransfer : kind.isTransfer = true) : kind.dps = none :=
  Inserted.dps (Or.inl isTransfer)

theorem isPure_not_transfer {kind : Kind} (isPure : kind.isPure = true) :
    kind.isTransfer = false := by
  cases kind <;> simp [Kind.isPure] at isPure <;> rfl

theorem linalgResults_insert {before new after : Body Kind}
    (inserted : ∀ op ∈ new, Inserted op.kind) :
    linalgResults (before ++ new ++ after) = linalgResults (before ++ after) := by
  have none : new.filter (·.kind.dps.isSome) = [] := by
    simpa [List.filter_eq_nil_iff] using fun op member => (inserted op member).dps
  simp [linalgResults, none]

/-- Each operation still stands for itself: its kind and results are the same. -/
def Kept (body body' : Body Kind) : Prop :=
  ∀ op ∈ body, ∃ op' ∈ body', op'.kind = op.kind ∧ op'.results = op.results

theorem Settled.mono {strela : DeviceAffinity} {body body' : Body Kind} (kept : Kept body body')
    {v : Nat} (settled : Settled strela body v) : Settled strela body' v := by
  rcases settled with ⟨op, member, result, attr, isConstant, immediate⟩ | ⟨op, member,
    results, isTransfer⟩
  · obtain ⟨op', member', kind, results⟩ := kept op member
    exact Or.inl ⟨op', member', results ▸ result, attr, kind.trans isConstant, immediate⟩
  · obtain ⟨op', member', kind, results'⟩ := kept op member
    exact Or.inr ⟨op', member', results'.trans results, kind.trans isTransfer⟩

theorem Filled.mono {body body' : Body Kind} (kept : Kept body body') {v : Nat}
    (filled : Filled body v) :
    Filled body' v := by
  obtain ⟨fill, member, isFill, result⟩ := filled
  obtain ⟨fill', member', kind, results⟩ := kept fill member
  exact ⟨fill', member', kind.trans isFill, results ▸ result⟩

/-- A pending op that is left alone stays pending. -/
theorem Pending.kept {body body' : Body Kind} {op : Op Kind} (kept : Kept body body')
    (still : ∀ op' ∈ body, op'.results = op.results → op' ∈ body') (pending : Pending body op) :
    Pending body' op := by
  obtain ⟨op', member, kind, results, filled⟩ := pending
  refine ⟨op', still op' member results, kind, results, ?_⟩
  intro numInputs dps reads init found
  exact (filled numInputs dps reads init found).mono kept

/-- An isolated op that is left alone stays isolated, if no op starts to read its results. -/
theorem Isolated.kept {strela host : DeviceAffinity} {body body' : Body Kind} {op : Op Kind}
    (kept : Kept body body') (still : ∀ op' ∈ body, op'.results = op.results → op' ∈ body')
    (transfers : ∀ op' ∈ body, op'.kind.isTransfer = true → op' ∈ body')
    (users : ∀ v ∈ op.results, ∀ user ∈ body', v ∈ user.operands → user ∈ body)
    (isolated : Isolated strela host body op) : Isolated strela host body' op := by
  obtain ⟨op', member, kind, results, settled⟩ := isolated.inputs
  refine ⟨⟨op', still op' member results, kind, results, ?_⟩, ?_⟩
  · intro numInputs numInits dps v read
    exact (settled numInputs numInits dps v read).mono kept
  · intro v result
    obtain ⟨dims, back, backIn, notDim, only⟩ := isolated.results v result
    refine ⟨dims, back, transfers _ backIn rfl, notDim, ?_⟩
    intro user userIn used
    exact only user (users v result user userIn used) used

/-- Constants and transfers are no linalg ops. -/
theorem Settled.not_linalg {strela : DeviceAffinity} {body : Body Kind} {args : List Nat} {v : Nat}
    (dominated : Dominated args body) (settled : Settled strela body v) :
    v ∉ linalgResults body := by
  intro result
  obtain ⟨owner, ownerIn, isLinalg, owned⟩ := mem_linalgResults.mp result
  rcases settled with ⟨op, member, made, attr, isConstant, -⟩ | ⟨op, member, results, isTransfer⟩
  · rw [dominated.unique ownerIn member owned made, isConstant] at isLinalg
    cases isLinalg
  · rw [dominated.unique ownerIn member owned (by simp [results]), isTransfer] at isLinalg
    cases isLinalg

section

variable (result back : Nat)

@[simp] theorem replaceUses_kind (op : Op Kind) : (replaceUses result back op).kind = op.kind := by
  unfold replaceUses
  split <;> rfl

@[simp] theorem replaceUses_results (op : Op Kind) :
    (replaceUses result back op).results = op.results := by
  unfold replaceUses
  split <;> rfl

/-- An operand stays, or goes from the result to its transfer. -/
theorem replaceUses_operands (op : Op Kind) :
    ∃ moved : Nat → Nat, (∀ v, moved v = v ∨ (v = result ∧ moved v = back)) ∧
      (replaceUses result back op).operands = op.operands.map moved := by
  unfold replaceUses
  split
  · exact ⟨id, fun v => Or.inl rfl, (List.map_id _).symm⟩
  · refine ⟨fun v => if v = result then back else v, fun v => ?_, rfl⟩
    by_cases same : v = result
    · exact Or.inr ⟨same, if_pos same⟩
    · exact Or.inl (if_neg same)

theorem replaceUses_mem {op : Op Kind} {w : Nat}
    (member : w ∈ (replaceUses result back op).operands) :
    w ∈ op.operands ∨ w = back := by
  obtain ⟨moved, moves, operands⟩ := replaceUses_operands result back op
  rw [operands, List.mem_map] at member
  obtain ⟨v, old, rfl⟩ := member
  rcases moves v with same | ⟨-, isBack⟩
  · exact Or.inl (same.symm ▸ old)
  · exact Or.inr isBack

theorem replaceUses_eq {op : Op Kind} (unused : result ∉ op.operands) :
    replaceUses result back op = op := by
  have same : op.operands.map (fun v => if v = result then back else v) = op.operands := by
    conv_rhs => rw [← List.map_id op.operands]
    refine List.map_congr_left fun v used => if_neg ?_
    rintro rfl
    exact unused used
  unfold replaceUses
  rw [same, ite_self]

/-- But for the transfer itself, no op reads the value afterwards. -/
theorem replaceUses_removes {op : Op Kind} (other : op.results ≠ [back])
    (different : result ≠ back) :
    result ∉ (replaceUses result back op).operands := by
  rw [replaceUses, if_neg other]
  intro used
  obtain ⟨v, -, isResult⟩ := List.mem_map.mp used
  split at isResult
  · exact different isResult.symm
  · exact absurd isResult ‹_›

theorem replaceUses_transfer (host : DeviceAffinity) (source : Nat) (dims : List Nat) :
    replaceUses result back (tensorTransfer host source dims back) =
      tensorTransfer host source dims back :=
  if_pos rfl

/-- A guarded value stays so when uses of another are replaced. -/
theorem Guarded.replaceAllUses {host : DeviceAffinity} {body : Body Kind} {v : Nat}
    (guarded : Guarded host body v) {result back : Nat} (notBack : v ≠ back)
    (notResult : v ≠ result) :
    Guarded host (replaceAllUsesExcept result back body) v := by
  obtain ⟨dims, own, ownIn, notDim, only⟩ := guarded
  obtain ⟨moved, moves, isMap⟩ := replaceUses_operands result back (tensorTransfer host v dims own)
  have stays : moved v = v := (moves v).resolve_right fun other => notResult other.1
  have isTransfer : replaceUses result back (tensorTransfer host v dims own) =
      tensorTransfer host v (dims.map moved) own := by
    refine Op.ext (replaceUses_kind ..) ?_ (replaceUses_results ..)
    rw [isMap, tensorTransfer, tensorTransfer, List.map_cons, stays]
  refine ⟨dims.map moved, own, List.mem_map.mpr ⟨_, ownIn, isTransfer⟩, ?_,
    fun user userIn used => ?_⟩
  · rintro inDims
    obtain ⟨dim, dimIn, isDim⟩ := List.mem_map.mp inDims
    rcases moves dim with same | ⟨-, isBack⟩
    · exact notDim ((same.symm.trans isDim) ▸ dimIn)
    · exact notBack (isDim.symm.trans isBack)
  · obtain ⟨old, oldIn, rfl⟩ := List.mem_map.mp userIn
    rw [only old oldIn ((replaceUses_mem result back used).resolve_right notBack), isTransfer]

theorem linalgResults_replaceAllUses (body : Body Kind) :
    linalgResults (replaceAllUsesExcept result back body) = linalgResults body := by
  simp only [linalgResults, replaceAllUsesExcept, List.filter_map, Function.comp_def,
    replaceUses_kind, defs, List.flatMap_map, replaceUses_results]

end

/-- Between two candidates: the body computes what the original one does, the ops wrapped
so far are isolated, and the others are as they were but for what they read. -/
structure Wrapping (scope : Scope) (strela : DeviceAffinity) (args : List Nat)
    (original : Body Kind) (wrapped pending : List (Op Kind)) (body : Body Kind) : Prop where
  dominated : Dominated args body
  verified : Verified body
  aligned : Aligned SameKind Inserted (Transferred body) original body
  pending : ∀ op ∈ pending, Pending body op
  isolated : ∀ op ∈ wrapped, op.kind.dps.isSome = true ∧
    ∃ host, lookupOrDefault scope op.kind = some host ∧ Isolated strela host body op

section

variable {scope : Scope} {strela : DeviceAffinity} {args : List Nat} {original : Body Kind}
  {wrapped pending : List (Op Kind)}

theorem Wrapping.mem_linalgResults {body : Body Kind}
    (wrapping : Wrapping scope strela args original wrapped pending body) {op : Op Kind}
    (member : op ∈ wrapped) {v : Nat} (result : v ∈ op.results) : v ∈ linalgResults body := by
  obtain ⟨isLinalg, host, _, isolated⟩ := wrapping.isolated op member
  obtain ⟨op', member', kind, results, _⟩ := isolated.inputs
  exact Flow.mem_linalgResults.mpr ⟨op', member', kind ▸ isLinalg, results ▸ result⟩

/-- No linalg op reads what a wrapped one makes. -/
theorem Wrapping.not_read {body : Body Kind}
    (wrapping : Wrapping scope strela args original wrapped pending body) {op : Op Kind}
    (member : op ∈ wrapped) {v : Nat} (result : v ∈ op.results) (user : Op Kind)
    (userIn : user ∈ body) (isLinalg : user.kind.dps.isSome = true) : v ∉ user.operands := by
  intro used
  obtain ⟨-, host, _, isolated⟩ := wrapping.isolated op member
  obtain ⟨dims, back, _, _, only⟩ := isolated.results v result
  rw [only user userIn used] at isLinalg
  cases isLinalg

/-- Ops are inserted that do not read what a wrapped op makes. -/
theorem Wrapping.insert {before new after : Body Kind}
    (wrapping : Wrapping scope strela args original wrapped pending (before ++ after))
    (dominated : Dominated (defs before ++ args) new) (fresh : ∀ v ∈ defs new, v ∉ defs after)
    (inserted : ∀ op ∈ new, Inserted op.kind)
    (dims : ∀ op ∈ new, op.kind.isTransfer = true →
      ∀ dim ∈ op.operands.tail, dim ∉ linalgResults (before ++ after))
    (apart : ∀ op ∈ wrapped, ∀ v ∈ op.results, v ∉ uses new) :
    Wrapping scope strela args original wrapped pending (before ++ new ++ after) := by
  have old {op : Op Kind} (member : op ∈ before ++ after) : op ∈ before ++ new ++ after := by
    simp only [List.mem_append] at member ⊢
    tauto
  have cases_ {op : Op Kind} (member : op ∈ before ++ new ++ after) : op ∈ before ++ after ∨
      op ∈ new := by
    simp only [List.mem_append] at member ⊢
    tauto
  have kept : Kept (before ++ after) (before ++ new ++ after) :=
    fun op member => ⟨op, old member, rfl, rfl⟩
  refine ⟨wrapping.dominated.insert dominated fresh, ⟨?_, ?_, ?_⟩, ?_, ?_, ?_⟩
  · intro op member numInputs numInits isLinalg
    rcases cases_ member with here | there
    · exact wrapping.verified.operands op here numInputs numInits isLinalg
    · rw [(inserted op there).dps] at isLinalg
      cases isLinalg
  · intro op member isTensor
    rcases cases_ member with here | there
    · exact wrapping.verified.results op here isTensor
    · rw [(inserted op there).pureTensorSemantics] at isTensor
      cases isTensor
  · intro op member isTransfer
    rw [linalgResults_insert inserted]
    rcases cases_ member with here | there
    · exact wrapping.verified.dims op here isTransfer
    · exact dims op there isTransfer
  · refine (wrapping.aligned.insert inserted).rewire
      (List.forall₂_same.mpr fun op _ => Rewires.self ?_ op)
    intro w v carries
    refine carries.rewrite fun op member isTransfer w source rest results operands => ?_
    exact .copy (old member) isTransfer results operands (.refl _)
  · intro op member
    exact (wrapping.pending op member).kept kept fun op' member' _ => old member'
  · intro op member
    obtain ⟨isLinalg, host, isHost, isolated⟩ := wrapping.isolated op member
    refine ⟨isLinalg, host, isHost, isolated.kept kept (fun op' member' _ => old member')
      (fun op' member' _ => old member') ?_⟩
    intro v result user userIn used
    rcases cases_ userIn with here | there
    · exact here
    · exact absurd (Ssa.mem_uses there used) (apart op member v result)

/-- A linalg op that is none of the candidates left or right of it reads other values,
which carry what it read. -/
theorem Wrapping.setOperands {before after : Body Kind} {op : Op Kind} {operands : List Nat}
    (wrapping : Wrapping scope strela args original wrapped pending (before ++ op :: after))
    (isLinalg : op.kind.dps.isSome = true)
    (carried : List.Forall₂ (Transferred (before ++ op :: after)) operands op.operands)
    (known : ∀ w ∈ operands, w ∈ defs before ++ args)
    (other : ∀ op' ∈ wrapped ++ pending, op'.results ≠ op.results)
    (apart : ∀ op' ∈ wrapped, ∀ v ∈ op'.results, v ∉ operands) :
    Wrapping scope strela args original wrapped pending
      (before ++ { op with operands := operands } :: after) := by
  have old {op' : Op Kind} (member : op' ∈ before ++ op :: after) (not : op' ≠ op) :
      op' ∈ before ++ { op with operands := operands } :: after := by
    simp only [List.mem_append, List.mem_cons] at member ⊢
    tauto
  have cases_ {op' : Op Kind} (member : op' ∈ before ++ { op with operands := operands } :: after) :
      op' ∈ before ++ op :: after ∨ op' = { op with operands := operands } := by
    simp only [List.mem_append, List.mem_cons] at member ⊢
    tauto
  have here : op ∈ before ++ op :: after := by simp
  have new : { op with operands := operands } ∈
    before ++ { op with operands := operands } :: after := by simp
  have kept : Kept (before ++ op :: after)
      (before ++ { op with operands := operands } :: after) := by
    intro op' member
    by_cases same : op' = op
    · exact ⟨_, new, by rw [same], by rw [same]⟩
    · exact ⟨op', old member same, rfl, rfl⟩
  have notTransfer {op' : Op Kind} (isTransfer : op'.kind.isTransfer = true) : op' ≠ op := by
    rintro rfl
    rw [dps_of_isTransfer isTransfer] at isLinalg
    cases isLinalg
  have still (op' : Op Kind) (candidate : op' ∈ wrapped ++ pending) :
      ∀ op'' ∈ before ++ op :: after, op''.results = op'.results →
        op'' ∈ before ++ { op with operands := operands } :: after := by
    intro op'' member results
    apply old member
    rintro rfl
    exact other op' candidate results.symm
  have sameResults : linalgResults (before ++ { op with operands := operands } :: after) =
      linalgResults (before ++ op :: after) := by
    simp [linalgResults, isLinalg]
  have more (w v : Nat) (carries : Transferred (before ++ op :: after) w v) :
      Transferred (before ++ { op with operands := operands } :: after) w v :=
    carries.rewrite fun op' member isTransfer w source rest results operands =>
      .copy (old member (notTransfer isTransfer)) isTransfer results operands (.refl _)
  refine ⟨wrapping.dominated.setOperands known, ⟨?_, ?_, ?_⟩, ?_, ?_, ?_⟩
  · intro op' member numInputs numInits dps
    rcases cases_ member with there | rfl
    · exact wrapping.verified.operands op' there numInputs numInits dps
    · rw [carried.length_eq]
      exact wrapping.verified.operands op here numInputs numInits dps
  · intro op' member isTensor
    rcases cases_ member with there | rfl
    · exact wrapping.verified.results op' there isTensor
    · exact wrapping.verified.results op here isTensor
  · intro op' member isTransfer
    rw [sameResults]
    rcases cases_ member with there | rfl
    · exact wrapping.verified.dims op' there isTransfer
    · rw [dps_of_isTransfer isTransfer] at isLinalg
      cases isLinalg
  · refine wrapping.aligned.rewire (List.rel_append ?_ (.cons ⟨rfl, rfl, ?_⟩ ?_))
    · exact List.forall₂_same.mpr fun op' _ => Rewires.self more op'
    · exact carried.imp fun w' w (carries : Transferred _ w' w) v rest =>
        more w' v (carries.trans rest)
    · exact List.forall₂_same.mpr fun op' _ => Rewires.self more op'
  · intro op' member
    exact (wrapping.pending op' member).kept kept (still op' (List.mem_append_right _ member))
  · intro op' member
    obtain ⟨isLinalg', host, isHost, isolated⟩ := wrapping.isolated op' member
    refine ⟨isLinalg', host, isHost, isolated.kept kept (still op' (List.mem_append_left _ member))
      (fun transfer member' isTransfer => old member' (notTransfer isTransfer)) ?_⟩
    intro v result user userIn used
    rcases cases_ userIn with there | rfl
    · exact there
    · exact absurd used (apart op' member v result)

/-- What carried a value still does, if the transfer's result carries the one it replaces. -/
theorem transferred_replaceAllUses {body : Body Kind} {result back : Nat}
    (carriesBack : Transferred (replaceAllUsesExcept result back body) back result) {w v : Nat}
    (carries : Transferred body w v) : Transferred (replaceAllUsesExcept result back body) w v := by
  refine carries.rewrite fun op member isTransfer w source rest results operands => ?_
  obtain ⟨moved, moves, isMap⟩ := replaceUses_operands result back op
  refine .copy (List.mem_map_of_mem member) ((replaceUses_kind ..).symm ▸ isTransfer)
    ((replaceUses_results ..).trans results) (by rw [isMap, operands, List.map_cons]) ?_
  rcases moves source with same | ⟨rfl, isBack⟩
  · rw [same]
    exact .refl _
  · rw [isBack]
    exact carriesBack

/-- Only a linalg op's result is moved, and that is no dim. -/
theorem Verified.replaceAllUses {body : Body Kind} {result back : Nat} (verified : Verified body)
    (isResult : result ∈ linalgResults body) :
    Verified (replaceAllUsesExcept result back body) := by
  refine ⟨?_, ?_, ?_⟩
  · intro op member numInputs numInits dps
    obtain ⟨op', member', rfl⟩ := List.mem_map.mp member
    obtain ⟨moved, -, isMap⟩ := replaceUses_operands result back op'
    rw [isMap, List.length_map]
    exact verified.operands op' member' numInputs numInits (replaceUses_kind .. ▸ dps)
  · intro op member isTensor
    obtain ⟨op', member', rfl⟩ := List.mem_map.mp member
    rw [replaceUses_kind] at isTensor ⊢
    rw [replaceUses_results]
    exact verified.results op' member' isTensor
  · intro op member isTransfer dim inTail
    obtain ⟨op', member', rfl⟩ := List.mem_map.mp member
    obtain ⟨moved, moves, isMap⟩ := replaceUses_operands result back op'
    rw [isMap, ← List.map_tail, List.mem_map] at inTail
    obtain ⟨v, old, rfl⟩ := inTail
    have index := verified.dims op' member' (replaceUses_kind .. ▸ isTransfer) v old
    rw [linalgResults_replaceAllUses]
    rcases moves v with same | ⟨rfl, -⟩
    · rwa [same]
    · exact absurd isResult index

/-- All uses of a value of a linalg op but its transfer are moved to the transfer. -/
theorem Wrapping.replaceAllUses {body : Body Kind} {result back : Nat} {host : DeviceAffinity}
    {dims : List Nat} {owner : Op Kind}
    (wrapping : Wrapping scope strela args original wrapped pending body)
    (dominated : Dominated args (replaceAllUsesExcept result back body))
    (transfer : tensorTransfer host result dims back ∈ body) (ownerIn : owner ∈ body)
    (owned : result ∈ owner.results) (isLinalg : owner.kind.dps.isSome = true)
    (notFill : owner.kind ≠ .fill) (apart : ∀ op ∈ wrapped, result ∉ op.results) :
    Wrapping scope strela args original wrapped pending
      (replaceAllUsesExcept result back body) := by
  have isResult : result ∈ linalgResults body :=
    Flow.mem_linalgResults.mpr ⟨owner, ownerIn, isLinalg, owned⟩
  have kept : Kept body (replaceAllUsesExcept result back body) := fun op member =>
    ⟨_, List.mem_map_of_mem member, replaceUses_kind .., replaceUses_results ..⟩
  have transfer' : tensorTransfer host result dims back ∈ replaceAllUsesExcept result back body :=
    List.mem_map.mpr ⟨_, transfer, replaceUses_transfer ..⟩
  have carriesBack : Transferred (replaceAllUsesExcept result back body) back result :=
    .copy transfer' rfl rfl rfl (.refl _)
  -- Only the result itself is moved, and it is neither settled, filled nor a dim.
  refine ⟨dominated, wrapping.verified.replaceAllUses isResult, ?_, ?_, ?_⟩
  · refine wrapping.aligned.rewire
      (List.forall₂_map_right_iff.mpr (List.forall₂_same.mpr fun op _ => ?_))
    obtain ⟨moved, moves, isMap⟩ := replaceUses_operands result back op
    refine ⟨replaceUses_kind .., replaceUses_results .., ?_⟩
    rw [isMap]
    refine List.forall₂_map_left_iff.mpr (List.forall₂_same.mpr fun w _ v carries => ?_)
    rcases moves w with same | ⟨rfl, isBack⟩
    · rw [same]
      exact transferred_replaceAllUses carriesBack carries
    · rw [isBack]
      exact carriesBack.trans (transferred_replaceAllUses carriesBack carries)
  · intro op member
    obtain ⟨op', member', kind, results, filled⟩ := wrapping.pending op member
    obtain ⟨moved, moves, isMap⟩ := replaceUses_operands result back op'
    refine ⟨_, List.mem_map_of_mem member', (replaceUses_kind ..).trans kind,
      (replaceUses_results ..).trans results,
      fun numInputs dps reads init found => ?_⟩
    rw [isMap, List.getElem?_map, Option.map_eq_some_iff] at found
    obtain ⟨v, old, rfl⟩ := found
    have before := filled numInputs dps reads v old
    rcases moves v with same | ⟨rfl, -⟩
    · rw [same]
      exact before.mono kept
    · obtain ⟨fill, fillIn, isFill, made⟩ := before
      exact absurd (wrapping.dominated.unique fillIn ownerIn made owned ▸ isFill) notFill
  · intro op member
    obtain ⟨isLinalg', host', isHost, isolated⟩ := wrapping.isolated op member
    obtain ⟨op', member', kind, results, settled⟩ := isolated.inputs
    obtain ⟨moved, moves, isMap⟩ := replaceUses_operands result back op'
    refine ⟨isLinalg', host', isHost,
      ⟨_, List.mem_map_of_mem member', (replaceUses_kind ..).trans kind,
      (replaceUses_results ..).trans results, fun numInputs numInits dps w read => ?_⟩,
      fun v made => ?_⟩
    · rw [isMap, ← List.map_take, List.mem_map] at read
      obtain ⟨v, old, rfl⟩ := read
      have before := settled numInputs numInits dps v old
      rcases moves v with same | ⟨rfl, -⟩
      · rw [same]
        exact before.mono kept
      · exact absurd isResult (before.not_linalg wrapping.dominated)
    · refine (isolated.results v made).replaceAllUses ?_ fun same => apart op member (same ▸ made)
      rintro rfl
      obtain ⟨maker, makerIn, isLinalg'', makes⟩ :=
        Flow.mem_linalgResults.mp (wrapping.mem_linalgResults member made)
      rw [wrapping.dominated.unique makerIn transfer makes
        (List.mem_singleton_self v)] at isLinalg''
      cases isLinalg''

end

end Estela.Compiler.Flow
