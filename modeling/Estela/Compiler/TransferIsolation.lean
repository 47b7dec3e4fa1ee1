import Estela.Compiler.TransferInvariant

set_option autoImplicit false

namespace Estela.Compiler.Flow

open Ssa (Op Body defs uses definingOp Dominated Carries Aligned Rewires)

theorem Cursor.find_eq {args : List Nat} {body : Body Kind} {op : Op Kind} {v : Nat}
    (dominated : Dominated args body) (member : op ∈ body) (result : v ∈ op.results) :
    ∃ before after, body = before ++ op :: after ∧
      Cursor.find op.results body = some ⟨before, op, after⟩ := by
  induction body generalizing args with
  | nil => cases member
  | cons head rest ih =>
      by_cases here : head.results = op.results
      · have same := dominated.unique (List.mem_cons_self ..) member (here ▸ result) result
        subst same
        exact ⟨[], rest, rfl, if_pos rfl⟩
      · have tail : op ∈ rest :=
          (List.mem_cons.mp member).resolve_left fun same => here (same ▸ rfl)
        obtain ⟨before, after, split, found⟩ := ih dominated.2.2.2 tail
        refine ⟨head :: before, after, by rw [split]; rfl, ?_⟩
        rw [Cursor.find, if_neg here, found]
        rfl

theorem lt_freshValue {args : List Nat} {body : Body Kind} {v : Nat}
    (member : v ∈ args ++ defs body) :
    v < freshValue args body := by
  rw [freshValue, Nat.lt_succ_iff]
  generalize args ++ defs body = known at member
  induction known with
  | nil => cases member
  | cons head rest ih =>
      rcases List.mem_cons.mp member with rfl | tail
      · exact le_max_left _ _
      · exact (ih tail).trans (le_max_right _ _)

theorem freshValue_not_mem (args : List Nat) (body : Body Kind) :
    freshValue args body ∉ args ++ defs body :=
  fun member => Nat.lt_irrefl _ (lt_freshValue member)

section

variable {scope : Scope} {strela : DeviceAffinity} {args : List Nat} {original : Body Kind}
  {wrapped pending : List (Op Kind)} {buildDynamicDimsForValue : DimsBuilder}

/-- The op at the cursor is a linalg op that is none of the others to be wrapped, and the
rest is as between two candidates. -/
structure Opened (scope : Scope) (strela : DeviceAffinity) (args : List Nat) (original : Body Kind)
    (wrapped pending : List (Op Kind)) (cursor : Cursor) : Prop where
  wrapping : Wrapping scope strela args original wrapped pending cursor.body
  isLinalg : cursor.op.kind.dps.isSome = true
  other : ∀ op ∈ wrapped ++ pending, op.results ≠ cursor.op.results

/-- A cursor further on: ops were inserted before it, and its op may read other values. -/
structure Cursor.Ahead (cursor cursor' : Cursor) : Prop where
  kind : cursor'.op.kind = cursor.op.kind
  results : cursor'.op.results = cursor.op.results
  after : cursor'.after = cursor.after
  before : ∀ v ∈ defs cursor.before, v ∈ defs cursor'.before
  kept : Kept cursor.body cursor'.body
  linalgResults : linalgResults cursor'.body = linalgResults cursor.body

theorem Cursor.Ahead.refl (cursor : Cursor) : cursor.Ahead cursor :=
  ⟨rfl, rfl, rfl, fun _ made => made, fun op member => ⟨op, member, rfl, rfl⟩, rfl⟩

theorem Cursor.Ahead.trans {first second third : Cursor} (ahead : first.Ahead second)
    (further : second.Ahead third) :
    first.Ahead third := by
  refine ⟨further.kind.trans ahead.kind, further.results.trans ahead.results,
    further.after.trans ahead.after,
    fun v made => further.before v (ahead.before v made), fun op member => ?_,
    further.linalgResults.trans ahead.linalgResults⟩
  obtain ⟨op', member', kind, results⟩ := ahead.kept op member
  obtain ⟨op'', member'', kind', results'⟩ := further.kept op' member'
  exact ⟨op'', member'', kind'.trans kind, results'.trans results⟩

/-- A value defined before the cursor that is no linalg result. -/
def Cursor.Usable (cursor : Cursor) (args : List Nat) (dim : Nat) : Prop :=
  dim ∈ defs cursor.before ++ args ∧ dim ∉ linalgResults cursor.body

theorem Cursor.Usable.ahead {cursor cursor' : Cursor} {args : List Nat} {dim : Nat}
    (usable : cursor.Usable args dim) (ahead : cursor.Ahead cursor') : cursor'.Usable args dim := by
  refine ⟨?_, by rw [ahead.linalgResults]; exact usable.2⟩
  have known := usable.1
  simp only [List.mem_append] at known ⊢
  exact known.imp_left (ahead.before dim)

theorem Cursor.ahead_insert (cursor : Cursor) (ops : Body Kind)
    (inserted : ∀ op ∈ ops, Inserted op.kind) :
    cursor.Ahead (cursor.insert ops) := by
  refine ⟨rfl, rfl, rfl, fun v made => ?_, fun op member => ⟨op, ?_, rfl, rfl⟩,
    linalgResults_insert inserted⟩
  · rw [Cursor.insert, Ssa.defs_append]
    exact List.mem_append_left _ made
  · simp only [Cursor.insert, Cursor.body, List.mem_append] at member ⊢
    tauto

theorem Cursor.ahead_setOperands (cursor : Cursor) (operands : List Nat) :
    cursor.Ahead { cursor with op := { cursor.op with operands := operands } } := by
  refine ⟨rfl, rfl, rfl, fun v made => made, fun op member => ?_, ?_⟩
  · simp only [Cursor.body, List.mem_append, List.mem_cons] at member ⊢
    rcases member with before | rfl | after
    · exact ⟨op, Or.inl before, rfl, rfl⟩
    · exact ⟨_, Or.inr (Or.inl rfl), rfl, rfl⟩
    · exact ⟨op, Or.inr (Or.inr after), rfl, rfl⟩
  · simp only [Flow.linalgResults, Cursor.body, List.filter_append, List.filter_cons]
    split <;> simp

/-- Building the dims of an operand inserts what computes them. -/
theorem Opened.buildDims (builds : BuildsDims buildDynamicDimsForValue) {cursor : Cursor}
    (opened : Opened scope strela args original wrapped pending cursor) {value : Nat}
    (operand : value ∈ cursor.op.operands) :
    let built := cursor.buildDims buildDynamicDimsForValue args value
    Opened scope strela args original wrapped pending built.1 ∧ cursor.Ahead built.1 ∧
      built.1.op = cursor.op ∧ ∀ dim ∈ built.2, built.1.Usable args dim := by
  intro built
  obtain ⟨wrapping, isLinalg, other⟩ := opened
  have dominated : Dominated args (cursor.before ++ cursor.op :: cursor.after) := wrapping.dominated
  have known : value ∈ defs cursor.before ++ args :=
    ((Ssa.dominated_append _ _ _).mp dominated).2.1 value operand
  have inserted : ∀ op ∈
    (buildDynamicDimsForValue args cursor.before (cursor.op :: cursor.after) value).1,
      Inserted op.kind := fun op member => Or.inr (builds.pureOps _ _ _ _ op member)
  have newDominated :=
    builds.dominated args cursor.before (cursor.op :: cursor.after) value dominated
    wrapping.verified known
  have fresh := builds.fresh args cursor.before
    (cursor.op :: cursor.after) value dominated wrapping.verified known
  refine ⟨⟨wrapping.insert newDominated fresh inserted ?_ ?_, isLinalg, other⟩,
    cursor.ahead_insert _ inserted, rfl, ?_⟩
  · intro op member isTransfer
    rw [isPure_not_transfer (builds.pureOps _ _ _ _ op member)] at isTransfer
    cases isTransfer
  · intro op member v result used
    have isResult := wrapping.mem_linalgResults member result
    rcases builds.reads _ _ _ _ dominated wrapping.verified known v used with rfl | made | index
    · exact wrapping.not_read member result cursor.op (by simp [Cursor.body]) isLinalg operand
    · obtain ⟨maker, makerIn, -, makes⟩ := mem_linalgResults.mp isResult
      have old := Ssa.mem_defs makerIn makes
      rw [Cursor.body, Ssa.defs_append, List.mem_append] at old
      rcases old with before | after
      · exact newDominated.fresh v made (List.mem_append_left _ before)
      · exact fresh v made after
    · exact index isResult
  · intro dim member
    obtain ⟨usable, index⟩ := builds.dims _ _ _ _ dominated wrapping.verified known dim member
    refine ⟨?_, (cursor.ahead_insert _ inserted).linalgResults ▸ index⟩
    rw [show built.1.before = cursor.before ++ _ from rfl, Ssa.defs_append]
    simp only [List.mem_append] at usable ⊢
    tauto

theorem Filled.definingFill {body : Body Kind} {v : Nat} (dominated : Dominated args body)
    (filled : Filled body v) :
    (definingFill body v).isNone = false := by
  obtain ⟨fill, member, isFill, result⟩ := filled
  obtain ⟨kind, operands, results⟩ := fill
  obtain rfl : kind = .fill := isFill
  rw [Flow.definingFill, Ssa.definingOp_of_mem dominated member result]
  rfl

/-- The first loop: the assertion holds, and the dims of the inits are there. -/
theorem Opened.buildResultDims (builds : BuildsDims buildDynamicDimsForValue)
    (inits : List (Nat × Nat)) {cursor : Cursor}
    (opened : Opened scope strela args original wrapped pending cursor)
    (operands : ∀ init ∈ inits, init.1 ∈ cursor.op.operands)
    (filled : ∀ init ∈ inits, cursor.op.kind.payloadUsesInit init.2 = true →
      Filled cursor.body init.1) :
    ∃ cursor' resultDims,
      buildResultDims buildDynamicDimsForValue args inits cursor = some (cursor', resultDims) ∧
      Opened scope strela args original wrapped pending cursor' ∧ cursor.Ahead cursor' ∧
      cursor'.op = cursor.op ∧
      resultDims.length = inits.length ∧ ∀ dims ∈ resultDims, ∀ dim ∈ dims,
        cursor'.Usable args dim := by
  induction inits generalizing cursor with
  | nil => exact ⟨cursor, [], rfl, opened, .refl cursor, rfl, rfl, by simp⟩
  | cons init rest ih =>
      obtain ⟨value, number⟩ := init
      have asserted : ¬ (cursor.op.kind.payloadUsesInit number = true ∧
          (Flow.definingFill cursor.body value).isNone = true) := by
        rintro ⟨reads, missing⟩
        have defined := (filled _ (List.mem_cons_self ..) reads).definingFill
          opened.wrapping.dominated
        rw [missing] at defined
        cases defined
      obtain ⟨opened', ahead, sameOp, usable⟩ :=
        opened.buildDims builds (operands _ (List.mem_cons_self ..))
      obtain ⟨cursor', resultDims, built, opened'', ahead', sameOp', length, usable'⟩ := ih opened'
        (fun init member => sameOp ▸ operands init (List.mem_cons_of_mem _ member))
        (fun init member reads =>
          (filled init (List.mem_cons_of_mem _ member) (sameOp ▸ reads)).mono ahead.kept)
      refine ⟨cursor', (cursor.buildDims buildDynamicDimsForValue args value).2 :: resultDims, ?_,
        opened'', ahead.trans ahead', sameOp'.trans sameOp,
        by rw [List.length_cons, length, List.length_cons], ?_⟩
      · rw [Flow.buildResultDims, if_neg asserted]
        dsimp only
        rw [built]
        rfl
      · intro dims member dim inside
        rcases List.mem_cons.mp member with rfl | later
        · exact (usable dim inside).ahead ahead'
        · exact usable' dims later dim inside

/-- A transfer is inserted. -/
theorem Wrapping.insertTransfer {before after : Body Kind} {target : DeviceAffinity}
    {source result : Nat} {dims : List Nat}
    (wrapping : Wrapping scope strela args original wrapped pending
      (before ++ after))
    (known : source ∈ defs before ++ args)
    (usable : ∀ dim ∈ dims, dim ∈ defs before ++ args ∧ dim ∉ linalgResults (before ++ after))
    (apart : ∀ op ∈ wrapped, source ∉ op.results)
    (fresh : result ∉ args ++ defs (before ++ after)) :
    Wrapping scope strela args original wrapped pending
      (before ++ [tensorTransfer target source dims result] ++ after) := by
  simp only [Ssa.defs_append, List.mem_append, not_or] at fresh
  have uses_ : uses [tensorTransfer target source dims result] = source :: dims := by
    simp [uses, tensorTransfer]
  have defs_ : defs [tensorTransfer target source dims result] = [result] := rfl
  refine wrapping.insert ⟨?_, ?_, List.nodup_singleton _, trivial⟩ ?_ ?_ ?_ ?_
  · intro v used
    rcases List.mem_cons.mp used with rfl | dim
    · exact known
    · exact (usable v dim).1
  · intro v made
    rw [List.mem_singleton.mp made, List.mem_append]
    tauto
  · intro v made
    rw [defs_] at made
    rw [List.mem_singleton.mp made]
    exact fresh.2.2
  · intro op member
    rw [List.mem_singleton.mp member]
    exact Or.inl rfl
  · intro op member _
    rw [List.mem_singleton.mp member]
    exact fun dim inside => (usable dim inside).2
  · intro op member v made
    rw [uses_, List.mem_cons, not_or]
    refine ⟨fun same => apart op member (same ▸ made), fun dim => ?_⟩
    exact (usable v dim).2 (wrapping.mem_linalgResults member made)

theorem settled_of_immediate {body : Body Kind} {v : Nat}
    (immediate : isInt32Immediate (constantOf body v) = true) :
    Settled strela body v := by
  unfold constantOf at immediate
  split at immediate
  · rename_i attr operands results i found
    obtain ⟨before, after, rfl, -, result⟩ := Ssa.definingOp_split found
    exact Or.inl ⟨_, by simp, List.mem_of_getElem? result, attr, rfl, immediate⟩
  · cases immediate

/-- The second loop, once: the input is settled. -/
theorem Opened.transferInput (builds : BuildsDims buildDynamicDimsForValue) {cursor : Cursor}
    (opened : Opened scope strela args original wrapped pending cursor) {done rest : List Nat}
    {value : Nat} (operands : cursor.op.operands = done ++ value :: rest) :
    let cursor' := transferInput buildDynamicDimsForValue args strela cursor (value, done.length)
    Opened scope strela args original wrapped pending cursor' ∧ cursor.Ahead cursor' ∧
      ∃ input, cursor'.op.operands = done ++ input :: rest ∧ Settled strela cursor'.body input := by
  intro cursor'
  by_cases immediate : isInt32Immediate (constantOf cursor.body value) = true
  · have same : cursor' = cursor := if_pos immediate
    rw [same]
    exact ⟨opened, .refl cursor, value, operands, settled_of_immediate immediate⟩
  · obtain ⟨opened', ahead, sameOp, usable⟩ :=
      opened.buildDims builds (show value ∈ cursor.op.operands by simp [operands])
    have isCursor : cursor' = _ := if_neg immediate
    dsimp only at isCursor
    generalize cursor.buildDims buildDynamicDimsForValue args value =
      built at isCursor opened' ahead sameOp usable
    obtain ⟨⟨before, op, after⟩, dims⟩ := built
    have fresh := freshValue_not_mem args (before ++ op :: after)
    generalize isTransfer : freshValue args (before ++ op :: after) = transfer at fresh
    obtain rfl : op = cursor.op := sameOp
    have moved : cursor.op.operands.set done.length transfer = done ++ transfer :: rest := by
      rw [operands, List.set_append_right _ _ (Nat.le_refl _), Nat.sub_self, List.set_cons_zero]
    have isCursor : cursor' = ⟨before ++ [tensorTransfer strela value dims transfer],
        { cursor.op with operands := done ++ transfer :: rest }, after⟩ := by
      rw [isCursor, ← moved, ← isTransfer]
      rfl
    have read (v : Nat) (used : v ∈ done ++ value :: rest) : v ∈ defs before ++ args :=
      ((Ssa.dominated_append _ _ _).mp opened'.wrapping.dominated).2.1 v (operands ▸ used)
    have apart {op : Op Kind} (member : op ∈ wrapped) {v : Nat} (made : v ∈ op.results) :
        v ∉ done ++ value :: rest :=
      operands ▸ opened'.wrapping.not_read member made cursor.op
        (by simp [Cursor.body]) opened'.isLinalg
    have inserted : Wrapping scope strela args original wrapped pending
        (before ++ [tensorTransfer strela value dims transfer] ++ cursor.op :: after) :=
      opened'.wrapping.insertTransfer (read value (by simp)) usable
        (fun op member made => apart member made (by simp))
        fresh
    have transferIn : tensorTransfer strela value dims transfer ∈
        before ++ [tensorTransfer strela value dims transfer] ++ cursor.op :: after := by simp
    have carried : List.Forall₂
      (Transferred (before ++ [tensorTransfer strela value dims transfer] ++
        cursor.op :: after)) (done ++ transfer :: rest) cursor.op.operands := by
      rw [operands]
      refine List.rel_append (List.forall₂_same.mpr fun v _ => .refl v)
        (.cons ?_ (List.forall₂_same.mpr fun v _ => .refl v))
      exact .copy transferIn rfl rfl rfl (.refl _)
    have known (v : Nat) (used : v ∈ done ++ transfer :: rest) :
        v ∈ defs (before ++ [tensorTransfer strela value dims transfer]) ++ args := by
      have := read v
      simp only [List.mem_append, List.mem_cons, Ssa.defs_append, Ssa.defs_cons,
        Ssa.defs_nil, tensorTransfer, List.not_mem_nil, or_false] at used this ⊢
      tauto
    have notRead (op : Op Kind) (member : op ∈ wrapped) (v : Nat) (made : v ∈ op.results) :
        v ∉ done ++ transfer :: rest := by
      have old := apart member made
      have isResult := opened'.wrapping.mem_linalgResults member made
      obtain ⟨maker, makerIn, -, makes⟩ := mem_linalgResults.mp isResult
      have notFresh : v ≠ transfer := by
        rintro rfl
        exact fresh (List.mem_append_right _ (Ssa.mem_defs makerIn makes))
      simp only [List.mem_append, List.mem_cons] at old ⊢
      tauto
    have aheadTransfer := ahead.trans (Cursor.ahead_insert ⟨before, cursor.op, after⟩
      [tensorTransfer strela value dims transfer] fun op member =>
      Or.inl (by rw [List.mem_singleton.mp member]; rfl))
    rw [isCursor]
    refine ⟨⟨inserted.setOperands opened'.isLinalg carried known opened'.other notRead,
      opened'.isLinalg,
      opened'.other⟩, aheadTransfer.trans (Cursor.ahead_setOperands _ _), transfer, rfl,
      Or.inr ⟨tensorTransfer strela value dims transfer, ?_, rfl, rfl⟩⟩
    simp [Cursor.body]

/-- The second loop: all the inputs are settled. -/
theorem Opened.transferInputs (builds : BuildsDims buildDynamicDimsForValue)
    (done inputs rest : List Nat) {cursor : Cursor}
    (opened : Opened scope strela args original wrapped pending cursor)
    (operands : cursor.op.operands = done ++ inputs ++ rest)
    (settled : ∀ v ∈ done, Settled strela cursor.body v) :
    let cursor' := (inputs.zipIdx done.length).foldl
      (Flow.transferInput buildDynamicDimsForValue args strela) cursor
    Opened scope strela args original wrapped pending cursor' ∧ cursor.Ahead cursor' ∧
      ∃ inputs', cursor'.op.operands = inputs' ++ rest ∧
      inputs'.length = done.length + inputs.length ∧
        ∀ v ∈ inputs', Settled strela cursor'.body v := by
  induction inputs generalizing cursor done with
  | nil => exact ⟨opened, .refl cursor, done, by simpa using operands, rfl, settled⟩
  | cons value inputs ih =>
      obtain ⟨opened', ahead, input, operands', isSettled⟩ :=
        opened.transferInput builds
          (show cursor.op.operands = done ++ value :: (inputs ++ rest) by simpa using operands)
      have next := ih (done ++ [input]) opened' (by simpa using operands') fun v member => by
        rcases List.mem_append.mp member with old | new
        · exact (settled v old).mono ahead.kept
        · exact List.mem_singleton.mp new ▸ isSettled
      rw [List.length_append, List.length_singleton] at next
      obtain ⟨opened'', ahead', inputs', isOperands, length, settled'⟩ := next
      exact ⟨opened'', ahead.trans ahead', inputs',
        isOperands, by rw [length, List.length_cons]; omega, settled'⟩

/-- A value is not replaced where it is not used. -/
theorem replaceAllUsesExcept_append {first after : Body Kind} {result back : Nat}
    (unused : result ∉ uses first) :
    replaceAllUsesExcept result back (first ++ after) =
      first ++ replaceAllUsesExcept result back after := by
  have same : first.map (replaceUses result back) = first := by
    conv_rhs => rw [← List.map_id first]
    exact List.map_congr_left fun op member => replaceUses_eq _ _ fun used =>
      unused (Ssa.mem_uses member used)
  rw [replaceAllUsesExcept, List.map_append, same]
  rfl

/-- Past a copy, where the value was not used before, its uses become uses of the copy. -/
theorem replaceAllUsesExcept_transfer {first after : Body Kind} {host : DeviceAffinity}
    {result back : Nat} {dims : List Nat} (unused : result ∉ uses first) :
    replaceAllUsesExcept result back (first ++ [tensorTransfer host result dims back] ++ after) =
      first ++ [tensorTransfer host result dims back] ++
        replaceAllUsesExcept result back after := by
  rw [List.append_assoc first, replaceAllUsesExcept_append unused, List.append_assoc first]
  rw [replaceAllUsesExcept, List.map_append, List.map_singleton, replaceUses_transfer]
  rfl

theorem dominated_replaceAllUsesExcept {first after : Body Kind} {host : DeviceAffinity}
    {result back : Nat} {dims : List Nat} (unused : result ∉ uses first)
    (dominated : Dominated args (first ++ [tensorTransfer host result dims back] ++ after)) :
    Dominated args
      (replaceAllUsesExcept result back
        (first ++ [tensorTransfer host result dims back] ++ after)) := by
  rw [replaceAllUsesExcept_transfer unused]
  obtain ⟨front, back_⟩ := (Ssa.dominated_append _ _ _).mp dominated
  refine (Ssa.dominated_append _ _ _).mpr
    ⟨front, back_.map (replaceUses_results result back) fun user _ w read => ?_⟩
  refine (replaceUses_mem result back read).imp_right ?_
  rintro rfl
  simp [tensorTransfer]

/-- The third loop, once: the op is isolated. -/
theorem Opened.transferBack {before after : Body Kind} {op op' : Op Kind} {host : DeviceAffinity}
    {result : Nat} {dims : List Nat}
    (opened : Opened scope strela args original wrapped pending ⟨before, op, after⟩)
    (isHost : lookupOrDefault scope op'.kind = some host) (kind : op.kind = op'.kind)
    (sameResults : op.results = op'.results) (results : op.results = [result])
    (notFill : op.kind ≠ .fill) (usable : ∀ dim ∈ dims, Cursor.Usable ⟨before, op, after⟩ args dim)
    (apart : ∀ other ∈ wrapped, result ∉ other.results)
    (settled : ∀ numInputs numInits, op.kind.dps = some (numInputs, numInits) →
      ∀ v ∈ op.operands.take numInputs, Settled strela (before ++ op :: after) v) :
    let point := transferBack args host (before ++ [op], after) (result, dims)
    Wrapping scope strela args original (wrapped ++ [op']) pending (point.1 ++ point.2) := by
  intro point
  obtain ⟨wrapping, isLinalg, other⟩ := opened
  have split : before ++ op :: after = (before ++ [op]) ++ after := by simp
  have fresh := freshValue_not_mem args ((before ++ [op]) ++ after)
  have isPoint : point.1 ++ point.2 =
    replaceAllUsesExcept result (freshValue args ((before ++ [op]) ++ after))
      (before ++ [op] ++ [tensorTransfer host result dims
        (freshValue args ((before ++ [op]) ++ after))] ++ after) := by
    rw [replaceAllUsesExcept, List.map_append]
    rfl
  generalize freshValue args ((before ++ [op]) ++ after) = back at fresh isPoint
  rw [isPoint]
  have dominated := wrapping.dominated
  simp only [Cursor.body] at wrapping dominated usable settled
  obtain ⟨first, used, new, once, later⟩ := (Ssa.dominated_append _ _ _).mp dominated
  have inserted : Wrapping scope strela args original wrapped pending
      (before ++ [op] ++ [tensorTransfer host result dims back] ++ after) := by
    rw [split] at wrapping
    refine wrapping.insertTransfer (by simp [results]) (fun dim inside => ?_) apart fresh
    obtain ⟨known, index⟩ := usable dim inside
    refine ⟨?_, by rw [← split]; exact index⟩
    simp only [Ssa.defs_append, List.mem_append] at known ⊢
    tauto
  have madeHere : result ∈ op.results := by simp [results]
  have unused : result ∉ uses (before ++ [op]) := dominated.unused madeHere
  have replaced : replaceAllUsesExcept result back
      (before ++ [op] ++ [tensorTransfer host result dims back] ++ after) =
      before ++ [op] ++ [tensorTransfer host result dims back] ++
        replaceAllUsesExcept result back after := replaceAllUsesExcept_transfer unused
  have dominated' := dominated_replaceAllUsesExcept unused inserted.dominated
  have transferIn : tensorTransfer host result dims back ∈
      before ++ [op] ++ [tensorTransfer host result dims back] ++ after := by simp
  have opIn : op ∈ before ++ [op] ++ [tensorTransfer host result dims back] ++ after := by simp
  have wrapping' := inserted.replaceAllUses dominated' transferIn opIn madeHere
    isLinalg notFill apart
  refine ⟨wrapping'.dominated, wrapping'.verified, wrapping'.aligned, wrapping'.pending,
    fun other member => ?_⟩
  rcases List.mem_append.mp member with old | isNew
  · exact wrapping'.isolated other old
  rw [List.mem_singleton.mp isNew]
  refine ⟨kind ▸ isLinalg, host, isHost, ⟨op, by rw [replaced]; simp, kind, sameResults, ?_⟩,
    fun v made => ?_⟩
  · intro numInputs numInits dps v read
    refine (settled numInputs numInits (kind ▸ dps) v read).mono fun old oldIn => ?_
    refine ⟨replaceUses result back old, List.mem_map_of_mem ?_, replaceUses_kind ..,
      replaceUses_results ..⟩
    simp only [List.mem_append, List.mem_cons] at oldIn ⊢
    tauto
  · rw [← sameResults, results, List.mem_singleton] at made
    subst made
    have isResult : v ∈ linalgResults (before ++ op :: after) :=
      mem_linalgResults.mpr ⟨op, by simp, isLinalg, madeHere⟩
    have notBack : v ≠ back := by
      rintro rfl
      exact fresh (List.mem_append_right _
        (Ssa.mem_defs (show op ∈ before ++ [op] ++ after by simp) madeHere))
    refine ⟨dims, back, by rw [replaced]; simp, fun inDims => (usable v inDims).2 isResult,
      fun user userIn reads => ?_⟩
    rw [replaced, List.mem_append, List.mem_append] at userIn
    rcases userIn with (early | isTransfer) | late
    · exact absurd (Ssa.mem_uses early reads) unused
    · exact List.mem_singleton.mp isTransfer
    · obtain ⟨old, oldIn, rfl⟩ := List.mem_map.mp late
      refine absurd reads (replaceUses_removes v back (fun isBack => fresh ?_) notBack)
      exact List.mem_append_right _
        (Ssa.mem_defs (show old ∈ before ++ [op] ++ after by simp [oldIn])
        (by simp [isBack]))

/-- An op that may be put on STRELA: of one init and one result, and not a fill. -/
structure IsCandidate (op : Op Kind) : Prop where
  dps : ∃ numInputs, op.kind.dps = some (numInputs, 1)
  results : ∃ result, op.results = [result]
  notFill : op.kind ≠ .fill

/-- One candidate is wrapped. -/
theorem Wrapping.wrapInTransfers (builds : BuildsDims buildDynamicDimsForValue) {body : Body Kind}
    {op : Op Kind} {host : DeviceAffinity}
    (wrapping : Wrapping scope strela args original wrapped (op :: pending) body)
    (isCandidate : IsCandidate op) (isHost : lookupOrDefault scope op.kind = some host)
    (other : ∀ op' ∈ wrapped ++ pending, ∀ v ∈ op.results, v ∉ op'.results) :
    ∃ body', Flow.wrapInTransfers buildDynamicDimsForValue args strela host op.results body =
      some body' ∧
      Wrapping scope strela args original (wrapped ++ [op]) pending body' := by
  obtain ⟨⟨numInputs, dps⟩, ⟨result, isResult⟩, notFill⟩ := isCandidate
  obtain ⟨here, hereIn, kind, sameResults, filled⟩ := wrapping.pending op (List.mem_cons_self ..)
  obtain ⟨before, after, split, found⟩ := Cursor.find_eq wrapping.dominated hereIn (v := result)
    (by simp [sameResults, isResult])
  have opened : Opened scope strela args original wrapped pending ⟨before, here, after⟩ := by
    refine ⟨?_, by rw [kind, dps]; rfl, fun op' member same => ?_⟩
    · rw [Cursor.body, ← split]
      exact ⟨wrapping.dominated, wrapping.verified, wrapping.aligned,
        fun op' member => wrapping.pending op' (List.mem_cons_of_mem _ member), wrapping.isolated⟩
    · exact other op' member result (by simp [isResult]) (by simp [same, sameResults, isResult])
  have count := wrapping.verified.operands here hereIn numInputs 1 (kind ▸ dps)
  subst split
  obtain ⟨first, resultDims, built, opened', ahead, sameOp, length, usable⟩ :=
    opened.buildResultDims builds ((here.operands.drop numInputs).take 1).zipIdx
      (fun init member => List.mem_of_mem_drop
        (List.mem_of_mem_take (List.fst_mem_of_mem_zipIdx member)))
      fun init member reads => by
        obtain ⟨inside, found⟩ :=
          List.getElem?_eq_some_iff.mp (List.mem_zipIdx_iff_getElem?.mp member)
        have isFirst : init.2 = 0 := by
          rw [List.length_take] at inside
          omega
        refine filled numInputs dps (by rw [← kind, ← isFirst]; exact reads) init.1 ?_
        rw [← found]
        simp [isFirst]
  obtain ⟨opened'', ahead', inputs, operands, inputsLength, settled⟩ :=
    opened'.transferInputs builds []
    (here.operands.take numInputs) (here.operands.drop numInputs) (by simp [sameOp]) (by simp)
  generalize isSecond : ((here.operands.take numInputs).zipIdx ([] : List Nat).length).foldl
    (Flow.transferInput buildDynamicDimsForValue args strela) first =
      second at opened'' ahead' operands settled
  obtain ⟨dims, rfl⟩ : ∃ dims, resultDims = [dims] := by
    refine List.length_eq_one_iff.mp ?_
    rw [length, List.length_zipIdx, List.length_take, List.length_drop]
    omega
  obtain ⟨before', op', after'⟩ := second
  have reached := ahead.trans ahead'
  have isKind : op'.kind = op.kind := reached.kind.trans kind
  have isResults : op'.results = op.results := reached.results.trans sameResults
  refine ⟨_, ?_, opened''.transferBack isHost isKind isResults (isResults.trans isResult)
    (isKind ▸ notFill)
    (fun dim inside => (usable dims (List.mem_singleton_self _) dim inside).ahead ahead')
    (fun op' member => other op' (List.mem_append_left _ member) result (by simp [isResult])) ?_⟩
  · rw [Flow.wrapInTransfers, ← sameResults, found]
    simp only [Option.bind_eq_bind, Option.bind_some, kind, dps, built]
    rw [List.length_nil] at isSecond
    rw [isSecond, sameResults, isResult]
    rfl
  · intro numInputs' numInits' dps' v read
    obtain ⟨rfl, -⟩ := Prod.mk.inj (Option.some.inj (dps.symm.trans (isKind ▸ dps')))
    have isInputs : op'.operands.take numInputs = inputs := by
      rw [show op'.operands = _ from operands]
      refine List.take_left' ?_
      rw [inputsLength, List.length_nil, List.length_take]
      omega
    exact settled v (isInputs ▸ read)

/-- All candidates are wrapped, in order. -/
theorem Wrapping.wrapAll (builds : BuildsDims buildDynamicDimsForValue) (default : ∀ kind,
    (lookupOrDefault scope kind).isSome = true) {body : Body Kind}
    (wrapping : Wrapping scope strela args original wrapped pending body)
    (areCandidates : ∀ op ∈ pending, IsCandidate op)
    (distinct : (wrapped ++ pending).Pairwise fun first second => ∀ v ∈ first.results,
      v ∉ second.results) :
    ∃ body', pending.foldlM (fun body op =>
        match lookupOrDefault scope op.kind with
        | none => some body
        | some host => Flow.wrapInTransfers buildDynamicDimsForValue args strela host op.results
          body) body = some body' ∧
      Wrapping scope strela args original (wrapped ++ pending) [] body' := by
  induction pending generalizing wrapped body with
  | nil => exact ⟨body, rfl, by simpa using wrapping⟩
  | cons op pending ih =>
      obtain ⟨host, isHost⟩ := Option.isSome_iff_exists.mp (default op.kind)
      have others : ∀ op' ∈ wrapped ++ pending, ∀ v ∈ op.results, v ∉ op'.results := by
        obtain ⟨-, tail, cross⟩ := List.pairwise_append.mp distinct
        intro op' member v made made'
        rcases List.mem_append.mp member with early | late
        · exact cross op' early op (List.mem_cons_self ..) v made' made
        · exact (List.pairwise_cons.mp tail).1 op' late v made made'
      obtain ⟨body', wraps, wrapping'⟩ :=
        wrapping.wrapInTransfers builds (areCandidates op (List.mem_cons_self ..))
        isHost others
      obtain ⟨body'', rest, wrapping''⟩ := ih wrapping'
        (fun op' member => areCandidates op' (List.mem_cons_of_mem _ member))
          (by simpa using distinct)
      refine ⟨body'', ?_, by simpa using wrapping''⟩
      rw [List.foldlM_cons, isHost]
      dsimp only
      rw [wraps]
      exact rest

end

section

variable (captures : List (Nat × Option APInt))

theorem capture_eq_argument (v : BodyValue) (number : Nat) :
    v.capture captures = .argument number ↔ v = .argument number := by
  cases v with
  | captured captured constant =>
      simp only [BodyValue.capture]
      split <;> simp
  | _ => rfl

/-- Captured values are no block arguments. -/
theorem usesArgument_capture (block : Block) (number : Nat) :
    (block.capture captures).usesArgument number = block.usesArgument number := by
  have operands (op : BodyOp) : (op.capture captures).operands =
      op.operands.map (·.capture captures) := by
    cases op <;> rfl
  simp only [Block.usesArgument, Block.capture, List.any_map, Function.comp_def, operands,
    capture_eq_argument]

end

/-- What a supported generic op is made of; it never reads its init. -/
theorem matched_of_supported {genericOp : GenericOp}
    (supported : isSupportedByStrela (.generic genericOp) = true) :
    ∃ bodyOp init, Matched genericOp bodyOp init ∧
      genericOp.block.usesArgument genericOp.inputs.length = false := by
  rcases Bool.or_eq_true_iff.mp supported with isAdd | isRelu
  · obtain ⟨first, second, init, lhs, rhs, matched, isInputs, order, -⟩ :=
      isStrelaLinalgAdd_ok isAdd
    refine ⟨_, init, matched, ?_⟩
    rcases order with ⟨rfl, rfl⟩ | ⟨rfl, rfl⟩ <;>
      simp [Block.usesArgument, matched.block, BodyOp.operands, isInputs]
  · obtain ⟨input, zeros, init, rhs, matched, isInputs, zero⟩ := isStrelaLinalgRelu_ok isRelu
    refine ⟨_, init, matched, ?_⟩
    rcases zero with ⟨rfl, isConstant⟩ | ⟨operand, rfl, rfl, -⟩
    · have notInit : rhs ≠ .argument 1 := by
        rintro rfl
        cases isConstant
      simp [Block.usesArgument, matched.block, BodyOp.operands, isInputs, notInit]
    · simp [Block.usesArgument, matched.block, BodyOp.operands, isInputs]

/-- A supported op is a candidate, and the init it accumulates in, if it does, is filled. -/
theorem isCandidate_of_supported {body : Body Kind} (verified : Verified body) {op : Op Kind}
    (member : op ∈ body) (supported : (linalgOp body op).any isSupportedByStrela = true) :
    IsCandidate op ∧ Pending body op := by
  obtain ⟨kind, operands, results⟩ := op
  cases kind with
  | generic attrs =>
      obtain ⟨bodyOp, init, matched, unused⟩ :=
        matched_of_supported (show isSupportedByStrela (.generic (attrs.op body operands)) =
          true from supported)
      have count := verified.operands _ member _ _ rfl
      have tensors := verified.results _ member matched.pureTensor
      dsimp only at count
      have isInputs : (attrs.op body operands).inputs.length = attrs.inputs.length := by
        simp only [GenericAttrs.op, List.length_zipWith]
        omega
      have oneInit : attrs.inits.length = 1 := by
        have length := congrArg List.length matched.inits
        simp only [GenericAttrs.op, List.length_zipWith, List.length_drop,
          List.length_singleton] at length
        omega
      rw [isInputs] at unused
      simp only [Kind.dps, Option.map_some, Option.some.injEq, oneInit] at tensors
      refine ⟨⟨⟨attrs.inputs.length, by rw [Kind.dps, oneInit]⟩,
        List.length_eq_one_iff.mp tensors.symm, by simp⟩,
        _, member, rfl, rfl, fun numInputs _ reads => ?_⟩
      rw [Kind.payloadUsesInit, Nat.add_zero, ← usesArgument_capture] at reads
      exact absurd (reads.symm.trans unused) (by decide)
  | batchMatmul attrs =>
      obtain ⟨pureTensor, zero, isFill, -⟩ := isStrelaLinalgMatvec_ok supported
      have tensors := verified.results _ member pureTensor
      simp only [Kind.dps, Option.map_some, Option.some.injEq] at tensors
      refine ⟨⟨⟨2, rfl⟩, List.length_eq_one_iff.mp tensors.symm, by simp⟩,
        _, member, rfl, rfl, fun numInputs dps _ init found => ?_⟩
      obtain ⟨rfl, -⟩ := Prod.mk.inj (Option.some.inj dps)
      dsimp only at found isFill
      rw [found, Option.bind_some, Option.map_eq_some_iff] at isFill
      obtain ⟨inputs, filled, -⟩ := isFill
      unfold definingFill at filled
      split at filled
      · rename_i fillOperands fillResults i fillFound
        obtain ⟨before, after, rfl, -, result⟩ := Ssa.definingOp_split fillFound
        exact ⟨_, by simp, rfl, List.mem_of_getElem? result⟩
      · cases filled
  | _ => cases supported

theorem Kind.pin_same (scope : Scope) (kind : Kind) :
    SameKind kind (kind.pin scope) ∧ (kind.pin scope).dps = kind.dps ∧
      (kind.pin scope).pureTensorSemantics = kind.pureTensorSemantics ∧
      (kind.pin scope).isTransfer = kind.isTransfer := by
  unfold Kind.pin
  split
  · exact ⟨Or.inr ⟨_, _, _, rfl, rfl⟩, rfl, rfl, rfl⟩
  · exact ⟨Or.inl rfl, rfl, rfl, rfl⟩

/-- Pinning leaves everything as it was, and nothing is wrapped yet. -/
theorem wrapping_pinned (scope : Scope) (strela : DeviceAffinity) {args : List Nat}
    {body : Body Kind} (dominated : Dominated args body) (verified : Verified body) :
    Wrapping scope strela args body [] (candidates (pinAbiToDefaultDevice scope body))
      (pinAbiToDefaultDevice scope body) := by
  have sameResults : linalgResults (pinAbiToDefaultDevice scope body) = linalgResults body := by
    simp only [linalgResults, pinAbiToDefaultDevice, List.filter_map, Function.comp_def,
      (Kind.pin_same scope _).2.1, defs, List.flatMap_map]
  have verified' : Verified (pinAbiToDefaultDevice scope body) := by
    refine ⟨fun op member => ?_, fun op member => ?_, fun op member => ?_⟩ <;>
      obtain ⟨op', member', rfl⟩ := List.mem_map.mp member
    · rw [(Kind.pin_same scope _).2.1]
      exact verified.operands op' member'
    · rw [(Kind.pin_same scope _).2.1, (Kind.pin_same scope _).2.2.1]
      exact verified.results op' member'
    · rw [(Kind.pin_same scope _).2.2.2, sameResults]
      exact verified.dims op' member'
  refine ⟨dominated.map (fun _ => rfl) fun _ _ _ used => Or.inl used, verified',
    Aligned.map (fun op => (Kind.pin_same scope op.kind).1) (fun _ => rfl) (fun _ => rfl)
      fun v => .refl v,
    fun op member => ?_, fun op member => by cases member⟩
  obtain ⟨inBody, supported⟩ := List.mem_filter.mp member
  exact (isCandidate_of_supported verified' inBody supported).2

/-- The values a function returns. -/
def returned (body : Body Kind) : List Nat := Ssa.operandsOf (· = .ret) body

/-- Transfers are read as the identity; what computes shapes has no effects; and it does
not matter where an op of the ABI is. -/
structure Reading {V S : Type} (interp : Ssa.Interp Kind V S) : Prop where
  transfer : ∀ target values state, interp (.transfer target) values state = (values.take 1, state)
  isPure : ∀ kind, kind.isPure = true → ∀ values state, (interp kind values state).2 = state
  pinned : ∀ op affinity affinity', interp (.abi op affinity) = interp (.abi op affinity')

/-- Every value of a body, what it returns and the state it leaves are the same. -/
def Preserves (args : List Nat) (body body' : Body Kind) : Prop :=
  ∀ (V S : Type) (interp : Ssa.Interp Kind V S), Reading interp → ∀ env state,
    (∀ v ∈ defs body ++ args,
      (Ssa.exec interp body' env state).1 v = (Ssa.exec interp body env state).1 v) ∧
    (Ssa.exec interp body' env state).2 = (Ssa.exec interp body env state).2 ∧
    (returned body').map (Ssa.exec interp body' env state).1 =
      (returned body).map (Ssa.exec interp body env state).1

theorem preserves_of_aligned {args : List Nat} {body body' : Body Kind}
    (dominated : Dominated args body) (dominated' : Dominated args body')
    (aligned : Aligned SameKind Inserted (Transferred body') body body') :
    Preserves args body body' := by
  intro V S interp reading env state
  have equivalent (kind kind' : Kind) (same : SameKind kind kind') :
      interp kind' = interp kind := by
    rcases same with rfl | ⟨op, affinity, affinity', rfl, rfl⟩
    · rfl
    · exact reading.pinned _ _ _
  have quiet (kind : Kind) (inserted : Inserted kind) (values : List V) (state : S) :
      (interp kind values state).2 = state := by
    rcases inserted with isTransfer | isPure
    · obtain ⟨target, rfl⟩ := isTransfer_iff.mp isTransfer
      rw [reading.transfer]
    · exact reading.isPure kind isPure values state
  have reads (w v : Nat) (carries : Transferred body' w v) :
      (Ssa.exec interp body' env state).1 w = (Ssa.exec interp body' env state).1 v := by
    refine carries.exec_eq dominated' (fun kind isTransfer x rest state => ?_) env state
    obtain ⟨target, rfl⟩ := isTransfer_iff.mp isTransfer
    exact reading.transfer target _ _
  obtain ⟨values, states⟩ := aligned.exec_eq equivalent quiet dominated dominated' env state reads
  refine ⟨values, states, ?_⟩
  have related : List.Forall₂ (Transferred body') (returned body') (returned body) := by
    refine aligned.operandsOf_carries (fun kind kind' same => ?_) fun kind inserted => ?_
    · rcases same with rfl | ⟨op, affinity, affinity', rfl, rfl⟩ <;> simp
    · rcases inserted with isTransfer | isPure <;>
        cases kind <;> simp_all [Kind.isTransfer, Kind.isPure]
  refine List.forall₂_eq_eq_eq ▸ List.forall₂_map_left_iff.mpr (List.forall₂_map_right_iff.mpr ?_)
  refine List.forall₂_iff_zip.mpr ⟨related.length_eq, fun {w v} pair => ?_⟩
  have used := Ssa.mem_operandsOf (List.of_mem_zip pair).2
  exact (reads w v (List.forall₂_zip related pair)).trans (values v (dominated.uses_defined v used))

/-- What is transferred from a guarded value is transferred from its transfer to the host. -/
theorem Guarded.through {host : DeviceAffinity} {body : Body Kind} {v : Nat}
    (guarded : Guarded host body v) :
    ∃ dims back, tensorTransfer host v dims back ∈ body ∧
      ∀ w, Transferred body w v → w = v ∨ Transferred body w back := by
  obtain ⟨dims, back, backIn, -, only⟩ := guarded
  refine ⟨dims, back, backIn, fun w carries => ?_⟩
  induction carries with
  | refl => exact Or.inl rfl
  | copy member isTransfer results operands _ ih =>
      refine Or.inr ?_
      rcases ih backIn only with rfl | carries
      · rw [only _ member (by simp [operands])] at results
        cases results
        exact .refl _
      · exact .copy member isTransfer results operands carries

/-- The pass never fails its assertion. What it makes of a function is in SSA form,
computes what the function did, and reads its values directly or through transfers; each
op put on STRELA reads splats and transfers to STRELA, and what reads its results does
so through the transfer to its host. -/
theorem transferWrapPass_isolates {buildDynamicDimsForValue : DimsBuilder}
    (builds : BuildsDims buildDynamicDimsForValue) {scope : Scope} {strela : DeviceAffinity}
    (device : findStrelaAffinity scope = some strela)
    (default : scope.defaultAffinity.isSome = true) {args : List Nat} {body : Body Kind}
    (dominated : Dominated args body) (verified : Verified body) :
    ∃ body', transferWrapPass buildDynamicDimsForValue scope args body = some body' ∧
      Dominated args body' ∧ Preserves args body body' ∧
      Aligned SameKind Inserted (Transferred body') body body' ∧
      ∀ op ∈ candidates (pinAbiToDefaultDevice scope body),
        ∃ host, lookupOrDefault scope op.kind = some host ∧ Isolated strela host body' op ∧
          ∀ result ∈ op.results, ∃ dims back, tensorTransfer host result dims back ∈ body' ∧
            ∀ w, Transferred body' w result → w = result ∨ Transferred body' w back := by
  have initial := wrapping_pinned scope strela dominated verified
  have found (kind : Kind) : (lookupOrDefault scope kind).isSome = true := by
    simp [lookupOrDefault, default]
  have areCandidates : ∀ op ∈ candidates (pinAbiToDefaultDevice scope body), IsCandidate op :=
    fun op member =>
    (isCandidate_of_supported initial.verified (List.mem_filter.mp member).1
      (List.mem_filter.mp member).2).1
  obtain ⟨body', passes, wrapping⟩ := initial.wrapAll builds found areCandidates
    (by rw [List.nil_append]; exact initial.dominated.pairwise.sublist List.filter_sublist)
  refine ⟨body', ?_, wrapping.dominated,
    preserves_of_aligned dominated wrapping.dominated wrapping.aligned,
    wrapping.aligned, fun op member => ?_⟩
  · rw [transferWrapPass, device]
    exact passes
  · obtain ⟨-, host, isHost, isolated⟩ := wrapping.isolated op (by simpa using member)
    exact ⟨host, isHost, isolated, fun result made => (isolated.results result made).through⟩

/-- Dims of tensors of one dynamic dimension: those of a transfer, or a `tensor.dim`. -/
def tensorDims : DimsBuilder := fun args before after value =>
  match definingOp before value with
  | some (⟨.transfer _, operands, _⟩, _) => ([], operands.tail)
  | _ =>
      let index := freshValue args (before ++ after)
      ([{ kind := .constantInt ⟨64, 0⟩, operands := [], results := [index] },
        { kind := .other "tensor.dim" true, operands := [value, index], results := [index + 1] }],
      [index + 1])

/-- The dims come from a transfer before, or from new ops. -/
theorem tensorDims_cases (args : List Nat) (before after : Body Kind) (value : Nat) :
    (∃ op ∈ before, op.kind.isTransfer = true ∧ tensorDims args before after value =
      ([], op.operands.tail)) ∨
    ∃ index, (∀ v ∈ args, v < index) ∧ (∀ v ∈ defs before, v < index) ∧
      (∀ v ∈ defs after, v < index) ∧
      tensorDims args before after value =
        ([{ kind := .constantInt ⟨64, 0⟩, operands := [], results := [index] },
          { kind := .other "tensor.dim" true, operands := [value, index], results := [index + 1] }],
            [index + 1]) := by
  unfold tensorDims
  split
  · rename_i target operands results i found
    obtain ⟨first, second, rfl, -, -⟩ := Ssa.definingOp_split found
    exact Or.inl ⟨⟨.transfer target, operands, results⟩, by simp, rfl, rfl⟩
  · refine Or.inr ⟨_, fun v known => ?_, fun v known => ?_, fun v known => ?_, rfl⟩ <;>
      exact lt_freshValue (by simp [known])

theorem not_mem_of_lt {l : List Nat} {bound v : Nat} (below : ∀ w ∈ l, w < bound)
    (above : bound ≤ v) : v ∉ l :=
  fun member => Nat.lt_irrefl v (Nat.lt_of_lt_of_le (below v member) above)

theorem tensorDims_builds : BuildsDims tensorDims := by
  constructor
  · intro args before after value dominated verified known
    rcases tensorDims_cases args before after value with
      ⟨op, -, -, same⟩ | ⟨index, inArgs, inBefore, -, same⟩ <;>
      rw [same]
    · trivial
    · have first := not_mem_of_lt inBefore (Nat.le_refl _)
      have first' := not_mem_of_lt inArgs (Nat.le_refl _)
      have second := not_mem_of_lt inBefore (Nat.le_succ _)
      have second' := not_mem_of_lt inArgs (Nat.le_succ _)
      simp only [List.mem_append] at known
      simp [Dominated, known, first, first', second, second']
  · intro args before after value dominated verified known v made
    rcases tensorDims_cases args before after value with
      ⟨op, -, -, same⟩ | ⟨index, -, -, inAfter, same⟩ <;>
      rw [same] at made
    · cases made
    · refine not_mem_of_lt inAfter ?_
      simp at made
      omega
  · intro args before after value op member
    rcases tensorDims_cases args before after value with
      ⟨op, -, -, same⟩ | ⟨index, -, -, -, same⟩ <;>
      rw [same] at member
    · cases member
    · simp only [List.mem_cons, List.not_mem_nil, or_false] at member
      rcases member with rfl | rfl <;> rfl
  · intro args before after value dominated verified known v used
    rcases tensorDims_cases args before after value with
      ⟨op, -, -, same⟩ | ⟨index, -, -, -, same⟩ <;>
      rw [same] at used ⊢
    · cases used
    · simp only [uses, List.flatMap_cons, List.flatMap_nil, List.append_nil,
        List.nil_append, List.mem_cons, List.not_mem_nil, or_false] at used
      simp only [Ssa.defs_cons, Ssa.defs_nil, List.mem_append, List.mem_singleton]
      tauto
  · intro args before after value dominated verified known dim inside
    rcases tensorDims_cases args before after value with
      ⟨op, member, isTransfer, same⟩ | ⟨index, inArgs, inBefore, inAfter, same⟩ <;>
      rw [same] at inside ⊢
    · refine ⟨?_, verified.dims op (List.mem_append_left _ member) isTransfer dim inside⟩
      have earlier := ((Ssa.dominated_append _ _ _).mp dominated).1
      have used := Ssa.mem_uses member (List.mem_of_mem_tail inside)
      exact earlier.uses_defined dim used
    · rw [List.mem_singleton.mp inside]
      refine ⟨by simp, fun result => ?_⟩
      obtain ⟨maker, makerIn, -, makes⟩ := mem_linalgResults.mp result
      have old := Ssa.mem_defs makerIn makes
      rw [Ssa.defs_append, List.mem_append] at old
      exact old.elim (not_mem_of_lt inBefore (Nat.le_succ _))
        (not_mem_of_lt inAfter (Nat.le_succ _))

/-- Two relus, one of the other: the sizes only exist as dims of their inputs. -/
def reluChain : Body Kind :=
  let relu (input init result : Nat) : Op Kind :=
    { kind := .generic {
        inputs := [(.ranked [none] (.integer 32), ⟨1, [.dim 0]⟩)]
        inits := [(.ranked [none] (.integer 32), ⟨1, [.dim 0]⟩)]
        resultTypes := [.ranked [none] (.integer 32)]
        iteratorTypes := [.parallel]
        block := ⟨[.maxsi (.argument 0) (.captured 0 none)], [.result 0]⟩
        pureTensorSemantics := true
        affinity := none }
      operands := [input, init, 2], results := [result] }
  [{ kind := .constantInt ⟨64, 0⟩, operands := [], results := [1] },
    { kind := .constantInt ⟨32, 0⟩, operands := [], results := [2] },
    { kind := .other "tensor.dim" true, operands := [0, 1], results := [3] },
    { kind := .other "tensor.empty" true, operands := [3], results := [4] },
    relu 0 4 5,
    { kind := .other "tensor.dim" true, operands := [5, 1], results := [6] },
    { kind := .other "tensor.empty" true, operands := [6], results := [7] },
    relu 5 7 8,
    { kind := .ret, operands := [8], results := [] }]

def deviceScope : Scope where
  globals := [⟨"cpu0", some "local"⟩, ⟨"strela0", some "strela"⟩]
  affinity := none
  defaultAffinity := some { device := "cpu0", queueMask := -1 }

theorem transferWrapPass_isolates_sample :
    ∃ body', transferWrapPass tensorDims deviceScope [0] reluChain = some body' ∧
      Dominated [0] body' ∧ Preserves [0] reluChain body' ∧
      Aligned SameKind Inserted (Transferred body') reluChain body' ∧
      ∀ op ∈ candidates (pinAbiToDefaultDevice deviceScope reluChain),
        ∃ host, lookupOrDefault deviceScope op.kind = some host ∧
          Isolated { device := "strela0", queueMask := -1 } host body' op ∧
          ∀ result ∈ op.results, ∃ dims back, tensorTransfer host result dims back ∈ body' ∧
            ∀ w, Transferred body' w result → w = result ∨ Transferred body' w back :=
  transferWrapPass_isolates tensorDims_builds rfl rfl (by simp [reluChain, Dominated])
    (by constructor <;> simp [reluChain, Kind.dps, Kind.pureTensorSemantics, Kind.isTransfer])

/-- The pass on it: what the second relu reads has gone back to the host in between. -/
example : (transferWrapPass tensorDims deviceScope [0] reluChain).map
    (·.map fun op => (op.operands, op.results)) =
    some [([], [1]), ([], [2]), ([0, 1], [3]), ([3], [4]), ([], [9]), ([4, 9], [10]),
      ([], [11]), ([0, 11], [12]), ([0, 12], [13]), ([13, 4, 2], [5]), ([5, 10], [14]),
      ([14, 1], [6]), ([6], [7]), ([], [15]), ([7, 15], [16]),
      ([14, 10], [17]), ([17, 7, 2], [8]), ([8, 16], [18]), ([18], [])] := by decide

end Estela.Compiler.Flow
