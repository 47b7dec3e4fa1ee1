import Estela.Runtime.ColumnBounds

set_option autoImplicit false

/- What the load-time verifier has checked of a column, the order in which
dispatch resolves the columns, and how the resolution of one of them ends. -/
namespace Estela.Runtime

/-- What the verifier has checked of a column in use. -/
structure ColumnDef.Verified (column : ColumnDef) (bindingCount constantCount : BitVec 32) :
    Prop where
  binding : column.binding.toNat < bindingCount.toNat
  aligned : column.byteOffset.toNat % 4 = 0
  two : column.offsetConstants.length ≤ 2
  ordinals : ∀ ordinal ∈ column.offsetConstants, ordinal.toNat < constantCount.toNat

theorem offsetConstantsVerify_below (constantCount : BitVec 32) (ordinals : List (BitVec 32))
    (verified : offsetConstantsVerify constantCount ordinals = .ok ()) :
    ∀ ordinal ∈ ordinals, ordinal.toNat < constantCount.toNat := by
  induction ordinals with
  | nil =>
      intro ordinal member
      cases member
  | cons first rest ih =>
      unfold offsetConstantsVerify at verified
      split at verified
      · cases verified
      · rename_i below
        intro ordinal member
        rcases List.mem_cons.mp member with rfl | later
        · exact BitVec.lt_def.mp (BitVec.not_le.mp below)
        · exact ih verified ordinal later

theorem columnVerify_used (column : ColumnDef) (bindingCount constantCount : BitVec 32)
    (verified : columnVerify column bindingCount constantCount = .ok ())
    (used : column.wordCount ≠ 0) : column.Verified bindingCount constantCount := by
  unfold columnVerify at verified
  rw [if_neg used] at verified
  split at verified
  · cases verified
  · rename_i binding
    split at verified
    · cases verified
    · rename_i aligned
      split at verified
      · cases verified
      · rename_i two
        refine ⟨BitVec.lt_def.mp (BitVec.not_le.mp binding), ?_, by omega,
          offsetConstantsVerify_below constantCount _ verified⟩
        have zero := congrArg BitVec.toNat (Decidable.not_not.mp aligned)
        rw [BitVec.toNat_umod] at zero
        exact zero

/-- The columns of an export in the order `dispatch` resolves them, each with
whether it is an input. -/
def dispatchOrder (exportDef : ExportDef) : List (ColumnDef × Bool) :=
  (exportDef.inputs.zip exportDef.outputs).flatMap fun c => [(c.1, true), (c.2, false)]

/-- What the verifier has checked of an export. -/
structure ExportDef.Verified (exportDef : ExportDef) : Prop where
  inputs : exportDef.inputs.length = columnCount
  outputs : exportDef.outputs.length = columnCount
  columns : ∀ c ∈ dispatchOrder exportDef, c.1.wordCount ≠ 0 →
    c.1.Verified exportDef.bindingCount exportDef.constantCount

theorem columnsVerify_get (inputs outputs : List ColumnDef) (bindingCount constantCount : BitVec 32)
    (indices : List Nat)
    (verified : columnsVerify inputs outputs bindingCount constantCount indices = .ok ())
    (index : Nat) (known : index ∈ indices) :
    (∀ input, inputs[index]? = some input →
      columnVerify input bindingCount constantCount = .ok ()) ∧
      ∀ output, outputs[index]? = some output →
        columnVerify output bindingCount constantCount = .ok () := by
  induction indices with
  | nil => cases known
  | cons first rest ih =>
      simp only [columnsVerify, bind, Except.bind] at verified
      split at verified
      · cases verified
      rename_i input inputFound
      split at verified
      · cases verified
      rename_i inputVerified
      split at verified
      · cases verified
      rename_i output outputFound
      split at verified
      · cases verified
      rename_i outputVerified
      rcases List.mem_cons.mp known with rfl | later
      · rw [vecAt_eq_ok] at inputFound outputFound
        refine ⟨fun input' found => ?_, fun output' found => ?_⟩
        · cases inputFound.symm.trans found
          exact inputVerified
        · cases outputFound.symm.trans found
          exact outputVerified
      · exact ih verified later

theorem exportVerify_some (i : Nat) (exportDef : ExportDef)
    (verified : exportVerify i (some exportDef) = .ok ()) : exportDef.Verified := by
  simp only [exportVerify] at verified
  split at verified
  · cases verified
  split at verified
  · cases verified
  split at verified
  · cases verified
  rename_i lengths
  have inputs : exportDef.inputs.length = columnCount := by omega
  have outputs : exportDef.outputs.length = columnCount := by omega
  refine ⟨inputs, outputs, ?_⟩
  intro c member used
  obtain ⟨pair, zipped, which⟩ := List.mem_flatMap.mp member
  obtain ⟨index, below, at_⟩ := List.getElem_of_mem zipped
  rw [List.getElem_zip] at at_
  have bound : index < columnCount := by
    rw [List.length_zip] at below
    omega
  obtain ⟨input, output⟩ := columnsVerify_get _ _ _ _ _ verified index (List.mem_range.mpr bound)
  have firsts : exportDef.inputs[index]? = some pair.1 := by
    rw [List.getElem?_eq_getElem (by omega), ← at_]
  have seconds : exportDef.outputs[index]? = some pair.2 := by
    rw [List.getElem?_eq_getElem (by omega), ← at_]
  rcases List.mem_cons.mp which with rfl | second
  · exact columnVerify_used _ _ _ (input _ firsts) used
  · cases List.mem_singleton.mp second
    exact columnVerify_used _ _ _ (output _ seconds) used

theorem exportsVerify_mem (i : Nat) (exports : List (Option ExportDef))
    (verified : exportsVerify i exports = .ok ()) (exportDef : ExportDef)
    (member : some exportDef ∈ exports) : exportDef.Verified := by
  induction exports generalizing i with
  | nil => cases member
  | cons first rest ih =>
      simp only [exportsVerify, bind, Except.bind] at verified
      split at verified
      · cases verified
      · rename_i here
        rcases List.mem_cons.mp member with same | later
        · exact exportVerify_some i exportDef (same ▸ here)
        · exact ih (i + 1) verified later

/-- Every export of an accepted executable has been checked. -/
theorem executableFlatbufferVerify_export (data : ExecutableData) (executable : Executable)
    (accepted : executableFlatbufferVerify data = .ok ()) (holds : executable.Holds data)
    (export_ : Export) (member : export_ ∈ executable.exports) : export_.exportDef.Verified := by
  have listed : some export_.exportDef ∈ data.root.exports := by
    rw [← holds]
    exact List.mem_map_of_mem member
  unfold executableFlatbufferVerify at accepted
  split at accepted
  · cases accepted
  · exact exportsVerify_mem 0 _ accepted _ listed

/-- Resolving columns one after the other, for the status only. -/
def resolveInOrder (st : SizeT) (constants : ConstByteSpan) (bindings : List BufferRef) :
    List (ColumnDef × Bool) → CResult Unit
  | [] => .ok ()
  | (column, isInput) :: rest =>
      match columnResolve st column isInput constants bindings with
      | .error stop => .error stop
      | .ok _ => resolveInOrder st constants bindings rest

/-- It stops at the first column that does not resolve, and only there. -/
theorem resolveInOrder_error_iff (st : SizeT) (constants : ConstByteSpan)
    (bindings : List BufferRef) (columns : List (ColumnDef × Bool)) (stop : Stop) :
    resolveInOrder st constants bindings columns = .error stop ↔
      ∃ before column isInput after, columns = before ++ (column, isInput) :: after ∧
        (∀ e ∈ before, ∃ c, columnResolve st e.1 e.2 constants bindings = .ok c) ∧
        columnResolve st column isInput constants bindings = .error stop := by
  induction columns with
  | nil =>
      constructor
      · intro failed
        cases failed
      · rintro ⟨before, column, isInput, after, split, _⟩
        cases before <;> cases split
  | cons first rest ih =>
      unfold resolveInOrder
      constructor
      · intro failed
        split at failed
        · rename_i stop' here
          cases failed
          refine ⟨[], first.1, first.2, rest, rfl, ?_, here⟩
          intro e member
          cases member
        · rename_i c here
          obtain ⟨before, column, isInput, after, split, resolved, failed⟩ := ih.mp failed
          refine ⟨first :: before, column, isInput,
            after, by rw [split, List.cons_append], ?_, failed⟩
          intro e member
          rcases List.mem_cons.mp member with rfl | later
          · exact ⟨c, here⟩
          · exact resolved e later
      · rintro ⟨before, column, isInput, after, split, resolved, failed⟩
        cases before with
        | nil =>
            cases split
            simp only [failed]
        | cons head tail =>
            cases split
            obtain ⟨c, here⟩ := resolved first List.mem_cons_self
            simp only [here]
            exact ih.mpr ⟨tail, column, isInput, after, rfl,
              fun e member => resolved e (List.mem_cons_of_mem _ member), failed⟩

theorem resolveColumns_inOrder (st : SizeT) (constants : ConstByteSpan) (bindings : List BufferRef)
    (inputs outputs : List ColumnDef) (first count : Nat) (ins : first + count = inputs.length)
    (outs : first + count = outputs.length) (stop : Stop) :
    resolveColumns st inputs outputs constants bindings (List.range' first count) = .error stop ↔
      resolveInOrder st constants bindings (((inputs.drop first).zip (outputs.drop first)).flatMap
        fun c => [(c.1, true), (c.2, false)]) = .error stop := by
  induction count generalizing first with
  | zero =>
      rw [List.drop_of_length_le (by omega : inputs.length ≤ first)]
      simp only [List.range'_zero, resolveColumns, List.zip_nil_left,
        List.flatMap_nil, resolveInOrder, reduceCtorEq]
  | succ count ih =>
      have inside : first < inputs.length := by omega
      have inside' : first < outputs.length := by omega
      have next := ih (first + 1) (by omega) (by omega)
      rw [List.range'_succ, List.drop_eq_getElem_cons inside, List.drop_eq_getElem_cons inside']
      simp only [resolveColumns, bind, Except.bind, vecAt, List.getElem?_eq_getElem inside,
        List.getElem?_eq_getElem inside', List.zip_cons_cons, List.flatMap_cons, List.cons_append,
        List.nil_append, resolveInOrder, pure, Except.pure]
      cases columnResolve st inputs[first] true constants bindings with
      | error stop' => simp only [Except.error.injEq]
      | ok input =>
          cases columnResolve st outputs[first] false constants bindings with
          | error stop' => simp only [Except.error.injEq]
          | ok output =>
              simp only [← next]
              cases resolveColumns st inputs outputs constants bindings
                (List.range' (first + 1) count) with
              | error stop' => exact Iff.rfl
              | ok columns => simp only [reduceCtorEq]

/-- Where the resolution of a dispatch stops, over the columns in order. -/
theorem ExportDef.Verified.resolveColumns_error {exportDef : ExportDef}
    (verified : exportDef.Verified) (st : SizeT) (constants : ConstByteSpan)
    (bindings : List BufferRef) (stop : Stop) :
    resolveColumns st exportDef.inputs exportDef.outputs constants bindings
      (List.range columnCount) = .error stop ↔
      ∃ before column isInput after,
        dispatchOrder exportDef = before ++ (column, isInput) :: after ∧
        (∀ e ∈ before, ∃ c, columnResolve st e.1 e.2 constants bindings = .ok c) ∧
        columnResolve st column isInput constants bindings = .error stop := by
  rw [List.range_eq_range', resolveColumns_inOrder st constants bindings _ _ 0 columnCount
    (by rw [verified.inputs, Nat.zero_add]) (by rw [verified.outputs, Nat.zero_add])]
  exact resolveInOrder_error_iff st constants bindings (dispatchOrder exportDef) stop

/-- The word of push constant `ordinal` lies in the span. -/
def InSpan (dataLength : Nat) (ordinal : BitVec 32) : Prop := 4 * (ordinal.toNat + 1) ≤ dataLength

instance (dataLength : Nat) (ordinal : BitVec 32) : Decidable (InSpan dataLength ordinal) :=
  inferInstanceAs (Decidable (_ ≤ _))

/-- What `column_resolve` compares to the length of the span. -/
def ordinalEnd (st : SizeT) (ordinal : BitVec 32) : Nat := st.wrap (st.wrap (ordinal.toNat + 1) * 4)

theorem ordinalEnd_le (st : SizeT) (ordinal : BitVec 32) :
    ordinalEnd st ordinal ≤ 4 * (ordinal.toNat + 1) := by
  have inner : st.wrap (ordinal.toNat + 1) ≤ ordinal.toNat + 1 := Nat.mod_le _ _
  have outer : st.wrap (st.wrap (ordinal.toNat + 1) * 4) ≤ st.wrap (ordinal.toNat + 1) * 4 :=
    Nat.mod_le _ _
  unfold ordinalEnd
  omega

theorem ConstByteSpan.value_isSome_iff (constants : ConstByteSpan) (ordinal : BitVec 32) :
    (constants.value ordinal.toNat).isSome ↔ InSpan constants.dataLength ordinal := by
  have left := List.length_drop (i := 4 * ordinal.toNat) (l := constants.data)
  unfold ConstByteSpan.value InSpan ConstByteSpan.dataLength
  split
  · rename_i b0 b1 b2 b3 rest found
    rw [found] at left
    simp only [List.length_cons] at left
    simp only [Option.isSome_some, true_iff]
    omega
  · rename_i short
    simp only [Option.isSome_none, Bool.false_eq_true, false_iff]
    intro inSpan
    obtain ⟨b0, b1, b2, b3, rest, found⟩ : ∃ b0 b1 b2 b3 rest,
        constants.data.drop (4 * ordinal.toNat) = b0 :: b1 :: b2 :: b3 :: rest := by
      match here : constants.data.drop (4 * ordinal.toNat), left with
      | b0 :: b1 :: b2 :: b3 :: rest, _ => exact ⟨b0, b1, b2, b3, rest, rfl⟩
      | [], left => simp only [List.length_nil] at left; omega
      | [_], left => simp only [List.length_cons, List.length_nil] at left; omega
      | [_, _], left => simp only [List.length_cons, List.length_nil] at left; omega
      | [_, _, _], left => simp only [List.length_cons, List.length_nil] at left; omega
    exact short b0 b1 b2 b3 rest found

/-- Two constants at most, all of them in the span, always add up. -/
theorem addOffsetConstants_inSpan (st : SizeT) (constants : ConstByteSpan)
    (ordinals : List (BitVec 32)) (i : Nat) (byteOffset : BitVec 64) (two : i + ordinals.length ≤ 2)
    (inSpan : ∀ ordinal ∈ ordinals, InSpan constants.dataLength ordinal) :
    ∃ result, addOffsetConstants st constants ordinals i byteOffset = .ok result := by
  induction ordinals generalizing i byteOffset with
  | nil => exact ⟨byteOffset, rfl⟩
  | cons ordinal rest ih =>
      have here := inSpan ordinal List.mem_cons_self
      obtain ⟨value, found⟩ :=
        Option.isSome_iff_exists.mp ((constants.value_isSome_iff ordinal).mpr here)
      have passes : ¬ ordinalEnd st ordinal > constants.dataLength := by
        have below := ordinalEnd_le st ordinal
        unfold InSpan at here
        omega
      have shift : ¬ 64 ≤ 32 * i := by
        simp only [List.length_cons] at two
        omega
      unfold ordinalEnd at passes
      rw [addOffsetConstants, if_neg passes]
      simp only [found, if_neg shift]
      apply ih
      · simp only [List.length_cons] at two
        omega
      · exact fun ordinal later => inSpan ordinal (List.mem_cons_of_mem _ later)

/-- The first constant past the span decides, and the test that should reject it
is the wrapped one. -/
theorem addOffsetConstants_past (st : SizeT) (constants : ConstByteSpan)
    (before after : List (BitVec 32)) (ordinal : BitVec 32) (i : Nat) (byteOffset : BitVec 64)
    (two : i + before.length ≤ 2)
    (inSpan : ∀ earlier ∈ before, InSpan constants.dataLength earlier)
    (past : ¬ InSpan constants.dataLength ordinal) :
    addOffsetConstants st constants (before ++ ordinal :: after) i byteOffset =
      if constants.dataLength < ordinalEnd st ordinal then
        makeStatus .invalidArgument "missing push constants"
      else .error (.fault (.readsPast "constants")) := by
  induction before generalizing i byteOffset with
  | nil =>
      have absent : constants.value ordinal.toNat = none := by
        rw [← Option.not_isSome_iff_eq_none, constants.value_isSome_iff]
        exact past
      simp only [List.nil_append, addOffsetConstants, absent]
      rfl
  | cons first rest ih =>
      have here := inSpan first List.mem_cons_self
      obtain ⟨value, found⟩ :=
        Option.isSome_iff_exists.mp ((constants.value_isSome_iff first).mpr here)
      have passes : ¬ ordinalEnd st first > constants.dataLength := by
        have below := ordinalEnd_le st first
        unfold InSpan at here
        omega
      have shift : ¬ 64 ≤ 32 * i := by
        simp only [List.length_cons] at two
        omega
      unfold ordinalEnd at passes
      rw [List.cons_append, addOffsetConstants, if_neg passes]
      simp only [found, if_neg shift]
      apply ih
      · simp only [List.length_cons] at two
        omega
      · exact fun earlier later => inSpan earlier (List.mem_cons_of_mem _ later)

/-- The buffer of the binding a column names, if the call has it. -/
def boundBuffer (bindings : List BufferRef) (column : ColumnDef) : Option HalBuffer :=
  (bindings[column.binding.toNat]?).bind (·.buffer)

theorem columnResolve_unused (st : SizeT) (column : ColumnDef) (isInput : Bool)
    (constants : ConstByteSpan) (bindings : List BufferRef) (unused : column.wordCount = 0) :
    ∃ c, columnResolve st column isInput constants bindings = .ok c := by
  unfold columnResolve
  have zero : column.wordCount.toNat = 0 := by rw [unused]; rfl
  simp only [zero, ↓reduceIte]
  exact ⟨_, rfl⟩

section

variable (st : SizeT) (column : ColumnDef) (isInput : Bool) (constants : ConstByteSpan)
  (bindings : List BufferRef)

theorem columnResolve_unbound (used : column.wordCount ≠ 0)
    (missing : boundBuffer bindings column = none) :
    columnResolve st column isInput constants bindings =
      makeStatus .invalidArgument s!"binding {column.binding.toNat} is missing" := by
  have nonzero : ¬ column.wordCount.toNat = 0 := fun zero => used (BitVec.eq_of_toNat_eq zero)
  unfold boundBuffer at missing
  unfold columnResolve
  simp only [if_neg nonzero]
  split
  · rename_i ref found
    rw [found, Option.bind_some] at missing
    rw [missing]
  · rfl

theorem columnResolve_stopped (base : HalBuffer) (used : column.wordCount ≠ 0)
    (bound : boundBuffer bindings column = some base) (stop : Stop)
    (stopped : addOffsetConstants st constants column.offsetConstants 0 column.byteOffset =
      .error stop) :
    columnResolve st column isInput constants bindings = .error stop := by
  have nonzero : ¬ column.wordCount.toNat = 0 := fun zero => used (BitVec.eq_of_toNat_eq zero)
  obtain ⟨ref, found, present⟩ := Option.bind_eq_some_iff.mp bound
  unfold columnResolve
  simp only [if_neg nonzero, found, present, stopped, bind, Except.bind]

/-- With all constants in the span, whatever stops the resolution is no lack of
an argument: the code, or the last letter of the message, tells it apart. -/
theorem columnResolve_supplied (base : HalBuffer) (bound : boundBuffer bindings column = some base)
    (two : column.offsetConstants.length ≤ 2)
    (inSpan : ∀ ordinal ∈ column.offsetConstants, InSpan constants.dataLength ordinal) (stop : Stop)
    (stopped : columnResolve st column isInput constants bindings = .error stop) :
    stop = .status ⟨.outOfRange,
        .text s!"binding {column.binding.toNat}: column runs past the bound range"⟩ ∨
      stop = .status ⟨.invalidArgument,
        .text (s!"binding {column.binding.toNat} is not STRELA memory; the CGRA can only reach " ++
          "buffers from the STRELA allocator " ++
          "(see --device_lead_allocator and the device topology)")⟩ ∨
      stop = .status ⟨.invalidArgument,
        .text s!"binding {column.binding.toNat} is not word aligned"⟩ := by
  obtain ⟨ref, found, present⟩ := Option.bind_eq_some_iff.mp bound
  obtain ⟨byteOffset, summed⟩ :=
    addOffsetConstants_inSpan st constants column.offsetConstants 0 column.byteOffset
      (by omega) inSpan
  unfold columnResolve at stopped
  simp only [found, present, summed, bind, Except.bind, pure, Except.pure, makeStatus] at stopped
  generalize (if isInput then column.stride.toNat else 0) = stride at stopped
  split at stopped
  · cases stopped
  split at stopped
  · cases stopped
    exact Or.inl rfl
  split at stopped
  · split at stopped
    · cases stopped
      exact Or.inr (Or.inr rfl)
    · cases stopped
  · cases stopped
    exact Or.inr (Or.inl rfl)

end

/-- A rejection for want of a binding or a push constant. What C leaves undefined
may be anything, so also that. -/
def Stop.LacksArgument : Stop → Prop
  | .fault _ => True
  | .status rejection => rejection.code = .invalidArgument ∧
      (rejection.message = .text "missing push constants" ∨
        ∃ binding : Nat, rejection.message = .text s!"binding {binding} is missing")

theorem getLast_append (front back : String) (last : Char)
    (ends : back.toList.getLast? = some last) : (front ++ back).toList.getLast? = some last := by
  rw [String.toList_append, List.getLast?_append, ends, Option.some_or]

theorem Stop.LacksArgument.last {message : String}
    (lacks : (Stop.status ⟨.invalidArgument, .text message⟩).LacksArgument) :
    message.toList.getLast? = some 's' ∨ message.toList.getLast? = some 'g' := by
  rcases lacks.2 with constants | ⟨binding, missing⟩
  · cases constants
    exact Or.inl (by decide)
  · cases missing
    exact Or.inr (getLast_append _ " is missing" 'g' (by decide))

/-- A column with its binding and all its constants at hand does not lack an argument. -/
theorem columnResolve_not_lacking (st : SizeT) (column : ColumnDef) (isInput : Bool)
    (constants : ConstByteSpan) (bindings : List BufferRef) (base : HalBuffer)
    (bound : boundBuffer bindings column = some base) (two : column.offsetConstants.length ≤ 2)
    (inSpan : ∀ ordinal ∈ column.offsetConstants, InSpan constants.dataLength ordinal) (stop : Stop)
    (stopped : columnResolve st column isInput constants bindings = .error stop) :
    ¬ stop.LacksArgument := by
  rcases columnResolve_supplied st column isInput constants bindings base bound
    two inSpan stop stopped
    with rfl | rfl | rfl
  · rintro ⟨code, _⟩
    cases code
  · intro lacks
    have last := getLast_append
      (s!"binding {column.binding.toNat} is not STRELA memory; the CGRA can only reach " ++
        "buffers from the STRELA allocator ")
      "(see --device_lead_allocator and the device topology)" ')' (by decide)
    rcases lacks.last with letter | letter
    · cases last.symm.trans letter
    · cases last.symm.trans letter
  · intro lacks
    have last := getLast_append s!"binding {column.binding.toNat}" " is not word aligned" 'd'
      (by decide)
    rcases lacks.last with letter | letter
    · cases last.symm.trans letter
    · cases last.symm.trans letter

/-- A binding that every column finds room in. -/
def roomyRef : BufferRef where
  buffer := some {
    allocated := .strela {
      allocationSize := BitVec.allOnes 64
      sBuf := { valid := true, offsetWordsFromBase := 0, words := 2 ^ 62 }
      hostPtr := 0
      releaseCallback := true
      address := 0 }
    byteOffset := 0
    byteLength := BitVec.allOnes 64 }
  offset := 0
  length := wholeBuffer

/-- A span of zeroes. -/
def zeroConstants (dataLength : Nat) : ConstByteSpan := ⟨List.replicate dataLength 0⟩

theorem zeroConstants_dataLength (dataLength : Nat) :
    (zeroConstants dataLength).dataLength = dataLength := List.length_replicate

theorem zeroConstants_value (dataLength : Nat) (ordinal : BitVec 32)
    (inSpan : InSpan dataLength ordinal) :
    (zeroConstants dataLength).value ordinal.toNat = some 0 := by
  have left : 4 ≤ dataLength - 4 * ordinal.toNat := by
    unfold InSpan at inSpan
    omega
  obtain ⟨more, count⟩ := Nat.exists_eq_add_of_le' left
  unfold ConstByteSpan.value zeroConstants
  rw [List.drop_replicate, count]
  rfl

theorem zeroConstants_sum (st : SizeT) (dataLength : Nat) (ordinals : List (BitVec 32)) (i : Nat)
    (byteOffset : BitVec 64) (two : i + ordinals.length ≤ 2)
    (inSpan : ∀ ordinal ∈ ordinals, InSpan dataLength ordinal) :
    addOffsetConstants st (zeroConstants dataLength) ordinals i byteOffset = .ok byteOffset := by
  induction ordinals generalizing i with
  | nil => rfl
  | cons ordinal rest ih =>
      have here := inSpan ordinal List.mem_cons_self
      have passes : ¬ ordinalEnd st ordinal > dataLength := by
        have below := ordinalEnd_le st ordinal
        unfold InSpan at here
        omega
      have shift : ¬ 64 ≤ 32 * i := by
        simp only [List.length_cons] at two
        omega
      unfold ordinalEnd at passes
      rw [addOffsetConstants, zeroConstants_dataLength, if_neg passes]
      simp only [zeroConstants_value dataLength ordinal here, if_neg shift]
      have unchanged : byteOffset + (0 : BitVec 32).setWidth 64 <<< (32 * i) = byteOffset := by
        simp
      rw [unchanged]
      apply ih
      · simp only [List.length_cons] at two
        omega
      · exact fun ordinal later => inSpan ordinal (List.mem_cons_of_mem _ later)

/-- With zeroes for constants and room in every binding, a verified column resolves. -/
theorem columnResolve_roomy (st : SizeT) (column : ColumnDef) (isInput : Bool)
    (dataLength count : Nat) (bindingCount constantCount : BitVec 32)
    (verified : column.wordCount ≠ 0 → column.Verified bindingCount constantCount)
    (bound : column.wordCount ≠ 0 → column.binding.toNat < count)
    (inSpan : column.wordCount ≠ 0 → ∀ ordinal ∈ column.offsetConstants,
      InSpan dataLength ordinal) :
    ∃ c, columnResolve st column isInput (zeroConstants dataLength)
      (List.replicate count roomyRef) =
      .ok c := by
  by_cases used : column.wordCount = 0
  · exact columnResolve_unused st column isInput _ _ used
  · have nonzero : ¬ column.wordCount.toNat = 0 := fun zero => used (BitVec.eq_of_toNat_eq zero)
    have found : (List.replicate count roomyRef)[column.binding.toNat]? = some roomyRef := by
      rw [List.getElem?_replicate, if_pos (bound used)]
    have two := (verified used).two
    have summed := zeroConstants_sum st dataLength column.offsetConstants 0 column.byteOffset
      (by omega)
      (inSpan used)
    have aligned : ¬ (0 + (0 + column.byteOffset)) % BitVec.ofNat 64 wordBytes ≠ 0 := by
      have start : (0 : BitVec 64) + (0 + column.byteOffset) = column.byteOffset := by simp
      rw [start, Decidable.not_not]
      apply BitVec.eq_of_toNat_eq
      rw [BitVec.toNat_umod]
      exact (verified used).aligned
    unfold columnResolve
    simp only [if_neg nonzero, found, summed, bind, Except.bind]
    simp only [roomyRef, boundLength, ↓reduceIte, bufferResolve, if_neg aligned]
    rw [if_neg]
    · exact ⟨_, rfl⟩
    · have whole : BitVec.allOnes 64 - 0 = BitVec.allOnes 64 := rfl
      rw [whole]
      exact BitVec.not_allOnes_lt

theorem exists_first {α : Type} (p : α → Prop) (items : List α) (some_ : ∃ item ∈ items, p item) :
    ∃ before item after, items = before ++ item :: after ∧
      (∀ earlier ∈ before, ¬ p earlier) ∧ p item := by
  induction items with
  | nil =>
      obtain ⟨item, member, _⟩ := some_
      cases member
  | cons first rest ih =>
      by_cases here : p first
      · refine ⟨[], first, rest, rfl, ?_, here⟩
        intro earlier member
        cases member
      · have later : ∃ item ∈ rest, p item := by
          obtain ⟨item, member, holds⟩ := some_
          rcases List.mem_cons.mp member with rfl | member
          · exact absurd holds here
          · exact ⟨item, member, holds⟩
        obtain ⟨before, item, after, split, none_, holds⟩ := ih later
        refine ⟨first :: before, item, after, by rw [split, List.cons_append], ?_, holds⟩
        intro earlier member
        rcases List.mem_cons.mp member with rfl | member
        · exact here
        · exact none_ earlier member

/-- The first constant of a bound column past the span: rejected by the wrapped
test, or read. -/
theorem columnResolve_past (st : SizeT) (column : ColumnDef) (isInput : Bool)
    (constants : ConstByteSpan) (bindings : List BufferRef) (base : HalBuffer)
    (used : column.wordCount ≠ 0) (bound : boundBuffer bindings column = some base)
    (two : column.offsetConstants.length ≤ 2) (before after : List (BitVec 32))
    (ordinal : BitVec 32) (split : column.offsetConstants = before ++ ordinal :: after)
    (inSpan : ∀ earlier ∈ before, InSpan constants.dataLength earlier)
    (past : ¬ InSpan constants.dataLength ordinal) :
    columnResolve st column isInput constants bindings =
      if constants.dataLength < ordinalEnd st ordinal then
        makeStatus .invalidArgument "missing push constants"
      else .error (.fault (.readsPast "constants")) := by
  have few : 0 + before.length ≤ 2 := by
    rw [split, List.length_append] at two
    omega
  have stopped := addOffsetConstants_past st constants before after ordinal 0 column.byteOffset few
    inSpan past
  rw [← split] at stopped
  by_cases caught : constants.dataLength < ordinalEnd st ordinal
  · rw [if_pos caught] at stopped ⊢
    exact columnResolve_stopped st column isInput constants bindings base used bound _ stopped
  · rw [if_neg caught] at stopped ⊢
    exact columnResolve_stopped st column isInput constants bindings base used bound _ stopped

/-- What a resolved column in use was given. -/
theorem columnResolve_resolved (st : SizeT) (column : ColumnDef) (isInput : Bool)
    (constants : ConstByteSpan) (bindings : List BufferRef) (c : Column)
    (resolved : columnResolve st column isInput constants bindings = .ok c)
    (used : column.wordCount ≠ 0) (two : column.offsetConstants.length ≤ 2) :
    ∀ ordinal ∈ column.offsetConstants, InSpan constants.dataLength ordinal := by
  intro ordinal member
  apply Decidable.byContradiction
  intro past
  cases bound : boundBuffer bindings column with
  | none =>
      rw [columnResolve_unbound st column isInput constants bindings used bound] at resolved
      cases resolved
  | some base =>
      obtain ⟨before, first, after, split, inSpan, past⟩ :=
        exists_first (fun ordinal => ¬ InSpan constants.dataLength ordinal) _
          ⟨ordinal, member, past⟩
      have stopped := columnResolve_past st column isInput constants bindings base
        used bound two before
        after first split (fun earlier member => Decidable.not_not.mp (inSpan earlier member)) past
      rw [resolved] at stopped
      split at stopped <;> cases stopped

end Estela.Runtime
