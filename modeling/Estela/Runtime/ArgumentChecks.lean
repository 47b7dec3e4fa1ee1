import Estela.Runtime.ColumnChecks

set_option autoImplicit false

/- Whether dispatch catches every binding and push constant that a column names
and the call lacks, and whether the advertised counts are enough. -/
namespace Estela.Runtime

open CallProgram

/-- A status, OK or not: nothing that C leaves undefined. -/
def IsDefined (result : CResult Unit) : Prop := ∀ fault, result ≠ .error (.fault fault)

/-- Whatever libstrela answers, the program ends in a status. -/
def EndsDefined (p : Driver (CResult Unit)) : Prop :=
  Triple AnyAnswer (fun _ => True) p (fun result _ => IsDefined result)

theorem isDefined_ok : IsDefined (.ok ()) := fun _ bad => nomatch bad

theorem isDefined_makeStatus (code : StatusCode) (message : String) :
    IsDefined (makeStatus code message) := by
  intro fault bad
  cases bad

theorem endsDefined_ret (result : CResult Unit) (isDefined : IsDefined result) :
    EndsDefined (.ret result) :=
  Triple.ret result (fun _ _ => isDefined)

/-- What comes before does not matter to what comes last. -/
theorem endsDefined_bind {α : Type} (p : Driver α) (rest : α → Driver (CResult Unit))
    (second : ∀ value, EndsDefined (rest value)) : EndsDefined (p.bind rest) := by
  refine Triple.bind (fun _ _ => True) ?_ second
  intro _ _ _ _ _
  trivial

theorem endsDefined_seq (p : Driver (CResult Unit)) (rest : CResult Unit → Driver (CResult Unit))
    (first : EndsDefined p) (second : ∀ status, IsDefined status → EndsDefined (rest status)) :
    EndsDefined (p.bind rest) := by
  refine Triple.bind _ first (fun status => ?_)
  intro state result final holds run
  exact second status holds state result final trivial run

theorem statusFromDev_endsDefined (what : String) : EndsDefined (statusFromDev what) := by
  refine endsDefined_bind _ _ (fun (ok : Bool) => ?_)
  cases ok with
  | true => exact endsDefined_ret _ isDefined_ok
  | false =>
      refine endsDefined_bind _ _ (fun (err : StrelaErr) => ?_)
      refine endsDefined_bind _ _ (fun _ => ?_)
      apply endsDefined_ret
      intro fault bad
      cases err <;> cases bad

theorem whileOk_endsDefined (status : CResult Unit) (next : Driver (CResult Unit))
    (before : IsDefined status) (after : EndsDefined next) : EndsDefined (whileOk status next) := by
  cases status with
  | ok _ => exact after
  | error stop => exact endsDefined_ret _ before

theorem forColumn_endsDefined
    (sync : HalStrelaBuffer → BitVec 64 → BitVec 64 → Driver (CResult Unit))
    (defined : ∀ buffer offset length, EndsDefined (sync buffer offset length)) (column : Column) :
    EndsDefined (forColumn sync column) := by
  unfold forColumn
  split
  · exact endsDefined_ret _ isDefined_ok
  · exact defined _ _ _

theorem flushColumns_endsDefined (st : SizeT) (columns : List (Column × Column)) :
    EndsDefined (flushColumns st columns) := by
  have flush := forColumn_endsDefined (bufferFlushRange st)
    (fun _ _ _ => endsDefined_bind _ _ (fun _ => statusFromDev_endsDefined _))
  induction columns with
  | nil => exact endsDefined_ret _ isDefined_ok
  | cons pair rest ih =>
      refine endsDefined_seq _ _ (flush pair.1) (fun status defined => ?_)
      refine endsDefined_seq _ _ (whileOk_endsDefined status _ defined (flush pair.2))
        (fun status defined => ?_)
      exact whileOk_endsDefined status _ defined ih

theorem invalidateColumns_endsDefined (st : SizeT) (columns : List (Column × Column)) :
    EndsDefined (invalidateColumns st columns) := by
  have invalidate := forColumn_endsDefined (bufferInvalidateRange st)
    (fun _ _ _ => endsDefined_bind _ _
      (fun _ => endsDefined_bind _ _ (fun _ => statusFromDev_endsDefined _)))
  induction columns with
  | nil => exact endsDefined_ret _ isDefined_ok
  | cons pair rest ih =>
      refine endsDefined_seq _ _ (invalidate pair.2) (fun status defined => ?_)
      exact whileOk_endsDefined status _ defined ih

theorem pollJob_endsDefined (job : StrelaJob) : EndsDefined (pollJob job) := by
  refine endsDefined_bind _ _ (fun state => ?_)
  refine endsDefined_seq _ _ (statusFromDev_endsDefined _) (fun status defined => ?_)
  apply whileOk_endsDefined status _ defined
  apply endsDefined_ret
  intro fault bad
  cases state <;> cases bad

theorem freeJob_endsDefined (job : StrelaJob) (status : CResult Unit) (before : IsDefined status) :
    EndsDefined (freeJob job status) := by
  unfold freeJob
  split
  · refine endsDefined_bind _ _ (fun _ => ?_)
    refine endsDefined_seq _ _ (statusFromDev_endsDefined _) (fun freed defined => ?_)
    apply endsDefined_ret
    cases status with
    | ok _ => exact defined
    | error stop => exact before
  · exact endsDefined_ret _ before

/-- From the resolved columns on, a dispatch does not read past anything. -/
theorem dispatchColumns_endsDefined (st : SizeT) (kernel : StrelaKernel)
    (columns : List (Column × Column)) : EndsDefined (dispatchColumns st kernel columns) := by
  refine endsDefined_seq _ _ (flushColumns_endsDefined st columns) (fun status defined => ?_)
  have started : Triple AnyAnswer (fun _ => True) (startJob kernel (strelaConf columns) status)
      (fun result _ => IsDefined result.2) := by
    cases status with
    | error stop => exact Triple.ret _ (fun _ _ => defined)
    | ok _ =>
        refine Triple.bind (fun _ _ => True) (fun _ _ _ _ _ => trivial)
          (fun (job : StrelaJob) => ?_)
        refine Triple.bind (fun _ _ => True) (fun _ _ _ _ _ => trivial) (fun _ => ?_)
        refine Triple.bind (fun _ _ => True) (fun _ _ _ _ _ => trivial) (fun _ => ?_)
        exact Triple.bind _ (statusFromDev_endsDefined _)
          (fun _ => Triple.ret _ (fun _ defined => defined))
  refine Triple.bind _ started (fun job => ?_)
  intro state result final defined run
  refine endsDefined_seq _ _ (whileOk_endsDefined job.2 _ defined (pollJob_endsDefined job.1))
    (fun status defined => ?_) state result final trivial run
  refine endsDefined_seq _ _ (freeJob_endsDefined job.1 status defined) (fun status defined => ?_)
  exact whileOk_endsDefined status _ defined (invalidateColumns_endsDefined st columns)

/-- The push constants the columns of an export read, in the order they do. -/
def usedOrdinals (columns : List (ColumnDef × Bool)) : List (BitVec 32) :=
  columns.flatMap fun c => if c.1.wordCount = 0 then [] else c.1.offsetConstants

/-- The push constants a function reads; none if there is no such function. -/
def functionOrdinals (executable : Executable) (function : BitVec 64) : List (BitVec 32) :=
  match executable.exports[function.toNat]? with
  | none => []
  | some export_ => usedOrdinals (dispatchOrder export_.exportDef)

/-- The first push constant a function reads past the end of the span. -/
def firstPast (executable : Executable) (function : BitVec 64) (dataLength : Nat) :
    Option (BitVec 32) :=
  (functionOrdinals executable function).find? fun ordinal => decide (¬ InSpan dataLength ordinal)

/-- The call lacks something that the column, in use, names. -/
def Lacks (constants : ConstByteSpan) (bindings : List BufferRef) (column : ColumnDef) : Prop :=
  column.wordCount ≠ 0 ∧ (boundBuffer bindings column = none ∨
    ∃ ordinal ∈ column.offsetConstants, ¬ InSpan constants.dataLength ordinal)

/-- A dispatch reads and shifts only as C defines it, and the first column that
lacks something makes it return `INVALID_ARGUMENT`. -/
structure OrdinalsCaught (st : SizeT) (executable : Executable) (function : BitVec 64)
    (constants : ConstByteSpan) (bindings : List BufferRef) : Prop where
  defined : EndsDefined (commandBufferDispatch st executable function constants bindings)
  lacking : ∀ export_, executable.exports[function.toNat]? = some export_ →
    ∀ before column isInput after,
      dispatchOrder export_.exportDef = before ++ (column, isInput) :: after →
      (∀ e ∈ before, ∃ c, columnResolve st e.1 e.2 constants bindings = .ok c) →
      Lacks constants bindings column →
      ∃ message, commandBufferDispatch st executable function constants bindings =
        .ret (makeStatus .invalidArgument message)

theorem usedOrdinals_find (dataLength : Nat) (before after : List (ColumnDef × Bool))
    (column : ColumnDef) (isInput : Bool) (used : column.wordCount ≠ 0)
    (inSpan : ∀ e ∈ before, e.1.wordCount ≠ 0 → ∀ ordinal ∈ e.1.offsetConstants,
      InSpan dataLength ordinal)
    (seen rest : List (BitVec 32)) (ordinal : BitVec 32)
    (split : column.offsetConstants = seen ++ ordinal :: rest)
    (seenInSpan : ∀ earlier ∈ seen, InSpan dataLength earlier)
    (past : ¬ InSpan dataLength ordinal) :
    (usedOrdinals (before ++ (column, isInput) :: after)).find?
      (fun ordinal => decide (¬ InSpan dataLength ordinal)) = some ordinal := by
  rw [List.find?_eq_some_iff_append]
  refine ⟨decide_eq_true past, usedOrdinals before ++ seen, rest ++ usedOrdinals after, ?_, ?_⟩
  · simp only [usedOrdinals, List.flatMap_append, List.flatMap_cons, if_neg used, split,
      List.append_assoc, List.cons_append]
  · intro earlier member
    rw [Bool.not_eq_true', decide_eq_false_iff_not, Decidable.not_not]
    rcases List.mem_append.mp member with first | second
    · obtain ⟨e, known, listed⟩ := List.mem_flatMap.mp first
      by_cases unused : e.1.wordCount = 0
      · rw [if_pos unused] at listed
        cases listed
      · rw [if_neg unused] at listed
        exact inSpan e known unused earlier listed
    · exact seenInSpan earlier second

section

variable {exportDef : ExportDef} (verified : exportDef.Verified)
include verified

theorem columns_verified (before after : List (ColumnDef × Bool)) (column : ColumnDef)
    (isInput : Bool) (split : dispatchOrder exportDef = before ++ (column, isInput) :: after)
    (used : column.wordCount ≠ 0) :
    column.Verified exportDef.bindingCount exportDef.constantCount :=
  verified.columns (column, isInput)
    (by rw [split]; exact List.mem_append_right _ List.mem_cons_self) used

/-- A column that lacks something is rejected, unless the first constant past
the span slips through the wrapped test. -/
theorem columnResolve_lacking (st : SizeT) (constants : ConstByteSpan) (bindings : List BufferRef)
    (before after : List (ColumnDef × Bool)) (column : ColumnDef) (isInput : Bool)
    (split : dispatchOrder exportDef = before ++ (column, isInput) :: after)
    (resolved : ∀ e ∈ before, ∃ c, columnResolve st e.1 e.2 constants bindings = .ok c)
    (lacks : Lacks constants bindings column) :
    columnResolve st column isInput constants bindings =
        makeStatus .invalidArgument s!"binding {column.binding.toNat} is missing" ∨
      ∃ ordinal, (usedOrdinals (dispatchOrder exportDef)).find?
          (fun ordinal => decide (¬ InSpan constants.dataLength ordinal)) = some ordinal ∧
        columnResolve st column isInput constants bindings =
          if constants.dataLength < ordinalEnd st ordinal then
            makeStatus .invalidArgument "missing push constants"
          else .error (.fault (.readsPast "constants")) := by
  obtain ⟨used, missing⟩ := lacks
  cases bound : boundBuffer bindings column with
  | none => exact Or.inl (columnResolve_unbound st column isInput constants bindings used bound)
  | some base =>
      have some_ := missing.resolve_left (by rw [bound]; exact Option.some_ne_none base)
      obtain ⟨seen, ordinal, rest, parts, seenInSpan, past⟩ := exists_first _ _ some_
      have inSpan : ∀ earlier ∈ seen, InSpan constants.dataLength earlier :=
        fun earlier member => Decidable.not_not.mp (seenInSpan earlier member)
      have two := (columns_verified verified before after column isInput split used).two
      refine Or.inr ⟨ordinal, ?_,
        columnResolve_past st column isInput constants bindings base used bound
        two seen rest ordinal parts inSpan past⟩
      rw [split]
      apply usedOrdinals_find _ before after column isInput used _ seen rest
        ordinal parts inSpan past
      intro e member inUse
      obtain ⟨c, ok⟩ := resolved e member
      have twoOf := (verified.columns e
        (by rw [split]; exact List.mem_append_left _ member) inUse).two
      exact columnResolve_resolved st e.1 e.2 constants bindings c ok inUse twoOf

end

theorem dispatch_stopped (st : SizeT) (executable : Executable) (function : BitVec 64)
    (constants : ConstByteSpan) (bindings : List BufferRef) (export_ : Export)
    (found : executable.exports[function.toNat]? = some export_) (stop : Stop)
    (stopped : resolveColumns st export_.exportDef.inputs export_.exportDef.outputs
      constants bindings
      (List.range columnCount) = .error stop) :
    commandBufferDispatch st executable function constants bindings = .ret (.error stop) := by
  unfold commandBufferDispatch
  simp only [found, stopped]
  rfl

/-- Resolution ends in a status where the first constant past the span is caught. -/
theorem columnResolve_isStatus (st : SizeT) (column : ColumnDef) (isInput : Bool)
    (constants : ConstByteSpan) (bindings : List BufferRef)
    (two : column.wordCount ≠ 0 → column.offsetConstants.length ≤ 2)
    (caught : Lacks constants bindings column →
      ∃ message, columnResolve st column isInput constants bindings =
        makeStatus .invalidArgument message)
    (fault : Fault) : columnResolve st column isInput constants bindings ≠
      .error (.fault fault) := by
  intro bad
  by_cases used : column.wordCount = 0
  · obtain ⟨c, ok⟩ := columnResolve_unused st column isInput constants bindings used
    cases ok.symm.trans bad
  · by_cases lacks : Lacks constants bindings column
    · obtain ⟨message, rejected⟩ := caught lacks
      cases rejected.symm.trans bad
    · have given := not_and.mp lacks used
      rw [not_or] at given
      obtain ⟨base, bound⟩ := Option.ne_none_iff_exists'.mp given.1
      have inSpan : ∀ ordinal ∈ column.offsetConstants, InSpan constants.dataLength ordinal :=
        fun ordinal member => Decidable.byContradiction fun past => given.2 ⟨ordinal, member, past⟩
      rcases columnResolve_supplied st column isInput constants bindings base bound
        (two used) inSpan _ bad
        with same | same | same
      · cases same
      · cases same
      · cases same

/-- Where the wrapped test catches the first constant past the span, a dispatch
catches everything it lacks. -/
theorem ordinalsCaught_of_test (st : SizeT) (executable : Executable) (function : BitVec 64)
    (constants : ConstByteSpan) (bindings : List BufferRef)
    (verified : ∀ export_ ∈ executable.exports, export_.exportDef.Verified)
    (test : ∀ ordinal, firstPast executable function constants.dataLength = some ordinal →
      constants.dataLength < ordinalEnd st ordinal) :
    OrdinalsCaught st executable function constants bindings := by
  have rejected (export_ : Export) (found : executable.exports[function.toNat]? = some export_)
      (before after : List (ColumnDef × Bool)) (column : ColumnDef) (isInput : Bool)
      (split : dispatchOrder export_.exportDef = before ++ (column, isInput) :: after)
      (resolved : ∀ e ∈ before, ∃ c, columnResolve st e.1 e.2 constants bindings = .ok c)
      (lacks : Lacks constants bindings column) : ∃ message,
        columnResolve st column isInput constants bindings =
          makeStatus .invalidArgument message := by
    have known := verified export_ (List.mem_of_getElem? found)
    rcases columnResolve_lacking known st constants bindings before after column
      isInput split resolved
      lacks with missing | ⟨ordinal, first, outcome⟩
    · exact ⟨_, missing⟩
    · have caught := test ordinal (by unfold firstPast functionOrdinals; rw [found]; exact first)
      rw [if_pos caught] at outcome
      exact ⟨_, outcome⟩
  refine ⟨?_, ?_⟩
  · unfold commandBufferDispatch
    split
    · exact endsDefined_ret _ (isDefined_makeStatus _ _)
    · rename_i export_ found
      have known := verified export_ (List.mem_of_getElem? found)
      split
      · rename_i stop stopped
        apply endsDefined_ret
        intro fault bad
        cases bad
        obtain ⟨before, column, isInput, after, parts, resolved, failed⟩ :=
          (known.resolveColumns_error st constants bindings _).mp stopped
        exact columnResolve_isStatus st column isInput constants bindings
          (fun used => (columns_verified known before after column isInput parts used).two)
          (rejected export_ found before after column isInput parts resolved) fault failed
      · exact dispatchColumns_endsDefined st _ _
  · intro export_ found before column isInput after parts resolved lacks
    have known := verified export_ (List.mem_of_getElem? found)
    obtain ⟨message, failed⟩ :=
      rejected export_ found before after column isInput parts resolved lacks
    refine ⟨message, dispatch_stopped st executable function constants bindings export_ found _ ?_⟩
    exact (known.resolveColumns_error st constants bindings _).mpr
      ⟨before, column, isInput, after, parts, resolved, failed⟩

/-- Columns whose constants lie in the span resolve for roomy bindings. -/
theorem columns_resolve_roomy (st : SizeT) (exportDef : ExportDef) (verified : exportDef.Verified)
    (dataLength count : Nat) (before after : List (ColumnDef × Bool))
    (split : dispatchOrder exportDef = before ++ after)
    (bound : ∀ e ∈ before, e.1.wordCount ≠ 0 → e.1.binding.toNat < count)
    (inSpan : ∀ e ∈ before, e.1.wordCount ≠ 0 → ∀ ordinal ∈ e.1.offsetConstants,
      InSpan dataLength ordinal) :
    ∀ e ∈ before, ∃ c, columnResolve st e.1 e.2 (zeroConstants dataLength)
      (List.replicate count roomyRef) = .ok c := by
  intro e member
  have known : e ∈ dispatchOrder exportDef := by
    rw [split]
    exact List.mem_append_left _ member
  exact columnResolve_roomy st e.1 e.2 dataLength count _ _ (verified.columns e known)
    (bound e member)
    (inSpan e member)

theorem boundBuffer_roomy (count : Nat) (column : ColumnDef)
    (bound : column.binding.toNat < count) :
    ∃ base, boundBuffer (List.replicate count roomyRef) column = some base := by
  unfold boundBuffer
  rw [List.getElem?_replicate, if_pos bound]
  exact ⟨_, rfl⟩

/-- A span of zeroes on which the wrapped test lets the first constant past it through. -/
theorem dispatch_reads_past (st : SizeT) (executable : Executable) (function : BitVec 64)
    (dataLength : Nat) (verified : ∀ export_ ∈ executable.exports, export_.exportDef.Verified)
    (ordinal : BitVec 32) (first : firstPast executable function dataLength = some ordinal)
    (slips : ¬ dataLength < ordinalEnd st ordinal) :
    ∃ bindings, commandBufferDispatch st executable function (zeroConstants dataLength) bindings =
      .ret (.error (.fault (.readsPast "constants"))) := by
  unfold firstPast functionOrdinals at first
  split at first
  · cases first
  rename_i export_ found
  have known := verified export_ (List.mem_of_getElem? found)
  obtain ⟨past, _⟩ := List.find?_eq_some_iff_append.mp first
  have listed := List.mem_of_find?_eq_some first
  obtain ⟨c, inOrder, inColumn⟩ := List.mem_flatMap.mp listed
  have some_ : ∃ e ∈ dispatchOrder export_.exportDef,
      e.1.wordCount ≠ 0 ∧ ∃ ordinal ∈ e.1.offsetConstants, ¬ InSpan dataLength ordinal := by
    refine ⟨c, inOrder, ?_⟩
    by_cases unused : c.1.wordCount = 0
    · rw [if_pos unused] at inColumn
      cases inColumn
    · rw [if_neg unused] at inColumn
      exact ⟨unused, ordinal, inColumn, of_decide_eq_true past⟩
  obtain ⟨before, column, after, split, none_, used, some_⟩ := exists_first _ _ some_
  obtain ⟨seen, ordinal', rest, parts, seenInSpan, past'⟩ := exists_first _ _ some_
  have seenIn : ∀ earlier ∈ seen, InSpan dataLength earlier :=
    fun earlier member => Decidable.not_not.mp (seenInSpan earlier member)
  have inSpan : ∀ e ∈ before, e.1.wordCount ≠ 0 → ∀ ordinal ∈ e.1.offsetConstants,
      InSpan dataLength ordinal := by
    intro e member inUse earlier listed
    exact Decidable.byContradiction fun out => none_ e member ⟨inUse, earlier, listed, out⟩
  have same : ordinal' = ordinal := by
    have again := usedOrdinals_find dataLength before after column.1 column.2 used inSpan seen rest
      ordinal' parts seenIn past'
    rw [← split, first] at again
    exact (Option.some.inj again).symm
  subst same
  have checked := columns_verified known before after column.1 column.2 split used
  let count := export_.exportDef.bindingCount.toNat
  have resolved := columns_resolve_roomy st export_.exportDef known dataLength count before _ split
    (fun e member inUse => (known.columns e (by rw [split]; exact List.mem_append_left _ member)
      inUse).binding) inSpan
  obtain ⟨base, bound⟩ := boundBuffer_roomy count column.1 checked.binding
  have stopped := columnResolve_past st column.1 column.2
    (zeroConstants dataLength) _ base used bound
    checked.two seen rest ordinal' parts (by rw [zeroConstants_dataLength]; exact seenIn)
    (by rw [zeroConstants_dataLength]; exact past')
  rw [zeroConstants_dataLength, if_neg slips] at stopped
  refine ⟨List.replicate count roomyRef,
    dispatch_stopped st executable function _ _ export_ found _ ?_⟩
  exact (known.resolveColumns_error st _ _ _).mpr
    ⟨before, column.1, column.2, after, split, resolved, stopped⟩

/-- For a span of `dataLength` bytes, whatever the constants and the bindings,
everything a dispatch lacks is caught exactly if the wrapped test catches the
first constant past the span. -/
theorem dispatch_ordinalsCaught_iff (st : SizeT) (data : ExecutableData) (executable : Executable)
    (function : BitVec 64) (dataLength : Nat)
    (accepted : executableFlatbufferVerify data = .ok ()) (holds : executable.Holds data) :
    (∀ (constants : ConstByteSpan) (bindings : List BufferRef), constants.dataLength = dataLength →
        OrdinalsCaught st executable function constants bindings) ↔
      ∀ ordinal, firstPast executable function dataLength = some ordinal →
        dataLength < st.wrap (st.wrap (ordinal.toNat + 1) * 4) := by
  have verified := executableFlatbufferVerify_export data executable accepted holds
  constructor
  · intro caught ordinal first
    apply Decidable.byContradiction
    intro slips
    obtain ⟨bindings, reads⟩ :=
      dispatch_reads_past st executable function dataLength verified ordinal first slips
    have ends := (caught (zeroConstants dataLength) bindings
      (zeroConstants_dataLength dataLength)).defined
    rw [reads] at ends
    exact ends () _ () trivial (.ret _ _) _ rfl
  · intro test constants bindings length
    subst length
    exact ordinalsCaught_of_test st executable function constants bindings verified test

/-- A column without use. -/
def idleColumn : ColumnDef where
  binding := 0
  byteOffset := 0
  offsetConstants := []
  wordCount := 0
  stride := 1

/-- One export that reads a word of `binding` at an offset given by `ordinal`. -/
def oneColumnExport (binding ordinal bindingCount constantCount : BitVec 32) : ExportDef where
  name := some "read_at"
  bitstream := List.replicate strelaKernelSize 0
  inputs := [
    { binding, byteOffset := 0, offsetConstants := [ordinal], wordCount := 1, stride := 1 },
    idleColumn, idleColumn, idleColumn]
  outputs := List.replicate columnCount idleColumn
  constantCount
  bindingCount

def oneExportData (exportDef : ExportDef) : ExecutableData where
  header := .ok ()
  verifyAsRoot := none
  root := { exports := [some exportDef] }
  flatbufferLength := 1024

def oneExportExecutable (exportDef : ExportDef) : Executable where
  exports := [{ exportDef, kernel := { valid := true, handle := 0 } }]
  address := 0x1000

theorem dispatch_ordinalsCaught_iff_sample :
    (∀ (constants : ConstByteSpan) (bindings : List BufferRef), constants.dataLength = 4 →
        OrdinalsCaught .bits32 (oneExportExecutable (oneColumnExport 0 1 1 2)) 0
          constants bindings) ↔
      ∀ ordinal, firstPast (oneExportExecutable (oneColumnExport 0 1 1 2)) 0 4 = some ordinal →
        4 < SizeT.bits32.wrap (SizeT.bits32.wrap (ordinal.toNat + 1) * 4) :=
  dispatch_ordinalsCaught_iff .bits32 (oneExportData (oneColumnExport 0 1 1 2)) _ 0 4 rfl rfl

/-- On 32 bits the test of ordinal 2^30 - 1 compares 0 to the length of the span:
with no push constants at all, the resolution reads 4 GiB past their start. -/
theorem dispatch_reads_absent_constant :
    ¬ ∀ (st : SizeT) (data : ExecutableData) (executable : Executable) (function : BitVec 64)
        (constants : ConstByteSpan) (bindings : List BufferRef),
      executableFlatbufferVerify data = .ok () → executable.Holds data →
      constants.dataLength % 4 = 0 →
      OrdinalsCaught st executable function constants bindings := by
  intro claim
  have caught := claim .bits32 (oneExportData (oneColumnExport 0 0x3fffffff 1 0x40000000))
    (oneExportExecutable (oneColumnExport 0 0x3fffffff 1 0x40000000)) 0 ⟨[]⟩ [sampleRef] rfl rfl rfl
  have reads : commandBufferDispatch .bits32
      (oneExportExecutable (oneColumnExport 0 0x3fffffff 1 0x40000000)) 0 ⟨[]⟩ [sampleRef] =
        .ret (.error (.fault (.readsPast "constants"))) := rfl
  have ends := caught.defined
  rw [reads] at ends
  exact ends () _ () trivial (.ret _ _) _ rfl

/-- A call made by the advertised counts, with no NULL binding. -/
structure Supplied (info : FunctionInfo) (constants : ConstByteSpan) (bindings : List BufferRef) :
    Prop where
  dataLength : constants.dataLength = 4 * info.constantCount.toNat
  count : bindings.length = info.bindingCount.toNat
  present : ∀ ref ∈ bindings, ref.buffer ≠ none

/-- The columns in use name bindings and constants below the narrowed counts. -/
def FitsAdvertised (exportDef : ExportDef) : Prop :=
  ∀ c ∈ dispatchOrder exportDef, c.1.wordCount ≠ 0 →
    c.1.binding.toNat < exportDef.bindingCount.toNat % 2 ^ 16 ∧
      ∀ ordinal ∈ c.1.offsetConstants, ordinal.toNat < exportDef.constantCount.toNat % 2 ^ 16

theorem executableFunctionInfo_ok (executable : Executable) (function : BitVec 64)
    (export_ : Export) (info : FunctionInfo)
    (found : executable.exports[function.toNat]? = some export_)
    (advertised : executableFunctionInfo executable function = .ok info) :
    info.constantCount.toNat = export_.exportDef.constantCount.toNat % 2 ^ 16 ∧
      info.bindingCount.toNat = export_.exportDef.bindingCount.toNat % 2 ^ 16 := by
  unfold executableFunctionInfo at advertised
  rw [found] at advertised
  cases advertised
  exact ⟨BitVec.toNat_setWidth _ _, BitVec.toNat_setWidth _ _⟩

theorem inSpan_words (count : Nat) (ordinal : BitVec 32) :
    InSpan (4 * count) ordinal ↔ ordinal.toNat < count := by
  unfold InSpan
  omega

theorem boundBuffer_supplied (info : FunctionInfo) (constants : ConstByteSpan)
    (bindings : List BufferRef) (supplied : Supplied info constants bindings) (column : ColumnDef)
    (fits : column.binding.toNat < info.bindingCount.toNat) :
    ∃ base, boundBuffer bindings column = some base := by
  have inside : column.binding.toNat < bindings.length := by
    rw [supplied.count]
    exact fits
  unfold boundBuffer
  rw [List.getElem?_eq_getElem inside, Option.bind_some]
  exact Option.ne_none_iff_exists'.mp (supplied.present _ (List.getElem_mem inside))

theorem zeroes_supplied (info : FunctionInfo) :
    Supplied info (zeroConstants (4 * info.constantCount.toNat))
      (List.replicate info.bindingCount.toNat roomyRef) := by
  refine ⟨zeroConstants_dataLength _, List.length_replicate, ?_⟩
  intro ref member
  rw [List.eq_of_mem_replicate member]
  exact Option.some_ne_none _

theorem makeStatus_lacks {message : String} {stop : Stop}
    (stopped : (makeStatus .invalidArgument message : CResult Column) = .error stop)
    (lack : message = "missing push constants" ∨ ∃ binding : Nat,
      message = s!"binding {binding} is missing") :
    stop.LacksArgument := by
  cases stopped
  refine ⟨rfl, ?_⟩
  exact lack.imp (congrArg Message.text)
    (fun ⟨binding, same⟩ => ⟨binding, congrArg Message.text same⟩)

/-- A column that does not fit the advertised counts lacks something among them. -/
theorem zeroes_lack (info : FunctionInfo) (column : ColumnDef) (used : column.wordCount ≠ 0)
    (unfit : ¬ (column.binding.toNat < info.bindingCount.toNat ∧
      ∀ ordinal ∈ column.offsetConstants, ordinal.toNat < info.constantCount.toNat)) :
    Lacks (zeroConstants (4 * info.constantCount.toNat))
      (List.replicate info.bindingCount.toNat roomyRef) column := by
  refine ⟨used, ?_⟩
  by_cases missing : boundBuffer (List.replicate info.bindingCount.toNat roomyRef) column = none
  · exact Or.inl missing
  · have bound : column.binding.toNat < info.bindingCount.toNat := by
      apply Decidable.byContradiction
      intro outside
      apply missing
      unfold boundBuffer
      rw [List.getElem?_replicate, if_neg outside]
      rfl
    have past := not_and.mp unfit bound
    simp only [not_forall] at past
    obtain ⟨ordinal, listed, past⟩ := past
    refine Or.inr ⟨ordinal, listed, ?_⟩
    rw [zeroConstants_dataLength, inSpan_words]
    exact past

/-- The first column that does not fit has a call by the advertised counts rejected. -/
theorem unfit_rejected (st : SizeT) (exportDef : ExportDef) (verified : exportDef.Verified)
    (info : FunctionInfo)
    (constantCount : info.constantCount.toNat = exportDef.constantCount.toNat % 2 ^ 16)
    (bindingCount : info.bindingCount.toNat = exportDef.bindingCount.toNat % 2 ^ 16)
    (unfit : ¬ FitsAdvertised exportDef) :
    ∃ stop, resolveColumns st exportDef.inputs exportDef.outputs
      (zeroConstants (4 * info.constantCount.toNat))
        (List.replicate info.bindingCount.toNat roomyRef)
      (List.range columnCount) = .error stop ∧ stop.LacksArgument := by
  unfold FitsAdvertised at unfit
  rw [← bindingCount, ← constantCount] at unfit
  simp only [not_forall] at unfit
  obtain ⟨c, known, used, unfit⟩ := unfit
  obtain ⟨before, column, after, split, fits, used, unfit⟩ :=
    exists_first (fun c : ColumnDef × Bool => c.1.wordCount ≠ 0 ∧
      ¬ (c.1.binding.toNat < info.bindingCount.toNat ∧
        ∀ ordinal ∈ c.1.offsetConstants, ordinal.toNat < info.constantCount.toNat))
      _ ⟨c, known, used, unfit⟩
  have fit : ∀ e ∈ before, e.1.wordCount ≠ 0 → e.1.binding.toNat < info.bindingCount.toNat ∧
      ∀ ordinal ∈ e.1.offsetConstants, InSpan (4 * info.constantCount.toNat) ordinal := by
    intro e member inUse
    have both := Decidable.not_not.mp (not_and.mp (fits e member) inUse)
    exact ⟨both.1, fun ordinal listed => (inSpan_words _ _).mpr (both.2 ordinal listed)⟩
  have resolved := columns_resolve_roomy st exportDef verified _ info.bindingCount.toNat before _
    split (fun e member inUse => (fit e member inUse).1)
      (fun e member inUse => (fit e member inUse).2)
  have outcome := columnResolve_lacking verified st _ _ before after column.1
    column.2 split resolved
    (zeroes_lack info column.1 used unfit)
  have rejected (stop : Stop) (stopped : columnResolve st column.1 column.2
      (zeroConstants (4 * info.constantCount.toNat))
      (List.replicate info.bindingCount.toNat roomyRef) = .error stop) :=
    (verified.resolveColumns_error st _ _ stop).mpr
      ⟨before, column.1, column.2, after, split, resolved, stopped⟩
  rcases outcome with missing | ⟨ordinal, _, past⟩
  · exact ⟨_, rejected _ missing, makeStatus_lacks rfl (Or.inr ⟨_, rfl⟩)⟩
  · split at past
    · exact ⟨_, rejected _ past, makeStatus_lacks rfl (Or.inl rfl)⟩
    · exact ⟨_, rejected _ past, trivial⟩

/-- A call made by the advertised counts is never rejected for want of an
argument exactly if the counts still cover the columns once narrowed to 16 bits. -/
theorem functionInfo_sufficient_iff (st : SizeT) (data : ExecutableData) (executable : Executable)
    (function : BitVec 64) (export_ : Export) (info : FunctionInfo)
    (accepted : executableFlatbufferVerify data = .ok ()) (holds : executable.Holds data)
    (found : executable.exports[function.toNat]? = some export_)
    (advertised : executableFunctionInfo executable function = .ok info) :
    (∀ (constants : ConstByteSpan) (bindings : List BufferRef), Supplied info constants bindings →
        ∀ stop, resolveColumns st export_.exportDef.inputs export_.exportDef.outputs
          constants bindings
          (List.range columnCount) = .error stop → ¬ stop.LacksArgument) ↔
      FitsAdvertised export_.exportDef := by
  have verified := executableFlatbufferVerify_export data executable accepted holds export_
    (List.mem_of_getElem? found)
  obtain ⟨constantCount, bindingCount⟩ :=
    executableFunctionInfo_ok executable function export_ info found advertised
  constructor
  · intro sufficient
    apply Classical.byContradiction
    intro unfit
    obtain ⟨stop, stopped, lacks⟩ :=
      unfit_rejected st export_.exportDef verified info constantCount bindingCount unfit
    exact sufficient _ _ (zeroes_supplied info) stop stopped lacks
  · intro fits constants bindings supplied stop stopped
    obtain ⟨before, column, isInput, after, split, resolved, failed⟩ :=
      (verified.resolveColumns_error st constants bindings stop).mp stopped
    have known : (column, isInput) ∈ dispatchOrder export_.exportDef := by
      rw [split]
      exact List.mem_append_right _ List.mem_cons_self
    by_cases used : column.wordCount = 0
    · obtain ⟨c, ok⟩ := columnResolve_unused st column isInput constants bindings used
      cases ok.symm.trans failed
    · obtain ⟨binding, ordinals⟩ := fits (column, isInput) known used
      rw [← bindingCount] at binding
      rw [← constantCount] at ordinals
      obtain ⟨base, bound⟩ := boundBuffer_supplied info constants bindings supplied column binding
      apply columnResolve_not_lacking st column isInput constants bindings base bound
        (verified.columns _ known used).two _ stop failed
      intro ordinal listed
      rw [supplied.dataLength, inSpan_words]
      exact ordinals ordinal listed

theorem functionInfo_sufficient_iff_sample :
    (∀ (constants : ConstByteSpan) (bindings : List BufferRef),
        Supplied ⟨some "read_at", 2, 1, [1, 1, 1]⟩ constants bindings →
        ∀ stop, resolveColumns .bits64 (oneColumnExport 0 1 1 2).inputs
          (oneColumnExport 0 1 1 2).outputs
          constants bindings (List.range columnCount) = .error stop → ¬ stop.LacksArgument) ↔
      FitsAdvertised (oneColumnExport 0 1 1 2) :=
  functionInfo_sufficient_iff .bits64 (oneExportData (oneColumnExport 0 1 1 2))
    (oneExportExecutable (oneColumnExport 0 1 1 2)) 0
      ⟨oneColumnExport 0 1 1 2, ⟨true, 0⟩⟩ _ rfl rfl rfl rfl

/-- An export of 65537 bindings advertises one, and names the last. -/
theorem functionInfo_insufficient :
    ¬ ∀ (st : SizeT) (data : ExecutableData) (executable : Executable) (function : BitVec 64)
        (export_ : Export) (info : FunctionInfo) (constants : ConstByteSpan)
        (bindings : List BufferRef)
        (stop : Stop),
      executableFlatbufferVerify data = .ok () → executable.Holds data →
      executable.exports[function.toNat]? = some export_ →
      executableFunctionInfo executable function = .ok info → Supplied info constants bindings →
      resolveColumns st export_.exportDef.inputs export_.exportDef.outputs constants bindings
        (List.range columnCount) = .error stop → ¬ stop.LacksArgument := by
  intro claim
  have supplied : Supplied ⟨some "read_at", 1, 1, [1, 1, 1]⟩ (zeroConstants 4) [sampleRef] := by
    refine ⟨rfl, rfl, ?_⟩
    intro ref member
    cases List.mem_singleton.mp member
    exact Option.some_ne_none _
  exact claim .bits64 (oneExportData (oneColumnExport 65536 0 65537 1))
    (oneExportExecutable (oneColumnExport 65536 0 65537 1)) 0
    ⟨oneColumnExport 65536 0 65537 1, ⟨true, 0⟩⟩ _ _ _ _ rfl rfl rfl rfl supplied rfl
    ⟨rfl, Or.inr ⟨65536, rfl⟩⟩

end Estela.Runtime
