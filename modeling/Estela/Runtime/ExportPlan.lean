import Estela.Runtime.JobAccounting
import Estela.Runtime.KernelJobs

set_option autoImplicit false

/- The words an export goes through, in exact integers, against those of the job
the driver makes of it. -/
namespace Estela.Runtime.KernelJobs

open CallProgram Coherence
open Streaming (Plan)

/-- The word a column starts at: none where its binding is not STRELA memory. -/
def place (column : ColumnDef) (constants : ConstByteSpan) (bindings : List BufferRef) :
    Option Word := do
  let ref ← bindings[column.binding.toNat]?
  let base ← ref.buffer
  match base.allocated with
  | .foreign => none
  | .strela buffer => some ((boundStart buffer base ref + columnByteOffset column constants) / 4)

/-- The words a column goes through from its place on. -/
def columnWords (isInput : Bool) (constants : ConstByteSpan) (bindings : List BufferRef)
    (column : ColumnDef) : List Word :=
  match place column constants bindings with
  | none => []
  | some start => (List.range column.wordCount.toNat).map fun k =>
      start + if isInput then k * column.stride.toNat else k

/-- What a dispatch of an export is to go through. -/
def exportPlan (exportDef : ExportDef) (constants : ConstByteSpan) (bindings : List BufferRef) :
    Plan Word Nat Nat where
  reads i := ((exportDef.inputs.take columnCount)[i]?).elim [] (columnWords true constants bindings)
  writes o := ((exportDef.outputs.take columnCount)[o]?).elim []
    (columnWords false constants bindings)

theorem columnResolve_wordCount (st : SizeT) (column : ColumnDef) (isInput : Bool)
    (constants : ConstByteSpan) (bindings : List BufferRef) (c : Column)
    (resolved : columnResolve st column isInput constants bindings = .ok c) :
    c.wordCount = column.wordCount.toNat := by
  unfold columnResolve at resolved
  simp only [bind, Except.bind, pure, Except.pure, makeStatus] at resolved
  generalize (if isInput then column.stride.toNat else 0) = stride at resolved
  repeat' split at resolved
  all_goals cases resolved
  all_goals rfl

/-- A column the driver accepts goes through the words it is meant to. -/
theorem columnWords_resolved (st : SizeT) (column : ColumnDef) (isInput : Bool)
    (constants : ConstByteSpan) (bindings : List BufferRef) (c : Column)
    (resolved : columnResolve st column isInput constants bindings = .ok c)
    (valid : ∀ ref ∈ bindings, ref.Valid st) (fits : Fits st isInput constants column) :
    columnWords isInput constants bindings column =
      (List.range c.wordCount).map (c.word isInput) := by
  have count := columnResolve_wordCount st column isInput constants bindings c resolved
  cases used : c.buffer with
  | none =>
      have empty := columnResolve_buffer st column isInput constants bindings c resolved used
      unfold columnWords
      rw [← count, empty]
      cases place column constants bindings <;> rfl
  | some buffer =>
      obtain ⟨ref, base, byteOffset, spec⟩ :=
        columnResolve_spec st column isInput constants bindings c buffer resolved used
      have refValid := valid ref (List.mem_of_getElem? spec.bound)
      have start := (spec.inBounds refValid (fits spec.used)).start
      have exact_ : (boundStart buffer base ref + columnByteOffset column constants) / 4 =
          c.wordsFromBase := by
        rw [start, boundStart]
        omega
      have here : place column constants bindings = some c.wordsFromBase := by
        simp only [place, spec.bound, spec.present, spec.strela, Option.bind_eq_bind,
          Option.bind_some, exact_]
      have stride := spec.stride
      simp only [columnWords, here, ← count]
      refine List.map_congr_left fun k _ => ?_
      cases isInput with
      | true =>
          simp only [↓reduceIte] at stride
          simp only [Column.word, ↓reduceIte, stride]
      | false => rfl

/-- The job the driver makes of an export goes through the words the export is to. -/
theorem plan_strelaConf (st : SizeT) (exportDef : ExportDef) (constants : ConstByteSpan)
    (bindings : List BufferRef) (columns : List (Column × Column))
    (resolved : resolveColumns st exportDef.inputs exportDef.outputs constants bindings
      (List.range columnCount) = .ok columns)
    (valid : ∀ ref ∈ bindings, ref.Valid st)
    (inputs : ∀ column ∈ exportDef.inputs, Fits st true constants column)
    (outputs : ∀ column ∈ exportDef.outputs, Fits st false constants column) :
    plan (strelaConf columns) = exportPlan exportDef constants bindings := by
  obtain ⟨count, each⟩ := Jobs.resolveColumns_range st exportDef constants bindings columns resolved
  have past (c : Nat) (late : columnCount ≤ c) : columns[c]? = none :=
    List.getElem?_eq_none (by omega)
  unfold plan exportPlan
  congr 1
  · funext i
    by_cases inside : i < columnCount
    · obtain ⟨input, output, there, ⟨column, known, made⟩, -⟩ := each i inside
      have words := columnWords_resolved st column true constants bindings input made valid
        (inputs column (List.mem_of_getElem? known))
      simp only [strelaConf, List.getElem?_map, there, Option.map_some, List.getElem?_take, inside,
        ↓reduceIte, known, Option.elim_some, words]
      rfl
    · have beyond := past i (by omega)
      simp only [strelaConf, List.getElem?_map, beyond, Option.map_none, List.getElem?_take, inside,
        ↓reduceIte, Option.elim_none]
  · funext o
    by_cases inside : o < columnCount
    · obtain ⟨input, output, there, -, ⟨column, known, made⟩⟩ := each o inside
      have words := columnWords_resolved st column false constants bindings output made valid
        (outputs column (List.mem_of_getElem? known))
      simp only [strelaConf, List.getElem?_map, there, Option.map_some, List.getElem?_take, inside,
        ↓reduceIte, known, Option.elim_some, words]
      rfl
    · have beyond := past o (by omega)
      simp only [strelaConf, List.getElem?_map, beyond, Option.map_none, List.getElem?_take, inside,
        ↓reduceIte, Option.elim_none]

end Estela.Runtime.KernelJobs
