import QuantDataCenter.Pipeline.BatchDelivery
import QuantDataCenter.Storage.MetadataUpsert

/-!
What pipelines record about their tasks, over any batches and flushes, and the
status row that is left of it: the stored row is the one recorded last, with the
date of a success and without a date otherwise.
-/

set_option autoImplicit false
set_option relaxedAutoImplicit false

namespace QuantDataCenter.Pipeline

open QuantDataCenter.Lib
open QuantDataCenter.Lib.Keyed
open QuantDataCenter.Tabular
open QuantDataCenter.Storage.Metadata

/-! Records -/

inductive Outcome where
  | success (rowCount : ℕ) (outputPath lastSuccessDate : Option String)
  | failure (errorStack : String) (outputPath : Option String)
  | skipped (status reason : String)
  deriving DecidableEq, Repr

/-- A call of `record_success`, `record_failure` or `record_skipped`. -/
structure Recorded where
  task : LifecycleTaskRef
  moment : Moment
  outcome : Outcome

namespace Recorded

variable (call : Recorded)

def rows : LifecycleRows Cell :=
  match call.outcome with
  | .success rowCount outputPath lastSuccessDate =>
    successRows call.task call.moment rowCount outputPath lastSuccessDate
  | .failure errorStack outputPath => failureRows call.task call.moment errorStack outputPath
  | .skipped status reason => skippedRows call.task status call.moment reason

def key : String × String := (call.task.dataset, call.task.code)

/-- The date that a success is recorded with. -/
def date : Option String :=
  match call.outcome with
  | .success _ _ lastSuccessDate => (present lastSuccessDate).or call.task.endDate
  | _ => none

def rowCount : ℕ :=
  match call.outcome with
  | .success rowCount _ _ => rowCount
  | _ => 0

def status : String :=
  match call.outcome with
  | .success _ _ _ => "success"
  | .failure _ _ => "failed"
  | .skipped status _ => status

def errorStack : String :=
  match call.outcome with
  | .success _ _ _ => ""
  | .failure errorStack _ => errorStack
  | .skipped _ reason => reason

def toStatusRow : MetadataRow Cell :=
  statusRow call.moment call.task.dataset call.task.code call.date call.rowCount call.status call.errorStack

private theorem rows_statusRow : call.rows.statusRow = some call.toStatusRow := by
  unfold rows toStatusRow date rowCount status errorStack
  cases call.outcome <;> rfl

private theorem level_rows : call.rows.toRows.Level := by
  have hall : ∀ kind, call.rows.toRows.of kind ≠ [] := by
    intro kind
    unfold rows
    cases call.outcome <;> cases kind <;> simp [LifecycleRows.toRows, MetadataRows.of, successRows,
      failureRows, skippedRows]
  exact fun kind _ hnil => absurd hnil (hall kind)

end Recorded

/-! Batches and flushes -/

/-- Batches with the metadata tables. What was recorded in a batch and waits, and what was
written with its batch, is remembered in order. -/
structure Stream (B : Type*) where
  batches : B → MetadataRows Cell
  tables : Tables
  waiting : B → List Recorded
  written : List (B × Recorded)

/-- A batch can be given up with the process that holds it. -/
inductive StreamEvent (B : Type*) where
  | record (batch : B) (call : Recorded)
  | flush (batch : B) (conditions : Conditions)
  | giveUp (batch : B)

section Stream

variable {B : Type*} [DecidableEq B]

def Stream.initial (tables : Tables) : Stream B := ⟨fun _ => .empty, tables, fun _ => [], []⟩

def persistSnapshot (r : SeriesReader) (rows : MetadataRows Cell) (conditions : Conditions)
    (tables : Tables) : Bool × Tables :=
  persistUpdateMetadata r (rows.runRows.map frameRow) (rows.statusRows.map frameRow)
    (rows.checkpointRows.map frameRow) conditions tables

/-- One call, or the flush of a batch; rows of a flush that raises go back into the batch. -/
def Stream.next (r : SeriesReader) (countBy : B → CountBy) (s : Stream B) : StreamEvent B → Stream B
  | .record batch call => { s with
      batches := Function.update s.batches batch ((s.batches batch).append call.rows.toRows)
      waiting := Function.update s.waiting batch (s.waiting batch ++ [call]) }
  | .flush batch conditions =>
    if pendingCount (countBy batch) (s.batches batch) = 0 then s
    else
      let rows := snapshot (s.batches batch)
      let result := persistSnapshot r rows conditions s.tables
      if result.1 then
        { batches := Function.update s.batches batch .empty
          tables := result.2
          waiting := Function.update s.waiting batch []
          written := s.written ++ (s.waiting batch).map fun call => (batch, call) }
      else { s with batches := Function.update s.batches batch (rows.append .empty) }
  | .giveUp batch => { s with
      batches := Function.update s.batches batch .empty
      waiting := Function.update s.waiting batch [] }

def Stream.run (r : SeriesReader) (countBy : B → CountBy) (tables : Tables)
    (events : List (StreamEvent B)) : Stream B :=
  events.foldl (Stream.next r countBy) (Stream.initial tables)

end Stream

/-! Status rows on their way into the table -/

/-- The reader takes each known date for its day, whatever stands beside it, and a column of
timestamps as it is. -/
structure ReadsDates (r : SeriesReader) (dayOf : String → Option Int) : Prop where
  present : ∀ s, (dayOf s).isSome = true → s ∉ nullLikeValues
  series : ∀ dates : List (Option String), (∀ s, some s ∈ dates → (dayOf s).isSome = true) →
    r.toDatetimeSeries (dates.map optionalText) =
      dates.map fun date => (date.bind dayOf).map (· * nsPerDay)
  times : ∀ times : List Int, r.toDatetimeSeries (times.map Cell.stamp) = times.map some

def Recorded.Dated (dayOf : String → Option Int) (call : Recorded) : Prop :=
  ∀ s, call.date = some s → (dayOf s).isSome = true

def statusColumns : List String := fieldNames datasetUpdateStatusSchema

/-- The row that is left of a call. -/
def Recorded.storedCells (dayOf : String → Option Int) (call : Recorded) : List Cell :=
  [.text call.task.dataset, .text call.task.code,
    ((call.date.bind dayOf).map Cell.date).getD .null, .int call.rowCount, .text call.status,
    .stamp (call.moment.updatedAt / nsPerMs * nsPerMs), .text call.errorStack]

section Clean

variable {r : SeriesReader} {schema : Schema} {frame : Frame} {incoming : List Row}

private theorem get_of_mapM {f : Field → Except StoreError (String × List Cell)} {field : Field}
    {columns : List (String × List Cell)}
    (hname : ∀ field column, f field = .ok column → column.1 = field.name)
    (hnodup : (fieldNames schema).Nodup) (hfield : field ∈ schema) (h : schema.mapM f = .ok columns) :
    ∃ column, f field = .ok column ∧ Dict.get field.name columns = some column.2 := by
  induction schema generalizing columns with
  | nil => cases hfield
  | cons first schema ih =>
    rw [List.mapM_cons] at h
    obtain ⟨column, hcolumn, hrest⟩ := Checked.bind_eq_ok.mp h
    obtain ⟨later, hlater, hcons⟩ := Checked.bind_eq_ok.mp hrest
    obtain ⟨hnot, hnodup'⟩ := List.nodup_cons.mp hnodup
    rw [← Except.ok.inj hcons]
    rcases List.mem_cons.mp hfield with rfl | hmem
    · exact ⟨column, hcolumn, by simp [Dict.get, hname _ _ hcolumn]⟩
    · have hne : column.1 ≠ field.name := by
        rw [hname _ _ hcolumn]
        exact fun heq => hnot (heq ▸ List.mem_map_of_mem hmem)
      obtain ⟨column', hcolumn', hget⟩ := ih hnodup' hmem hlater
      exact ⟨column', hcolumn', by simp [Dict.get, hne, hget]⟩

private theorem column_of_clean {field : Field} {cells : List Cell}
    (hnodup : (fieldNames schema).Nodup)
    (h : cleanDataframeForSchema r frame schema = .ok incoming) (hfield : field ∈ schema)
    (hcolumn : field.name ∈ frame.columns)
    (hcells : ∀ coerced, coerceSeries r (frame.dtype field.name) field.type
      (frame.rows.map fun row => row field.name) = .ok coerced → coerced = cells)
    (hlength : cells.length = frame.rows.length) :
    incoming.map (fun row => row field.name) = cells := by
  unfold cleanDataframeForSchema at h
  obtain ⟨columns, hcolumns, hrows⟩ := Checked.bind_eq_ok.mp h
  obtain ⟨column, hf, hget⟩ := get_of_mapM (fun other column hother => by
    simp only at hother
    split at hother
    all_goals
      obtain ⟨cells', -, hpair⟩ := Checked.bind_eq_ok.mp hother
      rw [← Except.ok.inj hpair]) hnodup hfield hcolumns
  simp only [if_pos hcolumn] at hf
  obtain ⟨coerced, hcoerced, hpair⟩ := Checked.bind_eq_ok.mp hf
  have hcolumn' : (field.name, cells) = column := by
    rw [← hcells coerced hcoerced]
    exact Except.ok.inj hpair
  rw [← hcolumn'] at hget
  rw [← Except.ok.inj hrows]
  refine List.ext_getElem (by simp [hlength]) fun i hi hi' => ?_
  simp [hget, hi']

private theorem length_of_clean (h : cleanDataframeForSchema r frame schema = .ok incoming) :
    incoming.length = frame.rows.length := by
  unfold cleanDataframeForSchema at h
  obtain ⟨columns, -, hrows⟩ := Checked.bind_eq_ok.mp h
  rw [← Except.ok.inj hrows]
  simp

variable {dayOf : String → Option Int} {calls : List Recorded}

private theorem text_column (field : String) (text : Recorded → String)
    (h : ∀ call : Recorded, frameRow call.toStatusRow field = .text (text call)) :
    coerceSeries r .object .string
      ((calls.map fun call => frameRow call.toStatusRow).map fun row => row field) =
        .ok (calls.map fun call => .text (text call)) := by
  have hcells : (calls.map fun call => frameRow call.toStatusRow).map (fun row => row field) =
      calls.map fun call => Cell.text (text call) := by
    rw [List.map_map]
    exact List.map_congr_left fun call _ => h call
  rw [hcells]
  unfold coerceSeries
  simp only [List.map_map]
  rfl

private theorem date_column (hreads : ReadsDates r dayOf)
    (hdated : ∀ call ∈ calls, call.Dated dayOf) :
    coerceSeries r .object .date32
      ((calls.map fun call => frameRow call.toStatusRow).map fun row => row "last_success_date") =
        .ok (calls.map fun call => ((call.date.bind dayOf).map Cell.date).getD .null) := by
  have hcells : ((calls.map fun call => frameRow call.toStatusRow).map
      fun row => row "last_success_date").map (replaceNullLike .object) =
        (calls.map Recorded.date).map optionalText := by
    rw [List.map_map, List.map_map, List.map_map]
    refine List.map_congr_left fun call hcall => ?_
    show replaceNullLike .object (optionalText call.date) = optionalText call.date
    cases hdate : call.date with
    | none => rfl
    | some s => exact if_neg (hreads.present s (hdated call hcall s hdate))
  have hknown : ∀ s, some s ∈ calls.map Recorded.date → (dayOf s).isSome = true := by
    intro s hs
    obtain ⟨call, hcall, hdate⟩ := List.mem_map.mp hs
    exact hdated call hcall s hdate
  unfold coerceSeries
  simp only
  rw [hcells, hreads.series _ hknown, List.map_map, List.map_map]
  congr 1
  refine List.map_congr_left fun call _ => ?_
  simp only [Function.comp_apply]
  cases call.date.bind dayOf with
  | none => rfl
  | some day =>
    show Cell.date (day * nsPerDay / nsPerDay) = .date day
    rw [Int.mul_ediv_cancel day (by decide)]

private theorem count_column {cells : List Cell}
    (h : coerceSeries r .object .int64
      ((calls.map fun call => frameRow call.toStatusRow).map fun row => row "row_count") = .ok cells) :
    cells = calls.map fun call => .int call.rowCount := by
  induction calls generalizing cells with
  | nil => exact (Except.ok.inj h).symm
  | cons call calls ih =>
    unfold coerceSeries at h ih
    simp only [List.map_cons, List.mapM_cons] at h ih
    obtain ⟨cell, hcell, hrest⟩ := Checked.bind_eq_ok.mp h
    obtain ⟨later, hlater, hcons⟩ := Checked.bind_eq_ok.mp hrest
    have hvalue : replaceNullLike .object (frameRow call.toStatusRow "row_count") =
        .int call.rowCount := rfl
    have hcount : castInt64 (((call.rowCount : ℤ) : ℚ)) = .ok cell := by
      simp only [hvalue, r.toNumeric_int] at hcell
      exact hcell
    have hint : cell = .int call.rowCount := by
      unfold castInt64 at hcount
      split at hcount
      · rw [← Except.ok.inj hcount, Rat.num_intCast]
      · cases hcount
    rw [← Except.ok.inj hcons, hint, ih hlater, List.map_cons]

private theorem time_column (hreads : ReadsDates r dayOf) :
    coerceSeries r .object .timestamp
      ((calls.map fun call => frameRow call.toStatusRow).map fun row => row "updated_at") =
        .ok (calls.map fun call => .stamp (call.moment.updatedAt / nsPerMs * nsPerMs)) := by
  have hcells : ((calls.map fun call => frameRow call.toStatusRow).map
      fun row => row "updated_at").map (replaceNullLike .object) =
        (calls.map fun call => call.moment.updatedAt).map Cell.stamp := by
    rw [List.map_map, List.map_map, List.map_map]
    exact List.map_congr_left fun _ _ => rfl
  unfold coerceSeries
  simp only
  rw [hcells, hreads.times, List.map_map, List.map_map]
  rfl

private theorem cleaned_statusRows (hreads : ReadsDates r dayOf)
    (hdated : ∀ call ∈ calls, call.Dated dayOf)
    (h : cleanDataframeForSchema r (dataFrame datasetUpdateStatusSchema
      (calls.map fun call => frameRow call.toStatusRow)) datasetUpdateStatusSchema = .ok incoming) :
    incoming.map (rowKey statusColumns) = calls.map (Recorded.storedCells dayOf) := by
  have hnodup : (fieldNames datasetUpdateStatusSchema).Nodup := by decide
  have htext : ∀ (field : Field) (text : Recorded → String), field ∈ datasetUpdateStatusSchema →
      field.type = .string → (∀ call : Recorded, frameRow call.toStatusRow field.name = .text (text call)) →
      incoming.map (fun row => row field.name) = calls.map fun call => .text (text call) := by
    intro field text hfield htype hcells
    refine column_of_clean hnodup h hfield (List.mem_map_of_mem hfield) (fun coerced hcoerced => ?_)
      (by simp [dataFrame])
    rw [htype] at hcoerced
    exact Except.ok.inj (hcoerced.symm.trans (text_column field.name text hcells))
  have hfield : (⟨"last_success_date", .date32⟩ : Field) ∈ datasetUpdateStatusSchema := by decide
  have hdate : incoming.map (fun row => row "last_success_date") =
      calls.map fun call => ((call.date.bind dayOf).map Cell.date).getD .null :=
    column_of_clean hnodup h hfield (List.mem_map_of_mem hfield)
      (fun _ hcoerced => Except.ok.inj (hcoerced.symm.trans (date_column hreads hdated)))
      (by simp [dataFrame])
  have hcountField : (⟨"row_count", .int64⟩ : Field) ∈ datasetUpdateStatusSchema := by decide
  have hcount : incoming.map (fun row => row "row_count") =
      calls.map fun call => .int call.rowCount :=
    column_of_clean hnodup h hcountField (List.mem_map_of_mem hcountField)
      (fun _ hcoerced => count_column hcoerced) (by simp [dataFrame])
  have htimeField : (⟨"updated_at", .timestamp⟩ : Field) ∈ datasetUpdateStatusSchema := by decide
  have htime : incoming.map (fun row => row "updated_at") =
      calls.map fun call => .stamp (call.moment.updatedAt / nsPerMs * nsPerMs) :=
    column_of_clean hnodup h htimeField (List.mem_map_of_mem htimeField)
      (fun _ hcoerced => Except.ok.inj (hcoerced.symm.trans (time_column hreads)))
      (by simp [dataFrame])
  have hdataset := htext ⟨"dataset", .string⟩ (·.task.dataset) (by decide) rfl fun _ => rfl
  have hcode := htext ⟨"code", .string⟩ (·.task.code) (by decide) rfl fun _ => rfl
  have hstatus := htext ⟨"status", .string⟩ Recorded.status (by decide) rfl fun _ => rfl
  have herror := htext ⟨"error_stack", .string⟩ Recorded.errorStack (by decide) rfl fun _ => rfl
  have hlength : incoming.length = calls.length := by
    rw [length_of_clean h]
    simp [dataFrame]
  refine List.ext_getElem (by simp [hlength]) fun i hi hi' => ?_
  have hi₁ : i < incoming.length := by simpa using hi
  have hi₂ : i < calls.length := by simpa using hi'
  have hcell : ∀ {column : String} {cell : Recorded → Cell},
      incoming.map (fun row => row column) = calls.map cell → incoming[i] column = cell calls[i] := by
    intro column cell heq
    have hget := List.getElem_of_eq heq (by simpa using hi₁ : i < (incoming.map fun row => row column).length)
    simpa using hget
  simp only [List.getElem_map, rowKey, statusColumns, fieldNames, datasetUpdateStatusSchema,
    List.map_cons, List.map_nil, Recorded.storedCells, hcell hdataset, hcell hcode, hcell hdate,
    hcell hcount, hcell hstatus, hcell htime, hcell herror]

end Clean

/-! What a flush leaves -/

section Flush

variable {r : SeriesReader} {dayOf : String → Option Int}

/-- The key of a call as the table spells it. -/
def tableKey (key : String × String) : List Cell := [.text key.1, .text key.2]

def storedStatus (tables : Tables) (key : String × String) : List (List Cell) :=
  ((tables.keyed .datasetUpdateStatus).filter fun row =>
    rowKey KeyedTable.datasetUpdateStatus.keyColumns row = tableKey key).map (rowKey statusColumns)

private theorem tableKey_injective : Function.Injective tableKey := by
  rintro ⟨dataset, code⟩ ⟨dataset', code'⟩ h
  simpa [tableKey] using h

/-- The rows of a batch are those of calls, with the last call of each key that waits. -/
structure Carries (dayOf : String → Option Int) (batch : MetadataRows Cell) (waiting : List Recorded) :
    Prop where
  level : batch.Level
  calls : ∃ calls : List Recorded, batch.statusRows = calls.map Recorded.toStatusRow ∧
    (∀ call ∈ calls, call.Dated dayOf) ∧
    ∀ key, lastOf Recorded.key key calls = lastOf Recorded.key key waiting

private theorem carries_empty : Carries dayOf .empty [] :=
  ⟨level_empty, [], rfl, fun _ h => (by cases h), fun _ => rfl⟩

theorem Carries.record {batch : MetadataRows Cell} {waiting : List Recorded} {call : Recorded}
    (h : Carries dayOf batch waiting) (hdated : call.Dated dayOf) :
    Carries dayOf (batch.append call.rows.toRows) (waiting ++ [call]) := by
  obtain ⟨hlevel, calls, hrows, hcalls, hlast⟩ := h
  refine ⟨level_append hlevel call.level_rows, calls ++ [call], ?_, ?_, fun key => ?_⟩
  · show batch.statusRows ++ call.rows.statusRow.toList = _
    rw [hrows, call.rows_statusRow, List.map_append]
    rfl
  · intro call' hmem
    rcases List.mem_append.mp hmem with hold | hnew
    · exact hcalls call' hold
    · rw [List.mem_singleton.mp hnew]
      exact hdated
  · rw [lastOf_append, lastOf_append, hlast]

private theorem keyOf_toStatusRow (call : Recorded) :
    keyOf statusKeyFields call.toStatusRow = (tableKey call.key).map some := rfl

private theorem snapshot_statusRows {batch : MetadataRows Cell} {calls : List Recorded}
    (hrows : batch.statusRows = calls.map Recorded.toStatusRow) :
    (snapshot batch).statusRows = (lastByKey Recorded.key calls).map Recorded.toStatusRow := by
  have hkeys : Function.Injective fun key => (tableKey key).map some := fun key key' heq =>
    tableKey_injective (List.map_injective_iff.mpr (Option.some_injective _) heq)
  show dedupeRows batch.statusRows statusKeyFields = _
  rw [dedupeRows_eq, hrows]
  exact lastByKey_map hkeys keyOf_toStatusRow calls

theorem Carries.snapshot {batch : MetadataRows Cell} {waiting : List Recorded}
    (h : Carries dayOf batch waiting) :
    Carries dayOf ((Pipeline.snapshot batch).append .empty) waiting := by
  obtain ⟨hlevel, calls, hrows, hcalls, hlast⟩ := h
  refine ⟨level_append (level_snapshot hlevel) level_empty, lastByKey Recorded.key calls, ?_, ?_,
    fun key => ?_⟩
  · show (Pipeline.snapshot batch).statusRows ++ [] = _
    rw [List.append_nil, snapshot_statusRows hrows]
  · exact fun call hcall => hcalls call (lastByKey_subset _ _ hcall)
  · rw [lastOf_lastByKey, hlast]

private theorem persist_statuses {runRows statusRows checkpointRows : List Row}
    {conditions : Conditions}
    {tables : Tables} (hne : statusRows ≠ [])
    (h : (persistUpdateMetadata r runRows statusRows checkpointRows conditions tables).1 = true) :
    ∃ incoming, cleanDataframeForSchema r (dataFrame datasetUpdateStatusSchema statusRows)
        datasetUpdateStatusSchema = .ok incoming ∧
      (persistUpdateMetadata r runRows statusRows checkpointRows conditions tables).2.keyed
          .datasetUpdateStatus =
        upsertRows KeyedTable.datasetUpdateStatus.keyColumns (tables.keyed .datasetUpdateStatus)
          incoming := by
  obtain ⟨incoming, hincoming⟩ : ∃ incoming, cleanDataframeForSchema r
      (dataFrame datasetUpdateStatusSchema statusRows) datasetUpdateStatusSchema = .ok incoming := by
    unfold persistUpdateMetadata at h
    simp only [if_neg hne] at h
    split at h
    · rename_i statuses _ _ hstatuses _
      exact ⟨_, hstatuses⟩
    · cases h
  have hcleaned : cleaned r .datasetUpdateStatus (dataFrame datasetUpdateStatusSchema statusRows) =
      incoming := cleaned_of_ok hincoming
  refine ⟨incoming, hincoming, ?_⟩
  rw [(persist_spec r conditions tables runRows statusRows checkpointRows).2 h,
    Function.update_of_ne (by decide), Function.update_self, hcleaned]

private theorem cleaned_nil :
    cleaned r .datasetUpdateStatus (dataFrame datasetUpdateStatusSchema []) = [] := by
  unfold cleaned
  split
  · rename_i rows hrows
    exact clean_nil rfl hrows
  · rfl

private theorem filter_cleaned {incoming : List Row} {kept : List Recorded}
    (hview : incoming.map (rowKey statusColumns) = kept.map (Recorded.storedCells dayOf))
    (hnodup : (kept.map Recorded.key).Nodup) (key : String × String) :
    (tableKey key ∈ incoming.map (rowKey KeyedTable.datasetUpdateStatus.keyColumns) ↔
      key ∈ kept.map Recorded.key) ∧
    (incoming.filter fun row =>
        rowKey KeyedTable.datasetUpdateStatus.keyColumns row = tableKey key).map (rowKey statusColumns) =
      (lastOf Recorded.key key kept).toList.map (Recorded.storedCells dayOf) := by
  -- the key columns are the first two of the stored cells
  have hkeys : incoming.map (rowKey KeyedTable.datasetUpdateStatus.keyColumns) =
      kept.map fun call => tableKey call.key := by
    have hmap := congrArg (List.map (List.take 2)) hview
    rw [List.map_map, List.map_map] at hmap
    exact hmap
  constructor
  · rw [hkeys, List.mem_map, List.mem_map]
    exact exists_congr fun call => and_congr_right fun _ => tableKey_injective.eq_iff
  · have hfilter : (incoming.filter fun row =>
        rowKey KeyedTable.datasetUpdateStatus.keyColumns row = tableKey key).map (rowKey statusColumns) =
          (incoming.map (rowKey statusColumns)).filter fun cells => cells.take 2 = tableKey key := by
      rw [List.filter_map]
      rfl
    rw [← filter_key_eq_lastOf hnodup, hfilter, hview, List.filter_map]
    congr 1
    refine List.filter_congr fun call _ => ?_
    show decide (tableKey call.key = tableKey key) = decide (call.key = key)
    exact decide_eq_decide.mpr tableKey_injective.eq_iff

/-- The step lemma: a flush that returns leaves the last call of each of its keys. -/
private theorem storedStatus_flush {batch : MetadataRows Cell} {waiting : List Recorded}
    {conditions : Conditions} {tables : Tables} (hreads : ReadsDates r dayOf)
    (hcarries : Carries dayOf batch waiting)
    (h : (persistSnapshot r (snapshot batch) conditions tables).1 = true) (key : String × String) :
    storedStatus (persistSnapshot r (snapshot batch) conditions tables).2 key =
      match lastOf Recorded.key key waiting with
      | some call => [call.storedCells dayOf]
      | none => storedStatus tables key := by
  obtain ⟨-, calls, hrows, hcalls, hlast⟩ := hcarries
  rw [← hlast key, ← lastOf_lastByKey]
  have hnodup : ((lastByKey Recorded.key calls).map Recorded.key).Nodup := nodup_lastByKey calls
  have hdated : ∀ call ∈ lastByKey Recorded.key calls, call.Dated dayOf := fun call hcall =>
    hcalls call (lastByKey_subset _ _ hcall)
  have hframe : (snapshot batch).statusRows.map frameRow =
      (lastByKey Recorded.key calls).map fun call => frameRow call.toStatusRow := by
    rw [snapshot_statusRows hrows, List.map_map]
    rfl
  revert hnodup hdated hframe
  generalize lastByKey Recorded.key calls = kept
  intro hnodup hdated hframe
  unfold storedStatus
  unfold persistSnapshot at h ⊢
  by_cases hnil : kept = []
  · rw [(persist_spec r conditions tables _ _ _).2 h, Function.update_of_ne (by decide),
      Function.update_self, hframe, hnil, List.map_nil, cleaned_nil, upsertRows_nil]
    rfl
  · obtain ⟨incoming, hincoming, hkeyed⟩ := persist_statuses (by simp [hframe, hnil]) h
    rw [hframe] at hincoming
    obtain ⟨hmem, hfilter⟩ := filter_cleaned (cleaned_statusRows hreads hdated hincoming) hnodup key
    rw [hkeyed, filter_upsertRows, List.map_append, hfilter]
    cases hkept : lastOf Recorded.key key kept with
    | none =>
      rw [if_neg fun hboth => lastOf_eq_none.mp hkept (hmem.mp hboth.2), Option.toList_none,
        List.map_nil, List.append_nil]
    | some call =>
      have hin : key ∈ kept.map Recorded.key := by
        obtain ⟨hcall, rfl⟩ := mem_of_lastOf hkept
        exact List.mem_map_of_mem hcall
      rw [if_pos ⟨by simp [tableKey], hmem.mpr hin⟩]
      rfl

end Flush

/-! Runs -/

section Runs

variable {B : Type*} [DecidableEq B] {r : SeriesReader} {dayOf : String → Option Int}
  {countBy : B → CountBy} {tables : Tables} {s : Stream B} {events : List (StreamEvent B)}

/-- The status rows of a key: of the last call that was written, or as they were. -/
def lastStatus (dayOf : String → Option Int) (tables : Tables) (written : List Recorded)
    (key : String × String) : List (List Cell) :=
  match lastOf Recorded.key key written with
  | some call => [call.storedCells dayOf]
  | none => storedStatus tables key

structure Holds (dayOf : String → Option Int) (tables : Tables) (s : Stream B) : Prop where
  batches : ∀ batch, Carries dayOf (s.batches batch) (s.waiting batch)
  stored : ∀ key, storedStatus s.tables key = lastStatus dayOf tables (s.written.map Prod.snd) key

def StreamEvent.Dated (dayOf : String → Option Int) : StreamEvent B → Prop
  | .record _ call => call.Dated dayOf
  | _ => True

private theorem carries_update (batch : B) {rows : MetadataRows Cell} {waiting : List Recorded}
    (h : ∀ batch, Carries dayOf (s.batches batch) (s.waiting batch)) (hnew : Carries dayOf rows waiting)
    (other : B) : Carries dayOf (Function.update s.batches batch rows other)
      (Function.update s.waiting batch waiting other) := by
  by_cases heq : other = batch
  · rw [heq, Function.update_self, Function.update_self]
    exact hnew
  · rw [Function.update_of_ne heq, Function.update_of_ne heq]
    exact h other

theorem Holds.next (hreads : ReadsDates r dayOf) (h : Holds dayOf tables s) {event : StreamEvent B}
    (hdated : event.Dated dayOf) : Holds dayOf tables (s.next r countBy event) := by
  cases event with
  | record batch call =>
    exact ⟨carries_update batch h.batches ((h.batches batch).record hdated), h.stored⟩
  | giveUp batch => exact ⟨carries_update batch h.batches carries_empty, h.stored⟩
  | flush batch conditions =>
    unfold Stream.next
    simp only
    split
    · exact h
    · split
      case isTrue hreturned =>
        refine ⟨carries_update batch h.batches carries_empty, fun key => ?_⟩
        rw [storedStatus_flush hreads (h.batches batch) hreturned, h.stored key]
        unfold lastStatus
        rw [List.map_append, List.map_map, lastOf_append]
        show _ = match (lastOf Recorded.key key ((s.waiting batch).map id)).or _ with
          | some call => [call.storedCells dayOf]
          | none => storedStatus tables key
        rw [List.map_id]
        cases lastOf Recorded.key key (s.waiting batch) <;> rfl
      case isFalse =>
        refine ⟨fun other => ?_, h.stored⟩
        have hsame : Function.update s.waiting batch (s.waiting batch) = s.waiting :=
          Function.update_eq_self batch s.waiting
        have hcarries := carries_update batch h.batches (h.batches batch).snapshot other
        rwa [hsame] at hcarries

theorem Holds.foldl (hreads : ReadsDates r dayOf) (h : Holds dayOf tables s)
    (hdated : ∀ event ∈ events, event.Dated dayOf) :
    Holds dayOf tables (events.foldl (Stream.next r countBy) s) := by
  induction events generalizing s with
  | nil => exact h
  | cons event events ih =>
    exact ih (h.next hreads (hdated event List.mem_cons_self)) fun later hlater =>
      hdated later (List.mem_cons_of_mem _ hlater)

private theorem holds_run (hreads : ReadsDates r dayOf)
    (hdated : ∀ event ∈ events, event.Dated dayOf) :
    Holds dayOf tables (Stream.run r countBy tables events) :=
  Holds.foldl hreads ⟨fun _ => carries_empty, fun _ => rfl⟩ hdated

def recordedIn (batch : B) (events : List (StreamEvent B)) : List Recorded :=
  events.flatMap fun
    | .record other call => if other = batch then [call] else []
    | _ => []

def Stream.writtenIn (s : Stream B) (batch : B) : List Recorded :=
  (s.written.filter fun entry => entry.1 = batch).map Prod.snd

/-- Unless a batch is given up, its calls are written in order, but for those that wait. -/
private theorem written_append_waiting {batch : B}
    (hkept : ∀ event ∈ events, event ≠ .giveUp batch) :
    let t := events.foldl (Stream.next r countBy) s
    t.writtenIn batch ++ t.waiting batch = s.writtenIn batch ++ s.waiting batch ++ recordedIn batch events := by
  induction events generalizing s with
  | nil => exact (List.append_nil _).symm
  | cons event events ih =>
    intro t
    have hlater := ih (s := s.next r countBy event) fun later hlater =>
      hkept later (List.mem_cons_of_mem _ hlater)
    have hcons : recordedIn batch (event :: events) =
        recordedIn batch [event] ++ recordedIn batch events := by
      simp [recordedIn]
    rw [hcons, ← List.append_assoc]
    refine hlater.trans (congrArg (· ++ _) ?_)
    have hnot := hkept event List.mem_cons_self
    cases event with
    | record other call =>
      show s.writtenIn batch ++ Function.update s.waiting other (s.waiting other ++ [call]) batch = _
      by_cases heq : batch = other
      · subst heq
        simp [recordedIn]
      · simp [recordedIn, Function.update_of_ne heq, Ne.symm heq]
    | giveUp other =>
      have hne : batch ≠ other := fun heq => hnot (by rw [heq])
      show s.writtenIn batch ++ Function.update s.waiting other [] batch = _
      rw [Function.update_of_ne hne]
      simp [recordedIn]
    | flush other conditions =>
      rw [show recordedIn batch [StreamEvent.flush other conditions] = [] from rfl, List.append_nil]
      unfold Stream.next
      simp only
      split
      · rfl
      · split
        · by_cases heq : batch = other
          · subst heq
            simp [Stream.writtenIn, List.filter_append, List.filter_map, Function.comp_def]
          · simp [Stream.writtenIn, List.filter_append, List.filter_map, Function.comp_def,
              Function.update_of_ne heq, Ne.symm heq]
        · rfl

/-! The dates of successes -/

def Recorded.succeeded (call : Recorded) : Bool :=
  match call.outcome with
  | .success _ _ _ => true
  | _ => false

def Recorded.dateCell (dayOf : String → Option Int) (call : Recorded) : Cell :=
  ((call.date.bind dayOf).map Cell.date).getD .null

/-- The stored `last_success_date` of a key. -/
def storedDates (tables : Tables) (key : String × String) : List Cell :=
  (storedStatus tables key).map fun cells => cells.getD 2 .null

def lastSuccess (key : String × String) (calls : List Recorded) : Option Recorded :=
  lastOf Recorded.key key (calls.filter Recorded.succeeded)

private theorem date_of_not_succeeded {call : Recorded} (h : call.succeeded = false) :
    call.date = none := by
  unfold Recorded.succeeded at h
  unfold Recorded.date
  cases houtcome : call.outcome with
  | success => simp [houtcome] at h
  | failure => rfl
  | skipped => rfl

private theorem lastSuccess_of_succeeded {key : String × String} {calls : List Recorded}
    {call : Recorded}
    (h : lastOf Recorded.key key calls = some call) (hsucceeded : call.succeeded = true) :
    lastSuccess key calls = some call := by
  obtain ⟨-, hkey⟩ := mem_of_lastOf h
  have hboth := lastSat_of_imp (p := fun call => decide (call.key = key) && call.succeeded) h
    (by simp [hkey, hsucceeded]) fun other hother => (Bool.and_eq_true_iff.mp hother).1
  unfold lastSuccess lastOf
  unfold lastSat at hboth ⊢
  rw [List.filter_filter]
  exact hboth

/-- After any records and flushes the stored row of a key is that of the last record that was
written, so it has the date of the last success exactly when no failure or skip came later;
and what is recorded in a batch is written in order, but for the calls that wait. -/
theorem stored_status_of_last_record (hreads : ReadsDates r dayOf) (countBy : B → CountBy)
    (tables : Tables) (events : List (StreamEvent B)) (hdated : ∀ event ∈ events, event.Dated dayOf) :
    let s := Stream.run r countBy tables events
    let written := s.written.map Prod.snd
    (∀ key, storedStatus s.tables key = lastStatus dayOf tables written key) ∧
    (∀ key call success, lastOf Recorded.key key written = some call →
      lastSuccess key written = some success → success.dateCell dayOf ≠ .null →
        (storedDates s.tables key = [success.dateCell dayOf] ↔ call.succeeded = true)) ∧
    ∀ batch, (∀ event ∈ events, event ≠ .giveUp batch) →
      s.writtenIn batch ++ s.waiting batch = recordedIn batch events := by
  intro s written
  have hholds : Holds dayOf tables s := holds_run hreads hdated
  have hstored := hholds.stored
  refine ⟨hstored, fun key call success hlast hsuccess hnull => ?_, fun batch hkept => ?_⟩
  · have hdates : storedDates s.tables key = [call.dateCell dayOf] := by
      unfold storedDates
      rw [hstored key, lastStatus, hlast]
      rfl
    rw [hdates]
    constructor
    · intro heq
      by_contra hnot
      have hdate := date_of_not_succeeded (Bool.eq_false_iff.mpr hnot)
      refine hnull ((List.cons.inj heq).1.symm.trans ?_)
      unfold Recorded.dateCell
      rw [hdate]
      rfl
    · intro hsucceeded
      rw [lastSuccess_of_succeeded hlast hsucceeded] at hsuccess
      rw [Option.some.inj hsuccess]
  · exact written_append_waiting (s := Stream.initial tables) hkept

end Runs

/-! A success that is followed by a failure -/

def factorTask : LifecycleTaskRef where
  pipeline := "update_daily"
  dataset := "baostock_cn_stock_adjustment_factor"
  code := "000001"
  startDate := some "2024-01-02"
  endDate := some "2024-01-02"
  outputPath := "data.parquet"

def knownDay (s : String) : Option Int := if s = "2024-01-02" then some 19724 else none

private theorem readsDates_plain : ReadsDates plainReader knownDay := by
  have hknown : ∀ s, (knownDay s).isSome = true → s = "2024-01-02" := by
    intro s hs
    unfold knownDay at hs
    split at hs
    · assumption
    · cases hs
  refine ⟨fun s hs => ?_, fun dates hdates => ?_, fun times => ?_⟩
  · rw [hknown s hs]
    decide
  · show (dates.map optionalText).map _ = _
    rw [List.map_map]
    refine List.map_congr_left fun date hdate => ?_
    cases date with
    | none => rfl
    | some s =>
      rw [hknown s (hdates s hdate)]
      decide
  · show (times.map Cell.stamp).map _ = _
    rw [List.map_map]
    rfl

/-- A success, then a failure of the same task, and a flush. -/
def failedAfterSuccess : List (StreamEvent Unit) :=
  [.record () ⟨factorTask, firstMoment, .success 1 none none⟩,
    .record () ⟨factorTask, secondMoment, .failure "timeout" none⟩, .flush () {}]

private theorem dated_failedAfterSuccess : ∀ event ∈ failedAfterSuccess, event.Dated knownDay := by
  intro event hevent
  simp only [failedAfterSuccess, List.mem_cons, List.not_mem_nil, or_false] at hevent
  rcases hevent with rfl | rfl | rfl
  · intro s hs
    rw [← Option.some.inj hs]
    decide
  · intro s hs
    cases hs
  · trivial

theorem stored_status_of_last_record_failed :
    storedStatus (Stream.run plainReader (fun _ => .run) emptyTables failedAfterSuccess).tables
        ("baostock_cn_stock_adjustment_factor", "000001") =
      lastStatus knownDay emptyTables
        ((Stream.run plainReader (fun _ => .run) emptyTables failedAfterSuccess).written.map Prod.snd)
        ("baostock_cn_stock_adjustment_factor", "000001") :=
  (stored_status_of_last_record readsDates_plain (fun _ => .run) emptyTables failedAfterSuccess
    dated_failedAfterSuccess).1 _

/-- The failure takes the date away. -/
theorem success_date_erased :
    ¬∀ (events : List (StreamEvent Unit)) (key : String × String) (success : Recorded),
      (∀ event ∈ events, event.Dated knownDay) →
        let s := Stream.run plainReader (fun _ => .run) emptyTables events
        s.waiting () = [] → lastSuccess key (s.written.map Prod.snd) = some success →
          storedDates s.tables key = [success.dateCell knownDay] := by
  intro h
  have hdate := h failedAfterSuccess ("baostock_cn_stock_adjustment_factor", "000001")
    ⟨factorTask, firstMoment, .success 1 none none⟩ dated_failedAfterSuccess (by decide +kernel) rfl
  revert hdate
  decide +kernel

end QuantDataCenter.Pipeline
