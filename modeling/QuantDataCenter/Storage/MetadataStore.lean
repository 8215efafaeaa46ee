import QuantDataCenter.Lib.Dict
import QuantDataCenter.Tabular.Cell

/-!
The metadata tables (`metadata_store.py`): frames are coerced to the columns of a
table and upserted by a `DELETE` over SQL equalities and an `INSERT`, in one
transaction.
-/

set_option autoImplicit false
set_option relaxedAutoImplicit false

namespace QuantDataCenter.Storage.Metadata

open QuantDataCenter.Lib
open QuantDataCenter.Tabular

/-! Schemas and keys -/

def pipelineRunsSchema : Schema :=
  [⟨"task_id", .string⟩, ⟨"dataset", .string⟩, ⟨"code", .string⟩, ⟨"status", .string⟩,
    ⟨"start_date", .date32⟩, ⟨"end_date", .date32⟩, ⟨"start_time", .timestamp⟩,
    ⟨"end_time", .timestamp⟩, ⟨"row_count", .int64⟩, ⟨"error_stack", .string⟩]

def datasetUpdateStatusSchema : Schema :=
  [⟨"dataset", .string⟩, ⟨"code", .string⟩, ⟨"last_success_date", .date32⟩, ⟨"row_count", .int64⟩,
    ⟨"status", .string⟩, ⟨"updated_at", .timestamp⟩, ⟨"error_stack", .string⟩]

def pipelineCheckpointsSchema : Schema :=
  [⟨"pipeline", .string⟩, ⟨"dataset", .string⟩, ⟨"code", .string⟩, ⟨"start_date", .date32⟩,
    ⟨"end_date", .date32⟩, ⟨"status", .string⟩, ⟨"row_count", .int64⟩, ⟨"output_path", .string⟩,
    ⟨"updated_at", .timestamp⟩, ⟨"error_stack", .string⟩]

def datasetPartitionManifestSchema : Schema :=
  [⟨"dataset", .string⟩, ⟨"partition_column", .string⟩, ⟨"partition_value", .string⟩,
    ⟨"output_path", .string⟩, ⟨"row_count", .int64⟩, ⟨"min_date", .string⟩, ⟨"max_date", .string⟩,
    ⟨"content_hash", .string⟩, ⟨"semantic_hash", .string⟩, ⟨"schema_hash", .string⟩,
    ⟨"source_signature", .string⟩, ⟨"master_row_hash", .string⟩, ⟨"file_size_bytes", .int64⟩,
    ⟨"file_mtime", .timestamp⟩, ⟨"run_id", .string⟩, ⟨"writer_pid", .int64⟩,
    ⟨"writer_thread", .string⟩, ⟨"updated_at", .timestamp⟩]

inductive KeyedTable where
  | datasetUpdateStatus
  | pipelineCheckpoints
  | datasetPartitionManifest
  deriving DecidableEq, Repr

def KeyedTable.schema : KeyedTable → Schema
  | .datasetUpdateStatus => datasetUpdateStatusSchema
  | .pipelineCheckpoints => pipelineCheckpointsSchema
  | .datasetPartitionManifest => datasetPartitionManifestSchema

/-- The columns that the `DELETE` of the table compares. -/
def KeyedTable.keyColumns : KeyedTable → List String
  | .datasetUpdateStatus => ["dataset", "code"]
  | .pipelineCheckpoints => ["pipeline", "dataset", "code", "start_date", "end_date"]
  | .datasetPartitionManifest => ["dataset", "partition_column", "partition_value"]

/-! Coercion -/

/-- `pd.to_datetime` takes the format of a text column from its first value, so a
text can read differently in another column. -/
structure SeriesReader extends Pandas where
  toDatetimeSeries : List Cell → List (Option Int)

/-- `_coerce_series`. -/
def coerceSeries (r : SeriesReader) (dtype : Dtype) (type : FieldType) (cells : List Cell) :
    Except StoreError (List Cell) :=
  match type with
  | .date32 => .ok ((r.toDatetimeSeries (cells.map (replaceNullLike dtype))).map fun
    | none => .null
    | some ns => .date (ns / nsPerDay))
  | .timestamp => .ok ((r.toDatetimeSeries (cells.map (replaceNullLike dtype))).map fun
    | none => .null
    | some ns => .stamp (ns / nsPerMs * nsPerMs))
  | .int64 => cells.mapM fun c =>
    match replaceNullLike dtype c with
    | .null => .ok .null
    | v => match r.toNumeric v with
      | none => .ok .null
      | some x => castInt64 x
  | .float64 => .ok (cells.map fun c =>
    match replaceNullLike dtype c with
    | .null => .null
    | v => match r.toNumeric v with
      | none => .null
      | some x => .real x)
  | .string => .ok (cells.map fun
    | .null => .null
    | c => .text (r.str c))
  | .bool => .ok cells

/-- `_clean_dataframe_for_schema`: one column after the other; a missing one is null. -/
def cleanDataframeForSchema (r : SeriesReader) (frame : Frame) (schema : Schema) :
    Except StoreError (List Row) := do
  let columns ← schema.mapM fun field => do
    let cells ←
      if field.name ∈ frame.columns then
        coerceSeries r (frame.dtype field.name) field.type (frame.rows.map fun row => row field.name)
      else coerceSeries r .object field.type (frame.rows.map fun _ => .null)
    return (field.name, cells)
  return (List.range frame.rows.length).map fun i name =>
    ((Dict.get name columns).bind fun cells => cells[i]?).getD .null

/-- `pd.DataFrame(rows)`; only texts depend on the dtype, and a column with texts is one of
objects. -/
def dataFrame (schema : Schema) (rows : List Row) : Frame := ⟨fieldNames schema, fun _ => .object, rows⟩

/-! Statements -/

/-- `=` in a condition: comparing with null is not true. -/
def sqlEq (a b : Cell) : Bool := a ≠ .null && b ≠ .null && a = b

structure Tables where
  pipelineRuns : List Row
  keyed : KeyedTable → List Row

inductive Statement where
  | insertRuns (incoming : List Row)
  | delete (table : KeyedTable) (incoming : List Row)
  | insert (table : KeyedTable) (incoming : List Row)

/-- A stored row that some incoming row matches on all key columns is deleted. -/
def deleteMatching (keyColumns : List String) (incoming stored : List Row) : List Row :=
  stored.filter fun row => !incoming.any fun new => keyColumns.all fun c => sqlEq (new c) (row c)

def Statement.apply (tables : Tables) : Statement → Tables
  | .insertRuns incoming => { tables with pipelineRuns := tables.pipelineRuns ++ incoming }
  | .delete table incoming => { tables with
      keyed := Function.update tables.keyed table
        (deleteMatching table.keyColumns incoming (tables.keyed table)) }
  | .insert table incoming => { tables with
      keyed := Function.update tables.keyed table (tables.keyed table ++ incoming) }

/-- A connection sees its own open transaction; others see what is committed. -/
structure Connection where
  committed : Tables
  working : Option Tables

inductive Command where
  | begin
  | statement (s : Statement)
  | commit
  | rollback

def Connection.execute (conn : Connection) : Command → Connection
  | .begin => { conn with working := some conn.committed }
  | .statement s => { conn with working := conn.working.map fun tables => s.apply tables }
  | .commit => ⟨conn.working.getD conn.committed, none⟩
  | .rollback => { conn with working := none }

/-- Commands one after the other; one that raises changes nothing. -/
def executeAll (raises : ℕ → Bool) : ℕ → List Command → Connection → Bool × Connection
  | _, [], conn => (true, conn)
  | n, command :: commands, conn =>
    if raises n then (false, conn) else executeAll raises (n + 1) commands (conn.execute command)

/-- What a call meets: whether it gets its connection, and which command raises. -/
structure Conditions where
  connects : Bool := true
  raises : ℕ → Bool := fun _ => false

/-- `_register_and_execute` and the transaction of `persist_update_metadata`, with the connection
that is closed afterwards: an open transaction is dropped, also when `ROLLBACK` raises. -/
def registerAndExecute (statements : List Statement) (raises : ℕ → Bool) (tables : Tables) :
    Bool × Tables :=
  let conn : Connection := ⟨tables, none⟩
  if raises 0 then (false, conn.committed)
  else
    let body := executeAll raises 1 (statements.map .statement) (conn.execute .begin)
    if body.1 then
      if raises (statements.length + 1) then (false, body.2.committed)
      else (true, (body.2.execute .commit).committed)
    else
      let rolledBack := if raises (statements.length + 2) then body.2 else body.2.execute .rollback
      (false, rolledBack.committed)

/-- The body of the three upserts: `true` when the call returns. -/
def upsert (table : KeyedTable) (r : SeriesReader) (frame : Frame) (conditions : Conditions)
    (tables : Tables) : Bool × Tables :=
  match cleanDataframeForSchema r frame table.schema with
  | .error _ => (false, tables)
  | .ok incoming =>
    if incoming = [] then (true, tables)
    else if conditions.connects = false then (false, tables)
    else registerAndExecute [.delete table incoming, .insert table incoming] conditions.raises tables

def upsertDatasetUpdateStatus := upsert .datasetUpdateStatus

def upsertPipelineCheckpoints := upsert .pipelineCheckpoints

def upsertDatasetPartitionManifest := upsert .datasetPartitionManifest

/-- `persist_update_metadata`. -/
def persistUpdateMetadata (r : SeriesReader) (runRows statusRows checkpointRows : List Row)
    (conditions : Conditions) (tables : Tables) : Bool × Tables :=
  let clean (schema : Schema) (rows : List Row) : Except StoreError (List Row) :=
    if rows = [] then .ok [] else cleanDataframeForSchema r (dataFrame schema rows) schema
  match clean pipelineRunsSchema runRows, clean datasetUpdateStatusSchema statusRows,
      clean pipelineCheckpointsSchema checkpointRows with
  | .ok runs, .ok statuses, .ok checkpoints =>
    if runs = [] ∧ statuses = [] ∧ checkpoints = [] then (true, tables)
    else if conditions.connects = false then (false, tables)
    else
      let statements :=
        (if runs = [] then [] else [.insertRuns runs]) ++
        (if statuses = [] then [] else
          [.delete .datasetUpdateStatus statuses, .insert .datasetUpdateStatus statuses]) ++
        (if checkpoints = [] then [] else
          [.delete .pipelineCheckpoints checkpoints, .insert .pipelineCheckpoints checkpoints])
      registerAndExecute statements conditions.raises tables
  | _, _, _ => (false, tables)

end QuantDataCenter.Storage.Metadata
