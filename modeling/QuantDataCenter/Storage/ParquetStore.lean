import QuantDataCenter.Lib.Checked
import QuantDataCenter.Lib.Keyed
import QuantDataCenter.Storage.PartitionManifest

/-!
The Parquet store (`storage/parquet_store.py`): coercion of a frame to a schema,
preparation of a frame for a dataset, and `write_dataset` in its three modes. A
file is the rows it holds; the environment decides how rows of one sort key are
ordered by a single-column sort, which attempts of a write succeed and whether
the ledger transaction commits.
-/

set_option autoImplicit false
set_option relaxedAutoImplicit false

namespace QuantDataCenter.Storage

open QuantDataCenter.Lib.Checked QuantDataCenter.Lib.Keyed QuantDataCenter.Tabular
open QuantDataCenter.Quality

def columnAliases : List (String × String) :=
  [("preclose", "prev_close"), ("adjustflag", "adjust_flag"), ("turn", "turnover_rate"),
    ("tradestatus", "trade_status"), ("pctChg", "pct_change"), ("pct_chg", "pct_change"),
    ("peTTM", "pe_ttm"), ("pbMRQ", "pb_mrq"), ("psTTM", "ps_ttm"), ("pcfNcfTTM", "pcf_ncf_ttm"),
    ("isST", "is_st"), ("code_name", "name"), ("ipoDate", "ipo_date"),
    ("outDate", "delist_date"), ("type", "security_type"), ("status", "listing_status"),
    ("dividOperateDate", "dividend_operate_date"),
    ("foreAdjustFactor", "forward_adjust_factor"),
    ("backAdjustFactor", "backward_adjust_factor"), ("adjustFactor", "adjustment_factor"),
    ("latest_price", "last_price"), ("change_amount", "price_change"),
    ("adjust", "adjustment")]

/-- The columns that carry the name after the renaming of aliases. -/
def sourceColumns (columns : List String) (name : String) : List String :=
  if name ∈ columns then [name] else columns.filter fun old => (old, name) ∈ columnAliases

/-- `_coerce_series` of the schema's column, on one row. -/
def cleanCell (p : Pandas) (df : Frame) (field : Field) (r : Row) : Except StoreError Cell :=
  match sourceColumns df.columns field.name with
  | [] => coerceCell p .object field.type .null
  | [column] => coerceCell p (df.dtype column) field.type (r column)
  | _ => .error (.attributeError "'DataFrame' object has no attribute 'dtype'")

def cleanRow (p : Pandas) (df : Frame) (schema : Schema) (r : Row) : Row := fun name =>
  match schema.find? fun field => field.name == name with
  | none => .null
  | some field => (cleanCell p df field r).toOption.getD .null

/-- Two source columns of one name cannot be coerced, however many rows there are. -/
def cleanFieldError (p : Pandas) (df : Frame) (field : Field) : Option StoreError :=
  match sourceColumns df.columns field.name with
  | _ :: _ :: _ => some (.attributeError "'DataFrame' object has no attribute 'dtype'")
  | _ => df.rows.findSome? fun r => errorOf (cleanCell p df field r)

def coerceDtype : FieldType → Dtype → Dtype
  | .string, .object => .object
  | .string, _ => .string
  | .date32, _ => .object
  | .timestamp, _ => .datetime
  | .int64, _ => .integer
  | .float64, _ => .floating
  | .bool, .bool => .bool
  | .bool, _ => .boolean

def cleanDtype (df : Frame) (schema : Schema) (name : String) : Dtype :=
  match schema.find? fun field => field.name == name, sourceColumns df.columns name with
  | some field, [column] => coerceDtype field.type (df.dtype column)
  | some field, _ => coerceDtype field.type .object
  | none, _ => .object

/-- A function on the cells of one column. -/
def mapColumn (column : String) (f : Cell → Except StoreError Cell) (df : Frame) :
    Except StoreError Frame := do
  checkAll (fun r => errorOf (f (r column))) df.rows
  .ok { df with rows := df.rows.map fun r =>
    Function.update r column ((f (r column)).toOption.getD .null) }

def normalizeOptionalAdjustment (p : Pandas) : Cell → Except StoreError Cell
  | .null => .ok .null
  | c => (normalizeAdjustment p (p.str c)).map .text

def cleanDataframeForSchema (p : Pandas) (df : Frame) (schema : Schema) :
    Except StoreError Frame := do
  checkAll (cleanFieldError p df) schema
  let cleaned : Frame :=
    { columns := fieldNames schema
      dtype := cleanDtype df schema
      rows := df.rows.map (cleanRow p df schema) }
  if "adjustment" ∈ cleaned.columns ∧ cleaned.rows ≠ [] then
    mapColumn "adjustment" (normalizeOptionalAdjustment p) cleaned
  else .ok cleaned

/-- A partition as the callers pass it: column and value, or nothing. -/
abbrev Partition := Option (List (String × Cell))

def aksharePartitionCode (p : Pandas) : Cell → Except StoreError String
  | .null => .error (.valueError "AkShare partition code must be a 6-digit string")
  | c =>
    if p.sixDigits (strip (p.str c)).toList then .ok (strip (p.str c))
    else .error (.valueError "AkShare partition code must be 6 digits")

def normalizePartitionValue (p : Pandas) (definition : DatasetDefinition) (column : String)
    (value : Cell) : Except StoreError String :=
  if column = "code" ∧ definition.codeFormat = .sixDigit then aksharePartitionCode p value
  else match value with
    | .null => .error (.valueError (definition.id ++ " requires partition " ++ column))
    | c =>
      if strip (p.str c) = "" then
        .error (.valueError (definition.id ++ " requires partition " ++ column))
      else .ok (strip (p.str c))

def partitionValue (p : Pandas) (definition : DatasetDefinition) (partition : Partition) :
    Except StoreError String :=
  match definition.partitionColumn, partition with
  | none, none => .ok ""
  | none, some fields =>
    if fields = [] then .ok ""
    else .error (.valueError (definition.id ++ " unexpected partition fields"))
  | some column, none => .error (.valueError (definition.id ++ " requires partition " ++ column))
  | some column, some fields =>
    match fields with
    | [(key, value)] =>
      if key = column then normalizePartitionValue p definition column value
      else .error (.valueError (definition.id ++ " unexpected partition fields"))
    | _ => .error (.valueError (definition.id ++ " unexpected partition fields"))

/-- A fixed column: blanks are filled, any other value is refused. -/
def fixedCell (p : Pandas) (definition : DatasetDefinition) (column expected : String) (c : Cell) :
    Except StoreError Cell :=
  let value := match strippedText p c with
    | none => expected
    | some s => if s = "" then expected else s
  if value = expected then .ok (.text value)
  else .error (.valueError (definition.id ++ " fixed " ++ column ++ " mismatch"))

def applyFixedColumnValues (p : Pandas) (definition : DatasetDefinition) (df : Frame) :
    Except StoreError Frame :=
  definition.fixedColumnValues.foldlM
    (fun df (column, expected) => mapColumn column (fixedCell p definition column expected) df) df

def requirePartitionValue (p : Pandas) (df : Frame) (column expected context : String) :
    Except StoreError Unit :=
  if df.rows = [] then .ok ()
  else if ∃ r ∈ df.rows, r column = .null then
    .error (.valueError (context ++ " missing " ++ column ++ " for " ++ expected))
  else if ∀ r ∈ df.rows, p.str (r column) = expected then .ok ()
  else .error (.valueError (context ++ " mismatch for " ++ expected))

/-- One attempt to write the temporary file and to replace the destination. -/
inductive Attempt where
  | written
  | osError
  | otherError
  deriving DecidableEq, Repr

/-- What the system answers while one partition is written. -/
structure PartitionIo where
  readable : Bool
  attempts : ℕ → Attempt
  ledger : Bool

/-- What the environment decides during a call: how a single-column sort orders
rows of one key, and the answers for the k-th partition that is written. -/
structure WriteEnv where
  sortValues : ∀ column : String, Sorter fun r : Row => (r column).rank
  io : ℕ → PartitionIo

/-- The sort key of a row over several columns. -/
def sortKey (columns : List String) (r : Row) : List Rank := columns.map fun c => (r c).rank

def sortValues (env : WriteEnv) (columns : List String) (rows : List Row) : List Row :=
  match columns with
  | [column] => (env.sortValues column).sort rows
  | columns => stableSort (sortKey columns) rows

def sortDatasetFrame (env : WriteEnv) (definition : DatasetDefinition) (df : Frame) : Frame :=
  let sortColumns := definition.sortColumns.filter fun column => column ∈ df.columns
  if df.rows = [] ∨ sortColumns = [] then df
  else { df with rows := sortValues env sortColumns df.rows }

def deduplicateDatasetFrame (definition : DatasetDefinition) (df : Frame) : Frame :=
  if df.rows = [] ∨ definition.uniqueColumns = [] then df
  else { df with rows := keepLast (rowKey definition.uniqueColumns) df.rows }

def checkPartition (p : Pandas) (definition : DatasetDefinition) (df : Frame)
    (partition : Partition) : Except StoreError Unit :=
  match definition.partitionColumn, partition with
  | some column, some fields => do
    let value ← partitionValue p definition (some fields)
    requirePartitionValue p df column value (definition.id ++ " partition " ++ column)
  | _, _ => .ok ()

/-- `prepare_dataset_frame` up to the validator. -/
def prepareUnvalidated (p : Pandas) (env : WriteEnv) (definition : DatasetDefinition) (df : Frame)
    (partition : Partition) : Except StoreError Frame := do
  let cleaned ← cleanDataframeForSchema p df definition.schema
  if cleaned.rows = [] then .ok cleaned
  else do
    let fixed ← applyFixedColumnValues p definition cleaned
    checkPartition p definition fixed partition
    .ok (sortDatasetFrame env definition fixed)

def prepareDatasetFrame (p : Pandas) (env : WriteEnv) (definition : DatasetDefinition) (df : Frame)
    (partition : Partition) (validate : Bool) : Except StoreError Frame := do
  let cleaned ← prepareUnvalidated p env definition df partition
  if validate then definition.validator p cleaned
  .ok cleaned

/-- Files by dataset and partition value, the ledger, the old partition
directories of a dataset, and the datasets written by this process. -/
structure Store where
  staging : Bool
  files : String → String → Option (List Row)
  manifest : String → String → String → Option ManifestRow
  legacy : String → List String
  dirty : String → Bool

namespace Store

def setFile (st : Store) (dataset value : String) (rows : List Row) : Store :=
  { st with files := fun d v => if d = dataset ∧ v = value then some rows else st.files d v }

def setManifest (st : Store) (dataset column value : String) (row : ManifestRow) : Store :=
  { st with manifest := fun d c v =>
    if d = dataset ∧ c = column ∧ v = value then some row else st.manifest d c v }

def cleanupLegacyPartitions (st : Store) (definition : DatasetDefinition) : Store :=
  { st with legacy := fun d =>
    if d = definition.id then
      (st.legacy d).filter fun name =>
        !definition.legacyPartitionPrefixes.any fun pre => pre.toList.isPrefixOf name.toList
    else st.legacy d }

def markDatasetDirty (st : Store) (dataset : String) : Store :=
  { st with dirty := fun d => d == dataset || st.dirty d }

end Store

def fieldType (schema : Schema) (name : String) : FieldType :=
  match schema.find? fun field => field.name == name with
  | some field => field.type
  | none => .string

def emptyDatasetFrame (definition : DatasetDefinition) : Frame :=
  ⟨fieldNames definition.schema, fun _ => .object, []⟩

/-- The frame `pd.read_parquet` returns. -/
def fileFrame (p : Pandas) (schema : Schema) (rows : List Row) : Frame :=
  ⟨fieldNames schema, fun name => p.readDtype (fieldType schema name), rows⟩

def readDataset (p : Pandas) (io : PartitionIo) (st : Store) (definition : DatasetDefinition)
    (value : String) : Except StoreError Frame :=
  match st.files definition.id value with
  | none => .ok (emptyDatasetFrame definition)
  | some rows =>
    if io.readable then
      cleanDataframeForSchema p (fileFrame p definition.schema rows) definition.schema
    else .error .permissionError

/-- `pd.concat([existing, incoming], ignore_index=True)`. -/
def concat (p : Pandas) (existing incoming : Frame) : Frame where
  columns := existing.columns ++ incoming.columns.filter fun c => c ∉ existing.columns
  dtype c := p.concatDtype (existing.dtype c) (incoming.dtype c)
  rows := existing.rows ++ incoming.rows

def parquetWriteMaxRetries : ℕ := 3

/-- The loop of `atomic_write` from an attempt on: a failed attempt leaves the destination. -/
def atomicWriteFrom (attempts : ℕ → Attempt) (attempt : ℕ) : ℕ → Except StoreError Unit
  | 0 => .error .osError
  | remaining + 1 =>
    match attempts attempt with
    | .written => .ok ()
    | .otherError => .error .other
    | .osError => atomicWriteFrom attempts (attempt + 1) remaining

def atomicWrite (attempts : ℕ → Attempt) : Except StoreError Unit :=
  atomicWriteFrom attempts 0 parquetWriteMaxRetries

structure DatasetWriteResult where
  paths : List (String × String)
  rowCount : ℕ
  updatedPartitions : ℕ
  skippedPartitions : ℕ
  deriving DecidableEq, Repr

section Writing

variable (p : Pandas) (h : Hashing) (env : WriteEnv)

def upsertPartitionManifestAfterWrite (io : PartitionIo) (definition : DatasetDefinition)
    (rows : List Row) (value sourceSignature masterRowHash : String) (st : Store) :
    Except StoreError Unit × Store :=
  if st.staging then (.ok (), st)
  else if io.ledger then
    (.ok (), st.setManifest definition.id (definition.partitionColumn.getD "") value
      (datasetPartitionManifestRow p h definition.schema rows sourceSignature masterRowHash))
  else (.error .other, st)

def writePreparedDataset (io : PartitionIo) (definition : DatasetDefinition) (df : Frame)
    (value : String) (st : Store) : Except StoreError Unit × Store :=
  let cleared := st.cleanupLegacyPartitions definition
  match atomicWrite io.attempts with
  | .error e => (.error e, cleared)
  | .ok () =>
    let written := cleared.setFile definition.id value df.rows
    match upsertPartitionManifestAfterWrite p h io definition df.rows value "" "" written with
    | (.error e, st') => (.error e, st')
    | (.ok (), st') => (.ok (), st'.markDatasetDirty definition.id)

/-- The keys of two frames are compared as text. -/
def incomingKeysExist (definition : DatasetDefinition) (existing fresh : Frame) : Bool :=
  let keys (df : Frame) := df.rows.map fun r : Row => (rowKey definition.uniqueColumns r).map fun c =>
    if c = .null then none else some (p.str c)
  existing.rows ≠ [] ∧ fresh.rows ≠ [] ∧ definition.uniqueColumns ≠ [] ∧
    ∀ key ∈ keys fresh, key ∈ keys existing

/-- The rows `write_dataset` puts in place of a stored partition: both sides,
prepared, deduplicated, sorted and validated. -/
def combineFrames (definition : DatasetDefinition) (existing incoming : Frame)
    (partition : Partition) : Except StoreError Frame := do
  let combined ← prepareUnvalidated p env definition (concat p existing incoming) partition
  let combined := sortDatasetFrame env definition (deduplicateDatasetFrame definition combined)
  definition.validator p combined
  .ok combined

/-- The frames of an upsert of one partition: the incoming one, and the new
content of the file unless the partition is skipped. -/
def upsertFrames (io : PartitionIo) (definition : DatasetDefinition) (df : Frame)
    (partition : Partition) (value : String) (skipExisting : Bool) (st : Store) :
    Except StoreError (Frame × Option Frame) := do
  let fresh ← prepareDatasetFrame p env definition df partition true
  let existing ← readDataset p io st definition value
  if skipExisting = true ∧ incomingKeysExist p definition existing fresh = true then
    .ok (fresh, none)
  else do
    let combined ← combineFrames p env definition existing fresh partition
    .ok (fresh, some combined)

def writeDatasetUpsertPartition (io : PartitionIo) (definition : DatasetDefinition) (df : Frame)
    (partition : Partition) (value : String) (skipExisting : Bool) (st : Store) :
    Except StoreError DatasetWriteResult × Store :=
  match upsertFrames p env io definition df partition value skipExisting st with
  | .error e => (.error e, st)
  | .ok (_, none) => (.ok ⟨[(definition.id, value)], 0, 0, 1⟩, st)
  | .ok (fresh, some combined) =>
    match writePreparedDataset p h io definition combined value st with
    | (.error e, st') => (.error e, st')
    | (.ok (), st') => (.ok ⟨[(definition.id, value)], fresh.rows.length, 1, 0⟩, st')

/-- `groupby(column, dropna=False, sort=False)`. -/
def groupRows (column : String) (rows : List Row) : List (Cell × List Row) :=
  groups (fun r => r column) rows

/-- The value of a group as the path and the partition of its write take it. -/
def groupPartitionValue (definition : DatasetDefinition) (column : String) (v : Cell) :
    Except StoreError String :=
  if v = .null ∨ strip (p.str v) = "" then
    .error (.valueError (definition.id ++ " requires partition " ++ column))
  else normalizePartitionValue p definition column v

/-- The groups of an upsert without a partition, one after the other. -/
def writeGroups (definition : DatasetDefinition) (column : String) (cleaned : Frame)
    (skipExisting : Bool) : ℕ → List (Cell × List Row) → DatasetWriteResult → Store →
    Except StoreError DatasetWriteResult × Store
  | _, [], total, st => (.ok total, st)
  | k, (v, rows) :: groups, total, st =>
    match groupPartitionValue p definition column v with
    | .error e => (.error e, st)
    | .ok value =>
      match writeDatasetUpsertPartition p h env (env.io k) definition { cleaned with rows := rows }
        (some [(column, .text value)]) value skipExisting st with
      | (.error e, st') => (.error e, st')
      | (.ok result, st') =>
        writeGroups definition column cleaned skipExisting (k + 1) groups
          ⟨total.paths ++ result.paths, total.rowCount + result.rowCount,
            total.updatedPartitions + result.updatedPartitions,
            total.skippedPartitions + result.skippedPartitions⟩ st'

def writeDatasetUpsert (definition : DatasetDefinition) (df : Frame) (partition : Partition)
    (skipExisting : Bool) (st : Store) : Except StoreError DatasetWriteResult × Store :=
  match definition.partitionColumn, partition with
  | some column, none =>
    if df.rows = [] ∨ df.columns = [] then (.ok ⟨[], 0, 0, 0⟩, st)
    else match prepareDatasetFrame p env definition df none true with
      | .error e => (.error e, st)
      | .ok cleaned =>
        writeGroups p h env definition column cleaned skipExisting 0
          (groupRows column cleaned.rows) ⟨[], 0, 0, 0⟩ st
  | _, _ =>
    match partitionValue p definition partition with
    | .error e => (.error e, st)
    | .ok value =>
      writeDatasetUpsertPartition p h env (env.io 0) definition df partition value skipExisting st

/-- The frame a `replace` or a `merge` writes. -/
def replaceFrame (definition : DatasetDefinition) (df : Frame) (partition : Partition)
    (value : String) (merge : Bool) (st : Store) : Except StoreError Frame := do
  let incoming ← prepareDatasetFrame p env definition df partition true
  if merge = true ∧ (st.files definition.id value).isSome = true then do
    let existing ← readDataset p (env.io 0) st definition value
    combineFrames p env definition existing incoming partition
  else .ok incoming

def writeDatasetReplace (definition : DatasetDefinition) (df : Frame) (partition : Partition)
    (merge : Bool) (st : Store) : Except StoreError DatasetWriteResult × Store :=
  match partitionValue p definition partition with
  | .error e => (.error e, st)
  | .ok value =>
    match replaceFrame p env definition df partition value merge st with
    | .error e => (.error e, st)
    | .ok incoming =>
      match writePreparedDataset p h (env.io 0) definition incoming value st with
      | (.error e, st') => (.error e, st')
      | (.ok (), st') => (.ok ⟨[(definition.id, value)], incoming.rows.length, 1, 0⟩, st')

/-- `write_dataset`; a mode that is none of the three is refused before anything else. -/
def writeDataset (dataset : String) (df : Frame) (partition : Partition) (mode : Option WriteMode)
    (skipExisting : Bool) (st : Store) : Except StoreError DatasetWriteResult × Store :=
  match datasetDefinition dataset with
  | .error e => (.error e, st)
  | .ok definition =>
    let writeMode := mode.getD definition.defaultWriteMode
    if skipExisting = true ∧ writeMode ≠ .upsert then
      (.error (.valueError "skip_existing is only supported for upsert writes"), st)
    else match writeMode with
      | .upsert => writeDatasetUpsert p h env definition df partition skipExisting st
      | .merge => writeDatasetReplace p h env definition df partition true st
      | .replace => writeDatasetReplace p h env definition df partition false st

end Writing

/-! The concrete environment of the examples: stable sorts, every file operation
succeeds, and the ledger transaction commits or not. -/

def WriteEnv.plain (ledger : Bool) : WriteEnv where
  sortValues _ := Sorter.stable _
  io _ := ⟨true, fun _ => .written, ledger⟩

def Store.empty : Store := ⟨false, fun _ _ => none, fun _ _ _ => none, fun _ => [], fun _ => false⟩

def rowOf (entries : List (String × Cell)) : Row := fun name =>
  ((entries.find? fun e => e.1 == name).map Prod.snd).getD .null

end QuantDataCenter.Storage
