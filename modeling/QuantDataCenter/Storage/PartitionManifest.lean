import QuantDataCenter.Storage.Catalog

/-!
The ledger row of a partition (`storage/partition_manifest.py`). The digests are
left open: SHA-256 of an Arrow stream or of a JSON text is a function of what is
hashed, and nothing more is assumed of it here. Only prepared frames are
hashed, whose cells the coercion before the digest leaves alone.
-/

set_option autoImplicit false
set_option relaxedAutoImplicit false

namespace QuantDataCenter.Storage

open QuantDataCenter.Tabular QuantDataCenter.Quality

/-- What `source_signature` hashes of a ledger row: dataset, partition column,
partition value and semantic hash. -/
abbrev SourceEntry := String × String × String × String

/-- `_sha256_bytes(_arrow_ipc_bytes(table))`, and the digests of a schema, of a
master row and of the sources of a security. -/
structure Hashing where
  arrowDigest : Schema → List (List Cell) → String
  schemaDigest : Schema → String
  masterDigest : List Cell → String
  signatureDigest : String → List SourceEntry → String

/-- A stand-in for SHA-256: the text of what is hashed. -/
def Hashing.plain : Hashing where
  arrowDigest schema table := toString (repr schema) ++ toString (repr table)
  schemaDigest schema := toString (repr schema)
  masterDigest cells := toString (repr cells)
  signatureDigest masterHash sources := masterHash ++ toString (repr sources)

def semanticExcludedColumns : List String :=
  ["fetched_at", "updated_at", "created_at", "ingested_at", "downloaded_at", "collected_at",
    "run_id", "writer_pid", "writer_thread"]

def dateRangeColumns : List String :=
  ["date", "trade_date", "calendar_date", "snapshot_date", "period_end_date", "change_date",
    "dividend_operate_date", "report_date", "publish_date"]

def masterHashColumns : List String :=
  ["security_id", "code", "exchange", "name", "security_type", "baostock_code", "akshare_code",
    "qlib_symbol", "ipo_date", "delist_date", "listing_status", "is_active"]

def semanticSchema (schema : Schema) : Schema :=
  schema.filter fun field => field.name ∉ semanticExcludedColumns

/-- `_table_for_schema`: the cells of the schema's columns, row by row. -/
def tableForSchema (rows : List Row) (schema : Schema) : List (List Cell) :=
  rows.map (rowKey (fieldNames schema))

def dataframeContentHash (h : Hashing) (rows : List Row) (schema : Schema) : String :=
  h.arrowDigest schema (tableForSchema rows schema)

def dataframeSemanticHash (h : Hashing) (rows : List Row) (schema : Schema) : String :=
  h.arrowDigest (semanticSchema schema) (tableForSchema rows (semanticSchema schema))

/-- The first and the last day of the first date column that has a date. -/
def dateRange (p : Pandas) (columns : List String) (rows : List Row) : String × String :=
  let days column := rows.filterMap fun r => (parsedDate p (r column)).map (· / nsPerDay)
  match dateRangeColumns.find? fun column => column ∈ columns ∧ days column ≠ [] with
  | none => ("", "")
  | some column =>
    (p.repr (.date ((days column).min?.getD 0)), p.repr (.date ((days column).max?.getD 0)))

structure ManifestRow where
  rowCount : ℕ
  minDate : String
  maxDate : String
  contentHash : String
  semanticHash : String
  schemaHash : String
  sourceSignature : String
  masterRowHash : String
  deriving DecidableEq, Repr

def datasetPartitionManifestRow (p : Pandas) (h : Hashing) (schema : Schema) (rows : List Row)
    (sourceSignature masterRowHash : String) : ManifestRow where
  rowCount := rows.length
  minDate := (dateRange p (fieldNames schema) rows).1
  maxDate := (dateRange p (fieldNames schema) rows).2
  contentHash := dataframeContentHash h rows schema
  semanticHash := dataframeSemanticHash h rows schema
  schemaHash := h.schemaDigest schema
  sourceSignature := sourceSignature
  masterRowHash := masterRowHash

def masterRowHash (h : Hashing) (row : Row) : String := h.masterDigest (rowKey masterHashColumns row)

/-- The order in which the sources of a signature are listed. -/
def SourceEntry.le (a b : SourceEntry) : Bool :=
  decide ((toLex (a.1, toLex (a.2.1, toLex (a.2.2.1, a.2.2.2))) : String ×ₗ String ×ₗ String ×ₗ String) ≤
    toLex (b.1, toLex (b.2.1, toLex (b.2.2.1, b.2.2.2))))

def sourceSignature (h : Hashing) (sources : List SourceEntry) (masterHash : String) : String :=
  h.signatureDigest masterHash (sources.mergeSort SourceEntry.le)

end QuantDataCenter.Storage
