import QuantDataCenter.Derived.SourceOwnership
import QuantDataCenter.Lib.Dict

/-!
The canonical valuations of a security (`sources/derived/stock_valuation.py`): its rows in the
AkShare valuations and the Baostock percentiles, joined by date.
-/

set_option autoImplicit false
set_option relaxedAutoImplicit false

namespace QuantDataCenter.Derived

open QuantDataCenter.Lib QuantDataCenter.Lib.Keyed QuantDataCenter.Tabular
open QuantDataCenter.Quality QuantDataCenter.Storage

/-- `PERCENTILE_MAPPINGS`: the column of the source and the one it becomes. -/
def percentileMappings : List (String × String) :=
  [("pe_ttm_percentile_1y", "pe_ttm_percentile_1y"),
    ("pe_ttm_percentile_3y", "pe_ttm_percentile_3y"),
    ("pe_ttm_percentile_5y", "pe_ttm_percentile_5y"),
    ("pe_ttm_percentile_10y", "pe_ttm_percentile_10y"),
    ("pe_ttm_percentile_all_history", "pe_ttm_percentile_all_history"),
    ("pb_mrq_percentile_1y", "pb_percentile_1y"), ("pb_mrq_percentile_3y", "pb_percentile_3y"),
    ("pb_mrq_percentile_5y", "pb_percentile_5y"), ("pb_mrq_percentile_10y", "pb_percentile_10y"),
    ("pb_mrq_percentile_all_history", "pb_percentile_all_history"),
    ("ps_ttm_percentile_1y", "ps_percentile_1y"), ("ps_ttm_percentile_3y", "ps_percentile_3y"),
    ("ps_ttm_percentile_5y", "ps_percentile_5y"), ("ps_ttm_percentile_10y", "ps_percentile_10y"),
    ("ps_ttm_percentile_all_history", "ps_percentile_all_history"),
    ("pcf_ncf_ttm_percentile_1y", "pcf_percentile_1y"),
    ("pcf_ncf_ttm_percentile_3y", "pcf_percentile_3y"),
    ("pcf_ncf_ttm_percentile_5y", "pcf_percentile_5y"),
    ("pcf_ncf_ttm_percentile_10y", "pcf_percentile_10y"),
    ("pcf_ncf_ttm_percentile_all_history", "pcf_percentile_all_history")]

/-! Rows -/

/-- `_value`. -/
def valueOf (r : Option Row) (column : String) : Cell :=
  match r with
  | none => .null
  | some r => r column

/-- `_first_non_null` of two values. -/
def firstNonNull (first second : Cell) : Cell := if first = .null then second else first

/-- `_date_value`. -/
def dateValue (p : Pandas) (c : Cell) : Option Int := (parsedDate p c).map (· / nsPerDay)

/-- `_rows_by_date`: of several rows of a date the last one counts. -/
def rowsByDate (p : Pandas) (rows : List Row) : Dict Int Row :=
  rows.foldl (Dict.setNamed (fun r => dateValue p (r "date")) id) []

/-- `_source_dataset`. -/
def sourceDataset (hasAkshare hasBaostock : Bool) : String :=
  if hasAkshare && hasBaostock then akshareValuationDataset ++ "+" ++ baostockPercentileDataset
  else if hasAkshare then akshareValuationDataset
  else baostockPercentileDataset

def valuationRow (day : Int) (security : Row) (akshare baostock : Option Row) (updatedAt : Int) :
    Row :=
  rowOf
    ([("date", .date day),
      ("security_id", security "security_id"),
      ("code", security "code"),
      ("exchange", security "exchange"),
      ("name", security "name"),
      ("close", valueOf akshare "close"),
      ("total_market_cap", valueOf akshare "total_market_cap"),
      ("float_market_cap", valueOf akshare "float_market_cap"),
      ("total_shares", valueOf akshare "total_shares"),
      ("float_shares", valueOf akshare "float_shares"),
      ("pe_ttm", firstNonNull (valueOf akshare "pe_ttm") (valueOf baostock "pe_ttm")),
      ("pe_static", valueOf akshare "pe_static"),
      ("pb", firstNonNull (valueOf akshare "pb") (valueOf baostock "pb_mrq")),
      ("ps", firstNonNull (valueOf akshare "ps") (valueOf baostock "ps_ttm")),
      ("pcf", firstNonNull (valueOf akshare "pcf") (valueOf baostock "pcf_ncf_ttm")),
      ("source_dataset", .text (sourceDataset akshare.isSome baostock.isSome)),
      ("updated_at", .stamp updatedAt)] ++
    percentileMappings.map fun mapping => (mapping.2, valueOf baostock mapping.1))

/-- The columns of the dictionary of a row, in its order. -/
def valuationColumns : List String :=
  ["date", "security_id", "code", "exchange", "name", "close", "total_market_cap",
    "float_market_cap", "total_shares", "float_shares", "pe_ttm", "pe_static", "pb", "ps", "pcf",
    "source_dataset", "updated_at"] ++ percentileMappings.map Prod.snd

def identityColumns : List String :=
  ["date", "security_id", "code", "exchange", "name", "source_dataset"]

/-- `pd.DataFrame` of the rows: a column of numbers that has one is a column of floats. -/
def valuationFrame : List Row → Frame
  | [] => ⟨[], fun _ => .object, []⟩
  | rows =>
    { columns := valuationColumns
      dtype := fun column =>
        if column = "updated_at" then .datetime
        else if column ∉ identityColumns ∧ ∃ r ∈ rows, r column ≠ .null then .floating
        else .object
      rows := rows }

/-! Reading -/

section Materialize

variable (p : Pandas) (reads : Reads) (st : Store)

/-- `read_partition_or_empty`; it lists the partitions itself. -/
def readPartitionOrEmpty (datasetId partitionValue : String) : Except StoreError Frame :=
  readPartitionOrEmptyCached p reads st reads.partitions datasetId partitionValue

/-- The rows of a source under the code of the security, if it has one. -/
def valuationSource (datasetId code : String) : Except StoreError Frame :=
  if code = "" then .ok ⟨[], fun _ => .object, []⟩ else readPartitionOrEmpty p reads st datasetId code

def materializeSecurityValuation (security : Row) (updatedAt : Int) : Except StoreError Frame := do
  let akshare ← valuationSource p reads st akshareValuationDataset
    (cleanString p (security "akshare_code"))
  let baostock ← valuationSource p reads st baostockPercentileDataset
    (cleanString p (security "baostock_code"))
  if akshare.rows = [] ∧ baostock.rows = [] then .ok ⟨[], fun _ => .object, []⟩
  else
    let akshareByDate := rowsByDate p akshare.rows
    let baostockByDate := rowsByDate p baostock.rows
    let dates := stableSort id ((akshareByDate ++ baostockByDate).map Prod.fst).eraseDups
    .ok (valuationFrame (dates.map fun day =>
      valuationRow day security (Dict.get day akshareByDate) (Dict.get day baostockByDate) updatedAt))

end Materialize

end QuantDataCenter.Derived
