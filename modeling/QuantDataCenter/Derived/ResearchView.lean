import QuantDataCenter.Lib.Relational
import QuantDataCenter.Storage.StoredContent

/-!
The research view of the daily bars: the three adjustments and the factors of the
Baostock datasets, pivoted to one row for a date and six digits. The query is
followed table by table.
-/

set_option autoImplicit false
set_option relaxedAutoImplicit false

namespace QuantDataCenter.Derived.Research

open QuantDataCenter.Lib.Relational QuantDataCenter.Tabular QuantDataCenter.Storage

/-! Texts and values -/

/-- `regexp_extract(code, '(\d{6})', 1)`: the first six digits in a row, or nothing. -/
def firstSixDigits : List Char → List Char
  | [] => []
  | c :: cs =>
    if ((c :: cs).take 6).length = 6 ∧ ((c :: cs).take 6).all Char.isDigit = true then
      (c :: cs).take 6
    else firstSixDigits cs

def code6 : Cell → Cell
  | .text s => .text (String.ofList (firstSixDigits s.toList))
  | _ => .null

/-- `upper(regexp_extract(code, '^(sh|sz|bj)\.', 1))`. -/
def exchangeOf : Cell → Cell
  | .text s =>
    match s.toList with
    | 's' :: 'h' :: '.' :: _ => .text "SH"
    | 's' :: 'z' :: '.' :: _ => .text "SZ"
    | 'b' :: 'j' :: '.' :: _ => .text "BJ"
    | _ => .text ""
  | _ => .null

def securityIdOf (code : Cell) : Cell :=
  match exchangeOf code, code6 code with
  | .text exchange, .text digits => .text (exchange ++ "." ++ digits)
  | _, _ => .null

def castDate : Cell → Cell
  | .stamp ns => .date (ns / nsPerDay)
  | c => c

def castDouble : Cell → Cell
  | .int n => .real n
  | c => c

def sqlMax (values : List Cell) : Cell := greatest Cell.rank .null values

/-- The greatest value of a column over the rows. -/
def maxOf (rows : List Row) : Row := fun column => sqlMax (rows.map fun r => r column)

/-! `daily` -/

/-- The rows of the four views the query reads. -/
structure BarRows where
  unadjusted : List Row
  qfq : List Row
  hfq : List Row
  factors : List Row

structure DailyRow where
  adjustment : String
  cells : Row

def dailyCells (r : Row) : Row
  | "date" => castDate (r "date")
  | "security_id" => securityIdOf (r "code")
  | "exchange" => exchangeOf (r "code")
  | "name" => .null
  | "volume" => castDouble (r "volume")
  | "is_active" => .bool true
  | column => r column

def daily (bars : BarRows) : List DailyRow :=
  bars.unadjusted.map (fun r => ⟨"unadjusted", dailyCells r⟩) ++
    bars.qfq.map (fun r => ⟨"qfq", dailyCells r⟩) ++ bars.hfq.map (fun r => ⟨"hfq", dailyCells r⟩)

/-! `pivoted` and `base` -/

/-- The column `qfq_open` is `qfq "open"`, and so on. -/
structure PivotedRow where
  date : Cell
  code6 : Cell
  unadjusted : Row
  isActive : Cell
  qfq : Row
  hfq : Row
  unadjustedRows : ℕ

def DailyRow.key (r : DailyRow) : Cell × Cell := (r.cells "date", Research.code6 (r.cells "code"))

/-- `FILTER (WHERE adjustment = ...)`. -/
def withAdjustment (adjustment : String) (rows : List DailyRow) : List Row :=
  (rows.filter fun r => r.adjustment = adjustment).map DailyRow.cells

def isActiveCase (r : DailyRow) : Cell :=
  if r.adjustment = "unadjusted" then
    match r.cells "is_active" with
    | .bool b => .bool b
    | .text s =>
      if s.toLower ∈ ["true", "1", "1.0", "yes"] then .bool true
      else if s.toLower ∈ ["false", "0", "0.0", "no"] then .bool false
      else .null
    | _ => .null
  else .null

def pivotRow (key : Cell × Cell) (rows : List DailyRow) : PivotedRow where
  date := key.1
  code6 := key.2
  unadjusted := maxOf (withAdjustment "unadjusted" rows)
  isActive := sqlMax (rows.map isActiveCase)
  qfq := maxOf (withAdjustment "qfq" rows)
  hfq := maxOf (withAdjustment "hfq" rows)
  unadjustedRows := (withAdjustment "unadjusted" rows).length

def pivoted (bars : BarRows) : List PivotedRow := groupBy DailyRow.key (daily bars) pivotRow

def base (bars : BarRows) : List PivotedRow := (pivoted bars).filter fun r => 0 < r.unadjustedRows

/-! `factor_events` and `joined` -/

structure FactorEvent where
  code6 : Cell
  date : Cell
  factors : Row
  hasFactorEvent : Bool

def factorKey (r : Row) : Cell × Cell :=
  (castDate (r "dividend_operate_date"), Research.code6 (r "code"))

def factorEvents (bars : BarRows) : List FactorEvent :=
  groupBy factorKey bars.factors fun key rows => ⟨key.2, key.1, maxOf rows, true⟩

structure JoinedRow where
  base : PivotedRow
  factors : Row
  hasFactorEvent : Bool

/-- The `LEFT JOIN` of one row; missing values match nothing. -/
def joinRow (events : List FactorEvent) (row : PivotedRow) : JoinedRow :=
  match events.find? fun e => e.code6 ≠ .null ∧ e.date ≠ .null ∧ e.code6 = row.code6 ∧
    e.date = row.date with
  | some e => ⟨row, e.factors, e.hasFactorEvent⟩
  | none => ⟨row, fun _ => .null, false⟩

def joined (bars : BarRows) : List JoinedRow := (base bars).map (joinRow (factorEvents bars))

/-! The view -/

def JoinedRow.code (r : JoinedRow) : Cell := r.base.unadjusted "code"

structure ResearchRow where
  joined : JoinedRow
  corporateActionFlag : Bool

def corporateActionFlag (rows : List JoinedRow) (r : JoinedRow) : Bool :=
  let current := r.factors "adjustment_factor"
  let previous := ((lag JoinedRow.code (fun x => x.base.date.rank) rows r).map fun x =>
    x.factors "adjustment_factor").getD .null
  r.hasFactorEvent || (current ≠ .null && previous ≠ .null && current ≠ previous)

/-- `v_cn_stock_daily_bar_research`. -/
def researchView (bars : BarRows) : List ResearchRow :=
  (joined bars).map fun r => ⟨r, corporateActionFlag (joined bars) r⟩

/-- The code and the date of a row of the view. -/
def ResearchRow.key (r : ResearchRow) : Cell × Cell := (r.joined.code, r.joined.base.date)

/-! The views of the datasets -/

def unadjustedBars : DatasetDefinition := dailyBarDataset "baostock_cn_stock_daily_bar_unadjusted"

def qfqBars : DatasetDefinition := dailyBarDataset "baostock_cn_stock_daily_bar_qfq"

def hfqBars : DatasetDefinition := dailyBarDataset "baostock_cn_stock_daily_bar_hfq"

/-- `SELECT * FROM read_parquet(...)` over the partitions that exist. -/
def datasetRows (st : Store) (partitions : String → List String) (d : DatasetDefinition) :
    List Row :=
  (partitions d.id).flatMap (content st d)

def barRows (st : Store) (partitions : String → List String) : BarRows where
  unadjusted := datasetRows st partitions unadjustedBars
  qfq := datasetRows st partitions qfqBars
  hfq := datasetRows st partitions hfqBars
  factors := datasetRows st partitions baostockCnStockAdjustmentFactorDataset

end QuantDataCenter.Derived.Research
