import Mathlib.Data.List.MinMax
import QuantDataCenter.Storage.StoredContent

/-!
Local price adjustment (`sources/baostock/adjustments.py`): a bar takes the latest factor
of its code that is not later than the bar. Prices are multiplied exactly.
-/

set_option autoImplicit false
set_option relaxedAutoImplicit false

namespace QuantDataCenter.Sources

open QuantDataCenter.Lib.Checked QuantDataCenter.Lib.Keyed QuantDataCenter.Tabular
open QuantDataCenter.Quality QuantDataCenter.Storage

def adjustedDailyFactorColumns : List (String × String) :=
  [("baostock_cn_stock_daily_bar_qfq", "forward_adjust_factor"),
    ("baostock_cn_stock_daily_bar_hfq", "backward_adjust_factor")]

def priceColumns : List String := ["open", "high", "low", "close", "prev_close"]

/-- `ADJUSTED_DAILY_FACTOR_COLUMNS[dataset]`. -/
def adjustedFactorColumn (dataset : String) : Except StoreError String :=
  match adjustedDailyFactorColumns.find? fun e => e.1 == dataset with
  | some e => .ok e.2
  | none => .error (.valueError ("Unsupported adjusted daily_bar dataset: " ++ dataset))

/-- A row of `_factor_values`, with its date in nanoseconds. -/
structure FactorValue where
  code : String
  date : Int
  value : ℚ
  deriving DecidableEq

section Adjust

variable (p : Pandas)

/-- `astype("string")` of a code. -/
def codeText : Cell → Option String
  | .null => none
  | c => some (p.str c)

/-- The factor of a row, if none of its three cells is missing. -/
def factorValue (factorColumn : String) (r : Row) : Option FactorValue :=
  match codeText p (r "code"), parsedDate p (r "dividend_operate_date"),
    numericValue p (r factorColumn) with
  | some code, some date, some value => some ⟨code, date, value⟩
  | _, _, _ => none

/-- `_factor_values`; a column that is missing is a `KeyError`. -/
def factorValues (factors : Frame) (factorColumn : String) : Except StoreError (List FactorValue) :=
  if factors.rows = [] ∨ factorColumn ∉ factors.columns then .ok []
  else if "code" ∉ factors.columns ∨ "dividend_operate_date" ∉ factors.columns then .error .other
  else .ok (factors.rows.filterMap (factorValue p factorColumn))

/-- The factor that `merge_asof` matches with a bar, 1 where there is none. -/
def adjFactor (values : List FactorValue) (r : Row) : ℚ :=
  match codeText p (r "code"), parsedDate p (r "date") with
  | some code, some date =>
    ((@List.argmax _ _ Int.instLinearOrder.toPreorder _ FactorValue.date
      (values.filter fun v => v.code = code ∧ v.date ≤ date)).map FactorValue.value).getD 1
  | _, _ => 1

def adjustedPrice (factor : ℚ) (c : Cell) : Cell :=
  match numericValue p c with
  | none => .null
  | some x => .real (x * factor)

/-- The row of a bar with its adjusted prices and the flag of the dataset, in the columns it has. -/
def adjustedRow (columns : List String) (adjustFlag : String) (values : List FactorValue) (r : Row) :
    Row := fun column =>
  if column ∉ columns then r column
  else if column = "adjust_flag" then .text adjustFlag
  else if column ∈ priceColumns then adjustedPrice p (adjFactor p values r) (r column)
  else r column

def adjustedDtype (columns : List String) (dtype : String → Dtype) (column : String) : Dtype :=
  if column ∉ columns then dtype column
  else if column = "adjust_flag" then .object
  else if column ∈ priceColumns then .floating
  else dtype column

/-- `calculate_adjusted_daily_bar`. -/
def calculateAdjustedDailyBar (unadjusted factors : Frame) (dataset adjustFlag : String) :
    Except StoreError Frame := do
  let factorColumn ← adjustedFactorColumn dataset
  if unadjusted.rows = [] then .ok unadjusted
  else if "date" ∉ unadjusted.columns ∨ "code" ∉ unadjusted.columns then .error .other
  else do
    let values ← factorValues p factors factorColumn
    .ok {
      columns := unadjusted.columns
      dtype := adjustedDtype unadjusted.columns unadjusted.dtype
      rows := unadjusted.rows.map (adjustedRow p unadjusted.columns adjustFlag values) }

end Adjust

section Spec

variable {p : Pandas} {unadjusted factors out : Frame} {dataset adjustFlag : String}

/-- What the calculation returns: a row for each row, in the same columns. -/
theorem calculate_spec
    (h : calculateAdjustedDailyBar p unadjusted factors dataset adjustFlag = .ok out) :
    ∃ factorColumn values, adjustedFactorColumn dataset = .ok factorColumn ∧
      (unadjusted.rows ≠ [] → factorValues p factors factorColumn = .ok values ∧
        out.dtype = adjustedDtype unadjusted.columns unadjusted.dtype) ∧
      out.columns = unadjusted.columns ∧
      out.rows = unadjusted.rows.map (adjustedRow p unadjusted.columns adjustFlag values) := by
  obtain ⟨factorColumn, hcolumn, h⟩ := bind_eq_ok.mp h
  split at h
  case isTrue hnil =>
    obtain rfl := Except.ok.inj h
    exact ⟨factorColumn, [], hcolumn, fun hne => absurd hnil hne, rfl, by rw [hnil]; rfl⟩
  case isFalse =>
    split at h
    case isTrue => cases h
    case isFalse =>
      obtain ⟨values, hvalues, h⟩ := bind_eq_ok.mp h
      obtain rfl := Except.ok.inj h
      exact ⟨factorColumn, values, hcolumn, fun _ => ⟨hvalues, rfl⟩, rfl, rfl⟩

theorem adjustedRow_other {columns : List String} {values : List FactorValue} {r : Row}
    {column : String} (hflag : column ≠ "adjust_flag") (hprice : column ∉ priceColumns) :
    adjustedRow p columns adjustFlag values r column = r column := by
  unfold adjustedRow
  split
  · rfl
  · rfl

end Spec

end QuantDataCenter.Sources
