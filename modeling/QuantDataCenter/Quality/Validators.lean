import QuantDataCenter.Storage.Schema

/-!
The checks that run before a file is replaced (`quality/validators.py`). A check
that only logs a warning (prices out of order, negative amounts, repeated delist
codes) accepts every frame and does not appear.
-/

set_option autoImplicit false
set_option relaxedAutoImplicit false

namespace QuantDataCenter.Quality

open QuantDataCenter.Tabular QuantDataCenter.Storage

abbrev Validator := Pandas → Frame → Except StoreError Unit

/-- `if not condition: raise ValidationError(message)`. -/
def require (condition : Prop) [Decidable condition] (message : String) : Except StoreError Unit :=
  if condition then .ok () else .error (.validationError message)

/-- The values of a row in some columns. -/
def rowKey (columns : List String) (r : Row) : List Cell := columns.map r

/-- `astype("string").str.strip()` on one cell. -/
def strippedText (p : Pandas) : Cell → Option String
  | .null => none
  | c => some (strip (p.str c))

/-- `_blank_mask` on one cell. -/
def isBlank (p : Pandas) (c : Cell) : Bool :=
  match strippedText p c with
  | none => true
  | some s => s == ""

/-- `pd.to_datetime(..., errors="coerce")` on one cell. -/
def parsedDate (p : Pandas) : Cell → Option Int
  | .null => none
  | c => p.toDatetime c

/-- `pd.to_numeric(..., errors="coerce")` on one cell. -/
def numericValue (p : Pandas) : Cell → Option ℚ
  | .null => none
  | c => p.toNumeric c

def validateSchemaMatches (schema : Schema) : Validator := fun _ df => do
  require (df.columns = fieldNames schema) "Schema columns mismatch"
  require (∀ field ∈ schema, ∀ r ∈ df.rows, field.type.accepts (r field.name) = true)
    "Schema type conversion failed"

def validateUniqueColumns (columns : List String) : Validator := fun _ df =>
  require ((df.rows.map (rowKey columns)).Nodup) "Duplicate rows found"

def validateUniqueCodeDate : Validator := validateUniqueColumns ["code", "date"]

def isSixDigitCode (p : Pandas) (c : Cell) : Bool :=
  match strippedText p c with
  | none => false
  | some s => p.sixDigits s.toList

def validateAkshareSixDigitCodes : Validator := fun p df =>
  if df.rows = [] ∨ "code" ∉ df.columns then .ok ()
  else require (∀ r ∈ df.rows, isSixDigitCode p (r "code") = true) "AkShare code must be 6 digits"

/-- Dates are present and do not decrease within a group of rows. -/
def validateDateMonotonicByGroup (groupColumns : List String) (dateColumn : String) : Validator :=
  fun p df =>
    if df.rows = [] then .ok ()
    else do
      require (∀ r ∈ df.rows, (parsedDate p (r dateColumn)).isSome = true)
        (dateColumn ++ " contains null or invalid values")
      require (∀ r ∈ df.rows,
          ((df.rows.filter fun x => rowKey groupColumns x = rowKey groupColumns r).filterMap
            fun x => parsedDate p (x dateColumn)).Pairwise (· ≤ ·))
        (dateColumn ++ " is not monotonically increasing")

def validateDateMonotonic : Validator := validateDateMonotonicByGroup ["code"] "date"

def validateNonEmptyColumns (columns : List String) : Validator := fun p df =>
  if df.rows = [] then .ok ()
  else require (∀ column ∈ columns, ∀ r ∈ df.rows, isBlank p (r column) = false)
    "column must be non-empty"

/-- Values that parse as numbers lie between 0 and 100. -/
def validatePercentiles (columns : List String) : Validator := fun p df =>
  require (∀ column ∈ columns, ∀ r ∈ df.rows, ∀ x ∈ numericValue p (r column), 0 ≤ x ∧ x ≤ 100)
    "percentile out of range 0..100"

def canonicalExchanges : List String := ["SH", "SZ", "BJ"]

def adjustments : List String := ["unadjusted", "qfq", "hfq"]

def validateCanonicalSecurityIdColumns : Validator := fun p df =>
  if df.rows = [] then .ok ()
  else do
    require (∀ r ∈ df.rows, ∃ s ∈ strippedText p (r "security_id"), p.canonicalSecurityId s = true)
      "security_id must look like SH.600000/SZ.000001/BJ.430000"
    require (∀ r ∈ df.rows, isSixDigitCode p (r "code") = true) "code must be 6 digits"
    require (∀ r ∈ df.rows, ∃ s ∈ strippedText p (r "exchange"), s ∈ canonicalExchanges)
      "exchange must be one of SH, SZ, BJ"
    require (∀ r ∈ df.rows, strippedText p (r "security_id") =
        (strippedText p (r "exchange")).bind fun exchange =>
          (strippedText p (r "code")).map fun code => exchange ++ "." ++ code)
      "security_id must equal exchange + '.' + code"

/-- A code column of the master is blank or follows from exchange and code. -/
def codeMatches (p : Pandas) (expected : String → String → Option String) (column : String)
    (r : Row) : Prop :=
  isBlank p (r column) = true ∨
    strippedText p (r column) =
      (strippedText p (r "exchange")).bind fun exchange =>
        (strippedText p (r "code")).bind fun code => expected exchange code

instance (p : Pandas) (expected : String → String → Option String) (column : String) (r : Row) :
    Decidable (codeMatches p expected column r) :=
  inferInstanceAs (Decidable (_ ∨ _))

def validateCnSecurityMaster : Validator := fun p df => do
  validateSchemaMatches cnSecurityMasterSchema p df
  validateUniqueColumns ["security_id"] p df
  validateNonEmptyColumns ["security_id", "code", "exchange", "updated_at"] p df
  validateCanonicalSecurityIdColumns p df
  if df.rows = [] then .ok ()
  else do
    require (∀ r ∈ df.rows, codeMatches p (fun _ code => some code) "akshare_code" r)
      "akshare_code must equal code when present"
    require (∀ r ∈ df.rows, codeMatches p
        (fun exchange code => if exchange = "BJ" then none else some (p.lower exchange ++ "." ++ code))
        "baostock_code" r)
      "baostock_code does not match canonical code mapping"
    require (∀ r ∈ df.rows, codeMatches p
        (fun exchange code => some (p.lower exchange ++ code)) "qlib_symbol" r)
      "qlib_symbol does not match canonical code mapping"
    require (∀ r ∈ df.rows, r "is_active" = .bool true →
        (strippedText p (r "listing_status")).map p.lower = some "active")
      "is_active=True requires listing_status='active'"

def validateCnStockDailyBar : Validator := fun p df => do
  validateSchemaMatches cnStockDailyBarSchema p df
  validateUniqueColumns ["date", "security_id", "adjustment"] p df
  validateNonEmptyColumns
    ["date", "security_id", "code", "exchange", "adjustment", "source_dataset", "updated_at"] p df
  validateCanonicalSecurityIdColumns p df
  if df.rows = [] then .ok ()
  else do
    require (∀ r ∈ df.rows, ∃ s ∈ strippedText p (r "adjustment"), s ∈ adjustments)
      "adjustment must be one of hfq, qfq, unadjusted"
    validateDateMonotonicByGroup ["security_id", "adjustment"] "date" p df

def validateCnStockValuation : Validator := fun p df => do
  validateSchemaMatches cnStockValuationSchema p df
  validateUniqueColumns ["date", "security_id"] p df
  validateNonEmptyColumns
    ["date", "security_id", "code", "exchange", "source_dataset", "updated_at"] p df
  validateCanonicalSecurityIdColumns p df
  if df.rows = [] then .ok ()
  else do
    validatePercentiles (df.columns.filter fun column =>
      column.toList.tails.any ("percentile".toList.isPrefixOf ·)) p df
    validateDateMonotonicByGroup ["security_id"] "date" p df

def validateDailyBar : Validator := fun p df => do
  validateSchemaMatches dailyBarSchema p df
  validateUniqueCodeDate p df
  validateDateMonotonic p df

def validateBaostockCnStockValuationPercentile : Validator := fun p df => do
  validateSchemaMatches baostockValuationPercentileSchema p df
  validateUniqueCodeDate p df
  validateDateMonotonic p df
  validatePercentiles (df.columns.filter fun column =>
    ["_1y", "_3y", "_5y", "_10y", "_all_history"].any fun suffix =>
      suffix.toList.isSuffixOf column.toList) p df

def validateBaostockCnStockBasic : Validator := fun p df => do
  validateSchemaMatches baostockCnStockBasicSchema p df
  validateUniqueColumns ["code"] p df

def validateBaostockCnTradingCalendar : Validator := fun p df => do
  validateSchemaMatches baostockCnTradingCalendarSchema p df
  validateUniqueColumns ["calendar_date"] p df

def validateBaostockCnStockAdjustmentFactor : Validator := fun p df => do
  validateSchemaMatches baostockCnStockAdjustmentFactorSchema p df
  validateUniqueColumns ["code", "dividend_operate_date"] p df
  validateDateMonotonicByGroup ["code"] "dividend_operate_date" p df

def validateAkshareCnStockValuationEastmoney : Validator := fun p df => do
  validateSchemaMatches akshareValuationEastmoneySchema p df
  validateAkshareSixDigitCodes p df
  validateUniqueCodeDate p df
  validateDateMonotonic p df

def validateAkshareCnStockCapitalStructureEm : Validator := fun p df => do
  validateSchemaMatches akshareCapitalStructureEmSchema p df
  validateAkshareSixDigitCodes p df
  validateUniqueColumns ["code", "change_date", "change_reason"] p df
  validateDateMonotonicByGroup ["code"] "change_date" p df

def validateAkshareCnStockDelistSh : Validator := fun p df => do
  validateSchemaMatches stockInfoDelistSchema p df
  validateAkshareSixDigitCodes p df

def validateAkshareCnStockDelistSz : Validator := fun p df => do
  validateSchemaMatches stockInfoDelistSchema p df
  validateAkshareSixDigitCodes p df

def validateAkshareCnStockSpotQuoteEastmoney : Validator := fun p df => do
  validateSchemaMatches akshareSpotQuoteEastmoneySchema p df
  validateAkshareSixDigitCodes p df
  validateUniqueColumns ["trade_date", "code"] p df

def validateAkshareCnStockSpotQuoteSina : Validator := fun p df => do
  validateSchemaMatches akshareSpotQuoteSinaSchema p df
  validateAkshareSixDigitCodes p df
  validateUniqueColumns ["trade_date", "code"] p df

def validateAkshareCnStockReportDisclosure : Validator := fun p df => do
  validateSchemaMatches akshareReportDisclosureSchema p df
  validateAkshareSixDigitCodes p df
  validateUniqueColumns ["report_period", "code"] p df

def validateAkshareCnStockYysjEm : Validator := fun p df => do
  validateSchemaMatches akshareYysjEmSchema p df
  validateAkshareSixDigitCodes p df
  validateUniqueColumns ["report_period", "symbol", "code"] p df

def validateAkshareCnStockYjygEm : Validator := fun p df => do
  validateSchemaMatches akshareYjygEmSchema p df
  validateAkshareSixDigitCodes p df
  validateUniqueColumns
    ["report_period", "code", "name", "announcement_date", "forecast_indicator", "forecast_type",
      "performance_change", "forecast_value", "performance_change_pct",
      "performance_change_reason", "prior_period_value"] p df
  require (∀ r ∈ df.rows, r "announcement_date" = .null ∨
      (parsedDate p (r "announcement_date")).isSome = true)
    "announcement_date contains invalid values"

def validateAkshareCnStockFinancialReportSina : Validator := fun p df => do
  validateSchemaMatches akshareFinancialReportSinaSchema p df
  validateAkshareSixDigitCodes p df
  validateUniqueColumns ["code", "report_type", "report_date", "item_name"] p df
  validateDateMonotonicByGroup ["code", "report_type"] "report_date" p df

def validateAkshareCnStockDailyBar : Validator := fun p df => do
  validateSchemaMatches akshareDailyBarSchema p df
  validateAkshareSixDigitCodes p df
  validateUniqueColumns ["code", "date", "adjustment"] p df
  validateDateMonotonic p df

def validateAkshareCnStockInstitutionHolding : Validator := fun p df => do
  validateSchemaMatches akshareStockInstitutionHoldingSchema p df
  validateAkshareSixDigitCodes p df
  validateUniqueColumns ["report_period", "code"] p df

def validateQlibCnCalendarDay : Validator := fun p df => do
  validateSchemaMatches qlibCnCalendarDaySchema p df
  validateUniqueColumns ["calendar_date"] p df

def validateQlibCnInstrumentMembership : Validator := fun p df => do
  validateSchemaMatches qlibCnInstrumentMembershipSchema p df
  validateUniqueColumns ["universe", "qlib_symbol", "start_date", "end_date"] p df

def validateQlibCnStockFeaturesDay : Validator := fun p df => do
  validateSchemaMatches qlibCnStockFeaturesDaySchema p df
  validateUniqueColumns ["qlib_symbol", "date"] p df
  validateDateMonotonicByGroup ["qlib_symbol"] "date" p df

end QuantDataCenter.Quality
