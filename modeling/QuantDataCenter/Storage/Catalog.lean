import QuantDataCenter.Quality.Validators

/-!
The catalog of datasets (`storage/dataset_catalog.py`).
-/

set_option autoImplicit false
set_option relaxedAutoImplicit false

namespace QuantDataCenter.Storage

open QuantDataCenter.Tabular QuantDataCenter.Quality

inductive Source where
  | baostock
  | akshare
  | qlib
  | derived
  deriving DecidableEq, Repr

inductive CodeFormat where
  | baostockPrefixed
  | sixDigit
  | none
  | qlibSymbol
  | canonicalSecurityId
  deriving DecidableEq, Repr

inductive WriteMode where
  | replace
  | merge
  | upsert
  deriving DecidableEq, Repr

structure DatasetDefinition where
  id : String
  source : Source
  codeFormat : CodeFormat
  schema : Schema
  validator : Validator
  partitionColumn : Option String := none
  sortColumns : List String
  uniqueColumns : List String
  defaultWriteMode : WriteMode := .replace
  fixedColumnValues : List (String × String) := []
  legacyPartitionPrefixes : List String := []

def baostockDailyBarDatasetIds : List String :=
  ["baostock_cn_stock_daily_bar_unadjusted", "baostock_cn_stock_daily_bar_qfq",
    "baostock_cn_stock_daily_bar_hfq"]

def dailyBarDataset (datasetId : String) : DatasetDefinition where
  id := datasetId
  source := .baostock
  codeFormat := .baostockPrefixed
  schema := dailyBarSchema
  validator := validateDailyBar
  partitionColumn := some "code"
  sortColumns := ["code", "date"]
  uniqueColumns := ["code", "date"]

def baostockCnStockBasicDataset : DatasetDefinition where
  id := "baostock_cn_stock_basic"
  source := .baostock
  codeFormat := .baostockPrefixed
  schema := baostockCnStockBasicSchema
  validator := validateBaostockCnStockBasic
  sortColumns := ["code"]
  uniqueColumns := ["code"]
  legacyPartitionPrefixes := ["snapshot_date="]

def baostockCnTradingCalendarDataset : DatasetDefinition where
  id := "baostock_cn_trading_calendar"
  source := .baostock
  codeFormat := .none
  schema := baostockCnTradingCalendarSchema
  validator := validateBaostockCnTradingCalendar
  sortColumns := ["calendar_date"]
  uniqueColumns := ["calendar_date"]
  defaultWriteMode := .merge

def baostockCnStockAdjustmentFactorDataset : DatasetDefinition where
  id := "baostock_cn_stock_adjustment_factor"
  source := .baostock
  codeFormat := .baostockPrefixed
  schema := baostockCnStockAdjustmentFactorSchema
  validator := validateBaostockCnStockAdjustmentFactor
  partitionColumn := some "code"
  sortColumns := ["code", "dividend_operate_date"]
  uniqueColumns := ["code", "dividend_operate_date"]

def baostockCnStockValuationPercentileDataset : DatasetDefinition where
  id := "baostock_cn_stock_valuation_percentile"
  source := .baostock
  codeFormat := .baostockPrefixed
  schema := baostockValuationPercentileSchema
  validator := validateBaostockCnStockValuationPercentile
  partitionColumn := some "code"
  sortColumns := ["code", "date"]
  uniqueColumns := ["code", "date"]

def akshareValuationEastmoneyDataset : DatasetDefinition where
  id := "akshare_cn_stock_valuation_eastmoney"
  source := .akshare
  codeFormat := .sixDigit
  schema := akshareValuationEastmoneySchema
  validator := validateAkshareCnStockValuationEastmoney
  partitionColumn := some "code"
  sortColumns := ["code", "date"]
  uniqueColumns := ["code", "date"]

def akshareCapitalStructureEmDataset : DatasetDefinition where
  id := "akshare_cn_stock_capital_structure_em"
  source := .akshare
  codeFormat := .sixDigit
  schema := akshareCapitalStructureEmSchema
  validator := validateAkshareCnStockCapitalStructureEm
  partitionColumn := some "code"
  sortColumns := ["code", "change_date", "change_reason"]
  uniqueColumns := ["code", "change_date", "change_reason"]

def akshareDelistShDataset : DatasetDefinition where
  id := "akshare_cn_stock_delist_sh"
  source := .akshare
  codeFormat := .sixDigit
  schema := stockInfoDelistSchema
  validator := validateAkshareCnStockDelistSh
  partitionColumn := some "snapshot_date"
  sortColumns := ["market", "code"]
  uniqueColumns := ["snapshot_date", "exchange", "code"]

def akshareDelistSzDataset : DatasetDefinition where
  id := "akshare_cn_stock_delist_sz"
  source := .akshare
  codeFormat := .sixDigit
  schema := stockInfoDelistSchema
  validator := validateAkshareCnStockDelistSz
  partitionColumn := some "snapshot_date"
  sortColumns := ["market", "code"]
  uniqueColumns := ["snapshot_date", "exchange", "code"]

def akshareSpotQuoteEastmoneyDataset : DatasetDefinition where
  id := "akshare_cn_stock_spot_quote_eastmoney"
  source := .akshare
  codeFormat := .sixDigit
  schema := akshareSpotQuoteEastmoneySchema
  validator := validateAkshareCnStockSpotQuoteEastmoney
  partitionColumn := some "trade_date"
  sortColumns := ["code"]
  uniqueColumns := ["trade_date", "code"]

def akshareSpotQuoteSinaDataset : DatasetDefinition where
  id := "akshare_cn_stock_spot_quote_sina"
  source := .akshare
  codeFormat := .sixDigit
  schema := akshareSpotQuoteSinaSchema
  validator := validateAkshareCnStockSpotQuoteSina
  partitionColumn := some "trade_date"
  sortColumns := ["code"]
  uniqueColumns := ["trade_date", "code"]

def akshareReportDisclosureDataset : DatasetDefinition where
  id := "akshare_cn_stock_report_disclosure"
  source := .akshare
  codeFormat := .sixDigit
  schema := akshareReportDisclosureSchema
  validator := validateAkshareCnStockReportDisclosure
  partitionColumn := some "report_period"
  sortColumns := ["report_period", "code"]
  uniqueColumns := ["report_period", "code"]

def akshareYysjEmDataset : DatasetDefinition where
  id := "akshare_cn_stock_yysj_em"
  source := .akshare
  codeFormat := .sixDigit
  schema := akshareYysjEmSchema
  validator := validateAkshareCnStockYysjEm
  partitionColumn := some "report_period"
  sortColumns := ["report_period", "symbol", "code"]
  uniqueColumns := ["report_period", "symbol", "code"]

def akshareYjygEmDataset : DatasetDefinition where
  id := "akshare_cn_stock_yjyg_em"
  source := .akshare
  codeFormat := .sixDigit
  schema := akshareYjygEmSchema
  validator := validateAkshareCnStockYjygEm
  partitionColumn := some "report_period"
  sortColumns :=
    ["report_period", "code", "announcement_date", "forecast_indicator", "forecast_type",
      "performance_change", "forecast_value"]
  uniqueColumns :=
    ["report_period", "code", "name", "announcement_date", "forecast_indicator", "forecast_type",
      "performance_change", "forecast_value", "performance_change_pct",
      "performance_change_reason", "prior_period_value"]
  defaultWriteMode := .replace

def akshareFinancialReportSinaDataset : DatasetDefinition where
  id := "akshare_cn_stock_financial_report_sina"
  source := .akshare
  codeFormat := .sixDigit
  schema := akshareFinancialReportSinaSchema
  validator := validateAkshareCnStockFinancialReportSina
  partitionColumn := some "code"
  sortColumns := ["code", "report_type", "report_date", "item_name"]
  uniqueColumns := ["code", "report_type", "report_date", "item_name"]

def akshareDailyBarAdjustments : List String := ["unadjusted", "qfq", "hfq"]

def akshareDailyBarDataset (adjustment : String) : DatasetDefinition where
  id := "akshare_cn_stock_daily_bar_" ++ adjustment
  source := .akshare
  codeFormat := .sixDigit
  schema := akshareDailyBarSchema
  validator := validateAkshareCnStockDailyBar
  partitionColumn := some "code"
  sortColumns := ["code", "adjustment", "date"]
  uniqueColumns := ["code", "date", "adjustment"]
  defaultWriteMode := .replace
  fixedColumnValues := [("adjustment", adjustment)]

def akshareStockInstitutionHoldingDataset : DatasetDefinition where
  id := "akshare_cn_stock_institution_holding"
  source := .akshare
  codeFormat := .sixDigit
  schema := akshareStockInstitutionHoldingSchema
  validator := validateAkshareCnStockInstitutionHolding
  partitionColumn := some "report_period"
  sortColumns := ["code", "report_period"]
  uniqueColumns := ["report_period", "code"]

def qlibCnCalendarDayDataset : DatasetDefinition where
  id := "qlib_cn_calendar_day"
  source := .qlib
  codeFormat := .none
  schema := qlibCnCalendarDaySchema
  validator := validateQlibCnCalendarDay
  sortColumns := ["calendar_date"]
  uniqueColumns := ["calendar_date"]

def qlibCnInstrumentMembershipDataset : DatasetDefinition where
  id := "qlib_cn_instrument_membership"
  source := .qlib
  codeFormat := .qlibSymbol
  schema := qlibCnInstrumentMembershipSchema
  validator := validateQlibCnInstrumentMembership
  sortColumns := ["universe", "qlib_symbol", "start_date", "end_date"]
  uniqueColumns := ["universe", "qlib_symbol", "start_date", "end_date"]

def qlibCnStockFeaturesDayDataset : DatasetDefinition where
  id := "qlib_cn_stock_features_day"
  source := .qlib
  codeFormat := .qlibSymbol
  schema := qlibCnStockFeaturesDaySchema
  validator := validateQlibCnStockFeaturesDay
  partitionColumn := some "qlib_symbol"
  sortColumns := ["qlib_symbol", "date"]
  uniqueColumns := ["qlib_symbol", "date"]

def cnSecurityMasterDataset : DatasetDefinition where
  id := "cn_security_master"
  source := .derived
  codeFormat := .canonicalSecurityId
  schema := cnSecurityMasterSchema
  validator := validateCnSecurityMaster
  sortColumns := ["exchange", "code"]
  uniqueColumns := ["security_id"]
  defaultWriteMode := .replace

def cnStockDailyBarDataset : DatasetDefinition where
  id := "cn_stock_daily_bar"
  source := .derived
  codeFormat := .canonicalSecurityId
  schema := cnStockDailyBarSchema
  validator := validateCnStockDailyBar
  partitionColumn := some "security_id"
  sortColumns := ["security_id", "adjustment", "date"]
  uniqueColumns := ["date", "security_id", "adjustment"]
  defaultWriteMode := .upsert

def cnStockValuationDataset : DatasetDefinition where
  id := "cn_stock_valuation"
  source := .derived
  codeFormat := .canonicalSecurityId
  schema := cnStockValuationSchema
  validator := validateCnStockValuation
  partitionColumn := some "security_id"
  sortColumns := ["security_id", "date"]
  uniqueColumns := ["date", "security_id"]
  defaultWriteMode := .upsert

def datasetCatalog : List DatasetDefinition :=
  baostockDailyBarDatasetIds.map dailyBarDataset ++
    [baostockCnStockBasicDataset, baostockCnTradingCalendarDataset,
     baostockCnStockAdjustmentFactorDataset, baostockCnStockValuationPercentileDataset,
     akshareValuationEastmoneyDataset, akshareCapitalStructureEmDataset, akshareDelistShDataset,
     akshareDelistSzDataset, akshareSpotQuoteEastmoneyDataset, akshareSpotQuoteSinaDataset,
     akshareReportDisclosureDataset, akshareYysjEmDataset, akshareYjygEmDataset,
     akshareFinancialReportSinaDataset] ++
    akshareDailyBarAdjustments.map akshareDailyBarDataset ++
    [akshareStockInstitutionHoldingDataset, qlibCnCalendarDayDataset,
     qlibCnInstrumentMembershipDataset, qlibCnStockFeaturesDayDataset, cnSecurityMasterDataset,
     cnStockDailyBarDataset, cnStockValuationDataset]

def datasetDefinition (dataset : String) : Except StoreError DatasetDefinition :=
  match datasetCatalog.find? fun definition => definition.id == dataset with
  | some definition => .ok definition
  | none => .error (.valueError ("Unsupported dataset: " ++ dataset))

def normalizeAdjustment (p : Pandas) (adjustment : String) : Except StoreError String :=
  let normalized := p.lower (strip adjustment)
  if normalized ∈ ["", "none", "unadjusted", "不复权"] then .ok "unadjusted"
  else if normalized ∈ ["qfq", "hfq"] then .ok normalized
  else .error (.valueError ("Unsupported adjustment: " ++ adjustment))

end QuantDataCenter.Storage
