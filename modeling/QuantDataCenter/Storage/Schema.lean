import QuantDataCenter.Tabular.Cell

/-!
The column types of the datasets (`storage/schema.py`), in the order of the files.
-/

set_option autoImplicit false
set_option relaxedAutoImplicit false

namespace QuantDataCenter.Storage

open QuantDataCenter.Tabular

def dailyBarSchema : Schema :=
  [⟨"date", .date32⟩, ⟨"code", .string⟩, ⟨"open", .float64⟩, ⟨"high", .float64⟩,
    ⟨"low", .float64⟩, ⟨"close", .float64⟩, ⟨"prev_close", .float64⟩, ⟨"volume", .int64⟩,
    ⟨"amount", .float64⟩, ⟨"adjust_flag", .string⟩, ⟨"turnover_rate", .float64⟩,
    ⟨"trade_status", .string⟩, ⟨"pct_change", .float64⟩, ⟨"pe_ttm", .float64⟩,
    ⟨"pb_mrq", .float64⟩, ⟨"ps_ttm", .float64⟩, ⟨"pcf_ncf_ttm", .float64⟩, ⟨"is_st", .string⟩]

def baostockValuationPercentileSchema : Schema :=
  [⟨"date", .date32⟩, ⟨"code", .string⟩, ⟨"pe_ttm", .float64⟩, ⟨"pb_mrq", .float64⟩,
    ⟨"ps_ttm", .float64⟩, ⟨"pcf_ncf_ttm", .float64⟩, ⟨"pe_ttm_percentile_1y", .float64⟩,
    ⟨"pe_ttm_percentile_3y", .float64⟩, ⟨"pe_ttm_percentile_5y", .float64⟩,
    ⟨"pe_ttm_percentile_10y", .float64⟩, ⟨"pe_ttm_percentile_all_history", .float64⟩,
    ⟨"pb_mrq_percentile_1y", .float64⟩, ⟨"pb_mrq_percentile_3y", .float64⟩,
    ⟨"pb_mrq_percentile_5y", .float64⟩, ⟨"pb_mrq_percentile_10y", .float64⟩,
    ⟨"pb_mrq_percentile_all_history", .float64⟩, ⟨"ps_ttm_percentile_1y", .float64⟩,
    ⟨"ps_ttm_percentile_3y", .float64⟩, ⟨"ps_ttm_percentile_5y", .float64⟩,
    ⟨"ps_ttm_percentile_10y", .float64⟩, ⟨"ps_ttm_percentile_all_history", .float64⟩,
    ⟨"pcf_ncf_ttm_percentile_1y", .float64⟩, ⟨"pcf_ncf_ttm_percentile_3y", .float64⟩,
    ⟨"pcf_ncf_ttm_percentile_5y", .float64⟩, ⟨"pcf_ncf_ttm_percentile_10y", .float64⟩,
    ⟨"pcf_ncf_ttm_percentile_all_history", .float64⟩]

def baostockCnStockBasicSchema : Schema :=
  [⟨"code", .string⟩, ⟨"name", .string⟩, ⟨"ipo_date", .date32⟩, ⟨"delist_date", .date32⟩,
    ⟨"security_type", .string⟩, ⟨"listing_status", .string⟩]

def baostockCnTradingCalendarSchema : Schema :=
  [⟨"calendar_date", .date32⟩, ⟨"is_trading_day", .string⟩]

def baostockCnStockAdjustmentFactorSchema : Schema :=
  [⟨"code", .string⟩, ⟨"dividend_operate_date", .date32⟩, ⟨"forward_adjust_factor", .float64⟩,
    ⟨"backward_adjust_factor", .float64⟩, ⟨"adjustment_factor", .float64⟩]

def akshareValuationEastmoneySchema : Schema :=
  [⟨"date", .date32⟩, ⟨"code", .string⟩, ⟨"close", .float64⟩, ⟨"pct_change", .float64⟩,
    ⟨"total_market_cap", .float64⟩, ⟨"float_market_cap", .float64⟩, ⟨"total_shares", .float64⟩,
    ⟨"float_shares", .float64⟩, ⟨"pe_ttm", .float64⟩, ⟨"pe_static", .float64⟩, ⟨"pb", .float64⟩,
    ⟨"peg", .float64⟩, ⟨"pcf", .float64⟩, ⟨"ps", .float64⟩]

def akshareCapitalStructureEmSchema : Schema :=
  [⟨"change_date", .date32⟩, ⟨"code", .string⟩, ⟨"source_symbol", .string⟩,
    ⟨"total_shares", .float64⟩, ⟨"restricted_shares", .float64⟩,
    ⟨"other_domestic_restricted_shares", .float64⟩,
    ⟨"domestic_legal_person_restricted_shares", .float64⟩,
    ⟨"domestic_natural_person_restricted_shares", .float64⟩, ⟨"circulated_shares", .float64⟩,
    ⟨"listed_a_shares", .float64⟩, ⟨"change_reason", .string⟩, ⟨"source_endpoint", .string⟩,
    ⟨"fetched_at", .timestamp⟩]

def stockInfoDelistSchema : Schema :=
  [⟨"snapshot_date", .date32⟩, ⟨"exchange", .string⟩, ⟨"market", .string⟩, ⟨"code", .string⟩,
    ⟨"source_symbol", .string⟩, ⟨"name", .string⟩, ⟨"list_date", .date32⟩,
    ⟨"delist_date", .date32⟩, ⟨"source_endpoint", .string⟩, ⟨"fetched_at", .timestamp⟩]

def akshareSpotQuoteEastmoneySchema : Schema :=
  [⟨"trade_date", .date32⟩, ⟨"code", .string⟩, ⟨"source_symbol", .string⟩, ⟨"name", .string⟩,
    ⟨"last_price", .float64⟩, ⟨"price_change", .float64⟩, ⟨"pct_change", .float64⟩,
    ⟨"open", .float64⟩, ⟨"high", .float64⟩, ⟨"low", .float64⟩, ⟨"prev_close", .float64⟩,
    ⟨"volume", .float64⟩, ⟨"amount", .float64⟩, ⟨"turnover_rate", .float64⟩,
    ⟨"amplitude", .float64⟩, ⟨"pe_dynamic", .float64⟩, ⟨"pb", .float64⟩,
    ⟨"total_market_cap", .float64⟩, ⟨"float_market_cap", .float64⟩, ⟨"source_endpoint", .string⟩,
    ⟨"fetched_at", .timestamp⟩]

def akshareSpotQuoteSinaSchema : Schema :=
  [⟨"trade_date", .date32⟩, ⟨"code", .string⟩, ⟨"source_symbol", .string⟩, ⟨"name", .string⟩,
    ⟨"last_price", .float64⟩, ⟨"price_change", .float64⟩, ⟨"pct_change", .float64⟩,
    ⟨"bid", .float64⟩, ⟨"ask", .float64⟩, ⟨"prev_close", .float64⟩, ⟨"open", .float64⟩,
    ⟨"high", .float64⟩, ⟨"low", .float64⟩, ⟨"volume", .float64⟩, ⟨"amount", .float64⟩,
    ⟨"source_timestamp", .string⟩, ⟨"source_endpoint", .string⟩, ⟨"is_fallback", .bool⟩,
    ⟨"fallback_reason", .string⟩, ⟨"fetched_at", .timestamp⟩]

def akshareReportDisclosureSchema : Schema :=
  [⟨"report_period", .string⟩, ⟨"period_end_date", .date32⟩, ⟨"market", .string⟩,
    ⟨"code", .string⟩, ⟨"name", .string⟩, ⟨"first_scheduled_date", .date32⟩,
    ⟨"first_changed_date", .date32⟩, ⟨"second_changed_date", .date32⟩,
    ⟨"third_changed_date", .date32⟩, ⟨"actual_disclosure_date", .date32⟩,
    ⟨"source_endpoint", .string⟩, ⟨"fetched_at", .timestamp⟩]

def akshareYysjEmSchema : Schema :=
  [⟨"report_period", .string⟩, ⟨"period_end_date", .date32⟩, ⟨"symbol", .string⟩,
    ⟨"code", .string⟩, ⟨"name", .string⟩, ⟨"first_scheduled_date", .date32⟩,
    ⟨"first_changed_date", .date32⟩, ⟨"second_changed_date", .date32⟩,
    ⟨"third_changed_date", .date32⟩, ⟨"actual_disclosure_date", .date32⟩,
    ⟨"source_endpoint", .string⟩, ⟨"fetched_at", .timestamp⟩]

def akshareYjygEmSchema : Schema :=
  [⟨"report_period", .string⟩, ⟨"period_end_date", .date32⟩, ⟨"code", .string⟩, ⟨"name", .string⟩,
    ⟨"forecast_indicator", .string⟩, ⟨"performance_change", .string⟩,
    ⟨"forecast_value", .float64⟩, ⟨"performance_change_pct", .float64⟩,
    ⟨"performance_change_reason", .string⟩, ⟨"forecast_type", .string⟩,
    ⟨"prior_period_value", .float64⟩, ⟨"announcement_date", .date32⟩,
    ⟨"source_endpoint", .string⟩, ⟨"fetched_at", .timestamp⟩]

def akshareFinancialReportSinaSchema : Schema :=
  [⟨"code", .string⟩, ⟨"source_symbol", .string⟩, ⟨"report_type", .string⟩,
    ⟨"report_date", .date32⟩, ⟨"period_end_date", .date32⟩, ⟨"item_name", .string⟩,
    ⟨"item_value", .float64⟩, ⟨"item_value_text", .string⟩, ⟨"data_source", .string⟩,
    ⟨"is_audit", .string⟩, ⟨"publish_date", .date32⟩, ⟨"currency", .string⟩,
    ⟨"report_kind", .string⟩, ⟨"source_update_time", .timestamp⟩, ⟨"source_endpoint", .string⟩,
    ⟨"fetched_at", .timestamp⟩]

def akshareDailyBarSchema : Schema :=
  [⟨"date", .date32⟩, ⟨"code", .string⟩, ⟨"source_symbol", .string⟩, ⟨"open", .float64⟩,
    ⟨"high", .float64⟩, ⟨"low", .float64⟩, ⟨"close", .float64⟩, ⟨"volume", .int64⟩,
    ⟨"amount", .float64⟩, ⟨"amplitude", .float64⟩, ⟨"pct_change", .float64⟩,
    ⟨"price_change", .float64⟩, ⟨"turnover_rate", .float64⟩, ⟨"adjustment", .string⟩,
    ⟨"source_endpoint", .string⟩, ⟨"quality_status", .string⟩, ⟨"fetched_at", .timestamp⟩]

def akshareStockInstitutionHoldingSchema : Schema :=
  [⟨"report_period", .string⟩, ⟨"period_end_date", .date32⟩, ⟨"code", .string⟩, ⟨"name", .string⟩,
    ⟨"institution_count", .int64⟩, ⟨"institution_count_change", .int64⟩,
    ⟨"holding_ratio", .float64⟩, ⟨"holding_ratio_change", .float64⟩,
    ⟨"float_holding_ratio", .float64⟩, ⟨"float_holding_ratio_change", .float64⟩]

def qlibCnCalendarDaySchema : Schema :=
  [⟨"calendar_date", .date32⟩]

def qlibCnInstrumentMembershipSchema : Schema :=
  [⟨"universe", .string⟩, ⟨"qlib_symbol", .string⟩, ⟨"exchange", .string⟩, ⟨"code", .string⟩,
    ⟨"start_date", .date32⟩, ⟨"end_date", .date32⟩]

def qlibCnStockFeaturesDaySchema : Schema :=
  [⟨"date", .date32⟩, ⟨"qlib_symbol", .string⟩, ⟨"exchange", .string⟩, ⟨"code", .string⟩,
    ⟨"open", .float64⟩, ⟨"high", .float64⟩, ⟨"low", .float64⟩, ⟨"close", .float64⟩,
    ⟨"volume", .float64⟩, ⟨"amount", .float64⟩, ⟨"factor", .float64⟩, ⟨"change", .float64⟩,
    ⟨"vwap", .float64⟩, ⟨"adjclose", .float64⟩]

def cnSecurityMasterSchema : Schema :=
  [⟨"security_id", .string⟩, ⟨"code", .string⟩, ⟨"exchange", .string⟩, ⟨"name", .string⟩,
    ⟨"security_type", .string⟩, ⟨"board", .string⟩, ⟨"baostock_code", .string⟩,
    ⟨"akshare_code", .string⟩, ⟨"qlib_symbol", .string⟩, ⟨"ipo_date", .date32⟩,
    ⟨"delist_date", .date32⟩, ⟨"listing_status", .string⟩, ⟨"is_active", .bool⟩,
    ⟨"source_priority", .string⟩, ⟨"latest_source_date", .date32⟩, ⟨"updated_at", .timestamp⟩]

def cnStockDailyBarSchema : Schema :=
  [⟨"date", .date32⟩, ⟨"security_id", .string⟩, ⟨"code", .string⟩, ⟨"exchange", .string⟩,
    ⟨"name", .string⟩, ⟨"adjustment", .string⟩, ⟨"open", .float64⟩, ⟨"high", .float64⟩,
    ⟨"low", .float64⟩, ⟨"close", .float64⟩, ⟨"prev_close", .float64⟩, ⟨"volume", .float64⟩,
    ⟨"amount", .float64⟩, ⟨"turnover_rate", .float64⟩, ⟨"pct_change", .float64⟩,
    ⟨"trade_status", .string⟩, ⟨"is_st", .string⟩, ⟨"is_active", .bool⟩,
    ⟨"source_dataset", .string⟩, ⟨"source_endpoint", .string⟩, ⟨"quality_status", .string⟩,
    ⟨"updated_at", .timestamp⟩]

def cnStockValuationSchema : Schema :=
  [⟨"date", .date32⟩, ⟨"security_id", .string⟩, ⟨"code", .string⟩, ⟨"exchange", .string⟩,
    ⟨"name", .string⟩, ⟨"close", .float64⟩, ⟨"total_market_cap", .float64⟩,
    ⟨"float_market_cap", .float64⟩, ⟨"total_shares", .float64⟩, ⟨"float_shares", .float64⟩,
    ⟨"pe_ttm", .float64⟩, ⟨"pe_static", .float64⟩, ⟨"pb", .float64⟩, ⟨"ps", .float64⟩,
    ⟨"pcf", .float64⟩, ⟨"pe_ttm_percentile_1y", .float64⟩, ⟨"pe_ttm_percentile_3y", .float64⟩,
    ⟨"pe_ttm_percentile_5y", .float64⟩, ⟨"pe_ttm_percentile_10y", .float64⟩,
    ⟨"pe_ttm_percentile_all_history", .float64⟩, ⟨"pb_percentile_1y", .float64⟩,
    ⟨"pb_percentile_3y", .float64⟩, ⟨"pb_percentile_5y", .float64⟩,
    ⟨"pb_percentile_10y", .float64⟩, ⟨"pb_percentile_all_history", .float64⟩,
    ⟨"ps_percentile_1y", .float64⟩, ⟨"ps_percentile_3y", .float64⟩,
    ⟨"ps_percentile_5y", .float64⟩, ⟨"ps_percentile_10y", .float64⟩,
    ⟨"ps_percentile_all_history", .float64⟩, ⟨"pcf_percentile_1y", .float64⟩,
    ⟨"pcf_percentile_3y", .float64⟩, ⟨"pcf_percentile_5y", .float64⟩,
    ⟨"pcf_percentile_10y", .float64⟩, ⟨"pcf_percentile_all_history", .float64⟩,
    ⟨"source_dataset", .string⟩, ⟨"updated_at", .timestamp⟩]

end QuantDataCenter.Storage
