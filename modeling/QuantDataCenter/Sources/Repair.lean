import QuantDataCenter.Sources.CalendarCoverage
import QuantDataCenter.Sources.DailyPartitions
import QuantDataCenter.Sources.SpotQuote

/-!
The repair of a range of days (`sources/baostock/repair_tool.py`): bars are replaced inside
the trading window, the factors of the code as a whole by what is fetched up to its end.
The registry is refreshed afterwards and the views are built; no file of data changes then.
-/

set_option autoImplicit false
set_option relaxedAutoImplicit false

namespace QuantDataCenter.Sources

open QuantDataCenter.Lib.Checked QuantDataCenter.Lib.Keyed QuantDataCenter.Tabular
open QuantDataCenter.Quality QuantDataCenter.Storage

def adjustmentFactorDataset : String := "baostock_cn_stock_adjustment_factor"

/-- The provider of market data. It answers with the days it is asked for. -/
structure RepairProvider (p : Pandas) where
  queryTradeDates : Except StoreError Frame
  queryAdjustmentFactor : String → Int → Int → Except StoreError Frame
  queryDailyBars : String → String → Int → Int → Except StoreError Frame
  factor_days : ∀ code startDate endDate df,
    queryAdjustmentFactor code startDate endDate = .ok df →
      DatedIn p df "dividend_operate_date" (Set.Icc startDate endDate)
  bar_days : ∀ dataset code startDate endDate df,
    queryDailyBars dataset code startDate endDate = .ok df →
      DatedIn p df "date" (Set.Icc startDate endDate)

/-- What the store and the settings answer during a repair. -/
structure RepairEnv where
  calendarRead : PartitionIo
  calendarWrite : WriteEnv
  calendarReread : PartitionIo
  factorWrite : WriteEnv
  reads : String → PartitionIo
  writes : String → WriteEnv
  adjustFlagForDataset : String → Except StoreError String

structure RepairResult where
  dataset : String
  code : String
  replacementRows : ℕ
  totalRows : ℕ
  path : String × String
  deriving DecidableEq

section Window

variable (p : Pandas) (calendar : Frame)

def firstTradingDayOnOrAfter (value : Int) : Except StoreError Int :=
  if calendarWithKeys p calendar = [] then
    .error (.valueError "No baostock_cn_trading_calendar rows available to resolve trading day")
  else match (((calendarWithKeys p calendar).filter fun k =>
      decide (value ≤ k.date) && k.isTradingDay).map CalendarKey.date).min? with
    | some day => .ok day
    | none => .error (.valueError ("No trading day found on or after " ++ p.repr (.date value) ++
        " in baostock_cn_trading_calendar"))

def tradingRangeBounds (startDate endDate : Int) : Except StoreError (Int × Int) := do
  let resolvedStart ← firstTradingDayOnOrAfter p calendar startDate
  let resolvedEnd ← latestTradingDayOnOrBefore p calendar endDate
  if resolvedEnd < resolvedStart then
    .error (.valueError ("No trading days found between " ++ p.repr (.date startDate) ++ " and " ++
      p.repr (.date endDate)))
  else .ok (resolvedStart, resolvedEnd)

end Window

def expandDailyDatasets (dataset : String) : Except StoreError (List String) :=
  if dataset = "all" then .ok baostockDailyBarDatasetIds
  else if dataset ∈ baostockDailyBarDatasetIds then .ok [dataset]
  else .error (.valueError ("Unsupported daily_bar dataset: " ++ dataset))

section Repair

variable (p : Pandas) (h : Hashing) (env : RepairEnv) (provider : RepairProvider p)

/-- `ensure_baostock_cn_trading_calendar_range`: the fetched calendar is merged into the stored one. -/
def ensureCalendarRange (startDate endDate : Int) (st : Store) : Except StoreError Frame × Store :=
  match readCalendar p env.calendarRead st with
  | .error e => (.error e, st)
  | .ok calendar =>
    if coversRange p calendar startDate endDate then (.ok calendar, st)
    else match provider.queryTradeDates with
      | .error e => (.error e, st)
      | .ok fetched =>
        match writeDataset p h env.calendarWrite "baostock_cn_trading_calendar" fetched none none
            false st with
        | (.error e, st') => (.error e, st')
        | (.ok _, st') => (readCalendar p env.calendarReread st', st')

/-- The factors are fetched from the first day up to the end of the window and replace the
partition of the code. -/
def repairFactors (code : String) (endDate : Int) (st : Store) :
    Except StoreError (Frame × DatasetWriteResult) × Store :=
  match provider.queryAdjustmentFactor code fullHistoryStart endDate with
  | .error e => (.error e, st)
  | .ok fresh =>
    match writeDataset p h env.factorWrite adjustmentFactorDataset fresh (codePartition code) none
        false st with
    | (.error e, st') => (.error e, st')
    | (.ok result, st') => (.ok (fresh, result), st')

/-- `_repair_unadjusted`; the window of the cache is the same for all targets. -/
def repairUnadjusted (code : String) (startDate endDate : Int) (cache : Option Frame) :
    Except StoreError Frame :=
  match cache with
  | some df => .ok df
  | none => provider.queryDailyBars unadjustedDailyDataset code startDate endDate

/-- `_repair_daily_frame`, with the cache it leaves. -/
def repairDailyFrame (dataset code : String) (startDate endDate : Int) (factors : Frame)
    (cache : Option Frame) : Except StoreError (Frame × Option Frame) :=
  if dataset = unadjustedDailyDataset then do
    let df ← repairUnadjusted p provider code startDate endDate cache
    .ok (df, some df)
  else if isAdjustedDailyDataset dataset then do
    let df ← repairUnadjusted p provider code startDate endDate cache
    let adjustFlag ← env.adjustFlagForDataset dataset
    let fresh ← calculateAdjustedDailyBar p df factors dataset adjustFlag
    .ok (fresh, some df)
  else do
    let fresh ← provider.queryDailyBars dataset code startDate endDate
    .ok (fresh, cache)

/-- The stored bars of the code with the window replaced. -/
def repairedBars (dataset code : String) (startDate endDate : Int) (fresh : Frame) (st : Store) :
    Except StoreError Frame := do
  let definition ← datasetDefinition dataset
  let value ← partitionValue p definition (codePartition code)
  let existing ← readDataset p (env.reads dataset) st definition value
  replaceDailyRange p existing fresh (startDate * nsPerDay) (endDate * nsPerDay)

def repairTarget (dataset code : String) (startDate endDate : Int) (factors : Frame)
    (cache : Option Frame) (st : Store) :
    Except StoreError (RepairResult × Option Frame) × Store :=
  match repairDailyFrame p env provider dataset code startDate endDate factors cache with
  | .error e => (.error e, st)
  | .ok (fresh, cache') =>
    match repairedBars p env dataset code startDate endDate fresh st with
    | .error e => (.error e, st)
    | .ok merged =>
      match writeDataset p h (env.writes dataset) dataset merged (codePartition code) none false
          st with
      | (.error e, st') => (.error e, st')
      | (.ok result, st') =>
        ((primaryPath result).map fun path =>
          (⟨dataset, code, fresh.rows.length, merged.rows.length, path⟩, cache'), st')

def repairTargets (code : String) (startDate endDate : Int) (factors : Frame) :
    List String → Option Frame → Store → Except StoreError (List RepairResult) × Store
  | [], _, st => (.ok [], st)
  | dataset :: datasets, cache, st =>
    match repairTarget p h env provider dataset code startDate endDate factors cache st with
    | (.error e, st') => (.error e, st')
    | (.ok (result, cache'), st') =>
      match repairTargets code startDate endDate factors datasets cache' st' with
      | (.error e, st'') => (.error e, st'')
      | (.ok results, st'') => (.ok (result :: results), st'')

def repairWindow (startDate endDate : Int) (st : Store) : Except StoreError (Int × Int) := do
  let calendar ← (ensureCalendarRange p h env provider startDate endDate st).1
  tradingRangeBounds p calendar startDate endDate

def repairWithin (code dataset : String) (startDate endDate : Int) (st : Store) :
    Except StoreError (List RepairResult) × Store :=
  if dataset = adjustmentFactorDataset then
    match repairFactors p h env provider code endDate st with
    | (.error e, st') => (.error e, st')
    | (.ok (fresh, result), st') =>
      ((primaryPath result).map fun path =>
        [⟨adjustmentFactorDataset, code, fresh.rows.length, fresh.rows.length, path⟩], st')
  else match expandDailyDatasets dataset with
    | .error e => (.error e, st)
    | .ok targets =>
      if targets.any isAdjustedDailyDataset then
        match repairFactors p h env provider code endDate st with
        | (.error e, st') => (.error e, st')
        | (.ok (factors, _), st') =>
          repairTargets p h env provider code startDate endDate factors targets none st'
      else
        repairTargets p h env provider code startDate endDate ⟨[], fun _ => .object, []⟩ targets
          none st

/-- `_repair_with_direct_network`. -/
def repair (code : String) (startDate endDate : Int) (dataset : String) (st : Store) :
    Except StoreError (List RepairResult) × Store :=
  let st' := (ensureCalendarRange p h env provider startDate endDate st).2
  match repairWindow p h env provider startDate endDate st with
  | .error e => (.error e, st')
  | .ok (resolvedStart, resolvedEnd) =>
    repairWithin p h env provider code dataset resolvedStart resolvedEnd st'

end Repair

end QuantDataCenter.Sources
