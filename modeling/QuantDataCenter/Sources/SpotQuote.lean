import Mathlib.Data.Rat.Floor
import QuantDataCenter.Derived.SecurityMaster
import QuantDataCenter.Sources.TradingCalendar

/-!
The spot quote module (`sources/akshare/pipeline/spot_quote.py`): when it may run,
the trade date its quotes are filed under, the Eastmoney path and the Sina
fallback, and the daily bars that are added from the quotes. Lifecycle rows are
left out; they are written after the Parquet files.
-/

set_option autoImplicit false
set_option relaxedAutoImplicit false

namespace QuantDataCenter.Sources

open QuantDataCenter.Lib.Checked QuantDataCenter.Tabular QuantDataCenter.Quality
open QuantDataCenter.Storage

/-! Planning -/

/-- What a clock returns: a reading without a zone, or an instant. -/
inductive Clock where
  | naive (reading : LocalTime)
  | aware (instant : Int)

/-- A reading without a zone is taken for one of the project's zone. -/
def Clock.localNow (zone : Int → LocalTime) : Clock → LocalTime
  | .naive reading => reading
  | .aware instant => zone instant

/-- What the module is planned with: the zone of the settings, the clock of the request
(`datetime.now` if it has none), the system clock in the project's zone, `--end`, the answer
of the checkpoint, and the setting of the daily bars. -/
structure SpotRequest where
  zone : Int → LocalTime
  requestNow : Clock
  systemNow : LocalTime
  endDate : Option Int
  checkpointed : Bool
  updateDailyBarFromSpot : Bool

def SpotRequest.localNow (request : SpotRequest) : LocalTime :=
  request.requestNow.localNow request.zone

structure SpotQuoteTask where
  dataset : String
  tradeDate : Int
  updateDailyBarFromSpot : Bool
  skipped : Bool

section Planning

variable (p : Pandas)

/-- `_ensure_spot_quote_close_window`. -/
def ensureSpotQuoteCloseWindow (localNow : LocalTime) (calendar : Except StoreError Frame) :
    Except StoreError Unit :=
  if localNow.time < 18 * usPerHour then
    if localNow.time < 8 * usPerHour then .ok ()
    else match calendar with
      | .error _ => .error .other
      | .ok calendar =>
        if isTradingDay p calendar localNow.date then .error .other else .ok ()
  else .ok ()

/-- `_resolve_trade_date`. -/
def resolveTradeDate (systemNow : LocalTime) (endDate : Option Int)
    (calendar : Except StoreError Frame) : Except StoreError Int :=
  let candidate := endDate.getD (defaultCandidateDate systemNow)
  match calendar with
  | .error _ => .error .other
  | .ok calendar =>
    if isTradingDay p calendar candidate then .ok candidate
    else if endDate ≠ none ∧ (calendar.rows = [] ∨ calendar.columns = []) then .ok candidate
    else match latestTradingDayOnOrBefore p calendar candidate with
      | .ok day => .ok day
      | .error _ => .error .other

def planSpotQuote (request : SpotRequest) (calendar : Except StoreError Frame) :
    Except StoreError SpotQuoteTask := do
  ensureSpotQuoteCloseWindow p request.localNow calendar
  let tradeDate ← resolveTradeDate p request.systemNow request.endDate calendar
  .ok ⟨"akshare_cn_stock_spot_quote_eastmoney", tradeDate, request.updateDailyBarFromSpot,
    request.checkpointed⟩

end Planning

/-! Daily bars from quotes -/

/-- `.round()` on a float: halves go to the even neighbour. -/
def roundHalfEven (x : ℚ) : Int :=
  if x - ⌊x⌋ < 1 / 2 then ⌊x⌋
  else if 1 / 2 < x - ⌊x⌋ then ⌊x⌋ + 1
  else if ⌊x⌋ % 2 = 0 then ⌊x⌋ else ⌊x⌋ + 1

def unadjustedDailyBarDataset : DatasetDefinition := akshareDailyBarDataset "unadjusted"

section Bars

variable (p : Pandas)

/-- `pd.to_numeric(..., errors="coerce").round().astype("Int64")`. -/
def spotVolume : Cell → Except StoreError Cell
  | .null => .ok .null
  | v => match p.toNumeric v with
    | none => .ok .null
    | some x => castInt64 (roundHalfEven x : ℚ)

/-- The columns of a quote that a daily bar is built from. -/
def quoteColumns : List String :=
  ["trade_date", "code", "source_symbol", "open", "high", "low", "last_price", "volume", "amount",
    "pct_change", "price_change", "fetched_at"]

/-- The columns a daily bar shares with the quote it comes from. -/
def carriedColumns : List String :=
  ["code", "source_symbol", "open", "high", "low", "amount", "pct_change", "price_change",
    "fetched_at"]

/-- The cell of a daily bar; `carried` are the columns that are taken over by name. -/
def dailyBarCell (endpoint : String) (carried : List String) (quote : Row) (column : String) :
    Cell :=
  if column = "date" then quote "trade_date"
  else if column = "close" then quote "last_price"
  else if column = "volume" then (spotVolume p (quote "volume")).toOption.getD .null
  else if column = "adjustment" then .text "unadjusted"
  else if column = "source_endpoint" then .text endpoint
  else if column = "quality_status" then .text "spot_quote_close"
  else if column ∈ carried then quote column
  else .null

def dailyBarDtype (carried : List String) (dtype : String → Dtype) (column : String) : Dtype :=
  if column = "date" then dtype "trade_date"
  else if column = "close" then dtype "last_price"
  else if column = "volume" then .integer
  else if column ∈ carried then dtype column
  else .object

/-- Both conversions: `own` are the columns that one of the sources has and the other has not. -/
def spotToDailyBarUnadjusted (endpoint : String) (own : List String) (df : Frame) :
    Except StoreError Frame := do
  let columns := fieldNames akshareDailyBarSchema
  if df.rows = [] ∨ df.columns = [] then .ok ⟨columns, fun _ => .object, []⟩
  else if ∀ column ∈ quoteColumns ++ own, column ∈ df.columns then do
    checkAll (fun quote => errorOf (spotVolume p (quote "volume"))) df.rows
    .ok ⟨columns, dailyBarDtype (carriedColumns ++ own) df.dtype,
      df.rows.map (dailyBarCell p endpoint (carriedColumns ++ own))⟩
  else .error .other

def spotEmToDailyBarUnadjusted : Frame → Except StoreError Frame :=
  spotToDailyBarUnadjusted p "stock_zh_a_spot_em" ["amplitude", "turnover_rate"]

def spotSinaToDailyBarUnadjusted : Frame → Except StoreError Frame :=
  spotToDailyBarUnadjusted p "stock_zh_a_spot" []

/-- `normalize_akshare_code`. -/
def normalizeAkshareCode : Cell → Except StoreError String
  | .null => .error (.valueError "AkShare stock code must be a 6-digit string")
  | c =>
    if p.sixDigits (strip (p.str c)).toList then .ok (strip (p.str c))
    else .error (.valueError ("AkShare stock code must be 6 digits, got: " ++ strip (p.str c)))

def delistedCodes (delist : Frame) : Except StoreError (List String) :=
  if delist.rows = [] ∨ "code" ∉ delist.columns then .ok []
  else ((delist.rows.map fun r => r "code").filter fun c => c ≠ .null).mapM (normalizeAkshareCode p)

/-- `_drop_delisted_daily_bar_rows`: the list of Shanghai is the one that is read. -/
def dropDelistedDailyBarRows (reads : Derived.Reads) (st : Store) (bars : Frame) :
    Except StoreError Frame :=
  if bars.rows = [] then .ok bars
  else do
    let delist ← Derived.readLatestDataset p reads st akshareDelistShDataset
    let delisted ← delistedCodes p delist
    .ok { bars with rows := bars.rows.filter fun r => strip (p.str (r "code")) ∉ delisted }

/-- A key as `_spot_daily_bar_key_set` compares it. -/
abbrev BarKey := String × Int × String

def spotDailyBarKey (r : Row) : Except StoreError BarKey :=
  match r "code", normalizedDay p (r "date"), r "adjustment" with
  | .null, _, _ => .error (.valueError "Spot daily-bar key contains null values")
  | _, none, _ => .error (.valueError "Spot daily-bar key contains null values")
  | _, _, .null => .error (.valueError "Spot daily-bar key contains null values")
  | code, some day, adjustment => .ok (strip (p.str code), day, strip (p.str adjustment))

def spotDailyBarKeySet (rows : List Row) : Except StoreError (List BarKey) :=
  rows.mapM (spotDailyBarKey p)

/-- `_read_spot_daily_bar_partition_keys` on a file that can or cannot be read. -/
def readSpotDailyBarPartitionKeys (readable : Bool) (rows : List Row) :
    Except StoreError (List BarKey) :=
  if readable then spotDailyBarKeySet p rows else .error .osError

end Bars

/-! Writing -/

structure SpotEnv where
  calendar : PartitionIo
  quotes : WriteEnv
  prepare : WriteEnv
  reads : Derived.Reads
  probe : ℕ → Bool
  bars : ℕ → WriteEnv

/-- How the group of a code is treated. -/
inductive GroupBranch where
  | upsert
  | upsertSkipExisting
  | skip
  deriving DecidableEq

section Writing

variable (p : Pandas) (h : Hashing) (env : SpotEnv)

/-- The branch for a group: no file, a probe that fails, all keys there, or not. -/
def groupBranch (readable : Bool) (file : Option (List Row)) (group : List Row) : GroupBranch :=
  match file with
  | none => .upsert
  | some rows =>
    match spotDailyBarKeySet p group, readSpotDailyBarPartitionKeys p readable rows with
    | .ok incoming, .ok existing =>
      if incoming ≠ [] ∧ ∀ key ∈ incoming, key ∈ existing then .skip else .upsert
    | _, _ => .upsertSkipExisting

/-- The write of a group under its code. -/
def writeSpotGroup (k : ℕ) (bars : Frame) (code : Cell) (group : List Row) (skipExisting : Bool)
    (st : Store) : Except StoreError Unit × Store :=
  let out := writeDataset p h (env.bars k) unadjustedDailyBarDataset.id { bars with rows := group }
    (some [("code", .text (strip (p.str code)))]) (some .upsert) skipExisting st
  (out.1.map fun _ => (), out.2)

def upsertSpotGroup (k : ℕ) (bars : Frame) (code : Cell) (group : List Row) (st : Store) :
    Except StoreError Unit × Store :=
  match partitionValue p unadjustedDailyBarDataset (some [("code", .text (strip (p.str code)))]) with
  | .error e => (.error e, st)
  | .ok value =>
    match groupBranch p (env.probe k) (st.files unadjustedDailyBarDataset.id value) group with
    | .upsert => writeSpotGroup p h env k bars code group false st
    | .upsertSkipExisting => writeSpotGroup p h env k bars code group true st
    | .skip => (.ok (), st)

/-- The loop of `_upsert_spot_daily_bar_rows`. -/
def upsertSpotGroups (bars : Frame) :
    ℕ → List (Cell × List Row) → Store → Except StoreError Unit × Store
  | _, [], st => (.ok (), st)
  | k, (code, group) :: groups, st =>
    match upsertSpotGroup p h env k bars code group st with
    | (.error e, st') => (.error e, st')
    | (.ok (), st') => upsertSpotGroups bars (k + 1) groups st'

def upsertSpotDailyBarRows (bars : Frame) (st : Store) : Except StoreError Unit × Store :=
  match prepareDatasetFrame p env.prepare unadjustedDailyBarDataset bars none false with
  | .error e => (.error e, st)
  | .ok incoming => upsertSpotGroups p h env incoming 0 (groupRows "code" incoming.rows) st

def writeSpotDailyBarRows (bars : Frame) (st : Store) : Except StoreError Unit × Store :=
  if bars.rows = [] then (.ok (), st) else upsertSpotDailyBarRows p h env bars st

/-- Quotes are stored under the trade date, then the daily bars are added. -/
def recordQuotes (dataset : String) (task : SpotQuoteTask) (response : Frame)
    (bars : Store → Except StoreError Frame) (st : Store) : Except StoreError Unit × Store :=
  match writeDataset p h env.quotes dataset response
    (some [("trade_date", .text (p.repr (.date task.tradeDate)))]) none false st with
  | (.error e, stored) => (.error e, stored)
  | (.ok _, stored) =>
    match bars stored with
    | .error e => (.error e, stored)
    | .ok bars =>
      if task.updateDailyBarFromSpot then writeSpotDailyBarRows p h env bars stored
      else (.ok (), stored)

def recordEastmoney (task : SpotQuoteTask) (response : Frame) (st : Store) :
    Except StoreError Unit × Store :=
  recordQuotes p h env task.dataset task response
    (fun stored => do
      let bars ← spotEmToDailyBarUnadjusted p response
      dropDelistedDailyBarRows p env.reads stored bars) st

/-- `_run_sina_fallback`; a delist list is not read. -/
def runSinaFallback (task : SpotQuoteTask) (sina : Except StoreError Frame) (st : Store) :
    Except StoreError Unit × Store :=
  match sina with
  | .error e => (.error e, st)
  | .ok response =>
    recordQuotes p h env "akshare_cn_stock_spot_quote_sina" task response
      (fun _ => spotSinaToDailyBarUnadjusted p response) st

/-- `record_result`: what the fetch of the task brought, and what the fallback would bring. -/
def recordResult (task : SpotQuoteTask) (eastmoney sina : Except StoreError Frame) (st : Store) :
    Except StoreError Unit × Store :=
  match eastmoney with
  | .ok response => recordEastmoney p h env task response st
  | .error _ => runSinaFallback p h env task sina st

def readCalendar (io : PartitionIo) (st : Store) : Except StoreError Frame :=
  readDataset p io st baostockCnTradingCalendarDataset ""

/-- A run of the module: nothing is fetched for a task that is skipped. -/
def runSpotQuote (request : SpotRequest) (eastmoney sina : Int → Except StoreError Frame)
    (st : Store) : Except StoreError Unit × Store :=
  match planSpotQuote p request (readCalendar p env.calendar st) with
  | .error e => (.error e, st)
  | .ok task =>
    if task.skipped then (.ok (), st)
    else recordResult p h env task (eastmoney task.tradeDate) (sina task.tradeDate) st

end Writing

/-! What a run leaves alone -/

section Frame

variable {p : Pandas} {h : Hashing} {env : SpotEnv} {dataset : String}

theorem upsertSpotGroup_cases (k : ℕ) (bars : Frame) (code : Cell) (group : List Row)
    (st : Store) :
    (upsertSpotGroup p h env k bars code group st).2 = st ∨
    ∃ value skipExisting,
      partitionValue p unadjustedDailyBarDataset (some [("code", .text (strip (p.str code)))]) =
        .ok value ∧
      groupBranch p (env.probe k) (st.files unadjustedDailyBarDataset.id value) group =
        (if skipExisting = true then .upsertSkipExisting else .upsert) ∧
      upsertSpotGroup p h env k bars code group st =
        writeSpotGroup p h env k bars code group skipExisting st := by
  unfold upsertSpotGroup
  split
  case h_1 => exact Or.inl rfl
  case h_2 value hvalue =>
    split
    case h_1 hbranch => exact Or.inr ⟨value, false, hvalue, hbranch, rfl⟩
    case h_2 hbranch => exact Or.inr ⟨value, true, hvalue, hbranch, rfl⟩
    case h_3 => exact Or.inl rfl

private theorem upsertSpotGroup_files_of_ne (hne : dataset ≠ unadjustedDailyBarDataset.id) (k : ℕ)
    (bars : Frame) (code : Cell) (group : List Row) (st : Store) (value : String) :
    (upsertSpotGroup p h env k bars code group st).2.files dataset value =
      st.files dataset value := by
  rcases @upsertSpotGroup_cases p h env k bars code group st with heq | ⟨_, _, -, -, heq⟩
  · rw [heq]
  · rw [heq]
    exact writeDataset_files_of_ne hne value

private theorem upsertSpotGroups_files_of_ne (hne : dataset ≠ unadjustedDailyBarDataset.id)
    (bars : Frame) (groups : List (Cell × List Row)) (k : ℕ) (st : Store) (value : String) :
    (upsertSpotGroups p h env bars k groups st).2.files dataset value =
      st.files dataset value := by
  induction groups generalizing k st with
  | nil => rfl
  | cons g groups ih =>
    obtain ⟨code, group⟩ := g
    have hgroup := @upsertSpotGroup_files_of_ne p h env dataset hne k bars code group st value
    unfold upsertSpotGroups
    rcases hout : upsertSpotGroup p h env k bars code group st with ⟨result, st1⟩
    rw [hout] at hgroup
    cases result with
    | error e => exact hgroup
    | ok u => exact (ih (k + 1) st1).trans hgroup

theorem writeSpotDailyBarRows_files_of_ne (hne : dataset ≠ unadjustedDailyBarDataset.id)
    (bars : Frame) (st : Store) (value : String) :
    (writeSpotDailyBarRows p h env bars st).2.files dataset value = st.files dataset value := by
  unfold writeSpotDailyBarRows upsertSpotDailyBarRows
  split
  · rfl
  · split
    · rfl
    · exact upsertSpotGroups_files_of_ne hne _ _ _ _ _

theorem recordQuotes_cases (task : SpotQuoteTask) (response : Frame)
    (convert : Store → Except StoreError Frame) (st : Store) :
    ∃ result stored,
      writeDataset p h env.quotes dataset response
        (some [("trade_date", .text (p.repr (.date task.tradeDate)))]) none false st =
          (result, stored) ∧
      (recordQuotes p h env dataset task response convert st = (result.map fun _ => (), stored) ∨
        ∃ ok, result = .ok ok ∧
          ((∃ e, convert stored = .error e ∧
            recordQuotes p h env dataset task response convert st = (.error e, stored)) ∨
          ∃ bars, convert stored = .ok bars ∧ task.updateDailyBarFromSpot = true ∧
            recordQuotes p h env dataset task response convert st =
              writeSpotDailyBarRows p h env bars stored)) := by
  unfold recordQuotes
  rcases writeDataset p h env.quotes dataset response
    (some [("trade_date", .text (p.repr (.date task.tradeDate)))]) none false st with
    ⟨result, stored⟩
  refine ⟨result, stored, rfl, ?_⟩
  cases result with
  | error e => exact Or.inl rfl
  | ok ok =>
    simp only
    cases hbars : convert stored with
    | error e => exact Or.inr ⟨ok, rfl, Or.inl ⟨e, rfl, rfl⟩⟩
    | ok bars =>
      by_cases hflag : task.updateDailyBarFromSpot = true
      · exact Or.inr ⟨ok, rfl, Or.inr ⟨bars, rfl, hflag, by simp only [hflag, if_true]⟩⟩
      · exact Or.inl (by simp only [hflag]; rfl)

end Frame

end QuantDataCenter.Sources
