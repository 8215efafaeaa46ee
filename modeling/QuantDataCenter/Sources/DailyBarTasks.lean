import Mathlib.Data.List.MinMax
import QuantDataCenter.Sources.SpotDailyBars

/-!
The daily bar module (`sources/akshare/eastmoney/modules/daily_bar.py`): the codes and
windows it plans, the tasks it drops before anything is fetched, and the write of a
response. Lifecycle rows are left out; no task is dropped on their account.
-/

set_option autoImplicit false
set_option relaxedAutoImplicit false

namespace QuantDataCenter.Sources

open QuantDataCenter.Lib.Checked QuantDataCenter.Tabular QuantDataCenter.Quality
open QuantDataCenter.Storage

/-- The window of a task is also the one that is asked for. -/
structure DailyBarTask where
  code : String
  adjustment : String
  startDate : Int
  endDate : Int
  writeMode : WriteMode
  deriving DecidableEq

def DailyBarTask.dataset (task : DailyBarTask) : DatasetDefinition :=
  akshareDailyBarDataset task.adjustment

/-- What every planned task meets. -/
structure DailyBarTask.WellFormed (p : Pandas) (task : DailyBarTask) : Prop where
  adjustment : task.adjustment ∈ akshareDailyBarAdjustments
  digits : p.sixDigits task.code.toList = true
  stripped : strip task.code = task.code
  mode : task.writeMode ≠ .merge

/-! Planning -/

structure DailyBarRequest where
  mode : String
  adjustment : String
  code : List String
  startDate : Option Int
  endDate : Option Int
  maxTasks : Option Int

/-- What a plan reads beside its request: the settings, the clock and the files. -/
structure DailyBarInputs where
  fullStart : Int
  candidate : Int
  calendar : PartitionIo
  reads : Derived.Reads

section Planning

variable (p : Pandas)

def normalizeAkshareCodeList (codes : List Cell) : Except StoreError (List String) := do
  let normalized ← codes.mapM (normalizeAkshareCode p)
  .ok normalized.eraseDups

/-- `_latest_dataset_codes`. -/
def latestDatasetCodes (df : Frame) : Except StoreError (List String) :=
  if df.rows = [] ∨ "code" ∉ df.columns then .ok []
  else normalizeAkshareCodeList p
    (((df.rows.map fun r => r "code").filter fun c => c ≠ .null).map fun c => .text (p.str c))

/-- What is left of the quoted codes, and the delisted ones where they are wanted. -/
def universeCodes (spotCodes delistedCodes : List String) (includeDelisted : Bool) :
    Except StoreError (List String) :=
  let activeSpotCodes := spotCodes.filter fun c => c ∉ delistedCodes
  let codes := if includeDelisted = true then activeSpotCodes ++ delistedCodes else activeSpotCodes
  if spotCodes = [] ∧ delistedCodes = [] then
    .error (.valueError "No local AkShare stock universe found for AkShare daily bar")
  else if codes = [] then
    .error (.valueError "No active AkShare stock codes found for AkShare daily bar")
  else .ok codes.eraseDups

def resolveAkshareUniverseCodes (reads : Derived.Reads) (st : Store) (code : List String)
    (includeDelisted : Bool) : Except StoreError (List String) :=
  if code ≠ [] then normalizeAkshareCodeList p (code.map Cell.text)
  else do
    let spot ← Derived.readLatestDataset p reads st akshareSpotQuoteEastmoneyDataset
    let spotCodes ← latestDatasetCodes p spot
    let delistSh ← Derived.readLatestDataset p reads st akshareDelistShDataset
    let shDelistedCodes ← latestDatasetCodes p delistSh
    let delistSz ← Derived.readLatestDataset p reads st akshareDelistSzDataset
    let szDelistedCodes ← latestDatasetCodes p delistSz
    universeCodes spotCodes (shDelistedCodes ++ szDelistedCodes).eraseDups includeDelisted

/-- `_resolve_daily_bar_end_date`. -/
def resolveDailyBarEndDate (inputs : DailyBarInputs) (st : Store) (endDate : Option Int) :
    Except StoreError Int :=
  match endDate with
  | some day => .ok day
  | none => do
    let calendar ← readCalendar p inputs.calendar st
    if calendar.rows = [] then .ok inputs.candidate
    else latestTradingDayOnOrBefore p calendar inputs.candidate

/-- The first day of a plan; only a full one has a default. -/
def dailyBarStartDate (inputs : DailyBarInputs) (mode : String) (startDate : Option Int) :
    Except StoreError Int :=
  match startDate with
  | some day => .ok day
  | none =>
    if mode = "full" then .ok inputs.fullStart
    else .error (.valueError "AkShare daily bar incremental mode requires --start")

/-- `_resolve_adjustments`. -/
def resolveAdjustments (adjustment : String) : Except StoreError (List String) :=
  let normalized := p.lower (strip adjustment)
  if normalized = "all" then .ok akshareDailyBarAdjustments
  else do
    let normalized ← normalizeAdjustment p normalized
    if normalized ∈ akshareDailyBarAdjustments then .ok [normalized]
    else .error (.valueError ("Unsupported AkShare daily bar adjustment: " ++ adjustment))

def planDailyBarTasks (inputs : DailyBarInputs) (request : DailyBarRequest) (st : Store) :
    Except StoreError (List DailyBarTask) :=
  let mode := p.lower (strip request.mode)
  if mode ≠ "full" ∧ mode ≠ "incremental" then
    .error (.valueError ("Unsupported AkShare daily bar mode: " ++ request.mode))
  else do
    let endDate ← resolveDailyBarEndDate p inputs st request.endDate
    let startDate ← dailyBarStartDate inputs mode request.startDate
    if endDate < startDate then
      .error (.valueError ("AkShare daily bar start date " ++ p.repr (.date startDate) ++
        " is after end date " ++ p.repr (.date endDate)))
    else do
      let codes ← resolveAkshareUniverseCodes p inputs.reads st request.code (mode = "full")
      let adjustments ← resolveAdjustments p request.adjustment
      let tasks := adjustments.flatMap fun adjustment => codes.map fun code =>
        ⟨code, adjustment, startDate, endDate, if mode = "full" then .replace else .upsert⟩
      .ok (match request.maxTasks with
        | some n => tasks.take n.toNat
        | none => tasks)

variable {p}

private theorem normalizeAkshareCode_spec {c : Cell} {code : String}
    (hcode : normalizeAkshareCode p c = .ok code) :
    p.sixDigits code.toList = true ∧ strip code = code := by
  unfold normalizeAkshareCode at hcode
  split at hcode
  case h_1 => cases hcode
  case h_2 =>
    split at hcode
    case isTrue hdigits =>
      obtain rfl := Except.ok.inj hcode
      exact ⟨hdigits, strip_strip _⟩
    case isFalse => cases hcode

/-- Codes as they are compared and stored. -/
def PlainCodes (p : Pandas) (codes : List String) : Prop :=
  ∀ code ∈ codes, p.sixDigits code.toList = true ∧ strip code = code

private theorem normalizeAkshareCodeList_plain {cells : List Cell} {codes : List String}
    (hcodes : normalizeAkshareCodeList p cells = .ok codes) : PlainCodes p codes := by
  obtain ⟨normalized, hnormalized, hcodes⟩ := bind_eq_ok.mp hcodes
  obtain rfl := Except.ok.inj hcodes
  intro code hcode
  obtain ⟨c, -, hc⟩ := mem_of_mem_mapM_eq_ok hnormalized (List.mem_eraseDups.mp hcode)
  exact normalizeAkshareCode_spec hc

private theorem latestDatasetCodes_plain {df : Frame} {codes : List String}
    (hcodes : latestDatasetCodes p df = .ok codes) : PlainCodes p codes := by
  unfold latestDatasetCodes at hcodes
  split at hcodes
  case isTrue =>
    obtain rfl := Except.ok.inj hcodes
    intro code hcode
    cases hcode
  case isFalse => exact normalizeAkshareCodeList_plain hcodes

private theorem universeCodes_plain {spotCodes delistedCodes codes : List String}
    {includeDelisted : Bool}
    (hspot : PlainCodes p spotCodes) (hdelisted : PlainCodes p delistedCodes)
    (hcodes : universeCodes spotCodes delistedCodes includeDelisted = .ok codes) :
    PlainCodes p codes := by
  have hactive : ∀ code ∈ spotCodes.filter fun c => c ∉ delistedCodes, code ∈ spotCodes :=
    fun code hcode => (List.mem_filter.mp hcode).1
  have hall : PlainCodes p (if includeDelisted = true then
      (spotCodes.filter fun c => c ∉ delistedCodes) ++ delistedCodes
      else spotCodes.filter fun c => c ∉ delistedCodes) := by
    intro code hcode
    split at hcode
    case isTrue =>
      rcases List.mem_append.mp hcode with hcode | hcode
      · exact hspot code (hactive code hcode)
      · exact hdelisted code hcode
    case isFalse => exact hspot code (hactive code hcode)
  unfold universeCodes at hcodes
  simp only at hcodes
  generalize (if includeDelisted = true then
      (spotCodes.filter fun c => c ∉ delistedCodes) ++ delistedCodes
      else spotCodes.filter fun c => c ∉ delistedCodes) = all at hall hcodes
  split at hcodes
  case isTrue => cases hcodes
  case isFalse =>
    split at hcodes
    case isTrue => cases hcodes
    case isFalse =>
      obtain rfl := Except.ok.inj hcodes
      intro code hcode
      exact hall code (List.mem_eraseDups.mp hcode)

private theorem resolveAkshareUniverseCodes_plain {reads : Derived.Reads} {st : Store}
    {code codes : List String} {includeDelisted : Bool}
    (hcodes : resolveAkshareUniverseCodes p reads st code includeDelisted = .ok codes) :
    PlainCodes p codes := by
  unfold resolveAkshareUniverseCodes at hcodes
  split at hcodes
  case isTrue => exact normalizeAkshareCodeList_plain hcodes
  case isFalse =>
    obtain ⟨spot, -, hcodes⟩ := bind_eq_ok.mp hcodes
    obtain ⟨spotCodes, hspot, hcodes⟩ := bind_eq_ok.mp hcodes
    obtain ⟨delistSh, -, hcodes⟩ := bind_eq_ok.mp hcodes
    obtain ⟨shCodes, hsh, hcodes⟩ := bind_eq_ok.mp hcodes
    obtain ⟨delistSz, -, hcodes⟩ := bind_eq_ok.mp hcodes
    obtain ⟨szCodes, hsz, hcodes⟩ := bind_eq_ok.mp hcodes
    refine universeCodes_plain (latestDatasetCodes_plain hspot) ?_ hcodes
    intro c hc
    rcases List.mem_append.mp (List.mem_eraseDups.mp hc) with hc | hc
    · exact latestDatasetCodes_plain hsh c hc
    · exact latestDatasetCodes_plain hsz c hc

private theorem resolveAdjustments_mem {adjustment : String} {adjustments : List String}
    (hadjustments : resolveAdjustments p adjustment = .ok adjustments) :
    ∀ a ∈ adjustments, a ∈ akshareDailyBarAdjustments := by
  unfold resolveAdjustments at hadjustments
  simp only at hadjustments
  split at hadjustments
  case isTrue =>
    obtain rfl := Except.ok.inj hadjustments
    exact fun a ha => ha
  case isFalse =>
    obtain ⟨normalized, -, hadjustments⟩ := bind_eq_ok.mp hadjustments
    split at hadjustments
    case isTrue hmem =>
      obtain rfl := Except.ok.inj hadjustments
      intro a ha
      rw [List.mem_singleton.mp ha]
      exact hmem
    case isFalse => cases hadjustments

theorem wellFormed_of_planned {inputs : DailyBarInputs} {request : DailyBarRequest} {st : Store}
    {tasks : List DailyBarTask} (hplan : planDailyBarTasks p inputs request st = .ok tasks) :
    ∀ task ∈ tasks, task.WellFormed p := by
  unfold planDailyBarTasks at hplan
  simp only at hplan
  split at hplan
  case isTrue => cases hplan
  case isFalse =>
    obtain ⟨endDate, -, hplan⟩ := bind_eq_ok.mp hplan
    obtain ⟨startDate, -, hplan⟩ := bind_eq_ok.mp hplan
    split at hplan
    case isTrue => cases hplan
    case isFalse =>
      obtain ⟨codes, hcodes, hplan⟩ := bind_eq_ok.mp hplan
      obtain ⟨adjustments, hadjustments, hplan⟩ := bind_eq_ok.mp hplan
      obtain rfl := Except.ok.inj hplan
      intro task htask
      have hall : task ∈ adjustments.flatMap fun adjustment => codes.map fun code =>
          (⟨code, adjustment, startDate, endDate, if p.lower (strip request.mode) = "full"
            then .replace else .upsert⟩ : DailyBarTask) := by
        split at htask
        · exact List.mem_of_mem_take htask
        · exact htask
      obtain ⟨adjustment, hadjustment, htask⟩ := List.mem_flatMap.mp hall
      obtain ⟨code, hcode, rfl⟩ := List.mem_map.mp htask
      obtain ⟨hdigits, hstrip⟩ := resolveAkshareUniverseCodes_plain hcodes code hcode
      refine ⟨resolveAdjustments_mem hadjustments adjustment hadjustment, hdigits, hstrip, ?_⟩
      simp only
      split <;> decide

end Planning

/-! Before anything is fetched -/

/-- How a view shows the code that a partition directory is named by: where the directories
are read as numbers, without leading zeros. -/
structure DirectoryCodes where
  text : String → String
  eq_of_length : ∀ value, (text value).toList.length = value.toList.length → text value = value

def numberText (value : String) : String :=
  if value.toList.all Char.isDigit then
    match value.toList.dropWhile fun c => c = '0' with
    | [] => "0"
    | digits => String.ofList digits
  else value

/-- The directories of a dataset whose codes are all digits. -/
def DirectoryCodes.numbers : DirectoryCodes where
  text := numberText
  eq_of_length value hlength := by
    unfold numberText at hlength ⊢
    split at hlength
    case isTrue hdigits =>
      rw [if_pos hdigits]
      have hsuffix := List.dropWhile_suffix (l := value.toList) fun c => c = '0'
      cases hdrop : value.toList.dropWhile fun c => c = '0' with
      | nil =>
        rw [hdrop] at hlength
        have hone : value.toList.length = 1 := hlength.symm
        obtain ⟨c, hc⟩ := List.length_eq_one_iff.mp hone
        rw [hc] at hdrop
        have hzero : c = '0' := by
          by_contra hne
          simp [hne] at hdrop
        rw [hzero] at hc
        exact (String.toList_inj.mp hc).symm
      | cons c digits =>
        rw [hdrop] at hlength hsuffix
        simp only [String.toList_ofList] at hlength
        have heq := hsuffix.eq_of_length hlength
        simp only [heq, String.ofList_toList]
    case isFalse hnot => rw [if_neg hnot]

/-- A row of the view of a daily bar dataset that has a date. -/
structure DatedBar where
  code : String
  day : Int
  endpoint : Cell

section Prefilter

variable (directories : DirectoryCodes) (partitions : String → List String) (st : Store)

def sqlTrim (s : String) : String :=
  String.ofList ((s.toList.dropWhile fun c => c = ' ').reverse.dropWhile fun c => c = ' ').reverse

/-- `lower(trim(cast(is_trading_day AS varchar))) IN ('1', 'true', 't', 'yes')`. -/
def sqlTradingDay : Cell → Bool
  | .text s => decide (String.ofList ((sqlTrim s).toList.map Char.toLower) ∈ tradingDayWords)
  | _ => false

def calendarTradingDays : List Int :=
  (content st baostockCnTradingCalendarDataset "").filterMap fun r =>
    match r "calendar_date", sqlTradingDay (r "is_trading_day") with
    | .date day, true => some day
    | _, _ => none

/-- `_latest_calendar_date_from_duckdb`. -/
def latestCalendarDate : Option Int := (calendarTradingDays st).max?

/-- The rows of `v_akshare_cn_stock_daily_bar_...` with `h.date IS NOT NULL`. -/
def datedBars (adjustment : String) : List DatedBar :=
  (partitions (akshareDailyBarDataset adjustment).id).flatMap fun value =>
    (content st (akshareDailyBarDataset adjustment) value).filterMap fun r =>
      match r "date" with
      | .date day => some ⟨directories.text value, day, r "source_endpoint"⟩
      | _ => none

/-- The row of a code with `rn = 1`. -/
def latestBar (adjustment code : String) : Option DatedBar :=
  @List.argmax _ _ Int.instLinearOrder.toPreorder _ DatedBar.day
    ((datedBars directories partitions st adjustment).filter fun bar => bar.code = code)

/-- Whether the key of a task is one of `_duckdb_skippable_daily_bar_task_keys`. -/
def skippableDailyBarTask (latestCalendarDate : Int) (task : DailyBarTask) : Bool :=
  match latestBar directories partitions st task.adjustment task.code with
  | some bar => decide (bar.endpoint = .text "stock_zh_a_hist" ∧ latestCalendarDate ≤ bar.day)
  | none => false

/-- `checkpointed` says whether there is a checkpoint lookup. -/
def prefilterDailyBarTasks (checkpointed : Bool) (tasks : List DailyBarTask) : List DailyBarTask :=
  if checkpointed = false ∨ tasks = [] then tasks
  else match latestCalendarDate st with
    | none => tasks
    | some latest => tasks.filter fun task =>
      !skippableDailyBarTask directories partitions st latest task

variable {directories partitions st}

theorem mem_datedBars {adjustment : String} {bar : DatedBar} :
    bar ∈ datedBars directories partitions st adjustment ↔
      ∃ value ∈ partitions (akshareDailyBarDataset adjustment).id,
        ∃ r ∈ content st (akshareDailyBarDataset adjustment) value,
          r "date" = .date bar.day ∧ bar.code = directories.text value ∧
            bar.endpoint = r "source_endpoint" := by
  unfold datedBars
  rw [List.mem_flatMap]
  refine exists_congr fun value => and_congr_right fun _ => ?_
  rw [List.mem_filterMap]
  refine exists_congr fun r => and_congr_right fun _ => ?_
  constructor
  · intro hbar
    split at hbar
    case h_1 day hday =>
      obtain rfl := Option.some.inj hbar
      exact ⟨hday, rfl, rfl⟩
    case h_2 => cases hbar
  · rintro ⟨hday, hcode, hendpoint⟩
    obtain ⟨code, day, endpoint⟩ := bar
    obtain rfl := hcode
    obtain rfl := hendpoint
    simp only [hday]

/-- A task is dropped for a bar of its code from the history endpoint that no other bar is
later than, and that no trading day of the stored calendar is later than. -/
theorem dropped_spec {checkpointed : Bool} {tasks : List DailyBarTask} {task : DailyBarTask}
    (hplanned : task ∈ tasks)
    (hdropped : task ∉ prefilterDailyBarTasks directories partitions st checkpointed tasks) :
    ∃ bar ∈ datedBars directories partitions st task.adjustment, bar.code = task.code ∧
      bar.endpoint = .text "stock_zh_a_hist" ∧
      (∀ other ∈ datedBars directories partitions st task.adjustment, other.code = task.code →
        other.day ≤ bar.day) ∧
      ∀ day ∈ calendarTradingDays st, day ≤ bar.day := by
  unfold prefilterDailyBarTasks at hdropped
  split at hdropped
  case isTrue => exact absurd hplanned hdropped
  case isFalse =>
    split at hdropped
    case h_1 => exact absurd hplanned hdropped
    case h_2 latest hlatest =>
      have hskippable : skippableDailyBarTask directories partitions st latest task = true := by
        by_contra hnot
        apply hdropped
        exact List.mem_filter.mpr ⟨hplanned, by simpa using hnot⟩
      unfold skippableDailyBarTask at hskippable
      split at hskippable
      case h_1 bar hbar =>
        obtain ⟨hendpoint, hcovers⟩ := of_decide_eq_true hskippable
        have hmem := List.mem_filter.mp (List.argmax_mem (Option.mem_def.mpr hbar))
        refine ⟨bar, hmem.1, of_decide_eq_true hmem.2, hendpoint, ?_, ?_⟩
        · intro other hother hcode
          exact List.le_of_mem_argmax (List.mem_filter.mpr ⟨hother, decide_eq_true hcode⟩)
            (Option.mem_def.mpr hbar)
        · intro day hday
          have hmax := (List.max?_eq_some_iff.mp hlatest).2 day hday
          exact le_trans hmax hcovers
      case h_2 => cases hskippable

end Prefilter

/-! The response of a task -/

/-- The cells of a historical bar of the adjustment that do not come from the source. -/
def historicalCell (adjustment : String) (fetchedAt : Int) (selected : Row) (column : String) :
    Cell :=
  if column = "adjustment" then .text adjustment
  else if column = "source_endpoint" then .text "stock_zh_a_hist"
  else if column = "quality_status" then .text "daily_bar_confirmed"
  else if column = "fetched_at" then .stamp fetchedAt
  else selected column

/-- What `DailyBarAdapter.normalize` returns for the task and the columns it selected from the
source. -/
def historicalBars (adjustment : String) (fetchedAt : Int) (selected : Frame) : Frame :=
  if selected.rows = [] ∨ selected.columns = [] then
    ⟨fieldNames akshareDailyBarSchema, fun _ => .object, []⟩
  else
    ⟨fieldNames akshareDailyBarSchema, confirmedDtype selected.dtype,
      selected.rows.map (historicalCell adjustment fetchedAt)⟩

/-- An unadjusted one is the one the spot runs meet. -/
theorem historicalBars_unadjusted (fetchedAt : Int) (selected : Frame) :
    historicalBars "unadjusted" fetchedAt selected = confirmedDailyBars fetchedAt selected := rfl

/-- `DailyBarModule.record_result` of a task that has a response. -/
def recordDailyBars (p : Pandas) (h : Hashing) (env : WriteEnv) (task : DailyBarTask)
    (fetchedAt : Int) (selected : Frame) (st : Store) :
    Except StoreError DatasetWriteResult × Store :=
  writeDataset p h env task.dataset.id (historicalBars task.adjustment fetchedAt selected)
    (some [("code", .text task.code)]) (some task.writeMode) false st

end QuantDataCenter.Sources
