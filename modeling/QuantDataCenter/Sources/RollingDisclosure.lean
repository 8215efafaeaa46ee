import QuantDataCenter.Pipeline.CheckpointLookup
import QuantDataCenter.Sources.ReportCandidates
import QuantDataCenter.Storage.PartitionWrites

/-!
The disclosure modules that update a rolling window of report periods (`modules/yjyg_em.py`,
`modules/report_disclosure.py`, `modules/yysj_em.py`): the periods of a window, the tasks that
resume from a checkpoint, and what a run records of the answers it gets.
-/

set_option autoImplicit false
set_option relaxedAutoImplicit false

namespace QuantDataCenter.Sources

open QuantDataCenter.Lib QuantDataCenter.Pipeline QuantDataCenter.Tabular QuantDataCenter.Quality
open QuantDataCenter.Storage

/-! Report periods -/

inductive Quarter where
  | first
  | half
  | third
  | annual
  deriving DecidableEq, Repr

namespace Quarter

/-- `REPORT_PERIOD_SUFFIXES`. -/
def suffix : Quarter → String
  | first => "一季"
  | half => "半年报"
  | third => "三季"
  | annual => "年报"

/-- `QUARTER_ENDS`. -/
def monthDay : Quarter → ℕ × ℕ
  | first => (3, 31)
  | half => (6, 30)
  | third => (9, 30)
  | annual => (12, 31)

/-- `REPORT_PERIOD_END_DATES`. -/
def isoSuffix : Quarter → String
  | first => "-03-31"
  | half => "-06-30"
  | third => "-09-30"
  | annual => "-12-31"

end Quarter

def quarters : List Quarter := [.first, .half, .third, .annual]

/-- Days are compared by year, month and day. -/
abbrev CivilDate := ℕ ×ₗ ℕ ×ₗ ℕ

def civilDate (year month day : ℕ) : CivilDate := toLex (year, toLex (month, day))

def CivilDate.year (date : CivilDate) : ℕ := (ofLex date).1

structure ReportPeriod where
  year : ℕ
  quarter : Quarter
  deriving DecidableEq, Repr

namespace ReportPeriod

variable (period : ReportPeriod)

def text : String := toString period.year ++ period.quarter.suffix

def endDate : CivilDate :=
  civilDate period.year period.quarter.monthDay.1 period.quarter.monthDay.2

def endDay : Int := dayOf period.year period.quarter.monthDay.1 period.quarter.monthDay.2

/-- `isoformat` of the end date, for a year of four digits. -/
def endIso : String := toString period.year ++ period.quarter.isoSuffix

/-- `_next_quarter_end`. -/
def next : ReportPeriod :=
  match period.quarter with
  | .first => ⟨period.year, .half⟩
  | .half => ⟨period.year, .third⟩
  | .third => ⟨period.year, .annual⟩
  | .annual => ⟨period.year + 1, .first⟩

/-- `report_period_end_date` reads the text of a period back, when its year has four digits. -/
def checked : Except StoreError ReportPeriod :=
  if 1000 ≤ period.year ∧ period.year ≤ 9999 then .ok period
  else .error (.valueError ("Unsupported report disclosure period: " ++ period.text))

end ReportPeriod

/-- `previous_report_period_end`. -/
def previousReportPeriodEnd (today : CivilDate) : ReportPeriod :=
  match (quarters.filter fun quarter => (ReportPeriod.mk today.year quarter).endDate ≤ today).getLast? with
  | some quarter => ⟨today.year, quarter⟩
  | none => ⟨today.year - 1, .annual⟩

/-- `rolling_forecast_periods`. -/
def rollingForecastPeriods (today : CivilDate) (count : Int) : Except StoreError (List ReportPeriod) :=
  if count < 1 then
    .error (.valueError "akshare_cn_stock_yjyg_em.rolling_period_count must be >= 1")
  else (List.range count.toNat).mapM fun k =>
    (ReportPeriod.next^[k] (previousReportPeriodEnd today)).checked

/-- `_periods_between`; one of the two modules has a first period. -/
def periodsBetween (minimum : CivilDate) (startYear : ℕ) (today : CivilDate) :
    Except StoreError (List ReportPeriod) := do
  let periods ← ((List.range' startYear (today.year + 1 - startYear)).flatMap fun year =>
    quarters.map fun quarter => ReportPeriod.mk year quarter).mapM ReportPeriod.checked
  .ok (periods.filter fun period => minimum ≤ period.endDate ∧ period.endDate ≤ today)

/-- `_periods_between(today.year - 2, today)[-4:]`. -/
def latestFinishedPeriods (minimum today : CivilDate) : Except StoreError (List ReportPeriod) := do
  let periods ← periodsBetween minimum (today.year - 2) today
  .ok (periods.drop (periods.length - 4))

/-! The three modules -/

inductive DisclosureTarget where
  | yjygEm
  | reportDisclosure
  | yysjEm
  deriving DecidableEq, Repr

/-- What a run is asked for, with its day and the setting it reads. The periods are those of
`--period` or of a full run; a run without them takes its rolling window. -/
structure DisclosureRequest where
  today : CivilDate
  market : Option String := none
  periods : Option (List ReportPeriod) := none
  maxTasks : Option Int := none
  resume : Bool := true
  force : Bool := false
  rollingPeriodCount : Int := 5

namespace DisclosureTarget

def pipeline : DisclosureTarget → String
  | yjygEm => "update_akshare_yjyg_em"
  | reportDisclosure => "update_akshare_report_disclosure"
  | yysjEm => "update_akshare_yysj_em"

def dataset : DisclosureTarget → DatasetDefinition
  | yjygEm => akshareYjygEmDataset
  | reportDisclosure => akshareReportDisclosureDataset
  | yysjEm => akshareYysjEmDataset

/-- The mode that is passed to `write_dataset`. -/
def mode : DisclosureTarget → Option WriteMode
  | yjygEm => some .replace
  | reportDisclosure => none
  | yysjEm => some .merge

def writeMode (target : DisclosureTarget) : WriteMode :=
  target.mode.getD target.dataset.defaultWriteMode

def endpoint : DisclosureTarget → String
  | yjygEm => "stock_yjyg_em"
  | reportDisclosure => "stock_report_disclosure"
  | yysjEm => "stock_yysj_em"

/-- The column that tells the answers to the codes of a period apart. -/
def labelColumn : DisclosureTarget → Option String
  | yjygEm => none
  | reportDisclosure => some "market"
  | yysjEm => some "symbol"

/-- The codes of the tasks for a period: its text, the market, or the symbols. -/
def codes (target : DisclosureTarget) (market : Option String) (period : ReportPeriod) : List String :=
  match target with
  | yjygEm => [period.text]
  | reportDisclosure => [(present market).getD "沪深京"]
  | yysjEm =>
    match present (market.map strip) with
    | none => ["沪深A股", "京市A股"]
    | some symbol => [symbol]

def window (target : DisclosureTarget) (request : DisclosureRequest) :
    Except StoreError (List ReportPeriod) :=
  match target with
  | yjygEm => rollingForecastPeriods request.today request.rollingPeriodCount
  | reportDisclosure => latestFinishedPeriods (civilDate 0 0 0) request.today
  | yysjEm => latestFinishedPeriods (civilDate 2008 12 31) request.today

def resolvePeriods (target : DisclosureTarget) (request : DisclosureRequest) :
    Except StoreError (List ReportPeriod) :=
  match request.periods with
  | some periods => periods.mapM ReportPeriod.checked
  | none => target.window request

def key (target : DisclosureTarget) (period : ReportPeriod) (code : String) : CheckpointKey :=
  ⟨target.pipeline, target.dataset.id, code, period.endIso, period.endIso⟩

end DisclosureTarget

structure DisclosureTask where
  period : ReportPeriod
  code : String
  skipped : Bool
  deriving DecidableEq

/-- The index of the stored checkpoints, by key; those of the other pipelines are left out. -/
def checkpointLookup (checkpoints : Dict CheckpointKey String) : CheckpointLookup where
  pipelineStatus := checkpoints
  dateStatus := checkpoints.foldl
    (fun status entry => Dict.set
      (entry.1.pipeline, entry.1.dataset, entry.1.code, entry.1.endDate) entry.2 status) []

section Plan

variable (e : CheckpointEnv) (target : DisclosureTarget) (request : DisclosureRequest) (st : Store)
  (checkpoints : Dict CheckpointKey String)

def disclosureTask (period : ReportPeriod) (code : String) : DisclosureTask where
  period := period
  code := code
  skipped := shouldSkipCheckpoint e [] (target.key period code)
    (st.files target.dataset.id period.text).isSome request.resume request.force
    (some (checkpointLookup checkpoints))

/-- `plan` of the three modules. -/
def planDisclosure : Except StoreError (List DisclosureTask) := do
  let periods ← target.resolvePeriods request
  let tasks := periods.flatMap fun period =>
    (target.codes request.market period).map (disclosureTask e target request st checkpoints period)
  .ok (match request.maxTasks with
    | some n => tasks.take n.toNat
    | none => tasks)

end Plan

/-! Answers -/

/-- The cells of a row of an answer: those that `normalize` inserts, or a selected one. -/
def disclosureCell (target : DisclosureTarget) (period : ReportPeriod) (code : String)
    (fetchedAt : Int) (selected : Row) (column : String) : Cell :=
  if column = "report_period" then .text period.text
  else if column = "period_end_date" then .date period.endDay
  else if some column = target.labelColumn then .text code
  else if column = "source_endpoint" then .text target.endpoint
  else if column = "fetched_at" then .stamp fetchedAt
  else selected column

def disclosureDtype (target : DisclosureTarget) (dtype : String → Dtype) (column : String) : Dtype :=
  if column ∈ ["report_period", "period_end_date", "source_endpoint"] ∨
      some column = target.labelColumn then .object
  else if column = "fetched_at" then .datetime
  else dtype column

/-- What the adapter of a module returns for the columns it has selected and converted. -/
def disclosureFrame (target : DisclosureTarget) (period : ReportPeriod) (code : String)
    (fetchedAt : Int) (selected : Frame) : Frame where
  columns := fieldNames target.dataset.schema
  dtype := if selected.rows = [] then fun _ => .object else disclosureDtype target selected.dtype
  rows := selected.rows.map (disclosureCell target period code fetchedAt)

/-! Runs -/

/-- A run with what its surroundings do: the answers as of the run, the writes, and the flushes
of the metadata that raise. -/
structure DisclosureRun where
  target : DisclosureTarget
  request : DisclosureRequest
  answer : ReportPeriod → String → Except StoreError Frame
  fetchedAt : ReportPeriod → String → Int
  env : ReportPeriod → String → WriteEnv
  flushSize : ℕ := 200
  flushRaises : ℕ → Bool := fun _ => false

namespace DisclosureRun

variable (run : DisclosureRun)

/-- The answer to a task as a frame. -/
def frame (period : ReportPeriod) (code : String) (selected : Frame) : Frame :=
  disclosureFrame run.target period code (run.fetchedAt period code) selected

end DisclosureRun

/-- The rows of a fetch whose file has been written. -/
structure DisclosureFetch where
  target : DisclosureTarget
  period : ReportPeriod
  code : String
  rows : List Row

/-- The files, the checkpoints by key, and the fetches that have been written, the latest first. -/
structure DisclosureWorld where
  store : Store
  checkpoints : Dict CheckpointKey String
  fetches : List DisclosureFetch

/-- A run under way: the checkpoint rows that wait for a flush, and the flushes so far. -/
structure DisclosureProgress extends DisclosureWorld where
  batch : List (CheckpointKey × String)
  flushes : ℕ

namespace DisclosureRun

variable (run : DisclosureRun) (progress : DisclosureProgress)

/-- `flush` of the batch; a flush that raises leaves the rows in it. -/
def flush : Bool × DisclosureProgress :=
  if progress.batch = [] then (true, progress)
  else if run.flushRaises progress.flushes = true then
    (false, { progress with flushes := progress.flushes + 1 })
  else (true, { progress with
    checkpoints := progress.batch.foldl (fun table row => Dict.set row.1 row.2 table)
      progress.checkpoints
    batch := []
    flushes := progress.flushes + 1 })

/-- `add` of the rows of a task. -/
def addRow (key : CheckpointKey) (status : String) : Bool × DisclosureProgress :=
  let added := { progress with batch := progress.batch ++ [(key, status)] }
  if max run.flushSize 1 ≤ added.batch.length then run.flush added else (true, added)

/-- `record_failure`, which may raise as well. -/
def recordFailure (key : CheckpointKey) : Option (List String) × DisclosureProgress :=
  match run.addRow progress key "failed" with
  | (true, recorded) => (some ["failed"], recorded)
  | (false, recorded) => (none, recorded)

/-- `record_success`; when it raises, a failure is recorded. -/
def recordSuccess (key : CheckpointKey) : Option (List String) × DisclosureProgress :=
  match run.addRow progress key "success" with
  | (true, recorded) => (some ["success"], recorded)
  | (false, recorded) => run.recordFailure recorded key

variable (p : Pandas) (h : Hashing)

def writeAnswer (period : ReportPeriod) (code : String) (selected : Frame) :
    Except StoreError DatasetWriteResult × Store :=
  writeDataset p h (run.env period code) run.target.dataset.id (run.frame period code selected)
    (some [("report_period", .text period.text)]) run.target.mode false progress.store

/-- The fetches after the write of an answer. -/
def writtenFetches (period : ReportPeriod) (code : String) (selected : Frame) :
    List DisclosureFetch :=
  match replacedFile p (run.env period code) run.target.dataset (run.frame period code selected)
    [("report_period", .text period.text)] run.target.writeMode progress.store with
  | some _ => ⟨run.target, period, code, incomingRows p run.target.dataset
      (run.frame period code selected)⟩ :: progress.fetches
  | none => progress.fetches

/-- `fetch` and `record_result` of a task: the statuses of its records, none when it raises. -/
def recordResult (task : DisclosureTask) : Option (List String) × DisclosureProgress :=
  if task.skipped = true then (some [], progress)
  else
    let key := run.target.key task.period task.code
    match run.answer task.period task.code with
    | .error _ => run.recordFailure progress key
    | .ok selected =>
      let written := run.writeAnswer progress p h task.period task.code selected
      let stored := { progress with
        store := written.2
        fetches := run.writtenFetches progress p task.period task.code selected }
      match written.1 with
      | .error _ => run.recordFailure stored key
      | .ok _ => run.recordSuccess stored key

/-- The tasks of a run one after the other. -/
def recordResults (progress : DisclosureProgress) :
    List DisclosureTask → Option (List String) × DisclosureProgress
  | [] => (some [], progress)
  | task :: tasks =>
    match run.recordResult progress p h task with
    | (none, recorded) => (none, recorded)
    | (some statuses, recorded) =>
      let rest := recordResults recorded tasks
      (rest.1.map (statuses ++ ·), rest.2)

/-- A run; it ends when nothing raises, the last flush included. -/
def perform (e : CheckpointEnv) (world : DisclosureWorld) :
    Option (List String) × DisclosureWorld :=
  match planDisclosure e run.target run.request world.store world.checkpoints with
  | .error _ => (none, world)
  | .ok tasks =>
    match run.recordResults p h { world with batch := [], flushes := 0 } tasks with
    | (none, recorded) => (none, recorded.toDisclosureWorld)
    | (some statuses, recorded) =>
      match run.flush recorded with
      | (true, finished) => (some statuses, finished.toDisclosureWorld)
      | (false, finished) => (none, finished.toDisclosureWorld)

end DisclosureRun

end QuantDataCenter.Sources
