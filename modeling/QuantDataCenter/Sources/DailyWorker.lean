import QuantDataCenter.Pipeline.LifecycleRows
import QuantDataCenter.Storage.WriteSpec

/-!
The background worker of the daily update (`update_daily_worker.py` and
`update_daily_metadata.py`). What the calls to the store, the frame functions
and the metadata batch answer is given for each plan by its position in the list.
-/

set_option autoImplicit false
set_option relaxedAutoImplicit false

namespace QuantDataCenter.Sources

open QuantDataCenter.Pipeline
open QuantDataCenter.Storage
open QuantDataCenter.Tabular

def fullHistoryStartDate : String := "1990-01-01"

def pipelineUpdateDaily : String := "update_daily"

def unadjustedDailyDataset : String := "baostock_cn_stock_daily_bar_unadjusted"

/-- The keys of `ADJUSTED_DAILY_FACTOR_COLUMNS`. -/
def adjustedDailyDatasets : List String :=
  ["baostock_cn_stock_daily_bar_qfq", "baostock_cn_stock_daily_bar_hfq"]

def isAdjustedDailyDataset (dataset : String) : Bool := dataset ∈ adjustedDailyDatasets

structure DailyTargetPlan where
  dataset : String
  code : String
  checkpointStartDate : String
  endDate : String
  outputPath : String
  startTime : Int

structure ApiFetchRequest where
  kind : String
  code : String
  startDate : String
  endDate : String
  datasets : List String
  reason : String
  deriving DecidableEq

structure BackgroundTaskResult where
  runRecords : List (Option (MetadataRow Cell)) := []
  apiRequests : List ApiFetchRequest := []

structure AdjustFactorState where
  frame : Frame
  errorStack : Option String

/-- `error_stack` as a condition. -/
def AdjustFactorState.failed (state : AdjustFactorState) : Bool :=
  state.errorStack ≠ none ∧ state.errorStack ≠ some ""

/-- The frame functions of `_DailyUpdateBackgroundWorker`, and what the store, the
batch and the clock answer while one call runs. -/
structure DailyEnv where
  pandas : Pandas
  hashing : Hashing
  /-- What a write meets, for the plan at a position. -/
  writes : ℕ → WriteEnv
  /-- The exception of the flush in `_write_daily_success`, if there is one. -/
  flushes : ℕ → Option StoreError
  /-- The exception of the flush in `_write_daily_failure`. -/
  failureFlushes : ℕ → Option StoreError
  reading : PartitionIo
  calculateAdjustedDailyBar : Frame → Frame → String → Except StoreError Frame
  hasDataInRange : Frame → String → String → Except StoreError Bool
  dailyFramesDifferOnOverlap : Frame → Frame → String → String → Except StoreError Bool
  mergeDailyFrames : Frame → Frame → Except StoreError Frame
  /-- `traceback.format_exc()`. -/
  formatExc : StoreError → String
  moment : ℕ → Moment
  /-- A path by its dataset and partition value. -/
  pathText : String × String → String

/-- What a call has done to the store and to the batch: the rows it added and the
partitions it replaced, with the positions of their plans. -/
structure Effects where
  store : Store
  added : List (ℕ × LifecycleRows Cell)
  replaced : List (ℕ × List Row)

/-- The partition whose file a write in mode `replace` puts in place, and its rows, if it
comes to that. -/
def replacement (p : Pandas) (env : WriteEnv) (d : DatasetDefinition) (df : Frame)
    (partition : Partition) : Option (String × List Row) :=
  match partitionValue p d partition with
  | .error _ => none
  | .ok value =>
    match prepareDatasetFrame p env d df partition true with
    | .error _ => none
    | .ok frame =>
      match atomicWrite (env.io 0).attempts with
      | .error _ => none
      | .ok () => some (value, frame.rows)

def codePartition (code : String) : Partition := some [("code", .text code)]

section Metadata

variable (e : DailyEnv)

/-- `PipelineMetadataBatch.add`: the rows are in the batch before a flush can raise. -/
def Effects.add (flush : Option StoreError) (i : ℕ) (rows : LifecycleRows Cell) (s : Effects) :
    Except StoreError Unit × Effects :=
  let s' := { s with added := s.added ++ [(i, rows)] }
  match flush with
  | none => (.ok (), s')
  | some err => (.error err, s')

/-- `write_dataset` of a plan's frame, with a note of the replacement. -/
def Effects.writeDataset (i : ℕ) (dataset : String) (df : Frame) (code : String) (s : Effects) :
    Except StoreError DatasetWriteResult × Effects :=
  let partition := codePartition code
  let env := e.writes i
  let out := Storage.writeDataset e.pandas e.hashing env dataset df partition none false s.store
  let rows := match datasetDefinition dataset with
    | .error _ => none
    | .ok d => replacement e.pandas env d df partition
  (out.1, { s with
    store := out.2
    replaced := s.replaced ++ (rows.map fun written => (i, written.2)).toList })

def primaryPath (result : DatasetWriteResult) : Except StoreError (String × String) :=
  match result.paths with
  | [path] => .ok path
  | _ => .error (.valueError "Expected exactly one dataset path")

def writeDailySuccess (i : ℕ) (plan : DailyTargetPlan) (runStartDate : String) (df : Frame)
    (s : Effects) : Except StoreError (Option (MetadataRow Cell)) × Effects :=
  match s.writeDataset e i plan.dataset df plan.code with
  | (.error err, s') => (.error err, s')
  | (.ok result, s') =>
    match primaryPath result with
    | .error err => (.error err, s')
    | .ok path =>
      let rows := successRows
        ⟨pipelineUpdateDaily, plan.dataset, plan.code, some runStartDate, some plan.endDate,
          e.pathText path, some plan.checkpointStartDate⟩
        { e.moment s'.added.length with startedAt := plan.startTime } df.rows.length
      match s'.add (e.flushes i) i rows with
      | (.error err, s'') => (.error err, s'')
      | (.ok (), s'') => (.ok rows.runRow, s'')

/-- An exception of the flush is logged only. -/
def writeDailyFailure (i : ℕ) (plan : DailyTargetPlan) (errorStack : String) (s : Effects) :
    Option (MetadataRow Cell) × Effects :=
  let rows := failureRows
    ⟨pipelineUpdateDaily, plan.dataset, plan.code, some plan.checkpointStartDate,
      some plan.endDate, plan.outputPath, none⟩
    { e.moment s.added.length with startedAt := plan.startTime } errorStack
  (rows.runRow, (s.add (e.failureFlushes i) i rows).2)

def writeDailyFailures (errorStack : String) : List (ℕ × DailyTargetPlan) → Effects →
    List (Option (MetadataRow Cell)) × Effects
  | [], s => ([], s)
  | (i, plan) :: plans, s =>
    let (row, s') := writeDailyFailure e i plan errorStack s
    let (rows, s'') := writeDailyFailures errorStack plans s'
    (row :: rows, s'')

end Metadata

/-- The worker with what it keeps for each code. -/
structure DailyWorker where
  mode : String
  startDate : String
  endDate : String
  factorState : String → Option AdjustFactorState
  dailyPlansByCode : String → List DailyTargetPlan

def emptyFrame : Frame := ⟨[], fun _ => .object, []⟩

def DailyWorker.factorStateForCode (w : DailyWorker) (code : String) : AdjustFactorState :=
  (w.factorState code).getD ⟨emptyFrame, none⟩

def DailyWorker.setDailyPlans (w : DailyWorker) (code : String) (plans : List DailyTargetPlan) :
    DailyWorker :=
  { w with dailyPlansByCode := Function.update w.dailyPlansByCode code plans }

def DailyWorker.releaseCodeState (w : DailyWorker) (code : String) : DailyWorker :=
  { w with
    factorState := Function.update w.factorState code none
    dailyPlansByCode := Function.update w.dailyPlansByCode code [] }

section Worker

variable (e : DailyEnv) (w : DailyWorker)

def dailyFrameFromUnadjusted (dataset : String) (unadjusted factors : Frame) :
    Except StoreError Frame :=
  if dataset = unadjustedDailyDataset then .ok unadjusted
  else if isAdjustedDailyDataset dataset = true then
    e.calculateAdjustedDailyBar unadjusted factors dataset
  else .error (.valueError ("Unsupported async daily dataset: " ++ dataset))

/-- The body of the two loops over plans: the frame, and its write. -/
def writePlan (i : ℕ) (plan : DailyTargetPlan) (unadjusted factors : Frame)
    (runStartDate : String) (s : Effects) : Except StoreError (Option (MetadataRow Cell)) × Effects :=
  match dailyFrameFromUnadjusted e plan.dataset unadjusted factors with
  | .error err => (.error err, s)
  | .ok fresh => writeDailySuccess e i plan runStartDate fresh s

/-- One round of `_write_daily_frames`, with its handler. -/
def writeDailyFrame (i : ℕ) (plan : DailyTargetPlan) (unadjusted factors : Frame)
    (runStartDate : String) (s : Effects) : Option (MetadataRow Cell) × Effects :=
  match writePlan e i plan unadjusted factors runStartDate s with
  | (.ok row, s') => (row, s')
  | (.error err, s') => writeDailyFailure e i plan (e.formatExc err) s'

def writeDailyFramesFrom (unadjusted factors : Frame) (runStartDate : String) :
    List (ℕ × DailyTargetPlan) → Effects → List (Option (MetadataRow Cell)) × Effects
  | [], s => ([], s)
  | (i, plan) :: plans, s =>
    let (row, s') := writeDailyFrame e i plan unadjusted factors runStartDate s
    let (rows, s'') := writeDailyFramesFrom unadjusted factors runStartDate plans s'
    (row :: rows, s'')

/-- The code of the first plan, whose factors `_write_daily_frames` takes. -/
def firstCode : List (ℕ × DailyTargetPlan) → String
  | [] => ""
  | (_, plan) :: _ => plan.code

def writeDailyFrames (plans : List (ℕ × DailyTargetPlan)) (unadjusted : Frame)
    (runStartDate : String) (s : Effects) : List (Option (MetadataRow Cell)) × Effects :=
  writeDailyFramesFrom e unadjusted (w.factorStateForCode (firstCode plans)).frame runStartDate
    plans s

/-- `_partial_unadjusted_base`: the base, or why the history has to be fetched again. -/
def partialUnadjustedBase (code : String) (freshUnadjusted : Frame) (st : Store) :
    Except StoreError (Frame ⊕ String) := do
  let definition := dailyBarDataset unadjustedDailyDataset
  let value ← partitionValue e.pandas definition (codePartition code)
  let existing ← readDataset e.pandas e.reading st definition value
  let present ← e.hasDataInRange existing w.startDate w.endDate
  if present = false then .ok (.inr "unadjusted_empty_lookback")
  else do
    let differ ← e.dailyFramesDifferOnOverlap existing freshUnadjusted w.startDate w.endDate
    if differ = true then .ok (.inr "unadjusted_lookback_mismatch")
    else do
      let merged ← e.mergeDailyFrames existing freshUnadjusted
      .ok (.inl merged)

def fullRefetchRequest (code : String) (plans : List (ℕ × DailyTargetPlan)) (reason : String) :
    ApiFetchRequest where
  kind := "daily_bar_full_refetch"
  code := code
  startDate := fullHistoryStartDate
  endDate := w.endDate
  datasets := (plans.map fun plan => plan.2.dataset).reverse.dedup.reverse
  reason := reason

def partialRunStartDate (plan : DailyTargetPlan) : String :=
  if isAdjustedDailyDataset plan.dataset = true then fullHistoryStartDate
  else plan.checkpointStartDate

/-- The loop of the partial mode: the first exception leaves it. -/
def writePartialFrames (unadjustedBase factors : Frame) : List (ℕ × DailyTargetPlan) → Effects →
    Except StoreError (List (Option (MetadataRow Cell))) × Effects
  | [], s => (.ok [], s)
  | (i, plan) :: plans, s =>
    match writePlan e i plan unadjustedBase factors (partialRunStartDate plan) s with
    | (.error err, s') => (.error err, s')
    | (.ok row, s') =>
      match writePartialFrames unadjustedBase factors plans s' with
      | (.error err, s'') => (.error err, s'')
      | (.ok rows, s'') => (.ok (row :: rows), s'')

/-- The plan is adjusted and there are no factors to adjust it with. -/
def failsEarly (factorState : AdjustFactorState) (plan : ℕ × DailyTargetPlan) : Bool :=
  isAdjustedDailyDataset plan.2.dataset && factorState.failed

/-- The first loop of `_process_daily_initial`. -/
def writeEarlyFailures (factorState : AdjustFactorState) (plans : List (ℕ × DailyTargetPlan))
    (s : Effects) : List (Option (MetadataRow Cell)) × Effects :=
  writeDailyFailures e (factorState.errorStack.getD "") (plans.filter (failsEarly factorState)) s

def processActivePlans (code : String) (factorState : AdjustFactorState)
    (active : List (ℕ × DailyTargetPlan)) (fetchStartDate : Option String) (unadjusted : Frame)
    (apiErrorStack : Option String) (s : Effects) : Except StoreError BackgroundTaskResult × Effects :=
  if w.mode = "full" then
    if fetchStartDate = none then
      (.ok ⟨[], [fullRefetchRequest w code active "baostock_cn_stock_adjustment_factor_changed"]⟩, s)
    else match apiErrorStack with
      | some errorStack =>
        let (rows, s') := writeDailyFailures e errorStack active s
        (.ok ⟨rows, []⟩, s')
      | none =>
        let (rows, s') := writeDailyFrames e w active unadjusted fullHistoryStartDate s
        (.ok ⟨rows, []⟩, s')
  else match apiErrorStack with
    | some errorStack =>
      let (rows, s') := writeDailyFailures e errorStack active s
      (.ok ⟨rows, []⟩, s')
    | none =>
      match partialUnadjustedBase e w code unadjusted s.store with
      | .error err => (.error err, s)
      | .ok (.inr reason) => (.ok ⟨[], [fullRefetchRequest w code active reason]⟩, s)
      | .ok (.inl base) =>
        match writePartialFrames e base factorState.frame active s with
        | (.error err, s') => (.error err, s')
        | (.ok rows, s') => (.ok ⟨rows, []⟩, s')

/-- `_process_daily_initial`. -/
def processDailyInitialBody (code : String) (plans : List (ℕ × DailyTargetPlan))
    (fetchStartDate : Option String) (unadjusted : Frame) (apiErrorStack : Option String)
    (s : Effects) : Except StoreError BackgroundTaskResult × Effects :=
  let factorState := w.factorStateForCode code
  let active := plans.filter fun plan => !failsEarly factorState plan
  let (early, s') := writeEarlyFailures e factorState plans s
  if active = [] then (.ok ⟨early, []⟩, s')
  else match processActivePlans e w code factorState active fetchStartDate unadjusted apiErrorStack s' with
    | (.error err, s'') => (.error err, s'')
    | (.ok result, s'') => (.ok { result with runRecords := early ++ result.runRecords }, s'')

def numbered (plans : List DailyTargetPlan) : List (ℕ × DailyTargetPlan) :=
  plans.zipIdx.map Prod.swap

structure CallOutcome where
  result : BackgroundTaskResult
  worker : DailyWorker
  effects : Effects

def processDailyInitial (code : String) (plans : List DailyTargetPlan)
    (fetchStartDate : Option String) (unadjusted : Frame) (apiErrorStack : Option String)
    (st : Store) : CallOutcome :=
  let w := w.setDailyPlans code plans
  let (result, s) :=
    match processDailyInitialBody e w code (numbered plans) fetchStartDate unadjusted apiErrorStack
      ⟨st, [], []⟩ with
    | (.ok result, s) => (result, s)
    | (.error err, s) =>
      let (rows, s') := writeDailyFailures e (e.formatExc err) (numbered plans) s
      (⟨rows, []⟩, s')
  ⟨result, if result.apiRequests = [] then w.releaseCodeState code else w, s⟩

def refetchPlans (request : ApiFetchRequest) : List DailyTargetPlan :=
  (w.dailyPlansByCode request.code).filter fun plan => plan.dataset ∈ request.datasets

/-- Neither helper raises, so that the handler of the source is never entered. -/
def processDailyFullRefetch (request : ApiFetchRequest) (unadjusted : Frame)
    (apiErrorStack : Option String) (st : Store) : CallOutcome :=
  let plans := numbered (refetchPlans w request)
  let (rows, s) := match apiErrorStack with
    | some errorStack => writeDailyFailures e errorStack plans ⟨st, [], []⟩
    | none => writeDailyFrames e w plans unadjusted fullHistoryStartDate ⟨st, [], []⟩
  ⟨⟨rows, []⟩, w.releaseCodeState request.code, s⟩

end Worker

end QuantDataCenter.Sources
