import QuantDataCenter.Lib.Dict
import QuantDataCenter.Pipeline.MetadataBatch
import QuantDataCenter.Tabular.Cell

/-!
The rows that a finished task leaves in the metadata tables (`lifecycle.py`).
-/

set_option autoImplicit false
set_option relaxedAutoImplicit false

namespace QuantDataCenter.Pipeline

open QuantDataCenter.Lib
open QuantDataCenter.Tabular

structure LifecycleTaskRef where
  pipeline : String
  dataset : String
  code : String
  startDate : Option String
  endDate : Option String
  outputPath : String
  checkpointStartDate : Option String := none

/-- `checkpoint_start_date or start_date`: an empty text is no date either. -/
def LifecycleTaskRef.effectiveCheckpointStartDate (task : LifecycleTaskRef) : Option String :=
  match task.checkpointStartDate with
  | some date => if date = "" then task.startDate else some date
  | none => task.startDate

/-- What the clock and `uuid4` give one set of rows. -/
structure Moment where
  taskId : String
  startedAt : Int
  endedAt : Int
  updatedAt : Int

def optionalText : Option String → Cell
  | none => .null
  | some s => .text s

def metadataRow (fields : List (String × Cell)) : MetadataRow Cell := fun field => Dict.get field fields

def runRow (moment : Moment) (dataset code status : String) (startDate endDate : Option String)
    (rowCount : ℕ) (errorStack : String) : MetadataRow Cell :=
  metadataRow [("task_id", .text moment.taskId), ("dataset", .text dataset), ("code", .text code),
    ("status", .text status), ("start_date", optionalText startDate),
    ("end_date", optionalText endDate), ("start_time", .stamp moment.startedAt),
    ("end_time", .stamp moment.endedAt), ("row_count", .int rowCount),
    ("error_stack", .text errorStack)]

def statusRow (moment : Moment) (dataset code : String) (lastSuccessDate : Option String)
    (rowCount : ℕ) (status errorStack : String) : MetadataRow Cell :=
  metadataRow [("dataset", .text dataset), ("code", .text code),
    ("last_success_date", optionalText lastSuccessDate), ("row_count", .int rowCount),
    ("status", .text status), ("updated_at", .stamp moment.updatedAt),
    ("error_stack", .text errorStack)]

def checkpointRow (moment : Moment) (pipeline dataset code : String)
    (startDate endDate : Option String) (status : String) (rowCount : ℕ) (outputPath errorStack : String) :
    MetadataRow Cell :=
  metadataRow [("pipeline", .text pipeline), ("dataset", .text dataset), ("code", .text code),
    ("start_date", optionalText startDate), ("end_date", optionalText endDate),
    ("status", .text status), ("row_count", .int rowCount), ("output_path", .text outputPath),
    ("updated_at", .stamp moment.updatedAt), ("error_stack", .text errorStack)]

/-- A text that counts in `value or default`. -/
def present (value : Option String) : Option String := value.filter (· ≠ "")

/-- `success_rows`. -/
def successRows (task : LifecycleTaskRef) (moment : Moment) (rowCount : ℕ)
    (outputPath lastSuccessDate : Option String := none) : LifecycleRows Cell where
  runRow := some (runRow moment task.dataset task.code "success" task.startDate task.endDate rowCount "")
  statusRow := some (statusRow moment task.dataset task.code ((present lastSuccessDate).or task.endDate)
    rowCount "success" "")
  checkpointRow := some (checkpointRow moment task.pipeline task.dataset task.code
    task.effectiveCheckpointStartDate task.endDate "success" rowCount
    ((present outputPath).getD task.outputPath) "")

/-- `failure_rows`. -/
def failureRows (task : LifecycleTaskRef) (moment : Moment) (errorStack : String)
    (outputPath : Option String := none) : LifecycleRows Cell where
  runRow := some (runRow moment task.dataset task.code "failed" task.startDate task.endDate 0 errorStack)
  statusRow := some (statusRow moment task.dataset task.code none 0 "failed" errorStack)
  checkpointRow := some (checkpointRow moment task.pipeline task.dataset task.code
    task.effectiveCheckpointStartDate task.endDate "failed" 0
    ((present outputPath).getD task.outputPath) errorStack)

/-- `skipped_rows`. -/
def skippedRows (task : LifecycleTaskRef) (status : String) (moment : Moment) (reason : String := "") :
    LifecycleRows Cell where
  runRow := some (runRow moment task.dataset task.code status task.startDate task.endDate 0 reason)
  statusRow := some (statusRow moment task.dataset task.code none 0 status reason)
  checkpointRow := some (checkpointRow moment task.pipeline task.dataset task.code
    task.effectiveCheckpointStartDate task.endDate status 0 task.outputPath reason)

end QuantDataCenter.Pipeline
