import QuantDataCenter.Percentile.Agreement

/-!
The update of the stored percentiles of one code, run after run on a history that
grows by later dates: what is recomputed is chosen from the stored dates, the
checkpoints and `--start`, and spliced into the stored rows.
-/

set_option autoImplicit false
set_option relaxedAutoImplicit false

namespace QuantDataCenter.Percentile

open QuantDataCenter.Lib

inductive Mode where
  | full
  | incremental
  deriving DecidableEq, Repr

inductive RunStatus where
  | success
  | failed
  | skippedExisting
  | skippedMissingSource
  | filtered
  | refused
  deriving DecidableEq, Repr

/-- What `write_dataset` does: it may raise before or after the file is replaced. -/
inductive WriteOutcome where
  | done
  | raisedBefore
  | raisedAfter
  deriving DecidableEq, Repr

/-- One run with its options (`partial` is the incremental mode), and what the environment does:
whether the date ranges and the partitions can be read, how the write ends, and whether the
checkpoint reaches its table. -/
structure Run where
  mode : Mode := .incremental
  start : Option CalendarDate := none
  resume : Bool := true
  force : Bool := false
  today : CalendarDate
  sourceRangesRead : Bool := true
  existingRangesRead : Bool := true
  readable : Bool := true
  write : WriteOutcome := .done
  persisted : Bool := true

/-- The files and checkpoints of one code; a checkpoint says whether it was a success. -/
structure World where
  source : List SourceRow
  stored : Option (List PercentileRow)
  checkpoints : CalendarDate × CalendarDate → Option Bool

/-- First and last date of a file; `none` without rows. -/
def dateRange (dates : List CalendarDate) : Option (CalendarDate × CalendarDate) :=
  dates.min?.bind fun first => dates.max?.map fun last => (first, last)

def storedDates (stored : Option (List PercentileRow)) : List CalendarDate :=
  (stored.getD []).map PercentileRow.date

/-- `_checkpoint_start_date`. -/
def checkpointStartDate (mode : Mode) (start : Option CalendarDate) (sourceStart : CalendarDate)
    (latestExisting : Option CalendarDate) : CalendarDate :=
  match mode with
  | .full => sourceStart
  | .incremental => start.getD (latestExisting.getD sourceStart)

/-- `_partial_existing_covers_source`. -/
def existingCoversSource (mode : Mode) (start : Option CalendarDate)
    (latestExisting : Option CalendarDate) (sourceEnd : CalendarDate) : Bool :=
  mode == .incremental && start.isNone && latestExisting.any fun latest => decide (sourceEnd ≤ latest)

/-- `_select_rows_for_mode`. -/
def selectRowsForMode (computed existing : List PercentileRow) (mode : Mode)
    (start : Option CalendarDate) : List PercentileRow :=
  if mode = .full ∨ existing = [] ∧ start = none then computed
  else match start with
    | some date => computed.filter fun row => date ≤ row.date
    | none => match latestDate (existing.map fun row => some row.date) with
      | none => computed
      | some latest => computed.filter fun row => latest < row.date

/-- `_merge_output_for_mode`. -/
def mergeOutputForMode (existing selected : List PercentileRow) (mode : Mode)
    (start : Option CalendarDate) : List PercentileRow :=
  if mode = .full ∨ existing = [] then selected
  else match start with
    | none => existing ++ selected
    | some date => existing.filter (fun row => row.date < date) ++ selected

/-- The rows of one code as `write_dataset` stores them: by date, the last of a date. -/
def storedRows (output : List PercentileRow) : List PercentileRow :=
  Keyed.keepLast PercentileRow.date (Keyed.stableSort PercentileRow.date output)

structure RunResult where
  status : RunStatus
  stored : Option (List PercentileRow)
  checkpoint : Option ((CalendarDate × CalendarDate) × Bool)

structure Task where
  sourceEnd : CalendarDate
  checkpointStart : Option CalendarDate := none

inductive Prefiltered where
  | missingSource
  | filtered
  | task (task : Task)

/-- `_prefilter_valuation_percentile_tasks`, for one code. -/
def prefilter (run : Run) (w : World) : Prefiltered :=
  match if run.sourceRangesRead then dateRange (w.source.map SourceRow.date) else none with
  | none => .missingSource
  | some (sourceStart, sourceEnd) =>
    if run.resume = true ∧ run.force = false then
      let existing := if run.mode ≠ .full ∧ run.existingRangesRead = true then
        dateRange (storedDates w.stored) else none
      let checkpointStart := checkpointStartDate run.mode run.start sourceStart (existing.map Prod.snd)
      if existingCoversSource run.mode run.start (existing.map Prod.snd) sourceEnd then .filtered
      else if w.stored.isSome ∧ w.checkpoints (checkpointStart, sourceEnd) = some true then .filtered
      else .task ⟨sourceEnd, some checkpointStart⟩
    else .task ⟨sourceEnd, none⟩

def selectRows (run : Run) (task : Task) (source : List SourceRow) (existing : List PercentileRow) :
    Except ZeroDivision (List PercentileRow) :=
  let latest := latestDate (existing.map fun row => some row.date)
  if existingCoversSource run.mode run.start latest task.sourceEnd then .ok []
  else if run.mode = .incremental ∧ run.start = none ∧ existing ≠ [] then
    computeAppendOnlyValuationPercentiles source (existing.map fun row => some row.date)
  else do
    let computed ← computeValuationPercentiles source
    return selectRowsForMode computed existing run.mode run.start

/-- The body of the loop of `_update_baostock_valuation_percentile_impl`. -/
def runTask (run : Run) (task : Task) (w : World) : RunResult :=
  let date := run.start.getD run.today
  let failed (stored : Option (List PercentileRow)) : RunResult :=
    ⟨.failed, stored, some ((date, date), false)⟩
  let existing := w.stored.getD []
  if run.readable = false ∨ w.source = [] then failed w.stored
  else match dateRange (w.source.map SourceRow.date), selectRows run task w.source existing with
    | some (sourceStart, _), .ok selected =>
      let checkpointStart := task.checkpointStart.getD
        (checkpointStartDate run.mode run.start sourceStart
          (latestDate (existing.map fun row => some row.date)))
      match (selected.map PercentileRow.date).min? with
      | none => ⟨.skippedExisting, w.stored, some ((checkpointStart, task.sourceEnd), false)⟩
      | some first =>
        let output := some (storedRows (mergeOutputForMode existing selected run.mode run.start))
        match run.write with
        | .done => ⟨.success, output, some ((first, task.sourceEnd), true)⟩
        | .raisedBefore => failed w.stored
        | .raisedAfter => failed output
    | _, _ => failed w.stored

/-- `update_baostock_valuation_percentile`, for one code. -/
def update (run : Run) (w : World) : RunStatus × World :=
  let persist (result : RunResult) : RunStatus × World :=
    let checkpoints := match result.checkpoint with
      | some (key, success) => if run.persisted then Function.update w.checkpoints key (some success)
          else w.checkpoints
      | none => w.checkpoints
    (result.status, { w with stored := result.stored, checkpoints := checkpoints })
  if run.mode = .incremental ∧ run.start.isSome ∧ run.force = false then (.refused, w)
  else match prefilter run w with
    | .missingSource =>
      let date := run.start.getD run.today
      persist ⟨.skippedMissingSource, w.stored, some ((date, date), false)⟩
    | .filtered => (.filtered, w)
    | .task task => persist (runTask run task w)

/-! Histories -/

inductive Step where
  | grow (rows : List SourceRow)
  | run (run : Run)

def World.next (w : World) : Step → World
  | .grow rows => { w with source := w.source ++ rows }
  | .run run => (update run w).2

/-- Every source date before `--start` is stored, or nothing is selected from it on. -/
def StartCovered (run : Run) (w : World) : Prop :=
  ∀ date ∈ run.start, run.mode = .incremental →
    (∀ row ∈ w.source, row.date < date → row.date ∈ storedDates w.stored) ∨
      ∀ row ∈ w.source, row.date < date

/-- The history grows by later dates only. -/
def Grows (w : World) : Step → Prop
  | .grow rows => (w.source ++ rows).Pairwise fun a b => a.date < b.date
  | .run _ => True

def Covered (w : World) : Step → Prop
  | .grow _ => True
  | .run run => StartCovered run w

end QuantDataCenter.Percentile
