import QuantDataCenter.Derived.MasterRecords
import QuantDataCenter.Lib.Transition
import QuantDataCenter.Sources.ReportCandidates
import QuantDataCenter.Storage.KeyedWrite

/-!
Incremental runs of the financial report module. A run plans the codes with uncovered candidates
in its trigger window or in the pending file, stores the responses one after the other, and at its
end writes the date from which the next window starts. A crash leaves what is on disk; one in the
middle of a file operation is a crash after an operation that failed.
-/

set_option autoImplicit false
set_option relaxedAutoImplicit false

namespace QuantDataCenter.Sources

open QuantDataCenter.Lib.Checked QuantDataCenter.Lib.Keyed QuantDataCenter.Tabular
open QuantDataCenter.Quality QuantDataCenter.Storage

/-- A metadata file is rewritten in place, so there may be one that cannot be read. -/
inductive MetadataFile (α : Type) where
  | absent
  | holds (content : α)
  | torn

/-- How the rewriting of a metadata file ends: it may raise before or after the file is opened. -/
inductive MetadataWrite where
  | written
  | refused
  | torn
  deriving DecidableEq

def MetadataFile.rewrite {α : Type} (file next : MetadataFile α) :
    MetadataWrite → Except StoreError Unit × MetadataFile α
  | .written => (.ok (), next)
  | .refused => (.error .osError, file)
  | .torn => (.error .osError, .torn)

/-- What runs leave for the next: the store, the pending file, and the recorded date. -/
structure ReportDisk where
  store : Store
  pending : MetadataFile (List CandidateRow)
  state : MetadataFile Int

structure ReportRequest where
  code : List String := []
  maxTasks : Option Int := none
  deriving DecidableEq

structure FinancialReportTask where
  dataset : String
  code : String
  startDate : Int
  endDate : Int
  outputPath : String
  targetPeriods : List String
  triggerRows : List CandidateRow
  deriving DecidableEq

/-! Metadata files -/

def readFinancialReportPending : MetadataFile (List CandidateRow) → Except StoreError (List CandidateRow)
  | .absent => .ok []
  | .holds rows => .ok rows
  | .torn => .error .osError

/-- `_write_financial_report_pending`: no file stands for no rows. -/
def writeFinancialReportPending (rows : List CandidateRow) : MetadataFile (List CandidateRow) :=
  if rows = [] then .absent else .holds rows

def readIncrementalState : MetadataFile Int → Except StoreError (Option Int)
  | .absent => .ok none
  | .holds day => .ok (some day)
  | .torn => .error .osError

def incrementalTriggerStartDate (cfg : FinancialReportConfig) (state : MetadataFile Int)
    (effectiveDate : Int) : Except StoreError Int := do
  let lookbackStart := effectiveDate - max cfg.incrementalLookbackDays 0
  let lastEffective ← readIncrementalState state
  .ok (match lastEffective with
    | none => lookbackStart
    | some last => min lookbackStart last)

/-- `_active_pending_rows`. -/
def activePendingRows (cfg : FinancialReportConfig) (pending : List CandidateRow)
    (effectiveDate : Int) : List CandidateRow :=
  pending.filter fun row => effectiveDate - max cfg.pendingRetentionDays 0 ≤ row.triggerDate ∧
    row.triggerDate ≤ effectiveDate

/-! Planning -/

def financialReportDataset : DatasetDefinition := akshareFinancialReportSinaDataset

section Plan

variable (p : Pandas) (cfg : FinancialReportConfig)

def reportPath (code : String) : Except StoreError String :=
  partitionValue p financialReportDataset (some [("code", .text code)])

def presentPeriodEndDates (df : Frame) : List Int :=
  if df.rows = [] ∨ "period_end_date" ∉ df.columns then []
  else df.rows.filterMap fun r => Derived.toDate p (r "period_end_date")

variable (reads : Derived.Reads) (st : Store)

def coveredFinancialReportPeriods (code : String) : Except StoreError (List Int) := do
  let path ← reportPath p code
  if (st.files financialReportDataset.id path).isNone then .ok []
  else match Derived.readPartition p reads st financialReportDataset code with
    | .error .fileNotFound => .ok []
    | .error e => .error e
    | .ok df => .ok (presentPeriodEndDates p df)

def filterUncoveredCandidates : List CandidateRow → Except StoreError (List CandidateRow)
  | [] => .ok []
  | row :: rows => do
    let covered ← coveredFinancialReportPeriods p reads st row.code
    let filtered ← filterUncoveredCandidates rows
    .ok (if row.periodEndDate ∈ covered then filtered else row :: filtered)

def financialReportTask (group : String × List CandidateRow) :
    Except StoreError FinancialReportTask := do
  let path ← reportPath p group.1
  .ok {
    dataset := financialReportDataset.id
    code := group.1
    startDate := ((group.2.map CandidateRow.periodEndDate).min?).getD 0
    endDate := ((group.2.map CandidateRow.triggerDate).max?).getD 0
    outputPath := path
    targetPeriods := Derived.sortedSet (group.2.map CandidateRow.reportPeriod)
    triggerRows := group.2 }

def requestedCandidates (request : ReportRequest) (candidates : List CandidateRow) :
    Except StoreError (List CandidateRow) :=
  if request.code = [] then .ok candidates
  else do
    let requested ← request.code.mapM fun item => normalizeAkshareCode p (.text item)
    .ok (candidates.filter fun row => row.code ∈ requested)

/-- The tasks for the candidates whose period is not stored yet. -/
def candidateTasks (request : ReportRequest) (candidates : List CandidateRow) :
    Except StoreError (List FinancialReportTask) := do
  let requested ← requestedCandidates p request candidates
  let uncovered ← filterUncoveredCandidates p reads st requested
  (stableSort Prod.fst (groups CandidateRow.code uncovered)).mapM (financialReportTask p)

variable (request : ReportRequest) (now : LocalTime) (write : MetadataWrite) (disk : ReportDisk)

/-- What a plan reads first: the candidates of the window, and the pending rows. -/
def planInputs : Except StoreError (List CandidateRow × List CandidateRow) := do
  let effectiveDate := effectiveDisclosureDate cfg now
  let triggerStart ← incrementalTriggerStartDate cfg disk.state effectiveDate
  let candidates ← localDisclosureCandidates p cfg reads disk.store effectiveDate (some triggerStart)
  let pending ← readFinancialReportPending disk.pending
  .ok (candidates, pending)

/-- `_plan_incremental_tasks`; pending rows that are too old or lie ahead are dropped from the file. -/
def planIncrementalTasks : Except StoreError (List FinancialReportTask) × ReportDisk :=
  match planInputs p cfg reads now disk with
  | .error e => (.error e, disk)
  | .ok (candidates, pending) =>
    if pending = [] then (candidateTasks p reads disk.store request candidates, disk)
    else
      let pendingRows := activePendingRows cfg pending (effectiveDisclosureDate cfg now)
      let rewritten := disk.pending.rewrite (writeFinancialReportPending pendingRows) write
      (rewritten.1 >>= fun _ =>
          candidateTasks p reads disk.store request (mergeCandidateRows (candidates ++ pendingRows)),
        { disk with pending := rewritten.2 })

/-- `plan`: the tasks up to the limit. -/
def planReports : Except StoreError (List FinancialReportTask) × ReportDisk :=
  let planned := planIncrementalTasks p cfg reads request now write disk
  (planned.1.map fun tasks => match request.maxTasks with
    | none => tasks
    | some limit => tasks.take (max limit 0).toNat, planned.2)

end Plan

/-! Results -/

/-- What a fetch gives: an error, from an open circuit or not, or a response. With a response
come the answers of the system while it is stored, while the pending file is rewritten and while
the lifecycle row is written. -/
inductive ReportFetch where
  | failed (circuitOpen : Bool)
  | response (data : Frame) (env : WriteEnv) (write : MetadataWrite) (lifecycle : Bool)

structure WrittenTask where
  outputPath : String
  rowCount : ℕ
  lastSuccessDate : Option Int
  missing : List String

section Record

variable (p : Pandas) (cfg : FinancialReportConfig) (h : Hashing)

/-- The target periods whose end dates are not present. -/
def missingPeriods (present : List Int) : List String → Except StoreError (List String)
  | [] => .ok []
  | period :: periods => do
    let periodEnd ← reportPeriodEndDate p cfg period
    let missing ← missingPeriods present periods
    .ok (if periodEnd ∈ present then missing else period :: missing)

/-- `_write_task_data`: an empty response is stored only where there is no file. -/
def writeTaskData (env : WriteEnv) (task : FinancialReportTask) (response : Frame) (st : Store) :
    Except StoreError WrittenTask × Store :=
  let present := presentPeriodEndDates p response
  match missingPeriods p cfg present task.targetPeriods with
  | .error e => (.error e, st)
  | .ok missing =>
    if (response.rows = [] ∨ response.columns = []) ∧
        (st.files task.dataset task.outputPath).isSome then
      (.ok ⟨task.outputPath, response.rows.length, present.max?, missing⟩, st)
    else
      let written := writeDataset p h env task.dataset response (some [("code", .text task.code)])
        none false st
      (written.1.map fun _ => ⟨task.outputPath, response.rows.length, present.max?, missing⟩,
        written.2)

/-- `_update_pending_after_success`. -/
def updatePendingAfterSuccess (pending : MetadataFile (List CandidateRow))
    (task : FinancialReportTask) (missing : List String) :
    Except StoreError (MetadataFile (List CandidateRow)) := do
  let existing ← readFinancialReportPending pending
  let remaining := existing.filter fun row =>
    ¬(row.code = task.code ∧ row.reportPeriod ∈ task.targetPeriods) ∨ row.reportPeriod ∈ missing
  let added := task.triggerRows.filter fun row => row.reportPeriod ∈ missing
  .ok (writeFinancialReportPending (mergeCandidateRows (remaining ++ added)))

/-- `record_result`: whether the task counts as a success, and what is on disk then. -/
def recordReport (task : FinancialReportTask) (fetched : ReportFetch) (disk : ReportDisk) :
    Bool × ReportDisk :=
  match fetched with
  | .failed _ => (false, disk)
  | .response data env write lifecycle =>
    match writeTaskData p cfg h env task data disk.store with
    | (.error _, st) => (false, { disk with store := st })
    | (.ok written, st) =>
      match updatePendingAfterSuccess disk.pending task written.missing with
      | .error _ => (false, { disk with store := st })
      | .ok next =>
        let rewritten := disk.pending.rewrite next write
        (!raised rewritten.1 && lifecycle, { disk with store := st, pending := rewritten.2 })

end Record

/-- `after_completed`; the clock is read again. -/
def afterCompleted (cfg : FinancialReportConfig) (now : LocalTime) (write : MetadataWrite)
    (failed : ℕ) (disk : ReportDisk) : ReportDisk :=
  if failed = 0 then
    { disk with state := (disk.state.rewrite (.holds (effectiveDisclosureDate cfg now)) write).2 }
  else disk

/-! Runs. The results of the fetches come in any order, and one run is active at a time. -/

/-- A run between its plan and its end. -/
structure ActiveReportRun where
  request : ReportRequest
  effectiveDate : Int
  planned : List FinancialReportTask
  outstanding : List FinancialReportTask
  failed : ℕ
  circuitOpen : Bool
  deriving DecidableEq

structure ReportWorld where
  disk : ReportDisk
  run : Option ActiveReportRun

def ReportFetch.opensCircuit : ReportFetch → Bool
  | .failed circuitOpen => circuitOpen
  | .response .. => false

inductive ReportEvent where
  | plan (request : ReportRequest) (now : LocalTime) (io : String → String → PartitionIo)
      (write : MetadataWrite)
  | record (task : FinancialReportTask) (fetched : ReportFetch)
  /-- a task that is not fetched, or whose error is not counted, once the circuit is open -/
  | skip (task : FinancialReportTask)
  | complete (now : LocalTime) (write : MetadataWrite)
  | crash

section Step

variable (p : Pandas) (cfg : FinancialReportConfig) (h : Hashing) (partitions : String → List String)

def startRun (request : ReportRequest) (now : LocalTime) (io : String → String → PartitionIo)
    (write : MetadataWrite) (disk : ReportDisk) : ReportWorld :=
  let planned := planReports p cfg ⟨partitions, io⟩ request now write disk
  match planned.1 with
  | .error _ => ⟨planned.2, none⟩
  | .ok tasks =>
    ⟨planned.2, some ⟨request, effectiveDisclosureDate cfg now, tasks, tasks, 0, false⟩⟩

def recordTask (task : FinancialReportTask) (fetched : ReportFetch) (disk : ReportDisk)
    (run : ActiveReportRun) : ReportWorld :=
  let recorded := recordReport p cfg h task fetched disk
  ⟨recorded.2, some { run with
    outstanding := run.outstanding.erase task
    failed := if recorded.1 then run.failed else run.failed + 1
    circuitOpen := run.circuitOpen || fetched.opensCircuit }⟩

def reportStep (w : ReportWorld) (event : ReportEvent) : Option ReportWorld :=
  match w.run, event with
  | none, .plan request now io write =>
    some (startRun p cfg partitions request now io write w.disk)
  | some run, .record task fetched =>
    if task ∈ run.outstanding then some (recordTask p cfg h task fetched w.disk run) else none
  | some run, .skip task =>
    if run.circuitOpen = true ∧ task ∈ run.outstanding then
      some ⟨w.disk, some { run with outstanding := run.outstanding.erase task }⟩
    else none
  | some run, .complete now write =>
    if run.outstanding = [] then some ⟨afterCompleted cfg now write run.failed w.disk, none⟩
    else none
  | some _, .crash => some ⟨w.disk, none⟩
  | _, _ => none

end Step

/-! Coverage -/

section Coverage

variable {p : Pandas} {reads : Derived.Reads} {st : Store} {code : String}

private theorem report_mem : financialReportDataset ∈ datasetCatalog := by
  simp [financialReportDataset, datasetCatalog]

theorem reportPath_of_normalized {c : Cell} (hcode : normalizeAkshareCode p c = .ok code) :
    reportPath p code = .ok code := by
  have hdigits : code = strip (p.str c) ∧ p.sixDigits (strip (p.str c)).toList = true := by
    unfold normalizeAkshareCode at hcode
    split at hcode
    · cases hcode
    · split at hcode
      case isTrue hdigits => exact ⟨(Except.ok.inj hcode).symm, hdigits⟩
      case isFalse => cases hcode
  obtain ⟨rfl, hdigits⟩ := hdigits
  have hcolumn : financialReportDataset.partitionColumn = some "code" := rfl
  have hformat : financialReportDataset.codeFormat = .sixDigit := rfl
  have htext : p.str (.text (strip (p.str c))) = strip (p.str c) := rfl
  simp only [reportPath, partitionValue, hcolumn, normalizePartitionValue, hformat, and_self,
    if_true, aksharePartitionCode, htext, strip_strip]
  exact if_pos hdigits

/-- The stored report of the code has the period. -/
def StoredPeriod (p : Pandas) (st : Store) (code : String) (periodEnd : Int) : Prop :=
  ∃ r ∈ content st financialReportDataset code,
    Derived.toDate p (r "period_end_date") = some periodEnd

private theorem mem_presentPeriodEndDates {df : Frame} {day : Int} :
    day ∈ presentPeriodEndDates p df ↔ "period_end_date" ∈ df.columns ∧
      ∃ r ∈ df.rows, Derived.toDate p (r "period_end_date") = some day := by
  unfold presentPeriodEndDates
  split
  case isTrue hnone =>
    rcases hnone with hrows | hcolumn
    · simp [hrows]
    · simp [hcolumn]
  case isFalse hsome =>
    rw [List.mem_filterMap, and_iff_right (not_not.mp (not_or.mp hsome).2)]

private theorem readReport_cases (hst : WellStored p st) (hpath : reportPath p code = .ok code) :
    (∃ df, Derived.readPartition p reads st financialReportDataset code = .ok df ∧
      df.rows = content st financialReportDataset code ∧
      df.columns = fieldNames financialReportDataset.schema) ∨
    (Derived.readPartition p reads st financialReportDataset code = .error .permissionError ∧
      (reads.io financialReportDataset.id code).readable = false) := by
  have hread : Derived.readPartition p reads st financialReportDataset code =
      readDataset p (reads.io financialReportDataset.id code) st financialReportDataset code := by
    unfold Derived.readPartition
    rw [show partitionValue p financialReportDataset (partitionOf financialReportDataset code) =
      .ok code from hpath]
    rfl
  have hstored := hst _ report_mem code
  rw [hread]
  cases hreadable : (reads.io financialReportDataset.id code).readable with
  | true =>
    obtain ⟨df, hdf, -⟩ := readDataset_succeeds (wellFormed_of_mem report_mem) hreadable hstored
    exact Or.inl ⟨df, hdf, readDataset_rows (wellFormed_of_mem report_mem) hstored hdf⟩
  | false =>
    cases hfile : st.files financialReportDataset.id code with
    | none =>
      refine Or.inl ⟨emptyDatasetFrame financialReportDataset, ?_, ?_, rfl⟩
      · simp only [readDataset, hfile]
      · simp only [content, hfile, Option.getD_none]
        rfl
    | some rows =>
      refine Or.inr ⟨?_, rfl⟩
      simp only [readDataset, hfile, hreadable]
      rfl

private theorem mem_coveredFinancialReportPeriods (hst : WellStored p st)
    (hpath : reportPath p code = .ok code) {covered : List Int}
    (hcovered : coveredFinancialReportPeriods p reads st code = .ok covered) {day : Int} :
    day ∈ covered ↔ StoredPeriod p st code day := by
  obtain ⟨path, hpath', hcovered⟩ := bind_eq_ok.mp hcovered
  obtain rfl : code = path := Except.ok.inj (hpath.symm.trans hpath')
  split at hcovered
  case isTrue hnone =>
    obtain rfl := Except.ok.inj hcovered
    have hempty : content st financialReportDataset code = [] := by
      unfold content
      rw [Option.isNone_iff_eq_none.mp hnone, Option.getD_none]
    unfold StoredPeriod
    rw [hempty]
    simp
  case isFalse =>
    rcases @readReport_cases p reads st code hst hpath with ⟨df, hread, hrows, hcolumns⟩ | ⟨hread, -⟩
    · simp only [hread] at hcovered
      obtain rfl := Except.ok.inj hcovered
      have hcolumn : "period_end_date" ∈ df.columns := by
        rw [hcolumns]
        decide
      rw [mem_presentPeriodEndDates, and_iff_right hcolumn, hrows]
      rfl
    · simp only [hread] at hcovered
      cases hcovered

private theorem coveredFinancialReportPeriods_succeeds (hst : WellStored p st)
    (hpath : reportPath p code = .ok code)
    (hreadable : ∀ value, (reads.io financialReportDataset.id value).readable = true) :
    ∃ covered, coveredFinancialReportPeriods p reads st code = .ok covered := by
  unfold coveredFinancialReportPeriods
  rw [hpath]
  simp only [Bind.bind, Except.bind]
  split
  · exact ⟨_, rfl⟩
  · rcases @readReport_cases p reads st code hst hpath with ⟨df, hread, -⟩ | ⟨-, hunreadable⟩
    · simp only [hread]
      exact ⟨_, rfl⟩
    · rw [hreadable] at hunreadable
      cases hunreadable

end Coverage

/-! Tasks -/

section Tasks

variable {p : Pandas} {reads : Derived.Reads} {st : Store} {request : ReportRequest}
  {candidates : List CandidateRow} {row : CandidateRow}

private theorem mem_filterUncoveredCandidates {filtered : List CandidateRow}
    (hfiltered : filterUncoveredCandidates p reads st candidates = .ok filtered) :
    row ∈ filtered ↔ row ∈ candidates ∧ ∃ covered,
      coveredFinancialReportPeriods p reads st row.code = .ok covered ∧
        row.periodEndDate ∉ covered := by
  induction candidates generalizing filtered with
  | nil =>
    obtain rfl := Except.ok.inj hfiltered
    simp
  | cons first rest ih =>
    obtain ⟨covered, hcovered, hfiltered⟩ := bind_eq_ok.mp hfiltered
    obtain ⟨filteredRest, hrest, hfiltered⟩ := bind_eq_ok.mp hfiltered
    obtain rfl := Except.ok.inj hfiltered
    have hfirst : (∃ c, coveredFinancialReportPeriods p reads st first.code = .ok c ∧
        first.periodEndDate ∉ c) ↔ first.periodEndDate ∉ covered := by
      rw [hcovered]
      simp
    by_cases hin : first.periodEndDate ∈ covered
    · rw [if_pos hin, ih hrest, List.mem_cons]
      constructor
      · exact fun hrow => ⟨Or.inr hrow.1, hrow.2⟩
      · rintro ⟨rfl | hrow, hnot⟩
        · exact absurd hin (hfirst.mp hnot)
        · exact ⟨hrow, hnot⟩
    · rw [if_neg hin, List.mem_cons, ih hrest, List.mem_cons]
      constructor
      · rintro (rfl | hrow)
        · exact ⟨Or.inl rfl, hfirst.mpr hin⟩
        · exact ⟨Or.inr hrow.1, hrow.2⟩
      · rintro ⟨rfl | hrow, hnot⟩
        · exact Or.inl rfl
        · exact Or.inr ⟨hrow, hnot⟩

private theorem covered_of_filtered {filtered : List CandidateRow}
    (hfiltered : filterUncoveredCandidates p reads st candidates = .ok filtered)
    (hrow : row ∈ candidates) :
    ∃ covered, coveredFinancialReportPeriods p reads st row.code = .ok covered := by
  induction candidates generalizing filtered with
  | nil => cases hrow
  | cons first rest ih =>
    obtain ⟨covered, hcovered, hfiltered⟩ := bind_eq_ok.mp hfiltered
    obtain ⟨filteredRest, hrest, -⟩ := bind_eq_ok.mp hfiltered
    rcases List.mem_cons.mp hrow with rfl | hrow
    · exact ⟨covered, hcovered⟩
    · exact ih hrest hrow

private theorem filterUncoveredCandidates_succeeds
    (hcovered : ∀ row ∈ candidates, ∃ covered,
      coveredFinancialReportPeriods p reads st row.code = .ok covered) :
    ∃ filtered, filterUncoveredCandidates p reads st candidates = .ok filtered := by
  induction candidates with
  | nil => exact ⟨[], rfl⟩
  | cons first rest ih =>
    obtain ⟨covered, hfirst⟩ := hcovered first List.mem_cons_self
    obtain ⟨filtered, hrest⟩ := ih fun row hrow => hcovered row (List.mem_cons_of_mem _ hrow)
    exact ⟨_, bind_eq_ok.mpr ⟨covered, hfirst, bind_eq_ok.mpr ⟨filtered, hrest, rfl⟩⟩⟩

def Requests (p : Pandas) (request : ReportRequest) (code : String) : Prop :=
  request.code = [] ∨ ∃ item ∈ request.code, normalizeAkshareCode p (.text item) = .ok code

private theorem mem_requestedCandidates {requested : List CandidateRow}
    (hrequested : requestedCandidates p request candidates = .ok requested) :
    row ∈ requested ↔ row ∈ candidates ∧ Requests p request row.code := by
  unfold requestedCandidates at hrequested
  unfold Requests
  split at hrequested
  case isTrue hall =>
    obtain rfl := Except.ok.inj hrequested
    simp [hall]
  case isFalse hsome =>
    obtain ⟨codes, hcodes, hrequested⟩ := bind_eq_ok.mp hrequested
    obtain rfl := Except.ok.inj hrequested
    simp only [List.mem_filter, decide_eq_true_eq, hsome, false_or]
    refine and_congr_right fun _ => ⟨fun hcode => ?_, ?_⟩
    · exact mem_of_mem_mapM_eq_ok hcodes hcode
    · rintro ⟨item, hitem, hnormal⟩
      obtain ⟨code, hcode, hnormal'⟩ := mem_of_mapM_eq_ok hcodes hitem
      rw [Except.ok.inj (hnormal.symm.trans hnormal')]
      exact hcode

structure TaskOf (p : Pandas) (candidates : List CandidateRow) (task : FinancialReportTask) :
    Prop where
  dataset : task.dataset = financialReportDataset.id
  path : reportPath p task.code = .ok task.outputPath
  rows : ∀ row ∈ task.triggerRows, row ∈ candidates ∧ row.code = task.code
  nonempty : task.triggerRows ≠ []

theorem taskOf_of_mem {tasks : List FinancialReportTask}
    (htasks : candidateTasks p reads st request candidates = .ok tasks) {task : FinancialReportTask}
    (htask : task ∈ tasks) : TaskOf p candidates task := by
  obtain ⟨requested, hrequested, htasks⟩ := bind_eq_ok.mp htasks
  obtain ⟨uncovered, huncovered, htasks⟩ := bind_eq_ok.mp htasks
  obtain ⟨⟨code, rows⟩, hgroup, hmade⟩ := mem_of_mem_mapM_eq_ok htasks htask
  obtain ⟨path, hpath, hmade⟩ := bind_eq_ok.mp hmade
  obtain rfl := Except.ok.inj hmade
  have hgroup' := (stableSort_perm _ _).mem_iff.mp hgroup
  obtain ⟨-, hrows⟩ := mem_groups.mp hgroup'
  refine ⟨rfl, hpath, fun row hrow => ?_, group_ne_nil hgroup'⟩
  rw [hrows, List.mem_filter, decide_eq_true_eq] at hrow
  have hin := (mem_filterUncoveredCandidates huncovered).mp hrow.1
  exact ⟨((mem_requestedCandidates hrequested).mp hin.1).1, hrow.2⟩

theorem candidate_in_tasks (hst : WellStored p st) (hpath : reportPath p row.code = .ok row.code)
    {tasks : List FinancialReportTask}
    (htasks : candidateTasks p reads st request candidates = .ok tasks) (hrow : row ∈ candidates)
    (hrequests : Requests p request row.code)
    (huncovered : ¬StoredPeriod p st row.code row.periodEndDate) :
    (∃ task ∈ tasks, task.code = row.code) ∧ ∀ task ∈ tasks, task.code = row.code →
      row.reportPeriod ∈ task.targetPeriods ∧ row ∈ task.triggerRows := by
  obtain ⟨requested, hrequested, htasks⟩ := bind_eq_ok.mp htasks
  obtain ⟨uncovered, hfiltered, htasks⟩ := bind_eq_ok.mp htasks
  have hin : row ∈ requested := (mem_requestedCandidates hrequested).mpr ⟨hrow, hrequests⟩
  have hkept : row ∈ uncovered := by
    obtain ⟨covered, hcovered⟩ := covered_of_filtered hfiltered hin
    refine (mem_filterUncoveredCandidates hfiltered).mpr ⟨hin, covered, hcovered, fun hday => ?_⟩
    exact huncovered ((mem_coveredFinancialReportPeriods hst hpath hcovered).mp hday)
  have hmember : row ∈ uncovered.filter fun a => a.code = row.code := by
    rw [List.mem_filter, decide_eq_true_eq]
    exact ⟨hkept, rfl⟩
  constructor
  · have hgroup : (row.code, uncovered.filter fun a => a.code = row.code) ∈
        stableSort Prod.fst (groups CandidateRow.code uncovered) :=
      (stableSort_perm _ _).mem_iff.mpr (mem_groups.mpr ⟨List.mem_map_of_mem hkept, rfl⟩)
    obtain ⟨task, htask, hmade⟩ := mem_of_mapM_eq_ok htasks hgroup
    obtain ⟨path, -, hmade⟩ := bind_eq_ok.mp hmade
    rw [← Except.ok.inj hmade] at htask
    exact ⟨_, htask, rfl⟩
  · intro task htask hcode
    obtain ⟨⟨code, rows⟩, hgroup, hmade⟩ := mem_of_mem_mapM_eq_ok htasks htask
    obtain ⟨path, -, hmade⟩ := bind_eq_ok.mp hmade
    obtain rfl := Except.ok.inj hmade
    obtain ⟨-, rfl⟩ := mem_groups.mp ((stableSort_perm _ _).mem_iff.mp hgroup)
    obtain rfl : code = row.code := hcode
    exact ⟨Derived.mem_sortedSet.mpr (List.mem_map_of_mem hmember), hmember⟩

theorem candidateTasks_succeeds (hst : WellStored p st)
    (hpaths : ∀ row ∈ candidates, reportPath p row.code = .ok row.code)
    (hreadable : ∀ value, (reads.io financialReportDataset.id value).readable = true) :
    ∃ tasks, candidateTasks p reads st {} candidates = .ok tasks := by
  obtain ⟨uncovered, huncovered⟩ := filterUncoveredCandidates_succeeds fun row hrow =>
    @coveredFinancialReportPeriods_succeeds p reads st row.code hst (hpaths row hrow) hreadable
  have hgroups : ∀ group ∈ stableSort Prod.fst (groups CandidateRow.code uncovered),
      ∃ task, financialReportTask p group = .ok task := by
    rintro ⟨code, rows⟩ hgroup
    obtain ⟨hcode, -⟩ := mem_groups.mp ((stableSort_perm _ _).mem_iff.mp hgroup)
    obtain ⟨row, hrow, rfl⟩ := List.mem_map.mp hcode
    have hcandidate := ((mem_filterUncoveredCandidates huncovered).mp hrow).1
    exact ⟨_, bind_eq_ok.mpr ⟨row.code, hpaths row hcandidate, rfl⟩⟩
  obtain ⟨tasks, htasks⟩ := exists_mapM_eq_ok hgroups
  exact ⟨tasks, bind_eq_ok.mpr ⟨candidates, rfl, bind_eq_ok.mpr ⟨uncovered, huncovered, htasks⟩⟩⟩

end Tasks

/-! Plans -/

section Plans

variable {p : Pandas} {cfg : FinancialReportConfig} {reads : Derived.Reads}
  {request : ReportRequest} {now : LocalTime} {write : MetadataWrite} {disk disk' : ReportDisk}

/-- The tasks of a plan up to its limit. -/
def cutTasks (request : ReportRequest) (tasks : List FinancialReportTask) :
    List FinancialReportTask :=
  match request.maxTasks with
  | none => tasks
  | some limit => tasks.take (max limit 0).toNat

/-- The candidates of a plan: those of the window, and the pending rows that are still active. -/
def plannedCandidates (cfg : FinancialReportConfig) (now : LocalTime)
    (candidates pending : List CandidateRow) : List CandidateRow :=
  if pending = [] then candidates
  else mergeCandidateRows
    (candidates ++ activePendingRows cfg pending (effectiveDisclosureDate cfg now))

/-- What a plan does to the disk: nothing, or the pending file is rewritten. -/
theorem planReports_disk {result : Except StoreError (List FinancialReportTask)}
    (hplan : planReports p cfg reads request now write disk = (result, disk')) :
    disk' = disk ∨ ∃ pending, disk.pending = .holds pending ∧ pending ≠ [] ∧
      disk' = { disk with pending := (disk.pending.rewrite (writeFinancialReportPending
        (activePendingRows cfg pending (effectiveDisclosureDate cfg now))) write).2 } := by
  obtain ⟨-, rfl⟩ := Prod.mk.inj hplan
  unfold planIncrementalTasks
  cases hinputs : planInputs p cfg reads now disk with
  | error e => exact Or.inl rfl
  | ok inputs =>
    obtain ⟨candidates, pending⟩ := inputs
    simp only
    split
    case isTrue => exact Or.inl rfl
    case isFalse hne =>
      obtain ⟨start, -, hinputs⟩ := bind_eq_ok.mp hinputs
      obtain ⟨window, -, hinputs⟩ := bind_eq_ok.mp hinputs
      obtain ⟨read, hread, hinputs⟩ := bind_eq_ok.mp hinputs
      obtain ⟨-, rfl⟩ := Prod.mk.inj (Except.ok.inj hinputs)
      refine Or.inr ⟨read, ?_, hne, rfl⟩
      cases hpending : disk.pending with
      | absent =>
        rw [hpending] at hread
        exact absurd (Except.ok.inj hread).symm hne
      | holds rows =>
        rw [hpending] at hread
        rw [Except.ok.inj hread]
      | torn =>
        rw [hpending] at hread
        cases hread

theorem planInputs_eq_ok {candidates pending : List CandidateRow} :
    planInputs p cfg reads now disk = .ok (candidates, pending) ↔
      ∃ start, incrementalTriggerStartDate cfg disk.state (effectiveDisclosureDate cfg now) = .ok start ∧
        localDisclosureCandidates p cfg reads disk.store (effectiveDisclosureDate cfg now)
          (some start) = .ok candidates ∧
        readFinancialReportPending disk.pending = .ok pending := by
  unfold planInputs
  simp only [bind_eq_ok, Except.ok.injEq, Prod.mk.injEq]
  constructor
  · rintro ⟨start, hstart, _, hcandidates, _, hpending, rfl, rfl⟩
    exact ⟨start, hstart, hcandidates, hpending⟩
  · rintro ⟨start, hstart, hcandidates, hpending⟩
    exact ⟨start, hstart, _, hcandidates, _, hpending, rfl, rfl⟩

theorem planReports_ok {tasks : List FinancialReportTask}
    (hplan : planReports p cfg reads request now write disk = (.ok tasks, disk')) :
    ∃ candidates pending uncut, planInputs p cfg reads now disk = .ok (candidates, pending) ∧
      candidateTasks p reads disk.store request (plannedCandidates cfg now candidates pending) =
        .ok uncut ∧ tasks = cutTasks request uncut := by
  obtain ⟨htasks, -⟩ := Prod.mk.inj hplan
  obtain ⟨uncut, huncut, htasks⟩ := map_eq_ok.mp htasks
  unfold planIncrementalTasks at huncut
  cases hinputs : planInputs p cfg reads now disk with
  | error e =>
    rw [hinputs] at huncut
    cases huncut
  | ok inputs =>
    obtain ⟨candidates, pending⟩ := inputs
    rw [hinputs] at huncut
    refine ⟨candidates, pending, uncut, rfl, ?_, htasks.symm⟩
    unfold plannedCandidates
    simp only at huncut
    split at huncut
    case isTrue hnil =>
      rw [if_pos hnil]
      exact huncut
    case isFalse hne =>
      obtain ⟨-, -, huncut⟩ := bind_eq_ok.mp huncut
      rw [if_neg hne]
      exact huncut

theorem planReports_returns {candidates pending : List CandidateRow}
    {tasks : List FinancialReportTask}
    (hinputs : planInputs p cfg reads now disk = .ok (candidates, pending))
    (htasks : candidateTasks p reads disk.store {} (plannedCandidates cfg now candidates pending) =
      .ok tasks) : (planReports p cfg reads {} now .written disk).1 = .ok tasks := by
  unfold planReports planIncrementalTasks
  unfold plannedCandidates at htasks
  rw [hinputs]
  by_cases hnil : pending = []
  · rw [if_pos hnil] at htasks
    simp only [if_pos hnil, htasks]
    rfl
  · rw [if_neg hnil] at htasks
    simp only [if_neg hnil, MetadataFile.rewrite, htasks]
    rfl

end Plans

/-! Results -/

section Results

variable {p : Pandas} {cfg : FinancialReportConfig} {h : Hashing} {env : WriteEnv}
  {task : FinancialReportTask} {data : Frame} {st : Store} {code : String} {periodEnd : Int}

private theorem coerceCell_date (hnull : ∀ s ∈ nullLikeValues, p.toDatetime (.text s) = none)
    {c : Cell}
    {ns : Int} (hparsed : parsedDate p c = some ns) {dtype : Dtype} :
    coerceCell p dtype .date32 c = .ok (.date (ns / nsPerDay)) := by
  have hkept : replaceNullLike dtype c = c := by
    cases c with
    | text s =>
      have hs : s ∉ nullLikeValues := by
        intro hs
        cases (hnull s hs).symm.trans hparsed
      cases dtype <;> simp [replaceNullLike, hs]
    | _ => cases dtype <;> rfl
  cases c with
  | null => cases hparsed
  | _ =>
    simp only [parsedDate] at hparsed
    simp only [coerceCell, hkept, hparsed]

private theorem storedPeriod_of_coerced
    (hnull : ∀ s ∈ nullLikeValues, p.toDatetime (.text s) = none)
    {coerced : Frame} (hcoerced : coercedFrame p financialReportDataset data = .ok coerced)
    (hfile : st.files financialReportDataset.id code =
      some (sortValues env financialReportDataset.sortColumns coerced.rows))
    (hpresent : periodEnd ∈ presentPeriodEndDates p data) : StoredPeriod p st code periodEnd := by
  obtain ⟨hcolumn, r, hr, hday⟩ := mem_presentPeriodEndDates.mp hpresent
  have hfield : (⟨"period_end_date", .date32⟩ : Field) ∈ financialReportDataset.schema := by decide
  obtain ⟨ns, hns, hdays⟩ := Option.map_eq_some_iff.mp hday
  have hdate : coercedRow p financialReportDataset data r "period_end_date" = .date periodEnd := by
    rw [@coercedRow_cell p _ (wellFormed_of_mem report_mem) data _ hfield (by decide) hcolumn r,
      coerceCell_date hnull hns, hdays]
    rfl
  refine ⟨coercedRow p financialReportDataset data r, ?_, ?_⟩
  · unfold content
    rw [hfile, Option.getD_some, (sortValues_perm _ _ _).mem_iff, coercedFrame_rows hcoerced]
    exact List.mem_map_of_mem hr
  · rw [hdate]
    have hback : periodEnd * nsPerDay / nsPerDay = periodEnd := Int.mul_ediv_cancel periodEnd (by decide)
    simp only [Derived.toDate, parsedDate, p.toDatetime_date, Option.map_some, hback]

private theorem writeTaskData_store (hdataset : task.dataset = financialReportDataset.id) :
    (writeTaskData p cfg h env task data st).2 = st ∨
      (writeTaskData p cfg h env task data st).2 = (writeDataset p h env financialReportDataset.id
        data (some [("code", .text task.code)]) none false st).2 := by
  unfold writeTaskData
  simp only
  split
  · exact Or.inl rfl
  · split
    · exact Or.inl rfl
    · refine Or.inr ?_
      simp only [hdataset]

theorem wellStored_writeTaskData (hdataset : task.dataset = financialReportDataset.id)
    (hst : WellStored p st) : WellStored p (writeTaskData p cfg h env task data st).2 := by
  rcases @writeTaskData_store p cfg h env task data st hdataset with heq | heq
  · rw [heq]
    exact hst
  · rw [heq]
    rcases hout : writeDataset p h env financialReportDataset.id data
      (some [("code", .text task.code)]) none false st with ⟨result, st'⟩
    exact wellStored_of_write hst hout

theorem writeTaskData_files (hdataset : task.dataset = financialReportDataset.id)
    (hpath : reportPath p task.code = .ok task.outputPath) {dataset value : String}
    (hother : dataset = financialReportDataset.id → value ≠ task.outputPath) :
    (writeTaskData p cfg h env task data st).2.files dataset value = st.files dataset value := by
  rcases @writeTaskData_store p cfg h env task data st hdataset with heq | heq
  · rw [heq]
  · rw [heq]
    by_cases hid : dataset = financialReportDataset.id
    · rw [hid]
      rcases @writeDataset_replace_file p h financialReportDataset data
        (some [("code", .text task.code)]) st env report_mem rfl rfl value with hsame | ⟨hvalue, -⟩
      · exact hsame
      · exact absurd (Except.ok.inj (hvalue.symm.trans hpath)) (hother hid)
    · exact writeDataset_files_of_ne hid value

/-- A period stays stored unless a response with rows has taken it back. -/
theorem storedPeriod_writeTaskData (hnull : ∀ s ∈ nullLikeValues, p.toDatetime (.text s) = none)
    (hdataset : task.dataset = financialReportDataset.id)
    (hpath : reportPath p task.code = .ok task.outputPath)
    (hkeeps : code = task.outputPath →
      (data.rows = [] ∨ data.columns = []) ∨ periodEnd ∈ presentPeriodEndDates p data)
    (hstored : StoredPeriod p st code periodEnd) :
    StoredPeriod p (writeTaskData p cfg h env task data st).2 code periodEnd := by
  have hsame : (writeTaskData p cfg h env task data st).2.files financialReportDataset.id code =
      st.files financialReportDataset.id code →
      StoredPeriod p (writeTaskData p cfg h env task data st).2 code periodEnd := by
    intro hfiles
    unfold StoredPeriod content at hstored ⊢
    rw [hfiles]
    exact hstored
  by_cases hcode : code = task.outputPath
  · rcases hkeeps hcode with hempty | hpresent
    · -- the file exists, since it has a row, and an empty response leaves it
      apply hsame
      have hfile : (st.files task.dataset task.outputPath).isSome = true := by
        obtain ⟨r, hr, -⟩ := hstored
        unfold content at hr
        rw [hdataset, ← hcode]
        cases hfile : st.files financialReportDataset.id code with
        | none =>
          rw [hfile] at hr
          cases hr
        | some rows => rfl
      unfold writeTaskData
      simp only
      split
      · rfl
      · rw [if_pos ⟨hempty, hfile⟩]
    · rcases @writeTaskData_store p cfg h env task data st hdataset with heq | heq
      · exact hsame (by rw [heq])
      · rcases @writeDataset_replace_file p h financialReportDataset data
          (some [("code", .text task.code)]) st env report_mem rfl rfl code with
          hfile | ⟨-, coerced, hcoerced, hfile⟩
        · rw [← heq] at hfile
          exact hsame hfile
        · rw [heq]
          exact storedPeriod_of_coerced hnull hcoerced hfile hpresent
  · exact hsame (writeTaskData_files hdataset hpath fun _ => hcode)

private theorem mem_missingPeriods {present : List Int} {periods missing : List String}
    (hmissing : missingPeriods p cfg present periods = .ok missing) {period : String} :
    period ∈ missing ↔ period ∈ periods ∧ ∃ day, reportPeriodEndDate p cfg period = .ok day ∧
      day ∉ present := by
  induction periods generalizing missing with
  | nil =>
    obtain rfl := Except.ok.inj hmissing
    simp
  | cons first rest ih =>
    obtain ⟨day, hday, hmissing⟩ := bind_eq_ok.mp hmissing
    obtain ⟨missingRest, hrest, hmissing⟩ := bind_eq_ok.mp hmissing
    obtain rfl := Except.ok.inj hmissing
    have hfirst : (∃ d, reportPeriodEndDate p cfg first = .ok d ∧ d ∉ present) ↔ day ∉ present := by
      rw [hday]
      simp
    by_cases hin : day ∈ present
    · rw [if_pos hin, ih hrest, List.mem_cons]
      constructor
      · exact fun hperiod => ⟨Or.inr hperiod.1, hperiod.2⟩
      · rintro ⟨rfl | hperiod, hnot⟩
        · exact absurd hin (hfirst.mp hnot)
        · exact ⟨hperiod, hnot⟩
    · rw [if_neg hin, List.mem_cons, ih hrest, List.mem_cons]
      constructor
      · rintro (rfl | hperiod)
        · exact ⟨Or.inl rfl, hfirst.mpr hin⟩
        · exact ⟨Or.inr hperiod.1, hperiod.2⟩
      · rintro ⟨rfl | hperiod, hnot⟩
        · exact Or.inl rfl
        · exact Or.inr ⟨hperiod, hnot⟩

theorem writeTaskData_ok (hnull : ∀ s ∈ nullLikeValues, p.toDatetime (.text s) = none)
    (hdataset : task.dataset = financialReportDataset.id)
    (hpath : reportPath p task.code = .ok task.outputPath) {written : WrittenTask} {st' : Store}
    (hwritten : writeTaskData p cfg h env task data st = (.ok written, st')) {period : String}
    (htarget : period ∈ task.targetPeriods)
    (hperiod : reportPeriodEndDate p cfg period = .ok periodEnd) :
    StoredPeriod p st' task.outputPath periodEnd ∨ period ∈ written.missing := by
  unfold writeTaskData at hwritten
  simp only at hwritten
  split at hwritten
  case h_1 => cases hwritten
  case h_2 missing hmissing =>
    by_cases hpresent : periodEnd ∈ presentPeriodEndDates p data
    · split at hwritten
      case isTrue hempty =>
        obtain ⟨hcolumn, r, hr, -⟩ := mem_presentPeriodEndDates.mp hpresent
        rcases hempty.1 with hrows | hcolumns
        · rw [hrows] at hr
          cases hr
        · rw [hcolumns] at hcolumn
          cases hcolumn
      case isFalse =>
        obtain ⟨hok, rfl⟩ := Prod.mk.inj hwritten
        obtain ⟨result, hresult, -⟩ := map_eq_ok.mp hok
        rw [hdataset] at hresult ⊢
        obtain ⟨value, coerced, hvalue, hcoerced, -, hfile, -⟩ :=
          @writeDataset_replaced p h financialReportDataset data
            (some [("code", .text task.code)]) st env report_mem rfl rfl (by rw [hresult]; rfl)
        obtain rfl : value = task.outputPath := Except.ok.inj (hvalue.symm.trans hpath)
        exact Or.inl (storedPeriod_of_coerced hnull hcoerced hfile hpresent)
    · have hin := (mem_missingPeriods hmissing).mpr ⟨htarget, periodEnd, hperiod, hpresent⟩
      split at hwritten
      case isTrue =>
        obtain ⟨hok, -⟩ := Prod.mk.inj hwritten
        rw [← Except.ok.inj hok]
        exact Or.inr hin
      case isFalse =>
        obtain ⟨hok, -⟩ := Prod.mk.inj hwritten
        obtain ⟨_, _, rfl⟩ := map_eq_ok.mp hok
        exact Or.inr hin

/-- What is on disk after a response is recorded. The pending file is as it was or cannot be read,
unless the data were written. -/
theorem recordReport_response {disk disk' : ReportDisk} {write : MetadataWrite} {lifecycle ok : Bool}
    (hrecord : recordReport p cfg h task (.response data env write lifecycle) disk = (ok, disk')) :
    disk'.store = (writeTaskData p cfg h env task data disk.store).2 ∧ disk'.state = disk.state ∧
      ((ok = false ∧ (disk'.pending = disk.pending ∨ write = .torn)) ∨
        ∃ written, (writeTaskData p cfg h env task data disk.store).1 = .ok written ∧
          updatePendingAfterSuccess disk.pending task written.missing = .ok disk'.pending) := by
  unfold recordReport at hrecord
  rcases hdata : writeTaskData p cfg h env task data disk.store with ⟨result, st⟩
  cases result with
  | error e =>
    simp only [hdata] at hrecord
    obtain ⟨rfl, rfl⟩ := Prod.mk.inj hrecord
    exact ⟨rfl, rfl, Or.inl ⟨rfl, Or.inl rfl⟩⟩
  | ok written =>
    simp only [hdata] at hrecord
    cases hnext : updatePendingAfterSuccess disk.pending task written.missing with
    | error e =>
      simp only [hnext] at hrecord
      obtain ⟨rfl, rfl⟩ := Prod.mk.inj hrecord
      exact ⟨rfl, rfl, Or.inl ⟨rfl, Or.inl rfl⟩⟩
    | ok next =>
      simp only [hnext] at hrecord
      obtain ⟨rfl, rfl⟩ := Prod.mk.inj hrecord
      refine ⟨rfl, rfl, ?_⟩
      cases write with
      | written => exact Or.inr ⟨written, rfl, hnext⟩
      | refused => exact Or.inl ⟨rfl, Or.inl rfl⟩
      | torn => exact Or.inl ⟨rfl, Or.inr rfl⟩

end Results

end QuantDataCenter.Sources
