import QuantDataCenter.Lib.Transition
import QuantDataCenter.Lib.Trace
import Mathlib.Data.List.Range
import Mathlib.Data.List.Perm.Basic
import Mathlib.Data.List.Nodup
import Mathlib.Order.MinMax

/-!
The execution kernel of the AkShare pipeline: one module's selected tasks are
fetched one after another or by a pool of threads, and every result is recorded
by the main thread. A task is known by its position among the selected ones.
-/

set_option autoImplicit false
set_option relaxedAutoImplicit false

namespace QuantDataCenter.Concurrency

open QuantDataCenter.Lib QuantDataCenter.Lib.Transition

/-! Modules -/

/-- An exception of a fetch: `AkShareCircuitOpen` or another one. -/
inductive FetchError where
  | circuitOpen
  | other
  deriving DecidableEq

structure FetchResult (Response : Type) where
  response : Option Response
  error : Option FetchError

/-- What a call of `fetch` does. -/
inductive Fetched (Response : Type) where
  | returned (result : FetchResult Response)
  | raised (error : FetchError)

def Fetched.result {Response : Type} : Fetched Response → FetchResult Response
  | .returned result => result
  | .raised error => ⟨none, some error⟩

def FetchResult.isCircuitOpen {Response : Type} (result : FetchResult Response) : Bool :=
  result.error = some .circuitOpen

/-- What the methods of a module give for the task at a position. -/
structure AkShareDatasetModule (Response Row : Type) where
  fetch : ℕ → Fetched Response
  recordResult : ℕ → FetchResult Response → List Row
  recordSkip : ℕ → List Row
  progressRow : ℕ → List Row → Row
  status : Row → Option String

/-! Progress -/

structure Progress where
  total : ℕ
  processed : ℕ
  success : ℕ
  failed : ℕ
  skipped : ℕ

def Progress.record (progress : Progress) (status : Option String) : Progress :=
  let status := status.getD "unknown"
  let progress := { progress with processed := progress.processed + 1 }
  if status = "success" then { progress with success := progress.success + 1 }
  else if status = "failed" then { progress with failed := progress.failed + 1 }
  else if status.startsWith "skipped" then { progress with skipped := progress.skipped + 1 }
  else progress

@[simp] theorem Progress.processed_record (progress : Progress) (status : Option String) :
    (progress.record status).processed = progress.processed + 1 := by
  unfold Progress.record
  dsimp only
  split_ifs <;> rfl

/-! Adaptive concurrency -/

/-- `exceedsThreshold failures window` is the comparison of floats
`failures / window > failure_rate_threshold`. -/
structure AdaptiveConcurrencyController where
  maxWorkers : ℕ
  targetWorkers : ℕ
  windowSize : ℕ
  exceedsThreshold : ℕ → ℕ → Bool
  recoverySuccesses : ℕ
  consecutiveFailureThreshold : ℕ
  recentSuccesses : List Bool
  consecutiveSuccesses : ℕ
  consecutiveFailures : ℕ
  target_pos : 1 ≤ targetWorkers
  target_le : targetWorkers ≤ maxWorkers

namespace AdaptiveConcurrencyController

def ofParameters (maxWorkers windowSize : Int) (exceedsThreshold : ℕ → ℕ → Bool)
    (recoverySuccesses consecutiveFailureThreshold : Int) : AdaptiveConcurrencyController where
  maxWorkers := (max maxWorkers 1).toNat
  targetWorkers := (max maxWorkers 1).toNat
  windowSize := (max windowSize 1).toNat
  exceedsThreshold := exceedsThreshold
  recoverySuccesses := (max recoverySuccesses 1).toNat
  consecutiveFailureThreshold := (max consecutiveFailureThreshold 1).toNat
  recentSuccesses := []
  consecutiveSuccesses := 0
  consecutiveFailures := 0
  target_pos := by omega
  target_le := le_refl _

def decrease (c : AdaptiveConcurrencyController) : AdaptiveConcurrencyController :=
  if h : 1 < c.targetWorkers then
    { c with consecutiveSuccesses := 0, targetWorkers := c.targetWorkers - 1
             target_pos := Nat.le_sub_one_of_lt h
             target_le := (Nat.sub_le _ _).trans c.target_le }
  else { c with consecutiveSuccesses := 0 }

def increase (c : AdaptiveConcurrencyController) : AdaptiveConcurrencyController :=
  if h : c.targetWorkers < c.maxWorkers then
    { c with targetWorkers := c.targetWorkers + 1
             target_pos := Nat.le_add_left _ _
             target_le := h }
  else c

/-- The deque keeps the last `window_size` outcomes. -/
def appendOutcome (c : AdaptiveConcurrencyController) (success : Bool) :
    AdaptiveConcurrencyController :=
  let recent := c.recentSuccesses ++ [success]
  { c with recentSuccesses := recent.drop (recent.length - c.windowSize) }

def countOutcome (c : AdaptiveConcurrencyController) (success : Bool) :
    AdaptiveConcurrencyController :=
  if success then
    { c with consecutiveSuccesses := c.consecutiveSuccesses + 1, consecutiveFailures := 0 }
  else
    { c with consecutiveFailures := c.consecutiveFailures + 1, consecutiveSuccesses := 0 }

def tooManyFailures (c : AdaptiveConcurrencyController) : Bool :=
  c.recentSuccesses.length = c.windowSize &&
    c.exceedsThreshold (c.recentSuccesses.count false) c.windowSize

def recordFetchResult (c : AdaptiveConcurrencyController) (success : Bool) :
    AdaptiveConcurrencyController :=
  let c := (c.appendOutcome success).countOutcome success
  if !success && c.consecutiveFailureThreshold ≤ c.consecutiveFailures then
    { c.decrease with consecutiveFailures := 0, recentSuccesses := [] }
  else if c.tooManyFailures then { c.decrease with recentSuccesses := [] }
  else if success && c.recoverySuccesses ≤ c.consecutiveSuccesses then
    { c.increase with consecutiveSuccesses := 0, recentSuccesses := [] }
  else c

@[simp] theorem maxWorkers_decrease (c : AdaptiveConcurrencyController) :
    c.decrease.maxWorkers = c.maxWorkers := by
  unfold decrease
  split_ifs <;> rfl

@[simp] theorem maxWorkers_increase (c : AdaptiveConcurrencyController) :
    c.increase.maxWorkers = c.maxWorkers := by
  unfold increase
  split_ifs <;> rfl

@[simp] theorem maxWorkers_appendOutcome (c : AdaptiveConcurrencyController) (success : Bool) :
    (c.appendOutcome success).maxWorkers = c.maxWorkers := rfl

@[simp] theorem maxWorkers_countOutcome (c : AdaptiveConcurrencyController) (success : Bool) :
    (c.countOutcome success).maxWorkers = c.maxWorkers := by
  unfold countOutcome
  split_ifs <;> rfl

@[simp] theorem maxWorkers_recordFetchResult (c : AdaptiveConcurrencyController) (success : Bool) :
    (c.recordFetchResult success).maxWorkers = c.maxWorkers := by
  unfold recordFetchResult
  dsimp only
  split_ifs <;> simp

end AdaptiveConcurrencyController

/-- The policy of a module. Its controller was made for no more than its workers. -/
structure ConcurrencyPolicy where
  workers : ℕ
  adaptiveController : Option AdaptiveConcurrencyController
  stopOnCircuitOpen : Bool
  workers_pos : 1 ≤ workers
  controller_fits : ∀ c ∈ adaptiveController, c.maxWorkers ≤ workers

/-- `_resolve_workers`. -/
def resolveWorkers (rawWorkers : Int) : ℕ := (max rawWorkers 1).toNat

namespace ConcurrencyPolicy

/-- `ConcurrencyPolicy(workers=1)`. -/
def sequential : ConcurrencyPolicy where
  workers := 1
  adaptiveController := none
  stopOnCircuitOpen := false
  workers_pos := le_refl _
  controller_fits := by simp

/-- The policy of the daily bars, the capital structure and the financial reports. -/
def stopping (rawWorkers : Int) : ConcurrencyPolicy where
  workers := resolveWorkers rawWorkers
  adaptiveController := none
  stopOnCircuitOpen := true
  workers_pos := by
    unfold resolveWorkers
    omega
  controller_fits := by simp

/-- The policy of the valuation, with the default parameters of the controller. -/
def valuation (rawWorkers : Int) (exceedsThreshold : ℕ → ℕ → Bool) : ConcurrencyPolicy :=
  if resolveWorkers rawWorkers ≤ 1 then sequential
  else
    { workers := resolveWorkers rawWorkers
      adaptiveController := some (.ofParameters (resolveWorkers rawWorkers) 20 exceedsThreshold 50 3)
      stopOnCircuitOpen := true
      workers_pos := by
        unfold resolveWorkers
        omega
      controller_fits := by
        intro c hc
        obtain rfl := Option.mem_some_iff.mp hc
        simp only [AdaptiveConcurrencyController.ofParameters, resolveWorkers]
        omega }

def targetWorkers (policy : ConcurrencyPolicy) : ℕ :=
  match policy.adaptiveController with
  | none => policy.workers
  | some c => c.targetWorkers

def recordFetchResult (policy : ConcurrencyPolicy) (success : Bool) : ConcurrencyPolicy :=
  { policy with
    adaptiveController := policy.adaptiveController.map fun c => c.recordFetchResult success
    controller_fits := by
      intro c hc
      obtain ⟨c, hmem, rfl⟩ := Option.map_eq_some_iff.mp hc
      rw [AdaptiveConcurrencyController.maxWorkers_recordFetchResult]
      exact policy.controller_fits c hmem }

@[simp] theorem workers_recordFetchResult (policy : ConcurrencyPolicy) (success : Bool) :
    (policy.recordFetchResult success).workers = policy.workers := rfl

@[simp] theorem stopOnCircuitOpen_recordFetchResult (policy : ConcurrencyPolicy) (success : Bool) :
    (policy.recordFetchResult success).stopOnCircuitOpen = policy.stopOnCircuitOpen := rfl

theorem targetWorkers_pos (policy : ConcurrencyPolicy) : 1 ≤ policy.targetWorkers := by
  unfold targetWorkers
  split
  · exact policy.workers_pos
  · rename_i c _
    exact c.target_pos

theorem targetWorkers_le (policy : ConcurrencyPolicy) : policy.targetWorkers ≤ policy.workers := by
  unfold targetWorkers
  split
  · exact le_refl _
  · rename_i c hc
    exact c.target_le.trans (policy.controller_fits c hc)

end ConcurrencyPolicy

/-! A run of a module -/

/-- The calls of the kernel into the module, with the parallelism allowed when a fetch is
submitted. -/
inductive KernelCall where
  | fetch (task targetWorkers : ℕ)
  | recordResult (task : ℕ) (circuitOpen : Bool)
  | recordSkip (task : ℕ)

/-- A pending future is known by the position of its task. -/
structure KernelRun (Row : Type) where
  calls : List KernelCall
  records : List Row
  progress : Progress
  policy : ConcurrencyPolicy
  pending : List ℕ
  taskIndex : ℕ
  stopSubmitting : Bool
  circuitOpened : Bool

namespace KernelRun

variable {Response Row : Type}

def new (policy : ConcurrencyPolicy) (total : ℕ) : KernelRun Row where
  calls := []
  records := []
  progress := ⟨total, 0, 0, 0, 0⟩
  policy := policy
  pending := []
  taskIndex := 0
  stopSubmitting := false
  circuitOpened := false

def call (run : KernelRun Row) (c : KernelCall) : KernelRun Row :=
  { run with calls := run.calls ++ [c] }

/-- `records.extend(rows)` and `_log_progress`. -/
def logRows (m : AkShareDatasetModule Response Row) (run : KernelRun Row) (task : ℕ)
    (rows : List Row) : KernelRun Row :=
  { run with
    records := run.records ++ rows
    progress := run.progress.record (m.status (m.progressRow task rows)) }

def recordSkip (m : AkShareDatasetModule Response Row) (run : KernelRun Row) (task : ℕ) :
    KernelRun Row :=
  (run.call (.recordSkip task)).logRows m task (m.recordSkip task)

/-- `record_result`, the progress and `record_fetch_result`. -/
def recordResult (m : AkShareDatasetModule Response Row) (run : KernelRun Row) (task : ℕ)
    (result : FetchResult Response) : KernelRun Row :=
  let run := (run.call (.recordResult task result.isCircuitOpen)).logRows m task
    (m.recordResult task result)
  { run with policy := run.policy.recordFetchResult result.error.isNone }

/-! One task after the other -/

def fetchTask (run : KernelRun Row) (task : ℕ) : KernelRun Row :=
  run.call (.fetch task run.policy.targetWorkers)

/-- The loop over the selected tasks; an exception of a fetch ends the run. -/
def fetchSequentially (m : AkShareDatasetModule Response Row) :
    KernelRun Row → List ℕ → Option (KernelRun Row)
  | run, [] => some run
  | run, task :: rest =>
    match m.fetch task with
    | .raised _ => none
    | .returned result =>
      let run := (run.fetchTask task).recordResult m task result
      if run.policy.stopOnCircuitOpen && result.isCircuitOpen then
        some (rest.foldl (recordSkip m) run)
      else fetchSequentially m run rest

/-! By a pool of threads -/

/-- The body of the loop of `submit_until_target`. -/
def submit (run : KernelRun Row) : KernelRun Row :=
  { run.fetchTask run.taskIndex with
    pending := run.pending ++ [run.taskIndex]
    taskIndex := run.taskIndex + 1 }

/-- The loop of `submit_until_target`; it has at most `fuel` rounds. -/
def submitLoop (total : ℕ) : ℕ → KernelRun Row → KernelRun Row
  | 0, run => run
  | fuel + 1, run =>
    if run.stopSubmitting = false ∧ run.taskIndex < total ∧
        run.pending.length < run.policy.targetWorkers then
      submitLoop total fuel run.submit
    else run

def submitUntilTarget (total : ℕ) (run : KernelRun Row) : KernelRun Row :=
  submitLoop total (total - run.taskIndex) run

/-- The tasks not submitted yet are skipped. -/
def openCircuit (m : AkShareDatasetModule Response Row) (total : ℕ) (run : KernelRun Row) :
    KernelRun Row :=
  (List.range' run.taskIndex (total - run.taskIndex)).foldl (recordSkip m)
    { run with circuitOpened := true, stopSubmitting := true, taskIndex := total }

/-- The body of the loop over the futures that are done. -/
def handleDone (m : AkShareDatasetModule Response Row) (total : ℕ) (run : KernelRun Row)
    (task : ℕ) : KernelRun Row :=
  let run := { run with pending := run.pending.erase task }
  let result := (m.fetch task).result
  if run.circuitOpened && result.isCircuitOpen then run.recordSkip m task
  else
    let run := run.recordResult m task result
    if run.policy.stopOnCircuitOpen && result.isCircuitOpen then run.openCircuit m total else run

/-- One round of `while pending`: `wait` gives some of the pending futures, in any order. -/
def waitRound (m : AkShareDatasetModule Response Row) (total : ℕ) (run : KernelRun Row)
    (done : List ℕ) : Option (KernelRun Row) :=
  if done ≠ [] ∧ done.Nodup ∧ done ⊆ run.pending then
    some ((done.foldl (handleDone m total) run).submitUntilTarget total)
  else none

/-- `_run_module` up to its first wait. -/
def start (m : AkShareDatasetModule Response Row) (policy : ConcurrencyPolicy) (total : ℕ) :
    Option (KernelRun Row) :=
  if policy.workers ≤ 1 then fetchSequentially m (new policy total) (List.range total)
  else some ((new policy total).submitUntilTarget total)

end KernelRun

end QuantDataCenter.Concurrency
