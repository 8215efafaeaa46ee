import QuantDataCenter.Lib.Dict
import QuantDataCenter.Orchestrator.Workflow

/-!
The state file of the daily workflow: step rows by state key and step id. A file
may hold anything that parses; entries that are no mappings are kept as such, and
the plain date is the older spelling of a natural-date key.
-/

set_option autoImplicit false
set_option relaxedAutoImplicit false

namespace QuantDataCenter.Orchestrator

open QuantDataCenter.Lib

inductive StateKey where
  | naturalDate (day : Int)
  | marketDate (day : Int)
  | runInstance (second : Int)
  | legacyDate (day : Int)
  | other (text : String)
  deriving DecidableEq, Repr

/-- The older spelling of a natural-date key. -/
def StateKey.legacy : StateKey → Option StateKey
  | .naturalDate day => some (.legacyDate day)
  | _ => none

/-- `str(row.get("status", "pending"))`. -/
inductive StepStatus where
  | pending
  | running
  | success
  | successDegraded
  | skipped
  | skippedCheckpoint
  | skippedTimeout
  | failed
  | failedResourceLocked
  | failedTimeoutCleanup
  | blocked
  | abandoned
  | other (text : String)
  deriving DecidableEq, Repr

/-- The `exit_code` of a row: `int` of what is neither missing nor a number raises. -/
inductive RowExitCode where
  | missing
  | unreadable
  | code (n : Int)
  deriving DecidableEq, Repr

inductive Reason where
  | excludedDailyBar (dependency : String) (status : StepStatus)
  | softDependency (dependency : String) (status : StepStatus)
  | upstreamDegraded (dependency : String)
  | cannotBuildDailyBar (dependency : String) (status : StepStatus)
  | noOrchestratorPid
  | pidNotAlive (pid : Int)
  | noStartedAt
  | exceeded
  | text (s : String)
  deriving DecidableEq, Repr

/-- A row, with the fields a later call reads: `startedAt` and `pid` are what
`_parse_timestamp` and `_int_or_none` make of them. -/
structure StepRow where
  status : StepStatus
  startedAt : Option Int := none
  pid : Option Int := none
  exitCode : RowExitCode := .missing
  blockedBy : List String := []
  reason : Option Reason := none
  deriving DecidableEq, Repr

inductive RowEntry where
  | malformed
  | empty
  | row (r : StepRow)
  deriving DecidableEq, Repr

inductive RunState where
  | malformed
  | malformedSteps
  | steps (rows : Dict String RowEntry)
  deriving DecidableEq, Repr

abbrev Runs := Dict StateKey RunState

structure State where
  version2 : Bool
  runs : Runs

/-- The file as the next call finds it. -/
inductive StateFile where
  | absent
  | corrupt
  | parsed (state : State)

def satisfiedDependencyStatuses : List StepStatus :=
  [.success, .successDegraded, .skipped, .skippedCheckpoint]

def failedDependencyStatuses : List StepStatus :=
  [.failed, .failedResourceLocked, .failedTimeoutCleanup, .blocked, .abandoned]

def stateKeyForPolicy (policy : StateKeyPolicy) (dates : DailyEffectiveDates) (runInstance : Int) :
    StateKey :=
  match policy with
  | .naturalDate => .naturalDate dates.naturalDate
  | .marketDate => .marketDate dates.marketDate
  | .runInstance => .runInstance runInstance

def RunState.rows : Option RunState → Dict String RowEntry
  | some (.steps rows) => rows
  | _ => []

/-- `_run_state_for_key(create=False)["steps"]`; a key whose value is null is missing. -/
def stepRowsForKey (runs : Runs) (key : StateKey) : Dict String RowEntry :=
  RunState.rows ((Dict.get key runs).or (key.legacy.bind fun old => Dict.get old runs))

/-- `_run_state_for_key(create=True)`: the key has a mapping of steps afterwards. -/
def createStepRows (runs : Runs) (key : StateKey) : Runs :=
  match Dict.get key runs with
  | some (.steps _) => runs
  | _ => Dict.set key (.steps []) runs

def RowEntry.row? : Option RowEntry → Option StepRow
  | some (.row r) => some r
  | _ => none

/-- `_step_row_for_policy`, for the key the policy stands for. -/
def stepRowForKey (runs : Runs) (stepId : String) (key : StateKey) : Option StepRow :=
  (RowEntry.row? (Dict.get stepId (stepRowsForKey runs key))).or
    (key.legacy.bind fun old => RowEntry.row? (Dict.get stepId (stepRowsForKey runs old)))

def rowStatus (row : Option StepRow) : StepStatus := (row.map StepRow.status).getD .pending

/-- The entry of a step under a key. -/
def entryAt (runs : Runs) (stepId : String) (key : StateKey) : Option RowEntry :=
  Dict.get stepId (RunState.rows (Dict.get key runs))

/-- The row that stands under the key itself. -/
def ownRow (runs : Runs) (stepId : String) (key : StateKey) : Option StepRow :=
  RowEntry.row? (Dict.get stepId (RunState.rows (Dict.get key runs)))

/-- `_record_step` without the fields nobody reads; `previous` of a row that is no
mapping has no `started_at` to copy. -/
def recordStep (runs : Runs) (key : StateKey) (stepId : String) (row : StepRow) : Option Runs :=
  let rows := RunState.rows (Dict.get key runs)
  let recorded (startedAt : Option Int) : Runs :=
    Dict.set key (.steps (Dict.set stepId (.row { row with startedAt := startedAt }) rows)) runs
  if row.status = .running then some (recorded row.startedAt)
  else match Dict.get stepId rows with
    | some .malformed => none
    | previous => some (recorded ((RowEntry.row? previous).bind StepRow.startedAt))

def runningAbandonedAfterSeconds : Int := 24 * 60 * 60

/-- `_running_abandoned_reason`; the owner of the lock is the process itself. -/
def runningAbandonedReason (row : StepRow) (now activePid : Int) (pidAlive : Int → Bool) :
    Option Reason :=
  match row.pid with
  | none => some .noOrchestratorPid
  | some pid =>
    if activePid = pid then none
    else if pidAlive pid = false then some (.pidNotAlive pid)
    else match row.startedAt with
      | none => some .noStartedAt
      | some startedAt => if now - startedAt ≤ runningAbandonedAfterSeconds then none else some .exceeded

def markRow (now activePid : Int) (pidAlive : Int → Bool) (row : StepRow) : StepRow :=
  if row.status = .running then
    match runningAbandonedReason row now activePid pidAlive with
    | none => row
    | some reason => { row with status := .abandoned, exitCode := .code 1, reason := some reason }
  else row

def RowEntry.mark (f : StepRow → StepRow) : RowEntry → RowEntry
  | .row r => .row (f r)
  | entry => entry

def RunState.mark (f : StepRow → StepRow) : RunState → RunState
  | .steps rows => .steps (Dict.mapValues (RowEntry.mark f) rows)
  | run => run

/-- `_mark_abandoned_running_steps_in_state`. -/
def markAbandoned (now activePid : Int) (pidAlive : Int → Bool) (runs : Runs) : Runs :=
  Dict.mapValues (RunState.mark (markRow now activePid pidAlive)) runs

def hasAbandoned (now activePid : Int) (pidAlive : Int → Bool) (runs : Runs) : Bool :=
  runs.any fun run => match run.2 with
    | .steps rows => rows.any fun entry => match entry.2 with
      | .row r => r.status == .running && (runningAbandonedReason r now activePid pidAlive).isSome
      | _ => false
    | _ => false

/-- `_read_state_for_run`. -/
def readStateForRun (file : StateFile) (resetIfCorrupt : Bool) : Option State :=
  match file with
  | .absent => some ⟨true, []⟩
  | .corrupt => if resetIfCorrupt then some ⟨true, []⟩ else none
  | .parsed state => some state

/-! Rows after an update of the state -/

section Rows

variable {runs runs' : Runs} {key key' : StateKey} {stepId stepId' : String} {row : StepRow}

theorem ownRow_of_recordStep (h : recordStep runs key stepId row = some runs') :
    ∃ recorded, ownRow runs' stepId key = some recorded ∧ recorded.status = row.status ∧
      recorded.exitCode = row.exitCode := by
  have hset : ∀ r : StepRow, ownRow (Dict.set key (.steps (Dict.set stepId (.row r)
      (RunState.rows (Dict.get key runs)))) runs) stepId key = some r := by
    intro r
    simp [ownRow, RunState.rows, RowEntry.row?]
  unfold recordStep at h
  simp only at h
  split at h
  case isTrue =>
    rw [← Option.some.inj h]
    exact ⟨_, hset _, rfl, rfl⟩
  case isFalse =>
    split at h
    · cases h
    · rw [← Option.some.inj h]
      exact ⟨_, hset _, rfl, rfl⟩

theorem ownRow_of_recordStep_of_ne (h : recordStep runs key stepId row = some runs')
    (hne : ¬(key' = key ∧ stepId' = stepId)) : ownRow runs' stepId' key' = ownRow runs stepId' key' := by
  have hset : ∀ r : StepRow, ownRow (Dict.set key (.steps (Dict.set stepId (.row r)
      (RunState.rows (Dict.get key runs)))) runs) stepId' key' = ownRow runs stepId' key' := by
    intro r
    by_cases hkey : key' = key
    · have hid : stepId' ≠ stepId := fun hid => hne ⟨hkey, hid⟩
      simp only [ownRow, hkey, Dict.get_set_self]
      simp only [RunState.rows, Dict.get_set_of_ne hid]
    · simp only [ownRow, Dict.get_set_of_ne hkey]
  unfold recordStep at h
  simp only at h
  split at h
  case isTrue =>
    rw [← Option.some.inj h]
    exact hset _
  case isFalse =>
    split at h
    · cases h
    · rw [← Option.some.inj h]
      exact hset _

theorem recordStep_again (row' : StepRow) (h : recordStep runs key stepId row = some runs') :
    ∃ runs'', recordStep runs' key stepId row' = some runs'' := by
  obtain ⟨recorded, hown, -, -⟩ := ownRow_of_recordStep h
  unfold recordStep
  simp only
  split
  · exact ⟨_, rfl⟩
  · split
    · rename_i hmalformed
      simp [ownRow, hmalformed, RowEntry.row?] at hown
    · exact ⟨_, rfl⟩

theorem ownRow_eq (runs : Runs) (stepId : String) (key : StateKey) :
    ownRow runs stepId key = RowEntry.row? (entryAt runs stepId key) := rfl

theorem entryAt_createStepRows : entryAt (createStepRows runs key) stepId' key' =
    entryAt runs stepId' key' := by
  have hempty : ∀ run, Dict.get key runs = run → (∀ rows, run ≠ some (.steps rows)) →
      entryAt (Dict.set key (.steps []) runs) stepId' key' = entryAt runs stepId' key' := by
    intro run hrun hnot
    by_cases hkey : key' = key
    · have hnone : RunState.rows run = [] := by
        unfold RunState.rows
        split
        · exact absurd rfl (hnot _)
        · rfl
      simp only [entryAt, hkey, Dict.get_set_self, hrun, hnone]
      rfl
    · simp only [entryAt, Dict.get_set_of_ne hkey]
  unfold createStepRows
  split
  · rfl
  · rename_i run hnot
    exact hempty _ rfl fun rows heq => hnot rows heq

theorem ownRow_createStepRows : ownRow (createStepRows runs key) stepId' key' =
    ownRow runs stepId' key' := by
  rw [ownRow_eq, ownRow_eq, entryAt_createStepRows]

theorem entryAt_markAbandoned (now activePid : Int) (pidAlive : Int → Bool) :
    entryAt (markAbandoned now activePid pidAlive runs) stepId key =
      (entryAt runs stepId key).map (RowEntry.mark (markRow now activePid pidAlive)) := by
  unfold entryAt markAbandoned
  rw [Dict.get_mapValues]
  cases Dict.get key runs with
  | none => rfl
  | some run =>
    cases run with
    | steps rows => simp only [Option.map_some, RunState.mark, RunState.rows, Dict.get_mapValues]
    | malformed => rfl
    | malformedSteps => rfl

theorem ownRow_markAbandoned (now activePid : Int) (pidAlive : Int → Bool) :
    ownRow (markAbandoned now activePid pidAlive runs) stepId key =
      (ownRow runs stepId key).map (markRow now activePid pidAlive) := by
  rw [ownRow_eq, ownRow_eq, entryAt_markAbandoned]
  cases entryAt runs stepId key with
  | none => rfl
  | some entry => cases entry <;> rfl

theorem markRow_success {now activePid : Int} {pidAlive : Int → Bool}
    (h : (markRow now activePid pidAlive row).status = .success) : row.status = .success := by
  unfold markRow at h
  split at h
  · split at h
    · exact h
    · cases h
  · exact h

/-- The row a policy finds stands under its own key, or else under the older spelling. -/
theorem stepRowForKey_eq (runs : Runs) (stepId : String) (key : StateKey) :
    stepRowForKey runs stepId key =
      (ownRow runs stepId key).or (key.legacy.bind (ownRow runs stepId)) := by
  have hplain : ∀ old, StateKey.legacy old = none →
      RowEntry.row? (Dict.get stepId (stepRowsForKey runs old)) = ownRow runs stepId old := by
    intro old hold
    simp [stepRowsForKey, ownRow, hold]
  cases hlegacy : key.legacy with
  | none =>
    simp only [stepRowForKey, hlegacy, hplain key hlegacy, Option.bind_none]
  | some old =>
    have hold : old.legacy = none := by
      cases key <;> cases hlegacy
      rfl
    simp only [stepRowForKey, hlegacy, Option.bind_some, hplain old hold]
    cases hget : Dict.get key runs with
    | some run => simp [stepRowsForKey, ownRow, hget]
    | none =>
      have hfound : RowEntry.row? (Dict.get stepId (stepRowsForKey runs key)) =
          ownRow runs stepId old := by
        simp [stepRowsForKey, ownRow, hget, hlegacy]
      have hnone : ownRow runs stepId key = none := by
        simp [ownRow, hget, RunState.rows, Dict.get, RowEntry.row?]
      rw [hfound, hnone, Option.or_self, Option.none_or]

theorem stepRowForKey_congr (h : ∀ key, ownRow runs' stepId key = ownRow runs stepId key) :
    stepRowForKey runs' stepId key = stepRowForKey runs stepId key := by
  rw [stepRowForKey_eq, stepRowForKey_eq, h key]
  congr 2
  funext old
  exact h old

end Rows

end QuantDataCenter.Orchestrator
