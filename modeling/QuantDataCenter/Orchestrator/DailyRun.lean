import QuantDataCenter.Orchestrator.StateFile

/-!
One call of `run_daily_update`, as the list of what it does in order: writes of the
state file, steps skipped or blocked, runner invocations and their results. What
the environment answers (the runner, the clock, which processes live, whether DuckDB
is free) belongs to the call.
-/

set_option autoImplicit false
set_option relaxedAutoImplicit false

namespace QuantDataCenter.Orchestrator

open QuantDataCenter.Lib

/-- A call with its arguments and the answers it gets; the k-th step of the list
starts at `startedAt k`. A runner may raise. -/
structure Call where
  steps : List DailyStep
  dates : DailyEffectiveDates
  runInstance : Int
  startAt : Option String := none
  force : Bool := false
  ignoreState : Bool := false
  pid : Int
  pidAlive : Int → Bool
  checkedAt : Int
  startedAt : ℕ → Int
  runner : ℕ → Option Int
  duckdbAvailable : ℕ → Bool

/-- What a call does; a record of an outcome remembers the rows at the invocation. -/
inductive Event where
  | wrote (runs : Runs)
  | passedOver (k : ℕ) (step : DailyStep)
  | skipped (k : ℕ) (step : DailyStep) (runs : Runs)
  | blocked (k : ℕ) (step : DailyStep)
  | invoked (k : ℕ) (step : DailyStep) (command : List String) (runs : Runs)
  | returned (k : ℕ) (step : DailyStep) (code : Int)
  | recorded (k : ℕ) (step : DailyStep) (status : StepStatus) (running : Runs)
  deriving DecidableEq, Repr

/-- How the loop goes on after a step. -/
inductive Verdict where
  | next
  | failed (code : Int)
  | stop (code : Int)
  | raised
  deriving DecidableEq, Repr

structure StepEnd where
  events : List Event
  runs : Runs
  verdict : Verdict

def timeoutExitCode : Int := 124

def timeoutCleanupFailedExitCode : Int := 125

/-! The build-derived command without its daily bars -/

def buildDerivedTargets : List String → List String
  | [] => []
  | [arg] => if "--target=".toList.isPrefixOf arg.toList then [String.ofList (arg.toList.drop 9)] else []
  | arg :: value :: rest =>
    if arg = "--target" then value :: buildDerivedTargets rest
    else if "--target=".toList.isPrefixOf arg.toList then
      String.ofList (arg.toList.drop 9) :: buildDerivedTargets (value :: rest)
    else buildDerivedTargets (value :: rest)

def buildDerivedRequestedTargets (command : List String) : List String :=
  match buildDerivedTargets command with
  | [] => ["all"]
  | targets => targets

def buildDerivedCommandExcludesDailyBar : List String → Bool
  | [] => false
  | arg :: rest =>
    (arg == "--exclude-target" && rest.head? == some "daily_bar") ||
      arg == "--exclude-target=daily_bar" || buildDerivedCommandExcludesDailyBar rest

def appendBuildDerivedExcludeDailyBar (command : List String) : List String :=
  command.takeWhile (· ≠ "--no-build-duckdb-views") ++ ["--exclude-target", "daily_bar"] ++
    command.dropWhile (· ≠ "--no-build-duckdb-views")

/-- `_degraded_build_derived_step_for_akshare_daily_bar`: nothing to do, blocked
(`some none`), or another command. -/
def degradedBuildDerivedCommand (step : DailyStep) (dependencyId : String) :
    Option (Option (List String)) :=
  if step.id ∉ ["build-derived", "build-derived-daily-bar"] ∨ dependencyId ≠ "akshare-daily-bar" then
    none
  else if step.id = "build-derived-daily-bar" then some none
  else
    let targets := buildDerivedRequestedTargets step.command
    if "all" ∉ targets ∧ "daily_bar" ∉ targets then none
    else if buildDerivedCommandExcludesDailyBar step.command = true then some (some step.command)
    else if "daily_bar" ∈ targets ∧ "all" ∉ targets then some none
    else some (some (appendBuildDerivedExcludeDailyBar step.command))

namespace Call

variable (c : Call)

def keyOf (step : DailyStep) : StateKey :=
  stateKeyForPolicy step.stateKeyPolicy c.dates c.runInstance

def rowOf (runs : Runs) (step : DailyStep) : Option StepRow :=
  stepRowForKey runs step.id (c.keyOf step)

/-- `_resolved_dependency_status`. -/
def dependencyKey (dependency : DailyDependency) : StateKey :=
  let policy := dependency.stateKeyPolicy.getD
    (((stepsById c.steps dependency.stepId).map DailyStep.stateKeyPolicy).getD .naturalDate)
  stateKeyForPolicy policy c.dates c.runInstance

def dependencyStatus (runs : Runs) (dependency : DailyDependency) : StepStatus :=
  rowStatus (stepRowForKey runs dependency.stepId (c.dependencyKey dependency))

def blockedDependencies (step : DailyStep) (runs : Runs) : List String :=
  (step.dependsOn.filter fun dependency =>
    (c.dependencyStatus runs dependency ∈ failedDependencyStatuses ∨
      c.dependencyStatus runs dependency ∉ satisfiedDependencyStatuses) ∧
    dependency.soft = false).map DailyDependency.stepId

def upstreamDegradedSuccessReason (step : DailyStep) (runs : Runs) : Option Reason :=
  (step.dependsOn.find? fun dependency =>
    c.dependencyStatus runs dependency = .successDegraded).map fun dependency =>
      .upstreamDegraded dependency.stepId

/-- What the soft dependencies leave of a step. -/
structure Degradation where
  command : List String
  reason : Option Reason
  blocked : Option Reason

def noteSoftDependency (step : DailyStep) (runs : Runs) (acc : Degradation)
    (dependency : DailyDependency) : Degradation :=
  let status := c.dependencyStatus runs dependency
  if dependency.soft = false ∨ status ∈ satisfiedDependencyStatuses then acc
  else match degradedBuildDerivedCommand step dependency.stepId with
    | some none => { acc with blocked := some (.cannotBuildDailyBar dependency.stepId status) }
    | some (some command) =>
      { acc with command := command, reason := some (.excludedDailyBar dependency.stepId status) }
    | none => { acc with reason := acc.reason.or (some (.softDependency dependency.stepId status)) }

def degrade (step : DailyStep) (runs : Runs) : Degradation :=
  step.dependsOn.foldl (c.noteSoftDependency step runs) ⟨step.command, none, none⟩

/-- `_record_step`. -/
def record (k : ℕ) (step : DailyStep) (status : StepStatus) (exitCode : RowExitCode)
    (blockedBy : List String) (reason : Option Reason) (runs : Runs) : Option Runs :=
  recordStep runs (c.keyOf step) step.id
    { status := status
      startedAt := some (c.startedAt k)
      pid := if status = .running then some c.pid else none
      exitCode := exitCode
      blockedBy := blockedBy
      reason := reason }

/-- Status, reason and verdict for what the runner returned. -/
def settle (k : ℕ) (step : DailyStep) (degraded : Option Reason) (code : Int) :
    StepStatus × Option Reason × Verdict :=
  let timedOut := code = timeoutExitCode ∧ step.timeoutSeconds.isSome = true
  let cleanupFailed := code = timeoutCleanupFailedExitCode ∧ step.timeoutSeconds.isSome = true
  if code = 0 then
    match degraded with
    | some reason => (.successDegraded, some reason, .next)
    | none => (.success, none, .next)
  else if cleanupFailed then
    (if step.optional then .failedTimeoutCleanup else .failed, none, .stop code)
  else if timedOut ∧ c.duckdbAvailable k = false then
    (if step.optional then .failedResourceLocked else .failed, none, .stop code)
  else if step.optional then (if timedOut then .skippedTimeout else .skipped, none, .next)
  else (.failed, none, .failed code)

def block (k : ℕ) (step : DailyStep) (blockedBy : List String) (reason : Option Reason)
    (runs : Runs) : StepEnd :=
  match c.record k step .blocked (.code 1) blockedBy reason runs with
  | none => ⟨[], runs, .raised⟩
  | some runs' => ⟨[.blocked k step, .wrote runs'], runs', .next⟩

def invoke (k : ℕ) (step : DailyStep) (command : List String) (degraded : Option Reason)
    (runs : Runs) : StepEnd :=
  match c.record k step .running .missing [] none runs with
  | none => ⟨[], runs, .raised⟩
  | some running =>
    match c.runner k with
    | none => ⟨[.wrote running, .invoked k step command running], running, .raised⟩
    | some code =>
      let (status, reason, verdict) := c.settle k step degraded code
      match c.record k step status (.code code) [] reason running with
      | none => ⟨[.wrote running, .invoked k step command running, .returned k step code], running,
          .raised⟩
      | some runs' =>
        ⟨[.wrote running, .invoked k step command running, .returned k step code,
          .recorded k step status running, .wrote runs'], runs', verdict⟩

def resumes (step : DailyStep) : Prop :=
  c.startAt = none ∧ c.force = false ∧ c.ignoreState = false ∧ step.resumePolicy = .skipIfSuccess

instance (step : DailyStep) : Decidable (c.resumes step) :=
  inferInstanceAs (Decidable (_ ∧ _))

/-- The body of the loop, from the resume decision on. -/
def runStep (k : ℕ) (step : DailyStep) (runs : Runs) : StepEnd :=
  if c.resumes step ∧ rowStatus (c.rowOf runs step) = .success then
    ⟨[.skipped k step runs], runs, .next⟩
  else if c.blockedDependencies step runs ≠ [] then
    c.block k step (c.blockedDependencies step runs) none runs
  else
    let degradation := c.degrade step runs
    match degradation.blocked with
    | some reason => c.block k step [] (some reason) runs
    | none =>
      c.invoke k step degradation.command
        (degradation.reason.or (c.upstreamDegradedSuccessReason step runs)) runs

structure LoopEnd where
  events : List Event
  runs : Runs
  failed : Option Int
  raised : Bool

def LoopEnd.prepend (events : List Event) (out : LoopEnd) : LoopEnd :=
  { out with events := events ++ out.events }

/-- The loop over the steps, from the k-th on; `started` is `start_seen`. -/
def runSteps (startAt : Option String) : ℕ → Bool → List DailyStep → Runs → Option Int → LoopEnd
  | _, _, [], runs, failed => ⟨[], runs, failed, false⟩
  | k, started, step :: steps, runs, failed =>
    let runs := createStepRows runs (c.keyOf step)
    if started = false ∧ startAt ≠ some step.id then
      match c.record k step .skipped (.code 0) [] none runs with
      | none => ⟨[], runs, failed, true⟩
      | some runs' => (runSteps startAt (k + 1) false steps runs' failed).prepend [.passedOver k step]
    else
      let out := c.runStep k step runs
      match out.verdict with
      | .next => (runSteps startAt (k + 1) true steps out.runs failed).prepend out.events
      | .failed code =>
        (runSteps startAt (k + 1) true steps out.runs (failed.or (some code))).prepend out.events
      | .stop code => ⟨out.events, out.runs, some (if failed.getD 0 = 0 then code else failed.getD 0), false⟩
      | .raised => ⟨out.events, out.runs, failed, true⟩

/-- `_final_exit_code_for_state`; a code that cannot be read raises. -/
def finalExitCode (runs : Runs) (failed : Option Int) : Option Int :=
  let row (step : DailyStep) := (stepsById c.steps step.id).bind (c.rowOf runs)
  match failed with
  | some code => some code
  | none =>
    match c.steps.find? fun step => rowStatus (row step) ∈
        [.failed, .failedResourceLocked, .failedTimeoutCleanup, .abandoned] with
    | some step =>
      match (row step).map StepRow.exitCode with
      | some (.code n) => some n
      | some .unreadable => none
      | _ => some 1
    | none => if c.steps.any fun step => rowStatus (row step) = .blocked then some 1 else some 0

def legacyStartAtAliases : List (String × String) := [("build-derived", "build-derived-security-master")]

/-- The step id a call starts at, after the old names are mapped; `none` when the id
is unknown. -/
def resolveStartAt : Option (Option String) :=
  match c.startAt with
  | none => some none
  | some id =>
    if id ∈ c.steps.map DailyStep.id then some (some id)
    else match legacyStartAtAliases.lookup id with
      | some mapped => if mapped ∈ c.steps.map DailyStep.id then some (some mapped) else none
      | none => none

/-- What a call did, the rows it ended with and its result, `none` when it raised. -/
structure RunEnd where
  events : List Event
  runs : Runs
  exitCode : Option Int

end Call

open Call in
def runDailyUpdate (c : Call) (file : StateFile) : RunEnd :=
  match c.resolveStartAt, readStateForRun file c.force with
  | some startAt, some state =>
    let changed := hasAbandoned c.checkedAt c.pid c.pidAlive state.runs
    let marked := markAbandoned c.checkedAt c.pid c.pidAlive state.runs
    let out := c.runSteps startAt 0 startAt.isNone c.steps marked none
    let events := (if changed then [.wrote marked] else []) ++ out.events
    if out.raised then ⟨events, out.runs, none⟩
    else match c.finalExitCode out.runs out.failed with
      | none => ⟨events, out.runs, none⟩
      | some code =>
        ⟨events ++ (if state.version2 = false ∧ changed = false then [.wrote out.runs] else []),
          out.runs, some code⟩
  | _, _ => ⟨[], [], none⟩

/-! What one step does -/

namespace Call

variable {c : Call} {k : ℕ} {step : DailyStep} {runs running runs' : Runs}

/-- What has been checked when the runner is started; `degraded` is the reason for a
degraded success. -/
structure Gate (c : Call) (step : DailyStep) (runs : Runs) (degraded : Option Reason) : Prop where
  hard : ∀ dependency ∈ step.dependsOn, dependency.soft = false →
    c.dependencyStatus runs dependency ∈ satisfiedDependencyStatuses
  plain : degraded = none → ∀ dependency ∈ step.dependsOn,
    c.dependencyStatus runs dependency ∈ satisfiedDependencyStatuses ∧
      c.dependencyStatus runs dependency ≠ .successDegraded

/-- The step is not done yet, or not to be skipped as done. -/
def Due (c : Call) (step : DailyStep) (runs : Runs) : Prop :=
  ¬(c.resumes step ∧ rowStatus (c.rowOf runs step) = .success)

/-- The ways in which a step can end. -/
inductive StepOutcome (c : Call) (k : ℕ) (step : DailyStep) (runs : Runs) : StepEnd → Prop
  | skipped (hresumes : c.resumes step) (hsuccess : rowStatus (c.rowOf runs step) = .success) :
      StepOutcome c k step runs ⟨[.skipped k step runs], runs, .next⟩
  | raised : StepOutcome c k step runs ⟨[], runs, .raised⟩
  | blocked {blockedBy : List String} {reason : Option Reason} {runs' : Runs}
      (hdue : c.Due step runs)
      (hrecord : c.record k step .blocked (.code 1) blockedBy reason runs = some runs') :
      StepOutcome c k step runs ⟨[.blocked k step, .wrote runs'], runs', .next⟩
  | interrupted {command : List String} {degraded : Option Reason} {running : Runs}
      (hdue : c.Due step runs) (hgate : Gate c step runs degraded)
      (hrunning : c.record k step .running .missing [] none runs = some running)
      (hrunner : c.runner k = none) :
      StepOutcome c k step runs
        ⟨[.wrote running, .invoked k step command running], running, .raised⟩
  | ran {command : List String} {degraded : Option Reason} {running : Runs} {code : Int}
      {runs' : Runs} (hdue : c.Due step runs) (hgate : Gate c step runs degraded)
      (hrunning : c.record k step .running .missing [] none runs = some running)
      (hrunner : c.runner k = some code)
      (hrecord : c.record k step (c.settle k step degraded code).1 (.code code) []
        (c.settle k step degraded code).2.1 running = some runs') :
      StepOutcome c k step runs
        ⟨[.wrote running, .invoked k step command running, .returned k step code,
          .recorded k step (c.settle k step degraded code).1 running, .wrote runs'], runs',
          (c.settle k step degraded code).2.2⟩

/-- A soft dependency that is not satisfied blocks the step or degrades its success. -/
private theorem soft_satisfied_of_foldl {dependencies : List DailyDependency} {acc : Degradation}
    (hreason : (dependencies.foldl (c.noteSoftDependency step runs) acc).reason = none)
    (hblocked : (dependencies.foldl (c.noteSoftDependency step runs) acc).blocked = none) :
    acc.reason = none ∧ acc.blocked = none ∧ ∀ dependency ∈ dependencies, dependency.soft = true →
      c.dependencyStatus runs dependency ∈ satisfiedDependencyStatuses := by
  induction dependencies generalizing acc with
  | nil => exact ⟨hreason, hblocked, fun _ h => by cases h⟩
  | cons dependency dependencies ih =>
    obtain ⟨hreason', hblocked', hrest⟩ := ih hreason hblocked
    unfold noteSoftDependency at hreason' hblocked'
    simp only at hreason' hblocked'
    split at hreason'
    case isTrue hfine =>
      rw [if_pos hfine] at hblocked'
      refine ⟨hreason', hblocked', fun dependency' hmem hsoft => ?_⟩
      rcases List.mem_cons.mp hmem with rfl | hmem
      · rcases hfine with hhard | hsatisfied
        · rw [hsoft] at hhard
          cases hhard
        · exact hsatisfied
      · exact hrest dependency' hmem hsoft
    case isFalse hnot =>
      rw [if_neg hnot] at hblocked'
      split at hreason'
      · rename_i hcommand
        rw [hcommand] at hblocked'
        cases hblocked'
      · cases hreason'
      · cases hacc : acc.reason <;> rw [hacc] at hreason' <;> cases hreason'

private theorem gate_of_unblocked (hblocked : c.blockedDependencies step runs = [])
    (hsoft : (c.degrade step runs).blocked = none) :
    Gate c step runs ((c.degrade step runs).reason.or (c.upstreamDegradedSuccessReason step runs)) := by
  have hhard : ∀ dependency ∈ step.dependsOn, dependency.soft = false →
      c.dependencyStatus runs dependency ∈ satisfiedDependencyStatuses := by
    intro dependency hmem hsoft'
    by_contra hnot
    unfold blockedDependencies at hblocked
    rw [List.map_eq_nil_iff, List.filter_eq_nil_iff] at hblocked
    exact hblocked dependency hmem (by simp [hnot, hsoft'])
  refine ⟨hhard, fun hdegraded dependency hmem => ?_⟩
  rw [Option.or_eq_none_iff] at hdegraded
  obtain ⟨-, -, hsoftall⟩ := soft_satisfied_of_foldl hdegraded.1 hsoft
  constructor
  · cases hkind : dependency.soft with
    | false => exact hhard dependency hmem hkind
    | true => exact hsoftall dependency hmem hkind
  · have hnone := hdegraded.2
    unfold upstreamDegradedSuccessReason at hnone
    rw [Option.map_eq_none_iff, List.find?_eq_none] at hnone
    simpa using hnone dependency hmem

private theorem runStep_outcome (c : Call) (k : ℕ) (step : DailyStep) (runs : Runs) :
    StepOutcome c k step runs (c.runStep k step runs) := by
  have hblock : c.Due step runs → ∀ blockedBy reason,
      StepOutcome c k step runs (c.block k step blockedBy reason runs) := by
    intro hdue blockedBy reason
    unfold block
    cases hrecord : c.record k step .blocked (.code 1) blockedBy reason runs with
    | none => exact .raised
    | some runs' => exact .blocked hdue hrecord
  unfold runStep
  split
  case isTrue hskip => exact .skipped hskip.1 hskip.2
  case isFalse hdue =>
    split
    case isTrue => exact hblock hdue _ _
    case isFalse hnot =>
      have hunblocked : c.blockedDependencies step runs = [] := not_not.mp hnot
      cases hsoft : (c.degrade step runs).blocked with
      | some reason =>
        simp only [hsoft]
        exact hblock hdue _ _
      | none =>
        simp only [hsoft]
        have hgate := gate_of_unblocked hunblocked hsoft
        revert hgate
        generalize (c.degrade step runs).reason.or (c.upstreamDegradedSuccessReason step runs) = degraded
        intro hgate
        unfold invoke
        cases hrunning : c.record k step .running .missing [] none runs with
        | none => exact .raised
        | some running =>
          cases hrunner : c.runner k with
          | none => exact .interrupted hdue hgate hrunning hrunner
          | some code =>
            obtain ⟨runs', hrecord⟩ : ∃ runs', c.record k step (c.settle k step degraded code).1
                (.code code) [] (c.settle k step degraded code).2.1 running = some runs' :=
              recordStep_again _ hrunning
            simp only [hrecord]
            exact .ran hdue hgate hrunning hrunner hrecord

theorem rowOf_of_record {status : StepStatus} {exitCode : RowExitCode} {blockedBy : List String}
    {reason : Option Reason}
    (h : c.record k step status exitCode blockedBy reason runs = some runs') :
    ∃ row, c.rowOf runs' step = some row ∧ row.status = status ∧ row.exitCode = exitCode := by
  obtain ⟨row, hown, hstatus, hcode⟩ := ownRow_of_recordStep h
  refine ⟨row, ?_, hstatus, hcode⟩
  unfold rowOf
  rw [stepRowForKey_eq, hown, Option.some_or]

theorem ownRow_of_record_of_ne {status : StepStatus} {exitCode : RowExitCode}
    {blockedBy : List String} {reason : Option Reason} {stepId : String}
    (h : c.record k step status exitCode blockedBy reason runs = some runs')
    (hne : stepId ≠ step.id) (key : StateKey) : ownRow runs' stepId key = ownRow runs stepId key :=
  ownRow_of_recordStep_of_ne h fun heq => hne heq.2

/-- The ways in which the loop can go: one case for each way a step is treated. -/
inductive Loop (c : Call) (startAt : Option String) :
    ℕ → Bool → List DailyStep → Runs → Option Int → LoopEnd → Prop
  | nil {k : ℕ} {started : Bool} {runs : Runs} {failed : Option Int} :
      Loop c startAt k started [] runs failed ⟨[], runs, failed, false⟩
  | unrecorded {k : ℕ} {started : Bool} {step : DailyStep} {steps : List DailyStep} {runs : Runs}
      {failed : Option Int} (hpass : started = false ∧ startAt ≠ some step.id) :
      Loop c startAt k started (step :: steps) runs failed
        ⟨[], createStepRows runs (c.keyOf step), failed, true⟩
  | passedOver {k : ℕ} {started : Bool} {step : DailyStep} {steps : List DailyStep}
      {runs runs' : Runs} {failed : Option Int} {last : LoopEnd}
      (hpass : started = false ∧ startAt ≠ some step.id)
      (hrecord : c.record k step .skipped (.code 0) [] none (createStepRows runs (c.keyOf step)) =
        some runs')
      (rest : Loop c startAt (k + 1) false steps runs' failed last) :
      Loop c startAt k started (step :: steps) runs failed (last.prepend [.passedOver k step])
  | next {k : ℕ} {started : Bool} {step : DailyStep} {steps : List DailyStep} {runs : Runs}
      {failed failed' : Option Int} {out : StepEnd} {last : LoopEnd}
      (hreached : ¬(started = false ∧ startAt ≠ some step.id))
      (houtcome : StepOutcome c k step (createStepRows runs (c.keyOf step)) out)
      (hverdict : out.verdict = .next ∧ failed' = failed ∨
        ∃ code, out.verdict = .failed code ∧ failed' = failed.or (some code))
      (rest : Loop c startAt (k + 1) true steps out.runs failed' last) :
      Loop c startAt k started (step :: steps) runs failed (last.prepend out.events)
  | stop {k : ℕ} {started : Bool} {step : DailyStep} {steps : List DailyStep} {runs : Runs}
      {failed : Option Int} {out : StepEnd} {code : Int}
      (hreached : ¬(started = false ∧ startAt ≠ some step.id))
      (houtcome : StepOutcome c k step (createStepRows runs (c.keyOf step)) out)
      (hverdict : out.verdict = .stop code) :
      Loop c startAt k started (step :: steps) runs failed
        ⟨out.events, out.runs, some (if failed.getD 0 = 0 then code else failed.getD 0), false⟩
  | raised {k : ℕ} {started : Bool} {step : DailyStep} {steps : List DailyStep} {runs : Runs}
      {failed : Option Int} {out : StepEnd}
      (hreached : ¬(started = false ∧ startAt ≠ some step.id))
      (houtcome : StepOutcome c k step (createStepRows runs (c.keyOf step)) out)
      (hverdict : out.verdict = .raised) :
      Loop c startAt k started (step :: steps) runs failed ⟨out.events, out.runs, failed, true⟩

private theorem runSteps_loop (c : Call) (startAt : Option String) (k : ℕ) (started : Bool)
    (steps : List DailyStep) (runs : Runs) (failed : Option Int) :
    Loop c startAt k started steps runs failed (c.runSteps startAt k started steps runs failed) := by
  induction steps generalizing k started runs failed with
  | nil => exact .nil
  | cons step steps ih =>
    rw [runSteps]
    simp only
    split
    case isTrue hpass =>
      split
      · exact .unrecorded hpass
      · rename_i hrecord
        exact .passedOver hpass hrecord (ih ..)
    case isFalse hreached =>
      have houtcome := runStep_outcome c k step (createStepRows runs (c.keyOf step))
      split
      · rename_i hverdict
        exact .next hreached houtcome (Or.inl ⟨hverdict, rfl⟩) (ih ..)
      · rename_i hverdict
        exact .next hreached houtcome (Or.inr ⟨_, hverdict, rfl⟩) (ih ..)
      · rename_i hverdict
        exact .stop hreached houtcome hverdict
      · rename_i hverdict
        exact .raised hreached houtcome hverdict

/-- The event belongs to the body of the step at a position of the list. -/
def FromStep (c : Call) (k : ℕ) (steps : List DailyStep) (events : List Event) (event : Event) :
    Prop :=
  ∃ i step runs out, steps[i]? = some step ∧ StepOutcome c (k + i) step runs out ∧
    event ∈ out.events ∧ out.events ⊆ events

private theorem FromStep.cons {c : Call} {k : ℕ} {step : DailyStep} {steps : List DailyStep}
    {events earlier : List Event} {event : Event} (h : FromStep c (k + 1) steps events event) :
    FromStep c k (step :: steps) (earlier ++ events) event := by
  obtain ⟨i, step', runs, out, hstep, hout, hmem, hsub⟩ := h
  refine ⟨i + 1, step', runs, out, by simpa using hstep, ?_, hmem, ?_⟩
  · rw [show k + (i + 1) = k + 1 + i by omega]
    exact hout
  · exact fun e he => List.mem_append_right earlier (hsub he)

/-- Every event of the loop but a passed-over step belongs to the body of one step. -/
theorem Loop.fromStep {startAt : Option String} {k : ℕ} {started : Bool} {steps : List DailyStep}
    {runs : Runs} {failed : Option Int} {last : LoopEnd}
    (h : Loop c startAt k started steps runs failed last) {event : Event}
    (hevent : event ∈ last.events) :
    (∃ j step, event = .passedOver j step) ∨ FromStep c k steps last.events event := by
  induction h with
  | nil => cases hevent
  | unrecorded => cases hevent
  | passedOver hpass hrecord rest ih =>
    rcases List.mem_append.mp hevent with hhead | hlater
    · exact Or.inl ⟨_, _, List.mem_singleton.mp hhead⟩
    · exact (ih hlater).imp_right FromStep.cons
  | next hreached houtcome hverdict rest ih =>
    rcases List.mem_append.mp hevent with hhead | hlater
    · exact Or.inr ⟨0, _, _, _, rfl, houtcome, hhead, List.subset_append_left _ _⟩
    · exact (ih hlater).imp_right FromStep.cons
  | stop hreached houtcome => exact Or.inr ⟨0, _, _, _, rfl, houtcome, hevent, List.Subset.refl _⟩
  | raised hreached houtcome => exact Or.inr ⟨0, _, _, _, rfl, houtcome, hevent, List.Subset.refl _⟩

end Call

theorem runDailyUpdate_cases (c : Call) (file : StateFile) :
    (runDailyUpdate c file).exitCode = none ∧ (runDailyUpdate c file).events = [] ∨
    ∃ startAt state last, c.resolveStartAt = some startAt ∧
      readStateForRun file c.force = some state ∧
      Call.Loop c startAt 0 startAt.isNone c.steps
        (markAbandoned c.checkedAt c.pid c.pidAlive state.runs) none last ∧
      (runDailyUpdate c file).runs = last.runs ∧
      (runDailyUpdate c file).exitCode =
        (if last.raised then none else c.finalExitCode last.runs last.failed) ∧
      ∃ before after, (runDailyUpdate c file).events = before ++ last.events ++ after ∧
        (before = [] ∨
          before = [.wrote (markAbandoned c.checkedAt c.pid c.pidAlive state.runs)]) ∧
        (after = [] ∨ after = [.wrote last.runs]) := by
  unfold runDailyUpdate
  split
  case h_1 startAt state hstart hstate =>
    have hloop := Call.runSteps_loop c startAt 0 startAt.isNone c.steps
      (markAbandoned c.checkedAt c.pid c.pidAlive state.runs) none
    have hbefore : ∀ changed : Bool, (if changed = true then
        [Event.wrote (markAbandoned c.checkedAt c.pid c.pidAlive state.runs)] else []) = [] ∨
        (if changed = true then
        [Event.wrote (markAbandoned c.checkedAt c.pid c.pidAlive state.runs)] else []) =
          [.wrote (markAbandoned c.checkedAt c.pid c.pidAlive state.runs)] := by
      intro changed
      cases changed
      · exact Or.inl rfl
      · exact Or.inr rfl
    revert hloop
    simp only
    generalize c.runSteps startAt 0 startAt.isNone c.steps
      (markAbandoned c.checkedAt c.pid c.pidAlive state.runs) none = last
    intro hloop
    refine Or.inr ⟨startAt, state, last, hstart, hstate, hloop, ?_⟩
    split
    case isTrue hraised =>
      exact ⟨rfl, rfl, _, [], (List.append_nil _).symm, hbefore _, Or.inl rfl⟩
    case isFalse hraised =>
      cases hcode : c.finalExitCode last.runs last.failed with
      | none => exact ⟨rfl, rfl, _, [], (List.append_nil _).symm, hbefore _, Or.inl rfl⟩
      | some code =>
        refine ⟨rfl, rfl, _, _, rfl, hbefore _, ?_⟩
        split
        · exact Or.inr rfl
        · exact Or.inl rfl
  case h_2 => exact Or.inl ⟨rfl, rfl⟩

end QuantDataCenter.Orchestrator
