import Mathlib.Data.List.Nodup

/-!
The daily workflow (`tools/run_update_daily.py`): steps and their policies, and what
the loader keeps of a configuration for a given day. The values of a configuration
are taken as the loader has checked them.
-/

set_option autoImplicit false
set_option relaxedAutoImplicit false

namespace QuantDataCenter.Orchestrator

/-- Dates are counted in days since 1970-01-01. -/
structure DailyEffectiveDates where
  naturalDate : Int
  candidateDate : Int
  marketDate : Int
  histStart : Int
  marketDateOverridden : Bool := false
  deriving DecidableEq, Repr

inductive StateKeyPolicy where
  | naturalDate
  | marketDate
  | runInstance
  deriving DecidableEq, Repr

inductive ResumePolicy where
  | skipIfSuccess
  | alwaysRun
  deriving DecidableEq, Repr

inductive SchedulePolicy where
  | daily
  | marketWindow
  | legacyWhen
  deriving DecidableEq, Repr

structure DailyDependency where
  stepId : String
  stateKeyPolicy : Option StateKeyPolicy := none
  soft : Bool := false
  deriving DecidableEq, Repr

structure DailyStep where
  id : String
  command : List String
  optional : Bool := false
  timeoutSeconds : Option ℕ := none
  dependsOn : List DailyDependency := []
  stateKeyPolicy : StateKeyPolicy := .naturalDate
  resumePolicy : ResumePolicy := .skipIfSuccess
  deriving DecidableEq, Repr

/-- A step of the configuration; its command still has to be filled with the dates. -/
structure RawStep where
  id : String
  command : DailyEffectiveDates → List String
  enabled : Bool := true
  schedulePolicy : SchedulePolicy := .daily
  rules : List String := ["all"]
  optional : Bool := false
  timeoutSeconds : Option ℕ := none
  dependsOn : List DailyDependency := []
  stateKeyPolicy : StateKeyPolicy := .naturalDate
  resumePolicy : ResumePolicy := .skipIfSuccess

/-- `date.weekday()`: Monday is 0; day 0 is a Thursday. -/
def weekday (day : Int) : Int := (day + 3) % 7

def weekdayNames : List String :=
  ["monday", "tuesday", "wednesday", "thursday", "friday", "saturday", "sunday"]

/-- `_day_rule_matches`, on rules in lower case. -/
def dayRuleMatches (rules : List String) (today : Int) : Bool :=
  let day := weekday today
  rules.isEmpty || rules.contains "all" || rules.any fun rule =>
    (rule == "weekday" && day < 5) || (rule == "weekend" && 5 ≤ day) ||
      ((rule == "friday_to_sunday" || rule == "weekend_window") && 4 ≤ day) ||
      some rule == weekdayNames[day.toNat]?

def schedulePolicyMatches (policy : SchedulePolicy) (rules : List String)
    (dates : DailyEffectiveDates) : Bool :=
  match policy with
  | .daily => true
  | .marketWindow => 4 ≤ weekday dates.naturalDate || dates.candidateDate != dates.marketDate ||
      dates.marketDateOverridden
  | .legacyWhen => dayRuleMatches rules dates.naturalDate

/-- `_steps_from_workflow_config`: the enabled steps of the day, without the
dependencies on steps that are not scheduled. -/
def stepsFromWorkflowConfig (workflow : List RawStep) (dates : DailyEffectiveDates) :
    List DailyStep :=
  let scheduled := workflow.filter fun raw =>
    raw.enabled && schedulePolicyMatches raw.schedulePolicy raw.rules dates
  scheduled.map fun raw =>
    { id := raw.id
      command := raw.command dates
      optional := raw.optional
      timeoutSeconds := raw.timeoutSeconds
      dependsOn := raw.dependsOn.filter fun dependency =>
        scheduled.any fun other => other.id == dependency.stepId
      stateKeyPolicy := raw.stateKeyPolicy
      resumePolicy := raw.resumePolicy }

/-- `{step.id: step for step in steps}`: the last step of an id. -/
def stepsById (steps : List DailyStep) (id : String) : Option DailyStep :=
  steps.reverse.find? fun step => step.id == id

theorem stepsById_of_nodup {steps : List DailyStep}
    (hdistinct : (steps.map DailyStep.id).Nodup) {step : DailyStep} (hstep : step ∈ steps) :
    stepsById steps step.id = some step := by
  obtain ⟨found, hfound⟩ : ∃ found, stepsById steps step.id = some found := by
    refine Option.isSome_iff_exists.mp ?_
    unfold stepsById
    rw [List.find?_isSome]
    exact ⟨step, List.mem_reverse.mpr hstep, by simp⟩
  have hid : found.id = step.id := by simpa using List.find?_some hfound
  have hmem : found ∈ steps := List.mem_reverse.mp (List.mem_of_find?_eq_some hfound)
  rw [hfound, List.inj_on_of_nodup_map hdistinct hmem hstep hid]

end QuantDataCenter.Orchestrator
