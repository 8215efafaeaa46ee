import QuantDataCenter.Orchestrator.DailyRun

/-!
The dependency gate of the daily workflow: what the dependencies of a step have
reached when its runner starts, and when its success is a plain one.
-/

set_option autoImplicit false
set_option relaxedAutoImplicit false

namespace QuantDataCenter.Orchestrator

open QuantDataCenter.Lib Call

/-- What a call guarantees of the dependencies in `judged`, from its events alone. -/
structure DependencyGate (c : Call) (events : List Event)
    (judged : DailyStep → DailyDependency → Prop) : Prop where
  /-- The runner starts only on satisfied hard dependencies. -/
  hard : ∀ k step command running, Event.invoked k step command running ∈ events →
    c.steps[k]? = some step ∧ ∀ dependency ∈ step.dependsOn, judged step dependency →
      dependency.soft = false →
        c.dependencyStatus running dependency ∈ satisfiedDependencyStatuses
  /-- A plain success follows an invocation on satisfied dependencies, none of them degraded. -/
  plain : ∀ k step running, Event.recorded k step .success running ∈ events →
    (∃ command, Event.invoked k step command running ∈ events) ∧
      ∀ dependency ∈ step.dependsOn, judged step dependency →
        c.dependencyStatus running dependency ∈ satisfiedDependencyStatuses ∧
          c.dependencyStatus running dependency ≠ .successDegraded
  /-- Only a step whose row says plain success is skipped as done. -/
  resumed : ∀ k step runs, Event.skipped k step runs ∈ events →
    rowStatus (c.rowOf runs step) = .success

/-- The dependencies of a step on other steps. -/
def OnOther (step : DailyStep) (dependency : DailyDependency) : Prop := dependency.stepId ≠ step.id

variable {c : Call} {k : ℕ} {step : DailyStep} {runs running : Runs}

/-- Marking a step as running does not change what the gate has seen of the others. -/
private theorem dependencyStatus_running {dependency : DailyDependency}
    (hrunning : c.record k step .running .missing [] none runs = some running)
    (hother : OnOther step dependency) :
    c.dependencyStatus running dependency = c.dependencyStatus runs dependency := by
  unfold dependencyStatus
  rw [stepRowForKey_congr (ownRow_of_record_of_ne hrunning hother)]

theorem settle_success {degraded : Option Reason} {code : Int}
    (h : (c.settle k step degraded code).1 = .success) : code = 0 ∧ degraded = none := by
  unfold settle at h
  simp only at h
  split at h
  · rename_i hzero
    cases degraded with
    | none => exact ⟨hzero, rfl⟩
    | some reason => cases h
  · split at h
    · dsimp only at h
      split at h <;> cases h
    · split at h
      · dsimp only at h
        split at h <;> cases h
      · split at h
        · dsimp only at h
          split at h <;> cases h
        · cases h

private theorem invoked_of_outcome {out : StepEnd} {k' : ℕ} {step' : DailyStep}
    {command : List String} (hout : StepOutcome c k step runs out)
    (hmem : Event.invoked k' step' command running ∈ out.events) :
    k' = k ∧ step' = step ∧ ∃ degraded, Gate c step runs degraded ∧
      c.record k step .running .missing [] none runs = some running := by
  cases hout with
  | skipped => simp at hmem
  | raised => cases hmem
  | blocked => simp at hmem
  | interrupted hdue hgate hrunning hrunner =>
    simp only [List.mem_cons, List.not_mem_nil, or_false, reduceCtorEq, false_or] at hmem
    obtain ⟨rfl, rfl, -, rfl⟩ := Event.invoked.inj hmem
    exact ⟨rfl, rfl, _, hgate, hrunning⟩
  | ran hdue hgate hrunning hrunner hrecord =>
    simp only [List.mem_cons, List.not_mem_nil, or_false, reduceCtorEq, false_or] at hmem
    obtain ⟨rfl, rfl, -, rfl⟩ := Event.invoked.inj hmem
    exact ⟨rfl, rfl, _, hgate, hrunning⟩

private theorem recorded_of_outcome {out : StepEnd} {k' : ℕ} {step' : DailyStep}
    (hout : StepOutcome c k step runs out)
    (hmem : Event.recorded k' step' .success running ∈ out.events) :
    k' = k ∧ step' = step ∧ Gate c step runs none ∧
      c.record k step .running .missing [] none runs = some running ∧
      ∃ command, Event.invoked k step command running ∈ out.events := by
  cases hout with
  | skipped => simp at hmem
  | raised => cases hmem
  | blocked => simp at hmem
  | interrupted => simp at hmem
  | ran hdue hgate hrunning hrunner hrecord =>
    simp only [List.mem_cons, List.not_mem_nil, or_false, reduceCtorEq, false_or] at hmem
    obtain ⟨rfl, rfl, hstatus, rfl⟩ := Event.recorded.inj hmem
    obtain ⟨-, rfl⟩ := settle_success hstatus.symm
    exact ⟨rfl, rfl, hgate, hrunning, _, List.mem_cons_of_mem _ List.mem_cons_self⟩

private theorem fromStep_of_mem {file : StateFile} {event : Event}
    (hevent : event ∈ (runDailyUpdate c file).events) (hwrote : ∀ runs, event ≠ .wrote runs)
    (hpassed : ∀ j step, event ≠ .passedOver j step) :
    FromStep c 0 c.steps (runDailyUpdate c file).events event := by
  rcases runDailyUpdate_cases c file with ⟨-, hnil⟩ | ⟨startAt, state, last, -, -, hloop, -, -,
    before, after, hevents, hbefore, hafter⟩
  · rw [hnil] at hevent
    cases hevent
  · rw [hevents] at hevent ⊢
    have hlast : event ∈ last.events := by
      rcases List.mem_append.mp hevent with hevent | hevent
      · rcases List.mem_append.mp hevent with hevent | hevent
        · rcases hbefore with rfl | rfl
          · cases hevent
          · exact absurd (List.mem_singleton.mp hevent) (hwrote _)
        · exact hevent
      · rcases hafter with rfl | rfl
        · cases hevent
        · exact absurd (List.mem_singleton.mp hevent) (hwrote _)
    rcases hloop.fromStep hlast with ⟨j, step, rfl⟩ | ⟨i, step, runs, out, hstep, hout, hmem, hsub⟩
    · exact absurd rfl (hpassed j step)
    · exact ⟨i, step, runs, out, hstep, hout, hmem, fun e he =>
        List.mem_append_left _ (List.mem_append_right _ (hsub he))⟩

/-- Every call, on every state file, starts its runners and records its successes behind
the gate. -/
theorem dependency_gate (c : Call) (file : StateFile) :
    DependencyGate c (runDailyUpdate c file).events OnOther := by
  refine ⟨fun k step command running hmem => ?_, fun k step running hmem => ?_,
    fun k step runs hmem => ?_⟩
  · obtain ⟨i, step', runs, out, hstep, hout, hmem', -⟩ :=
      fromStep_of_mem hmem (fun _ => by simp) (fun _ _ => by simp)
    obtain ⟨rfl, rfl, degraded, hgate, hrunning⟩ := invoked_of_outcome hout hmem'
    rw [Nat.zero_add]
    refine ⟨hstep, fun dependency hdep hother hhard => ?_⟩
    rw [dependencyStatus_running hrunning hother]
    exact hgate.hard dependency hdep hhard
  · obtain ⟨i, step', runs, out, hstep, hout, hmem', hsub⟩ :=
      fromStep_of_mem hmem (fun _ => by simp) (fun _ _ => by simp)
    obtain ⟨rfl, rfl, hgate, hrunning, command, hinvoked⟩ := recorded_of_outcome hout hmem'
    refine ⟨⟨command, hsub hinvoked⟩, fun dependency hdep hother => ?_⟩
    rw [dependencyStatus_running hrunning hother]
    exact hgate.plain rfl dependency hdep
  · obtain ⟨i, step', runs', out, hstep, hout, hmem', -⟩ :=
      fromStep_of_mem hmem (fun _ => by simp) (fun _ _ => by simp)
    cases hout with
    | skipped hresumes hsuccess =>
      obtain ⟨-, rfl, rfl⟩ := Event.skipped.inj (List.mem_singleton.mp hmem')
      exact hsuccess
    | raised => cases hmem'
    | blocked => simp at hmem'
    | interrupted => simp at hmem'
    | ran => simp at hmem'

/-! The limits of the gate: a step that depends on itself, and `--start-at` -/

def sampleDates : DailyEffectiveDates := ⟨19727, 19727, 19727, 19697, false⟩

/-- A call in which every runner returns the code and the clock stands still. -/
def sampleCall (steps : List DailyStep) (startAt : Option String) (code : Int) : Call where
  steps := steps
  dates := sampleDates
  runInstance := 0
  startAt := startAt
  pid := 7
  pidAlive _ := false
  checkedAt := 0
  startedAt _ := 0
  runner _ := some code
  duckdbAvailable _ := true

/-- A state file with one row under the natural date. -/
def sampleFile (stepId : String) (status : StepStatus) : StateFile :=
  .parsed ⟨true, [(.naturalDate 19727, .steps [(stepId, .row { status := status })])]⟩

def selfDependent : DailyStep :=
  { id := "views", command := ["build-duckdb-views"], resumePolicy := .alwaysRun,
    dependsOn := [{ stepId := "views" }] }

/-- A step that depends on itself is running when its runner starts, and `--start-at`
passes over a step whose success was degraded. -/
theorem dependency_gate_limits :
    ¬DependencyGate (sampleCall [selfDependent] none 0)
        (runDailyUpdate (sampleCall [selfDependent] none 0) (sampleFile "views" .success)).events
        (fun _ _ => True) ∧
      (let steps : List DailyStep := [{ id := "a", command := ["a"] }, { id := "b", command := ["b"] }]
       Event.passedOver 0 { id := "a", command := ["a"] } ∈
          (runDailyUpdate (sampleCall steps (some "b") 0) (sampleFile "a" .successDegraded)).events ∧
        (runDailyUpdate (sampleCall steps (some "b") 0) (sampleFile "a" .successDegraded)).exitCode =
          some 0) := by
  constructor
  · intro hgate
    have hinvoked : ∃ running, Event.invoked 0 selfDependent ["build-duckdb-views"] running ∈
        (runDailyUpdate (sampleCall [selfDependent] none 0) (sampleFile "views" .success)).events ∧
        (sampleCall [selfDependent] none 0).dependencyStatus running { stepId := "views" } =
          .running := by
      refine ⟨_, List.mem_cons_of_mem _ List.mem_cons_self, by decide⟩
    obtain ⟨running, hmem, hstatus⟩ := hinvoked
    have hsatisfied := (hgate.hard 0 _ _ _ hmem).2 { stepId := "views" } (by decide) trivial rfl
    rw [hstatus] at hsatisfied
    exact absurd hsatisfied (by decide)
  · decide

end QuantDataCenter.Orchestrator
