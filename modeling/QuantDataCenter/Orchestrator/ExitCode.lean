import QuantDataCenter.Orchestrator.DependencyGate

/-!
What the exit code of a daily run says about its steps, for workflows whose step ids
are distinct.
-/

set_option autoImplicit false
set_option relaxedAutoImplicit false

namespace QuantDataCenter.Orchestrator

open QuantDataCenter.Lib Call

/-- The step is not before the one the call starts at. -/
def Call.Reached (c : Call) (k : ℕ) : Prop :=
  ∀ id, c.resolveStartAt = some (some id) → id ∈ (c.steps.take (k + 1)).map DailyStep.id

def openStatuses : List StepStatus :=
  [.failed, .blocked, .abandoned, .failedResourceLocked, .failedTimeoutCleanup]

/-- A complete run, with `found` as the row of a step: every step that counts was run or
skipped as done, and nothing is left open. -/
structure CompleteRun (c : Call) (out : RunEnd) (found : Runs → DailyStep → Option StepRow) :
    Prop where
  done : ∀ k step, c.steps[k]? = some step → c.Reached k → step.optional = false →
    Event.returned k step 0 ∈ out.events ∨
      ∃ runs, Event.skipped k step runs ∈ out.events ∧ rowStatus (found runs step) = .success
  settled : ∀ step ∈ c.steps, rowStatus (found out.runs step) ∉ openStatuses

/-! The loop -/

namespace Call

variable {c : Call} {startAt : Option String} {k : ℕ} {started : Bool} {steps : List DailyStep}
  {runs : Runs} {failed : Option Int} {last : LoopEnd}

private theorem StepOutcome.ownRow_of_ne {step : DailyStep} {out : StepEnd}
    (hout : StepOutcome c k step runs out) {stepId : String} (hne : stepId ≠ step.id)
    (key : StateKey) : ownRow out.runs stepId key = ownRow runs stepId key := by
  cases hout with
  | skipped => rfl
  | raised => rfl
  | blocked hdue hrecord => exact ownRow_of_record_of_ne hrecord hne key
  | interrupted hdue hgate hrunning => exact ownRow_of_record_of_ne hrunning hne key
  | ran hdue hgate hrunning hrunner hrecord =>
    rw [ownRow_of_record_of_ne hrecord hne key]
    exact ownRow_of_record_of_ne hrunning hne key

private theorem Loop.ownRow_of_not_mem (h : Loop c startAt k started steps runs failed last)
    {stepId : String} (hnot : stepId ∉ steps.map DailyStep.id) (key : StateKey) :
    ownRow last.runs stepId key = ownRow runs stepId key := by
  induction h with
  | nil => rfl
  | unrecorded => exact ownRow_createStepRows
  | passedOver hpass hrecord rest ih =>
    rw [List.map_cons, List.mem_cons, not_or] at hnot
    refine (ih hnot.2).trans ?_
    rw [ownRow_of_record_of_ne hrecord hnot.1]
    exact ownRow_createStepRows
  | next hreached houtcome hverdict rest ih =>
    rw [List.map_cons, List.mem_cons, not_or] at hnot
    refine (ih hnot.2).trans ?_
    rw [houtcome.ownRow_of_ne hnot.1]
    exact ownRow_createStepRows
  | stop hreached houtcome =>
    rw [List.map_cons, List.mem_cons, not_or] at hnot
    rw [houtcome.ownRow_of_ne hnot.1]
    exact ownRow_createStepRows
  | raised hreached houtcome =>
    rw [List.map_cons, List.mem_cons, not_or] at hnot
    rw [houtcome.ownRow_of_ne hnot.1]
    exact ownRow_createStepRows

private theorem settle_verdict (c : Call) (k : ℕ) (step : DailyStep) (degraded : Option Reason)
    (code : Int) :
    (c.settle k step degraded code).2.2 = .next ∧ (code = 0 ∨ step.optional = true) ∧
        (c.settle k step degraded code).1 ∈
          [StepStatus.success, .successDegraded, .skipped, .skippedTimeout] ∨
      code ≠ 0 ∧ ((c.settle k step degraded code).2.2 = .stop code ∨
        (c.settle k step degraded code).2.2 = .failed code) := by
  unfold settle
  simp only
  split
  · rename_i hzero
    cases degraded <;> simp [hzero]
  · rename_i hcode
    split
    · simp [hcode]
    · split
      · simp [hcode]
      · split
        · rename_i hoptional
          split <;> simp [hoptional]
        · simp [hcode]

private theorem StepOutcome.verdict_ne_zero {step : DailyStep} {out : StepEnd}
    (hout : StepOutcome c k step runs out) {code : Int}
    (hverdict : out.verdict = .stop code ∨ out.verdict = .failed code) : code ≠ 0 := by
  cases hout with
  | skipped => simp at hverdict
  | raised => simp at hverdict
  | blocked => simp at hverdict
  | interrupted => simp at hverdict
  | @ran _ degraded _ result _ hdue hgate hrunning hrunner hrecord =>
    simp only at hverdict
    rcases settle_verdict c k step degraded result with ⟨hnext, -⟩ | ⟨hne, hstop | hfailed⟩
    · rw [hnext] at hverdict
      simp at hverdict
    · rw [hstop] at hverdict
      rcases hverdict with heq | heq
      · rw [← Verdict.stop.inj heq]
        exact hne
      · cases heq
    · rw [hfailed] at hverdict
      rcases hverdict with heq | heq
      · cases heq
      · rw [← Verdict.failed.inj heq]
        exact hne

private theorem Loop.failed_ne_zero (h : Loop c startAt k started steps runs failed last)
    (hfailed : ∀ code ∈ failed, code ≠ 0) : ∀ code ∈ last.failed, code ≠ 0 := by
  induction h with
  | nil => exact hfailed
  | unrecorded => exact hfailed
  | passedOver hpass hrecord rest ih => exact ih hfailed
  | @next k started step steps runs failed failed' out last hreached houtcome hverdict rest ih =>
    refine ih ?_
    rcases hverdict with ⟨-, rfl⟩ | ⟨code, hcode, rfl⟩
    · exact hfailed
    · cases failed with
      | none =>
        intro code' hcode'
        rw [← Option.some.inj hcode']
        exact houtcome.verdict_ne_zero (Or.inr hcode)
      | some code' => exact hfailed
  | @stop k started step steps runs failed out code hreached houtcome hverdict =>
    intro code' hcode'
    rw [← Option.some.inj hcode']
    split
    · exact houtcome.verdict_ne_zero (Or.inl hverdict)
    · assumption
  | raised => exact hfailed

private theorem Loop.failed_isSome (h : Loop c startAt k started steps runs failed last)
    (hfailed : failed ≠ none) : last.failed ≠ none := by
  induction h with
  | nil => exact hfailed
  | unrecorded => exact hfailed
  | passedOver hpass hrecord rest ih => exact ih hfailed
  | next hreached houtcome hverdict rest ih =>
    refine ih ?_
    rcases hverdict with ⟨-, rfl⟩ | ⟨code, -, rfl⟩
    · exact hfailed
    · simp
  | stop => simp
  | raised => exact hfailed

private theorem StepOutcome.returned_failure {step step' : DailyStep} {out : StepEnd} {k' : ℕ}
    {code : Int}
    (hout : StepOutcome c k step runs out) (hmem : Event.returned k' step' code ∈ out.events)
    (hcode : code ≠ 0) (hoptional : step'.optional = false) :
    out.verdict = .stop code ∨ out.verdict = .failed code := by
  cases hout with
  | skipped => simp at hmem
  | raised => cases hmem
  | blocked => simp at hmem
  | interrupted => simp at hmem
  | @ran _ degraded _ result _ hdue hgate hrunning hrunner hrecord =>
    simp only [List.mem_cons, List.not_mem_nil, or_false, reduceCtorEq, false_or] at hmem
    obtain ⟨-, rfl, rfl⟩ := Event.returned.inj hmem
    rcases settle_verdict c k step' degraded code with ⟨-, hzero | hoptional', -⟩ | ⟨-, hverdict⟩
    · exact absurd hzero hcode
    · rw [hoptional] at hoptional'
      cases hoptional'
    · exact hverdict

private theorem Loop.returned_failure (h : Loop c startAt k started steps runs failed last) {k' : ℕ}
    {step : DailyStep} {code : Int} (hmem : Event.returned k' step code ∈ last.events)
    (hcode : code ≠ 0) (hoptional : step.optional = false) : last.failed ≠ none := by
  induction h with
  | nil => cases hmem
  | unrecorded => cases hmem
  | passedOver hpass hrecord rest ih =>
    rcases List.mem_append.mp hmem with hhead | hlater
    · simp at hhead
    · exact ih hlater
  | next hreached houtcome hverdict rest ih =>
    rcases List.mem_append.mp hmem with hhead | hlater
    · refine rest.failed_isSome ?_
      rcases houtcome.returned_failure hhead hcode hoptional with hstop | hfailed
      · rcases hverdict with ⟨hnext, -⟩ | ⟨code', hfailed, -⟩
        · rw [hstop] at hnext
          cases hnext
        · rw [hstop] at hfailed
          cases hfailed
      · rcases hverdict with ⟨hnext, -⟩ | ⟨code', -, rfl⟩
        · rw [hfailed] at hnext
          cases hnext
        · simp
    · exact ih hlater
  | stop => simp
  | raised hreached houtcome hverdict =>
    rcases houtcome.returned_failure hmem hcode hoptional with heq | heq <;>
      · rw [hverdict] at heq
        cases heq

private theorem StepOutcome.next_cases {step : DailyStep} {out : StepEnd}
    (hout : StepOutcome c k step runs out) (hverdict : out.verdict = .next) :
    rowStatus (c.rowOf out.runs step) = .blocked ∨
      rowStatus (c.rowOf out.runs step) ∈
          [StepStatus.success, .successDegraded, .skipped, .skippedTimeout] ∧
        (step.optional = false → Event.returned k step 0 ∈ out.events ∨
          ∃ before, Event.skipped k step before ∈ out.events ∧
            rowStatus (c.rowOf before step) = .success) := by
  cases hout with
  | skipped hresumes hsuccess =>
    refine Or.inr ⟨by rw [hsuccess]; simp, fun _ => Or.inr ⟨runs, by simp, hsuccess⟩⟩
  | raised => cases hverdict
  | blocked hdue hrecord =>
    obtain ⟨row, hrow, hstatus, -⟩ := rowOf_of_record hrecord
    refine Or.inl ?_
    rw [hrow]
    exact hstatus
  | interrupted => cases hverdict
  | @ran _ degraded _ result _ hdue hgate hrunning hrunner hrecord =>
    obtain ⟨row, hrow, hstatus, -⟩ := rowOf_of_record hrecord
    right
    simp only at hverdict ⊢
    rcases settle_verdict c k step degraded result with ⟨-, hcode, hmem⟩ | ⟨-, hstop | hfailed⟩
    · refine ⟨?_, fun hoptional => Or.inl ?_⟩
      · rw [hrow]
        show row.status ∈ _
        rw [hstatus]
        exact hmem
      · rcases hcode with rfl | hoptional'
        · simp
        · rw [hoptional] at hoptional'
          cases hoptional'
    · rw [hverdict] at hstop
      cases hstop
    · rw [hverdict] at hfailed
      cases hfailed

/-- The position is not before the first step to run. -/
private def ReachedFrom (startAt : Option String) (started : Bool) (steps : List DailyStep) (i : ℕ) :
    Prop :=
  started = true ∨ ∀ id, startAt = some id → id ∈ (steps.take (i + 1)).map DailyStep.id

/-- A loop that ends without a failure has treated every step. -/
private theorem Loop.complete (h : Loop c startAt k started steps runs failed last)
    (hdistinct : (steps.map DailyStep.id).Nodup) (hstarted : started = false → startAt ≠ none)
    (hraised : last.raised = false) (hfailed : last.failed = none) {i : ℕ} {step : DailyStep}
    (hstep : steps[i]? = some step) :
    rowStatus (c.rowOf last.runs step) = .blocked ∨
      rowStatus (c.rowOf last.runs step) ∈
          [StepStatus.success, .successDegraded, .skipped, .skippedTimeout] ∧
        (ReachedFrom startAt started steps i → step.optional = false →
          Event.returned (k + i) step 0 ∈ last.events ∨
          ∃ before, Event.skipped (k + i) step before ∈ last.events ∧
            rowStatus (c.rowOf before step) = .success) := by
  induction h generalizing i with
  | nil => simp at hstep
  | unrecorded => cases hraised
  | @passedOver k started head steps runs runs' failed last hpass hrecord rest ih =>
    rw [List.map_cons, List.nodup_cons] at hdistinct
    cases i with
    | zero =>
      obtain rfl : head = step := by simpa using hstep
      obtain ⟨row, hrow, hstatus, -⟩ := rowOf_of_record hrecord
      have hkept : c.rowOf last.runs head = c.rowOf runs' head :=
        stepRowForKey_congr fun key => rest.ownRow_of_not_mem hdistinct.1 key
      refine Or.inr ⟨?_, fun hreached => ?_⟩
      · show rowStatus (c.rowOf last.runs head) ∈ _
        rw [hkept, hrow]
        show row.status ∈ _
        rw [hstatus]
        simp
      · -- the first step to run comes later
        exfalso
        rcases hreached with hyes | hin
        · rw [hpass.1] at hyes
          cases hyes
        · obtain ⟨id, hid⟩ := Option.ne_none_iff_exists'.mp (hstarted hpass.1)
          have hmem := hin id hid
          simp only [List.take_succ_cons, List.take_zero, List.map_cons, List.map_nil,
            List.mem_singleton] at hmem
          exact hpass.2 (by rw [hid, hmem])
    | succ i =>
      have hstep' : steps[i]? = some step := by simpa using hstep
      rcases ih hdistinct.2 (fun _ => hstarted hpass.1) hraised hfailed hstep' with
        hblocked | ⟨hstatus, hdone⟩
      · exact Or.inl hblocked
      · refine Or.inr ⟨hstatus, fun hreached hoptional => ?_⟩
        have hreached' : ReachedFrom startAt false steps i := by
          rcases hreached with hyes | hin
          · rw [hpass.1] at hyes
            cases hyes
          · refine Or.inr fun id hid => ?_
            have hmem := hin id hid
            rw [List.take_succ_cons, List.map_cons, List.mem_cons] at hmem
            rcases hmem with heq | hmem
            · exact absurd (by rw [hid, heq]) hpass.2
            · exact hmem
        rw [show k + (i + 1) = k + 1 + i by omega]
        rcases hdone hreached' hoptional with hreturned | ⟨before, hskipped, hsuccess⟩
        · exact Or.inl (List.mem_append_right _ hreturned)
        · exact Or.inr ⟨before, List.mem_append_right _ hskipped, hsuccess⟩
  | @next k started head steps runs failed failed' out last hreached houtcome hverdict rest ih =>
    rw [List.map_cons, List.nodup_cons] at hdistinct
    have hnext : out.verdict = .next := by
      rcases hverdict with ⟨hnext, -⟩ | ⟨code, -, rfl⟩
      · exact hnext
      · exact absurd hfailed (rest.failed_isSome (by simp))
    cases i with
    | zero =>
      obtain rfl : head = step := by simpa using hstep
      have hkept : c.rowOf last.runs head = c.rowOf out.runs head :=
        stepRowForKey_congr fun key => rest.ownRow_of_not_mem hdistinct.1 key
      show rowStatus (c.rowOf last.runs head) = _ ∨ rowStatus (c.rowOf last.runs head) ∈ _ ∧ _
      rw [hkept]
      rcases houtcome.next_cases hnext with hblocked | ⟨hstatus, hdone⟩
      · exact Or.inl hblocked
      · refine Or.inr ⟨hstatus, fun _ hoptional => ?_⟩
        rcases hdone hoptional with hreturned | ⟨before, hskipped, hsuccess⟩
        · exact Or.inl (List.mem_append_left _ hreturned)
        · exact Or.inr ⟨before, List.mem_append_left _ hskipped, hsuccess⟩
    | succ i =>
      have hstep' : steps[i]? = some step := by simpa using hstep
      rcases ih hdistinct.2 (fun h => by cases h) hraised hfailed hstep' with
        hblocked | ⟨hstatus, hdone⟩
      · exact Or.inl hblocked
      · refine Or.inr ⟨hstatus, fun _ hoptional => ?_⟩
        rw [show k + (i + 1) = k + 1 + i by omega]
        rcases hdone (Or.inl rfl) hoptional with hreturned | ⟨before, hskipped, hsuccess⟩
        · exact Or.inl (List.mem_append_right _ hreturned)
        · exact Or.inr ⟨before, List.mem_append_right _ hskipped, hsuccess⟩
  | stop => cases hfailed
  | raised => cases hraised

private theorem finalExitCode_zero (hdistinct : (c.steps.map DailyStep.id).Nodup)
    (hstatus : ∀ step ∈ c.steps, rowStatus (c.rowOf runs step) = .blocked ∨
      rowStatus (c.rowOf runs step) ∈
        [StepStatus.success, .successDegraded, .skipped, .skippedTimeout])
    (hzero : c.finalExitCode runs none = some 0) :
    ∀ step ∈ c.steps, rowStatus (c.rowOf runs step) ≠ .blocked := by
  have hrow : ∀ step ∈ c.steps, (stepsById c.steps step.id).bind (c.rowOf runs) = c.rowOf runs step := by
    intro step hstep
    rw [stepsById_of_nodup hdistinct hstep, Option.bind_some]
  unfold finalExitCode at hzero
  simp only at hzero
  split at hzero
  case h_1 step hfind =>
    have hmem := List.mem_of_find?_eq_some hfind
    have hbad := List.find?_some hfind
    rw [decide_eq_true_eq, hrow step hmem] at hbad
    rcases hstatus step hmem with hblocked | hgood
    · rw [hblocked] at hbad
      simp at hbad
    · exfalso
      simp only [List.mem_cons, List.not_mem_nil, or_false] at hbad hgood
      rcases hbad with heq | heq | heq | heq <;>
        · rw [heq] at hgood
          simp at hgood
  case h_2 =>
    intro step hstep hblocked
    have hany : (c.steps.any fun step =>
        rowStatus ((stepsById c.steps step.id).bind (c.rowOf runs)) = .blocked) = true := by
      rw [List.any_eq_true]
      exact ⟨step, hstep, by rw [hrow step hstep]; simpa using hblocked⟩
    rw [if_pos hany] at hzero
    cases hzero

end Call

/-- With distinct step ids exit code 0 means a complete run, and a failure of a step that
is not optional is never answered with 0. -/
theorem exit_zero_complete (c : Call) (file : StateFile)
    (hdistinct : (c.steps.map DailyStep.id).Nodup) :
    ((runDailyUpdate c file).exitCode = some 0 → CompleteRun c (runDailyUpdate c file) c.rowOf) ∧
      ∀ k step code, Event.returned k step code ∈ (runDailyUpdate c file).events → code ≠ 0 →
        step.optional = false → (runDailyUpdate c file).exitCode ≠ some 0 := by
  rcases runDailyUpdate_cases c file with ⟨hcode, hnil⟩ | ⟨startAt, state, last, hstart, -, hloop,
    hruns, hcode, before, after, hevents, hbefore, hafter⟩
  · constructor
    · intro hzero
      rw [hcode] at hzero
      cases hzero
    · intro k step code hmem
      rw [hnil] at hmem
      cases hmem
  · -- exit code 0 leaves no failure behind
    have hclean : (runDailyUpdate c file).exitCode = some 0 →
        last.raised = false ∧ last.failed = none := by
      intro hzero
      rw [hcode] at hzero
      cases hraised : last.raised with
      | true =>
        rw [hraised] at hzero
        cases hzero
      | false =>
        rw [hraised] at hzero
        refine ⟨rfl, ?_⟩
        cases hfailed : last.failed with
        | none => rfl
        | some code =>
          have hne := hloop.failed_ne_zero (by simp) code hfailed
          rw [hfailed] at hzero
          exact absurd (Option.some.inj hzero) hne
    constructor
    · intro hzero
      obtain ⟨hraised, hfailed⟩ := hclean hzero
      have hstarted : startAt.isNone = false → startAt ≠ none := by
        intro hsome hnone
        rw [hnone] at hsome
        cases hsome
      have hall := fun i step (hstep : c.steps[i]? = some step) =>
        hloop.complete hdistinct hstarted hraised hfailed hstep
      rw [hcode, hraised, hfailed] at hzero
      have hunblocked := finalExitCode_zero hdistinct (fun step hstep => by
        obtain ⟨i, hi⟩ := List.getElem?_of_mem hstep
        exact (hall i step hi).imp_right And.left) hzero
      have hgood : ∀ i step, c.steps[i]? = some step → rowStatus (c.rowOf last.runs step) ∈
          [StepStatus.success, .successDegraded, .skipped, .skippedTimeout] ∧
          (ReachedFrom startAt startAt.isNone c.steps i → step.optional = false →
            Event.returned i step 0 ∈ last.events ∨ ∃ before, Event.skipped i step before ∈
              last.events ∧ rowStatus (c.rowOf before step) = .success) := by
        intro i step hstep
        rcases hall i step hstep with hblocked | hgood
        · exact absurd hblocked (hunblocked step (List.mem_of_getElem? hstep))
        · rw [Nat.zero_add] at hgood
          exact hgood
      have hsub : ∀ e ∈ last.events, e ∈ (runDailyUpdate c file).events := by
        intro e he
        rw [hevents]
        exact List.mem_append_left _ (List.mem_append_right _ he)
      refine ⟨fun k step hstep hreached hoptional => ?_, fun step hstep => ?_⟩
      · have hreached' : ReachedFrom startAt startAt.isNone c.steps k := by
          refine Or.inr fun id hid => hreached id ?_
          rw [hstart, hid]
        rcases (hgood k step hstep).2 hreached' hoptional with hreturned | ⟨runs, hskipped, hsuccess⟩
        · exact Or.inl (hsub _ hreturned)
        · exact Or.inr ⟨runs, hsub _ hskipped, hsuccess⟩
      · obtain ⟨i, hi⟩ := List.getElem?_of_mem hstep
        have hstatus := (hgood i step hi).1
        rw [hruns]
        simp only [List.mem_cons, List.not_mem_nil, or_false] at hstatus
        rcases hstatus with heq | heq | heq | heq <;> rw [heq] <;> decide
    · intro k step code hmem hne hoptional hzero
      have hlast : Event.returned k step code ∈ last.events := by
        rw [hevents] at hmem
        rcases List.mem_append.mp hmem with hmem | hmem
        · rcases List.mem_append.mp hmem with hmem | hmem
          · rcases hbefore with rfl | rfl <;> simp at hmem
          · exact hmem
        · rcases hafter with rfl | rfl <;> simp at hmem
      exact hloop.returned_failure hlast hne hoptional (hclean hzero).2

/-- Two steps, the first of them done before: the call returns 0 and is complete. -/
theorem exit_zero_complete_resumed :
    let c := sampleCall [{ id := "a", command := ["a"] }, { id := "b", command := ["b"] }] none 0
    CompleteRun c (runDailyUpdate c (sampleFile "a" .success)) c.rowOf :=
  (exit_zero_complete _ (sampleFile "a" .success) (by decide)).1 (by decide)

def legacyFile : StateFile :=
  .parsed ⟨true, [(.legacyDate 19727, .steps [("a", .row { status := .success })])]⟩

/-- A success under the older spelling of the date is taken for one under the key itself. -/
theorem exit_zero_legacy_row :
    let c := sampleCall [{ id := "a", command := ["a"] }] none 0
    (runDailyUpdate c legacyFile).exitCode = some 0 ∧
      ¬CompleteRun c (runDailyUpdate c legacyFile)
        (fun runs step => ownRow runs step.id (c.keyOf step)) := by
  refine ⟨by decide, fun hcomplete => ?_⟩
  rcases hcomplete.done 0 _ rfl (fun id hid => by cases hid) rfl with hreturned | ⟨runs, hskipped, hrow⟩
  · exact absurd hreturned (by decide)
  · have hruns : runs = createStepRows [(.legacyDate 19727, .steps [("a", .row { status := .success })])]
        (.naturalDate 19727) := by
      have hevents : (runDailyUpdate (sampleCall [{ id := "a", command := ["a"] }] none 0)
          legacyFile).events = [.skipped 0 { id := "a", command := ["a"] } (createStepRows
            [(.legacyDate 19727, .steps [("a", .row { status := .success })])]
            (.naturalDate 19727))] := by decide
      rw [hevents] at hskipped
      exact (Event.skipped.inj (List.mem_singleton.mp hskipped)).2.2
    rw [hruns] at hrow
    exact absurd hrow (by decide)

end QuantDataCenter.Orchestrator
