import QuantDataCenter.Orchestrator.Resume

/-!
Is a step that counts as done built from the last successful run of its upstream?
Two steps of one workflow are followed over any calls on one state file, from a file
that does not exist yet.
-/

set_option autoImplicit false
set_option relaxedAutoImplicit false

namespace QuantDataCenter.Orchestrator

open QuantDataCenter.Lib Call

/-- The invocations that returned 0, the newest first. -/
abbrev Zeros := List (StateKey × String)

structure Traced where
  world : World
  zeros : Zeros

def Call.zerosOf (c : Call) : Act → Zeros
  | .did (.returned _ step code) => if code = 0 then [(c.keyOf step, step.id)] else []
  | _ => []

def Call.traceAct (c : Call) (t : Traced) (a : Act) : Traced :=
  ⟨c.act t.world a, c.zerosOf a ++ t.zeros⟩

def Attempt.trace (t : Traced) (attempt : Attempt) : Traced :=
  ((attempt.call.acts t.world.file).take attempt.cut).foldl attempt.call.traceAct t

def newest (zeros : Zeros) (a b : StateKey × String) : Option (StateKey × String) :=
  zeros.find? fun zero => zero = a ∨ zero = b

/-- An ordinary call on the workflow: its steps of the day, without any of the options
that override the state file. -/
structure Ordinary (workflow : List RawStep) (c : Call) : Prop where
  steps : c.steps = stepsFromWorkflowConfig workflow c.dates
  startAt : c.startAt = none
  force : c.force = false
  ignoreState : c.ignoreState = false

def RawStep.scheduled (raw : RawStep) (dates : DailyEffectiveDates) : Bool :=
  raw.enabled && schedulePolicyMatches raw.schedulePolicy raw.rules dates

def StateKey.policy : StateKey → Option StateKeyPolicy
  | .naturalDate _ => some .naturalDate
  | .marketDate _ => some .marketDate
  | .runInstance _ => some .runInstance
  | _ => none

/-- Step `d` is recorded by the policy, and a call that runs `s` with result 0 under the one key makes
it depend on `d` under the other. -/
structure Linked (c : Call) (s d : String) (policy : StateKeyPolicy) (ks kd : StateKey) : Prop where
  startAt : c.startAt = none
  force : c.force = false
  ignoreState : c.ignoreState = false
  upstream : ∀ step ∈ c.steps, step.id = d → step.stateKeyPolicy = policy ∧
    step.resumePolicy = .skipIfSuccess ∧ step.optional = false
  downstream : ∀ k step, c.steps[k]? = some step → step.id = s → c.runner k = some 0 →
    c.keyOf step = ks → stateKeyForPolicy policy c.dates c.runInstance = kd ∧
      ∃ dependency ∈ step.dependsOn, dependency.stepId = d

/-- Where `s` counts as done under its key, so does `d` under its own, and the newest success is that
of `s`. -/
structure Ordered (s d : String) (policy : StateKeyPolicy) (ks kd : StateKey) (runs : Runs)
    (zeros : Zeros) : Prop where
  plain : ∀ stepId key, key.policy = none → ownRow runs stepId key = none
  upstream : ∀ key row, ownRow runs d key = some row → key.policy = some policy ∧
    row.status ∉ [StepStatus.skipped, .skippedCheckpoint]
  ordered : rowStatus (ownRow runs s ks) = .success →
    rowStatus (ownRow runs d kd) = .success ∧ newest zeros (ks, s) (kd, d) = some (ks, s)

namespace Call

variable {c : Call} {k : ℕ} {step : DailyStep} {runs runs' : Runs} {t : Traced} {zeros : Zeros}
  {s d : String} {policy : StateKeyPolicy} {ks kd : StateKey}

private theorem policy_stateKeyForPolicy (policy : StateKeyPolicy) (dates : DailyEffectiveDates)
    (runInstance : Int) : (stateKeyForPolicy policy dates runInstance).policy = some policy := by
  cases policy <;> rfl

private theorem policy_keyOf (step : DailyStep) :
    (c.keyOf step).policy = some step.stateKeyPolicy :=
  policy_stateKeyForPolicy ..

private theorem stepRowForKey_of_plain
    (hplain : ∀ stepId key, key.policy = none → ownRow runs stepId key = none)
    (stepId : String) (key : StateKey) : stepRowForKey runs stepId key = ownRow runs stepId key := by
  rw [stepRowForKey_eq]
  cases hlegacy : key.legacy with
  | none => rw [Option.bind_none, Option.or_none]
  | some old =>
    have hold : old.policy = none := by
      cases key <;> cases hlegacy
      rfl
    rw [Option.bind_some, hplain stepId old hold, Option.or_none]

/-! What keeps the order -/

theorem Ordered.created (h : Ordered s d policy ks kd runs zeros) (key : StateKey) :
    Ordered s d policy ks kd (createStepRows runs key) zeros where
  plain stepId key' hnone := by
    rw [ownRow_createStepRows]
    exact h.plain stepId key' hnone
  upstream key' row hrow := by
    rw [ownRow_createStepRows] at hrow
    exact h.upstream key' row hrow
  ordered hsuccess := by
    rw [ownRow_createStepRows] at hsuccess ⊢
    exact h.ordered hsuccess

private theorem markRow_of_success {now activePid : Int} {pidAlive : Int → Bool} {row : StepRow}
    (h : row.status = .success) : markRow now activePid pidAlive row = row := by
  unfold markRow
  rw [if_neg (by simp [h])]

private theorem markRow_status (now activePid : Int) (pidAlive : Int → Bool) (row : StepRow) :
    (markRow now activePid pidAlive row).status = row.status ∨
      (markRow now activePid pidAlive row).status = .abandoned := by
  unfold markRow
  split
  · split
    · exact Or.inl rfl
    · exact Or.inr rfl
  · exact Or.inl rfl

theorem Ordered.markAbandoned (h : Ordered s d policy ks kd runs zeros) (now activePid : Int)
    (pidAlive : Int → Bool) : Ordered s d policy ks kd (markAbandoned now activePid pidAlive runs) zeros where
  plain stepId key hnone := by
    rw [ownRow_markAbandoned, h.plain stepId key hnone]
    rfl
  upstream key row hrow := by
    rw [ownRow_markAbandoned, Option.map_eq_some_iff] at hrow
    obtain ⟨before, hbefore, rfl⟩ := hrow
    obtain ⟨hpolicy, hstatus⟩ := h.upstream key before hbefore
    refine ⟨hpolicy, ?_⟩
    rcases markRow_status now activePid pidAlive before with heq | heq
    · rw [heq]
      exact hstatus
    · rw [heq]
      decide
  ordered hsuccess := by
    have hback : rowStatus (ownRow runs s ks) = .success := by
      rw [ownRow_markAbandoned] at hsuccess
      cases hrow : ownRow runs s ks with
      | none =>
        rw [hrow] at hsuccess
        exact hsuccess
      | some row =>
        rw [hrow] at hsuccess
        exact markRow_success hsuccess
    obtain ⟨hd, hnewest⟩ := h.ordered hback
    refine ⟨?_, hnewest⟩
    rw [ownRow_markAbandoned]
    cases hrow : ownRow runs d kd with
    | none =>
      rw [hrow] at hd
      cases hd
    | some row =>
      rw [hrow] at hd
      rw [Option.map_some, markRow_of_success hd]
      exact hd

/-- A record keeps the order if it does not take the success of `d` from under one of `s`. -/
theorem Ordered.record {status : StepStatus} {exitCode : RowExitCode} {blockedBy : List String}
    {reason : Option Reason} (h : Ordered s d policy ks kd runs zeros)
    (hrecord : c.record k step status exitCode blockedBy reason runs = some runs')
    (hupstream : step.id = d → step.stateKeyPolicy = policy ∧
      status ∉ [StepStatus.skipped, .skippedCheckpoint] ∧
        (c.keyOf step = kd → (ks, s) ≠ (kd, d) → rowStatus (ownRow runs s ks) ≠ .success))
    (hdownstream : step.id = s → c.keyOf step = ks → status = .success →
      newest zeros (ks, s) (kd, d) = some (ks, s) ∧
        ((ks, s) ≠ (kd, d) → rowStatus (ownRow runs d kd) = .success)) :
    Ordered s d policy ks kd runs' zeros := by
  obtain ⟨recorded, hown, hstatus, -⟩ := ownRow_of_recordStep hrecord
  have hother : ∀ {stepId key}, ¬(key = c.keyOf step ∧ stepId = step.id) →
      ownRow runs' stepId key = ownRow runs stepId key :=
    fun hne => ownRow_of_recordStep_of_ne hrecord hne
  refine ⟨fun stepId key hnone => ?_, fun key row hrow => ?_, fun hsuccess => ?_⟩
  · rw [hother fun heq => ?_]
    · exact h.plain stepId key hnone
    · rw [heq.1, policy_keyOf] at hnone
      cases hnone
  · by_cases heq : key = c.keyOf step ∧ d = step.id
    · obtain ⟨rfl, hd⟩ := heq
      obtain ⟨hpolicy, hskipped, -⟩ := hupstream hd.symm
      rw [hd, hown] at hrow
      rw [policy_keyOf, hpolicy, ← Option.some.inj hrow, hstatus]
      exact ⟨rfl, hskipped⟩
    · rw [hother heq] at hrow
      exact h.upstream key row hrow
  · by_cases heq : ks = c.keyOf step ∧ s = step.id
    · have hplain : status = .success := by
        rw [heq.1, heq.2, hown] at hsuccess
        exact hstatus.symm.trans hsuccess
      obtain ⟨hnewest, hd⟩ := hdownstream heq.2.symm heq.1.symm hplain
      refine ⟨?_, hnewest⟩
      by_cases hpair : (ks, s) = (kd, d)
      · obtain ⟨rfl, rfl⟩ := Prod.mk.inj hpair
        exact hsuccess
      · rw [hother fun heqd => hpair (by rw [heq.1, heq.2, heqd.1, heqd.2])]
        exact hd hpair
    · rw [hother heq] at hsuccess
      obtain ⟨hd, hnewest⟩ := h.ordered hsuccess
      refine ⟨?_, hnewest⟩
      by_cases heqd : kd = c.keyOf step ∧ d = step.id
      · have hpair : (ks, s) ≠ (kd, d) := by
          intro hpair
          obtain ⟨hkey, hid⟩ := Prod.mk.inj hpair
          exact heq ⟨hkey.trans heqd.1, hid.trans heqd.2⟩
        exact absurd hsuccess ((hupstream heqd.2.symm).2.2 heqd.1.symm hpair)
      · rw [hother heqd]
        exact hd

theorem Ordered.note {code : Int} (h : Ordered s d policy ks kd runs zeros)
    (hupstream : step.id = d → c.keyOf step = kd → (ks, s) ≠ (kd, d) →
      rowStatus (ownRow runs s ks) ≠ .success) :
    Ordered s d policy ks kd runs (c.zerosOf (.did (.returned k step code)) ++ zeros) := by
  refine ⟨h.plain, h.upstream, fun hsuccess => ?_⟩
  obtain ⟨hd, hnewest⟩ := h.ordered hsuccess
  refine ⟨hd, ?_⟩
  show newest ((if code = 0 then [(c.keyOf step, step.id)] else []) ++ zeros) _ _ = _
  split
  · unfold newest at hnewest ⊢
    rw [List.cons_append, List.nil_append, List.find?_cons]
    split
    · rename_i hfound
      by_cases hpair : (ks, s) = (kd, d)
      · rw [hpair] at hfound ⊢
        rw [show (c.keyOf step, step.id) = (kd, d) by simpa using hfound]
      · rcases of_decide_eq_true hfound with heq | heq
        · rw [heq]
        · obtain ⟨hkey, hid⟩ := Prod.mk.inj heq
          exact absurd hsuccess (hupstream hid hkey hpair)
    · exact hnewest
  · exact hnewest

/-! A call keeps the order wherever it is cut -/

def Keeps (c : Call) (s d : String) (policy : StateKeyPolicy) (ks kd : StateKey) (t : Traced) :
    Act → Prop
  | .replace => ∃ state, t.world.tmp = some (.parsed state) ∧ Ordered s d policy ks kd state.runs t.zeros
  | .did (.returned _ step _) => step.id = d → c.keyOf step = kd → (ks, s) ≠ (kd, d) →
      ∀ state, t.world.file = .parsed state → rowStatus (ownRow state.runs s ks) ≠ .success
  | _ => True

structure OrderedFile (s d : String) (policy : StateKeyPolicy) (ks kd : StateKey) (t : Traced) :
    Prop where
  parseable : t.world.file ≠ .corrupt
  ordered : ∀ state, t.world.file = .parsed state → Ordered s d policy ks kd state.runs t.zeros

private theorem ordered_act {a : Act} (h : OrderedFile s d policy ks kd t)
    (hkeeps : c.Keeps s d policy ks kd t a) :
    OrderedFile s d policy ks kd (c.traceAct t a) := by
  cases a with
  | openTmp => exact ⟨h.parseable, h.ordered⟩
  | fillTmp runs => exact ⟨h.parseable, h.ordered⟩
  | replace =>
    obtain ⟨state, htmp, hordered⟩ := hkeeps
    refine ⟨?_, fun state' hstate' => ?_⟩
    · simp [traceAct, act, htmp]
    · simp only [traceAct, act, htmp, Option.getD_some] at hstate'
      rw [← StateFile.parsed.inj hstate']
      exact hordered
  | did event =>
    cases event with
    | returned k step code =>
      exact ⟨h.parseable, fun state hstate =>
        Ordered.note (h.ordered state hstate) fun hd hkey hpair => hkeeps hd hkey hpair state hstate⟩
    | _ => exact ⟨h.parseable, h.ordered⟩

/-- The events keep the order and end with these rows ordered. -/
abbrev KeepsTo (c : Call) (s d : String) (policy : StateKeyPolicy) (ks kd : StateKey) (t : Traced)
    (events : List Event) (runs : Runs) : Prop :=
  Trace.Plays c.traceAct (c.Keeps s d policy ks kd) (fun t => Ordered s d policy ks kd runs t.zeros) t
    (events.flatMap Event.acts)

private theorem keepsTo_append {events later : List Event}
    (h : KeepsTo c s d policy ks kd t events runs)
    (hlater : KeepsTo c s d policy ks kd ((events.flatMap Event.acts).foldl c.traceAct t) later runs') :
    KeepsTo c s d policy ks kd t (events ++ later) runs' := by
  unfold KeepsTo at hlater ⊢
  rw [List.flatMap_append]
  exact h.append hlater

private theorem keepsTo_wrote (h : Ordered s d policy ks kd runs t.zeros) :
    KeepsTo c s d policy ks kd t [.wrote runs] runs :=
  ⟨⟨trivial, trivial, ⟨_, rfl, h⟩, trivial⟩, h⟩

private theorem settle_skipped {degraded : Option Reason} {code : Int}
    (hoptional : step.optional = false) :
    (c.settle k step degraded code).1 ∉ [StepStatus.skipped, .skippedCheckpoint] := by
  unfold settle
  simp only [hoptional]
  split
  · cases degraded <;> simp
  · split
    · simp
    · split
      · simp
      · simp

private theorem Due.not_success (hlinked : Linked c s d policy ks kd)
    (h : Ordered s d policy ks kd runs zeros)
    (hstep : step ∈ c.steps) (hid : step.id = d) (hkey : c.keyOf step = kd) (hdue : c.Due step runs) :
    rowStatus (ownRow runs s ks) ≠ .success := by
  intro hsuccess
  refine hdue ⟨⟨hlinked.startAt, hlinked.force, hlinked.ignoreState,
    (hlinked.upstream step hstep hid).2.1⟩, ?_⟩
  unfold rowOf
  rw [stepRowForKey_of_plain h.plain, hid, hkey]
  exact (h.ordered hsuccess).1

private theorem keepsTo_running (command : List String) {running : Runs}
    (hlinked : Linked c s d policy ks kd)
    (hstep : step ∈ c.steps) (h : Ordered s d policy ks kd runs t.zeros) (hdue : c.Due step runs)
    (hrunning : c.record k step .running .missing [] none runs = some running) :
    KeepsTo c s d policy ks kd t [.wrote running, .invoked k step command running] running := by
  have hkept : Ordered s d policy ks kd running t.zeros :=
    Ordered.record h hrunning
      (fun hid => ⟨(hlinked.upstream step hstep hid).1, by decide,
        fun hkey _ => Due.not_success hlinked h hstep hid hkey hdue⟩)
      (fun _ _ hsuccess => by cases hsuccess)
  exact keepsTo_append (keepsTo_wrote hkept) ⟨⟨trivial, trivial⟩, hkept⟩

/-- Behind the gate a plain success of `s` finds `d` done. -/
private theorem Gate.upstream_success (hlinked : Linked c s d policy ks kd)
    (h : Ordered s d policy ks kd runs zeros)
    (hstep : c.steps[k]? = some step) (hid : step.id = s) (hrunner : c.runner k = some 0)
    (hkey : c.keyOf step = ks) (hgate : Gate c step runs none) :
    rowStatus (ownRow runs d kd) = .success := by
  obtain ⟨hkd, dependency, hmem, hon⟩ := hlinked.downstream k step hstep hid hrunner hkey
  obtain ⟨hsatisfied, hplain⟩ := hgate.plain rfl dependency hmem
  unfold dependencyStatus at hsatisfied hplain
  rw [stepRowForKey_of_plain h.plain, hon] at hsatisfied hplain
  cases hrow : ownRow runs d (c.dependencyKey dependency) with
  | none =>
    rw [hrow] at hsatisfied
    exact absurd hsatisfied (by decide)
  | some row =>
    obtain ⟨hkind, hskipped⟩ := h.upstream _ row hrow
    -- a row of `d` stands under the key of its policy only
    have hsame : c.dependencyKey dependency = kd := by
      unfold dependencyKey at hkind ⊢
      simp only [policy_stateKeyForPolicy] at hkind ⊢
      rw [Option.some.inj hkind, hkd]
    rw [← hsame, hrow]
    rw [hrow] at hsatisfied hplain
    simp only [satisfiedDependencyStatuses, List.mem_cons, List.not_mem_nil, or_false] at hsatisfied
    simp only [List.mem_cons, List.not_mem_nil, or_false, not_or] at hskipped
    rcases hsatisfied with heq | heq | heq | heq
    · exact heq
    · exact absurd heq hplain
    · exact absurd heq hskipped.1
    · exact absurd heq hskipped.2

private theorem StepOutcome.keepsTo {out : StepEnd} (hlinked : Linked c s d policy ks kd)
    (hat : c.steps[k]? = some step) (hout : StepOutcome c k step runs out) (h : Ordered s d policy ks kd runs t.zeros) :
    KeepsTo c s d policy ks kd t out.events out.runs := by
  have hstep : step ∈ c.steps := List.mem_of_getElem? hat
  cases hout with
  | skipped => exact ⟨⟨trivial, trivial⟩, h⟩
  | raised => exact Trace.Plays.nil h
  | @blocked blockedBy reason runs' hdue hrecord =>
    have hkept : Ordered s d policy ks kd runs' t.zeros :=
      Ordered.record h hrecord
        (fun hid => ⟨(hlinked.upstream step hstep hid).1, by decide,
          fun hkey _ => Due.not_success hlinked h hstep hid hkey hdue⟩)
        (fun _ _ hsuccess => by cases hsuccess)
    exact ⟨⟨trivial, (keepsTo_wrote hkept).fine⟩, (keepsTo_wrote hkept).ends⟩
  | interrupted hdue hgate hrunning hrunner => exact keepsTo_running _ hlinked hstep h hdue hrunning
  | @ran command degraded running code runs' hdue hgate hrunning hrunner hrecord =>
    have hinvoked := keepsTo_running command hlinked hstep h hdue hrunning
    have hsame : ∀ {stepId key}, ¬(key = c.keyOf step ∧ stepId = step.id) →
        ownRow running stepId key = ownRow runs stepId key :=
      fun hne => ownRow_of_recordStep_of_ne hrunning hne
    have hnot : step.id = d → c.keyOf step = kd → (ks, s) ≠ (kd, d) →
        rowStatus (ownRow running s ks) ≠ .success := by
      intro hid hkey hpair
      rw [hsame fun heq => hpair (by rw [heq.1, heq.2, hkey, hid])]
      exact Due.not_success hlinked h hstep hid hkey hdue
    have hreturned : KeepsTo c s d policy ks kd
        (([.wrote running, .invoked k step command running].flatMap Event.acts).foldl c.traceAct t)
        [.returned k step code, .recorded k step (c.settle k step degraded code).1 running]
        running := by
      refine ⟨⟨fun hid hkey hpair state hstate => ?_, trivial, trivial⟩,
        Ordered.note hinvoked.ends hnot⟩
      rw [← StateFile.parsed.inj hstate]
      exact hnot hid hkey hpair
    have hend := keepsTo_append hinvoked hreturned
    refine keepsTo_append hend (keepsTo_wrote (Ordered.record hend.ends hrecord
      (fun hid => ⟨(hlinked.upstream step hstep hid).1,
        settle_skipped (hlinked.upstream step hstep hid).2.2, hnot hid⟩) fun hid hkey hsuccess => ?_))
    obtain ⟨rfl, rfl⟩ := settle_success hsuccess
    refine ⟨?_, fun hpair => ?_⟩
    · -- its own return is the newest
      rw [← hid, ← hkey]
      show newest ((c.keyOf step, step.id) :: _) _ _ = _
      unfold newest
      rw [List.find?_cons_of_pos (by simp)]
    · rw [hsame fun heq => hpair (by rw [heq.1, heq.2, hkey, hid])]
      exact Gate.upstream_success hlinked h hat hid hrunner hkey hgate

private theorem Loop.keepsTo {startAt : Option String} {started : Bool} {steps : List DailyStep}
    {failed : Option Int} {last : LoopEnd} (hlinked : Linked c s d policy ks kd)
    (hloop : Loop c startAt k started steps runs failed last) (hsteps : c.steps.drop k = steps)
    (hstarted : started = true) (h : Ordered s d policy ks kd runs t.zeros) :
    KeepsTo c s d policy ks kd t last.events last.runs := by
  have hhead : ∀ {k : ℕ} {step : DailyStep} {rest : List DailyStep}, c.steps.drop k = step :: rest →
      c.steps[k]? = some step ∧ c.steps.drop (k + 1) = rest := by
    intro k step rest hdrop
    refine ⟨?_, ?_⟩
    · rw [← List.head?_drop, hdrop, List.head?_cons]
    · rw [← List.tail_drop, hdrop, List.tail_cons]
  induction hloop generalizing t with
  | nil => exact Trace.Plays.nil h
  | unrecorded hpass =>
    rw [hstarted] at hpass
    cases hpass.1
  | passedOver hpass =>
    rw [hstarted] at hpass
    cases hpass.1
  | next hreached houtcome hverdict rest ih =>
    obtain ⟨hat, hrest⟩ := hhead hsteps
    have hstep := houtcome.keepsTo hlinked hat (Ordered.created h _)
    exact keepsTo_append hstep (ih hrest rfl hstep.ends)
  | stop hreached houtcome =>
    exact houtcome.keepsTo hlinked (hhead hsteps).1 (Ordered.created h _)
  | raised hreached houtcome =>
    exact houtcome.keepsTo hlinked (hhead hsteps).1 (Ordered.created h _)

end Call

section Workflow

variable {workflow : List RawStep} {s d : RawStep} {dependency : DailyDependency} {c : Call}

private theorem mem_stepsFromWorkflowConfig {dates : DailyEffectiveDates} {step : DailyStep}
    (h : step ∈ stepsFromWorkflowConfig workflow dates) :
    ∃ raw ∈ workflow, raw.scheduled dates = true ∧ step.id = raw.id ∧
      step.optional = raw.optional ∧ step.stateKeyPolicy = raw.stateKeyPolicy ∧
      step.resumePolicy = raw.resumePolicy ∧ ∀ dependency ∈ raw.dependsOn,
        (∃ other ∈ workflow, other.scheduled dates = true ∧ other.id = dependency.stepId) →
          dependency ∈ step.dependsOn := by
  unfold stepsFromWorkflowConfig at h
  obtain ⟨raw, hraw, rfl⟩ := List.mem_map.mp h
  obtain ⟨hmem, hscheduled⟩ := List.mem_filter.mp hraw
  refine ⟨raw, hmem, hscheduled, rfl, rfl, rfl, rfl, fun dependency hdep hother => ?_⟩
  obtain ⟨other, hother, hon, hid⟩ := hother
  refine List.mem_filter.mpr ⟨hdep, List.any_eq_true.mpr ⟨other, ?_, by simpa using hid⟩⟩
  exact List.mem_filter.mpr ⟨hother, hon⟩

/-- The key under which a call records the step. -/
def RawStep.keyIn (raw : RawStep) (c : Call) : StateKey :=
  stateKeyForPolicy raw.stateKeyPolicy c.dates c.runInstance

/-- If the call runs `s` with result 0 under the one key, it schedules `d` too, under the other. -/
def Call.BuildsWith (c : Call) (s d : RawStep) (ks kd : StateKey) : Prop :=
  ∀ k step, c.steps[k]? = some step → step.id = s.id → c.runner k = some 0 → s.keyIn c = ks →
    d.scheduled c.dates = true ∧ d.keyIn c = kd

private theorem linked_of_ordinary (hdistinct : (workflow.map RawStep.id).Nodup) (hs : s ∈ workflow)
    (hd : d ∈ workflow) (hdep : dependency ∈ s.dependsOn) (hon : dependency.stepId = d.id)
    (hresume : d.resumePolicy = .skipIfSuccess) (hoptional : d.optional = false)
    (hc : Ordinary workflow c) {ks kd : StateKey} (hbuilt : c.BuildsWith s d ks kd) :
    Linked c s.id d.id d.stateKeyPolicy ks kd := by
  refine ⟨hc.startAt, hc.force, hc.ignoreState, fun step hstep hid => ?_,
    fun k step hat hid hrunner hkey => ?_⟩
  · rw [hc.steps] at hstep
    obtain ⟨raw, hraw, -, hraw', hopt, hkey, hres, -⟩ := mem_stepsFromWorkflowConfig hstep
    obtain rfl : raw = d := List.inj_on_of_nodup_map hdistinct hraw hd (hraw'.symm.trans hid)
    exact ⟨hkey, hres.trans hresume, hopt.trans hoptional⟩
  · have hstep := List.mem_of_getElem? hat
    rw [hc.steps] at hstep
    obtain ⟨raw, hraw, -, hraw', -, hpolicy, -, hkept⟩ := mem_stepsFromWorkflowConfig hstep
    obtain rfl : raw = s := List.inj_on_of_nodup_map hdistinct hraw hs (hraw'.symm.trans hid)
    have hks : raw.keyIn c = ks := by
      unfold RawStep.keyIn
      rw [← hpolicy]
      exact hkey
    obtain ⟨hscheduled, hkd⟩ := hbuilt k step hat hid hrunner hks
    exact ⟨hkd, dependency, hkept dependency hdep ⟨d, hd, hscheduled, hon.symm⟩, hon⟩

end Workflow

/-- A whole call, wherever it ends, keeps the order of two linked steps. -/
private theorem keepsTo_acts {c : Call} {s d : String} {policy : StateKeyPolicy} {ks kd : StateKey}
    {t : Traced} (hlinked : Linked c s d policy ks kd) (h : OrderedFile s d policy ks kd t) :
    Trace.Guarded c.traceAct (c.Keeps s d policy ks kd) t (c.acts t.world.file) ∧
      ((runDailyUpdate c t.world.file).exitCode ≠ none →
        Ordered s d policy ks kd (runDailyUpdate c t.world.file).runs
          ((c.acts t.world.file).foldl c.traceAct t).zeros) := by
  unfold acts
  rcases runDailyUpdate_cases c t.world.file with ⟨hcode, hnil⟩ | ⟨startAt, state, last, hstart,
    hstate, hloop, hruns, -, before, after, hevents, hbefore, hafter⟩
  · rw [hnil, hcode]
    exact ⟨trivial, fun hne => absurd rfl hne⟩
  · have hread : Ordered s d policy ks kd state.runs t.zeros := by
      cases hfile : t.world.file with
      | absent =>
        rw [hfile] at hstate
        rw [← Option.some.inj hstate]
        exact ⟨fun _ _ _ => rfl, fun _ _ hrow => (by cases hrow), fun hrow => (by cases hrow)⟩
      | corrupt => exact absurd hfile h.parseable
      | parsed found =>
        rw [hfile] at hstate
        rw [← Option.some.inj hstate]
        exact h.ordered found hfile
    have hmarked := Ordered.markAbandoned hread c.checkedAt c.pid c.pidAlive
    have hfirst : KeepsTo c s d policy ks kd t before
        (markAbandoned c.checkedAt c.pid c.pidAlive state.runs) := by
      rcases hbefore with rfl | rfl
      · exact Trace.Plays.nil hmarked
      · exact keepsTo_wrote hmarked
    have hstarted : startAt.isNone = true := by
      unfold resolveStartAt at hstart
      rw [hlinked.startAt] at hstart
      rw [← Option.some.inj hstart]
      rfl
    have hsteps := keepsTo_append hfirst
      (hloop.keepsTo hlinked List.drop_zero hstarted hfirst.ends)
    have hall : KeepsTo c s d policy ks kd t (before ++ last.events ++ after) last.runs := by
      rcases hafter with rfl | rfl
      · rw [List.append_nil]
        exact hsteps
      · exact keepsTo_append hsteps (keepsTo_wrote hsteps.ends)
    rw [hevents, hruns]
    exact ⟨hall.fine, fun _ => hall.ends⟩

/-- Calls that are cut off anywhere leave a file that keeps the order of two linked steps. -/
private theorem orderedFile_trace {s d : String} {policy : StateKeyPolicy} {ks kd : StateKey}
    {attempts : List Attempt} (hlinked : ∀ attempt ∈ attempts, Linked attempt.call s d policy ks kd)
    {t : Traced} (h : OrderedFile s d policy ks kd t) :
    OrderedFile s d policy ks kd (attempts.foldl Attempt.trace t) := by
  induction attempts generalizing t with
  | nil => exact h
  | cons attempt attempts ih =>
    have hacts := (keepsTo_acts (hlinked attempt List.mem_cons_self) h).1
    exact ih (fun other hother => hlinked other (List.mem_cons_of_mem _ hother))
      ((hacts.take attempt.cut).keeps (fun _ _ => ordered_act) h)

def freshTrace : Traced := ⟨freshWorld, []⟩

/-- The call returns 0, and yet a step that counts as done is older than a step it depends on. -/
structure StaleEnd (workflow : List RawStep) (attempts : List Attempt) (c : Call) (s d : String) :
    Prop where
  earlier : ∀ attempt ∈ attempts, Ordinary workflow attempt.call
  last : Ordinary workflow c
  zero : (runDailyUpdate c (attempts.foldl Attempt.trace freshTrace).world.file).exitCode = some 0
  downstream : ∃ step ∈ c.steps, step.id = s ∧ step.resumePolicy = .skipIfSuccess ∧
    rowStatus (c.rowOf
      (runDailyUpdate c (attempts.foldl Attempt.trace freshTrace).world.file).runs step) = .success ∧
    ∃ dependency ∈ step.dependsOn, dependency.stepId = d ∧ dependency.soft = false
  upstream : ∃ step ∈ c.steps, step.id = d ∧ step.resumePolicy = .skipIfSuccess
  stale : (((c.acts (attempts.foldl Attempt.trace freshTrace).world.file).foldl c.traceAct
    (attempts.foldl Attempt.trace freshTrace)).zeros.find? fun zero =>
      zero.2 = s ∨ zero.2 = d).map Prod.snd = some d

/-- Step `s` after step `d`. -/
def sampleWorkflow (s d : RawStep) : List RawStep :=
  [d, { s with dependsOn := [{ stepId := d.id }] }]

def sampleStep (id : String) (policy : StateKeyPolicy) : RawStep :=
  { id := id, command := fun _ => [id], stateKeyPolicy := policy }

/-- An ordinary call, with its dates and the results of the runners in the order of the steps; day
19723 is a Monday. -/
def ordinaryCall (workflow : List RawStep) (natural candidate market : Int) (codes : List Int) : Call :=
  let dates : DailyEffectiveDates := ⟨natural, candidate, market, market - 30, false⟩
  { steps := stepsFromWorkflowConfig workflow dates
    dates := dates
    runInstance := 0
    pid := 7
    pidAlive := fun _ => false
    checkedAt := 0
    startedAt := fun _ => 0
    runner := fun k => codes[k]?
    duckdbAvailable := fun _ => true }

private theorem ordinary_ordinaryCall (workflow : List RawStep) (natural candidate market : Int)
    (codes : List Int) : Ordinary workflow (ordinaryCall workflow natural candidate market codes) := ⟨rfl, rfl, rfl, rfl⟩

end QuantDataCenter.Orchestrator
