import QuantDataCenter.Orchestrator.DependencyGate

/-!
What a call of the daily workflow takes from the rows of other days and does to
them: it reads and records under its own natural date, market date and run instance,
and only the sweep over running rows gets to the others.
-/

set_option autoImplicit false
set_option relaxedAutoImplicit false

namespace QuantDataCenter.Orchestrator

open QuantDataCenter.Lib Call

/-- The file a call finds, with the rows whose `started_at` names a time zone. -/
structure FoundFile where
  file : StateFile
  zoned : StateKey → String → Bool

namespace Call

variable (c : Call)

def ownKeys : List StateKey :=
  [.naturalDate c.dates.naturalDate, .marketDate c.dates.marketDate, .runInstance c.runInstance]

def readKeys : List StateKey := c.ownKeys ++ [.legacyDate c.dates.naturalDate]

/-- `_running_abandoned_reason` raises: `is_pid_alive` does, or a naive time is compared
with one of a time zone. -/
def stumbles (pidRaises : Int → Bool) (zoned : Bool) (row : StepRow) : Bool :=
  row.status == .running && match row.pid with
    | none => false
    | some pid =>
      pid != c.pid && (pidRaises pid || (c.pidAlive pid && row.startedAt.isSome && zoned))

/-- The sweep over the running rows of all keys raises. -/
def sweepRaises (pidRaises : Int → Bool) (zoned : StateKey → String → Bool) (runs : Runs) : Bool :=
  runs.any fun run => (RunState.rows (Dict.get run.1 runs)).any fun entry =>
    match ownRow runs entry.1 run.1 with
    | some row => c.stumbles pidRaises (zoned run.1 entry.1) row
    | none => false

end Call

open Call in
/-- `run_daily_update` on any file: nothing is written before the sweep. -/
def runFound (pidRaises : Int → Bool) (c : Call) (found : FoundFile) : RunEnd :=
  match readStateForRun found.file c.force with
  | some state =>
    if c.sweepRaises pidRaises found.zoned state.runs then ⟨[], state.runs, none⟩
    else runDailyUpdate c found.file
  | none => runDailyUpdate c found.file

/-- What a call decides, in order, without the rows it writes. -/
inductive Decision where
  | passedOver (k : ℕ) (step : DailyStep)
  | skipped (k : ℕ) (step : DailyStep)
  | blocked (k : ℕ) (step : DailyStep)
  | invoked (k : ℕ) (step : DailyStep) (command : List String)
  | returned (k : ℕ) (step : DailyStep) (code : Int)
  | settled (k : ℕ) (step : DailyStep) (status : StepStatus)
  deriving DecidableEq, Repr

def Event.decision : Event → Option Decision
  | .wrote _ => none
  | .passedOver k step => some (.passedOver k step)
  | .skipped k step _ => some (.skipped k step)
  | .blocked k step => some (.blocked k step)
  | .invoked k step command _ => some (.invoked k step command)
  | .returned k step code => some (.returned k step code)
  | .recorded k step status _ => some (.settled k step status)

def decisions (events : List Event) : List Decision := events.filterMap Event.decision

/-- A row that stays, or is running and becomes abandoned. -/
def OnlyAbandoned (before after : Option RowEntry) : Prop :=
  after = before ∨ ∃ row reason, before = some (.row row) ∧ row.status = .running ∧
    after = some (.row { row with status := .abandoned, exitCode := .code 1, reason := some reason })

def AgreeOn (keys : List StateKey) (runs runs' : Runs) : Prop :=
  ∀ key ∈ keys, ∀ stepId, entryAt runs stepId key = entryAt runs' stepId key

/-- Two files a call can read, with the same rows under the keys it reads. -/
structure SameRows (c : Call) (found found' : FoundFile) (runs runs' : Runs) : Prop where
  read : ∃ state, readStateForRun found.file c.force = some state ∧ state.runs = runs
  read' : ∃ state, readStateForRun found'.file c.force = some state ∧ state.runs = runs'
  rows : AgreeOn c.readKeys runs runs'
  zoned : ∀ key ∈ c.readKeys, found.zoned key = found'.zoned key

/-- No running row of another key makes the sweep raise. -/
def QuietElsewhere (pidRaises : Int → Bool) (c : Call) (found : FoundFile) (runs : Runs) : Prop :=
  ∀ key, key ∉ c.readKeys → ∀ stepId row, ownRow runs stepId key = some row →
    c.stumbles pidRaises (found.zoned key stepId) row = false

/-! What the updates of a state do to its entries -/

section Entries

variable {runs runs' : Runs} {key key' : StateKey} {stepId : String} {row : StepRow}

private theorem get_createStepRows_of_ne (hne : key' ≠ key) :
    Dict.get key' (createStepRows runs key) = Dict.get key' runs := by
  unfold createStepRows
  split
  · rfl
  · exact Dict.get_set_of_ne hne _ _

private theorem get_of_recordStep_of_ne (h : recordStep runs key stepId row = some runs')
    (hne : key' ≠ key) : Dict.get key' runs' = Dict.get key' runs := by
  unfold recordStep at h
  simp only at h
  split at h
  · rw [← Option.some.inj h, Dict.get_set_of_ne hne]
  · split at h
    · cases h
    · rw [← Option.some.inj h, Dict.get_set_of_ne hne]

private theorem onlyAbandoned_mark (now activePid : Int) (pidAlive : Int → Bool)
    (entry : Option RowEntry) :
    OnlyAbandoned entry (entry.map (RowEntry.mark (markRow now activePid pidAlive))) := by
  cases entry with
  | none => exact Or.inl rfl
  | some entry =>
    cases entry with
    | row row =>
      simp only [Option.map_some, RowEntry.mark, markRow]
      split
      case isTrue hrunning =>
        split
        · exact Or.inl rfl
        · exact Or.inr ⟨row, _, rfl, hrunning, rfl⟩
      case isFalse => exact Or.inl rfl
    | malformed => exact Or.inl rfl
    | empty => exact Or.inl rfl

end Entries

/-! Rows under the keys of other days -/

namespace Call

variable {c : Call} {k : ℕ} {step : DailyStep} {runs runs' : Runs} {key : StateKey}

private theorem stateKeyForPolicy_mem (c : Call) (policy : StateKeyPolicy) :
    stateKeyForPolicy policy c.dates c.runInstance ∈ c.ownKeys := by
  cases policy <;> simp [stateKeyForPolicy, ownKeys]

/-- Everything a piece of a call writes, and the rows it ends with, hold what the key held. -/
structure Leaves (key : StateKey) (run : Option RunState) (events : List Event) (runs : Runs) :
    Prop where
  ends : Dict.get key runs = run
  wrote : ∀ written, Event.wrote written ∈ events → Dict.get key written = run

private theorem get_of_record (hkey : key ∉ c.ownKeys) {status : StepStatus}
    {exitCode : RowExitCode}
    {blockedBy : List String} {reason : Option Reason}
    (h : c.record k step status exitCode blockedBy reason runs = some runs') :
    Dict.get key runs' = Dict.get key runs :=
  get_of_recordStep_of_ne h fun heq => hkey (heq ▸ stateKeyForPolicy_mem c _)

theorem StepOutcome.leaves {out : StepEnd} (hkey : key ∉ c.ownKeys)
    (h : StepOutcome c k step runs out) : Leaves key (Dict.get key runs) out.events out.runs := by
  cases h with
  | skipped => exact ⟨rfl, fun written hmem => by simp at hmem⟩
  | raised => exact ⟨rfl, fun written hmem => by cases hmem⟩
  | blocked hdue hrecord =>
    have hget := get_of_record hkey hrecord
    refine ⟨hget, fun written hmem => ?_⟩
    simp only [List.mem_cons, reduceCtorEq, Event.wrote.injEq, List.not_mem_nil, or_false,
      false_or] at hmem
    rw [hmem, hget]
  | interrupted hdue hgate hrunning =>
    have hget := get_of_record hkey hrunning
    refine ⟨hget, fun written hmem => ?_⟩
    simp only [List.mem_cons, reduceCtorEq, Event.wrote.injEq, List.not_mem_nil, or_false] at hmem
    rw [hmem, hget]
  | ran hdue hgate hrunning hrunner hrecord =>
    have hget := get_of_record hkey hrunning
    have hget' := (get_of_record hkey hrecord).trans hget
    refine ⟨hget', fun written hmem => ?_⟩
    simp only [List.mem_cons, reduceCtorEq, Event.wrote.injEq, List.not_mem_nil, or_false,
      false_or] at hmem
    rcases hmem with rfl | rfl
    · exact hget
    · exact hget'

theorem Loop.leaves {startAt : Option String} {started : Bool} {steps : List DailyStep}
    {failed : Option Int} {last : LoopEnd} (hkey : key ∉ c.ownKeys)
    (h : Loop c startAt k started steps runs failed last) :
    Leaves key (Dict.get key runs) last.events last.runs := by
  have hcreated : ∀ (runs : Runs) (step : DailyStep),
      Dict.get key (createStepRows runs (c.keyOf step)) = Dict.get key runs := fun runs step =>
    get_createStepRows_of_ne fun heq => hkey (heq ▸ stateKeyForPolicy_mem c _)
  induction h with
  | nil => exact ⟨rfl, fun written hmem => by cases hmem⟩
  | unrecorded => exact ⟨hcreated _ _, fun written hmem => by cases hmem⟩
  | passedOver hpass hrecord rest ih =>
    have hstep := (get_of_record hkey hrecord).trans (hcreated _ _)
    refine ⟨ih.ends.trans hstep, fun written hmem => ?_⟩
    rcases List.mem_append.mp hmem with hhead | hlater
    · simp at hhead
    · exact (ih.wrote written hlater).trans hstep
  | next hreached houtcome hverdict rest ih =>
    have hstep := houtcome.leaves hkey
    refine ⟨(ih.ends.trans hstep.ends).trans (hcreated _ _), fun written hmem => ?_⟩
    rcases List.mem_append.mp hmem with hhead | hlater
    · exact (hstep.wrote written hhead).trans (hcreated _ _)
    · exact ((ih.wrote written hlater).trans hstep.ends).trans (hcreated _ _)
  | stop hreached houtcome =>
    have hstep := houtcome.leaves hkey
    exact ⟨hstep.ends.trans (hcreated _ _), fun written hmem =>
      (hstep.wrote written hmem).trans (hcreated _ _)⟩
  | raised hreached houtcome =>
    have hstep := houtcome.leaves hkey
    exact ⟨hstep.ends.trans (hcreated _ _), fun written hmem =>
      (hstep.wrote written hmem).trans (hcreated _ _)⟩

end Call

private theorem wrote_other {c : Call} {file : StateFile} {written : Runs} {key : StateKey}
    (hkey : key ∉ c.ownKeys) (hwrote : Event.wrote written ∈ (runDailyUpdate c file).events) :
    ∃ state, readStateForRun file c.force = some state ∧
      Dict.get key written = (Dict.get key state.runs).map
        (RunState.mark (markRow c.checkedAt c.pid c.pidAlive)) := by
  rcases runDailyUpdate_cases c file with ⟨-, hnil⟩ | ⟨startAt, state, last, -, hstate, hloop, -, -,
    before, after, hevents, hbefore, hafter⟩
  · rw [hnil] at hwrote
    cases hwrote
  · have hleaves := hloop.leaves hkey
    have hmarked : Dict.get key (markAbandoned c.checkedAt c.pid c.pidAlive state.runs) =
        (Dict.get key state.runs).map (RunState.mark (markRow c.checkedAt c.pid c.pidAlive)) :=
      Dict.get_mapValues ..
    refine ⟨state, hstate, ?_⟩
    rw [hevents, List.mem_append, List.mem_append] at hwrote
    rcases hwrote with (hmem | hmem) | hmem
    · rcases hbefore with rfl | rfl
      · cases hmem
      · rw [Event.wrote.inj (List.mem_singleton.mp hmem)]
        exact hmarked
    · exact (hleaves.wrote written hmem).trans hmarked
    · rcases hafter with rfl | rfl
      · cases hmem
      · rw [Event.wrote.inj (List.mem_singleton.mp hmem)]
        exact hleaves.ends.trans hmarked

/-! Two files that agree on the keys a call reads -/

namespace Call

variable {c : Call} {k : ℕ} {step : DailyStep} {runs runs' : Runs}

private theorem agreeOn_createStepRows (h : AgreeOn c.readKeys runs runs') (key : StateKey) :
    AgreeOn c.readKeys (createStepRows runs key) (createStepRows runs' key) := by
  intro key' hkey stepId
  rw [entryAt_createStepRows, entryAt_createStepRows, h key' hkey stepId]

private theorem agreeOn_markAbandoned (h : AgreeOn c.readKeys runs runs') (now activePid : Int)
    (pidAlive : Int → Bool) : AgreeOn c.readKeys (markAbandoned now activePid pidAlive runs)
      (markAbandoned now activePid pidAlive runs') := by
  intro key hkey stepId
  rw [entryAt_markAbandoned, entryAt_markAbandoned, h key hkey stepId]

private theorem recordStep_agree {key : StateKey} {stepId : String} {row : StepRow}
    (h : AgreeOn c.readKeys runs runs') (hkey : key ∈ c.readKeys) :
    recordStep runs key stepId row = none ∧ recordStep runs' key stepId row = none ∨
    ∃ after after', recordStep runs key stepId row = some after ∧
      recordStep runs' key stepId row = some after' ∧ AgreeOn c.readKeys after after' := by
  have hentry : Dict.get stepId (RunState.rows (Dict.get key runs)) =
      Dict.get stepId (RunState.rows (Dict.get key runs')) := h key hkey stepId
  have hset : ∀ recorded : RowEntry, AgreeOn c.readKeys
      (Dict.set key (.steps (Dict.set stepId recorded (RunState.rows (Dict.get key runs)))) runs)
      (Dict.set key (.steps (Dict.set stepId recorded (RunState.rows (Dict.get key runs')))) runs') := by
    intro recorded key' hkey' stepId'
    by_cases heq : key' = key
    · simp only [entryAt, heq, Dict.get_set_self, RunState.rows]
      by_cases hid : stepId' = stepId
      · simp only [hid, Dict.get_set_self]
      · simp only [Dict.get_set_of_ne hid]
        exact h key hkey stepId'
    · simp only [entryAt, Dict.get_set_of_ne heq]
      exact h key' hkey' stepId'
  unfold recordStep
  simp only [hentry]
  split
  · exact Or.inr ⟨_, _, rfl, rfl, hset _⟩
  · split
    · exact Or.inl ⟨rfl, rfl⟩
    · exact Or.inr ⟨_, _, rfl, rfl, hset _⟩

private theorem keyOf_mem_readKeys (c : Call) (step : DailyStep) : c.keyOf step ∈ c.readKeys :=
  List.mem_append_left _ (stateKeyForPolicy_mem c _)

private theorem ownRow_agree {key : StateKey} (hkey : key ∈ c.ownKeys)
    (h : AgreeOn c.readKeys runs runs')
    (stepId : String) : stepRowForKey runs stepId key = stepRowForKey runs' stepId key := by
  rw [stepRowForKey_eq, stepRowForKey_eq, ownRow_eq, ownRow_eq,
    h key (List.mem_append_left _ hkey) stepId]
  cases hlegacy : key.legacy with
  | none => rfl
  | some old =>
    have hold : old ∈ c.readKeys := by
      simp only [ownKeys, List.mem_cons, List.not_mem_nil, or_false] at hkey
      rcases hkey with rfl | rfl | rfl
      · rw [← Option.some.inj hlegacy]
        simp [readKeys]
      · cases hlegacy
      · cases hlegacy
    rw [Option.bind_some, Option.bind_some, ownRow_eq, ownRow_eq, h old hold stepId]

private theorem rowOf_agree (h : AgreeOn c.readKeys runs runs') : c.rowOf runs = c.rowOf runs' :=
  funext fun _ => ownRow_agree (stateKeyForPolicy_mem c _) h _

private theorem dependencyStatus_agree (h : AgreeOn c.readKeys runs runs') :
    c.dependencyStatus runs = c.dependencyStatus runs' :=
  funext fun _ => congrArg rowStatus (ownRow_agree (stateKeyForPolicy_mem c _) h _)

/-- The same decisions and the same verdict, on rows that agree again. -/
structure SameStep (c : Call) (out out' : StepEnd) : Prop where
  decisions : decisions out.events = decisions out'.events
  verdict : out.verdict = out'.verdict
  runs : AgreeOn c.readKeys out.runs out'.runs

private theorem block_agree (h : AgreeOn c.readKeys runs runs') (blockedBy : List String)
    (reason : Option Reason) :
    SameStep c (c.block k step blockedBy reason runs) (c.block k step blockedBy reason runs') := by
  unfold block record
  rcases recordStep_agree h (keyOf_mem_readKeys c step) with
    ⟨hnone, hnone'⟩ | ⟨after, after', hsome, hsome', hagree⟩
  · rw [hnone, hnone']
    exact ⟨rfl, rfl, h⟩
  · rw [hsome, hsome']
    exact ⟨rfl, rfl, hagree⟩

private theorem invoke_agree (h : AgreeOn c.readKeys runs runs') (command : List String)
    (degraded : Option Reason) :
    SameStep c (c.invoke k step command degraded runs) (c.invoke k step command degraded runs') := by
  unfold invoke record
  rcases recordStep_agree h (keyOf_mem_readKeys c step) with
    ⟨hnone, hnone'⟩ | ⟨running, running', hsome, hsome', hrunning⟩
  · rw [hnone, hnone']
    exact ⟨rfl, rfl, h⟩
  · rw [hsome, hsome']
    cases c.runner k with
    | none => exact ⟨rfl, rfl, hrunning⟩
    | some code =>
      simp only
      rcases recordStep_agree hrunning (keyOf_mem_readKeys c step) with
        ⟨hnone, hnone'⟩ | ⟨after, after', hafter, hafter', hagree⟩
      · rw [hnone, hnone']
        exact ⟨rfl, rfl, hrunning⟩
      · rw [hafter, hafter']
        exact ⟨rfl, rfl, hagree⟩

private theorem degrade_agree (h : AgreeOn c.readKeys runs runs') (step : DailyStep) :
    c.degrade step runs = c.degrade step runs' := by
  have hnote : c.noteSoftDependency step runs = c.noteSoftDependency step runs' := by
    funext acc dependency
    unfold noteSoftDependency
    rw [dependencyStatus_agree h]
  unfold degrade
  rw [hnote]

private theorem runStep_agree (h : AgreeOn c.readKeys runs runs') (k : ℕ) (step : DailyStep) :
    SameStep c (c.runStep k step runs) (c.runStep k step runs') := by
  have hblocked : c.blockedDependencies step runs = c.blockedDependencies step runs' := by
    unfold blockedDependencies
    rw [dependencyStatus_agree h]
  have hupstream : c.upstreamDegradedSuccessReason step runs =
      c.upstreamDegradedSuccessReason step runs' := by
    unfold upstreamDegradedSuccessReason
    rw [dependencyStatus_agree h]
  unfold runStep
  rw [rowOf_agree h, hblocked, hupstream, degrade_agree h step]
  split
  · exact ⟨rfl, rfl, h⟩
  · split
    · exact block_agree h _ _
    · simp only
      split
      · exact block_agree h _ _
      · exact invoke_agree h _ _

/-- The loop decides the same, whatever the rows of other keys. -/
structure SameLoop (c : Call) (last last' : LoopEnd) : Prop where
  decisions : decisions last.events = decisions last'.events
  failed : last.failed = last'.failed
  raised : last.raised = last'.raised
  runs : AgreeOn c.readKeys last.runs last'.runs

theorem SameLoop.prepend {last last' : LoopEnd} (h : SameLoop c last last') {events events' : List Event}
    (hevents : Orchestrator.decisions events = Orchestrator.decisions events') :
    SameLoop c (last.prepend events) (last'.prepend events') := by
  refine ⟨?_, h.failed, h.raised, h.runs⟩
  have hlater := h.decisions
  unfold Orchestrator.decisions at hevents hlater ⊢
  simp only [LoopEnd.prepend, List.filterMap_append, hevents, hlater]

private theorem runSteps_agree (startAt : Option String) (k : ℕ) (started : Bool)
    (steps : List DailyStep)
    (failed : Option Int) (h : AgreeOn c.readKeys runs runs') :
    SameLoop c (c.runSteps startAt k started steps runs failed)
      (c.runSteps startAt k started steps runs' failed) := by
  induction steps generalizing k started runs runs' failed with
  | nil => exact ⟨rfl, rfl, rfl, h⟩
  | cons step steps ih =>
    have hcreated := agreeOn_createStepRows h (c.keyOf step)
    rw [runSteps, runSteps]
    simp only
    split
    case isTrue hpass =>
      unfold record
      rcases recordStep_agree hcreated (keyOf_mem_readKeys c step) with
        ⟨hnone, hnone'⟩ | ⟨after, after', hsome, hsome', hagree⟩
      · rw [hnone, hnone']
        exact ⟨rfl, rfl, rfl, hcreated⟩
      · rw [hsome, hsome']
        exact (ih _ _ _ hagree).prepend rfl
    case isFalse hreached =>
      have hstep := runStep_agree hcreated k step
      rw [← hstep.verdict]
      split
      · exact (ih _ _ _ hstep.runs).prepend hstep.decisions
      · exact (ih _ _ _ hstep.runs).prepend hstep.decisions
      · exact ⟨hstep.decisions, rfl, rfl, hstep.runs⟩
      · exact ⟨hstep.decisions, rfl, rfl, hstep.runs⟩

private theorem finalExitCode_agree (h : AgreeOn c.readKeys runs runs') (failed : Option Int) :
    c.finalExitCode runs failed = c.finalExitCode runs' failed := by
  unfold finalExitCode
  rw [rowOf_agree h]

end Call

/-- What two files of the same rows make of a call. -/
private theorem runDailyUpdate_agree {c : Call} {file file' : StateFile} {state state' : State}
    (hstate : readStateForRun file c.force = some state)
    (hstate' : readStateForRun file' c.force = some state')
    (h : AgreeOn c.readKeys state.runs state'.runs) :
    decisions (runDailyUpdate c file).events = decisions (runDailyUpdate c file').events ∧
      (runDailyUpdate c file).exitCode = (runDailyUpdate c file').exitCode := by
  have hwrote : ∀ (condition : Bool) (runs : Runs) (events : List Event),
      decisions ((if condition then [.wrote runs] else []) ++ events) = decisions events := by
    intro condition runs events
    cases condition <;> rfl
  have hwrote' : ∀ (events : List Event) (condition : Prop) [Decidable condition] (runs : Runs),
      decisions (events ++ if condition then [.wrote runs] else []) = decisions events := by
    intro events condition _ runs
    split <;> simp [decisions, Event.decision]
  unfold runDailyUpdate
  rw [hstate, hstate']
  cases c.resolveStartAt with
  | none => exact ⟨rfl, rfl⟩
  | some startAt =>
    have hloop := Call.runSteps_agree startAt 0 startAt.isNone c.steps none
      (Call.agreeOn_markAbandoned h c.checkedAt c.pid c.pidAlive)
    simp only
    rw [← hloop.raised, ← hloop.failed, ← Call.finalExitCode_agree hloop.runs]
    split
    · exact ⟨by rw [hwrote, hwrote, hloop.decisions], rfl⟩
    · split
      · exact ⟨by rw [hwrote, hwrote, hloop.decisions], rfl⟩
      · exact ⟨by rw [hwrote', hwrote', hwrote, hwrote, hloop.decisions], rfl⟩

/-! The sweep over all keys -/

private theorem mem_of_ownRow {runs : Runs} {stepId : String} {key : StateKey} {row : StepRow}
    (h : ownRow runs stepId key = some row) :
    ∃ run ∈ runs, run.1 = key ∧ ∃ entry ∈ RunState.rows (Dict.get key runs), entry.1 = stepId := by
  have hmem : ∀ {κ β : Type} [DecidableEq κ] {k : κ} {l : Dict κ β} {v : β},
      Dict.get k l = some v → ∃ e ∈ l, e.1 = k := by
    intro κ β _ k l v hget
    induction l with
    | nil => cases hget
    | cons e l ih =>
      unfold Dict.get at hget
      split at hget
      · rename_i hkey
        exact ⟨e, List.mem_cons_self, hkey⟩
      · obtain ⟨e', he', hkey⟩ := ih hget
        exact ⟨e', List.mem_cons_of_mem _ he', hkey⟩
  unfold ownRow at h
  cases hrun : Dict.get key runs with
  | none =>
    rw [hrun] at h
    cases h
  | some run =>
    rw [hrun] at h
    cases hentry : Dict.get stepId (RunState.rows (some run)) with
    | none =>
      rw [hentry] at h
      cases h
    | some entry =>
      obtain ⟨e, he, hkey⟩ := hmem hrun
      exact ⟨e, he, hkey, hmem hentry⟩

private theorem sweepRaises_iff {c : Call} {pidRaises : Int → Bool}
    {zoned : StateKey → String → Bool}
    {runs : Runs} : c.sweepRaises pidRaises zoned runs = true ↔
      ∃ key stepId row, ownRow runs stepId key = some row ∧
        c.stumbles pidRaises (zoned key stepId) row = true := by
  unfold Call.sweepRaises
  rw [List.any_eq_true]
  constructor
  · rintro ⟨run, hrun, hany⟩
    obtain ⟨entry, hentry, hstumbles⟩ := List.any_eq_true.mp hany
    split at hstumbles
    · rename_i row hrow
      exact ⟨run.1, entry.1, row, hrow, hstumbles⟩
    · cases hstumbles
  · rintro ⟨key, stepId, row, hrow, hstumbles⟩
    obtain ⟨run, hrun, rfl, entry, hentry, rfl⟩ := mem_of_ownRow hrow
    refine ⟨run, hrun, List.any_eq_true.mpr ⟨entry, hentry, ?_⟩⟩
    rw [hrow]
    exact hstumbles

theorem SameRows.symm {c : Call} {found found' : FoundFile} {runs runs' : Runs}
    (h : SameRows c found found' runs runs') : SameRows c found' found runs' runs :=
  ⟨h.read', h.read, fun key hkey stepId => (h.rows key hkey stepId).symm,
    fun key hkey => (h.zoned key hkey).symm⟩

private theorem sweepRaises_of_sameRows {pidRaises : Int → Bool} {c : Call}
    {found found' : FoundFile}
    {runs runs' : Runs} (h : SameRows c found found' runs runs')
    (hquiet : QuietElsewhere pidRaises c found runs)
    (hraises : c.sweepRaises pidRaises found.zoned runs = true) :
    c.sweepRaises pidRaises found'.zoned runs' = true := by
  obtain ⟨key, stepId, row, hrow, hstumbles⟩ := sweepRaises_iff.mp hraises
  have hkey : key ∈ c.readKeys := by
    by_contra hnot
    rw [hquiet key hnot stepId row hrow] at hstumbles
    cases hstumbles
  refine sweepRaises_iff.mpr ⟨key, stepId, row, ?_, ?_⟩
  · rw [ownRow_eq, ← h.rows key hkey stepId, ← ownRow_eq, hrow]
  · rw [← h.zoned key hkey]
    exact hstumbles

private theorem sweepRaises_agree {pidRaises : Int → Bool} {c : Call} {found found' : FoundFile}
    {runs runs' : Runs} (h : SameRows c found found' runs runs')
    (hquiet : QuietElsewhere pidRaises c found runs)
    (hquiet' : QuietElsewhere pidRaises c found' runs') :
    c.sweepRaises pidRaises found.zoned runs = c.sweepRaises pidRaises found'.zoned runs' :=
  Bool.eq_iff_iff.mpr ⟨sweepRaises_of_sameRows h hquiet, sweepRaises_of_sameRows h.symm hquiet'⟩

private theorem runFound_wrote {pidRaises : Int → Bool} {c : Call} {found : FoundFile}
    {written : Runs}
    (h : Event.wrote written ∈ (runFound pidRaises c found).events) :
    Event.wrote written ∈ (runDailyUpdate c found.file).events := by
  unfold runFound at h
  split at h
  · split at h
    · cases h
    · exact h
  · exact h

/-! Isolation -/

/-- A call changes other keys' rows only by abandoning running ones, and decides by the
rows of its own keys as long as no row elsewhere makes the sweep raise. -/
theorem state_isolation (pidRaises : Int → Bool) (c : Call) :
    (∀ found written, Event.wrote written ∈ (runFound pidRaises c found).events →
      ∃ state, readStateForRun found.file c.force = some state ∧ ∀ key, key ∉ c.ownKeys →
        ∀ stepId, OnlyAbandoned (entryAt state.runs stepId key) (entryAt written stepId key)) ∧
    ∀ found found' runs runs', SameRows c found found' runs runs' →
      QuietElsewhere pidRaises c found runs → QuietElsewhere pidRaises c found' runs' →
        decisions (runFound pidRaises c found).events =
            decisions (runFound pidRaises c found').events ∧
          (runFound pidRaises c found).exitCode = (runFound pidRaises c found').exitCode := by
  constructor
  · intro found written hwrote
    have hwrote' := runFound_wrote hwrote
    obtain ⟨state, hstate⟩ : ∃ state, readStateForRun found.file c.force = some state := by
      have hother : StateKey.other "" ∉ c.ownKeys := by simp [Call.ownKeys]
      obtain ⟨state, hstate, -⟩ := wrote_other hother hwrote'
      exact ⟨state, hstate⟩
    refine ⟨state, hstate, fun key hkey stepId => ?_⟩
    obtain ⟨state', hstate', hget⟩ := wrote_other hkey hwrote'
    rw [hstate] at hstate'
    rw [← Option.some.inj hstate'] at hget
    have hentry : entryAt written stepId key =
        (entryAt state.runs stepId key).map (RowEntry.mark (markRow c.checkedAt c.pid c.pidAlive)) := by
      rw [← entryAt_markAbandoned]
      unfold entryAt markAbandoned
      rw [hget, Dict.get_mapValues]
    rw [hentry]
    exact onlyAbandoned_mark ..
  · intro found found' runs runs' hsame hquiet hquiet'
    have hsweep := sweepRaises_agree hsame hquiet hquiet'
    obtain ⟨⟨state, hstate, rfl⟩, ⟨state', hstate', rfl⟩, hrows, -⟩ := hsame
    unfold runFound
    rw [hstate, hstate']
    simp only [hsweep]
    split
    · exact ⟨rfl, rfl⟩
    · exact runDailyUpdate_agree hstate hstate' hrows

/-- A call that finds the process 9 alive. -/
def backfillCall : Call :=
  { sampleCall [{ id := "a", command := ["a"] }] none 0 with pidAlive := fun pid => pid == 9 }

/-- A running row of another day, started at a time that names its zone or not. -/
def otherDay (zoned : Bool) : FoundFile where
  file := .parsed ⟨true, [(.naturalDate 19000,
    .steps [("a", .row { status := .running, startedAt := some 0, pid := some 9 })])]⟩
  zoned _ _ := zoned

theorem state_isolation_other_day :
    decisions (runFound (fun _ => false) backfillCall (otherDay false)).events =
        decisions (runFound (fun _ => false) backfillCall ⟨.absent, fun _ _ => false⟩).events ∧
      (runFound (fun _ => false) backfillCall (otherDay false)).exitCode = some 0 := by
  refine ⟨((state_isolation (fun _ => false) backfillCall).2 (otherDay false)
    ⟨.absent, fun _ _ => false⟩ _ _ ⟨⟨_, rfl, rfl⟩, ⟨_, rfl, rfl⟩, ?_, fun _ _ => rfl⟩ ?_ ?_).1, by decide⟩
  · intro key hkey stepId
    simp only [Call.readKeys, Call.ownKeys, List.cons_append, List.nil_append, List.mem_cons,
      List.not_mem_nil, or_false] at hkey
    rcases hkey with rfl | rfl | rfl | rfl <;> rfl
  · intro key _ stepId row _
    cases hpid : row.pid <;> simp [Call.stumbles, otherDay, hpid]
  · intro key _ stepId row hrow
    simp [ownRow, Dict.get, RunState.rows, RowEntry.row?] at hrow

/-- A time zone in a running row of another day keeps the call from deciding anything. -/
theorem state_isolation_zoned :
    ¬∀ (pidRaises : Int → Bool) (c : Call) (found found' : FoundFile) (runs runs' : Runs),
      SameRows c found found' runs runs' →
        decisions (runFound pidRaises c found).events =
            decisions (runFound pidRaises c found').events ∧
          (runFound pidRaises c found).exitCode = (runFound pidRaises c found').exitCode := by
  intro h
  have hdiffer := (h (fun _ => false) backfillCall (otherDay true) ⟨.absent, fun _ _ => true⟩ _ _
    ⟨⟨_, rfl, rfl⟩, ⟨_, rfl, rfl⟩, ?_, fun _ _ => rfl⟩).2
  · revert hdiffer
    decide
  · intro key hkey stepId
    simp only [Call.readKeys, Call.ownKeys, List.cons_append, List.nil_append, List.mem_cons,
      List.not_mem_nil, or_false] at hkey
    rcases hkey with rfl | rfl | rfl | rfl <;> rfl

end QuantDataCenter.Orchestrator
