import QuantDataCenter.Lib.Trace
import QuantDataCenter.Pipeline.CheckpointLookup

/-!
Runs that resume from checkpoints. An AkShare module records nothing about a task
it skips; the daily update does so too when all its targets are complete before it
starts, and otherwise replaces the checkpoint it relied on by a skipped one.
-/

set_option autoImplicit false
set_option relaxedAutoImplicit false

namespace QuantDataCenter.Pipeline

open QuantDataCenter.Lib
open QuantDataCenter.Lib.Keyed
open QuantDataCenter.Tabular
open QuantDataCenter.Storage.Metadata

inductive Visit where
  | skipped (key : CheckpointKey)
  | fetched (key : CheckpointKey)
  deriving DecidableEq, Repr

def Visit.key : Visit → CheckpointKey
  | .skipped key => key
  | .fetched key => key

/-- The visits of a run and its metadata calls, each with the key it is made for. -/
structure RunOutcome where
  visits : List Visit
  calls : List (Option CheckpointKey × CallStep)

namespace RunOutcome

def nothing : RunOutcome := ⟨[], []⟩

def append (a b : RunOutcome) : RunOutcome := ⟨a.visits ++ b.visits, a.calls ++ b.calls⟩

end RunOutcome

/-! AkShare modules (`plan`, `fetch` and `record_result` around `should_skip_checkpoint`) -/

/-- A planned task, with the metadata calls that a fetch of it leads to. -/
structure PlannedTask where
  key : CheckpointKey
  outputPath : String
  calls : List CallStep

structure AkshareRun where
  tasks : List PlannedTask
  resume : Bool
  force : Bool
  outputExists : String → Bool

def AkshareRun.skips (e : CheckpointEnv) (run : AkshareRun) (checkpoints : List Row)
    (task : PlannedTask) : Bool :=
  shouldSkipCheckpoint e checkpoints task.key (run.outputExists task.outputPath) run.resume run.force
    (if run.resume && !run.force then some (.ofRows e checkpoints) else none)

def AkshareRun.perform (e : CheckpointEnv) (run : AkshareRun) (checkpoints : List Row) : RunOutcome where
  visits := run.tasks.map fun task =>
    if run.skips e checkpoints task then .skipped task.key else .fetched task.key
  calls := (run.tasks.filter fun task => !run.skips e checkpoints task).flatMap fun task =>
    task.calls.map fun call => (some task.key, call)

/-! The daily update up to its code pool (`_update_daily_impl`) -/

abbrev Window := String × String

/-- A run of the daily update. What the calendar gives for its window, before and after a fetch,
which files exist and how the calls end belongs to the run. -/
structure DailyUpdateRun where
  includeCalendar : Bool
  includeBasic : Bool
  needsCodePool : Bool
  codesKnown : Bool
  codeKeys : Window → List CheckpointKey
  resume : Bool
  force : Bool
  localWindow : Option Window
  preparedWindow : Window
  fetchedWindow : Window
  outputExists : (dataset : String) → (code : String) → Bool
  outputPath : (dataset : String) → String
  moment : Moment
  conditions : Conditions := {}
  returns : (dataset : String) → Bool
  fetchCalls : (dataset : String) → List CallStep
  codeCalls : List CallStep

def calendarDataset : String := "baostock_cn_trading_calendar"

def basicDataset : String := "baostock_cn_stock_basic"

def targetKey (dataset : String) (window : Window) : CheckpointKey :=
  ⟨"update_daily", dataset, "*", window.1, window.2⟩

namespace DailyUpdateRun

variable (e : CheckpointEnv) (run : DailyUpdateRun) (checkpoints : List Row)

def lookup : Option CheckpointLookup :=
  if run.resume && !run.force then some (.ofRows e checkpoints) else none

def requested (window : Window) : List CheckpointKey :=
  (if run.includeCalendar then [targetKey calendarDataset window] else []) ++
    (if run.includeBasic then [targetKey basicDataset window] else []) ++
    (if run.needsCodePool then run.codeKeys window else [])

/-- `_preflight_checkpoint_skip_records`: the keys that are skipped, when all of them are complete. -/
def preflight : Option (List CheckpointKey) :=
  match run.lookup e checkpoints, run.localWindow with
  | some lookup, some window =>
    if run.needsCodePool && !run.codesKnown then none
    else if run.requested window = [] then none
    else if (run.requested window).all fun key =>
        lookup.pipelineCheckpointSucceeded key (run.outputExists key.dataset key.code) then
      some (run.requested window)
    else none
  | _, _ => none

def skipsTarget (dataset : String) (window : Window) : Bool :=
  shouldSkipCheckpoint e checkpoints (targetKey dataset window) (run.outputExists dataset "*")
    run.resume run.force (run.lookup e checkpoints)

def skippedCall (dataset : String) (window : Window) : CallStep where
  call := persistRows (skippedRows
    ⟨"update_daily", dataset, "*", some window.1, some window.2, run.outputPath dataset, none⟩
    "skipped_checkpoint" run.moment "checkpoint")
  conditions := run.conditions

/-- `_write_baostock_cn_trading_calendar_target` and `_write_baostock_cn_stock_basic_target`. -/
def visitTarget (dataset : String) (window : Window) : RunOutcome :=
  if run.skipsTarget e checkpoints dataset window then
    ⟨[.skipped (targetKey dataset window)],
      [(some (targetKey dataset window), run.skippedCall dataset window)]⟩
  else
    ⟨[.fetched (targetKey dataset window)],
      (run.fetchCalls dataset).map fun call => (some (targetKey dataset window), call)⟩

/-- The targets behind the preflight: a target that raises ends the run. -/
def visitTargets : RunOutcome :=
  let window := run.localWindow.getD run.preparedWindow
  -- the preparation fetches the calendar that does not give a window
  let prepared : RunOutcome := if run.includeCalendar && run.localWindow.isNone then
    ⟨[.fetched (targetKey calendarDataset window)], []⟩ else .nothing
  let calendar := if run.includeCalendar then run.visitTarget e checkpoints calendarDataset window
    else .nothing
  let window' := if run.includeCalendar && !run.skipsTarget e checkpoints calendarDataset window &&
    run.localWindow.isSome then run.fetchedWindow else window
  let basic := if run.includeBasic || (run.needsCodePool && !run.codesKnown) then
    run.visitTarget e checkpoints basicDataset window' else .nothing
  let basicReturns := !(run.includeBasic || (run.needsCodePool && !run.codesKnown)) ||
    run.returns basicDataset
  let codes : RunOutcome := if basicReturns then ⟨[], run.codeCalls.map fun call => (none, call)⟩
    else .nothing
  let rest : RunOutcome := if run.includeCalendar && !run.returns calendarDataset then .nothing
    else basic.append codes
  prepared.append (calendar.append rest)

def perform : RunOutcome :=
  match run.preflight e checkpoints with
  | some keys => ⟨keys.map .skipped, []⟩
  | none => run.visitTargets e checkpoints

end DailyUpdateRun

/-! Runs one after the other -/

inductive ResumeRun where
  | akshare (run : AkshareRun)
  | daily (run : DailyUpdateRun)
  | other (call : CallStep)

namespace ResumeRun

def perform (e : CheckpointEnv) (tables : Tables) : ResumeRun → RunOutcome
  | .akshare run => run.perform e (tables.keyed .pipelineCheckpoints)
  | .daily run => run.perform e (tables.keyed .pipelineCheckpoints)
  | .other call => ⟨[], [(none, call)]⟩

def next (e : CheckpointEnv) (tables : Tables) (run : ResumeRun) : Tables :=
  (run.perform e tables).calls.foldl (fun tables call => tables.next e.toSeriesReader call.2) tables

/-- The run resumes without force, and the output of the key is there. -/
def Resumes (key : CheckpointKey) : ResumeRun → Prop
  | .akshare run => run.resume = true ∧ run.force = false ∧
      ∀ task ∈ run.tasks, task.key = key → run.outputExists task.outputPath = true
  | .daily run => run.resume = true ∧ run.force = false ∧
      run.outputExists key.dataset key.code = true
  | .other _ => True

def Visits (e : CheckpointEnv) (key : CheckpointKey) (tables : Tables) (run : ResumeRun) : Prop :=
  ∃ visit ∈ (run.perform e tables).visits, visit.key = key

/-- A later run: if it is about the key it resumes, and what it writes for other tasks has no
row of the key. -/
structure Later (e : CheckpointEnv) (key : CheckpointKey) (tables : Tables) (run : ResumeRun) :
    Prop where
  resumes : run.Visits e key tables → run.Resumes key
  others : ∀ call ∈ (run.perform e tables).calls, call.1 ≠ some key →
    Elsewhere e.toSeriesReader key call.2.call

/-- A daily update that is about the key finds all its targets complete before it starts. -/
def Silent (e : CheckpointEnv) (key : CheckpointKey) (tables : Tables) (run : ResumeRun) : Prop :=
  match run with
  | .daily update => run.Visits e key tables →
      (update.preflight e (tables.keyed .pipelineCheckpoints)).isSome = true
  | _ => True

end ResumeRun

/-! What a run does about a key that stands as a success -/

section Resume

variable {e : CheckpointEnv} {key : CheckpointKey} {tables : Tables} {run : ResumeRun}

private theorem akshare_skips {akshare : AkshareRun} {checkpoints : List Row} {task : PlannedTask}
    (h : Succeeded e.toPandas checkpoints key) (hkey : task.key = key)
    (hresume : akshare.resume = true) (hforce : akshare.force = false)
    (houtput : akshare.outputExists task.outputPath = true) : akshare.skips e checkpoints task = true := by
  unfold AkshareRun.skips
  rw [hkey, houtput, hresume, hforce]
  exact shouldSkip_of_succeeded h (Or.inr rfl)

/-- The calls for a key stand beside a visit of the key. -/
def RunOutcome.Told (outcome : RunOutcome) : Prop :=
  ∀ call ∈ outcome.calls, ∀ key, call.1 = some key → ∃ visit ∈ outcome.visits, visit.key = key

theorem RunOutcome.Told.nothing : RunOutcome.nothing.Told := fun _ hcall => (by cases hcall)

theorem RunOutcome.Told.append {a b : RunOutcome} (ha : a.Told) (hb : b.Told) : (a.append b).Told := by
  intro call hcall key hkey
  rcases List.mem_append.mp hcall with hleft | hright
  · obtain ⟨visit, hvisit, hvisitKey⟩ := ha call hleft key hkey
    exact ⟨visit, List.mem_append_left _ hvisit, hvisitKey⟩
  · obtain ⟨visit, hvisit, hvisitKey⟩ := hb call hright key hkey
    exact ⟨visit, List.mem_append_right _ hvisit, hvisitKey⟩

private theorem RunOutcome.Told.ite {a b : RunOutcome} {condition : Prop} [Decidable condition]
    (ha : a.Told)
    (hb : b.Told) : (if condition then a else b).Told := by
  split
  · exact ha
  · exact hb

private theorem told_visitTarget {update : DailyUpdateRun} {checkpoints : List Row}
    {dataset : String}
    {window : Window} : (update.visitTarget e checkpoints dataset window).Told := by
  unfold DailyUpdateRun.visitTarget
  refine RunOutcome.Told.ite (fun call hcall key hkey => ?_) fun call hcall key hkey => ?_
  · rw [List.mem_singleton.mp hcall] at hkey
    exact ⟨_, List.mem_singleton_self _, Option.some.inj hkey⟩
  · obtain ⟨step, -, rfl⟩ := List.mem_map.mp hcall
    exact ⟨_, List.mem_singleton_self _, Option.some.inj hkey⟩

private theorem told_perform (run : ResumeRun) : (run.perform e tables).Told := by
  cases run with
  | other other =>
    intro call hcall key hkey
    rw [List.mem_singleton.mp hcall] at hkey
    cases hkey
  | akshare akshare =>
    intro call hcall key hkey
    obtain ⟨task, htask, hmem⟩ := List.mem_flatMap.mp hcall
    obtain ⟨step, -, rfl⟩ := List.mem_map.mp hmem
    obtain ⟨hplanned, hskips⟩ := List.mem_filter.mp htask
    refine ⟨.fetched task.key, List.mem_map.mpr ⟨task, hplanned, ?_⟩, Option.some.inj hkey⟩
    rw [Bool.not_eq_true'] at hskips
    rw [hskips]
    rfl
  | daily update =>
    have hcodes : (RunOutcome.mk [] (update.codeCalls.map fun call => (none, call))).Told := by
      intro call hcall key hkey
      obtain ⟨step, -, rfl⟩ := List.mem_map.mp hcall
      cases hkey
    simp only [ResumeRun.perform, DailyUpdateRun.perform]
    split
    · exact fun _ hcall => (by cases hcall)
    · unfold DailyUpdateRun.visitTargets
      refine RunOutcome.Told.append (.ite (fun _ hcall => by cases hcall) .nothing)
        (.append (.ite told_visitTarget .nothing) (.ite .nothing
          (.append (.ite told_visitTarget .nothing) (.ite hcodes .nothing))))

/-- The step lemma: a run that is silent about the key skips it and writes no row of it. -/
private theorem silent_run (h : Succeeded e.toPandas (tables.keyed .pipelineCheckpoints) key)
    (hlater : run.Later e key tables) (hsilent : run.Silent e key tables) :
    .fetched key ∉ (run.perform e tables).visits ∧
      ∀ call ∈ (run.perform e tables).calls, call.1 ≠ some key := by
  cases run with
  | other call =>
    refine ⟨fun hmem => (by cases hmem), fun call' hcall => ?_⟩
    rw [List.mem_singleton.mp hcall]
    simp
  | akshare akshare =>
    have hskips : ∀ task ∈ akshare.tasks, task.key = key →
        akshare.skips e (tables.keyed .pipelineCheckpoints) task = true := by
      intro task htask hkey
      have hvisits : (ResumeRun.akshare akshare).Visits e key tables := by
        refine ⟨_, List.mem_map_of_mem htask, ?_⟩
        split <;> exact hkey
      obtain ⟨hresume, hforce, houtput⟩ := hlater.resumes hvisits
      exact akshare_skips h hkey hresume hforce (houtput task htask hkey)
    constructor
    · intro hfetched
      obtain ⟨task, htask, hvisit⟩ := List.mem_map.mp hfetched
      split at hvisit
      · cases hvisit
      · rename_i hnot
        exact hnot (hskips task htask (Visit.fetched.inj hvisit))
    · intro call hcall hkey
      obtain ⟨task, htask, hmem⟩ := List.mem_flatMap.mp hcall
      obtain ⟨step, -, rfl⟩ := List.mem_map.mp hmem
      obtain ⟨hplanned, hnot⟩ := List.mem_filter.mp htask
      rw [hskips task hplanned (Option.some.inj hkey)] at hnot
      cases hnot
  | daily update =>
    by_cases hvisits : (ResumeRun.daily update).Visits e key tables
    · obtain ⟨keys, hkeys⟩ := Option.isSome_iff_exists.mp (hsilent hvisits)
      have hperform : (ResumeRun.daily update).perform e tables = ⟨keys.map .skipped, []⟩ := by
        simp only [ResumeRun.perform, DailyUpdateRun.perform, hkeys]
      rw [hperform]
      refine ⟨fun hfetched => ?_, fun call hcall => by cases hcall⟩
      obtain ⟨other, -, hvisit⟩ := List.mem_map.mp hfetched
      cases hvisit
    · exact ⟨fun hfetched => hvisits ⟨_, hfetched, rfl⟩, fun call hcall hkey =>
        hvisits (told_perform _ call hcall key hkey)⟩

private theorem succeeded_foldl {calls : List (Option CheckpointKey × CallStep)}
    (h : Succeeded e.toPandas (tables.keyed .pipelineCheckpoints) key)
    (helsewhere : ∀ call ∈ calls, Elsewhere e.toSeriesReader key call.2.call) :
    Succeeded e.toPandas ((calls.foldl (fun tables call => tables.next e.toSeriesReader call.2)
      tables).keyed .pipelineCheckpoints) key := by
  induction calls generalizing tables with
  | nil => exact h
  | cons call calls ih =>
    exact ih (succeeded_next h (helsewhere call List.mem_cons_self)) fun later hmem =>
      helsewhere later (List.mem_cons_of_mem _ hmem)

private theorem succeeded_run (h : Succeeded e.toPandas (tables.keyed .pipelineCheckpoints) key)
    (hlater : run.Later e key tables) (hsilent : run.Silent e key tables) :
    Succeeded e.toPandas ((run.next e tables).keyed .pipelineCheckpoints) key := by
  have hcalls := (silent_run h hlater hsilent).2
  exact succeeded_foldl h fun call hcall => hlater.others call hcall (hcalls call hcall)

/-- However many runs follow a success, the key stays a success and none of them fetches it, if
each of them that is about the key is silent. -/
theorem resume_idempotent (e : CheckpointEnv) (key : CheckpointKey) (tables : Tables)
    (runs : List ResumeRun) (h : Succeeded e.toPandas (tables.keyed .pipelineCheckpoints) key)
    (hlater : Trace.Guarded (fun tables run => run.next e tables)
      (fun tables run => run.Later e key tables) tables runs)
    (hsilent : Trace.Guarded (fun tables run => run.next e tables)
      (fun tables run => run.Silent e key tables) tables runs) :
    Succeeded e.toPandas
        ((runs.foldl (fun tables run => run.next e tables) tables).keyed .pipelineCheckpoints) key ∧
      Trace.Guarded (fun tables run => run.next e tables)
        (fun tables run => .fetched key ∉ (run.perform e tables).visits) tables runs := by
  induction runs generalizing tables with
  | nil => exact ⟨h, trivial⟩
  | cons run runs ih =>
    obtain ⟨hrun, hrest⟩ := hlater
    obtain ⟨hrunSilent, hrestSilent⟩ := hsilent
    obtain ⟨hend, hfetches⟩ := ih _ (succeeded_run h hrun hrunSilent) hrest hrestSilent
    exact ⟨hend, (silent_run h hrun hrunSilent).1, hfetches⟩

end Resume

/-! A success of the spot quotes, and one of the basic data before a code is complete -/

def resumeEnv : CheckpointEnv := ⟨plainReader, .stable _, .stable _⟩

/-- The tables after the success of a task. -/
def tablesAfter (task : LifecycleTaskRef) : Tables :=
  emptyTables.next plainReader { call := persistRows (successRows task firstMoment 1) }

private theorem succeeded_of_check {p : Pandas} {checkpoints : List Row} {key : CheckpointKey}
    (hstored : checkpoints.any (matchesPipeline p key) = true)
    (hsuccess : (checkpoints.all fun row =>
      lookupKey p row != some key || rowStatus p row == "success") = true) :
    Succeeded p checkpoints key := by
  refine ⟨List.any_eq_true.mp hstored, fun row hrow hkey => ?_⟩
  have hcheck := List.all_eq_true.mp hsuccess row hrow
  simpa [hkey] using hcheck

def spotKey : CheckpointKey :=
  ⟨"update_akshare_spot", "akshare_cn_stock_spot_quote_eastmoney", "*", "2024-01-02", "2024-01-02"⟩

def spotTask : LifecycleTaskRef :=
  ⟨"update_akshare_spot", "akshare_cn_stock_spot_quote_eastmoney", "*", some "2024-01-02",
    some "2024-01-02", "data.parquet", none⟩

/-- A run of the spot module; a fetch would fail. -/
def spotRun : ResumeRun := .akshare
  { tasks := [⟨spotKey, "data.parquet",
      [{ call := persistRows (failureRows spotTask secondMoment "timeout") }]⟩]
    resume := true
    force := false
    outputExists := fun _ => true }

theorem resume_idempotent_spot :
    .fetched spotKey ∉ (spotRun.perform resumeEnv (tablesAfter spotTask)).visits := by
  have hlater : spotRun.Later resumeEnv spotKey (tablesAfter spotTask) := by
    refine ⟨fun _ => ⟨rfl, rfl, fun _ _ _ => rfl⟩, fun call hcall => ?_⟩
    have hnone : (spotRun.perform resumeEnv (tablesAfter spotTask)).calls.isEmpty = true := by
      decide +kernel
    rw [List.isEmpty_iff.mp hnone] at hcall
    cases hcall
  exact (resume_idempotent resumeEnv spotKey (tablesAfter spotTask) [spotRun]
    (succeeded_of_check (by decide +kernel) (by decide +kernel)) ⟨hlater, trivial⟩
    ⟨trivial, trivial⟩).2.1

def basicTask : LifecycleTaskRef :=
  ⟨"update_daily", "baostock_cn_stock_basic", "*", some "2024-01-02", some "2024-01-03",
    "data.parquet", none⟩

/-- The daily update of all targets with a code that is not complete. -/
def dailyRun : DailyUpdateRun where
  includeCalendar := false
  includeBasic := true
  needsCodePool := true
  codesKnown := true
  codeKeys window := [⟨"update_daily", "baostock_cn_stock_adjustment_factor", "sh.600000",
    "1990-01-01", window.2⟩]
  resume := true
  force := false
  localWindow := some ("2024-01-02", "2024-01-03")
  preparedWindow := ("2024-01-02", "2024-01-03")
  fetchedWindow := ("2024-01-02", "2024-01-03")
  outputExists _ _ := true
  outputPath _ := "data.parquet"
  moment := secondMoment
  returns _ := true
  fetchCalls _ := []
  codeCalls := []

/-- The second of two such runs fetches what the first one skipped. -/
theorem recorded_skip_fetches_again :
    ¬∀ (key : CheckpointKey) (tables : Tables) (runs : List ResumeRun),
      Succeeded resumeEnv.toPandas (tables.keyed .pipelineCheckpoints) key →
      Trace.Guarded (fun tables run => ResumeRun.next resumeEnv tables run)
        (fun tables run => run.Later resumeEnv key tables) tables runs →
      Trace.Guarded (fun tables run => ResumeRun.next resumeEnv tables run)
        (fun tables run => .fetched key ∉ (run.perform resumeEnv tables).visits) tables runs := by
  intro h
  have hlater : ∀ tables, ((ResumeRun.daily dailyRun).perform resumeEnv tables).calls.all
      (fun call => call.1 == some (targetKey basicDataset ("2024-01-02", "2024-01-03"))) = true →
      (ResumeRun.daily dailyRun).Later resumeEnv (targetKey basicDataset ("2024-01-02", "2024-01-03"))
        tables := by
    intro tables hcalls
    refine ⟨fun _ => ⟨rfl, rfl, rfl⟩, fun call hcall hne => ?_⟩
    exact absurd (by simpa using List.all_eq_true.mp hcalls call hcall) hne
  have hruns := h (targetKey basicDataset ("2024-01-02", "2024-01-03")) (tablesAfter basicTask)
    [.daily dailyRun, .daily dailyRun] (succeeded_of_check (by decide +kernel) (by decide +kernel))
    ⟨hlater _ (by decide +kernel), hlater _ (by decide +kernel), trivial⟩
  exact hruns.2.1 (by decide +kernel)

end QuantDataCenter.Pipeline
