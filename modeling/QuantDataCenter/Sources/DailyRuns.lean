import QuantDataCenter.Sources.DailyPartitions
import QuantDataCenter.Sources.DailyVerdicts

/-!
A code in one run of the daily update: the initial call and the full refetch it may ask for.
Every plan that is recorded as a success was computed from one base of unadjusted bars, and
its partition holds the result.
-/

set_option autoImplicit false
set_option relaxedAutoImplicit false

namespace QuantDataCenter.Sources

open QuantDataCenter.Lib.Checked QuantDataCenter.Lib.Keyed QuantDataCenter.Pipeline
open QuantDataCenter.Tabular QuantDataCenter.Storage

/-! The frame functions of the worker -/

/-- `pd.to_datetime` of a date. -/
def timestampOf (p : Pandas) (date : String) : Except StoreError Int :=
  match p.toDatetime (.text date) with
  | some ts => .ok ts
  | none => .error (.valueError ("Unknown datetime string format, unable to parse: " ++ date))

/-- The worker with the frame functions of the pipeline. -/
def DailyEnv.withFrames (e : DailyEnv) (adjustFlagForDataset : String → Except StoreError String) :
    DailyEnv :=
  { e with
    calculateAdjustedDailyBar := fun unadjusted factors dataset => do
      let adjustFlag ← adjustFlagForDataset dataset
      Sources.calculateAdjustedDailyBar e.pandas unadjusted factors dataset adjustFlag
    hasDataInRange := fun df startDate endDate => do
      let startTs ← timestampOf e.pandas startDate
      let endTs ← timestampOf e.pandas endDate
      Sources.hasDataInRange e.pandas df startTs endTs
    dailyFramesDifferOnOverlap := fun existing fresh startDate endDate => do
      let startTs ← timestampOf e.pandas startDate
      let endTs ← timestampOf e.pandas endDate
      Sources.dailyFramesDifferOnOverlap e.pandas existing fresh startTs endTs
    mergeDailyFrames := Sources.mergeDailyFrames e.pandas }

/-! The calls for one code -/

section Calls

variable (e : DailyEnv) (w : DailyWorker)

/-- A fetch as the two arguments of a call: bars, or no bars and the error of the API. -/
def fetchedBars : Except String Frame → Frame
  | .ok df => df
  | .error _ => emptyFrame

def apiErrorStack : Except String Frame → Option String
  | .ok _ => none
  | .error errorStack => some errorStack

/-- The records of the calls for a code, and the store after them. -/
def dailyCodeRun (code : String) (plans : List DailyTargetPlan) (fetchStartDate : Option String)
    (fetched : Except String Frame) (refetched : ApiFetchRequest → Except String Frame)
    (st : Store) : List (Option (MetadataRow Cell)) × Store :=
  let initial := processDailyInitial e w code plans fetchStartDate (fetchedBars fetched)
    (apiErrorStack fetched) st
  match initial.result.apiRequests with
  | [] => (initial.result.runRecords, initial.effects.store)
  | request :: _ =>
    let refetch := processDailyFullRefetch e initial.worker request
      (fetchedBars (refetched request)) (apiErrorStack (refetched request)) initial.effects.store
    (initial.result.runRecords ++ refetch.result.runRecords, refetch.effects.store)

/-- The unadjusted bars that the frames of a run are computed from. -/
inductive DailyBase (code : String) (fetched : Except String Frame)
    (refetched : ApiFetchRequest → Except String Frame) (st : Store) : Frame → Prop
  | merged {df base : Frame} (mode : w.mode ≠ "full") (answer : fetched = .ok df)
      (found : partialUnadjustedBase e w code df st = .ok (.inl base)) :
      DailyBase code fetched refetched st base
  | fetched {df : Frame} (mode : w.mode = "full") (answer : fetched = .ok df) :
      DailyBase code fetched refetched st df
  | refetched {df : Frame} {active : List (ℕ × DailyTargetPlan)} {reason : String}
      (answer : refetched (fullRefetchRequest w code active reason) = .ok df) :
      DailyBase code fetched refetched st df

end Calls

def RecordedSuccess (plan : DailyTargetPlan) (rows : List (Option (MetadataRow Cell))) : Prop :=
  ∃ row ∈ rows, About plan row ∧ Succeeded row

/-- The partition holds the frame, coerced and in order. -/
def BarsStored (p : Pandas) (dataset code : String) (df : Frame) (st : Store) : Prop :=
  ∃ coerced, coercedFrame p (dailyBarDataset dataset) df = .ok coerced ∧
    content st (dailyBarDataset dataset) (strip code) =
      stableSort (sortKey ["code", "date"]) coerced.rows

section Writes

variable {e : DailyEnv} {w : DailyWorker} {base factors : Frame}

private theorem About.dataset_eq {plan plan' : DailyTargetPlan} {row : Option (MetadataRow Cell)}
    (h : About plan row) (h' : About plan' row) : plan.dataset = plan'.dataset :=
  Cell.text.inj (Option.some.inj (h.1.symm.trans h'.1))

/-- What one attempt to write a plan leaves. -/
structure BarWrite (e : DailyEnv) (base factors : Frame) (plan : DailyTargetPlan)
    (row : Option (MetadataRow Cell)) (st st' : Store) : Prop where
  about : About plan row
  well : WellStored e.pandas st → WellStored e.pandas st'
  others : ∀ id v, id ≠ plan.dataset → st'.files id v = st.files id v
  success : WellStored e.pandas st → Succeeded row →
    ∃ fresh, dailyFrameFromUnadjusted e plan.dataset base factors = .ok fresh ∧
      BarsStored e.pandas plan.dataset plan.code fresh st'

/-- The attempts of a loop over plans, with a row for each. -/
inductive BarWrites (e : DailyEnv) (base factors : Frame) : List (ℕ × DailyTargetPlan) →
    List (Option (MetadataRow Cell)) → Store → Store → Prop
  | nil (st : Store) : BarWrites e base factors [] [] st st
  | cons {plan : ℕ × DailyTargetPlan} {plans : List (ℕ × DailyTargetPlan)}
      {row : Option (MetadataRow Cell)} {rows : List (Option (MetadataRow Cell))}
      {st st1 st2 : Store} (first : BarWrite e base factors plan.2 row st st1)
      (rest : BarWrites e base factors plans rows st1 st2) :
      BarWrites e base factors (plan :: plans) (row :: rows) st st2

theorem BarWrites.about {plans : List (ℕ × DailyTargetPlan)}
    {rows : List (Option (MetadataRow Cell))} {st st' : Store}
    (h : BarWrites e base factors plans rows st st') :
    ∀ row ∈ rows, ∃ plan ∈ plans, About plan.2 row := by
  induction h with
  | nil => simp
  | @cons plan plans row rows _ _ _ first _ ih =>
    intro row' hrow'
    rcases List.mem_cons.mp hrow' with rfl | hrow'
    · exact ⟨plan, List.mem_cons_self, first.about⟩
    · obtain ⟨plan', hplan', habout⟩ := ih row' hrow'
      exact ⟨plan', List.mem_cons_of_mem _ hplan', habout⟩

theorem BarWrites.others {plans : List (ℕ × DailyTargetPlan)}
    {rows : List (Option (MetadataRow Cell))} {st st' : Store}
    (h : BarWrites e base factors plans rows st st') :
    ∀ id v, id ∉ plans.map (fun plan => plan.2.dataset) → st'.files id v = st.files id v := by
  induction h with
  | nil => exact fun _ _ _ => rfl
  | cons first _ ih =>
    intro id v hid
    rw [List.map_cons, List.mem_cons, not_or] at hid
    rw [ih id v hid.2]
    exact first.others id v hid.1

theorem BarWrites.well {plans : List (ℕ × DailyTargetPlan)}
    {rows : List (Option (MetadataRow Cell))} {st st' : Store}
    (h : BarWrites e base factors plans rows st st') (hst : WellStored e.pandas st) :
    WellStored e.pandas st' := by
  induction h with
  | nil => exact hst
  | cons first _ ih => exact ih (first.well hst)

theorem BarWrites.success {plans : List (ℕ × DailyTargetPlan)}
    {rows : List (Option (MetadataRow Cell))} {st st' : Store}
    (h : BarWrites e base factors plans rows st st') (hst : WellStored e.pandas st)
    (hdatasets : (plans.map fun plan => plan.2.dataset).Nodup) {plan : DailyTargetPlan}
    (hsuccess : RecordedSuccess plan rows) :
    ∃ written ∈ plans, written.2.dataset = plan.dataset ∧
      ∃ fresh, dailyFrameFromUnadjusted e plan.dataset base factors = .ok fresh ∧
        BarsStored e.pandas plan.dataset written.2.code fresh st' := by
  induction h with
  | nil =>
    obtain ⟨row, hrow, -⟩ := hsuccess
    cases hrow
  | @cons head plans row rows _ _ _ first rest ih =>
    obtain ⟨hnot, hdatasets⟩ := List.nodup_cons.mp hdatasets
    obtain ⟨row', hrow', habout, hrecorded⟩ := hsuccess
    rcases List.mem_cons.mp hrow' with rfl | hrow'
    · -- the rest of the loop writes other datasets
      have hdataset := first.about.dataset_eq habout
      obtain ⟨fresh, hfresh, coerced, hcoerced, hcontent⟩ := first.success hst hrecorded
      have hrest : plan.dataset ∉ plans.map fun plan => plan.2.dataset := hdataset ▸ hnot
      rw [hdataset] at hfresh hcoerced hcontent
      refine ⟨head, List.mem_cons_self, hdataset, fresh, hfresh, coerced, hcoerced, ?_⟩
      rw [content_congr (rest.others _ _ hrest)]
      exact hcontent
    · obtain ⟨written, hwritten, hstored⟩ :=
        ih (first.well hst) hdatasets ⟨row', hrow', habout, hrecorded⟩
      exact ⟨written, List.mem_cons_of_mem _ hwritten, hstored⟩

private theorem dailyIds_of_frame {dataset : String} {fresh : Frame}
    (h : dailyFrameFromUnadjusted e dataset base factors = .ok fresh) :
    dataset ∈ baostockDailyBarDatasetIds := by
  unfold dailyFrameFromUnadjusted at h
  split at h
  case isTrue hdataset =>
    rw [hdataset]
    exact List.mem_cons_self
  case isFalse =>
    split at h
    case isTrue hadjusted =>
      have hmem : dataset ∈ adjustedDailyDatasets := of_decide_eq_true hadjusted
      exact List.mem_cons_of_mem _ hmem
    case isFalse => cases h

private theorem barWrite_failure (plan : ℕ × DailyTargetPlan) (errorStack : String) (s : Effects) :
    BarWrite e base factors plan.2 (writeDailyFailure e plan.1 plan.2 errorStack s).1 s.store
      (writeDailyFailure e plan.1 plan.2 errorStack s).2.store := by
  obtain ⟨verdict, hout, hrow, hfailed, hone⟩ := writeDailyFailure_spec e plan errorStack s
  obtain ⟨written, hwritten, habout, -⟩ := hone.about _ (List.mem_singleton_self _)
  have hplan : written = plan.2 := congrArg Prod.snd (List.mem_singleton.mp hwritten)
  rw [hout, hrow]
  exact ⟨hplan ▸ habout, fun hst => hst, fun _ _ _ => rfl, fun _ h => absurd h hfailed⟩

private theorem writePlan_kept (plan : ℕ × DailyTargetPlan) (runStartDate : String) (s : Effects) :
    let out := writePlan e plan.1 plan.2 base factors runStartDate s
    (WellStored e.pandas s.store → WellStored e.pandas out.2.store) ∧
      ∀ id v, id ≠ plan.2.dataset → out.2.store.files id v = s.store.files id v := by
  unfold writePlan
  cases hframe : dailyFrameFromUnadjusted e plan.2.dataset base factors with
  | error err => exact ⟨fun hst => hst, fun _ _ _ => rfl⟩
  | ok fresh =>
    have hwell : WellStored e.pandas s.store → WellStored e.pandas (Storage.writeDataset e.pandas
        e.hashing (e.writes plan.1) plan.2.dataset fresh (codePartition plan.2.code) none false
        s.store).2 := wellStored_writeDataset
    have hfiles : ∀ id v, id ≠ plan.2.dataset → (Storage.writeDataset e.pandas e.hashing
        (e.writes plan.1) plan.2.dataset fresh (codePartition plan.2.code) none false
        s.store).2.files id v = s.store.files id v :=
      fun id v hid => writeDataset_files_of_ne hid v
    unfold writeDailySuccess Effects.writeDataset Effects.add
    simp only
    revert hwell hfiles
    generalize Storage.writeDataset e.pandas e.hashing (e.writes plan.1) plan.2.dataset fresh
      (codePartition plan.2.code) none false s.store = out
    intro hwell hfiles
    obtain ⟨result, st'⟩ := out
    cases result with
    | error err => exact ⟨hwell, hfiles⟩
    | ok result =>
      simp only
      cases primaryPath result with
      | error err => exact ⟨hwell, hfiles⟩
      | ok path =>
        simp only
        cases e.flushes plan.1 with
        | none => exact ⟨hwell, hfiles⟩
        | some err => exact ⟨hwell, hfiles⟩

private theorem writePlan_stored {plan : ℕ × DailyTargetPlan} {runStartDate : String}
    {s s' : Effects}
    {row : Option (MetadataRow Cell)} (hst : WellStored e.pandas s.store)
    (hrun : writePlan e plan.1 plan.2 base factors runStartDate s = (.ok row, s')) :
    ∃ fresh, dailyFrameFromUnadjusted e plan.2.dataset base factors = .ok fresh ∧
      BarsStored e.pandas plan.2.dataset plan.2.code fresh s'.store := by
  unfold writePlan at hrun
  cases hframe : dailyFrameFromUnadjusted e plan.2.dataset base factors with
  | error err =>
    rw [hframe] at hrun
    cases (Prod.mk.inj hrun).1
  | ok fresh =>
    have hid := dailyIds_of_frame hframe
    have hseveral : (dailyBarDataset plan.2.dataset).sortColumns.length ≠ 1 := by
      change ["code", "date"].length ≠ 1
      decide
    rw [hframe] at hrun
    unfold writeDailySuccess Effects.writeDataset Effects.add at hrun
    simp only at hrun
    rcases hwrite : Storage.writeDataset e.pandas e.hashing (e.writes plan.1) plan.2.dataset fresh
      (codePartition plan.2.code) none false s.store with ⟨result, st'⟩
    rw [hwrite] at hrun
    cases result with
    | error err => cases (Prod.mk.inj hrun).1
    | ok result =>
      obtain ⟨-, -, coerced, hcoerced, hcontent⟩ :=
        @replacePartition_spec e.pandas e.hashing s.store st' plan.2.code
          (dailyBarDataset plan.2.dataset) _ fresh result (dailyBar_mem hid)
          (baostockBars_definition hid) rfl rfl rfl hst hwrite
      rw [sortValues_several hseveral] at hcontent
      have hstore : s'.store = st' := by
        simp only at hrun
        cases hpath : primaryPath result with
        | error err =>
          rw [hpath] at hrun
          cases (Prod.mk.inj hrun).1
        | ok path =>
          rw [hpath] at hrun
          simp only at hrun
          cases hflush : e.flushes plan.1 with
          | none =>
            rw [hflush] at hrun
            exact congrArg Effects.store (Prod.mk.inj hrun).2.symm
          | some err =>
            rw [hflush] at hrun
            cases (Prod.mk.inj hrun).1
      exact ⟨fresh, rfl, coerced, hcoerced, by rw [hstore]; exact hcontent⟩

private theorem barWrite_of_returned {plan : ℕ × DailyTargetPlan} {runStartDate : String}
    {s s' : Effects}
    {row : Option (MetadataRow Cell)}
    (hrun : writePlan e plan.1 plan.2 base factors runStartDate s = (.ok row, s')) :
    BarWrite e base factors plan.2 row s.store s'.store := by
  obtain ⟨hwell, hothers⟩ := @writePlan_kept e base factors plan runStartDate s
  obtain ⟨-, hstep⟩ := writePlan_step e plan base factors runStartDate s
  rw [hrun] at hwell hothers hstep
  have habout : About plan.2 row := by
    generalize planOutcome e s.store.staging base factors plan = outcome at hstep
    cases hstep with
    | returned habout => exact habout.1
  exact ⟨habout, hwell, hothers, fun hst _ => writePlan_stored hst hrun⟩

private theorem barWrite_frame (plan : ℕ × DailyTargetPlan) (runStartDate : String) (s : Effects) :
    BarWrite e base factors plan.2
      (writeDailyFrame e plan.1 plan.2 base factors runStartDate s).1 s.store
      (writeDailyFrame e plan.1 plan.2 base factors runStartDate s).2.store := by
  obtain ⟨hwell, hothers⟩ := @writePlan_kept e base factors plan runStartDate s
  unfold writeDailyFrame
  rcases hrun : writePlan e plan.1 plan.2 base factors runStartDate s with ⟨result, s'⟩
  rw [hrun] at hwell hothers
  cases result with
  | ok row => exact barWrite_of_returned hrun
  | error err =>
    have hfailure := @barWrite_failure e base factors plan (e.formatExc err) s'
    refine ⟨hfailure.about, fun hst => hfailure.well (hwell hst), fun id v hid => ?_,
      fun hst => hfailure.success (hwell hst)⟩
    rw [hfailure.others id v hid]
    exact hothers id v hid

private theorem barWrites_frames (plans : List (ℕ × DailyTargetPlan)) (runStartDate : String)
    (s : Effects) :
    BarWrites e base factors plans (writeDailyFramesFrom e base factors runStartDate plans s).1
      s.store (writeDailyFramesFrom e base factors runStartDate plans s).2.store := by
  induction plans generalizing s with
  | nil => exact .nil s.store
  | cons plan plans ih => exact .cons (barWrite_frame plan runStartDate s) (ih _)

private theorem barWrites_loop {plans : List (ℕ × DailyTargetPlan)} {s s' : Effects}
    {rows : List (Option (MetadataRow Cell))}
    (hrun : writePartialFrames e base factors plans s = (.ok rows, s')) :
    BarWrites e base factors plans rows s.store s'.store := by
  induction plans generalizing s rows with
  | nil =>
    obtain ⟨hrows, rfl⟩ := Prod.mk.inj hrun
    obtain rfl := Except.ok.inj hrows
    exact .nil s.store
  | cons plan plans ih =>
    unfold writePartialFrames at hrun
    rcases hfirst : writePlan e plan.1 plan.2 base factors (partialRunStartDate plan.2) s
      with ⟨result, s1⟩
    rw [hfirst] at hrun
    cases result with
    | error err => cases (Prod.mk.inj hrun).1
    | ok row =>
      simp only at hrun
      rcases hrest : writePartialFrames e base factors plans s1 with ⟨result, s2⟩
      rw [hrest] at hrun
      cases result with
      | error err => cases (Prod.mk.inj hrun).1
      | ok rest =>
        obtain ⟨hrows, rfl⟩ := Prod.mk.inj hrun
        obtain rfl := Except.ok.inj hrows
        exact .cons (barWrite_of_returned hfirst) (ih hrest)

end Writes

/-! The calls -/

section Outcomes

variable {e : DailyEnv} {w : DailyWorker} {code : String} {fetched : Except String Frame}
  {refetched : ApiFetchRequest → Except String Frame} {st : Store}

/-- The plans that do not fail for want of factors. -/
def activePlans (w : DailyWorker) (code : String) (plans : List DailyTargetPlan) :
    List (ℕ × DailyTargetPlan) :=
  (numbered plans).filter fun plan => !failsEarly (w.factorStateForCode code) plan

theorem mem_numbered {plans : List DailyTargetPlan} {plan : ℕ × DailyTargetPlan}
    (h : plan ∈ numbered plans) : plan.2 ∈ plans := by
  obtain ⟨entry, hentry, rfl⟩ := List.mem_map.mp h
  exact List.fst_mem_of_mem_zipIdx hentry

private theorem numbered_datasets (plans : List DailyTargetPlan) :
    (numbered plans).map (fun plan => plan.2.dataset) = plans.map DailyTargetPlan.dataset := by
  have hfirst : ((fun plan : ℕ × DailyTargetPlan => plan.2.dataset) ∘ Prod.swap) =
      DailyTargetPlan.dataset ∘ (Prod.fst : DailyTargetPlan × ℕ → DailyTargetPlan) := rfl
  unfold numbered
  rw [List.map_map, hfirst, ← List.map_map, List.zipIdx_map_fst]

private theorem writeDailyFailures_rows (errorStack : String) (plans : List (ℕ × DailyTargetPlan))
    (s : Effects) :
    (∀ row ∈ (writeDailyFailures e errorStack plans s).1, ¬Succeeded row) ∧
      (writeDailyFailures e errorStack plans s).2.store = s.store := by
  induction plans generalizing s with
  | nil => exact ⟨by simp [writeDailyFailures], rfl⟩
  | cons plan plans ih =>
    obtain ⟨verdict, hout, hrow, hfailed, -⟩ := writeDailyFailure_spec e plan errorStack s
    obtain ⟨hrows, hstore⟩ := ih (writeDailyFailure e plan.1 plan.2 errorStack s).2
    constructor
    · intro row hmem
      rcases List.mem_cons.mp hmem with heq | hmem
      · have hverdict : row = verdict.runRow := heq.trans hrow
        rw [hverdict]
        exact hfailed
      · exact hrows row hmem
    · change (writeDailyFailures e errorStack plans
        (writeDailyFailure e plan.1 plan.2 errorStack s).2).2.store = s.store
      rw [hstore, hout]

/-- The ways the active plans are processed, once no exception leaves them. -/
inductive ActiveEnds (e : DailyEnv) (w : DailyWorker) (code : String) (factors : Frame)
    (active : List (ℕ × DailyTargetPlan)) (fetched : Except String Frame) (st : Store) :
    BackgroundTaskResult → Store → Prop
  | failed {rows : List (Option (MetadataRow Cell))} (failures : ∀ row ∈ rows, ¬Succeeded row) :
      ActiveEnds e w code factors active fetched st ⟨rows, []⟩ st
  | merged {df base : Frame} {rows : List (Option (MetadataRow Cell))} {st' : Store}
      (mode : w.mode ≠ "full") (answer : fetched = .ok df)
      (found : partialUnadjustedBase e w code df st = .ok (.inl base))
      (writes : BarWrites e base factors active rows st st') :
      ActiveEnds e w code factors active fetched st ⟨rows, []⟩ st'
  | fetched {df : Frame} {rows : List (Option (MetadataRow Cell))} {st' : Store}
      (mode : w.mode = "full") (answer : fetched = .ok df)
      (writes : BarWrites e df factors active rows st st') :
      ActiveEnds e w code factors active fetched st ⟨rows, []⟩ st'
  | requested {reason : String} :
      ActiveEnds e w code factors active fetched st
        ⟨[], [fullRefetchRequest w code active reason]⟩ st

private theorem processActivePlans_ends {active : List (ℕ × DailyTargetPlan)}
    {fetchStartDate : Option String} {s s' : Effects} {result : BackgroundTaskResult}
    (hcode : firstCode active = code)
    (hrun : processActivePlans e w code (w.factorStateForCode code) active fetchStartDate
      (fetchedBars fetched) (apiErrorStack fetched) s = (.ok result, s')) :
    ActiveEnds e w code (w.factorStateForCode code).frame active fetched s.store result
      s'.store := by
  have hfailures : ∀ errorStack, ActiveEnds e w code (w.factorStateForCode code).frame active
      fetched s.store ⟨(writeDailyFailures e errorStack active s).1, []⟩
      (writeDailyFailures e errorStack active s).2.store := by
    intro errorStack
    obtain ⟨hrows, hstore⟩ := @writeDailyFailures_rows e errorStack active s
    rw [hstore]
    exact .failed hrows
  unfold processActivePlans at hrun
  split at hrun
  case isTrue hmode =>
    split at hrun
    case isTrue =>
      obtain ⟨hresult, rfl⟩ := Prod.mk.inj hrun
      obtain rfl := Except.ok.inj hresult
      exact .requested
    case isFalse =>
      cases fetched with
      | error errorStack =>
        obtain ⟨hresult, rfl⟩ := Prod.mk.inj hrun
        obtain rfl := Except.ok.inj hresult
        exact hfailures errorStack
      | ok df =>
        obtain ⟨hresult, rfl⟩ := Prod.mk.inj hrun
        obtain rfl := Except.ok.inj hresult
        have hwrites := @barWrites_frames e df (w.factorStateForCode (firstCode active)).frame active
          fullHistoryStartDate s
        rw [hcode] at hwrites
        refine .fetched hmode rfl ?_
        simp only [hcode]
        exact hwrites
  case isFalse hmode =>
    cases fetched with
    | error errorStack =>
      obtain ⟨hresult, rfl⟩ := Prod.mk.inj hrun
      obtain rfl := Except.ok.inj hresult
      exact hfailures errorStack
    | ok df =>
      simp only [apiErrorStack, fetchedBars] at hrun
      rcases hbase : partialUnadjustedBase e w code df s.store with err | base | reason
      · rw [hbase] at hrun
        cases (Prod.mk.inj hrun).1
      · rw [hbase] at hrun
        simp only at hrun
        rcases hloop : writePartialFrames e base (w.factorStateForCode code).frame active s
          with ⟨result', s1⟩
        rw [hloop] at hrun
        cases result' with
        | error err => cases (Prod.mk.inj hrun).1
        | ok rows =>
          obtain ⟨hresult, rfl⟩ := Prod.mk.inj hrun
          obtain rfl := Except.ok.inj hresult
          exact .merged hmode rfl hbase (barWrites_loop hloop)
      · rw [hbase] at hrun
        obtain ⟨hresult, rfl⟩ := Prod.mk.inj hrun
        obtain rfl := Except.ok.inj hresult
        exact .requested

private theorem ActiveEnds.of_setDailyPlans {plans : List DailyTargetPlan} {factors : Frame}
    {active : List (ℕ × DailyTargetPlan)} {result : BackgroundTaskResult} {st' : Store}
    (h : ActiveEnds e (w.setDailyPlans code plans) code factors active fetched st result st') :
    ActiveEnds e w code factors active fetched st result st' := by
  cases h with
  | failed failures => exact .failed failures
  | merged mode answer found writes => exact .merged mode answer found writes
  | fetched mode answer writes => exact .fetched mode answer writes
  | requested => exact .requested

private theorem firstCode_of_codes {active : List (ℕ × DailyTargetPlan)} (hne : active ≠ [])
    (hcodes : ∀ plan ∈ active, plan.2.code = code) : firstCode active = code := by
  cases active with
  | nil => exact absurd rfl hne
  | cons plan plans => exact hcodes plan List.mem_cons_self

/-- An initial call records no success, or it goes through its active plans. -/
private theorem processDailyInitial_ends {plans : List DailyTargetPlan}
    {fetchStartDate : Option String}
    (hcodes : ∀ plan ∈ plans, plan.code = code) :
    let out := processDailyInitial e w code plans fetchStartDate (fetchedBars fetched)
      (apiErrorStack fetched) st
    (out.result.apiRequests = [] ∧ ∀ row ∈ out.result.runRecords, ¬Succeeded row) ∨
    ∃ early result, (∀ row ∈ early, ¬Succeeded row) ∧
      out.result = { result with runRecords := early ++ result.runRecords } ∧
      ActiveEnds e w code (w.factorStateForCode code).frame (activePlans w code plans) fetched st
        result out.effects.store ∧
      (result.apiRequests ≠ [] → out.worker = w.setDailyPlans code plans) := by
  intro out
  obtain ⟨hearly, hstore⟩ := @writeDailyFailures_rows e
    ((w.factorStateForCode code).errorStack.getD "")
    ((numbered plans).filter (failsEarly (w.factorStateForCode code))) ⟨st, [], []⟩
  have hfactors : (w.setDailyPlans code plans).factorStateForCode code =
      w.factorStateForCode code := rfl
  have hout : out = processDailyInitial e w code plans fetchStartDate (fetchedBars fetched)
      (apiErrorStack fetched) st := rfl
  unfold processDailyInitial processDailyInitialBody writeEarlyFailures at hout
  simp only [hfactors] at hout
  revert hout hearly hstore
  generalize writeDailyFailures e ((w.factorStateForCode code).errorStack.getD "")
    ((numbered plans).filter (failsEarly (w.factorStateForCode code))) ⟨st, [], []⟩ = failed
  intro hearly hstore hout
  obtain ⟨early, s⟩ := failed
  simp only at hearly hstore
  by_cases hnil : activePlans w code plans = []
  · left
    rw [activePlans] at hnil
    simp only [hnil, if_true] at hout
    rw [hout]
    exact ⟨rfl, hearly⟩
  · have hcode : firstCode (activePlans w code plans) = code :=
      firstCode_of_codes hnil fun plan hplan =>
        hcodes plan.2 (mem_numbered (List.mem_filter.mp hplan).1)
    rw [activePlans] at hnil
    simp only [if_neg hnil] at hout
    rcases hactive : processActivePlans e (w.setDailyPlans code plans) code
      (w.factorStateForCode code) (activePlans w code plans) fetchStartDate (fetchedBars fetched)
      (apiErrorStack fetched) s with ⟨result, s'⟩
    rw [activePlans] at hactive
    rw [hactive] at hout
    cases result with
    | error err =>
      left
      obtain ⟨hrows, -⟩ := @writeDailyFailures_rows e (e.formatExc err) (numbered plans) s'
      rw [hout]
      exact ⟨rfl, hrows⟩
    | ok result =>
      right
      have hends := (@processActivePlans_ends e (w.setDailyPlans code plans) code fetched
        (activePlans w code plans) fetchStartDate s s' result hcode hactive).of_setDailyPlans
      rw [hstore] at hends
      rw [hout]
      exact ⟨early, result, hearly, rfl, hends, fun hne => if_neg hne⟩

/-- What the successes of a run rest on: one base, and the writes of the plans that are left. -/
inductive RunWrites (e : DailyEnv) (w : DailyWorker) (code : String)
    (fetched : Except String Frame) (refetched : ApiFetchRequest → Except String Frame)
    (st : Store) (records : List (Option (MetadataRow Cell))) (st' : Store) : Prop
  | intro {base : Frame} {written : List (ℕ × DailyTargetPlan)}
      {rows : List (Option (MetadataRow Cell))}
      (isBase : DailyBase e w code fetched refetched st base)
      (writes : BarWrites e base (w.factorStateForCode code).frame written rows st st')
      (datasets : (written.map fun plan => plan.2.dataset).Nodup)
      (codes : ∀ plan ∈ written, plan.2.code = code)
      (factors : ∀ plan ∈ written, isAdjustedDailyDataset plan.2.dataset = true →
        (w.factorStateForCode code).failed = false)
      (recorded : ∀ row ∈ records, Succeeded row → row ∈ rows)

private theorem refetch_writes {plans : List DailyTargetPlan} {reason : String}
    {early : List (Option (MetadataRow Cell))} (hcodes : ∀ plan ∈ plans, plan.code = code)
    (hdatasets : (plans.map DailyTargetPlan.dataset).Nodup)
    (hearly : ∀ row ∈ early, ¬Succeeded row) :
    let request := fullRefetchRequest w code (activePlans w code plans) reason
    let refetch := processDailyFullRefetch e (w.setDailyPlans code plans) request
      (fetchedBars (refetched request)) (apiErrorStack (refetched request)) st
    let records := (early ++ []) ++ refetch.result.runRecords
    (∀ row ∈ records, ¬Succeeded row) ∨
      RunWrites e w code fetched refetched st records refetch.effects.store := by
  intro request refetch records
  have hrecorded : ∀ row ∈ records, Succeeded row → row ∈ refetch.result.runRecords := by
    intro row hrow hsuccess
    rcases List.mem_append.mp hrow with hrow | hrow
    · rw [List.append_nil] at hrow
      exact absurd hsuccess (hearly row hrow)
    · exact hrow
  have hplans : refetchPlans (w.setDailyPlans code plans) request =
      plans.filter fun plan => plan.dataset ∈ request.datasets := by
    unfold refetchPlans DailyWorker.setDailyPlans
    simp only
    rw [show request.code = code from rfl, Function.update_self]
  cases hanswer : refetched request with
  | error errorStack =>
    left
    intro row hrow hsuccess
    have hmem := hrecorded row hrow hsuccess
    obtain ⟨hrows, -⟩ := @writeDailyFailures_rows e errorStack
      (numbered (refetchPlans (w.setDailyPlans code plans) request)) ⟨st, [], []⟩
    simp only [refetch, hanswer, processDailyFullRefetch, apiErrorStack] at hmem
    exact hrows row hmem hsuccess
  | ok df =>
    right
    have hleft : ∀ plan ∈ numbered (refetchPlans (w.setDailyPlans code plans) request),
        plan.2 ∈ plans ∧ plan.2.dataset ∈ request.datasets := by
      intro plan hplan
      have hmem := mem_numbered hplan
      rw [hplans] at hmem
      obtain ⟨hmem, hdataset⟩ := List.mem_filter.mp hmem
      exact ⟨hmem, of_decide_eq_true hdataset⟩
    have hwrites : BarWrites e df (w.factorStateForCode code).frame
        (numbered (refetchPlans (w.setDailyPlans code plans) request)) refetch.result.runRecords st
        refetch.effects.store := by
      simp only [refetch, hanswer, processDailyFullRefetch, apiErrorStack, fetchedBars]
      by_cases hnil : numbered (refetchPlans (w.setDailyPlans code plans) request) = []
      · rw [hnil]
        exact .nil st
      · have hcode := firstCode_of_codes hnil fun plan hplan => hcodes plan.2 (hleft plan hplan).1
        have hframes := @barWrites_frames e df
          ((w.setDailyPlans code plans).factorStateForCode
            (firstCode (numbered (refetchPlans (w.setDailyPlans code plans) request)))).frame
          (numbered (refetchPlans (w.setDailyPlans code plans) request)) fullHistoryStartDate
          ⟨st, [], []⟩
        rw [hcode] at hframes
        unfold writeDailyFrames
        rw [hcode]
        exact hframes
    refine .intro (.refetched hanswer) hwrites ?_ (fun plan hplan => ?_) (fun plan hplan => ?_)
      hrecorded
    · rw [numbered_datasets, hplans]
      exact hdatasets.sublist (List.Sublist.map _ List.filter_sublist)
    · exact hcodes plan.2 (hleft plan hplan).1
    · -- the dataset is that of an active plan
      intro hadjusted
      have hrequested := (hleft plan hplan).2
      have hactive : plan.2.dataset ∈
          (activePlans w code plans).map fun plan => plan.2.dataset := by
        simpa [request, fullRefetchRequest] using hrequested
      obtain ⟨other, hother, hdataset⟩ := List.mem_map.mp hactive
      have hcond := (List.mem_filter.mp hother).2
      simp only [failsEarly, hdataset, hadjusted] at hcond
      simpa using hcond

/-- A run of a code records no success, or its successes rest on one base. -/
theorem dailyCodeRun_writes {plans : List DailyTargetPlan} {fetchStartDate : Option String}
    (hcodes : ∀ plan ∈ plans, plan.code = code)
    (hdatasets : (plans.map DailyTargetPlan.dataset).Nodup) :
    let out := dailyCodeRun e w code plans fetchStartDate fetched refetched st
    (∀ row ∈ out.1, ¬Succeeded row) ∨ RunWrites e w code fetched refetched st out.1 out.2 := by
  intro out
  have hout : out = dailyCodeRun e w code plans fetchStartDate fetched refetched st := rfl
  have hactiveCodes : ∀ plan ∈ activePlans w code plans, plan.2.code = code := fun plan hplan =>
    hcodes plan.2 (mem_numbered (List.mem_filter.mp hplan).1)
  have hactiveFactors : ∀ plan ∈ activePlans w code plans,
      isAdjustedDailyDataset plan.2.dataset = true → (w.factorStateForCode code).failed = false := by
    intro plan hplan hadjusted
    have hcond := (List.mem_filter.mp hplan).2
    simpa [failsEarly, hadjusted] using hcond
  have hactiveDatasets : ((activePlans w code plans).map fun plan => plan.2.dataset).Nodup := by
    rw [← numbered_datasets] at hdatasets
    exact hdatasets.sublist (List.Sublist.map _ List.filter_sublist)
  have hinitial := @processDailyInitial_ends e w code fetched st plans fetchStartDate hcodes
  unfold dailyCodeRun at hout
  revert hout hinitial
  generalize processDailyInitial e w code plans fetchStartDate (fetchedBars fetched)
    (apiErrorStack fetched) st = initial
  intro hout hinitial
  simp only at hout
  rcases hinitial with ⟨hnone, hfailed⟩ | ⟨early, result, hearly, hresult, hends, hworker⟩
  · left
    simp only [hnone] at hout
    rw [hout]
    exact hfailed
  · have hrecords : initial.result.runRecords = early ++ result.runRecords := by rw [hresult]
    have hrequests : initial.result.apiRequests = result.apiRequests := by rw [hresult]
    have hrecorded : ∀ {rows}, (∀ row ∈ early ++ rows, Succeeded row → row ∈ rows) := by
      intro rows row hrow hsuccess
      rcases List.mem_append.mp hrow with hrow | hrow
      · exact absurd hsuccess (hearly row hrow)
      · exact hrow
    rw [hrecords, hrequests] at hout
    generalize initial.effects.store = st1 at hends hout
    cases hends with
    | failed failures =>
      left
      rw [hout]
      intro row hrow
      rcases List.mem_append.mp hrow with hrow | hrow
      · exact hearly row hrow
      · exact failures row hrow
    | merged mode answer found writes =>
      right
      rw [hout]
      exact .intro (.merged mode answer found) writes hactiveDatasets hactiveCodes hactiveFactors
        hrecorded
    | fetched mode answer writes =>
      right
      rw [hout]
      exact .intro (.fetched mode answer) writes hactiveDatasets hactiveCodes hactiveFactors
        hrecorded
    | @requested reason =>
      have hset := hworker (List.cons_ne_nil _ _)
      simp only [hset] at hout
      rw [hout]
      exact refetch_writes hcodes hdatasets hearly

end Outcomes

end QuantDataCenter.Sources
