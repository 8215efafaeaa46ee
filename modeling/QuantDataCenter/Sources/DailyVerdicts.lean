import QuantDataCenter.Sources.DailyWorker

/-!
The verdicts of one call of the daily worker: one row for each plan, success when
its partition was replaced, as long as nothing raises after a replacement and
nothing leaves the loop of the partial mode once a row has been added.
-/

set_option autoImplicit false
set_option relaxedAutoImplicit false

namespace QuantDataCenter.Sources

open QuantDataCenter.Pipeline
open QuantDataCenter.Storage
open QuantDataCenter.Tabular

/-! What a call should leave behind -/

def fieldOf (name : String) (row : Option (MetadataRow Cell)) : Option Cell :=
  row.bind fun fields => fields name

def Succeeded (row : Option (MetadataRow Cell)) : Prop :=
  fieldOf "status" row = some (.text "success")

/-- The row is about the plan's dataset and code. -/
def About (plan : DailyTargetPlan) (row : Option (MetadataRow Cell)) : Prop :=
  fieldOf "dataset" row = some (.text plan.dataset) ∧ fieldOf "code" row = some (.text plan.code)

/-- The positions of the plans that have a row, and of those whose partition was replaced. -/
def positions {α : Type*} (l : List (ℕ × α)) : List ℕ := l.map Prod.fst

/-- One run row for each plan, the same rows returned, and success for a replaced partition. -/
structure OneVerdict (plans : List (ℕ × DailyTargetPlan)) (runRecords : List (Option (MetadataRow Cell)))
    (added : List (ℕ × LifecycleRows Cell)) (replaced : List (ℕ × List Row)) : Prop where
  once : (positions added).Perm (positions plans)
  returned : runRecords.Perm (added.map fun a => a.2.runRow)
  about : ∀ a ∈ added, ∃ plan, (a.1, plan) ∈ plans ∧ About plan a.2.runRow ∧
    About plan a.2.checkpointRow
  success : ∀ a ∈ added, (Succeeded a.2.runRow ↔ a.1 ∈ positions replaced) ∧
    (Succeeded a.2.checkpointRow ↔ a.1 ∈ positions replaced)
  replaced_plan : ∀ i ∈ positions replaced, i ∈ positions plans

/-! The write of one plan -/

/-- How an attempt to write a plan ends: an exception before the replacement of the file,
after it, or in the flush once the row of the success is in the batch. -/
inductive PlanOutcome where
  | refused
  | unrecorded
  | unflushed
  | returned
  deriving DecidableEq, Repr

def planOutcome (e : DailyEnv) (staging : Bool) (unadjusted factors : Frame)
    (plan : ℕ × DailyTargetPlan) : PlanOutcome :=
  match dailyFrameFromUnadjusted e plan.2.dataset unadjusted factors with
  | .error _ => .refused
  | .ok fresh =>
    match replacement e.pandas (e.writes plan.1) (dailyBarDataset plan.2.dataset) fresh
      (codePartition plan.2.code) with
    | none => .refused
    | some _ =>
      if ((e.writes plan.1).io 0).ledger = false ∧ staging = false then .unrecorded
      else if (e.flushes plan.1).isSome = true then .unflushed
      else .returned

/-- What an attempt adds to the rows and to the replaced partitions. -/
inductive PlanStep (plan : ℕ × DailyTargetPlan) (s : Effects) :
    PlanOutcome → Except StoreError (Option (MetadataRow Cell)) → Effects → Prop
  | refused {err : StoreError} {s' : Effects} (hadded : s'.added = s.added)
      (hreplaced : s'.replaced = s.replaced) : PlanStep plan s .refused (.error err) s'
  | unrecorded {err : StoreError} {s' : Effects} {rows : List Row} (hadded : s'.added = s.added)
      (hreplaced : s'.replaced = s.replaced ++ [(plan.1, rows)]) :
      PlanStep plan s .unrecorded (.error err) s'
  | unflushed {err : StoreError} {s' : Effects} {rows : List Row} {verdict : LifecycleRows Cell}
      (hadded : s'.added = s.added ++ [(plan.1, verdict)])
      (hreplaced : s'.replaced = s.replaced ++ [(plan.1, rows)]) :
      PlanStep plan s .unflushed (.error err) s'
  | returned {s' : Effects} {rows : List Row} {verdict : LifecycleRows Cell}
      (habout : About plan.2 verdict.runRow ∧ About plan.2 verdict.checkpointRow)
      (hsuccess : Succeeded verdict.runRow ∧ Succeeded verdict.checkpointRow)
      (hadded : s'.added = s.added ++ [(plan.1, verdict)])
      (hreplaced : s'.replaced = s.replaced ++ [(plan.1, rows)]) :
      PlanStep plan s .returned (.ok verdict.runRow) s'

private theorem successRows_about (path : String) (plan : DailyTargetPlan) (runStart : String)
    (moment : Moment) (n : ℕ) :
    let rows := successRows ⟨pipelineUpdateDaily, plan.dataset, plan.code, some runStart,
      some plan.endDate, path, some plan.checkpointStartDate⟩ moment n
    (About plan rows.runRow ∧ About plan rows.checkpointRow) ∧
      Succeeded rows.runRow ∧ Succeeded rows.checkpointRow :=
  ⟨⟨⟨rfl, rfl⟩, ⟨rfl, rfl⟩⟩, rfl, rfl⟩

private theorem failureRows_about (plan : DailyTargetPlan) (moment : Moment) (errorStack : String) :
    let rows := failureRows ⟨pipelineUpdateDaily, plan.dataset, plan.code,
      some plan.checkpointStartDate, some plan.endDate, plan.outputPath, none⟩ moment errorStack
    (About plan rows.runRow ∧ About plan rows.checkpointRow) ∧
      ¬Succeeded rows.runRow ∧ ¬Succeeded rows.checkpointRow := by
  have hfailed : some (Cell.text "failed") ≠ some (Cell.text "success") := by decide
  exact ⟨⟨⟨rfl, rfl⟩, ⟨rfl, rfl⟩⟩, hfailed, hfailed⟩

private theorem daily_of_frame {e : DailyEnv} {dataset : String} {unadjusted factors fresh : Frame}
    (h : dailyFrameFromUnadjusted e dataset unadjusted factors = .ok fresh) :
    datasetDefinition dataset = .ok (dailyBarDataset dataset) := by
  unfold dailyFrameFromUnadjusted at h
  split at h
  case isTrue hdataset => exact hdataset ▸ rfl
  case isFalse =>
    split at h
    case isTrue hadjusted =>
      have hmem : dataset ∈ adjustedDailyDatasets := by simpa [isAdjustedDailyDataset] using hadjusted
      simp only [adjustedDailyDatasets, List.mem_cons, List.not_mem_nil, or_false] at hmem
      rcases hmem with rfl | rfl
      · rfl
      · rfl
    case isFalse => cases h

private theorem writeDataset_replacement (p : Pandas) (h : Hashing) (env : WriteEnv)
    {dataset : String}
    {d : DatasetDefinition} (hd : datasetDefinition dataset = .ok d)
    (hmode : d.defaultWriteMode = .replace) (df : Frame) (partition : Partition) (st : Store) :
    let out := writeDataset p h env dataset df partition none false st
    out.2.staging = st.staging ∧
    match replacement p env d df partition with
    | none => (∃ err, out.1 = .error err) ∧ out.2.files = st.files
    | some (value, rows) => out.2.files = (st.setFile d.id value rows).files ∧
      if (env.io 0).ledger = false ∧ st.staging = false then ∃ err, out.1 = .error err
      else out.1 = .ok ⟨[(d.id, value)], rows.length, 1, 0⟩ := by
  have hwrite : writeDataset p h env dataset df partition none false st =
      writeDatasetReplace p h env d df partition false st := by
    simp only [writeDataset, hd, Option.getD_none, hmode, Bool.false_eq_true, false_and, if_false]
  rw [hwrite]
  unfold writeDatasetReplace replacement replaceFrame
  cases hvalue : partitionValue p d partition with
  | error err => exact ⟨rfl, ⟨err, rfl⟩, rfl⟩
  | ok value =>
    simp only
    cases hframe : prepareDatasetFrame p env d df partition true with
    | error err => exact ⟨rfl, ⟨err, rfl⟩, rfl⟩
    | ok frame =>
      simp only [Bind.bind, Except.bind, Bool.false_eq_true, false_and, if_false]
      unfold writePreparedDataset
      cases hatomic : atomicWrite (env.io 0).attempts with
      | error err => exact ⟨rfl, ⟨err, rfl⟩, rfl⟩
      | ok u =>
        simp only [upsertPartitionManifestAfterWrite]
        have hcleared : ((st.cleanupLegacyPartitions d).setFile d.id value frame.rows).staging =
            st.staging := rfl
        cases hstaging : st.staging with
        | true =>
          rw [hstaging] at hcleared
          simp only [hcleared, if_true, Bool.true_eq_false, and_false, if_false]
          exact ⟨hstaging, rfl, trivial⟩
        | false =>
          rw [hstaging] at hcleared
          cases hledger : (env.io 0).ledger with
          | true =>
            simp only [hcleared, Bool.false_eq_true, Bool.true_eq_false, false_and, if_false, if_true]
            exact ⟨hstaging, rfl, trivial⟩
          | false =>
            simp only [hcleared, Bool.false_eq_true, if_false, and_self, if_true]
            exact ⟨trivial, rfl, ⟨_, rfl⟩⟩

theorem writePlan_step (e : DailyEnv) (plan : ℕ × DailyTargetPlan) (unadjusted factors : Frame)
    (runStartDate : String) (s : Effects) :
    let out := writePlan e plan.1 plan.2 unadjusted factors runStartDate s
    out.2.store.staging = s.store.staging ∧
      PlanStep plan s (planOutcome e s.store.staging unadjusted factors plan) out.1 out.2 := by
  unfold writePlan planOutcome
  cases hframe : dailyFrameFromUnadjusted e plan.2.dataset unadjusted factors with
  | error err => exact ⟨rfl, .refused rfl rfl⟩
  | ok fresh =>
    have hd : datasetDefinition plan.2.dataset = .ok (dailyBarDataset plan.2.dataset) :=
      daily_of_frame hframe
    have hwrite := writeDataset_replacement e.pandas e.hashing (e.writes plan.1) hd rfl fresh
      (codePartition plan.2.code) s.store
    unfold writeDailySuccess Effects.writeDataset
    simp only [hd] at hwrite ⊢
    generalize writeDataset e.pandas e.hashing (e.writes plan.1) plan.2.dataset fresh
      (codePartition plan.2.code) none false s.store = out at hwrite ⊢
    obtain ⟨res, st'⟩ := out
    obtain ⟨hstaging, hwrite⟩ := hwrite
    cases hreplacement : replacement e.pandas (e.writes plan.1) (dailyBarDataset plan.2.dataset)
        fresh (codePartition plan.2.code) with
    | none =>
      rw [hreplacement] at hwrite
      obtain ⟨⟨err, herr⟩, -⟩ := hwrite
      obtain rfl : res = .error err := herr
      exact ⟨hstaging, .refused rfl (List.append_nil _)⟩
    | some written =>
      rw [hreplacement] at hwrite
      obtain ⟨-, hwrite⟩ := hwrite
      by_cases hledger : ((e.writes plan.1).io 0).ledger = false ∧ s.store.staging = false
      · rw [if_pos hledger] at hwrite
        obtain ⟨err, herr⟩ := hwrite
        obtain rfl : res = .error err := herr
        simp only [if_pos hledger]
        exact ⟨hstaging, .unrecorded rfl rfl⟩
      · rw [if_neg hledger] at hwrite
        obtain rfl : res = _ := hwrite
        simp only [if_neg hledger, primaryPath, Effects.add]
        cases hflush : e.flushes plan.1 with
        | some err => exact ⟨hstaging, .unflushed rfl rfl⟩
        | none =>
          obtain ⟨habout, hsuccess⟩ := successRows_about
            (e.pathText ((dailyBarDataset plan.2.dataset).id, written.1)) plan.2 runStartDate
            { e.moment s.added.length with startedAt := plan.2.startTime } fresh.rows.length
          exact ⟨hstaging, .returned habout hsuccess rfl rfl⟩

/-! Verdicts of several plans -/

@[simp] theorem positions_append {α : Type*} (l l' : List (ℕ × α)) :
    positions (l ++ l') = positions l ++ positions l' := List.map_append

theorem OneVerdict.nil : OneVerdict [] [] [] [] where
  once := .nil
  returned := .nil
  about _ ha := by cases ha
  success _ ha := by cases ha
  replaced_plan _ hi := by cases hi

theorem OneVerdict.append {plans plans' : List (ℕ × DailyTargetPlan)}
    {rows rows' : List (Option (MetadataRow Cell))} {added added' : List (ℕ × LifecycleRows Cell)}
    {replaced replaced' : List (ℕ × List Row)} (h : OneVerdict plans rows added replaced)
    (h' : OneVerdict plans' rows' added' replaced')
    (hdisjoint : ∀ i ∈ positions plans, i ∉ positions plans') :
    OneVerdict (plans ++ plans') (rows ++ rows') (added ++ added') (replaced ++ replaced') where
  once := by
    simp only [positions_append]
    exact h.once.append h'.once
  returned := by
    rw [List.map_append]
    exact h.returned.append h'.returned
  about a ha := by
    rcases List.mem_append.mp ha with ha | ha
    · obtain ⟨plan, hplan, habout⟩ := h.about a ha
      exact ⟨plan, List.mem_append_left _ hplan, habout⟩
    · obtain ⟨plan, hplan, habout⟩ := h'.about a ha
      exact ⟨plan, List.mem_append_right _ hplan, habout⟩
  success a ha := by
    rw [positions_append, List.mem_append]
    rcases List.mem_append.mp ha with ha | ha
    · -- a row of the first part, whose plan is not in the second
      have hplan : a.1 ∈ positions plans := h.once.mem_iff.mp (List.mem_map_of_mem ha)
      have hnot : a.1 ∉ positions replaced' := fun hmem =>
        hdisjoint a.1 hplan (h'.replaced_plan a.1 hmem)
      simp only [hnot, or_false]
      exact h.success a ha
    · have hplan : a.1 ∈ positions plans' := h'.once.mem_iff.mp (List.mem_map_of_mem ha)
      have hnot : a.1 ∉ positions replaced := fun hmem =>
        hdisjoint a.1 (h.replaced_plan a.1 hmem) hplan
      simp only [hnot, false_or]
      exact h'.success a ha
  replaced_plan i hi := by
    rw [positions_append, List.mem_append] at hi ⊢
    exact hi.imp (h.replaced_plan i) (h'.replaced_plan i)

theorem OneVerdict.perm {plans plans' : List (ℕ × DailyTargetPlan)}
    {rows : List (Option (MetadataRow Cell))} {added : List (ℕ × LifecycleRows Cell)}
    {replaced : List (ℕ × List Row)} (h : OneVerdict plans rows added replaced)
    (hperm : plans.Perm plans') : OneVerdict plans' rows added replaced where
  once := h.once.trans (hperm.map Prod.fst)
  returned := h.returned
  about a ha := by
    obtain ⟨plan, hplan, habout⟩ := h.about a ha
    exact ⟨plan, hperm.mem_iff.mp hplan, habout⟩
  success := h.success
  replaced_plan i hi := (hperm.map Prod.fst).mem_iff.mp (h.replaced_plan i hi)

private theorem oneVerdict_failure {plan : ℕ × DailyTargetPlan} {verdict : LifecycleRows Cell}
    (habout : About plan.2 verdict.runRow ∧ About plan.2 verdict.checkpointRow)
    (hfailed : ¬Succeeded verdict.runRow ∧ ¬Succeeded verdict.checkpointRow) :
    OneVerdict [plan] [verdict.runRow] [(plan.1, verdict)] [] where
  once := .refl _
  returned := .refl _
  about a ha := by
    obtain rfl := List.mem_singleton.mp ha
    exact ⟨plan.2, List.mem_singleton_self _, habout⟩
  success a ha := by
    obtain rfl := List.mem_singleton.mp ha
    exact ⟨iff_of_false hfailed.1 List.not_mem_nil, iff_of_false hfailed.2 List.not_mem_nil⟩
  replaced_plan i hi := by cases hi

private theorem oneVerdict_success {plan : ℕ × DailyTargetPlan} {verdict : LifecycleRows Cell}
    {rows : List Row} (habout : About plan.2 verdict.runRow ∧ About plan.2 verdict.checkpointRow)
    (hsuccess : Succeeded verdict.runRow ∧ Succeeded verdict.checkpointRow) :
    OneVerdict [plan] [verdict.runRow] [(plan.1, verdict)] [(plan.1, rows)] where
  once := .refl _
  returned := .refl _
  about a ha := by
    obtain rfl := List.mem_singleton.mp ha
    exact ⟨plan.2, List.mem_singleton_self _, habout⟩
  success a ha := by
    obtain rfl := List.mem_singleton.mp ha
    exact ⟨iff_of_true hsuccess.1 (List.mem_singleton_self _),
      iff_of_true hsuccess.2 (List.mem_singleton_self _)⟩
  replaced_plan i hi := hi

/-- A plan with a second row, or with a failure although its partition was replaced. -/
def Spoiled (i : ℕ) (s : Effects) : Prop :=
  2 ≤ (positions s.added).count i ∨
    ∃ a ∈ s.added, a.1 = i ∧ ¬Succeeded a.2.runRow ∧ i ∈ positions s.replaced

private theorem Spoiled.not_oneVerdict {i : ℕ} {s : Effects} (h : Spoiled i s)
    {plans : List (ℕ × DailyTargetPlan)} (hnodup : (positions plans).Nodup)
    (rows : List (Option (MetadataRow Cell))) : ¬OneVerdict plans rows s.added s.replaced := by
  intro hverdict
  rcases h with hcount | ⟨a, ha, rfl, hfailed, hreplaced⟩
  · have hone : (positions s.added).count i ≤ 1 := by
      rw [hverdict.once.count_eq]
      exact List.nodup_iff_count_le_one.mp hnodup i
    omega
  · exact hfailed ((hverdict.success a ha).1.mpr hreplaced)

/-- Rows and replacements are only added. -/
structure Grows (s s' : Effects) : Prop where
  staging : s'.store.staging = s.store.staging
  added : s.added <+: s'.added
  replaced : s.replaced <+: s'.replaced

theorem Grows.refl (s : Effects) : Grows s s := ⟨rfl, List.prefix_rfl, List.prefix_rfl⟩

theorem Grows.trans {s s' s'' : Effects} (h : Grows s s') (h' : Grows s' s'') : Grows s s'' :=
  ⟨h'.staging.trans h.staging, h.added.trans h'.added, h.replaced.trans h'.replaced⟩

theorem Spoiled.grows {i : ℕ} {s s' : Effects} (h : Spoiled i s) (hgrows : Grows s s') :
    Spoiled i s' := by
  have hadded := hgrows.added.sublist
  have hpositions : ∀ i ∈ positions s.replaced, i ∈ positions s'.replaced :=
    fun i hi => (hgrows.replaced.sublist.map Prod.fst).subset hi
  rcases h with hcount | ⟨a, ha, hi, hfailed, hreplaced⟩
  · exact Or.inl (hcount.trans ((hadded.map Prod.fst).count_le i))
  · exact Or.inr ⟨a, hadded.subset ha, hi, hfailed, hpositions i hreplaced⟩

/-- The plan has a row, or its partition was replaced. -/
def Touched (i : ℕ) (s : Effects) : Prop := i ∈ positions s.added ∨ i ∈ positions s.replaced

theorem Touched.grows {i : ℕ} {s s' : Effects} (h : Touched i s) (hgrows : Grows s s') :
    Touched i s' :=
  h.imp (fun hi => (hgrows.added.sublist.map Prod.fst).subset hi)
    fun hi => (hgrows.replaced.sublist.map Prod.fst).subset hi

theorem PlanStep.grows {plan : ℕ × DailyTargetPlan} {s s' : Effects} {outcome : PlanOutcome}
    {res : Except StoreError (Option (MetadataRow Cell))} (h : PlanStep plan s outcome res s')
    (hstaging : s'.store.staging = s.store.staging) : Grows s s' := by
  cases h with
  | refused hadded hreplaced => exact ⟨hstaging, hadded ▸ List.prefix_rfl, hreplaced ▸ List.prefix_rfl⟩
  | unrecorded hadded hreplaced =>
    exact ⟨hstaging, hadded ▸ List.prefix_rfl, hreplaced ▸ List.prefix_append _ _⟩
  | unflushed hadded hreplaced =>
    exact ⟨hstaging, hadded ▸ List.prefix_append _ _, hreplaced ▸ List.prefix_append _ _⟩
  | returned habout hsuccess hadded hreplaced =>
    exact ⟨hstaging, hadded ▸ List.prefix_append _ _, hreplaced ▸ List.prefix_append _ _⟩

/-! Failure rows -/

theorem writeDailyFailure_spec (e : DailyEnv) (plan : ℕ × DailyTargetPlan) (errorStack : String)
    (s : Effects) :
    let out := writeDailyFailure e plan.1 plan.2 errorStack s
    ∃ verdict, out.2 = { s with added := s.added ++ [(plan.1, verdict)] } ∧
      out.1 = verdict.runRow ∧ ¬Succeeded verdict.runRow ∧
      OneVerdict [plan] [verdict.runRow] [(plan.1, verdict)] [] := by
  obtain ⟨habout, hfailed⟩ := failureRows_about plan.2
    { e.moment s.added.length with startedAt := plan.2.startTime } errorStack
  refine ⟨_, ?_, rfl, hfailed.1, oneVerdict_failure habout hfailed⟩
  simp only [writeDailyFailure, Effects.add]
  cases e.failureFlushes plan.1 <;> rfl

private theorem writeDailyFailure_grows (e : DailyEnv) (plan : ℕ × DailyTargetPlan)
    (errorStack : String)
    (s : Effects) : Grows s (writeDailyFailure e plan.1 plan.2 errorStack s).2 := by
  obtain ⟨verdict, hout, -⟩ := writeDailyFailure_spec e plan errorStack s
  rw [hout]
  exact ⟨rfl, List.prefix_append _ _, List.prefix_rfl⟩

private theorem Touched.spoiled {plan : ℕ × DailyTargetPlan} {s : Effects} (h : Touched plan.1 s)
    (e : DailyEnv) (errorStack : String) :
    Spoiled plan.1 (writeDailyFailure e plan.1 plan.2 errorStack s).2 := by
  obtain ⟨verdict, hout, -, hfailed, -⟩ := writeDailyFailure_spec e plan errorStack s
  rw [hout]
  rcases h with hadded | hreplaced
  · left
    have hcount : 1 ≤ (positions s.added).count plan.1 := List.one_le_count_iff.mpr hadded
    have hone : (positions [(plan.1, verdict)]).count plan.1 = 1 := List.count_singleton_self
    rw [positions_append, List.count_append, hone]
    omega
  · exact Or.inr ⟨(plan.1, verdict), List.mem_append_right _ (List.mem_singleton_self _), rfl,
      hfailed, hreplaced⟩

private theorem nodup_positions_cons {α : Type*} {entry : ℕ × α} {l : List (ℕ × α)}
    (h : (positions (entry :: l)).Nodup) :
    (∀ i ∈ positions [entry], i ∉ positions l) ∧ (positions l).Nodup := by
  obtain ⟨hnot, hrest⟩ := List.nodup_cons.mp h
  refine ⟨fun i hi => ?_, hrest⟩
  obtain rfl : i = entry.1 := by simpa [positions] using hi
  exact hnot

private theorem writeDailyFailures_spec (e : DailyEnv) (errorStack : String)
    (plans : List (ℕ × DailyTargetPlan)) (hnodup : (positions plans).Nodup) (s : Effects) :
    let out := writeDailyFailures e errorStack plans s
    ∃ added, out.2 = { s with added := s.added ++ added } ∧ OneVerdict plans out.1 added [] := by
  induction plans generalizing s with
  | nil => exact ⟨[], by rw [List.append_nil]; rfl, .nil⟩
  | cons plan plans ih =>
    obtain ⟨hdisjoint, hrest⟩ := nodup_positions_cons hnodup
    obtain ⟨verdict, hout, hrow, -, hone⟩ := writeDailyFailure_spec e plan errorStack s
    obtain ⟨added, hadded, hverdicts⟩ := ih hrest { s with added := s.added ++ [(plan.1, verdict)] }
    simp only [writeDailyFailures, hout, hrow] at hadded ⊢
    refine ⟨(plan.1, verdict) :: added, ?_, hone.append hverdicts hdisjoint⟩
    rw [hadded, List.append_assoc]
    rfl

private theorem writeDailyFailures_grows (e : DailyEnv) (errorStack : String)
    (plans : List (ℕ × DailyTargetPlan)) (s : Effects) :
    Grows s (writeDailyFailures e errorStack plans s).2 := by
  induction plans generalizing s with
  | nil => exact .refl s
  | cons plan plans ih => exact (writeDailyFailure_grows e plan errorStack s).trans (ih _)

private theorem writeDailyFailures_spoiled (e : DailyEnv) (errorStack : String)
    {plans : List (ℕ × DailyTargetPlan)} {i : ℕ} (hi : i ∈ positions plans) {s : Effects}
    (h : Touched i s) : Spoiled i (writeDailyFailures e errorStack plans s).2 := by
  induction plans generalizing s with
  | nil => cases hi
  | cons plan plans ih =>
    have hgrows : Grows s (writeDailyFailure e plan.1 plan.2 errorStack s).2 :=
      writeDailyFailure_grows e plan errorStack s
    rcases List.mem_cons.mp hi with rfl | hi
    · exact (h.spoiled e errorStack).grows (writeDailyFailures_grows e errorStack plans _)
    · exact ih hi (h.grows hgrows)

/-! The loops -/

/-- From one state to the other the plans get their verdicts, and nothing else happens. -/
def Judged (plans : List (ℕ × DailyTargetPlan)) (rows : List (Option (MetadataRow Cell)))
    (s s' : Effects) : Prop :=
  ∃ added replaced, s'.added = s.added ++ added ∧ s'.replaced = s.replaced ++ replaced ∧
    OneVerdict plans rows added replaced

theorem Judged.append {plans plans' : List (ℕ × DailyTargetPlan)}
    {rows rows' : List (Option (MetadataRow Cell))} {s s' s'' : Effects} (h : Judged plans rows s s')
    (h' : Judged plans' rows' s' s'') (hdisjoint : ∀ i ∈ positions plans, i ∉ positions plans') :
    Judged (plans ++ plans') (rows ++ rows') s s'' := by
  obtain ⟨added, replaced, hadded, hreplaced, hverdicts⟩ := h
  obtain ⟨added', replaced', hadded', hreplaced', hverdicts'⟩ := h'
  refine ⟨added ++ added', replaced ++ replaced', ?_, ?_, hverdicts.append hverdicts' hdisjoint⟩
  · rw [hadded', hadded, List.append_assoc]
  · rw [hreplaced', hreplaced, List.append_assoc]

private theorem writeDailyFailures_judged (e : DailyEnv) (errorStack : String)
    {plans : List (ℕ × DailyTargetPlan)} (hnodup : (positions plans).Nodup) (s : Effects) :
    Judged plans (writeDailyFailures e errorStack plans s).1 s
      (writeDailyFailures e errorStack plans s).2 := by
  obtain ⟨added, hout, hverdicts⟩ := writeDailyFailures_spec e errorStack plans hnodup s
  exact ⟨added, [], by rw [hout], by rw [hout, List.append_nil], hverdicts⟩

/-- The attempt raises although the partition was replaced. -/
def PlanOutcome.late : PlanOutcome → Bool
  | .unrecorded | .unflushed => true
  | .refused | .returned => false

theorem PlanStep.touched {plan : ℕ × DailyTargetPlan} {s s' : Effects} {outcome : PlanOutcome}
    {res : Except StoreError (Option (MetadataRow Cell))} (h : PlanStep plan s outcome res s')
    (hne : outcome ≠ .refused) : Touched plan.1 s' := by
  cases h with
  | refused => exact absurd rfl hne
  | unrecorded hadded hreplaced => exact Or.inr (by simp [hreplaced, positions])
  | unflushed hadded hreplaced => exact Or.inr (by simp [hreplaced, positions])
  | returned habout hsuccess hadded hreplaced => exact Or.inr (by simp [hreplaced, positions])

private theorem writeDailyFrame_spec (e : DailyEnv) (plan : ℕ × DailyTargetPlan)
    (unadjusted factors : Frame)
    (runStartDate : String) (s : Effects) :
    let out := writeDailyFrame e plan.1 plan.2 unadjusted factors runStartDate s
    let outcome := planOutcome e s.store.staging unadjusted factors plan
    Grows s out.2 ∧ (outcome.late = false → Judged [plan] [out.1] s out.2) ∧
      (outcome.late = true → Spoiled plan.1 out.2) := by
  obtain ⟨hstaging, hstep⟩ := writePlan_step e plan unadjusted factors runStartDate s
  have hgrows := hstep.grows hstaging
  have htouched := hstep.touched
  unfold writeDailyFrame
  revert hstaging hstep hgrows htouched
  generalize planOutcome e s.store.staging unadjusted factors plan = outcome
  generalize writePlan e plan.1 plan.2 unadjusted factors runStartDate s = out
  intro hstaging hstep hgrows htouched
  obtain ⟨res, s'⟩ := out
  cases hstep with
  | @refused err _ hadded hreplaced =>
    obtain ⟨verdict, hout, hrow, -, hone⟩ := writeDailyFailure_spec e plan (e.formatExc err) s'
    refine ⟨hgrows.trans (writeDailyFailure_grows e plan _ s'), fun _ => ?_, fun h => (by cases h)⟩
    refine ⟨[(plan.1, verdict)], [], ?_, ?_, hrow ▸ hone⟩
    · show (writeDailyFailure e plan.1 plan.2 (e.formatExc err) s').2.added = _
      rw [hout, ← hadded]
    · show (writeDailyFailure e plan.1 plan.2 (e.formatExc err) s').2.replaced = _
      rw [hout, List.append_nil, ← hreplaced]
  | unrecorded hadded hreplaced =>
    exact ⟨hgrows.trans (writeDailyFailure_grows e plan _ s'), fun h => (by cases h),
      fun _ => (htouched (by decide)).spoiled e _⟩
  | unflushed hadded hreplaced =>
    exact ⟨hgrows.trans (writeDailyFailure_grows e plan _ s'), fun h => (by cases h),
      fun _ => (htouched (by decide)).spoiled e _⟩
  | returned habout hsuccess hadded hreplaced =>
    exact ⟨hgrows, fun _ => ⟨_, _, hadded, hreplaced, oneVerdict_success habout hsuccess⟩,
      fun h => (by cases h)⟩

private theorem writeDailyFramesFrom_spec (e : DailyEnv) (unadjusted factors : Frame)
    (runStartDate : String) {plans : List (ℕ × DailyTargetPlan)} (hnodup : (positions plans).Nodup)
    (s : Effects) :
    let out := writeDailyFramesFrom e unadjusted factors runStartDate plans s
    let late plan := (planOutcome e s.store.staging unadjusted factors plan).late
    Grows s out.2 ∧ ((∀ plan ∈ plans, late plan = false) → Judged plans out.1 s out.2) ∧
      ∀ plan ∈ plans, late plan = true → Spoiled plan.1 out.2 := by
  induction plans generalizing s with
  | nil =>
    refine ⟨.refl s, fun _ => ⟨[], [], ?_, ?_, .nil⟩, fun _ h => (by cases h)⟩
    · exact (List.append_nil _).symm
    · exact (List.append_nil _).symm
  | cons plan plans ih =>
    obtain ⟨hdisjoint, hrest⟩ := nodup_positions_cons hnodup
    obtain ⟨hgrows, hjudged, hspoiled⟩ := writeDailyFrame_spec e plan unadjusted factors runStartDate s
    simp only [writeDailyFramesFrom]
    generalize writeDailyFrame e plan.1 plan.2 unadjusted factors runStartDate s = out at *
    obtain ⟨hgrows', hjudged', hspoiled'⟩ := ih hrest out.2
    rw [hgrows.staging] at hjudged' hspoiled'
    refine ⟨hgrows.trans hgrows', fun hall => ?_, fun plan' hplan' hlate => ?_⟩
    · exact (hjudged (hall plan List.mem_cons_self)).append
        (hjudged' fun plan' h => hall plan' (List.mem_cons_of_mem _ h)) hdisjoint
    · rcases List.mem_cons.mp hplan' with rfl | hmem
      · exact (hspoiled hlate).grows hgrows'
      · exact hspoiled' plan' hmem hlate

/-- What the loop of the partial mode leaves: all plans are written, or the first exception
ends it, and is harmless for the rows when nothing has been written before it. -/
structure PartialLoop (plans : List (ℕ × DailyTargetPlan)) (outcome : ℕ × DailyTargetPlan → PlanOutcome)
    (s : Effects) (res : Except StoreError (List (Option (MetadataRow Cell)))) (s' : Effects) :
    Prop where
  grows : Grows s s'
  complete : (∀ plan ∈ plans, outcome plan = .returned) →
    ∃ rows, res = .ok rows ∧ Judged plans rows s s'
  stopped : (∃ plan ∈ plans, outcome plan ≠ .returned) → ∃ err, res = .error err ∧
    if plans.head?.map outcome = some .refused then
      s'.added = s.added ∧ s'.replaced = s.replaced
    else ∃ i ∈ positions plans, Touched i s'

private theorem partialLoop_nil (outcome : ℕ × DailyTargetPlan → PlanOutcome) (s : Effects) :
    PartialLoop [] outcome s (.ok []) s where
  grows := .refl s
  complete _ := ⟨[], rfl, [], [], (List.append_nil _).symm, (List.append_nil _).symm, .nil⟩
  stopped h := by
    obtain ⟨plan, hplan, -⟩ := h
    cases hplan

private theorem partialLoop_stopped {plan : ℕ × DailyTargetPlan}
    {plans : List (ℕ × DailyTargetPlan)}
    {outcome : ℕ × DailyTargetPlan → PlanOutcome} {s s' : Effects} (err : StoreError)
    (hgrows : Grows s s') (hne : outcome plan ≠ .returned)
    (hsame : outcome plan = .refused → s'.added = s.added ∧ s'.replaced = s.replaced)
    (htouched : outcome plan ≠ .refused → Touched plan.1 s') :
    PartialLoop (plan :: plans) outcome s (.error err) s' where
  grows := hgrows
  complete hall := absurd (hall plan List.mem_cons_self) hne
  stopped _ := by
    refine ⟨err, rfl, ?_⟩
    rw [List.head?_cons, Option.map_some]
    split
    case isTrue hrefused => exact hsame (Option.some.inj hrefused)
    case isFalse hnot =>
      exact ⟨plan.1, List.mem_cons_self, htouched fun h => hnot (congrArg some h)⟩

theorem PartialLoop.cons {plan : ℕ × DailyTargetPlan} {plans : List (ℕ × DailyTargetPlan)}
    {outcome : ℕ × DailyTargetPlan → PlanOutcome} {s s' s'' : Effects}
    {res : Except StoreError (List (Option (MetadataRow Cell)))}
    (h : PartialLoop plans outcome s' res s'') (hgrows : Grows s s')
    (hreturned : outcome plan = .returned) {row : Option (MetadataRow Cell)}
    (hhead : Judged [plan] [row] s s') (htouched : Touched plan.1 s')
    (hdisjoint : ∀ i ∈ positions [plan], i ∉ positions plans) :
    PartialLoop (plan :: plans) outcome s (res.map fun rows => row :: rows) s'' where
  grows := hgrows.trans h.grows
  complete hall := by
    obtain ⟨rows, rfl, hjudged⟩ := h.complete fun plan' h => hall plan' (List.mem_cons_of_mem _ h)
    exact ⟨row :: rows, rfl, hhead.append hjudged hdisjoint⟩
  stopped hsome := by
    obtain ⟨plan', hplan', hne⟩ := hsome
    rcases List.mem_cons.mp hplan' with rfl | hmem
    · exact absurd hreturned hne
    · obtain ⟨err, rfl, -⟩ := h.stopped ⟨plan', hmem, hne⟩
      refine ⟨err, rfl, ?_⟩
      rw [List.head?_cons, Option.map_some, hreturned, if_neg (by decide)]
      exact ⟨plan.1, List.mem_cons_self, htouched.grows h.grows⟩

private theorem writePartialFrames_spec (e : DailyEnv) (base factors : Frame)
    {plans : List (ℕ × DailyTargetPlan)} (hnodup : (positions plans).Nodup) (s : Effects) :
    PartialLoop plans (planOutcome e s.store.staging base factors) s
      (writePartialFrames e base factors plans s).1 (writePartialFrames e base factors plans s).2 := by
  induction plans generalizing s with
  | nil => exact partialLoop_nil _ s
  | cons plan plans ih =>
    obtain ⟨hdisjoint, hrest⟩ := nodup_positions_cons hnodup
    obtain ⟨hstaging, hstep⟩ := writePlan_step e plan base factors (partialRunStartDate plan.2) s
    have hgrows := hstep.grows hstaging
    have htouched := hstep.touched
    simp only [writePartialFrames]
    revert hstep htouched
    generalize houtcome : planOutcome e s.store.staging base factors plan = outcome
    generalize writePlan e plan.1 plan.2 base factors (partialRunStartDate plan.2) s = out at *
    intro hstep htouched
    obtain ⟨res, s'⟩ := out
    cases hstep with
    | refused hadded hreplaced =>
      exact partialLoop_stopped _ hgrows (houtcome ▸ by decide) (fun _ => ⟨hadded, hreplaced⟩)
        fun h => absurd houtcome h
    | unrecorded hadded hreplaced =>
      exact partialLoop_stopped _ hgrows (houtcome ▸ by decide)
        (fun h => by rw [houtcome] at h; cases h) fun _ => htouched (by decide)
    | unflushed hadded hreplaced =>
      exact partialLoop_stopped _ hgrows (houtcome ▸ by decide)
        (fun h => by rw [houtcome] at h; cases h) fun _ => htouched (by decide)
    | @returned _ written verdict habout hsuccess hadded hreplaced =>
      have hhead : Judged [plan] [verdict.runRow] s s' :=
        ⟨_, _, hadded, hreplaced, oneVerdict_success habout hsuccess⟩
      have htail := ih hrest s'
      rw [hgrows.staging] at htail
      have hloop := htail.cons hgrows houtcome hhead (htouched (by decide)) hdisjoint
      revert hloop
      simp only
      generalize writePartialFrames e base factors plans s' = tail
      intro hloop
      obtain ⟨tailRes, s''⟩ := tail
      cases tailRes with
      | error err => exact hloop
      | ok rows => exact hloop

/-! The two calls -/

private theorem nodup_numbered (plans : List DailyTargetPlan) :
    (positions (numbered plans)).Nodup := by
  have hpositions : positions (numbered plans) = List.range' 0 plans.length := by
    unfold positions numbered
    rw [List.map_map]
    exact List.zipIdx_map_snd 0 plans
  rw [hpositions]
  exact List.nodup_range'

/-- When the plans that do not fail early settle, given the plans that do: in the full mode
nothing raises after a replacement; in the partial mode nothing raises at all, or the first
thing that does raises before any row and any replacement. -/
def ActiveSettles (e : DailyEnv) (w : DailyWorker) (code : String) (factors : Frame)
    (early active : List (ℕ × DailyTargetPlan)) (unadjusted : Frame) (st : Store) : Prop :=
  if w.mode = "full" then
    ∀ plan ∈ active, (planOutcome e st.staging unadjusted
      (w.factorStateForCode (firstCode active)).frame plan).late = false
  else match partialUnadjustedBase e w code unadjusted st with
    | .error _ => early = []
    | .ok (.inr _) => True
    | .ok (.inl base) =>
      (∀ plan ∈ active, planOutcome e st.staging base factors plan = .returned) ∨
        (early = [] ∧ active.head?.map (planOutcome e st.staging base factors) = some .refused)

/-- When `process_daily_initial` gives each plan one verdict. -/
def InitialSettles (e : DailyEnv) (w : DailyWorker) (code : String) (plans : List DailyTargetPlan)
    (unadjusted : Frame) (apiErrorStack : Option String) (st : Store) : Prop :=
  let factorState := w.factorStateForCode code
  let early := (numbered plans).filter (failsEarly factorState)
  let active := (numbered plans).filter fun plan => !failsEarly factorState plan
  active = [] ∨ apiErrorStack ≠ none ∨
    ActiveSettles e w code factorState.frame early active unadjusted st

/-- When `process_daily_full_refetch` does. -/
def RefetchSettles (e : DailyEnv) (w : DailyWorker) (request : ApiFetchRequest)
    (unadjusted : Frame) (apiErrorStack : Option String) (st : Store) : Prop :=
  let plans := numbered (refetchPlans w request)
  let factors := (w.factorStateForCode (firstCode plans)).frame
  apiErrorStack ≠ none ∨
    ∀ plan ∈ plans, (planOutcome e st.staging unadjusted factors plan).late = false

theorem Judged.verdict {plans plans' : List (ℕ × DailyTargetPlan)}
    {rows : List (Option (MetadataRow Cell))} {s s' : Effects} (h : Judged plans rows s s')
    (hadded : s.added = []) (hreplaced : s.replaced = []) (hperm : plans.Perm plans') :
    OneVerdict plans' rows s'.added s'.replaced := by
  obtain ⟨added, replaced, hadded', hreplaced', hverdicts⟩ := h
  rw [hadded, List.nil_append] at hadded'
  rw [hreplaced, List.nil_append] at hreplaced'
  rw [hadded', hreplaced']
  exact hverdicts.perm hperm

section Calls

variable {all early active : List (ℕ × DailyTargetPlan)}

private theorem split_positions (hperm : (early ++ active).Perm all)
    (hall : (positions all).Nodup) :
    (positions early).Nodup ∧ (positions active).Nodup ∧
      ∀ i ∈ positions early, i ∉ positions active := by
  have hnodup : (positions early ++ positions active).Nodup := by
    rw [← positions_append]
    exact ((hperm.map Prod.fst).nodup_iff).mpr hall
  obtain ⟨hearly, hactive, hdisjoint⟩ := List.nodup_append.mp hnodup
  exact ⟨hearly, hactive, fun i hi hi' => hdisjoint i hi i hi' rfl⟩

/-- No exception gets out of the loop over the active plans. -/
private theorem verdict_iff_of_loop {P : Prop} {earlyRows rows : List (Option (MetadataRow Cell))}
    {st : Store} {s s' : Effects} (hperm : (early ++ active).Perm all)
    (hall : (positions all).Nodup) (hearly : Judged early earlyRows ⟨st, [], []⟩ s)
    (hjudged : P → Judged active rows s s') (hspoiled : ¬P → ∃ i, Spoiled i s') :
    OneVerdict all (earlyRows ++ rows) s'.added s'.replaced ↔ P := by
  obtain ⟨-, -, hdisjoint⟩ := split_positions hperm hall
  constructor
  · intro hverdict
    by_contra hnot
    obtain ⟨i, hi⟩ := hspoiled hnot
    exact hi.not_oneVerdict hall _ hverdict
  · intro h
    exact (hearly.append (hjudged h) hdisjoint).verdict rfl rfl hperm

/-- An exception gets out, and every plan is failed again. -/
private theorem verdict_iff_of_handler (e : DailyEnv) (errorStack : String) {P : Prop} {s : Effects}
    (hall : (positions all).Nodup) (hclean : P → s.added = [] ∧ s.replaced = [])
    (htouched : ¬P → ∃ i ∈ positions all, Touched i s) :
    let out := writeDailyFailures e errorStack all s
    OneVerdict all out.1 out.2.added out.2.replaced ↔ P := by
  constructor
  · intro hverdict
    by_contra hnot
    obtain ⟨i, hi, htouch⟩ := htouched hnot
    exact (writeDailyFailures_spoiled e errorStack hi htouch).not_oneVerdict hall _ hverdict
  · intro h
    obtain ⟨hadded, hreplaced⟩ := hclean h
    exact (writeDailyFailures_judged e errorStack hall s).verdict hadded hreplaced (.refl _)

end Calls

private theorem writeDailyFrames_iff (e : DailyEnv) (w : DailyWorker)
    {all early active : List (ℕ × DailyTargetPlan)} (hperm : (early ++ active).Perm all)
    (hall : (positions all).Nodup) {earlyRows : List (Option (MetadataRow Cell))} {st : Store}
    {s : Effects} (hearly : Judged early earlyRows ⟨st, [], []⟩ s)
    (hstore : s.store.staging = st.staging) (unadjusted : Frame) (runStartDate : String) :
    let out := writeDailyFrames e w active unadjusted runStartDate s
    OneVerdict all (earlyRows ++ out.1) out.2.added out.2.replaced ↔ ∀ plan ∈ active,
      (planOutcome e st.staging unadjusted (w.factorStateForCode (firstCode active)).frame
        plan).late = false := by
  obtain ⟨-, hactive, -⟩ := split_positions hperm hall
  obtain ⟨-, hjudged, hspoiled⟩ := writeDailyFramesFrom_spec e unadjusted
    (w.factorStateForCode (firstCode active)).frame runStartDate hactive s
  rw [hstore] at hjudged hspoiled
  refine verdict_iff_of_loop hperm hall hearly hjudged fun hnot => ?_
  simp only [not_forall, Bool.not_eq_false] at hnot
  obtain ⟨plan, hplan, hlate⟩ := hnot
  exact ⟨plan.1, hspoiled plan hplan hlate⟩

private theorem judged_nil (s : Effects) : Judged [] [] s s :=
  ⟨[], [], (List.append_nil _).symm, (List.append_nil _).symm, .nil⟩

private theorem processDailyFullRefetch_iff (e : DailyEnv) (w : DailyWorker)
    (request : ApiFetchRequest)
    (unadjusted : Frame) (apiErrorStack : Option String) (st : Store) :
    let out := processDailyFullRefetch e w request unadjusted apiErrorStack st
    OneVerdict (numbered (refetchPlans w request)) out.result.runRecords out.effects.added
      out.effects.replaced ↔ RefetchSettles e w request unadjusted apiErrorStack st := by
  have hnodup := nodup_numbered (refetchPlans w request)
  unfold processDailyFullRefetch RefetchSettles
  cases apiErrorStack with
  | some errorStack =>
    refine iff_of_true ?_ (Or.inl (by simp))
    exact (writeDailyFailures_judged e errorStack hnodup ⟨st, [], []⟩).verdict rfl rfl (.refl _)
  | none =>
    have hperm : ([] ++ numbered (refetchPlans w request)).Perm (numbered (refetchPlans w request)) :=
      .refl _
    have hframes := writeDailyFrames_iff e w hperm hnodup (judged_nil ⟨st, [], []⟩) rfl unadjusted
      fullHistoryStartDate
    simp only [ne_eq, not_true_eq_false, false_or]
    exact hframes

private theorem Judged.same_of_nil {rows : List (Option (MetadataRow Cell))} {s s' : Effects}
    (h : Judged [] rows s s') : s'.added = s.added ∧ s'.replaced = s.replaced := by
  obtain ⟨added, replaced, hadded, hreplaced, hverdicts⟩ := h
  have hnil : added = [] := List.map_eq_nil_iff.mp hverdicts.once.eq_nil
  have hnil' : replaced = [] := by
    refine List.eq_nil_iff_forall_not_mem.mpr fun a ha => ?_
    exact absurd (hverdicts.replaced_plan a.1 (List.mem_map_of_mem ha)) List.not_mem_nil
  rw [hadded, hreplaced, hnil, hnil', List.append_nil, List.append_nil]
  exact ⟨rfl, rfl⟩

theorem Judged.touched {plans : List (ℕ × DailyTargetPlan)}
    {rows : List (Option (MetadataRow Cell))} {s s' : Effects} (h : Judged plans rows s s') {i : ℕ}
    (hi : i ∈ positions plans) : Touched i s' := by
  obtain ⟨added, replaced, hadded, -, hverdicts⟩ := h
  left
  rw [hadded, positions_append]
  exact List.mem_append_right _ (hverdicts.once.mem_iff.mpr hi)

section Initial

variable {all early active : List (ℕ × DailyTargetPlan)}

private theorem writePartialFrames_iff (e : DailyEnv) (base factors : Frame)
    (hperm : (early ++ active).Perm all) (hall : (positions all).Nodup)
    {earlyRows : List (Option (MetadataRow Cell))} {st : Store} {s : Effects}
    (hearly : Judged early earlyRows ⟨st, [], []⟩ s) (hstore : s.store = st) :
    let out := writePartialFrames e base factors active s
    let outcome := planOutcome e st.staging base factors
    let settles : Prop := (∀ plan ∈ active, outcome plan = .returned) ∨
      (early = [] ∧ active.head?.map outcome = some .refused)
    match out.1 with
    | .ok rows => OneVerdict all (earlyRows ++ rows) out.2.added out.2.replaced ↔ settles
    | .error err =>
      let failures := writeDailyFailures e (e.formatExc err) all out.2
      OneVerdict all failures.1 failures.2.added failures.2.replaced ↔ settles := by
  obtain ⟨-, hactive, -⟩ := split_positions hperm hall
  have hloop := writePartialFrames_spec e base factors hactive s
  rw [hstore] at hloop
  intro out outcome settles
  by_cases hreturned : ∀ plan ∈ active, outcome plan = .returned
  · obtain ⟨rows, hrows, hjudged⟩ := hloop.complete hreturned
    rw [hrows]
    have hsettles : settles := Or.inl hreturned
    exact verdict_iff_of_loop hperm hall hearly (fun _ => hjudged) fun h => absurd hsettles h
  · obtain ⟨err, herr, hhead⟩ := hloop.stopped (by simpa using hreturned)
    rw [herr]
    refine verdict_iff_of_handler e _ hall (fun h => ?_) fun h => ?_
    · -- the first plan raised before its replacement, and nothing had been added
      obtain ⟨hnil, hrefused⟩ := h.resolve_left hreturned
      rw [if_pos hrefused] at hhead
      obtain ⟨hadded, hreplaced⟩ := (hnil ▸ hearly).same_of_nil
      exact ⟨hhead.1.trans hadded, hhead.2.trans hreplaced⟩
    · by_cases hnil : early = []
      · have hnot : ¬active.head?.map outcome = some .refused := fun hrefused =>
          h (Or.inr ⟨hnil, hrefused⟩)
        rw [if_neg hnot] at hhead
        obtain ⟨i, hi, htouched⟩ := hhead
        refine ⟨i, (hperm.map Prod.fst).mem_iff.mp ?_, htouched⟩
        rw [List.map_append]
        exact List.mem_append_right _ hi
      · obtain ⟨plan, hplan⟩ := List.exists_mem_of_ne_nil early hnil
        refine ⟨plan.1, (hperm.map Prod.fst).mem_iff.mp ?_, ?_⟩
        · rw [List.map_append]
          exact List.mem_append_left _ (List.mem_map_of_mem hplan)
        · exact (hearly.touched (List.mem_map_of_mem hplan)).grows hloop.grows

private theorem processActivePlans_iff (e : DailyEnv) (w : DailyWorker) (code : String)
    (factorState : AdjustFactorState) (fetchStartDate : Option String) (unadjusted : Frame)
    (apiErrorStack : Option String) (hperm : (early ++ active).Perm all)
    (hall : (positions all).Nodup) {earlyRows : List (Option (MetadataRow Cell))} {st : Store}
    {s : Effects} (hearly : Judged early earlyRows ⟨st, [], []⟩ s) (hstore : s.store = st) :
    let out := processActivePlans e w code factorState active fetchStartDate unadjusted
      apiErrorStack s
    let settles := apiErrorStack ≠ none ∨
      ActiveSettles e w code factorState.frame early active unadjusted st
    match out.1 with
    | .ok result => result.apiRequests = [] →
      (OneVerdict all (earlyRows ++ result.runRecords) out.2.added out.2.replaced ↔ settles)
    | .error err =>
      let failures := writeDailyFailures e (e.formatExc err) all out.2
      OneVerdict all failures.1 failures.2.added failures.2.replaced ↔ settles := by
  obtain ⟨-, hactive, hdisjoint⟩ := split_positions hperm hall
  -- an API error fails the active plans in either mode
  have hapi : ∀ errorStack, OneVerdict all
      (earlyRows ++ (writeDailyFailures e errorStack active s).1)
      (writeDailyFailures e errorStack active s).2.added
      (writeDailyFailures e errorStack active s).2.replaced := fun errorStack =>
    (hearly.append (writeDailyFailures_judged e errorStack hactive s) hdisjoint).verdict rfl rfl
      hperm
  unfold processActivePlans ActiveSettles
  by_cases hmode : w.mode = "full"
  · simp only [if_pos hmode]
    cases fetchStartDate with
    | none => exact fun h => absurd h (List.cons_ne_nil _ _)
    | some date =>
      rw [if_neg (by simp)]
      cases apiErrorStack with
      | some errorStack => exact fun _ => iff_of_true (hapi errorStack) (Or.inl (by simp))
      | none =>
        simp only [ne_eq, not_true_eq_false, false_or]
        exact fun _ => writeDailyFrames_iff e w hperm hall hearly (by rw [hstore]) unadjusted _
  · simp only [if_neg hmode]
    cases apiErrorStack with
    | some errorStack => exact fun _ => iff_of_true (hapi errorStack) (Or.inl (by simp))
    | none =>
      simp only [ne_eq, not_true_eq_false, false_or, hstore]
      cases hbase : partialUnadjustedBase e w code unadjusted st with
      | error err =>
        refine verdict_iff_of_handler e _ hall (fun h => (h ▸ hearly).same_of_nil) fun h => ?_
        obtain ⟨plan, hplan⟩ := List.exists_mem_of_ne_nil early h
        refine ⟨plan.1, (hperm.map Prod.fst).mem_iff.mp ?_,
          hearly.touched (List.mem_map_of_mem hplan)⟩
        rw [List.map_append]
        exact List.mem_append_left _ (List.mem_map_of_mem hplan)
      | ok base =>
        cases base with
        | inr reason => exact fun h => absurd h (List.cons_ne_nil _ _)
        | inl base =>
          have hpartial := writePartialFrames_iff e base factorState.frame hperm hall hearly hstore
          revert hpartial
          simp only
          generalize writePartialFrames e base factorState.frame active s = out
          intro hpartial
          obtain ⟨res, s'⟩ := out
          cases res with
          | error err => exact hpartial
          | ok rows => exact fun _ => hpartial

end Initial

private theorem processDailyInitial_iff (e : DailyEnv) (w : DailyWorker) (code : String)
    (plans : List DailyTargetPlan) (fetchStartDate : Option String) (unadjusted : Frame)
    (apiErrorStack : Option String) (st : Store) :
    let out := processDailyInitial e w code plans fetchStartDate unadjusted apiErrorStack st
    out.result.apiRequests = [] →
    (OneVerdict (numbered plans) out.result.runRecords out.effects.added out.effects.replaced ↔
      InitialSettles e w code plans unadjusted apiErrorStack st) := by
  have hall := nodup_numbered plans
  have hperm := List.filter_append_perm (failsEarly (w.factorStateForCode code)) (numbered plans)
  obtain ⟨hnodup, -, -⟩ := split_positions hperm hall
  obtain ⟨added, hadded, hverdicts⟩ := writeDailyFailures_spec e
    ((w.factorStateForCode code).errorStack.getD "") _ hnodup ⟨st, [], []⟩
  have hearly := writeDailyFailures_judged e ((w.factorStateForCode code).errorStack.getD "")
    hnodup ⟨st, [], []⟩
  have hstore : (writeDailyFailures e ((w.factorStateForCode code).errorStack.getD "")
      ((numbered plans).filter (failsEarly (w.factorStateForCode code))) ⟨st, [], []⟩).2.store =
      st := by
    rw [hadded]
  have hactive := processActivePlans_iff e (w.setDailyPlans code plans) code
    (w.factorStateForCode code) fetchStartDate unadjusted apiErrorStack hperm hall hearly hstore
  have hfactors : (w.setDailyPlans code plans).factorStateForCode code =
      w.factorStateForCode code := rfl
  unfold processDailyInitial processDailyInitialBody InitialSettles
  simp only [hfactors, writeEarlyFailures]
  revert hactive hearly
  generalize writeDailyFailures e ((w.factorStateForCode code).errorStack.getD "")
    ((numbered plans).filter (failsEarly (w.factorStateForCode code))) ⟨st, [], []⟩ = failed
  intro hearly hactive
  obtain ⟨earlyRows, s⟩ := failed
  by_cases hnil : (numbered plans).filter
      (fun plan => !failsEarly (w.factorStateForCode code) plan) = []
  · rw [if_pos hnil]
    rw [hnil, List.append_nil] at hperm
    exact fun _ => iff_of_true (hearly.verdict rfl rfl hperm) (Or.inl hnil)
  · rw [if_neg hnil]
    simp only [hnil, false_or]
    revert hactive
    generalize processActivePlans e (w.setDailyPlans code plans) code (w.factorStateForCode code)
      _ fetchStartDate unadjusted apiErrorStack s = out
    intro hactive
    obtain ⟨res, s'⟩ := out
    cases res with
    | ok result => exact hactive
    | error err => exact fun _ => hactive

/-- Every plan of a call gets exactly one verdict, and the right one, exactly when nothing
raises between a replacement and the end of its row, and nothing raises out of the loop of the
partial mode once a row or a replacement is there. -/
theorem one_verdict_iff (e : DailyEnv) (w : DailyWorker) (st : Store) (unadjusted : Frame)
    (apiErrorStack : Option String) :
    (∀ code plans fetchStartDate,
      let out := processDailyInitial e w code plans fetchStartDate unadjusted apiErrorStack st
      out.result.apiRequests = [] →
        (OneVerdict (numbered plans) out.result.runRecords out.effects.added
          out.effects.replaced ↔ InitialSettles e w code plans unadjusted apiErrorStack st)) ∧
    ∀ request,
      let out := processDailyFullRefetch e w request unadjusted apiErrorStack st
      OneVerdict (numbered (refetchPlans w request)) out.result.runRecords out.effects.added
        out.effects.replaced ↔ RefetchSettles e w request unadjusted apiErrorStack st :=
  ⟨fun code plans fetchStartDate =>
      processDailyInitial_iff e w code plans fetchStartDate unadjusted apiErrorStack st,
    fun request => processDailyFullRefetch_iff e w request unadjusted apiErrorStack st⟩

/-! One code with its unadjusted and its forward adjusted bars, both due; the unadjusted
bars of one session are stored. -/

def barOf (code : String) : Frame :=
  ⟨["date", "code"], fun _ => .object, [rowOf [("date", .date 19724), ("code", .text code)]]⟩

def duePlan (dataset : String) : DailyTargetPlan :=
  ⟨dataset, "sh.600000", "2024-01-01", "2024-01-02", "/data/" ++ dataset, 0⟩

def duePlans : List DailyTargetPlan :=
  [duePlan "baostock_cn_stock_daily_bar_unadjusted", duePlan "baostock_cn_stock_daily_bar_qfq"]

/-- The adjustment of prices raises, and so does every flush if `flushes` says so. -/
def failingEnv (flushes : Bool) : DailyEnv where
  pandas := .plain
  hashing := .plain
  writes _ := .plain true
  flushes _ := if flushes then some .other else none
  failureFlushes _ := if flushes then some .other else none
  reading := ⟨true, fun _ => .written, true⟩
  calculateAdjustedDailyBar _ _ _ := .error .other
  hasDataInRange existing _ _ := .ok (existing.rows ≠ [])
  dailyFramesDifferOnOverlap _ _ _ _ := .ok false
  mergeDailyFrames _ fresh := .ok fresh
  formatExc _ := "Traceback"
  moment _ := ⟨"1", 0, 0, 0⟩
  pathText path := path.1 ++ "/" ++ path.2

def dueWorker (mode : String) : DailyWorker :=
  ⟨mode, "2024-01-01", "2024-01-02", fun _ => none, fun _ => [duePlan unadjustedDailyDataset]⟩

def storedBars : Store :=
  Store.empty.setFile unadjustedDailyDataset "sh.600000" (barOf "sh.600000").rows

def bothDueWorker : DailyWorker :=
  ⟨"full", "2024-01-01", "2024-01-02", fun _ => none, fun _ => duePlans⟩

def bothRequest : ApiFetchRequest :=
  ⟨"daily_bar_full_refetch", "sh.600000", fullHistoryStartDate, "2024-01-02",
    ["baostock_cn_stock_daily_bar_unadjusted", "baostock_cn_stock_daily_bar_qfq"],
    "unadjusted_lookback_mismatch"⟩

/-- An error of the service fails both plans; a refetch replaces the unadjusted bars and
fails the adjusted ones. -/
theorem one_verdict_some_replaced :
    (let out := processDailyInitial (failingEnv true) (dueWorker "partial") "sh.600000" duePlans
        (some "2024-01-01") emptyFrame (some "timeout") storedBars;
      OneVerdict (numbered duePlans) out.result.runRecords out.effects.added
        out.effects.replaced) ∧
    (let out := processDailyFullRefetch (failingEnv false) bothDueWorker bothRequest
        (barOf "sh.600000") none storedBars;
      positions out.effects.replaced = [0] ∧ positions out.effects.added = [0, 1] ∧
        OneVerdict (numbered (refetchPlans bothDueWorker bothRequest)) out.result.runRecords
          out.effects.added out.effects.replaced) := by
  constructor
  · exact ((one_verdict_iff (failingEnv true) (dueWorker "partial") storedBars emptyFrame
      (some "timeout")).1 "sh.600000" duePlans (some "2024-01-01") rfl).mpr
      (Or.inr (Or.inl (by simp)))
  · refine ⟨by decide +kernel, by decide +kernel, ?_⟩
    refine ((one_verdict_iff (failingEnv false) bothDueWorker storedBars (barOf "sh.600000")
      none).2 bothRequest).mpr (Or.inr ?_)
    decide +kernel

/-- The adjusted bars fail, and the unadjusted plan gets a failure after its success; a
refetch that replaces the partition and cannot flush gives its plan two rows. -/
theorem plans_get_two_verdicts :
    (let out := processDailyInitial (failingEnv false) (dueWorker "partial") "sh.600000" duePlans
        (some "2024-01-01") (barOf "sh.600000") none storedBars;
      out.result.apiRequests = [] ∧ positions out.effects.added = [0, 0, 1] ∧
        ¬OneVerdict (numbered duePlans) out.result.runRecords out.effects.added
          out.effects.replaced) ∧
    (let request : ApiFetchRequest := ⟨"daily_bar_full_refetch", "sh.600000",
        fullHistoryStartDate, "2024-01-02", [unadjustedDailyDataset],
        "unadjusted_lookback_mismatch"⟩;
      let out := processDailyFullRefetch (failingEnv true) (dueWorker "partial") request
        (barOf "sh.600000") none storedBars;
      positions out.effects.added = [0, 0] ∧
        ¬OneVerdict (numbered (refetchPlans (dueWorker "partial") request)) out.result.runRecords
          out.effects.added out.effects.replaced) := by
  have hinitial : positions (processDailyInitial (failingEnv false) (dueWorker "partial")
      "sh.600000" duePlans (some "2024-01-01") (barOf "sh.600000") none
      storedBars).effects.added = [0, 0, 1] := by decide +kernel
  refine ⟨⟨by decide +kernel, hinitial, fun h => ?_⟩, ?_⟩
  · have hlength := h.once.length_eq
    rw [hinitial] at hlength
    exact absurd hlength (by decide)
  · intro request out
    have hrefetch : positions out.effects.added = [0, 0] := by decide +kernel
    refine ⟨hrefetch, fun h => ?_⟩
    have hlength := h.once.length_eq
    rw [hrefetch] at hlength
    exact absurd hlength (by decide +kernel)

end QuantDataCenter.Sources
