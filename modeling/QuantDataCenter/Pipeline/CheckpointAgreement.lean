import QuantDataCenter.Pipeline.CheckpointLookup
import QuantDataCenter.Storage.ParquetStore

/-!
The index of the checkpoints against the table it is built of. The index sorts the table once
and keeps the last status of a key; the table is filtered for each question, and the latest
match answers it.
-/

set_option autoImplicit false
set_option relaxedAutoImplicit false

namespace QuantDataCenter.Pipeline

open QuantDataCenter.Lib QuantDataCenter.Lib.Keyed QuantDataCenter.Tabular
open QuantDataCenter.Storage (rowOf)

/-- The columns that name a task are present, and no two rows share an update time. -/
structure WellKeyed (checkpoints : List Row) : Prop where
  named : ∀ row ∈ checkpoints, ∀ column ∈ ["pipeline", "dataset", "code"], row column ≠ .null
  timed : ∀ row ∈ checkpoints, ∃ ns, row "updated_at" = .stamp ns
  distinct : (checkpoints.map fun row => row "updated_at").Nodup

/-- The key of a row for the question about an end date. -/
def dateLookupKey (p : Pandas) (row : Row) : Option (String × String × String × String) :=
  (dateKey p (row "end_date")).map fun endKey =>
    (strCell p (row "pipeline"), strCell p (row "dataset"), strCell p (row "code"), endKey)

section Ranks

variable {checkpoints : List Row}

private theorem updatedRank_stamp {missing : ℕ} {row : Row} {ns : Int}
    (h : row "updated_at" = .stamp ns) :
    updatedRank missing row = toLex (1, ns) := by
  unfold updatedRank
  rw [h]

/-- With every time present it does not matter where missing times would go. -/
private theorem updatedRank_eq (h : WellKeyed checkpoints) :
    ∀ row ∈ checkpoints, updatedRank 2 row = updatedRank 0 row := by
  intro row hrow
  obtain ⟨ns, hns⟩ := h.timed row hrow
  rw [updatedRank_stamp hns, updatedRank_stamp hns]

private theorem nodup_updatedRank (h : WellKeyed checkpoints) :
    (checkpoints.map (updatedRank 2)).Nodup := by
  refine List.Nodup.map_on ?_ (List.Nodup.of_map _ h.distinct)
  intro row hrow row' hrow' hrank
  obtain ⟨ns, hns⟩ := h.timed row hrow
  obtain ⟨ns', hns'⟩ := h.timed row' hrow'
  rw [updatedRank_stamp hns, updatedRank_stamp hns'] at hrank
  have heq : ns = ns' := (Prod.mk.inj (toLex.injective hrank)).2
  apply List.inj_on_of_nodup_map h.distinct hrow hrow'
  rw [hns, hns', heq]

end Ranks

section Index

variable {e : CheckpointEnv} {checkpoints : List Row} {key : CheckpointKey}

private theorem textIs_iff {p : Pandas} {c : Cell} (hc : c ≠ .null) (s : String) :
    textIs p c s = true ↔ strCell p c = s := by
  refine ⟨strCell_of_textIs, fun h => ?_⟩
  unfold textIs
  unfold strCell at h
  split at h
  case h_1 => exact absurd rfl hc
  case h_2 =>
    rw [h]
    simp [hc]

private theorem matchesDate_iff {p : Pandas} {row : Row}
    (hnamed : ∀ column ∈ ["pipeline", "dataset", "code"], row column ≠ .null) :
    matchesDate p key row = true ↔
      dateLookupKey p row = some (key.pipeline, key.dataset, key.code, key.endDate) := by
  have hpipeline := @textIs_iff p _ (hnamed "pipeline" (by decide)) key.pipeline
  have hdataset := @textIs_iff p _ (hnamed "dataset" (by decide)) key.dataset
  have hcode := @textIs_iff p _ (hnamed "code" (by decide)) key.code
  unfold matchesDate dateLookupKey
  rw [Bool.and_eq_true, Bool.and_eq_true, Bool.and_eq_true, hpipeline, hdataset, hcode, beq_iff_eq]
  cases dateKey p (row "end_date") with
  | none => simp
  | some endKey =>
    simp only [Option.map_some, Option.some.injEq, Prod.mk.injEq]
    tauto

private theorem matchesPipeline_iff {p : Pandas} {row : Row}
    (hnamed : ∀ column ∈ ["pipeline", "dataset", "code"], row column ≠ .null) :
    matchesPipeline p key row = true ↔ lookupKey p row = some key := by
  refine ⟨lookupKey_of_matches, fun h => ?_⟩
  obtain ⟨startKey, hstart, h⟩ := Option.bind_eq_some_iff.mp h
  obtain ⟨endKey, hend, h⟩ := Option.map_eq_some_iff.mp h
  subst h
  unfold matchesPipeline
  rw [Bool.and_eq_true, beq_iff_eq]
  refine ⟨(matchesDate_iff hnamed).mpr ?_, hstart⟩
  unfold dateLookupKey
  rw [hend]
  rfl

private theorem foldl_note (p : Pandas) (rows : List Row) (lookup : CheckpointLookup) :
    (rows.foldl (CheckpointLookup.note p) lookup).pipelineStatus =
        rows.foldl (Dict.setNamed (lookupKey p) (rowStatus p)) lookup.pipelineStatus ∧
      (rows.foldl (CheckpointLookup.note p) lookup).dateStatus =
        rows.foldl (Dict.setNamed (dateLookupKey p) (rowStatus p)) lookup.dateStatus := by
  induction rows generalizing lookup with
  | nil => exact ⟨rfl, rfl⟩
  | cons row rows ih =>
    obtain ⟨hpipeline, hdate⟩ := ih (lookup.note p row)
    have hpipelineNoted : (lookup.note p row).pipelineStatus =
        Dict.setNamed (lookupKey p) (rowStatus p) lookup.pipelineStatus row := by
      unfold CheckpointLookup.note Dict.setNamed
      cases lookupKey p row with
      | none => rfl
      | some key => rfl
    have hdateNoted : (lookup.note p row).dateStatus =
        Dict.setNamed (dateLookupKey p) (rowStatus p) lookup.dateStatus row := by
      unfold CheckpointLookup.note Dict.setNamed dateLookupKey
      cases dateKey p (row "end_date") with
      | none => rfl
      | some endKey => rfl
    rw [List.foldl_cons, List.foldl_cons, List.foldl_cons, ← hpipelineNoted, ← hdateNoted]
    exact ⟨hpipeline, hdate⟩

/-- The status of the last match of the sorted table is that of the latest match. -/
private theorem latest_of_sorted (h : WellKeyed checkpoints) (matching : Row → Bool) :
    latestSucceeded e (checkpoints.filter matching) =
      (((e.missingFirst.sort checkpoints).filter matching).getLast?.map (rowStatus e.toPandas) ==
        some "success") := by
  unfold latestSucceeded
  rw [Sorter.sort_filter e.missingLast e.missingFirst (updatedRank_eq h) (nodup_updatedRank h)]

private theorem named_of_sorted (h : WellKeyed checkpoints) :
    ∀ row ∈ e.missingFirst.sort checkpoints,
      ∀ column ∈ ["pipeline", "dataset", "code"], row column ≠ .null :=
  fun row hrow => h.named row ((e.missingFirst.perm checkpoints).mem_iff.mp hrow)

/-- The index answers both questions as the table does. -/
theorem lookup_agrees (h : WellKeyed checkpoints) (key : CheckpointKey) (outputExists : Bool) :
    (CheckpointLookup.ofRows e checkpoints).pipelineCheckpointSucceeded key outputExists =
        pipelineCheckpointSucceeded e checkpoints key outputExists ∧
      (CheckpointLookup.ofRows e checkpoints).checkpointSucceededForDate key outputExists =
        checkpointSucceededForDate e checkpoints key outputExists := by
  obtain ⟨hpipeline, hdate⟩ := foldl_note e.toPandas (e.missingFirst.sort checkpoints) ⟨[], []⟩
  constructor
  · have hmatches : (e.missingFirst.sort checkpoints).filter (matchesPipeline e.toPandas key) =
        (e.missingFirst.sort checkpoints).filter fun row => lookupKey e.toPandas row = some key := by
      apply List.filter_congr
      intro row hrow
      rw [Bool.eq_iff_iff, decide_eq_true_iff]
      exact matchesPipeline_iff (named_of_sorted h row hrow)
    unfold CheckpointLookup.pipelineCheckpointSucceeded pipelineCheckpointSucceeded
      CheckpointLookup.ofRows
    rw [latest_of_sorted h, hmatches, hpipeline, Dict.get_foldl_setNamed]
    exact congrArg (fun status => outputExists && status == some "success") Option.or_none
  · have hmatches : (e.missingFirst.sort checkpoints).filter (matchesDate e.toPandas key) =
        (e.missingFirst.sort checkpoints).filter fun row => dateLookupKey e.toPandas row =
          some (key.pipeline, key.dataset, key.code, key.endDate) := by
      apply List.filter_congr
      intro row hrow
      rw [Bool.eq_iff_iff, decide_eq_true_iff]
      exact matchesDate_iff (named_of_sorted h row hrow)
    unfold CheckpointLookup.checkpointSucceededForDate checkpointSucceededForDate
      CheckpointLookup.ofRows
    rw [latest_of_sorted h, hmatches, hdate, Dict.get_foldl_setNamed]
    exact congrArg (fun status => outputExists && status == some "success") Option.or_none

end Index

/-- Two checkpoints of one task, the later one without dates. -/
def twoCheckpoints : List Row :=
  [rowOf [("pipeline", .text "update_daily"), ("dataset", .text "baostock_cn_stock_basic"),
      ("code", .text "*"), ("start_date", .date 19723), ("end_date", .date 19724),
      ("status", .text "success"), ("updated_at", .stamp 1)],
    rowOf [("pipeline", .text "update_daily"), ("dataset", .text "baostock_cn_stock_basic"),
      ("code", .text "*"), ("status", .text "failed"), ("updated_at", .stamp 2)]]

/-- The environment and the key of their questions. -/
def twoCheckpointsEnv : CheckpointEnv :=
  ⟨Storage.Metadata.plainReader, .stable _, .stable _⟩

def twoCheckpointsKey : CheckpointKey :=
  ⟨"update_daily", "baostock_cn_stock_basic", "*", "2024-01-01", "2024-01-02"⟩

theorem twoCheckpoints_agree :
    (CheckpointLookup.ofRows twoCheckpointsEnv twoCheckpoints).pipelineCheckpointSucceeded
        twoCheckpointsKey true =
      pipelineCheckpointSucceeded twoCheckpointsEnv twoCheckpoints twoCheckpointsKey true ∧
    (CheckpointLookup.ofRows twoCheckpointsEnv twoCheckpoints).checkpointSucceededForDate
        twoCheckpointsKey true =
      checkpointSucceededForDate twoCheckpointsEnv twoCheckpoints twoCheckpointsKey true :=
  lookup_agrees
    { named := by decide +kernel
      timed := by simp [twoCheckpoints, rowOf]
      distinct := by decide +kernel } twoCheckpointsKey true

end QuantDataCenter.Pipeline
