import QuantDataCenter.Sources.DailyFrames
import QuantDataCenter.Sources.DailyWorker
import QuantDataCenter.Storage.KeyedWrite

/-!
The partitions of one code in the daily datasets and in the factors: how they are named,
what they hold, and what a write that replaces one of them leaves.
-/

set_option autoImplicit false
set_option relaxedAutoImplicit false

namespace QuantDataCenter.Sources

open QuantDataCenter.Lib.Checked QuantDataCenter.Lib.Transition QuantDataCenter.Tabular
open QuantDataCenter.Quality QuantDataCenter.Storage QuantDataCenter.Derived.Research

/-- `FULL_HISTORY_START_DATE` as a day. -/
def fullHistoryStart : Int := 7305

section Names

variable {p : Pandas} {st st' : Store}

theorem baostockBars_definition {id : String} (hid : id ∈ baostockDailyBarDatasetIds) :
    datasetDefinition id = .ok (dailyBarDataset id) := by
  simp only [baostockDailyBarDatasetIds, List.mem_cons, List.not_mem_nil, or_false] at hid
  rcases hid with rfl | rfl | rfl <;> rfl

theorem codePartition_value {d : DatasetDefinition} (hcolumn : d.partitionColumn = some "code")
    (hformat : d.codeFormat = .baostockPrefixed) {code value : String}
    (h : partitionValue p d (codePartition code) = .ok value) : value = strip code := by
  unfold partitionValue codePartition at h
  simp only [hcolumn, if_true] at h
  unfold normalizePartitionValue at h
  rw [if_neg fun hsix => by rw [hformat] at hsix; cases hsix.2] at h
  have hstr : p.str (.text code) = code := rfl
  by_cases hblank : strip (p.str (.text code)) = ""
  · simp only [if_pos hblank] at h
    cases h
  · simp only [if_neg hblank] at h
    rw [← Except.ok.inj h, hstr]

theorem code_not_blank {d : DatasetDefinition} (hcolumn : d.partitionColumn = some "code")
    (hformat : d.codeFormat = .baostockPrefixed) {code value : String}
    (h : partitionValue p d (codePartition code) = .ok value) : strip code ≠ "" := by
  intro hblank
  unfold partitionValue codePartition at h
  simp only [hcolumn, if_true] at h
  unfold normalizePartitionValue at h
  rw [if_neg fun hsix => by rw [hformat] at hsix; cases hsix.2] at h
  have hstr : strip (p.str (.text code)) = "" := hblank
  simp only [if_pos hstr] at h
  cases h

private theorem bars_of_stored {id value : String} {rows : List Row}
    (h : StoredWell p (dailyBarDataset id) value rows) :
    Accepted dailyBarSchema "date" rows ∧ ∀ r ∈ rows, r "code" = .text value :=
  AcceptedPartition.accepted ⟨h.valid, h.inPartition⟩ (datedValidator_bars id)

theorem content_bars (hst : WellStored p st) {id : String} (hid : id ∈ baostockDailyBarDatasetIds)
    (value : String) : Accepted dailyBarSchema "date" (content st (dailyBarDataset id) value) ∧
      ∀ r ∈ content st (dailyBarDataset id) value, r "code" = .text value := by
  unfold content
  cases hfile : st.files (dailyBarDataset id).id value with
  | none =>
    exact ⟨⟨by simp, by simp, by simp, List.nodup_nil⟩, by simp⟩
  | some rows => exact bars_of_stored (hst _ (dailyBar_mem hid) value rows hfile)

theorem nodup_frameKey {rows : List Row} (h : Accepted dailyBarSchema "date" rows) :
    (rows.map (frameKey p)).Nodup := by
  refine List.Nodup.map_on ?_ (List.Nodup.of_map _ h.nodup)
  intro r hr r' hr' hkey
  obtain ⟨day, hday⟩ := h.date r hr
  obtain ⟨day', hday'⟩ := h.date r' hr'
  obtain ⟨hcode, hdays⟩ := Prod.mk.inj hkey
  rw [hday, hday', normalizedDay_date, normalizedDay_date] at hdays
  apply List.inj_on_of_nodup_map h.nodup hr hr'
  simp only [rowKey, List.map_cons, List.map_nil, hcode, hday, hday', Option.some.inj hdays]

end Names

/-! Writes -/

section Writes

variable {p : Pandas} {h : Hashing} {st st' : Store} {code : String}

theorem content_congr {d : DatasetDefinition} {value : String}
    (hfile : st'.files d.id value = st.files d.id value) : content st' d value = content st d value :=
  congrArg (fun file => file.getD []) hfile

theorem wellStored_writeDataset {env : WriteEnv} {dataset : String} {df : Frame}
    {partition : Partition} (hst : WellStored p st) :
    WellStored p (writeDataset p h env dataset df partition none false st).2 :=
  @wellStored_callStep p h st _ ⟨env, dataset, df, partition, none, false⟩ hst rfl

theorem replacePartition_spec {d : DatasetDefinition} {env : WriteEnv} {df : Frame}
    {result : DatasetWriteResult} (hmem : d ∈ datasetCatalog)
    (hdef : datasetDefinition d.id = .ok d) (hmode : d.defaultWriteMode = .replace)
    (hcolumn : d.partitionColumn = some "code") (hformat : d.codeFormat = .baostockPrefixed)
    (hst : WellStored p st)
    (hwrite : writeDataset p h env d.id df (codePartition code) none false st = (.ok result, st')) :
    WellStored p st' ∧
      (∀ id v, ¬(id = d.id ∧ v = strip code) → st'.files id v = st.files id v) ∧
      ∃ coerced, coercedFrame p d df = .ok coerced ∧
        content st' d (strip code) = sortValues env d.sortColumns coerced.rows := by
  have hwell := @wellStored_writeDataset p h st env d.id df (codePartition code) hst
  obtain ⟨value, coerced, hvalue, hcoerced, -, hfile, hothers⟩ :=
    @writeDataset_replaced p h d df (codePartition code) st env hmem hdef hmode
      (by rw [hwrite]; rfl)
  obtain rfl := codePartition_value hcolumn hformat hvalue
  rw [hwrite] at hwell hfile hothers
  refine ⟨hwell, fun id v hnot => ?_, coerced, hcoerced, congrArg (fun file => file.getD []) hfile⟩
  by_cases hid : id = d.id
  · subst hid
    exact hothers v fun hv => hnot ⟨rfl, hv⟩
  · have hother := @writeDataset_files_of_ne p h env d.id id df (codePartition code) none false st
      hid v
    rw [hwrite] at hother
    exact hother

end Writes

end QuantDataCenter.Sources
