import QuantDataCenter.Storage.PartitionPaths

/-!
What a call of `write_dataset` that raises leaves behind. Each partition is whole,
before or after, but a call is not undone: a file whose ledger row could not be
written stays replaced, an upsert without a partition keeps the groups it wrote
before the one that raised, and old partition directories are gone before the
first file is written.
-/

set_option autoImplicit false
set_option relaxedAutoImplicit false

namespace QuantDataCenter.Storage

open QuantDataCenter.Tabular Store

/-- A call that raises leaves files and ledger as they were. -/
def AtomicOnError (p : Pandas) (h : Hashing) (env : WriteEnv) (dataset : String) (df : Frame)
    (partition : Partition) (mode : Option WriteMode) (skip : Bool) (st : Store) : Prop :=
  raised (writeDatasetAt p h env dataset df partition mode skip st).1 = true →
    SameData st (writeDatasetAt p h env dataset df partition mode skip st).2

/-- The old partition directories are those of before, or the ones of the dataset are removed. -/
def LegacyCleaned (d : DatasetDefinition) (st st' : Store) : Prop :=
  st'.legacy = st.legacy ∨ st'.legacy = (st.cleanupLegacyPartitions d).legacy

section Legacy

variable {p : Pandas} {h : Hashing} {env : WriteEnv} {d : DatasetDefinition}

private theorem LegacyCleaned.refl (st : Store) : LegacyCleaned d st st := Or.inl rfl

private theorem cleanupLegacyPartitions_congr {st st' : Store} (same : st.legacy = st'.legacy) :
    (st.cleanupLegacyPartitions d).legacy = (st'.cleanupLegacyPartitions d).legacy := by
  simp only [cleanupLegacyPartitions, same]

private theorem cleanupLegacyPartitions_twice (st : Store) :
    ((st.cleanupLegacyPartitions d).cleanupLegacyPartitions d).legacy =
      (st.cleanupLegacyPartitions d).legacy := by
  funext dataset
  simp only [cleanupLegacyPartitions]
  split
  case isTrue => rw [List.filter_filter]; simp only [Bool.and_self]
  case isFalse => rfl

private theorem LegacyCleaned.trans {st st' st'' : Store} (a : LegacyCleaned d st st')
    (b : LegacyCleaned d st' st'') : LegacyCleaned d st st'' := by
  rcases a with hsame | hcleaned
  · rcases b with hsame' | hcleaned'
    · exact Or.inl (hsame'.trans hsame)
    · exact Or.inr (hcleaned'.trans (cleanupLegacyPartitions_congr hsame))
  · rcases b with hsame' | hcleaned'
    · exact Or.inr (hsame'.trans hcleaned)
    · refine Or.inr (hcleaned'.trans ?_)
      rw [cleanupLegacyPartitions_congr hcleaned, cleanupLegacyPartitions_twice]

private theorem writePreparedDataset_legacy (io : PartitionIo) (df : Frame) (value : String)
    (st : Store) : LegacyCleaned d st (writePreparedDataset p h io d df value st).2 := by
  refine Or.inr ?_
  unfold writePreparedDataset
  simp only
  split
  case h_1 => rfl
  case h_2 =>
    unfold upsertPartitionManifestAfterWrite
    split <;> rename_i heq <;> split at heq
    all_goals try split at heq
    all_goals obtain ⟨-, rfl⟩ := Prod.mk.inj heq
    all_goals rfl

private theorem writeDatasetUpsertPartition_legacy (io : PartitionIo) (df : Frame)
    (partition : Partition) (value : String) (skip : Bool) (st : Store) :
    LegacyCleaned d st
      (writeDatasetUpsertPartition p h env io d df partition value skip st).2 := by
  unfold writeDatasetUpsertPartition
  split
  case h_1 => exact .refl st
  case h_2 => exact .refl st
  case h_3 fresh combined hframes =>
    have hlegacy := @writePreparedDataset_legacy p h d io combined value st
    split
    case h_1 e st' hwrite =>
      rw [hwrite] at hlegacy
      exact hlegacy
    case h_2 st' hwrite =>
      rw [hwrite] at hlegacy
      exact hlegacy

private theorem writeGroups_legacy (column : String) (cleaned : Frame) (skip : Bool) (k : ℕ)
    (groups : List (Cell × List Row)) (total : DatasetWriteResult) (st : Store) :
    LegacyCleaned d st (writeGroups p h env d column cleaned skip k groups total st).2 := by
  induction groups generalizing k total st with
  | nil => exact .refl st
  | cons g groups ih =>
    obtain ⟨v, rows⟩ := g
    unfold writeGroups
    cases hvalue : groupPartitionValue p d column v with
    | error e => exact .refl st
    | ok value =>
      have hlegacy := @writeDatasetUpsertPartition_legacy p h env d (env.io k)
        { cleaned with rows := rows } (some [(column, .text value)]) value skip st
      simp only
      rcases hwrite : writeDatasetUpsertPartition p h env (env.io k) d { cleaned with rows := rows }
        (some [(column, .text value)]) value skip st with ⟨res, st'⟩
      rw [hwrite] at hlegacy
      cases res with
      | error e => exact hlegacy
      | ok result => exact hlegacy.trans (ih _ _ _)

private theorem writeDatasetReplace_legacy (df : Frame) (partition : Partition) (merge : Bool)
    (st : Store) :
    LegacyCleaned d st (writeDatasetReplace p h env d df partition merge st).2 := by
  unfold writeDatasetReplace
  split
  case h_1 => exact .refl st
  case h_2 value hvalue =>
    split
    case h_1 => exact .refl st
    case h_2 incoming hframe =>
      have hlegacy := @writePreparedDataset_legacy p h d (env.io 0) incoming value st
      split
      case h_1 e st' hwrite =>
        rw [hwrite] at hlegacy
        exact hlegacy
      case h_2 st' hwrite =>
        rw [hwrite] at hlegacy
        exact hlegacy

/-- A call removes old partition directories of its own dataset at most. -/
private theorem writeDataset_legacy {dataset : String} (hd : datasetDefinition dataset = .ok d)
    (df : Frame) (partition : Partition) (mode : Option WriteMode) (skip : Bool) (st : Store) :
    LegacyCleaned d st (writeDataset p h env dataset df partition mode skip st).2 := by
  simp only [writeDataset, hd]
  split
  case isTrue => exact .refl st
  case isFalse =>
    cases mode.getD d.defaultWriteMode with
    | merge => exact writeDatasetReplace_legacy df partition true st
    | replace => exact writeDatasetReplace_legacy df partition false st
    | upsert =>
      simp only
      unfold writeDatasetUpsert
      split
      case h_1 column hcolumn =>
        split
        case isTrue => exact .refl st
        case isFalse =>
          split
          case h_1 => exact .refl st
          case h_2 cleaned hprepare => exact writeGroups_legacy column cleaned skip 0 _ _ st
      case h_2 =>
        split
        case h_1 => exact .refl st
        case h_2 => exact writeDatasetUpsertPartition_legacy _ df _ _ skip st

end Legacy

def barsOf (codes : List Cell) : Frame :=
  ⟨["date", "code"], fun _ => .object,
    codes.map fun code => rowOf [("date", .date 19724), ("code", code)]⟩

private theorem barsOf_namesDirectories : NamesDirectories .plain
    (dailyBarDataset "baostock_cn_stock_daily_bar_unadjusted")
    (barsOf [.text "sh.600000", .null]) none where
  given value hvalue := by cases hvalue
  held _ c hc := by
    obtain rfl : "code" = c := Option.some.inj hc
    decide +kernel

end QuantDataCenter.Storage
