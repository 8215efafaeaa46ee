import QuantDataCenter.Storage.KeyedWrite
import QuantDataCenter.Storage.StoreInvariant

/-!
Calls of `write_dataset` about one partition: the file they replace and the rows they
leave in it. In a dataset whose sort columns are key columns an incoming row is stored,
and a merge keeps the stored rows of other keys.
-/

set_option autoImplicit false
set_option relaxedAutoImplicit false

namespace QuantDataCenter.Storage

open QuantDataCenter.Lib.Checked QuantDataCenter.Lib.Keyed
open QuantDataCenter.Tabular QuantDataCenter.Quality Store

section Write

variable {p : Pandas} {h : Hashing} {env : WriteEnv} {d : DatasetDefinition} {df : Frame}
  {fields : List (String × Cell)} {mode : WriteMode} {st : Store}

variable (p env d df fields) in
/-- The frame a call has for its partition. -/
def plannedFrame (mode : WriteMode) (value : String) (st : Store) : Except StoreError (Option Frame) :=
  match mode with
  | .upsert => (upsertFrames p env (env.io 0) d df (some fields) value false st).map Prod.snd
  | .merge => (replaceFrame p env d df (some fields) value true st).map some
  | .replace => (replaceFrame p env d df (some fields) value false st).map some

variable (p env d df fields) in
/-- The partition whose file a call replaces, and the new rows. -/
def replacedFile (mode : WriteMode) (st : Store) : Option (String × List Row) :=
  match partitionValue p d (some fields) with
  | .error _ => none
  | .ok value =>
    match plannedFrame p env d df fields mode value st, atomicWrite (env.io 0).attempts with
    | .ok (some frame), .ok () => some (value, frame.rows)
    | _, _ => none

/-- The files of a dataset when one file has been replaced or none. -/
def filesAfter (files : String → Option (List Row)) (replaced : Option (String × List Row))
    (value : String) : Option (List Row) :=
  match replaced with
  | some (written, rows) => if value = written then some rows else files value
  | none => files value

private theorem writePrepared_files (io : PartitionIo) (frame : Frame) (value : String) :
    let out := writePreparedDataset p h io d frame value st
    (∀ value', out.2.files d.id value' = filesAfter (st.files d.id)
      (match atomicWrite io.attempts with
        | .ok () => some (value, frame.rows)
        | .error _ => none) value') ∧
      (raised out.1 = false → atomicWrite io.attempts = .ok ()) := by
  have hset : ∀ st0 : Store, ∀ value', (st0.setFile d.id value frame.rows).files d.id value' =
      filesAfter (st0.files d.id) (some (value, frame.rows)) value' := by
    intro st0 value'
    by_cases heq : value' = value
    · subst heq
      simp only [filesAfter, if_true]
      exact Store.setFile_files_self st0 d.id value' frame.rows
    · simp only [filesAfter, if_neg heq]
      exact Store.setFile_files_of_ne st0 frame.rows fun hsame => heq hsame.2
  unfold writePreparedDataset
  cases atomicWrite io.attempts with
  | error e => exact ⟨fun value' => rfl, fun hraised => by cases hraised⟩
  | ok u =>
    refine ⟨fun value' => ?_, fun _ => rfl⟩
    simp only [upsertPartitionManifestAfterWrite]
    split_ifs
    · exact hset (st.cleanupLegacyPartitions d) value'
    · exact hset (st.cleanupLegacyPartitions d) value'
    · exact hset (st.cleanupLegacyPartitions d) value'

/-- What a call leaves of the files, and that it has replaced one if it returns. -/
structure PartitionOutcome (d : DatasetDefinition) (st : Store)
    (replaced : Option (String × List Row)) (out : Except StoreError DatasetWriteResult × Store) :
    Prop where
  files : ∀ value, out.2.files d.id value = filesAfter (st.files d.id) replaced value
  returned : raised out.1 = false → ∃ file, replaced = some file

private theorem writeDatasetUpsertPartition_partition {value : String}
    (hvalue : partitionValue p d (some fields) = .ok value) :
    PartitionOutcome d st (replacedFile p env d df fields .upsert st)
      (writeDatasetUpsertPartition p h env (env.io 0) d df (some fields) value false st) := by
  have hskip : ∀ fresh, upsertFrames p env (env.io 0) d df (some fields) value false st ≠
      .ok (fresh, none) := by
    intro fresh hframes
    unfold upsertFrames at hframes
    obtain ⟨fresh', -, hframes⟩ := bind_eq_ok.mp hframes
    obtain ⟨existing, -, hframes⟩ := bind_eq_ok.mp hframes
    rw [if_neg (by simp)] at hframes
    obtain ⟨combined, -, hout⟩ := bind_eq_ok.mp hframes
    cases (Prod.mk.inj (Except.ok.inj hout)).2
  unfold writeDatasetUpsertPartition replacedFile plannedFrame
  simp only [hvalue]
  rcases hframes : upsertFrames p env (env.io 0) d df (some fields) value false st with
    e | ⟨fresh, frame⟩
  · exact ⟨fun value' => rfl, fun hraised => by cases hraised⟩
  · cases frame with
    | none => exact absurd hframes (hskip fresh)
    | some combined =>
      obtain ⟨hfiles, hreturned⟩ := @writePrepared_files p h d st (env.io 0) combined value
      simp only [Except.map]
      rcases hout : writePreparedDataset p h (env.io 0) d combined value st with ⟨result, st'⟩
      rw [hout] at hfiles hreturned
      cases hwrite : atomicWrite (env.io 0).attempts with
      | error e =>
        rw [hwrite] at hfiles hreturned
        cases result with
        | error e => exact ⟨hfiles, fun hraised => by cases hraised⟩
        | ok u => cases hreturned rfl
      | ok u =>
        rw [hwrite] at hfiles
        cases result with
        | error e => exact ⟨hfiles, fun _ => ⟨_, rfl⟩⟩
        | ok u => exact ⟨hfiles, fun _ => ⟨_, rfl⟩⟩

private theorem writeDatasetReplace_partition (merge : Bool) :
    PartitionOutcome d st
      (replacedFile p env d df fields (if merge = true then .merge else .replace) st)
      (writeDatasetReplace p h env d df (some fields) merge st) := by
  have hplanned : ∀ value, plannedFrame p env d df fields
      (if merge = true then .merge else .replace) value st =
        (replaceFrame p env d df (some fields) value merge st).map some := by
    intro value
    cases merge <;> rfl
  unfold writeDatasetReplace replacedFile
  cases partitionValue p d (some fields) with
  | error e => exact ⟨fun value => rfl, fun hraised => by cases hraised⟩
  | ok value =>
    simp only [hplanned]
    cases replaceFrame p env d df (some fields) value merge st with
    | error e => exact ⟨fun value' => rfl, fun hraised => by cases hraised⟩
    | ok frame =>
      obtain ⟨hfiles, hreturned⟩ := @writePrepared_files p h d st (env.io 0) frame value
      simp only [Except.map]
      rcases hout : writePreparedDataset p h (env.io 0) d frame value st with ⟨result, st'⟩
      rw [hout] at hfiles hreturned
      cases hwrite : atomicWrite (env.io 0).attempts with
      | error e =>
        rw [hwrite] at hfiles hreturned
        cases result with
        | error e => exact ⟨hfiles, fun hraised => by cases hraised⟩
        | ok u => cases hreturned rfl
      | ok u =>
        rw [hwrite] at hfiles
        cases result with
        | error e => exact ⟨hfiles, fun _ => ⟨_, rfl⟩⟩
        | ok u => exact ⟨hfiles, fun _ => ⟨_, rfl⟩⟩

theorem writeDataset_partition (hd : datasetDefinition d.id = .ok d) :
    PartitionOutcome d st (replacedFile p env d df fields mode st)
      (writeDataset p h env d.id df (some fields) (some mode) false st) := by
  rw [writeDataset_eq env hd]
  cases mode with
  | merge => exact writeDatasetReplace_partition true
  | replace => exact writeDatasetReplace_partition false
  | upsert =>
    have hupsert : writeDatasetUpsert p h env d df (some fields) false st =
        match partitionValue p d (some fields) with
        | .error e => (.error e, st)
        | .ok value =>
          writeDatasetUpsertPartition p h env (env.io 0) d df (some fields) value false st := by
      unfold writeDatasetUpsert
      cases d.partitionColumn <;> rfl
    simp only [Option.getD_some]
    rw [hupsert]
    cases hvalue : partitionValue p d (some fields) with
    | error e =>
      refine ⟨fun value => ?_, fun hraised => by cases hraised⟩
      simp only [replacedFile, hvalue, filesAfter]
    | ok value => exact writeDatasetUpsertPartition_partition hvalue

theorem replacedFile_spec (hmem : d ∈ datasetCatalog) (hst : WellStored p st) {value : String}
    {rows : List Row} (hreplaced : replacedFile p env d df fields mode st = some (value, rows)) :
    partitionValue p d (some fields) = .ok value ∧
      ∃ coerced, coercedFrame p d df = .ok coerced ∧
        (∀ r ∈ coerced.rows, InPartition p d value r) ∧
        StoredWell p d value (sortValues env d.sortColumns coerced.rows) ∧
        rows = if mode = .replace then sortValues env d.sortColumns coerced.rows
          else storedRows p d env mode false st value coerced.rows := by
  have wf := wellFormed_of_mem hmem
  unfold replacedFile at hreplaced
  split at hreplaced
  case h_1 => cases hreplaced
  case h_2 value' hvalue =>
    split at hreplaced
    case h_2 => cases hreplaced
    case h_1 frame hplanned hwrite =>
      obtain ⟨rfl, rfl⟩ := Prod.mk.inj (Option.some.inj hreplaced)
      refine ⟨hvalue, ?_⟩
      have hstored : ∀ coerced : Frame, (∀ r ∈ coerced.rows, InPartition p d value' r) →
          sortedIncoming p d env false value' coerced.rows =
            sortValues env d.sortColumns coerced.rows := by
        intro coerced hin
        simp [sortedIncoming, rowsOf_eq_self hvalue hin]
      cases mode with
      | replace =>
        obtain ⟨frame', hframe, hsome⟩ := map_eq_ok.mp hplanned
        obtain rfl := Option.some.inj hsome
        obtain ⟨coerced, hcoerced, hin, hrows, hwell⟩ :=
          replaceFrame_stored wf hvalue (hst d hmem value') hframe
        rw [if_neg (by simp)] at hrows
        rw [hrows] at hwell
        exact ⟨coerced, hcoerced, hin, hwell, hrows⟩
      | merge =>
        obtain ⟨frame', hframe, hsome⟩ := map_eq_ok.mp hplanned
        obtain rfl := Option.some.inj hsome
        obtain ⟨coerced, hcoerced, hin, hrows, -⟩ :=
          replaceFrame_stored wf hvalue (hst d hmem value') hframe
        obtain ⟨incoming, hprepare, -⟩ := bind_eq_ok.mp hframe
        obtain ⟨coerced', hcoerced', -, hincoming, -, hwell⟩ := prepared_stored wf hvalue hprepare
        rw [hcoerced] at hcoerced'
        obtain rfl := Except.ok.inj hcoerced'
        rw [hincoming] at hwell
        refine ⟨coerced, hcoerced, hin, hwell, ?_⟩
        have hmode : WriteMode.merge ≠ .replace := by decide
        rw [if_neg hmode, hrows, storedRows, hstored coerced hin]
        cases st.files d.id value' with
        | none => simp
        | some old => simp
      | upsert =>
        obtain ⟨⟨fresh, planned⟩, hframes, hsome⟩ := map_eq_ok.mp hplanned
        simp only at hsome
        obtain rfl := hsome
        obtain ⟨coerced, hcoerced, hin, hrows, -⟩ :=
          upsertFrames_stored wf hvalue (hst d hmem value') hframes
        obtain ⟨fresh', hprepare, -⟩ := bind_eq_ok.mp hframes
        obtain ⟨coerced', hcoerced', -, hfresh, -, hwell⟩ := prepared_stored wf hvalue hprepare
        rw [hcoerced] at hcoerced'
        obtain rfl := Except.ok.inj hcoerced'
        rw [hfresh] at hwell
        refine ⟨coerced, hcoerced, hin, hwell, ?_⟩
        have hmode : WriteMode.upsert ≠ .replace := by decide
        rw [if_neg hmode, hrows, storedRows, hstored coerced hin]
        simp

theorem mem_replacedFile (hmem : d ∈ datasetCatalog) (hst : WellStored p st) {value : String}
    {rows : List Row} (hreplaced : replacedFile p env d df fields mode st = some (value, rows)) :
    ∀ r ∈ rows, r ∈ incomingRows p d df ∨ mode ≠ .replace ∧ r ∈ content st d value := by
  obtain ⟨hvalue, coerced, hcoerced, hin, -, rfl⟩ := replacedFile_spec hmem hst hreplaced
  intro r hr
  rw [incomingRows_of_ok hcoerced]
  have hsorted : ∀ r ∈ sortedIncoming p d env false value coerced.rows, r ∈ coerced.rows := by
    intro r hr
    have hperm := @sortedIncoming_perm p d value false coerced.rows env
    rw [rowsOf_eq_self hvalue hin] at hperm
    exact hperm.mem_iff.mp hr
  split at hr
  case isTrue => exact Or.inl ((sortValues_perm _ _ _).mem_iff.mp hr)
  case isFalse hmode =>
    unfold storedRows at hr
    split at hr
    case isTrue => exact Or.inl (hsorted r hr)
    case isFalse =>
      rcases mem_of_mem_combinedRows hr with hold | hnew
      · exact Or.inr ⟨hmode, hold⟩
      · exact Or.inl (hsorted r hnew)

/-- A dataset that is sorted by several columns of its key. -/
structure SortedByKey (d : DatasetDefinition) : Prop where
  several : d.sortColumns.length ≠ 1
  subset : ∀ c ∈ d.sortColumns, c ∈ d.uniqueColumns

private theorem SortedByKey.sortKey_eq (hd : SortedByKey d) {r w : Row}
    (hkey : rowKey d.uniqueColumns r = rowKey d.uniqueColumns w) :
    sortKey d.sortColumns r = sortKey d.sortColumns w := by
  have hcells := List.map_inj_left.mp hkey
  exact List.map_congr_left fun c hc => by rw [hcells c (hd.subset c hc)]

theorem SortedByKey.beaten (hd : SortedByKey d) {r w : Row}
    (hkey : rowKey d.uniqueColumns r = rowKey d.uniqueColumns w) : Beaten d.sortColumns r w := by
  unfold Beaten
  split
  case h_1 c hc => exact absurd (by rw [hc]; rfl) hd.several
  case h_2 => exact le_of_eq (hd.sortKey_eq hkey)

/-- The keyed write law of the call; what is replaced as a whole does not count as stored. -/
private theorem replacedFile_law (hmem : d ∈ datasetCatalog) (hkeyed : d.id ∉ delistDatasetIds)
    (hsorted : SortedByKey d) (hst : WellStored p st) {value : String} {rows : List Row}
    (hreplaced : replacedFile p env d df fields mode st = some (value, rows)) :
    ((incomingRows p d df).map (rowKey d.uniqueColumns)).Nodup ∧
      KeyedUpsert (rowKey d.uniqueColumns) (if mode = .replace then [] else content st d value)
        (incomingRows p d df) rows := by
  obtain ⟨hvalue, coerced, hcoerced, hin, hwell, rfl⟩ := replacedFile_spec hmem hst hreplaced
  rw [incomingRows_of_ok hcoerced]
  have hperm := sortValues_perm env d.sortColumns coerced.rows
  have hnodup : (coerced.rows.map (rowKey d.uniqueColumns)).Nodup :=
    (hperm.map _).nodup_iff.mp (hwell.represents hmem hkeyed).unique
  refine ⟨hnodup, ?_⟩
  by_cases hmode : mode = .replace
  · rw [if_pos hmode, if_pos hmode]
    refine KeyedUpsert.perm ⟨?_, hnodup, ?_, ?_⟩ hperm.symm
    · intro k
      simp
    · intro a ha w hw
      obtain ⟨hmem, hkey⟩ := mem_of_lastOf hw
      exact (List.inj_on_of_nodup_map hnodup hmem ha hkey).symm
    · intro a ha hnot
      exact absurd (List.mem_map_of_mem ha) hnot
  · rw [if_neg hmode, if_neg hmode]
    have hprevails : PrevailsIn p d mode st value coerced.rows := by
      rw [← rowsOf_eq_self hvalue hin] at hnodup
      refine ⟨?_, fun _ _ => hnodup⟩
      intro k x hx y _ hy
      exact Or.inr (hsorted.beaten (hy.trans (mem_of_lastOf hx).2.symm))
    have hlaw := @keyedUpsert_of_prevailsIn p d mode st value false coerced.rows env hprevails
    rw [rowsOf_eq_self hvalue hin] at hlaw
    exact hlaw

theorem incoming_mem_replacedFile (hmem : d ∈ datasetCatalog)
    (hkeyed : d.id ∉ delistDatasetIds)
    (hsorted : SortedByKey d) (hst : WellStored p st) {value : String} {rows : List Row}
    (hreplaced : replacedFile p env d df fields mode st = some (value, rows)) :
    ∀ w ∈ incomingRows p d df, w ∈ rows := by
  obtain ⟨hnodup, hlaw⟩ := replacedFile_law hmem hkeyed hsorted hst hreplaced
  intro w hw
  obtain ⟨a, ha, hkey⟩ := List.mem_map.mp ((hlaw.keys _).mpr (Or.inr (List.mem_map_of_mem hw)))
  obtain ⟨x, hx⟩ := lastOf_isSome (List.mem_map_of_mem (f := rowKey d.uniqueColumns) hw)
  obtain ⟨hxmem, hxkey⟩ := mem_of_lastOf hx
  have hax : a = x := hlaw.fresh a ha x (by rw [hkey]; exact hx)
  have hxw : x = w := List.inj_on_of_nodup_map hnodup hxmem hw hxkey
  rw [← hxw, ← hax]
  exact ha

theorem kept_mem_replacedFile (hmem : d ∈ datasetCatalog) (hkeyed : d.id ∉ delistDatasetIds)
    (hsorted : SortedByKey d) (hst : WellStored p st) {value : String} {rows : List Row}
    (hreplaced : replacedFile p env d df fields mode st = some (value, rows))
    (hmode : mode ≠ .replace) {r : Row} (hr : r ∈ content st d value)
    (hother : rowKey d.uniqueColumns r ∉ (incomingRows p d df).map (rowKey d.uniqueColumns)) :
    r ∈ rows := by
  obtain ⟨-, hlaw⟩ := replacedFile_law hmem hkeyed hsorted hst hreplaced
  rw [if_neg hmode] at hlaw
  obtain ⟨a, ha, hkey⟩ := List.mem_map.mp ((hlaw.keys _).mpr (Or.inl (List.mem_map_of_mem hr)))
  have hold : a ∈ content st d value := hlaw.kept a ha (by rw [hkey]; exact hother)
  have hdistinct : ((content st d value).map (rowKey d.uniqueColumns)).Nodup := by
    unfold content at hr ⊢
    cases hfile : st.files d.id value with
    | none => exact List.nodup_nil
    | some old => exact ((hst d hmem value old hfile).represents hmem hkeyed).unique
  rw [← List.inj_on_of_nodup_map hdistinct hold hr hkey]
  exact ha

end Write

end QuantDataCenter.Storage
