import QuantDataCenter.Lib.Transition
import QuantDataCenter.Storage.WriteSpec

/-!
The content of the files over whole runs. Every row of a file is settled, lies in
the partition of the file, and the file as a whole is accepted by the validator;
every call of `write_dataset` keeps this, however it ends. On such a store the
frames a call plans are the combination of the stored and the incoming rows.
-/

set_option autoImplicit false
set_option relaxedAutoImplicit false

namespace QuantDataCenter.Storage

open QuantDataCenter.Lib.Checked QuantDataCenter.Lib.Keyed QuantDataCenter.Lib.Transition
open QuantDataCenter.Tabular QuantDataCenter.Quality Store

structure StoredWell (p : Pandas) (d : DatasetDefinition) (value : String) (rows : List Row) :
    Prop where
  settled : ∀ r ∈ rows, Settled p d r
  inPartition : ∀ r ∈ rows, InPartition p d value r
  valid : ∃ dtype, d.validator p ⟨fieldNames d.schema, dtype, rows⟩ = .ok ()
  sorted : ∀ env, sortValues env d.sortColumns rows = rows

def WellStored (p : Pandas) (st : Store) : Prop :=
  ∀ d ∈ datasetCatalog, ∀ value rows, st.files d.id value = some rows → StoredWell p d value rows

theorem wellStored_empty (p : Pandas) : WellStored p .empty := by
  intro d _ value rows hfile
  cases hfile

/-- The stored rows of a partition, none if there is no file. -/
def content (st : Store) (d : DatasetDefinition) (value : String) : List Row :=
  (st.files d.id value).getD []

/-- The incoming rows of a call: coerced, fixed columns filled, in the order of the frame. -/
def incomingRows (p : Pandas) (d : DatasetDefinition) (df : Frame) : List Row :=
  match coercedFrame p d df with
  | .ok coerced => coerced.rows
  | .error _ => []

section Content

variable {p : Pandas} {h : Hashing} {env : WriteEnv} {d : DatasetDefinition}

theorem incomingRows_of_ok {df coerced : Frame} (hc : coercedFrame p d df = .ok coerced) :
    incomingRows p d df = coerced.rows := by
  simp only [incomingRows, hc]

theorem mem_map_combinedRows {existing incoming : List Row} {k : List Cell} :
    k ∈ (combinedRows env d existing incoming).map (rowKey d.uniqueColumns) ↔
      k ∈ existing.map (rowKey d.uniqueColumns) ∨ k ∈ incoming.map (rowKey d.uniqueColumns) := by
  unfold combinedRows
  rw [((sortValues_perm env _ _).map _).mem_iff, mem_map_keepLast,
    ((sortValues_perm env _ _).map _).mem_iff, List.map_append, List.mem_append]

theorem mem_of_mem_combinedRows {existing incoming : List Row} {r : Row}
    (hr : r ∈ combinedRows env d existing incoming) : r ∈ existing ∨ r ∈ incoming := by
  have hkept := (sortValues_perm env _ _).mem_iff.mp hr
  exact List.mem_append.mp
    ((sortValues_perm env _ _).mem_iff.mp ((keepLast_sublist _).subset hkept))

theorem combinedRows_perm {existing incoming : List Row}
    (hnodup : ((existing ++ incoming).map (rowKey d.uniqueColumns)).Nodup) :
    (combinedRows env d existing incoming).Perm (existing ++ incoming) := by
  have hsorted := sortValues_perm env d.sortColumns (existing ++ incoming)
  unfold combinedRows
  rw [keepLast_eq_self ((hsorted.map _).nodup_iff.mpr hnodup)]
  exact (sortValues_perm env _ _).trans hsorted

theorem readDataset_rows (wf : d.WellFormed) {io : PartitionIo} {st : Store} {value : String}
    (hstored : ∀ rows, st.files d.id value = some rows → StoredWell p d value rows)
    {existing : Frame} (hread : readDataset p io st d value = .ok existing) :
    existing.rows = content st d value ∧ existing.columns = fieldNames d.schema := by
  unfold readDataset at hread
  split at hread
  case h_1 hnone =>
    obtain rfl := Except.ok.inj hread
    exact ⟨by simp [content, hnone, emptyDatasetFrame], rfl⟩
  case h_2 rows hsome =>
    split at hread
    case isTrue =>
      obtain ⟨dtype, hclean⟩ := @clean_of_settled p d wf (fileFrame p d.schema rows) rfl
        (hstored rows hsome).settled
      rw [hclean] at hread
      obtain rfl := Except.ok.inj hread
      exact ⟨by simp [content, hsome, fileFrame], rfl⟩
    case isFalse => cases hread

theorem content_stored {st : Store} {value : String}
    (hstored : ∀ rows, st.files d.id value = some rows → StoredWell p d value rows) :
    ∀ r ∈ content st d value, Settled p d r ∧ InPartition p d value r := by
  intro r hr
  unfold content at hr
  cases hfile : st.files d.id value with
  | none =>
    rw [hfile] at hr
    cases hr
  | some rows =>
    rw [hfile] at hr
    exact ⟨(hstored rows hfile).settled r hr, (hstored rows hfile).inPartition r hr⟩

/-- With one sort column the validator lets no ties through. -/
private theorem strict_of_single (wf : d.WellFormed) {value : String} {dtype : String → Dtype}
    {unsorted rows : List Row} {c : String} (hc : d.sortColumns = [c])
    (hrows : rows = sortValues env d.sortColumns unsorted)
    (hsettled : ∀ r ∈ rows, Settled p d r) (hin : ∀ r ∈ rows, InPartition p d value r)
    (hvalid : d.validator p ⟨fieldNames d.schema, dtype, rows⟩ = .ok ()) :
    rows.Pairwise fun a b => (a c).rank < (b c).rank := by
  have hsingle : d.sortColumns.length = 1 := by rw [hc, List.length_singleton]
  obtain ⟨good, hgood⟩ := wf.single_free hsingle p
  obtain ⟨-, -, hnodup⟩ := (hgood _).mp hvalid
  have hname : c ∈ fieldNames d.schema := wf.sort_subset c (by rw [hc]; exact List.mem_cons_self)
  obtain ⟨field, hfield, rfl⟩ := List.mem_map.mp hname
  have hsorted : rows.Pairwise fun a b => (a field.name).rank ≤ (b field.name).rank := by
    rw [hrows, hc]
    exact (env.sortValues field.name).sorted unsorted
  have hdiffer : ∀ a ∈ rows, ∀ b ∈ rows, rowKey d.uniqueColumns a ≠ rowKey d.uniqueColumns b →
      (a field.name).rank ≠ (b field.name).rank := by
    intro a ha b hb hne hrank
    apply hne
    refine List.map_congr_left fun u hu => ?_
    rcases wf.single_unique u hu hsingle with hsort | hpartition
    · rw [hc, List.mem_singleton] at hsort
      rw [hsort]
      exact eq_of_rank_eq ((hsettled a ha).accepts field hfield)
        ((hsettled b hb).accepts field hfield) hrank
    · exact readsAs_injective wf hpartition (hsettled a ha) (hsettled b hb)
        (hin a ha u hpartition) (hin b hb u hpartition)
  refine (hsorted.and (List.pairwise_map.mp hnodup)).imp_of_mem fun {a b} ha hb hab => ?_
  exact lt_of_le_of_ne hab.1 (hdiffer a ha b hb hab.2)

/-- What was sorted and accepted once comes out of every other sort the same. -/
theorem sortValues_again (wf : d.WellFormed) {value : String} {dtype : String → Dtype}
    {unsorted rows : List Row} (hrows : rows = sortValues env d.sortColumns unsorted)
    (hsettled : ∀ r ∈ rows, Settled p d r) (hin : ∀ r ∈ rows, InPartition p d value r)
    (hvalid : d.validator p ⟨fieldNames d.schema, dtype, rows⟩ = .ok ()) (env' : WriteEnv) :
    sortValues env' d.sortColumns rows = rows ∧ sortValues env' d.sortColumns unsorted = rows := by
  have hperm : unsorted.Perm rows := by
    rw [hrows]
    exact (sortValues_perm env _ _).symm
  by_cases hsingle : d.sortColumns.length = 1
  · obtain ⟨c, hc⟩ := List.length_eq_one_iff.mp hsingle
    have hstrict := strict_of_single wf hc hrows hsettled hin hvalid
    rw [hc]
    exact ⟨(env'.sortValues c).sort_eq hstrict (.refl _), (env'.sortValues c).sort_eq hstrict hperm⟩
  · rw [sortValues_several hsingle] at hrows
    rw [sortValues_several hsingle, sortValues_several hsingle]
    refine ⟨?_, hrows.symm⟩
    rw [hrows]
    exact stableSort_eq_self (stableSort_sorted _ _)

private theorem combineFrames_stored (wf : d.WellFormed) {existing incoming combined : Frame}
    {partition : Partition} {value : String} (hvalue : partitionValue p d partition = .ok value)
    (hcolumns : existing.columns = fieldNames d.schema)
    (hcolumns' : incoming.columns = fieldNames d.schema)
    (hrows : ∀ r ∈ existing.rows ++ incoming.rows, Settled p d r ∧ InPartition p d value r)
    (hcombined : combineFrames p env d existing incoming partition = .ok combined) :
    combined.rows = combinedRows env d existing.rows incoming.rows ∧
      StoredWell p d value combined.rows := by
  obtain ⟨dtype, heq⟩ := @combineFrames_eq p env d wf existing incoming partition value hvalue
    hcolumns hcolumns' hrows
  rw [heq] at hcombined
  obtain ⟨u, hvalid, hout⟩ := bind_eq_ok.mp hcombined
  obtain rfl := Except.ok.inj hout
  have hmem : ∀ r ∈ combinedRows env d existing.rows incoming.rows,
      r ∈ existing.rows ++ incoming.rows := by
    intro r hr
    have hkept := (sortValues_perm env _ _).mem_iff.mp hr
    exact (sortValues_perm env _ _).mem_iff.mp ((keepLast_sublist _).subset hkept)
  have hsettled : ∀ r ∈ combinedRows env d existing.rows incoming.rows, Settled p d r :=
    fun r hr => (hrows r (hmem r hr)).1
  have hin : ∀ r ∈ combinedRows env d existing.rows incoming.rows, InPartition p d value r :=
    fun r hr => (hrows r (hmem r hr)).2
  exact ⟨rfl, hsettled, hin, ⟨dtype, hvalid⟩,
    fun env' => (sortValues_again wf rfl hsettled hin hvalid env').1⟩

theorem prepared_stored (wf : d.WellFormed) {df fresh : Frame} {partition : Partition}
    {value : String} (hvalue : partitionValue p d partition = .ok value)
    (hprepare : prepareDatasetFrame p env d df partition true = .ok fresh) :
    ∃ coerced, coercedFrame p d df = .ok coerced ∧
      (∀ r ∈ coerced.rows, InPartition p d value r) ∧
      fresh.rows = sortValues env d.sortColumns coerced.rows ∧
      fresh.columns = fieldNames d.schema ∧ StoredWell p d value fresh.rows := by
  obtain ⟨coerced, hcoerced, hcheck, hfresh, hvalid, hcolumns, hsettled⟩ :=
    prepareDatasetFrame_rows wf hprepare
  have hin : ∀ r ∈ coerced.rows, InPartition p d value r := by
    intro r hr
    exact (checkPartition_eq_ok hvalue).mp (hcheck (List.ne_nil_of_mem hr)) r hr
  have hin' : ∀ r ∈ fresh.rows, InPartition p d value r := by
    intro r hr
    rw [hfresh] at hr
    exact hin r ((sortValues_perm env _ _).mem_iff.mp hr)
  have hvalid' : d.validator p ⟨fieldNames d.schema, fresh.dtype, fresh.rows⟩ = .ok () := by
    rw [← hcolumns]
    exact hvalid
  have hrows : fresh.rows = sortValues env d.sortColumns coerced.rows := by rw [hfresh]
  exact ⟨coerced, hcoerced, hin, hrows, hcolumns, hsettled, hin', ⟨fresh.dtype, hvalid'⟩,
    fun env' => (sortValues_again wf hrows hsettled hin' hvalid' env').1⟩

theorem upsertFrames_stored (wf : d.WellFormed) {io : PartitionIo} {df fresh frame : Frame}
    {partition : Partition} {value : String} {skip : Bool} {st : Store}
    (hvalue : partitionValue p d partition = .ok value)
    (hstored : ∀ rows, st.files d.id value = some rows → StoredWell p d value rows)
    (hframes : upsertFrames p env io d df partition value skip st = .ok (fresh, some frame)) :
    ∃ coerced, coercedFrame p d df = .ok coerced ∧
      (∀ r ∈ coerced.rows, InPartition p d value r) ∧
      frame.rows = combinedRows env d (content st d value)
        (sortValues env d.sortColumns coerced.rows) ∧
      StoredWell p d value frame.rows := by
  unfold upsertFrames at hframes
  obtain ⟨fresh', hprepare, hframes⟩ := bind_eq_ok.mp hframes
  obtain ⟨existing, hread, hframes⟩ := bind_eq_ok.mp hframes
  split at hframes
  case isTrue => cases hframes
  case isFalse =>
    obtain ⟨combined, hcombined, hout⟩ := bind_eq_ok.mp hframes
    obtain ⟨rfl, hsome⟩ := Prod.mk.inj (Except.ok.inj hout)
    obtain rfl := Option.some.inj hsome
    obtain ⟨coerced, hcoerced, hin, hfresh, hcolumns', hwell⟩ :=
      prepared_stored wf hvalue hprepare
    obtain ⟨hrows, hcolumns⟩ := readDataset_rows wf hstored hread
    have hall : ∀ r ∈ existing.rows ++ fresh'.rows, Settled p d r ∧ InPartition p d value r := by
      intro r hr
      rcases List.mem_append.mp hr with hr | hr
      · rw [hrows] at hr
        exact content_stored hstored r hr
      · exact ⟨hwell.settled r hr, hwell.inPartition r hr⟩
    obtain ⟨hcomb, hstore⟩ := combineFrames_stored wf hvalue hcolumns hcolumns' hall hcombined
    rw [hrows, hfresh] at hcomb
    exact ⟨coerced, hcoerced, hin, hcomb, hstore⟩

theorem replaceFrame_stored (wf : d.WellFormed) {df frame : Frame} {partition : Partition}
    {value : String} {merge : Bool} {st : Store}
    (hvalue : partitionValue p d partition = .ok value)
    (hstored : ∀ rows, st.files d.id value = some rows → StoredWell p d value rows)
    (hframe : replaceFrame p env d df partition value merge st = .ok frame) :
    ∃ coerced, coercedFrame p d df = .ok coerced ∧
      (∀ r ∈ coerced.rows, InPartition p d value r) ∧
      frame.rows = (if merge = true ∧ (st.files d.id value).isSome = true then
        combinedRows env d (content st d value) (sortValues env d.sortColumns coerced.rows)
        else sortValues env d.sortColumns coerced.rows) ∧
      StoredWell p d value frame.rows := by
  unfold replaceFrame at hframe
  obtain ⟨incoming, hprepare, hframe⟩ := bind_eq_ok.mp hframe
  obtain ⟨coerced, hcoerced, hin, hincoming, hcolumns', hwell⟩ :=
    prepared_stored wf hvalue hprepare
  refine ⟨coerced, hcoerced, hin, ?_⟩
  split at hframe
  case isTrue hmerge =>
    obtain ⟨existing, hread, hcombined⟩ := bind_eq_ok.mp hframe
    obtain ⟨hrows, hcolumns⟩ := readDataset_rows wf hstored hread
    have hall : ∀ r ∈ existing.rows ++ incoming.rows, Settled p d r ∧ InPartition p d value r := by
      intro r hr
      rcases List.mem_append.mp hr with hr | hr
      · rw [hrows] at hr
        exact content_stored hstored r hr
      · exact ⟨hwell.settled r hr, hwell.inPartition r hr⟩
    obtain ⟨hcomb, hstore⟩ := combineFrames_stored wf hvalue hcolumns hcolumns' hall hcombined
    rw [hrows, hincoming] at hcomb
    rw [if_pos hmerge]
    exact ⟨hcomb, hstore⟩
  case isFalse hmerge =>
    obtain rfl := Except.ok.inj hframe
    rw [if_neg hmerge]
    exact ⟨hincoming, hwell⟩

private theorem planned_stored (wf : d.WellFormed) {df : Frame} {partition : Partition}
    {mode : WriteMode} {skip : Bool} {st : Store} {k : ℕ} {value : String} {frame : Frame}
    (hstored : ∀ value rows, st.files d.id value = some rows → StoredWell p d value rows)
    (hplanned : Planned p env d df partition mode skip st k value frame) :
    StoredWell p d value frame.rows := by
  cases hplanned with
  | replace hmode hvalue hframe =>
    obtain ⟨_, _, _, _, hwell⟩ := replaceFrame_stored wf hvalue (hstored value) hframe
    exact hwell
  | upsert hmode hvalue hframe =>
    obtain ⟨_, _, _, _, hwell⟩ := upsertFrames_stored wf hvalue (hstored value) hframe
    exact hwell
  | group hspans hcolumn hdf hcleaned hgroup hframe =>
    obtain ⟨hvalue, fresh, hframes⟩ := hframe
    obtain ⟨_, _, _, _, hwell⟩ := upsertFrames_stored wf
      (groupPartitionValue_text hcolumn hvalue) (hstored value) hframes
    exact hwell

end Content

/-- A call of `write_dataset` and what the environment does during it. -/
structure WriteCall where
  env : WriteEnv
  dataset : String
  df : Frame
  partition : Partition
  mode : Option WriteMode
  skipExisting : Bool

/-- The store after a call, whether it returned or raised. -/
def callStep (p : Pandas) (h : Hashing) (st : Store) (call : WriteCall) : Option Store :=
  some (writeDataset p h call.env call.dataset call.df call.partition call.mode
    call.skipExisting st).2

theorem ids_nodup : (datasetCatalog.map DatasetDefinition.id).Nodup := by decide +kernel

theorem WriteEnded.other_dataset {p : Pandas} {h : Hashing} {env : WriteEnv}
    {d : DatasetDefinition} {df : Frame} {partition : Partition} {mode : WriteMode} {skip : Bool}
    {st st' : Store} {stopped : Bool} {n : ℕ} {written : List (String × Frame)}
    {last : Option (String × Frame)}
    (hended : WriteEnded p h env d df partition mode skip st st' stopped n written last)
    {dataset : String} (hne : dataset ≠ d.id) (value : String) :
    st'.files dataset value = st.files dataset value := by
  have hput : (putAll p h d written st).files dataset value = st.files dataset value := by
    unfold putAll
    clear hended
    induction written generalizing st with
    | nil => rfl
    | cons w written ih =>
      rw [List.foldl_cons, ih, Store.put_files]
      exact Store.setFile_files_of_ne st w.2.rows fun heq => hne heq.1
  rw [← hended.data.files, ← hput]
  cases last with
  | none => rfl
  | some w => exact Store.setFile_files_of_ne _ w.2.rows fun heq => hne heq.1

theorem writeDataset_files_of_ne {p : Pandas} {h : Hashing} {env : WriteEnv}
    {dataset dataset' : String} {df : Frame} {partition : Partition} {mode : Option WriteMode}
    {skip : Bool} {st : Store} (hne : dataset' ≠ dataset) (value : String) :
    (writeDataset p h env dataset df partition mode skip st).2.files dataset' value =
      st.files dataset' value := by
  cases hd : datasetDefinition dataset with
  | error e => simp only [writeDataset, hd]
  | ok d =>
    obtain ⟨n, written, last, hended⟩ := writeDataset_ended p h env hd df partition mode skip st
    exact hended.other_dataset (by rw [(mem_datasetCatalog hd).2]; exact hne) value

theorem wellStored_callStep {p : Pandas} {h : Hashing} {st st' : Store} {call : WriteCall}
    (hst : WellStored p st) (hstep : callStep p h st call = some st') : WellStored p st' := by
  obtain rfl := Option.some.inj hstep
  cases hd : datasetDefinition call.dataset with
  | error e =>
    have hsame : (writeDataset p h call.env call.dataset call.df call.partition call.mode
        call.skipExisting st).2 = st := by
      simp only [writeDataset, hd]
    rw [hsame]
    exact hst
  | ok d =>
    obtain ⟨hmem, hid⟩ := mem_datasetCatalog hd
    obtain ⟨n, written, last, hended⟩ := writeDataset_ended p h call.env hd call.df call.partition
      call.mode call.skipExisting st
    intro d' hd' value rows hfile
    by_cases heq : d'.id = d.id
    · obtain rfl : d' = d := List.inj_on_of_nodup_map ids_nodup hd' hmem heq
      rcases hended.whole value with hsame | ⟨k, frame, hplanned, hframe⟩
      · rw [hsame] at hfile
        exact hst d' hd' value rows hfile
      · rw [hframe] at hfile
        obtain rfl := Option.some.inj hfile
        exact planned_stored (wellFormed_of_mem hd') (hst d' hd') hplanned
    · rw [hended.other_dataset heq value] at hfile
      exact hst d' hd' value rows hfile

theorem wellStored_of_write {p : Pandas} {h : Hashing} {env : WriteEnv} {st st' : Store}
    {dataset : String} {df : Frame} {partition : Partition} {mode : Option WriteMode} {skip : Bool}
    {result : Except StoreError DatasetWriteResult} (hst : WellStored p st)
    (hwrite : writeDataset p h env dataset df partition mode skip st = (result, st')) :
    WellStored p st' := by
  refine @wellStored_callStep p h st st' ⟨env, dataset, df, partition, mode, skip⟩ hst ?_
  simp only [callStep, hwrite]

/-- Whatever calls are made on a store without files, its content stays well stored. -/
theorem wellStored_of_calls {p : Pandas} {h : Hashing} {st st' : Store} {calls : List WriteCall}
    (hempty : ∀ dataset value, st.files dataset value = none)
    (run : exec (callStep p h) st calls = some st') : WellStored p st' := by
  refine invariant_of_exec (fun _ _ _ hst hstep => wellStored_callStep hst hstep) ?_ run
  intro d _ value rows hfile
  rw [hempty] at hfile
  cases hfile

end QuantDataCenter.Storage
