import QuantDataCenter.Storage.WriteAcceptance

/-!
What a merge or an upsert leaves in the files, key by key. The frames are joined,
sorted by the sort columns and only then cut down to the last row of each key, so
the incoming row of a key has to come out last in the sort.
-/

set_option autoImplicit false
set_option relaxedAutoImplicit false

namespace QuantDataCenter.Storage

open QuantDataCenter.Lib.Checked QuantDataCenter.Lib.Keyed QuantDataCenter.Lib.Transition
open QuantDataCenter.Tabular QuantDataCenter.Quality Store

section Rows

variable (p : Pandas) (d : DatasetDefinition)

/-- The row belongs to the partition; without a partition column there is one. -/
def lies (value : String) (r : Row) : Bool :=
  match d.partitionColumn with
  | none => value == ""
  | some c => r c != .null && p.str (r c) == value

def rowsOf (value : String) (rows : List Row) : List Row := rows.filter (lies p d value)

variable {p d}

private theorem lies_iff {partition : Partition} {value : String}
    (hvalue : partitionValue p d partition = .ok value) {r : Row} :
    lies p d value r = true ↔ InPartition p d value r := by
  unfold lies InPartition
  cases hcolumn : d.partitionColumn with
  | none =>
    have hempty : value = "" := by
      unfold partitionValue at hvalue
      rw [hcolumn] at hvalue
      cases partition with
      | none => exact (Except.ok.inj hvalue).symm
      | some fields =>
        simp only at hvalue
        split at hvalue
        · exact (Except.ok.inj hvalue).symm
        · cases hvalue
    simp [hempty]
  | some c => simp

private theorem lies_unique {value value' : String} {r : Row} (h : lies p d value r = true)
    (h' : lies p d value' r = true) : value = value' := by
  unfold lies at h h'
  cases hcolumn : d.partitionColumn with
  | none =>
    simp only [hcolumn, beq_iff_eq] at h h'
    rw [h, h']
  | some c =>
    simp only [hcolumn, Bool.and_eq_true, bne_iff_ne, beq_iff_eq] at h h'
    rw [← h.2, ← h'.2]

private theorem lies_iff_readsAs {column value : String} (hcolumn : d.partitionColumn = some column)
    {r : Row} : lies p d value r = true ↔ ReadsAs p (r column) value := by
  simp [lies, hcolumn, ReadsAs]

theorem rowsOf_eq_self {partition : Partition} {value : String}
    (hvalue : partitionValue p d partition = .ok value) {rows : List Row}
    (hrows : ∀ r ∈ rows, InPartition p d value r) : rowsOf p d value rows = rows := by
  unfold rowsOf
  rw [List.filter_eq_self]
  exact fun r hr => (lies_iff hvalue).mpr (hrows r hr)

end Rows

/-- The row cannot come out of the sort after `w`, with one sort column not even as a tie. -/
def Beaten (columns : List String) (x w : Row) : Prop :=
  match columns with
  | [c] => (x c).rank < (w c).rank
  | cs => sortKey cs x ≤ sortKey cs w

section Law

variable (p : Pandas) (d : DatasetDefinition)

/-- In one partition every incoming row that is the last of its key outranks the
other rows of the key, stored or incoming; a merge into no file does not look at
keys and needs them to be distinct. -/
structure PrevailsIn (mode : WriteMode) (st : Store) (value : String) (rows : List Row) : Prop where
  outranks : Prevails (rowKey d.uniqueColumns) (Beaten d.sortColumns) (content st d value)
    (rowsOf p d value rows)
  distinct : mode = .merge → st.files d.id value = none →
    ((rowsOf p d value rows).map (rowKey d.uniqueColumns)).Nodup

/-- The incoming frame prevails in all partitions, and it is no frame of rows
without columns, which an upsert over partitions passes over. -/
structure IncomingPrevails (df : Frame) (partition : Partition) (mode : WriteMode) (st : Store) :
    Prop where
  shaped : SpansPartitions d partition mode → df.columns = [] → incomingRows p d df = []
  inEach : ∀ value, PrevailsIn p d mode st value (incomingRows p d df)

/-- Every incoming row has its partition. A partition that has incoming rows holds
the keys of both sides, each once; the others hold this or what they held. -/
structure KeyedWriteLaw (rows : List Row) (st st' : Store) : Prop where
  placed : ∀ r ∈ rows, ∃ value, lies p d value r = true
  inEach : ∀ value, KeyedUpsert (rowKey d.uniqueColumns) (content st d value)
      (rowsOf p d value rows) (content st' d value) ∨
    rowsOf p d value rows = [] ∧ st'.files d.id value = st.files d.id value

variable (env : WriteEnv)

/-- The incoming rows of a partition as they are joined to the stored ones; groups
are cut from a frame that was sorted before. -/
def sortedIncoming (grouped : Bool) (value : String) (rows : List Row) : List Row :=
  sortValues env d.sortColumns
    (rowsOf p d value (if grouped then sortValues env d.sortColumns rows else rows))

def storedRows (mode : WriteMode) (grouped : Bool) (st : Store) (value : String)
    (rows : List Row) : List Row :=
  if mode = .merge ∧ st.files d.id value = none then sortedIncoming p d env grouped value rows
  else combinedRows env d (content st d value) (sortedIncoming p d env grouped value rows)

end Law

section Winner

variable {p : Pandas} {d : DatasetDefinition} {mode : WriteMode} {st : Store} {value : String}
  {grouped : Bool} {rows : List Row}

theorem sortedIncoming_perm (env : WriteEnv) :
    (sortedIncoming p d env grouped value rows).Perm (rowsOf p d value rows) := by
  unfold sortedIncoming
  refine (sortValues_perm env _ _).trans ?_
  cases grouped with
  | false => exact .refl _
  | true => exact (sortValues_perm env _ _).filter _

private theorem keyedUpsert_fresh_iff (env : WriteEnv) (hmode : mode = .merge)
    (hnone : st.files d.id value = none) :
    KeyedUpsert (rowKey d.uniqueColumns) (content st d value) (rowsOf p d value rows)
      (storedRows p d env mode grouped st value rows) ↔ PrevailsIn p d mode st value rows := by
  have hcontent : content st d value = [] := by simp [content, hnone]
  unfold storedRows
  rw [if_pos ⟨hmode, hnone⟩, hcontent, keyedUpsert_nil_self_iff (sortedIncoming_perm env)]
  constructor
  · intro hnodup
    refine ⟨?_, fun _ _ => hnodup⟩
    rw [hcontent]
    exact prevails_of_nodup hnodup
  · intro hprevails
    exact hprevails.distinct hmode hnone

private theorem keyedUpsert_combined_iff (env : WriteEnv) (hstored : ¬(mode = .merge ∧
    st.files d.id value = none)) :
    KeyedUpsert (rowKey d.uniqueColumns) (content st d value) (rowsOf p d value rows)
      (storedRows p d env mode grouped st value rows) ↔
    KeyedUpsert (rowKey d.uniqueColumns) (content st d value) (rowsOf p d value rows)
      (keepLast (rowKey d.uniqueColumns) (sortValues env d.sortColumns
        (content st d value ++ sortedIncoming p d env grouped value rows))) := by
  unfold storedRows combinedRows
  rw [if_neg hstored]
  exact keyedUpsert_perm_iff (sortValues_perm env _ _)

private theorem prevailsIn_iff (hstored : ¬(mode = .merge ∧ st.files d.id value = none)) :
    PrevailsIn p d mode st value rows ↔ Prevails (rowKey d.uniqueColumns) (Beaten d.sortColumns)
      (content st d value) (rowsOf p d value rows) :=
  ⟨fun h => h.outranks, fun h => ⟨h, fun hm hn => absurd ⟨hm, hn⟩ hstored⟩⟩

/-- Several sort columns: the sort is stable, so the environment has no say. -/
private theorem keyedUpsert_storedRows_several (env : WriteEnv)
    (hseveral : d.sortColumns.length ≠ 1) :
    KeyedUpsert (rowKey d.uniqueColumns) (content st d value) (rowsOf p d value rows)
      (storedRows p d env mode grouped st value rows) ↔ PrevailsIn p d mode st value rows := by
  by_cases hstored : mode = .merge ∧ st.files d.id value = none
  · exact keyedUpsert_fresh_iff env hstored.1 hstored.2
  · have hsort := sortValues_several hseveral env
    have hbeaten : Beaten d.sortColumns =
        fun x w => sortKey d.sortColumns x ≤ sortKey d.sortColumns w := by
      funext x w
      unfold Beaten
      split
      case h_1 c heq => simp [heq] at hseveral
      case h_2 => rfl
    have hties : TiesKept (sortKey d.sortColumns) (sortedIncoming p d env grouped value rows)
        (rowsOf p d value rows) := by
      unfold sortedIncoming
      rw [hsort]
      refine (tiesKept_stableSort _ _).trans ?_
      cases grouped with
      | false => exact fun _ _ _ => rfl
      | true =>
        rw [if_pos rfl, hsort]
        exact (tiesKept_stableSort _ _).filter _
    rw [keyedUpsert_combined_iff env hstored, prevailsIn_iff hstored, hsort, hbeaten]
    exact keyedUpsert_stableSort_iff _ (sortedIncoming_perm env) hties

/-- One sort column: the environment may put rows of one rank in any order. -/
private theorem keyedUpsert_storedRows_single {c : String} (hsingle : d.sortColumns = [c])
    {envs : (Sorter fun r : Row => (r c).rank) → WriteEnv}
    (henvs : ∀ s, (envs s).sortValues c = s) :
    (∀ s, KeyedUpsert (rowKey d.uniqueColumns) (content st d value) (rowsOf p d value rows)
      (storedRows p d (envs s) mode grouped st value rows)) ↔
    PrevailsIn p d mode st value rows := by
  by_cases hstored : mode = .merge ∧ st.files d.id value = none
  · constructor
    · intro law
      exact (keyedUpsert_fresh_iff (envs (Sorter.stable _)) hstored.1 hstored.2).mp (law _)
    · intro hprevails s
      exact (keyedUpsert_fresh_iff (envs s) hstored.1 hstored.2).mpr hprevails
  · have hsort : ∀ s l, sortValues (envs s) d.sortColumns l = s.sort l := by
      intro s l
      rw [hsingle]
      show ((envs s).sortValues c).sort l = s.sort l
      rw [henvs]
    have hbeaten : Beaten d.sortColumns = fun x w : Row => (x c).rank < (w c).rank := by
      rw [hsingle]
      rfl
    have hsorted : ∀ s, (sortedIncoming p d (envs s) grouped value rows).Perm
        (rowsOf p d value rows) := fun s => sortedIncoming_perm (envs s)
    rw [prevailsIn_iff hstored, hbeaten,
      ← keyedUpsert_sorter_iff (content st d value) (rowsOf p d value rows) hsorted]
    refine forall_congr' fun s => ?_
    rw [keyedUpsert_combined_iff (envs s) hstored, hsort]

theorem keyedUpsert_of_prevailsIn (env : WriteEnv) (hprevails : PrevailsIn p d mode st value rows) :
    KeyedUpsert (rowKey d.uniqueColumns) (content st d value) (rowsOf p d value rows)
      (storedRows p d env mode grouped st value rows) := by
  by_cases hsingle : d.sortColumns.length = 1
  · obtain ⟨c, hc⟩ := List.length_eq_one_iff.mp hsingle
    let envs : (Sorter fun r : Row => (r c).rank) → WriteEnv := fun s =>
      { env with sortValues := Function.update env.sortValues c s }
    have henvs : ∀ s, (envs s).sortValues c = s := fun s => Function.update_self c s env.sortValues
    have hsame : envs (env.sortValues c) = env := by
      show ({ env with sortValues := Function.update env.sortValues c (env.sortValues c) } :
        WriteEnv) = env
      rw [Function.update_eq_self]
    rw [← hsame]
    exact (keyedUpsert_storedRows_single hc henvs).mpr hprevails (env.sortValues c)
  · exact (keyedUpsert_storedRows_several env hsingle).mpr hprevails

end Winner

section Accepted

variable {p : Pandas} {h : Hashing} {env : WriteEnv} {d : DatasetDefinition} {df : Frame}
  {partition : Partition} {mode : WriteMode} {st : Store}

private theorem planned_rows (wf : d.WellFormed)
    (hstored : ∀ v rows, st.files d.id v = some rows → StoredWell p d v rows)
    (hmode : mode ≠ .replace) {grouped : Bool}
    (hgrouped : grouped = true ↔ SpansPartitions d partition mode) {k : ℕ} {value : String}
    {frame : Frame} (hplanned : Planned p env d df partition mode false st k value frame) :
    frame.rows = storedRows p d env mode grouped st value (incomingRows p d df) := by
  cases hplanned with
  | replace hnot hvalue hframe =>
    have hmerge : mode = .merge := by
      cases mode with
      | upsert => exact absurd rfl hnot
      | merge => rfl
      | replace => exact absurd rfl hmode
    subst hmerge
    have hno : grouped = false := by
      rw [Bool.eq_false_iff]
      intro hyes
      exact absurd (hgrouped.mp hyes).1 (by decide)
    obtain ⟨coerced, hcoerced, hin, hrows, -⟩ := replaceFrame_stored wf hvalue (hstored value) hframe
    rw [hrows, incomingRows_of_ok hcoerced]
    simp only [storedRows, sortedIncoming, hno, Bool.false_eq_true, if_false,
      rowsOf_eq_self hvalue hin, decide_true, true_and]
    cases st.files d.id value with
    | none => simp
    | some rows => simp
  | upsert hupsert hvalue hframe =>
    subst hupsert
    have hno : grouped = false := by
      rw [Bool.eq_false_iff]
      intro hyes
      obtain ⟨-, hcolumn, hpartition⟩ := hgrouped.mp hyes
      obtain ⟨column, hcolumn⟩ := Option.ne_none_iff_exists'.mp hcolumn
      simp [partitionValue, hcolumn, hpartition] at hvalue
    obtain ⟨coerced, hcoerced, hin, hrows, -⟩ := upsertFrames_stored wf hvalue (hstored value) hframe
    rw [hrows, incomingRows_of_ok hcoerced]
    simp only [storedRows, sortedIncoming, hno, Bool.false_eq_true, if_false,
      rowsOf_eq_self hvalue hin]
    rw [if_neg (by simp)]
  | @group column _ cleaned _ _ g hspans hcolumn hdf hcleaned hgroup hframe =>
    have hyes : grouped = true := hgrouped.mpr hspans
    obtain ⟨rfl, -, rfl⟩ := id hspans
    obtain ⟨coerced, hcoerced, -, hsorted, hvalid, hcolumns, hsettled⟩ :=
      prepareDatasetFrame_rows wf hcleaned
    have hg : g ∈ groupRows column cleaned.rows := List.mem_of_getElem? hgroup
    obtain ⟨hreads, -⟩ := groupFrame_readsAs wf hcolumn hcolumns hsettled hg hframe
    obtain ⟨v, rows⟩ := g
    obtain ⟨hvalue, fresh, hframes⟩ := hframe
    obtain ⟨coerced', hcoerced', -, hrows, -⟩ := upsertFrames_stored wf
      (groupPartitionValue_text hcolumn hvalue) (hstored value) hframes
    obtain ⟨hv, hfilter⟩ := mem_groups.mp hg
    have hcut : rows = rowsOf p d value cleaned.rows := by
      rw [hfilter]
      refine List.filter_congr fun r hr => ?_
      rw [Bool.eq_iff_iff, decide_eq_true_iff, lies_iff_readsAs hcolumn]
      constructor
      · intro heq
        rw [heq]
        exact hreads
      · intro hr'
        obtain ⟨r', hr1, hr2⟩ := List.mem_map.mp hv
        rw [← hr2]
        refine readsAs_injective wf hcolumn (hsettled r hr) (hsettled r' hr1) hr' ?_
        rw [hr2]
        exact hreads
    have hmem : ∀ r ∈ rows, Settled p d r := by
      intro r hr
      rw [hfilter] at hr
      exact hsettled r (List.mem_filter.mp hr).1
    obtain ⟨dtype, hsame⟩ := @coercedFrame_of_settled p d wf { cleaned with rows := rows } hcolumns
      hmem
    rw [hsame] at hcoerced'
    rw [← Except.ok.inj hcoerced'] at hrows
    rw [hrows, incomingRows_of_ok hcoerced]
    simp only [storedRows, sortedIncoming, hyes, if_true]
    rw [if_neg (by simp), hcut, hsorted]

theorem coercedRow_columnless (wf : d.WellFormed) (hcolumns : df.columns = []) {column : String}
    (hname : column ≠ "adjustment") (r : Row) : coercedRow p d df r column = .null := by
  rw [coercedRow_of_ne wf hname]
  unfold cleanRow
  split
  case h_1 => rfl
  case h_2 field hfind =>
    have hsource : sourceColumns df.columns field.name = [] := by simp [sourceColumns, hcolumns]
    have hnull : coerceCell p .object field.type .null = .ok .null :=
      coerceCell_of_accepts p .object (by cases field.type <;> rfl)
    simp only [cleanCell, hsource, hnull]
    rfl

private theorem not_lies_of_columnless (wf : d.WellFormed) (hcolumn : d.partitionColumn ≠ none)
    (hcolumns : df.columns = []) {r : Row} (hr : r ∈ incomingRows p d df) (value : String) :
    lies p d value r = false := by
  obtain ⟨column, hcolumn⟩ := Option.ne_none_iff_exists'.mp hcolumn
  unfold incomingRows at hr
  split at hr
  case h_1 coerced hcoerced =>
    rw [coercedFrame_rows hcoerced] at hr
    obtain ⟨r0, -, rfl⟩ := List.mem_map.mp hr
    have hnull := @coercedRow_columnless p d df wf hcolumns column
      (wf.partition_free column (by rw [hcolumn]; rfl)) r0
    simp [lies, hcolumn, hnull]
  case h_2 => cases hr

private theorem incomingRows_eq_nil (hrows : df.rows = []) : incomingRows p d df = [] := by
  unfold incomingRows
  split
  case h_1 coerced hcoerced => rw [coercedFrame_rows hcoerced, hrows, List.map_nil]
  case h_2 => rfl

private theorem lies_of_prepared (wf : d.WellFormed) {fresh : Frame} {value : String}
    (hvalue : partitionValue p d partition = .ok value)
    (hprepare : prepareDatasetFrame p env d df partition true = .ok fresh) {r : Row}
    (hr : r ∈ incomingRows p d df) : lies p d value r = true := by
  obtain ⟨coerced, hcoerced, hin, -, -, -⟩ := prepared_stored wf hvalue hprepare
  rw [incomingRows_of_ok hcoerced] at hr
  exact (lies_iff hvalue).mpr (hin r hr)

private theorem row_written (wf : d.WellFormed) {st' : Store} {n : ℕ}
    {written : List (String × Frame)}
    {last : Option (String × Frame)} (hmode : mode ≠ .replace)
    (hended : WriteEnded p h env d df partition mode false st st' false n written last)
    (hprepared : SpansPartitions d partition mode → ¬(df.rows = [] ∨ df.columns = []) →
      ∃ cleaned, prepareDatasetFrame p env d df none true = .ok cleaned)
    {r : Row} (hr : r ∈ incomingRows p d df)
    (hshaped : SpansPartitions d partition mode → df.columns ≠ []) :
    ∃ w ∈ written, lies p d w.1 r = true := by
  obtain ⟨-, hn⟩ := hended.finished rfl
  by_cases hspans : SpansPartitions d partition mode
  · have hdf : ¬(df.rows = [] ∨ df.columns = []) := by
      rintro (hnil | hnil)
      · rw [incomingRows_eq_nil hnil] at hr
        cases hr
      · exact hshaped hspans hnil
    obtain ⟨cleaned, hcleaned⟩ := hprepared hspans hdf
    obtain ⟨rfl, hcolumn, rfl⟩ := id hspans
    obtain ⟨column, hcolumn⟩ := Option.ne_none_iff_exists'.mp hcolumn
    obtain ⟨coerced, hcoerced, -, hsorted, -, hcolumns, hsettled⟩ :=
      prepareDatasetFrame_rows wf hcleaned
    have hmem : r ∈ cleaned.rows := by
      rw [incomingRows_of_ok hcoerced] at hr
      rw [hsorted]
      exact (sortValues_perm env _ _).mem_iff.mpr hr
    have hgroup : (r column, cleaned.rows.filter fun x => x column = r column) ∈
        groupRows column cleaned.rows :=
      mem_groups.mpr ⟨List.mem_map.mpr ⟨r, hmem, rfl⟩, rfl⟩
    obtain ⟨k, hk, hget⟩ := List.mem_iff_getElem.mp hgroup
    have hlt : k < n := by
      rw [hn]
      simp only [writeCount, hcolumn, if_neg hdf, hcleaned]
      exact hk
    obtain ⟨w, hw, hplanned⟩ := hended.planned_written rfl k hlt
    refine ⟨w, hw, ?_⟩
    cases hplanned with
    | replace hnot hvalue hframe => exact absurd rfl hnot
    | upsert hupsert hvalue hframe => simp [partitionValue, hcolumn] at hvalue
    | group hspans' hcolumn' hdf' hcleaned' hgroup' hframe =>
      rw [hcolumn] at hcolumn'
      obtain rfl := Option.some.inj hcolumn'
      rw [hcleaned] at hcleaned'
      obtain rfl := Except.ok.inj hcleaned'
      rw [List.getElem?_eq_getElem hk, Option.some.injEq] at hgroup'
      rw [← hgroup', hget] at hframe
      rw [lies_iff_readsAs hcolumn]
      exact (groupFrame_readsAs wf hcolumn hcolumns hsettled hgroup hframe).1
  · rw [writeCount_single hspans] at hn
    obtain ⟨w, hw, hplanned⟩ := hended.planned_written rfl 0 (by omega)
    refine ⟨w, hw, ?_⟩
    cases hplanned with
    | replace hnot hvalue hframe =>
      obtain ⟨fresh, hprepare, -⟩ := bind_eq_ok.mp hframe
      exact lies_of_prepared wf hvalue hprepare hr
    | upsert hupsert hvalue hframe =>
      obtain ⟨fresh, hprepare, -⟩ := bind_eq_ok.mp hframe
      exact lies_of_prepared wf hvalue hprepare hr
    | group hspans' => exact absurd hspans' hspans

private theorem accepted_files (wf : d.WellFormed) {st' : Store} {n : ℕ}
    {written : List (String × Frame)} {last : Option (String × Frame)} {grouped : Bool}
    (hstored : ∀ v rows, st.files d.id v = some rows → StoredWell p d v rows)
    (hmode : mode ≠ .replace) (hgrouped : grouped = true ↔ SpansPartitions d partition mode)
    (hended : WriteEnded p h env d df partition mode false st st' false n written last)
    (hprepared : SpansPartitions d partition mode → ¬(df.rows = [] ∨ df.columns = []) →
      ∃ cleaned, prepareDatasetFrame p env d df none true = .ok cleaned) (value : String) :
    st'.files d.id value =
        some (storedRows p d env mode grouped st value (incomingRows p d df)) ∨
      rowsOf p d value (incomingRows p d df) = [] ∧
        st'.files d.id value = st.files d.id value := by
  obtain ⟨rfl, -⟩ := hended.finished rfl
  have hfiles : st'.files d.id value = (putAll p h d written st).files d.id value := by
    rw [← hended.data.files]
    rfl
  rw [hfiles]
  by_cases hvalue : value ∈ written.map Prod.fst
  · obtain ⟨w, hw, rfl⟩ := List.mem_map.mp hvalue
    obtain ⟨k, -, hplanned⟩ := hended.written_planned w hw
    rw [putAll_files_of_mem hended.distinct hw,
      planned_rows wf hstored hmode hgrouped hplanned]
    exact Or.inl rfl
  · refine Or.inr ⟨?_, putAll_files_of_not_mem hvalue⟩
    unfold rowsOf
    rw [List.filter_eq_nil_iff]
    intro r hr hlies
    have hshaped : SpansPartitions d partition mode → df.columns ≠ [] := by
      intro hspans hcolumns
      rw [not_lies_of_columnless wf hspans.2.1 hcolumns hr] at hlies
      cases hlies
    obtain ⟨w, hw, hlies'⟩ := row_written wf hmode hended hprepared hr hshaped
    exact hvalue (List.mem_map.mpr ⟨w, hw, lies_unique hlies' hlies⟩)

end Accepted

/-! Whole calls -/

section Calls

variable {p : Pandas} {h : Hashing} {d : DatasetDefinition} {dataset : String}
  {df : Frame} {partition : Partition} {mode : Option WriteMode} {st : Store}

def Accepts (p : Pandas) (h : Hashing) (dataset : String) (df : Frame) (partition : Partition)
    (mode : Option WriteMode) (st : Store) (env : WriteEnv) : Prop :=
  raised (writeDataset p h env dataset df partition mode false st).1 = false

theorem writeDataset_eq (env : WriteEnv) (hd : datasetDefinition dataset = .ok d) :
    writeDataset p h env dataset df partition mode false st =
      match mode.getD d.defaultWriteMode with
      | .upsert => writeDatasetUpsert p h env d df partition false st
      | .merge => writeDatasetReplace p h env d df partition true st
      | .replace => writeDatasetReplace p h env d df partition false st := by
  unfold writeDataset
  cases hmode : mode.getD d.defaultWriteMode <;>
    simp only [hd, hmode, Bool.false_eq_true, false_and, if_false]

private theorem accepts_of_single {env env' : WriteEnv} (hd : datasetDefinition dataset = .ok d)
    (hsingle : d.sortColumns.length = 1) (henv : Succeeds env)
    (hstored : ∀ v rows, st.files d.id v = some rows → StoredWell p d v rows)
    (haccepts : Accepts p h dataset df partition mode st env') :
    Accepts p h dataset df partition mode st env := by
  have hmem : d ∈ datasetCatalog := (mem_datasetCatalog hd).1
  have wf : d.WellFormed := wellFormed_of_mem hmem
  have hfree : OrderFree d := wf.single_free hsingle
  unfold Accepts at haccepts ⊢
  rw [writeDataset_eq env' hd] at haccepts
  rw [writeDataset_eq env hd]
  cases hmode : mode.getD d.defaultWriteMode with
  | upsert =>
    rw [hmode] at haccepts
    exact writeDatasetUpsert_accepts wf hfree henv hstored haccepts
  | merge =>
    rw [hmode] at haccepts
    exact writeDatasetReplace_accepts wf hfree henv hstored haccepts
  | replace =>
    rw [hmode] at haccepts
    exact writeDatasetReplace_accepts wf hfree henv hstored haccepts

private theorem accepts_prepared {env : WriteEnv} (hd : datasetDefinition dataset = .ok d)
    (haccepts : Accepts p h dataset df partition mode st env)
    (hspans : SpansPartitions d partition (mode.getD d.defaultWriteMode))
    (hdf : ¬(df.rows = [] ∨ df.columns = [])) :
    ∃ cleaned, prepareDatasetFrame p env d df none true = .ok cleaned := by
  obtain ⟨hmode, hcolumn, rfl⟩ := hspans
  obtain ⟨column, hcolumn⟩ := Option.ne_none_iff_exists'.mp hcolumn
  unfold Accepts at haccepts
  rw [writeDataset_eq env hd, hmode] at haccepts
  simp only [writeDatasetUpsert, hcolumn, if_neg hdf] at haccepts
  cases hprepare : prepareDatasetFrame p env d df none true with
  | error e =>
    rw [hprepare] at haccepts
    cases haccepts
  | ok cleaned => exact ⟨cleaned, rfl⟩

private theorem prevailsIn_of_none {value : String} {mode : WriteMode} {rows : List Row}
    (hnone : rowsOf p d value rows = []) : PrevailsIn p d mode st value rows := by
  constructor
  · intro k w hw
    rw [hnone] at hw
    cases hw
  · intro _ _
    rw [hnone]
    exact List.nodup_nil

theorem accepts_ended {env : WriteEnv} (hd : datasetDefinition dataset = .ok d)
    (haccepts : Accepts p h dataset df partition mode st env) :
    ∃ n written last, WriteEnded p h env d df partition (mode.getD d.defaultWriteMode) false st
      (writeDataset p h env dataset df partition mode false st).2 false n written last := by
  obtain ⟨n, written, last, hended⟩ := writeDataset_ended p h env hd df partition mode false st
  unfold Accepts at haccepts
  rw [haccepts] at hended
  exact ⟨n, written, last, hended⟩

private theorem planned_replaced {env : WriteEnv} (wf : d.WellFormed) {skip : Bool} {n : ℕ}
    {value : String}
    {frame : Frame} (hplanned : Planned p env d df partition .replace skip st n value frame) :
    partitionValue p d partition = .ok value ∧ ∃ coerced, coercedFrame p d df = .ok coerced ∧
      (∀ r ∈ coerced.rows, InPartition p d value r) ∧
      frame.rows = sortValues env d.sortColumns coerced.rows := by
  cases hplanned with
  | upsert hupsert _ _ => cases hupsert
  | group hspans _ _ _ _ _ => cases hspans.1
  | replace _ hvalue hframe =>
    obtain ⟨incoming, hprepare, hrest⟩ := bind_eq_ok.mp hframe
    rw [if_neg (by simp)] at hrest
    obtain rfl := Except.ok.inj hrest
    obtain ⟨coerced, hcoerced, hcheck, hrows, -⟩ := prepareDatasetFrame_rows wf hprepare
    refine ⟨hvalue, coerced, hcoerced, fun r hr => ?_, by rw [hrows]⟩
    exact (checkPartition_eq_ok hvalue).mp (hcheck (List.ne_nil_of_mem hr)) r hr

theorem writeDataset_replaced {env : WriteEnv} (hmem : d ∈ datasetCatalog)
    (hdef : datasetDefinition d.id = .ok d) (hmode : d.defaultWriteMode = .replace)
    (hreturned : raised (writeDataset p h env d.id df partition none false st).1 = false) :
    ∃ value coerced, partitionValue p d partition = .ok value ∧ coercedFrame p d df = .ok coerced ∧
      (∀ r ∈ coerced.rows, InPartition p d value r) ∧
      (writeDataset p h env d.id df partition none false st).2.files d.id value =
        some (sortValues env d.sortColumns coerced.rows) ∧
      ∀ v, v ≠ value → (writeDataset p h env d.id df partition none false st).2.files d.id v =
        st.files d.id v := by
  obtain ⟨n, written, last, hended⟩ := accepts_ended hdef hreturned
  rw [Option.getD_none, hmode] at hended
  obtain ⟨rfl, hcount⟩ := hended.finished rfl
  have hn : 0 < n := by
    rw [hcount, writeCount_single fun hspans => by cases hspans.1]
    exact Nat.one_pos
  obtain ⟨wrote, hwrote, hplanned⟩ := hended.planned_written rfl 0 hn
  obtain ⟨hvalue, coerced, hcoerced, hin, hrows⟩ :=
    planned_replaced (wellFormed_of_mem hmem) hplanned
  refine ⟨wrote.1, coerced, hvalue, hcoerced, hin, ?_, fun v hne => ?_⟩
  · rw [← hended.data.files, ← hrows]
    exact putAll_files_of_mem hended.distinct hwrote
  · rcases hended.whole v with hsame | ⟨_, _, hother, -⟩
    · exact hsame
    · obtain ⟨hvalue', -⟩ := planned_replaced (wellFormed_of_mem hmem) hother
      exact absurd (Except.ok.inj (hvalue'.symm.trans hvalue)) hne

theorem writeDataset_replace_file {env : WriteEnv} (hmem : d ∈ datasetCatalog)
    (hdef : datasetDefinition d.id = .ok d) (hmode : d.defaultWriteMode = .replace)
    (value : String) :
    (writeDataset p h env d.id df partition none false st).2.files d.id value =
      st.files d.id value ∨
    (partitionValue p d partition = .ok value ∧ ∃ coerced, coercedFrame p d df = .ok coerced ∧
      (writeDataset p h env d.id df partition none false st).2.files d.id value =
        some (sortValues env d.sortColumns coerced.rows)) := by
  obtain ⟨n, written, last, hended⟩ := writeDataset_ended p h env hdef df partition none false st
  rw [Option.getD_none, hmode] at hended
  refine (hended.whole value).imp_right ?_
  rintro ⟨k, frame, hplanned, hfile⟩
  obtain ⟨hvalue, coerced, hcoerced, -, hrows⟩ :=
    planned_replaced (wellFormed_of_mem hmem) hplanned
  rw [hrows] at hfile
  exact ⟨hvalue, coerced, hcoerced, hfile⟩

/-- Where a merge or an upsert leaves the keyed write law, in a store that calls
of `write_dataset` have filled: under every environment it is kept if and only
if the incoming frame prevails. -/
theorem keyed_write_law_iff {st₀ : Store} {calls : List WriteCall}
    (hempty : ∀ dataset value, st₀.files dataset value = none)
    (run : exec (callStep p h) st₀ calls = some st) (hd : datasetDefinition dataset = .ok d)
    (hmode : mode.getD d.defaultWriteMode ≠ .replace)
    (haccepts : ∃ env, Accepts p h dataset df partition mode st env) :
    (∀ env, Accepts p h dataset df partition mode st env →
      KeyedWriteLaw p d (incomingRows p d df) st
        (writeDataset p h env dataset df partition mode false st).2) ↔
    IncomingPrevails p d df partition (mode.getD d.defaultWriteMode) st := by
  have hmem : d ∈ datasetCatalog := (mem_datasetCatalog hd).1
  have wf : d.WellFormed := wellFormed_of_mem hmem
  have hstored : ∀ v rows, st.files d.id v = some rows → StoredWell p d v rows :=
    wellStored_of_calls hempty run d hmem
  obtain ⟨grouped, hgrouped⟩ : ∃ grouped : Bool,
      grouped = true ↔ SpansPartitions d partition (mode.getD d.defaultWriteMode) := by
    by_cases hspans : SpansPartitions d partition (mode.getD d.defaultWriteMode)
    · exact ⟨true, by simp [hspans]⟩
    · exact ⟨false, by simp [hspans]⟩
  have hfiles : ∀ env, Accepts p h dataset df partition mode st env → ∀ value,
      (writeDataset p h env dataset df partition mode false st).2.files d.id value =
          some (storedRows p d env (mode.getD d.defaultWriteMode) grouped st value
            (incomingRows p d df)) ∨
        rowsOf p d value (incomingRows p d df) = [] ∧
          (writeDataset p h env dataset df partition mode false st).2.files d.id value =
            st.files d.id value := by
    intro env henv value
    obtain ⟨n, written, last, hended⟩ := accepts_ended hd henv
    exact accepted_files wf hstored hmode hgrouped hended (accepts_prepared hd henv) value
  constructor
  · intro law
    -- a partition with incoming rows holds what the environment made of them
    have hlaw : ∀ env, Accepts p h dataset df partition mode st env → ∀ value,
        rowsOf p d value (incomingRows p d df) ≠ [] →
        KeyedUpsert (rowKey d.uniqueColumns) (content st d value)
          (rowsOf p d value (incomingRows p d df))
          (storedRows p d env (mode.getD d.defaultWriteMode) grouped st value
            (incomingRows p d df)) := by
      intro env henv value hne
      rcases (law env henv).inEach value with hupsert | ⟨hnone, -⟩
      · rcases hfiles env henv value with hfile | ⟨hnone, -⟩
        · simpa [content, hfile] using hupsert
        · exact absurd hnone hne
      · exact absurd hnone hne
    obtain ⟨env₀, henv₀⟩ := haccepts
    constructor
    · intro hspans hcolumns
      rw [List.eq_nil_iff_forall_not_mem]
      intro r hr
      obtain ⟨value, hlies⟩ := (law env₀ henv₀).placed r hr
      rw [not_lies_of_columnless wf hspans.2.1 hcolumns hr] at hlies
      cases hlies
    · intro value
      by_cases hnone : rowsOf p d value (incomingRows p d df) = []
      · exact prevailsIn_of_none hnone
      · by_cases hsingle : d.sortColumns.length = 1
        · obtain ⟨c, hc⟩ := List.length_eq_one_iff.mp hsingle
          let envs : (Sorter fun r : Row => (r c).rank) → WriteEnv := fun s =>
            { WriteEnv.plain true with
              sortValues := Function.update (WriteEnv.plain true).sortValues c s }
          have henvs : ∀ s, (envs s).sortValues c = s :=
            fun s => Function.update_self c s (WriteEnv.plain true).sortValues
          refine (keyedUpsert_storedRows_single hc henvs).mp fun s => hlaw (envs s) ?_ value hnone
          exact accepts_of_single hd hsingle (fun _ => rfl) hstored henv₀
        · exact (keyedUpsert_storedRows_several env₀ hsingle).mp (hlaw env₀ henv₀ value hnone)
  · intro hprevails env henv
    constructor
    · intro r hr
      obtain ⟨n, written, last, hended⟩ := accepts_ended hd henv
      obtain ⟨w, -, hlies⟩ := row_written wf hmode hended (accepts_prepared hd henv) hr
        fun hspans hcolumns => by
          rw [hprevails.shaped hspans hcolumns] at hr
          cases hr
      exact ⟨w.1, hlies⟩
    · intro value
      rcases hfiles env henv value with hfile | hother
      · refine Or.inl ?_
        unfold content at *
        rw [hfile]
        exact keyedUpsert_of_prevailsIn env (hprevails.inEach value)
      · exact Or.inr hother

end Calls

/-- A partition of one row that is neither the incoming one nor of another key. -/
private theorem not_keyedWriteLaw_of_stale {p : Pandas} {d : DatasetDefinition} {rows : List Row}
    {st st' : Store} {value : String} {columns : List String} {stale fresh : List Cell}
    (hincoming : (rowsOf p d value rows).map (rowKey (d.uniqueColumns ++ columns)) = [fresh])
    (hstored : (content st' d value).map (rowKey (d.uniqueColumns ++ columns)) = [stale])
    (hkey : stale.take d.uniqueColumns.length = fresh.take d.uniqueColumns.length)
    (hne : stale ≠ fresh) : ¬KeyedWriteLaw p d rows st st' := by
  intro law
  obtain ⟨w, hw, hcells⟩ := List.map_eq_singleton_iff.mp hincoming
  obtain ⟨a, ha, hcells'⟩ := List.map_eq_singleton_iff.mp hstored
  have htake : ∀ r, (rowKey (d.uniqueColumns ++ columns) r).take d.uniqueColumns.length =
      rowKey d.uniqueColumns r := by
    intro r
    simp [rowKey]
  have hsame : rowKey d.uniqueColumns w = rowKey d.uniqueColumns a := by
    rw [← htake, ← htake, hcells, hcells', hkey]
  rcases law.inEach value with hupsert | ⟨hnone, -⟩
  · have hlast : lastOf (rowKey d.uniqueColumns) (rowKey d.uniqueColumns a) [w] = some w := by
      simp [lastOf, lastSat, hsame]
    rw [hw] at hupsert
    have heq : a = w := hupsert.fresh a (by rw [ha]; exact List.mem_cons_self) w hlast
    exact hne (by rw [← hcells, ← hcells', heq])
  · rw [hw] at hnone
    cases hnone

/-! A session of the trading calendar that a merge corrects, with a sort that does
not keep ties; and a delisted security whose market an upsert corrects. -/

/-- A sort that turns the input round first, so that ties come out reversed. -/
def Sorter.reversed (rank : Row → Rank) : Sorter rank where
  sort l := stableSort rank l.reverse
  perm l := (stableSort_perm rank _).trans l.reverse_perm
  sorted _ := stableSort_sorted rank _

def WriteEnv.reversed : WriteEnv where
  sortValues _ := Sorter.reversed _
  io _ := ⟨true, fun _ => .written, true⟩

def calendarOf (day : Int) (isTradingDay : String) : Frame :=
  ⟨["calendar_date", "is_trading_day"], fun _ => .object,
    [rowOf [("calendar_date", .date day), ("is_trading_day", .text isTradingDay)]]⟩

def delistOf (market : String) : Frame :=
  ⟨["snapshot_date", "exchange", "market", "code"], fun _ => .object,
    [rowOf [("snapshot_date", .date 19724), ("exchange", .text "sh"), ("market", .text market),
      ("code", .text "600001")]]⟩

def storeOf (dataset : String) (df : Frame) (mode : WriteMode) : Store :=
  (writeDataset .plain .plain (.plain true) dataset df none (some mode) false .empty).2

def LawHolds (d : DatasetDefinition) (df : Frame) (mode : WriteMode) (st : Store) : Prop :=
  ∀ env, Accepts .plain .plain d.id df none (some mode) st env →
    KeyedWriteLaw .plain d (incomingRows .plain d df) st
      (writeDataset .plain .plain env d.id df none (some mode) false st).2

theorem keyed_write_law_for_next_session :
    LawHolds baostockCnTradingCalendarDataset (calendarOf 19725 "1") .merge
      (storeOf "baostock_cn_trading_calendar" (calendarOf 19724 "0") .merge) ↔
    IncomingPrevails .plain baostockCnTradingCalendarDataset (calendarOf 19725 "1") none .merge
      (storeOf "baostock_cn_trading_calendar" (calendarOf 19724 "0") .merge) :=
  @keyed_write_law_iff .plain .plain baostockCnTradingCalendarDataset _ _ none (some .merge) _
    .empty [⟨.plain true, "baostock_cn_trading_calendar", calendarOf 19724 "0", none, some .merge,
      false⟩] (fun _ _ => rfl) rfl rfl (by decide) ⟨.plain true, by unfold Accepts; decide +kernel⟩

/-- Stored rows survive the write of their correction: by a tie in the sort, or
because they sort last. -/
theorem stale_rows_survive_writes :
    ¬LawHolds baostockCnTradingCalendarDataset (calendarOf 19724 "1") .merge
        (storeOf "baostock_cn_trading_calendar" (calendarOf 19724 "0") .merge) ∧
      ¬LawHolds akshareDelistShDataset (delistOf "A") .upsert
        (storeOf "akshare_cn_stock_delist_sh" (delistOf "B") .upsert) := by
  constructor
  · intro law
    refine @not_keyedWriteLaw_of_stale _ _ _ _ _ "" ["is_trading_day"]
      [.date 19724, .text "0"] [.date 19724, .text "1"] ?_ ?_ rfl (by decide)
      (law .reversed (by unfold Accepts; decide +kernel))
    · decide +kernel
    · decide +kernel
  · intro law
    refine @not_keyedWriteLaw_of_stale _ _ _ _ _ "2024-01-02" ["market"]
      [.date 19724, .text "sh", .text "600001", .text "B"]
      [.date 19724, .text "sh", .text "600001", .text "A"] ?_ ?_ rfl (by decide)
      (law (.plain true) (by unfold Accepts; decide +kernel))
    · decide +kernel
    · decide +kernel

end QuantDataCenter.Storage
